import Tenet.Events
import Tenet.HandshakeStep
import Tenet.Lib.Network

/-! `Connect` over UDP between two nodes, on a network that repeats and delays datagrams. -/

namespace Tenet

open Lib

/-- `buildInitiatorHandshakePackets`: independent states and first messages for UDP and TCP. -/
def Node.buildInitiatorHandshakePackets (n : Node) (udpEphemeral tcpEphemeral : Key) (now : Int) :
    (HandshakeState × Message) × (HandshakeState × Message) :=
  (newInitiatorHandshake n.identity.noisePublicKey n.config.networkPassword udpEphemeral now,
    newInitiatorHandshake n.identity.noisePublicKey n.config.networkPassword tcpEphemeral now)

/-- A call of `Connect`: the UDP addresses of the two nodes, the TCP address of the remote one, and
the handshakes that were built for them. -/
structure ConnectCall where
  addrA : Bytes
  addrB : Bytes
  remoteTCPAddr : Bytes
  udp : HandshakeState × Message
  tcp : HandshakeState × Message

/-- The caller, the other node, the handshake datagrams with their destinations, and whether the
call has got as far as `registerPendingHandshakes`. -/
structure Connecting where
  a : Node
  b : Node
  network : Network (Side × Message)
  registered : Bool

inductive ConnectEvent where
  /-- the UDP worker writes message 1 -/
  | send
  | register
  /-- a datagram arrives, again or for the first time -/
  | deliver (index : Nat) (ephemeral : Key) (now : Int)
  deriving DecidableEq, Repr

namespace Connecting

/-- The workers start before the states are registered. -/
def step (env : Env) (call : ConnectCall) (s : Connecting) : ConnectEvent → Connecting
  | .send => { s with network := s.network.post [(.b, call.udp.2)] }
  | .register =>
      if s.registered then s
      else
        { s with
          a := s.a.registerPendingHandshakes call.addrB call.remoteTCPAddr call.udp.1 call.tcp.1
          registered := true }
  | .deliver index ephemeral now =>
      match s.network[index]? with
      | none => s
      | some ⟨(.a, message), _⟩ =>
          let received := s.a.processHandshake env none ⟨.udp, call.addrB⟩ .udp message ephemeral now
          { s with
            a := received.1
            network := s.network.exchange index ((handshakeReplies received.2).map (.b, ·)) }
      | some ⟨(.b, message), _⟩ =>
          let received := s.b.processHandshake env none ⟨.udp, call.addrA⟩ .udp message ephemeral now
          { s with
            b := received.1
            network := s.network.exchange index ((handshakeReplies received.2).map (.a, ·)) }

def isOne (call : ConnectCall) (message : Side × Message) : Bool :=
  decide (message = (.b, call.udp.2))

/-- Both nodes hold each other as peer with the ends of one handshake, and nothing is pending. -/
def Settled (env : Env) (call : ConnectCall) (keyA keyB : Key) (s : Connecting) : Prop :=
  (∃ atA atB initiator responder,
    s.a.peers.get (peerIDOf env keyB) = some atA ∧ atA.session = some initiator ∧
    s.b.peers.get (peerIDOf env keyA) = some atB ∧ atB.session = some responder ∧
    EndsOf initiator responder) ∧
  s.a.pendingHandshakes.get (.udp, call.addrB) = none ∧
  s.b.pendingHandshakes.get (.udp, call.addrA) = none

def begin (a b : Node) : Connecting := ⟨a, b, [], false⟩

/-- Message 1 was sent once and no datagram arrived twice. -/
def Once (call : ConnectCall) (s : Connecting) : Prop :=
  Network.sent (isOne call) s.network = 1 ∧ ∀ flight ∈ s.network, flight.deliveries = 1

instance (call : ConnectCall) (s : Connecting) : Decidable (s.Once call) := by
  unfold Once
  infer_instance

/-- The caller has registered its states before anything reaches it. -/
def RegisteredFirst (s : Connecting) : ConnectEvent → Prop
  | .send => True
  | .register => True
  | .deliver index _ _ => ∀ flight ∈ s.network[index]?, flight.message.1 = .a → s.registered = true

instance (s : Connecting) (event : ConnectEvent) : Decidable (s.RegisteredFirst event) := by
  cases event <;> unfold RegisteredFirst <;> infer_instance

end Connecting

structure Node.Stranger (env : Env) (n : Node) (addr : Bytes) (key : Key) : Prop where
  unmapped : n.addrToPeer.get addr = none
  unknown : n.peers.get (peerIDOf env key) = none
  room : n.isFull = false

def Node.connectCall (n : Node) (addrA addrB remoteTCPAddr : Bytes) (udpEphemeral tcpEphemeral : Key)
    (now : Int) : ConnectCall where
  addrA := addrA
  addrB := addrB
  remoteTCPAddr := remoteTCPAddr
  udp := (n.buildInitiatorHandshakePackets udpEphemeral tcpEphemeral now).1
  tcp := (n.buildInitiatorHandshakePackets udpEphemeral tcpEphemeral now).2

end Tenet
