import Tenet.HandshakeStep
import Tenet.Lib.Handover
import Tenet.Lib.Run
import Tenet.Receive
import Tenet.Rehandshake

/-! Two connected nodes that exchange data over one TCP connection while one of them re-handshakes over
it. A call of `Send` holds `sendMu` from its first fragment to its last, and the reader waits for
`sendMu` before it replaces the session, but writes its handshake messages without it. -/

namespace Tenet

open Lib

namespace Node

/-- `processHandshake` up to the lock that a finished handshake waits for: the node, the response
that it has written, and the session that it has to install. -/
def readHandshake (n : Node) (remoteAddr : NetAddr) (transport : Transport) (payload : Message)
    (ephemeral : Key) (now : Int) : Node × Option Message × Option Session :=
  let stateKey := (transport, remoteAddr.text)
  let hs := n.pendingHandshake stateKey ephemeral now
  match hs.processMessage payload with
  | none =>
      if (n.addrToPeer.get remoteAddr.text).isSome then
        ({ n with pendingHandshakes := n.pendingHandshakes.set stateKey hs }, none, none)
      else ({ n with pendingHandshakes := n.pendingHandshakes.delete stateKey }, none, none)
  | some (hs, response, session) =>
      ({ n with pendingHandshakes := n.pendingHandshakes.set stateKey hs }, response, session)

/-- Where nobody holds the lock, the session is installed at once. -/
theorem processHandshake_eq_readHandshake (env : Env) (n : Node) (conn : Option ConnId)
    (remoteAddr : NetAddr) (transport : Transport) (payload : Message) (ephemeral : Key)
    (now : Int) :
    let read := n.readHandshake remoteAddr transport payload ephemeral now
    (n.processHandshake env conn remoteAddr transport payload ephemeral now).1 =
      match read.2.2 with
      | none => read.1
      | some session => (read.1.sessionEstablished env conn remoteAddr transport session now).1 := by
  rcases result : (n.pendingHandshake (transport, remoteAddr.text) ephemeral now).processMessage
    payload with _ | ⟨hs, response, _ | session⟩
  · simp only [processHandshake, readHandshake, result]
    split <;> rfl
  · simp only [processHandshake, readHandshake, result]
  · simp only [processHandshake, readHandshake, result]

end Node

namespace SessionSwitch

open Handover Lib.Run

abbrev Line := List (Parcel Message Bytes)

structure Link where
  initiator : Side
  addr : Side → NetAddr
  conn : Side → ConnId
  key : Side → Key
  prologue : Bytes

namespace Link

variable (link : Link)

def responder : Side := link.initiator.other

def peerID (env : Env) (side : Side) : Bytes := peerIDOf env (link.key side.other)

def stateKey (side : Side) : Transport × Bytes := (.tcp, (link.addr side).text)

end Link

/-- A node with the call that holds `sendMu`, the session that its reader is about to install, the
payloads of the calls that have returned without an error, and those that it has handled. -/
structure Party where
  node : Node
  sending : Option (Call UInt8)
  installing : Option Session
  returned : List Bytes
  handled : List Bytes

structure State where
  party : Side → Party
  flight : Side → Line
  started : Bool

inductive Event where
  | send (side : Side) (channelName data : Bytes)
  | fragment (side : Side)
  | rehandshake (ephemeral : Key) (now : Int)
  | deliver (side : Side) (ephemeral : Key) (now : Int)
  | install (side : Side) (now : Int)
  deriving DecidableEq, Repr

section

variable (env : Env) (aead : Aead) (link : Link)

def Party.send (party : Party) (side : Side) (channelName data : Bytes) : Party :=
  let n := party.node
  match n.peers.get (link.peerID env side) with
  | none => party
  | some p =>
      match n.sendPath p none with
      | (_, .ok (.tcp _)) =>
          if party.sending.isNone ∧ n.isChannelSubscribed (hashChannelName env channelName) ∧
              link.peerID env side ≠ n.id ∧ p.session.isSome then
            let payload := appFrameTypeUserWithChannel :: (hashChannelName env channelName ++ data)
            { party with sending := some ⟨payload, Fragment.split maxPayloadSize payload⟩ }
          else party
      | _ => party

/-- The next `sendFrame` of the running call, on a connection that takes every write. The call
returns after its last fragment. -/
def Party.fragment (party : Party) (side : Side) : Party × Line :=
  match party.sending, party.node.peers.get (link.peerID env side) with
  | some ⟨payload, frame :: left⟩, some p =>
      match p.session.bind fun session =>
          session.encrypt aead (frameType frame.kind :: frame.body) with
      | none => ({ party with sending := none }, [])
      | some (encrypted, session) =>
          ({ party with
              node := { party.node with
                peers := party.node.peers.add { p with session := some session } }
              sending := if left = [] then none else some ⟨payload, left⟩
              returned := if left = [] then party.returned ++ [payload] else party.returned },
            [.wrapped encrypted])
  | _, _ => (party, [])

def Party.receive (party : Party) (side : Side) (ephemeral : Key) (now : Int) :
    Parcel Message Bytes → Party × Line
  | .note message =>
      let read := party.node.readHandshake (link.addr side) .tcp message ephemeral now
      ({ party with node := read.1, installing := read.2.2 }, read.2.1.toList.map .note)
  | .wrapped bytes =>
      ({ party with
          node := (party.node.processData aead (link.addr side).text bytes).1
          handled := party.handled ++
            (party.node.handedFrame aead (link.addr side).text bytes).toList }, [])

def Party.install (party : Party) (side : Side) (session : Session) (now : Int) : Party :=
  { party with
    node := (party.node.sessionEstablished env (some (link.conn side)) (link.addr side) .tcp session
      now).1
    installing := none }

def State.act (s : State) (side : Side) (party : Party) (left sent : Line) : State :=
  { s with
    party := Function.update s.party side party
    flight := fun each => if each = side then left else s.flight each ++ sent }

def step (s : State) : Event → State
  | .send side channelName data =>
      s.act side ((s.party side).send env link side channelName data) (s.flight side) []
  | .fragment side =>
      let written := (s.party side).fragment env aead link side
      s.act side written.1 (s.flight side) written.2
  | .rehandshake ephemeral now =>
      let party := s.party link.initiator
      match party.node.peers.get (link.peerID env link.initiator) with
      | some p =>
          if s.started then s
          else
            let sent := party.node.sendFastRehandshake p ephemeral now true
            { s.act link.initiator { party with node := sent.1 } (s.flight link.initiator)
                ((handshakeReplies sent.2.1).map .note) with
              started := true }
      | none => s
  | .deliver side ephemeral now =>
      match s.flight side, (s.party side).installing with
      | parcel :: left, none =>
          let read := (s.party side).receive aead link side ephemeral now parcel
          s.act side read.1 left read.2
      | _, _ => s
  | .install side now =>
      match (s.party side).installing, (s.party side).sending with
      | some session, none =>
          s.act side ((s.party side).install env link side session now) (s.flight side) []
      | _, _ => s

def begin (node : Side → Node) : State where
  party side := ⟨node side, none, none, [], []⟩
  flight _ := []
  started := false

end

/-- Each side has handled calls of the other that have returned, each of them once and in order, and
all of them when nothing is on its way. -/
def DeliveredOnce (s : State) : Prop :=
  ∀ side, (s.party side.other).handled <+: (s.party side).returned ∧
    (s.flight side.other = [] → (s.party side.other).handled = (s.party side).returned)

/-- The side has answered a message 1, or finished with a message 2 or 3, and does not have the new
session yet. -/
def Switching (link : Link) (party : Party) (side : Side) : Prop :=
  party.installing.isSome = true ∨
    (party.node.pendingHandshakes.get (link.stateKey side)).any (fun hs =>
      hs.stage matches .awaitThree _) = true

instance decidableSwitching (link : Link) (party : Party) (side : Side) :
    Decidable (Switching link party side) := by
  unfold Switching
  infer_instance

/-- No fragment is written by a side that is switching, and no payload is too long to be joined. -/
def Undivided (env : Env) (link : Link) (s : State) : Event → Prop
  | .fragment side => ¬Switching link (s.party side) side
  | .send _ channelName data =>
      (hashChannelName env channelName ++ data).length + 1 ≤ maxReassemblySize
  | _ => True

instance decidableUndivided (env : Env) (link : Link) (s : State) (event : Event) :
    Decidable (Undivided env link s event) := by
  cases event <;> unfold Undivided <;> infer_instance

/-- The nodes know each other, have the two ends of one session on this connection, and no handshake
is pending on it. -/
structure Connected (env : Env) (link : Link) (node : Side → Node) : Prop where
  key : ∀ side, (node side).identity.noisePublicKey = link.key side
  prologue : ∀ side, prologuePrefix ++ (node side).config.networkPassword = link.prologue
  mapped : ∀ side, (node side).addrToPeer.get (link.addr side).text = some (link.peerID env side)
  idle : ∀ side, (node side).pendingHandshakes.get (link.stateKey side) = none
  record : ∀ side, ∃ p, (node side).peers.get (link.peerID env side) = some p ∧
    p.transport = .tcp ∧ p.addr = link.addr side ∧ p.conn = some (link.conn side)
  session : ∀ side, ∃ p q cipher, (node side).peers.get (link.peerID env side) = some p ∧
    (node side.other).peers.get (link.peerID env side.other) = some q ∧
    p.session.bind Session.sendCipher = some cipher ∧
    q.session.bind Session.recvCipher = some cipher

end SessionSwitch

end Tenet
