import Tenet.Relay
import Tenet.Lib.Run

/-! The node as a state machine: everything that changes its peers, addresses and relay tables. -/

namespace Tenet

open Lib

namespace Node

def registerPendingHandshakes (n : Node) (remoteUDPAddr remoteTCPAddr : Bytes)
    (udpHandshakeState tcpHandshakeState : HandshakeState) : Node :=
  { n with
    pendingHandshakes :=
      (n.pendingHandshakes.set (.udp, remoteUDPAddr) udpHandshakeState).set
        (.tcp, remoteTCPAddr) tcpHandshakeState }

/-- What `connectViaRelay` writes down before it sends. -/
def registerRelayHandshake (n : Node) (relayAddr targetAddr : Bytes) (hs : HandshakeState) : Node :=
  { n with
    pendingHandshakes := n.pendingHandshakes.set (.udp, relayAddr) hs
    relayPendingTarget := n.relayPendingTarget.set relayAddr targetAddr }

end Node

inductive Event where
  | connect (remoteUDPAddr remoteTCPAddr : Bytes) (udpState tcpState : HandshakeState)
  | connectViaRelay (relayAddr targetAddr : Bytes) (hs : HandshakeState)
  | handshake (conn : Option ConnId) (remoteAddr : NetAddr) (transport : Transport)
      (payload : Message) (ephemeral : Key) (now : Int)
  | relayPacket (origin payload : Bytes) (now : Int)
  | heartbeat (conn : Option ConnId) (remoteAddr : NetAddr) (transport : Transport) (now : Int)
      (timestamp : Nat)
  | upgradePeer (peerID remoteAddr : Bytes) (dial : Option UInt32)
  | removePeer (peerID : Bytes) (shouldReconnect : Bool)
  | cleanupStaleMappings (now : Int)

def Node.step (env : Env) (n : Node) : Event → Node
  | .connect remoteUDPAddr remoteTCPAddr udpState tcpState =>
      n.registerPendingHandshakes remoteUDPAddr remoteTCPAddr udpState tcpState
  | .connectViaRelay relayAddr targetAddr hs => n.registerRelayHandshake relayAddr targetAddr hs
  | .handshake conn remoteAddr transport payload ephemeral now =>
      (n.processHandshake env conn remoteAddr transport payload ephemeral now).1
  | .relayPacket origin payload now => (n.handleRelayPacket env origin payload now).1
  | .heartbeat conn remoteAddr transport now timestamp =>
      (n.processHeartbeat conn remoteAddr transport now timestamp).1
  | .upgradePeer peerID remoteAddr dial => (n.upgradePeer peerID remoteAddr dial).1
  | .removePeer peerID shouldReconnect => (n.removePeerWithReconnect peerID shouldReconnect).1
  | .cleanupStaleMappings now => n.cleanupStaleMappings now

def startedNode (env : Env) (cfg : Config) (identity : Identity) (kcpStarted : Bool) : Node :=
  (newNode env cfg identity).start env kcpStarted

@[simp] theorem startedNode_peers (env : Env) (cfg : Config) (identity : Identity)
    (kcpStarted : Bool) (id : Bytes) :
    (startedNode env cfg identity kcpStarted).peers.get id = none :=
  PeerStore.get_empty id

theorem processHeartbeat_eq (n : Node) (conn : Option ConnId) (remoteAddr : NetAddr)
    (transport : Transport) (now : Int) (timestamp : Nat) :
    (n.processHeartbeat conn remoteAddr transport now timestamp).1 = n ∨
      ∃ id p, n.peers.get id = some p ∧
        (n.processHeartbeat conn remoteAddr transport now timestamp).1 =
          { n with peers := n.peers.add (p.updateLastSeen now) } := by
  unfold Node.processHeartbeat
  split
  · exact Or.inl rfl
  · next p found =>
      rcases Option.bind_eq_some_iff.mp found with ⟨id, _, stored⟩
      exact Or.inr ⟨id, p, stored, rfl⟩

end Tenet
