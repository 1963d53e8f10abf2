import Tenet.Handshake

/-! `node/heartbeat.go`: removal of peers and the periodic cleanup of the tables. -/

namespace Tenet

open Lib

namespace Node

def removePeerWithReconnect (n : Node) (peerID : Bytes) (shouldReconnect : Bool) :
    Node × List Effect :=
  match n.peers.get peerID with
  | none => (n, [])
  | some p =>
      ({ n.removeSession peerID with
          addrToPeer := n.addrToPeer.retain fun _ pid => decide (pid ≠ peerID)
          peers := n.peers.remove peerID },
        p.close.2 ++
          (if n.onPeerDisconnected then [.onPeerDisconnected peerID] else []) ++
          if shouldReconnect ∧ p.originalAddr ≠ [] ∧ n.reconnectManager then
            [.scheduleReconnect peerID p.originalAddr]
          else [])

def isPeerAddr (n : Node) (addr : Bytes) : Bool :=
  n.peers.ids.any fun id => (n.peers.get id).any fun p => decide (p.addr.text = addr)

def cleanupStaleMappings (n : Node) (now : Int) : Node :=
  let addrToPeer := n.addrToPeer.retain fun _ peerID => (n.peers.get peerID).isSome
  { n with
    addrToPeer
    pendingHandshakes := n.pendingHandshakes.retain fun _ hs => decide (now - hs.createdAt ≤ 60)
    relayForward := n.relayForward.retain fun targetAddr _ => n.isPeerAddr targetAddr
    relayInbound := n.relayInbound.filter fun addr => (addrToPeer.get addr).isSome
    relayPendingTarget := n.relayPendingTarget.retain fun addr _ => (addrToPeer.get addr).isSome }

/-- The lookup that attributes a packet to a peer: the address table, then the store. -/
def peerAt (n : Node) (addr : Bytes) : Option Peer := (n.addrToPeer.get addr).bind n.peers.get

/-- A heartbeat is answered whether or not its sender is known. -/
def processHeartbeat (n : Node) (conn : Option ConnId) (remoteAddr : NetAddr)
    (transport : Transport) (now : Int) (timestamp : Nat) : Node × List Effect :=
  let answer := Effect.sendRaw conn remoteAddr transport (.raw (buildHeartbeatAckPacket timestamp))
  match n.peerAt remoteAddr.text with
  | none => (n, [answer])
  | some p => ({ n with peers := n.peers.add (p.updateLastSeen now) }, [answer])

def processHeartbeatAck (n : Node) (remoteAddr : Bytes) (now : Int) : Node :=
  match n.peerAt remoteAddr with
  | none => n
  | some p => { n with peers := n.peers.add (p.updateLastSeen now) }

end Node

theorem removePeerWithReconnect_peers (n : Node) (peerID : Bytes) (shouldReconnect : Bool)
    (id : Bytes) :
    (n.removePeerWithReconnect peerID shouldReconnect).1.peers.get id =
      if id = peerID then none else n.peers.get id := by
  unfold Node.removePeerWithReconnect
  split
  · next absent =>
      by_cases same : id = peerID
      · rw [if_pos same, same, absent]
      · rw [if_neg same]
  · exact PeerStore.get_remove n.peers peerID id

theorem removePeerWithReconnect_addrToPeer (n : Node) (peerID : Bytes) (shouldReconnect : Bool)
    (addr : Bytes) :
    (n.removePeerWithReconnect peerID shouldReconnect).1.addrToPeer.get addr =
      if (n.peers.get peerID).isSome ∧ n.addrToPeer.get addr = some peerID then none
      else n.addrToPeer.get addr := by
  unfold Node.removePeerWithReconnect
  split
  · next absent => simp only [absent, Option.isSome_none, Bool.false_eq_true, false_and, if_false]
  · next p present =>
      simp only [present, Option.isSome_some, true_and, GoMap.get_retain]
      cases n.addrToPeer.get addr with
      | none => rfl
      | some id =>
          by_cases same : id = peerID
          · simp [Option.filter, same]
          · simp [Option.filter, same]

theorem removePeerWithReconnect_frame (n : Node) (peerID : Bytes) (shouldReconnect : Bool) :
    ∃ mux kcpTransport addrToPeer peers,
      (n.removePeerWithReconnect peerID shouldReconnect).1 =
        { n with mux, kcpTransport, addrToPeer, peers } := by
  unfold Node.removePeerWithReconnect
  split
  · exact ⟨n.mux, n.kcpTransport, n.addrToPeer, n.peers, rfl⟩
  · obtain ⟨mux, kcpTransport, removed⟩ := n.removeSession_frame peerID
    rw [removed]
    exact ⟨mux, kcpTransport, _, _, rfl⟩

theorem removePeerWithReconnect_relaying (n : Node) (peerID : Bytes) (shouldReconnect : Bool) :
    SameRelaying (n.removePeerWithReconnect peerID shouldReconnect).1 n := by
  obtain ⟨_, _, _, _, same⟩ := removePeerWithReconnect_frame n peerID shouldReconnect
  rw [same]
  exact ⟨rfl, rfl⟩

theorem cleanupStaleMappings_addrToPeer (n : Node) (now : Int) (addr : Bytes) :
    (n.cleanupStaleMappings now).addrToPeer.get addr =
      (n.addrToPeer.get addr).filter fun peerID => (n.peers.get peerID).isSome :=
  GoMap.get_retain n.addrToPeer _ addr

theorem cleanupStaleMappings_relayForward (n : Node) (now : Int) (addr : Bytes) :
    (n.cleanupStaleMappings now).relayForward.get addr =
      (n.relayForward.get addr).filter fun _ => n.isPeerAddr addr :=
  GoMap.get_retain n.relayForward _ addr

end Tenet
