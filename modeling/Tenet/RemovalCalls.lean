import Tenet.Activity
import Tenet.HandshakeCalls

/-! `removePeerWithReconnect` section by section, as it runs beside handshakes. -/

namespace Tenet

open Lib

structure RemovalCall where
  peerID : Bytes
  shouldReconnect : Bool

inductive RemovalPhase where
  | lookup
  | removeSession (record : Nat)
  | close (record : Nat) (originalAddr : Bytes)
  | unmap (originalAddr : Bytes)
  | remove (originalAddr : Bytes)
  | notify (originalAddr : Bytes)

namespace Shared

variable (s : Shared)

/-- One section of a removal. `Peer.Close` goes through the pointer, `Peers.Remove` by the identity. -/
def removal (call : RemovalCall) : RemovalPhase → Shared × Option RemovalPhase × List Effect
  | .lookup => (s, (s.peers.find call.peerID).map .removeSession, [])
  | .removeSession record =>
      ({ s with node := s.node.removeSession call.peerID },
        some (.close record ((s.peers.deref record).elim [] Peer.originalAddr)), [])
  | .close record originalAddr =>
      ({ s with peers := s.peers.modify record fun p => p.close.1 }, some (.unmap originalAddr),
        (s.peers.deref record).toList.flatMap fun p => p.close.2)
  | .unmap originalAddr =>
      ({ s with
          node := { s.node with
            addrToPeer := s.node.addrToPeer.retain fun _ pid => decide (pid ≠ call.peerID) } },
        some (.remove originalAddr), [])
  | .remove originalAddr =>
      ({ s with peers := s.peers.delete call.peerID }, some (.notify originalAddr), [])
  | .notify originalAddr =>
      (s, none, (if s.node.onPeerDisconnected then [.onPeerDisconnected call.peerID] else []) ++
        if call.shouldReconnect ∧ originalAddr ≠ [] ∧ s.node.reconnectManager then
          [.scheduleReconnect call.peerID originalAddr]
        else [])

def finishRemoval (call : RemovalCall) : Nat → Shared → Option RemovalPhase → Shared × List Effect
  | 0, s, _ | _ + 1, s, none => (s, [])
  | sections + 1, s, some phase =>
      let (after, next, effects) := s.removal call phase
      let (last, later) := finishRemoval call sections after next
      (last, effects ++ later)


end Shared

theorem Represents.removePeer {s : Shared} {n : Node} (rep : Represents s n) {id : Bytes}
    {record : Nat} (found : s.peers.find id = some record) (change : Peer → Peer) :
    Represents { s with peers := (s.peers.modify record change).delete id }
      { n with peers := n.peers.remove id } where
  others := by
    obtain ⟨pendingHandshakes, peers, same⟩ := rep.others
    exact ⟨pendingHandshakes, peers, same⟩
  pending := rep.pending
  peers other := by
    rw [RefMap.value_delete, RefMap.value_modify rep.peersSound id other record change found,
      PeerStore.get_remove, rep.peers]
    split <;> rfl
  pendingSound := rep.pendingSound
  peersSound := (rep.peersSound.modify record change).delete id

/-- A removal with nobody in between does what the node's `removePeerWithReconnect` does. -/
theorem removal_agrees {s : Shared} {n : Node} (rep : Represents s n) (call : RemovalCall) :
    Agrees (Shared.finishRemoval call 6 s (some .lookup))
      (n.removePeerWithReconnect call.peerID call.shouldReconnect) := by
  cases found : s.peers.find call.peerID with
  | none =>
      have unknown : n.peers.get call.peerID = none := by
        rw [← rep.peers, RefMap.value, found, Option.bind_none]
      simp only [Shared.finishRemoval, Shared.removal, found, Option.map_none,
        Node.removePeerWithReconnect, unknown]
      exact ⟨rep, rfl⟩
  | some record =>
      obtain ⟨p, known⟩ : ∃ p, n.peers.get call.peerID = some p := by
        rw [← Option.isSome_iff_exists, ← rep.find_peer, found]
        rfl
      have there := rep.deref_peer found known
      have removed := rep.removePeer found fun p => p.close.1
      let change (n : Node) : Node := { n.removeSession call.peerID with
        addrToPeer := (n.removeSession call.peerID).addrToPeer.retain fun _ pid =>
          decide (pid ≠ call.peerID) }
      have frame (n : Node) : ∃ mux kcpTransport, change n = { n with
          mux, kcpTransport
          addrToPeer := n.addrToPeer.retain fun _ pid => decide (pid ≠ call.peerID) } := by
        obtain ⟨mux, kcpTransport, same⟩ := n.removeSession_frame call.peerID
        exact ⟨mux, kcpTransport, by simp only [change, same]⟩
      have apart (n : Node) (pendingHandshakes : GoMap (Transport × Bytes) HandshakeState)
          (peers : PeerStore) : change { n with pendingHandshakes, peers } =
            { change n with pendingHandshakes, peers } := by
        cases kcp : n.kcpTransport with
        | none => simp only [change, Node.removeSession, kcp]
        | some t =>
            cases session : t.sessions.get call.peerID with
            | none => simp only [change, Node.removeSession, kcp, session]
            | some session => simp only [change, Node.removeSession, kcp, session]
      have expected : change { n with peers := n.peers.remove call.peerID } =
          { n.removeSession call.peerID with
            addrToPeer := n.addrToPeer.retain fun _ pid => decide (pid ≠ call.peerID)
            peers := n.peers.remove call.peerID } := by
        obtain ⟨mux, kcpTransport, same⟩ := n.removeSession_frame call.peerID
        rw [apart n n.pendingHandshakes]
        simp only [change, same]
      have changed := removed.changeNode change apart
        (by obtain ⟨_, _, same⟩ := frame { n with peers := n.peers.remove call.peerID }; rw [same])
        (by obtain ⟨_, _, same⟩ := frame { n with peers := n.peers.remove call.peerID }; rw [same])
      rw [expected] at changed
      obtain ⟨pendingHandshakes, peers, node⟩ := rep.others
      obtain ⟨_, _, kept⟩ := s.node.removeSession_frame call.peerID
      simp only [Shared.finishRemoval, Shared.removal, found, there, Option.map_some,
        Option.elim_some, Option.toList_some, List.flatMap_cons, List.flatMap_nil, List.append_nil,
        List.nil_append, Node.removePeerWithReconnect, known]
      refine ⟨changed, ?_⟩
      rw [kept, node, List.append_assoc]

end Tenet
