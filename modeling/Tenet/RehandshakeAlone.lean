import Tenet.Activity
import Tenet.RehandshakeMark

/-! A call of `triggerFastRehandshake` and its goroutine with nobody in between: its sections, one after
the other, do to the tables what the whole call does. -/

namespace Tenet

open Lib

def Node.wholeRehandshake (cfg : FastRehandshakeConfig) (n : Node) (peerID : Bytes)
    (input : RehandshakeInput) : Node :=
  let triggered := n.triggerFastRehandshake cfg peerID input.now
  if triggered.2.2 = .started then
    (triggered.1.fastRehandshake cfg peerID none input.closing input.accepted input.ephemeral
      input.now).1
  else triggered.1

/-- `wholeRehandshake` from the reservation on, which gave the record `q` and its verdict. -/
def Node.reservedRehandshake (cfg : FastRehandshakeConfig) (n : Node) (peerID : Bytes)
    (input : RehandshakeInput) (q : Peer) (allowed : Bool) : Node :=
  if allowed then
    let q := q.resetDecryptFailures
    if (if q.originalAddr = [] then q.addr.text else q.originalAddr) = [] then
      (({ n with peers := n.peers.add q.endRehandshake } : Node).removePeerWithReconnect peerID true).1
    else
      (({ n with peers := n.peers.add q } : Node).fastRehandshake cfg peerID none input.closing
        input.accepted input.ephemeral input.now).1
  else { n with peers := n.peers.add q.endRehandshake }

theorem wholeRehandshake_eq (cfg : FastRehandshakeConfig) (n : Node) {peerID : Bytes}
    (input : RehandshakeInput) {p marked q : Peer} {allowed : Bool} {wait : Int}
    (stored : n.peers.get peerID = some p) (begun : p.tryBeginRehandshake = some marked)
    (reserved : marked.reserveRehandshakeAttempt input.now cfg.window cfg.maxAttemptsWindow =
      (q, allowed, wait)) :
    n.wholeRehandshake cfg peerID input = n.reservedRehandshake cfg peerID input q allowed := by
  simp only [Node.wholeRehandshake, Node.triggerFastRehandshake, stored, Option.bind_some, begun,
    reserved]
  cases allowed with
  | false => rfl
  | true =>
      by_cases unaddressed : (if q.resetDecryptFailures.originalAddr = [] then
          q.resetDecryptFailures.addr.text else q.resetDecryptFailures.originalAddr) = []
      · simp [Node.reservedRehandshake, unaddressed]
      · simp [Node.reservedRehandshake, unaddressed]

theorem tryBeginRehandshake_id {p marked : Peer} (begun : p.tryBeginRehandshake = some marked) :
    marked.id = p.id := by
  unfold Peer.tryBeginRehandshake at begun
  split at begun
  · cases begun
  · cases begun
    rfl

theorem removeSession_apart (n : Node) (peerID : Bytes)
    (pendingHandshakes : GoMap (Transport × Bytes) HandshakeState) (peers : PeerStore) :
    ({ n with pendingHandshakes, peers } : Node).removeSession peerID =
      { n.removeSession peerID with pendingHandshakes, peers } := by
  unfold Node.removeSession
  dsimp only
  split
  · rfl
  · split <;> rfl

theorem removeSession_addrToPeer (n : Node) (peerID : Bytes) :
    (n.removeSession peerID).addrToPeer = n.addrToPeer := by
  obtain ⟨mux, kcpTransport, same⟩ := n.removeSession_frame peerID
  rw [same]

theorem Represents.deletePeer {s : Shared} {n : Node} (rep : Represents s n) (peerID : Bytes) :
    Represents { s with peers := s.peers.delete peerID }
      { n with peers := n.peers.remove peerID } where
  others := by
    obtain ⟨pendingHandshakes, peers, same⟩ := rep.others
    exact ⟨pendingHandshakes, peers, same⟩
  pending := rep.pending
  peers id := by rw [RefMap.value_delete, PeerStore.get_remove, rep.peers]
  pendingSound := rep.pendingSound
  peersSound := rep.peersSound.delete peerID

namespace Rehandshaking

section Alone

variable (env : Env) (cfg : FastRehandshakeConfig) (peerID : Bytes) (record index : Nat)
  (input : RehandshakeInput)

/-- So many sections of one call. -/
@[irreducible] def sections (count : Nat) (s : Rehandshaking) : Rehandshaking :=
  Run.run (step env cfg peerID record) s (List.replicate count (.advance index input))

/-- The call stands at `point`, and the record it works on is `p`. -/
structure Holding (s : Rehandshaking) (n : Node) (p : Peer) (point : RehandshakePoint) : Prop where
  rep : Represents s.hub.shared { n with peers := n.peers.add p }
  found : s.hub.shared.peers.find peerID = some record
  named : p.id = peerID
  stands : s.attempts[index]? = some point

variable {env cfg peerID record index input} {s : Rehandshaking} {n : Node} {p : Peer}
  {point : RehandshakePoint}

theorem sections_succ (count : Nat) (stands : s.attempts[index]? = some point) :
    sections env cfg peerID record index input (count + 1) s =
      sections env cfg peerID record index input count
        (s.advance cfg peerID record index input point) := by
  rw [sections, sections, List.replicate_succ, Run.run_cons, step, stands]

theorem sections_idle (count : Nat) (idle : s.attempts[index]? = none ∨
      s.attempts[index]? = some .returned) :
    sections env cfg peerID record index input count s = s := by
  have unmoved : s.step env cfg peerID record (.advance index input) = s := by
    rcases idle with absent | returned
    · simp only [step, absent]
    · simp only [step, returned, advance]
  induction count with
  | zero => rw [sections]; rfl
  | succ count ih =>
      rw [sections] at ih ⊢
      rw [List.replicate_succ, Run.run_cons, unmoved, ih]

theorem represents_succ {count : Nat} {m : Node} (stands : s.attempts[index]? = some point)
    (rest : Represents (sections env cfg peerID record index input count
      (s.advance cfg peerID record index input point)).hub.shared m) :
    Represents (sections env cfg peerID record index input (count + 1) s).hub.shared m := by
  rw [sections_succ count stands]
  exact rest

theorem getElem?_move_self {point : RehandshakePoint} (stands : s.attempts[index]? = some point)
    (next : RehandshakePoint) : (s.move index next).attempts[index]? = some next := by
  rw [move, List.getElem?_set, if_pos rfl, if_pos (List.getElem?_eq_some_iff.mp stands).1]

theorem getElem?_endRehandshake (record : Nat) (stands : s.attempts[index]? = some point)
    (next : RehandshakePoint) :
    (s.endRehandshake record index next).attempts[index]? = some next :=
  getElem?_move_self stands next

namespace Holding

theorem stored (holding : Holding peerID record index s n p point) :
    ({ n with peers := n.peers.add p } : Node).peers.get peerID = some p :=
  (PeerStore.get_add n.peers p peerID).trans (if_pos holding.named.symm)

theorem held (holding : Holding peerID record index s n p point) : s.peer record = some p :=
  holding.rep.deref_peer holding.found holding.stored

theorem move (holding : Holding peerID record index s n p point) (next : RehandshakePoint) :
    Holding peerID record index (s.move index next) n p next :=
  ⟨holding.rep, holding.found, holding.named, getElem?_move_self holding.stands next⟩

theorem change (holding : Holding peerID record index s n p point) (update : Peer → Peer)
    (named : (update p).id = p.id) :
    Holding peerID record index (s.change record update) n (update p) point where
  rep := by
    have found : s.hub.shared.peers.find p.id = some record := holding.named ▸ holding.found
    have stored := holding.named ▸ holding.stored
    exact (holding.rep.modifyPeer update found stored named).congrPeers (n.peers.add (update p))
      fun id => (PeerStore.get_add_add n.peers p (update p) named id).symm
  found := holding.found
  named := named.trans holding.named
  stands := holding.stands

theorem ended (holding : Holding peerID record index s n p point) (next : RehandshakePoint) :
    Holding peerID record index (s.endRehandshake record index next) n p.endRehandshake next where
  rep := (holding.change (·.endRehandshake) rfl).rep
  found := holding.found
  named := holding.named
  stands := getElem?_endRehandshake record holding.stands next

theorem settle (holding : Holding peerID record index s n p point) (update : Peer → Peer)
    (named : (update p).id = p.id) :
    Holding peerID record index (s.settle record (s.change record update)) n (update p) point := by
  have changed := holding.change update named
  unfold Rehandshaking.settle
  split
  · exact ⟨changed.rep, changed.found, changed.named, changed.stands⟩
  · exact changed

theorem changeNode (holding : Holding peerID record index s n p point) (change : Node → Node)
    (apart : ∀ (n : Node) pendingHandshakes peers,
      change { n with pendingHandshakes, peers } = { change n with pendingHandshakes, peers }) :
    Holding peerID record index (s.withNode change)
      { change n with pendingHandshakes := n.pendingHandshakes, peers := n.peers } p point where
  rep := by
    have same := apart n n.pendingHandshakes (n.peers.add p)
    have changed := holding.rep.changeNode change apart (by rw [same]) (by rw [same])
    rw [same] at changed
    exact changed
  found := holding.found
  named := holding.named
  stands := holding.stands

end Holding

theorem represents_finished (count : Nat)
    (holding : Holding peerID record index s n p .finish) :
    Represents (sections env cfg peerID record index input (count + 1) s).hub.shared
      { n with peers := n.peers.add p.endRehandshake } := by
  have ended := holding.ended .returned
  rw [sections_succ count holding.stands, advance, sections_idle count (Or.inr ended.stands)]
  exact ended.rep

theorem removePeerWithReconnect_eq (n : Node) {store : PeerStore} {q : Peer}
    (stored : store.get peerID = some q) :
    (({ n with peers := store } : Node).removePeerWithReconnect peerID true).1 =
      { n.removeSession peerID with
        pendingHandshakes := n.pendingHandshakes
        addrToPeer := (n.removeSession peerID).addrToPeer.retain fun _ id => decide (id ≠ peerID)
        peers := store.remove peerID } := by
  have apart := removeSession_apart n peerID n.pendingHandshakes store
  rw [Node.removePeerWithReconnect]
  simp only [stored]
  rw [apart, removeSession_addrToPeer]

theorem get_remove_add {store others : PeerStore} {p : Peer} (named : p.id = peerID)
    (agree : ∀ id, id ≠ peerID → others.get id = store.get id) (id : Bytes) :
    (others.remove peerID).get id = ((store.add p).remove peerID).get id := by
  rw [PeerStore.get_remove, PeerStore.get_remove, PeerStore.get_add, named]
  by_cases same : id = peerID
  · rw [if_pos same, if_pos same]
  · rw [if_neg same, if_neg same, if_neg same, agree id same]

section Removal

variable {store : PeerStore}

theorem represents_dropped (count : Nat) (ended : Bool)
    (holding : Holding peerID record index s n p (.dropRecord ended))
    (agree : ∀ id, id ≠ peerID → store.get id = n.peers.get id) :
    Represents (sections env cfg peerID record index input (count + 2) s).hub.shared
      { n with peers := store.remove peerID } := by
  let dropped := s.withPeers (s.hub.shared.peers.delete peerID)
  have stands : dropped.attempts[index]? = some (.dropRecord ended) := holding.stands
  rw [sections_succ (count + 1) holding.stands, advance]
  cases ended with
  | true =>
      rw [RehandshakePoint.removed, if_pos rfl,
        sections_idle (count + 1) (Or.inr (getElem?_move_self stands .returned))]
      exact (holding.rep.deletePeer peerID).congrPeers (store.remove peerID)
        (get_remove_add holding.named agree)
  | false =>
      have finishing := getElem?_move_self stands .finish
      have ended := holding.change (·.endRehandshake) rfl
      rw [RehandshakePoint.removed, if_neg Bool.false_ne_true, sections_succ count finishing, advance,
        sections_idle count (Or.inr (getElem?_endRehandshake record finishing .returned))]
      exact (ended.rep.deletePeer peerID).congrPeers (store.remove peerID)
        (get_remove_add ended.named agree)

theorem represents_removed (count : Nat) (ended : Bool)
    (holding : Holding peerID record index s n p (.findRecord ended)) {q : Peer}
    (stored : store.get peerID = some q)
    (agree : ∀ id, id ≠ peerID → store.get id = n.peers.get id) :
    Represents (sections env cfg peerID record index input (count + 6) s).hub.shared
      (({ n with peers := store } : Node).removePeerWithReconnect peerID true).1 := by
  have unsessioned := (holding.move (.removeSession ended record)).changeNode (·.removeSession peerID)
    fun n pendingHandshakes peers => removeSession_apart n peerID pendingHandshakes peers
  have closed := (unsessioned.move (.closeRecord ended record)).settle (·.close.1) rfl
  have dropped := (closed.move (.dropAddrs ended)).changeNode (fun n => { n with
    addrToPeer := n.addrToPeer.retain fun _ id => decide (id ≠ peerID) }) fun _ _ _ => rfl
  have found : s.advance cfg peerID record index input (.findRecord ended) =
      s.move index (.removeSession ended record) := by
    simp only [advance, holding.found]
  rw [removePeerWithReconnect_eq n stored]
  refine represents_succ holding.stands ?_
  rw [found]
  refine represents_succ (holding.move (.removeSession ended record)).stands ?_
  refine represents_succ (unsessioned.move (.closeRecord ended record)).stands ?_
  refine represents_succ (closed.move (.dropAddrs ended)).stands ?_
  exact represents_dropped count ended (dropped.move (.dropRecord ended)) agree

end Removal

theorem holding_sent (input : RehandshakeInput) (holding : Holding peerID record index s n p .send) :
    let m : Node := { n with peers := n.peers.add p }
    let sent := s.hub.shared.sendFastRehandshake p input.ephemeral input.now input.accepted
    ∃ pendingHandshakes,
      (m.sendFastRehandshake p input.ephemeral input.now input.accepted).1 =
        { m with pendingHandshakes } ∧
      Holding peerID record index ((s.withShared sent.1).move index (.sent sent.2))
        { n with pendingHandshakes } p (.sent sent.2) := by
  intro m sent
  obtain ⟨pendingHandshakes, same, _⟩ :=
    sendFastRehandshake_frame m p input.ephemeral input.now input.accepted
  have rep := (holding.rep.sendFastRehandshake p input.ephemeral input.now input.accepted).1
  refine ⟨pendingHandshakes, same, ?_, ?_, holding.named, getElem?_move_self holding.stands _⟩
  · rw [same] at rep
    exact rep
  · refine (congrArg (·.find peerID) (sendFastRehandshake_peers s.hub.shared p input.ephemeral
      input.now input.accepted)).trans holding.found

theorem represents_again {s : Shared} {q : Peer} (rep : Represents s { n with peers := n.peers.add q })
    (same : q.id = p.id) : Represents s { n with peers := (n.peers.add p).add q } :=
  rep.congrPeers ((n.peers.add p).add q) (PeerStore.get_add_add n.peers p q same)

theorem represents_run (holding : Holding peerID record index s n p .launch) :
    Represents (sections env cfg peerID record index input 9 s).hub.shared
      (({ n with peers := n.peers.add p } : Node).fastRehandshake cfg peerID none input.closing
        input.accepted input.ephemeral input.now).1 := by
  have stored := holding.stored
  simp only [Node.fastRehandshake, Option.none_or, stored, Node.runFastRehandshake]
  rw [sections_succ 8 holding.stands, advance]
  by_cases closing : input.closing = true
  · simp only [if_pos closing, Option.isSome_none, Bool.false_eq_true, if_false]
    exact represents_again (represents_finished 7 (holding.move .finish)) rfl
  · have sending := holding.move .send
    obtain ⟨pendingHandshakes, same, sent⟩ := holding_sent input sending
    have outcome := (sending.rep.sendFastRehandshake p input.ephemeral input.now input.accepted).2
    simp only [if_neg closing, same, Option.isSome_none, Bool.false_eq_true, if_false]
    rw [sections_succ 7 sending.stands]
    simp only [advance, sending.held]
    rw [outcome] at sent ⊢
    cases kind : (({ n with peers := n.peers.add p } : Node).sendFastRehandshake p input.ephemeral
      input.now input.accepted).2.2 with
    | busy =>
        rw [kind] at sent
        exact represents_again (represents_finished 6 sent) rfl
    | written =>
        rw [kind] at sent
        have recorded := (sent.change (·.recordRehandshakeSuccess input.now cfg.baseBackoff) rfl).move
          .finish
        refine represents_succ sent.stands ?_
        exact represents_again (represents_finished 5 recorded) rfl
    | failed =>
        rw [kind] at sent
        let recorded := p.recordRehandshakeFailure input.now cfg.baseBackoff cfg.maxBackoff
        have changed := sent.change (fun _ => recorded.1) rfl
        rw [sections_succ 6 sent.stands]
        simp only [advance, sent.held]
        by_cases threshold : (recorded.2.1 : Int) ≥ cfg.failThreshold
        · simp only [recorded, if_pos threshold, decide_eq_true threshold, if_true]
          refine represents_removed (q := recorded.1.endRehandshake) 0 false
            (changed.move (.findRecord false)) ?_ ?_
          · exact (PeerStore.get_add _ _ peerID).trans (if_pos holding.named.symm)
          · intro id other
            have foreign : id ≠ p.id := fun same => other (same.trans holding.named)
            exact (PeerStore.get_add _ _ id).trans ((if_neg foreign).trans
              ((PeerStore.get_add n.peers p id).trans (if_neg foreign)))
        · simp only [recorded, if_neg threshold, decide_eq_false threshold]
          exact represents_again (represents_finished 5 (changed.move .finish)) rfl

theorem represents_reserved (holding : Holding peerID record index s n p .reserve)
    {q : Peer} {allowed : Bool} {wait : Int} (reserved : p.reserveRehandshakeAttempt input.now
      cfg.window cfg.maxAttemptsWindow = (q, allowed, wait)) :
    Represents (sections env cfg peerID record index input 12 s).hub.shared
      (n.reservedRehandshake cfg peerID input q allowed) := by
  obtain ⟨throttle, kept, _⟩ :=
    reserveRehandshakeAttempt_frame p input.now cfg.window cfg.maxAttemptsWindow
  rw [reserved] at kept
  have same : q.id = p.id := by rw [show q = _ from kept]
  have changed := holding.change (fun _ => q) same
  rw [sections_succ 11 holding.stands]
  simp only [advance, holding.held, reserved, Node.reservedRehandshake]
  cases allowed with
  | false =>
      have throttled := (changed.move .throttled).ended .returned
      rw [if_neg Bool.false_ne_true, if_neg Bool.false_ne_true,
        sections_succ 10 (changed.move .throttled).stands, advance,
        sections_idle 10 (Or.inr throttled.stands)]
      exact throttled.rep
  | true =>
      have located := ((changed.move .resetFailures).change (·.resetDecryptFailures) rfl).move .locate
      rw [if_pos rfl, if_pos rfl, sections_succ 10 (changed.move .resetFailures).stands,
        advance, sections_succ 9 located.stands]
      simp only [advance, located.held, Option.all_some, decide_eq_true_eq]
      by_cases unaddressed : (if q.resetDecryptFailures.originalAddr = [] then
          q.resetDecryptFailures.addr.text else q.resetDecryptFailures.originalAddr) = []
      · have ended := (located.move .unaddressed).ended (.findRecord true)
        rw [if_pos unaddressed, if_pos unaddressed,
          sections_succ 8 (located.move .unaddressed).stands, advance]
        exact represents_removed (q := q.resetDecryptFailures.endRehandshake) 2 true ended
          ended.stored fun id other => (PeerStore.get_add _ _ id).trans
            (if_neg fun same => other (same.trans ended.named))
      · rw [if_neg unaddressed, if_neg unaddressed]
        exact represents_run (located.move .launch)

/-- The sections of an undisturbed call do what the whole call does. -/
theorem sections_agree (rep : Represents s.hub.shared n)
    (found : s.hub.shared.peers.find peerID = some record) :
    Represents (sections env cfg peerID record s.attempts.length input 12
        (s.step env cfg peerID record .trigger)).hub.shared
      (n.wholeRehandshake cfg peerID input) := by
  obtain ⟨p, stored⟩ := Option.isSome_iff_exists.mp
    ((rep.find_peer peerID).symm.trans (by rw [found]; rfl))
  have held : s.peer record = some p := rep.deref_peer found stored
  have named := n.peers.keyed peerID p stored
  cases begun : p.tryBeginRehandshake with
  | none =>
      have whole : n.wholeRehandshake cfg peerID input = n := by
        simp [Node.wholeRehandshake, Node.triggerFastRehandshake, stored, begun]
      have unmoved : s.step env cfg peerID record .trigger = s := by
        simp only [step, held, Option.bind_some, begun]
      rw [whole, unmoved, sections_idle 12 (Or.inl (List.getElem?_eq_none (Nat.le_refl _)))]
      exact rep
  | some marked =>
      have same : marked.id = p.id := tryBeginRehandshake_id begun
      have triggered : s.step env cfg peerID record .trigger =
          { s.change record fun _ => marked with
            attempts := s.attempts ++ [.reserve], owner := some s.attempts.length } := by
        simp only [step, held, Option.bind_some, begun]
      rcases reserved : marked.reserveRehandshakeAttempt input.now cfg.window cfg.maxAttemptsWindow
        with ⟨q, allowed, wait⟩
      have holding : Holding peerID record s.attempts.length (s.step env cfg peerID record .trigger) n
          marked .reserve := by
        rw [triggered]
        exact ⟨rep.modifyPeer (fun _ => marked) (named ▸ found) (named ▸ stored) same, found,
          same.trans named, List.getElem?_concat_length⟩
      rw [wholeRehandshake_eq cfg n input stored begun reserved]
      exact represents_reserved holding reserved

end Alone

end Rehandshaking

end Tenet
