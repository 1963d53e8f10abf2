import Tenet.SessionCustody

/-! What each section of a handshake or of a removal does with the sessions, and what follows for whole
runs. -/

namespace Tenet

open Lib Custody Run

namespace Keyring

section Handling

variable {env : Env} {aead : Aead} {k k' : Keyring}

theorem disposed_iff {effects : List Effect} {new : Option Session} {ref : Option Nat}
    (sessions : k'.sessions = closeAll effects k.sessions ++
      new.toList.map fun session => (session.keys, session))
    (live : ∀ session, new = some session → session ≠ session.close)
    (closes : ∀ keys, keys ∈ closings effects ↔
      ∃ r, ref = some r ∧ k.hub.shared.recorded r = some keys)
    (tracks : Tracks k) (keys : SessionKeys) :
    k'.disposed keys ↔
      k.disposed keys ∨ ∃ r, ref = some r ∧ k.hub.shared.recorded r = some keys := by
  rw [disposed, sessions]
  constructor
  · rintro ⟨session, listed, wiped⟩
    rcases List.mem_append.mp listed with old | added
    · obtain ⟨before, listed, same⟩ := mem_closeAll.mp old
      by_cases closing : keys ∈ closings effects
      · exact Or.inr ((closes keys).mp closing)
      · rw [if_neg closing] at same
        subst same
        exact Or.inl ⟨session, listed, wiped⟩
    · obtain ⟨made, new, both⟩ := List.mem_map.mp added
      cases both
      exact absurd wiped (live session (Option.mem_toList.mp new))
  · rintro (⟨session, listed, wiped⟩ | cleared)
    · refine ⟨session, List.mem_append_left _ (mem_closeAll.mpr ⟨session, listed, ?_⟩), wiped⟩
      rw [← wiped, ite_self]
    · obtain ⟨r, -, record⟩ := id cleared
      obtain ⟨⟨_, before⟩, listed, rfl⟩ := List.mem_map.mp (tracks.known (.record r) keys record)
      refine ⟨before.close, List.mem_append_left _ (mem_closeAll.mpr ⟨before, listed, ?_⟩), rfl⟩
      rw [if_pos ((closes _).mpr cleared)]

theorem tags_eq {effects : List Effect} {new : Option Session}
    (sessions : k'.sessions = closeAll effects k.sessions ++
      new.toList.map fun session => (session.keys, session)) :
    k'.sessions.map Prod.fst = k.sessions.map Prod.fst ++ (new.map Session.keys).toList := by
  rw [sessions, List.map_append, closeAll, List.map_map, List.map_map]
  cases new <;> rfl

theorem closes_nothing {effects : List Effect} (silent : closings effects = []) (keys : SessionKeys) :
    keys ∈ closings effects ↔
      ∃ r, (none : Option Nat) = some r ∧ k.hub.shared.recorded r = some keys := by
  rw [silent]
  constructor
  · intro listed
    cases listed
  · rintro ⟨r, none, -⟩
    cases none

theorem handles_shared {effects : List Effect} {allowed : Prop} (ref : Option Nat)
    (hands : ∀ i, k'.hand i = k.hand i)
    (silent : ∀ i phase, k'.hub.phase i = some phase → closings phase.announces = [])
    (sessions : k'.sessions = closeAll effects k.sessions) (tracks : Tracks k)
    (sound : k'.hub.shared.peers.Sound)
    (records : ∀ r, k'.hub.shared.recorded r =
      if ref = some r then none else k.hub.shared.recorded r)
    (closes : ∀ keys, keys ∈ closings effects ↔
      ∃ r, ref = some r ∧ k.hub.shared.recorded r = some keys)
    (stays : (∀ r keys, ref ≠ some r → k.hub.shared.recorded r = some keys →
      k.hub.shared.points r = true → k'.hub.shared.points r = true) ↔ allowed) :
    Handles k k' allowed := by
  have objects : k'.sessions = closeAll effects k.sessions ++
      (none : Option Session).toList.map fun session => (session.keys, session) :=
    sessions.trans (List.append_nil _).symm
  refine ⟨none, none, none, ref, ?_, ?_, ?_⟩
  · constructor
    · exact hands
    · exact records
    · exact disposed_iff objects (fun session made => by cases made) closes tracks
    · intro r given
      cases given
    · exact tags_eq objects
    · intro made
      cases made
    · exact sound
    · exact silent
  · intro keys made
    cases made
  · rw [Delivers, ← stays]
    constructor
    · exact And.right
    · intro records
      refine ⟨?_, records⟩
      intro i keys there
      cases there

theorem handles_kept {allowed : Prop} (always : allowed) (hands : ∀ i, k'.hand i = k.hand i)
    (silent : ∀ i phase, k'.hub.phase i = some phase → closings phase.announces = [])
    (sessions : k'.sessions = k.sessions) (tracks : Tracks k) (sound : k'.hub.shared.peers.Sound)
    (records : ∀ r, k'.hub.shared.recorded r = k.hub.shared.recorded r)
    (table : k'.hub.shared.peers.table = k.hub.shared.peers.table) : Handles k k' allowed := by
  apply handles_shared none hands silent _ tracks sound records (closes_nothing (rfl : closings [] = []))
  · refine iff_of_true (fun r keys _ _ stored => ?_) always
    rw [Shared.points_congr table]
    exact stored
  · rw [sessions, closeAll_silent rfl]

theorem handles_modify {record : Nat} {change : Peer → Peer} (tracks : Tracks k)
    (same : ∀ p, (change p).keys = p.keys) : Handles k (k.modifyRecord record change) True :=
  handles_kept trivial (fun _ => rfl) tracks.silent (closeAll_silent rfl _) tracks
    (tracks.sound.modify record change) (fun _ => Shared.recorded_modify_keys record _ same) rfl

theorem handles_close {record : Nat} (calls : k'.hub.calls = k.hub.calls)
    (shared : k'.hub.shared = { k.hub.shared with
      peers := k.hub.shared.peers.modify record fun p => p.close.1 })
    (sessions : k'.sessions =
      closeAll ((k.hub.shared.peers.deref record).toList.flatMap fun p => p.close.2) k.sessions)
    (tracks : Tracks k) : Handles k k' True := by
  apply handles_shared (some record) _ _ sessions tracks _ _ (Shared.mem_closings_record record)
  · refine iff_true_intro fun r keys _ _ stored => ?_
    rw [shared, Shared.points_congr rfl]
    exact stored
  · intro i
    rw [hand, Hub.phase, calls]
    rfl
  · intro i
    rw [Hub.phase, calls]
    exact tracks.silent i
  · rw [shared]
    exact tracks.sound.modify record _
  · rw [shared]
    exact Shared.recorded_close record

theorem handles_remove {id : Bytes} (calls : k'.hub.calls = k.hub.calls)
    (shared : k'.hub.shared = { k.hub.shared with peers := k.hub.shared.peers.delete id })
    (sessions : k'.sessions = closeAll [] k.sessions) (tracks : Tracks k) :
    Handles k k' ((k.hub.shared.peers.value id).all (fun p => p.session.isNone) = true) := by
  apply handles_shared none _ _ sessions tracks _ _ (closes_nothing rfl)
  · have points (r : Nat) : k'.hub.shared.points r = true ↔
        ∃ other, other ≠ id ∧ k.hub.shared.peers.find other = some r := by
      simp only [Shared.points_iff, shared, RefMap.find_delete, Option.ite_none_left_eq_some]
    simp only [← Shared.entry_bare_iff tracks.sound, points, ne_eq, reduceCtorEq,
      not_false_eq_true, forall_const]
  · intro i
    rw [hand, Hub.phase, calls]
    rfl
  · intro i
    rw [Hub.phase, calls]
    exact tracks.silent i
  · rw [shared]
    exact tracks.sound.delete id
  · rw [shared]
    exact fun _ => rfl

end Handling

end Keyring

theorem processMessage_keyed {hs after : HandshakeState} {message : Message}
    {response : Option Message} {session : Session}
    (processed : hs.processMessage message = some (after, response, some session)) :
    ∃ cipher, session.sendCipher = some cipher := by
  unfold HandshakeState.processMessage at processed
  split at processed
  · cases processed
  · split at processed
    · cases processed
    · split at processed
      · cases processed
        exact ⟨_, rfl⟩
      · cases processed
    · split at processed
      · cases processed
        exact ⟨_, rfl⟩
      · cases processed
    · cases processed

namespace Shared

variable (env : Env) (s : Shared) (call : HandshakeCall) (phase : CallPhase)

theorem madeIn_live (session : Session)
    (made : madeIn phase (s.step env call phase).2.1 = some session) : session ≠ session.close := by
  cases phase with
  | process state =>
      simp only [step] at made
      split at made
      · cases made
      · next hs response finished result =>
          have same : finished = some session := made
          obtain ⟨before, -, processed⟩ := Option.bind_eq_some_iff.mp result
          rw [same] at processed
          obtain ⟨cipher, keyed⟩ := processMessage_keyed processed
          intro wiped
          rw [wiped] at keyed
          cases keyed
  | _ => cases made

theorem step_announces (silent : closings phase.announces = []) (next : CallPhase)
    (goes : (s.step env call phase).2.1 = some next) : closings next.announces = [] := by
  cases phase with
  | lookup =>
      simp only [step] at goes
      split at goes <;> cases goes <;> rfl
  | process state =>
      simp only [step] at goes
      split at goes <;> cases goes <;> rfl
  | failed state =>
      simp only [step] at goes
      split at goes <;> cases goes
      rfl
  | reply response session =>
      obtain ⟨session, -, rfl⟩ := Option.map_eq_some_iff.mp goes
      rfl
  | lookupPeer session =>
      simp only [step] at goes
      split at goes <;> cases goes <;> rfl
  | checkCapacity session linkMode relayTarget onConnected =>
      simp only [step] at goes
      split at goes <;> cases goes
      rfl
  | addPeer p onConnected =>
      cases goes
      cases onConnected <;> rfl
  | recordAddr peerID after =>
      cases goes
      exact silent
  | compare session record =>
      simp only [step] at goes
      cases goes
      split <;> rfl
  | candidate peerID after =>
      simp only [step] at goes
      split at goes <;> cases goes
      exact silent
  | dropState | addRelay => cases goes
  | clearPending | switchRecord | switchTables | linkRecord | refreshRecord | touchRecord =>
      cases goes
      rfl

/-- A section after which the call has what it had, and the records and the store too. -/
structure Keeps (s : Shared) (phase : CallPhase) (after : Shared × Option CallPhase × List Effect) :
    Prop where
  hand : after.2.1.bind CallPhase.inHand = phase.inHand
  unmade : madeIn phase after.2.1 = none
  silent : closings after.2.2 = []
  records : ∀ r, after.1.recorded r = s.recorded r
  table : after.1.peers.table = s.peers.table
  sound : s.peers.Sound → after.1.peers.Sound

variable {s phase}

theorem Keeps.of_peers {after : Shared × Option CallPhase × List Effect}
    (peers : after.1.peers = s.peers) (hand : after.2.1.bind CallPhase.inHand = phase.inHand)
    (unmade : madeIn phase after.2.1 = none) (silent : closings after.2.2 = []) :
    Keeps s phase after where
  hand := hand
  unmade := unmade
  silent := silent
  records r := by rw [recorded, recorded, peers]
  table := congrArg RefMap.table peers
  sound sound := peers ▸ sound

theorem Keeps.of_modify {record : Nat} {change : Peer → Peer} (same : ∀ p, (change p).keys = p.keys)
    {node : Node} {pending : RefMap (Transport × Bytes) HandshakeState} {next : Option CallPhase}
    (hand : next.bind CallPhase.inHand = phase.inHand) (unmade : madeIn phase next = none) :
    Keeps s phase (⟨node, pending, s.peers.modify record change⟩, next, []) where
  hand := hand
  unmade := unmade
  silent := rfl
  records r := (recorded_modify_keys record r same : _)
  table := rfl
  sound sound := sound.modify record change

end Shared

namespace Keyring

section Advance

variable {env : Env} {aead : Aead} {k : Keyring} {index : Nat} {call : HandshakeCall}
  {phase : CallPhase}

theorem step_advance (stands : k.hub.calls[index]? = some (call, some phase)) :
    k.step env aead (.advance index) = { k with
      hub := k.hub.step env (.advance index)
      sessions := closeAll (k.hub.shared.step env call phase).2.2 k.sessions ++
        (madeIn phase (k.hub.shared.step env call phase).2.1).toList.map fun session =>
          (session.keys, session) } := by
  simp only [step, stands]

theorem shared_advance (stands : k.hub.calls[index]? = some (call, some phase)) :
    (k.hub.step env (.advance index)).shared = (k.hub.shared.step env call phase).1 := by
  rw [Hub.step_advance env k.hub index call phase stands]

theorem hand_index (stands : k.hub.calls[index]? = some (call, some phase)) :
    k.hand index = phase.inHand.map Session.keys := by
  rw [hand, Hub.phase, stands]
  rfl

theorem hand_advance (stands : k.hub.calls[index]? = some (call, some phase)) (i : Nat) :
    (k.step env aead (.advance index)).hand i =
      if i = index then
        ((k.hub.shared.step env call phase).2.1.bind CallPhase.inHand).map Session.keys
      else k.hand i := by
  rw [step_advance stands, hand, Hub.phase_advance env k.hub index call phase stands]
  split <;> rfl

theorem silent_advance (stands : k.hub.calls[index]? = some (call, some phase)) (tracks : Tracks k)
    (i : Nat) (next : CallPhase)
    (goes : (k.step env aead (.advance index)).hub.phase i = some next) :
    closings next.announces = [] := by
  rw [step_advance stands, Hub.phase_advance env k.hub index call phase stands] at goes
  split at goes
  · apply k.hub.shared.step_announces env call phase _ next goes
    exact tracks.silent index phase (by rw [Hub.phase, stands, Option.bind_some])
  · exact tracks.silent i next goes

theorem handles_keeps (stands : k.hub.calls[index]? = some (call, some phase)) (tracks : Tracks k)
    {allowed : Prop} (always : allowed)
    (keeps : k.hub.shared.Keeps phase (k.hub.shared.step env call phase)) :
    Handles k (k.step env aead (.advance index)) allowed := by
  apply handles_kept always _ (silent_advance stands tracks) _ tracks
  · rw [step_advance stands, shared_advance stands]
    exact keeps.sound tracks.sound
  · rw [step_advance stands, shared_advance stands]
    exact keeps.records
  · rw [step_advance stands, shared_advance stands]
    exact keeps.table
  · intro i
    rw [hand_advance stands, keeps.hand]
    split
    · next here => rw [here, hand_index stands]
    · rfl
  · rw [step_advance stands, keeps.unmade, closeAll_silent keeps.silent]
    exact List.append_nil _

theorem handles_passes (stands : k.hub.calls[index]? = some (call, some phase)) (tracks : Tracks k)
    (fresh : k.Fresh env (.advance index)) (handed ref : Option Nat) {allowed : Prop}
    (passes : (k.hub.shared.step env call phase).2.1.bind CallPhase.inHand =
      madeIn phase (k.hub.shared.step env call phase).2.1)
    (records : ∀ r, (k.hub.shared.step env call phase).1.recorded r =
      if handed = some r then phase.inHand.map Session.keys
      else if ref = some r then none else k.hub.shared.recorded r)
    (closes : ∀ keys, keys ∈ closings (k.hub.shared.step env call phase).2.2 ↔
      ∃ r, ref = some r ∧ k.hub.shared.recorded r = some keys)
    (room : ∀ r, handed = some r → ref = some r ∨ k.hub.shared.recorded r = none)
    (sound : (k.hub.shared.step env call phase).1.peers.Sound)
    (delivers : ((∀ keys, phase.inHand.map Session.keys = some keys →
        ∃ r, handed = some r ∧ (k.hub.shared.step env call phase).1.points r = true) ∧
      ∀ r keys, ref ≠ some r → k.hub.shared.recorded r = some keys →
        k.hub.shared.points r = true →
          (k.hub.shared.step env call phase).1.points r = true) ↔ allowed) :
    Handles k (k.step env aead (.advance index)) allowed := by
  have objects : (k.step env aead (.advance index)).sessions = _ :=
    congrArg Keyring.sessions (step_advance stands)
  refine ⟨some index, (madeIn phase (k.hub.shared.step env call phase).2.1).map Session.keys, handed,
    ref, ?_, ?_, ?_⟩
  · constructor
    · intro i
      rw [hand_advance stands, passes]
      simp only [Option.some.injEq, eq_comm]
    · intro r
      rw [step_advance stands, shared_advance stands, Option.bind_some, hand_index stands]
      exact records r
    · exact disposed_iff objects (k.hub.shared.madeIn_live env call phase) closes tracks
    · exact room
    · exact tags_eq objects
    · exact fun _ => rfl
    · rw [step_advance stands, shared_advance stands]
      exact sound
    · exact silent_advance stands tracks
  · intro keys made
    obtain ⟨session, finished, rfl⟩ := Option.map_eq_some_iff.mp made
    simp only [Fresh, stands, Option.all_some, finished, decide_eq_true_eq] at fresh
    exact fresh
  · rw [Delivers, ← delivers, step_advance stands, shared_advance stands, ← hand_index stands]
    constructor
    · rintro ⟨hands, records⟩
      exact ⟨fun keys => hands index keys rfl, records⟩
    · rintro ⟨hands, records⟩
      refine ⟨?_, records⟩
      rintro i keys ⟨⟩
      exact hands keys

theorem handles_drops (stands : k.hub.calls[index]? = some (call, some phase)) (tracks : Tracks k)
    (fresh : k.Fresh env (.advance index)) (held : phase.inHand.isSome = true)
    (unmade : madeIn phase (k.hub.shared.step env call phase).2.1 = none)
    (drops : (k.hub.shared.step env call phase).2.1.bind CallPhase.inHand = none)
    (silent : closings (k.hub.shared.step env call phase).2.2 = [])
    (records : ∀ r, (k.hub.shared.step env call phase).1.recorded r = k.hub.shared.recorded r)
    (sound : (k.hub.shared.step env call phase).1.peers.Sound) :
    Handles k (k.step env aead (.advance index)) False := by
  apply handles_passes stands tracks fresh none none
  · rw [drops, unmade]
  · exact records
  · exact closes_nothing silent
  · intro r given
    cases given
  · exact sound
  · refine iff_of_false ?_ not_false
    rintro ⟨hands, -⟩
    obtain ⟨session, inHand⟩ := Option.isSome_iff_exists.mp held
    obtain ⟨r, given, -⟩ := hands session.keys (by rw [inHand, Option.map_some])
    cases given

theorem handles_add {p : Peer} {onConnected : Bool}
    (stands : k.hub.calls[index]? = some (call, some (.addPeer p onConnected))) (tracks : Tracks k)
    (fresh : k.Fresh env (.advance index)) :
    Handles k (k.step env aead (.advance index))
      ((k.hub.shared.peers.value p.id).all (fun old => old.session.isNone) = true) := by
  have beyond : k.hub.shared.recorded k.hub.shared.peers.objects.length = none := by
    rw [Shared.recorded, RefMap.deref, List.getElem?_eq_none (Nat.le_refl _), Option.bind_none]
  apply handles_passes stands tracks fresh (some k.hub.shared.peers.objects.length) none
  · rfl
  · intro r
    have there : (k.hub.shared.peers.put p.id p).deref r = _ :=
      RefMap.deref_alloc k.hub.shared.peers p r
    simp only [Shared.step, Shared.recorded, there, CallPhase.inHand, Option.some.injEq, eq_comm]
    split <;> rfl
  · exact closes_nothing rfl
  · intro r given
    cases given
    exact Or.inr beyond
  · exact tracks.sound.put p.id p
  · rw [← Shared.entry_bare_iff tracks.sound]
    have points (r : Nat) : (k.hub.shared.step env call (.addPeer p onConnected)).1.points r = true ↔
        ∃ other, if other = p.id then k.hub.shared.peers.objects.length = r
          else k.hub.shared.peers.find other = some r := by
      simp only [Shared.points_iff, Shared.step, RefMap.find_put]
      refine exists_congr fun other => ?_
      split
      · exact Option.some_inj
      · rfl
    constructor
    · rintro ⟨-, stay⟩ r keys record stored
      obtain ⟨other, entry⟩ := (points r).mp (stay r keys (by intro none; cases none) record stored)
      split at entry
      · rw [← entry, beyond] at record
        cases record
      · next elsewhere => exact ⟨other, elsewhere, entry⟩
    · intro stay
      refine ⟨fun keys _ => ⟨_, rfl, (points _).mpr ⟨p.id, by rw [if_pos rfl]⟩⟩, ?_⟩
      intro r keys _ record stored
      obtain ⟨other, elsewhere, entry⟩ := stay r keys record stored
      exact (points r).mpr ⟨other, by rwa [if_neg elsewhere]⟩

theorem handles_upgrade {session : Session} {record : Nat}
    (stands : k.hub.calls[index]? = some (call, some phase)) (tracks : Tracks k)
    (fresh : k.Fresh env (.advance index)) (held : phase.inHand = some session)
    (unmade : madeIn phase (k.hub.shared.step env call phase).2.1 = none)
    (gone : (k.hub.shared.step env call phase).2.1.bind CallPhase.inHand = none)
    (upgrades : (k.hub.shared.step env call phase).1 =
      (k.hub.shared.upgradeRecord call session record).1)
    (effects : (k.hub.shared.step env call phase).2.2 =
      (k.hub.shared.upgradeRecord call session record).2) :
    Handles k (k.step env aead (.advance index))
      ((k.hub.shared.points record && (k.hub.shared.peers.deref record).all fun p =>
        !decide (p.transport = .tcp ∧ call.transport ≠ .tcp)) = true) := by
  have sound := tracks.sound.modify record fun p =>
    (p.upgradeTransport call.remoteAddr call.conn call.transport session call.now).1
  have points (r : Nat) : (k.hub.shared.step env call phase).1.points r = k.hub.shared.points r :=
    Shared.points_congr (by rw [upgrades]; rfl) r
  by_cases taken : ∃ p, k.hub.shared.peers.deref record = some p ∧
      ¬ (p.transport = .tcp ∧ call.transport ≠ .tcp)
  · obtain ⟨p, there, takes⟩ := taken
    have other : p.session ≠ some session := by
      intro same
      have record : k.holds (.record record) session.keys := by
        rw [holds, Shared.recorded, there, Option.bind_some, Peer.keys, same, Option.map_some]
      have inHand : k.holds (.call index) session.keys := by
        rw [holds, hand_index stands, held, Option.map_some]
      cases tracks.single _ _ _ record inHand
    apply handles_passes stands tracks fresh (some record) (some record)
    · rw [gone, unmade]
    · intro r
      rw [upgrades, Shared.upgradeRecord, Shared.recorded_modify, there, held]
      simp only [Option.some.injEq]
      split
      · rw [Option.bind_some, Peer.upgradeTransport, if_neg takes]
        rfl
      · rfl
    · intro keys
      rw [effects, Shared.upgradeRecord, there, Option.toList_some, List.flatMap_singleton,
        p.mem_closings_upgradeTransport _ _ _ _ _ takes other]
      simp only [Option.some.injEq, exists_eq_left', Shared.recorded, there, Option.bind_some]
    · exact fun r given => Or.inl given
    · rw [upgrades]
      exact sound
    · rw [there, Option.all_some, decide_eq_false takes, Bool.not_false, Bool.and_true]
      simp only [points]
      constructor
      · rintro ⟨hands, -⟩
        obtain ⟨r, given, stored⟩ := hands session.keys (by rw [held, Option.map_some])
        cases given
        exact stored
      · intro stored
        exact ⟨fun _ _ => ⟨record, rfl, stored⟩, fun _ _ _ _ stored => stored⟩
  · have kept (p : Peer) (there : k.hub.shared.peers.deref record = some p) :
        p.upgradeTransport call.remoteAddr call.conn call.transport session call.now = (p, []) := by
      rw [Peer.upgradeTransport, if_pos]
      by_contra takes
      exact taken ⟨p, there, takes⟩
    have refused : ((k.hub.shared.points record && (k.hub.shared.peers.deref record).all fun p =>
        !decide (p.transport = .tcp ∧ call.transport ≠ .tcp)) = true) = False := by
      rw [eq_iff_iff, iff_false, Bool.and_eq_true]
      rintro ⟨stored, takes⟩
      obtain ⟨id, entry⟩ := (k.hub.shared.points_iff record).mp stored
      have there := List.getElem?_eq_getElem (tracks.sound.bound id record entry)
      refine taken ⟨_, there, ?_⟩
      rw [RefMap.deref, there, Option.all_some, Bool.not_eq_true', decide_eq_false_iff_not] at takes
      exact takes
    rw [refused]
    apply handles_drops stands tracks fresh (by rw [held]; rfl) unmade gone
    · rw [effects, Shared.upgradeRecord]
      cases there : k.hub.shared.peers.deref record with
      | none => rfl
      | some p =>
          rw [Option.toList_some, List.flatMap_singleton, kept p there]
          rfl
    · intro r
      rw [upgrades, Shared.upgradeRecord, Shared.recorded_modify]
      split
      · next here =>
          subst here
          rw [Shared.recorded]
          cases there : k.hub.shared.peers.deref record with
          | none => rfl
          | some p => rw [Option.bind_some, Option.bind_some, kept p there]
      · rfl
    · rw [upgrades]
      exact sound

theorem handles_advance (stands : k.hub.calls[index]? = some (call, some phase)) (tracks : Tracks k)
    (fresh : k.Fresh env (.advance index)) :
    Handles k (k.step env aead (.advance index)) (disposes k.hub.shared call phase = true) := by
  have silent := tracks.silent index phase (by rw [Hub.phase, stands, Option.bind_some])
  cases phase with
  | lookup =>
      apply handles_keeps stands tracks rfl
      simp only [Shared.step]
      split <;> exact .of_peers rfl rfl rfl rfl
  | process state =>
      cases processed : (k.hub.shared.pending.deref state).bind (·.processMessage call.payload) with
      | none =>
          apply handles_keeps stands tracks rfl
          simp only [Shared.step, processed]
          exact .of_peers rfl rfl rfl rfl
      | some result =>
          obtain ⟨hs, response, session⟩ := result
          have after : k.hub.shared.step env call (.process state) =
              ({ k.hub.shared with pending := k.hub.shared.pending.modify state fun _ => hs },
                some (.reply response session), []) := by
            simp only [Shared.step, processed]
          apply handles_passes stands tracks fresh none none
          · rw [after]
            rfl
          · rw [after]
            exact fun _ => rfl
          · rw [after]
            exact closes_nothing rfl
          · intro r given
            cases given
          · rw [after]
            exact tracks.sound
          · rw [after]
            refine iff_of_true ⟨?_, fun _ _ _ _ stored => stored⟩ rfl
            intro keys nothing
            cases nothing
  | failed state =>
      apply handles_keeps stands tracks rfl
      simp only [Shared.step]
      split <;> exact .of_peers rfl rfl rfl rfl
  | reply response session =>
      apply handles_keeps stands tracks rfl
      refine .of_peers rfl ?_ rfl ?_
      · cases session <;> rfl
      · cases response <;> rfl
  | lookupPeer session =>
      apply handles_keeps stands tracks rfl
      simp only [Shared.step]
      split <;> exact .of_peers rfl rfl rfl rfl
  | checkCapacity session linkMode relayTarget onConnected =>
      cases full : k.hub.shared.isFull with
      | false =>
          apply handles_keeps stands tracks (by rw [disposes, full]; rfl)
          simp only [Shared.step, full]
          exact .of_peers rfl rfl rfl rfl
      | true =>
          rw [disposes, full, Bool.not_true, Bool.false_eq_true]
          apply handles_drops stands tracks fresh rfl
          all_goals simp only [Shared.step, full]
          all_goals first | rfl | exact tracks.sound | exact fun _ => rfl
  | addPeer p onConnected => exact handles_add stands tracks fresh
  | compare session record =>
      apply handles_keeps stands tracks rfl
      refine .of_peers rfl ?_ rfl rfl
      simp only [Shared.step]
      split <;> rfl
  | switchRecord | refreshRecord => exact handles_upgrade stands tracks fresh rfl rfl rfl rfl rfl
  | linkRecord session record =>
      apply handles_keeps stands tracks rfl
      refine .of_modify (fun p => ?_) rfl rfl
      obtain ⟨linkMode, relayTarget, linked⟩ :=
        relayLinked_eq k.hub.shared.node p call.remoteAddr.text
      rw [linked]
      rfl
  | touchRecord session record =>
      apply handles_keeps stands tracks rfl
      refine .of_modify (fun p => ?_) rfl rfl
      rfl
  | candidate peerID after =>
      apply handles_keeps stands tracks rfl
      simp only [Shared.step]
      split
      · exact .of_peers rfl rfl rfl rfl
      · exact .of_peers rfl rfl rfl silent
  | addRelay peerID after => exact handles_keeps stands tracks rfl (.of_peers rfl rfl rfl silent)
  | dropState | clearPending | recordAddr | switchTables =>
      exact handles_keeps stands tracks rfl (.of_peers rfl rfl rfl rfl)

end Advance

end Keyring

theorem Session.encrypt_keys (session : Session) (aead : Aead) (plaintext : Bytes) :
    (((session.encrypt aead plaintext).map Prod.snd).getD session).keys = session.keys := by
  cases keyed : session.sendCipher <;>
    simp only [Session.encrypt, keyed, Option.map_none, Option.map_some, Option.getD_none,
      Option.getD_some, Session.keys]

namespace Keyring

section Steps

variable (env : Env) (aead : Aead) {k : Keyring}

theorem handles_removal {index : Nat} {call : RemovalCall} {phase : RemovalPhase}
    (stands : k.removals[index]? = some (call, some phase)) (tracks : Tracks k) :
    Handles k (k.step env aead (.advanceRemoval index)) (k.Disposes (.advanceRemoval index)) := by
  simp only [Disposes, step, stands, Option.all_some]
  cases phase with
  | lookup | removeSession | unmap =>
      exact handles_kept rfl (fun _ => rfl) tracks.silent (closeAll_silent rfl _) tracks tracks.sound
        (fun _ => rfl) rfl
  | close record originalAddr =>
      rw [eq_self]
      exact handles_close rfl rfl rfl tracks
  | remove originalAddr => exact handles_remove rfl rfl rfl tracks
  | notify originalAddr =>
      refine handles_kept rfl (fun _ => rfl) tracks.silent (closeAll_silent ?_ _) tracks tracks.sound
        (fun _ => rfl) rfl
      simp only [Shared.removal]
      split <;> split <;> rfl

theorem handles_step (event : KeyringEvent) (tracks : Tracks k) (fresh : k.Fresh env event) :
    Handles k (k.step env aead event) (k.Disposes event) := by
  have unchanged {allowed : Prop} (always : allowed) : Handles k k allowed :=
    handles_kept always (fun _ => rfl) tracks.silent rfl tracks tracks.sound (fun _ => rfl) rfl
  cases event with
  | call call =>
      have before : k.hub.phase k.hub.calls.length = none := by
        rw [Hub.phase, List.getElem?_eq_none (Nat.le_refl _), Option.bind_none]
      refine handles_kept trivial ?_ ?_ rfl tracks tracks.sound (fun _ => rfl) rfl
      · intro i
        simp only [hand, step, Hub.phase_call]
        split
        · next here => rw [here, before]; rfl
        · rfl
      · intro i phase stands
        simp only [step, Hub.phase_call] at stands
        split at stands
        · cases stands
          rfl
        · exact tracks.silent i phase stands
  | advance index =>
      rcases stands : k.hub.calls[index]? with _ | ⟨call, _ | phase⟩
      · simp only [step, Disposes, stands]
        exact unchanged rfl
      · simp only [step, Disposes, stands]
        exact unchanged rfl
      · simp only [Disposes, stands, Option.all_some]
        exact handles_advance stands tracks fresh
  | initiate | expire =>
      exact handles_kept trivial (fun _ => rfl) tracks.silent (closeAll_silent rfl _) tracks
        tracks.sound (fun _ => rfl) rfl
  | remove call =>
      exact handles_kept trivial (fun _ => rfl) tracks.silent rfl tracks tracks.sound (fun _ => rfl) rfl
  | advanceRemoval index =>
      rcases stands : k.removals[index]? with _ | ⟨call, _ | phase⟩
      · simp only [step, Disposes, stands]
        exact unchanged rfl
      · simp only [step, Disposes, stands]
        exact unchanged rfl
      · exact handles_removal env aead stands tracks
  | close record => exact handles_close rfl rfl rfl tracks
  | encrypt record plaintext =>
      apply handles_modify tracks
      intro p
      cases live : p.session with
      | none => simp only [Peer.keys, live, Option.map_none]
      | some session => simp only [Peer.keys, live, Option.map_some, session.encrypt_keys]
  | decrypt record payload =>
      apply handles_modify tracks
      intro p
      cases decrypted : p.decrypt aead payload with
      | none => rfl
      | some result => exact p.decrypt_keys aead decrypted

theorem tracks_initial (node : Node) (pending : RefMap (Transport × Bytes) HandshakeState) :
    Tracks (initial node pending) where
  sound := RefMap.sound_empty
  single keys place other held := by
    cases place with
    | closed =>
        obtain ⟨session, listed, -⟩ := held
        cases listed
    | call | record => cases held
  known place keys held := by
    cases place with
    | closed =>
        obtain ⟨session, listed, -⟩ := held
        cases listed
    | call | record => cases held
  apart := List.nodup_nil
  silent i phase stands := by cases stands

/-- Whatever handshakes, removals, closes, sends and data run side by side, every session that a
handshake has made is the current one of a peer, is closed or is in the hands of a call, exactly as
long as no section drops one: each new peer finds room and replaces no record that has a session, each
refreshed record is still stored and does not keep to TCP, and `Peers.Remove` finds no record that has
been given a session since `Peer.Close`. -/
theorem hygienic_interleaved (node : Node) (pending : RefMap (Transport × Bytes) HandshakeState)
    (events : List KeyringEvent)
    (fresh : Along (step env aead) (Fresh env) (initial node pending) events) :
    Throughout (step env aead) Hygienic (initial node pending) events ↔
      Along (step env aead) Disposes (initial node pending) events := by
  apply throughout_iff_along_where (I := Tracks) _ _ (tracks_initial node pending) _ fresh
  · intro k event tracks fresh
    obtain ⟨index, made, handed, ref, passes, new, -⟩ := handles_step env aead event tracks fresh
    exact passes.tracks new tracks
  · intro k event tracks fresh hygienic
    obtain ⟨index, made, handed, ref, passes, new, delivers⟩ :=
      handles_step env aead event tracks fresh
    exact (passes.hygienic_iff new tracks hygienic).trans delivers
  · intro entry listed
    cases listed

end Steps

namespace SideBySide

open Hub.SideBySide

def start : Keyring := initial Hub.SideBySide.node Hub.SideBySide.start.shared.pending

def calls (count : Nat) : List HandshakeCall → List KeyringEvent
  | [] => []
  | call :: rest =>
      .call call :: List.replicate 12 (.advance count) ++ calls (count + 1) rest

/-- A peer is admitted over UDP and switches to TCP while it is sent something; then it is removed. -/
def replacing : List KeyringEvent :=
  calls 0 [overUDP] ++ [.encrypt 0 [7]] ++ calls 1 [overTCP] ++
    .remove ⟨peerIDOf .padded [20], false⟩ :: List.replicate 6 (.advanceRemoval 0)

/-- The two handshakes of one connect find the peer unknown before either inserts it. -/
def overlapping : List KeyringEvent :=
  [.call overTCP, .call overUDP] ++ List.replicate 6 (.advance 0) ++
    List.replicate 10 (.advance 1) ++ List.replicate 4 (.advance 0)

/-- A session is given to a record between `Peer.Close` and `Peers.Remove`. -/
def refreshedWhileRemoved : List KeyringEvent :=
  calls 0 [overUDP] ++ .remove ⟨peerIDOf .padded [20], false⟩ ::
    List.replicate 4 (.advanceRemoval 0) ++ calls 1 [overTCP] ++ List.replicate 2 (.advanceRemoval 0)

theorem replacing_hygienic :
    (Along (step .padded IdealAead.tagged.toAead) (Fresh .padded) start replacing ∧
      Along (step .padded IdealAead.tagged.toAead) Disposes start replacing) ∧
    (Throughout (step .padded IdealAead.tagged.toAead) Hygienic start replacing ↔
      Along (step .padded IdealAead.tagged.toAead) Disposes start replacing) :=
  ⟨by decide +kernel, hygienic_interleaved .padded IdealAead.tagged.toAead _ _ replacing
    (by decide +kernel)⟩

/-- All calls have returned, and a session has its ciphers and is no peer's current one: the second of
two peers where there is room for one, the first of two that one connect makes, and one that a record
has been given on its way out. -/
theorem sessions_lost :
    cfg.validate = true ∧
      ∀ events ∈ [calls 0 [overUDP, fromAnother], overlapping, refreshedWhileRemoved],
        let k := run (step .padded IdealAead.tagged.toAead) start events
        Along (step .padded IdealAead.tagged.toAead) (Fresh .padded) start events ∧
          (∀ call ∈ k.hub.calls, call.2.isNone = true) ∧
          ∃ entry ∈ k.sessions, entry.2.sendCipher.isSome = true ∧ ¬ k.Current entry.1 := by
  decide +kernel

end SideBySide

end Keyring

end Tenet
