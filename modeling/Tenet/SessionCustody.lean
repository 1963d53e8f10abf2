import Tenet.Admission
import Tenet.Lib.Custody
import Tenet.RemovalCalls

/-! The sessions that completed handshakes make, while handshakes, removals and closes run side by side:
who has each of them, and what it takes for none to get lost. -/

namespace Tenet

open Lib Custody

/-- What tells the sessions apart, whatever their nonces. -/
abbrev SessionKeys := Option CipherKey × Option CipherKey × Option Key

/-- The session that a call has been given and has not passed on. -/
def CallPhase.inHand : CallPhase → Option Session
  | .reply _ session => session
  | .lookupPeer session | .clearPending session | .checkCapacity session _ _ _ => some session
  | .compare session _ | .switchRecord session _ | .linkRecord session _ | .refreshRecord session _ =>
      some session
  | .addPeer p _ => p.session
  | _ => none

def CallPhase.announces : CallPhase → List Effect
  | .recordAddr _ after | .candidate _ after | .addRelay _ after => after
  | _ => []

/-- The session that `ProcessMessage` has returned in a section. -/
def madeIn : CallPhase → Option CallPhase → Option Session
  | .process _, some (.reply _ session) => session
  | _, _ => none

def closings (effects : List Effect) : List SessionKeys :=
  effects.filterMap fun
    | .closeSession session => some session.keys
    | _ => none
namespace Shared

variable (s : Shared)

def recorded (ref : Nat) : Option SessionKeys := (s.peers.deref ref).bind Peer.keys

def points (ref : Nat) : Bool :=
  s.peers.table.keys.any fun id => decide (s.peers.find id = some ref)

theorem points_iff (ref : Nat) : s.points ref = true ↔ ∃ id, s.peers.find id = some ref := by
  simp only [points, List.any_eq_true, decide_eq_true_eq]
  constructor
  · rintro ⟨id, -, found⟩
    exact ⟨id, found⟩
  · rintro ⟨id, found⟩
    exact ⟨id, (GoMap.mem_keys s.peers.table id).mpr ⟨ref, found⟩, found⟩

end Shared
/-- The calls that run side by side, and the `Session` objects: each under the keys that it was made
with, as it was made until it is closed. -/
structure Keyring where
  hub : Hub
  removals : List (RemovalCall × Option RemovalPhase)
  sessions : List (SessionKeys × Session)

inductive KeyringEvent where
  | call (call : HandshakeCall)
  | advance (index : Nat)
  /-- a connect or a re-handshake enters the state of its message 1 -/
  | initiate (stateKey : Transport × Bytes) (hs : HandshakeState)
  | expire (stateKey : Transport × Bytes)
  | remove (call : RemovalCall)
  | advanceRemoval (index : Nat)
  /-- `Peer.Close` through a pointer, as `GracefulStop` calls it on records that stay -/
  | close (record : Nat)
  | encrypt (record : Nat) (plaintext : Bytes)
  | decrypt (record : Nat) (payload : Bytes)

def closeAll (effects : List Effect) (sessions : List (SessionKeys × Session)) :
    List (SessionKeys × Session) :=
  sessions.map fun entry =>
    (entry.1, if entry.1 ∈ closings effects then entry.2.close else entry.2)

namespace Keyring

def act (k : Keyring) (shared : Shared) (effects : List Effect) : Keyring :=
  { k with hub := { k.hub with shared }, sessions := closeAll effects k.sessions }

def modifyRecord (k : Keyring) (record : Nat) (change : Peer → Peer) : Keyring :=
  k.act { k.hub.shared with peers := k.hub.shared.peers.modify record change } []

def step (env : Env) (aead : Aead) (k : Keyring) : KeyringEvent → Keyring
  | .call call => { k with hub := k.hub.step env (.call call) }
  | .advance index =>
      match k.hub.calls[index]? with
      | some (call, some phase) =>
          let after := k.hub.shared.step env call phase
          { k with
            hub := k.hub.step env (.advance index)
            sessions := closeAll after.2.2 k.sessions ++
              (madeIn phase after.2.1).toList.map fun session => (session.keys, session) }
      | _ => k
  | .initiate stateKey hs =>
      k.act { k.hub.shared with pending := k.hub.shared.pending.put stateKey hs } []
  | .expire stateKey =>
      k.act { k.hub.shared with pending := k.hub.shared.pending.delete stateKey } []
  | .remove call => { k with removals := k.removals ++ [(call, some .lookup)] }
  | .advanceRemoval index =>
      match k.removals[index]? with
      | some (call, some phase) =>
          let after := k.hub.shared.removal call phase
          { k.act after.1 after.2.2 with removals := k.removals.set index (call, after.2.1) }
      | _ => k
  | .close record =>
      k.act { k.hub.shared with peers := k.hub.shared.peers.modify record fun p => p.close.1 }
        ((k.hub.shared.peers.deref record).toList.flatMap fun p => p.close.2)
  | .encrypt record plaintext =>
      k.modifyRecord record fun p => { p with session := p.session.map fun session =>
        ((session.encrypt aead plaintext).map Prod.snd).getD session }
  | .decrypt record payload =>
      k.modifyRecord record fun p => (p.decrypt aead payload).elim p Prod.snd

def initial (node : Node) (pending : RefMap (Transport × Bytes) HandshakeState) : Keyring :=
  ⟨⟨⟨node, pending, ∅⟩, []⟩, [], []⟩

def hand (k : Keyring) (index : Nat) : Option SessionKeys :=
  ((k.hub.phase index).bind CallPhase.inHand).map Session.keys

def Current (k : Keyring) (keys : SessionKeys) : Prop :=
  ∃ id ∈ k.hub.shared.peers.table.keys,
    (k.hub.shared.peers.value id).bind Peer.keys = some keys

def InHand (k : Keyring) (keys : SessionKeys) : Prop :=
  ∃ index < k.hub.calls.length, k.hand index = some keys

instance (k : Keyring) (keys : SessionKeys) : Decidable (k.Current keys) :=
  inferInstanceAs (Decidable (∃ id ∈ _, _ = _))

instance (k : Keyring) (keys : SessionKeys) : Decidable (k.InHand keys) :=
  inferInstanceAs (Decidable (∃ index < _, _ = _))

/-- Every session that a handshake has made is the current one of a peer, has been closed, or is in
the hands of a call. -/
def Hygienic (k : Keyring) : Prop :=
  ∀ entry ∈ k.sessions, k.Current entry.1 ∨ entry.2 = entry.2.close ∨ k.InHand entry.1

instance (k : Keyring) : Decidable k.Hygienic :=
  inferInstanceAs (Decidable (∀ entry ∈ k.sessions, _ ∨ _ = _ ∨ _))

/-- A section of a handshake drops no session: there is room for a new peer, no record with a session
is replaced, and a record that is refreshed is still stored and takes the transport. -/
def disposes (s : Shared) (call : HandshakeCall) : CallPhase → Bool
  | .checkCapacity _ _ _ _ => !s.isFull
  | .addPeer p _ => (s.peers.value p.id).all fun old => old.session.isNone
  | .switchRecord _ record | .refreshRecord _ record =>
      s.points record && (s.peers.deref record).all fun p =>
        !decide (p.transport = .tcp ∧ call.transport ≠ .tcp)
  | _ => true

/-- No section drops a session, and `Peers.Remove` finds no record with one. -/
def Disposes (k : Keyring) : KeyringEvent → Prop
  | .advance index => (k.hub.calls[index]?).all (fun (call, phase) =>
      phase.all (disposes k.hub.shared call)) = true
  | .advanceRemoval index => (k.removals[index]?).all (fun (call, phase) => phase.all fun
      | .remove _ => (k.hub.shared.peers.value call.peerID).all fun p => p.session.isNone
      | _ => true) = true
  | _ => True

def Fresh (env : Env) (k : Keyring) : KeyringEvent → Prop
  | .advance index => (k.hub.calls[index]?).all (fun (call, phase) => phase.all fun phase =>
      (madeIn phase (k.hub.shared.step env call phase).2.1).all fun session =>
        decide (session.keys ∉ k.sessions.map Prod.fst)) = true
  | _ => True

instance (k : Keyring) (event : KeyringEvent) : Decidable (k.Disposes event) :=
  match event with
  | .advance _ | .advanceRemoval _ => inferInstanceAs (Decidable (_ = true))
  | .call _ | .initiate _ _ | .expire _ | .remove _ | .close _ | .encrypt _ _ | .decrypt _ _ =>
      inferInstanceAs (Decidable True)

instance (env : Env) (k : Keyring) (event : KeyringEvent) : Decidable (k.Fresh env event) :=
  match event with
  | .advance _ => inferInstanceAs (Decidable (_ = true))
  | .call _ | .initiate _ _ | .expire _ | .remove _ | .advanceRemoval _ | .close _ | .encrypt _ _
  | .decrypt _ _ => inferInstanceAs (Decidable True)

end Keyring

/-- Who has a session: a call, a record, or nobody, as it is closed. -/
inductive Custodian where
  | call (index : Nat)
  | record (ref : Nat)
  | closed

namespace Keyring

def disposed (k : Keyring) (keys : SessionKeys) : Prop :=
  ∃ session, (keys, session) ∈ k.sessions ∧ session = session.close

def holds (k : Keyring) : Custodian → SessionKeys → Prop
  | .call index, keys => k.hand index = some keys
  | .record ref, keys => k.hub.shared.recorded ref = some keys
  | .closed, keys => k.disposed keys

def counts (k : Keyring) : Custodian → Prop
  | .record ref => k.hub.shared.points ref = true
  | _ => True

/-- What the call `index` has in hand goes to the record `handed`, if to any, and what the record `ref`
had is closed. -/
def route (index handed ref : Option Nat) : Custodian → Option Custodian
  | .call i => if index = some i then handed.map .record else some (.call i)
  | .record r => if ref = some r then some .closed else some (.record r)
  | .closed => some .closed

/-- What a step does with the sessions; `made` is what the call `index` has in hand afterwards. -/
structure Passes (k k' : Keyring) (index : Option Nat) (made : Option SessionKeys)
    (handed ref : Option Nat) : Prop where
  hands : ∀ i, k'.hand i = if index = some i then made else k.hand i
  records : ∀ r, k'.hub.shared.recorded r = if handed = some r then index.bind k.hand
    else if ref = some r then none else k.hub.shared.recorded r
  closed : ∀ keys, k'.disposed keys ↔
    k.disposed keys ∨ ∃ r, ref = some r ∧ k.hub.shared.recorded r = some keys
  room : ∀ r, handed = some r → ref = some r ∨ k.hub.shared.recorded r = none
  tags : k'.sessions.map Prod.fst = k.sessions.map Prod.fst ++ made.toList
  someone : made.isSome = true → index.isSome = true
  sound : k'.hub.shared.peers.Sound
  silent : ∀ i phase, k'.hub.phase i = some phase → closings phase.announces = []

/-- What is in hand goes to a record of the store, and no record with a session leaves the store. -/
def Delivers (k k' : Keyring) (index handed ref : Option Nat) : Prop :=
  (∀ i keys, index = some i → k.hand i = some keys →
    ∃ r, handed = some r ∧ k'.hub.shared.points r = true) ∧
  ∀ r keys, ref ≠ some r → k.hub.shared.recorded r = some keys →
    k.hub.shared.points r = true → k'.hub.shared.points r = true

/-- Every session has one custodian at most, and the objects are apart. -/
structure Tracks (k : Keyring) : Prop where
  sound : k.hub.shared.peers.Sound
  single : Single k.holds
  known : ∀ place keys, k.holds place keys → keys ∈ k.sessions.map Prod.fst
  apart : (k.sessions.map Prod.fst).Nodup
  silent : ∀ i phase, k.hub.phase i = some phase → closings phase.announces = []

section Passing

variable {k k' : Keyring} {index handed ref : Option Nat} {made : Option SessionKeys}

theorem Passes.moves (passes : Passes k k' index made handed ref) :
    Moves k.holds k'.holds (route index handed ref)
      (index.bind fun i => made.map fun keys => (.call i, keys)) := by
  intro place keys
  constructor
  · intro held
    cases place with
    | call i =>
        have hand : k'.hand i = some keys := held
        rw [passes.hands] at hand
        split at hand
        · next there =>
            right
            rw [there, hand]
            rfl
        · next elsewhere => exact Or.inl ⟨.call i, hand, if_neg elsewhere⟩
    | record r =>
        have record : k'.hub.shared.recorded r = some keys := held
        rw [passes.records] at record
        left
        split at record
        · next given =>
            obtain ⟨i, there, hand⟩ := Option.bind_eq_some_iff.mp record
            exact ⟨.call i, hand, by rw [route, if_pos there, given, Option.map_some]⟩
        · split at record
          · cases record
          · next kept => exact ⟨.record r, record, if_neg kept⟩
    | closed =>
        rcases (passes.closed keys).mp held with before | ⟨r, cleared, record⟩
        · exact Or.inl ⟨.closed, before, rfl⟩
        · exact Or.inl ⟨.record r, record, if_pos cleared⟩
  · rintro (⟨origin, held, goes⟩ | new)
    · cases origin with
      | call i =>
          have hand : k.hand i = some keys := held
          simp only [route] at goes
          split at goes
          · next there =>
              obtain ⟨r, given, rfl⟩ := Option.map_eq_some_iff.mp goes
              refine (passes.records r).trans ?_
              rw [if_pos given, there]
              exact hand
          · next elsewhere =>
              cases goes
              exact (passes.hands i).trans ((if_neg elsewhere).trans hand)
      | record r =>
          have record : k.hub.shared.recorded r = some keys := held
          simp only [route] at goes
          split at goes
          · next cleared =>
              cases goes
              exact (passes.closed keys).mpr (Or.inr ⟨r, cleared, record⟩)
          · next kept =>
              cases goes
              have ungiven : handed ≠ some r := by
                intro given
                rw [(passes.room r given).resolve_left kept] at record
                cases record
              exact (passes.records r).trans ((if_neg ungiven).trans ((if_neg kept).trans record))
      | closed =>
          cases goes
          exact (passes.closed keys).mpr (Or.inl held)
    · obtain ⟨i, there, new⟩ := Option.bind_eq_some_iff.mp new
      obtain ⟨_, made, both⟩ := Option.map_eq_some_iff.mp new
      cases both
      exact (passes.hands i).trans ((if_pos there).trans made)

theorem forwards_iff_delivers :
    Forwards k.holds k.counts k'.counts (route index handed ref) ↔ Delivers k k' index handed ref := by
  constructor
  · intro forwards
    constructor
    · intro i keys there hand
      obtain ⟨next, goes, counted⟩ := forwards (.call i) keys hand trivial
      rw [route, if_pos there, Option.map_eq_some_iff] at goes
      obtain ⟨r, given, rfl⟩ := goes
      exact ⟨r, given, counted⟩
    · intro r keys kept record stored
      obtain ⟨next, goes, counted⟩ := forwards (.record r) keys record stored
      rw [route, if_neg kept] at goes
      cases goes
      exact counted
  · rintro ⟨hands, records⟩ place keys held counted
    cases place with
    | call i =>
        by_cases there : index = some i
        · obtain ⟨r, given, stored⟩ := hands i keys there held
          exact ⟨.record r, by rw [route, if_pos there, given, Option.map_some], stored⟩
        · exact ⟨.call i, if_neg there, trivial⟩
    | record r =>
        by_cases cleared : ref = some r
        · exact ⟨.closed, if_pos cleared, trivial⟩
        · exact ⟨.record r, if_neg cleared, records r keys cleared held counted⟩
    | closed => exact ⟨.closed, rfl, trivial⟩

theorem Passes.made_eq (passes : Passes k k' index made handed ref) (keys : SessionKeys) :
    (∃ place, (index.bind fun i => made.map fun keys => (Custodian.call i, keys)) =
      some (place, keys)) ↔ made = some keys := by
  constructor
  · rintro ⟨place, new⟩
    obtain ⟨_, -, new⟩ := Option.bind_eq_some_iff.mp new
    obtain ⟨_, same, both⟩ := Option.map_eq_some_iff.mp new
    cases both
    exact same
  · rintro rfl
    obtain ⟨i, there⟩ := Option.isSome_iff_exists.mp (passes.someone rfl)
    exact ⟨.call i, by rw [there]; rfl⟩

theorem Passes.tracks (passes : Passes k k' index made handed ref)
    (new : ∀ keys, made = some keys → keys ∉ k.sessions.map Prod.fst) (tracks : Tracks k) :
    Tracks k' where
  sound := passes.sound
  single := tracks.single.moves passes.moves fun place keys born origin held =>
    new keys ((passes.made_eq keys).mp ⟨place, born⟩) (tracks.known origin keys held)
  known place keys held := by
    rw [passes.tags]
    rcases (passes.moves place keys).mp held with ⟨origin, before, -⟩ | born
    · exact List.mem_append_left _ (tracks.known origin keys before)
    · rw [(passes.made_eq keys).mp ⟨place, born⟩]
      exact List.mem_append_right _ List.mem_cons_self
  apart := by
    rw [passes.tags, List.nodup_append]
    refine ⟨tracks.apart, ?_, ?_⟩
    · cases made <;> simp
    · rintro keys old _ added rfl
      exact new keys (Option.mem_toList.mp added) old
  silent := passes.silent

theorem hygienic_iff_accounted (tracks : Tracks k) :
    k.Hygienic ↔ Accounted k.holds k.counts (· ∈ k.sessions.map Prod.fst) := by
  constructor
  · intro hygienic keys present
    obtain ⟨⟨_, session⟩, listed, rfl⟩ := List.mem_map.mp present
    rcases hygienic _ listed with ⟨id, -, current⟩ | wiped | ⟨index, -, hand⟩
    · obtain ⟨p, found, keyed⟩ := Option.bind_eq_some_iff.mp current
      obtain ⟨ref, entry, there⟩ := Option.bind_eq_some_iff.mp found
      refine ⟨.record ref, ?_, (k.hub.shared.points_iff ref).mpr ⟨id, entry⟩⟩
      exact Option.bind_eq_some_iff.mpr ⟨p, there, keyed⟩
    · exact ⟨.closed, ⟨session, listed, wiped⟩, trivial⟩
    · exact ⟨.call index, hand, trivial⟩
  · rintro kept ⟨keys, session⟩ listed
    obtain ⟨place, held, counted⟩ := kept keys (List.mem_map_of_mem listed)
    cases place with
    | call index =>
        refine Or.inr (Or.inr ⟨index, ?_, held⟩)
        by_contra beyond
        have hand : k.hand index = some keys := held
        simp only [Keyring.hand, Hub.phase, List.getElem?_eq_none (Nat.le_of_not_lt beyond),
          Option.bind_none, Option.map_none, reduceCtorEq] at hand
    | record ref =>
        obtain ⟨id, entry⟩ := (k.hub.shared.points_iff ref).mp counted
        refine Or.inl ⟨id, (GoMap.mem_keys _ id).mpr ⟨ref, entry⟩, ?_⟩
        rw [RefMap.value, entry]
        exact held
    | closed =>
        obtain ⟨other, also, wiped⟩ := held
        have same := List.inj_on_of_nodup_map tracks.apart also listed rfl
        cases same
        exact Or.inr (Or.inl wiped)

theorem Passes.hygienic_iff (passes : Passes k k' index made handed ref)
    (new : ∀ keys, made = some keys → keys ∉ k.sessions.map Prod.fst) (tracks : Tracks k)
    (hygienic : k.Hygienic) :
    k'.Hygienic ↔ Delivers k k' index handed ref := by
  rw [hygienic_iff_accounted (passes.tracks new tracks), ← forwards_iff_delivers]
  apply accounted_iff_forwards tracks.single tracks.known passes.moves
  · intro place keys born
    refine ⟨new keys ((passes.made_eq keys).mp ⟨place, born⟩), ?_⟩
    obtain ⟨i, -, born⟩ := Option.bind_eq_some_iff.mp born
    obtain ⟨_, -, both⟩ := Option.map_eq_some_iff.mp born
    cases both
    trivial
  · intro keys
    rw [passes.made_eq, passes.tags, List.mem_append, Option.mem_toList]
  · exact (hygienic_iff_accounted tracks).mp hygienic

end Passing

/-- A step passes the sessions on, and loses none exactly when it is `allowed`. -/
def Handles (k k' : Keyring) (allowed : Prop) : Prop :=
  ∃ index made handed ref, Passes k k' index made handed ref ∧
    (∀ keys, made = some keys → keys ∉ k.sessions.map Prod.fst) ∧
    (Delivers k k' index handed ref ↔ allowed)

end Keyring

theorem closings_append (first second : List Effect) :
    closings (first ++ second) = closings first ++ closings second :=
  List.filterMap_append

theorem mem_closings_sessions (session : Option Session) (conns : List ConnId) (keys : SessionKeys) :
    keys ∈ closings (session.toList.map .closeSession ++ conns.map .closeConn) ↔
      session.map Session.keys = some keys := by
  have silent : closings (conns.map .closeConn) = [] := by
    simp only [closings, List.filterMap_map, Function.comp_def, List.filterMap_none]
  rw [closings_append, silent, List.append_nil]
  cases session <;> simp [closings, eq_comm]

theorem Peer.mem_closings_close (p : Peer) (keys : SessionKeys) :
    keys ∈ closings p.close.2 ↔ p.keys = some keys := by
  simp only [Peer.close]
  split
  · exact mem_closings_sessions p.session p.conn.toList keys
  · exact mem_closings_sessions p.session [] keys

theorem Peer.mem_closings_upgradeTransport (p : Peer) (addr : NetAddr) (conn : Option ConnId)
    (transport : Transport) (session : Session) (now : Int)
    (taken : ¬ (p.transport = .tcp ∧ transport ≠ .tcp)) (other : p.session ≠ some session)
    (keys : SessionKeys) :
    keys ∈ closings (p.upgradeTransport addr conn transport session now).2 ↔
      p.keys = some keys := by
  rw [Peer.upgradeTransport, if_neg taken, if_pos other, closings_append, List.mem_append, or_comm,
    ← List.mem_append, ← closings_append]
  split
  · exact mem_closings_sessions p.session p.conn.toList keys
  · exact mem_closings_sessions p.session [] keys

theorem closeAll_silent {effects : List Effect} (silent : closings effects = [])
    (sessions : List (SessionKeys × Session)) : closeAll effects sessions = sessions := by
  simp only [closeAll, silent, List.not_mem_nil, if_false, Prod.eta, List.map_id']

theorem mem_closeAll {effects : List Effect} {sessions : List (SessionKeys × Session)}
    {keys : SessionKeys} {session : Session} :
    (keys, session) ∈ closeAll effects sessions ↔
      ∃ before, (keys, before) ∈ sessions ∧
        session = if keys ∈ closings effects then before.close else before := by
  rw [closeAll, List.mem_map]
  constructor
  · rintro ⟨⟨_, before⟩, listed, both⟩
    cases both
    exact ⟨before, listed, rfl⟩
  · rintro ⟨before, listed, rfl⟩
    exact ⟨(keys, before), listed, rfl⟩

namespace Shared

variable {s s' : Shared}

theorem points_congr (table : s'.peers.table = s.peers.table) (ref : Nat) :
    s'.points ref = s.points ref := by
  rw [Bool.eq_iff_iff, points_iff, points_iff]
  simp only [RefMap.find, table]

theorem recorded_modify (record ref : Nat) (change : Peer → Peer) :
    ({ s with peers := s.peers.modify record change } : Shared).recorded ref =
      if record = ref then (s.peers.deref record).bind fun p => (change p).keys
      else s.recorded ref := by
  simp only [recorded, RefMap.deref_modify]
  split
  · next same =>
      rw [same, Option.bind_map]
      rfl
  · rw [Option.map_id']

theorem recorded_modify_keys (record ref : Nat) {change : Peer → Peer}
    (same : ∀ p, (change p).keys = p.keys) :
    ({ s with peers := s.peers.modify record change } : Shared).recorded ref = s.recorded ref := by
  rw [recorded_modify]
  split
  · next here => simp only [same, recorded, here]
  · rfl

theorem recorded_close (record ref : Nat) :
    ({ s with peers := s.peers.modify record fun p => p.close.1 } : Shared).recorded ref =
      if some record = some ref then none else s.recorded ref := by
  rw [recorded_modify]
  simp only [Option.some.injEq]
  split
  · exact Option.bind_fun_none _
  · rfl

theorem mem_closings_record (record : Nat) (keys : SessionKeys) :
    keys ∈ closings ((s.peers.deref record).toList.flatMap fun p => p.close.2) ↔
      ∃ r, some record = some r ∧ s.recorded r = some keys := by
  simp only [Option.some.injEq, exists_eq_left', recorded]
  cases s.peers.deref record with
  | none => simp [closings]
  | some p =>
      rw [Option.toList_some, List.flatMap_singleton, Option.bind_some]
      exact p.mem_closings_close keys

theorem entry_bare_iff (sound : s.peers.Sound) (id : Bytes) :
    (∀ r keys, s.recorded r = some keys → s.points r = true →
      ∃ other, other ≠ id ∧ s.peers.find other = some r) ↔
      (s.peers.value id).all (fun p => p.session.isNone) = true := by
  simp only [points_iff, Option.all_eq_true, Option.isNone_iff_eq_none]
  constructor
  · intro stay p found
    obtain ⟨ref, entry, there⟩ := Option.bind_eq_some_iff.mp found
    by_contra live
    obtain ⟨session, live⟩ := Option.ne_none_iff_exists'.mp live
    have record : s.recorded ref = some session.keys := by
      rw [recorded, there, Option.bind_some, Peer.keys, live, Option.map_some]
    obtain ⟨other, elsewhere, still⟩ := stay ref session.keys record ⟨id, entry⟩
    exact elsewhere (sound.apart other id ref still entry)
  · rintro bare r keys record ⟨other, entry⟩
    obtain ⟨p, there, keyed⟩ := Option.bind_eq_some_iff.mp record
    refine ⟨other, ?_, entry⟩
    rintro rfl
    have none := bare p (by rw [RefMap.value, entry, Option.bind_some]; exact there)
    rw [Peer.keys, none] at keyed
    cases keyed

end Shared

end Tenet
