import Tenet.PendingState
import Tenet.Rehandshake

/-! The delayed delete of `sendFastRehandshake`: which pending handshakes it removes, and when. -/

namespace Tenet

open Lib

namespace Shared

def sendFastRehandshake (s : Shared) (p : Peer) (ephemeral : Key) (now : Int) (accepted : Bool) :
    Shared × RehandshakeSend :=
  if p.transport ≠ .tcp ∧ p.transport ≠ .udp then (s, .failed)
  else if (s.pending.find (p.transport, p.addr.text)).isSome then (s, .busy)
  else
    let registered := s.pending.put (p.transport, p.addr.text) (s.node.initiate ephemeral now)
    if sendRawSucceeds p.conn p.addr p.transport accepted then
      ({ s with pending := registered }, .written)
    else ({ s with pending := registered.delete (p.transport, p.addr.text) }, .failed)

end Shared

theorem Represents.find_pending {s : Shared} {n : Node} (rep : Represents s n)
    (key : Transport × Bytes) :
    (s.pending.find key).isSome = (n.pendingHandshakes.get key).isSome := by
  rw [← rep.pending, RefMap.value]
  cases found : s.pending.find key with
  | none => rfl
  | some state =>
      rw [Option.bind_some]
      exact (Option.isSome_iff_exists.mpr
        ⟨_, List.getElem?_eq_getElem (rep.pendingSound.bound key state found)⟩).symm

theorem Represents.sendFastRehandshake {s : Shared} {n : Node} (rep : Represents s n) (p : Peer)
    (ephemeral : Key) (now : Int) (accepted : Bool) :
    Represents (s.sendFastRehandshake p ephemeral now accepted).1
        (n.sendFastRehandshake p ephemeral now accepted).1 ∧
      (s.sendFastRehandshake p ephemeral now accepted).2 =
        (n.sendFastRehandshake p ephemeral now accepted).2.2 := by
  obtain ⟨pendingHandshakes, peers, others⟩ := rep.others
  have same : s.node.initiate ephemeral now = n.initiate ephemeral now := by rw [others]; rfl
  unfold Shared.sendFastRehandshake Node.sendFastRehandshake
  split
  · exact ⟨rep, rfl⟩
  · rw [rep.find_pending, same]
    have registered := rep.putPending (p.transport, p.addr.text) (n.initiate ephemeral now)
    dsimp only
    split
    · exact ⟨rep, rfl⟩
    · split
      · exact ⟨registered, rfl⟩
      · exact ⟨registered.deletePending _, rfl⟩

/-- What the rest of a call may do to the pending table: it may delete its own key, and it changes no
state's time of creation. -/
structure Fades (key : Transport × Bytes) (before after : RefMap (Transport × Bytes) HandshakeState) :
    Prop where
  others : ∀ other, other ≠ key → after.find other = before.find other
  own : after.find key = before.find key ∨ after.find key = none
  created : ∀ state hs, before.deref state = some hs →
    ∃ now, after.deref state = some now ∧ now.createdAt = hs.createdAt

namespace Fades

variable {key : Transport × Bytes} {first second third : RefMap (Transport × Bytes) HandshakeState}

theorem refl (pending : RefMap (Transport × Bytes) HandshakeState) : Fades key pending pending :=
  ⟨fun _ _ => rfl, Or.inl rfl, fun _ hs found => ⟨hs, found, rfl⟩⟩

theorem trans (front : Fades key first second) (back : Fades key second third) :
    Fades key first third := by
  refine ⟨fun other differs => (back.others other differs).trans (front.others other differs), ?_, ?_⟩
  · rcases back.own with same | gone
    · rw [same]
      exact front.own
    · exact Or.inr gone
  · intro state hs found
    rcases front.created state hs found with ⟨middle, moved, sameThen⟩
    rcases back.created state middle moved with ⟨last, movedOn, sameNow⟩
    exact ⟨last, movedOn, sameNow.trans sameThen⟩

theorem delete (pending : RefMap (Transport × Bytes) HandshakeState) :
    Fades key pending (pending.delete key) := by
  refine ⟨fun other differs => ?_, Or.inr ?_, fun _ hs found => ⟨hs, found, rfl⟩⟩
  · rw [RefMap.find_delete, if_neg differs]
  · rw [RefMap.find_delete, if_pos rfl]

end Fades

theorem processMessage_createdAt (hs next : HandshakeState) (payload : Message)
    (response : Option Message) (session : Option Session)
    (processed : hs.processMessage payload = some (next, response, session)) :
    next.createdAt = hs.createdAt := by
  unfold HandshakeState.processMessage at processed
  split at processed
  · cases processed
  · split at processed
    · cases processed
      rfl
    · split at processed
      · cases processed
        rfl
      · cases processed
    · split at processed
      · cases processed
        rfl
      · cases processed
    · cases processed

theorem fades_modify {key : Transport × Bytes} (pending : RefMap (Transport × Bytes) HandshakeState)
    (state : Nat) (payload : Message) (next : HandshakeState) (response : Option Message)
    (session : Option Session)
    (processed : (pending.deref state).bind (·.processMessage payload) =
      some (next, response, session)) :
    Fades key pending (pending.modify state fun _ => next) := by
  refine ⟨fun _ _ => rfl, Or.inl rfl, fun other hs found => ?_⟩
  rw [RefMap.deref_modify, found, Option.map_some]
  refine ⟨_, rfl, ?_⟩
  split
  · next same =>
      rw [same, found, Option.bind_some] at processed
      exact processMessage_createdAt hs next payload response session processed
  · rfl

section Call

variable (env : Env) (call : HandshakeCall)

theorem step_fades (s : Shared) (phase : CallPhase) (started : phase ≠ .lookup) :
    Fades call.stateKey s.pending (s.step env call phase).1.pending := by
  rcases s.step_pending_cases env call phase started with
    ⟨_, deleted⟩ | ⟨_, same | ⟨state, next, response, session, processed, modified⟩⟩
  · rw [deleted]
    exact Fades.delete _
  · rw [same]
    exact Fades.refl _
  · rw [modified]
    exact fades_modify s.pending state call.payload next response session processed

theorem step_started (s : Shared) (phase : CallPhase) :
    (s.step env call phase).2.1 ≠ some .lookup := by
  cases phase with
  | lookup | process | lookupPeer | checkCapacity | candidate | failed | compare =>
      simp only [Shared.step]
      split <;> simp
  | reply response session => cases session <;> simp [Shared.step]
  | dropState | clearPending | addPeer | recordAddr | switchRecord | switchTables | linkRecord
  | refreshRecord | touchRecord | addRelay => simp [Shared.step]

theorem finish_fades (sections : Nat) (s : Shared) (phase : Option CallPhase)
    (started : phase ≠ some .lookup) :
    Fades call.stateKey s.pending (Shared.finish env call sections s phase).1.pending := by
  induction sections generalizing s phase with
  | zero => exact Fades.refl _
  | succ sections ih =>
      cases phase with
      | none => exact Fades.refl _
      | some phase =>
          have now := step_fades env call s phase (fun same => started (congrArg some same))
          exact now.trans (ih _ _ (step_started env call s phase))

/-- The payload brings the handshake to its end: it fails or completes it. -/
def HandshakeState.ends (hs : HandshakeState) (payload : Message) : Prop :=
  ∀ next response, hs.processMessage payload ≠ some (next, response, none)

theorem finish_found (s : Shared) (state : Nat) (found : s.pending.find call.stateKey = some state) :
    Shared.finish env call 10 s (some .lookup) =
      Shared.finish env call 9 s (some (.process state)) := by
  rw [Shared.finish]
  simp only [Shared.step, found, List.nil_append]

theorem processHandshake_found (s : Shared) (state : Nat)
    (found : s.pending.find call.stateKey = some state) :
    Fades call.stateKey s.pending (Shared.finish env call 10 s (some .lookup)).1.pending := by
  rw [finish_found env call s state found]
  exact finish_fades env call 9 s (some (.process state)) (by simp)

theorem processHandshake_own (s : Shared) (state : Nat) (hs : HandshakeState)
    (found : s.pending.find call.stateKey = some state) (held : s.pending.deref state = some hs) :
    (Shared.finish env call 10 s (some .lookup)).1.pending.find call.stateKey = some state ∨
      hs.ends call.payload := by
  rw [finish_found env call s state found]
  by_cases waits : ∃ next response, hs.processMessage call.payload = some (next, response, none)
  · rcases waits with ⟨next, response, processed⟩
    refine Or.inl ?_
    simp only [Shared.finish, Shared.step, held, Option.bind_some, processed, Option.map_none]
    exact found
  · exact Or.inr fun next response processed => waits ⟨next, response, processed⟩

theorem processHandshake_new (s : Shared) (free : s.pending.find call.stateKey = none) :
    Fades call.stateKey
      (s.pending.put call.stateKey (newResponderHandshake s.node.identity.noisePublicKey
        s.node.config.networkPassword call.ephemeral call.now))
      (Shared.finish env call 10 s (some .lookup)).1.pending := by
  let registered : Shared := { s with
    pending := s.pending.put call.stateKey (newResponderHandshake s.node.identity.noisePublicKey
      s.node.config.networkPassword call.ephemeral call.now) }
  rw [Shared.finish]
  simp only [Shared.step, free]
  exact finish_fades env call 9 registered (some (.process s.pending.objects.length))
    (by simp)

end Call

/-- The goroutine that sleeps for `FastRehandshakePendingTTL` and then deletes the key. It knows the key
only; `state` is the handshake that its call registered there. -/
structure PendingTimer where
  key : Transport × Bytes
  state : Nat
  deadline : Int
  deriving DecidableEq, Repr

structure Expiring where
  shared : Shared
  clock : Int
  timers : List PendingTimer

inductive ExpiryEvent where
  | wait (duration : Nat)
  | sendFastRehandshake (p : Peer) (ephemeral : Key) (accepted : Bool)
  /-- a handshake message comes in -/
  | processHandshake (call : HandshakeCall)
  /-- a sleeper whose time has come deletes its key -/
  | expirePending (index : Nat)

namespace Expiring

def pending (m : Expiring) : RefMap (Transport × Bytes) HandshakeState := m.shared.pending

section

variable (env : Env) (ttl : Int)

def step (m : Expiring) : ExpiryEvent → Expiring
  | .wait duration => { m with clock := m.clock + duration }
  | .sendFastRehandshake p ephemeral accepted =>
      let sent := m.shared.sendFastRehandshake p ephemeral m.clock accepted
      { m with
        shared := sent.1
        timers := if sent.2 = .written then
            m.timers ++ [⟨(p.transport, p.addr.text), m.pending.objects.length, m.clock + ttl⟩]
          else m.timers }
  | .processHandshake call =>
      { m with
        shared := (Shared.finish env { call with now := m.clock } 10 m.shared (some .lookup)).1 }
  | .expirePending index =>
      match m.timers[index]? with
      | none => m
      | some timer =>
          if timer.deadline ≤ m.clock then
            { m with
              shared := { m.shared with pending := m.pending.delete timer.key }
              timers := m.timers.eraseIdx index }
          else m

/-- What an event may remove. A sleeper removes only the handshake that its call registered, and before
its time is over a handshake goes only by a message that fails or completes it, or for a newer one. -/
structure RemovesOwn (m : Expiring) (event : ExpiryEvent) : Prop where
  own : ∀ index timer state, event = .expirePending index → m.timers[index]? = some timer →
    m.pending.find timer.key = some state → (m.step env ttl event).pending.find timer.key ≠ some state →
      state = timer.state
  early : ∀ key state hs, m.pending.find key = some state → m.pending.deref state = some hs →
    m.clock < hs.createdAt + ttl → (m.step env ttl event).pending.find key ≠ some state →
      (∃ call, event = .processHandshake call ∧ call.stateKey = key ∧ hs.ends call.payload) ∨
        ∃ newer, newer ≠ state ∧ (m.step env ttl event).pending.find key = some newer

end

def registers (m : Expiring) : ExpiryEvent → Option (Transport × Bytes)
  | .sendFastRehandshake p _ _ =>
      if (p.transport = .tcp ∨ p.transport = .udp) ∧
          m.pending.find (p.transport, p.addr.text) = none then
        some (p.transport, p.addr.text)
      else none
  | .processHandshake call =>
      if m.pending.find call.stateKey = none then some call.stateKey else none
  | .wait _ | .expirePending _ => none

/-- No handshake is registered under a key for which a sleeper is still there. -/
def Unarmed (m : Expiring) (event : ExpiryEvent) : Prop :=
  ∀ key ∈ m.registers event, ∀ timer ∈ m.timers, timer.key ≠ key

instance (m : Expiring) (event : ExpiryEvent) : Decidable (m.Unarmed event) :=
  inferInstanceAs (Decidable (∀ key ∈ m.registers event, ∀ timer ∈ m.timers, timer.key ≠ key))

end Expiring

/-- The key of a sleeper holds its own handshake or none, and its time is that of the handshake. -/
structure Owned (ttl : Int) (pending : RefMap (Transport × Bytes) HandshakeState)
    (timers : List PendingTimer) : Prop where
  own : ∀ timer ∈ timers, ∀ state, pending.find timer.key = some state → state = timer.state
  timed : ∀ timer ∈ timers, ∃ hs, pending.deref timer.state = some hs ∧
    timer.deadline = hs.createdAt + ttl

namespace Owned

variable {ttl : Int} {pending after : RefMap (Transport × Bytes) HandshakeState}
  {timers : List PendingTimer} {key : Transport × Bytes}

theorem fades (owned : Owned ttl pending timers) (change : Fades key pending after) :
    Owned ttl after timers := by
  constructor
  · intro timer member state found
    apply owned.own timer member state
    by_cases same : timer.key = key
    · rw [same] at found ⊢
      rcases change.own with kept | gone
      · rwa [kept] at found
      · rw [gone] at found
        cases found
    · rwa [change.others timer.key same] at found
  · intro timer member
    rcases owned.timed timer member with ⟨hs, held, due⟩
    rcases change.created timer.state hs held with ⟨now, moved, same⟩
    exact ⟨now, moved, by rw [same]; exact due⟩

theorem put (owned : Owned ttl pending timers) (hs : HandshakeState)
    (unarmed : ∀ timer ∈ timers, timer.key ≠ key) : Owned ttl (pending.put key hs) timers := by
  constructor
  · intro timer member state found
    rw [RefMap.find_put, if_neg (unarmed timer member)] at found
    exact owned.own timer member state found
  · intro timer member
    rcases owned.timed timer member with ⟨old, held, due⟩
    have older : timer.state ≠ pending.objects.length :=
      Nat.ne_of_lt (List.getElem?_eq_some_iff.mp held).1
    refine ⟨old, ?_, due⟩
    rw [← held]
    exact (pending.deref_alloc hs timer.state).trans (if_neg older)

theorem arm (owned : Owned ttl pending timers) (hs : HandshakeState)
    (unarmed : ∀ timer ∈ timers, timer.key ≠ key) :
    Owned ttl (pending.put key hs)
      (timers ++ [⟨key, pending.objects.length, hs.createdAt + ttl⟩]) := by
  have earlier := owned.put hs unarmed
  constructor
  · intro timer member state found
    rcases List.mem_append.mp member with before | new
    · exact earlier.own timer before state found
    · rw [List.mem_singleton.mp new] at found ⊢
      rw [RefMap.find_put, if_pos rfl] at found
      exact (Option.some.inj found).symm
  · intro timer member
    rcases List.mem_append.mp member with before | new
    · exact earlier.timed timer before
    · rw [List.mem_singleton.mp new]
      exact ⟨hs, (pending.deref_alloc hs _).trans (if_pos rfl), rfl⟩

theorem sub (owned : Owned ttl pending timers) (fewer : List PendingTimer)
    (among : ∀ timer ∈ fewer, timer ∈ timers) : Owned ttl pending fewer :=
  ⟨fun timer member => owned.own timer (among timer member),
    fun timer member => owned.timed timer (among timer member)⟩

end Owned

namespace Expiring

variable (env : Env) (ttl : Int) {m : Expiring}

theorem processHandshake_fades (m : Expiring) (call : HandshakeCall) :
    ∃ looked, Fades call.stateKey looked (m.step env ttl (.processHandshake call)).pending ∧
      ((looked = m.pending ∧ (m.pending.find call.stateKey).isSome = true) ∨
        ∃ hs, m.pending.find call.stateKey = none ∧ looked = m.pending.put call.stateKey hs) := by
  cases found : m.pending.find call.stateKey with
  | none =>
      exact ⟨_, processHandshake_new env { call with now := m.clock } m.shared found,
        Or.inr ⟨_, rfl, rfl⟩⟩
  | some state =>
      exact ⟨m.pending, processHandshake_found env { call with now := m.clock } m.shared state found,
        Or.inl ⟨rfl, rfl⟩⟩

theorem sendFastRehandshake_registers (m : Expiring) (p : Peer) (ephemeral : Key) (accepted : Bool) :
    let after := m.step env ttl (.sendFastRehandshake p ephemeral accepted)
    (after.pending = m.pending ∧ after.timers = m.timers) ∨
      ∃ key hs, key ∈ m.registers (.sendFastRehandshake p ephemeral accepted) ∧
        m.pending.find key = none ∧
        ((after.pending = m.pending.put key hs ∧ after.timers =
            m.timers ++ [⟨key, m.pending.objects.length, hs.createdAt + ttl⟩]) ∨
          (after.pending = (m.pending.put key hs).delete key ∧ after.timers = m.timers)) := by
  simp only [step, Shared.sendFastRehandshake]
  split
  · exact Or.inl ⟨rfl, rfl⟩
  · next supported =>
      split
      · exact Or.inl ⟨rfl, rfl⟩
      · next absent =>
          have free : m.pending.find (p.transport, p.addr.text) = none := by
            simpa [pending] using absent
          have known : p.transport = .tcp ∨ p.transport = .udp := by
            by_contra neither
            exact supported (not_or.mp neither)
          have key : (p.transport, p.addr.text) ∈
              m.registers (.sendFastRehandshake p ephemeral accepted) := by
            simp only [registers, known, free, and_self, if_true, Option.mem_def]
          refine Or.inr ⟨_, m.shared.node.initiate ephemeral m.clock, key, free, ?_⟩
          split
          · exact Or.inl ⟨rfl, rfl⟩
          · exact Or.inr ⟨rfl, rfl⟩

theorem expirePending_deletes (m : Expiring) (index : Nat) :
    let after := m.step env ttl (.expirePending index)
    (after.pending = m.pending ∧ after.timers = m.timers) ∨
      ∃ timer ∈ m.timers, timer.deadline ≤ m.clock ∧
        after.pending = m.pending.delete timer.key ∧ after.timers = m.timers.eraseIdx index := by
  simp only [step]
  split
  · exact Or.inl ⟨rfl, rfl⟩
  · next timer present =>
      split
      · next due => exact Or.inr ⟨timer, List.mem_of_getElem? present, due, rfl, rfl⟩
      · exact Or.inl ⟨rfl, rfl⟩

theorem owned_step (event : ExpiryEvent) (owned : Owned ttl m.pending m.timers)
    (unarmed : m.Unarmed event) :
    Owned ttl (m.step env ttl event).pending (m.step env ttl event).timers := by
  cases event with
  | wait duration => exact owned
  | expirePending index =>
      rcases expirePending_deletes env ttl m index with
        ⟨table, sleepers⟩ | ⟨timer, _, _, table, sleepers⟩
      · rwa [table, sleepers]
      · rw [table, sleepers]
        exact (owned.fades (Fades.delete m.pending)).sub _
          fun timer member => List.mem_of_mem_eraseIdx member
  | processHandshake call =>
      rcases processHandshake_fades env ttl m call with ⟨looked, change, kept | new⟩
      · rw [kept.1] at change
        exact owned.fades change
      · rcases new with ⟨hs, free, rfl⟩
        have key : call.stateKey ∈ m.registers (.processHandshake call) := by
          simp only [registers, free, if_true, Option.mem_def]
        exact (owned.put hs (unarmed _ key)).fades change
  | sendFastRehandshake p ephemeral accepted =>
      rcases sendFastRehandshake_registers env ttl m p ephemeral accepted with
        ⟨table, sleepers⟩ | ⟨key, hs, new, _, ⟨table, sleepers⟩ | ⟨table, sleepers⟩⟩
      · rwa [table, sleepers]
      · rw [table, sleepers]
        exact owned.arm hs (unarmed key new)
      · rw [table, sleepers]
        exact (owned.put hs (unarmed key new)).fades (Fades.delete _)

/-- Where the keys of the sleepers hold their own handshakes, a sleeper finds the handshake whose time is
over. -/
theorem expirePending_late (index : Nat) (owned : Owned ttl m.pending m.timers)
    (key : Transport × Bytes) (state : Nat) (hs : HandshakeState)
    (found : m.pending.find key = some state) (held : m.pending.deref state = some hs)
    (early : m.clock < hs.createdAt + ttl) :
    (m.step env ttl (.expirePending index)).pending.find key = some state := by
  rcases expirePending_deletes env ttl m index with ⟨table, _⟩ | ⟨timer, member, due, table, _⟩
  · rwa [table]
  · have differs : key ≠ timer.key := by
      rintro rfl
      rcases owned.timed timer member with ⟨registered, there, deadline⟩
      rw [← owned.own timer member state found, held] at there
      cases there
      omega
    rwa [table, RefMap.find_delete, if_neg differs]

theorem sendFastRehandshake_keeps (m : Expiring) (p : Peer) (ephemeral : Key) (accepted : Bool)
    (key : Transport × Bytes) (state : Nat) (found : m.pending.find key = some state) :
    (m.step env ttl (.sendFastRehandshake p ephemeral accepted)).pending.find key = some state := by
  rcases sendFastRehandshake_registers env ttl m p ephemeral accepted with
    ⟨table, _⟩ | ⟨new, hs, _, free, registered⟩
  · rwa [table]
  · have differs : key ≠ new := by
      rintro rfl
      rw [found] at free
      cases free
    rcases registered with ⟨table, _⟩ | ⟨table, _⟩
    · rwa [table, RefMap.find_put, if_neg differs]
    · rwa [table, RefMap.find_delete, if_neg differs, RefMap.find_put, if_neg differs]

theorem processHandshake_keeps (m : Expiring) (call : HandshakeCall) (key : Transport × Bytes)
    (state : Nat) (found : m.pending.find key = some state) (differs : key ≠ call.stateKey) :
    (m.step env ttl (.processHandshake call)).pending.find key = some state := by
  rcases processHandshake_fades env ttl m call with ⟨looked, change, kept | new⟩
  · rw [kept.1] at change
    exact (change.others key differs).trans found
  · rcases new with ⟨fresh, _, rfl⟩
    refine (change.others key differs).trans ?_
    rwa [RefMap.find_put, if_neg differs]

theorem removesOwn_of_owned (event : ExpiryEvent) (owned : Owned ttl m.pending m.timers) :
    RemovesOwn env ttl m event := by
  constructor
  · intro index timer state _ present found _
    exact owned.own timer (List.mem_of_getElem? present) state found
  · intro key state hs found held early removed
    cases event with
    | wait duration => exact absurd found removed
    | expirePending index =>
        exact absurd (expirePending_late env ttl index owned key state hs found held early) removed
    | processHandshake call =>
        by_cases same : key = call.stateKey
        · rw [same] at found removed
          rcases (processHandshake_own env { call with now := m.clock } m.shared state hs found held)
            with kept | ended
          · exact absurd kept removed
          · exact Or.inl ⟨call, rfl, same.symm, ended⟩
        · exact absurd (processHandshake_keeps env ttl m call key state found same) removed
    | sendFastRehandshake p ephemeral accepted =>
        exact absurd (sendFastRehandshake_keeps env ttl m p ephemeral accepted key state found) removed

/-- In every run in which no handshake is registered under a key that a sleeper is going to delete,
every sleeper removes only its own handshake, and no handshake goes before its time unless it failed or
completed. -/
theorem expiry_removes_own (start : Expiring) (events : List ExpiryEvent) (idle : start.timers = [])
    (allowed : Run.Along (step env ttl) Unarmed start events) :
    Run.Along (step env ttl) (RemovesOwn env ttl) start events := by
  have initially : Owned ttl start.pending start.timers := by
    rw [idle]
    exact ⟨nofun, nofun⟩
  have owned := Run.throughout_keeps start events initially allowed
    fun m event owned unarmed => owned_step env ttl event owned unarmed
  exact Run.along_of_throughout start events owned
    fun m event owned => removesOwn_of_owned env ttl event owned

namespace Reused

def cfg : FastRehandshakeConfig := {}

open Initiators.Connects (node peer answer)

def start : Expiring := ⟨⟨node, ∅, RefMap.put ∅ peer.id peer⟩, 0, []⟩

def advance : Expiring → ExpiryEvent → Expiring := Expiring.step .padded cfg.pendingTTL

def rehandshake (ephemeral : UInt8) : List ExpiryEvent :=
  [.sendFastRehandshake peer [ephemeral] true,
    .processHandshake (answer ephemeral)]

def inbound : ExpiryEvent := .processHandshake ⟨none, ⟨.udp, [10]⟩, .udp, .one [7], [8], 0⟩

def reused : Expiring :=
  Run.run advance start (rehandshake 1 ++ [.wait 29000000000, inbound, .wait 1000000000])

end Reused

open Reused in
/-- The next handshake on the link comes after the sleeper is gone. -/
theorem expiry_removes_own_apart :
    start.timers = [] ∧
      Run.Along advance Unarmed start
        (rehandshake 1 ++ [.wait 30000000000, .expirePending 0, inbound] ++ rehandshake 2) ∧
      Run.Along advance (RemovesOwn .padded cfg.pendingTTL) start
        (rehandshake 1 ++ [.wait 30000000000, .expirePending 0, inbound] ++ rehandshake 2) :=
  ⟨rfl, by decide +kernel, expiry_removes_own .padded cfg.pendingTTL start _ rfl (by decide +kernel)⟩

open Reused in
/-- The sleeper of the completed attempt deletes the handshake that came in under its key. -/
theorem reused_key_deleted :
    reused.timers = [⟨(.udp, [10]), 0, 30000000000⟩] ∧ reused.clock = 30000000000 ∧
      (reused.pending.value (.udp, [10])).map HandshakeState.createdAt = some 29000000000 ∧
      (reused.step .padded cfg.pendingTTL (.expirePending 0)).pending.find (.udp, [10]) = none ∧
      ¬RemovesOwn .padded cfg.pendingTTL reused (.expirePending 0) := by
  have armed : reused.timers = [⟨(.udp, [10]), 0, 30000000000⟩] := by decide +kernel
  have held : reused.pending.find (.udp, [10]) = some 1 := by decide +kernel
  have removed : (reused.step .padded cfg.pendingTTL (.expirePending 0)).pending.find (.udp, [10]) =
      none := by decide +kernel
  refine ⟨armed, by decide +kernel, by decide +kernel, removed, ?_⟩
  intro removesOwn
  have own := removesOwn.own 0 ⟨(.udp, [10]), 0, 30000000000⟩ 1 rfl (by rw [armed]; rfl) held
    (by rw [removed]; nofun)
  cases own

end Expiring

end Tenet
