import Tenet.Lib.GoMap
import Tenet.Lib.Run
import Mathlib.Logic.Function.Basic

/-! Messages that many callers write to shared streams, piece by piece, each stream behind a lock that
is looked up in a table, made on demand and forgotten when the stream is closed. -/

namespace Lib

/-- Where a call is. -/
inductive WritePoint (B : Type) where
  | looking
  /-- the table had no lock -/
  | missing
  | waiting (lock : Nat)
  | writing (lock : Nat) (left : List B)
  | returned (whole : Bool)
  deriving DecidableEq, Repr

namespace WritePoint

variable {B : Type}

def lock : WritePoint B → Option Nat
  | .waiting lock => some lock
  | .writing lock _ => some lock
  | _ => none

def idle : WritePoint B → Bool
  | .looking | .missing | .waiting _ => true
  | _ => false

def complete : WritePoint B → Bool
  | .writing _ left => left.isEmpty
  | .returned whole => whole
  | _ => false

end WritePoint

structure LockedWrites (C K B : Type) where
  table : GoMap K Nat
  next : Nat
  /-- who is between `Lock` and `Unlock` -/
  held : GoMap Nat C
  point : C → WritePoint B
  bytes : K → List B
  closed : K → Bool
  /-- the calls whose message is in the stream, in order -/
  log : K → List C

inductive WriteAction (C K : Type) where
  | load (call : C)
  | loadOrStore (call : C)
  | lock (call : C)
  | write (call : C) (count : Nat)
  | unlock (call : C)
  | close (stream : K)
  | release (stream : K)
  deriving DecidableEq, Repr

namespace LockedWrites

open WritePoint Run

variable {C K B : Type} [DecidableEq C] [DecidableEq K]

def start : LockedWrites C K B where
  table := ∅
  next := 0
  held := ∅
  point _ := .looking
  bytes _ := []
  closed _ := false
  log _ := []

variable (stream : C → K) (message : C → List B)

def goTo (s : LockedWrites C K B) (call : C) (point : WritePoint B) : LockedWrites C K B :=
  { s with point := Function.update s.point call point }

/-- A piece of a message; the call is logged with the last one. -/
def writePiece (s : LockedWrites C K B) (call : C) (lock : Nat) (left : List B) (count : Nat) :
    LockedWrites C K B :=
  { s.goTo call (.writing lock (left.drop count)) with
    bytes := Function.update s.bytes (stream call) (s.bytes (stream call) ++ left.take count)
    log :=
      if (left.drop count).isEmpty then
        Function.update s.log (stream call) (s.log (stream call) ++ [call])
      else s.log }

def step (s : LockedWrites C K B) : WriteAction C K → LockedWrites C K B
  | .load call =>
      match s.point call with
      | .looking =>
          match s.table.get (stream call) with
          | some lock => s.goTo call (.waiting lock)
          | none => s.goTo call .missing
      | _ => s
  | .loadOrStore call =>
      match s.point call with
      | .missing =>
          match s.table.get (stream call) with
          | some lock => s.goTo call (.waiting lock)
          | none =>
              { s.goTo call (.waiting s.next) with
                table := s.table.set (stream call) s.next
                next := s.next + 1 }
      | _ => s
  | .lock call =>
      match s.point call with
      | .waiting lock =>
          match s.held.get lock with
          | none =>
              { s.goTo call (.writing lock (message call)) with held := s.held.set lock call }
          | some _ => s
      | _ => s
  | .write call count =>
      match s.point call with
      | .writing lock left =>
          if left ≠ [] ∧ s.closed (stream call) = false then s.writePiece stream call lock left count
          else s
      | _ => s
  | .unlock call =>
      match s.point call with
      | .writing lock left =>
          -- a write returns when all is written or the stream is closed
          if left = [] ∨ s.closed (stream call) = true then
            { s.goTo call (.returned left.isEmpty) with held := s.held.delete lock }
          else s
      | _ => s
  | .close stream => { s with closed := Function.update s.closed stream true }
  | .release stream => { s with table := s.table.delete stream }

theorem step_closed (s : LockedWrites C K B) (action : WriteAction C K) (key : K) :
    (s.step stream message action).closed key = (decide (action = .close key) || s.closed key) := by
  unfold step
  cases action with
  | close other =>
      by_cases same : key = other
      · subst same
        simp
      · simp [same, Ne.symm same]
  | release other => simp
  | load call | loadOrStore call | lock call | write call count | unlock call =>
      dsimp only
      repeat' split
      all_goals simp [goTo, writePiece]

/-- On an open stream, what a call has yet to write belongs behind the part that is there. -/
def Fits (s : LockedWrites C K B) (key : K) (part : List B) (call : C) (point : WritePoint B) : Prop :=
  ∀ lock left, point = .writing lock left → stream call = key → s.closed key = false → left ≠ [] →
    part ++ left = message call

/-- The bytes of a stream: whole messages, and at most the beginning of one more. -/
structure Spooled (s : LockedWrites C K B) (key : K) (part : List B) : Prop where
  bytes : s.bytes key = (s.log key).flatMap message ++ part
  rest : ∀ call, Fits stream message s key part call (s.point call)
  begun : part = [] ∨ ∃ call, stream call = key ∧ part <+: message call ∧ part ≠ message call
  current : s.closed key = false → part ≠ [] →
    ∃ call lock left, stream call = key ∧ s.point call = .writing lock left ∧ left ≠ []

/-- What the point of a call says about its lock and its message. -/
structure Placed (s : LockedWrites C K B) (call : C) (point : WritePoint B) : Prop where
  owner : ∀ lock left, point = .writing lock left → s.held.get lock = some call
  listed : ∀ lock, point.lock = some lock → s.closed (stream call) = false →
    s.table.get (stream call) = some lock
  logged : ∀ key, call ∈ s.log key ↔ stream call = key ∧ point.complete = true

structure Ordered (s : LockedWrites C K B) : Prop where
  placed : ∀ call, Placed stream s call (s.point call)
  spooled : ∀ key, ∃ part, Spooled stream message s key part
  distinct : ∀ key, (s.log key).Nodup

variable {stream message} {s : LockedWrites C K B}

omit [DecidableEq C] in
theorem ordered_start : Ordered stream message (start : LockedWrites C K B) := by
  refine ⟨fun call => ⟨nofun, nofun, ?_⟩, fun key => ⟨[], rfl, fun _ => nofun, Or.inl rfl, ?_⟩, ?_⟩
  · intro key
    refine iff_of_false List.not_mem_nil ?_
    rintro ⟨_, done⟩
    cases done
  · intro _ more
    exact absurd rfl more
  · exact fun _ => List.nodup_nil

omit [DecidableEq C] in
theorem Ordered.alone (ordered : Ordered stream message s) {call other : C} {lock : Nat}
    {otherLock : Nat} {left : List B} (opened : s.closed (stream call) = false)
    (here : (s.point call).lock = some lock) (same : stream other = stream call)
    (there : s.point other = .writing otherLock left) : s.held.get lock = some other := by
  have mine := (ordered.placed call).listed lock here opened
  have theirs := (ordered.placed other).listed otherLock (by rw [there]; rfl) (same ▸ opened)
  rw [same, mine] at theirs
  cases theirs
  exact (ordered.placed other).owner lock left there

theorem Ordered.goTo (ordered : Ordered stream message s) {call : C} {point : WritePoint B}
    {table : GoMap K Nat} {next : Nat} {held : GoMap Nat C}
    (placed : Placed stream { s.goTo call point with table, next, held } call point)
    (kept : ∀ key lock, s.table.get key = some lock → table.get key = some lock)
    (holds : ∀ other lock, other ≠ call → s.held.get lock = some other → held.get lock = some other)
    (begins : ∀ lock left, point = .writing lock left → s.closed (stream call) = false →
      ∀ part, Spooled stream message s (stream call) part → part ++ left = message call)
    (ends : ∀ lock left, s.point call = .writing lock left → s.closed (stream call) = false →
      left = []) :
    Ordered stream message { s.goTo call point with table, next, held } where
  placed := by
    refine (Function.forall_update_iff s.point
      (Placed stream { s.goTo call point with table, next, held })).mpr ⟨placed, ?_⟩
    intro other apart
    have there := ordered.placed other
    exact ⟨fun lock left writes => holds other lock apart (there.owner lock left writes),
      fun lock looked opened => kept _ lock (there.listed lock looked opened), there.logged⟩
  spooled key := by
    obtain ⟨part, spooled⟩ := ordered.spooled key
    refine ⟨part, spooled.bytes, ?_, spooled.begun, ?_⟩
    · refine (Function.forall_update_iff s.point (Fits stream message s key part)).mpr
        ⟨?_, fun other _ => spooled.rest other⟩
      rintro lock left writes rfl opened _
      exact begins lock left writes opened part spooled
    · intro opened more
      obtain ⟨writer, lock, left, on, writes, unwritten⟩ := spooled.current opened more
      refine ⟨writer, lock, left, on, ?_, unwritten⟩
      change Function.update s.point call point writer = _
      rw [Function.update_of_ne, writes]
      rintro rfl
      exact unwritten (ends lock left writes (on ▸ opened))
  distinct := ordered.distinct

theorem Ordered.look (ordered : Ordered stream message s) {call : C} {point : WritePoint B}
    {table : GoMap K Nat} {next : Nat} (before : (s.point call).idle = true)
    (after : point.idle = true)
    (kept : ∀ key lock, s.table.get key = some lock → table.get key = some lock)
    (found : ∀ lock, point.lock = some lock → table.get (stream call) = some lock) :
    Ordered stream message { s.goTo call point with table, next } := by
  have incomplete (point : WritePoint B) (idle : point.idle = true) : point.complete = false := by
    cases point <;> first | rfl | cases idle
  refine ordered.goTo ⟨?_, fun lock looked _ => found lock looked, ?_⟩ kept
    (fun _ _ _ holds => holds) ?_ ?_
  · intro lock left writes
    rw [writes] at after
    cases after
  · intro key
    rw [incomplete point after, ← incomplete _ before]
    exact (ordered.placed call).logged key
  · intro lock left writes
    rw [writes] at after
    cases after
  · intro lock left writes
    rw [writes] at before
    cases before

theorem ordered_load (ordered : Ordered stream message s) (call : C) :
    Ordered stream message (s.step stream message (.load call)) := by
  unfold step
  dsimp only
  split
  · next here =>
      have before : (s.point call).idle = true := by rw [here]; rfl
      split
      · next lock found =>
          refine ordered.look before rfl (fun _ _ listed => listed) ?_
          rintro _ ⟨⟩
          exact found
      · exact ordered.look before rfl (fun _ _ listed => listed) nofun
  · exact ordered

theorem ordered_loadOrStore (ordered : Ordered stream message s) (call : C) :
    Ordered stream message (s.step stream message (.loadOrStore call)) := by
  unfold step
  dsimp only
  split
  · next here =>
      have before : (s.point call).idle = true := by rw [here]; rfl
      split
      · next lock found =>
          refine ordered.look before rfl (fun _ _ listed => listed) ?_
          rintro _ ⟨⟩
          exact found
      · next absent =>
          refine ordered.look before rfl ?_ ?_
          · intro key lock listed
            rw [GoMap.get_set, if_neg, listed]
            rintro rfl
            rw [absent] at listed
            cases listed
          · rintro _ ⟨⟩
            rw [GoMap.get_set, if_pos rfl]
  · exact ordered

theorem ordered_lock (ordered : Ordered stream message s) (call : C) (filled : message call ≠ []) :
    Ordered stream message (s.step stream message (.lock call)) := by
  unfold step
  dsimp only
  split
  · next lock here =>
      split
      · next free =>
          have mine : (s.point call).lock = some lock := by rw [here]; rfl
          refine ordered.goTo ⟨?_, ?_, ?_⟩ (fun _ _ listed => listed) ?_ ?_ ?_
          · rintro _ _ ⟨⟩
            exact (GoMap.get_set ..).trans (if_pos rfl)
          · rintro _ ⟨⟩
            exact (ordered.placed call).listed lock mine
          · intro key
            have unwritten : (message call).isEmpty = false := List.isEmpty_eq_false_iff.mpr filled
            have logged := (ordered.placed call).logged key
            rw [here] at logged
            rw [complete, unwritten]
            exact logged
          · intro other otherLock _ owned
            rw [GoMap.get_set, if_neg, owned]
            rintro rfl
            rw [free] at owned
            cases owned
          · rintro _ _ ⟨⟩ opened part spooled
            -- the lock is free, so nobody is in the middle of a message
            by_cases empty : part = []
            · rw [empty, List.nil_append]
            · obtain ⟨writer, writerLock, unwritten, on, writes, _⟩ := spooled.current opened empty
              have owned := ordered.alone opened mine on writes
              rw [free] at owned
              cases owned
          · intro otherLock left writes
            rw [here] at writes
            cases writes
      · exact ordered
  · exact ordered

section Piece

variable {call : C} {lock : Nat} {left : List B} (count : Nat)

theorem mem_log_writePiece (key : K) (other : C) :
    other ∈ (s.writePiece stream call lock left count).log key ↔
      other ∈ s.log key ∨ other = call ∧ stream call = key ∧ left.drop count = [] := by
  unfold writePiece
  dsimp only
  split
  · next last =>
      have last := List.isEmpty_iff.mp last
      by_cases on : key = stream call
      · subst on
        simp only [Function.update_self, List.mem_append, List.mem_singleton, last, and_self, and_true]
      · simp only [Function.update_of_ne on, Ne.symm on, false_and, and_false, or_false]
  · next more =>
      have more : ¬ left.drop count = [] := fun last => more (List.isEmpty_iff.mpr last)
      simp only [more, and_false, or_false]

theorem Spooled.piece {part : List B} (spooled : Spooled stream message s (stream call) part)
    (opened : s.closed (stream call) = false) (here : s.point call = .writing lock left)
    (more : left ≠ [])
    (only : ∀ other otherLock unwritten, s.point other = .writing otherLock unwritten →
      stream other = stream call → other = call) :
    ∃ part, Spooled stream message (s.writePiece stream call lock left count) (stream call) part := by
  have whole := spooled.rest call lock left here rfl opened more
  have bytes : (s.writePiece stream call lock left count).bytes (stream call) =
      s.bytes (stream call) ++ left.take count := Function.update_self ..
  have rest (part : List B) (fits : left.drop count ≠ [] → part ++ left.drop count = message call) :
      ∀ other, Fits stream message s (stream call) part other
        ((s.writePiece stream call lock left count).point other) := by
    refine (Function.forall_update_iff s.point (Fits stream message s (stream call) part)).mpr
      ⟨?_, ?_⟩
    · rintro _ _ ⟨⟩ _ _ unwritten
      exact fits unwritten
    · intro other apart otherLock unwritten writes on
      exact absurd (only other otherLock unwritten writes on) apart
  by_cases last : left.drop count = []
  · have log : (s.writePiece stream call lock left count).log (stream call) =
        s.log (stream call) ++ [call] := by
      rw [writePiece, last]
      exact Function.update_self ..
    have all : left.take count = left := List.take_of_length_le (List.drop_eq_nil_iff.mp last)
    refine ⟨[], ?_, rest [] fun unwritten => absurd last unwritten, Or.inl rfl,
      fun _ none => absurd rfl none⟩
    rw [bytes, log, spooled.bytes, all, List.append_assoc, whole, List.flatMap_append,
      List.append_nil, List.flatMap_singleton]
  · have log : (s.writePiece stream call lock left count).log (stream call) = s.log (stream call) := by
      rw [writePiece, if_neg]
      rwa [List.isEmpty_iff]
    have joined : (part ++ left.take count) ++ left.drop count = message call := by
      rw [List.append_assoc, List.take_append_drop, whole]
    refine ⟨part ++ left.take count, ?_, rest _ fun _ => joined, Or.inr ⟨call, rfl, ⟨_, joined⟩, ?_⟩, ?_⟩
    · rw [bytes, log, spooled.bytes, List.append_assoc]
    · intro same
      rw [same] at joined
      exact last (List.append_right_eq_self.mp joined)
    · intro _ _
      exact ⟨call, lock, left.drop count, rfl, Function.update_self .., last⟩

theorem Spooled.elsewhere {key : K} {part : List B} (spooled : Spooled stream message s key part)
    (on : key ≠ stream call) :
    Spooled stream message (s.writePiece stream call lock left count) key part where
  bytes := by
    have bytes : (s.writePiece stream call lock left count).bytes key = s.bytes key :=
      Function.update_of_ne on ..
    have log : (s.writePiece stream call lock left count).log key = s.log key := by
      unfold writePiece
      dsimp only
      split
      · exact Function.update_of_ne on ..
      · rfl
    rw [bytes, log, spooled.bytes]
  rest := by
    refine (Function.forall_update_iff s.point (Fits stream message s key part)).mpr
      ⟨?_, fun other _ => spooled.rest other⟩
    intro _ _ _ same
    exact absurd same.symm on
  begun := spooled.begun
  current opened more := by
    obtain ⟨other, otherLock, unwritten, there, writes, rest⟩ := spooled.current opened more
    refine ⟨other, otherLock, unwritten, there, ?_, rest⟩
    change Function.update s.point call _ other = _
    rw [Function.update_of_ne, writes]
    rintro rfl
    exact on there.symm

theorem Ordered.writePiece (ordered : Ordered stream message s)
    (opened : s.closed (stream call) = false) (here : s.point call = .writing lock left)
    (more : left ≠ []) : Ordered stream message (s.writePiece stream call lock left count) := by
  have placed := ordered.placed call
  rw [here] at placed
  have owned := placed.owner lock left rfl
  have unlogged (key : K) : call ∉ s.log key := by
    intro logged
    exact more (List.isEmpty_iff.mp ((placed.logged key).mp logged).2)
  refine ⟨?_, ?_, ?_⟩
  · refine (Function.forall_update_iff s.point
      (Placed stream (s.writePiece stream call lock left count))).mpr ⟨⟨?_, ?_, ?_⟩, ?_⟩
    · rintro _ _ ⟨⟩
      exact owned
    · rintro _ ⟨⟩
      exact placed.listed lock rfl
    · intro key
      simp only [mem_log_writePiece, unlogged, complete, List.isEmpty_iff, false_or, true_and]
    · intro other apart
      refine { ordered.placed other with logged := ?_ }
      intro key
      rw [mem_log_writePiece, (ordered.placed other).logged key]
      simp only [apart, false_and, or_false]
  · intro key
    obtain ⟨part, spooled⟩ := ordered.spooled key
    by_cases on : key = stream call
    · subst on
      refine spooled.piece count opened here more ?_
      intro other otherLock unwritten writes same
      have owns := ordered.alone opened (by rw [here]; rfl) same writes
      rw [owned] at owns
      exact (Option.some.inj owns).symm
    · exact ⟨part, spooled.elsewhere count on⟩
  · intro key
    unfold LockedWrites.writePiece
    dsimp only
    split
    · by_cases on : key = stream call
      · rw [on, Function.update_self]
        exact (ordered.distinct _).append (List.nodup_singleton call)
          (List.disjoint_singleton.mpr (unlogged _))
      · rw [Function.update_of_ne on]
        exact ordered.distinct key
    · exact ordered.distinct key

end Piece

theorem ordered_write (ordered : Ordered stream message s) (call : C) (count : Nat) :
    Ordered stream message (s.step stream message (.write call count)) := by
  unfold step
  dsimp only
  split
  · next lock left here =>
      split
      · next free => exact ordered.writePiece count free.2 here free.1
      · exact ordered
  · exact ordered

theorem ordered_unlock (ordered : Ordered stream message s) (call : C) :
    Ordered stream message (s.step stream message (.unlock call)) := by
  unfold step
  dsimp only
  split
  · next lock left here =>
      split
      · next ends =>
          have placed := ordered.placed call
          rw [here] at placed
          refine ordered.goTo ⟨nofun, nofun, placed.logged⟩ (fun _ _ listed => listed) ?_ nofun ?_
          · intro other otherLock apart owns
            rw [GoMap.get_delete, if_neg, owns]
            rintro rfl
            rw [placed.owner otherLock left rfl] at owns
            exact apart (Option.some.inj owns).symm
          · intro otherLock unwritten writes opened
            rw [here] at writes
            cases writes
            rw [opened] at ends
            exact ends.resolve_right Bool.false_ne_true
      · exact ordered
  · exact ordered

theorem ordered_close (ordered : Ordered stream message s) (key : K) :
    Ordered stream message (s.step stream message (.close key)) := by
  have still (other : K) (opened : Function.update s.closed key true other = false) :
      s.closed other = false := by
    by_cases same : other = key
    · rw [same, Function.update_self] at opened
      cases opened
    · rwa [Function.update_of_ne same] at opened
  refine ⟨fun call => { ordered.placed call with listed := ?_ }, ?_, ordered.distinct⟩
  · intro lock looked opened
    exact (ordered.placed call).listed lock looked (still _ opened)
  · intro other
    obtain ⟨part, spooled⟩ := ordered.spooled other
    refine ⟨part, spooled.bytes, ?_, spooled.begun, ?_⟩
    · intro call lock left writes on opened
      exact spooled.rest call lock left writes on (still other opened)
    · intro opened
      exact spooled.current (still other opened)

theorem ordered_release (ordered : Ordered stream message s) (key : K) (closed : s.closed key = true) :
    Ordered stream message (s.step stream message (.release key)) := by
  refine ⟨fun call => { ordered.placed call with listed := ?_ }, ?_, ordered.distinct⟩
  · intro lock looked opened
    change (s.table.delete key).get (stream call) = some lock
    rw [GoMap.get_delete, if_neg]
    · exact (ordered.placed call).listed lock looked opened
    · intro on
      change s.closed (stream call) = false at opened
      rw [on, closed] at opened
      cases opened
  · intro other
    obtain ⟨part, spooled⟩ := ordered.spooled other
    exact ⟨part, { spooled with }⟩

/-- A stream is closed before its lock is forgotten. -/
def ClosedFirst (s : LockedWrites C K B) : WriteAction C K → Prop
  | .release key => s.closed key = true
  | _ => True

theorem ordered_step (filled : ∀ call, message call ≠ []) (ordered : Ordered stream message s)
    (action : WriteAction C K) (first : ClosedFirst s action) :
    Ordered stream message (s.step stream message action) := by
  cases action with
  | load call => exact ordered_load ordered call
  | loadOrStore call => exact ordered_loadOrStore ordered call
  | lock call => exact ordered_lock ordered call (filled call)
  | write call count => exact ordered_write ordered call count
  | unlock call => exact ordered_unlock ordered call
  | close key => exact ordered_close ordered key
  | release key => exact ordered_release ordered key first

end LockedWrites

end Lib
