import Mathlib.Data.List.Basic
import Mathlib.Tactic.Common

/-! Splitting a payload into bounded fragments, and the automaton that joins them again.

The automaton keeps one optional buffer. A first or single fragment starts over whatever the
buffer held; a middle or last fragment without a buffer is ignored; a buffer that would grow
past the limit is dropped with the rest of its message. -/

namespace Lib.Fragment

variable {α : Type}

inductive Kind where
  | single
  | first
  | middle
  | last
  deriving DecidableEq, Repr

/-- The fragments after which no fragment of the same message follows. -/
def Kind.ends : Kind → Bool
  | .single | .last => true
  | .first | .middle => false

/-- The fragments that start a message, whatever was received before. -/
def Kind.starts : Kind → Bool
  | .single | .first => true
  | .middle | .last => false

structure Frame (α : Type) where
  kind : Kind
  body : List α
  deriving DecidableEq, Repr

def rest (size : Nat) (payload : List α) : List (Frame α) :=
  if 0 < size ∧ size < payload.length then
    ⟨.middle, payload.take size⟩ :: rest size (payload.drop size)
  else [⟨.last, payload⟩]
termination_by payload.length
decreasing_by simp only [List.length_drop]; omega

def split (size : Nat) (payload : List α) : List (Frame α) :=
  if size < payload.length then ⟨.first, payload.take size⟩ :: rest size (payload.drop size)
  else [⟨.single, payload⟩]

/-- One fragment: the new buffer, and the payload it completes. -/
def step (limit : Nat) (buffer : Option (List α)) (frame : Frame α) :
    Option (List α) × Option (List α) :=
  match frame.kind, buffer with
  | .single, _ => (none, some frame.body)
  | .first, _ => (some frame.body, none)
  | .middle, none => (none, none)
  | .middle, some held =>
      if held.length + frame.body.length > limit then (none, none)
      else (some (held ++ frame.body), none)
  | .last, none => (none, none)
  | .last, some held =>
      if held.length + frame.body.length > limit then (none, none)
      else (none, some (held ++ frame.body))

def feed (limit : Nat) : Option (List α) → List (Frame α) → Option (List α) × List (List α)
  | buffer, [] => (buffer, [])
  | buffer, frame :: frames =>
      let (next, done) := step limit buffer frame
      let (final, later) := feed limit next frames
      (final, done.toList ++ later)

variable (limit size : Nat)

theorem feed_append (buffer : Option (List α)) (front back : List (Frame α)) :
    feed limit buffer (front ++ back) =
      ((feed limit (feed limit buffer front).1 back).1,
        (feed limit buffer front).2 ++ (feed limit (feed limit buffer front).1 back).2) := by
  induction front generalizing buffer with
  | nil => rfl
  | cons frame frames ih =>
      simp only [List.cons_append, feed, ih, List.append_assoc]

theorem feed_snoc (buffer : Option (List α)) (front : List (Frame α)) (frame : Frame α) :
    feed limit buffer (front ++ [frame]) =
      ((step limit (feed limit buffer front).1 frame).1,
        (feed limit buffer front).2 ++ (step limit (feed limit buffer front).1 frame).2.toList) := by
  rw [feed_append]
  simp only [feed, List.append_nil]

theorem step_starts (buffer other : Option (List α)) (frame : Frame α)
    (starts : frame.kind.starts = true) : step limit buffer frame = step limit other frame := by
  obtain ⟨kind, body⟩ := frame
  cases kind <;> simp_all [step, Kind.starts]

theorem step_quiet (buffer : Option (List α)) (frame : Frame α)
    (unfinished : frame.kind.ends = false) : (step limit buffer frame).2 = none := by
  obtain ⟨kind, body⟩ := frame
  cases kind with
  | single => simp [Kind.ends] at unfinished
  | last => simp [Kind.ends] at unfinished
  | first => rfl
  | middle =>
      cases buffer with
      | none => rfl
      | some held =>
          simp only [step]
          split <;> rfl

theorem feed_quiet (buffer : Option (List α)) (frames : List (Frame α))
    (unfinished : ∀ frame ∈ frames, frame.kind.ends = false) : (feed limit buffer frames).2 = [] := by
  induction frames generalizing buffer with
  | nil => rfl
  | cons frame frames ih =>
      have now := step_quiet limit buffer frame (unfinished frame List.mem_cons_self)
      have later := ih (step limit buffer frame).1
        (fun other member => unfinished other (List.mem_cons_of_mem _ member))
      simp only [feed, now, later, Option.toList_none, List.append_nil]

theorem feed_rest_none (payload : List α) : feed limit none (rest size payload) = (none, []) := by
  fun_induction rest size payload with
  | case1 payload long ih => simp only [feed, step, ih, Option.toList_none, List.append_nil]
  | case2 payload short => rfl

theorem feed_rest (held payload : List α) :
    feed limit (some held) (rest size payload) =
      (none, if held.length + payload.length ≤ limit then [held ++ payload] else []) := by
  fun_induction rest size payload generalizing held with
  | case1 payload long ih =>
      have taken : (payload.take size).length = size := by
        rw [List.length_take]
        omega
      by_cases exceeds : held.length + size > limit
      · have refused : ¬ held.length + payload.length ≤ limit := by omega
        simp only [feed, step, taken, if_pos exceeds, feed_rest_none, if_neg refused,
          Option.toList_none, List.append_nil]
      · have lengths : (held ++ payload.take size).length + (payload.drop size).length =
            held.length + payload.length := by
          simp only [List.length_append, taken, List.length_drop]
          omega
        simp only [feed, step, taken, if_neg exceeds, ih, lengths, List.append_assoc,
          List.take_append_drop, Option.toList_none, List.nil_append]
  | case2 payload short =>
      by_cases exceeds : held.length + payload.length > limit
      · have refused : ¬ held.length + payload.length ≤ limit := by omega
        simp only [feed, step, if_pos exceeds, if_neg refused, Option.toList_none, List.append_nil]
      · have accepted : held.length + payload.length ≤ limit := by omega
        simp only [feed, step, if_neg exceeds, if_pos accepted, Option.toList_some, List.append_nil]

theorem feed_split (fits : size ≤ limit) (buffer : Option (List α)) (payload : List α) :
    feed limit buffer (split size payload) =
      (none, if payload.length ≤ limit then [payload] else []) := by
  by_cases long : size < payload.length
  · have lengths : (payload.take size).length + (payload.drop size).length = payload.length := by
      simp only [List.length_take, List.length_drop]
      omega
    simp only [split, if_pos long, feed, step, feed_rest, lengths, List.take_append_drop,
      Option.toList_none, List.nil_append]
  · have accepted : payload.length ≤ limit := by omega
    simp only [split, if_neg long, feed, step, if_pos accepted, Option.toList_some, List.append_nil]

/-- Several messages in a row: each is judged by its own length, and from the first one on every
message starts and ends without a buffer. -/
theorem feed_splits (fits : size ≤ limit) (buffer : Option (List α)) (payloads : List (List α)) :
    feed limit buffer (payloads.flatMap (split size)) =
      (if payloads = [] then buffer else none,
        payloads.filter fun payload => decide (payload.length ≤ limit)) := by
  induction payloads generalizing buffer with
  | nil => rfl
  | cons payload payloads ih =>
      have after : (if payloads = [] then (none : Option (List α)) else none) = none := ite_self none
      rw [List.flatMap_cons, feed_append, feed_split limit size fits, ih, after, List.filter_cons]
      by_cases short : payload.length ≤ limit
      · simp only [short, decide_true, if_true, List.singleton_append, reduceCtorEq, if_false]
      · simp only [short, decide_false, Bool.false_eq_true, if_false, List.nil_append, reduceCtorEq]

theorem rest_body_le (positive : 0 < size) (payload : List α) :
    ∀ frame ∈ rest size payload, frame.body.length ≤ size := by
  fun_induction rest size payload with
  | case1 payload long ih =>
      intro frame member
      rcases List.mem_cons.mp member with rfl | later
      · exact List.length_take_le size payload
      · exact ih frame later
  | case2 payload short =>
      intro frame member
      rw [List.mem_singleton.mp member]
      show payload.length ≤ size
      omega

theorem split_body_le (positive : 0 < size) (payload : List α) :
    ∀ frame ∈ split size payload, frame.body.length ≤ size := by
  intro frame member
  rw [split] at member
  split at member
  · rcases List.mem_cons.mp member with rfl | later
    · exact List.length_take_le size payload
    · exact rest_body_le size positive _ frame later
  · rw [List.mem_singleton.mp member]
    show payload.length ≤ size
    omega

theorem rest_ne_nil (payload : List α) : rest size payload ≠ [] := by
  rw [rest]
  split <;> simp

theorem rest_dropLast_open (payload : List α) :
    ∀ frame ∈ (rest size payload).dropLast, frame.kind.ends = false := by
  fun_induction rest size payload with
  | case1 payload long ih =>
      rw [List.dropLast_cons_of_ne_nil (rest_ne_nil size _)]
      intro frame member
      rcases List.mem_cons.mp member with rfl | later
      · rfl
      · exact ih frame later
  | case2 payload short => simp

theorem rest_kind (payload : List α) :
    ∀ frame ∈ rest size payload, frame.kind.starts = false := by
  fun_induction rest size payload with
  | case1 payload long ih =>
      intro frame member
      rcases List.mem_cons.mp member with rfl | later
      · rfl
      · exact ih frame later
  | case2 payload short =>
      intro frame member
      rw [List.mem_singleton.mp member]
      rfl

theorem split_dropLast_open (payload : List α) :
    ∀ frame ∈ (split size payload).dropLast, frame.kind.ends = false := by
  rw [split]
  split
  · rw [List.dropLast_cons_of_ne_nil (rest_ne_nil size _)]
    intro frame member
    rcases List.mem_cons.mp member with rfl | later
    · rfl
    · exact rest_dropLast_open size _ frame later
  · simp

theorem split_starts (payload : List α) (index : Nat) (frame : Frame α)
    (present : (split size payload)[index]? = some frame) :
    frame.kind.starts = decide (index = 0) := by
  rw [split] at present
  split at present
  · cases index with
    | zero =>
        rw [List.getElem?_cons_zero] at present
        cases present
        rfl
    | succ index =>
        rw [List.getElem?_cons_succ] at present
        simpa using rest_kind size _ frame (List.mem_of_getElem? present)
  · cases index with
    | zero =>
        rw [List.getElem?_cons_zero] at present
        cases present
        rfl
    | succ index => simp at present

theorem feed_take_quiet (buffer : Option (List α)) (payload : List α) (count : Nat)
    (strict : count < (split size payload).length) :
    (feed limit buffer ((split size payload).take count)).2 = [] := by
  apply feed_quiet
  intro frame member
  apply split_dropLast_open size payload frame
  rw [List.dropLast_eq_take]
  exact (List.take_subset_take_left _ (by omega)) member

/-- The buffer is what some buffer became under the first `count` fragments of `payload`. -/
def Holds (payload : List α) (count : Nat) (buffer : Option (List α)) : Prop :=
  ∃ before, buffer = (feed limit before ((split size payload).take count)).1

theorem step_holds (fits : size ≤ limit) (payload : List α) (index : Nat) (frame : Frame α)
    (buffer : Option (List α)) (present : (split size payload)[index]? = some frame)
    (held : 0 < index → Holds limit size payload index buffer) :
    Holds limit size payload (index + 1) (step limit buffer frame).1 ∧
      ∀ output, (step limit buffer frame).2 = some output →
        output = payload ∧ index + 1 = (split size payload).length := by
  obtain ⟨bound, rfl⟩ := List.getElem?_eq_some_iff.mp present
  -- The first fragment starts over, so any buffer is as good as one that held nothing.
  obtain ⟨before, stepped⟩ : ∃ before, step limit buffer (split size payload)[index] =
      step limit (feed limit before ((split size payload).take index)).1
        (split size payload)[index] := by
    by_cases start : index = 0
    · subst start
      have starts := split_starts size payload 0 _ present
      exact ⟨none, step_starts limit _ _ _ (by simpa using starts)⟩
    · obtain ⟨before, rfl⟩ := held (by omega)
      exact ⟨before, rfl⟩
  have longer : (split size payload).take (index + 1) =
      (split size payload).take index ++ [(split size payload)[index]] :=
    (List.take_append_getElem bound).symm
  have fed := feed_snoc limit before ((split size payload).take index) (split size payload)[index]
  rw [← longer, ← stepped] at fed
  constructor
  · exact ⟨before, by rw [fed]⟩
  · intro output produced
    rw [produced, feed_take_quiet limit size before payload index bound, List.nil_append,
      Option.toList_some] at fed
    have complete : index + 1 = (split size payload).length := by
      by_contra incomplete
      have quiet := feed_take_quiet limit size before payload (index + 1) (by omega)
      rw [fed] at quiet
      simp at quiet
    have whole := feed_split limit size fits before payload
    rw [← List.take_length (l := split size payload), ← complete, fed] at whole
    have outputs := (Prod.mk.inj whole).2
    refine ⟨?_, complete⟩
    split at outputs
    · exact (List.cons.inj outputs).1
    · simp at outputs

def Joined (P : List α → Prop) (whole : List α) : Prop :=
  ∃ pieces : List (List α), (∀ piece ∈ pieces, P piece) ∧ whole = pieces.flatten

theorem joined_single {P : List α → Prop} {piece : List α} (holds : P piece) : Joined P piece := by
  refine ⟨[piece], ?_, by simp⟩
  intro other member
  rwa [List.mem_singleton.mp member]

theorem joined_snoc {P : List α → Prop} {held piece : List α} (joined : Joined P held)
    (holds : P piece) : Joined P (held ++ piece) := by
  obtain ⟨pieces, each, rfl⟩ := joined
  refine ⟨pieces ++ [piece], ?_, by simp⟩
  intro other member
  rcases List.mem_append.mp member with earlier | last
  · exact each other earlier
  · rwa [List.mem_singleton.mp last]

theorem step_joined {P : List α → Prop} (buffer : Option (List α)) (frame : Frame α)
    (held : ∀ whole, buffer = some whole → Joined P whole) (body : P frame.body) :
    (∀ whole, (step limit buffer frame).1 = some whole → Joined P whole) ∧
      ∀ whole, (step limit buffer frame).2 = some whole → Joined P whole := by
  obtain ⟨kind, piece⟩ := frame
  cases kind with
  | single => exact ⟨nofun, fun whole yielded => Option.some.inj yielded ▸ joined_single body⟩
  | first => exact ⟨fun whole kept => Option.some.inj kept ▸ joined_single body, nofun⟩
  | middle =>
      cases buffer with
      | none => exact ⟨nofun, nofun⟩
      | some front =>
          simp only [step]
          split
          · exact ⟨nofun, nofun⟩
          · exact ⟨fun whole kept =>
              Option.some.inj kept ▸ joined_snoc (held front rfl) body, nofun⟩
  | last =>
      cases buffer with
      | none => exact ⟨nofun, nofun⟩
      | some front =>
          simp only [step]
          split
          · exact ⟨nofun, nofun⟩
          · exact ⟨nofun, fun whole yielded =>
              Option.some.inj yielded ▸ joined_snoc (held front rfl) body⟩

section Messages

/-- The message whose bytes so far are `held`, as the following fragments complete it: a fragment that
starts another message abandons it, and so does one that makes it too long. -/
def completed (limit : Nat) (held : List α) : List (Frame α) → Option (List α)
  | [] => none
  | frame :: frames =>
      if frame.kind.starts then none
      else if held.length + frame.body.length > limit then none
      else if frame.kind.ends then some (held ++ frame.body)
      else completed limit (held ++ frame.body) frames

/-- The messages of a sequence of fragments, by looking ahead from every fragment that starts one. -/
def messages (limit : Nat) : List (Frame α) → List (List α)
  | [] => []
  | frame :: frames =>
      (match frame.kind with
        | .single => [frame.body]
        | .first => (completed limit frame.body frames).toList
        | .middle | .last => []) ++ messages limit frames

theorem feed_messages (buffer : Option (List α)) (frames : List (Frame α)) :
    (feed limit buffer frames).2 =
      (buffer.bind fun held => completed limit held frames).toList ++ messages limit frames := by
  induction frames generalizing buffer with
  | nil => cases buffer <;> rfl
  | cons frame frames ih =>
      rcases frame with ⟨kind, body⟩
      cases buffer with
      | none =>
          cases kind <;> simp only [feed, step, ih, messages] <;> rfl
      | some held =>
          cases kind with
          | single | first =>
              simp only [feed, step, ih]
              rfl
          | middle | last =>
              by_cases exceeds : held.length + body.length > limit
              · simp only [feed, step, if_pos exceeds, ih, Option.bind_some, completed, Kind.starts]
                rfl
              · simp only [feed, step, if_neg exceeds, ih, Option.bind_some, completed, Kind.starts,
                  Kind.ends]
                rfl

/-- Behind a message of which `held` has arrived: fragments that go on with it, the last of which makes
it too long. -/
def Exceeds (limit : Nat) : List α → List (Frame α) → Prop
  | _, [] => False
  | held, frame :: frames =>
      frame.kind.starts = false ∧
        (frames = [] ∧ limit < held.length + frame.body.length ∨
          frame.kind.ends = false ∧ held.length + frame.body.length ≤ limit ∧
            Exceeds limit (held ++ frame.body) frames)

theorem feed_exceeds (held : List α) (frames : List (Frame α)) (exceeds : Exceeds limit held frames) :
    feed limit (some held) frames = (none, []) := by
  induction frames generalizing held with
  | nil => exact exceeds.elim
  | cons frame frames ih =>
      rcases frame with ⟨kind, body⟩
      rcases exceeds with ⟨follows, ⟨rfl, long⟩ | ⟨unfinished, fits, later⟩⟩
      · cases kind with
        | single => cases follows
        | first => cases follows
        | middle => simp only [feed, step, if_pos long, Option.toList_none, List.append_nil]
        | last => simp only [feed, step, if_pos long, Option.toList_none, List.append_nil]
      · cases kind with
        | single => cases follows
        | first => cases follows
        | middle =>
            simp only [feed, step, if_neg (Nat.not_lt.mpr fits), ih _ later, Option.toList_none,
              List.append_nil]
        | last => cases unfinished

/-- A message that gets too long leaves no trace: what comes out is what the fragments before it and
those behind it give by themselves. -/
theorem messages_exceeded (front back : List (Frame α)) (body : List α) (rest : List (Frame α))
    (exceeds : Exceeds limit body rest) :
    messages limit (front ++ (⟨.first, body⟩ :: rest) ++ back) =
      messages limit front ++ messages limit back := by
  have from_empty (frames : List (Frame α)) : (feed limit none frames).2 = messages limit frames :=
    feed_messages limit none frames
  have dropped (buffer : Option (List α)) :
      feed limit buffer (⟨.first, body⟩ :: rest) = (none, []) := by
    simp only [feed, step, feed_exceeds limit body rest exceeds, Option.toList_none, List.append_nil]
  rw [← from_empty, feed_append, feed_append, dropped]
  simp only [List.append_nil, from_empty]

theorem step_bounded (buffer : Option (List α)) (frame : Frame α) (small : frame.body.length ≤ limit)
    (bounded : ∀ held, buffer = some held → held.length ≤ limit) :
    ∀ held, (step limit buffer frame).1 = some held → held.length ≤ limit := by
  rcases frame with ⟨kind, body⟩
  intro held kept
  cases kind with
  | single => cases kept
  | first =>
      cases kept
      exact small
  | middle =>
      cases buffer with
      | none => cases kept
      | some before =>
          simp only [step] at kept
          split at kept
          · cases kept
          · cases kept
            rw [List.length_append]
            omega
  | last =>
      cases buffer with
      | none => cases kept
      | some before =>
          simp only [step] at kept
          split at kept
          · cases kept
          · cases kept

theorem feed_bounded (buffer : Option (List α)) (frames : List (Frame α))
    (small : ∀ frame ∈ frames, frame.body.length ≤ limit)
    (bounded : ∀ held, buffer = some held → held.length ≤ limit) :
    ∀ held, (feed limit buffer frames).1 = some held → held.length ≤ limit := by
  induction frames generalizing buffer with
  | nil => exact bounded
  | cons frame frames ih =>
      exact ih _ (fun other member => small other (List.mem_cons_of_mem frame member))
        (step_bounded limit buffer frame (small frame List.mem_cons_self) bounded)

end Messages

end Lib.Fragment
