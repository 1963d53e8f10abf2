import Tenet.Lib.Fragment

/-! A line that carries fragments of messages and notes, in order. The fragments are wrapped under a
cipher that moves on with each of them, and at certain notes both ends take up a new one. Nothing is
lost as long as the writer, after such a note, wraps under the new cipher only. -/

namespace Lib.Handover

inductive Parcel (M B : Type) where
  | note (message : M)
  | wrapped (bytes : B)
  deriving DecidableEq, Repr

def notes {M B : Type} (line : List (Parcel M B)) : List M :=
  line.filterMap fun
    | .note message => some message
    | .wrapped _ => none

@[simp] theorem notes_append {M B : Type} (front back : List (Parcel M B)) :
    notes (front ++ back) = notes front ++ notes back :=
  List.filterMap_append

/-- A message on its way into the line, with the fragments that are still to be written. -/
structure Call (α : Type) where
  payload : List α
  left : List (Fragment.Frame α)
  deriving DecidableEq, Repr

structure Writer (α C : Type) where
  cipher : Option C
  sending : Option (Call α)
  returned : List (List α)

structure Reader (α C : Type) where
  cipher : Option C
  buffer : Option (List α)
  handled : List (List α)

variable {M B C α : Type} (turn : M → Option C) (wrap : C → Fragment.Frame α → B) (advance : C → C)

/-- A reader at `cipher` unwraps these fragments and is at `last` behind the line. -/
def Carries : C → List (Parcel M B) → List (Fragment.Frame α) → C → Prop
  | cipher, [], frames, last => frames = [] ∧ last = cipher
  | cipher, .note message :: line, frames, last =>
      Carries ((turn message).getD cipher) line frames last
  | cipher, .wrapped bytes :: line, frames, last =>
      ∃ frame later, frames = frame :: later ∧ bytes = wrap cipher frame ∧
        Carries (advance cipher) line later last

section

variable {turn wrap advance} {cipher last : C} {line : List (Parcel M B)}
  {frames : List (Fragment.Frame α)}

theorem carries_write (carries : Carries turn wrap advance cipher line frames last)
    (frame : Fragment.Frame α) :
    Carries turn wrap advance cipher (line ++ [.wrapped (wrap last frame)]) (frames ++ [frame])
      (advance last) := by
  induction line generalizing cipher frames with
  | nil =>
      obtain ⟨rfl, rfl⟩ := carries
      exact ⟨frame, [], rfl, rfl, rfl, rfl⟩
  | cons parcel line ih =>
      cases parcel with
      | note message => exact ih carries
      | wrapped bytes =>
          obtain ⟨front, later, rfl, rfl, rest⟩ := carries
          exact ⟨front, later ++ [frame], rfl, rfl, ih rest⟩

theorem carries_note (carries : Carries turn wrap advance cipher line frames last) (message : M) :
    Carries turn wrap advance cipher (line ++ [.note message]) frames ((turn message).getD last) := by
  induction line generalizing cipher frames with
  | nil =>
      obtain ⟨rfl, rfl⟩ := carries
      exact ⟨rfl, rfl⟩
  | cons parcel line ih =>
      cases parcel with
      | note first => exact ih carries
      | wrapped bytes =>
          obtain ⟨front, later, rfl, rfl, rest⟩ := carries
          exact ⟨front, later, rfl, rfl, ih rest⟩

end

variable (limit : Nat)

/-- The fragments left complete the message, and no fragment before the last one does. -/
structure Completes (buffer : Option (List α)) (call : Call α) : Prop where
  fed : Fragment.feed limit buffer call.left = (none, [call.payload])
  last : ∀ frame ∈ call.left.dropLast, frame.kind.ends = false

/-- What the reader has handled and what it will handle from the line is what the writer has written
in full, and a message that is being written will follow it. -/
def Way (line : List (Parcel M B)) (writer : Writer α C) (reader : Reader α C) : Prop :=
  ∃ cipher frames last, reader.cipher = some cipher ∧ writer.cipher = some last ∧
    Carries turn wrap advance cipher line frames last ∧
    reader.handled ++ (Fragment.feed limit reader.buffer frames).2 = writer.returned ∧
    ∀ call ∈ writer.sending, Completes limit (Fragment.feed limit reader.buffer frames).1 call

section

variable {turn wrap advance limit} {line : List (Parcel M B)} {writer : Writer α C}
  {reader : Reader α C}

theorem way_begin {cipher : C} (reads : reader.cipher = some cipher)
    (writes : writer.cipher = some cipher) (idle : writer.sending = none)
    (agree : reader.handled = writer.returned) :
    Way turn wrap advance limit [] writer reader := by
  refine ⟨cipher, [], cipher, reads, writes, ⟨rfl, rfl⟩, ?_, ?_⟩
  · rw [← agree]
    exact List.append_nil _
  · intro call member
    rw [idle] at member
    cases member

theorem way_call {size : Nat} (way : Way turn wrap advance limit line writer reader)
    (fits : size ≤ limit) (payload : List α) (short : payload.length ≤ limit) :
    Way turn wrap advance limit line
      { writer with sending := some ⟨payload, Fragment.split size payload⟩ } reader := by
  obtain ⟨cipher, frames, last, reads, writes, carries, agree, _⟩ := way
  refine ⟨cipher, frames, last, reads, writes, carries, agree, ?_⟩
  intro call member
  cases member
  refine ⟨?_, Fragment.split_dropLast_open size payload⟩
  rw [Fragment.feed_split limit size fits, if_pos short]

def Writer.wrote (writer : Writer α C) (cipher : C) (payload : List α)
    (left : List (Fragment.Frame α)) : Writer α C :=
  if left = [] then ⟨some cipher, none, writer.returned ++ [payload]⟩
  else ⟨some cipher, some ⟨payload, left⟩, writer.returned⟩

theorem way_fragment {last : C} {payload : List α} {frame : Fragment.Frame α}
    {left : List (Fragment.Frame α)} (way : Way turn wrap advance limit line writer reader)
    (writes : writer.cipher = some last) (running : writer.sending = some ⟨payload, frame :: left⟩) :
    Way turn wrap advance limit (line ++ [.wrapped (wrap last frame)])
      (writer.wrote (advance last) payload left) reader := by
  obtain ⟨cipher, frames, other, reads, current, carries, agree, calls⟩ := way
  obtain rfl : last = other := Option.some.inj (writes.symm.trans current)
  obtain ⟨fed, unfinished⟩ := calls _ running
  have fedMore := Fragment.feed_snoc limit reader.buffer frames frame
  unfold Writer.wrote
  split
  · next done =>
    subst done
    refine ⟨cipher, frames ++ [frame], advance last, reads, rfl, carries_write carries frame, ?_,
      fun _ member => nomatch member⟩
    simp only [Fragment.feed, List.append_nil, Prod.mk.injEq] at fed
    rw [fedMore, ← List.append_assoc, agree, fed.2]
  · next more =>
    have quiet : (Fragment.step limit (Fragment.feed limit reader.buffer frames).1 frame).2 = none := by
      apply Fragment.step_quiet
      apply unfinished frame
      rw [List.dropLast_cons_of_ne_nil more]
      exact List.mem_cons_self
    refine ⟨cipher, frames ++ [frame], advance last, reads, rfl, carries_write carries frame, ?_, ?_⟩
    · rw [fedMore, quiet, ← List.append_assoc, agree]
      exact List.append_nil _
    · intro call member
      cases member
      refine ⟨?_, ?_⟩
      · simp only [Fragment.feed, quiet, Option.toList_none, List.nil_append] at fed
        rw [fedMore]
        exact fed
      · intro each member
        apply unfinished each
        rw [List.dropLast_cons_of_ne_nil more]
        exact List.mem_cons_of_mem frame member

theorem way_note {last : C} (way : Way turn wrap advance limit line writer reader)
    (writes : writer.cipher = some last) (message : M) :
    Way turn wrap advance limit (line ++ [.note message])
      { writer with cipher := some ((turn message).getD last) } reader := by
  obtain ⟨cipher, frames, other, reads, current, carries, agree, calls⟩ := way
  obtain rfl : last = other := Option.some.inj (writes.symm.trans current)
  exact ⟨cipher, frames, _, reads, rfl, carries_note carries message, agree, calls⟩

def Reader.read (limit : Nat) (reader : Reader α C) (cipher : C) (frame : Fragment.Frame α) :
    Reader α C :=
  ⟨some cipher, (Fragment.step limit reader.buffer frame).1,
    reader.handled ++ (Fragment.step limit reader.buffer frame).2.toList⟩

theorem way_read {bytes : B}
    (way : Way turn wrap advance limit (.wrapped bytes :: line) writer reader) :
    ∃ cipher frame, reader.cipher = some cipher ∧ bytes = wrap cipher frame ∧
      Way turn wrap advance limit line writer (reader.read limit (advance cipher) frame) := by
  obtain ⟨cipher, frames, last, reads, writes, ⟨frame, later, rfl, rfl, rest⟩, agree, calls⟩ := way
  refine ⟨cipher, frame, reads, rfl, advance cipher, later, last, rfl, writes, rest, ?_, ?_⟩
  · rw [← agree, Reader.read, List.append_assoc]
    rfl
  · exact calls

theorem way_readNote {cipher : C} {message : M}
    (way : Way turn wrap advance limit (.note message :: line) writer reader)
    (reads : reader.cipher = some cipher) :
    Way turn wrap advance limit line writer
      { reader with cipher := some ((turn message).getD cipher) } := by
  obtain ⟨other, frames, last, current, writes, carries, agree, calls⟩ := way
  obtain rfl : cipher = other := Option.some.inj (reads.symm.trans current)
  exact ⟨_, frames, last, rfl, writes, carries, agree, calls⟩

/-- Whatever is handled was written, in the same order. -/
theorem way_in_order (way : Way turn wrap advance limit line writer reader) :
    reader.handled <+: writer.returned := by
  obtain ⟨_, frames, _, _, _, _, agree, _⟩ := way
  exact ⟨_, agree⟩

theorem way_empty (way : Way turn wrap advance limit [] writer reader) :
    reader.handled = writer.returned := by
  obtain ⟨_, frames, _, _, _, ⟨rfl, _⟩, agree, _⟩ := way
  rw [← agree]
  exact (List.append_nil _).symm

end

end Lib.Handover
