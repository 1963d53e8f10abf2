import Mathlib.Tactic.Linarith

/-! Keep-alives over a network that delays and loses: how long a receiver can go without hearing from
a sender that beats regularly. -/

namespace Lib

inductive Fate where
  | inFlight
  | arrived
  | lost
  deriving DecidableEq, Repr

/-- Only what is on its way can be lost. -/
def Fate.lose : Fate → Fate
  | .inFlight => .lost
  | settled => settled

structure Beat where
  sentAt : Int
  fate : Fate
  deriving DecidableEq, Repr

def Beat.settle (change : Fate → Fate) (beat : Beat) : Beat := ⟨beat.sentAt, change beat.fate⟩

namespace KeepAlive

def latest (start : Int) : List Beat → Int
  | [] => start
  | beat :: _ => beat.sentAt

/-- How many beats were lost behind the last one that arrived. -/
def missed : List Beat → Nat
  | [] => 0
  | ⟨_, .arrived⟩ :: _ => 0
  | ⟨_, .inFlight⟩ :: older => missed older
  | ⟨_, .lost⟩ :: older => missed older + 1

/-- No beat came later than a period behind the one before, and what arrived was heard. -/
def Regular (period start heard : Int) : List Beat → Prop
  | [] => start ≤ heard
  | beat :: older =>
      beat.sentAt ≤ latest start older + period ∧ (beat.fate = .arrived → beat.sentAt ≤ heard) ∧
        Regular period start heard older

variable {period start heard : Int} {beats : List Beat}

theorem Regular.mono {later : Int} (regular : Regular period start heard beats)
    (after : heard ≤ later) : Regular period start later beats := by
  induction beats with
  | nil => exact Int.le_trans regular after
  | cons beat older ih =>
      obtain ⟨gap, known, rest⟩ := regular
      exact ⟨gap, fun arrived => Int.le_trans (known arrived) after, ih rest⟩

theorem Regular.send {now : Int} (regular : Regular period start heard beats)
    (soon : now ≤ latest start beats + period) :
    Regular period start heard (⟨now, .inFlight⟩ :: beats) := by
  refine ⟨soon, fun arrived => ?_, regular⟩
  cases arrived

theorem Regular.send_replicate {now : Int} (regular : Regular period start heard beats)
    (forward : 0 ≤ period) (soon : now ≤ latest start beats + period) (count : Nat) :
    Regular period start heard (List.replicate count ⟨now, .inFlight⟩ ++ beats) := by
  induction count with
  | zero => exact regular
  | succ count ih =>
      refine Regular.send ih ?_
      cases count with
      | zero => exact soon
      | succ count => exact Int.le_add_of_nonneg_right forward

theorem missed_replicate (now : Int) (count : Nat) :
    missed (List.replicate count ⟨now, .inFlight⟩ ++ beats) = missed beats := by
  induction count with
  | zero => rfl
  | succ count ih => exact ih

theorem Regular.heard_of_arrived (regular : Regular period start heard beats) (beat : Beat)
    (member : beat ∈ beats) (arrived : beat.fate = .arrived) : beat.sentAt ≤ heard := by
  induction beats with
  | nil => cases member
  | cons first older ih =>
      obtain ⟨_, known, rest⟩ := regular
      rcases List.mem_cons.mp member with rfl | later
      · exact known arrived
      · exact ih rest later

theorem latest_settle (index : Nat) (change : Fate → Fate) :
    latest start (beats.modify index (Beat.settle change)) = latest start beats := by
  cases beats with
  | nil => rw [List.modify_nil]
  | cons beat older => cases index <;> rfl

theorem missed_arrived_le (index : Nat) :
    missed (beats.modify index (Beat.settle fun _ => .arrived)) ≤ missed beats := by
  induction beats generalizing index with
  | nil => rw [List.modify_nil]
  | cons beat older ih =>
      cases index with
      | zero => exact Nat.zero_le _
      | succ index =>
          obtain ⟨sentAt, fate⟩ := beat
          cases fate with
          | arrived => exact Nat.le_refl 0
          | inFlight => exact ih index
          | lost => exact Nat.succ_le_succ (ih index)

theorem filterMap_modify {M : Type} (beatOf : M → Option Beat) (change : M → M)
    (changeBeat : Beat → Beat) (same : ∀ message, beatOf (change message) = (beatOf message).map changeBeat)
    (messages : List M) (index : Nat) :
    ∃ position, (messages.modify index change).filterMap beatOf =
      (messages.filterMap beatOf).modify position changeBeat := by
  induction messages generalizing index with
  | nil => exact ⟨0, by rw [List.modify_nil]; rfl⟩
  | cons message rest ih =>
      cases index with
      | zero =>
          rw [List.modify_zero_cons, List.filterMap_cons, List.filterMap_cons, same]
          cases beatOf message with
          | none => exact ⟨_, (List.modify_eq_self (Nat.le_refl _)).symm⟩
          | some beat => exact ⟨0, rfl⟩
      | succ index =>
          obtain ⟨position, shifted⟩ := ih index
          rw [List.modify_succ_cons, List.filterMap_cons, List.filterMap_cons, shifted]
          cases beatOf message with
          | none => exact ⟨position, rfl⟩
          | some beat => exact ⟨position + 1, rfl⟩

theorem Regular.settle (index : Nat) (change : Fate → Fate)
    (regular : Regular period start heard beats)
    (known : ∀ beat ∈ beats, change beat.fate = .arrived → beat.sentAt ≤ heard) :
    Regular period start heard (beats.modify index (Beat.settle change)) := by
  induction beats generalizing index with
  | nil =>
      rw [List.modify_nil]
      exact regular
  | cons beat older ih =>
      obtain ⟨gap, heardOf, rest⟩ := regular
      cases index with
      | zero => exact ⟨gap, known beat List.mem_cons_self, rest⟩
      | succ index =>
          refine ⟨?_, heardOf, ih index rest fun each member =>
            known each (List.mem_cons_of_mem beat member)⟩
          exact gap.trans_eq (congrArg (· + period) (latest_settle index change).symm)

theorem Regular.covered (regular : Regular period start heard beats) (forward : 0 ≤ period) :
    (∃ beat ∈ beats, beat.fate = .inFlight ∧
        beat.sentAt ≤ heard + ((missed beats : Int) + 1) * period) ∨
      latest start beats ≤ heard + (missed beats : Int) * period := by
  induction beats with
  | nil =>
      right
      rw [missed, latest, Nat.cast_zero, Int.zero_mul, Int.add_zero]
      exact regular
  | cons beat older ih =>
      obtain ⟨gap, known, rest⟩ := regular
      obtain ⟨sentAt, fate⟩ := beat
      cases fate with
      | arrived =>
          right
          rw [missed, Nat.cast_zero, Int.zero_mul, Int.add_zero]
          exact known rfl
      | inFlight =>
          left
          rcases ih rest with ⟨beat, member, flying, soon⟩ | soon
          · exact ⟨beat, List.mem_cons_of_mem _ member, flying, soon⟩
          · refine ⟨_, List.mem_cons_self, rfl, ?_⟩
            change sentAt ≤ heard + ((missed older : Int) + 1) * period
            linarith
      | lost =>
          rw [missed, Nat.cast_add, Nat.cast_one]
          rcases ih rest with ⟨beat, member, flying, soon⟩ | soon
          · left
            refine ⟨beat, List.mem_cons_of_mem _ member, flying, ?_⟩
            linarith
          · right
            change sentAt ≤ heard + ((missed older : Int) + 1) * period
            linarith

/-- With beats no more than a period apart, none underway for longer than the delay and no more than
a number of them lost in a row, the receiver has heard within the time that this adds up to. -/
theorem Regular.heard_within {now delay : Int} {losses : Nat}
    (regular : Regular period start heard beats) (forward : 0 ≤ period) (delayed : 0 ≤ delay)
    (beating : now ≤ latest start beats + period)
    (prompt : ∀ beat ∈ beats, beat.fate = .inFlight → now ≤ beat.sentAt + delay)
    (few : missed beats ≤ losses) : now ≤ heard + ((losses : Int) + 1) * period + delay := by
  have fewer : (missed beats : Int) * period ≤ losses * period :=
    Int.mul_le_mul_of_nonneg_right (Int.ofNat_le.mpr few) forward
  rcases regular.covered forward with ⟨beat, member, flying, soon⟩ | soon
  · have bound := prompt beat member flying
    linarith
  · linarith

end KeepAlive

end Lib
