import Mathlib.Data.List.Basic

/-! A value that changes, announced over a queue to a register that does not always listen. -/

namespace Lib

structure Announcement (V : Type) where
  current : V
  /-- announcements that have not been sent, the oldest first -/
  unsent : List V
  sent : List V
  listening : Bool
  view : V

namespace Announcement

variable {V : Type}

/-- What is still to arrive ends with the current value, and with nothing to arrive the register
has it if it listens. -/
structure Settling (a : Announcement V) : Prop where
  last : ∀ value, (a.sent ++ a.unsent).getLast? = some value → value = a.current
  view : a.unsent = [] → a.sent = [] → a.listening = true → a.view = a.current

variable {a : Announcement V}

theorem settling_of_last (last : a.unsent.getLast? = some a.current) : a.Settling := by
  refine ⟨?_, ?_⟩
  · intro value final
    rw [List.getLast?_append, last] at final
    exact (Option.some.inj final).symm
  · intro none_left
    rw [none_left] at last
    cases last

/-- Some of what is unsent is said again, as it is now. -/
theorem Settling.renew (settling : a.Settling) {front middle back : List V}
    (unsent : a.unsent = front ++ (middle ++ back)) (renewed : List V)
    (each : ∀ value ∈ renewed, value = a.current) (kept : renewed = [] → middle = []) :
    Settling { a with unsent := front ++ (renewed ++ back) } := by
  have last := settling.last
  rw [unsent] at last
  refine ⟨?_, ?_⟩
  · intro value final
    cases back with
    | cons next others => exact last value (by simpa [List.getLast?_append] using final)
    | nil =>
        cases ending : renewed.getLast? with
        | some said =>
            have final : value = said := by simpa [List.getLast?_append, ending] using final.symm
            rw [final]
            exact each said (List.mem_of_getLast? ending)
        | none =>
            have nothing := List.getLast?_eq_none_iff.mp ending
            exact last value (by simpa [nothing, kept nothing] using final)
  · intro none_left
    simp only [List.append_eq_nil_iff] at none_left
    apply settling.view
    rw [unsent, none_left.1, kept none_left.2.1, none_left.2.2]
    rfl

/-- The newest is sent only when those before it say the same. -/
theorem Settling.send (settling : a.Settling) {front rest : List V} {value : V}
    (unsent : a.unsent = front ++ value :: rest)
    (turn : rest = [] → ∀ other ∈ front, other = value) :
    Settling { a with unsent := front ++ rest, sent := a.sent ++ [value] } := by
  have last := settling.last
  rw [unsent] at last
  refine ⟨?_, ?_⟩
  · intro final ends
    cases rest with
    | cons next others =>
        exact last final (by simpa [List.getLast?_append, List.getLast?_cons] using ends)
    | nil =>
        have newest : value = a.current := last value (by simp)
        cases ending : front.getLast? with
        | none =>
            have nothing := List.getLast?_eq_none_iff.mp ending
            have same : value = final := by simpa [nothing] using ends
            rw [← same, newest]
        | some other =>
            have same : other = final := by
              simpa [List.getLast?_append, List.getLast?_cons, ending] using ends
            rw [← same, turn rfl other (List.mem_of_getLast? ending), newest]
  · intro _ none_sent
    exact absurd none_sent (List.append_ne_nil_of_right_ne_nil _ (List.cons_ne_nil value []))

theorem Settling.deliver (settling : a.Settling) (value : V) (rest : List V)
    (queue : a.sent = value :: rest) :
    Settling { a with sent := rest, view := if a.listening then value else a.view } := by
  have last := settling.last
  rw [queue] at last
  refine ⟨?_, ?_⟩
  · intro final ends
    apply last
    rw [List.cons_append, List.getLast?_cons, ends]
    rfl
  · intro none_left none_sent listening
    change rest = [] at none_sent
    change (if a.listening then value else a.view) = a.current
    rw [if_pos listening]
    apply last
    rw [none_sent, show a.unsent = [] from none_left]
    rfl

theorem Settling.listen (settling : a.Settling)
    (ready : a.unsent ≠ [] ∨ a.sent ≠ [] ∨ a.view = a.current) :
    Settling { a with listening := true } := by
  refine ⟨settling.last, ?_⟩
  intro none_left none_sent _
  rcases ready with unsent | sent | right
  · exact absurd none_left unsent
  · exact absurd none_sent sent
  · exact right

theorem Settling.mute (settling : a.Settling) : Settling { a with listening := false } := by
  refine ⟨settling.last, ?_⟩
  intro _ _ listening
  cases listening

end Announcement

end Lib
