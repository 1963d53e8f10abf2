import Mathlib.Data.List.Basic

/-! Messages on their way, each of which arrives once and in any order: what is left when the one at a
position has arrived. -/

namespace Lib.InFlight

variable {M : Type} {flight : List M} {index : Nat} {message : M}

theorem eraseIdx_eq (found : flight[index]? = some message) :
    ∃ front back, flight = front ++ message :: back ∧ flight.eraseIdx index = front ++ back := by
  obtain ⟨inside, rfl⟩ := List.getElem?_eq_some_iff.mp found
  refine ⟨flight.take index, flight.drop (index + 1), ?_, List.eraseIdx_eq_take_drop_succ flight index⟩
  rw [List.getElem_cons_drop, List.take_append_drop]

theorem mem_eraseIdx_of_ne {other : M} (found : flight[index]? = some message)
    (different : other ≠ message) (member : other ∈ flight) : other ∈ flight.eraseIdx index := by
  obtain ⟨front, back, whole, left⟩ := eraseIdx_eq found
  rw [whole, List.mem_append, List.mem_cons] at member
  rw [left, List.mem_append]
  rcases member with before | same | after
  · exact Or.inl before
  · exact absurd same different
  · exact Or.inr after

variable {kind : M → Bool}

theorem filter_eraseIdx_other (found : flight[index]? = some message)
    (other : kind message = false) : (flight.eraseIdx index).filter kind = flight.filter kind := by
  obtain ⟨front, back, whole, left⟩ := eraseIdx_eq found
  rw [left, whole, List.filter_append, List.filter_append,
    List.filter_cons_of_neg (by rw [other]; exact Bool.false_ne_true)]

theorem filter_eraseIdx_only {only : M} (found : flight[index]? = some message)
    (isKind : kind message = true) (single : flight.filter kind = [only]) :
    message = only ∧ (flight.eraseIdx index).filter kind = [] := by
  obtain ⟨front, back, whole, left⟩ := eraseIdx_eq found
  rw [whole, List.filter_append, List.filter_cons_of_pos isKind] at single
  rw [left, List.filter_append]
  cases before : front.filter kind with
  | nil =>
      rw [before, List.nil_append, List.cons.injEq] at single
      exact ⟨single.1, single.2⟩
  | cons first rest =>
      rw [before, List.cons_append, List.cons.injEq] at single
      exact absurd single.2 (by simp)

end Lib.InFlight
