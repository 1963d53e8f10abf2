import Mathlib.Data.List.GetD

/-! Indexing and slicing with the bounds checks of a run time: `none` is a read out of range. -/

namespace Lib.Slice

variable {α : Type}

def index (data : List α) (position : Nat) : Option α := data[position]?

/-- `data[low:high]` -/
def slice (data : List α) (low high : Nat) : Option (List α) :=
  if low ≤ high ∧ high ≤ data.length then some ((data.drop low).take (high - low)) else none

theorem index_inside (data : List α) (position : Nat) (default : α)
    (inside : position < data.length) : index data position = some (data.getD position default) := by
  rw [index, List.getElem?_eq_getElem inside, List.getD_eq_getElem data default inside]

theorem slice_inside (data : List α) (low size : Nat) (inside : low + size ≤ data.length) :
    slice data low (low + size) = some ((data.drop low).take size) := by
  have ordered : low ≤ low + size ∧ low + size ≤ data.length := ⟨Nat.le_add_right low size, inside⟩
  rw [slice, if_pos ordered, Nat.add_sub_cancel_left]

theorem slice_rest (data : List α) (low : Nat) (inside : low ≤ data.length) :
    slice data low data.length = some (data.drop low) := by
  have whole : data.length - low = (data.drop low).length := List.length_drop.symm
  rw [slice, if_pos ⟨inside, Nat.le_refl _⟩, whole, List.take_length]

theorem part_append (front field rest : List α) {low size : Nat} (behind : front.length = low)
    (long : field.length = size) : ((front ++ (field ++ rest)).drop low).take size = field := by
  rw [List.drop_left' behind, List.take_left' long]

theorem getD_append (front rest : List α) (default : α) (position : Nat)
    (behind : front.length = position) :
    (front ++ rest).getD position default = rest.headD default := by
  subst behind
  cases rest with
  | nil => simp
  | cons first rest => simp

end Lib.Slice
