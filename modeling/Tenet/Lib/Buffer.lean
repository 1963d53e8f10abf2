import Mathlib.Order.Basic

/-! A buffer that is read into again and again, and slices that refer to it: what a slice shows
after the next read. -/

namespace Lib

variable {α : Type}

def overwrite (buf data : List α) : List α := data.take buf.length ++ buf.drop data.length

/-- A slice of a buffer: where it starts and how long it is, but no bytes of its own. -/
structure View where
  offset : Nat
  size : Nat
  deriving DecidableEq

/-- What the slice shows while the buffer holds `buf`. -/
def View.load (view : View) (buf : List α) : List α := (buf.drop view.offset).take view.size

theorem length_overwrite (buf data : List α) : (overwrite buf data).length = buf.length := by
  rw [overwrite, List.length_append, List.length_take, List.length_drop]
  omega

theorem overwrite_of_fits {buf data : List α} (fits : data.length ≤ buf.length) :
    overwrite buf data = data ++ buf.drop data.length := by
  rw [overwrite, List.take_of_length_le fits]

theorem getElem?_overwrite (buf data : List α) {index : Nat} (inside : index < buf.length) :
    (overwrite buf data)[index]? = data[index]?.or buf[index]? := by
  rw [overwrite, List.getElem?_append, List.length_take]
  by_cases written : index < data.length
  · rw [if_pos (Nat.lt_min.mpr ⟨inside, written⟩), List.getElem?_take_of_lt inside,
      List.getElem?_eq_getElem written, Option.some_or]
  · have kept : min buf.length data.length = data.length := by omega
    rw [kept, if_neg written, List.getElem?_drop, List.getElem?_eq_none (Nat.not_lt.mp written),
      Option.none_or, Nat.add_sub_cancel' (Nat.not_lt.mp written)]

namespace View

variable (view : View)

theorem getElem?_load (buf : List α) {index : Nat} (inside : index < view.size) :
    (view.load buf)[index]? = buf[view.offset + index]? := by
  rw [load, List.getElem?_take_of_lt inside, List.getElem?_drop]

theorem length_load {buf : List α} (inside : view.offset + view.size ≤ buf.length) :
    (view.load buf).length = view.size := by
  rw [load, List.length_take, List.length_drop]
  omega

theorem load_take (buf : List α) {count : Nat} (inside : view.offset + view.size ≤ count) :
    view.load (buf.take count) = view.load buf := by
  rw [load, load, List.drop_take, List.take_take, Nat.min_eq_left (by omega)]

theorem load_eq_iff (buf other : List α) : view.load buf = view.load other ↔
    ∀ index, view.offset ≤ index → index < view.offset + view.size → buf[index]? = other[index]? := by
  constructor
  · intro same index low high
    have inside : index - view.offset < view.size := by omega
    rw [← Nat.add_sub_cancel' low, ← view.getElem?_load buf inside, ← view.getElem?_load other inside,
      same]
  · intro same
    apply List.ext_getElem?
    intro index
    by_cases inside : index < view.size
    · rw [view.getElem?_load buf inside, view.getElem?_load other inside]
      exact same _ (by omega) (by omega)
    · have beyond (data : List α) : (view.load data)[index]? = none :=
        List.getElem?_eq_none (Nat.le_trans (List.length_take_le _ _) (Nat.not_lt.mp inside))
      rw [beyond buf, beyond other]

theorem load_overwrite_iff {buf : List α} (data : List α)
    (inside : view.offset + view.size ≤ buf.length) :
    view.load (overwrite buf data) = view.load buf ↔
      ∀ index, view.offset ≤ index → index < view.offset + view.size →
        ∀ value, data[index]? = some value → buf[index]? = some value := by
  rw [load_eq_iff]
  refine forall_congr' fun index => forall_congr' fun low => forall_congr' fun high => ?_
  rw [getElem?_overwrite buf data (by omega)]
  cases data[index]? with
  | none => simp
  | some value => simp [eq_comm]

end View

end Lib
