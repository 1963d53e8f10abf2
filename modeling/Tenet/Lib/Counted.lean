import Mathlib.Data.List.Infix

/-! Counted sequences of self-delimiting items, read as far as complete items go. -/

namespace Lib

/-- A format for one item: a reader that takes an item off the front of the data exactly when a valid
one was written there. -/
structure ItemCodec (α E : Type) where
  encode : E → List α
  read : List α → Option (E × List α)
  Valid : E → Prop
  read_encode : ∀ item rest, Valid item → read (encode item ++ rest) = some (item, rest)
  encode_read : ∀ data item rest, read data = some (item, rest) →
    Valid item ∧ data = encode item ++ rest

namespace ItemCodec

variable {α E : Type} (codec : ItemCodec α E)

/-- At most `count` items, up to the first incomplete one. -/
def items : Nat → List α → List E
  | 0, _ => []
  | count + 1, data =>
      match codec.read data with
      | none => []
      | some (item, rest) => item :: items count rest

/-- The items are the longest sequence of at most `count` complete ones at the front of the data. -/
structure Longest (count : Nat) (data : List α) (found : List E) : Prop where
  within : found.length ≤ count
  valid : ∀ item ∈ found, codec.Valid item
  front : found.flatMap codec.encode <+: data
  longest : ∀ others : List E, others.length ≤ count → (∀ item ∈ others, codec.Valid item) →
    others.flatMap codec.encode <+: data → others <+: found

theorem items_front (count : Nat) (data : List α) :
    (codec.items count data).flatMap codec.encode <+: data := by
  induction count generalizing data with
  | zero => exact List.nil_prefix
  | succ count ih =>
      rw [items]
      split
      · exact List.nil_prefix
      · next item rest read =>
          rw [(codec.encode_read data item rest read).2, List.flatMap_cons]
          exact (List.prefix_append_right_inj _).mpr (ih rest)

theorem items_valid (count : Nat) (data : List α) : ∀ item ∈ codec.items count data, codec.Valid item := by
  induction count generalizing data with
  | zero => exact fun _ member => absurd member List.not_mem_nil
  | succ count ih =>
      rw [items]
      split
      · exact fun _ member => absurd member List.not_mem_nil
      · next item rest read =>
          intro other member
          rcases List.mem_cons.mp member with rfl | later
          · exact (codec.encode_read data other rest read).1
          · exact ih rest other later

theorem items_within (count : Nat) (data : List α) : (codec.items count data).length ≤ count := by
  induction count generalizing data with
  | zero => exact Nat.le_refl 0
  | succ count ih =>
      rw [items]
      split
      · exact Nat.zero_le _
      · next item rest read => exact Nat.succ_le_succ (ih rest)

theorem prefix_items (count : Nat) (others : List E) (rest : List α) (within : others.length ≤ count)
    (valid : ∀ item ∈ others, codec.Valid item) :
    others <+: codec.items count (others.flatMap codec.encode ++ rest) := by
  induction others generalizing count with
  | nil => exact List.nil_prefix
  | cons item others ih =>
      cases count with
      | zero => exact absurd within (Nat.not_succ_le_zero _)
      | succ count =>
          rw [List.flatMap_cons, List.append_assoc, items,
            codec.read_encode item _ (valid item List.mem_cons_self)]
          exact (List.prefix_cons_inj item).mpr (ih count (Nat.le_of_succ_le_succ within)
            fun other later => valid other (List.mem_cons_of_mem item later))

theorem items_longest (count : Nat) (data : List α) :
    codec.Longest count data (codec.items count data) where
  within := codec.items_within count data
  valid := codec.items_valid count data
  front := codec.items_front count data
  longest := by
    rintro others within valid ⟨rest, rfl⟩
    exact codec.prefix_items count others rest within valid

theorem items_encode (others : List E) (rest : List α) (valid : ∀ item ∈ others, codec.Valid item) :
    codec.items others.length (others.flatMap codec.encode ++ rest) = others := by
  have front := codec.prefix_items others.length others rest (Nat.le_refl _) valid
  exact (front.eq_of_length_le (codec.items_within _ _)).symm

end ItemCodec

end Lib
