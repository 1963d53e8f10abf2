import Tenet.Lib.GoMap
import Mathlib.Data.Finset.Basic
import Mathlib.Data.Finset.Dedup

/-! A set kept beside a map: the values that some key has. -/

namespace Lib

variable {K V : Type} [DecidableEq K] {values added : Finset V} {table : GoMap K V} {key : K} {value : V}

/-- The set has the values of the map, and no others. -/
def Lists (values : Finset V) (table : GoMap K V) : Prop :=
  ∀ value, value ∈ values ↔ ∃ key, table.get key = some value

theorem GoMap.get_foldl_set {entries : List (K × V)}
    (functional : ∀ key first second, (key, first) ∈ entries → (key, second) ∈ entries → first = second) :
    (entries.foldl (fun table entry => table.set entry.1 entry.2) (∅ : GoMap K V)).get key =
      some value ↔ (key, value) ∈ entries := by
  induction entries using List.reverseRecOn with
  | nil => simp
  | append_singleton front last ih =>
      have before := ih fun key first second one two =>
        functional key first second (List.mem_append_left _ one) (List.mem_append_left _ two)
      rw [List.foldl_append, List.foldl_cons, List.foldl_nil, get_set_eq_some, before, List.mem_append,
        List.mem_singleton]
      constructor
      · rintro (⟨rfl, rfl⟩ | ⟨_, stored⟩)
        · exact Or.inr rfl
        · exact Or.inl stored
      · rintro (stored | rfl)
        · by_cases same : key = last.1
          · subst same
            exact Or.inl ⟨rfl, functional last.1 value last.2 (List.mem_append_left _ stored)
              (List.mem_append_right _ (List.mem_singleton.mpr rfl))⟩
          · exact Or.inr ⟨same, stored⟩
        · exact Or.inl ⟨rfl, rfl⟩

variable [DecidableEq V]

theorem lists_foldl_set {entries : List (K × V)}
    (functional : ∀ key first second, (key, first) ∈ entries → (key, second) ∈ entries → first = second) :
    Lists (entries.map Prod.snd).toFinset
      (entries.foldl (fun table entry => table.set entry.1 entry.2) (∅ : GoMap K V)) := by
  intro value
  rw [List.mem_toFinset, List.mem_map]
  constructor
  · rintro ⟨⟨key, value⟩, stored, rfl⟩
    exact ⟨key, (GoMap.get_foldl_set functional).mpr stored⟩
  · rintro ⟨key, stored⟩
    exact ⟨(key, value), (GoMap.get_foldl_set functional).mp stored, rfl⟩

theorem Lists.union_iff (lists : Lists added table) :
    Lists (values ∪ added) table ↔ values ⊆ added := by
  constructor
  · intro carried value old
    exact (lists value).mpr ((carried value).mp (Finset.mem_union_left added old))
  · intro covered value
    rw [Finset.union_eq_right.mpr covered]
    exact lists value

theorem Lists.insert_iff (lists : Lists values table) (fresh : value ∉ values) :
    Lists (insert value values) (table.set key value) ↔
      ∀ lost, table.get key = some lost → ∃ other, other ≠ key ∧ table.get other = some lost := by
  constructor
  · intro after lost stored
    have listed := (lists lost).mpr ⟨key, stored⟩
    obtain ⟨other, found⟩ := (after lost).mp (Finset.mem_insert_of_mem listed)
    rcases GoMap.get_set_eq_some.mp found with ⟨_, rfl⟩ | kept
    · exact absurd listed fresh
    · exact ⟨other, kept⟩
  · intro elsewhere found
    rw [Finset.mem_insert, lists found]
    constructor
    · rintro (rfl | ⟨holder, stored⟩)
      · exact ⟨key, GoMap.get_set_eq_some.mpr (Or.inl ⟨rfl, rfl⟩)⟩
      · by_cases same : holder = key
        · subst same
          obtain ⟨other, kept⟩ := elsewhere found stored
          exact ⟨other, GoMap.get_set_eq_some.mpr (Or.inr kept)⟩
        · exact ⟨holder, GoMap.get_set_eq_some.mpr (Or.inr ⟨same, stored⟩)⟩
    · rintro ⟨holder, stored⟩
      rcases GoMap.get_set_eq_some.mp stored with ⟨_, rfl⟩ | ⟨_, before⟩
      · exact Or.inl rfl
      · exact Or.inr ⟨holder, before⟩

end Lib
