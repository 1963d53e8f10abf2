import Mathlib.Data.Finset.Dedup
import Mathlib.Data.Finset.Erase
import Mathlib.Data.Finset.Insert

/-! A list of names beside the set of their hashes.

The set answers what a scan over the list would answer, as long as no name is listed twice and the
hashes of the listed names differ. -/

namespace Lib.HashIndex

variable {K H : Type} [DecidableEq H] (hash : K → H)

def scan (names : List K) (h : H) : Bool := names.any fun name => decide (hash name = h)

/-- The set holds the hashes of the names, each of which is listed once. -/
structure Indexes (names : List K) (set : Finset H) : Prop where
  nodup : names.Nodup
  mem : ∀ h, h ∈ set ↔ ∃ name ∈ names, hash name = h

variable {hash} {names : List K} {set : Finset H}

theorem Indexes.scan (index : Indexes hash names set) (h : H) :
    decide (h ∈ set) = HashIndex.scan hash names h := by
  rw [Bool.eq_iff_iff, decide_eq_true_iff, index.mem, HashIndex.scan, List.any_eq_true]
  simp only [decide_eq_true_iff]

theorem indexes_toFinset (nodup : names.Nodup) : Indexes hash names (names.map hash).toFinset := by
  refine ⟨nodup, fun h => ?_⟩
  rw [List.mem_toFinset, List.mem_map]

theorem Indexes.append (index : Indexes hash names set) {name : K} (fresh : name ∉ names) :
    Indexes hash (names ++ [name]) (insert (hash name) set) := by
  constructor
  · rw [List.nodup_append]
    refine ⟨index.nodup, List.nodup_singleton name, ?_⟩
    intro listed member other new same
    rw [List.mem_singleton.mp new] at same
    exact fresh (same ▸ member)
  · intro h
    rw [Finset.mem_insert, index.mem]
    constructor
    · rintro (rfl | ⟨listed, member, rfl⟩)
      · exact ⟨name, List.mem_append_right names (List.mem_singleton_self name), rfl⟩
      · exact ⟨listed, List.mem_append_left [name] member, rfl⟩
    · rintro ⟨listed, member, rfl⟩
      rcases List.mem_append.mp member with before | new
      · exact Or.inr ⟨listed, before, rfl⟩
      · rw [List.mem_singleton.mp new]
        exact Or.inl rfl

omit [DecidableEq H] in
theorem Indexes.mem_hash (index : Indexes hash names set) {name : K}
    (apart : ∀ other ∈ names, hash other = hash name → other = name) :
    hash name ∈ set ↔ name ∈ names := by
  rw [index.mem]
  constructor
  · rintro ⟨other, member, same⟩
    exact apart other member same ▸ member
  · intro member
    exact ⟨name, member, rfl⟩

theorem Indexes.erase [BEq K] [LawfulBEq K] (index : Indexes hash names set) {name : K}
    (apart : ∀ other ∈ names, hash other = hash name → other = name) :
    Indexes hash (names.erase name) (set.erase (hash name)) := by
  refine ⟨index.nodup.erase name, fun h => ?_⟩
  rw [Finset.mem_erase, index.mem]
  constructor
  · rintro ⟨differs, listed, member, rfl⟩
    refine ⟨listed, (index.nodup.mem_erase_iff).mpr ⟨?_, member⟩, rfl⟩
    rintro rfl
    exact differs rfl
  · rintro ⟨listed, member, rfl⟩
    obtain ⟨differs, before⟩ := (index.nodup.mem_erase_iff).mp member
    exact ⟨fun same => differs (apart listed before same), listed, before, rfl⟩

end Lib.HashIndex
