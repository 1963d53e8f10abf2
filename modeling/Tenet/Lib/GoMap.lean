import Mathlib.Data.List.AList

/-! Hash maps with unordered iteration, as association lists without repeated keys. -/

namespace Lib

def GoMap (K V : Type) := AList (fun _ : K => V)

namespace GoMap

variable {K V : Type}

def empty : GoMap K V := (∅ : AList (fun _ : K => V))

instance : EmptyCollection (GoMap K V) := ⟨empty⟩

instance : Inhabited (GoMap K V) := ⟨empty⟩

/-- The keys in the order of the representation; a caller may rely on the set only. -/
def keys (table : GoMap K V) : List K := AList.keys table

def len (table : GoMap K V) : Nat := table.keys.length

def toList (table : GoMap K V) : List (K × V) := table.entries.map fun entry => (entry.1, entry.2)

/-- An order in which a loop may come to the entries of a map. -/
structure Iteration (K V : Type) where
  list : GoMap K V → List (K × V)
  perm : ∀ table, (list table).Perm table.toList

def Iteration.plain : Iteration K V := ⟨toList, fun _ => .refl _⟩

theorem toList_keys (table : GoMap K V) : table.toList.map Prod.fst = table.keys := by
  rw [toList, List.map_map]
  rfl

variable [DecidableEq K]

def get (table : GoMap K V) (key : K) : Option V := AList.lookup key table

def set (table : GoMap K V) (key : K) (value : V) : GoMap K V := AList.insert key value table

def delete (table : GoMap K V) (key : K) : GoMap K V := AList.erase key table

def deleteAll (table : GoMap K V) (keys : List K) : GoMap K V := keys.foldl delete table

/-- The loop that deletes, while ranging over the map, every entry that fails a test. -/
def retain (table : GoMap K V) (keep : K → V → Bool) : GoMap K V :=
  ⟨table.entries.filter (fun entry => keep entry.1 entry.2),
    table.nodupKeys.sublist List.filter_sublist⟩

/-- The same keys, every value changed in place. -/
def mapValues (table : GoMap K V) (change : V → V) : GoMap K V :=
  ⟨table.entries.map (Sigma.map id fun _ => change), by
    rw [List.NodupKeys, List.keys, List.map_map]
    exact table.nodupKeys⟩

@[simp] theorem get_empty (key : K) : (∅ : GoMap K V).get key = none :=
  AList.lookup_empty key

@[simp] theorem get_set (table : GoMap K V) (key other : K) (value : V) :
    (table.set key value).get other = if other = key then some value else table.get other := by
  by_cases same : other = key
  · subst same
    rw [if_pos rfl]
    exact AList.lookup_insert (β := fun _ : K => V) table
  · rw [if_neg same]
    exact AList.lookup_insert_ne (β := fun _ : K => V) same

@[simp] theorem get_delete (table : GoMap K V) (key other : K) :
    (table.delete key).get other = if other = key then none else table.get other := by
  by_cases same : other = key
  · subst same
    rw [if_pos rfl]
    exact AList.lookup_erase (β := fun _ : K => V) other table
  · rw [if_neg same]
    exact AList.lookup_erase_ne (β := fun _ : K => V) same

theorem get_set_eq_some {table : GoMap K V} {key other : K} {value found : V} :
    (table.set key value).get other = some found ↔
      other = key ∧ found = value ∨ other ≠ key ∧ table.get other = some found := by
  rw [get_set]
  by_cases same : other = key
  · rw [if_pos same, Option.some.injEq]
    exact ⟨fun stored => Or.inl ⟨same, stored.symm⟩, fun either =>
      either.elim (fun here => here.2.symm) (fun there => absurd same there.1)⟩
  · rw [if_neg same]
    exact ⟨fun stored => Or.inr ⟨same, stored⟩, fun either =>
      either.elim (fun here => absurd here.1 same) And.right⟩

theorem get_delete_eq_some {table : GoMap K V} {key other : K} {found : V} :
    (table.delete key).get other = some found ↔ other ≠ key ∧ table.get other = some found := by
  rw [get_delete]
  by_cases same : other = key
  · rw [if_pos same]
    exact ⟨fun stored => absurd stored.symm (Option.some_ne_none found),
      fun both => absurd same both.1⟩
  · rw [if_neg same]
    exact ⟨fun stored => ⟨same, stored⟩, And.right⟩

theorem get_set_set (table : GoMap K V) (key other : K) (earlier later : V) :
    ((table.set key earlier).set key later).get other = (table.set key later).get other := by
  simp only [get_set]
  split <;> rfl

theorem get_delete_set (table : GoMap K V) (key other : K) (value : V) :
    ((table.set key value).delete key).get other = (table.delete key).get other := by
  simp only [get_delete, get_set]
  split <;> rfl

theorem get_eq_some (table : GoMap K V) (key : K) (value : V) :
    table.get key = some value ↔ (⟨key, value⟩ : Sigma fun _ : K => V) ∈ table.entries :=
  AList.mem_lookup_iff (β := fun _ : K => V)

@[simp] theorem get_retain (table : GoMap K V) (keep : K → V → Bool) (key : K) :
    (table.retain keep).get key = (table.get key).filter (keep key) := by
  ext value
  rw [get_eq_some, Option.filter_eq_some_iff, get_eq_some]
  exact List.mem_filter

@[simp] theorem get_mapValues (table : GoMap K V) (change : V → V) (key : K) :
    (table.mapValues change).get key = (table.get key).map change :=
  List.dlookup_map₂ (γ := fun _ => V) (δ := fun _ => V) key

theorem mem_keys (table : GoMap K V) (key : K) :
    key ∈ table.keys ↔ ∃ value, table.get key = some value := by
  have listed : key ∈ table.keys ↔ (AList.lookup key table).isSome :=
    AList.lookup_isSome (β := fun _ : K => V).symm
  rw [listed, Option.isSome_iff_exists]
  rfl

theorem len_congr {W : Type} (table : GoMap K V) (other : GoMap K W)
    (same : ∀ key, (table.get key).isSome = (other.get key).isSome) : table.len = other.len := by
  have members : ∀ key, key ∈ table.keys ↔ key ∈ other.keys := by
    intro key
    rw [mem_keys, mem_keys, ← Option.isSome_iff_exists, ← Option.isSome_iff_exists, same]
  exact ((List.perm_ext_iff_of_nodup table.keys_nodup other.keys_nodup).mpr members).length_eq

theorem len_set_le (table : GoMap K V) (key : K) (value : V) :
    (table.set key value).len ≤ table.len + 1 := by
  have keys : (table.set key value).keys = key :: table.keys.erase key := AList.keys_insert ..
  rw [len, keys, List.length_cons]
  exact Nat.succ_le_succ List.length_erase_le

theorem len_delete_le (table : GoMap K V) (key : K) : (table.delete key).len ≤ table.len := by
  have keys : (table.delete key).keys = table.keys.erase key := AList.keys_erase ..
  rw [len, keys]
  exact List.length_erase_le

theorem len_delete (table : GoMap K V) (key : K) (present : key ∈ table.keys) :
    (table.delete key).len + 1 = table.len := by
  have keys : (table.delete key).keys = table.keys.erase key := AList.keys_erase ..
  rw [len, keys]
  exact List.length_erase_add_one present

omit [DecidableEq K] in
theorem len_retain_le (table : GoMap K V) (keep : K → V → Bool) :
    (table.retain keep).len ≤ table.len := by
  have fewer : (table.entries.filter fun entry => keep entry.1 entry.2).length ≤
      table.entries.length := List.length_filter_le _ _
  have sizes (other : GoMap K V) : other.len = other.entries.length := List.length_map _
  rw [sizes, sizes]
  exact fewer

theorem mem_keys_delete (table : GoMap K V) (key other : K) :
    other ∈ (table.delete key).keys ↔ other ≠ key ∧ other ∈ table.keys := by
  rw [mem_keys, mem_keys, get_delete]
  by_cases same : other = key <;> simp [same]

@[simp] theorem get_deleteAll (table : GoMap K V) (keys : List K) (key : K) :
    (table.deleteAll keys).get key = if key ∈ keys then none else table.get key := by
  induction keys generalizing table with
  | nil => rfl
  | cons first keys ih =>
      have tail := ih (table.delete first)
      rw [deleteAll, List.foldl_cons]
      rw [deleteAll] at tail
      rw [tail, get_delete]
      by_cases same : key = first <;> simp [same]

theorem len_deleteAll (table : GoMap K V) (keys : List K) (distinct : keys.Nodup)
    (present : ∀ key ∈ keys, key ∈ table.keys) :
    (table.deleteAll keys).len + keys.length = table.len := by
  induction keys generalizing table with
  | nil => rfl
  | cons first keys ih =>
      rcases List.nodup_cons.mp distinct with ⟨unlisted, rest⟩
      have tail := ih (table.delete first) rest (by
        intro key member
        refine (mem_keys_delete table first key).mpr ⟨?_, present key (List.mem_cons_of_mem first member)⟩
        rintro rfl
        exact unlisted member)
      have less := len_delete table first (present first List.mem_cons_self)
      rw [List.length_cons]
      change (((table.delete first).deleteAll keys).len + (keys.length + 1)) = table.len
      omega

end GoMap

end Lib
