import Tenet.Lib.GoMap

/-! Maps from keys to deadlines that are kept below a limit: what has expired is pruned, and if that is
not enough the entries closest to their deadline are trimmed. -/

namespace Lib.Deadlines

variable {K : Type} [DecidableEq K]

def prune (table : GoMap K Int) (now : Int) : GoMap K Int :=
  table.retain fun _ deadline => decide (now < deadline)

/-- The sort is not stable, so the order among equal deadlines is that of an arbitrary iteration. -/
def trim (order : GoMap.Iteration K Int) (table : GoMap K Int) (targetSize : Nat) : GoMap K Int :=
  if table.len ≤ targetSize then table
  else
    let entries := (order.list table).mergeSort fun one other => decide (one.2 ≤ other.2)
    table.deleteAll ((entries.take (table.len - targetSize)).map Prod.fst)

/-- An entry whose deadline has not passed. -/
def live (table : GoMap K Int) (now : Int) (key : K) : Option Int :=
  (table.get key).filter fun deadline => decide (now < deadline)

@[simp] theorem get_prune (table : GoMap K Int) (now : Int) (key : K) :
    (prune table now).get key = live table now key :=
  GoMap.get_retain table _ key

@[simp] theorem live_prune (table : GoMap K Int) (now : Int) (key : K) :
    live (prune table now) now key = live table now key := by
  rw [live, get_prune, live, Option.filter_filter]
  simp only [Bool.and_self]

theorem live_eq_some (table : GoMap K Int) (now : Int) (key : K) (deadline : Int) :
    live table now key = some deadline ↔ table.get key = some deadline ∧ now < deadline := by
  rw [live, Option.filter_eq_some_iff, decide_eq_true_iff]

omit [DecidableEq K] in
theorem len_prune_le (table : GoMap K Int) (now : Int) : (prune table now).len ≤ table.len :=
  GoMap.len_retain_le table _

theorem len_prune_prune (table : GoMap K Int) (now : Int) :
    (prune (prune table now) now).len = (prune table now).len := by
  apply GoMap.len_congr
  intro key
  rw [get_prune, live_prune, get_prune]

omit [DecidableEq K] in
theorem trim_keys (order : GoMap.Iteration K Int) (table : GoMap K Int) (count : Nat) :
    ((((order.list table).mergeSort fun one other => decide (one.2 ≤ other.2)).take count).map
      Prod.fst).Subperm table.keys := by
  have sorted := ((order.list table).mergeSort_perm fun one other => decide (one.2 ≤ other.2)).trans
    (order.perm table)
  rw [← table.toList_keys]
  exact ((List.take_sublist count _).map Prod.fst).subperm.trans (sorted.map Prod.fst).subperm

theorem len_trim_le (order : GoMap.Iteration K Int) (table : GoMap K Int) (targetSize : Nat) :
    (trim order table targetSize).len ≤ targetSize := by
  unfold trim
  split
  · assumption
  · next large =>
      let entries := (order.list table).mergeSort fun one other => decide (one.2 ≤ other.2)
      have among := trim_keys order table (table.len - targetSize)
      have distinct : ((entries.take (table.len - targetSize)).map Prod.fst).Nodup := by
        rcases among with ⟨listed, same, part⟩
        exact same.nodup_iff.mp (table.keys_nodup.sublist part)
      have fewer := table.len_deleteAll _ distinct fun key member => among.subset member
      have all : entries.length = table.len := by
        rw [GoMap.len, ← table.toList_keys, List.length_map, List.length_mergeSort]
        exact (order.perm table).length_eq
      rw [List.length_map, List.length_take, all] at fewer
      change (table.deleteAll ((entries.take (table.len - targetSize)).map Prod.fst)).len ≤ targetSize
      omega

theorem trim_loses (order : GoMap.Iteration K Int) (table : GoMap K Int) (targetSize : Nat)
    (large : targetSize < table.len) :
    ∃ key deadline, table.get key = some deadline ∧ (trim order table targetSize).get key = none := by
  by_contra kept
  have same : (trim order table targetSize).len = table.len := by
    apply GoMap.len_congr
    intro key
    cases stored : table.get key with
    | none =>
        rw [trim, if_neg (Nat.not_le.mpr large), GoMap.get_deleteAll, stored, ite_self]
    | some deadline =>
        cases after : (trim order table targetSize).get key with
        | none => exact absurd ⟨key, deadline, stored, after⟩ kept
        | some _ => rfl
  have bound := len_trim_le order table targetSize
  omega

theorem get_of_prune {table : GoMap K Int} {now : Int} {key : K} {deadline : Int}
    (kept : (prune table now).get key = some deadline) : table.get key = some deadline := by
  rw [get_prune, live_eq_some] at kept
  exact kept.1

theorem get_of_trim {order : GoMap.Iteration K Int} {table : GoMap K Int} {targetSize : Nat} {key : K}
    {deadline : Int} (kept : (trim order table targetSize).get key = some deadline) :
    table.get key = some deadline := by
  unfold trim at kept
  split at kept
  · exact kept
  · rw [GoMap.get_deleteAll] at kept
    split at kept
    · cases kept
    · exact kept

end Lib.Deadlines
