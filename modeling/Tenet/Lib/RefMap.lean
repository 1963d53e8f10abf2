import Tenet.Lib.GoMap

/-! Hash maps whose values are pointers.

Whoever has read a pointer goes on with the object behind it, whatever becomes of the entry it was
read from. Objects are never freed: their number is their position. -/

namespace Lib

structure RefMap (K V : Type) where
  objects : List V
  table : GoMap K Nat

namespace RefMap

variable {K V : Type}

def empty : RefMap K V := ⟨[], ∅⟩

instance : EmptyCollection (RefMap K V) := ⟨empty⟩

def deref (m : RefMap K V) (ref : Nat) : Option V := m.objects[ref]?

/-- A new object that no entry points to; its number is that of the objects before it. -/
def alloc (m : RefMap K V) (value : V) : RefMap K V := { m with objects := m.objects ++ [value] }

def modify (m : RefMap K V) (ref : Nat) (change : V → V) : RefMap K V :=
  { m with objects := m.objects.modify ref change }

def count (m : RefMap K V) : Nat := m.table.len

theorem deref_alloc (m : RefMap K V) (value : V) (ref : Nat) :
    (m.alloc value).deref ref = if ref = m.objects.length then some value else m.deref ref := by
  rw [deref, deref, alloc]
  rcases Nat.lt_trichotomy ref m.objects.length with less | rfl | more
  · rw [if_neg (Nat.ne_of_lt less)]
    exact List.getElem?_append_left less
  · rw [if_pos rfl]
    exact List.getElem?_concat_length
  · rw [if_neg (Nat.ne_of_gt more), List.getElem?_eq_none (Nat.le_of_lt more)]
    apply List.getElem?_eq_none
    rw [List.length_append, List.length_singleton]
    exact more

theorem deref_modify (m : RefMap K V) (ref other : Nat) (change : V → V) :
    (m.modify ref change).deref other =
      (m.deref other).map fun value => if ref = other then change value else value :=
  List.getElem?_modify change ref m.objects other

variable [DecidableEq K]

def find (m : RefMap K V) (key : K) : Option Nat := m.table.get key

def point (m : RefMap K V) (key : K) (ref : Nat) : RefMap K V :=
  { m with table := m.table.set key ref }

def put (m : RefMap K V) (key : K) (value : V) : RefMap K V :=
  (m.alloc value).point key m.objects.length

def delete (m : RefMap K V) (key : K) : RefMap K V := { m with table := m.table.delete key }

/-- Delete the entries whose object fails a test. -/
def retain (m : RefMap K V) (keep : V → Bool) : RefMap K V :=
  { m with table := m.table.retain fun _ ref => (m.deref ref).any keep }

/-- What a reader finds behind the entry. -/
def value (m : RefMap K V) (key : K) : Option V := (m.find key).bind m.deref

/-- Every entry points to an object of its own. -/
structure Sound (m : RefMap K V) : Prop where
  bound : ∀ key ref, m.find key = some ref → ref < m.objects.length
  apart : ∀ key other ref, m.find key = some ref → m.find other = some ref → key = other

@[simp] theorem find_empty (key : K) : (∅ : RefMap K V).find key = none := GoMap.get_empty key

@[simp] theorem find_alloc (m : RefMap K V) (value : V) (key : K) :
    (m.alloc value).find key = m.find key := rfl

@[simp] theorem find_modify (m : RefMap K V) (ref : Nat) (change : V → V) (key : K) :
    (m.modify ref change).find key = m.find key := rfl

@[simp] theorem find_point (m : RefMap K V) (key other : K) (ref : Nat) :
    (m.point key ref).find other = if other = key then some ref else m.find other :=
  GoMap.get_set m.table key other ref

@[simp] theorem find_put (m : RefMap K V) (key other : K) (value : V) :
    (m.put key value).find other = if other = key then some m.objects.length else m.find other :=
  find_point (m.alloc value) key other m.objects.length

@[simp] theorem find_delete (m : RefMap K V) (key other : K) :
    (m.delete key).find other = if other = key then none else m.find other :=
  GoMap.get_delete m.table key other

@[simp] theorem find_retain (m : RefMap K V) (keep : V → Bool) (key : K) :
    (m.retain keep).find key = (m.find key).filter fun ref => (m.deref ref).any keep :=
  GoMap.get_retain m.table _ key

theorem sound_empty : (∅ : RefMap K V).Sound where
  bound key ref found := by
    rw [find_empty] at found
    cases found
  apart key other ref found _ := by
    rw [find_empty] at found
    cases found

variable {m : RefMap K V}

theorem Sound.alloc (sound : m.Sound) (value : V) : (m.alloc value).Sound where
  bound key ref found := by
    have made := sound.bound key ref found
    rw [RefMap.alloc, List.length_append]
    exact Nat.lt_add_right _ made
  apart := sound.apart

theorem Sound.point (sound : m.Sound) (key : K) (ref : Nat) (made : ref < m.objects.length)
    (free : ∀ other, m.find other ≠ some ref) : (m.point key ref).Sound where
  bound other taken found := by
    rcases GoMap.get_set_eq_some.mp found with ⟨_, rfl⟩ | ⟨_, before⟩
    · exact made
    · exact sound.bound other taken before
  apart one other taken first second := by
    rcases GoMap.get_set_eq_some.mp first with ⟨same, here⟩ | ⟨_, before⟩
    · rcases GoMap.get_set_eq_some.mp second with ⟨also, _⟩ | ⟨_, elsewhere⟩
      · rw [same, also]
      · rw [here] at elsewhere
        exact absurd elsewhere (free other)
    · rcases GoMap.get_set_eq_some.mp second with ⟨_, here⟩ | ⟨_, elsewhere⟩
      · rw [here] at before
        exact absurd before (free one)
      · exact sound.apart one other taken before elsewhere

theorem Sound.unused (sound : m.Sound) (key : K) : m.find key ≠ some m.objects.length :=
  fun found => Nat.lt_irrefl _ (sound.bound key _ found)

theorem Sound.put (sound : m.Sound) (key : K) (value : V) : (m.put key value).Sound := by
  apply (sound.alloc value).point key
  · rw [RefMap.alloc, List.length_append]
    exact Nat.lt_succ_self _
  · exact sound.unused

theorem Sound.delete (sound : m.Sound) (key : K) : (m.delete key).Sound where
  bound other ref found := sound.bound other ref (GoMap.get_delete_eq_some.mp found).2
  apart one other ref first second :=
    sound.apart one other ref (GoMap.get_delete_eq_some.mp first).2
      (GoMap.get_delete_eq_some.mp second).2

theorem Sound.modify (sound : m.Sound) (ref : Nat) (change : V → V) : (m.modify ref change).Sound where
  bound key other found := by
    have length : (m.modify ref change).objects.length = m.objects.length := List.length_modify ..
    rw [length]
    exact sound.bound key other found
  apart := sound.apart

theorem Sound.retain (sound : m.Sound) (keep : V → Bool) : (m.retain keep).Sound where
  bound key ref found := by
    rw [find_retain] at found
    exact sound.bound key ref (Option.filter_eq_some_iff.mp found).1
  apart key other ref first second := by
    rw [find_retain] at first second
    exact sound.apart key other ref (Option.filter_eq_some_iff.mp first).1
      (Option.filter_eq_some_iff.mp second).1

theorem value_retain (m : RefMap K V) (keep : V → Bool) (key : K) :
    (m.retain keep).value key = (m.value key).filter keep := by
  rw [value, find_retain, value]
  cases m.find key with
  | none => rfl
  | some ref =>
      rw [Option.filter_some, Option.bind_some]
      cases object : m.deref ref with
      | none => rfl
      | some value =>
          rw [Option.any_some, Option.filter_some]
          split
          · exact object
          · rfl

theorem value_delete (m : RefMap K V) (key other : K) :
    (m.delete key).value other = if other = key then none else m.value other := by
  rw [value, find_delete]
  split
  · rfl
  · rfl

theorem value_alloc (sound : m.Sound) (value : V) (key : K) :
    (m.alloc value).value key = m.value key := by
  rw [RefMap.value, find_alloc, RefMap.value]
  cases found : m.find key with
  | none => rfl
  | some ref =>
      have older : ref ≠ m.objects.length := Nat.ne_of_lt (sound.bound key ref found)
      rw [Option.bind_some, Option.bind_some, deref_alloc, if_neg older]

theorem value_point (m : RefMap K V) (key other : K) (ref : Nat) :
    (m.point key ref).value other = if other = key then m.deref ref else m.value other := by
  rw [value, find_point, value]
  split <;> rfl

theorem value_put (sound : m.Sound) (key other : K) (value : V) :
    (m.put key value).value other = if other = key then some value else m.value other := by
  rw [put, value_point, value_alloc sound, deref_alloc, if_pos rfl]

/-- Through a pointer that an entry holds, this entry's value changes and no other. -/
theorem value_modify (sound : m.Sound) (key other : K) (ref : Nat) (change : V → V)
    (found : m.find key = some ref) :
    (m.modify ref change).value other =
      if other = key then (m.value other).map change else m.value other := by
  rw [value, find_modify, value]
  cases entry : m.find other with
  | none =>
      split <;> rfl
  | some pointer =>
      rw [Option.bind_some, Option.bind_some, deref_modify]
      by_cases same : other = key
      · have pointed : ref = pointer := Option.some.inj (found.symm.trans (same ▸ entry))
        simp only [pointed, same, if_true]
      · have elsewhere : ref ≠ pointer := fun pointed =>
          same (sound.apart other key pointer entry (pointed ▸ found))
        simp only [elsewhere, same, if_false, Option.map_id']

end RefMap

end Lib
