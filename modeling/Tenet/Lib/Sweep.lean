import Tenet.Lib.RefMap

/-! Going through a list of keys, taken earlier, to bring what their entries point to into some
condition. Others may go on with the map meanwhile. -/

namespace Lib.RefMap

variable {K V : Type} [DecidableEq K]

/-- Every entry is still to be visited, or its object is in hand or done. -/
def Swept (done : V → Prop) (m : RefMap K V) (left : List K) (inHand : Option Nat) : Prop :=
  ∀ key ref, m.find key = some ref →
    key ∈ left ∨ inHand = some ref ∨ ∀ object, m.deref ref = some object → done object

/-- What others may do meanwhile: they add no entry and undo no object. -/
structure Dwindles (done : V → Prop) (before after : RefMap K V) : Prop where
  entries : ∀ key ref, after.find key = some ref → before.find key = some ref
  objects : ∀ ref object, after.deref ref = some object →
    ∃ earlier, before.deref ref = some earlier ∧ (done earlier → done object)

/-- At most this object changes, and the entries that point to it. -/
structure Renews (ref : Nat) (before after : RefMap K V) : Prop where
  entries : ∀ key other, other ≠ ref → after.find key = some other → before.find key = some other
  objects : ∀ other, other ≠ ref → after.deref other = before.deref other

variable {done : V → Prop} {m after : RefMap K V} {left : List K} {inHand : Option Nat}

theorem Renews.put (m : RefMap K V) (key : K) (value : V) :
    Renews m.objects.length m (m.put key value) := by
  refine ⟨?_, ?_⟩
  · intro each other old found
    rw [find_put] at found
    split at found
    · exact absurd (Option.some.inj found).symm old
    · exact found
  · intro other old
    exact (deref_alloc m value other).trans (if_neg old)

theorem Renews.modify (m : RefMap K V) (ref : Nat) (change : V → V) :
    Renews ref m (m.modify ref change) := by
  refine ⟨fun _ _ _ found => found, ?_⟩
  intro other differs
  rw [deref_modify]
  simp only [if_neg (Ne.symm differs), Option.map_id']

theorem Dwindles.refl (m : RefMap K V) : Dwindles done m m :=
  ⟨fun _ _ found => found, fun _ object there => ⟨object, there, id⟩⟩

theorem Dwindles.delete (m : RefMap K V) (key : K) : Dwindles done m (m.delete key) :=
  ⟨fun _ _ found => (GoMap.get_delete_eq_some.mp found).2, fun _ object there => ⟨object, there, id⟩⟩

theorem Dwindles.modify (m : RefMap K V) (ref : Nat) (change : V → V)
    (keeps : ∀ object, done object → done (change object)) :
    Dwindles done m (m.modify ref change) := by
  refine ⟨fun _ _ found => found, fun other object there => ?_⟩
  rw [deref_modify] at there
  rcases Option.map_eq_some_iff.mp there with ⟨earlier, held, made⟩
  refine ⟨earlier, held, ?_⟩
  rw [← made]
  split
  · exact keeps earlier
  · exact id

theorem swept_listed (listed : ∀ key ref, m.find key = some ref → key ∈ left) :
    Swept done m left inHand :=
  fun key ref found => Or.inl (listed key ref found)

namespace Swept

theorem dwindle (swept : Swept done m left inHand) (change : Dwindles done m after) :
    Swept done after left inHand := by
  intro key ref found
  rcases swept key ref (change.entries key ref found) with listed | held | finished
  · exact Or.inl listed
  · exact Or.inr (Or.inl held)
  · refine Or.inr (Or.inr fun object there => ?_)
    rcases change.objects ref object there with ⟨earlier, held, keeps⟩
    exact keeps (finished earlier held)

theorem renew {ref : Nat} (swept : Swept done m left inHand) (change : Renews ref m after)
    (held : ∀ key, after.find key = some ref → key ∈ left ∨ inHand = some ref) :
    Swept done after left inHand := by
  intro key other found
  by_cases same : other = ref
  · subst same
    rcases held key found with listed | taken
    · exact Or.inl listed
    · exact Or.inr (Or.inl taken)
  · rw [change.objects other same]
    exact swept key other (change.entries key other same found)

theorem skip {key : K} (swept : Swept done m (key :: left) none) (gone : m.find key = none) :
    Swept done m left none := by
  intro other ref found
  rcases swept other ref found with listed | held | finished
  · rcases List.mem_cons.mp listed with rfl | later
    · rw [gone] at found
      cases found
    · exact Or.inl later
  · cases held
  · exact Or.inr (Or.inr finished)

theorem take {key : K} {ref : Nat} (swept : Swept done m (key :: left) none)
    (points : m.find key = some ref) : Swept done m left (some ref) := by
  intro other pointer found
  rcases swept other pointer found with listed | held | finished
  · rcases List.mem_cons.mp listed with rfl | later
    · rw [points] at found
      exact Or.inr (Or.inl found)
    · exact Or.inl later
  · cases held
  · exact Or.inr (Or.inr finished)

theorem finish {ref : Nat} (swept : Swept done m left (some ref)) (change : V → V)
    (brings : ∀ object, done (change object)) : Swept done (m.modify ref change) left none := by
  have kept := swept.dwindle (Dwindles.modify m ref change fun object _ => brings object)
  intro key pointer found
  rcases kept key pointer found with listed | held | finished
  · exact Or.inl listed
  · cases held
    refine Or.inr (Or.inr fun object there => ?_)
    rw [deref_modify] at there
    rcases Option.map_eq_some_iff.mp there with ⟨earlier, _, rfl⟩
    rw [if_pos rfl]
    exact brings earlier
  · exact Or.inr (Or.inr finished)

theorem value (swept : Swept done m [] none) {key : K} {object : V}
    (there : m.value key = some object) : done object := by
  rcases Option.bind_eq_some_iff.mp there with ⟨ref, found, held⟩
  rcases swept key ref found with listed | taken | finished
  · cases listed
  · cases taken
  · exact finished object held

end Swept

end Lib.RefMap
