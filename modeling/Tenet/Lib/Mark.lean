import Mathlib.Order.Basic

/-! A mark that says that someone is at work. Whoever finds it clear sets it, and clears it when the
work is done; but others may clear it too, and nobody can tell whose mark it is. -/

namespace Lib

/-- `owner` set the mark that is on, `inside` are at work, and `lost` are those whose mark somebody
else has cleared. -/
structure Mark where
  owner : Option Nat
  inside : Nat → Prop
  lost : Nat → Prop

namespace Mark

variable {m m' : Mark} {i : Nat}

def Exclusive (m : Mark) : Prop := ∀ i j, m.inside i → m.inside j → i = j

/-- Nobody is at work whose mark has been cleared. -/
def Intact (m : Mark) : Prop := ∀ i, m.lost i → ¬m.inside i

structure Sound (m : Mark) : Prop where
  held : ∀ i, m.owner = some i → m.inside i ∧ ¬m.lost i
  accounted : ∀ i, m.inside i → m.owner = some i ∨ m.lost i

structure Keeps (m m' : Mark) : Prop where
  owner : m'.owner = m.owner
  inside : ∀ j, m'.inside j ↔ m.inside j
  lost : ∀ j, m'.lost j ↔ m.lost j

structure Takes (m m' : Mark) (i : Nat) : Prop where
  free : m.owner = none
  fresh : ¬m.inside i ∧ ¬m.lost i
  owner : m'.owner = some i
  inside : ∀ j, m'.inside j ↔ m.inside j ∨ j = i
  lost : ∀ j, m'.lost j ↔ m.lost j

/-- Clears the mark, whoever set it. -/
structure Releases (m m' : Mark) (i : Nat) : Prop where
  owner : m'.owner = none
  inside : ∀ j, m'.inside j ↔ m.inside j ∧ j ≠ i
  lost : ∀ j, m'.lost j ↔ m.lost j ∨ m.owner = some j ∧ j ≠ i

structure Clears (m m' : Mark) : Prop where
  owner : m'.owner = none
  inside : ∀ j, m'.inside j ↔ m.inside j
  lost : ∀ j, m'.lost j ↔ m.lost j ∨ m.owner = some j

theorem Keeps.sound (keeps : Keeps m m') (sound : Sound m) : Sound m' := by
  constructor
  · intro j owns
    rw [keeps.inside, keeps.lost]
    exact sound.held j (keeps.owner ▸ owns)
  · intro j works
    rw [keeps.owner, keeps.lost]
    exact sound.accounted j ((keeps.inside j).mp works)

theorem Takes.sound (takes : Takes m m' i) (sound : Sound m) : Sound m' := by
  constructor
  · intro j owns
    obtain rfl : i = j := Option.some.inj (takes.owner.symm.trans owns)
    rw [takes.inside, takes.lost]
    exact ⟨Or.inr rfl, takes.fresh.2⟩
  · intro j works
    rw [takes.owner, takes.lost]
    rcases (takes.inside j).mp works with before | rfl
    · rcases sound.accounted j before with owns | lost
      · rw [takes.free] at owns
        cases owns
      · exact Or.inr lost
    · exact Or.inl rfl

theorem Releases.sound (releases : Releases m m' i) (sound : Sound m) : Sound m' := by
  constructor
  · intro j owns
    rw [releases.owner] at owns
    cases owns
  · intro j works
    rw [releases.lost]
    obtain ⟨before, other⟩ := (releases.inside j).mp works
    rcases sound.accounted j before with owns | lost
    · exact Or.inr (Or.inr ⟨owns, other⟩)
    · exact Or.inr (Or.inl lost)

theorem Clears.sound (clears : Clears m m') (sound : Sound m) : Sound m' := by
  constructor
  · intro j owns
    rw [clears.owner] at owns
    cases owns
  · intro j works
    rw [clears.lost]
    exact Or.inr ((sound.accounted j ((clears.inside j).mp works)).symm)

theorem Keeps.exclusive (keeps : Keeps m m') (exclusive : m.Exclusive) : m'.Exclusive :=
  fun j k one other => exclusive j k ((keeps.inside j).mp one) ((keeps.inside k).mp other)

theorem Releases.exclusive (releases : Releases m m' i) (exclusive : m.Exclusive) : m'.Exclusive :=
  fun j k one other =>
    exclusive j k ((releases.inside j).mp one).1 ((releases.inside k).mp other).1

theorem Clears.exclusive (clears : Clears m m') (exclusive : m.Exclusive) : m'.Exclusive :=
  fun j k one other => exclusive j k ((clears.inside j).mp one) ((clears.inside k).mp other)

/-- The mark keeps a second one out as long as it is not cleared for the first. -/
theorem Takes.exclusive_iff (takes : Takes m m' i) (sound : Sound m) :
    m'.Exclusive ↔ m.Intact := by
  constructor
  · intro exclusive j _ works
    have same := exclusive j i ((takes.inside j).mpr (Or.inl works))
      ((takes.inside i).mpr (Or.inr rfl))
    exact takes.fresh.1 (same ▸ works)
  · intro intact
    -- nobody is at work: the mark is clear, and none that is at work has lost it
    have empty (j : Nat) : ¬m.inside j := by
      intro works
      rcases sound.accounted j works with owns | lost
      · rw [takes.free] at owns
        cases owns
      · exact intact j lost works
    intro j k one other
    rcases (takes.inside j).mp one with before | rfl
    · exact absurd before (empty j)
    · rcases (takes.inside k).mp other with before | rfl
      · exact absurd before (empty k)
      · rfl

theorem intact_of_owner (sound : Sound m) (exclusive : m.Exclusive) (on : m.owner = some i) :
    m.Intact := by
  intro j lost works
  obtain ⟨works', unlost⟩ := sound.held i on
  exact unlost (exclusive i j works' works ▸ lost)

theorem owner_of_exclusive (sound : Sound m) (exclusive : m.Exclusive) (works : m.inside i)
    (on : m.owner ≠ none) : m.owner = some i := by
  obtain ⟨j, owns⟩ := Option.ne_none_iff_exists'.mp on
  rw [owns, exclusive j i (sound.held j owns).1 works]

end Mark

end Lib
