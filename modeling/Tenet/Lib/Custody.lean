import Mathlib.Data.Option.Basic

/-! Items that pass from place to place: what it takes for none of them to get lost. -/

namespace Lib.Custody

variable {Place Item : Type}

def Single (holds : Place → Item → Prop) : Prop :=
  ∀ item place other, holds place item → holds other item → place = other

/-- What is at a place goes to where `route` takes it, if anywhere, and what is `made` is new. -/
def Moves (before after : Place → Item → Prop) (route : Place → Option Place)
    (made : Option (Place × Item)) : Prop :=
  ∀ place item, after place item ↔
    (∃ origin, before origin item ∧ route origin = some place) ∨ made = some (place, item)

def Accounted (holds : Place → Item → Prop) (counts : Place → Prop) (items : Item → Prop) : Prop :=
  ∀ item, items item → ∃ place, holds place item ∧ counts place

/-- No occupied place that counts is left for one that does not. -/
def Forwards (holds : Place → Item → Prop) (counts after : Place → Prop)
    (route : Place → Option Place) : Prop :=
  ∀ place item, holds place item → counts place → ∃ next, route place = some next ∧ after next

variable {before after : Place → Item → Prop} {route : Place → Option Place}
  {made : Option (Place × Item)}

theorem Single.moves (single : Single before) (moves : Moves before after route made)
    (new : ∀ place item, made = some (place, item) → ∀ origin, ¬ before origin item) :
    Single after := by
  intro item place other here there
  rcases (moves place item).mp here with ⟨origin, held, goes⟩ | born
  · rcases (moves other item).mp there with ⟨start, also, leads⟩ | born
    · rw [single item origin start held also] at goes
      exact Option.some.inj (goes.symm.trans leads)
    · exact absurd held (new other item born origin)
  · rcases (moves other item).mp there with ⟨start, also, _⟩ | again
    · exact absurd also (new place item born start)
    · exact (Prod.mk.inj (Option.some.inj (born.symm.trans again))).1

/-- A step loses nothing exactly when it forwards everything that counted. -/
theorem accounted_iff_forwards {counts counts' : Place → Prop} {items items' : Item → Prop}
    (single : Single before) (known : ∀ place item, before place item → items item)
    (moves : Moves before after route made)
    (new : ∀ place item, made = some (place, item) → ¬ items item ∧ counts' place)
    (grown : ∀ item, items' item ↔ items item ∨ ∃ place, made = some (place, item))
    (kept : Accounted before counts items) :
    Accounted after counts' items' ↔ Forwards before counts counts' route := by
  constructor
  · intro still place item held counted
    obtain ⟨next, holding, count⟩ := still item ((grown item).mpr (Or.inl (known place item held)))
    rcases (moves next item).mp holding with ⟨origin, was, goes⟩ | born
    · rw [single item origin place was held] at goes
      exact ⟨next, goes, count⟩
    · exact absurd (known place item held) (new next item born).1
  · intro forwards item present
    rcases (grown item).mp present with old | ⟨place, born⟩
    · obtain ⟨place, held, counted⟩ := kept item old
      obtain ⟨next, goes, count⟩ := forwards place item held counted
      exact ⟨next, (moves next item).mpr (Or.inl ⟨place, held, goes⟩), count⟩
    · exact ⟨place, (moves place item).mpr (Or.inr born), (new place item born).2⟩

end Lib.Custody
