import Mathlib.Order.Basic

/-! Objects that readers look up and use afterwards, while others make them unreachable and then close
them. Neither side tells the other how far it is. -/

namespace Lib

/-- `linked` can be looked up, `held` have been looked up and are about to be used. -/
structure Loans (O : Type) where
  linked : O → Prop
  held : O → Prop
  closed : O → Prop

namespace Loans

variable {O : Type} {m m' : Loans O} {object : O}

def Safe (m : Loans O) : Prop := ∀ object, m.held object → ¬m.closed object

def Sound (m : Loans O) : Prop := ∀ object, m.linked object → ¬m.closed object

/-- Nothing is closed. Readers take only what they can look up, and what is linked anew is open. -/
structure Keeps (m m' : Loans O) : Prop where
  linked : ∀ object, m'.linked object → m.linked object ∨ ¬m.closed object
  held : ∀ object, m'.held object → m.held object ∨ m.linked object
  closed : ∀ object, m'.closed object → m.closed object

/-- An object that nobody can look up any more is closed. -/
structure Closes (m m' : Loans O) (object : O) : Prop where
  unlinked : ¬m.linked object
  linked : ∀ other, m'.linked other → m.linked other
  held : ∀ other, m'.held other ↔ m.held other
  closed : ∀ other, m'.closed other ↔ m.closed other ∨ other = object

theorem Keeps.sound (keeps : Keeps m m') (sound : m.Sound) : m'.Sound := by
  intro object linked closed
  rcases keeps.linked object linked with before | opened
  · exact sound object before (keeps.closed object closed)
  · exact opened (keeps.closed object closed)

theorem Keeps.safe (keeps : Keeps m m') (sound : m.Sound) (safe : m.Safe) : m'.Safe := by
  intro object held closed
  rcases keeps.held object held with before | linked
  · exact safe object before (keeps.closed object closed)
  · exact sound object linked (keeps.closed object closed)

theorem Closes.sound (closes : Closes m m' object) (sound : m.Sound) : m'.Sound := by
  intro other linked closed
  have before := closes.linked other linked
  rcases (closes.closed other).mp closed with earlier | rfl
  · exact sound other before earlier
  · exact closes.unlinked before

/-- Being unreachable is not enough: a reader may have looked the object up before. -/
theorem Closes.safe_iff (closes : Closes m m' object) (safe : m.Safe) :
    m'.Safe ↔ ¬m.held object := by
  constructor
  · intro after held
    exact after object ((closes.held object).mpr held) ((closes.closed object).mpr (Or.inr rfl))
  · intro unheld other held closed
    have before := (closes.held other).mp held
    rcases (closes.closed other).mp closed with earlier | rfl
    · exact safe other before earlier
    · exact unheld before

end Loans

end Lib
