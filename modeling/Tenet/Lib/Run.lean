import Mathlib.Order.Basic

/-! Finite runs of a step function: what one step keeps, every state of a run keeps. -/

namespace Lib.Run

variable {S A : Type} (step : S → A → S)

def run (start : S) (actions : List A) : S := actions.foldl step start

/-- Every step of the run is taken from a state and with an action that meet `P`. -/
def Along (P : S → A → Prop) : S → List A → Prop
  | _, [] => True
  | state, action :: rest => P state action ∧ Along P (step state action) rest

/-- Every state of the run, the first and the last included, meets `Q`. -/
def Throughout (Q : S → Prop) : S → List A → Prop
  | state, [] => Q state
  | state, action :: rest => Q state ∧ Throughout Q (step state action) rest

instance decidableAlong (P : S → A → Prop) [∀ state action, Decidable (P state action)] :
    ∀ (start : S) (actions : List A), Decidable (Along step P start actions)
  | _, [] => inferInstanceAs (Decidable True)
  | start, action :: rest =>
      haveI := decidableAlong P (step start action) rest
      inferInstanceAs (Decidable (P start action ∧ Along step P (step start action) rest))

@[simp] theorem run_cons (start : S) (action : A) (rest : List A) :
    run step start (action :: rest) = run step (step start action) rest := rfl

variable {step} {P : S → A → Prop} {Q : S → Prop}

theorem along_of_forall (start : S) (actions : List A)
    (each : ∀ action ∈ actions, ∀ state, P state action) : Along step P start actions := by
  induction actions generalizing start with
  | nil => trivial
  | cons action rest ih =>
      exact ⟨each action List.mem_cons_self start,
        ih (step start action) fun other later => each other (List.mem_cons_of_mem action later)⟩

theorem along_and {R : S → A → Prop} (start : S) (actions : List A)
    (first : Along step P start actions) (second : Along step R start actions) :
    Along step (fun state action => P state action ∧ R state action) start actions := by
  induction actions generalizing start with
  | nil => trivial
  | cons action rest ih =>
      exact ⟨⟨first.1, second.1⟩, ih (step start action) first.2 second.2⟩

theorem along_of_throughout (start : S) (actions : List A) (holds : Throughout step Q start actions)
    (allows : ∀ state action, Q state → P state action) : Along step P start actions := by
  induction actions generalizing start with
  | nil => trivial
  | cons action rest ih =>
      exact ⟨allows start action holds.1, ih (step start action) holds.2⟩

/-- The invariant rule for a whole run. -/
theorem run_keeps (start : S) (actions : List A) (initially : Q start)
    (allowed : Along step P start actions)
    (keeps : ∀ state action, Q state → P state action → Q (step state action)) :
    Q (run step start actions) := by
  induction actions generalizing start with
  | nil => exact initially
  | cons action rest ih =>
      obtain ⟨now, later⟩ := allowed
      exact ih (step start action) (keeps start action initially now) later

theorem throughout_run (start : S) (actions : List A) (holds : Throughout step Q start actions) :
    Q (run step start actions) := by
  induction actions generalizing start with
  | nil => exact holds
  | cons action rest ih => exact ih (step start action) holds.2

theorem throughout_mono {R : S → Prop} (start : S) (actions : List A)
    (holds : Throughout step Q start actions) (weaker : ∀ state, Q state → R state) :
    Throughout step R start actions := by
  induction actions generalizing start with
  | nil => exact weaker start holds
  | cons action rest ih => exact ⟨weaker start holds.1, ih (step start action) holds.2⟩

theorem throughout_keeps (start : S) (actions : List A) (initially : Q start)
    (allowed : Along step P start actions)
    (keeps : ∀ state action, Q state → P state action → Q (step state action)) :
    Throughout step Q start actions := by
  induction actions generalizing start with
  | nil => exact initially
  | cons action rest ih =>
      obtain ⟨now, later⟩ := allowed
      exact ⟨initially, ih (step start action) (keeps start action initially now) later⟩

theorem run_invariant (start : S) (actions : List A) (initially : Q start)
    (keeps : ∀ state action, Q state → Q (step state action)) : Q (run step start actions) := by
  induction actions generalizing start with
  | nil => exact initially
  | cons action rest ih => exact ih (step start action) (keeps start action initially)

theorem throughout_invariant (start : S) (actions : List A) (initially : Q start)
    (keeps : ∀ state action, Q state → Q (step state action)) : Throughout step Q start actions := by
  induction actions generalizing start with
  | nil => exact initially
  | cons action rest ih =>
      exact ⟨initially, ih (step start action) (keeps start action initially)⟩

/-- Where, among the states that an invariant describes and the actions that keep it, one step keeps
`Q` exactly when `P` allows it, a run stays in `Q` exactly when all of its steps are allowed. -/
theorem throughout_iff_along_where {I : S → Prop} {R : S → A → Prop} (start : S) (actions : List A)
    (always : I start) (initially : Q start) (holds : Along step R start actions)
    (invariant : ∀ state action, I state → R state action → I (step state action))
    (exact_step : ∀ state action, I state → R state action → Q state →
      (Q (step state action) ↔ P state action)) :
    Throughout step Q start actions ↔ Along step P start actions := by
  induction actions generalizing start with
  | nil => exact ⟨fun _ => trivial, fun _ => initially⟩
  | cons action rest ih =>
      have next := invariant start action always holds.1
      constructor
      · rintro ⟨_, later⟩
        have reached : Q (step start action) := by
          cases rest with
          | nil => exact later
          | cons _ _ => exact later.1
        exact ⟨(exact_step start action always holds.1 initially).mp reached,
          (ih (step start action) next reached holds.2).mp later⟩
      · rintro ⟨now, later⟩
        have reached := (exact_step start action always holds.1 initially).mpr now
        exact ⟨initially, (ih (step start action) next reached holds.2).mpr later⟩

theorem throughout_iff_along_under {I : S → Prop} (start : S) (actions : List A) (always : I start)
    (initially : Q start) (invariant : ∀ state action, I state → I (step state action))
    (exact_step : ∀ state action, I state → Q state → (Q (step state action) ↔ P state action)) :
    Throughout step Q start actions ↔ Along step P start actions :=
  throughout_iff_along_where (R := fun _ _ => True) start actions always initially
    (along_of_forall start actions fun _ _ _ => trivial)
    (fun state action holds _ => invariant state action holds)
    (fun state action holds _ => exact_step state action holds)

theorem throughout_iff_along (start : S) (actions : List A) (initially : Q start)
    (exact_step : ∀ state action, Q state → (Q (step state action) ↔ P state action)) :
    Throughout step Q start actions ↔ Along step P start actions :=
  throughout_iff_along_under (I := fun _ => True) start actions trivial initially
    (fun _ _ _ => trivial) (fun state action _ => exact_step state action)

end Lib.Run
