import Mathlib.Data.List.Basic

/-!
Runs of a step function over a list of actions.

* `Along`: every action of a run meets a condition in the state where it is taken.
* `Along.invariant`: an invariant of the steps holds after the run; `Along.append`.
-/

namespace Chronos.Runs

variable {σ α : Type*} {step : σ → α → σ} {condition : σ → α → Prop}

/-- Every action of a run meets a condition in the state where it is taken. -/
def Along (step : σ → α → σ) (condition : σ → α → Prop) : σ → List α → Prop
  | _, [] => True
  | state, action :: actions =>
    condition state action ∧ Along step condition (step state action) actions

/-- What every step preserves holds after a run. -/
lemma Along.invariant (holds : σ → Prop)
    (hstep : ∀ state action, holds state → condition state action → holds (step state action))
    {actions : List α} {state : σ} (hstart : holds state)
    (halong : Along step condition state actions) : holds (actions.foldl step state) := by
  induction actions generalizing state with
  | nil => exact hstart
  | cons action actions ih => exact ih (hstep state action hstart halong.1) halong.2

/-- The two parts of a run, the second from where the first leads. -/
lemma Along.append {first second : List α} {state : σ}
    (h : Along step condition state (first ++ second)) :
    Along step condition state first ∧
      Along step condition (first.foldl step state) second := by
  induction first generalizing state with
  | nil => exact ⟨trivial, h⟩
  | cons action first ih => exact ⟨⟨h.1, (ih h.2).1⟩, (ih h.2).2⟩

instance Along.decidable [∀ state action, Decidable (condition state action)] :
    ∀ (state : σ) (actions : List α), Decidable (Along step condition state actions)
  | _, [] => inferInstanceAs (Decidable True)
  | state, action :: actions =>
    have := Along.decidable (step state action) actions
    inferInstanceAs (Decidable (condition state action ∧ _))

end Chronos.Runs
