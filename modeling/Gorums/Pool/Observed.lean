import Gorums.Pool.Ledger

/-!
# Observed runs

A machine can be run together with an observer, who notes something at every
operation and influences nothing.  Every run of the machine can be observed, and
forgetting the notes of an observed run leaves a run of the machine.
-/

namespace Gorums
namespace Pool

/-- The machine together with an observer. -/
def Machine.observed (machine : Machine σ ω κ ε) (observe : ω → κ → γ → γ) :
    Machine (σ × γ) ω κ ε where
  exec := fun shared op choice =>
    (machine.exec shared.1 op choice).map fun outcome =>
      ⟨(outcome.shared, observe op choice shared.2), outcome.next,
        outcome.spawned⟩
  env := fun shared event =>
    (machine.env shared.1 event).map fun after => (after, shared.2)

/-- A state without the notes of an observer. -/
def State.forget (state : State (σ × γ) ω) : State σ ω :=
  ⟨state.shared.1, state.threads⟩

/-- A state together with the notes of an observer. -/
def State.noted (state : State σ ω) (notes : γ) : State (σ × γ) ω :=
  ⟨(state.shared, notes), state.threads⟩

@[simp] theorem State.forget_noted (state : State σ ω) (notes : γ) :
    (state.noted notes).forget = state := rfl

namespace Machine

variable {machine : Machine σ ω κ ε} {observe : ω → κ → γ → γ}

/-- What an observed operation does. -/
theorem exec_observed {shared : σ × γ} {op : ω} {choice : κ}
    {outcome : Outcome (σ × γ) ω}
    (executed : (machine.observed observe).exec shared op choice =
      some outcome) :
    ∃ effect, machine.exec shared.1 op choice = some effect ∧
      outcome = ⟨(effect.shared, observe op choice shared.2), effect.next,
        effect.spawned⟩ := by
  obtain ⟨effect, ran, equal⟩ := Option.map_eq_some_iff.mp executed
  exact ⟨effect, ran, equal.symm⟩

/-- What the environment of an observed machine does. -/
theorem env_observed {shared after : σ × γ} {event : ε}
    (acted : (machine.observed observe).env shared event = some after) :
    machine.env shared.1 event = some after.1 ∧ after.2 = shared.2 := by
  obtain ⟨inner, ran, rfl⟩ := Option.map_eq_some_iff.mp acted
  exact ⟨ran, rfl⟩

/-- Forgetting the notes of an observed step leaves a step. -/
theorem step_forget {state next : State (σ × γ) ω} {label : Label κ ε}
    (stepped : (machine.observed observe).step state label = some next) :
    machine.step state.forget label = some next.forget := by
  cases label with
  | run thread choice =>
      simp only [step, State.forget] at stepped ⊢
      split at stepped
      · rename_i op rest found
        obtain ⟨outcome, executed, rfl⟩ := Option.map_eq_some_iff.mp stepped
        obtain ⟨effect, ran, rfl⟩ := exec_observed executed
        simp [ran]
      · cases stepped
  | env event =>
      simp only [step, State.forget] at stepped ⊢
      obtain ⟨after, acted, rfl⟩ := Option.map_eq_some_iff.mp stepped
      simp [(env_observed acted).1]

/-- Every step can be observed. -/
theorem step_noted {state next : State σ ω} {label : Label κ ε}
    (stepped : machine.step state label = some next) (notes : γ) :
    ∃ after, (machine.observed observe).step (state.noted notes) label =
      some (next.noted after) := by
  cases label with
  | run thread choice =>
      simp only [step, State.noted] at stepped ⊢
      split at stepped
      · rename_i op rest found
        obtain ⟨outcome, executed, rfl⟩ := Option.map_eq_some_iff.mp stepped
        exact ⟨observe op choice notes, by simp [observed, executed]⟩
      · cases stepped
  | env event =>
      simp only [step, State.noted] at stepped ⊢
      obtain ⟨after, acted, rfl⟩ := Option.map_eq_some_iff.mp stepped
      exact ⟨notes, by simp [observed, acted]⟩

section Runs

variable {allowed : State σ ω → Label κ ε → Prop} {start : State σ ω}
  {notes : γ}

/-- Forgetting the notes of an observed run leaves a run. -/
theorem Reach.forget {state : State (σ × γ) ω}
    (reached : (machine.observed observe).Reach
      (fun state => allowed state.forget) (start.noted notes) state) :
    machine.Reach allowed start state.forget := by
  induction reached with
  | start => exact .start
  | step label _ permitted stepped inductionHypothesis =>
      exact inductionHypothesis.step label permitted (step_forget stepped)

/-- Every run can be observed. -/
theorem Reach.noted {state : State σ ω}
    (reached : machine.Reach allowed start state) (notes : γ) :
    ∃ after, (machine.observed observe).Reach
      (fun state => allowed state.forget) (start.noted notes)
      (state.noted after) := by
  induction reached with
  | start => exact ⟨notes, .start⟩
  | step label _ permitted stepped inductionHypothesis =>
      obtain ⟨before, observed⟩ := inductionHypothesis
      obtain ⟨after, noted⟩ := step_noted stepped before
      exact ⟨after, observed.step label permitted noted⟩

end Runs

end Machine

end Pool
end Gorums
