import Gorums.Pool.Ledger

/-!
# Runs that end

A machine whose steps make a weight smaller does not run forever.  Together with
a proof that it only stops in certain states, this gives what holds at the end
of every run.
-/

namespace Gorums
namespace Pool
namespace Machine

variable {machine : Machine σ ω κ ε}

/-- No run from the state goes on forever. -/
def Terminates (machine : Machine σ ω κ ε) (state : State σ ω) : Prop :=
  Acc (fun next current => ∃ label, machine.step current label = some next)
    state

/-- The machine cannot take another step. -/
def Stopped (machine : Machine σ ω κ ε) (state : State σ ω) : Prop :=
  ∀ label, machine.step state label = none

/-- A machine terminates if every step from a state with an invariant keeps the
invariant and makes the weight smaller. -/
theorem terminates_of_weight (invariant : State σ ω → Prop)
    (weight : State σ ω → Nat)
    (decreases : ∀ state label next, invariant state →
      machine.step state label = some next →
      invariant next ∧ weight next < weight state)
    {state : State σ ω} (holds : invariant state) :
    machine.Terminates state := by
  have bounded : ∀ bound state, invariant state → weight state < bound →
      machine.Terminates state := by
    intro bound
    induction bound with
    | zero => exact fun _ _ impossible => absurd impossible (Nat.not_lt_zero _)
    | succ bound inductionHypothesis =>
        intro state holds small
        apply Acc.intro
        rintro next ⟨label, stepped⟩
        obtain ⟨still, less⟩ := decreases state label next holds stepped
        exact inductionHypothesis next still (by omega)
  exact bounded _ state holds (Nat.lt_succ_self _)

/-- A machine with one thread and no environment executes the next operation of
the thread. -/
theorem step_sole {machine : Machine σ ω κ Empty} {state next : State σ ω}
    {label : Label κ Empty} {ops : List ω} (alone : state.threads = [ops])
    (stepped : machine.step state label = some next) :
    ∃ op rest choice outcome, ops = op :: rest ∧
      machine.exec state.shared op choice = some outcome ∧
      next = ⟨outcome.shared, (outcome.next ++ rest) :: outcome.spawned⟩ := by
  rcases step_cases stepped with
    ⟨thread, choice, _, ⟨runs⟩⟩ | ⟨event, _⟩
  · have split := runs.threads_eq
    rw [alone, eq_comm, List.append_eq_singleton_iff] at split
    rcases split with ⟨before, rest⟩ | ⟨_, none⟩
    · obtain ⟨running, after⟩ := List.cons.inj rest
      refine ⟨runs.op, runs.rest, choice, runs.outcome, running.symm,
        runs.exec_eq, ?_⟩
      refine runs.next_eq.trans ?_
      rw [before, after]
      rfl
    · cases none
  · cases event

/-- A machine with one thread stops if the next operation of the thread is
blocked, or if there is none. -/
theorem stopped_sole {machine : Machine σ ω κ ε} {state : State σ ω} {op : ω}
    {rest : List ω} (alone : state.threads = [op :: rest])
    (stopped : machine.Stopped state) (choice : κ) :
    machine.exec state.shared op choice = none := by
  have blocked := stopped (.run 0 choice)
  simpa [step, alone] using blocked

end Machine
end Pool
end Gorums
