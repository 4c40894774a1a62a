import Mathlib.Data.List.Basic
import Mathlib.Data.List.Flatten

/-!
# Interleaved goroutines

A machine runs a pool of threads over one shared state.  A thread is the list
of atomic operations it still has to execute.  Executing the first operation
changes the shared state, puts the operations that follow from it in front of
the rest of the thread, and may start new threads.  Everything that the
scheduler and the environment decide is an explicit choice, so a step is a
function and a run can be evaluated.
-/

namespace Gorums

/-- The progress of a `sync.Once`. -/
inductive Once
  | fresh
  | running
  | done
  deriving DecidableEq

namespace Pool

@[simp] theorem forall_mem_ite {condition : Prop} [Decidable condition]
    {first second : List α} {property : α → Prop} :
    (∀ op ∈ if condition then first else second, property op) ↔
      (condition → ∀ op ∈ first, property op) ∧
        (¬ condition → ∀ op ∈ second, property op) := by
  split <;> simp_all

/-- The effect of one atomic operation. -/
structure Outcome (σ ω : Type) where
  /-- The shared state after the operation. -/
  shared : σ
  /-- What the executing thread does before it continues. -/
  next : List ω := []
  /-- The threads that the operation starts. -/
  spawned : List (List ω) := []

/-- A machine with shared states `σ`, operations `ω`, choices `κ` and
environment events `ε`. -/
structure Machine (σ ω κ ε : Type) where
  /-- Execute one operation; `none` means that it is blocked. -/
  exec : σ → ω → κ → Option (Outcome σ ω)
  /-- Let the environment act. -/
  env : σ → ε → Option σ

/-- A shared state together with the threads that run on it. -/
structure State (σ ω : Type) where
  /-- The shared state. -/
  shared : σ
  /-- The operations each thread still has to execute. -/
  threads : List (List ω)

/-- What happens in one step of a run. -/
inductive Label (κ ε : Type)
  | run (thread : Nat) (choice : κ)
  | env (event : ε)

namespace State

/-- All operations that some thread still has to execute. -/
def ops (state : State σ ω) : List ω :=
  state.threads.flatten

/-- The first operation of a thread. -/
def head? (state : State σ ω) (thread : Nat) : Option ω :=
  (state.threads[thread]?).bind List.head?

end State

namespace Machine

/-- One step of the machine. -/
def step (machine : Machine σ ω κ ε) (state : State σ ω) :
    Label κ ε → Option (State σ ω)
  | .run thread choice =>
      match state.threads[thread]? with
      | some (op :: rest) =>
          (machine.exec state.shared op choice).map fun outcome =>
            { shared := outcome.shared
              threads := state.threads.set thread (outcome.next ++ rest) ++
                outcome.spawned }
      | _ => none
  | .env event =>
      (machine.env state.shared event).map fun shared =>
        { state with shared := shared }

/-- The states that a run reaches when every step of it is allowed. -/
inductive Reach (machine : Machine σ ω κ ε)
    (allowed : State σ ω → Label κ ε → Prop)
    (start : State σ ω) : State σ ω → Prop
  | start : Reach machine allowed start start
  | step {state next : State σ ω} (label : Label κ ε) :
      Reach machine allowed start state →
      allowed state label →
      machine.step state label = some next →
      Reach machine allowed start next

/-- Follow a list of labels, as long as a check accepts each step. -/
def follow (machine : Machine σ ω κ ε)
    (check : State σ ω → Label κ ε → Bool)
    (state : State σ ω) : List (Label κ ε) → Option (State σ ω)
  | [] => some state
  | label :: labels =>
      if check state label then
        (machine.step state label).bind fun next =>
          machine.follow check next labels
      else none

/-- A state that an accepted list of labels leads to is reachable. -/
theorem reach_of_follow
    {machine : Machine σ ω κ ε}
    {check : State σ ω → Label κ ε → Bool}
    {allowed : State σ ω → Label κ ε → Prop}
    (sound : ∀ state label, check state label = true → allowed state label)
    {start state final : State σ ω}
    (reached : machine.Reach allowed start state)
    (labels : List (Label κ ε))
    (followed : machine.follow check state labels = some final) :
    machine.Reach allowed start final := by
  induction labels generalizing state with
  | nil =>
      simp only [follow, Option.some.injEq] at followed
      rw [← followed]
      exact reached
  | cons label labels inductionHypothesis =>
      simp only [follow] at followed
      split at followed
      · rename_i accepted
        obtain ⟨next, stepped, rest⟩ := Option.bind_eq_some_iff.mp followed
        exact inductionHypothesis
          (reached.step label (sound state label accepted) stepped) rest
      · exact absurd followed (by simp)

/-- The state at the end of a list of accepted labels that can be followed. -/
theorem reach_of_isSome
    {machine : Machine σ ω κ ε}
    {check : State σ ω → Label κ ε → Bool}
    {allowed : State σ ω → Label κ ε → Prop}
    (sound : ∀ state label, check state label = true → allowed state label)
    {start : State σ ω} {labels : List (Label κ ε)}
    (followed : (machine.follow check start labels).isSome = true) :
    machine.Reach allowed start
      ((machine.follow check start labels).get followed) :=
  reach_of_follow sound .start labels (Option.some_get followed).symm

/-- A run can be continued. -/
theorem Reach.trans
    {machine : Machine σ ω κ ε}
    {allowed : State σ ω → Label κ ε → Prop}
    {start state later : State σ ω}
    (reached : machine.Reach allowed start state)
    (continued : machine.Reach allowed state later) :
    machine.Reach allowed start later := by
  induction continued with
  | start => exact reached
  | step label _ permitted stepped inductionHypothesis =>
      exact inductionHypothesis.step label permitted stepped

/-- The thread that a step runs, its operation, and the effect on the pool. -/
structure Runs (machine : Machine σ ω κ ε)
    (state : State σ ω) (thread : Nat) (choice : κ) (next : State σ ω) where
  /-- The threads in front of the running one. -/
  before : List (List ω)
  /-- The threads behind the running one. -/
  after : List (List ω)
  /-- The operation that the step executes. -/
  op : ω
  /-- What is left of the running thread. -/
  rest : List ω
  /-- The effect of the operation. -/
  outcome : Outcome σ ω
  /-- The running thread stands at its index. -/
  index : before.length = thread
  /-- The pool before the step. -/
  threads_eq : state.threads = before ++ (op :: rest) :: after
  /-- The operation has this effect. -/
  exec_eq : machine.exec state.shared op choice = some outcome
  /-- The pool after the step. -/
  next_eq : next =
    { shared := outcome.shared
      threads := before ++ (outcome.next ++ rest) :: (after ++ outcome.spawned) }

/-- Inversion of one step. -/
theorem step_cases
    {machine : Machine σ ω κ ε}
    {state next : State σ ω}
    {label : Label κ ε}
    (stepped : machine.step state label = some next) :
    (∃ thread choice, label = .run thread choice ∧
        Nonempty (machine.Runs state thread choice next)) ∨
      (∃ event shared, label = .env event ∧
        machine.env state.shared event = some shared ∧
        next = { state with shared := shared }) := by
  cases label with
  | run thread choice =>
      refine .inl ⟨thread, choice, rfl, ?_⟩
      simp only [step] at stepped
      split at stepped
      · rename_i op rest found
        obtain ⟨outcome, executed, equal⟩ := Option.map_eq_some_iff.mp stepped
        obtain ⟨inside, foundEq⟩ := List.getElem?_eq_some_iff.mp found
        refine ⟨⟨state.threads.take thread, state.threads.drop (thread + 1),
          op, rest, outcome, ?_, ?_, executed, ?_⟩⟩
        · simp [Nat.min_eq_left (Nat.le_of_lt inside)]
        · rw [← foundEq]
          simp
        · rw [← equal, List.set_eq_take_append_cons_drop, if_pos inside]
          simp
      · exact absurd stepped (by simp)
  | env event =>
      refine .inr ⟨event, ?_⟩
      simp only [step] at stepped
      obtain ⟨shared, acted, equal⟩ := Option.map_eq_some_iff.mp stepped
      exact ⟨shared, rfl, acted, equal.symm⟩

/-- An invariant of every reachable state: it holds at the start, and every
allowed step from a reachable state keeps it. -/
theorem Reach.invariant
    {machine : Machine σ ω κ ε}
    {allowed : State σ ω → Label κ ε → Prop}
    {start : State σ ω}
    (property : State σ ω → Prop)
    (initial : property start)
    (preserved : ∀ state label next,
      machine.Reach allowed start state → property state →
      allowed state label → machine.step state label = some next →
      property next)
    {state : State σ ω}
    (reached : machine.Reach allowed start state) :
    property state := by
  induction reached with
  | start => exact initial
  | step label reached permitted stepped inductionHypothesis =>
      exact preserved _ label _ reached inductionHypothesis permitted stepped

end Machine

end Pool
end Gorums
