import Gorums.Pool.Machine
import Mathlib.Algebra.GroupWithZero.Nat
import Mathlib.Algebra.Order.BigOperators.Group.List
import Mathlib.Algebra.Order.Group.Nat

/-!
# Rules for invariants of a pool

These rules carry the invariants of a pool of threads.  A *ledger* weighs the
operations that are still to be executed against two counts of the shared
state, and stays balanced if every single operation keeps it balanced.  An
*annotation* attaches an assertion to each operation that is still to be
executed.  A *shape* is a property of the operations of one thread, such as
that every operation of one kind is followed by one of another kind.
-/

namespace Gorums
namespace Pool

namespace Machine.Runs

variable {machine : Machine σ ω κ ε} {state next : State σ ω}
  {thread : Nat} {choice : κ}

theorem head? (runs : machine.Runs state thread choice next) :
    state.head? thread = some runs.op := by
  have index := runs.index
  simp [State.head?, runs.threads_eq, index]

/-- The step that the operation takes. -/
theorem step_eq (runs : machine.Runs state thread choice next) :
    machine.step state (.run thread choice) = some next := by
  have index := runs.index
  simp [Machine.step, runs.threads_eq, runs.exec_eq, runs.next_eq, index]

/-- The operations of the pool other than the one that the step executes. -/
def others (runs : machine.Runs state thread choice next) : List ω :=
  runs.before.flatten ++ (runs.rest ++ runs.after.flatten)

/-- What the operation leaves to be executed. -/
def fresh (runs : machine.Runs state thread choice next) : List ω :=
  runs.outcome.next ++ runs.outcome.spawned.flatten

theorem ops_perm (runs : machine.Runs state thread choice next) :
    state.ops.Perm (runs.op :: runs.others) := by
  rw [State.ops, runs.threads_eq, others]
  simp only [List.flatten_append, List.flatten_cons, List.cons_append]
  exact List.perm_middle

theorem next_shared (runs : machine.Runs state thread choice next) :
    next.shared = runs.outcome.shared :=
  congrArg State.shared runs.next_eq

theorem next_threads (runs : machine.Runs state thread choice next) :
    next.threads = runs.before ++
      (runs.outcome.next ++ runs.rest) ::
        (runs.after ++ runs.outcome.spawned) :=
  congrArg State.threads runs.next_eq

theorem next_ops_perm (runs : machine.Runs state thread choice next) :
    next.ops.Perm (runs.fresh ++ runs.others) := by
  rw [State.ops, runs.next_threads, others, fresh]
  simp only [List.flatten_append, List.flatten_cons, List.append_assoc]
  refine (List.perm_append_comm_assoc _ _ _).trans (List.Perm.append_left _ ?_)
  refine (List.Perm.append_left _ (List.Perm.append_left _
    List.perm_append_comm)).trans ?_
  refine (List.Perm.append_left _
    (List.perm_append_comm_assoc _ _ _)).trans ?_
  exact List.perm_append_comm_assoc _ _ _

theorem op_mem (runs : machine.Runs state thread choice next) :
    runs.op ∈ state.ops :=
  runs.ops_perm.mem_iff.mpr (by simp)

theorem mem_of_others (runs : machine.Runs state thread choice next)
    {op : ω} (other : op ∈ runs.others) : op ∈ state.ops :=
  runs.ops_perm.mem_iff.mpr (by simp [other])

theorem mem_next_ops (runs : machine.Runs state thread choice next)
    {op : ω} : op ∈ next.ops ↔ op ∈ runs.fresh ∨ op ∈ runs.others := by
  rw [runs.next_ops_perm.mem_iff, List.mem_append]

end Machine.Runs

/-! ## Ledgers -/

/-- Two counts of the shared state and a weight for each operation. -/
structure Ledger (σ ω : Type) where
  /-- What the shared state holds. -/
  credit : σ → Nat := fun _ => 0
  /-- What the shared state says the operations hold. -/
  debit : σ → Nat := fun _ => 0
  /-- What an operation holds. -/
  weight : ω → Nat

namespace Ledger

variable {ledger : Ledger σ ω}

/-- What a list of operations holds. -/
def weigh (ledger : Ledger σ ω) (ops : List ω) : Nat :=
  (ops.map ledger.weight).sum

@[simp] theorem weigh_nil : ledger.weigh [] = 0 := rfl

@[simp] theorem weigh_cons (op : ω) (ops : List ω) :
    ledger.weigh (op :: ops) = ledger.weight op + ledger.weigh ops := by
  simp [weigh]

@[simp] theorem weigh_append (front back : List ω) :
    ledger.weigh (front ++ back) = ledger.weigh front + ledger.weigh back := by
  simp [weigh]

@[simp] theorem weigh_ite (condition : Prop) [Decidable condition]
    (first second : List ω) :
    ledger.weigh (if condition then first else second) =
      if condition then ledger.weigh first else ledger.weigh second := by
  split <;> rfl

theorem weigh_perm (ledger : Ledger σ ω)
    {front back : List ω} (permuted : front.Perm back) :
    ledger.weigh front = ledger.weigh back :=
  (permuted.map ledger.weight).sum_eq

/-- Operations that weigh nothing one by one weigh nothing together. -/
theorem weigh_eq_zero {ops : List ω}
    (light : ∀ op ∈ ops, ledger.weight op = 0) :
    ledger.weigh ops = 0 := by
  refine List.sum_eq_zero fun weight member => ?_
  obtain ⟨op, inside, equal⟩ := List.mem_map.mp member
  rw [← equal]
  exact light op inside

/-- Operations that weigh something together include one that does. -/
theorem exists_of_weigh_pos {ops : List ω} (heavy : 0 < ledger.weigh ops) :
    ∃ op ∈ ops, 0 < ledger.weight op := by
  by_contra light
  simp only [not_exists, not_and, Nat.not_lt, Nat.le_zero] at light
  rw [weigh_eq_zero light] at heavy
  exact Nat.lt_irrefl 0 heavy

/-- Weights of at most one count the operations that have them. -/
theorem weigh_eq_countP (holds : ω → Bool)
    (weight : ∀ op, ledger.weight op = (holds op).toNat) (ops : List ω) :
    ledger.weigh ops = ops.countP holds := by
  induction ops with
  | nil => rfl
  | cons op ops inductionHypothesis =>
      rw [weigh_cons, weight, inductionHypothesis, List.countP_cons, Nat.add_comm]
      cases holds op <;> rfl

theorem weight_le_weigh {ops : List ω} {op : ω} (member : op ∈ ops) :
    ledger.weight op ≤ ledger.weigh ops :=
  List.single_le_sum (by simp) _ (List.mem_map_of_mem member)

/-- Two different operations together weigh at most the pool. -/
theorem weight_add_weight_le_of_ne {ops : List ω} {first second : ω}
    (one : first ∈ ops) (two : second ∈ ops) (different : first ≠ second) :
    ledger.weight first + ledger.weight second ≤ ledger.weigh ops := by
  obtain ⟨front, back, rfl⟩ := List.append_of_mem one
  simp only [weigh_append, weigh_cons]
  rcases List.mem_append.mp two with inside | inside
  · have light := ledger.weight_le_weigh inside
    omega
  · rcases List.mem_cons.mp inside with same | inside
    · exact absurd same.symm different
    · have light := ledger.weight_le_weigh inside
      omega

/-- The running operation and any other one together weigh at most the pool. -/
theorem weight_add_weight_le
    {machine : Machine σ ω κ ε} {state next : State σ ω}
    {thread : Nat} {choice : κ}
    (runs : machine.Runs state thread choice next)
    {op : ω} (other : op ∈ runs.others) :
    ledger.weight runs.op + ledger.weight op ≤ ledger.weigh state.ops := by
  rw [ledger.weigh_perm runs.ops_perm, weigh_cons]
  exact Nat.add_le_add_left (weight_le_weigh other) _

/-- What there is after the effect of one operation. -/
def worth (ledger : Ledger σ ω) (outcome : Outcome σ ω) : Nat :=
  ledger.credit outcome.shared + ledger.weigh outcome.next +
    ledger.weigh outcome.spawned.flatten

@[simp] theorem worth_mk (shared : σ) (next : List ω)
    (spawned : List (List ω)) :
    ledger.worth ⟨shared, next, spawned⟩ =
      ledger.credit shared + ledger.weigh next +
        ledger.weigh spawned.flatten := rfl

/-- The effect of one operation keeps the ledger balanced. -/
def Keeps (ledger : Ledger σ ω) (shared : σ) (op : ω)
    (outcome : Outcome σ ω) : Prop :=
  ledger.worth outcome + ledger.debit shared =
    ledger.credit shared + ledger.weight op + ledger.debit outcome.shared

/-- The effect of one operation never lets the ledger grow. -/
def Bounds (ledger : Ledger σ ω) (shared : σ) (op : ω)
    (outcome : Outcome σ ω) : Prop :=
  ledger.worth outcome + ledger.debit shared ≤
    ledger.credit shared + ledger.weight op + ledger.debit outcome.shared

/-- A ledger that every allowed step keeps balanced stays balanced in every
run.  A step may use that the ledger has been balanced so far. -/
theorem conserved (ledger : Ledger σ ω)
    {machine : Machine σ ω κ ε}
    {allowed : State σ ω → Label κ ε → Prop}
    {start : State σ ω}
    (keeps : ∀ {state thread choice next}
      (runs : machine.Runs state thread choice next),
      machine.Reach allowed start state →
      allowed state (.run thread choice) →
      ledger.credit state.shared + ledger.weight runs.op +
          ledger.debit start.shared ≤
        ledger.credit start.shared + ledger.weigh start.ops +
          ledger.debit state.shared →
      ledger.Keeps state.shared runs.op runs.outcome)
    (environment : ∀ shared event shared',
      machine.env shared event = some shared' →
      ledger.credit shared' = ledger.credit shared ∧
        ledger.debit shared' = ledger.debit shared)
    {state : State σ ω}
    (reached : machine.Reach allowed start state) :
    ledger.credit state.shared + ledger.weigh state.ops +
        ledger.debit start.shared =
      ledger.credit start.shared + ledger.weigh start.ops +
        ledger.debit state.shared := by
  refine reached.invariant
    (fun state => ledger.credit state.shared + ledger.weigh state.ops +
        ledger.debit start.shared =
      ledger.credit start.shared + ledger.weigh start.ops +
        ledger.debit state.shared) rfl ?_
  intro state label next reached balance permitted stepped
  rcases Machine.step_cases stepped with
    ⟨thread, choice, rfl, ⟨runs⟩⟩ | ⟨event, shared, rfl, acted, rfl⟩
  · have before := ledger.weigh_perm runs.ops_perm
    have after := ledger.weigh_perm runs.next_ops_perm
    simp only [weigh_cons, weigh_append, Machine.Runs.fresh] at before after
    have kept := keeps runs reached permitted (by omega)
    unfold Keeps worth at kept
    rw [runs.next_shared]
    omega
  · obtain ⟨sameCredit, sameDebit⟩ := environment _ _ _ acted
    simp only [State.ops] at balance ⊢
    omega

/-- A ledger that every operation keeps balanced stays balanced in every run.
An operation may use that the ledger has been balanced so far. -/
theorem balanced (ledger : Ledger σ ω)
    {machine : Machine σ ω κ ε}
    {allowed : State σ ω → Label κ ε → Prop}
    {start : State σ ω}
    (keeps : ∀ shared op choice outcome,
      machine.exec shared op choice = some outcome →
      ledger.credit shared + ledger.weight op + ledger.debit start.shared ≤
        ledger.credit start.shared + ledger.weigh start.ops +
          ledger.debit shared →
      ledger.Keeps shared op outcome)
    (environment : ∀ shared event shared',
      machine.env shared event = some shared' →
      ledger.credit shared' = ledger.credit shared ∧
        ledger.debit shared' = ledger.debit shared)
    {state : State σ ω}
    (reached : machine.Reach allowed start state) :
    ledger.credit state.shared + ledger.weigh state.ops +
        ledger.debit start.shared =
      ledger.credit start.shared + ledger.weigh start.ops +
        ledger.debit state.shared :=
  ledger.conserved (fun runs _ _ => keeps _ _ _ _ runs.exec_eq) environment
    reached

/-- A ledger that no allowed step lets grow stays below its first value. -/
theorem bounded (ledger : Ledger σ ω)
    {machine : Machine σ ω κ ε}
    {allowed : State σ ω → Label κ ε → Prop}
    {start : State σ ω}
    (bounds : ∀ {state thread choice next}
      (runs : machine.Runs state thread choice next),
      machine.Reach allowed start state →
      allowed state (.run thread choice) →
      ledger.Bounds state.shared runs.op runs.outcome)
    (environment : ∀ shared event shared',
      machine.env shared event = some shared' →
      ledger.credit shared' = ledger.credit shared ∧
        ledger.debit shared' = ledger.debit shared)
    {state : State σ ω}
    (reached : machine.Reach allowed start state) :
    ledger.credit state.shared + ledger.weigh state.ops +
        ledger.debit start.shared ≤
      ledger.credit start.shared + ledger.weigh start.ops +
        ledger.debit state.shared := by
  refine reached.invariant
    (fun state => ledger.credit state.shared + ledger.weigh state.ops +
        ledger.debit start.shared ≤
      ledger.credit start.shared + ledger.weigh start.ops +
        ledger.debit state.shared) (Nat.le_refl _) ?_
  intro state label next reached balance permitted stepped
  rcases Machine.step_cases stepped with
    ⟨thread, choice, rfl, ⟨runs⟩⟩ | ⟨event, shared, rfl, acted, rfl⟩
  · have kept := bounds runs reached permitted
    have before := ledger.weigh_perm runs.ops_perm
    have after := ledger.weigh_perm runs.next_ops_perm
    unfold Bounds worth at kept
    simp only [weigh_cons, weigh_append, Machine.Runs.fresh] at before after
    rw [runs.next_shared]
    omega
  · obtain ⟨sameCredit, sameDebit⟩ := environment _ _ _ acted
    simp only [State.ops] at balance ⊢
    omega

end Ledger

/-! ## Annotations and shapes -/

namespace Machine

/-- A property of the shared state and an assertion for each operation that is
still to be executed hold in every reachable state, if they hold at the start
and every allowed step establishes them for what it leaves and keeps them for
all other operations. -/
theorem Reach.annotated
    {machine : Machine σ ω κ ε}
    {allowed : State σ ω → Label κ ε → Prop}
    {start : State σ ω}
    (total : σ → Prop)
    (note : σ → ω → Prop)
    (initial : total start.shared ∧ ∀ op ∈ start.ops, note start.shared op)
    (run : ∀ {state thread choice next}
      (runs : machine.Runs state thread choice next),
      machine.Reach allowed start state →
      allowed state (.run thread choice) →
      total state.shared → note state.shared runs.op →
      total runs.outcome.shared ∧
        (∀ op ∈ runs.fresh, note runs.outcome.shared op) ∧
        ∀ op ∈ runs.others, note state.shared op →
          note runs.outcome.shared op)
    (environment : ∀ shared event shared',
      machine.env shared event = some shared' → total shared →
      total shared' ∧ ∀ op, note shared op → note shared' op)
    {state : State σ ω}
    (reached : machine.Reach allowed start state) :
    total state.shared ∧ ∀ op ∈ state.ops, note state.shared op := by
  refine reached.invariant
    (fun state => total state.shared ∧ ∀ op ∈ state.ops, note state.shared op)
    initial ?_
  intro state label next reached ⟨holds, noted⟩ permitted stepped
  rcases step_cases stepped with
    ⟨thread, choice, rfl, ⟨runs⟩⟩ | ⟨event, shared, rfl, acted, rfl⟩
  · obtain ⟨kept, established, stable⟩ :=
      run runs reached permitted holds (noted _ runs.op_mem)
    rw [runs.next_shared]
    refine ⟨kept, fun op member => ?_⟩
    rcases runs.mem_next_ops.mp member with isFresh | other
    · exact established op isFresh
    · exact stable op other (noted op (runs.mem_of_others other))
  · obtain ⟨kept, stable⟩ := environment _ _ _ acted holds
    exact ⟨kept, fun op member => stable op (noted op member)⟩

/-- Every thread of a reachable state has a shape that single operations
keep. -/
theorem Reach.shaped
    {machine : Machine σ ω κ ε}
    {allowed : State σ ω → Label κ ε → Prop}
    {start : State σ ω}
    (shape : List ω → Prop)
    (initial : ∀ thread ∈ start.threads, shape thread)
    (run : ∀ {state thread choice next}
      (runs : machine.Runs state thread choice next),
      machine.Reach allowed start state →
      allowed state (.run thread choice) →
      shape (runs.op :: runs.rest) →
      shape (runs.outcome.next ++ runs.rest) ∧
        ∀ spawned ∈ runs.outcome.spawned, shape spawned)
    {state : State σ ω}
    (reached : machine.Reach allowed start state) :
    ∀ thread ∈ state.threads, shape thread := by
  refine reached.invariant
    (fun state => ∀ thread ∈ state.threads, shape thread) initial ?_
  intro state label next reached shaped permitted stepped
  rcases step_cases stepped with
    ⟨thread, choice, rfl, ⟨runs⟩⟩ | ⟨event, shared, rfl, acted, rfl⟩
  · rw [runs.threads_eq] at shaped
    obtain ⟨continued, started⟩ :=
      run runs reached permitted (shaped _ (by simp))
    rw [runs.next_threads]
    intro thread member
    simp only [List.mem_append, List.mem_cons] at member
    rcases member with inBefore | rfl | inAfter | isSpawned
    · exact shaped thread (by simp [inBefore])
    · exact continued
    · exact shaped thread (by simp [inAfter])
    · exact started thread isSpawned
  · exact shaped

/-- A machine with one thread runs its operations in order. -/
theorem Reach.sequential
    {machine : Machine σ ω κ ε}
    {allowed : State σ ω → Label κ ε → Prop}
    {start : State σ ω} {ops : List ω}
    (property : σ → List ω → Prop)
    (sole : start.threads = [ops])
    (initial : property start.shared ops)
    (run : ∀ {state thread choice next}
      (runs : machine.Runs state thread choice next),
      allowed state (.run thread choice) →
      property state.shared (runs.op :: runs.rest) →
      property runs.outcome.shared (runs.outcome.next ++ runs.rest) ∧
        runs.outcome.spawned = [])
    (environment : ∀ shared event shared' ops,
      machine.env shared event = some shared' →
      property shared ops → property shared' ops)
    {state : State σ ω}
    (reached : machine.Reach allowed start state) :
    ∃ ops, state.threads = [ops] ∧ property state.shared ops := by
  refine reached.invariant
    (fun state => ∃ ops, state.threads = [ops] ∧ property state.shared ops)
    ⟨ops, sole, initial⟩ ?_
  intro state label next _ ⟨ops, alone, holds⟩ permitted stepped
  rcases step_cases stepped with
    ⟨thread, choice, rfl, ⟨runs⟩⟩ | ⟨event, shared, rfl, acted, rfl⟩
  · have split := runs.threads_eq
    rw [alone, eq_comm, List.append_eq_singleton_iff] at split
    rcases split with ⟨before, rest⟩ | ⟨_, none⟩
    · obtain ⟨running, after⟩ := List.cons.inj rest
      obtain ⟨kept, unspawned⟩ := run runs permitted (running ▸ holds)
      refine ⟨runs.outcome.next ++ runs.rest, ?_, ?_⟩
      · rw [runs.next_threads, before, after, unspawned]
        rfl
      · rw [runs.next_shared]
        exact kept
    · cases none
  · exact ⟨ops, alone, environment _ _ _ _ acted holds⟩

end Machine

/-! ## Coverage -/

/-- Every operation of a thread that needs a keeper is one, or comes before
one. -/
def Covered (needs keeps : ω → Prop) : List ω → Prop
  | [] => True
  | op :: rest =>
      (needs op → keeps op ∨ ∃ keeper ∈ rest, keeps keeper) ∧
        Covered needs keeps rest

section Covered

variable {needs keeps : ω → Prop}

/-- A keeper at the end covers everything before it. -/
theorem Covered.of_keeper {front back : List ω}
    (keeper : ∃ keeper ∈ back, keeps keeper)
    (covered : Covered needs keeps back) :
    Covered needs keeps (front ++ back) := by
  induction front with
  | nil => exact covered
  | cons op front inductionHypothesis =>
      obtain ⟨last, member, kept⟩ := keeper
      exact ⟨fun _ => .inr ⟨last, List.mem_append_right _ member, kept⟩,
        inductionHypothesis⟩

theorem Covered.append {front back : List ω}
    (before : Covered needs keeps front) (after : Covered needs keeps back) :
    Covered needs keeps (front ++ back) := by
  induction front with
  | nil => exact after
  | cons op front inductionHypothesis =>
      refine ⟨fun need => ?_, inductionHypothesis before.2⟩
      rcases before.1 need with kept | ⟨keeper, member, kept⟩
      · exact .inl kept
      · exact .inr ⟨keeper, List.mem_append_left _ member, kept⟩

/-- Operations without needs are covered. -/
theorem Covered.of_light {ops : List ω}
    (light : ∀ op ∈ ops, ¬ needs op) : Covered needs keeps ops := by
  induction ops with
  | nil => trivial
  | cons op ops inductionHypothesis =>
      exact ⟨fun need => absurd need (light op (by simp)),
        inductionHypothesis fun other member => light other (by simp [member])⟩

/-- A thread is covered if a keeper follows every operation that needs one. -/
theorem Covered.of_followed {ops : List ω}
    (followed : ∀ front op back, ops = front ++ op :: back → needs op →
      keeps op ∨ ∃ keeper ∈ back, keeps keeper) :
    Covered needs keeps ops := by
  induction ops with
  | nil => trivial
  | cons op ops inductionHypothesis =>
      refine ⟨followed [] op ops rfl, inductionHypothesis ?_⟩
      intro front other back equal
      exact followed (op :: front) other back (by rw [equal]; rfl)

/-- The thread of an operation that needs a keeper has one. -/
theorem Covered.keeper {ops : List ω} {op : ω}
    (covered : Covered needs keeps ops)
    (member : op ∈ ops) (need : needs op) :
    ∃ keeper ∈ ops, keeps keeper := by
  induction ops with
  | nil => cases member
  | cons head tail inductionHypothesis =>
      rcases List.mem_cons.mp member with rfl | later
      · rcases covered.1 need with kept | ⟨keeper, inside, kept⟩
        · exact ⟨op, by simp, kept⟩
        · exact ⟨keeper, by simp [inside], kept⟩
      · obtain ⟨keeper, inside, kept⟩ := inductionHypothesis covered.2 later
        exact ⟨keeper, by simp [inside], kept⟩

@[simp] theorem covered_append_of_keeper {front back : List ω}
    (keeper : ∃ keeper ∈ back, keeps keeper) :
    Covered needs keeps (front ++ back) ↔ Covered needs keeps back := by
  refine ⟨fun covered => ?_, Covered.of_keeper keeper⟩
  induction front with
  | nil => exact covered
  | cons op front inductionHypothesis => exact inductionHypothesis covered.2

@[simp] theorem covered_ite {condition : Prop} [Decidable condition]
    {first second : List ω} :
    Covered needs keeps (if condition then first else second) ↔
      (condition → Covered needs keeps first) ∧
        (¬ condition → Covered needs keeps second) := by
  split <;> simp_all

section Reach

variable (needs keeps)

variable {machine : Machine σ ω κ ε}
  {allowed : State σ ω → Label κ ε → Prop} {start state : State σ ω}
  (initial : ∀ thread ∈ start.threads, Covered needs keeps thread)
  (next : ∀ {state thread choice next}
    (runs : machine.Runs state thread choice next),
    machine.Reach allowed start state →
    allowed state (.run thread choice) →
    (needs runs.op → keeps runs.op) →
    Covered needs keeps runs.outcome.next)
  (spawned : ∀ {state thread choice next}
    (runs : machine.Runs state thread choice next),
    ∀ started ∈ runs.outcome.spawned, Covered needs keeps started)

include initial next spawned

/-- Every thread of a reachable state is covered, if operations only leave
operations that need a keeper together with one, unless they need one
themselves. -/
theorem Machine.Reach.covered_threads
    (reached : machine.Reach allowed start state) :
    ∀ thread ∈ state.threads, Covered needs keeps thread := by
  refine reached.shaped (Covered needs keeps) initial ?_
  intro state thread choice after runs reached permitted covered
  refine ⟨?_, spawned runs⟩
  by_cases kept : needs runs.op → keeps runs.op
  · exact (next runs reached permitted kept).append covered.2
  · -- A later operation of the thread covers what this one leaves.
    obtain ⟨need, unkept⟩ := Classical.not_imp.mp kept
    exact covered.2.of_keeper ((covered.1 need).resolve_left unkept)

/-- Every operation that needs a keeper has one in every reachable state. -/
theorem Machine.Reach.covered
    (reached : machine.Reach allowed start state)
    {op : ω} (member : op ∈ state.ops) (need : needs op) :
    ∃ keeper ∈ state.ops, keeps keeper := by
  obtain ⟨thread, inside, held⟩ := List.mem_flatten.mp member
  obtain ⟨keeper, later, kept⟩ :=
    (reached.covered_threads needs keeps initial next spawned thread
      inside).keeper held need
  exact ⟨keeper, List.mem_flatten.mpr ⟨thread, inside, later⟩, kept⟩

end Reach

end Covered

end Pool
end Gorums
