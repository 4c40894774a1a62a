import Gorums.Conn.Sequence
import Gorums.Pool.Termination

/-!
# Calls that run alone return

A call to `NewConfig` or `Extend` that runs alone on a pool returns after
finitely many steps: each operation leaves less to do, and there is always one
that can be executed.  In particular `Close` never waits for another call.
-/

namespace Gorums
namespace Conn

open Pool

/-! ## What is left to do -/

/-- A bound on the operations that an operation leads to, on a pool with a
number of nodes. -/
def Op.weight (size : Nat) : Op → Nat
  | .ret _ _ | .closeReturn | .nodeRejected _ => 1
  | .closeNodes rest => 2 * rest.length + 2
  | .nodeClosed _ rest => 2 * rest.length + 3
  | .lockClose => 2 * size + 3
  | .close => 2 * size + 4
  | .union _ _ ids => ids.length + 2
  | .add _ builder entries =>
      10 * entries.length + builder.nodes.length + 2 * size + 8
  | .newNodeReturn _ builder _ _ _ rest =>
      10 * rest.length + builder.nodes.length + 2 * size + 11
  | .rejectNode _ builder _ _ rest =>
      10 * rest.length + builder.nodes.length + 2 * size + 13
  | .addNode _ builder _ rest =>
      10 * rest.length + builder.nodes.length + 2 * size + 14
  | .construct _ builder _ rest =>
      10 * rest.length + builder.nodes.length + 2 * size + 15
  | .prepare _ builder _ rest =>
      10 * rest.length + builder.nodes.length + 2 * size + 16
  | .findNode _ builder _ rest =>
      10 * rest.length + builder.nodes.length + 2 * size + 17
  | .build _ source => 10 * source.addrs.length + 2 * size + 9
  | .refuseIdentity _ => 2 * size + 10
  | .checkIdentity _ source => 10 * source.addrs.length + 2 * size + 11
  | .checkClosed call =>
      10 * (call.source.elim 0 fun source => source.addrs.length) + 2 * size + 12
  | .newConfig source => 10 * source.addrs.length + 2 * size + 13
  | .extend source =>
      10 * (source.elim 0 fun source => source.addrs.length) + 2 * size + 13

/-- A bound on the operations that are left. -/
def weight (size : Nat) (ops : List Op) : Nat :=
  (ops.map (Op.weight size)).sum

section Weight

variable {context : Context} {state : Manager} {op : Op} {choice : Choice}
  {outcome : Outcome Manager Op}

@[simp] theorem weight_nil (size : Nat) : weight size [] = 0 := rfl

@[simp] theorem weight_cons (size : Nat) (op : Op) (ops : List Op) :
    weight size (op :: ops) = op.weight size + weight size ops := rfl

theorem weight_fail_le (size : Nat) (call : Call) (err : Stream.Err) :
    weight size (call.fail err) ≤ 2 * size + 5 := by
  unfold Call.fail
  split <;> simp [Op.weight]

theorem length_entries (source : NodeSource) (builder : NodeBuilder) :
    (source.entries builder).length = source.addrs.length := by
  rw [← addrs_entries source builder, List.length_map]

theorem weight_combine_le (size : Nat) (call : Call) (builder : NodeBuilder) :
    (call.combine builder.configuration).weight size ≤
      builder.nodes.length + 2 := by
  unfold Call.combine
  split
  · simp [Op.weight, NodeBuilder.configuration, sortByID,
      (perm_sortBy Node.id builder.nodes).length_eq]
  · simp [Op.weight]

/-- Every operation leaves less to do. -/
theorem weight_exec (executed : exec context state op choice = some outcome) :
    weight outcome.shared.nodes.length outcome.next <
      op.weight state.nodes.length := by
  have failed := weight_fail_le state.nodes.length
  cases exec_step executed with
  | alreadyClosed | identityRefused | unverified | refused | taken
  | withoutCredentials | unconstructed | newNodeFailed =>
      refine Nat.lt_of_le_of_lt (failed _ _) ?_
      simp only [Op.weight]
      omega
  | sourced call source given =>
      simp only [weight_cons, weight_nil, Op.weight, given, Option.elim]
      omega
  | built call source verify verifier =>
      obtain ⟨_, made, _⟩ :=
        fields_newNodeBuilder context.net state.nodes verify
      simp only [weight_cons, weight_nil, Op.weight, length_entries, made,
        List.length_nil]
      omega
  | combined call builder =>
      have combined := weight_combine_le state.nodes.length call builder
      rw [weight_cons, weight_nil]
      refine Nat.lt_of_le_of_lt combined ?_
      simp only [Op.weight]
      omega
  | reused call builder after entry rest added =>
      obtain ⟨node, _, _, equal⟩ := NodeBuilder.add_eq_reused added
      simp only [weight_cons, weight_nil, Op.weight, List.length_cons, equal,
        NodeBuilder.append, List.length_append, List.length_nil]
      omega
  | create call builder after entry rest added =>
      obtain ⟨_, _, _, equal⟩ := NodeBuilder.add_eq_create added
      simp only [weight_cons, weight_nil, Op.weight, List.length_cons, equal]
      omega
  | _ =>
      simp only [weight_cons, weight_nil, Op.weight, NodeBuilder.append,
        List.length_append, List.length_cons, List.length_nil, Option.elim]
      omega

end Weight

/-! ## What can be executed -/

/-- Whether an operation runs under the once of `Close`. -/
def Op.HoldsOnce : Op → Prop
  | .lockClose | .closeNodes _ | .nodeClosed _ _ => True
  | _ => False

/-- If the once of `Close` runs, then in the next operation. -/
def OnceHeld (state : Manager) (ops : List Op) : Prop :=
  state.closeOnce = .running → ∃ next rest, ops = next :: rest ∧ next.HoldsOnce

section Progress

variable {context : Context} {state : Manager} {op : Op} {ops : List Op}
  {choice : Choice} {outcome : Outcome Manager Op}

theorem onceHeld_exec (executed : exec context state op choice = some outcome)
    (held : OnceHeld state (op :: ops)) :
    OnceHeld outcome.shared (outcome.next ++ ops) := by
  have holds : state.closeOnce = .running → op.HoldsOnce := by
    intro running
    obtain ⟨next, rest, equal, holds⟩ := held running
    rw [(List.cons.inj equal).1]
    exact holds
  intro running
  cases exec_step executed with
  | closing | locked | closingNode | nodeClosed => exact ⟨_, _, rfl, trivial⟩
  | closedAll => cases running
  | _ => exact (holds running).elim

/-- The next operation of a thread can be executed. -/
theorem exists_exec (context : Context)
    (held : OnceHeld state (op :: ops)) :
    ∃ choice outcome, exec context state op choice = some outcome := by
  cases op with
  | extend source =>
      exact ⟨.config [], _, rfl⟩
  | close =>
      refine ⟨.go, ?_⟩
      cases once : state.closeOnce with
      | fresh => exact ⟨_, by simp only [exec, execClose, once]; rfl⟩
      | running =>
          obtain ⟨next, rest, equal, holds⟩ := held once
          rw [← (List.cons.inj equal).1] at holds
          exact holds.elim
      | done => exact ⟨_, by simp only [exec, execClose, once]; rfl⟩
  | add call builder entries =>
      refine ⟨.go, ?_⟩
      cases entries <;> simp only [exec, execAdd] <;> (repeat' split) <;>
        exact ⟨_, rfl⟩
  | newNodeReturn call builder node late err rest =>
      refine ⟨.go, ?_⟩
      cases err <;> exact ⟨_, rfl⟩
  | union call config ids =>
      refine ⟨.go, ?_⟩
      cases ids <;> simp only [exec, execReturn] <;> (repeat' split) <;>
        exact ⟨_, rfl⟩
  | closeNodes rest =>
      refine ⟨.go, ?_⟩
      cases rest <;> exact ⟨_, rfl⟩
  | _ =>
      refine ⟨.go, ?_⟩
      simp only [exec, execStart, execAdd, execReturn, execClose]
      (repeat' split) <;> exact ⟨_, rfl⟩

end Progress

/-! ## Runs of one call -/

section Runs

variable {context : Context} {pool : Manager} {build : BuildCall}
  {state next : State Manager Op}

/-- While operations of the call wait for others, the pool does not grow. -/
theorem Stage.length_eq {shared : Manager} {op : Op} {ops : List Op}
    {choice : Choice} {outcome : Outcome Manager Op}
    (stage : Stage context.net pool build shared (op :: ops))
    (executed : exec context shared op choice = some outcome) :
    ops = [] ∨ outcome.shared.nodes = shared.nodes := by
  cases stage with
  | single op stands unreturned => exact .inl rfl
  | closing op call err closes =>
      refine .inr ?_
      cases nodes_exec executed with
      | same nodes lookup => exact nodes
      | registered call builder node rest running =>
          rw [running] at closes
          exact closes.elim
  | rejecting =>
      refine .inr ?_
      cases nodes_exec executed with
      | same nodes lookup => exact nodes
      | registered call builder node rest running => cases running

/-- A state in the run of a call. -/
def InCall (context : Context) (pool : Manager) (build : BuildCall)
    (state : State Manager Op) : Prop :=
  ∃ ops, state.threads = [ops] ∧
    Contract context.net pool build state.shared ops ∧
    OnceHeld state.shared ops

/-- What is left to do in a state. -/
def remaining (state : State Manager Op) : Nat :=
  (state.threads.map (weight state.shared.nodes.length)).sum

theorem InCall.step {label : Label Choice Empty}
    (inCall : InCall context pool build state)
    (stepped : (machine context).step state label = some next) :
    InCall context pool build next ∧ remaining next < remaining state := by
  obtain ⟨ops, alone, contract, held⟩ := inCall
  obtain ⟨op, rest, choice, outcome, rfl, runs, rfl⟩ :=
    Machine.step_sole alone stepped
  have executed : exec context state.shared op choice = some outcome := runs
  have spawned := spawned_exec executed
  refine ⟨⟨outcome.next ++ rest, by rw [spawned],
    contract_exec executed contract, onceHeld_exec executed held⟩, ?_⟩
  have less := weight_exec executed
  have others : weight outcome.shared.nodes.length rest =
      weight state.shared.nodes.length rest := by
    rcases contract.stage.length_eq executed with rfl | same
    · rfl
    · rw [same]
  have split : weight outcome.shared.nodes.length (outcome.next ++ rest) =
      weight outcome.shared.nodes.length outcome.next +
        weight outcome.shared.nodes.length rest := by
    simp [weight]
  simp only [remaining, alone, spawned, List.map_cons, List.map_nil,
    List.sum_cons, List.sum_nil, weight_cons, split, others]
  omega

theorem RunsTo.inCall (wellFormed : WellFormed context.net pool)
    (idle : pool.closeOnce ≠ .running) (runs : RunsTo context pool build state) :
    InCall context pool build state := by
  refine Machine.Reach.invariant (InCall context pool build) ?_ ?_ runs
  · have begins : RunsTo context pool build ⟨pool, [[build.op]]⟩ := .start
    obtain ⟨ops, alone, contract⟩ := begins.contract wellFormed
    exact ⟨ops, alone, contract, fun running => absurd running idle⟩
  · intro state label next _ inCall _ stepped
    exact (inCall.step stepped).1

/-- A call that runs alone does not run forever. -/
theorem InCall.terminates (inCall : InCall context pool build state) :
    (machine context).Terminates state :=
  Machine.terminates_of_weight (InCall context pool build) remaining
    (fun _ _ _ inCall stepped => inCall.step stepped) inCall

/-- A call that runs alone only stops when it has returned. -/
theorem InCall.stopped (inCall : InCall context pool build state)
    (stopped : (machine context).Stopped state) : state.threads = [[]] := by
  obtain ⟨ops, alone, _, held⟩ := inCall
  cases ops with
  | nil => exact alone
  | cons op rest =>
      obtain ⟨choice, outcome, executed⟩ := exists_exec context held
      have blocked := Machine.stopped_sole alone stopped choice
      cases blocked.symm.trans executed

theorem InCall.idle (inCall : InCall context pool build state)
    (returned : state.threads = [[]]) :
    state.shared.closeOnce ≠ .running := by
  intro running
  obtain ⟨ops, alone, _, held⟩ := inCall
  obtain ⟨next, rest, equal, _⟩ := held running
  rw [alone, equal] at returned
  cases returned

/-- After any sequence of calls no `Close` is running. -/
theorem History.idle {past : List Completed}
    (history : History context past pool) : pool.closeOnce ≠ .running := by
  induction history with
  | start => exact nofun
  | call call earlier runs returned inductionHypothesis =>
      exact (runs.inCall earlier.wellFormed inductionHypothesis).idle returned

end Runs

end Conn
end Gorums
