import Gorums.Stream.Closing

/-!
# Requests in a goroutine's hand

A goroutine that holds a request is one that the channel waits for: one of the
channel's own goroutines, the body of `Close`, or the caller of the request's
`Enqueue`.  So a request is in nobody's hand once all of these have returned.
-/

namespace Gorums
namespace Stream

/-- Whether an operation holds a request, or may get hold of it. -/
def Op.Needs (req : Request) : Op → Prop
  | .session _ (.take _ _) => True
  | op => req ∈ op.held

/-- Whether an operation's goroutine is one that the channel waits for, as far
as a request is concerned. -/
def Op.Keeps (req : Request) (op : Op) : Prop :=
  .waited ∈ op.roles ∨ .closer ∈ op.roles ∨ .caller req ∈ op.roles

/-- Every operation of a goroutine that holds a request comes before an
operation for which the goroutine is waited for. -/
abbrev Covered (req : Request) : List Op → Prop :=
  Pool.Covered (Op.Needs req) (Op.Keeps req)

theorem Op.needs_of_held {req : Request} {op : Op} (holds : req ∈ op.held) : op.Needs req := by
  unfold Op.Needs
  split
  · trivial
  · exact holds

section Exec

variable {config : Config} {shared : Shared} {outcome : Effect} {req : Request}

/-- What an operation leaves to its goroutine, and what it starts, is
covered. -/
def FreshCovered (req : Request) (outcome : Effect) : Prop :=
  Covered req outcome.next ∧
    ∀ thread ∈ outcome.spawned, Covered req thread

theorem covered_session {k : Nat} {op : SessionOp}
    (keeps : (Op.session k op).Needs req → (Op.session k op).Keeps req)
    (noted : (Op.session k op).Noted config shared)
    (does : SessionDoes config shared k op outcome) :
    FreshCovered req outcome := by
  cases does with
  | @endDrain calls permuted =>
      -- A session that ends because it is drained has no calls left.
      have empty : calls = [] := by
        simpa [PendingCalls.reqs, noted.2.2] using List.isPerm_iff.mp permuted
      simp [FreshCovered, Pool.Covered, drainCalls, empty]
  | @matched found resp =>
      refine ⟨⟨fun needs => absurd (keeps ?_) ?_, trivial⟩, by simp⟩
      all_goals
        simp_all [Op.Needs, Op.Keeps, Op.held, QueueOp.held, SessionOp.held,
          Op.roles, PendingCalls.removed]
  | _ =>
      simp_all [FreshCovered, Pool.Covered, Op.Needs, Op.Keeps, Op.held,
        QueueOp.held, SessionOp.held, Op.roles, QueueOp.roles, deliverError]

theorem covered_send {k : Nat} {back : LoopReturn} {op : SendOp}
    {choice : Choice} (does : SendDoes config shared choice k back op outcome) :
    FreshCovered req outcome := by
  cases does <;>
    simp_all [FreshCovered, Pool.Covered, Op.Needs, Op.Keeps, Op.held,
      QueueOp.held, SessionOp.held, Op.roles, InboundOp.roles, drainCalls,
      loopReturn]

theorem covered_recv {k : Nat} {op : RecvOp} {choice : Choice}
    (does : RecvDoes config shared choice k op outcome) :
    FreshCovered req outcome := by
  cases does <;>
    simp_all [FreshCovered, Pool.Covered, Op.Needs, Op.Keeps, Op.held,
      SessionOp.held, Op.roles, drainCalls]

theorem covered_run {op : RunOp} (does : RunDoes config shared op outcome) :
    FreshCovered req outcome := by
  cases does <;>
    simp_all [FreshCovered, Pool.Covered, Op.Needs, Op.Keeps, Op.held,
      QueueOp.held, Op.roles, Closer.roles, openStream, recordFailure]

/-- The dispatcher holds no requests. -/
theorem covered_dispatch {effect : Pool.Outcome (Dispatcher Job) (DispatchOp Job)} :
    FreshCovered req (liftDispatch shared effect) := by
  refine ⟨.of_light ?_, fun thread member => .of_light ?_⟩
  · intro op member
    obtain ⟨inner, _, rfl⟩ := List.mem_map.mp member
    simp [Op.Needs, Op.held]
  · obtain ⟨ops, _, rfl⟩ := List.mem_map.mp member
    intro op member
    obtain ⟨inner, _, rfl⟩ := List.mem_map.mp member
    simp [Op.Needs, Op.held]

/-- What any operation leaves to its goroutine is covered, unless it leaves a
request that it held itself. -/
theorem covered_exec {op : Op} {choice : Choice} (call : req.IsCall)
    (keeps : op.Needs req → op.Keeps req)
    (noted : op.Noted config shared)
    (executed : exec config shared op choice = some outcome) :
    FreshCovered req outcome := by
  have does := exec_does executed
  clear executed
  cases does with
  | queue does =>
      cases does <;>
        simp_all [FreshCovered, Pool.Covered, Op.Needs, Op.Keeps, Op.held,
          QueueOp.held, Op.roles, QueueOp.roles, deliverError]
  | session inside does => exact covered_session keeps noted does
  | dispatch => exact covered_dispatch
  | reply =>
      simp [FreshCovered, reply, Pool.Covered, Op.Needs, Op.held, QueueOp.held,
        (call _ _).symm]
  | send inside does => exact covered_send does
  | recv inside does => exact covered_recv does
  | run opened does => exact covered_run does
  | @drainQueue req rest closer =>
      cases closer <;>
        simp [FreshCovered, Pool.Covered, Op.Needs, Op.Keeps, Op.held,
          QueueOp.held, Op.roles, Closer.roles]
  | _ =>
      simp_all [FreshCovered, Pool.Covered, Op.Needs, Op.Keeps, Op.held,
        SessionOp.held, Op.roles, InboundOp.roles, Closer.roles, drainCalls,
        exited]

/-- What any operation starts is covered. -/
theorem covered_spawned {op : Op} {choice : Choice}
    (executed : exec config shared op choice = some outcome) :
    ∀ thread ∈ outcome.spawned, Covered req thread := by
  cases exec_does executed with
  | queue does | session _ does =>
      cases does <;> simp [drainCalls, Pool.Covered, Op.Needs, Op.held]
  | dispatch => exact covered_dispatch.2
  | send inside does => exact (covered_send does).2
  | recv inside does => exact (covered_recv does).2
  | run opened does => exact (covered_run does).2
  | _ =>
      simp [reply, drainCalls, exited, Pool.Covered, Op.Needs, Op.held,
        SessionOp.held]

end Exec

section Runs

open Pool

variable {config : Config} {workload : Workload}
  {allowed : ChannelState → Step → Prop} {state : ChannelState}
  {req : Request}

/-- The goroutines of a new channel hold requests only in calls of `Enqueue`. -/
theorem covered_start (config : Config) (workload : Workload) (req : Request) :
    ∀ thread ∈ (config.start workload).threads, Covered req thread := by
  have users : ∀ calls : List UserCall,
      Covered req (calls.map UserCall.op) := by
    intro calls
    induction calls with
    | nil => trivial
    | cons call calls inductionHypothesis =>
        refine ⟨fun needs => .inl ?_, inductionHypothesis⟩
        cases call with
        | enqueue other =>
            have equal : req = other := List.mem_singleton.mp needs
            simp [UserCall.op, Op.Keeps, Op.roles, QueueOp.roles, equal]
        | close => cases needs
        | startDrain k => cases needs
  have threads : ∀ thread ∈ workload.threads, Covered req thread := by
    intro thread member
    obtain ⟨calls, _, rfl⟩ := List.mem_map.mp member
    exact users calls
  unfold Config.start
  cases config.kind with
  | outbound =>
      simpa [Pool.Covered, Op.Needs, Op.held, RunOp.held] using threads
  | inbound =>
      simpa [Pool.Covered, Op.Needs, Op.held, InboundOp.held] using threads

/-- In every run, whoever holds a caller's request is waited for. -/
theorem covered_reached (call : req.IsCall)
    (reached : config.Reaches workload allowed state)
    {op : Op} (member : op ∈ state.ops) (needs : op.Needs req) :
    ∃ keeper ∈ state.ops, keeper.Keeps req := by
  refine Machine.Reach.covered (Op.Needs req) (Op.Keeps req)
    (covered_start config workload req) ?_ ?_ reached member needs
  · intro state thread choice next runs reached _ keeps
    have noted := (closedDown_reached reached).2 runs.op runs.op_mem
    exact (covered_exec call keeps noted runs.exec_eq).1
  · intro state thread choice next runs
    exact covered_spawned runs.exec_eq

/-- A request is in nobody's hand once everyone who is waited for has
returned. -/
theorem weigh_custody_eq_zero (call : req.IsCall)
    (reached : config.Reaches workload allowed state)
    (unkept : ∀ op ∈ state.ops, ¬ op.Keeps req) :
    (custody req).weigh state.ops = 0 := by
  refine Ledger.weigh_eq_zero fun op member => ?_
  refine List.count_eq_zero.mpr fun holds => ?_
  obtain ⟨keeper, inside, keeps⟩ :=
    covered_reached call reached member (Op.needs_of_held holds)
  exact unkept keeper inside keeps

end Runs

end Stream
end Gorums
