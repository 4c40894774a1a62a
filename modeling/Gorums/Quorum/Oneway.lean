import Gorums.Quorum.Call
import Gorums.Quorum.Terminals
import Gorums.Stream.Dispatch

/-!
# One-way calls

A one-way call fans a request out to the nodes of a configuration and collects
one send confirmation of each node.  `Send` collects them at once; `Async`
returns a handle on which any number of goroutines call `Wait`, and the first
such call collects.  `receive` prefers a confirmation that is in the channel to
the end of the context.
-/

namespace Gorums
namespace Quorum

open Gorums.Stream

/-- `ErrSendFailure`. -/
def errSendFailure : Err := .named "send failure"

/-- `ErrNoNode`. -/
def errNoNode : Err := .status .invalidArgument "no such node"

/-- `ErrEmptyConfig`. -/
def errEmptyConfig : Err := .status .invalidArgument "empty configuration"

/-- A one-way call. -/
structure OnewayCall where
  /-- The call context. -/
  ctx : CallContext
  /-- The error that the handle holds. -/
  err : Option Err := none
  /-- Whether the call is a unicast. -/
  unicast : Bool := false

/-- `Multicast`. -/
def multicast (ctx : CallContext) : OnewayCall where
  ctx := ctx
  err := if ctx.config.length = 0 then some errEmptyConfig else none

/-- `Unicast`; a nil node is `none`. -/
def unicast (node : Option ID) (ctx : CallContext) : OnewayCall where
  ctx := { ctx with config := node.toList }
  err := if node.isNone then some errNoNode else none
  unicast := true

/-- The operations of the goroutines that take part in a one-way call. -/
inductive OnewayOp
  /-- The fan-out of `dispatch`, and the channels of the nodes. -/
  | fanOut (op : CallOp)
  /-- `Async` returns the handle, on which goroutines call `Wait`, each so many
  times. -/
  | handle (waits : List Nat)
  /-- `Wait`: `once.Do`. -/
  | wait
  /-- `collect`, up to its loop. -/
  | collect
  /-- The loop of `collect`, with the first select of `receive`. -/
  | iterate (remaining : Nat) (errs : List NodeError)
  /-- The second select of `receive`. -/
  | receive (remaining : Nat) (errs : List NodeError)
  /-- `Wait` returns. -/
  | waited

/-- The state of a one-way call. -/
structure OnewayState where
  /-- The error of the context, once it has ended. -/
  ctxErr : Option Err := none
  /-- The confirmations in the response channel. -/
  responseChan : List Response := []
  /-- The `once` of the handle. -/
  once : Once := .fresh
  /-- The `err` of the handle. -/
  err : Option CallError := none
  /-- History: the confirmations in the channel when collecting began. -/
  began : Option (List Response) := none
  /-- History: the confirmations that `receive` returned. -/
  read : List Response := []
  /-- History: whether some `receive` started with no confirmation in the
  channel. -/
  starved : Bool := false
  /-- History: what calls of `Wait` returned. -/
  returned : List (Option CallError) := []

namespace OnewayState

/-- Send on the response channel, if it has room. -/
def push (state : OnewayState) (capacity : Nat) (resp : Response) :
    Option OnewayState :=
  (sendOn capacity state.responseChan resp).map fun chan =>
    { state with responseChan := chan }

/-- `receive` returns the first confirmation of the channel. -/
def take (state : OnewayState) (resp : Response) (rest : List Response) :
    OnewayState :=
  { state with responseChan := rest, read := state.read ++ [resp] }

/-- `collect` returns to `once.Do`. -/
def finish (state : OnewayState) (err : Option CallError) :
    Pool.Outcome OnewayState OnewayOp :=
  ⟨{ state with once := .done, err := err }, [.waited], []⟩

end OnewayState

/-- The end of `collect`. -/
def sendFailures (errs : List NodeError) : Option CallError :=
  if 0 < errs.length then some (.quorum ⟨errSendFailure, errs⟩) else none

namespace OnewayCall

/-- `collect`, after a confirmation has been received. -/
def received (call : OnewayCall) (state : OnewayState) (remaining : Nat)
    (errs : List NodeError) (resp : Response) :
    Pool.Outcome OnewayState OnewayOp :=
  if call.unicast then state.finish (resp.err.map .plain)
  else ⟨state, [.iterate remaining (errs ++ (nodeError resp).toList)], []⟩

/-- Execute one operation of a one-way call. -/
def exec (call : OnewayCall) (state : OnewayState) :
    OnewayOp → CallChoice → Option (Pool.Outcome OnewayState OnewayOp)
  | .fanOut (.report node err), .go =>
      (state.push call.ctx.config.length (errorResponse node err)).map
        fun state => ⟨state, [], []⟩
  | .fanOut (.enqueue node), .go => some ⟨state, [], [[.fanOut (.deliver node)]]⟩
  | .fanOut (.deliver node), .response value err =>
      (state.push call.ctx.config.length ⟨node, value, err⟩).map
        fun state => ⟨state, [], []⟩
  | .handle waits, .go =>
      some ⟨state, [], waits.map fun count => List.replicate count .wait⟩
  | .wait, .go =>
      match state.once with
      | .fresh => some ⟨{ state with once := .running }, [.collect], []⟩
      | .running => none
      | .done => some ⟨state, [.waited], []⟩
  | .collect, .go =>
      match call.err with
      | some err => some (state.finish (some (.plain err)))
      | none =>
          some ⟨{ state with began := some state.responseChan },
            [.iterate (if call.unicast then 1 else call.ctx.config.length) []],
            []⟩
  | .iterate 0 errs, .go => some (state.finish (sendFailures errs))
  | .iterate (remaining + 1) errs, .go =>
      match state.responseChan with
      | resp :: rest =>
          some (call.received (state.take resp rest) remaining errs resp)
      | [] =>
          some ⟨{ state with starved := true }, [.receive remaining errs], []⟩
  | .receive remaining errs, .go =>
      match state.responseChan with
      | resp :: rest =>
          some (call.received (state.take resp rest) remaining errs resp)
      | [] => none
  | .receive _ _, .done =>
      state.ctxErr.map fun err => state.finish (some (.plain err))
  | .waited, .go =>
      some ⟨{ state with returned := state.returned ++ [state.err] }, [], []⟩
  | _, _ => none

/-- The machine of a one-way call; the environment ends its context. -/
def machine (call : OnewayCall) :
    Pool.Machine OnewayState OnewayOp CallChoice Err where
  exec := call.exec
  env state err :=
    if state.ctxErr.isSome then none
    else some { state with ctxErr := some err }

/-- `dispatch`; a handle that holds an error sends nothing. -/
def dispatch (call : OnewayCall) : List OnewayOp :=
  match call.err with
  | some _ => []
  | none => (send call.ctx).map .fanOut

/-- A call that is about to dispatch.  `Send` is the case of a single call of
`Wait`. -/
def start (call : OnewayCall) (waits : List Nat) :
    Pool.State OnewayState OnewayOp where
  shared := {}
  threads := [call.dispatch ++ [.handle waits]]

end OnewayCall

/-- The states of a one-way call. -/
abbrev OnewayPool := Pool.State OnewayState OnewayOp

/-- What a step of a one-way call can do. -/
inductive OnewayStep (call : OnewayCall) (state : OnewayState) (op : OnewayOp)
    (choice : CallChoice) (outcome : Pool.Outcome OnewayState OnewayOp) : Prop
  | reported (node : ID) (err : Err)
      (running : op = .fanOut (.report node err))
      (equal : outcome = ⟨{ state with
        responseChan := state.responseChan ++ [errorResponse node err] }, [], []⟩)
  | delivered (node : ID) (value : Option Message) (err : Option Err)
      (running : op = .fanOut (.deliver node))
      (chosen : choice = .response value err)
      (equal : outcome = ⟨{ state with
        responseChan := state.responseChan ++ [⟨node, value, err⟩] }, [], []⟩)
  | enqueued (node : ID) (running : op = .fanOut (.enqueue node))
      (equal : outcome = ⟨state, [], [[.fanOut (.deliver node)]]⟩)
  | handed (waits : List Nat) (running : op = .handle waits)
      (equal : outcome =
        ⟨state, [], waits.map fun count => List.replicate count .wait⟩)
  | entered (running : op = .wait) (first : state.once = .fresh)
      (equal : outcome = ⟨{ state with once := .running }, [.collect], []⟩)
  | joined (running : op = .wait) (finished : state.once = .done)
      (equal : outcome = ⟨state, [.waited], []⟩)
  | held (err : Err) (running : op = .collect) (holds : call.err = some err)
      (equal : outcome = state.finish (some (.plain err)))
  | began (running : op = .collect) (holds : call.err = none)
      (equal : outcome = ⟨{ state with began := some state.responseChan },
        [.iterate (if call.unicast then 1 else call.ctx.config.length) []], []⟩)
  | exhausted (errs : List NodeError) (running : op = .iterate 0 errs)
      (equal : outcome = state.finish (sendFailures errs))
  | received (remaining : Nat) (errs : List NodeError) (resp : Response)
      (rest : List Response)
      (running : op = .iterate (remaining + 1) errs ∨
        op = .receive remaining errs)
      (chan : state.responseChan = resp :: rest)
      (equal : outcome =
        call.received (state.take resp rest) remaining errs resp)
  | starved (remaining : Nat) (errs : List NodeError)
      (running : op = .iterate (remaining + 1) errs)
      (chan : state.responseChan = [])
      (equal : outcome =
        ⟨{ state with starved := true }, [.receive remaining errs], []⟩)
  | ended (remaining : Nat) (errs : List NodeError) (err : Err)
      (running : op = .receive remaining errs)
      (expired : state.ctxErr = some err)
      (equal : outcome = state.finish (some (.plain err)))
  | returned (running : op = .waited)
      (equal : outcome =
        ⟨{ state with returned := state.returned ++ [state.err] }, [], []⟩)

section Steps

open Pool

variable {call : OnewayCall} {state : OnewayState} {op : OnewayOp}
  {choice : CallChoice} {outcome : Outcome OnewayState OnewayOp}

/-- Every operation of a one-way call does one of these things. -/
theorem oneway_exec (executed : call.exec state op choice = some outcome) :
    OnewayStep call state op choice outcome := by
  cases op with
  | fanOut op =>
      cases op <;> cases choice
      case report.go node err =>
        rw [OnewayCall.exec, OnewayState.push, Option.map_map] at executed
        exact .reported node err rfl (eq_of_sendOn executed)
      case enqueue.go node => exact .enqueued node rfl (Option.some.inj executed).symm
      case deliver.response node value err =>
        rw [OnewayCall.exec, OnewayState.push, Option.map_map] at executed
        exact .delivered node value err rfl rfl (eq_of_sendOn executed)
      all_goals cases executed
  | handle waits =>
      cases choice with
      | go => exact .handed waits rfl (Option.some.inj executed).symm
      | _ => cases executed
  | wait =>
      cases choice with
      | go =>
          simp only [OnewayCall.exec] at executed
          cases once : state.once <;> rw [once] at executed <;> cases executed
          · exact .entered rfl once rfl
          · exact .joined rfl once rfl
      | _ => cases executed
  | collect =>
      cases choice with
      | go =>
          simp only [OnewayCall.exec] at executed
          cases holds : call.err <;> rw [holds] at executed <;> cases executed
          · exact .began rfl holds rfl
          · exact .held _ rfl holds rfl
      | _ => cases executed
  | iterate remaining errs =>
      cases remaining <;> cases choice
      case zero.go => exact .exhausted errs rfl (Option.some.inj executed).symm
      case succ.go remaining =>
        simp only [OnewayCall.exec] at executed
        cases chan : state.responseChan <;> rw [chan] at executed <;>
          cases executed
        · exact .starved remaining errs rfl chan (by rw [chan])
        · exact .received remaining errs _ _ (.inl rfl) chan rfl
      all_goals cases executed
  | receive remaining errs =>
      cases choice with
      | go =>
          simp only [OnewayCall.exec] at executed
          cases chan : state.responseChan <;> rw [chan] at executed <;>
            cases executed
          exact .received remaining errs _ _ (.inr rfl) chan rfl
      | done =>
          obtain ⟨err, expired, equal⟩ := Option.map_eq_some_iff.mp executed
          exact .ended remaining errs err rfl expired equal.symm
      | response => cases executed
  | waited =>
      cases choice with
      | go => exact .returned rfl (Option.some.inj executed).symm
      | _ => cases executed

end Steps

/-! ## Every node is accounted for -/

/-- The node to whose confirmation an operation leads. -/
def OnewayOp.node : OnewayOp → List ID
  | .fanOut op => op.node
  | _ => []

/-- The confirmations that have arrived, in arrival order. -/
def OnewayState.arrivals (state : OnewayState) : List Response :=
  state.read ++ state.responseChan

/-- The ledger of a node's confirmation: it is still to come, or has arrived. -/
@[simps] def arrival (node : ID) : Pool.Ledger OnewayState OnewayOp where
  credit state := (state.arrivals.map NodeResponse.nodeID).count node
  weight op := op.node.count node

/-- Whether an operation belongs to a running `collect`. -/
def OnewayOp.collects : OnewayOp → Bool
  | .collect => true
  | .iterate _ _ => true
  | .receive _ _ => true
  | _ => false

/-- The ledger of `once`: `collect` runs while its function does. -/
@[simps] def collector : Pool.Ledger OnewayState OnewayOp where
  credit state := if state.once = .running then 0 else 1
  weight op := op.collects.toNat

section Ledgers

open Pool

variable {call : OnewayCall} {state : OnewayState} {op : OnewayOp}
  {choice : CallChoice} {outcome : Outcome OnewayState OnewayOp}

theorem arrivals_take {resp : Response} {rest : List Response}
    (chan : state.responseChan = resp :: rest) :
    (state.take resp rest).arrivals = state.arrivals := by
  simp [OnewayState.arrivals, OnewayState.take, chan]

/-- Goroutines that only call `Wait` weigh nothing if such a call does. -/
theorem weigh_waits (ledger : Ledger OnewayState OnewayOp)
    (light : ledger.weight .wait = 0) (waits : List Nat) :
    ledger.weigh (waits.map fun count =>
      List.replicate count OnewayOp.wait).flatten = 0 := by
  apply Ledger.weigh_eq_zero
  intro op member
  obtain ⟨thread, inside, held⟩ := List.mem_flatten.mp member
  obtain ⟨count, _, rfl⟩ := List.mem_map.mp inside
  rw [List.eq_of_mem_replicate held, light]

theorem arrival_keeps (node : ID)
    (executed : call.exec state op choice = some outcome) :
    (arrival node).Keeps state op outcome := by
  have unchanged : ∀ {after : OnewayState} {op : OnewayOp}
      {next : List OnewayOp}, after.arrivals = state.arrivals →
      op.node = [] → (∀ op ∈ next, op.node = []) →
      (arrival node).Keeps state op ⟨after, next, []⟩ := by
    intro after op next same light rest
    have zero : (arrival node).weigh next = 0 := by
      apply Ledger.weigh_eq_zero
      intro op member
      simp [rest op member]
    simp [Ledger.Keeps, same, light, zero]
  cases oneway_exec executed with
  | reported sender err running equal =>
      subst running equal
      simp [Ledger.Keeps, OnewayState.arrivals, OnewayOp.node, CallOp.node,
        errorResponse, Nat.add_assoc]
  | delivered sender value err running chosen equal =>
      subst running equal
      simp [Ledger.Keeps, OnewayState.arrivals, OnewayOp.node, CallOp.node,
        Nat.add_assoc]
  | enqueued sender running equal =>
      subst running equal
      simp [Ledger.Keeps, OnewayOp.node, CallOp.node]
  | handed waits running equal =>
      subst running equal
      have light := weigh_waits (arrival node) rfl waits
      simp only [Ledger.Keeps, Ledger.worth_mk, light]
      rfl
  | received remaining errs resp rest running chan equal =>
      subst equal
      have light : op.node = [] := by
        rcases running with rfl | rfl <;> rfl
      unfold OnewayCall.received
      split <;> exact unchanged (arrivals_take chan) light
        (by simp [OnewayOp.node])
  | entered running _ equal
  | joined running _ equal
  | held _ running _ equal
  | began running _ equal
  | exhausted _ running equal
  | starved _ _ running _ equal
  | ended _ _ _ running _ equal
  | returned running equal =>
      subst running equal
      exact unchanged rfl rfl (by simp [OnewayOp.node])

/-- `once` lets `collect` run once; an operation may use that it is the only
one that collects. -/
theorem collector_keeps
    (executed : call.exec state op choice = some outcome)
    (once : collector.credit state + collector.weight op ≤ 1) :
    collector.Keeps state op outcome := by
  have running : op.collects = true → state.once = .running := by
    intro collects
    by_contra different
    simp [collects, different] at once
  cases oneway_exec executed with
  | reported _ _ ran equal
  | delivered _ _ _ ran _ equal
  | enqueued _ ran equal
  | joined ran _ equal
  | returned ran equal =>
      subst ran equal
      simp [Ledger.Keeps, OnewayOp.collects]
  | handed waits ran equal =>
      subst ran equal
      have light := weigh_waits collector rfl waits
      simp only [Ledger.Keeps, Ledger.worth_mk, light]
      rfl
  | entered ran first equal =>
      subst ran equal
      simp [Ledger.Keeps, OnewayOp.collects, first]
  | received remaining errs resp rest ran chan equal =>
      subst equal
      have collects : op.collects = true := by
        rcases ran with rfl | rfl <;> rfl
      have waited : OnewayOp.waited.collects = false := rfl
      have iterates : ∀ remaining errs,
        (OnewayOp.iterate remaining errs).collects = true := fun _ _ => rfl
      unfold OnewayCall.received
      split <;> simp [Ledger.Keeps, OnewayState.finish, OnewayState.take,
        collects, running collects, waited, iterates]
  | began ran _ equal
  | starved _ _ ran _ equal
  | held _ ran _ equal
  | exhausted _ ran equal
  | ended _ _ _ ran _ equal =>
      subst ran equal
      simp [Ledger.Keeps, OnewayOp.collects, OnewayState.finish, running rfl]

end Ledgers

section Balances

open Pool

variable {call : OnewayCall} {waits : List Nat} {state : OnewayPool}
  {allowed : OnewayPool → Label CallChoice Err → Prop}

theorem oneway_env_eq {shared after : OnewayState} {err : Err}
    (acted : call.machine.env shared err = some after) :
    shared.ctxErr = none ∧ after = { shared with ctxErr := some err } := by
  simp only [OnewayCall.machine] at acted
  split at acted
  · cases acted
  · rename_i going
    exact ⟨by simpa using going, (Option.some.inj acted).symm⟩

/-- The nodes to which a call sends. -/
def OnewayCall.targets (call : OnewayCall) : List ID :=
  match call.err with
  | some _ => []
  | none => call.ctx.config

theorem count_dispatch (call : OnewayCall) (node : ID) :
    (arrival node).weigh call.dispatch = call.targets.count node := by
  have each : ∀ ops : List CallOp, (arrival node).weigh (ops.map .fanOut) =
      (ops.flatMap CallOp.node).count node := by
    intro ops
    induction ops with
    | nil => rfl
    | cons op ops inductionHypothesis =>
        rw [List.map_cons, Ledger.weigh_cons, inductionHypothesis,
          List.flatMap_cons, List.count_append]
        rfl
  unfold OnewayCall.dispatch OnewayCall.targets
  split
  · rfl
  · rw [each, (flatMap_node_send call.ctx).count_eq]

/-- Every node's confirmation is still to come, or has arrived. -/
theorem arrivals_perm
    (reached : call.machine.Reach allowed (call.start waits) state) :
    (state.shared.arrivals.map NodeResponse.nodeID ++
      state.ops.flatMap OnewayOp.node).Perm call.targets := by
  apply List.perm_iff_count.mpr
  intro node
  have balance := (arrival node).balanced
    (fun _ _ _ _ executed _ => arrival_keeps node executed)
    (fun _ _ _ acted => by
      obtain ⟨_, rfl⟩ := oneway_env_eq acted
      exact ⟨rfl, rfl⟩) reached
  have weighs : ∀ ops : List OnewayOp, (arrival node).weigh ops =
      (ops.flatMap OnewayOp.node).count node := by
    intro ops
    induction ops with
    | nil => rfl
    | cons op ops inductionHypothesis =>
        rw [Ledger.weigh_cons, inductionHypothesis, List.flatMap_cons,
          List.count_append]
        rfl
  have sent : (arrival node).weigh (call.start waits).ops =
      call.targets.count node := by
    simp [OnewayCall.start, State.ops, count_dispatch, OnewayOp.node]
  rw [List.count_append, ← weighs, ← sent]
  simpa [OnewayCall.start, OnewayState.arrivals] using balance

/-- At most one goroutine collects, and only inside `once`. -/
theorem collector_reached
    (reached : call.machine.Reach allowed (call.start waits) state) :
    collector.credit state.shared + collector.weigh state.ops = 1 := by
  have light : collector.weigh call.dispatch = 0 := by
    apply Ledger.weigh_eq_zero
    intro op member
    unfold OnewayCall.dispatch at member
    split at member
    · cases member
    · obtain ⟨sent, _, rfl⟩ := List.mem_map.mp member
      rfl
  have alone : collector.credit (call.start waits).shared +
      collector.weigh (call.start waits).ops = 1 := by
    simp only [OnewayCall.start, State.ops, List.flatten_singleton,
      Ledger.weigh_append, light]
    rfl
  have balance := collector.balanced
    (fun _ _ _ _ executed within => collector_keeps executed (by
      rw [alone] at within
      exact within))
    (fun _ _ _ acted => by
      obtain ⟨_, rfl⟩ := oneway_env_eq acted
      exact ⟨rfl, rfl⟩) reached
  rw [alone] at balance
  exact balance

end Balances

/-! ## The goroutine that collects -/

section Collector

open Pool

variable {call : OnewayCall} {waits : List Nat} {state : OnewayPool}
  {allowed : OnewayPool → Label CallChoice Err → Prop}

/-- An operation leaves at most one more for its goroutine, and starts none that
collects. -/
theorem length_next_oneway {shared : OnewayState} {op : OnewayOp}
    {choice : CallChoice} {outcome : Outcome OnewayState OnewayOp}
    (executed : call.exec shared op choice = some outcome) :
    outcome.next.length ≤ 1 ∧
      ∀ thread ∈ outcome.spawned, ∀ op ∈ thread, op.collects = false := by
  cases oneway_exec executed with
  | handed waits running equal =>
      subst equal
      refine ⟨Nat.zero_le _, fun thread member op held => ?_⟩
      obtain ⟨count, _, rfl⟩ := List.mem_map.mp member
      rw [List.eq_of_mem_replicate held]
      rfl
  | enqueued node running equal =>
      subst equal
      simp [OnewayOp.collects]
  | received remaining errs resp rest running chan equal =>
      subst equal
      unfold OnewayCall.received
      split <;> simp [OnewayState.finish]
  | reported _ _ _ equal
  | delivered _ _ _ _ _ equal
  | entered _ _ equal
  | joined _ _ equal
  | held _ _ _ equal
  | began _ _ equal
  | exhausted _ _ equal
  | starved _ _ _ _ equal
  | ended _ _ _ _ _ equal
  | returned _ equal =>
      subst equal
      simp [OnewayState.finish]

/-- A goroutine does nothing else before it has collected. -/
theorem collects_tail
    (reached : call.machine.Reach allowed (call.start waits) state) :
    ∀ thread ∈ state.threads, ∀ op ∈ thread.tail, op.collects = false := by
  refine reached.shaped (fun thread => ∀ op ∈ thread.tail, op.collects = false)
    ?_ ?_
  · intro thread member op later
    rw [List.mem_singleton.mp member] at later
    rcases List.mem_append.mp (List.mem_of_mem_tail later) with sent | last
    · unfold OnewayCall.dispatch at sent
      split at sent
      · cases sent
      · obtain ⟨inner, _, rfl⟩ := List.mem_map.mp sent
        rfl
    · rw [List.mem_singleton.mp last]
      rfl
  · intro state thread choice next runs _ _ shaped
    obtain ⟨short, started⟩ := length_next_oneway runs.exec_eq
    refine ⟨?_, fun spawned member op held =>
      started spawned member op (List.mem_of_mem_tail held)⟩
    intro op later
    cases continued : runs.outcome.next with
    | nil =>
        rw [continued] at later
        exact shaped op (List.mem_of_mem_tail later)
    | cons first following =>
        rw [continued] at short later
        have alone : following = [] :=
          List.length_eq_zero_iff.mp (by simpa using short)
        rw [alone] at later
        exact shaped op later

/-- While `once` runs its function, some goroutine collects. -/
theorem exists_collector
    (reached : call.machine.Reach allowed (call.start waits) state)
    (running : state.shared.once = .running) :
    ∃ thread op, state.head? thread = some op ∧ op.collects = true := by
  have balance := collector_reached reached
  rw [collector_credit, if_pos running] at balance
  obtain ⟨op, member, collects⟩ : ∃ op ∈ state.ops, op.collects = true := by
    by_contra none
    have light : collector.weigh state.ops = 0 := by
      apply Ledger.weigh_eq_zero
      intro op member
      cases collects : op.collects with
      | false => simp [collects]
      | true => exact absurd ⟨op, member, collects⟩ none
    omega
  obtain ⟨ops, inside, held⟩ := List.mem_flatten.mp member
  obtain ⟨thread, found⟩ := List.mem_iff_getElem?.mp inside
  cases ops with
  | nil => cases held
  | cons first rest =>
      rcases List.mem_cons.mp held with rfl | later
      · exact ⟨thread, op, by simp [State.head?, found], collects⟩
      · cases collects.symm.trans (collects_tail reached _ inside op later)

/-- A goroutine whose next operation leads to the return of `Wait` returns with
its second step from now. -/
def OnewayCall.Returns (call : OnewayCall) (state : OnewayPool) (thread : Nat)
    (result : Option CallError) : Prop :=
  ∃ collected after, call.machine.step state (.run thread .go) = some collected ∧
    call.machine.step collected (.run thread .go) = some after ∧
    after.shared.returned = state.shared.returned ++ [result]

theorem returns_of_exec {thread : Nat} {op : OnewayOp} {after : OnewayState}
    (next : state.head? thread = some op)
    (executed : call.exec state.shared op .go = some ⟨after, [.waited], []⟩)
    (kept : after.returned = state.shared.returned) :
    call.Returns state thread after.err := by
  obtain ⟨ops, found, first⟩ := Option.bind_eq_some_iff.mp next
  obtain ⟨rest, rfl⟩ := List.head?_eq_some_iff.mp first
  obtain ⟨inside, _⟩ := List.getElem?_eq_some_iff.mp found
  refine ⟨⟨after, state.threads.set thread (.waited :: rest)⟩,
    ⟨{ after with returned := after.returned ++ [after.err] },
      (state.threads.set thread (.waited :: rest)).set thread rest⟩, ?_, ?_, ?_⟩
  · simp [Machine.step, OnewayCall.machine, found, executed]
  · simp [Machine.step, OnewayCall.machine, OnewayCall.exec, inside]
  · rw [← kept]

/-- A node that is still to confirm leaves room in the response channel. -/
theorem room_of_unconfirmed
    (reached : call.machine.Reach allowed (call.start waits) state)
    {op : OnewayOp} (pending : op ∈ state.ops) (confirms : op.node ≠ []) :
    state.shared.responseChan.length < call.ctx.config.length := by
  have total := (arrivals_perm reached).length_eq
  have some : 0 < (state.ops.flatMap OnewayOp.node).length := by
    apply List.length_pos_of_ne_nil
    intro none
    exact confirms (List.flatMap_eq_nil_iff.mp none op pending)
  have few : call.targets.length ≤ call.ctx.config.length := by
    unfold OnewayCall.targets
    split <;> simp
  simp only [OnewayState.arrivals, List.length_append, List.length_map] at total
  omega

end Collector

end Quorum
end Gorums
