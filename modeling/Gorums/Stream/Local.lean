import Gorums.Stream.State
import Gorums.Pool.Ledger

/-!
# Local channels

A local channel passes requests to a handler of its own process.  Handlers run
one at a time in request order, under the dispatcher that streams use.  The
`send` function of a request delivers each message to the caller directly, with
no table of pending calls in between.
-/

namespace Gorums
namespace Stream

/-- A request handler: the messages that `HandleRequest` passes to `send` for a
request, in order. -/
abbrev RequestHandler := Message → List Message

/-- The parameters of a local channel. -/
structure LocalConfig where
  /-- The ID of the node. -/
  id : ID
  /-- The request handler, or `none` for a nil handler. -/
  handler : Option RequestHandler
  /-- The number of requests that can wait for the running handler. -/
  recvBufferSize : Nat

/-- What the handler sends in response to a request. -/
def LocalConfig.replies (config : LocalConfig) (req : Request) : List Message :=
  match config.handler with
  | none => []
  | some handler => handler req.msg

/-- The shared state of a local channel. -/
structure LocalShared where
  /-- The error of each context that has ended. -/
  ctxErr : Nat → Option Err := fun _ => none
  /-- Whether a response channel has no room. -/
  full : Nat → Bool := fun _ => false
  /-- The dispatcher of queued requests. -/
  requests : Dispatcher Request := {}
  /-- The number of unmatched error replies. -/
  unmatchedErrors : Nat := 0
  /-- History: the responses delivered. -/
  responses : List (Request × Response) := []
  /-- History: the requests that `Enqueue` has failed. -/
  failed : List Request := []
  /-- History: the requests for each response that found no room before their
  context ended. -/
  dropped : List Request := []

/-- Whether a context has ended. -/
def LocalShared.ended (shared : LocalShared) (ctx : Nat) : Bool :=
  (shared.ctxErr ctx).isSome

/-- Whether a request's response channel has no room; a nil channel never
has. -/
def LocalShared.noRoom (shared : LocalShared) (req : Request) : Bool :=
  match req.responseChan with
  | none => true
  | some chan => shared.full chan

/-- The atomic operations of the goroutines of a local channel and of its
users. -/
inductive LocalOp
  /-- A call of `Enqueue`: load the request's context. -/
  | enqueue (req : Request)
  /-- `Enqueue`: queue the request for the handler. -/
  | push (req : Request)
  /-- An operation on the dispatcher. -/
  | dispatch (op : DispatchOp Request)
  /-- `HandleRequest`, with the messages that it has still to send. -/
  | handler (position : Nat) (req : Request) (msgs : List Message)
  /-- A call of `send`: load the request's context. -/
  | send (req : Request) (msg : Message)
  /-- `Request.deliver`: the first select. -/
  | deliver (req : Request) (resp : Response)
  /-- `Request.deliver`: the second select. -/
  | offer (req : Request) (resp : Response)

/-- What the environment of a local channel does. -/
inductive LocalEvent
  /-- A context ends. -/
  | endContext (ctx : Nat) (err : Err)
  /-- A response channel fills up or gets room again. -/
  | setFull (chan : Nat) (full : Bool)

/-- The effect of an operation of a local channel. -/
abbrev LocalEffect := Pool.Outcome LocalShared LocalOp

/-- A state of a local channel with its goroutines. -/
abbrev LocalState := Pool.State LocalShared LocalOp

/-- A new local channel with goroutines that each enqueue some requests. -/
def newLocalChannel (users : List (List Request)) : LocalState :=
  { shared := {}, threads := users.map fun reqs => reqs.map .enqueue }

namespace LocalConfig

variable (config : LocalConfig)

/-- `sendErrorResponse`, after which `Enqueue` returns. -/
def failRequest (shared : LocalShared) (req : Request) (err : Err) :
    LocalEffect :=
  ⟨{ shared with failed := shared.failed ++ [req] },
    if req.responseChan.isSome then [.deliver req (errorResponse config.id err)]
    else [], []⟩

/-- Whether an operation on the dispatcher belongs to the dispatcher alone;
pushes and handlers have operations of their own here. -/
def internal : DispatchOp Request → Bool
  | .push _ => false
  | .tryPush _ => false
  | .handler _ _ => false
  | .helper _ _ => false
  | _ => true

/-- An operation that follows from one on the dispatcher. -/
def dispatched : DispatchOp Request → LocalOp
  | .handler position req => .handler position req (config.replies req)
  | op => .dispatch op

/-- Execute one operation on the dispatcher, which never stops. -/
def execDispatch (shared : LocalShared) (op : DispatchOp Request)
    (branch : Branch) : Option LocalEffect :=
  (shared.requests.exec config.recvBufferSize false
    (fun req => shared.ended req.ctx) op branch).map fun outcome =>
      ⟨{ shared with requests := outcome.shared },
        outcome.next.map config.dispatched,
        outcome.spawned.map fun ops => ops.map config.dispatched⟩

/-- The confirmation of a one-way request that has been queued. -/
def confirmation (req : Request) : List LocalOp :=
  if req.wantSendConfirmation then
    [.deliver req { nodeID := config.id, value := none }]
  else []

/-- Execute one operation of a local channel. -/
def exec (shared : LocalShared) : LocalOp → Branch → Option LocalEffect
  | .enqueue req, .first =>
      if req.oneway && req.streaming then none
      else
        match shared.ctxErr req.ctx, config.handler with
        | some err, _ => some (config.failRequest shared req err)
        | none, none =>
            some (config.failRequest shared req
              (.status .unimplemented "no request handler registered"))
        | none, some _ => some ⟨shared, [.push req], []⟩
  | .push req, .first =>
      -- `tryPush` and `push` both take a free slot and admit the request.
      if shared.requests.slots < config.recvBufferSize then
        some ⟨{ shared with
            requests :=
              { shared.requests with slots := shared.requests.slots + 1 } },
          .dispatch (.admitRun req) :: config.confirmation req, []⟩
      else none
  | .push req, .second =>
      if req.wantServerResponse then
        if shared.requests.slots < config.recvBufferSize then none
        else some (config.failRequest shared req errSendQueueFull)
      else
        (shared.ctxErr req.ctx).map (config.failRequest shared req)
  | .dispatch op, branch =>
      if internal op then config.execDispatch shared op branch else none
  | .handler position _ [], .first =>
      some ⟨shared, [.dispatch (.returned position)], []⟩
  | .handler position req (msg :: msgs), .first =>
      some ⟨shared, [.send req msg, .handler position req msgs], []⟩
  | .handler position req msgs, .second =>
      some ⟨shared,
        [.dispatch (.release position), .handler position req msgs], []⟩
  | .send req msg, .first =>
      -- No caller observes an error of a one-way request, or of one whose
      -- caller is done.
      let unobserved := !req.wantServerResponse || shared.ended req.ctx
      some ⟨{ shared with
          unmatchedErrors := shared.unmatchedErrors +
            if msg.errorStatus.isSome && unobserved then 1 else 0 },
        if req.wantServerResponse then
          [.deliver req
            { nodeID := config.id, value := some msg, err := msg.errorStatus }]
        else [], []⟩
  | .deliver req resp, .first =>
      if shared.noRoom req then none
      else some ⟨{ shared with
        responses := shared.responses ++ [(req, resp)] }, [], []⟩
  | .deliver req resp, .second =>
      if shared.noRoom req then some ⟨shared, [.offer req resp], []⟩ else none
  | .offer req resp, .first =>
      if shared.noRoom req then none
      else some ⟨{ shared with
        responses := shared.responses ++ [(req, resp)] }, [], []⟩
  | .offer req _, .second =>
      if shared.ended req.ctx then
        some ⟨{ shared with dropped := shared.dropped ++ [req] }, [], []⟩
      else none
  | _, _ => none

/-- Let the environment act. -/
def environment (shared : LocalShared) : LocalEvent → Option LocalShared
  | .endContext ctx err =>
      if shared.ended ctx then none
      else some { shared with
        ctxErr := fun other =>
          if other = ctx then some err else shared.ctxErr other }
  | .setFull chan full =>
      some { shared with
        full := fun other =>
          if other = chan then full else shared.full other }

/-- The machine of a local channel. -/
def machine : Pool.Machine LocalShared LocalOp Branch LocalEvent where
  exec := config.exec
  env := environment

/-- The states that a run of a new local channel reaches. -/
def Reaches (users : List (List Request)) (state : LocalState) : Prop :=
  config.machine.Reach (fun _ _ => True) (newLocalChannel users) state

/-- The cases of one operation of a local channel. -/
inductive Does (shared : LocalShared) : LocalOp → LocalEffect → Prop
  /-- `Enqueue` fails the request. -/
  | failed (calls : op = .enqueue req ∨ op = .push req) :
      Does shared op (config.failRequest shared req err)
  /-- The request is passed on to the handler. -/
  | accepted :
      Does shared (.enqueue req) ⟨shared, [.push req], []⟩
  /-- The request takes a slot. -/
  | pushed :
      Does shared (.push req)
        ⟨{ shared with
            requests :=
              { shared.requests with slots := shared.requests.slots + 1 } },
          .dispatch (.admitRun req) :: config.confirmation req, []⟩
  /-- An operation of the dispatcher. -/
  | dispatched (inside : internal op = true)
      (executed : config.execDispatch shared op branch = some outcome) :
      Does shared (.dispatch op) outcome
  /-- The handler returns. -/
  | returned :
      Does shared (.handler position req [])
        ⟨shared, [.dispatch (.returned position)], []⟩
  /-- The handler sends a message. -/
  | replied :
      Does shared (.handler position req (msg :: msgs))
        ⟨shared, [.send req msg, .handler position req msgs], []⟩
  /-- The handler releases the dispatcher. -/
  | released :
      Does shared (.handler position req msgs)
        ⟨shared, [.dispatch (.release position), .handler position req msgs],
          []⟩
  /-- A message is counted, and delivered if its caller waits for it. -/
  | sent :
      Does shared (.send req msg)
        ⟨{ shared with unmatchedErrors := unmatchedErrors },
          if req.wantServerResponse then
            [.deliver req
              { nodeID := config.id, value := some msg,
                err := msg.errorStatus }]
          else [], []⟩
  /-- The response channel has room. -/
  | delivered (delivers : op = .deliver req resp ∨ op = .offer req resp) :
      Does shared op
        ⟨{ shared with responses := shared.responses ++ [(req, resp)] }, [], []⟩
  /-- The response channel has no room. -/
  | full :
      Does shared (.deliver req resp) ⟨shared, [.offer req resp], []⟩
  /-- The caller is done. -/
  | gaveUp (ended : shared.ended req.ctx = true) :
      Does shared (.offer req resp)
        ⟨{ shared with dropped := shared.dropped ++ [req] }, [], []⟩

variable {config}

theorem exec_does {shared : LocalShared} {op : LocalOp} {branch : Branch}
    {outcome : LocalEffect}
    (executed : config.exec shared op branch = some outcome) :
    config.Does shared op outcome := by
  cases op <;> cases branch
  case enqueue.first req =>
    simp only [exec] at executed
    split at executed
    · cases executed
    · split at executed <;> cases executed
      · exact .failed (.inl rfl)
      · exact .failed (.inl rfl)
      · exact .accepted
  case push.first req =>
    simp only [exec] at executed
    split at executed <;> cases executed
    exact .pushed
  case push.second req =>
    simp only [exec] at executed
    split at executed
    · split at executed <;> cases executed
      exact .failed (.inr rfl)
    · obtain ⟨err, _, rfl⟩ := Option.map_eq_some_iff.mp executed
      exact .failed (.inr rfl)
  case handler.first position req msgs =>
    cases msgs <;> cases executed
    · exact .returned
    · exact .replied
  case handler.second position req msgs =>
    cases msgs <;> cases executed <;> exact .released
  case send.first req msg =>
    cases executed
    exact .sent
  case deliver.first req resp =>
    simp only [exec] at executed
    split at executed <;> cases executed
    exact .delivered (.inl rfl)
  case deliver.second req resp =>
    simp only [exec] at executed
    split at executed <;> cases executed
    exact .full
  case offer.first req resp =>
    simp only [exec] at executed
    split at executed <;> cases executed
    exact .delivered (.inr rfl)
  case offer.second req resp =>
    simp only [exec] at executed
    split at executed <;> cases executed
    exact .gaveUp ‹_›
  case handler.third position req msgs =>
    cases msgs <;> cases executed
  all_goals first
    | cases executed
    | simp only [exec] at executed
      split at executed
      · exact .dispatched ‹_› executed
      · cases executed

end LocalConfig

/-- The responses delivered to a request. -/
def LocalShared.deliveries (shared : LocalShared) (req : Request) :
    List Response :=
  (shared.responses.filter fun delivery => delivery.1 = req).map Prod.snd

theorem LocalShared.length_deliveries (shared : LocalShared) (req : Request) :
    (shared.deliveries req).length =
      (shared.responses.map Prod.fst).count req := by
  unfold LocalShared.deliveries
  rw [List.length_map, List.count_eq_countP, List.countP_map,
    List.countP_eq_length_filter]
  rfl

/-! ## Every response that a handler sends is delivered -/

/-- What an operation has still to do for a request before its handler
starts. -/
def LocalOp.waiting : LocalOp → List Request
  | .enqueue req => [req]
  | .push req => [req]
  | .dispatch (.admitRun req) => [req]
  | .dispatch (.start req) => [req]
  | .dispatch (.begin req) => [req]
  | _ => []

/-- The requests to which an operation has still to deliver a response, one for
each response. -/
def LocalOp.owed : LocalOp → List Request
  | .handler _ req msgs => List.replicate msgs.length req
  | .send req _ => [req]
  | .deliver req _ => [req]
  | .offer req _ => [req]
  | _ => []

/-- Where a request is until its handler starts. -/
@[simps] def admission (req : Request) : Pool.Ledger LocalShared LocalOp where
  credit shared :=
    shared.requests.queue.count req + shared.requests.started.count req +
      shared.failed.count req
  weight op := op.waiting.count req

/-- The responses to a request: those delivered or dropped and those that are
still to come, against what its handlers and `Enqueue` send. -/
@[simps] def payment (config : LocalConfig) (req : Request) :
    Pool.Ledger LocalShared LocalOp where
  credit shared :=
    (shared.responses.map Prod.fst).count req + shared.dropped.count req
  debit shared :=
    shared.requests.started.count req * (config.replies req).length +
      shared.failed.count req
  weight op := op.owed.count req

section Ledgers

open Pool

variable {config : LocalConfig} {shared : LocalShared} {outcome : LocalEffect}
  {req : Request}

theorem admission_execDispatch {op : DispatchOp Request} {branch : Branch}
    (internal : LocalConfig.internal op = true)
    (executed : config.execDispatch shared op branch = some outcome) :
    (admission req).Keeps shared (.dispatch op) outcome := by
  obtain ⟨effect, ran, rfl⟩ := Option.map_eq_some_iff.mp executed
  unfold Ledger.Keeps
  cases Dispatcher.exec_does ran with
  | nextNone took | takeNone took =>
      obtain ⟨queue, started⟩ := Dispatcher.take_of_open took
      simp [LocalConfig.dispatched, LocalOp.waiting, queue, started]
  | nextFound took | takeFound took =>
      obtain ⟨queue, started⟩ := Dispatcher.take_of_open took
      simp [LocalConfig.dispatched, LocalOp.waiting, queue, started,
        List.count_cons]
      omega
  | _ =>
      simp_all [LocalConfig.internal, LocalConfig.dispatched, LocalOp.waiting,
        Dispatcher.setOnce] <;> omega

theorem payment_execDispatch {op : DispatchOp Request} {branch : Branch}
    (internal : LocalConfig.internal op = true)
    (executed : config.execDispatch shared op branch = some outcome) :
    (payment config req).Keeps shared (.dispatch op) outcome := by
  obtain ⟨effect, ran, rfl⟩ := Option.map_eq_some_iff.mp executed
  unfold Ledger.Keeps
  cases Dispatcher.exec_does ran with
  | @begun run =>
      -- The handler owes all its replies when it starts.
      by_cases same : run = req
      · simp [LocalConfig.dispatched, LocalOp.owed, same, Nat.add_mul]
        omega
      · simp [LocalConfig.dispatched, LocalOp.owed, same, List.count_replicate]
  | nextNone took | nextFound took | takeNone took | takeFound took =>
      simp [LocalConfig.dispatched, LocalOp.owed,
        (Dispatcher.take_of_open took).2]
  | _ =>
      simp_all [LocalConfig.internal, LocalConfig.dispatched, LocalOp.owed,
        Dispatcher.setOnce]

/-- Operations that deliver a response hold no request that waits. -/
theorem admission_failRequest (other : Request) (err : Err) :
    (admission req).worth (config.failRequest shared other err) =
      (admission req).credit shared + [other].count req := by
  unfold LocalConfig.failRequest
  split <;> simp [LocalOp.waiting] <;> omega

/-- A two-way request that fails is owed the error. -/
theorem payment_failRequest {op : LocalOp} {other : Request} {err : Err}
    (want : req.wantServerResponse = true) (free : op.owed = []) :
    (payment config req).Keeps shared op
      (config.failRequest shared other err) := by
  unfold Ledger.Keeps LocalConfig.failRequest
  split
  · have owes : (LocalOp.deliver other
        (errorResponse config.id err)).owed = [other] := rfl
    simp [owes, free]
    omega
  · rename_i silent
    have different : other ≠ req := by
      rintro rfl
      simp [Request.wantServerResponse, silent] at want
    simp [free, different]

@[simp] theorem admission_confirmation (other : Request) :
    (admission req).weigh (config.confirmation other) = 0 := by
  unfold LocalConfig.confirmation
  split <;> rfl

/-- A two-way request gets no confirmation. -/
theorem payment_confirmation (want : req.wantServerResponse = true)
    (other : Request) :
    (payment config req).weigh (config.confirmation other) = 0 := by
  unfold LocalConfig.confirmation
  split
  · rename_i confirm
    have different : other ≠ req := by
      rintro rfl
      simp_all [Request.wantServerResponse, Request.wantSendConfirmation]
    simp [LocalOp.owed, different]
  · rfl

theorem admission_exec {op : LocalOp} {branch : Branch}
    (executed : config.exec shared op branch = some outcome) :
    (admission req).Keeps shared op outcome := by
  unfold Ledger.Keeps
  cases LocalConfig.exec_does executed with
  | failed calls =>
      rcases calls with rfl | rfl <;>
        simp only [admission_failRequest, admission_weight, LocalOp.waiting,
          admission_debit]
  | dispatched inside executed => exact admission_execDispatch inside executed
  | delivered delivers =>
      rcases delivers with rfl | rfl <;> simp [LocalOp.waiting]
  | _ => simp [LocalOp.waiting]

theorem payment_exec {op : LocalOp} {branch : Branch}
    (want : req.wantServerResponse = true)
    (executed : config.exec shared op branch = some outcome) :
    (payment config req).Keeps shared op outcome := by
  cases LocalConfig.exec_does executed with
  | failed calls =>
      rcases calls with rfl | rfl <;> exact payment_failRequest want rfl
  | dispatched inside executed => exact payment_execDispatch inside executed
  | replied =>
      simp [Ledger.Keeps, LocalOp.owed, List.replicate_succ, List.count_cons]
      omega
  | @sent other msg =>
      by_cases same : other = req
      · simp [Ledger.Keeps, LocalOp.owed, same, want]
      · simp [Ledger.Keeps, LocalOp.owed, same]
  | delivered delivers =>
      rcases delivers with rfl | rfl <;>
        simp [Ledger.Keeps, LocalOp.owed] <;> omega
  | _ =>
      simp [Ledger.Keeps, LocalOp.owed, payment_confirmation want] <;> omega

/-- The environment ends contexts and fills response channels. -/
theorem environment_eq {event : LocalEvent} {after : LocalShared}
    (acted : LocalConfig.environment shared event = some after) :
    ∃ ctxErr full, after = { shared with ctxErr := ctxErr, full := full } := by
  revert acted
  fun_cases LocalConfig.environment shared event <;> intro acted <;>
    cases acted <;> exact ⟨_, _, rfl⟩

/-- A new local channel has nothing but the calls of its users. -/
theorem weigh_start {ledger : Ledger LocalShared LocalOp} {req : Request}
    (calls : ∀ call, ledger.weight (.enqueue call) = [call].count req)
    (users : List (List Request)) :
    ledger.weigh (newLocalChannel users).ops = users.flatten.count req := by
  have each : ∀ reqs : List Request,
      ledger.weigh (reqs.map .enqueue) = reqs.count req := by
    intro reqs
    induction reqs with
    | nil => rfl
    | cons call reqs inductionHypothesis =>
        rw [List.map_cons, Ledger.weigh_cons, inductionHypothesis, calls,
          ← List.count_append, List.singleton_append]
  unfold newLocalChannel State.ops
  induction users with
  | nil => rfl
  | cons reqs users inductionHypothesis =>
      simp only [List.map_cons, List.flatten_cons, Ledger.weigh_append, each,
        List.count_append] at inductionHypothesis ⊢
      rw [inductionHypothesis]

theorem payment_start (users : List (List Request)) :
    (payment config req).weigh (newLocalChannel users).ops = 0 := by
  refine Ledger.weigh_eq_zero fun op member => ?_
  obtain ⟨thread, inside, member⟩ := List.mem_flatten.mp member
  obtain ⟨reqs, _, rfl⟩ := List.mem_map.mp inside
  obtain ⟨call, _, rfl⟩ := List.mem_map.mp member
  rfl

end Ledgers

section Runs

open Pool

variable {config : LocalConfig} {users : List (List Request)}
  {state : LocalState} {req : Request}

/-- In every run, a request waits for its handler, has been passed to it, or has
failed. -/
theorem admission_reached (reached : config.Reaches users state)
    (req : Request) :
    (admission req).credit state.shared + (admission req).weigh state.ops =
      users.flatten.count req := by
  have balance := (admission req).balanced
    (fun _ _ _ _ executed _ => admission_exec executed)
    (fun _ _ _ acted => by
      obtain ⟨_, _, rfl⟩ := environment_eq acted
      exact ⟨rfl, rfl⟩) reached
  rw [weigh_start fun _ => rfl] at balance
  simpa [newLocalChannel] using balance

/-- In every run, what a two-way request has got and is still to get is what its
handlers and `Enqueue` send. -/
theorem payment_reached (want : req.wantServerResponse = true)
    (reached : config.Reaches users state) :
    (payment config req).credit state.shared +
        (payment config req).weigh state.ops =
      (payment config req).debit state.shared := by
  have balance := (payment config req).balanced
    (fun _ _ _ _ executed _ => payment_exec want executed)
    (fun _ _ _ acted => by
      obtain ⟨_, _, rfl⟩ := environment_eq acted
      exact ⟨rfl, rfl⟩) reached
  rw [payment_start] at balance
  simpa [newLocalChannel] using balance

/-- What one operation does to the contexts and to dropped responses. -/
theorem dropped_exec {shared : LocalShared} {op : LocalOp} {branch : Branch}
    {outcome : LocalEffect}
    (executed : config.exec shared op branch = some outcome) :
    outcome.shared.ctxErr = shared.ctxErr ∧
      ∀ dropped ∈ outcome.shared.dropped,
        dropped ∈ shared.dropped ∨ shared.ended dropped.ctx = true := by
  have kept : ∀ {after : LocalShared}, after.ctxErr = shared.ctxErr →
      after.dropped = shared.dropped →
      after.ctxErr = shared.ctxErr ∧ ∀ dropped ∈ after.dropped,
        dropped ∈ shared.dropped ∨ shared.ended dropped.ctx = true := by
    intro after ctxErr same
    exact ⟨ctxErr, fun dropped member => .inl (same ▸ member)⟩
  cases LocalConfig.exec_does executed with
  | dispatched inside executed =>
      obtain ⟨effect, _, rfl⟩ := Option.map_eq_some_iff.mp executed
      exact kept rfl rfl
  | gaveUp ended =>
      refine ⟨rfl, fun dropped member => ?_⟩
      rcases List.mem_append.mp member with earlier | now
      · exact .inl earlier
      · rw [List.mem_singleton.mp now]
        exact .inr ended
  | _ => exact kept rfl rfl

/-- A response is dropped only after its caller's context has ended. -/
theorem ended_of_dropped (reached : config.Reaches users state) :
    ∀ dropped ∈ state.shared.dropped, state.shared.ended dropped.ctx = true := by
  refine reached.invariant (fun state => ∀ dropped ∈ state.shared.dropped,
    state.shared.ended dropped.ctx = true) (List.forall_mem_nil _) ?_
  intro state label next _ ended _ stepped dropped member
  rcases Machine.step_cases stepped with
    ⟨thread, branch, _, ⟨runs⟩⟩ | ⟨event, shared, _, acted, equal⟩
  · obtain ⟨ctxErr, origin⟩ := dropped_exec runs.exec_eq
    rw [runs.next_shared] at member ⊢
    unfold LocalShared.ended
    rw [ctxErr]
    rcases origin dropped member with earlier | now
    · exact ended dropped earlier
    · exact now
  · rw [equal] at member ⊢
    revert acted
    change LocalConfig.environment state.shared event = some shared → _
    fun_cases LocalConfig.environment state.shared event <;> intro acted <;>
      cases acted
    · have before := ended dropped member
      unfold LocalShared.ended at before ⊢
      dsimp only
      split
      · rfl
      · exact before
    · exact ended dropped member

/-- A two-way request whose handler has run, and whose context has not ended,
gets every message that its handler sends. -/
theorem local_deliveries (distinct : users.flatten.Nodup)
    (want : req.wantServerResponse = true)
    (reached : config.Reaches users state) (finished : state.ops = [])
    (handled : req ∈ state.shared.requests.started)
    (unended : state.shared.ctxErr req.ctx = none) :
    (state.shared.deliveries req).length = (config.replies req).length := by
  have admitted := admission_reached reached req
  have paid := payment_reached want reached
  have once := List.nodup_iff_count_le_one.mp distinct req
  have started := List.count_pos_iff.mpr handled
  have kept : state.shared.dropped.count req = 0 := by
    refine List.count_eq_zero.mpr fun member => ?_
    have ended := ended_of_dropped reached req member
    simp [LocalShared.ended, unended] at ended
  rw [finished] at admitted paid
  simp only [admission_credit, payment_credit, payment_debit,
    Ledger.weigh_nil, Nat.add_zero] at admitted paid
  have sole : state.shared.requests.started.count req = 1 := by omega
  have unfailed : state.shared.failed.count req = 0 := by omega
  rw [sole, unfailed, kept, Nat.one_mul] at paid
  rw [LocalShared.length_deliveries]
  omega

end Runs

end Stream
end Gorums
