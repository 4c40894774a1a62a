import Gorums.Stream.Outbound
import Gorums.Pool.Ledger

/-!
# Channels

The machine of one outbound or inbound channel: all goroutines of the channel,
the goroutines that use it, and what the environment does.  The environment
ends contexts, advances the clock, fills response channels and receives what
was sent.
-/

namespace Gorums
namespace Stream

/-- Execute one operation of the send goroutine of an inbound channel. -/
def execInbound (shared : Shared) : InboundOp → Choice → Option Effect
  | .header, .pick .first => some ⟨shared, [.send 0 .serve .select], []⟩
  | .header, .err _ => some ⟨shared, [.inbound .ctx], []⟩
  | .ctx, .pick .first =>
      some ⟨shared,
        if shared.ended 0 then [.send 0 .serve .select]
        else [.inbound .frame], []⟩
  | .frame, .pick .first =>
      some ⟨shared.log fun history =>
          { history with sends := history.sends ++ [(0, none)] },
        [.send 0 .serve .select], []⟩
  | .left req, .pick .first =>
      some ⟨shared, failRequest req errStreamDown ++ [.inbound .cancel], []⟩
  | .cancel, .pick .first =>
      some ⟨shared.cancel, [.lock .inbound], []⟩
  | _, _ => none

/-- Execute one operation of the body of `Close`. -/
def execClose (config : Config) (shared : Shared) :
    CloseOp → Choice → Option Effect
  | .cancel, .pick .first =>
      match config.kind with
      | .outbound => some ⟨shared.cancel, [.lock .close], []⟩
      | .inbound => some ⟨shared.cancel, [.close .endCancel], []⟩
  | .endCancel, .pick .first =>
      some ⟨shared.cancelSession 0, [.close .endDrain], []⟩
  | .endDrain, .order calls =>
      if calls.isPerm (shared.session 0).pending.reqs then
        some (drainCalls shared 0 none calls [.lock .close])
      else none
  | .wait, .pick .first =>
      if shared.wg = 0 then some ⟨shared, [.close .finish], []⟩ else none
  | .finish, .pick .first =>
      some ⟨{ shared with closeOnce := .done }, [], []⟩
  | _, _ => none

/-- `sendQueue.close`: fail the requests left in the queue, then return. -/
def execDrainQueue (config : Config) (shared : Shared) (closer : Closer) :
    Option Effect :=
  match shared.queue.ch, closer, config.kind with
  | req :: rest, _, _ =>
      some ⟨shared.onQueue fun queue => { queue with ch := rest },
        [.queue (.fail req errNodeClosed), .drainQueue closer], []⟩
  | [], .run, _ => some ⟨shared, [.exit true], []⟩
  | [], .inbound, _ => some ⟨shared, [.exit true], []⟩
  | [], .close, .outbound => some ⟨shared, [.close .wait], []⟩
  | [], .close, .inbound => some ⟨shared, [.close .finish], []⟩

/-- Lift the effect of a dispatcher operation to the channel. -/
def liftDispatch (shared : Shared)
    (outcome : Pool.Outcome (Dispatcher Job) (DispatchOp Job)) : Effect :=
  ⟨{ shared with requests := outcome.shared },
    outcome.next.map .dispatch,
    outcome.spawned.map fun ops => ops.map .dispatch⟩

/-- `endpoint.reply`, called by a handler or by a goroutine of it. -/
def reply (config : Config) (shared : Shared) (job : Job) (msg : Message)
    (op : DispatchOp Job) : Effect :=
  ⟨shared,
    [.queue (.rlock (replyRequest job msg) config.waitingReplies .reply),
      .dispatch op], []⟩

/-- Execute one operation on the dispatcher. -/
def execDispatch (config : Config) (shared : Shared) :
    DispatchOp Job → Choice → Option Effect
  | .handler position job, .reply msg =>
      some (reply config shared job msg (.handler position job))
  | .helper position job, .reply msg =>
      some (reply config shared job msg (.helper position job))
  | op, .pick branch =>
      (shared.requests.exec config.recvBufferSize (shared.ended 0)
        (fun _ => shared.ended 0) op branch).map (liftDispatch shared)
  | _, _ => none

/-- Whether the goroutine that watches for a GOAWAY works on a session that has
been opened. -/
@[simp]
def WatchOp.opened (k opened : Nat) : WatchOp → Bool
  | .call => true
  | _ => decide (k < opened)

/-- Whether the run loop works on a session that has been opened. -/
@[simp]
def RunOp.opened (opened : Nat) : RunOp → Bool
  | .down k _ _ => decide (k < opened)
  | .ended k _ _ => decide (k < opened)
  | .verdict k _ _ => decide (k < opened)
  | .accepted k _ _ _ _ => decide (k < opened)
  | .connect k _ _ => decide (k < opened)
  | _ => true

/-- Whether the body of `Close` works on a session that has been opened. -/
@[simp]
def CloseOp.opened (opened : Nat) : CloseOp → Bool
  | .endCancel => decide (0 < opened)
  | .endDrain => decide (0 < opened)
  | _ => true

/-- Whether an operation belongs to a session that has been opened. -/
def Op.opened (opened : Nat) : Op → Bool
  | .queue _ => true
  | .session k _ => decide (k < opened)
  | .dispatch _ => true
  | .send k _ _ => decide (k < opened)
  | .recv k _ => decide (k < opened)
  | .watch k op => op.opened k opened
  | .run op => op.opened opened
  | .close op => op.opened opened
  | .inbound _ => decide (0 < opened)
  | .lock _ => true
  | .drainQueue _ => true
  | .exit _ => true

/-- `sendQueue.close`: close the queue once no push holds its mutex. -/
def execLock (shared : Shared) (closer : Closer) : Option Effect :=
  if shared.queue.readers = 0 then
    some ⟨shared.onQueue fun queue => { queue with closed := true },
      [.drainQueue closer], []⟩
  else none

/-- A goroutine of the channel returns. -/
def exited (shared : Shared) (main : Bool) : Effect :=
  ⟨({ shared with wg := shared.wg - 1 }).log fun history =>
      { history with mainReturned := history.mainReturned || main }, [], []⟩

/-- Execute one operation of a channel, on a session that exists. -/
def execOp (config : Config) (shared : Shared) : Op → Choice → Option Effect
  | .queue op, .pick branch => execQueue config shared op branch
  | .session k op, choice => execSession config shared k op choice
  | .dispatch op, choice => execDispatch config shared op choice
  | .send k back op, choice => execSend config shared k back op choice
  | .recv k op, choice => execRecv config shared k op choice
  | .watch k op, choice => execWatch shared k op choice
  | .run op, choice => execRun config shared op choice
  | .close op, choice => execClose config shared op choice
  | .inbound op, choice => execInbound shared op choice
  | .lock closer, .pick .first => execLock shared closer
  | .drainQueue closer, .pick .first => execDrainQueue config shared closer
  | .exit main, .pick .first => some (exited shared main)
  | _, _ => none

/-- Execute one operation of a channel. -/
def exec (config : Config) (shared : Shared) (op : Op) (choice : Choice) :
    Option Effect :=
  if op.opened shared.opened then execOp config shared op choice else none

theorem Op.opened_mono {op : Op} {before after : Nat} (grown : before ≤ after)
    (inside : op.opened before = true) : op.opened after = true := by
  revert inside
  cases op with
  | run op =>
      cases op <;> simp [Op.opened] <;> omega
  | close op =>
      cases op <;> simp [Op.opened] <;> omega
  | watch k op =>
      cases op <;> simp [Op.opened] <;> omega
  | _ => simp [Op.opened] <;> omega

/-- What one operation of a channel does. -/
inductive Does (config : Config) (shared : Shared) (choice : Choice) :
    Op → Effect → Prop
  | queue (does : QueueDoes config shared op outcome) :
      Does config shared choice (.queue op) outcome
  | session (inside : k < shared.opened)
      (does : SessionDoes config shared k op outcome) :
      Does config shared choice (.session k op) outcome
  | dispatch (picks : choice = .pick branch)
      (executed : shared.requests.exec config.recvBufferSize (shared.ended 0)
        (fun _ => shared.ended 0) op branch = some effect) :
      Does config shared choice (.dispatch op) (liftDispatch shared effect)
  | reply (serves : op = .handler position job ∨ op = .helper position job)
      (replies : choice = .reply msg) :
      Does config shared choice (.dispatch op) (reply config shared job msg op)
  | send (inside : k < shared.opened)
      (does : SendDoes config shared choice k back op outcome) :
      Does config shared choice (.send k back op) outcome
  | recv (inside : k < shared.opened)
      (does : RecvDoes config shared choice k op outcome) :
      Does config shared choice (.recv k op) outcome
  | goAwayEnded (inside : k < shared.opened) :
      Does config shared choice (.watch k .goAway)
        ⟨shared, [.exit false], []⟩
  | goAway (inside : k < shared.opened) :
      Does config shared choice (.watch k .goAway)
        ⟨shared, [.watch k .start, .exit false], []⟩
  | startDrain (inside : k < shared.opened) :
      Does config shared choice (.watch k .call)
        ⟨shared, [.watch k .start], []⟩
  | drainAgain (inside : k < shared.opened)
      (draining : (shared.session k).draining = true) :
      Does config shared choice (.watch k .start)
        ⟨shared, [.session k .ifDraining], []⟩
  | drainFirst (inside : k < shared.opened) :
      Does config shared choice (.watch k .start)
        ⟨shared.update k fun session => { session with draining := true },
          [.watch k .watch], []⟩
  | watchExpiry (inside : k < shared.opened) :
      Does config shared choice (.watch k .watch)
        ⟨shared.setPending k (shared.session k).pending.watchExpiry,
          [.watch k .close], watchers k (shared.session k).pending.watches⟩
  | closeDrain (inside : k < shared.opened) :
      Does config shared choice (.watch k .close)
        ⟨shared.update k fun session => { session with drain := true },
          [.session k .ifDraining], []⟩
  | run (inside : op.opened shared.opened = true)
      (does : RunDoes config shared op outcome) :
      Does config shared choice (.run op) outcome
  | closeOutbound (kind : config.kind = .outbound) :
      Does config shared choice (.close .cancel)
        ⟨shared.cancel, [.lock .close], []⟩
  | closeInbound (kind : config.kind = .inbound) :
      Does config shared choice (.close .cancel)
        ⟨shared.cancel, [.close .endCancel], []⟩
  | endCancel (inside : 0 < shared.opened) :
      Does config shared choice (.close .endCancel)
        ⟨shared.cancelSession 0, [.close .endDrain], []⟩
  | endDrain (inside : 0 < shared.opened)
      (permuted : calls.isPerm (shared.session 0).pending.reqs = true) :
      Does config shared choice (.close .endDrain)
        (drainCalls shared 0 none calls [.lock .close])
  | closeWait (idle : shared.wg = 0) :
      Does config shared choice (.close .wait) ⟨shared, [.close .finish], []⟩
  | closeFinish :
      Does config shared choice (.close .finish)
        ⟨{ shared with closeOnce := .done }, [], []⟩
  | acceptHeader (inside : 0 < shared.opened) :
      Does config shared choice (.inbound .header)
        ⟨shared, [.send 0 .serve .select], []⟩
  | noHeader (inside : 0 < shared.opened) :
      Does config shared choice (.inbound .header)
        ⟨shared, [.inbound .ctx], []⟩
  | acceptCtx (inside : 0 < shared.opened) :
      Does config shared choice (.inbound .ctx)
        ⟨shared,
          if shared.ended 0 then [.send 0 .serve .select]
          else [.inbound .frame], []⟩
  | acceptFrame (inside : 0 < shared.opened) :
      Does config shared choice (.inbound .frame)
        ⟨shared.log fun history =>
            { history with sends := history.sends ++ [(0, none)] },
          [.send 0 .serve .select], []⟩
  | left (inside : 0 < shared.opened) :
      Does config shared choice (.inbound (.left req))
        ⟨shared, failRequest req errStreamDown ++ [.inbound .cancel], []⟩
  | inboundCancel (inside : 0 < shared.opened) :
      Does config shared choice (.inbound .cancel)
        ⟨shared.cancel, [.lock .inbound], []⟩
  | lock (unread : shared.queue.readers = 0) :
      Does config shared choice (.lock closer)
        ⟨shared.onQueue fun queue => { queue with closed := true },
          [.drainQueue closer], []⟩
  | drainQueue (queued : shared.queue.ch = req :: rest) :
      Does config shared choice (.drainQueue closer)
        ⟨shared.onQueue fun queue => { queue with ch := rest },
          [.queue (.fail req errNodeClosed), .drainQueue closer], []⟩
  | drainedMain (empty : shared.queue.ch = [])
      (main : closer = .run ∨ closer = .inbound) :
      Does config shared choice (.drainQueue closer)
        ⟨shared, [.exit true], []⟩
  | drainedOutbound (empty : shared.queue.ch = [])
      (kind : config.kind = .outbound) :
      Does config shared choice (.drainQueue .close)
        ⟨shared, [.close .wait], []⟩
  | drainedInbound (empty : shared.queue.ch = [])
      (kind : config.kind = .inbound) :
      Does config shared choice (.drainQueue .close)
        ⟨shared, [.close .finish], []⟩
  | exit :
      Does config shared choice (.exit main) (exited shared main)

theorem exec_does {config : Config} {shared : Shared} {op : Op}
    {choice : Choice} {outcome : Effect}
    (executed : exec config shared op choice = some outcome) :
    Does config shared choice op outcome := by
  unfold exec at executed
  split at executed
  case isFalse => cases executed
  case isTrue inside =>
    revert executed
    fun_cases execOp config shared op choice <;> intro executed
    · exact .queue (execQueue_does executed)
    · exact .session (of_decide_eq_true inside) (execSession_does executed)
    · rename_i op
      revert executed
      fun_cases execDispatch config shared op choice <;> intro executed
      · cases executed
        exact .reply (.inl rfl) rfl
      · cases executed
        exact .reply (.inr rfl) rfl
      · obtain ⟨effect, ran, rfl⟩ := Option.map_eq_some_iff.mp executed
        exact .dispatch rfl ran
      · cases executed
    · exact .send (of_decide_eq_true inside) (execSend_does executed)
    · exact .recv (of_decide_eq_true inside) (execRecv_does executed)
    · rename_i k op
      revert executed
      fun_cases execWatch shared k op choice <;> rintro ⟨⟩
      · exact .goAwayEnded (of_decide_eq_true inside)
      · exact .goAway (of_decide_eq_true inside)
      · exact .startDrain ‹_›
      · exact .drainAgain (of_decide_eq_true inside) ‹_›
      · exact .drainFirst (of_decide_eq_true inside)
      · exact .watchExpiry (of_decide_eq_true inside)
      · exact .closeDrain (of_decide_eq_true inside)
    · exact .run inside (execRun_does executed)
    · rename_i op
      revert executed
      fun_cases execClose config shared op choice <;> rintro ⟨⟩
      · exact .closeOutbound ‹_›
      · exact .closeInbound ‹_›
      · exact .endCancel (of_decide_eq_true inside)
      · exact .endDrain (of_decide_eq_true inside) ‹_›
      · exact .closeWait ‹_›
      · exact .closeFinish
    · rename_i op
      have below : 0 < shared.opened := of_decide_eq_true inside
      revert executed
      fun_cases execInbound shared op choice <;> rintro ⟨⟩
      all_goals (constructor; exact below)
    · rename_i closer
      revert executed
      fun_cases execLock shared closer <;> rintro ⟨⟩
      exact .lock ‹_›
    · rename_i closer
      revert executed
      fun_cases execDrainQueue config shared closer <;> rintro ⟨⟩
      · exact .drainQueue ‹_›
      · exact .drainedMain ‹_› (.inl rfl)
      · exact .drainedMain ‹_› (.inr rfl)
      · exact .drainedOutbound ‹_› ‹_›
      · exact .drainedInbound ‹_› ‹_›
    · cases executed
      exact .exit
    · cases executed

/-- What watches the contexts of calls only lets calls expire. -/
theorem expire_of_watchers {k : Nat} {watches : List PendingCalls.Watch}
    {op : Op} (member : op ∈ (watchers k watches).flatten) :
    ∃ watch, op = .session k (.expire watch) := by
  obtain ⟨thread, watcher, inside⟩ := List.mem_flatten.mp member
  obtain ⟨watch, _, rfl⟩ := mem_watchers.mp watcher
  exact ⟨watch, List.mem_singleton.mp inside⟩

/-- The dispatcher only leaves operations of its own. -/
theorem dispatch_of_liftDispatch
    {effect : Pool.Outcome (Dispatcher Job) (DispatchOp Job)} {op : Op}
    (member : op ∈ effect.next.map Op.dispatch ++
      (effect.spawned.map fun ops => ops.map Op.dispatch).flatten) :
    ∃ inner, op = .dispatch inner := by
  rw [← List.map_flatten, ← List.map_append] at member
  obtain ⟨inner, _, rfl⟩ := List.mem_map.mp member
  exact ⟨inner, rfl⟩

/-! ## Ledgers of a channel -/

section Ledgers

variable {ledger : Pool.Ledger Shared Op}

@[simp] theorem weigh_recordHealthy (session : Session) (k : Nat) :
    ledger.weigh (recordHealthy session k) =
      if session.healthy then ledger.weight (.session k .healthLoad) else 0 := by
  unfold recordHealthy
  split <;> simp

@[simp] theorem weigh_recordUnlessEnded (session : Session) (k : Nat)
    (err : Err) :
    ledger.weigh (recordUnlessEnded session k err) =
      if session.done then 0 else ledger.weight (.session k (.healthSet err)) := by
  unfold recordUnlessEnded
  split <;> simp

/-- Expiry watches weigh nothing if none of them does. -/
theorem weigh_watchers {k : Nat}
    (light : ∀ watch, ledger.weight (.session k (.expire watch)) = 0)
    (watches : List PendingCalls.Watch) :
    ledger.weigh (watchers k watches).flatten = 0 := by
  refine Pool.Ledger.weigh_eq_zero fun op member => ?_
  obtain ⟨watch, rfl⟩ := expire_of_watchers member
  exact light watch

/-- Neither do the calls that a session leaves. -/
theorem weigh_retries {k : Nat} {err : Option Err}
    (light : ∀ req, ledger.weight (.session k (.retryOrFail req err)) = 0)
    (order : List Request) :
    ledger.weigh (order.map fun req => Op.session k (.retryOrFail req err)) =
      0 := by
  refine Pool.Ledger.weigh_eq_zero fun op member => ?_
  obtain ⟨req, _, rfl⟩ := List.mem_map.mp member
  exact light req

/-- A ledger that does not look at the dispatcher or its operations keeps its
balance while the dispatcher works. -/
theorem keeps_liftDispatch {shared : Shared} {op : DispatchOp Job}
    {effect : Pool.Outcome (Dispatcher Job) (DispatchOp Job)}
    (light : ∀ op, ledger.weight (.dispatch op) = 0)
    (credit : ledger.credit { shared with requests := effect.shared } =
      ledger.credit shared)
    (debit : ledger.debit { shared with requests := effect.shared } =
      ledger.debit shared) :
    ledger.Keeps shared (.dispatch op) (liftDispatch shared effect) := by
  have fresh : ledger.weigh (effect.next.map Op.dispatch ++
      (effect.spawned.map fun ops => ops.map Op.dispatch).flatten) = 0 :=
    Pool.Ledger.weigh_eq_zero fun op member => by
      obtain ⟨inner, rfl⟩ := dispatch_of_liftDispatch member
      exact light inner
  rw [Pool.Ledger.weigh_append] at fresh
  simp only [Pool.Ledger.Keeps, Pool.Ledger.worth, liftDispatch, light, credit,
    debit]
  omega

end Ledgers

/-- The requests whose send completed on stream `k`, in order. -/
def History.completed (history : History) (k : Nat) : List Request :=
  history.sent.filterMap fun entry =>
    if entry.1 = k ∧ entry.2.2 = none then some entry.2.1 else none

/-- The requests that the peer received on stream `k`, in order. -/
def History.receipts (history : History) (k : Nat) : List Request :=
  history.received.filterMap fun entry =>
    if entry.1 = k then some entry.2 else none

/-- Let the environment act. -/
def environment (shared : Shared) : Event → Option Shared
  | .endContext ctx err =>
      if shared.ended ctx then none
      else some { shared with
        ctxErr := fun other =>
          if other = ctx then some err else shared.ctxErr other }
  | .propagate k =>
      if shared.ended 0 then
        some (shared.cancelSession k)
      else none
  | .tick duration => some { shared with now := shared.now + duration }
  | .setFull chan full =>
      some (({ shared with
        full := fun other =>
          if other = chan then full else shared.full other }).log fun history =>
            { history with
              crowded :=
                history.crowded ++ if full then [chan] else [] })
  | .receive k =>
      match (shared.history.completed k)[(shared.history.receipts k).length]? with
      | none => none
      | some req =>
          some (shared.log fun history =>
            { history with received := history.received ++ [(k, req)] })

/-- What the environment does at an event. -/
inductive Acts (shared : Shared) : Event → Shared → Prop
  | endContext (isOpen : ¬ shared.ended ctx = true) :
      Acts shared (.endContext ctx err)
        { shared with
          ctxErr := fun other =>
            if other = ctx then some err else shared.ctxErr other }
  | propagate (ended : shared.ended 0 = true) :
      Acts shared (.propagate k) (shared.cancelSession k)
  | tick :
      Acts shared (.tick duration) { shared with now := shared.now + duration }
  | setFull :
      Acts shared (.setFull chan full)
        (({ shared with
          full := fun other =>
            if other = chan then full else shared.full other }).log
          fun history =>
            { history with
              crowded := history.crowded ++ if full then [chan] else [] })
  | receive
      (found : (shared.history.completed k)[
        (shared.history.receipts k).length]? = some req) :
      Acts shared (.receive k)
        (shared.log fun history =>
          { history with received := history.received ++ [(k, req)] })

theorem environment_acts {shared after : Shared} {event : Event}
    (acted : environment shared event = some after) :
    Acts shared event after := by
  revert acted
  fun_cases environment shared event <;> rintro ⟨⟩ <;> constructor <;>
    assumption

/-- The machine of a channel. -/
def channel (config : Config) : Pool.Machine Shared Op Choice Event where
  exec := exec config
  env := environment

/-! ## How a channel starts -/

/-- A call that a goroutine makes on a channel, or on one of its sessions. -/
inductive UserCall
  | enqueue (req : Request)
  | close
  | startDrain (k : Nat)

/-- The operation with which a call starts. -/
def UserCall.op : UserCall → Op
  | .enqueue req => .queue (.enqueue req)
  | .close => .queue .close
  | .startDrain k => .watch k .call

/-- The requests that some goroutines enqueue. -/
def enqueued (users : List (List UserCall)) : List Request :=
  users.flatten.filterMap fun
    | .enqueue req => some req
    | _ => none

/-- The goroutines that use a channel, each with its calls in order. -/
structure Workload where
  /-- The calls of each goroutine. -/
  users : List (List UserCall)
  /-- Callers enqueue requests of their own, not handlers' replies. -/
  calls : ∀ req ∈ enqueued users, req.cause = none
  /-- Each request is enqueued once. -/
  distinct : (enqueued users).Nodup

/-- The goroutines of the users of a channel. -/
def Workload.threads (workload : Workload) : List (List Op) :=
  workload.users.map fun calls => calls.map UserCall.op

/-- A new channel.  An outbound channel is about to open its first stream.  An
inbound channel has its stream, and its `Serve` is about to receive. -/
def Config.start (config : Config) (workload : Workload) : ChannelState :=
  match config.kind with
  | .outbound =>
      { shared := { session := fun _ => openedSession false, wg := 1 }
        threads :=
          [.run (.ctx { eager := config.eagerReconnect } none)] ::
            workload.threads }
  | .inbound =>
      { shared :=
          { session := fun _ => { serverRequests := false, requeue := false }
            opened := 1
            receiving := [0]
            wg := 2 }
        threads :=
          [.inbound .header] :: [.recv 0 .recv] :: workload.threads }

/-- The states that a run of a new channel reaches when its steps are
allowed. -/
def Config.Reaches (config : Config) (workload : Workload)
    (allowed : ChannelState → Step → Prop) (state : ChannelState) : Prop :=
  (channel config).Reach allowed (config.start workload) state

/-- Follow the steps of a run of a new channel. -/
def Config.follow (config : Config) (workload : Workload)
    (steps : List Step) : Option ChannelState :=
  (channel config).follow (fun _ _ => true) (config.start workload) steps

/-- The steps in which a goroutine takes the first branch several times. -/
def Step.first (thread count : Nat) : List Step :=
  List.replicate count (.run thread (.pick .first))

/-- A state that steps lead to is reached. -/
theorem Config.reaches_of_follow {config : Config} {workload : Workload}
    {steps : List Step}
    (followed : (config.follow workload steps).isSome = true) :
    config.Reaches workload (fun _ _ => True)
      ((config.follow workload steps).get followed) :=
  Pool.Machine.reach_of_isSome (fun _ _ _ => trivial) followed

/-- The users of a channel only make calls. -/
theorem Workload.mem_ops {workload : Workload} {op : Op}
    (member : op ∈ workload.threads.flatten) :
    (∃ req ∈ enqueued workload.users, op = .queue (.enqueue req)) ∨
      op = .queue .close ∨ ∃ k, op = .watch k .call := by
  obtain ⟨thread, inside, member⟩ := List.mem_flatten.mp member
  obtain ⟨calls, user, rfl⟩ := List.mem_map.mp inside
  obtain ⟨call, called, rfl⟩ := List.mem_map.mp member
  cases call with
  | enqueue req =>
      refine .inl ⟨req, List.mem_filterMap.mpr ⟨.enqueue req, ?_, rfl⟩, rfl⟩
      exact List.mem_flatten.mpr ⟨calls, user, called⟩
  | close => exact .inr (.inl rfl)
  | startDrain k => exact .inr (.inr ⟨k, rfl⟩)

/-- A ledger that counts the calls of a request counts how often the users
enqueue it. -/
theorem Workload.weigh_threads (workload : Workload)
    (ledger : Pool.Ledger Shared Op) (req : Request)
    (enqueue : ∀ other, ledger.weight (.queue (.enqueue other)) =
      [other].count req)
    (close : ledger.weight (.queue .close) = 0)
    (startDrain : ∀ k, ledger.weight (.watch k .call) = 0) :
    ledger.weigh workload.threads.flatten =
      (enqueued workload.users).count req := by
  have calls : ∀ calls : List UserCall,
      ledger.weigh (calls.map UserCall.op) = (enqueued [calls]).count req := by
    intro calls
    induction calls with
    | nil => rfl
    | cons call calls inductionHypothesis =>
        cases call <;>
          simp_all [enqueued, UserCall.op, List.count_cons, Nat.add_comm]
  unfold Workload.threads
  induction workload.users with
  | nil => rfl
  | cons user users inductionHypothesis =>
      have first := calls user
      simp_all [enqueued, List.filterMap_append]

section Start

variable (config : Config) (workload : Workload)

@[simp] theorem Config.start_history :
    (config.start workload).shared.history = {} := by
  unfold Config.start
  cases config.kind <;> rfl

@[simp] theorem Config.start_queue :
    (config.start workload).shared.queue = {} := by
  unfold Config.start
  cases config.kind <;> rfl

@[simp] theorem Config.start_pending (k : Nat) :
    ((config.start workload).shared.session k).pending = {} := by
  unfold Config.start
  cases config.kind <;> rfl

@[simp] theorem Config.start_closeOnce :
    (config.start workload).shared.closeOnce = .fresh := by
  unfold Config.start
  cases config.kind <;> rfl

@[simp] theorem Config.start_full (chan : Nat) :
    (config.start workload).shared.full chan = false := by
  unfold Config.start
  cases config.kind <;> rfl

/-- What the goroutines of a new channel have to do. -/
theorem Config.mem_start_ops {op : Op}
    (member : op ∈ (config.start workload).ops) :
    (config.kind = .outbound ∧
        op = .run (.ctx { eager := config.eagerReconnect } none)) ∨
      (config.kind = .inbound ∧ (op = .inbound .header ∨ op = .recv 0 .recv)) ∨
      (∃ req ∈ enqueued workload.users, op = .queue (.enqueue req)) ∨
      op = .queue .close ∨ ∃ k, op = .watch k .call := by
  unfold Config.start at member
  cases kind : config.kind with
  | outbound =>
      simp only [kind, Pool.State.ops, List.flatten_cons, List.cons_append,
        List.nil_append, List.mem_cons] at member
      rcases member with rfl | user
      · exact .inl ⟨rfl, rfl⟩
      · exact .inr (.inr (workload.mem_ops user))
  | inbound =>
      simp only [kind, Pool.State.ops, List.flatten_cons, List.cons_append,
        List.nil_append, List.mem_cons] at member
      rcases member with rfl | rfl | user
      · exact .inr (.inl ⟨rfl, .inl rfl⟩)
      · exact .inr (.inl ⟨rfl, .inr rfl⟩)
      · exact .inr (.inr (workload.mem_ops user))

end Start

end Stream
end Gorums
