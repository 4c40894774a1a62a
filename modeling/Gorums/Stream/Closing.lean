import Gorums.Stream.Steps

/-!
# Closing down

What holds while a channel's goroutines close it down.  A push that is past its
check of the queue sees an open queue.  A closed queue that has been drained
stays empty, and so does the table of a session that has stopped receiving.  A
session that has stopped sending and has no calls left gets no more calls.
-/

namespace Gorums
namespace Stream

/-- The queue is closed and has no requests left. -/
def SendQueue.Shut (queue : SendQueue) : Prop :=
  queue.closed = true ∧ queue.ch = []

/-- What an operation on the queue can rely on. -/
@[simp]
def QueueOp.Asserts (shared : Shared) : QueueOp → Prop
  | .select _ _ _ => shared.queue.closed = false
  | _ => True

/-- What an operation on a session can rely on. -/
@[simp]
def SessionOp.Asserts (session : Session) : SessionOp → Prop
  | .ifEmpty => session.sendStopped = true
  | .endCancel => session.sendStopped = true ∧ session.pending.calls = []
  | .endDrain => session.sendStopped = true ∧ session.pending.calls = []
  | _ => True

/-- What a receive goroutine can rely on. -/
@[simp]
def RecvOp.Asserts (session : Session) : RecvOp → Prop
  | .exit => session.pending.Drained
  | _ => True

/-- What the body of `Close` can rely on. -/
@[simp]
def CloseOp.Asserts (config : Config) (shared : Shared) : CloseOp → Prop
  | .wait => shared.queue.Shut
  | .finish => shared.queue.Shut ∧ (config.kind = .outbound → shared.wg = 0)
  | _ => True

/-- What an operation can rely on when it comes to be executed. -/
def Op.Asserts (config : Config) (shared : Shared) : Op → Prop
  | .queue op => op.Asserts shared
  | .session k op => op.Asserts (shared.session k)
  | .dispatch _ => True
  | .send _ _ _ => True
  | .recv k op => op.Asserts (shared.session k)
  | .watch _ _ => True
  | .run _ => True
  | .close op => op.Asserts config shared
  | .inbound _ => True
  | .lock _ => True
  | .drainQueue _ => shared.queue.closed = true
  | .exit main => main = true → shared.queue.Shut

/-- An operation of an opened session, with what it can rely on. -/
def Op.Noted (config : Config) (shared : Shared) (op : Op) : Prop :=
  op.opened shared.opened = true ∧ op.Asserts config shared

/-- What has been closed down is closed down. -/
structure ClosedDown (config : Config) (shared : Shared) : Prop where
  /-- The run loop and the send goroutine leave no requests in the queue. -/
  main : shared.history.mainReturned = true → shared.queue.Shut
  /-- Neither does `Close`. -/
  queue : shared.closeOnce = .done → shared.queue.Shut
  /-- The `Close` of an outbound channel waits for the channel's goroutines. -/
  waited : shared.closeOnce = .done → config.kind = .outbound → shared.wg = 0
  /-- An inbound channel has its session. -/
  opened : config.kind = .inbound → 0 < shared.opened
  /-- A receive goroutine leaves no calls in its table. -/
  tables : ∀ k, k < shared.opened → k ∉ shared.receiving →
    (shared.session k).pending.Drained

section Fresh

variable {config : Config} {shared : Shared} {outcome : Effect}

/-- Operations that come out of a step can rely on their assertions. -/
def FreshNoted (config : Config) (outcome : Effect) : Prop :=
  (∀ op ∈ outcome.next, op.Noted config outcome.shared) ∧
    ∀ thread ∈ outcome.spawned, ∀ op ∈ thread, op.Noted config outcome.shared

theorem noted_session {k : Nat} {op : SessionOp} (inside : k < shared.opened)
    (noted : (Op.session k op).Noted config shared)
    (does : SessionDoes config shared k op outcome) :
    FreshNoted config outcome := by
  cases does
  all_goals simp [FreshNoted, drainCalls]
  all_goals simp_all [Op.Noted, Op.opened, Op.Asserts, PendingCalls.len]

theorem noted_send {k : Nat} {back : LoopReturn} {op : SendOp}
    {choice : Choice} (inside : k < shared.opened)
    (does : SendDoes config shared choice k back op outcome) :
    FreshNoted config outcome := by
  have opened : 0 < shared.opened := Nat.zero_lt_of_lt inside
  cases does
  all_goals simp [FreshNoted, drainCalls, loopReturn, or_imp, forall_and]
  all_goals simp_all [Op.Noted, Op.opened, Op.Asserts]

theorem noted_recv {k : Nat} {op : RecvOp} {choice : Choice}
    (inside : k < shared.opened)
    (does : RecvDoes config shared choice k op outcome) :
    FreshNoted config outcome := by
  cases does
  all_goals simp [FreshNoted, drainCalls, or_imp, forall_and]
  all_goals simp_all [Op.Noted, Op.opened, Op.Asserts,
    PendingCalls.drained_drain]

theorem noted_run {op : RunOp} (noted : (Op.run op).Noted config shared)
    (does : RunDoes config shared op outcome) : FreshNoted config outcome := by
  cases does
  all_goals simp [FreshNoted, or_imp, forall_and, openStream,
    Shared.openSession, recordFailure]
  all_goals simp_all [Op.Noted, Op.opened, Op.Asserts]

theorem noted_exec {op : Op} {choice : Choice}
    (closedDown : ClosedDown config shared)
    (noted : op.Noted config shared)
    (executed : exec config shared op choice = some outcome) :
    FreshNoted config outcome := by
  have does := exec_does executed
  clear executed
  cases does with
  | queue does =>
      cases does
      all_goals simp [FreshNoted]
      all_goals simp_all [Op.Noted, Op.opened, Op.Asserts]
  | session inside does => exact noted_session inside noted does
  | send inside does => exact noted_send inside does
  | recv inside does => exact noted_recv inside does
  | run opened does => exact noted_run noted does
  | closeInbound kind =>
      simp [FreshNoted, Op.Noted, Op.opened, Op.Asserts, closedDown.opened kind]
  | _ =>
      simp [FreshNoted, liftDispatch, reply, exited, drainCalls, or_imp,
        forall_and]
      all_goals simp_all [Op.Noted, Op.opened, Op.Asserts, SendQueue.Shut]

end Fresh

/-! ## Stability -/

section Stable

variable {config : Config} {shared : Shared} {outcome : Effect}

/-- A table without calls gets a call only from its send loop. -/
theorem TableStep.calls_eq_nil {k : Nat} {op : Op}
    {before after : PendingCalls}
    (step : TableStep shared k op before after) (empty : before.calls = []) :
    after.calls = [] ∨ ∃ back req, op = .send k back (.add req) := by
  cases step with
  | same equal => exact .inl (by rw [equal, empty])
  | take msgID found pending took equal =>
      simp only [PendingCalls.take, PendingCalls.lookup, empty,
        List.find?_nil, Option.map_none, Prod.mk.injEq] at took
      exact .inl (by rw [equal, ← took.2, empty])
  | expire watch found pending removal equal =>
      simp only [PendingCalls.expire, PendingCalls.lookup, empty,
        List.find?_nil, Option.map_none, Prod.mk.injEq] at removal
      exact .inl (by rw [equal, ← removal.2, empty])
  | drain equal => exact .inl (by rw [equal]; rfl)
  | watch equal =>
      refine .inl ?_
      rw [equal]
      fun_cases PendingCalls.watchExpiry before
      · exact empty
      · simp [empty]
  | add back req pending running want added equal =>
      exact .inr ⟨back, req, running⟩

/-- A queue that is shut stays shut. -/
theorem SendQueue.Shut.step {op : Op} {after : SendQueue}
    (shut : shared.queue.Shut) (asserts : op.Asserts config shared)
    (step : QueueStep shared op after) : after.Shut := by
  obtain ⟨isClosed, empty⟩ := shut
  cases step with
  | same ch closed => exact ⟨closed.trans isClosed, ch.trans empty⟩
  | push req wait origin running ch closed =>
      subst running
      cases isClosed.symm.trans (asserts : shared.queue.closed = false)
  | pop req running ch closed => cases empty.symm.trans ch
  | lock closer running unread ch closed => exact ⟨closed, ch.trans empty⟩

/-- The wait group of a channel without goroutines stays at zero. -/
theorem BookStep.wg_eq_zero {op : Op} {book after : Book}
    (step : BookStep book op after)
    (unwaited : Role.waited ∉ op.roles) (zero : book.wg = 0) :
    after.wg = 0 := by
  cases step with
  | same equal => rw [equal, zero]
  | opened backoff req running equal =>
      subst running
      simp [Op.roles] at unwaited
  | received k running equal => rw [equal]; exact zero
  | closing running fresh equal => rw [equal]; exact zero
  | closed running equal => rw [equal]; exact zero
  | exited main running equal =>
      subst running
      cases main <;> simp [Op.roles] at unwaited

/-- Only the run loop or the send goroutine returns as such. -/
theorem BookStep.mainReturned {op : Op} {book after : Book}
    (step : BookStep book op after) (returned : after.mainReturned = true) :
    book.mainReturned = true ∨ op = .exit true := by
  cases step with
  | exited main running equal =>
      subst equal
      rcases Bool.or_eq_true_iff.mp returned with earlier | now
      · exact .inl earlier
      · exact .inr (now ▸ running)
  | _ => exact .inl (by simp_all)

/-- Only the body of `Close` finishes it. -/
theorem BookStep.closeOnce {op : Op} {book after : Book}
    (step : BookStep book op after) (done : after.closeOnce = .done) :
    book.closeOnce = .done ∨ op = .close .finish := by
  cases step with
  | closed running equal => exact .inr running
  | _ => exact .inl (by simp_all)

/-- Only its receive goroutine ends the receiving of a session. -/
theorem BookStep.receiving {op : Op} {book after : Book} {k : Nat}
    (step : BookStep book op after)
    (inside : k < after.opened) (ended : k ∉ after.receiving) :
    k < book.opened ∧ (k ∉ book.receiving ∨ op = .recv k .exit) := by
  cases step with
  | opened backoff req running equal =>
      subst equal
      simp only [List.mem_cons, not_or] at inside ended
      exact ⟨by omega, .inl ended.2⟩
  | received other running equal =>
      subst equal
      by_cases same : k = other
      · exact ⟨inside, .inr (same ▸ running)⟩
      · exact ⟨inside, .inl fun member =>
          ended ((List.mem_erase_of_ne same).mpr member)⟩
  | _ => simp_all

end Stable

/-! ## Whole runs -/

section Runs

open Pool

variable {config : Config} {workload : Workload}
  {allowed : ChannelState → Step → Prop} {state next : ChannelState}
  {thread : Nat} {choice : Choice}

/-- A part of the running operation counts in the channel's state. -/
theorem cast_of_runs (role : Role)
    (counted : ∀ req, role ≠ .caller req)
    (reached : config.Reaches workload allowed state)
    (runs : (channel config).Runs state thread choice next) :
    runs.op.roles.count role ≤ (roster role).debit state.shared := by
  rw [← weigh_roster counted reached]
  exact (roster role).weight_le_weigh runs.op_mem

/-- A channel without goroutines gets no more goroutines. -/
theorem wg_stable
    (reached : config.Reaches workload allowed state)
    (runs : (channel config).Runs state thread choice next)
    (zero : state.shared.wg = 0) : runs.outcome.shared.wg = 0 := by
  refine BookStep.wg_eq_zero (book_exec runs.exec_eq) (fun part => ?_) zero
  have waited := cast_of_runs .waited (by simp) reached runs
  rw [roster_debit, cast, zero, Nat.le_zero, List.count_eq_zero] at waited
  exact waited part

/-- The table of a session that has stopped sending stays empty, since its send
loop is the only goroutine that registers calls. -/
theorem empty_stable
    (reached : config.Reaches workload allowed state)
    (runs : (channel config).Runs state thread choice next)
    {k : Nat} (below : k < state.shared.opened)
    (stopped : (state.shared.session k).sendStopped = true)
    (empty : (state.shared.session k).pending.calls = []) :
    (runs.outcome.shared.session k).pending.calls = [] := by
  rcases (table_exec runs.exec_eq below).calls_eq_nil empty with
    done | ⟨back, req, sending⟩
  · exact done
  · have part := cast_of_runs (.sender k) (by simp) reached runs
    simp [sending, Op.roles, cast, stopped] at part

/-- What any other operation relies on, a step does not change. -/
theorem asserts_stable
    (reached : config.Reaches workload allowed state)
    (runs : (channel config).Runs state thread choice next)
    (running : runs.op.Asserts config state.shared)
    {op : Op} (other : op ∈ runs.others)
    (noted : op.Noted config state.shared) :
    op.Noted config runs.outcome.shared := by
  have advances := advances_exec runs.exec_eq
  have queueStep := queue_exec runs.exec_eq
  refine ⟨Op.opened_mono advances.opened noted.1, ?_⟩
  obtain ⟨inside, asserts⟩ := noted
  have stays : ∀ k, k < state.shared.opened →
      (state.shared.session k).sendStopped = true ∧
        (state.shared.session k).pending.calls = [] →
      (runs.outcome.shared.session k).sendStopped = true ∧
        (runs.outcome.shared.session k).pending.calls = [] := by
    intro k below both
    exact ⟨(advances.session k below).sendStopped both.1,
      empty_stable reached runs below both.1 both.2⟩
  have shut : state.shared.queue.Shut → runs.outcome.shared.queue.Shut :=
    fun shut => shut.step running queueStep
  have idle := wg_stable reached runs
  revert asserts
  cases op with
  | queue op =>
      fun_cases QueueOp.Asserts state.shared op <;>
        simp only [Op.Asserts, QueueOp.Asserts, imp_self]
      intro unlocked
      cases queueStep with
      | same ch closed => rw [closed, unlocked]
      | push _ _ _ _ ch closed => rw [closed, unlocked]
      | pop _ _ ch closed => rw [closed, unlocked]
      | lock closer locking unread ch closed =>
          have reader := (roster .reader).weight_add_weight_le runs other
          rw [weigh_roster (by simp) reached, roster_debit, cast,
            unread] at reader
          simp [Op.roles, QueueOp.roles] at reader
  | session k op =>
      have below := of_decide_eq_true inside
      fun_cases SessionOp.Asserts (state.shared.session k) op <;>
        simp only [Op.Asserts, SessionOp.Asserts, imp_self]
      · exact (advances.session k below).sendStopped
      · exact stays k below
      · exact stays k below
  | recv k op =>
      have below := of_decide_eq_true inside
      fun_cases RecvOp.Asserts (state.shared.session k) op <;>
        simp only [Op.Asserts, RecvOp.Asserts, imp_self]
      exact (advances.session k below).drained
  | close op =>
      fun_cases CloseOp.Asserts config state.shared op <;>
        simp only [Op.Asserts, CloseOp.Asserts, imp_self]
      · exact shut
      · intro down
        exact ⟨shut down.1, idle ∘ down.2⟩
  | drainQueue closer => exact advances.closed
  | exit main => exact fun asserts isMain => shut (asserts isMain)
  | _ => exact id

/-- A step keeps what has been closed down. -/
theorem closedDown_step
    (reached : config.Reaches workload allowed state)
    (runs : (channel config).Runs state thread choice next)
    (closedDown : ClosedDown config state.shared)
    (noted : runs.op.Noted config state.shared) :
    ClosedDown config runs.outcome.shared := by
  have advances := advances_exec runs.exec_eq
  have shut : state.shared.queue.Shut → runs.outcome.shared.queue.Shut :=
    fun shut => shut.step noted.2 (queue_exec runs.exec_eq)
  have idle := wg_stable reached runs
  have drained : ∀ k, k < state.shared.opened →
      (state.shared.session k).pending.Drained →
      (runs.outcome.shared.session k).pending.Drained :=
    fun k below => (advances.session k below).drained
  have step := book_exec runs.exec_eq
  refine ⟨?main, ?queue, ?waited, fun kind => Nat.lt_of_lt_of_le
    (closedDown.opened kind) advances.opened, ?tables⟩
  case main =>
    intro returned
    rcases step.mainReturned returned with earlier | now
    · exact shut (closedDown.main earlier)
    · rw [now] at noted
      exact shut (noted.2 rfl)
  case queue =>
    intro done
    rcases step.closeOnce done with earlier | now
    · exact shut (closedDown.queue earlier)
    · rw [now] at noted
      exact shut noted.2.1
  case waited =>
    intro done kind
    rcases step.closeOnce done with earlier | now
    · exact idle (closedDown.waited earlier kind)
    · rw [now] at noted
      exact idle (noted.2.2 kind)
  case tables =>
    intro k inside ended
    obtain ⟨below, earlier | now⟩ := step.receiving inside ended
    · exact drained k below (closedDown.tables k below earlier)
    · rw [now] at noted
      exact drained k below noted.2

/-- A new channel has closed nothing down. -/
theorem closedDown_start (config : Config) (workload : Workload) :
    ClosedDown config (config.start workload).shared ∧
      ∀ op ∈ (config.start workload).ops,
        op.Noted config (config.start workload).shared := by
  have opened : config.kind = .inbound →
      0 < (config.start workload).shared.opened := by
    intro kind
    simp [Config.start, kind]
  refine ⟨⟨by simp, by simp, by simp, opened, fun k inside ended => ?_⟩, ?_⟩
  · unfold Config.start at inside ended
    cases kind : config.kind with
    | outbound => simp [kind] at inside
    | inbound =>
        simp only [kind, List.mem_singleton] at inside ended
        omega
  · intro op member
    rcases config.mem_start_ops workload member with
      ⟨_, rfl⟩ | ⟨kind, rfl | rfl⟩ | ⟨req, _, rfl⟩ | rfl | ⟨k, rfl⟩
    · simp [Op.Noted, Op.opened, Op.Asserts]
    · simp [Op.Noted, Op.opened, Op.Asserts, opened kind]
    · simp [Op.Noted, Op.opened, Op.Asserts, opened kind]
    · simp [Op.Noted, Op.opened, Op.Asserts]
    · simp [Op.Noted, Op.opened, Op.Asserts]
    · simp [Op.Noted, Op.opened, Op.Asserts]

/-- Every run keeps what has been closed down, and every operation finds what
it relies on. -/
theorem closedDown_reached
    (reached : config.Reaches workload allowed state) :
    ClosedDown config state.shared ∧
      ∀ op ∈ state.ops, op.Noted config state.shared := by
  refine Machine.Reach.annotated (ClosedDown config) (Op.Noted config)
    (closedDown_start config workload) ?run ?environment reached
  case run =>
    intro state thread choice next runs reached _ closedDown noted
    have fresh := noted_exec closedDown noted runs.exec_eq
    refine ⟨closedDown_step reached runs closedDown noted, ?_,
      fun op other => asserts_stable reached runs noted.2 other⟩
    intro op member
    rcases List.mem_append.mp member with following | spawned
    · exact fresh.1 op following
    · obtain ⟨thread, inside, member⟩ := List.mem_flatten.mp spawned
      exact fresh.2 thread inside op member
  case environment =>
    intro shared event after acted closedDown
    obtain ⟨sameQueue, sameBook, sameSessions⟩ := frame_environment acted
    have samePending : ∀ k, (after.session k).pending =
        (shared.session k).pending ∧
        (after.session k).sendStopped = (shared.session k).sendStopped := by
      intro k
      obtain ⟨done, equal⟩ := sameSessions k
      rw [equal]
      exact ⟨rfl, rfl⟩
    have sameOpened : after.opened = shared.opened :=
      congrArg Book.opened sameBook
    have sameReceiving : after.receiving = shared.receiving :=
      congrArg Book.receiving sameBook
    have sameWg : after.wg = shared.wg := congrArg Book.wg sameBook
    have sameClose : after.closeOnce = shared.closeOnce :=
      congrArg Book.closeOnce sameBook
    have sameMain : after.history.mainReturned = shared.history.mainReturned :=
      congrArg Book.mainReturned sameBook
    refine ⟨?_, fun op => ?_⟩
    · constructor
      · rw [sameMain, sameQueue]
        exact closedDown.main
      · rw [sameClose, sameQueue]
        exact closedDown.queue
      · rw [sameClose, sameWg]
        exact closedDown.waited
      · rw [sameOpened]
        exact closedDown.opened
      · intro k
        rw [sameOpened, sameReceiving, (samePending k).1]
        exact closedDown.tables k
    · unfold Op.Noted
      rw [sameOpened]
      refine And.imp_right ?_
      cases op with
      | queue op => cases op <;> simp [Op.Asserts, sameQueue]
      | session k op => cases op <;> simp [Op.Asserts, samePending]
      | recv k op => cases op <;> simp [Op.Asserts, samePending]
      | close op => cases op <;> simp [Op.Asserts, sameQueue, sameWg]
      | _ => simp [Op.Asserts, sameQueue]

end Runs

end Stream
end Gorums
