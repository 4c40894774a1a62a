import Gorums.Stream.LastErr

/-!
# Requests that cannot be sent

A request whose own message makes `Send` fail ends the stream on which it is
sent.  `retryOrFail` decides by the error of the session alone whether the
request is queued again, so only a request that fails with a resource exhaustion
is sure to fail for good.
-/

namespace Gorums
namespace Stream

/-! ## The send of a request -/

/-- Whether a send loop is sending a request, from its registration until the
session's table is drained. -/
def SendOp.sends (req : Request) : SendOp → Bool
  | .call other => decide (other = req)
  | .wait other => decide (other = req)
  | .failed other _ => decide (other = req)
  | .fail other _ => decide (other = req)
  | .cancel other _ => decide (other = req)
  | .drain other _ => decide (other = req)
  | _ => false

/-- The session on which an operation is sending a request. -/
def Op.sending (req : Request) : Op → Option Nat
  | .send k _ op => if op.sends req then some k else none
  | _ => none

/-- A send loop that reports a request's error reports this one. -/
def SendOp.Carries (req : Request) (err : Err) : SendOp → Prop
  | .failed other reason => other = req → reason = err
  | .swap other reason => other = req → reason = err
  | .fail other reason => other = req → reason = err
  | .cancel other reason => other = req → reason = err
  | .drain other reason => other = req → reason = err
  | _ => True

/-- What an operation on a session does about a request has this error. -/
def SessionOp.Carries (req : Request) (err : Err) : SessionOp → Prop
  | .retryOrFail other reason => other = req → reason = some err
  | .retryClosed other => other ≠ req
  | .matched other _ => other ≠ req
  | _ => True

/-- Whatever becomes of a request has this error, once it has been registered. -/
def Op.Carries (req : Request) (err : Err) : Op → Prop
  | .send _ _ op => op.Carries req err
  | .session _ op => op.Carries req err
  | .close .endCancel => False
  | .close .endDrain => False
  | _ => True

/-- Every `Send` of the request fails with this error. -/
def SendFails (req : Request) (err : Err) (state : ChannelState)
    (label : Step) : Prop :=
  ∀ thread choice k back, label = .run thread choice →
    state.head? thread = some (.send k back (.wait req)) → choice = .err err

/-- What an operation finds if nothing but its own send decides about a
request: receiving has not ended on its stream when its send has failed, no
receive goroutine finds it in its table when it drains it, its stream has not
been refused when it is disposed of, and nobody answers it. -/
def Op.Undisturbed (req : Request) (shared : Shared) : Op → Prop
  | .send k _ (.failed other _) =>
      other = req → (shared.session k).handoff ≠ .streamClosed
  | .recv k (.drain _) => req ∉ (shared.session k).pending.reqs
  | .session k (.retryOrFail other _) =>
      other = req → (shared.session k).refused = none
  | .session _ (.take _ msg) => msg.messageSeqNo ≠ req.msgID
  | _ => True

/-- A step at which nothing but its own send decides about a request, and its
context has not ended. -/
def Undisturbed (req : Request) (state : ChannelState) (label : Step) : Prop :=
  state.shared.ended req.ctx = false ∧
    ∀ thread choice op, label = .run thread choice →
      state.head? thread = some op → op.Undisturbed req state.shared

section Exec

open Pool

variable {config : Config} {shared : Shared} {outcome : Effect}
  {req : Request} {err : Err}

/-- A resource exhaustion is not the end of a stream. -/
theorem isEOF_of_isResourceExhausted {err : Err}
    (exhausts : isResourceExhausted (some err) = true) : err.isEOF = false := by
  induction err with
  | eof => cases exhausts
  | wrap message cause inductionHypothesis => exact inductionHypothesis exhausts
  | _ => rfl

theorem Op.sending_eq_some {op : Op} {k : Nat}
    (sends : op.sending req = some k) :
    ∃ back sending, op = .send k back sending ∧ sending.sends req = true := by
  cases op with
  | send other back sending =>
      simp only [Op.sending, Option.ite_none_right_eq_some,
        Option.some.injEq] at sends
      obtain ⟨busy, rfl⟩ := sends
      exact ⟨back, sending, rfl, busy⟩
  | _ => cases sends

/-- The send loop keeps sending a request until it drains the table. -/
theorem sending_exec {op : Op} {choice : Choice} {k : Nat}
    (notEOF : err.isEOF = false)
    (sends : op.sending req = some k) (carries : op.Carries req err)
    (fails : ∀ back, op = .send k back (.wait req) → choice = .err err)
    (undisturbed : op.Undisturbed req shared)
    (executed : exec config shared op choice = some outcome) :
    Fresh (fun later => .main ∈ later.roles → later.sending req = some k ∨
      req ∉ (outcome.shared.session k).pending.reqs) outcome := by
  obtain ⟨back, sending, rfl, busy⟩ := Op.sending_eq_some sends
  have does := exec_does executed
  clear executed
  cases does with
  | send _ does =>
      cases does
      all_goals simp only [SendOp.sends, decide_eq_true_eq] at busy
      all_goals try cases busy
      all_goals simp [Fresh, drainCalls, or_imp, forall_and]
      all_goals simp_all [Op.sending, SendOp.sends, Op.roles, Op.Carries,
        SendOp.Carries, Op.Undisturbed]

/-- Disposing of the request leaves nothing to decide. -/
theorem carries_session {k : Nat} {op : SessionOp}
    (exhausts : isResourceExhausted (some err) = true)
    (requeue : (shared.session k).requeue = true)
    (carries : (Op.session k op).Carries req err)
    (undisturbed : (Op.session k op).Undisturbed req shared)
    (empty : op = .endDrain → (shared.session k).pending.reqs = [])
    (registered : ∀ call ∈ (shared.session k).pending.calls,
      call.1 = call.2.req.msgID)
    (does : SessionDoes config shared k op outcome) :
    Fresh (Op.Carries req err) outcome := by
  cases does
  all_goals simp [Fresh, drainCalls]
  all_goals simp_all [Op.Carries, SessionOp.Carries, Op.Undisturbed]
  case endDrain calls permuted =>
    have none : calls = [] := by simpa using List.isPerm_iff.mp permuted
    simp [none]
  case giveUp refused lives fails =>
    intro same
    rw [carries same, exhausts] at lives
    cases lives
  case take req pending index msg took =>
    intro same
    obtain ⟨call, found, sameID, equal⟩ := mem_of_take took
    apply undisturbed
    rw [← sameID, registered _ _ found, equal, same]

theorem carries_send {k : Nat} {back : LoopReturn} {op : SendOp}
    {choice : Choice}
    (carries : (Op.send k back op).Carries req err)
    (fails : op = .wait req → choice = .err err)
    (own : ∀ other reason, op = .drain other reason →
      req ∈ (shared.session k).pending.reqs → other = req)
    (does : SendDoes config shared choice k back op outcome) :
    Fresh (Op.Carries req err) outcome := by
  cases does
  all_goals simp [Fresh, drainCalls, loopReturn, or_imp, forall_and]
  all_goals simp_all [Op.Carries, SendOp.Carries, SessionOp.Carries]
  case drain calls permuted =>
    intro call member same
    rw [same] at member
    exact carries (own ((List.isPerm_iff.mp permuted).mem_iff.mp member))

theorem carries_recv {k : Nat} {op : RecvOp} {choice : Choice}
    (undisturbed : (Op.recv k op).Undisturbed req shared)
    (does : RecvDoes config shared choice k op outcome) :
    Fresh (Op.Carries req err) outcome := by
  cases does
  all_goals simp [Fresh, drainCalls, or_imp, forall_and]
  all_goals simp [Op.Carries, SessionOp.Carries]
  case drain calls permuted =>
    rintro call member rfl
    exact absurd ((List.isPerm_iff.mp permuted).mem_iff.mp member) undisturbed

/-- What one operation leaves has the error of the request's send. -/
theorem carries_exec {op : Op} {choice : Choice}
    (outbound : config.kind = .outbound)
    (exhausts : isResourceExhausted (some err) = true)
    (requeue : ∀ k < shared.opened, (shared.session k).requeue = true)
    (registered : ∀ k < shared.opened, ∀ call ∈ (shared.session k).pending.calls,
      call.1 = call.2.req.msgID)
    (empty : ∀ k, op = .session k .endDrain →
      (shared.session k).pending.reqs = [])
    (own : ∀ k back other reason, op = .send k back (.drain other reason) →
      req ∈ (shared.session k).pending.reqs → other = req)
    (fails : ∀ k back, op = .send k back (.wait req) → choice = .err err)
    (carries : op.Carries req err) (undisturbed : op.Undisturbed req shared)
    (executed : exec config shared op choice = some outcome) :
    Fresh (Op.Carries req err) outcome := by
  cases exec_does executed with
  | queue does => cases does <;> simp +contextual [Fresh, Op.Carries]
  | @session k op _ inside does =>
      exact carries_session exhausts (requeue k inside) carries undisturbed
        (fun drains => empty k (by rw [drains])) (registered k inside) does
  | @send k back op _ _ does =>
      exact carries_send carries (fun waits => fails k back (by rw [waits]))
        (fun other reason drains => own k back other reason (by rw [drains]))
        does
  | recv _ does => exact carries_recv undisturbed does
  | run _ does =>
      cases does
      all_goals simp [Fresh, openStream, recordFailure, or_imp, forall_and]
      all_goals simp [Op.Carries, SendOp.Carries, SessionOp.Carries]
  | closeInbound kind => simp [outbound] at kind
  | endCancel | endDrain => exact carries.elim
  | _ =>
      simp [Fresh, liftDispatch, reply, exited, or_imp, forall_and] <;>
        simp [Op.Carries, SendOp.Carries, SessionOp.Carries]

end Exec

/-! ## Runs -/

/-- The main goroutine is sending the request if it is registered, and whatever
becomes of it then has the error of its send. -/
def Op.Marked (req : Request) (err : Err) (shared : Shared) (op : Op) : Prop :=
  (.main ∈ op.roles → ∀ k < shared.opened,
      req ∈ (shared.session k).pending.reqs → op.sending req = some k) ∧
    op.Carries req err

section Runs

open Pool

variable {config : Config} {workload : Workload} {state next : ChannelState}
  {allowed : ChannelState → Step → Prop} {thread : Nat} {choice : Choice}
  {req : Request} {err : Err}

/-- The sessions of an outbound channel queue their calls again. -/
theorem requeue_reached (outbound : config.kind = .outbound)
    (reached : config.Reaches workload allowed state) :
    ∀ k < state.shared.opened, (state.shared.session k).requeue = true := by
  refine reached.invariant (fun state =>
    ∀ k < state.shared.opened, (state.shared.session k).requeue = true) ?_ ?_
  · intro k _
    simp [Config.start, outbound, openedSession]
  · intro state label next _ requeue _ stepped k inside
    rcases Machine.step_cases stepped with
      ⟨thread, choice, rfl, ⟨runs⟩⟩ | ⟨event, shared, rfl, acted, rfl⟩
    · rw [runs.next_shared] at inside ⊢
      by_cases earlier : k < state.shared.opened
      · rw [((advances_exec runs.exec_eq).session k earlier).requeue]
        exact requeue k earlier
      · obtain ⟨suspect, new⟩ := session_opened runs.exec_eq
          (Nat.le_of_not_lt earlier) inside
        rw [new]
        rfl
    · obtain ⟨_, book, sessions⟩ := frame_environment acted
      obtain ⟨done, equal⟩ := sessions k
      have opened : shared.opened = state.shared.opened :=
        congrArg Book.opened book
      rw [equal]
      exact requeue k (opened ▸ inside)

/-- A request gets into a table only when a send loop registers it. -/
theorem registered_exec {shared : Shared} {op : Op} {outcome : Effect}
    (executed : exec config shared op choice = some outcome) {k : Nat}
    (inside : k < outcome.shared.opened)
    (member : req ∈ (outcome.shared.session k).pending.reqs) :
    k < shared.opened ∧
      (req ∈ (shared.session k).pending.reqs ∨
        ∃ back, op = .send k back (.add req)) := by
  have earlier : k < shared.opened := by
    by_contra new
    obtain ⟨suspect, equal⟩ := session_opened executed (Nat.le_of_not_lt new) inside
    rw [equal] at member
    cases member
  obtain ⟨call, called, rfl⟩ := List.mem_map.mp member
  refine ⟨earlier, ?_⟩
  rcases (table_exec executed earlier).origin called with
    ⟨old, there, _, same, _⟩ | ⟨back, added, running, _, _, same, _⟩
  · rw [← same]
    exact .inl (List.mem_map_of_mem there)
  · rw [same]
    exact .inr ⟨back, running⟩

/-- Registering a request leaves the send loop sending it. -/
theorem sending_of_add {shared : Shared} {k : Nat} {back : LoopReturn}
    {outcome : Effect}
    (unregistered : req ∉ (shared.session k).pending.reqs)
    (executed : exec config shared (.send k back (.add req)) choice =
      some outcome) :
    Fresh (fun later => .main ∈ later.roles → later.sending req = some k ∨
      req ∉ (outcome.shared.session k).pending.reqs) outcome := by
  cases exec_does executed with
  | send _ does =>
      cases does <;>
        simp [Fresh, loopReturn, unregistered, Op.sending, SendOp.sends,
          Op.roles]

/-- In every run in which nothing but its own send decides about the request,
the main goroutine sends it whenever it is registered. -/
theorem marked_reached (outbound : config.kind = .outbound)
    (exhausts : isResourceExhausted (some err) = true)
    (reached : config.Reaches workload
      (fun state label => SendFails req err state label ∧
        Undisturbed req state label) state) :
    ∀ op ∈ state.ops, op.Marked req err state.shared := by
  refine (reached.annotated (fun _ => True)
    (fun shared op => op.Marked req err shared) ?start ?run ?environment).2
  case start =>
    refine ⟨trivial, fun op member => ⟨fun _ k inside => ?_, ?_⟩⟩
    · simp [Config.start, outbound] at inside
    · rcases config.mem_start_ops workload member with
        ⟨_, rfl⟩ | ⟨_, rfl | rfl⟩ | ⟨_, _, rfl⟩ | rfl | ⟨_, rfl⟩ <;>
        exact True.intro
  case run =>
    intro state thread choice next runs reached permitted _ marked
    have executed := runs.exec_eq
    have fails : ∀ k back, runs.op = .send k back (.wait req) →
        choice = .err err := fun k back waits =>
      permitted.1 thread choice k back rfl (waits ▸ runs.head?)
    have undisturbed := permitted.2.2 thread choice runs.op rfl runs.head?
    have notEOF := isEOF_of_isResourceExhausted exhausts
    refine ⟨trivial, ?_, ?_⟩
    · intro later fresh
      refine ⟨fun plays k inside member => ?_, ?_⟩
      · obtain ⟨earlier, origin⟩ := registered_exec executed inside member
        have main := main_of_fresh reached permitted runs fresh plays
        rcases origin with before | ⟨back, adds⟩
        · have sends := marked.1 main k earlier before
          have kept := (sending_exec notEOF sends marked.2 (fails k) undisturbed
            executed).of_mem fresh plays
          exact kept.resolve_right fun gone => gone member
        · have absent : req ∉ (state.shared.session k).pending.reqs := by
            intro before
            have sends := marked.1 main k earlier before
            rw [adds] at sends
            cases sends
          rw [adds] at executed
          have kept := (sending_of_add absent executed).of_mem fresh plays
          exact kept.resolve_right fun gone => gone member
      · refine (carries_exec outbound exhausts (requeue_reached outbound reached)
          (fun k inside call called =>
            ((outcomes_reached reached).1.registered k inside call called).2)
          ?_ ?_ fails marked.2 undisturbed executed).of_mem fresh
        · intro k drains
          have asserts := ((closedDown_reached reached).2 _ runs.op_mem).2
          rw [drains] at asserts
          have none : (state.shared.session k).pending.calls = [] := asserts.2
          rw [PendingCalls.reqs, none]
          rfl
        · intro k back other reason drains before
          have inside : k < state.shared.opened := by
            have noted := ((closedDown_reached reached).2 _ runs.op_mem).1
            rw [drains] at noted
            exact of_decide_eq_true noted
          have sends := marked.1 (by simp [drains, Op.roles]) k inside before
          rw [drains] at sends
          simpa [Op.sending, SendOp.sends] using sends
    · intro op other earlier
      refine ⟨fun plays k inside member => ?_, earlier.2⟩
      obtain ⟨before, origin⟩ := registered_exec executed inside member
      rcases origin with registered | ⟨back, adds⟩
      · exact earlier.1 plays k before registered
      · exact absurd plays (sole_main reached runs (by simp [adds, Op.roles]) other)
  case environment =>
    intro shared event after acted _
    obtain ⟨_, book, sessions⟩ := frame_environment acted
    have opened : after.opened = shared.opened := congrArg Book.opened book
    refine ⟨trivial, fun op marked => ⟨fun plays k inside member => ?_, marked.2⟩⟩
    obtain ⟨done, equal⟩ := sessions k
    rw [equal] at member
    exact marked.1 plays k (opened ▸ inside) member

end Runs

/-! ## Outcomes -/

/-- The request that an operation may still give another outcome than this
error, without sending it. -/
def Op.spoils (err : Err) : Op → List Request
  | .queue (.fail req _) => [req]
  | .queue (.deliver req resp _) => if resp.err = some err then [] else [req]
  | .queue (.offer req resp _) => if resp.err = some err then [] else [req]
  | .send _ _ (.verdict req _) => [req]
  | .send _ _ (.answer req _) => [req]
  | .inbound op => op.held
  | _ => []

/-- The requests that got another outcome than this error. -/
def spoilt (err : Err) (responses : List Delivery) : List Request :=
  responses.flatMap fun delivery =>
    if delivery.resp.err = some err then [] else [delivery.req]

@[simp] theorem spoilt_append (err : Err) (front back : List Delivery) :
    spoilt err (front ++ back) = spoilt err front ++ spoilt err back :=
  List.flatMap_append

@[simp] theorem spoilt_singleton (err : Err) (delivery : Delivery) :
    spoilt err [delivery] =
      if delivery.resp.err = some err then [] else [delivery.req] :=
  List.flatMap_singleton _ _

/-- The ledger of a request that is either sent or gets another outcome than
the error of its send. -/
@[simps weight debit] def venture (req : Request) (err : Err) : Pool.Ledger Shared Op where
  credit shared :=
    shared.queue.ch.count req + shared.history.transmissions req +
      (spoilt err shared.history.responses).count req
  weight op := (op.unsent ++ op.spoils err).count req

section Venture

open Pool

variable {config : Config} {shared : Shared} {outcome : Effect}
  {req : Request} {err : Err}

@[simp] theorem venture_credit (shared : Shared) :
    (venture req err).credit shared =
      shared.queue.ch.count req +
        (shared.history.sends.map Prod.snd).count (some req) +
        (spoilt err shared.history.responses).count req := rfl

theorem venture_deliverError_le (other : Request) (reason : Err) :
    (venture req err).weigh (deliverError config other reason) ≤
      [other].count req := by
  unfold deliverError
  split
  · simp only [Ledger.weigh_cons, Ledger.weigh_nil, venture_weight, Op.unsent,
      QueueOp.unsent, Op.spoils, List.nil_append]
    split <;> simp
  · simp

theorem venture_deliverError_of_ne {other : Request} (differs : other ≠ req)
    (reason : Err) :
    (venture req err).weigh (deliverError config other reason) = 0 := by
  have bound : (venture req err).weigh (deliverError config other reason) ≤ _ :=
    venture_deliverError_le other reason
  rw [List.count_singleton, if_neg (by simpa using differs)] at bound
  exact Nat.le_zero.mp bound

@[simp] theorem venture_deliverError (other : Request) :
    (venture req err).weigh (deliverError config other err) = 0 := by
  unfold deliverError
  split <;> simp [Op.unsent, QueueOp.unsent, Op.spoils, errorResponse]

@[simp] theorem venture_failRequest (other : Option Request) (reason : Err) :
    (venture req err).weigh (failRequest other reason) =
      other.toList.count req := by
  cases other <;> simp [failRequest, Op.unsent, QueueOp.unsent, Op.spoils]

@[simp] theorem venture_drained (k : Nat) (order : List Request)
    (reason : Option Err) :
    (venture req err).weigh
        (order.map fun other => Op.session k (.retryOrFail other reason)) = 0 :=
  weigh_retries (fun _ => rfl) order

@[simp] theorem venture_watchers (k : Nat) (watches : List PendingCalls.Watch) :
    (venture req err).weigh (watchers k watches).flatten = 0 :=
  weigh_watchers (fun _ => rfl) watches

/-- Disposing of the request gives it the error of its send. -/
theorem venture_session {k : Nat} {op : SessionOp}
    (exhausts : isResourceExhausted (some err) = true)
    (requeue : (shared.session k).requeue = true)
    (carries : (Op.session k op).Carries req err)
    (undisturbed : (Op.session k op).Undisturbed req shared)
    (does : SessionDoes config shared k op outcome) :
    (venture req err).Bounds shared (.session k op) outcome := by
  unfold Ledger.Bounds
  cases does
  all_goals simp_all [Op.unsent, QueueOp.unsent, Op.spoils, drainCalls,
    Op.Carries, SessionOp.Carries, Op.Undisturbed,
    venture_deliverError_of_ne]
  case exhausted reason other refused exhausted =>
    by_cases same : other = req
    · rw [carries same]
      exact venture_deliverError other
    · exact venture_deliverError_of_ne same reason
  case requeue reason other refused lives requeues =>
    refine List.count_eq_zero.mpr fun member => ?_
    rw [carries (List.mem_singleton.mp member).symm, exhausts] at lives
    cases lives
  case matched other resp =>
    split
    · rfl
    · rw [List.count_singleton, if_neg (by simpa using carries)]

theorem venture_send {k : Nat} {back : LoopReturn} {op : SendOp}
    {choice : Choice} (want : req.wantServerResponse = true)
    (does : SendDoes config shared choice k back op outcome) :
    (venture req err).Bounds shared (.send k back op) outcome := by
  unfold Ledger.Bounds
  cases does
  all_goals simp_all [Op.unsent, QueueOp.unsent, SendOp.unsent, RunOp.held,
    Op.spoils, InboundOp.held, drainCalls, loopReturn]
  case ctxEnded => exact venture_deliverError_le _ _
  case confirm other confirms =>
    refine List.count_eq_zero.mpr fun member => ?_
    rw [← List.mem_singleton.mp member] at confirms
    simp_all [Request.wantSendConfirmation, Request.wantServerResponse]
  case report other reason receiveDecides =>
    intro silent
    refine List.count_eq_zero.mpr fun member => ?_
    rw [← List.mem_singleton.mp member, want] at silent
    cases silent
  case answer => exact venture_deliverError_le _ _
  all_goals simp only [List.count_cons, List.count_nil, beq_iff_eq,
    Option.some.injEq]
  all_goals omega

theorem venture_run {op : RunOp} (does : RunDoes config shared op outcome) :
    (venture req err).Bounds shared (.run op) outcome := by
  unfold Ledger.Bounds
  cases does
  all_goals simp_all [Op.unsent, QueueOp.unsent, SendOp.unsent, RunOp.held,
    Op.spoils, openStream, recordFailure, Shared.openSession]
  case await =>
    simp only [List.count_cons, List.count_nil]
    omega
  case connect => split <;> omega

/-- No operation brings the request to a second send, or to a send and another
outcome. -/
theorem venture_bounds {op : Op} {choice : Choice}
    (exhausts : isResourceExhausted (some err) = true)
    (requeue : ∀ k < shared.opened, (shared.session k).requeue = true)
    (want : req.wantServerResponse = true)
    (carries : op.Carries req err) (undisturbed : op.Undisturbed req shared)
    (executed : exec config shared op choice = some outcome) :
    (venture req err).Bounds shared op outcome := by
  cases exec_does executed with
  | queue does =>
      unfold Ledger.Bounds
      cases does
      case deliver delivers =>
        rcases delivers with rfl | rfl <;>
          simp [Op.unsent, QueueOp.unsent, Op.spoils] <;> omega
      all_goals simp [Op.unsent, QueueOp.unsent, Op.spoils]
      case fail => exact venture_deliverError_le _ _
      all_goals omega
  | session inside does =>
      exact venture_session exhausts (requeue _ inside) carries undisturbed does
  | send _ does => exact venture_send want does
  | recv _ does =>
      cases does <;> simp [Ledger.Bounds, Op.unsent, Op.spoils, drainCalls]
  | run _ does => exact venture_run does
  | dispatch => exact (keeps_liftDispatch (fun _ => rfl) rfl rfl).le
  | reply =>
      simp [Ledger.Bounds, reply, Op.unsent, QueueOp.unsent, Op.spoils,
        Request.isCall_of_want want _ _]
  | drainQueue queued =>
      simp [Ledger.Bounds, Op.unsent, QueueOp.unsent, Op.spoils, queued,
        List.count_cons]
      omega
  | _ =>
      simp [Ledger.Bounds, exited, Op.unsent, SendOp.unsent, Op.spoils,
        InboundOp.held, drainCalls]

theorem venture_environment {event : Event} {after : Shared}
    (acted : environment shared event = some after) :
    (venture req err).credit after = (venture req err).credit shared ∧
      (venture req err).debit after = (venture req err).debit shared := by
  obtain ⟨received, crowded, history⟩ := history_environment acted
  simp [history, (frame_environment acted).1]

end Venture

/-! ## Poison requests -/

/-- A value that a list of pairs has once belongs to one key. -/
theorem eq_of_count_le_one {entries : List (Nat × Option Request)}
    {value : Option Request} (once : (entries.map Prod.snd).count value ≤ 1)
    {k other : Nat} (member : (k, value) ∈ entries)
    (another : (other, value) ∈ entries) : other = k := by
  rw [List.count_eq_countP, List.countP_map, List.countP_eq_length_filter] at once
  have alike : ∀ key, (key, value) ∈ entries →
      (key, value) ∈ entries.filter ((· == value) ∘ Prod.snd) :=
    fun key inside => List.mem_filter.mpr ⟨inside, beq_self_eq_true value⟩
  have first := alike k member
  have second := alike other another
  match found : entries.filter ((· == value) ∘ Prod.snd) with
  | [] =>
      rw [found] at first
      cases first
  | [entry] =>
      rw [found, List.mem_singleton] at first second
      exact congrArg Prod.fst (second.trans first.symm)
  | _ :: _ :: _ =>
      rw [found] at once
      simp at once

section Poison

open Pool

variable {config : Config} {workload : Workload} {state : ChannelState}
  {req : Request} {err : Err}

/-- A request whose sends fail is sent once, or gets another outcome. -/
theorem venture_reached (outbound : config.kind = .outbound)
    (want : req.wantServerResponse = true)
    (exhausts : isResourceExhausted (some err) = true)
    (reached : config.Reaches workload
      (fun state label => SendFails req err state label ∧
        Undisturbed req state label) state) :
    state.shared.queue.ch.count req + state.shared.history.transmissions req +
      (spoilt err state.shared.history.responses).count req ≤ 1 := by
  have bound := (venture req err).bounded
    (fun {state thread choice next} runs reached permitted =>
      venture_bounds exhausts (requeue_reached outbound reached) want
        (marked_reached outbound exhausts reached runs.op runs.op_mem).2
        (permitted.2.2 thread choice runs.op rfl runs.head?) runs.exec_eq)
    (fun _ _ _ => venture_environment) reached
  have start : (venture req err).weigh (config.start workload).ops =
      (enqueued workload.users).count req := by
    have users := workload.weigh_threads (venture req err) req
      (fun _ => rfl) rfl (fun _ => rfl)
    unfold Config.start
    rw [outbound]
    simp_all [State.ops, Op.unsent, Op.spoils, RunOp.held]
  have distinct := List.nodup_iff_count_le_one.mp workload.distinct req
  rw [start] at bound
  simp only [venture_credit, Config.start_queue, Config.start_history,
    venture_debit] at bound
  unfold History.transmissions
  simp [spoilt] at bound ⊢
  omega

/-- On an outbound channel, take a call that is not streaming, has an ID of its
own, and whose sends all fail with the same resource exhaustion.  If nothing but
its own send decides about it, it is passed to `Send` at most once, so that it
ends at most one stream, it gets no other outcome than its error, and it has got
it when no goroutine and no table has the call any more. -/
theorem poison_sent_once (outbound : config.kind = .outbound)
    (called : req ∈ enqueued workload.users)
    (want : req.wantServerResponse = true) (unary : req.streaming = false)
    (unique : ∀ other ∈ enqueued workload.users,
      other.msgID = req.msgID → other = req)
    (exhausts : isResourceExhausted (some err) = true)
    (reached : config.Reaches workload
      (fun state label => SendFails req err state label ∧
        Undisturbed req state label) state) :
    state.shared.history.transmissions req ≤ 1 ∧
      ∀ k, (k, some req) ∈ state.shared.history.sends →
        (∀ other, other ≠ k → (other, some req) ∉ state.shared.history.sends) ∧
        (deliveries state.shared.history req).length ≤ 1 ∧
        (∀ delivery ∈ deliveries state.shared.history req,
          delivery.resp.err = some err) ∧
        (state.shared.ended req.ctx = false →
          (∀ op ∈ state.ops, req ∉ op.held) →
          (∀ j < state.shared.opened,
            req ∉ (state.shared.session j).pending.reqs) →
          (deliveries state.shared.history req).length = 1) := by
  have call := Request.isCall_of_want want
  have ventured := venture_reached outbound want exhausts reached
  refine ⟨by omega, fun k sent => ?_⟩
  have once : state.shared.history.transmissions req = 1 := by
    have positive : 0 < state.shared.history.transmissions req :=
      List.count_pos_iff.mpr (List.mem_map_of_mem (f := Prod.snd) sent)
    omega
  refine ⟨?_, deliveries_le_one call reached (.inl unary), ?_, ?_⟩
  · intro other differs again
    exact differs (eq_of_count_le_one (Nat.le_of_eq once) sent again)
  · intro delivery member
    obtain ⟨inside, same⟩ := List.mem_filter.mp member
    by_contra differs
    have counted : 0 < (spoilt err state.shared.history.responses).count req := by
      refine List.count_pos_iff.mpr (List.mem_flatMap.mpr ⟨delivery, inside, ?_⟩)
      rw [if_neg differs, of_decide_eq_true same]
      exact List.mem_singleton_self req
    omega
  · intro live unheld untabled
    have balance := custody_reached call reached
    have kept := discarded_eq_zero reached (Bool.and_eq_true_iff.mp want).1
      (fun _ => unique) (by simp [live])
    have light : (custody req).weigh state.ops = 0 :=
      Ledger.weigh_eq_zero fun op member =>
        List.count_eq_zero.mpr (unheld op member)
    have unregistered :
        tabled state.shared.session state.shared.opened req = 0 :=
      Finset.sum_eq_zero fun j inside =>
        List.count_eq_zero.mpr (untabled j (Finset.mem_range.mp inside))
    rw [light, custody_credit, unregistered,
      List.count_eq_one_of_mem workload.distinct called] at balance
    rw [length_deliveries_reached reached (.inl unary)]
    omega

/-- Check that every `Send` of a request fails with an error. -/
def sendFailsCheck (req : Request) (err : Err) (state : ChannelState) :
    Step → Bool
  | .run thread (.err reason) =>
      match state.head? thread with
      | some (.send _ _ (.wait other)) =>
          decide (other ≠ req) || decide (reason = err)
      | _ => true
  | .run thread _ =>
      match state.head? thread with
      | some (.send _ _ (.wait other)) => decide (other ≠ req)
      | _ => true
  | .env _ => true

theorem sendFails_of_check {state : ChannelState} {label : Step}
    (checked : sendFailsCheck req err state label = true) :
    SendFails req err state label := by
  intro thread choice k back running first
  rw [running] at checked
  cases choice <;> simp_all [sendFailsCheck]

/-- A message that cannot be marshaled makes `Send` fail with this error. -/
def marshalFailure : Err := .status .internal "string field contains invalid UTF-8"

/-- An outbound channel with room for two requests. -/
def roomyOutbound : Config := { smallOutbound with sendBufferSize := 2 }

/-- The second call cannot be marshaled.  Both calls are queued again, and the
second one ends the next stream too. -/
def poisonedRun : List Step :=
  Step.first 0 2 ++ Step.first 1 6 ++ [.run 0 (.pick .third)] ++
    Step.first 0 8 ++ Step.first 1 6 ++ [.run 0 (.pick .third)] ++
    Step.first 0 5 ++ [.run 0 (.err marshalFailure)] ++ Step.first 0 4 ++
    [.run 0 (.order [soleCall, otherCall])] ++ Step.first 0 15 ++
    [.run 2 (.pick .second), .run 2 (.err .contextCanceled)] ++
    Step.first 2 3 ++ Step.first 0 3 ++ [.run 0 (.pick .second)] ++
    Step.first 0 12 ++ [.run 0 (.pick .third)] ++ Step.first 0 5 ++
    [.run 0 (.err marshalFailure)]

theorem poisonedRun_followed :
    ((channel roomyOutbound).follow (sendFailsCheck otherCall marshalFailure)
      (roomyOutbound.start twoCalls) poisonedRun).isSome = true := by
  decide +kernel

/-- A call that cannot be marshaled is sent again, on the next stream, together
with the other call that was pending. -/
theorem unmarshalable_call_sent_twice :
    ∃ state, roomyOutbound.Reaches twoCalls
        (SendFails otherCall marshalFailure) state ∧
      marshalFailure.isEOF = false ∧
      state.shared.history.sends = [(0, some soleCall), (0, some otherCall),
        (1, some soleCall), (1, some otherCall)] ∧
      (0, otherCall, some marshalFailure) ∈ state.shared.history.sent ∧
      (1, otherCall, some marshalFailure) ∈ state.shared.history.sent ∧
      deliveries state.shared.history otherCall = [] := by
  have reached : roomyOutbound.Reaches twoCalls
      (SendFails otherCall marshalFailure) _ :=
    Machine.reach_of_isSome (fun _ _ => sendFails_of_check) poisonedRun_followed
  refine ⟨_, reached, rfl, by decide +kernel, by decide +kernel,
    by decide +kernel, by decide +kernel⟩

/-- Check what an operation finds about a request. -/
def Op.undisturbedCheck (req : Request) (shared : Shared) : Op → Bool
  | .send k _ (.failed other _) =>
      decide (other ≠ req) || decide ((shared.session k).handoff ≠ .streamClosed)
  | .recv k (.drain _) => decide (req ∉ (shared.session k).pending.reqs)
  | .session k (.retryOrFail other _) =>
      decide (other ≠ req) || (shared.session k).refused.isNone
  | .session _ (.take _ msg) => decide (msg.messageSeqNo ≠ req.msgID)
  | _ => true

/-- Check that nothing but its own send decides about a request. -/
def undisturbedCheck (req : Request) (state : ChannelState) (label : Step) :
    Bool :=
  !state.shared.ended req.ctx &&
    match label with
    | .run thread _ =>
        match state.head? thread with
        | some op => op.undisturbedCheck req state.shared
        | none => true
    | .env _ => true

theorem undisturbed_of_check {state : ChannelState} {label : Step}
    (checked : undisturbedCheck req state label = true) :
    Undisturbed req state label := by
  obtain ⟨live, found⟩ := Bool.and_eq_true_iff.mp checked
  refine ⟨by simpa using live, fun thread choice op running first => ?_⟩
  rw [running] at found
  simp only [first] at found
  revert found
  fun_cases Op.undisturbedCheck req state.shared op <;>
    simp [Op.Undisturbed, Decidable.imp_iff_not_or]

/-- A message that is too large makes `Send` fail with this error. -/
def tooLarge : Err :=
  .status .resourceExhausted "trying to send message larger than max"

/-- A call is too large, and gets the error of its send. -/
def oversizedRun : List Step :=
  Step.first 0 2 ++ Step.first 1 6 ++ [.run 0 (.pick .third)] ++
    Step.first 0 5 ++ [.run 0 (.err tooLarge)] ++ Step.first 0 4 ++
    [.run 0 (.order [soleCall])] ++ Step.first 0 2

theorem oversizedRun_followed :
    ((channel smallOutbound).follow
      (fun state label => sendFailsCheck soleCall tooLarge state label &&
        undisturbedCheck soleCall state label)
      (smallOutbound.start callOnly) oversizedRun).isSome = true := by
  decide +kernel

theorem poison_sent_once_oversized :
    ∃ state, smallOutbound.Reaches callOnly
        (fun state label => SendFails soleCall tooLarge state label ∧
          Undisturbed soleCall state label) state ∧
      state.shared.history.transmissions soleCall = 1 ∧
      (deliveries state.shared.history soleCall).length = 1 := by
  have reached : smallOutbound.Reaches callOnly
      (fun state label => SendFails soleCall tooLarge state label ∧
        Undisturbed soleCall state label) _ :=
    Machine.reach_of_isSome (fun _ _ checked =>
      ⟨sendFails_of_check (Bool.and_eq_true_iff.mp checked).1,
        undisturbed_of_check (Bool.and_eq_true_iff.mp checked).2⟩)
      oversizedRun_followed
  have once := (poison_sent_once rfl (by decide) rfl rfl (by decide) rfl
    reached).2 0 (by decide +kernel)
  refine ⟨_, reached, by decide +kernel, once.2.2.2 ?_ ?_ ?_⟩
  · decide +kernel
  · decide +kernel
  · decide +kernel

end Poison

end Stream
end Gorums
