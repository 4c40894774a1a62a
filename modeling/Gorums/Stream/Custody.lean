import Gorums.Stream.Channel
import Mathlib.Algebra.Order.BigOperators.Group.Finset

/-!
# Custody of requests

Where a request is: with its caller before the push, in the send queue, in the
hand of the run loop or a send loop, in a pending table, in the hand of a
goroutine that disposes of it, or finished.  No operation of a channel loses a
request or makes a second copy of it.
-/

namespace Gorums
namespace Stream

/-! ## Who holds a request -/

/-- The request that an operation on the queue or a response channel holds. -/
def QueueOp.held : QueueOp → List Request
  | .enqueue req => [req]
  | .rlock req _ _ => [req]
  | .check req _ _ => [req]
  | .select req _ _ => [req]
  | .fail req _ => [req]
  | .deliver req _ last => if last then [req] else []
  | .offer req _ last => if last then [req] else []
  | _ => []

/-- The request that an operation on a session holds; a streaming call stays in
its table while a response is delivered. -/
def SessionOp.held : SessionOp → List Request
  | .retryOrFail req _ => [req]
  | .retryClosed req => [req]
  | .matched req _ => PendingCalls.removed req
  | _ => []

/-- The request in the hand of a send loop; a registered one is in the table. -/
def SendOp.held : SendOp → List Request
  | .select => []
  | .ended req => [req]
  | .draining req => [req]
  | .ctx req => [req]
  | .add req => [req]
  | .call req => req.unregistered
  | .wait req => req.unregistered
  | .healthy req => req.unregistered
  | .failed req _ => req.unregistered
  | .swap req _ => req.unregistered
  | .fail req _ => req.unregistered
  | .cancel req _ => req.unregistered
  | .drain req _ => req.unregistered
  | .report req _ _ => req.unregistered
  | .verdict req _ => [req]
  | .answer req _ => [req]
  | .stop req => req.toList

/-- The request in the run loop's hand. -/
def RunOp.held : RunOp → List Request
  | .await _ => []
  | .refusing _ req => [req]
  | .ctx _ req => req.toList
  | .openStream _ req => req.toList
  | .failed _ req _ => req.toList
  | .record _ req _ => req.toList
  | .down _ _ req => req.toList
  | .ended _ _ req => req.toList
  | .verdict _ _ req => req.toList
  | .accepted _ _ req _ _ => req.toList
  | .connect _ _ req => req.toList

/-- The request that an inbound send goroutine holds. -/
def InboundOp.held : InboundOp → List Request
  | .left req => req.toList
  | _ => []

/-- The request that an operation holds. -/
def Op.held : Op → List Request
  | .queue op => op.held
  | .session _ op => op.held
  | .send _ _ op => op.held
  | .run op => op.held
  | .inbound op => op.held
  | _ => []

/-- The number of registrations of a request over the opened sessions. -/
def tabled (session : Nat → Session) (opened : Nat) (req : Request) : Nat :=
  ∑ k ∈ Finset.range opened, (session k).pending.reqs.count req

/-- The requests that are finished with a response. -/
def answered (responses : List Delivery) : List Request :=
  (responses.filter Delivery.last).map Delivery.req

/-- The ledger of a request. -/
@[simps] def custody (req : Request) : Pool.Ledger Shared Op where
  credit shared :=
    shared.queue.ch.count req + tabled shared.session shared.opened req +
      (answered shared.history.responses).count req +
      (shared.history.discarded.map Prod.fst).count req
  weight op := op.held.count req

/-! ## Updates of the tables -/

/-- A session update changes the registrations by those of the session. -/
theorem tabled_update (shared : Shared) {k opened : Nat}
    (inside : k < opened) (change : Session → Session) (req : Request) :
    tabled (shared.update k change).session opened req +
        (shared.session k).pending.reqs.count req =
      tabled shared.session opened req +
        (change (shared.session k)).pending.reqs.count req := by
  have member : k ∈ Finset.range opened := Finset.mem_range.mpr inside
  unfold tabled
  rw [← Finset.add_sum_erase _ _ member, ← Finset.add_sum_erase _
    (fun k => (shared.session k).pending.reqs.count req) member]
  have others : ∀ other ∈ (Finset.range opened).erase k,
      ((shared.update k change).session other).pending.reqs.count req =
        (shared.session other).pending.reqs.count req := by
    intro other differs
    simp [Finset.ne_of_mem_erase differs]
  rw [Finset.sum_congr rfl others]
  simp only [Shared.update_session, if_true]
  omega

/-- A call stands in a table at most as often as it is counted there. -/
theorem count_le_tabled (shared : Shared) {k : Nat} (inside : k < shared.opened)
    (req : Request) :
    (shared.session k).pending.reqs.count req ≤
      tabled shared.session shared.opened req := by
  unfold tabled
  exact Finset.single_le_sum
    (f := fun k => (shared.session k).pending.reqs.count req)
    (fun _ _ => Nat.zero_le _) (Finset.mem_range.mpr inside)

/-- A session update that keeps the table keeps the registrations. -/
@[simp] theorem tabled_update_of_reqs {shared : Shared} {k opened : Nat}
    {change : Session → Session}
    (same : (change (shared.session k)).pending.reqs =
      (shared.session k).pending.reqs)
    (req : Request) :
    tabled (shared.update k change).session opened req =
      tabled shared.session opened req := by
  refine Finset.sum_congr rfl fun other _ => ?_
  by_cases equal : other = k
  · simp [equal, same]
  · simp [equal]

/-- A new session has no registrations. -/
@[simp] theorem tabled_open (shared : Shared) (suspect : Bool) (req : Request) :
    tabled (shared.update shared.opened fun _ => openedSession suspect).session
        (shared.opened + 1) req =
      tabled shared.session shared.opened req := by
  unfold tabled
  rw [Finset.sum_range_succ]
  have empty : ((shared.update shared.opened fun _ =>
      openedSession suspect).session shared.opened).pending.reqs.count req = 0 := by
    simp [openedSession, PendingCalls.reqs]
  rw [empty, Nat.add_zero]
  refine Finset.sum_congr rfl fun other inside => ?_
  simp [Nat.ne_of_lt (Finset.mem_range.mp inside)]

/-! ## Every operation keeps custody -/

section Keeps

open Pool

variable {config : Config} {shared : Shared} {outcome : Effect} {held : Request}

@[simp] theorem answered_append (responses : List Delivery)
    (req : Request) (resp : Response) (last : Bool) :
    answered (responses ++ [⟨req, resp, last⟩]) =
      answered responses ++ if last then [req] else [] := by
  cases last <;> simp [answered]

@[simp] theorem map_fst_reason (reqs : List Request) (reason : Reason) :
    (reqs.map fun req => (req, reason)).map Prod.fst = reqs := by
  simp [Function.comp_def]

/-- A request that is to fail is either delivered or done. -/
theorem count_mute (req : Request) (err : Err) :
    req.mute.count held +
        (custody held).weigh (deliverError config req err) =
      [req].count held := by
  unfold Request.mute deliverError
  split <;> simp [Op.held, QueueOp.held]

theorem worth_sendErrorResponse (req : Request) (err : Err) (rest : List Op) :
    (custody held).worth (sendErrorResponse config shared req err rest) =
      (custody held).credit shared + [req].count held +
        (custody held).weigh rest := by
  have split : req.mute.count held +
      (custody held).weigh (deliverError config req err) = [req].count held :=
    count_mute req err
  simp [-List.map_map]
  omega

theorem custody_queue {op : QueueOp}
    (does : QueueDoes config shared op outcome) :
    (custody held).Keeps shared (.queue op) outcome := by
  unfold Ledger.Keeps
  cases does with
  | deliver delivers =>
      rcases delivers with rfl | rfl <;> simp [Op.held, QueueOp.held] <;> omega
  | _ =>
      simp [-List.map_map, -sendErrorResponse, Op.held, QueueOp.held,
        worth_sendErrorResponse] <;>
      omega

theorem credit_setPending (held : Request) {k : Nat} (pending : PendingCalls)
    (inside : k < shared.opened) :
    (custody held).credit (shared.setPending k pending) +
        (shared.session k).pending.reqs.count held =
      (custody held).credit shared + pending.reqs.count held := by
  have tables := tabled_update shared inside
    (fun session => { session with pending := pending }) held
  simp at tables ⊢
  omega

/-- The operations that dispose of drained calls hold these calls. -/
theorem weigh_retryOrFail (k : Nat) (order : List Request) (err : Option Err) :
    (custody held).weigh
        (order.map fun req => Op.session k (.retryOrFail req err)) =
      order.count held := by
  induction order with
  | nil => rfl
  | cons req order inductionHypothesis =>
      rw [List.map_cons, Ledger.weigh_cons, inductionHypothesis]
      simp [Op.held, SessionOp.held, List.count_cons, Nat.add_comm]

/-- The drained calls move to the goroutine that disposes of them. -/
theorem worth_drainCalls {k : Nat} {err : Option Err} {order : List Request}
    {rest : List Op} (inside : k < shared.opened)
    (permuted : order.isPerm (shared.session k).pending.reqs = true) :
    (custody held).worth (drainCalls shared k err order rest) =
      (custody held).credit shared + (custody held).weigh rest := by
  have counted := (List.isPerm_iff.mp permuted).count_eq held
  have tables := tabled_update shared inside
    (fun session => { session with pending := session.pending.drain }) held
  simp [drainCalls, weigh_retryOrFail] at tables ⊢
  omega

@[simp] theorem custody_watchers (k : Nat) (watches : List PendingCalls.Watch) :
    (custody held).weigh (watchers k watches).flatten = 0 :=
  weigh_watchers (fun _ => rfl) watches

@[simp] theorem weigh_failRequest (req : Option Request) (err : Err) :
    (custody held).weigh (failRequest req err) = req.toList.count held := by
  cases req <;> simp [failRequest, Op.held, QueueOp.held]

/-- A request that awaits a confirmation is not registered. -/
theorem unregistered_of_confirmation {req : Request}
    (confirm : req.wantSendConfirmation = true) : req.unregistered = [req] := by
  simp only [Request.wantSendConfirmation, Bool.and_eq_true] at confirm
  simp [Request.unregistered, Request.wantServerResponse, confirm.1]

theorem count_unregistered (req : Request) :
    req.unregistered.count held =
      if req.wantServerResponse then 0 else [req].count held := by
  unfold Request.unregistered
  split <;> rfl

theorem custody_session {k : Nat} {op : SessionOp}
    (inside : k < shared.opened)
    (does : SessionDoes config shared k op outcome) :
    (custody held).Keeps shared (.session k op) outcome := by
  unfold Ledger.Keeps
  cases does with
  | @unmatched pending index msg took =>
      have counted := PendingCalls.count_take took held
      have tables := credit_setPending held pending inside
      simp [Op.held, SessionOp.held] at counted tables ⊢
      omega
  | @take req pending index msg took =>
      have counted := PendingCalls.count_take took held
      have tables := credit_setPending held pending inside
      simp [Op.held, SessionOp.held] at counted tables ⊢
      omega
  | @expire watch req pending ended removal =>
      have counted := PendingCalls.count_expire removal held
      have tables := credit_setPending held pending inside
      simp [Op.held, SessionOp.held] at counted tables ⊢
      omega
  | @matched req resp =>
      cases streaming : req.streaming <;>
        simp [Op.held, QueueOp.held, SessionOp.held, PendingCalls.removed,
          streaming]
  | _ =>
      simp_all [-sendErrorResponse, Op.held, QueueOp.held, SessionOp.held,
        worth_sendErrorResponse, worth_drainCalls]

theorem custody_send {k : Nat} {back : LoopReturn} {op : SendOp}
    {choice : Choice} (inside : k < shared.opened)
    (does : SendDoes config shared choice k back op outcome) :
    (custody held).Keeps shared (.send k back op) outcome := by
  unfold Ledger.Keeps
  cases does with
  | @add req pending back want added =>
      have counted := PendingCalls.count_add added held
      have tables := credit_setPending held pending inside
      simp [-List.map_map, Op.held, SendOp.held, Request.unregistered, want]
        at counted tables ⊢
      omega
  | _ =>
      simp_all [-List.map_map, -sendErrorResponse, Op.held, QueueOp.held,
        SessionOp.held, SendOp.held, RunOp.held, InboundOp.held,
        worth_sendErrorResponse, worth_drainCalls, loopReturn, List.count_cons,
        unregistered_of_confirmation, count_unregistered] <;>
      omega

theorem custody_run {op : RunOp} (does : RunDoes config shared op outcome) :
    (custody held).Keeps shared (.run op) outcome := by
  unfold Ledger.Keeps
  cases does <;>
    simp_all [Op.held, QueueOp.held, SessionOp.held, SendOp.held, RunOp.held,
      List.count_cons, openStream, recordFailure, Shared.openSession]
  omega

/-- No operation loses a request of a caller or makes a second copy of it. -/
theorem custody_keeps {op : Op} {choice : Choice} (call : held.IsCall)
    (executed : exec config shared op choice = some outcome) :
    (custody held).Keeps shared op outcome := by
  cases exec_does executed with
  | queue does => exact custody_queue does
  | session inside does => exact custody_session inside does
  | send inside does => exact custody_send inside does
  | run opened does => exact custody_run does
  | recv inside does =>
      unfold Ledger.Keeps
      cases does <;> simp_all [Op.held, SessionOp.held, worth_drainCalls]
  | dispatch => exact keeps_liftDispatch (fun _ => rfl) rfl rfl
  | reply serves =>
      simp [Ledger.Keeps, reply, Op.held, QueueOp.held, call _ _]
  | endDrain inside permuted =>
      simp [Ledger.Keeps, worth_drainCalls inside permuted, Op.held]
  | drainQueue queued =>
      simp [Ledger.Keeps, Op.held, QueueOp.held, queued, List.count_cons]
      omega
  | _ =>
      simp [Ledger.Keeps, Op.held, SessionOp.held, SendOp.held, InboundOp.held,
        exited]

/-- Neither does the environment. -/
theorem custody_environment {event : Event} {after : Shared}
    (acted : environment shared event = some after) :
    (custody held).credit after = (custody held).credit shared ∧
      (custody held).debit after = (custody held).debit shared := by
  cases environment_acts acted <;> simp

/-- A new channel has nothing but the calls of its users. -/
theorem custody_start (config : Config) (workload : Workload) :
    (custody held).credit (config.start workload).shared = 0 ∧
      (custody held).weigh (config.start workload).ops =
        (enqueued workload.users).count held := by
  have users := workload.weigh_threads (custody held) held
    (fun _ => rfl) rfl (fun _ => rfl)
  unfold Config.start
  cases config.kind <;>
    simp_all [State.ops, tabled, answered, Op.held, RunOp.held, InboundOp.held,
      PendingCalls.reqs]

/-- In every run, the places of a call add up to how often its users enqueue
it. -/
theorem custody_reached {allowed : ChannelState → Step → Prop}
    {workload : Workload} {state : ChannelState} (call : held.IsCall)
    (reached : config.Reaches workload allowed state) :
    (custody held).credit state.shared + (custody held).weigh state.ops =
      (enqueued workload.users).count held := by
  have balance := (custody held).balanced
    (fun _ _ _ _ executed _ => custody_keeps call executed)
    (fun _ _ _ => custody_environment) reached
  obtain ⟨unheld, called⟩ := custody_start config workload
  rw [unheld, called] at balance
  simpa using balance

end Keeps

end Stream
end Gorums
