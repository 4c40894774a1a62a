import Gorums.Stream.ExactlyOnce

/-!
# Transmission of one-way and streaming requests

A request that has been passed to `Send` gets there again only if a session
queues it again.  A session queues only pending calls that are not streaming, so
one-way and streaming requests are sent at most once over all sessions.
-/

namespace Gorums
namespace Stream

/-- The request that an operation on the queue may still bring to a send. -/
def QueueOp.unsent : QueueOp → List Request
  | .enqueue req => [req]
  | .rlock req _ _ => [req]
  | .check req _ _ => [req]
  | .select req _ _ => [req]
  | _ => []

/-- The request that a send loop has not sent yet. -/
def SendOp.unsent : SendOp → List Request
  | .ended req => [req]
  | .draining req => [req]
  | .ctx req => [req]
  | .add req => [req]
  | .call req => [req]
  | .stop req => req.toList
  | _ => []

/-- The request that an operation may still bring to a send. -/
def Op.unsent : Op → List Request
  | .queue op => op.unsent
  | .send _ _ op => op.unsent
  | .run op => op.held
  | _ => []

/-- How often a request has been passed to `Send`. -/
def History.transmissions (history : History) (req : Request) : Nat :=
  (history.sends.map Prod.snd).count (some req)

/-- The ledger of a request's transmissions. -/
@[simps weight debit] def transmission (req : Request) : Pool.Ledger Shared Op where
  credit shared :=
    shared.queue.ch.count req + shared.history.transmissions req
  weight op := op.unsent.count req

section Bounds

open Pool

variable {config : Config} {workload : Workload} {shared : Shared}
  {outcome : Effect} {req : Request}

@[simp] theorem transmission_credit (shared : Shared) :
    (transmission req).credit shared =
      shared.queue.ch.count req +
        (shared.history.sends.map Prod.snd).count (some req) := rfl

@[simp] theorem transmission_deliverError (other : Request) (err : Err) :
    (transmission req).weigh (deliverError config other err) = 0 := by
  unfold deliverError
  split <;> rfl

@[simp] theorem transmission_failRequest (other : Option Request) (err : Err) :
    (transmission req).weigh (failRequest other err) = 0 := by
  cases other <;> rfl

@[simp] theorem transmission_drained (k : Nat) (order : List Request)
    (err : Option Err) :
    (transmission req).weigh
        (order.map fun other => Op.session k (.retryOrFail other err)) = 0 :=
  weigh_retries (fun _ => rfl) order

@[simp] theorem transmission_watchers (k : Nat)
    (watches : List PendingCalls.Watch) :
    (transmission req).weigh (watchers k watches).flatten = 0 :=
  weigh_watchers (fun _ => rfl) watches

/-- A session queues only calls that await responses and are not streaming. -/
theorem transmission_session {k : Nat} {op : SessionOp}
    (once : req.oneway = true ∨ req.streaming = true)
    (sound : (Op.session k op).Sound shared)
    (does : SessionDoes config shared k op outcome) :
    (transmission req).Bounds shared (.session k op) outcome := by
  unfold Ledger.Bounds
  cases does
  all_goals simp [Op.unsent, QueueOp.unsent, drainCalls, List.count_eq_zero]
  case requeue =>
    rintro rfl
    simp_all [Op.Sound, Request.wantServerResponse]

theorem transmission_send {k : Nat} {back : LoopReturn} {op : SendOp}
    {choice : Choice} (does : SendDoes config shared choice k back op outcome) :
    (transmission req).Bounds shared (.send k back op) outcome := by
  unfold Ledger.Bounds
  cases does <;>
    simp_all [Op.unsent, QueueOp.unsent, SendOp.unsent, RunOp.held,
      drainCalls, loopReturn, List.count_cons] <;>
    omega

theorem transmission_run {op : RunOp} (does : RunDoes config shared op outcome) :
    (transmission req).Bounds shared (.run op) outcome := by
  unfold Ledger.Bounds
  cases does
  all_goals simp_all [Op.unsent, QueueOp.unsent, SendOp.unsent, RunOp.held,
    List.count_cons, openStream, recordFailure, Shared.openSession]
  all_goals first
    | omega
    | split <;> omega

/-- No operation brings a one-way or streaming request to a second send. -/
theorem transmission_bounds {op : Op} {choice : Choice}
    (once : req.oneway = true ∨ req.streaming = true)
    (sound : op.Sound shared)
    (executed : exec config shared op choice = some outcome) :
    (transmission req).Bounds shared op outcome := by
  have call : req.IsCall := by
    rintro job msg rfl
    simp [replyRequest] at once
  cases exec_does executed with
  | queue does =>
      cases does with
      | deliver delivers =>
          rcases delivers with rfl | rfl <;>
            simp [Ledger.Bounds, Op.unsent, QueueOp.unsent]
      | _ => simp [Ledger.Bounds, Op.unsent, QueueOp.unsent] <;> omega
  | session inside does => exact transmission_session once sound does
  | dispatch => exact (keeps_liftDispatch (fun _ => rfl) rfl rfl).le
  | reply => simp [Ledger.Bounds, reply, Op.unsent, QueueOp.unsent, call _ _]
  | send inside does => exact transmission_send does
  | recv inside does =>
      cases does <;> simp [Ledger.Bounds, Op.unsent, drainCalls]
  | run opened does => exact transmission_run does
  | drainQueue queued =>
      simp [Ledger.Bounds, Op.unsent, QueueOp.unsent, queued, List.count_cons]
  | _ =>
      simp [Ledger.Bounds, Op.unsent, SendOp.unsent, drainCalls, exited]

theorem transmission_environment {event : Event} {after : Shared}
    (acted : environment shared event = some after) :
    (transmission req).credit after = (transmission req).credit shared ∧
      (transmission req).debit after = (transmission req).debit shared := by
  obtain ⟨received, crowded, history⟩ := history_environment acted
  simp [history, (frame_environment acted).1]

end Bounds

section Runs

open Pool

variable {config : Config} {workload : Workload}
  {allowed : ChannelState → Step → Prop} {state : ChannelState} {req : Request}

/-- In every run, a one-way or streaming request is passed to `Send` at most
once over all sessions together. -/
theorem transmissions_le_one
    (once : req.oneway = true ∨ req.streaming = true)
    (reached : config.Reaches workload allowed state) :
    state.shared.history.transmissions req ≤ 1 := by
  have bound := (transmission req).bounded
    (fun runs reached _ => transmission_bounds once
      ((outcomes_reached reached).2 runs.op runs.op_mem) runs.exec_eq)
    (fun _ _ _ => transmission_environment) reached
  have start : (transmission req).weigh (config.start workload).ops =
      (enqueued workload.users).count req := by
    have users := workload.weigh_threads (transmission req) req
      (fun _ => rfl) rfl (fun _ => rfl)
    unfold Config.start
    cases config.kind <;>
      simp_all [State.ops, Op.unsent, RunOp.held]
  have distinct := List.nodup_iff_count_le_one.mp workload.distinct req
  rw [start] at bound
  simp only [transmission_credit, Config.start_queue, Config.start_history,
    transmission_debit] at bound
  unfold History.transmissions
  simp at bound
  omega

/-- On an outbound channel, one-way and streaming requests are passed to `Send`
at most once.  A one-way request whose response channel has room gets at most
one outcome, a nil error only after its send completed, and exactly one outcome
by the time its call of `Enqueue` and `Close` have returned. -/
theorem outbound_at_most_once_transmission
    (outbound : config.kind = .outbound)
    (reached : config.Reaches workload allowed state) :
    (∀ req, req.oneway = true ∨ req.streaming = true →
        state.shared.history.transmissions req ≤ 1) ∧
      ∀ req ∈ enqueued workload.users, req.oneway = true →
        ∀ chan, req.responseChan = some chan →
          chan ∉ state.shared.history.crowded →
          (deliveries state.shared.history req).length ≤ 1 ∧
            (∀ delivery ∈ deliveries state.shared.history req,
              delivery.resp.err = none →
              ∃ k, (k, req, none) ∈ state.shared.history.sent) ∧
            (state.shared.closeOnce = .done →
              req ∈ state.shared.history.returned →
              (deliveries state.shared.history req).length = 1) := by
  refine ⟨fun req once => transmissions_le_one once reached, ?_⟩
  intro req called oneway chan responds room
  have some : req.responseChan.isSome = true := by simp [responds]
  have call := Request.isCall_of_responseChan some
  refine ⟨deliveries_le_one call reached (.inr oneway), ?_, ?_⟩
  · intro delivery member success
    obtain ⟨inside, same⟩ := List.mem_filter.mp member
    obtain rfl := of_decide_eq_true same
    exact (outcomes_reached reached).1.confirmed delivery inside oneway success
  · intro closed returned
    have once := List.count_eq_one_of_mem workload.distinct called
    have finished := finished_of_closed outbound call reached closed returned
    have kept := discarded_eq_zero reached some
      (fun want => by simp [Request.wantServerResponse, oneway] at want)
      (fun _ => ⟨oneway, fun crowded => room (crowded chan responds)⟩)
    rw [length_deliveries_reached reached (.inr oneway)]
    omega

/-- A one-way request with response channel 1. -/
def soleCast : Request := { soleCall with oneway := true }

/-- One goroutine sends a one-way request, another one closes the channel. -/
def castAndClose : Workload where
  users := [[.enqueue soleCast], [.close]]
  calls := by decide
  distinct := by decide

/-- The request is sent before the channel is closed. -/
def confirmedRun : List Step :=
  Step.first 0 2 ++ Step.first 1 6 ++ [.run 0 (.pick .third)] ++
    Step.first 0 9 ++ Step.first 2 1 ++ Step.first 5 3 ++
    [.env (.propagate 0), .run 3 (.pick .second),
      .run 3 (.err .contextCanceled)] ++
    Step.first 3 6 ++ [.run 3 (.order [])] ++ Step.first 3 2 ++
    Step.first 0 12 ++ Step.first 4 2 ++ Step.first 5 2 ++ Step.first 2 1

theorem confirmedRun_followed :
    (smallOutbound.follow castAndClose confirmedRun).isSome = true := by
  decide +kernel

theorem outbound_at_most_once_transmission_confirmed :
    ∃ state, smallOutbound.Reaches castAndClose (fun _ _ => True) state ∧
      state.shared.history.transmissions soleCast ≤ 1 ∧
      (deliveries state.shared.history soleCast).length = 1 := by
  have reached := Config.reaches_of_follow confirmedRun_followed
  obtain ⟨once, outcome⟩ := outbound_at_most_once_transmission rfl reached
  exact ⟨_, reached, once soleCast (.inl rfl),
    (outcome soleCast (by decide) rfl 1 rfl (by decide +kernel)).2.2
      (by decide +kernel) (by decide +kernel)⟩

end Runs

end Stream
end Gorums
