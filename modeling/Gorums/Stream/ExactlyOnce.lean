import Gorums.Stream.Outcomes

/-!
# One outcome for each request

Every request of a caller is in exactly one place, and it finishes once.  Once
everybody whom the channel waits for has returned, each request whose call of
`Enqueue` has returned is finished.
-/

namespace Gorums
namespace Stream

/-! ## Places -/

/-- Where a request can be. -/
inductive Place
  /-- With its caller, not yet pushed. -/
  | caller
  /-- In the send queue. -/
  | queue
  /-- In the hand of the run loop, or of the send goroutine. -/
  | hand
  /-- In the pending table of a session. -/
  | table (k : Nat)
  /-- In the hands of a goroutine that disposes of it. -/
  | disposal
  /-- Finished. -/
  | finished
  deriving DecidableEq

/-- A push of a caller's request precedes the queue; a push of a pending call
disposes of it. -/
def Origin.place : Origin → Place
  | .retry => .disposal
  | _ => .caller

/-- Where a request is that an operation on the queue holds. -/
def QueueOp.place : QueueOp → Place
  | .enqueue _ => .caller
  | .rlock _ _ origin => origin.place
  | .check _ _ origin => origin.place
  | .select _ _ origin => origin.place
  | _ => .disposal

/-- Where a request is that an operation holds. -/
def Op.place : Op → Place
  | .queue op => op.place
  | .send _ _ _ => .hand
  | .run _ => .hand
  | .inbound _ => .hand
  | _ => .disposal

/-- How often a request is in the hands of the goroutines of a place. -/
def inHands (ops : List Op) (req : Request) (place : Place) : Nat :=
  (custody req).weigh (ops.filter fun op => op.place = place)

/-- How often a request is in a place. -/
def occupancy (state : ChannelState) (req : Request) : Place → Nat
  | .queue => state.shared.queue.ch.count req
  | .table k =>
      if k < state.shared.opened then
        (state.shared.session k).pending.reqs.count req
      else 0
  | .finished =>
      (answered state.shared.history.responses).count req +
        (state.shared.history.discarded.map Prod.fst).count req
  | place => inHands state.ops req place

/-- The request is in this place, once, and nowhere else. -/
def Located (state : ChannelState) (req : Request) (place : Place) : Prop :=
  occupancy state req place = 1 ∧
    ∀ other, other ≠ place → occupancy state req other = 0

/-- A request in somebody's hands is with its caller, in the run loop's hand or
being disposed of. -/
theorem weigh_eq_inHands (ops : List Op) (req : Request) :
    (custody req).weigh ops =
      inHands ops req .caller + inHands ops req .hand +
        inHands ops req .disposal := by
  induction ops with
  | nil => rfl
  | cons op ops inductionHypothesis =>
      have place : op.place = .caller ∨ op.place = .hand ∨
          op.place = .disposal := by
        cases op with
        | queue op =>
            cases op with
            | rlock _ _ origin =>
                cases origin <;> simp [Op.place, QueueOp.place, Origin.place]
            | check _ _ origin =>
                cases origin <;> simp [Op.place, QueueOp.place, Origin.place]
            | select _ _ origin =>
                cases origin <;> simp [Op.place, QueueOp.place, Origin.place]
            | _ => simp [Op.place, QueueOp.place]
        | _ => simp [Op.place]
      unfold inHands at inductionHypothesis ⊢
      rcases place with equal | equal | equal <;>
        simp [equal, inductionHypothesis] <;> omega

/-- A request that is registered once is registered in one session. -/
theorem tabled_eq_one {session : Nat → Session} {opened : Nat} {req : Request}
    (once : tabled session opened req = 1) :
    ∃ k < opened, (session k).pending.reqs.count req = 1 ∧
      ∀ other < opened, other ≠ k →
        (session other).pending.reqs.count req = 0 := by
  unfold tabled at once
  obtain ⟨k, inside, present⟩ := Finset.exists_ne_zero_of_sum_ne_zero
    (by rw [once]; exact Nat.one_ne_zero)
  rw [← Finset.add_sum_erase _ _ inside] at once
  have others : ∑ other ∈ (Finset.range opened).erase k,
      (session other).pending.reqs.count req = 0 := by omega
  refine ⟨k, Finset.mem_range.mp inside, by omega, fun other below differs => ?_⟩
  exact Finset.sum_eq_zero_iff.mp others other
    (Finset.mem_erase.mpr ⟨differs, Finset.mem_range.mpr below⟩)

/-- A request that is registered nowhere is in no table. -/
theorem tabled_eq_zero {session : Nat → Session} {opened : Nat} {req : Request}
    (never : tabled session opened req = 0) :
    ∀ k < opened, (session k).pending.reqs.count req = 0 :=
  fun k below => Finset.sum_eq_zero_iff.mp never k (Finset.mem_range.mpr below)

/-- A request that is there once is in one place. -/
theorem located_of_balance {state : ChannelState} {req : Request}
    (balance : (custody req).credit state.shared +
      (custody req).weigh state.ops = 1) :
    ∃ place, Located state req place := by
  rw [weigh_eq_inHands, custody_credit] at balance
  -- It is enough to find the one place with a positive count.
  have elsewhere : ∀ place, (∀ other, other ≠ place →
      (∀ k, other ≠ .table k) → occupancy state req other = 0) →
      (∀ k < state.shared.opened, .table k ≠ place →
        (state.shared.session k).pending.reqs.count req = 0) →
      ∀ other, other ≠ place → occupancy state req other = 0 := by
    intro place hands tables other differs
    cases other with
    | table k =>
        simp only [occupancy]
        split
        · exact tables k ‹_› differs
        · rfl
    | _ => exact hands _ differs (by simp)
  by_cases registered :
      tabled state.shared.session state.shared.opened req = 1
  · obtain ⟨k, below, once, never⟩ := tabled_eq_one registered
    refine ⟨.table k, by simp [occupancy, below, once], elsewhere _ ?_ ?_⟩
    · intro other _ hand
      cases other <;> simp [occupancy] at hand ⊢ <;> omega
    · intro other inside differs
      exact never other inside fun equal => differs (equal ▸ rfl)
  · have unregistered :
        tabled state.shared.session state.shared.opened req = 0 := by omega
    have never := tabled_eq_zero unregistered
    have single : ∃ place, occupancy state req place = 1 ∧
        ∀ other, other ≠ place → (∀ k, other ≠ .table k) →
          occupancy state req other = 0 := by
      have which : occupancy state req .queue = 1 ∨
          occupancy state req .finished = 1 ∨
          occupancy state req .caller = 1 ∨ occupancy state req .hand = 1 ∨
          occupancy state req .disposal = 1 := by
        simp only [occupancy]
        omega
      rcases which with once | once | once | once | once
      all_goals
        refine ⟨_, once, fun other differs hand => ?_⟩
        simp only [occupancy] at once
        cases other <;> simp [occupancy] at differs hand ⊢ <;> omega
    obtain ⟨place, once, hands⟩ := single
    exact ⟨place, once, elsewhere place hands fun k below _ => never k below⟩

/-! ## Finished requests -/

/-- The responses on a request's response channel. -/
def deliveries (history : History) (req : Request) : List Delivery :=
  history.responses.filter fun delivery => delivery.req = req

/-- A request that is not continued has one response for each time it is
finished with one. -/
theorem length_deliveries {history : History} {req : Request}
    (finished : ∀ delivery ∈ history.responses, delivery.req = req →
      delivery.last = true) :
    (deliveries history req).length =
      (answered history.responses).count req := by
  unfold deliveries answered
  revert finished
  induction history.responses with
  | nil => exact fun _ => rfl
  | cons delivery responses inductionHypothesis =>
      intro finished
      have rest := inductionHypothesis fun other member =>
        finished other (by simp [member])
      have first := finished delivery (by simp)
      by_cases equal : delivery.req = req
      · simp [equal, first equal, rest]
      · cases last : delivery.last <;> simp [equal, last, rest]

section Runs

open Pool

variable {config : Config} {workload : Workload}
  {allowed : ChannelState → Step → Prop} {state : ChannelState} {req : Request}

/-- Once the channel's goroutines have returned, nothing is left in its queue
and its tables. -/
theorem empty_of_idle (reached : config.Reaches workload allowed state)
    (idle : state.shared.wg = 0) :
    state.shared.queue.ch = [] ∧
      ∀ k < state.shared.opened, (state.shared.session k).pending.reqs = [] := by
  have closedDown := (closedDown_reached reached).1
  have unwaited : ∀ op ∈ state.ops, .waited ∉ op.roles :=
    not_mem_roles .waited (by simp) reached idle
  -- The run loop and the receive goroutines are waited for.
  have nobody : ∀ role : Role, (role = .main ∨ ∃ k, role = .receiver k) →
      (roster role).debit state.shared = 0 := by
    intro role own
    rw [← weigh_roster (by rcases own with rfl | ⟨k, rfl⟩ <;> simp) reached]
    refine Ledger.weigh_eq_zero fun op member => List.count_eq_zero.mpr ?_
    intro plays
    rcases own with rfl | ⟨k, rfl⟩
    · exact unwaited op member (Op.playedBy plays)
    · exact unwaited op member (Op.playedBy plays).1
  have main := nobody .main (.inl rfl)
  have returned : state.shared.history.mainReturned = true := by
    simpa [cast] using main
  refine ⟨(closedDown.main returned).2, fun k below => ?_⟩
  have receiver := nobody (.receiver k) (.inr ⟨k, rfl⟩)
  have ended : k ∉ state.shared.receiving := List.count_eq_zero.mp receiver
  simp [PendingCalls.reqs, (closedDown.tables k below ended).2]

/-- Once the channel's goroutines, the body of `Close` and the caller have
returned, a request is finished. -/
theorem finished_of_idle (call : req.IsCall)
    (reached : config.Reaches workload allowed state)
    (idle : state.shared.wg = 0)
    (closed : state.shared.closeOnce ≠ .running)
    (returned : ∀ op ∈ state.ops, .caller req ∉ op.roles) :
    (answered state.shared.history.responses).count req +
        (state.shared.history.discarded.map Prod.fst).count req =
      (enqueued workload.users).count req := by
  obtain ⟨noQueue, noTables⟩ := empty_of_idle reached idle
  have unheld : (custody req).weigh state.ops = 0 := by
    refine weigh_custody_eq_zero call reached fun op member => ?_
    have unwaited : .waited ∉ op.roles :=
      not_mem_roles .waited (by simp) reached idle op member
    have unclosed : .closer ∉ op.roles :=
      not_mem_roles .closer (by simp) reached (by simp [cast, closed]) op member
    rintro (waited | closer | caller)
    · exact unwaited waited
    · exact unclosed closer
    · exact returned op member caller
  have unregistered :
      tabled state.shared.session state.shared.opened req = 0 :=
    Finset.sum_eq_zero fun k below => by
      rw [noTables k (Finset.mem_range.mp below), List.count_nil]
  have balance := custody_reached call reached
  rw [unheld, custody_credit, noQueue, unregistered] at balance
  simpa using balance

/-- A request with a response channel and an ID of its own is not discarded, as
long as it has not expired. -/
theorem discarded_eq_zero
    (reached : config.Reaches workload allowed state)
    (chan : req.responseChan.isSome = true)
    (unique : req.wantServerResponse = true →
      ∀ other ∈ enqueued workload.users, other.msgID = req.msgID → other = req)
    (unexpired : state.shared.ended req.ctx = true →
      req.oneway = true ∧ ¬ Crowded state.shared.history req) :
    (state.shared.history.discarded.map Prod.fst).count req = 0 := by
  refine List.count_eq_zero.mpr fun member => ?_
  obtain ⟨⟨other, reason⟩, discarded, rfl⟩ := List.mem_map.mp member
  have holds := (outcomes_reached reached).1.discarded _ discarded
  cases reason with
  | noChannel =>
      rw [(holds : other.responseChan = none)] at chan
      cases chan
  | channelFull => exact (unexpired holds.1).2 holds.2
  | expired =>
      have oneway := (unexpired holds.1).1
      have want := holds.2
      simp_all [Request.wantServerResponse]
  | replaced =>
      obtain ⟨want, second, called, differs, sameID⟩ := holds
      exact differs (unique want second called sameID)

/-- A call that is not streaming is finished by its first response. -/
theorem length_deliveries_reached
    (reached : config.Reaches workload allowed state)
    (single : req.streaming = false ∨ req.oneway = true) :
    (deliveries state.shared.history req).length =
      (answered state.shared.history.responses).count req := by
  refine length_deliveries fun delivery member equal => ?_
  by_contra unfinished
  have continued := (outcomes_reached reached).1.continued delivery member
    (Bool.eq_false_iff.mpr unfinished)
  rw [equal] at continued
  simp [continued] at single

/-- A call that is not streaming gets at most one response. -/
theorem deliveries_le_one (call : req.IsCall)
    (reached : config.Reaches workload allowed state)
    (single : req.streaming = false ∨ req.oneway = true) :
    (deliveries state.shared.history req).length ≤ 1 := by
  have balance := custody_reached call reached
  have once := List.nodup_iff_count_le_one.mp workload.distinct req
  rw [length_deliveries_reached reached single]
  rw [custody_credit] at balance
  omega

/-- Once `Close` has returned on an outbound channel, a request whose call of
`Enqueue` has returned is finished. -/
theorem finished_of_closed (outbound : config.kind = .outbound)
    (call : req.IsCall) (reached : config.Reaches workload allowed state)
    (closed : state.shared.closeOnce = .done)
    (returned : req ∈ state.shared.history.returned) :
    (answered state.shared.history.responses).count req +
        (state.shared.history.discarded.map Prod.fst).count req =
      (enqueued workload.users).count req :=
  finished_of_idle call reached
    ((closedDown_reached reached).1.waited closed outbound) (by simp [closed])
    (not_mem_roles_caller reached returned)

/-- Each call of an outbound channel is in exactly one place, it gets at most
one response, and exactly one by the time `Close` has returned. -/
theorem outbound_exactly_one_outcome
    (outbound : config.kind = .outbound)
    (distinct : ((enqueued workload.users).map Request.msgID).Nodup)
    (reached : config.Reaches workload allowed state)
    (called : req ∈ enqueued workload.users)
    (want : req.wantServerResponse = true) (single : req.streaming = false) :
    (∃ place, Located state req place) ∧
      (deliveries state.shared.history req).length ≤ 1 ∧
      (state.shared.closeOnce = .done →
        req ∈ state.shared.history.returned →
        state.shared.ended req.ctx = false →
        (deliveries state.shared.history req).length = 1) := by
  have call := Request.isCall_of_want want
  have once := List.count_eq_one_of_mem workload.distinct called
  refine ⟨located_of_balance ?_, deliveries_le_one call reached (.inl single),
    ?_⟩
  · rw [custody_reached call reached, once]
  · intro closed returned live
    have finished := finished_of_closed outbound call reached closed returned
    have kept := discarded_eq_zero reached (Bool.and_eq_true_iff.mp want).1
      (fun _ other calledToo =>
        List.inj_on_of_nodup_map distinct calledToo called)
      (by simp [live])
    rw [length_deliveries_reached reached (.inl single)]
    omega

/-- A call with response channel 1. -/
def soleCall : Request :=
  { uid := 1, ctx := 1, msg := { messageSeqNo := 1 }, responseChan := some 1 }

/-- One goroutine makes a call, another one closes the channel. -/
def callAndClose : Workload where
  users := [[.enqueue soleCall], [.close]]
  calls := by decide
  distinct := by decide

/-- An outbound channel with room for one request. -/
def smallOutbound : Config :=
  { kind := .outbound, id := 1, sendBufferSize := 1, recvBufferSize := 1 }

/-- The server accepts the stream and answers the call, then the channel is
closed. -/
def answeredRun : List Step :=
  Step.first 0 2 ++ Step.first 1 6 ++ [.run 0 (.pick .third)] ++
    Step.first 0 8 ++ Step.first 3 7 ++
    [.run 3 (.frame { messageSeqNo := 1 })] ++ Step.first 3 7 ++
    Step.first 2 1 ++ Step.first 5 3 ++ [.env (.propagate 0)] ++
    Step.first 0 13 ++ [.run 3 (.err .contextCanceled)] ++ Step.first 3 4 ++
    [.run 3 (.order [])] ++ Step.first 3 2 ++ Step.first 4 2 ++
    Step.first 5 2 ++ Step.first 2 1

theorem answeredRun_followed :
    (smallOutbound.follow callAndClose answeredRun).isSome = true := by
  decide +kernel

theorem outbound_exactly_one_outcome_answered :
    ∃ state, smallOutbound.Reaches callAndClose (fun _ _ => True) state ∧
      state.shared.closeOnce = .done ∧
      (deliveries state.shared.history soleCall).length = 1 := by
  have reached := Config.reaches_of_follow answeredRun_followed
  refine ⟨_, reached, by decide +kernel, ?_⟩
  exact (outbound_exactly_one_outcome rfl (by decide) reached (by decide) rfl
    rfl).2.2 (by decide +kernel) (by decide +kernel) (by decide +kernel)

/-! ## Inbound channels -/

/-- The send goroutine and `Serve` have returned, and no call of `Enqueue` or
`Close` is in progress. -/
structure Quiescent (state : ChannelState) : Prop where
  /-- The send goroutine and `Serve` have returned. -/
  served : state.shared.wg = 0
  /-- No call of `Enqueue` is in progress. -/
  enqueued : ∀ req, .queue (.returned req) ∉ state.ops
  /-- No call of `Close` is in progress. -/
  closed : .queue .closed ∉ state.ops

/-- A call of `Close` waits for the body, and returns after it. -/
theorem exec_close {shared : Shared} {op : QueueOp} {outcome : Effect}
    {choice : Choice}
    (executed : exec config shared (.queue op) choice = some outcome) :
    (op = .close → .queue .closed ∈ outcome.next) ∧
      (op = .closed → shared.closeOnce = .done) := by
  cases exec_does executed with
  | queue does =>
      cases does with
      | deliver delivers => rcases delivers with rfl | rfl <;> simp
      | closed done => exact ⟨nofun, fun _ => done⟩
      | _ => simp

/-- While the body of `Close` runs, the call that started it waits. -/
theorem closed_mem_of_running
    (reached : config.Reaches workload allowed state) :
    state.shared.closeOnce = .running → .queue .closed ∈ state.ops := by
  refine Machine.Reach.invariant
    (fun state => state.shared.closeOnce = .running →
      Op.queue .closed ∈ state.ops) (by simp) ?_ reached
  intro state label next _ waits _ stepped running
  rcases Machine.step_cases stepped with
    ⟨thread, choice, rfl, ⟨runs⟩⟩ | ⟨event, shared, rfl, acted, rfl⟩
  · rw [runs.next_shared] at running
    refine runs.mem_next_ops.mpr ?_
    have before : state.shared.closeOnce = .running →
        .queue .closed ∈ runs.fresh ∨ .queue .closed ∈ runs.others := by
      intro runningBefore
      rcases List.mem_cons.mp
        (runs.ops_perm.mem_iff.mp (waits runningBefore)) with equal | other
      · have returns := (exec_close (equal ▸ runs.exec_eq)).2 rfl
        cases runningBefore.symm.trans returns
      · exact .inr other
    cases book_exec runs.exec_eq with
    | closing calling fresh equal =>
        have called := (exec_close (calling ▸ runs.exec_eq)).1 rfl
        exact .inl (List.mem_append_left _ called)
    | closed finishing equal =>
        cases running.symm.trans (congrArg Book.closeOnce equal)
    | same equal => exact before ((congrArg Book.closeOnce equal).symm.trans running)
    | opened _ _ _ equal =>
        exact before ((congrArg Book.closeOnce equal).symm.trans running)
    | received _ _ equal =>
        exact before ((congrArg Book.closeOnce equal).symm.trans running)
    | exited _ _ equal =>
        exact before ((congrArg Book.closeOnce equal).symm.trans running)
  · have same : shared.closeOnce = state.shared.closeOnce :=
      congrArg Book.closeOnce (frame_environment acted).2.1
    exact waits (same ▸ running)

/-- Each request of an inbound channel that is not streaming gets at most one
outcome.  Once everything has returned, nothing is left in the channel, and
each request whose call of `Enqueue` has begun has got exactly one outcome. -/
theorem inbound_exactly_one_outcome
    (inbound : config.kind = .inbound)
    (distinct : ((enqueued workload.users).map Request.msgID).Nodup)
    (reached : config.Reaches workload allowed state)
    (called : req ∈ enqueued workload.users)
    (chan : req.responseChan.isSome = true) :
    (req.streaming = false ∨ req.oneway = true →
        (deliveries state.shared.history req).length ≤ 1) ∧
      (Quiescent state →
        state.shared.queue.ch = [] ∧
          (state.shared.session 0).pending.reqs = [] ∧
          (.queue (.enqueue req) ∉ state.ops →
            state.shared.ended req.ctx = false →
            (answered state.shared.history.responses).count req = 1 ∧
              (req.streaming = false ∨ req.oneway = true →
                (deliveries state.shared.history req).length = 1))) := by
  have call := Request.isCall_of_responseChan chan
  refine ⟨deliveries_le_one call reached, fun quiet => ?_⟩
  obtain ⟨noQueue, noTables⟩ := empty_of_idle reached quiet.served
  have opened := (closedDown_reached reached).1.opened inbound
  refine ⟨noQueue, noTables 0 opened, fun begun live => ?_⟩
  have returned : ∀ op ∈ state.ops, .caller req ∉ op.roles := by
    intro op member plays
    rcases Op.playedBy plays with rfl | rfl
    · exact begun member
    · exact quiet.enqueued req member
  have finished := finished_of_idle call reached quiet.served
    (fun running => quiet.closed (closed_mem_of_running reached running))
    returned
  have once := List.count_eq_one_of_mem workload.distinct called
  have kept := discarded_eq_zero reached chan
    (fun _ other calledToo =>
      List.inj_on_of_nodup_map distinct calledToo called)
    (by simp [live])
  have exact : (answered state.shared.history.responses).count req = 1 := by
    omega
  exact ⟨exact, fun single =>
    (length_deliveries_reached reached single).trans exact⟩

/-- One goroutine makes a call. -/
def callOnly : Workload where
  users := [[.enqueue soleCall]]
  calls := by decide
  distinct := by decide

/-- An inbound channel with room for one request. -/
def smallInbound : Config :=
  { kind := .inbound, id := 1, sendBufferSize := 1, recvBufferSize := 1 }

/-- The call is sent, then the stream is lost. -/
def lostRun : List Step :=
  Step.first 0 1 ++ Step.first 2 6 ++ [.run 0 (.pick .third)] ++
    Step.first 0 8 ++ [.run 1 (.err .eof)] ++ Step.first 1 7 ++
    [.run 1 (.order [soleCall])] ++ Step.first 1 5 ++ Step.first 0 8

theorem lostRun_followed :
    (smallInbound.follow callOnly lostRun).isSome = true := by
  decide +kernel

theorem inbound_exactly_one_outcome_lost :
    ∃ state, smallInbound.Reaches callOnly (fun _ _ => True) state ∧
      Quiescent state ∧
      (deliveries state.shared.history soleCall).length = 1 := by
  have reached := Config.reaches_of_follow lostRun_followed
  have empty : ((smallInbound.follow callOnly lostRun).get
      lostRun_followed).ops.isEmpty = true := by
    decide +kernel
  have idle := List.isEmpty_iff.mp empty
  have quiet : Quiescent ((smallInbound.follow callOnly lostRun).get
      lostRun_followed) :=
    ⟨by decide +kernel, by simp [idle], by simp [idle]⟩
  refine ⟨_, reached, quiet, ?_⟩
  exact (((inbound_exactly_one_outcome rfl (by decide) reached (by decide)
    rfl).2 quiet).2.2 (by simp [idle]) (by decide +kernel)).2 (.inl rfl)

end Runs

end Stream
end Gorums
