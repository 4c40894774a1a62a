import Gorums.Stream.Coverage

/-!
# What becomes of requests

Why each request finished the way it did.  A request gets a response that does
not finish it only if it is a streaming call.  A one-way request gets a nil
error only after its send completed.  A request finishes without a response only
if it has no response channel, its context has ended, or its message ID has been
registered again.
-/

namespace Gorums
namespace Stream

/-- The request's response channel has had no room. -/
def Crowded (history : History) (req : Request) : Prop :=
  ∀ chan, req.responseChan = some chan → chan ∈ history.crowded

/-- Only a streaming call continues after a response. -/
def Continued (req : Request) (last : Bool) : Prop :=
  last = false → req.streaming = true ∧ req.oneway = false

/-- What has to hold for a request to finish without a response. -/
def Reason.Holds (workload : Workload) (shared : Shared) (req : Request) :
    Reason → Prop
  | .noChannel => req.responseChan = none
  | .channelFull => shared.ended req.ctx = true ∧ Crowded shared.history req
  | .expired =>
      shared.ended req.ctx = true ∧ req.wantServerResponse = true
  | .replaced =>
      req.wantServerResponse = true ∧
        ∃ other ∈ enqueued workload.users,
          other ≠ req ∧ other.msgID = req.msgID

/-- A nil error tells the caller of a one-way request that its send
completed. -/
def Confirmed (history : History) (req : Request) (resp : Response) : Prop :=
  req.oneway = true → resp.err = none → ∃ k, (k, req, none) ∈ history.sent

/-- What an operation on a response channel can rely on. -/
@[simp]
def QueueOp.Sound (history : History) : QueueOp → Prop
  | .deliver req resp last => Continued req last ∧ Confirmed history req resp
  | .offer req resp last =>
      (Continued req last ∧ Confirmed history req resp) ∧ Crowded history req
  | _ => True

/-- What an operation on a session's calls can rely on. -/
@[simp]
def SessionOp.Sound (session : Session) : SessionOp → Prop
  | .retryOrFail req _ => req.wantServerResponse = true
  | .retryClosed req => req.wantServerResponse = true
  | .matched req _ => req.wantServerResponse = true
  | .expire watch => session.pending.Armed watch
  | _ => True

/-- What a send loop can rely on. -/
@[simp]
def SendOp.Sound (history : History) (k : Nat) : SendOp → Prop
  | .healthy req => (k, req, none) ∈ history.sent
  | _ => True

/-- What an operation can rely on about the requests that it deals with. -/
def Op.Sound (shared : Shared) : Op → Prop
  | .queue op => op.Sound shared.history
  | .session k op => op.Sound (shared.session k)
  | .dispatch _ => True
  | .send k _ op => op.Sound shared.history k
  | .recv _ _ => True
  | .watch _ _ => True
  | .run _ => True
  | .close _ => True
  | .inbound _ => True
  | .lock _ => True
  | .drainQueue _ => True
  | .exit _ => True

/-- What has become of requests. -/
structure Outcomes (workload : Workload) (shared : Shared) : Prop where
  /-- Responses that do not finish a request belong to streaming calls. -/
  continued : ∀ delivery ∈ shared.history.responses,
    Continued delivery.req delivery.last
  /-- One-way requests are confirmed after their send. -/
  confirmed : ∀ delivery ∈ shared.history.responses,
    Confirmed shared.history delivery.req delivery.resp
  /-- A channel without room is one that has had no room. -/
  crowded : ∀ chan, shared.full chan = true → chan ∈ shared.history.crowded
  /-- Requests finish without a response for a reason. -/
  discarded : ∀ entry ∈ shared.history.discarded,
    entry.2.Holds workload shared entry.1
  /-- Only two-way requests are registered, each under its own message ID. -/
  registered : ∀ k < shared.opened, ∀ call ∈ (shared.session k).pending.calls,
    call.2.req.wantServerResponse = true ∧ call.1 = call.2.req.msgID

/-- The operations that come out of a step find what they rely on. -/
def FreshSound (outcome : Effect) : Prop :=
  (∀ op ∈ outcome.next, op.Sound outcome.shared) ∧
    ∀ thread ∈ outcome.spawned, ∀ op ∈ thread, op.Sound outcome.shared

section Fresh

variable {config : Config} {workload : Workload} {shared : Shared}
  {outcome : Effect}

theorem confirmed_error (history : History) (req : Request) (err : Err) :
    Confirmed history req (errorResponse config.id err) := by
  intro _ confirmed
  cases confirmed

/-- A two-way request is not one-way. -/
theorem confirmed_of_want {history : History} {req : Request} {resp : Response}
    (want : req.wantServerResponse = true) : Confirmed history req resp := by
  intro oneway
  simp [Request.wantServerResponse, oneway] at want

theorem continued_last (req : Request) : Continued req true := by
  intro unfinished
  cases unfinished

/-- A response from the server finishes a call, unless it is streaming. -/
theorem continued_of_want {req : Request}
    (want : req.wantServerResponse = true) :
    Continued req (!req.streaming) := by
  intro streaming
  simp only [Request.wantServerResponse, Bool.and_eq_true,
    Bool.not_eq_true'] at want streaming
  exact ⟨by simpa using streaming, want.2⟩

/-- A channel without room has had no room. -/
theorem Outcomes.crowded_of_noRoom (outcomes : Outcomes workload shared)
    {req : Request} (noRoom : shared.noRoom req = true) :
    Crowded shared.history req := by
  intro chan equal
  simp only [Shared.noRoom, equal] at noRoom
  exact outcomes.crowded chan noRoom

/-- The calls left in a table are two-way requests. -/
theorem Outcomes.want (outcomes : Outcomes workload shared) {k : Nat}
    (inside : k < shared.opened) {req : Request}
    (member : req ∈ (shared.session k).pending.reqs) :
    req.wantServerResponse = true := by
  obtain ⟨call, there, rfl⟩ := List.mem_map.mp member
  exact (outcomes.registered k inside call there).1

theorem Outcomes.want_of_isPerm (outcomes : Outcomes workload shared) {k : Nat}
    (inside : k < shared.opened) (order : List Request)
    (permuted : order.isPerm (shared.session k).pending.reqs = true) :
    ∀ req ∈ order, req.wantServerResponse = true :=
  fun _ member => outcomes.want inside
    ((List.isPerm_iff.mp permuted).mem_iff.mp member)

theorem sound_session {k : Nat} {op : SessionOp}
    (outcomes : Outcomes workload shared) (inside : k < shared.opened)
    (sound : (Op.session k op).Sound shared)
    (does : SessionDoes config shared k op outcome) : FreshSound outcome := by
  cases does
  all_goals simp [FreshSound, drainCalls]
  all_goals simp_all [Op.Sound, confirmed_of_want, continued_last,
    continued_of_want]
  case endDrain order permuted =>
    exact outcomes.want_of_isPerm inside order permuted
  case take req pending index msg took =>
    exact outcomes.want inside (PendingCalls.mem_reqs_of_take took)

theorem sound_send {k : Nat} {back : LoopReturn} {op : SendOp}
    {choice : Choice} (outcomes : Outcomes workload shared)
    (inside : k < shared.opened)
    (sound : (Op.send k back op).Sound shared)
    (does : SendDoes config shared choice k back op outcome) :
    FreshSound outcome := by
  cases does
  all_goals simp [FreshSound, drainCalls, loopReturn, or_imp, forall_and]
  all_goals simp_all [Op.Sound, confirmed_error, continued_last]
  case add added =>
    exact fun watch member => PendingCalls.armed_addWatch added member
  case confirm => exact fun _ _ => ⟨k, sound⟩
  case drain order permuted =>
    exact outcomes.want_of_isPerm inside order permuted

theorem sound_recv {k : Nat} {op : RecvOp} {choice : Choice}
    (outcomes : Outcomes workload shared) (inside : k < shared.opened)
    (does : RecvDoes config shared choice k op outcome) :
    FreshSound outcome := by
  cases does
  all_goals simp [FreshSound, drainCalls, or_imp, forall_and]
  all_goals simp_all [Op.Sound]
  case drain order permuted =>
    exact outcomes.want_of_isPerm inside order permuted

theorem sound_exec {op : Op} {choice : Choice}
    (outcomes : Outcomes workload shared) (sound : op.Sound shared)
    (executed : exec config shared op choice = some outcome) :
    FreshSound outcome := by
  have does := exec_does executed
  clear executed
  cases does with
  | queue does =>
      cases does
      all_goals simp [FreshSound]
      all_goals simp_all [Op.Sound, confirmed_error, continued_last,
        outcomes.crowded_of_noRoom]
  | session inside does => exact sound_session outcomes inside sound does
  | send inside does => exact sound_send outcomes inside sound does
  | recv inside does => exact sound_recv outcomes inside does
  | run opened does =>
      cases does
      all_goals simp [FreshSound, or_imp, forall_and, openStream, recordFailure]
      all_goals simp [Op.Sound]
  | watchExpiry =>
      simp [FreshSound, Op.Sound]
      exact fun watch member => PendingCalls.armed_watches member
  | endDrain inside permuted =>
      simpa [FreshSound, drainCalls, or_imp, forall_and, Op.Sound] using
        outcomes.want_of_isPerm inside _ permuted
  | _ =>
      simp [FreshSound, liftDispatch, reply, exited, or_imp, forall_and]
      all_goals simp [Op.Sound]

end Fresh

/-! ## Stability -/

section Stable

variable {workload : Workload} {shared after : Shared}

theorem Confirmed.advance {history later : History} {req : Request}
    {resp : Response} (confirmed : Confirmed history req resp)
    (advances : history.Advances later) : Confirmed later req resp := by
  intro oneway success
  obtain ⟨k, sent⟩ := confirmed oneway success
  exact ⟨k, advances.sent.subset sent⟩

theorem Crowded.advance {history later : History} {req : Request}
    (crowded : Crowded history req) (advances : history.Advances later) :
    Crowded later req :=
  fun chan equal => advances.crowded.subset (crowded chan equal)

/-- What an operation relies on stays so if history advances and armed watches
stay armed. -/
theorem Op.Sound.advance {op : Op} (sound : op.Sound shared)
    (advances : shared.history.Advances after.history)
    (armed : ∀ k watch, op = .session k (.expire watch) →
      (shared.session k).pending.Armed watch →
      (after.session k).pending.Armed watch) :
    op.Sound after := by
  revert sound
  cases op with
  | queue op =>
      cases op with
      | deliver req resp last =>
          exact And.imp_right fun confirmed => confirmed.advance advances
      | offer req resp last =>
          exact fun ⟨⟨continued, confirmed⟩, crowded⟩ =>
            ⟨⟨continued, confirmed.advance advances⟩, crowded.advance advances⟩
      | _ => exact id
  | session k op =>
      cases op with
      | expire watch => exact armed k watch rfl
      | _ => exact id
  | send k back op =>
      cases op with
      | healthy req => exact fun sent => advances.sent.subset sent
      | _ => exact id
  | _ => exact id

theorem Reason.Holds.advance {req : Request} {reason : Reason}
    (holds : reason.Holds workload shared req)
    (advances : shared.Advances after) :
    reason.Holds workload after req := by
  cases reason with
  | channelFull =>
      exact ⟨advances.ended holds.1, holds.2.advance advances.history⟩
  | expired => exact ⟨advances.ended holds.1, holds.2⟩
  | _ => exact holds

/-- A delivered response stands in the history. -/
theorem HistoryStep.mem_responses {op : Op} {later : History}
    (step : HistoryStep shared op later) {delivery : Delivery}
    (member : delivery ∈ later.responses) :
    delivery ∈ shared.history.responses ∨
      op = .queue (.deliver delivery.req delivery.resp delivery.last) ∨
      op = .queue (.offer delivery.req delivery.resp delivery.last) := by
  cases step with
  | delivered req resp last running equal =>
      subst equal
      rcases List.mem_append.mp member with earlier | now
      · exact .inl earlier
      · rw [List.mem_singleton.mp now]
        exact .inr running
  | _ => exact .inl (by simp_all)

end Stable

/-! ## Whole runs -/

section Runs

open Pool

variable {config : Config} {workload : Workload}
  {allowed : ChannelState → Step → Prop} {state next : ChannelState}
  {thread : Nat} {choice : Choice}

/-- A call that has been seen anywhere has been enqueued by a user. -/
theorem mem_enqueued_of_credit {req : Request} (call : req.IsCall)
    (reached : config.Reaches workload allowed state)
    (somewhere : 0 < (custody req).credit state.shared +
      (custody req).weigh state.ops) :
    req ∈ enqueued workload.users := by
  rw [custody_reached call reached] at somewhere
  exact List.count_pos_iff.mp somewhere

/-- A registration replaces only a call of another request with the same
message ID. -/
theorem replaced_holds
    (reached : config.Reaches workload allowed state)
    (runs : (channel config).Runs state thread choice next)
    (outcomes : Outcomes workload state.shared)
    {k : Nat} {back : LoopReturn} {req : Request}
    (running : runs.op = .send k back (.add req))
    (wantReq : req.wantServerResponse = true)
    (inside : k < state.shared.opened)
    {replaced : Request}
    (member : replaced ∈ ((state.shared.session k).pending.swept
      state.shared.ended).registered req.msgID) :
    Reason.replaced.Holds workload state.shared replaced := by
  obtain ⟨call, swept, key, rfl⟩ := PendingCalls.mem_of_mem_registered member
  have there := PendingCalls.mem_of_mem_swept swept
  obtain ⟨want, ownKey⟩ := outcomes.registered k inside call there
  have tables := count_le_tabled state.shared inside
  have inHand := fun held : Request =>
    (custody held).weight_le_weigh runs.op_mem
  -- Both requests have been enqueued: one is in a table, one in hand.
  have sender : req ∈ enqueued workload.users := by
    refine mem_enqueued_of_credit (Request.isCall_of_want wantReq) reached ?_
    have hand := inHand req
    simp [running, Op.held, SendOp.held] at hand
    omega
  refine ⟨want, req, sender, fun same => ?_, by rw [← ownKey, key]⟩
  -- If they were the same, the request would be in two places.
  have balance := custody_reached (Request.isCall_of_want want) reached
  have once := List.nodup_iff_count_le_one.mp workload.distinct call.2.req
  have registered := tables call.2.req
  have present : 0 < (state.shared.session k).pending.reqs.count call.2.req :=
    List.count_pos_iff.mpr (List.mem_map_of_mem there)
  have hand := inHand call.2.req
  simp only [running, custody_weight, Op.held, SendOp.held, same,
    List.count_singleton_self] at hand
  simp only [custody_credit] at balance
  omega

/-- What a step discards, it discards for a reason. -/
theorem discarded_step
    (reached : config.Reaches workload allowed state)
    (runs : (channel config).Runs state thread choice next)
    (outcomes : Outcomes workload state.shared)
    (sound : runs.op.Sound state.shared)
    (inside : runs.op.opened state.shared.opened = true) :
    ∀ entry ∈ runs.outcome.shared.history.discarded,
      entry.2.Holds workload state.shared entry.1 := by
  intro entry member
  cases history_exec runs.exec_eq with
  | gaveUp req resp last running ended equal =>
      rw [equal] at member
      rcases List.mem_append.mp member with earlier | now
      · exact outcomes.discarded entry earlier
      · obtain ⟨given, isGiven, rfl⟩ := List.mem_map.mp now
        split at isGiven
        · rw [List.mem_singleton.mp isGiven]
          rw [running] at sound
          exact ⟨ended, sound.2⟩
        · cases isGiven
  | muted reqs silent equal =>
      rw [equal] at member
      rcases List.mem_append.mp member with earlier | now
      · exact outcomes.discarded entry earlier
      · obtain ⟨req, isSilent, rfl⟩ := List.mem_map.mp now
        exact silent req isSilent
  | disposed k req disposal running reqs silent equal =>
      rw [equal] at member
      rcases List.mem_append.mp member with earlier | now
      · exact outcomes.discarded entry earlier
      · obtain ⟨req, isSilent, rfl⟩ := List.mem_map.mp now
        exact silent req isSilent
  | expired k watch req pending running ended removal equal =>
      rw [equal] at member
      rcases List.mem_append.mp member with earlier | now
      · exact outcomes.discarded entry earlier
      · rw [List.mem_singleton.mp now]
        rw [running] at sound inside
        obtain ⟨call, there, seq, rfl⟩ := PendingCalls.mem_of_expire removal
        exact ⟨(congrArg _ (sound.2 call there seq)).trans ended,
          (outcomes.registered k (of_decide_eq_true inside) call there).1⟩
  | added k back req running want equal =>
      rw [equal] at member
      rw [running] at inside
      rcases List.mem_append.mp member with front | replaced
      · rcases List.mem_append.mp front with earlier | expired
        · exact outcomes.discarded entry earlier
        · obtain ⟨req, isExpired, rfl⟩ := List.mem_map.mp expired
          exact ⟨PendingCalls.ended_of_mem_expired isExpired,
            outcomes.want (of_decide_eq_true inside)
              (PendingCalls.mem_reqs_of_mem_expired isExpired)⟩
      · obtain ⟨req, isReplaced, rfl⟩ := List.mem_map.mp replaced
        exact replaced_holds reached runs outcomes running want
          (of_decide_eq_true inside) isReplaced
  | _ => exact outcomes.discarded entry (by simp_all)

/-- A step keeps only two-way requests registered, each under its own message
ID. -/
theorem registered_step
    (runs : (channel config).Runs state thread choice next)
    (outcomes : Outcomes workload state.shared) :
    ∀ k < runs.outcome.shared.opened,
      ∀ call ∈ (runs.outcome.shared.session k).pending.calls,
        call.2.req.wantServerResponse = true ∧
          call.1 = call.2.req.msgID := by
  intro k inside call member
  by_cases old : k < state.shared.opened
  · rcases (table_exec runs.exec_eq old).origin member with
      ⟨before, there, key, req, _⟩ | ⟨_, req, _, want, key, registered, _⟩
    · rw [← key, ← req]
      exact outcomes.registered k old before there
    · rw [registered]
      exact ⟨want, key⟩
  · obtain ⟨suspect, equal⟩ :=
      session_opened runs.exec_eq (Nat.le_of_not_lt old) inside
    rw [equal] at member
    cases member

theorem outcomes_step
    (reached : config.Reaches workload allowed state)
    (runs : (channel config).Runs state thread choice next)
    (outcomes : Outcomes workload state.shared)
    (sound : runs.op.Sound state.shared)
    (inside : runs.op.opened state.shared.opened = true) :
    Outcomes workload runs.outcome.shared := by
  have advances := advances_exec runs.exec_eq
  have step := history_exec runs.exec_eq
  refine ⟨?_, ?_, ?_, ?_, registered_step runs outcomes⟩
  · intro delivery member
    rcases step.mem_responses member with earlier | now | now
    · exact outcomes.continued delivery earlier
    · rw [now] at sound
      exact sound.1
    · rw [now] at sound
      exact sound.1.1
  · intro delivery member
    rcases step.mem_responses member with earlier | now | now
    · exact (outcomes.confirmed delivery earlier).advance advances.history
    · rw [now] at sound
      exact sound.2.advance advances.history
    · rw [now] at sound
      exact sound.1.2.advance advances.history
  · intro chan full
    rw [full_exec runs.exec_eq] at full
    exact advances.history.crowded.subset (outcomes.crowded chan full)
  · intro entry member
    exact (discarded_step reached runs outcomes sound inside entry
      member).advance advances

/-- In every run, requests finish the way they should. -/
theorem outcomes_reached
    (reached : config.Reaches workload allowed state) :
    Outcomes workload state.shared ∧ ∀ op ∈ state.ops, op.Sound state.shared := by
  refine Machine.Reach.annotated (Outcomes workload) (fun shared => Op.Sound shared)
    ?start ?run ?environment reached
  case start =>
    refine ⟨⟨by simp, by simp, by simp, by simp, by simp⟩,
      fun op member => ?_⟩
    rcases config.mem_start_ops workload member with
      ⟨_, rfl⟩ | ⟨_, rfl | rfl⟩ | ⟨_, _, rfl⟩ | rfl | ⟨_, rfl⟩ <;>
        exact True.intro
  case run =>
    intro state thread choice next runs reached _ outcomes sound
    have noted := (closedDown_reached reached).2
    have inside := (noted runs.op runs.op_mem).1
    have advances := advances_exec runs.exec_eq
    have fresh := sound_exec outcomes sound runs.exec_eq
    refine ⟨outcomes_step reached runs outcomes sound inside, ?_, ?_⟩
    · intro op member
      rcases List.mem_append.mp member with following | spawned
      · exact fresh.1 op following
      · obtain ⟨thread, inside, member⟩ := List.mem_flatten.mp spawned
        exact fresh.2 thread inside op member
    · intro op other sound
      refine sound.advance advances.history fun k watch waiting => ?_
      have opened := (noted op (runs.mem_of_others other)).1
      rw [waiting] at opened
      exact (table_exec runs.exec_eq (of_decide_eq_true opened)).armed
  case environment =>
    intro shared event after acted outcomes
    obtain ⟨_, sameBook, sameSessions⟩ := frame_environment acted
    have advances := advances_environment acted
    have samePending : ∀ k, (after.session k).pending =
        (shared.session k).pending := by
      intro k
      obtain ⟨done, equal⟩ := sameSessions k
      rw [equal]
    obtain ⟨received, crowded, history⟩ := history_environment acted
    have sameResponses : after.history.responses =
        shared.history.responses := by
      rw [history]
    have sameDiscarded : after.history.discarded =
        shared.history.discarded := by
      rw [history]
    refine ⟨⟨?_, ?_, ?_, ?_, ?_⟩, fun op sound => ?_⟩
    · rw [sameResponses]
      exact outcomes.continued
    · rw [sameResponses]
      exact fun delivery member =>
        (outcomes.confirmed delivery member).advance advances.history
    · exact crowded_environment acted outcomes.crowded
    · rw [sameDiscarded]
      exact fun entry member =>
        (outcomes.discarded entry member).advance advances
    · have sameOpened : after.opened = shared.opened :=
        congrArg Book.opened sameBook
      rw [sameOpened]
      intro k
      rw [samePending]
      exact outcomes.registered k
    · refine sound.advance advances.history fun k watch _ => ?_
      rw [samePending]
      exact id

end Runs

end Stream
end Gorums
