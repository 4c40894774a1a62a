import Gorums.Stream.Progress

/-!
# What a step can change

For the send queue, the pending tables and the channel's bookkeeping: the
operations that change it, and how.
-/

namespace Gorums
namespace Stream

/-- Whether an operation takes requests from the send queue. -/
def Op.pops : Op → Bool
  | .send _ _ .select => true
  | .run (.await _) => true
  | .drainQueue _ => true
  | _ => false

/-- What an operation can do to the send queue. -/
inductive QueueStep (shared : Shared) (op : Op) (after : SendQueue) : Prop
  | same (ch : after.ch = shared.queue.ch)
      (closed : after.closed = shared.queue.closed)
  | push (req : Request) (wait : Bool) (origin : Origin)
      (running : op = .queue (.select req wait origin))
      (ch : after.ch = shared.queue.ch ++ [req])
      (closed : after.closed = shared.queue.closed)
  | pop (req : Request) (running : op.pops = true)
      (ch : shared.queue.ch = req :: after.ch)
      (closed : after.closed = shared.queue.closed)
  | lock (closer : Closer) (running : op = .lock closer)
      (unread : shared.queue.readers = 0)
      (ch : after.ch = shared.queue.ch) (closed : after.closed = true)

/-- Whether an operation drains the table of session `k`. -/
def Op.drains (k : Nat) : Op → Bool
  | .session other .endDrain => decide (other = k)
  | .send other _ (.drain _ _) => decide (other = k)
  | .recv other (.drain _) => decide (other = k)
  | .close .endDrain => decide (0 = k)
  | _ => false

/-- What an operation can do to a pending table. -/
inductive TableStep (shared : Shared) (k : Nat) (op : Op)
    (before after : PendingCalls) : Prop
  | same (equal : after = before)
  | take (msgID : UInt64) (found : Option Request) (pending : PendingCalls)
      (took : before.take msgID = (found, pending)) (equal : after = pending)
      (running : ∃ index msg, op = .session k (.take index msg) ∧
        msg.messageSeqNo = msgID)
  | expire (watch : PendingCalls.Watch) (found : Option Request)
      (pending : PendingCalls)
      (removal : before.expire watch = (found, pending))
      (equal : after = pending)
      (running : op = .session k (.expire watch))
      (ended : shared.ended watch.ctx = true)
  | drain (equal : after = before.drain) (running : op.drains k = true)
  | watch (equal : after = before.watchExpiry)
  | add (back : LoopReturn) (req : Request) (pending : PendingCalls)
      (running : op = .send k back (.add req))
      (want : req.wantServerResponse = true)
      (added : before.add shared.ended req.msgID req = some pending)
      (equal : after = pending)

/-- Where a call in a table comes from: it was there before, or it has been
registered by the operation. -/
theorem TableStep.origin {shared : Shared} {k : Nat} {op : Op}
    {before after : PendingCalls} (step : TableStep shared k op before after)
    {call : UInt64 × PendingCall} (member : call ∈ after.calls) :
    (∃ old ∈ before.calls, old.1 = call.1 ∧ old.2.req = call.2.req ∧
        old.2.seq = call.2.seq) ∨
      ∃ back req, op = .send k back (.add req) ∧
        req.wantServerResponse = true ∧ call.1 = req.msgID ∧
        call.2.req = req ∧ before.seq < call.2.seq := by
  cases step with
  | same equal => exact .inl ⟨call, equal ▸ member, rfl, rfl, rfl⟩
  | take msgID found pending took equal =>
      exact .inl ⟨call, PendingCalls.mem_of_mem_take took (equal ▸ member),
        rfl, rfl, rfl⟩
  | expire watch found pending removal equal =>
      exact .inl ⟨call, PendingCalls.mem_of_mem_expire removal (equal ▸ member),
        rfl, rfl, rfl⟩
  | drain equal =>
      rw [equal] at member
      cases member
  | watch equal =>
      rw [equal] at member
      unfold PendingCalls.watchExpiry at member
      split at member
      · exact .inl ⟨call, member, rfl, rfl, rfl⟩
      · obtain ⟨old, inside, rfl⟩ := List.mem_map.mp member
        exact .inl ⟨old, inside, rfl, rfl, rfl⟩
  | add back req pending running want added equal =>
      rcases PendingCalls.mem_of_mem_add added (equal ▸ member) with
        old | ⟨key, registered, seq⟩
      · exact .inl ⟨call, old, rfl, rfl, rfl⟩
      · exact .inr ⟨back, req, running, want, key, registered, by omega⟩

theorem TableStep.seq_le {shared : Shared} {k : Nat} {op : Op}
    {before after : PendingCalls} (step : TableStep shared k op before after) :
    before.seq ≤ after.seq := by
  cases step with
  | same equal => rw [equal]
  | take msgID found pending took equal =>
      rw [equal, PendingCalls.seq_take took]
  | expire watch found pending removal equal =>
      rw [equal, PendingCalls.seq_expire removal]
  | drain equal => rw [equal]; rfl
  | watch equal => rw [equal, PendingCalls.seq_watchExpiry]
  | add back req pending running want added equal =>
      rw [equal, PendingCalls.seq_add added]
      exact Nat.le_succ _

/-- A watch stays armed for its registration. -/
theorem TableStep.armed {shared : Shared} {k : Nat} {op : Op}
    {before after : PendingCalls} (step : TableStep shared k op before after)
    {watch : PendingCalls.Watch} (armed : before.Armed watch) :
    after.Armed watch := by
  refine ⟨Nat.le_trans armed.1 step.seq_le, fun call member same => ?_⟩
  rcases step.origin member with
    ⟨old, inside, _, req, seq⟩ | ⟨_, _, _, _, _, _, new⟩
  · rw [← req]
    exact armed.2 old inside (seq.trans same)
  · have known := armed.1
    omega

/-- The channel's bookkeeping: its sessions, its goroutines and its `Close`. -/
structure Book where
  /-- The number of sessions opened so far. -/
  opened : Nat
  /-- The sessions still receiving. -/
  receiving : List Nat
  /-- The counter of the wait group. -/
  wg : Nat
  /-- The progress of `Close`. -/
  closeOnce : Once
  /-- Whether the run loop or the send goroutine has returned. -/
  mainReturned : Bool

/-- The bookkeeping part of a channel's state. -/
def Shared.book (shared : Shared) : Book :=
  { opened := shared.opened
    receiving := shared.receiving
    wg := shared.wg
    closeOnce := shared.closeOnce
    mainReturned := shared.history.mainReturned }

/-- What an operation can do to the bookkeeping. -/
inductive BookStep (book : Book) (op : Op) (after : Book) : Prop
  | same (equal : after = book)
  | opened (backoff : Backoff) (req : Option Request)
      (running : op = .run (.openStream backoff req))
      (equal : after =
        { book with
          opened := book.opened + 1
          receiving := book.opened :: book.receiving
          wg := book.wg + 2 })
  | received (k : Nat) (running : op = .recv k .exit)
      (equal : after = { book with receiving := book.receiving.erase k })
  | closing (running : op = .queue .close) (fresh : book.closeOnce = .fresh)
      (equal : after = { book with closeOnce := .running })
  | closed (running : op = .close .finish)
      (equal : after = { book with closeOnce := .done })
  | exited (main : Bool) (running : op = .exit main)
      (equal : after =
        { book with
          wg := book.wg - 1
          mainReturned := book.mainReturned || main })

/-- What an operation can do to the history. -/
inductive HistoryStep (shared : Shared) (op : Op) (after : History) : Prop
  | same (equal : after = shared.history)
  | returned (req : Request) (running : op = .queue (.returned req))
      (equal : after =
        { shared.history with returned := shared.history.returned ++ [req] })
  | delivered (req : Request) (resp : Response) (last : Bool)
      (running : op = .queue (.deliver req resp last) ∨
        op = .queue (.offer req resp last))
      (equal : after =
        { shared.history with
          responses := shared.history.responses ++ [⟨req, resp, last⟩] })
  | gaveUp (req : Request) (resp : Response) (last : Bool)
      (running : op = .queue (.offer req resp last))
      (ended : shared.ended req.ctx = true)
      (equal : after =
        { shared.history with
          discarded := shared.history.discarded ++
            (if last then [req] else []).map fun req => (req, .channelFull) })
  | muted (reqs : List Request)
      (silent : ∀ req ∈ reqs, req.responseChan = none)
      (equal : after =
        { shared.history with
          discarded := shared.history.discarded ++
            reqs.map fun req => (req, .noChannel) })
  | left (k : Nat) (order : List Request)
      (permuted : order.Perm (shared.session k).pending.reqs)
      (equal : after =
        { shared.history with
          left := shared.history.left ++ order.map fun req => (k, req) })
  | disposed (k : Nat) (req : Request) (disposal : Disposal)
      (running : (∃ err, op = .session k (.retryOrFail req err)) ∨
        op = .session k (.retryClosed req))
      (reqs : List Request) (silent : ∀ req ∈ reqs, req.responseChan = none)
      (equal : after =
        { shared.history with
          disposals := shared.history.disposals ++ [(k, req, disposal)]
          discarded := shared.history.discarded ++
            reqs.map fun req => (req, .noChannel) })
  | handled (k index : Nat) (msg : Message)
      (running : op = .recv k (.handle index msg))
      (equal : after =
        { shared.history with
          routes := shared.history.routes ++ [⟨k, index, msg, .handler⟩] })
  | taken (k index : Nat) (msg : Message) (found : Option Request)
      (pending : PendingCalls)
      (running : op = .session k (.take index msg))
      (took : (shared.session k).pending.take msg.messageSeqNo =
        (found, pending))
      (equal : after =
        { shared.history with
          routes := shared.history.routes ++
            [⟨k, index, msg,
              .response found (shared.session k).pending.reqs⟩] })
  | expired (k : Nat) (watch : PendingCalls.Watch) (req : Request)
      (pending : PendingCalls)
      (running : op = .session k (.expire watch))
      (ended : shared.ended watch.ctx = true)
      (removal : (shared.session k).pending.expire watch = (some req, pending))
      (equal : after =
        { shared.history with
          discarded := shared.history.discarded ++ [(req, .expired)] })
  | added (k : Nat) (back : LoopReturn) (req : Request)
      (running : op = .send k back (.add req))
      (want : req.wantServerResponse = true)
      (equal : after =
        { shared.history with
          discarded := shared.history.discarded ++
            ((shared.session k).pending.expired shared.ended).map
              (fun req => (req, .expired)) ++
            (((shared.session k).pending.swept shared.ended).registered
              req.msgID).map (fun req => (req, .replaced)) })
  | sending (k : Nat) (back : LoopReturn) (req : Request)
      (running : op = .send k back (.call req))
      (equal : after =
        { shared.history with
          sends := shared.history.sends ++ [(k, some req)] })
  | accepting (running : op = .inbound .frame)
      (equal : after =
        { shared.history with sends := shared.history.sends ++ [(0, none)] })
  | sent (k : Nat) (back : LoopReturn) (req : Request) (err : Option Err)
      (running : op = .send k back (.wait req))
      (equal : after =
        { shared.history with
          sent := shared.history.sent ++ [(k, req, err)] })
  | recorded (backoff : Backoff) (req : Option Request) (err : Err)
      (running : op = .run (.record backoff req err))
      (equal : after =
        { shared.history with
          refusedAt :=
            if isRefusal err then some shared.opened
            else shared.history.refusedAt })
  | outcome (k : Nat) (backoff : Backoff) (req : Option Request)
      (hadEnded : Bool) (refusal : Option Err)
      (running : op = .run (.accepted k backoff req hadEnded refusal))
      (equal : after =
        { shared.history with
          outcomes := shared.history.outcomes ++
            [⟨k, hadEnded, (shared.session k).accepted, refusal⟩] })
  | changed (recorded : List (Nat × Bool)) (changes : Nat)
      (equal : after =
        { shared.history with recorded := recorded, changes := changes })
  | exited (main : Bool) (running : op = .exit main)
      (equal : after =
        { shared.history with
          mainReturned := shared.history.mainReturned || main })

section Steps

variable {config : Config} {shared : Shared} {outcome : Effect}

/-- Every operation treats the send queue in one of four ways. -/
theorem queue_exec {op : Op} {choice : Choice}
    (executed : exec config shared op choice = some outcome) :
    QueueStep shared op outcome.shared.queue := by
  cases exec_does executed with
  | queue does =>
      cases does with
      | push => exact .push _ _ _ rfl rfl rfl
      | _ => exact .same rfl rfl
  | send inside does =>
      cases does with
      | select queued => exact .pop _ rfl queued rfl
      | _ => exact .same rfl rfl
  | run opened does =>
      cases does with
      | await queued => exact .pop _ rfl queued rfl
      | _ => exact .same rfl rfl
  | session _ does | recv _ does => cases does <;> exact .same rfl rfl
  | lock unread => exact .lock _ rfl unread rfl rfl
  | drainQueue queued => exact .pop _ rfl queued rfl
  | _ => exact .same rfl rfl

/-- Every operation treats a pending table in one of these ways. -/
theorem table_exec {op : Op} {choice : Choice}
    (executed : exec config shared op choice = some outcome)
    {k : Nat} (inside : k < shared.opened) :
    TableStep shared k op (shared.session k).pending
      (outcome.shared.session k).pending := by
  cases exec_does executed with
  | @session other op outcome _ does =>
      by_cases equal : k = other
      · subst equal
        cases does with
        | endDrain => exact .drain (by simp [drainCalls]) (decide_eq_true rfl)
        | unmatched took | take took =>
            exact .take _ _ _ took (by simp) ⟨_, _, rfl, rfl⟩
        | expire ended removal =>
            exact .expire _ _ _ removal (by simp) rfl ended
        | _ => exact .same (by simp)
      · cases does <;> exact .same (by simp [equal, drainCalls])
  | @send other back op outcome _ does =>
      by_cases equal : k = other
      · subst equal
        cases does with
        | drain => exact .drain (by simp [drainCalls]) (decide_eq_true rfl)
        | add want added => exact .add _ _ _ rfl want added (by simp)
        | _ => exact .same (by simp)
      · cases does <;> exact .same (by simp [equal, drainCalls])
  | @recv other op outcome _ does =>
      by_cases equal : k = other
      · subst equal
        cases does with
        | drain => exact .drain (by simp [drainCalls]) (decide_eq_true rfl)
        | _ => exact .same (by simp)
      · cases does <;> exact .same (by simp [equal, drainCalls])
  | run _ does =>
      cases does with
      | openIdle | openStream =>
          exact .same
            (by simp [openStream, Shared.openSession, Nat.ne_of_lt inside])
      | _ => exact .same rfl
  | queue does => cases does <;> exact .same rfl
  | @watchExpiry other =>
      by_cases equal : k = other
      · exact .watch (by simp [equal])
      · exact .same (by simp [equal])
  | endDrain =>
      by_cases equal : k = 0
      · subst equal
        exact .drain (by simp [drainCalls]) rfl
      · exact .same (by simp [equal, drainCalls])
  | @drainFirst other | @closeDrain other =>
      exact .same (by by_cases equal : k = other <;> simp [equal])
  | endCancel => exact .same (by by_cases equal : k = 0 <;> simp [equal])
  | _ => exact .same rfl

/-- Every operation treats the bookkeeping in one of these ways. -/
theorem book_exec {op : Op} {choice : Choice}
    (executed : exec config shared op choice = some outcome) :
    BookStep shared.book op outcome.shared.book := by
  cases exec_does executed with
  | queue does =>
      cases does with
      | close fresh => exact .closing rfl fresh rfl
      | _ => exact .same rfl
  | session _ does | send _ does => cases does <;> exact .same rfl
  | recv _ does =>
      cases does with
      | exit => exact .received _ rfl rfl
      | _ => exact .same rfl
  | run _ does =>
      cases does with
      | openIdle | openStream => exact .opened _ _ rfl rfl
      | _ => exact .same rfl
  | closeFinish => exact .closed rfl rfl
  | exit => exact .exited _ rfl rfl
  | _ => exact .same rfl

/-- A session that an operation opens is new. -/
theorem session_opened {op : Op} {choice : Choice}
    (executed : exec config shared op choice = some outcome) {k : Nat}
    (unopened : shared.opened ≤ k) (inside : k < outcome.shared.opened) :
    ∃ suspect, outcome.shared.session k = openedSession suspect := by
  have kept : ¬ k < shared.opened := Nat.not_lt.mpr unopened
  cases exec_does executed with
  | run _ does =>
      cases does with
      | openIdle | openStream =>
          simp only [openStream, Shared.openSession] at inside ⊢
          have last : k = shared.opened := by omega
          exact ⟨_, by simp [last]; rfl⟩
      | _ => exact absurd inside kept
  | queue does | session _ does | send _ does | recv _ does =>
      cases does <;> exact absurd inside kept
  | _ => exact absurd inside kept

/-- The requests that are done for want of a response channel have none. -/
theorem silent_mute (req : Request) :
    ∀ silent ∈ req.mute, silent.responseChan = none := by
  unfold Request.mute
  split <;> simp_all

/-- A request that was sent and is not confirmed has no response channel,
unless it is registered. -/
theorem silent_unregistered {req : Request}
    (unconfirmed : ¬ req.wantSendConfirmation = true) :
    ∀ silent ∈ req.unregistered, silent.responseChan = none := by
  unfold Request.unregistered
  split
  · simp
  · cases chan : req.responseChan <;>
      simp_all [Request.wantSendConfirmation, Request.wantServerResponse]

/-- Every operation adds at most one entry to the history. -/
theorem history_exec {op : Op} {choice : Choice}
    (executed : exec config shared op choice = some outcome) :
    HistoryStep shared op outcome.shared.history := by
  cases exec_does executed with
  | queue does =>
      cases does with
      | returned => exact .returned _ rfl rfl
      | deliver delivers =>
          rcases delivers with rfl | rfl
          · exact .delivered _ _ _ (.inl rfl) rfl
          · exact .delivered _ _ _ (.inr rfl) rfl
      | fail => exact .muted _ (silent_mute _) rfl
      | drop silent => exact .muted [_] (by simp_all) rfl
      | giveUp ended => exact .gaveUp _ _ _ rfl ended rfl
      | _ => exact .same rfl
  | session _ does =>
      cases does with
      | endDrain permuted => exact .left _ _ (List.isPerm_iff.mp permuted) rfl
      | refused | exhausted =>
          exact .disposed _ _ _ (.inl ⟨_, rfl⟩) _ (silent_mute _) rfl
      | requeue =>
          exact .disposed _ _ .requeued (.inl ⟨_, rfl⟩) [] (by simp) (by simp)
      | retryClosed => exact .disposed _ _ _ (.inr rfl) _ (silent_mute _) rfl
      | unmatched took | take took => exact .taken _ _ _ _ _ rfl took rfl
      | expire ended removal => exact .expired _ _ _ _ rfl ended removal rfl
      | _ => exact .same rfl
  | send _ does =>
      cases does with
      | ctxEnded | answer => exact .muted _ (silent_mute _) rfl
      | healthy unconfirmed =>
          exact .muted _ (silent_unregistered unconfirmed) rfl
      | add want added => exact .added _ _ _ rfl want rfl
      | call => exact .sending _ _ _ rfl rfl
      | sent | unsent => exact .sent _ _ _ _ rfl rfl
      | drain permuted => exact .left _ _ (List.isPerm_iff.mp permuted) rfl
      | _ => exact .same rfl
  | recv _ does =>
      cases does with
      | upHeader | upFrame => exact .changed _ _ rfl
      | request => exact .handled _ _ _ rfl rfl
      | drain permuted => exact .left _ _ (List.isPerm_iff.mp permuted) rfl
      | _ => exact .same rfl
  | run _ does =>
      cases does with
      | record => exact .recorded _ _ _ rfl rfl
      | down => exact .changed _ _ rfl
      | accepted | refused => exact .outcome _ _ _ _ _ rfl rfl
      | _ => exact .same rfl
  | endDrain _ permuted => exact .left 0 _ (List.isPerm_iff.mp permuted) rfl
  | acceptFrame => exact .accepting rfl rfl
  | exit => exact .exited _ rfl rfl
  | _ => exact .same rfl

/-- The environment changes neither the queue nor the bookkeeping, and of a
session only whether it has ended. -/
theorem frame_environment {event : Event} {after : Shared}
    (acted : environment shared event = some after) :
    after.queue = shared.queue ∧ after.book = shared.book ∧
      ∀ k, ∃ done, after.session k = { shared.session k with done := done } := by
  cases environment_acts acted with
  | @propagate k =>
      refine ⟨rfl, rfl, fun other => ?_⟩
      by_cases equal : other = k
      · exact ⟨true, by simp [equal]⟩
      · exact ⟨(shared.session other).done, by simp [equal]⟩
  | _ => exact ⟨rfl, rfl, fun k => ⟨(shared.session k).done, rfl⟩⟩

/-- Only the environment fills response channels. -/
theorem full_exec {op : Op} {choice : Choice}
    (executed : exec config shared op choice = some outcome) :
    outcome.shared.full = shared.full := by
  cases exec_does executed with
  | queue does | session _ does | send _ does | recv _ does | run _ does =>
      cases does <;> rfl
  | _ => rfl

/-- The environment records which response channels it fills. -/
theorem crowded_environment {event : Event} {after : Shared}
    (acted : environment shared event = some after)
    (crowded : ∀ chan, shared.full chan = true →
      chan ∈ shared.history.crowded) :
    ∀ chan, after.full chan = true → chan ∈ after.history.crowded := by
  cases environment_acts acted with
  | @setFull filled =>
      intro chan isFull
      by_cases equal : chan = filled <;> simp_all
  | _ => exact crowded

/-- Of the history, the environment changes only what the peer has received and
which response channels have had no room. -/
theorem history_environment {event : Event} {after : Shared}
    (acted : environment shared event = some after) :
    ∃ received crowded, after.history =
      { shared.history with received := received, crowded := crowded } := by
  cases environment_acts acted <;> exact ⟨_, _, rfl⟩

end Steps

end Stream
end Gorums
