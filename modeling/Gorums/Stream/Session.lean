import Gorums.Stream.SendQueue

/-!
# Sessions

The operations of a session: its send loop, its receive goroutine, and what
both and the expiry watches share.  `handle` routes a frame by the ID space of
its message ID.  `retryOrFail` disposes of the calls that a session leaves in
its pending table.
-/

namespace Gorums
namespace Stream

/-- `session.healthy`. -/
def Session.healthy (session : Session) : Bool :=
  !session.suspect || session.accepted

/-- `session.refused`. -/
def Session.refused (session : Session) : Option Err :=
  if session.verdict = 0 then none else session.refusal

/-- Whether `handle` takes a frame for a request of the peer. -/
def Session.isRequest (session : Session) (msg : Message) : Bool :=
  isServerSequenceNumber msg.messageSeqNo == session.serverRequests

/-- The mutex section of `drain`, which visits the calls in some order, and
the disposal of each call. -/
def drainCalls (shared : Shared) (k : Nat) (err : Option Err)
    (order : List Request) (rest : List Op) : Effect :=
  ⟨(shared.update k fun session =>
      { session with pending := session.pending.drain }).log fun history =>
        { history with
          left := history.left ++ order.map fun req => (k, req) },
    (order.map fun req => .session k (.retryOrFail req err)) ++ rest, []⟩

/-- Record what became of a call that its session left. -/
@[simp]
def Shared.dispose (shared : Shared) (k : Nat) (req : Request)
    (disposal : Disposal) : Shared :=
  shared.log fun history =>
    { history with disposals := history.disposals ++ [(k, req, disposal)] }

/-- Record where a frame went. -/
@[simp]
def Shared.routed (shared : Shared) (k index : Nat) (msg : Message)
    (route : Route) : Shared :=
  shared.log fun history =>
    { history with routes := history.routes ++ [⟨k, index, msg, route⟩] }

/-- Cancel a session. -/
@[simp]
def Shared.cancelSession (shared : Shared) (k : Nat) : Shared :=
  shared.update k fun session => { session with done := true }

/-- Replace the pending table of a session. -/
@[simp]
def Shared.setPending (shared : Shared) (k : Nat) (pending : PendingCalls) :
    Shared :=
  shared.update k fun session => { session with pending := pending }

/-- Count an error reply that no caller observes. -/
@[simps -fullyApplied]
def Shared.countUnmatched (shared : Shared) (unmatched : Bool) : Shared :=
  { shared with
    unmatchedErrors :=
      shared.unmatchedErrors + if unmatched then 1 else 0 }

/-- The goroutines that wait for armed expiry watches. -/
def watchers (k : Nat) (watches : List PendingCalls.Watch) : List (List Op) :=
  watches.map fun watch => [.session k (.expire watch)]

@[simp] theorem mem_watchers {k : Nat} {watches : List PendingCalls.Watch}
    {thread : List Op} :
    thread ∈ watchers k watches ↔
      ∃ watch ∈ watches, [.session k (.expire watch)] = thread := by
  simp [watchers]

/-- `retryOrFail`, once the refusal is known. -/
def retryOrFail (config : Config) (shared : Shared) (k : Nat)
    (req : Request) (err : Option Err) : Effect :=
  match (shared.session k).refused, err with
  | some refusal, _ =>
      sendErrorResponse config (shared.dispose k req (.failed refusal))
        req refusal []
  | none, some err =>
      if (shared.session k).requeue && isResourceExhausted (some err) then
        sendErrorResponse config (shared.dispose k req (.failed err)) req err []
      else if (shared.session k).requeue && !req.streaming then
        ⟨shared.dispose k req .requeued,
          [.queue (.rlock req false .retry)], []⟩
      else ⟨shared, [.session k (.retryClosed req)], []⟩
  | none, none =>
      if (shared.session k).requeue && !req.streaming then
        ⟨shared.dispose k req .requeued,
          [.queue (.rlock req false .retry)], []⟩
      else ⟨shared, [.session k (.retryClosed req)], []⟩

/-- `handle`: the call that a response belongs to, if it is pending. -/
def takeCall (config : Config) (shared : Shared) (k index : Nat)
    (msg : Message) : Effect :=
  match (shared.session k).pending.take msg.messageSeqNo with
  | (none, pending) =>
      ⟨((shared.setPending k pending).routed k index msg
          (.response none (shared.session k).pending.reqs)).countUnmatched
          msg.errorStatus.isSome, [], []⟩
  | (some req, pending) =>
      ⟨(shared.setPending k pending).routed k index msg
          (.response (some req) (shared.session k).pending.reqs),
        [.session k (.matched req
          { nodeID := config.id, value := some msg, err := msg.errorStatus })],
        []⟩

/-- The callback of an expiry watch. -/
def expireCall (shared : Shared) (k : Nat) (watch : PendingCalls.Watch) :
    Effect :=
  match (shared.session k).pending.expire watch with
  | (none, _) => ⟨shared, [], []⟩
  | (some req, pending) =>
      ⟨(shared.setPending k pending).discard [req] .expired,
        [.session k .ifDraining], []⟩

/-- Execute one operation that several goroutines of session `k` perform. -/
def execSession (config : Config) (shared : Shared) (k : Nat) :
    SessionOp → Choice → Option Effect
  | .healthLoad, .pick .first =>
      some ⟨shared,
        if shared.lastErr.isSome then [.session k .healthClear] else [], []⟩
  | .healthClear, .pick .first =>
      some ⟨{ shared with lastErr := none }, [], []⟩
  | .healthSet err, .pick .first =>
      some ⟨{ shared with lastErr := some err }, [], []⟩
  | .cancel, .pick .first =>
      some ⟨shared.cancelSession k, [], []⟩
  | .ifDraining, .pick .first =>
      some ⟨shared,
        if (shared.session k).draining then [.session k .ifStopped] else [], []⟩
  | .ifStopped, .pick .first =>
      some ⟨shared,
        if (shared.session k).sendStopped then [.session k .ifEmpty] else [], []⟩
  | .ifEmpty, .pick .first =>
      some ⟨shared,
        if (shared.session k).pending.len = 0 then [.session k .endCancel]
        else [], []⟩
  | .endCancel, .pick .first =>
      some ⟨shared.cancelSession k,
        [.session k .endDrain], []⟩
  | .endDrain, .order calls =>
      if calls.isPerm (shared.session k).pending.reqs then
        some (drainCalls shared k none calls [])
      else none
  | .retryOrFail req err, .pick .first =>
      some (retryOrFail config shared k req err)
  | .retryClosed req, .pick .first =>
      if (shared.session k).requeue && shared.ended 0 then
        some (sendErrorResponse config
          (shared.dispose k req (.failed errNodeClosed)) req errNodeClosed [])
      else
        some (sendErrorResponse config
          (shared.dispose k req (.failed errStreamDown)) req errStreamDown [])
  | .take index msg, .pick .first =>
      some (takeCall config shared k index msg)
  | .matched req resp, .pick .first =>
      some ⟨shared.countUnmatched (resp.err.isSome && shared.ended req.ctx),
        [.queue (.deliver req resp (!req.streaming))], []⟩
  | .expire watch, .pick .first =>
      if shared.ended watch.ctx then some (expireCall shared k watch)
      else none
  | .callback, .pick .first =>
      some ⟨{ shared with callbacks := shared.callbacks + 1 }, [], []⟩
  | _, _ => none

/-- `recordHealth(nil)` after a completed send. -/
def recordHealthy (session : Session) (k : Nat) : List Op :=
  if session.healthy then [.session k .healthLoad] else []

/-- `fail` records the error unless the session has ended. -/
def recordUnlessEnded (session : Session) (k : Nat) (err : Err) : List Op :=
  if session.done then [] else [.session k (.healthSet err)]

@[simp] theorem mem_recordHealthy {session : Session} {k : Nat} {op : Op} :
    op ∈ recordHealthy session k ↔
      session.healthy = true ∧ op = .session k .healthLoad := by
  unfold recordHealthy
  split <;> simp_all

@[simp] theorem mem_recordUnlessEnded {session : Session} {k : Nat} {err : Err}
    {op : Op} :
    op ∈ recordUnlessEnded session k err ↔
      session.done = false ∧ op = .session k (.healthSet err) := by
  unfold recordUnlessEnded
  split <;> simp_all

/-- Store the handoff state. -/
@[simp]
def Shared.setHandoff (shared : Shared) (k : Nat) (handoff : Handoff) : Shared :=
  shared.update k fun session => { session with handoff := handoff }

/-- Close the verdict channel. -/
@[simp]
def Shared.closeVerdict (shared : Shared) (k : Nat) : Shared :=
  shared.update k fun session => { session with verdict := session.verdict + 1 }

/-- `return` of the send loop. -/
def loopReturn (k : Nat) (back : LoopReturn) (req : Option Request) : List Op :=
  [.send k back (.stop req)]

/-- Record that the send loop has returned. -/
@[simp]
def Shared.stopSending (shared : Shared) (k : Nat) : Shared :=
  shared.update k fun session => { session with sendStopped := true }

/-- A request that a session sends but does not register. -/
def Request.unregistered (req : Request) : List Request :=
  if req.wantServerResponse then [] else [req]

/-- `add`: register a two-way request, unless the table is drained. -/
def addCall (shared : Shared) (k : Nat) (back : LoopReturn) (req : Request) :
    Effect :=
  match (shared.session k).pending.add shared.ended req.msgID req with
  | none => ⟨shared, loopReturn k back (some req), []⟩
  | some pending =>
      ⟨((shared.setPending k pending).discard
          ((shared.session k).pending.expired shared.ended) .expired).discard
          (((shared.session k).pending.swept shared.ended).registered req.msgID)
          .replaced,
        [.send k back (.call req)],
        watchers k
          ((shared.session k).pending.addWatch shared.ended req.msgID req)⟩

/-- Execute one operation of the send loop of session `k`. -/
def execSend (config : Config) (shared : Shared) (k : Nat) (back : LoopReturn) :
    SendOp → Choice → Option Effect
  | .select, .pick .first =>
      if (shared.session k).done then
        some ⟨shared, loopReturn k back none, []⟩
      else none
  | .select, .pick .second =>
      if (shared.session k).drain then
        some ⟨shared, loopReturn k back none, []⟩
      else none
  | .select, .pick .third =>
      match shared.queue.ch with
      | [] => none
      | req :: rest =>
          some ⟨shared.onQueue fun queue => { queue with ch := rest },
            [.send k back (.ended req)], []⟩
  | .ended req, .pick .first =>
      some ⟨shared,
        if (shared.session k).done then loopReturn k back (some req)
        else [.send k back (.draining req)], []⟩
  | .draining req, .pick .first =>
      some ⟨shared,
        if (shared.session k).draining then loopReturn k back (some req)
        else [.send k back (.ctx req)], []⟩
  | .ctx req, .pick .first =>
      match shared.ctxErr req.ctx with
      | some err =>
          some (sendErrorResponse config shared req err [.send k back .select])
      | none => some ⟨shared, [.send k back (.add req)], []⟩
  | .add req, .pick .first =>
      if req.wantServerResponse then some (addCall shared k back req)
      else some ⟨shared, [.send k back (.call req)], []⟩
  | .call req, .pick .first =>
      some ⟨shared.log fun history =>
          { history with sends := history.sends ++ [(k, some req)] },
        [.send k back (.wait req)], []⟩
  | .wait req, .pick .first =>
      some ⟨shared.log fun history =>
          { history with sent := history.sent ++ [(k, req, none)] },
        [.send k back (.healthy req)], []⟩
  | .wait req, .err err =>
      some ⟨shared.log fun history =>
          { history with sent := history.sent ++ [(k, req, some err)] },
        [.send k back (.failed req err)], []⟩
  | .healthy req, .pick .first =>
      if req.wantSendConfirmation then
        some ⟨shared,
          recordHealthy (shared.session k) k ++
            [.queue (.deliver req { nodeID := config.id, value := none } true),
              .send k back .select], []⟩
      else
        some ⟨shared.discard req.unregistered .noChannel,
          recordHealthy (shared.session k) k ++ [.send k back .select], []⟩
  | .failed req err, .pick .first =>
      if (shared.session k).requeue &&
          (shared.session k).handoff == .streamClosed then
        some ⟨shared,
          [.session k .cancel, .send k back (.report req err true)], []⟩
      else if (shared.session k).requeue && err.isEOF then
        if (shared.session k).handoff = .streamAccepted then
          some ⟨shared, [.send k back (.report req err true)], []⟩
        else some ⟨shared, [.send k back (.swap req err)], []⟩
      else some ⟨shared, [.send k back (.fail req err)], []⟩
  | .swap req err, .pick .first =>
      if (shared.session k).handoff = .streamFresh then
        some ⟨shared.setHandoff k .streamSendFailed,
          [.session k .cancel, .send k back (.report req err true)], []⟩
      else some ⟨shared, [.send k back (.failed req err)], []⟩
  | .fail req err, .pick .first =>
      some ⟨shared,
        recordUnlessEnded (shared.session k) k err ++
          [.send k back (.cancel req err)], []⟩
  | .cancel req err, .pick .first =>
      some ⟨shared.cancelSession k,
        [.send k back (.drain req err)], []⟩
  | .drain req err, .order calls =>
      if calls.isPerm (shared.session k).pending.reqs then
        some (drainCalls shared k (some err) calls
          [.send k back (.report req err false)])
      else none
  | .report req err receiveDecides, .pick .first =>
      some ⟨shared,
        if req.wantServerResponse then loopReturn k back none
        else if receiveDecides then [.send k back (.verdict req err)]
        else [.send k back (.answer req err)], []⟩
  | .verdict req err, .pick .first =>
      if (shared.session k).verdict = 0 then none
      else some ⟨shared,
        [.send k back (.answer req ((shared.session k).refusal.getD err))], []⟩
  | .answer req err, .pick .first =>
      some (sendErrorResponse config shared req
        ((shared.ctxErr req.ctx).getD err) (loopReturn k back none))
  | .stop req, .pick .first =>
      match back with
      | .run backoff =>
          some ⟨shared.stopSending k,
            [.session k .ifDraining, .run (.down k backoff req)], []⟩
      | .serve =>
          some ⟨shared.stopSending k,
            [.session k .ifDraining, .inbound (.left req)], []⟩
  | _, _ => none

/-- The session whose acceptance brings the stream up, after `setStreamUp`. -/
def Shared.liveAfter (shared : Shared) (k : Nat) (up : Bool) : Option Nat :=
  if !up && decide (shared.live = some k) then none else shared.live

/-- Whether `setStreamUp` changes the stream's state: only the live session
brings the stream up. -/
def Shared.upChanged (shared : Shared) (k : Nat) (up : Bool) : Bool :=
  !(up && decide (shared.live ≠ some k)) && shared.streamUp != up

/-- Whether `setStreamUp` calls the stream-change callback. -/
def Shared.callsBack (shared : Shared) (config : Config) (k : Nat)
    (up : Bool) : Bool :=
  shared.upChanged k up && config.onStreamChange

/-- `setStreamUp`: the section that holds the channel's mutex, and the callback
on a transition. -/
@[simp]
def setStreamUp (config : Config) (shared : Shared) (k : Nat) (up : Bool)
    (rest : List Op) : Effect :=
  ⟨({ shared with
      live := shared.liveAfter k up
      streamUp := if shared.upChanged k up then up else shared.streamUp }).log
      fun history =>
        { history with
          recorded := history.recorded ++ [(k, up)]
          changes :=
            history.changes + if shared.upChanged k up then 1 else 0 },
    (if shared.callsBack config k up then [.session k .callback] else []) ++
      rest, []⟩

/-- Execute one operation of the receive goroutine of session `k`. -/
def execRecv (config : Config) (shared : Shared) (k : Nat) :
    RecvOp → Choice → Option Effect
  | .header, .pick .first =>
      some ⟨shared.update k fun session => { session with arrived := true },
        [.session k .healthLoad, .recv k (.accept .header)], []⟩
  | .header, .pick .second => some ⟨shared, [.recv k .recv], []⟩
  | .recv, .frame msg =>
      some ⟨shared.update k fun session =>
          { session with frames := session.frames + 1, arrived := true },
        [.session k .healthLoad,
          .recv k (.check (shared.session k).frames msg)], []⟩
  | .recv, .err err => some ⟨shared, [.recv k (.swap err)], []⟩
  | .check index msg, .pick .first =>
      some ⟨shared,
        if (shared.session k).accepted then [.recv k (.handle index msg)]
        else [.recv k (.accept (.frame index msg))], []⟩
  | .accept acceptance, .pick .first =>
      some ⟨shared.update k fun session => { session with accepted := true },
        [.recv k (.handoff acceptance)], []⟩
  | .handoff acceptance, .pick .first =>
      some ⟨shared.setHandoff k .streamAccepted,
        [.recv k (.verdict acceptance)], []⟩
  | .verdict acceptance, .pick .first =>
      some ⟨shared.closeVerdict k, [.recv k (.up acceptance)], []⟩
  | .up acceptance, .pick .first =>
      match config.kind, acceptance with
      | .outbound, .header =>
          some (setStreamUp config shared k true [.recv k .recv])
      | .outbound, .frame index msg =>
          some (setStreamUp config shared k true [.recv k (.handle index msg)])
      | .inbound, .header => some ⟨shared, [.recv k .recv], []⟩
      | .inbound, .frame index msg =>
          some ⟨shared, [.recv k (.handle index msg)], []⟩
  | .handle index msg, .pick .first =>
      if (shared.session k).isRequest msg then
        some ⟨shared.routed k index msg .handler,
          (if config.handler then [.dispatch (.push ⟨k, index, msg⟩)] else []) ++
            [.session k .ifDraining, .recv k .recv], []⟩
      else
        some ⟨shared, [.session k (.take index msg),
          .session k .ifDraining, .recv k .recv], []⟩
  | .swap err, .pick .first =>
      some ⟨shared.update k fun session =>
          { session with handoff := .streamClosed, recvErr := some err },
        if (shared.session k).handoff = .streamAccepted then
          [.recv k (.decide err .streamAccepted)]
        else [.recv k (.refusal err (shared.session k).handoff)], []⟩
  | .refusal err prev, .pick .first =>
      some ⟨shared.update k fun session =>
          { session with
            refusal :=
              if session.requeue && isRefusal err then some err
              else session.refusal },
        [.recv k (.close err prev)], []⟩
  | .close err prev, .pick .first =>
      some ⟨shared.closeVerdict k, [.recv k (.decide err prev)], []⟩
  | .decide err prev, .pick .first =>
      if (shared.session k).refusal.isSome || prev == .streamSendFailed then
        some ⟨shared, [.session k (.healthSet err), .recv k (.cancel err)], []⟩
      else some ⟨shared, [.recv k (.ended err)], []⟩
  | .ended err, .pick .first =>
      some ⟨shared,
        recordUnlessEnded (shared.session k) k err ++
          [.recv k (.cancel err)], []⟩
  | .cancel err, .pick .first =>
      some ⟨shared.cancelSession k,
        [.recv k (.drain err)], []⟩
  | .drain err, .order calls =>
      if calls.isPerm (shared.session k).pending.reqs then
        some (drainCalls shared k (some err) calls [.recv k .exit])
      else none
  | .exit, .pick .first =>
      some ⟨{ shared with receiving := shared.receiving.erase k },
        [.exit false], []⟩
  | _, _ => none

/-! ## What one operation does -/

/-- What one operation that several goroutines of session `k` perform does. -/
inductive SessionDoes (config : Config) (shared : Shared) (k : Nat) :
    SessionOp → Effect → Prop
  | healthLoad :
      SessionDoes config shared k .healthLoad
        ⟨shared,
          if shared.lastErr.isSome then [.session k .healthClear] else [], []⟩
  | healthClear :
      SessionDoes config shared k .healthClear
        ⟨{ shared with lastErr := none }, [], []⟩
  | healthSet :
      SessionDoes config shared k (.healthSet err)
        ⟨{ shared with lastErr := some err }, [], []⟩
  | cancel :
      SessionDoes config shared k .cancel ⟨shared.cancelSession k, [], []⟩
  | ifDraining :
      SessionDoes config shared k .ifDraining
        ⟨shared,
          if (shared.session k).draining then [.session k .ifStopped] else [],
          []⟩
  | ifStopped :
      SessionDoes config shared k .ifStopped
        ⟨shared,
          if (shared.session k).sendStopped then [.session k .ifEmpty] else [],
          []⟩
  | ifEmpty :
      SessionDoes config shared k .ifEmpty
        ⟨shared,
          if (shared.session k).pending.len = 0 then [.session k .endCancel]
          else [], []⟩
  | endCancel :
      SessionDoes config shared k .endCancel
        ⟨shared.cancelSession k, [.session k .endDrain], []⟩
  | endDrain (permuted : calls.isPerm (shared.session k).pending.reqs = true) :
      SessionDoes config shared k .endDrain
        (drainCalls shared k none calls [])
  | refused (refused : (shared.session k).refused = some refusal) :
      SessionDoes config shared k (.retryOrFail req err)
        (sendErrorResponse config (shared.dispose k req (.failed refusal))
          req refusal [])
  | exhausted (refused : (shared.session k).refused = none)
      (exhausted : ((shared.session k).requeue &&
        isResourceExhausted (some err)) = true) :
      SessionDoes config shared k (.retryOrFail req (some err))
        (sendErrorResponse config (shared.dispose k req (.failed err))
          req err [])
  | requeue (refused : (shared.session k).refused = none)
      (lives : ¬ ((shared.session k).requeue && isResourceExhausted err) = true)
      (requeues : ((shared.session k).requeue && !req.streaming) = true) :
      SessionDoes config shared k (.retryOrFail req err)
        ⟨shared.dispose k req .requeued,
          [.queue (.rlock req false .retry)], []⟩
  | giveUp (refused : (shared.session k).refused = none)
      (lives : ¬ ((shared.session k).requeue && isResourceExhausted err) = true)
      (fails : ¬ ((shared.session k).requeue && !req.streaming) = true) :
      SessionDoes config shared k (.retryOrFail req err)
        ⟨shared, [.session k (.retryClosed req)], []⟩
  | retryClosed (closed : err = errNodeClosed ∨ err = errStreamDown) :
      SessionDoes config shared k (.retryClosed req)
        (sendErrorResponse config (shared.dispose k req (.failed err))
          req err [])
  | unmatched (took : (shared.session k).pending.take msg.messageSeqNo =
        (none, pending)) :
      SessionDoes config shared k (.take index msg)
        ⟨((shared.setPending k pending).routed k index msg
            (.response none (shared.session k).pending.reqs)).countUnmatched
            msg.errorStatus.isSome, [], []⟩
  | take (took : (shared.session k).pending.take msg.messageSeqNo =
        (some req, pending)) :
      SessionDoes config shared k (.take index msg)
        ⟨(shared.setPending k pending).routed k index msg
            (.response (some req) (shared.session k).pending.reqs),
          [.session k (.matched req
            { nodeID := config.id, value := some msg,
              err := msg.errorStatus })], []⟩
  | matched :
      SessionDoes config shared k (.matched req resp)
        ⟨shared.countUnmatched (resp.err.isSome && shared.ended req.ctx),
          [.queue (.deliver req resp (!req.streaming))], []⟩
  | expireNone :
      SessionDoes config shared k (.expire watch) ⟨shared, [], []⟩
  | expire (ended : shared.ended watch.ctx = true)
      (removal : (shared.session k).pending.expire watch =
        (some req, pending)) :
      SessionDoes config shared k (.expire watch)
        ⟨(shared.setPending k pending).discard [req] .expired,
          [.session k .ifDraining], []⟩
  | callback :
      SessionDoes config shared k .callback
        ⟨{ shared with callbacks := shared.callbacks + 1 }, [], []⟩

theorem execSession_does {config : Config} {shared : Shared} {k : Nat}
    {op : SessionOp} {choice : Choice} {outcome : Effect}
    (executed : execSession config shared k op choice = some outcome) :
    SessionDoes config shared k op outcome := by
  revert executed
  fun_cases execSession config shared k op choice <;> rintro ⟨⟩
  all_goals try fun_cases retryOrFail
  all_goals try fun_cases takeCall
  all_goals try fun_cases expireCall
  all_goals first
    | exact .exhausted ‹_› ‹_›
    | exact .requeue ‹_› ‹_› ‹_›
    | exact .giveUp ‹_› ‹_› ‹_›
    | exact .requeue ‹_› (by simp [isResourceExhausted, statusCode]) ‹_›
    | exact .giveUp ‹_› (by simp [isResourceExhausted, statusCode]) ‹_›
    | exact .retryClosed (.inl rfl)
    | exact .retryClosed (.inr rfl)
    | constructor <;> assumption

/-- What one operation of the send loop of session `k` does. -/
inductive SendDoes (config : Config) (shared : Shared) (choice : Choice)
    (k : Nat) : LoopReturn → SendOp → Effect → Prop
  | stopped (stops : (shared.session k).done = true ∨
        (shared.session k).drain = true) :
      SendDoes config shared choice k back .select
        ⟨shared, loopReturn k back none, []⟩
  | select (queued : shared.queue.ch = req :: rest) :
      SendDoes config shared choice k back .select
        ⟨shared.onQueue fun queue => { queue with ch := rest },
          [.send k back (.ended req)], []⟩
  | ended :
      SendDoes config shared choice k back (.ended req)
        ⟨shared,
          if (shared.session k).done then loopReturn k back (some req)
          else [.send k back (.draining req)], []⟩
  | draining :
      SendDoes config shared choice k back (.draining req)
        ⟨shared,
          if (shared.session k).draining then loopReturn k back (some req)
          else [.send k back (.ctx req)], []⟩
  | ctxEnded (ended : shared.ctxErr req.ctx = some err) :
      SendDoes config shared choice k back (.ctx req)
        (sendErrorResponse config shared req err [.send k back .select])
  | ctx (ctxErr : shared.ctxErr req.ctx = none) :
      SendDoes config shared choice k back (.ctx req)
        ⟨shared, [.send k back (.add req)], []⟩
  | drained (want : req.wantServerResponse = true)
      (drained : (shared.session k).pending.add shared.ended req.msgID req =
        none) :
      SendDoes config shared choice k back (.add req)
        ⟨shared, loopReturn k back (some req), []⟩
  | add (want : req.wantServerResponse = true)
      (added : (shared.session k).pending.add shared.ended req.msgID req =
        some pending) :
      SendDoes config shared choice k back (.add req)
        ⟨((shared.setPending k pending).discard
            ((shared.session k).pending.expired shared.ended) .expired).discard
            (((shared.session k).pending.swept shared.ended).registered
              req.msgID) .replaced,
          [.send k back (.call req)],
          watchers k
            ((shared.session k).pending.addWatch shared.ended req.msgID req)⟩
  | oneway (silent : ¬ req.wantServerResponse = true) :
      SendDoes config shared choice k back (.add req)
        ⟨shared, [.send k back (.call req)], []⟩
  | call :
      SendDoes config shared choice k back (.call req)
        ⟨shared.log fun history =>
            { history with sends := history.sends ++ [(k, some req)] },
          [.send k back (.wait req)], []⟩
  | sent (returned : choice = .pick .first) :
      SendDoes config shared choice k back (.wait req)
        ⟨shared.log fun history =>
            { history with sent := history.sent ++ [(k, req, none)] },
          [.send k back (.healthy req)], []⟩
  | unsent (returned : choice = .err err) :
      SendDoes config shared choice k back (.wait req)
        ⟨shared.log fun history =>
            { history with sent := history.sent ++ [(k, req, some err)] },
          [.send k back (.failed req err)], []⟩
  | confirm (confirms : req.wantSendConfirmation = true) :
      SendDoes config shared choice k back (.healthy req)
        ⟨shared,
          recordHealthy (shared.session k) k ++
            [.queue (.deliver req { nodeID := config.id, value := none } true),
              .send k back .select], []⟩
  | healthy (unconfirmed : ¬ req.wantSendConfirmation = true) :
      SendDoes config shared choice k back (.healthy req)
        ⟨shared.discard req.unregistered .noChannel,
          recordHealthy (shared.session k) k ++ [.send k back .select], []⟩
  | failedClosed (closed : ((shared.session k).requeue &&
        (shared.session k).handoff == .streamClosed) = true) :
      SendDoes config shared choice k back (.failed req err)
        ⟨shared,
          [.session k .cancel, .send k back (.report req err true)], []⟩
  | failedAccepted (eof : ((shared.session k).requeue && err.isEOF) = true)
      (accepted : (shared.session k).handoff = .streamAccepted) :
      SendDoes config shared choice k back (.failed req err)
        ⟨shared, [.send k back (.report req err true)], []⟩
  | failedEOF (eof : ((shared.session k).requeue && err.isEOF) = true)
      (undecided : ¬ (shared.session k).handoff = .streamAccepted) :
      SendDoes config shared choice k back (.failed req err)
        ⟨shared, [.send k back (.swap req err)], []⟩
  | failed (isOpen : ¬ ((shared.session k).requeue &&
        (shared.session k).handoff == .streamClosed) = true)
      (broken : ¬ ((shared.session k).requeue && err.isEOF) = true) :
      SendDoes config shared choice k back (.failed req err)
        ⟨shared, [.send k back (.fail req err)], []⟩
  | swap (fresh : (shared.session k).handoff = .streamFresh) :
      SendDoes config shared choice k back (.swap req err)
        ⟨shared.setHandoff k .streamSendFailed,
          [.session k .cancel, .send k back (.report req err true)], []⟩
  | swapLost (lost : ¬ (shared.session k).handoff = .streamFresh) :
      SendDoes config shared choice k back (.swap req err)
        ⟨shared, [.send k back (.failed req err)], []⟩
  | fail :
      SendDoes config shared choice k back (.fail req err)
        ⟨shared,
          recordUnlessEnded (shared.session k) k err ++
            [.send k back (.cancel req err)], []⟩
  | cancel :
      SendDoes config shared choice k back (.cancel req err)
        ⟨shared.cancelSession k, [.send k back (.drain req err)], []⟩
  | drain (permuted : calls.isPerm (shared.session k).pending.reqs = true) :
      SendDoes config shared choice k back (.drain req err)
        (drainCalls shared k (some err) calls
          [.send k back (.report req err false)])
  | report :
      SendDoes config shared choice k back (.report req err receiveDecides)
        ⟨shared,
          if req.wantServerResponse then loopReturn k back none
          else if receiveDecides then [.send k back (.verdict req err)]
          else [.send k back (.answer req err)], []⟩
  | verdict (decided : ¬ (shared.session k).verdict = 0) :
      SendDoes config shared choice k back (.verdict req err)
        ⟨shared,
          [.send k back (.answer req ((shared.session k).refusal.getD err))],
          []⟩
  | answer :
      SendDoes config shared choice k back (.answer req err)
        (sendErrorResponse config shared req
          ((shared.ctxErr req.ctx).getD err) (loopReturn k back none))
  | stopRun :
      SendDoes config shared choice k (.run backoff) (.stop req)
        ⟨shared.stopSending k,
          [.session k .ifDraining, .run (.down k backoff req)], []⟩
  | stopServe :
      SendDoes config shared choice k .serve (.stop req)
        ⟨shared.stopSending k,
          [.session k .ifDraining, .inbound (.left req)], []⟩

theorem execSend_does {config : Config} {shared : Shared} {k : Nat}
    {back : LoopReturn} {op : SendOp} {choice : Choice} {outcome : Effect}
    (executed : execSend config shared k back op choice = some outcome) :
    SendDoes config shared choice k back op outcome := by
  revert executed
  fun_cases execSend config shared k back op choice <;> rintro ⟨⟩
  all_goals try fun_cases addCall
  all_goals first
    | exact .stopped (.inl ‹_›)
    | exact .stopped (.inr ‹_›)
    | exact .sent rfl
    | exact .unsent rfl
    | constructor <;> assumption

/-- What one operation of the receive goroutine of session `k` does. -/
inductive RecvDoes (config : Config) (shared : Shared) (choice : Choice)
    (k : Nat) : RecvOp → Effect → Prop
  | header :
      RecvDoes config shared choice k .header
        ⟨shared.update k fun session => { session with arrived := true },
          [.session k .healthLoad, .recv k (.accept .header)], []⟩
  | noHeader :
      RecvDoes config shared choice k .header ⟨shared, [.recv k .recv], []⟩
  | frame (received : choice = .frame msg) :
      RecvDoes config shared choice k .recv
        ⟨shared.update k fun session =>
            { session with frames := session.frames + 1, arrived := true },
          [.session k .healthLoad,
            .recv k (.check (shared.session k).frames msg)], []⟩
  | failed :
      RecvDoes config shared choice k .recv ⟨shared, [.recv k (.swap err)], []⟩
  | check :
      RecvDoes config shared choice k (.check index msg)
        ⟨shared,
          if (shared.session k).accepted then [.recv k (.handle index msg)]
          else [.recv k (.accept (.frame index msg))], []⟩
  | accept :
      RecvDoes config shared choice k (.accept acceptance)
        ⟨shared.update k fun session => { session with accepted := true },
          [.recv k (.handoff acceptance)], []⟩
  | handoff :
      RecvDoes config shared choice k (.handoff acceptance)
        ⟨shared.setHandoff k .streamAccepted,
          [.recv k (.verdict acceptance)], []⟩
  | verdict :
      RecvDoes config shared choice k (.verdict acceptance)
        ⟨shared.closeVerdict k, [.recv k (.up acceptance)], []⟩
  | upHeader (kind : config.kind = .outbound) :
      RecvDoes config shared choice k (.up .header)
        (setStreamUp config shared k true [.recv k .recv])
  | upFrame (kind : config.kind = .outbound) :
      RecvDoes config shared choice k (.up (.frame index msg))
        (setStreamUp config shared k true [.recv k (.handle index msg)])
  | serveHeader (kind : config.kind = .inbound) :
      RecvDoes config shared choice k (.up .header)
        ⟨shared, [.recv k .recv], []⟩
  | serveFrame (kind : config.kind = .inbound) :
      RecvDoes config shared choice k (.up (.frame index msg))
        ⟨shared, [.recv k (.handle index msg)], []⟩
  | request (isRequest : (shared.session k).isRequest msg = true) :
      RecvDoes config shared choice k (.handle index msg)
        ⟨shared.routed k index msg .handler,
          (if config.handler then [.dispatch (.push ⟨k, index, msg⟩)] else []) ++
            [.session k .ifDraining, .recv k .recv], []⟩
  | response (isResponse : ¬ (shared.session k).isRequest msg = true) :
      RecvDoes config shared choice k (.handle index msg)
        ⟨shared, [.session k (.take index msg),
          .session k .ifDraining, .recv k .recv], []⟩
  | swap :
      RecvDoes config shared choice k (.swap err)
        ⟨shared.update k fun session =>
            { session with handoff := .streamClosed, recvErr := some err },
          if (shared.session k).handoff = .streamAccepted then
            [.recv k (.decide err .streamAccepted)]
          else [.recv k (.refusal err (shared.session k).handoff)], []⟩
  | refusal :
      RecvDoes config shared choice k (.refusal err prev)
        ⟨shared.update k fun session =>
            { session with
              refusal :=
                if session.requeue && isRefusal err then some err
                else session.refusal },
          [.recv k (.close err prev)], []⟩
  | close :
      RecvDoes config shared choice k (.close err prev)
        ⟨shared.closeVerdict k, [.recv k (.decide err prev)], []⟩
  | decideFailed (fails : ((shared.session k).refusal.isSome ||
        prev == .streamSendFailed) = true) :
      RecvDoes config shared choice k (.decide err prev)
        ⟨shared, [.session k (.healthSet err), .recv k (.cancel err)], []⟩
  | decide (ends : ¬ ((shared.session k).refusal.isSome ||
        prev == .streamSendFailed) = true) :
      RecvDoes config shared choice k (.decide err prev)
        ⟨shared, [.recv k (.ended err)], []⟩
  | ended :
      RecvDoes config shared choice k (.ended err)
        ⟨shared,
          recordUnlessEnded (shared.session k) k err ++
            [.recv k (.cancel err)], []⟩
  | cancel :
      RecvDoes config shared choice k (.cancel err)
        ⟨shared.cancelSession k, [.recv k (.drain err)], []⟩
  | drain (permuted : calls.isPerm (shared.session k).pending.reqs = true) :
      RecvDoes config shared choice k (.drain err)
        (drainCalls shared k (some err) calls [.recv k .exit])
  | exit :
      RecvDoes config shared choice k .exit
        ⟨{ shared with receiving := shared.receiving.erase k },
          [.exit false], []⟩

theorem execRecv_does {config : Config} {shared : Shared} {k : Nat}
    {op : RecvOp} {choice : Choice} {outcome : Effect}
    (executed : execRecv config shared k op choice = some outcome) :
    RecvDoes config shared choice k op outcome := by
  revert executed
  fun_cases execRecv config shared k op choice <;> rintro ⟨⟩
  all_goals first
    | exact .frame rfl
    | constructor <;> assumption

end Stream
end Gorums
