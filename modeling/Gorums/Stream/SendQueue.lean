import Gorums.Stream.State

/-!
# The send queue and response channels

The operations of `sendQueue.push`, `sendQueue.fail`, `Request.deliver` and of
the users of a channel.  A `push` holds the queue's mutex for reading from
`rlock` to `unlock`.
-/

namespace Gorums
namespace Stream

/-- A request that no response can reach, as it has no response channel. -/
def Request.mute (req : Request) : List Request :=
  if req.responseChan.isSome then [] else [req]

/-- The delivery of an error, if the request has a response channel. -/
def deliverError (config : Config) (req : Request) (err : Err) : List Op :=
  if req.responseChan.isSome then
    [.queue (.deliver req (errorResponse config.id err) true)]
  else []

/-- `Request.sendErrorResponse`: a request with a response channel gets the
error, any other is done. -/
@[simp]
def sendErrorResponse (config : Config) (shared : Shared)
    (req : Request) (err : Err) (rest : List Op) : Effect :=
  ⟨shared.discard req.mute .noChannel, deliverError config req err ++ rest, []⟩

/-- `OutboundChannel.failRequest`, which ignores a nil request. -/
def failRequest (req : Option Request) (err : Err) : List Op :=
  match req with
  | none => []
  | some req => [.queue (.fail req err)]

@[simp] theorem mem_deliverError {config : Config} {req : Request} {err : Err}
    {op : Op} :
    op ∈ deliverError config req err ↔
      req.responseChan.isSome = true ∧
        op = .queue (.deliver req (errorResponse config.id err) true) := by
  unfold deliverError
  split <;> simp_all

@[simp] theorem mem_failRequest {req : Option Request} {err : Err} {op : Op} :
    op ∈ failRequest req err ↔
      ∃ failed, req = some failed ∧ .queue (.fail failed err) = op := by
  cases req <;> simp [failRequest, eq_comm]

/-- The request that carries a handler's reply. -/
def replyRequest (job : Job) (msg : Message) : Request :=
  { uid := 0, ctx := 0, msg := msg, cause := some job.index }

/-- A request that is no handler's reply. -/
def Request.IsCall (req : Request) : Prop :=
  ∀ job msg, replyRequest job msg ≠ req

theorem Request.isCall_of_cause {req : Request} (call : req.cause = none) :
    req.IsCall := by
  rintro job msg rfl
  cases call

/-- Replies have no response channel. -/
theorem Request.isCall_of_responseChan {req : Request}
    (chan : req.responseChan.isSome = true) : req.IsCall := by
  rintro job msg rfl
  cases chan

theorem Request.isCall_of_want {req : Request}
    (want : req.wantServerResponse = true) : req.IsCall :=
  Request.isCall_of_responseChan (Bool.and_eq_true_iff.mp want).1

/-- The channel of capacity 0 hands a request over when a receiver waits,
which a queue with room for one request subsumes. -/
def SendQueue.hasRoom (queue : SendQueue) (config : Config) : Bool :=
  decide (queue.ch.length < max config.sendBufferSize 1)

/-- Execute one operation on the send queue or a response channel. -/
def execQueue (config : Config) (shared : Shared) :
    QueueOp → Branch → Option Effect
  | .enqueue req, .first =>
      if req.oneway && req.streaming then none
      else some ⟨shared,
        [.queue (.rlock req (!req.wantServerResponse) .caller),
          .queue (.returned req)], []⟩
  | .returned req, .first =>
      some ⟨shared.log fun history =>
        { history with returned := history.returned ++ [req] }, [], []⟩
  | .close, .first =>
      match shared.closeOnce with
      | .fresh => some ⟨{ shared with closeOnce := .running },
          [.queue .closed], [[.close .cancel]]⟩
      | _ => some ⟨shared, [.queue .closed], []⟩
  | .closed, .first =>
      if shared.closeOnce = .done then some ⟨shared, [], []⟩ else none
  | .rlock req wait origin, .first =>
      some ⟨shared.onQueue fun queue => { queue with readers := queue.readers + 1 },
        [.queue (.check req wait origin)], []⟩
  | .check req wait origin, .first =>
      if shared.queue.closed then
        some ⟨shared, [.queue (.fail req errNodeClosed), .queue .unlock], []⟩
      else some ⟨shared, [.queue (.select req wait origin)], []⟩
  | .select req _ _, .first =>
      if shared.queue.hasRoom config then
        some ⟨shared.onQueue fun queue => { queue with ch := queue.ch ++ [req] },
          [.queue .unlock], []⟩
      else none
  | .select req wait _, .second =>
      if wait then
        match shared.ctxErr req.ctx with
        | none => none
        | some err =>
            some ⟨shared, [.queue (.fail req err), .queue .unlock], []⟩
      else if config.sendBufferSize ≤ shared.queue.ch.length then
        some ⟨shared,
          [.queue (.fail req errSendQueueFull), .queue .unlock], []⟩
      else none
  | .select req wait _, .third =>
      if wait && shared.ended 0 then
        some ⟨shared, [.queue (.fail req errNodeClosed), .queue .unlock], []⟩
      else none
  | .unlock, .first =>
      some ⟨shared.onQueue fun queue => { queue with readers := queue.readers - 1 },
        [], []⟩
  | .fail req err, .first =>
      if req.responseChan.isSome then
        some (sendErrorResponse config shared req err [])
      else
        some ⟨(shared.discard [req] .noChannel).onQueue fun queue =>
          { queue with dropped := queue.dropped + 1 }, [], []⟩
  | .deliver req resp last, .first =>
      if shared.noRoom req then none
      else some ⟨shared.log fun history =>
        { history with
          responses := history.responses ++ [⟨req, resp, last⟩] }, [], []⟩
  | .deliver req resp last, .second =>
      if shared.noRoom req then
        some ⟨shared, [.queue (.offer req resp last)], []⟩
      else none
  | .offer req resp last, .first =>
      if shared.noRoom req then none
      else some ⟨shared.log fun history =>
        { history with
          responses := history.responses ++ [⟨req, resp, last⟩] }, [], []⟩
  | .offer req _ last, .second =>
      if shared.ended req.ctx then
        some ⟨shared.discard (if last then [req] else []) .channelFull, [], []⟩
      else none
  | _, _ => none

/-- What one operation on the send queue or a response channel does. -/
inductive QueueDoes (config : Config) (shared : Shared) :
    QueueOp → Effect → Prop
  | enqueue :
      QueueDoes config shared (.enqueue req)
        ⟨shared,
          [.queue (.rlock req (!req.wantServerResponse) .caller),
            .queue (.returned req)], []⟩
  | returned :
      QueueDoes config shared (.returned req)
        ⟨shared.log fun history =>
          { history with returned := history.returned ++ [req] }, [], []⟩
  | close (fresh : shared.closeOnce = .fresh) :
      QueueDoes config shared .close
        ⟨{ shared with closeOnce := .running },
          [.queue .closed], [[.close .cancel]]⟩
  | closeAgain (called : ¬ shared.closeOnce = .fresh) :
      QueueDoes config shared .close ⟨shared, [.queue .closed], []⟩
  | closed (done : shared.closeOnce = .done) :
      QueueDoes config shared .closed ⟨shared, [], []⟩
  | rlock :
      QueueDoes config shared (.rlock req wait origin)
        ⟨shared.onQueue fun queue =>
            { queue with readers := queue.readers + 1 },
          [.queue (.check req wait origin)], []⟩
  | checkClosed (closed : shared.queue.closed = true) :
      QueueDoes config shared (.check req wait origin)
        ⟨shared, [.queue (.fail req errNodeClosed), .queue .unlock], []⟩
  | check (isOpen : ¬ shared.queue.closed = true) :
      QueueDoes config shared (.check req wait origin)
        ⟨shared, [.queue (.select req wait origin)], []⟩
  | push (room : shared.queue.hasRoom config = true) :
      QueueDoes config shared (.select req wait origin)
        ⟨shared.onQueue fun queue => { queue with ch := queue.ch ++ [req] },
          [.queue .unlock], []⟩
  | selectFailed :
      QueueDoes config shared (.select req wait origin)
        ⟨shared, [.queue (.fail req err), .queue .unlock], []⟩
  | unlock :
      QueueDoes config shared .unlock
        ⟨shared.onQueue fun queue =>
          { queue with readers := queue.readers - 1 }, [], []⟩
  | fail (chan : req.responseChan.isSome = true) :
      QueueDoes config shared (.fail req err)
        (sendErrorResponse config shared req err [])
  | drop (silent : ¬ req.responseChan.isSome = true) :
      QueueDoes config shared (.fail req err)
        ⟨(shared.discard [req] .noChannel).onQueue fun queue =>
          { queue with dropped := queue.dropped + 1 }, [], []⟩
  | deliver (delivers : op = .deliver req resp last ∨ op = .offer req resp last)
      (room : ¬ shared.noRoom req = true) :
      QueueDoes config shared op
        ⟨shared.log fun history =>
          { history with
            responses := history.responses ++ [⟨req, resp, last⟩] }, [], []⟩
  | full (full : shared.noRoom req = true) :
      QueueDoes config shared (.deliver req resp last)
        ⟨shared, [.queue (.offer req resp last)], []⟩
  | giveUp (ended : shared.ended req.ctx = true) :
      QueueDoes config shared (.offer req resp last)
        ⟨shared.discard (if last then [req] else []) .channelFull, [], []⟩

theorem execQueue_does {config : Config} {shared : Shared} {op : QueueOp}
    {branch : Branch} {outcome : Effect}
    (executed : execQueue config shared op branch = some outcome) :
    QueueDoes config shared op outcome := by
  revert executed
  fun_cases execQueue config shared op branch <;> rintro ⟨⟩
  all_goals first
    | exact .deliver (.inl rfl) ‹_›
    | exact .deliver (.inr rfl) ‹_›
    | constructor <;> assumption

end Stream
end Gorums
