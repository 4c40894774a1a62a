import Gorums.Stream.Pending
import Gorums.Stream.Backoff
import Gorums.Stream.Dispatch
import Mathlib.Tactic.Simps.Basic

/-!
# The state of a stream channel

The shared state of one channel and its sessions, and the atomic operations of
the goroutines that work on it.  An operation performs at most one access to
shared state: one atomic load or store, one section that holds a mutex, one
channel operation, or one call of a stream method.  Local variables of a
goroutine are arguments of its operations.

The fields under *history* record what has happened.  No operation reads them.
-/

namespace Gorums
namespace Stream

/-- Whether a channel dials its streams or serves one stream. -/
inductive Kind
  | outbound
  | inbound
  deriving DecidableEq

/-- The parameters of a channel. -/
structure Config where
  /-- Whether the channel dials. -/
  kind : Kind
  /-- The ID of the channel's node. -/
  id : ID
  /-- The send queue capacity. -/
  sendBufferSize : Nat
  /-- The number of received requests that can wait for the running handler. -/
  recvBufferSize : Nat
  /-- Whether the channel has a request handler. -/
  handler : Bool := true
  /-- Whether a lost stream is re-established eagerly. -/
  eagerReconnect : Bool := false
  /-- Whether handler replies wait for queue space. -/
  waitingReplies : Bool := false
  /-- Whether there is a stream-change callback. -/
  onStreamChange : Bool := true

/-- Values of `session.handoff`. -/
inductive Handoff
  | streamFresh
  | streamSendFailed
  | streamAccepted
  | streamClosed
  deriving DecidableEq

/-- The state of a channel for one stream. -/
structure Session where
  /-- Whether the peer's requests carry server-initiated IDs. -/
  serverRequests : Bool
  /-- Whether pending calls are queued again when the session ends. -/
  requeue : Bool
  /-- Set on a session opened after a refusal, before the server accepted any
  stream. -/
  suspect : Bool := false
  /-- Whether the session has ended. -/
  done : Bool := false
  /-- The calls that await responses on the stream. -/
  pending : PendingCalls := .empty
  /-- Whether the drain channel is closed. -/
  drain : Bool := false
  /-- Whether the session has started draining. -/
  draining : Bool := false
  /-- Whether the send loop has returned. -/
  sendStopped : Bool := false
  /-- Whether the server accepted the stream. -/
  accepted : Bool := false
  /-- How many times the verdict channel has been closed. -/
  verdict : Nat := 0
  /-- The refusal, if the server refused the stream. -/
  refusal : Option Err := none
  /-- Which goroutine disposes of the pending calls. -/
  handoff : Handoff := .streamFresh
  /-- History: the number of frames received. -/
  frames : Nat := 0
  /-- History: whether the acceptance header or a frame has arrived. -/
  arrived : Bool := false
  /-- History: the error that ended receiving. -/
  recvErr : Option Err := none

/-- The bounded FIFO of requests that await a stream send. -/
structure SendQueue where
  /-- The queued requests. -/
  ch : List Request := []
  /-- Whether the queue is closed. -/
  closed : Bool := false
  /-- How many goroutines hold the queue's mutex for reading. -/
  readers : Nat := 0
  /-- The number of requests dropped for want of a response channel. -/
  dropped : Nat := 0

/-- A response on a request's response channel; the last one finishes the
request. -/
structure Delivery where
  /-- The request. -/
  req : Request
  /-- The response. -/
  resp : Response
  /-- Whether the request is finished with it. -/
  last : Bool
  deriving DecidableEq

/-- Why a request finished without a response. -/
inductive Reason
  | noChannel
  | channelFull
  | expired
  | replaced
  deriving DecidableEq

/-- What became of a call that was pending when its session ended. -/
inductive Disposal
  | failed (err : Err)
  | requeued
  deriving DecidableEq

/-- Where a received frame went: to the handler, or to the pending call that
was found for it among the pending requests. -/
inductive Route
  | handler
  | response (found : Option Request) (pending : List Request)

/-- A frame that a session received and routed. -/
structure Routed where
  /-- The session that received the frame. -/
  session : Nat
  /-- The position of the frame on its stream. -/
  index : Nat
  /-- The frame. -/
  msg : Message
  /-- Where it went. -/
  route : Route

/-- A result of `session.outcome`. -/
structure Verdict where
  /-- The session. -/
  session : Nat
  /-- Whether the session had ended when `outcome` was called. -/
  ended : Bool
  /-- Whether the server accepted the stream. -/
  accepted : Bool
  /-- The refusal, if `outcome` returned one. -/
  refusal : Option Err

/-- What has happened on a channel. -/
structure History where
  /-- The responses delivered. -/
  responses : List Delivery := []
  /-- The requests that finished without a response. -/
  discarded : List (Request × Reason) := []
  /-- The requests whose `Enqueue` call has returned. -/
  returned : List Request := []
  /-- The messages passed to `Send`; `none` is the acceptance frame. -/
  sends : List (Nat × Option Request) := []
  /-- The results of `Send`. -/
  sent : List (Nat × Request × Option Err) := []
  /-- The calls that were left in a pending table when it was drained. -/
  left : List (Nat × Request) := []
  /-- What became of these calls. -/
  disposals : List (Nat × Request × Disposal) := []
  /-- The frames received and routed. -/
  routes : List Routed := []
  /-- The results of `outcome`. -/
  outcomes : List Verdict := []
  /-- The requests that the peer has received. -/
  received : List (Nat × Request) := []
  /-- The number of streams opened when the run loop last recorded a
  refusal. -/
  refusedAt : Option Nat := none
  /-- The calls of `setStreamUp`. -/
  recorded : List (Nat × Bool) := []
  /-- How often the stream came up or went down. -/
  changes : Nat := 0
  /-- The response channels that have had no room. -/
  crowded : List Nat := []
  /-- Whether the run loop, or the send goroutine of an inbound channel, has
  returned. -/
  mainReturned : Bool := false

/-- A received request that waits for its handler. -/
structure Job where
  /-- The session that received the request. -/
  session : Nat
  /-- The position of its frame on the stream. -/
  index : Nat
  /-- The request. -/
  msg : Message
  deriving DecidableEq

/-- The shared state of a channel. -/
structure Shared where
  /-- The error of each context that has ended; context 0 is the channel's. -/
  ctxErr : Nat → Option Err := fun _ => none
  /-- The clock. -/
  now : Nat := 0
  /-- Whether a response channel has no room. -/
  full : Nat → Bool := fun _ => false
  /-- The send queue. -/
  queue : SendQueue := {}
  /-- The outcome of the latest stream operation. -/
  lastErr : Option Err := none
  /-- The number of unmatched error replies. -/
  unmatchedErrors : Nat := 0
  /-- The dispatcher of received requests. -/
  requests : Dispatcher Job := {}
  /-- The sessions by the order in which their streams were opened. -/
  session : Nat → Session
  /-- The number of sessions opened so far. -/
  opened : Nat := 0
  /-- The sessions still receiving. -/
  receiving : List Nat := []
  /-- The session whose acceptance brings the stream up. -/
  live : Option Nat := none
  /-- Whether the stream is up. -/
  streamUp : Bool := false
  /-- The number of stream-change callbacks that have started. -/
  callbacks : Nat := 0
  /-- The counter of the wait group.  An inbound channel has none; there the
  counter records the send goroutine and `Serve`, and no operation reads it. -/
  wg : Nat := 0
  /-- The progress of the channel's `Close`. -/
  closeOnce : Once := .fresh
  /-- What has happened. -/
  history : History := {}

namespace Shared

/-- Whether a context has ended. -/
def ended (shared : Shared) (ctx : Nat) : Bool :=
  (shared.ctxErr ctx).isSome

/-- Whether a request's response channel has no room; a nil channel never
has. -/
def noRoom (shared : Shared) (req : Request) : Bool :=
  match req.responseChan with
  | none => true
  | some chan => shared.full chan

/-- Change the state of a session. -/
@[simps -fullyApplied ctxErr now full queue lastErr unmatchedErrors requests
  opened receiving live streamUp callbacks wg closeOnce history]
def update (shared : Shared) (k : Nat) (change : Session → Session) : Shared :=
  { shared with
    session := fun other =>
      if other = k then change (shared.session k) else shared.session other }

/-- Change the send queue. -/
@[simps -fullyApplied]
def onQueue (shared : Shared) (change : SendQueue → SendQueue) : Shared :=
  { shared with queue := change shared.queue }

/-- Record what has happened. -/
@[simps -fullyApplied]
def log (shared : Shared) (change : History → History) : Shared :=
  { shared with history := change shared.history }

/-- Cancel the channel's context. -/
@[simps -fullyApplied now full queue lastErr unmatchedErrors requests session
  opened receiving live streamUp callbacks wg closeOnce history]
def cancel (shared : Shared) : Shared :=
  { shared with
    ctxErr := fun ctx =>
      if ctx = 0 then some ((shared.ctxErr 0).getD .contextCanceled)
      else shared.ctxErr ctx }

/-- Record that requests finished without a response. -/
@[simp]
def discard (shared : Shared) (reqs : List Request) (reason : Reason) :
    Shared :=
  shared.log fun history =>
    { history with
      discarded := history.discarded ++ reqs.map fun req => (req, reason) }

@[simp] theorem update_session (shared : Shared) (k : Nat)
    (change : Session → Session) (other : Nat) :
    (shared.update k change).session other =
      if other = k then change (shared.session k) else shared.session other :=
  rfl

@[simp] theorem ended_update (shared : Shared) (k : Nat)
    (change : Session → Session) :
    (shared.update k change).ended = shared.ended := rfl

@[simp] theorem ended_onQueue (shared : Shared)
    (change : SendQueue → SendQueue) :
    (shared.onQueue change).ended = shared.ended := rfl

@[simp] theorem ended_log (shared : Shared) (change : History → History) :
    (shared.log change).ended = shared.ended := rfl

end Shared

/-! ## Operations -/

/-- Who pushes a request to the send queue. -/
inductive Origin
  | caller
  | retry
  | reply
  deriving DecidableEq

/-- Operations on the send queue and on response channels. -/
inductive QueueOp
  /-- A call of `Enqueue`. -/
  | enqueue (req : Request)
  /-- `Enqueue` returns. -/
  | returned (req : Request)
  /-- A call of `Close`. -/
  | close
  /-- `Close` returns once its body has run. -/
  | closed
  /-- `push`: lock the mutex for reading. -/
  | rlock (req : Request) (wait : Bool) (origin : Origin)
  /-- `push`: load `closed`. -/
  | check (req : Request) (wait : Bool) (origin : Origin)
  /-- `push`: the select. -/
  | select (req : Request) (wait : Bool) (origin : Origin)
  /-- `push`: unlock the mutex. -/
  | unlock
  /-- `sendQueue.fail`. -/
  | fail (req : Request) (err : Err)
  /-- `Request.deliver`: the first select. -/
  | deliver (req : Request) (resp : Response) (last : Bool)
  /-- `Request.deliver`: the second select. -/
  | offer (req : Request) (resp : Response) (last : Bool)

/-- Operations on a session that several goroutines perform. -/
inductive SessionOp
  /-- `recordHealth(nil)`: load the last error. -/
  | healthLoad
  /-- `recordHealth(nil)`: store nil. -/
  | healthClear
  /-- `recordHealth(err)`. -/
  | healthSet (err : Err)
  /-- Cancel the session. -/
  | cancel
  /-- `endIfDrained`: load `draining`. -/
  | ifDraining
  /-- `endIfDrained`: load `sendStopped`. -/
  | ifStopped
  /-- `endIfDrained`: the number of pending calls. -/
  | ifEmpty
  /-- `end(nil)`: cancel. -/
  | endCancel
  /-- `end(nil)`: drain the table. -/
  | endDrain
  /-- `retryOrFail`. -/
  | retryOrFail (req : Request) (err : Option Err)
  /-- `retryOrFail` of a streaming call: load the channel's context. -/
  | retryClosed (req : Request)
  /-- `handle`: take the pending call of a response. -/
  | take (index : Nat) (msg : Message)
  /-- `handle`: deliver a response to its call. -/
  | matched (req : Request) (resp : Response)
  /-- The callback of an expiry watch. -/
  | expire (watch : PendingCalls.Watch)
  /-- The stream-change callback. -/
  | callback

/-- Where `sendLoop` returns to. -/
inductive LoopReturn
  | run (backoff : Backoff)
  | serve

/-- The send loop of a session. -/
inductive SendOp
  /-- The select without a request in hand. -/
  | select
  /-- Load `done`. -/
  | ended (req : Request)
  /-- Load `draining`. -/
  | draining (req : Request)
  /-- Load the request's context. -/
  | ctx (req : Request)
  /-- Register a two-way request. -/
  | add (req : Request)
  /-- Call `Send`. -/
  | call (req : Request)
  /-- `Send` returns. -/
  | wait (req : Request)
  /-- `healthy`, after a completed send. -/
  | healthy (req : Request)
  /-- `sendFailed`: load the handoff state. -/
  | failed (req : Request) (err : Err)
  /-- `sendFailed`: compare and swap the handoff state. -/
  | swap (req : Request) (err : Err)
  /-- `fail`: load `done`. -/
  | fail (req : Request) (err : Err)
  /-- `end`: cancel. -/
  | cancel (req : Request) (err : Err)
  /-- `end`: drain the table. -/
  | drain (req : Request) (err : Err)
  /-- `sendFailed` has returned. -/
  | report (req : Request) (err : Err) (receiveDecides : Bool)
  /-- Wait for the verdict. -/
  | verdict (req : Request) (err : Err)
  /-- Fail a one-way request. -/
  | answer (req : Request) (err : Err)
  /-- `stopSending`, after the loop has returned. -/
  | stop (req : Option Request)

/-- What made the server's acceptance known. -/
inductive Acceptance
  | header
  | frame (index : Nat) (msg : Message)

/-- The receive goroutine of a session. -/
inductive RecvOp
  /-- Wait for the response headers. -/
  | header
  /-- Call `Recv`. -/
  | recv
  /-- Load `accepted`. -/
  | check (index : Nat) (msg : Message)
  /-- `accept`: store `accepted`. -/
  | accept (acceptance : Acceptance)
  /-- `accept`: store the handoff state. -/
  | handoff (acceptance : Acceptance)
  /-- `accept`: close the verdict channel. -/
  | verdict (acceptance : Acceptance)
  /-- `accept`: call `onAccept`. -/
  | up (acceptance : Acceptance)
  /-- `handle`: route a frame. -/
  | handle (index : Nat) (msg : Message)
  /-- `receiveFailed`: swap the handoff state. -/
  | swap (err : Err)
  /-- `receiveFailed`: set the refusal. -/
  | refusal (err : Err) (prev : Handoff)
  /-- `receiveFailed`: close the verdict channel. -/
  | close (err : Err) (prev : Handoff)
  /-- `receiveFailed`: read the refusal. -/
  | decide (err : Err) (prev : Handoff)
  /-- `fail`: load `done`. -/
  | ended (err : Err)
  /-- `end`: cancel. -/
  | cancel (err : Err)
  /-- `end`: drain the table. -/
  | drain (err : Err)
  /-- Forget the session. -/
  | exit

/-- The goroutine that watches for a GOAWAY, and other calls of
`startDrain`. -/
inductive WatchOp
  /-- Watch the state of the connection. -/
  | goAway
  /-- A call of `startDrain`, once the session exists. -/
  | call
  /-- `startDrain`: compare and swap `draining`. -/
  | start
  /-- `startDrain`: watch the expiry of pending calls. -/
  | watch
  /-- `startDrain`: close the drain channel. -/
  | close

/-- The run loop of an outbound channel. -/
inductive RunOp
  /-- `await`: the select. -/
  | await (backoff : Backoff)
  /-- `await`: a request arrived. -/
  | refusing (backoff : Backoff) (req : Request)
  /-- Load the channel's context. -/
  | ctx (backoff : Backoff) (req : Option Request)
  /-- Open a stream. -/
  | openStream (backoff : Backoff) (req : Option Request)
  /-- `streamFailed`: load the channel's context. -/
  | failed (backoff : Backoff) (req : Option Request) (err : Err)
  /-- `streamFailed`: record the error. -/
  | record (backoff : Backoff) (req : Option Request) (err : Err)
  /-- `setStreamUp(s, false)`. -/
  | down (k : Nat) (backoff : Backoff) (req : Option Request)
  /-- `outcome`: load `done`. -/
  | ended (k : Nat) (backoff : Backoff) (req : Option Request)
  /-- `outcome`: wait for the verdict. -/
  | verdict (k : Nat) (backoff : Backoff) (req : Option Request)
  /-- `outcome`: load `accepted`. -/
  | accepted (k : Nat) (backoff : Backoff) (req : Option Request)
      (hadEnded : Bool) (refusal : Option Err)
  /-- Decide whether to connect at once. -/
  | connect (k : Nat) (backoff : Backoff) (req : Option Request)

/-- The body of `Close`. -/
inductive CloseOp
  /-- Cancel the channel's context. -/
  | cancel
  /-- Inbound: end the session. -/
  | endCancel
  /-- Inbound: drain the session's table. -/
  | endDrain
  /-- Outbound: wait for the channel's goroutines, then close the connection. -/
  | wait
  /-- The body returns. -/
  | finish

/-- The send goroutine of an inbound channel, outside the send loop. -/
inductive InboundOp
  /-- `accept`: send the acceptance header. -/
  | header
  /-- `accept`: load the channel's context. -/
  | ctx
  /-- `accept`: send the acceptance frame. -/
  | frame
  /-- Fail the request that the send loop left. -/
  | left (req : Option Request)
  /-- Cancel the channel's context. -/
  | cancel

/-- Who closes the send queue. -/
inductive Closer
  | run
  | close
  | inbound
  deriving DecidableEq

/-- An atomic operation of a goroutine of the channel or of its users. -/
inductive Op
  | queue (op : QueueOp)
  | session (k : Nat) (op : SessionOp)
  | dispatch (op : DispatchOp Job)
  | send (k : Nat) (back : LoopReturn) (op : SendOp)
  | recv (k : Nat) (op : RecvOp)
  | watch (k : Nat) (op : WatchOp)
  | run (op : RunOp)
  | close (op : CloseOp)
  | inbound (op : InboundOp)
  /-- `sendQueue.close`: close the queue under its mutex. -/
  | lock (closer : Closer)
  /-- `sendQueue.close`: fail the requests left in the queue. -/
  | drainQueue (closer : Closer)
  /-- A goroutine of the channel returns: the run loop or the send goroutine of
  an inbound channel, or another one. -/
  | exit (main : Bool)

/-- What the scheduler and the environment decide in one step. -/
inductive Choice
  | pick (branch : Branch)
  | err (err : Err)
  | frame (msg : Message)
  | order (calls : List Request)
  | reply (msg : Message)

/-- What the environment does between steps. -/
inductive Event
  /-- A context ends. -/
  | endContext (ctx : Nat) (err : Err)
  /-- The end of the channel's context reaches a session. -/
  | propagate (k : Nat)
  /-- Time passes. -/
  | tick (duration : Nat)
  /-- A response channel fills up or gets room again. -/
  | setFull (chan : Nat) (full : Bool)
  /-- The peer receives the next message of a stream. -/
  | receive (k : Nat)

/-- The effect of an operation of a channel. -/
abbrev Effect := Pool.Outcome Shared Op

/-- A state of a channel with its goroutines. -/
abbrev ChannelState := Pool.State Shared Op

/-- A step of a channel. -/
abbrev Step := Pool.Label Choice Event

end Stream
end Gorums
