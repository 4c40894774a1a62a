import Gorums.Stream.Errors

/-!
# Pacing of stream attempts

The local state with which the run loop of an outbound channel paces its
attempts to open a stream.  Times are nanoseconds of a clock that the
environment advances.
-/

namespace Gorums
namespace Stream

/-- The first delay between eager reconnect attempts. -/
def eagerReconnectBaseDelay : Nat := 50000000

/-- The largest delay between eager reconnect attempts. -/
def eagerReconnectMaxDelay : Nat := 2000000000

/-- The pacing state of the run loop. -/
structure Backoff where
  /-- Whether the channel reconnects eagerly. -/
  eager : Bool
  /-- The next delay. -/
  delay : Nat := eagerReconnectBaseDelay
  /-- When the retry timer fires; `none` is a nil timer channel. -/
  retry : Option Nat := none
  /-- The latest refusal, until the server accepts a stream. -/
  refusal : Option Err := none
  /-- When the delay after the refusal ends. -/
  untilTime : Nat := 0

namespace Backoff

/-- Discard the retry timer of the previous attempt. -/
def attempt (backoff : Backoff) : Backoff :=
  { backoff with retry := none }

/-- Whether the server has accepted no stream since the latest refusal. -/
def suspect (backoff : Backoff) : Bool :=
  backoff.refusal.isSome

/-- Start over after the server accepted a stream. -/
def recovered (backoff : Backoff) : Backoff :=
  { backoff with delay := eagerReconnectBaseDelay, refusal := none }

/-- Double the delay that starts now. -/
def doubled (backoff : Backoff) : Backoff :=
  { backoff with delay := min (2 * backoff.delay) eagerReconnectMaxDelay }

/-- Set the retry timer for the next attempt under eager reconnect. -/
def pace (backoff : Backoff) (now : Nat) : Backoff :=
  if backoff.eager then
    { backoff.doubled with retry := some (now + backoff.delay) }
  else backoff

/-- Record a failed attempt. -/
def failed (backoff : Backoff) (err : Err) (now : Nat) : Backoff :=
  if isRefusal err then
    { backoff.doubled with
      refusal := some err
      untilTime := now + backoff.delay
      retry :=
        if backoff.eager then some (now + backoff.delay) else backoff.retry }
  else backoff.pace now

/-- The refusal that requests fail with, or `none` once its delay has ended. -/
def refusing (backoff : Backoff) (now : Nat) : Option Err :=
  if now < backoff.untilTime then backoff.refusal else none

end Backoff

end Stream
end Gorums
