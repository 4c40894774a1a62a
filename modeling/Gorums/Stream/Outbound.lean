import Gorums.Stream.Session

/-!
# Outbound channels

The run loop of an outbound channel, which opens streams and sends queued
requests on them, and the goroutine that watches a stream's connection for a
GOAWAY.  The session of a stream is created in the step that opens the stream.
-/

namespace Gorums
namespace Stream

/-- The session that `open` creates. -/
def openedSession (suspect : Bool) : Session :=
  { serverRequests := true, requeue := true, suspect := suspect }

/-- The state after `open` has created the session of a new stream. -/
def Shared.openSession (shared : Shared) (suspect : Bool) : Shared :=
  { shared.update shared.opened fun _ => openedSession suspect with
    opened := shared.opened + 1
    receiving := shared.opened :: shared.receiving
    live := some shared.opened
    wg := shared.wg + 2 }

/-- `open`, once the stream exists: a new session with its receive goroutine
and the goroutine that watches for a GOAWAY. -/
def openStream (shared : Shared) (backoff : Backoff) (loop : SendOp) :
    Effect :=
  ⟨shared.openSession backoff.suspect,
    [.send shared.opened (.run backoff) loop],
    [[.recv shared.opened .header], [.watch shared.opened .goAway]]⟩

/-- `streamFailed` records the error on the channel and in the backoff. -/
def recordFailure (shared : Shared) (backoff : Backoff)
    (req : Option Request) (err : Err) : Effect :=
  ⟨({ shared with lastErr := some err }).log fun history =>
      { history with
        refusedAt :=
          if isRefusal err then some shared.opened else history.refusedAt },
    failRequest req err ++ [.run (.await (backoff.failed err shared.now))], []⟩

/-- Record the result of `outcome`. -/
@[simp]
def Shared.logOutcome (shared : Shared) (k : Nat) (hadEnded : Bool)
    (refusal : Option Err) : Shared :=
  shared.log fun history =>
    { history with
      outcomes := history.outcomes ++
        [⟨k, hadEnded, (shared.session k).accepted, refusal⟩] }

/-- The backoff after `outcome`. -/
def Backoff.after (backoff : Backoff) (accepted : Bool) : Backoff :=
  if accepted then backoff.recovered else backoff

/-- Execute one operation of the run loop. -/
def execRun (config : Config) (shared : Shared) :
    RunOp → Choice → Option Effect
  | .await _, .pick .first =>
      if shared.ended 0 then some ⟨shared, [.lock .run], []⟩ else none
  | .await backoff, .pick .second =>
      match shared.queue.ch with
      | [] => none
      | req :: rest =>
          some ⟨shared.onQueue fun queue => { queue with ch := rest },
            [.run (.refusing backoff req)], []⟩
  | .await backoff, .pick .third =>
      match backoff.retry with
      | none => none
      | some due =>
          if due ≤ shared.now then
            some ⟨shared, [.run (.ctx backoff none)], []⟩
          else none
  | .refusing backoff req, .pick .first =>
      match backoff.refusing shared.now with
      | some err =>
          some ⟨shared,
            [.queue (.fail req err), .run (.await backoff)], []⟩
      | none => some ⟨shared, [.run (.ctx backoff (some req))], []⟩
  | .ctx backoff req, .pick .first =>
      if shared.ended 0 then
        some ⟨shared, failRequest req errNodeClosed ++ [.lock .run], []⟩
      else some ⟨shared, [.run (.openStream backoff.attempt req)], []⟩
  | .openStream backoff none, .pick .first =>
      some (openStream shared backoff .select)
  | .openStream backoff (some req), .pick .first =>
      some (openStream shared backoff (.ended req))
  | .openStream backoff req, .err err =>
      some ⟨shared, [.run (.failed backoff req err)], []⟩
  | .failed backoff req err, .pick .first =>
      if shared.ended 0 then
        some ⟨shared,
          failRequest req errNodeClosed ++ [.run (.await backoff)], []⟩
      else some ⟨shared, [.run (.record backoff req err)], []⟩
  | .record backoff req err, .pick .first =>
      some (recordFailure shared backoff req err)
  | .down k backoff req, .pick .first =>
      some (setStreamUp config shared k false [.run (.ended k backoff req)])
  | .ended k backoff req, .pick .first =>
      some ⟨shared,
        if (shared.session k).done then [.run (.verdict k backoff req)]
        else [.run (.accepted k backoff req false none)], []⟩
  | .verdict k backoff req, .pick .first =>
      if (shared.session k).verdict = 0 then none
      else some ⟨shared,
        [.run (.accepted k backoff req true (shared.session k).refusal)], []⟩
  | .accepted k backoff req hadEnded none, .pick .first =>
      some ⟨shared.logOutcome k hadEnded none,
        [.run (.connect k (backoff.after (shared.session k).accepted) req)], []⟩
  | .accepted k backoff req hadEnded (some refusal), .pick .first =>
      some ⟨shared.logOutcome k hadEnded (some refusal),
        [.run (.failed (backoff.after (shared.session k).accepted) req
          refusal)], []⟩
  | .connect k backoff req, .pick .first =>
      some ⟨shared,
        if req.isSome || ((shared.session k).draining && config.eagerReconnect)
        then [.run (.ctx backoff req)]
        else [.run (.await (backoff.pace shared.now))], []⟩
  | _, _ => none

/-- Execute one operation of the goroutine that watches for a GOAWAY, or of a
call of `startDrain`. -/
def execWatch (shared : Shared) (k : Nat) : WatchOp → Choice → Option Effect
  | .goAway, .pick .first =>
      if (shared.session k).done then some ⟨shared, [.exit false], []⟩ else none
  | .goAway, .pick .second => some ⟨shared, [.watch k .start, .exit false], []⟩
  | .call, .pick .first =>
      if k < shared.opened then some ⟨shared, [.watch k .start], []⟩ else none
  | .start, .pick .first =>
      if (shared.session k).draining then
        some ⟨shared, [.session k .ifDraining], []⟩
      else
        some ⟨shared.update k fun session => { session with draining := true },
          [.watch k .watch], []⟩
  | .watch, .pick .first =>
      some ⟨shared.setPending k (shared.session k).pending.watchExpiry,
        [.watch k .close], watchers k (shared.session k).pending.watches⟩
  | .close, .pick .first =>
      some ⟨shared.update k fun session => { session with drain := true },
        [.session k .ifDraining], []⟩
  | _, _ => none

/-- What one operation of the run loop does. -/
inductive RunDoes (config : Config) (shared : Shared) : RunOp → Effect → Prop
  | awaitEnded (ended : shared.ended 0 = true) :
      RunDoes config shared (.await backoff) ⟨shared, [.lock .run], []⟩
  | await (queued : shared.queue.ch = req :: rest) :
      RunDoes config shared (.await backoff)
        ⟨shared.onQueue fun queue => { queue with ch := rest },
          [.run (.refusing backoff req)], []⟩
  | retry (retries : backoff.retry = some due)
      (passed : due ≤ shared.now) :
      RunDoes config shared (.await backoff)
        ⟨shared, [.run (.ctx backoff none)], []⟩
  | refuse (refuses : backoff.refusing shared.now = some err) :
      RunDoes config shared (.refusing backoff req)
        ⟨shared, [.queue (.fail req err), .run (.await backoff)], []⟩
  | refusing (accepts : backoff.refusing shared.now = none) :
      RunDoes config shared (.refusing backoff req)
        ⟨shared, [.run (.ctx backoff (some req))], []⟩
  | ctxEnded (ended : shared.ended 0 = true) :
      RunDoes config shared (.ctx backoff req)
        ⟨shared, failRequest req errNodeClosed ++ [.lock .run], []⟩
  | ctx (isOpen : ¬ shared.ended 0 = true) :
      RunDoes config shared (.ctx backoff req)
        ⟨shared, [.run (.openStream backoff.attempt req)], []⟩
  | openIdle :
      RunDoes config shared (.openStream backoff none)
        (openStream shared backoff .select)
  | openStream :
      RunDoes config shared (.openStream backoff (some req))
        (openStream shared backoff (.ended req))
  | openFailed :
      RunDoes config shared (.openStream backoff req)
        ⟨shared, [.run (.failed backoff req err)], []⟩
  | failedEnded (ended : shared.ended 0 = true) :
      RunDoes config shared (.failed backoff req err)
        ⟨shared,
          failRequest req errNodeClosed ++ [.run (.await backoff)], []⟩
  | failed (isOpen : ¬ shared.ended 0 = true) :
      RunDoes config shared (.failed backoff req err)
        ⟨shared, [.run (.record backoff req err)], []⟩
  | record :
      RunDoes config shared (.record backoff req err)
        (recordFailure shared backoff req err)
  | down :
      RunDoes config shared (.down k backoff req)
        (setStreamUp config shared k false [.run (.ended k backoff req)])
  | ended :
      RunDoes config shared (.ended k backoff req)
        ⟨shared,
          if (shared.session k).done then [.run (.verdict k backoff req)]
          else [.run (.accepted k backoff req false none)], []⟩
  | verdict (decided : ¬ (shared.session k).verdict = 0) :
      RunDoes config shared (.verdict k backoff req)
        ⟨shared,
          [.run (.accepted k backoff req true (shared.session k).refusal)], []⟩
  | accepted :
      RunDoes config shared (.accepted k backoff req hadEnded none)
        ⟨shared.logOutcome k hadEnded none,
          [.run (.connect k (backoff.after (shared.session k).accepted) req)],
          []⟩
  | refused :
      RunDoes config shared (.accepted k backoff req hadEnded (some refusal))
        ⟨shared.logOutcome k hadEnded (some refusal),
          [.run (.failed (backoff.after (shared.session k).accepted) req
            refusal)], []⟩
  | connect :
      RunDoes config shared (.connect k backoff req)
        ⟨shared,
          if req.isSome || ((shared.session k).draining && config.eagerReconnect)
          then [.run (.ctx backoff req)]
          else [.run (.await (backoff.pace shared.now))], []⟩

theorem execRun_does {config : Config} {shared : Shared} {op : RunOp}
    {choice : Choice} {outcome : Effect}
    (executed : execRun config shared op choice = some outcome) :
    RunDoes config shared op outcome := by
  revert executed
  fun_cases execRun config shared op choice <;> rintro ⟨⟩
  all_goals constructor <;> assumption

end Stream
end Gorums
