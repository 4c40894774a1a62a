import Gorums.Stream.Roster

/-!
# What never goes back

Most of what a channel's state says stays true once it is true: a closed queue
stays closed, a drained table stays drained, an ended context stays ended, and
what has happened has happened.
-/

namespace Gorums
namespace Stream

/-- The table is closed and has no calls left. -/
def PendingCalls.Drained (table : PendingCalls) : Prop :=
  table.closed = true ∧ table.calls = []

/-- What never goes back on a session. -/
@[mk_iff]
structure Session.Advances (before after : Session) : Prop where
  /-- The direction of the stream is fixed. -/
  serverRequests : after.serverRequests = before.serverRequests
  /-- So is what happens to its pending calls. -/
  requeue : after.requeue = before.requeue
  /-- So is whether it followed a refusal. -/
  suspect : after.suspect = before.suspect
  /-- An ended session stays ended. -/
  done : before.done = true → after.done = true
  /-- A drained table stays drained. -/
  drained : before.pending.Drained → after.pending.Drained
  /-- A draining session stays draining. -/
  draining : before.draining = true → after.draining = true
  /-- A send loop that has returned does not come back. -/
  sendStopped : before.sendStopped = true → after.sendStopped = true
  /-- An accepted stream stays accepted. -/
  accepted : before.accepted = true → after.accepted = true
  /-- So does what showed the acceptance. -/
  arrived : before.arrived = true → after.arrived = true
  /-- A verdict is not taken back. -/
  verdict : before.verdict ≤ after.verdict

@[simp] theorem Session.Advances.refl (session : Session) :
    session.Advances session := by
  constructor <;> simp

/-- What has happened has happened. -/
structure History.Advances (before after : History) : Prop where
  /-- Responses have been delivered. -/
  responses : before.responses <+: after.responses
  /-- Requests have been discarded. -/
  discarded : before.discarded <+: after.discarded
  /-- Calls of `Enqueue` have returned. -/
  returned : before.returned <+: after.returned
  /-- Messages have been passed to `Send`. -/
  sends : before.sends <+: after.sends
  /-- Sends have returned. -/
  sent : before.sent <+: after.sent
  /-- Calls have been left. -/
  left : before.left <+: after.left
  /-- Calls have been disposed of. -/
  disposals : before.disposals <+: after.disposals
  /-- Frames have been routed. -/
  routes : before.routes <+: after.routes
  /-- Outcomes have been computed. -/
  outcomes : before.outcomes <+: after.outcomes
  /-- Response channels have had no room. -/
  crowded : before.crowded <+: after.crowded
  /-- The run loop or the send goroutine has returned. -/
  mainReturned : before.mainReturned = true → after.mainReturned = true

@[simp] theorem History.Advances.refl (history : History) :
    history.Advances history := by
  constructor <;> simp

/-- What never goes back on a channel. -/
structure Shared.Advances (before after : Shared) : Prop where
  /-- A closed queue stays closed. -/
  closed : before.queue.closed = true → after.queue.closed = true
  /-- An ended context keeps its error. -/
  ctxErr : ∀ ctx err, before.ctxErr ctx = some err → after.ctxErr ctx = some err
  /-- Sessions are only opened. -/
  opened : before.opened ≤ after.opened
  /-- Sessions only advance. -/
  session : ∀ k, k < before.opened → (before.session k).Advances (after.session k)
  /-- What has happened has happened. -/
  history : before.history.Advances after.history

namespace Shared.Advances

variable {shared base : Shared}

@[simp] theorem refl (shared : Shared) : shared.Advances shared := by
  constructor <;> simp

theorem ended (advances : shared.Advances base) {ctx : Nat}
    (ended : shared.ended ctx = true) : base.ended ctx = true := by
  obtain ⟨err, equal⟩ := Option.isSome_iff_exists.mp ended
  exact Option.isSome_iff_exists.mpr ⟨err, advances.ctxErr ctx err equal⟩

end Shared.Advances

/-- Changing one session advances every session if it advances that one. -/
theorem Session.Advances.update {shared : Shared} {k : Nat}
    {change : Session → Session}
    (advances : (shared.session k).Advances (change (shared.session k)))
    (other : Nat) :
    (shared.session other).Advances ((shared.update k change).session other) := by
  by_cases equal : other = k
  · simpa [equal] using advances
  · simp [equal]

/-- Replacing a table advances a session if a drained table stays drained. -/
theorem Session.Advances.setPending {shared : Shared} {k : Nat}
    {pending : PendingCalls}
    (drained : (shared.session k).pending.Drained → pending.Drained)
    (other : Nat) :
    (shared.session other).Advances ((shared.setPending k pending).session other) :=
  .update (by constructor <;> first | exact drained | simp) other

namespace PendingCalls

theorem Drained.take {table taken : PendingCalls} {msgID : UInt64}
    {found : Option Request} (took : table.take msgID = (found, taken))
    (drained : table.Drained) : taken.Drained := by
  obtain ⟨closed, empty⟩ := drained
  simp only [PendingCalls.take, lookup, empty, List.find?_nil,
    Option.map_none] at took
  cases took
  exact ⟨closed, empty⟩

theorem Drained.expire {table expired : PendingCalls} {watch : Watch}
    {found : Option Request} (removal : table.expire watch = (found, expired))
    (drained : table.Drained) : expired.Drained := by
  obtain ⟨closed, empty⟩ := drained
  simp only [PendingCalls.expire, lookup, empty, List.find?_nil,
    Option.map_none] at removal
  cases removal
  exact ⟨closed, empty⟩

theorem Drained.watchExpiry {table : PendingCalls} (drained : table.Drained) :
    table.watchExpiry.Drained := by
  obtain ⟨closed, empty⟩ := drained
  unfold PendingCalls.watchExpiry
  split
  · exact ⟨closed, empty⟩
  · exact ⟨closed, by simp [empty]⟩

theorem drained_drain (table : PendingCalls) : table.drain.Drained := ⟨rfl, rfl⟩

/-- Nothing is added to a drained table. -/
theorem Drained.add {table added : PendingCalls} {ended : Nat → Bool}
    {msgID : UInt64} {req : Request}
    (recorded : table.add ended msgID req = some added) :
    ¬ table.Drained := by
  rintro ⟨closed, _⟩
  simp [PendingCalls.add, closed] at recorded

end PendingCalls

section Progress

variable {config : Config} {shared : Shared} {outcome : Effect}

/-- A step that closes no queue, ends no context and opens no stream. -/
theorem Shared.Advances.of_sessions {after : Shared}
    (closed : after.queue.closed = shared.queue.closed)
    (ctxErr : after.ctxErr = shared.ctxErr)
    (opened : after.opened = shared.opened)
    (session : ∀ k, (shared.session k).Advances (after.session k))
    (history : shared.history.Advances after.history) :
    shared.Advances after :=
  ⟨fun before => closed.trans before, fun _ _ before => ctxErr ▸ before,
    Nat.le_of_eq opened.symm, fun k _ => session k, history⟩

theorem advances_update {k : Nat} {change : Session → Session}
    (session : (shared.session k).Advances (change (shared.session k))) :
    shared.Advances (shared.update k change) :=
  .of_sessions rfl rfl rfl session.update (.refl _)

theorem advances_session {k : Nat} {op : SessionOp}
    (does : SessionDoes config shared k op outcome) :
    shared.Advances outcome.shared := by
  cases does with
  | cancel | endCancel =>
      dsimp only [Shared.cancelSession]
      exact advances_update (by constructor <;> simp)
  | endDrain =>
      exact .of_sessions rfl rfl rfl
        (fun _ => .setPending (fun _ => PendingCalls.drained_drain _) _)
        (by constructor <;> simp [drainCalls])
  | unmatched took | take took =>
      exact .of_sessions rfl rfl rfl
        (fun _ => .setPending (PendingCalls.Drained.take took) _)
        (by constructor <;> simp)
  | expire ended removal =>
      exact .of_sessions rfl rfl rfl
        (fun _ => .setPending (PendingCalls.Drained.expire removal) _)
        (by constructor <;> simp)
  | _ =>
      exact .of_sessions rfl rfl rfl (fun _ => .refl _)
        (by constructor <;> simp)

theorem advances_send {k : Nat} {back : LoopReturn} {op : SendOp}
    {choice : Choice} (does : SendDoes config shared choice k back op outcome) :
    shared.Advances outcome.shared := by
  cases does with
  | add want added =>
      exact .of_sessions rfl rfl rfl
        (fun _ => .setPending
          (fun drained => absurd drained (PendingCalls.Drained.add added)) _)
        (by constructor <;> simp)
  | drain =>
      exact .of_sessions rfl rfl rfl
        (fun _ => .setPending (fun _ => PendingCalls.drained_drain _) _)
        (by constructor <;> simp [drainCalls])
  | swap | cancel | stopRun | stopServe =>
      dsimp only [Shared.setHandoff, Shared.cancelSession, Shared.stopSending]
      exact advances_update (by constructor <;> simp)
  | _ =>
      exact .of_sessions rfl rfl rfl (fun _ => .refl _)
        (by constructor <;> simp)

theorem advances_recv {k : Nat} {op : RecvOp} {choice : Choice}
    (does : RecvDoes config shared choice k op outcome) :
    shared.Advances outcome.shared := by
  cases does with
  | drain =>
      exact .of_sessions rfl rfl rfl
        (fun _ => .setPending (fun _ => PendingCalls.drained_drain _) _)
        (by constructor <;> simp [drainCalls])
  | header | frame | accept | handoff | verdict | swap | refusal | close |
    cancel =>
      dsimp only [Shared.setHandoff, Shared.closeVerdict, Shared.cancelSession]
      exact advances_update (by constructor <;> simp)
  | _ =>
      exact .of_sessions rfl rfl rfl (fun _ => .refl _)
        (by constructor <;> simp)

theorem advances_openStream (backoff : Backoff) (loop : SendOp) :
    shared.Advances (openStream shared backoff loop).shared := by
  refine ⟨by simp [openStream, Shared.openSession],
    by simp [openStream, Shared.openSession],
    by simp [openStream, Shared.openSession], fun other inside => ?_,
    by constructor <;> simp [openStream, Shared.openSession]⟩
  simp [openStream, Shared.openSession, Nat.ne_of_lt inside]

/-- Canceling the channel's context keeps the errors of ended contexts. -/
theorem ctxErr_cancel {ctx : Nat} {err : Err}
    (ended : shared.ctxErr ctx = some err) :
    shared.cancel.ctxErr ctx = some err := by
  by_cases own : ctx = 0
  · subst own
    simp [Shared.cancel, ended]
  · simpa [Shared.cancel, own] using ended

theorem advances_cancel : shared.Advances shared.cancel :=
  ⟨by simp, fun _ _ => ctxErr_cancel, by simp, fun _ _ => .refl _,
    by constructor <;> simp⟩

/-- Nothing goes back on a channel. -/
theorem advances_exec {op : Op} {choice : Choice}
    (executed : exec config shared op choice = some outcome) :
    shared.Advances outcome.shared := by
  cases exec_does executed with
  | session inside does => exact advances_session does
  | send inside does => exact advances_send does
  | recv inside does => exact advances_recv does
  | run opened does =>
      cases does with
      | openIdle | openStream => exact advances_openStream _ _
      | _ =>
          exact .of_sessions rfl rfl rfl (fun _ => .refl _)
            (by constructor <;> simp [recordFailure])
  | queue does =>
      cases does <;> exact .of_sessions rfl rfl rfl (fun _ => .refl _)
        (by constructor <;> simp)
  | drainFirst | closeDrain | endCancel =>
      dsimp only [Shared.cancelSession]
      exact advances_update (by constructor <;> simp)
  | watchExpiry =>
      exact .of_sessions rfl rfl rfl
        (fun _ => .setPending PendingCalls.Drained.watchExpiry _) (.refl _)
  | closeOutbound | closeInbound | inboundCancel => exact advances_cancel
  | endDrain =>
      exact .of_sessions rfl rfl rfl
        (fun _ => .setPending (fun _ => PendingCalls.drained_drain _) _)
        (by constructor <;> simp [drainCalls])
  | lock =>
      exact ⟨by simp, by simp, by simp, fun _ _ => .refl _, .refl _⟩
  | _ =>
      exact .of_sessions rfl rfl rfl (fun _ => .refl _)
        (by constructor <;> simp +contextual [exited, liftDispatch, reply])

theorem advances_environment {event : Event} {after : Shared}
    (acted : environment shared event = some after) :
    shared.Advances after := by
  cases environment_acts acted with
  | @endContext ctx err isOpen =>
      refine ⟨by simp, fun other err ended => ?_, by simp, fun _ _ => .refl _,
        .refl _⟩
      by_cases equal : other = ctx
      · subst equal
        simp_all [Shared.ended]
      · simpa [equal] using ended
  | propagate =>
      dsimp only [Shared.cancelSession]
      exact advances_update (by constructor <;> simp)
  | _ =>
      exact .of_sessions rfl rfl rfl (fun _ => .refl _)
        (by constructor <;> simp)

end Progress

section Runs

open Pool

variable {config : Config} {workload : Workload}
  {allowed : ChannelState → Step → Prop} {state next : ChannelState}
  {thread : Nat} {choice : Choice}

/-- Only the main goroutine goes on as the main goroutine. -/
theorem main_of_fresh (reached : config.Reaches workload allowed state)
    (permitted : allowed state (.run thread choice))
    (runs : (channel config).Runs state thread choice next) {op : Op}
    (fresh : op ∈ runs.fresh) (plays : .main ∈ op.roles) :
    .main ∈ runs.op.roles := by
  by_contra apart
  have before : (roster .main).weigh state.ops = _ :=
    weigh_roster (by simp) reached
  have after : (roster .main).weigh next.ops = _ :=
    weigh_roster (by simp) (reached.step _ permitted runs.step_eq)
  rw [(roster .main).weigh_perm runs.ops_perm, Ledger.weigh_cons] at before
  rw [(roster .main).weigh_perm runs.next_ops_perm, Ledger.weigh_append,
    runs.next_shared] at after
  have light : (roster .main).weight runs.op = 0 := List.count_eq_zero.mpr apart
  have heavy : 0 < (roster .main).weight op := List.count_pos_iff.mpr plays
  have held := (roster .main).weight_le_weigh fresh
  have bound : (roster .main).debit runs.outcome.shared ≤
      (roster .main).debit state.shared := by
    have returned := (advances_exec runs.exec_eq).history.mainReturned
    simp only [roster_debit, cast]
    split <;> split <;> simp_all
  omega

end Runs

end Stream
end Gorums
