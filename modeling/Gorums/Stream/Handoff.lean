import Gorums.Stream.Transmission

/-!
# The handoff between sender and receiver

The receive goroutine of a session decides whether the server accepted or
refused the stream, and closes the verdict channel once.  The send loop of an
outbound session leaves the pending calls to it whenever a send fails with
`io.EOF`.
-/

namespace Gorums
namespace Stream

/-! ## Phases of a session -/

/-- The refusal with which receiving ends before the server accepted the
stream. -/
def refusalOf (requeue : Bool) (err : Err) : Option Err :=
  if requeue && isRefusal err then some err else none

/-- Neither the receive goroutine nor a failed send has closed the handoff. -/
def Handoff.IsOpen (handoff : Handoff) : Prop :=
  handoff = .streamFresh ∨ handoff = .streamSendFailed

/-- What the sender and the receiver of a session settle between them. -/
structure Ruling where
  /-- Whether the server accepted the stream. -/
  accepted : Bool
  /-- How many times the verdict channel has been closed. -/
  verdict : Nat
  /-- The refusal, if the server refused the stream. -/
  refusal : Option Err
  /-- The error that ended receiving. -/
  recvErr : Option Err
  /-- Which goroutine disposes of the pending calls. -/
  handoff : Handoff
  /-- Whether pending calls are queued again when the session ends. -/
  requeue : Bool

/-- The ruling on a session. -/
@[simps]
def Session.ruling (session : Session) : Ruling where
  accepted := session.accepted
  verdict := session.verdict
  refusal := session.refusal
  recvErr := session.recvErr
  handoff := session.handoff
  requeue := session.requeue

/-- The server has neither accepted nor refused the stream. -/
@[mk_iff]
structure Ruling.Undecided (ruling : Ruling) : Prop where
  /-- The stream is not accepted. -/
  accepted : ruling.accepted = false
  /-- The verdict channel is open. -/
  verdict : ruling.verdict = 0
  /-- There is no refusal. -/
  refusal : ruling.refusal = none
  /-- Receiving goes on. -/
  recvErr : ruling.recvErr = none
  /-- The handoff is open. -/
  handoff : ruling.handoff.IsOpen

/-- The server has accepted the stream, and receiving goes on. -/
@[mk_iff]
structure Ruling.Accepted (ruling : Ruling) : Prop where
  /-- The stream is accepted. -/
  accepted : ruling.accepted = true
  /-- The verdict channel has been closed once. -/
  verdict : ruling.verdict = 1
  /-- There is no refusal. -/
  refusal : ruling.refusal = none
  /-- Receiving goes on. -/
  recvErr : ruling.recvErr = none
  /-- The handoff is closed. -/
  handoff : ruling.handoff = .streamAccepted

/-- Receiving has ended with an error, and the verdict is known. -/
@[mk_iff]
structure Ruling.Ended (ruling : Ruling) (err : Err) : Prop where
  /-- The verdict channel has been closed once. -/
  verdict : ruling.verdict = 1
  /-- Receiving ended with this error. -/
  recvErr : ruling.recvErr = some err
  /-- The handoff is closed. -/
  handoff : ruling.handoff = .streamClosed
  /-- A stream that was not accepted may have been refused. -/
  refusal : ruling.refusal =
    if ruling.accepted then none else refusalOf ruling.requeue err

/-- What a receive goroutine knows about its ruling. -/
@[simp]
def RecvOp.Ruled (ruling : Ruling) : RecvOp → Prop
  | .header => ruling.Undecided
  | .recv => ruling.Undecided ∨ ruling.Accepted
  | .check _ _ => ruling.Undecided ∨ ruling.Accepted
  | .accept _ => ruling.Undecided
  | .handoff _ =>
      ruling.accepted = true ∧ ruling.verdict = 0 ∧ ruling.refusal = none ∧
        ruling.recvErr = none ∧ ruling.handoff.IsOpen
  | .verdict _ =>
      ruling.accepted = true ∧ ruling.verdict = 0 ∧ ruling.refusal = none ∧
        ruling.recvErr = none ∧ ruling.handoff = .streamAccepted
  | .up _ => ruling.Accepted
  | .handle _ _ => ruling.Accepted
  | .swap _ => ruling.Undecided ∨ ruling.Accepted
  | .refusal err _ =>
      ruling.accepted = false ∧ ruling.verdict = 0 ∧
        ruling.refusal = none ∧ ruling.recvErr = some err ∧
        ruling.handoff = .streamClosed
  | .close err _ =>
      ruling.accepted = false ∧ ruling.verdict = 0 ∧
        ruling.refusal = refusalOf ruling.requeue err ∧
        ruling.recvErr = some err ∧ ruling.handoff = .streamClosed
  | .decide err _ => ruling.Ended err
  | .ended err => ruling.Ended err
  | .cancel err => ruling.Ended err
  | .drain err => ruling.Ended err
  | .exit => ∃ err, ruling.Ended err

/-- What a send loop of an outbound session knows: its sends fail only with
`io.EOF`, so it never ends the session itself. -/
@[simp]
def SendOp.Ruled : SendOp → Prop
  | .failed _ err => err.isEOF = true
  | .swap _ err => err.isEOF = true
  | .fail _ _ => False
  | .cancel _ _ => False
  | .drain _ _ => False
  | _ => True

/-- The calls that a session leaves are disposed of after receiving has
ended. -/
@[simp]
def SessionOp.Ruled (ruling : Ruling) : SessionOp → Prop
  | .retryOrFail _ err => ∃ reason, err = some reason ∧ ruling.Ended reason
  | .retryClosed req =>
      req.streaming = true ∧ ruling.refusal = none ∧
        ∃ reason, ruling.Ended reason ∧ isResourceExhausted (some reason) = false
  | _ => True

/-- What `outcome` knows about an ended session. -/
@[simp]
def RunOp.Ruled (session : Nat → Session) : RunOp → Prop
  | .accepted k _ _ hadEnded refusal =>
      hadEnded = true →
        (session k).ruling.verdict ≠ 0 ∧ refusal = (session k).ruling.refusal
  | _ => True

/-- Only an inbound channel ends its session when it is closed. -/
@[simp]
def CloseOp.Ruled : CloseOp → Prop
  | .endCancel => False
  | .endDrain => False
  | _ => True

/-- What an operation of an outbound channel knows about verdicts. -/
def Op.Ruled (shared : Shared) : Op → Prop
  | .queue _ => True
  | .session k op => op.Ruled (shared.session k).ruling
  | .dispatch _ => True
  | .send _ _ op => op.Ruled
  | .recv k op => op.Ruled (shared.session k).ruling
  | .watch _ _ => True
  | .run op => op.Ruled shared.session
  | .close op => op.Ruled
  | .inbound _ => True
  | .lock _ => True
  | .drainQueue _ => True
  | .exit _ => True

/-- Failing sends return `io.EOF`, as gRPC has it once a stream has ended. -/
def sendsFailWithEOF (state : ChannelState) : Step → Bool
  | .run thread (.err err) =>
      match state.head? thread with
      | some (.send _ _ (.wait _)) => err.isEOF
      | _ => true
  | _ => true

/-! ## Who changes a ruling -/

/-- What an operation can do to the ruling on a session. -/
inductive RulingStep (k : Nat) (op : Op) (before after : Ruling) : Prop
  | same (equal : after = before)
  | swapped (back : LoopReturn) (req : Request) (err : Err)
      (running : op = .send k back (.swap req err))
      (fresh : before.handoff = .streamFresh)
      (equal : after = { before with handoff := .streamSendFailed })
  | received (receiver : RecvOp) (running : op = .recv k receiver)

section Steps

variable {config : Config} {shared : Shared} {outcome : Effect}

/-- Only the receive goroutine and a failed send change the ruling on a
session. -/
theorem ruling_exec {op : Op} {choice : Choice}
    (executed : exec config shared op choice = some outcome)
    {k : Nat} (inside : k < shared.opened) :
    RulingStep k op (shared.session k).ruling
      (outcome.shared.session k).ruling := by
  have does := exec_does executed
  clear executed
  cases does with
  | @session other _ _ _ does =>
      refine .same ?_
      cases does <;> first
        | rfl
        | by_cases equal : k = other <;>
            simp [equal, drainCalls, Session.ruling]
  | @send other back _ _ _ does =>
      cases does with
      | swap fresh =>
          by_cases equal : k = other
          · subst equal
            exact .swapped back _ _ rfl fresh (by simp [Session.ruling])
          · exact .same (by simp [equal])
      | _ =>
          refine .same ?_
          first
            | rfl
            | by_cases equal : k = other <;>
                simp [equal, drainCalls, Session.ruling]
  | @recv other op _ _ does =>
      by_cases equal : k = other
      · exact .received op (by rw [equal])
      · exact .same (by cases does <;> simp [equal, drainCalls])
  | run _ does =>
      exact .same (by
        cases does <;> first
          | rfl
          | simp [openStream, Shared.openSession, Nat.ne_of_lt inside])
  | @drainFirst other | @watchExpiry other | @closeDrain other =>
      refine .same ?_
      by_cases equal : k = other <;> simp [equal, Session.ruling]
  | endCancel | endDrain =>
      refine .same ?_
      by_cases equal : k = 0 <;> simp [equal, drainCalls, Session.ruling]
  | queue does => exact .same (by cases does <;> rfl)
  | _ => exact .same rfl

end Steps

/-! ## What an operation leaves -/

/-- The operations that come out of a step know the ruling. -/
def FreshRuled (outcome : Effect) : Prop :=
  (∀ op ∈ outcome.next, op.Ruled outcome.shared) ∧
    ∀ thread ∈ outcome.spawned, ∀ op ∈ thread, op.Ruled outcome.shared

section Fresh

variable {config : Config} {shared : Shared} {outcome : Effect}

theorem ruled_session {k : Nat} {op : SessionOp}
    (requeue : (shared.session k).requeue = true)
    (ruled : (Op.session k op).Ruled shared)
    (noted : (Op.session k op).Noted config shared)
    (does : SessionDoes config shared k op outcome) :
    FreshRuled outcome := by
  cases does
  case endDrain order permuted =>
    -- A session that ends because it is drained has no calls left.
    have empty : order = [] := by
      simpa [PendingCalls.reqs, noted.2.2] using List.isPerm_iff.mp permuted
    simp [FreshRuled, drainCalls, empty]
  case giveUp unrefused lives fails =>
    obtain ⟨reason, rfl, ended⟩ := ruled
    simp_all [FreshRuled, Op.Ruled, Session.refused, ended.verdict,
      ← Session.ruling_verdict]
    exact ⟨reason, ended, lives⟩
  all_goals simp [FreshRuled]
  all_goals simp_all [Op.Ruled]

theorem ruled_send {k : Nat} {back : LoopReturn} {op : SendOp}
    {choice : Choice}
    (requeue : (shared.session k).requeue = true)
    (ruled : (Op.send k back op).Ruled shared)
    (eof : ∀ req err, op = .wait req → choice = .err err → err.isEOF = true)
    (does : SendDoes config shared choice k back op outcome) :
    FreshRuled outcome := by
  cases does
  all_goals simp [FreshRuled, loopReturn, drainCalls, or_imp, forall_and]
  all_goals simp_all [Op.Ruled]

theorem ruled_recv {k : Nat} {op : RecvOp} {choice : Choice}
    (ruled : (Op.recv k op).Ruled shared)
    (does : RecvDoes config shared choice k op outcome) :
    FreshRuled outcome := by
  cases does
  all_goals simp [FreshRuled, drainCalls, or_imp, forall_and]
  all_goals simp_all [Op.Ruled, Ruling.undecided_iff, Ruling.accepted_iff,
    Ruling.ended_iff, Handoff.IsOpen, refusalOf]
  all_goals
    rcases ruled with ⟨_, _, _, _, fresh | failed⟩ | accepted <;> simp_all

theorem ruled_run {op : RunOp} (does : RunDoes config shared op outcome) :
    FreshRuled outcome := by
  cases does
  all_goals simp [FreshRuled, or_imp, forall_and, openStream,
    Shared.openSession, recordFailure]
  all_goals simp_all [Op.Ruled, Ruling.undecided_iff, Handoff.IsOpen,
    openedSession]

/-- What any operation of an outbound channel leaves knows the ruling, as long
as failing sends return `io.EOF`. -/
theorem ruled_exec {op : Op} {choice : Choice}
    (outbound : config.kind = .outbound)
    (requeue : ∀ k < shared.opened, (shared.session k).requeue = true)
    (eof : ∀ k back req err, op = .send k back (.wait req) →
      choice = .err err → err.isEOF = true)
    (ruled : op.Ruled shared) (noted : op.Noted config shared)
    (executed : exec config shared op choice = some outcome) :
    FreshRuled outcome := by
  cases exec_does executed with
  | queue does => cases does <;> simp [FreshRuled] <;> simp [Op.Ruled]
  | session inside does =>
      exact ruled_session (requeue _ inside) ruled noted does
  | @send k back op _ inside does =>
      exact ruled_send (requeue k inside) ruled
        (fun req err equal => eof k back req err (by rw [equal])) does
  | recv _ does => exact ruled_recv ruled does
  | run _ does => exact ruled_run does
  | closeInbound kind => simp [outbound] at kind
  | endCancel | endDrain => exact ruled.elim
  | _ =>
      simp [FreshRuled, liftDispatch, reply, exited, or_imp, forall_and] <;>
        simp [Op.Ruled]

end Fresh

/-! ## Stability -/

section Stable

variable {config : Config} {shared : Shared} {outcome : Effect}

/-- A receive goroutine does not mind a failed send before its own decision. -/
theorem RecvOp.Ruled.swapped {ruling : Ruling} {op : RecvOp}
    (ruled : op.Ruled ruling) (fresh : ruling.handoff = .streamFresh) :
    op.Ruled { ruling with handoff := .streamSendFailed } := by
  revert ruled
  cases op <;> simp_all [Ruling.undecided_iff, Ruling.accepted_iff,
    Ruling.ended_iff, Handoff.IsOpen]

/-- Once receiving has ended, the ruling stands. -/
theorem ended_recv {k : Nat} {op : RecvOp} {choice : Choice} {err : Err}
    (ruled : (Op.recv k op).Ruled shared)
    (ended : (shared.session k).ruling.Ended err)
    (does : RecvDoes config shared choice k op outcome) :
    (outcome.shared.session k).ruling.Ended err := by
  cases does
  all_goals simp_all [Op.Ruled, Ruling.undecided_iff, Ruling.accepted_iff,
    Ruling.ended_iff, drainCalls]

/-- Once the verdict channel is closed, the refusal is not changed. -/
theorem settled_recv {k : Nat} {op : RecvOp} {choice : Choice}
    (ruled : (Op.recv k op).Ruled shared)
    (settled : (shared.session k).ruling.verdict ≠ 0)
    (does : RecvDoes config shared choice k op outcome) :
    (outcome.shared.session k).ruling.verdict ≠ 0 ∧
      (outcome.shared.session k).ruling.refusal =
        (shared.session k).ruling.refusal := by
  cases does
  all_goals simp_all [Op.Ruled, Ruling.undecided_iff, Ruling.accepted_iff,
    Ruling.ended_iff, drainCalls]

theorem ended_exec {op : Op} {choice : Choice} {k : Nat} {err : Err}
    (inside : k < shared.opened) (ruled : op.Ruled shared)
    (ended : (shared.session k).ruling.Ended err)
    (executed : exec config shared op choice = some outcome) :
    (outcome.shared.session k).ruling.Ended err := by
  cases ruling_exec executed inside with
  | same equal => rwa [equal]
  | swapped back req reason running fresh equal =>
      rw [ended.handoff] at fresh
      cases fresh
  | received receiver running =>
      subst running
      cases exec_does executed with
      | recv _ does => exact ended_recv ruled ended does

theorem settled_exec {op : Op} {choice : Choice} {k : Nat}
    (inside : k < shared.opened) (ruled : op.Ruled shared)
    (settled : (shared.session k).ruling.verdict ≠ 0)
    (executed : exec config shared op choice = some outcome) :
    (outcome.shared.session k).ruling.verdict ≠ 0 ∧
      (outcome.shared.session k).ruling.refusal =
        (shared.session k).ruling.refusal := by
  cases ruling_exec executed inside with
  | same equal => exact ⟨equal ▸ settled, by rw [equal]⟩
  | swapped back req reason running fresh equal =>
      rw [equal]
      exact ⟨settled, rfl⟩
  | received receiver running =>
      subst running
      cases exec_does executed with
      | recv _ does => exact settled_recv ruled settled does

end Stable

/-! ## What a session leaves -/

/-- What becomes of a call that a session leaves: its refusal, if there is one,
and the error that ended receiving decide. -/
def Disposal.Follows (refusal : Option Err) (err : Err) (req : Request)
    (disposal : Disposal) : Prop :=
  match refusal with
  | some refusal => disposal = .failed refusal
  | none =>
      if isResourceExhausted (some err) then disposal = .failed err
      else if req.streaming then
        disposal = .failed errNodeClosed ∨ disposal = .failed errStreamDown
      else disposal = .requeued

/-- What sender and receiver have settled. -/
structure Handoffs (shared : Shared) : Prop where
  /-- The sessions are outbound ones. -/
  requeue : ∀ k < shared.opened, (shared.session k).requeue = true
  /-- A session that no longer receives has its verdict. -/
  ended : ∀ k < shared.opened, k ∉ shared.receiving →
    ∃ err, (shared.session k).ruling.Ended err
  /-- `outcome` returned the refusal of every ended session. -/
  outcomes : ∀ verdict ∈ shared.history.outcomes,
    verdict.session < shared.opened ∧
      (verdict.ended = true →
        (shared.session verdict.session).ruling.verdict ≠ 0 ∧
          verdict.refusal = (shared.session verdict.session).ruling.refusal)
  /-- The calls that a session left were disposed of as its ruling has it. -/
  disposals : ∀ entry ∈ shared.history.disposals,
    entry.1 < shared.opened ∧
      ∃ err, (shared.session entry.1).ruling.Ended err ∧
        entry.2.2.Follows (shared.session entry.1).ruling.refusal err entry.2.1

section Disposals

variable {config : Config} {shared : Shared} {outcome : Effect}

/-- Once receiving has ended, the verdict channel is closed. -/
theorem Ruling.Ended.settled {ruling : Ruling} {err : Err}
    (ended : ruling.Ended err) : ruling.verdict ≠ 0 := by
  rw [ended.verdict]
  decide

/-- Once receiving has ended, the refusal is known. -/
theorem Ruling.Ended.refused {session : Session} {err : Err}
    (ended : session.ruling.Ended err) :
    session.refused = session.refusal := by
  have closed : session.verdict = 1 := ended.verdict
  simp [Session.refused, closed]

/-- A call is disposed of as the ruling has it. -/
theorem follows_session {k : Nat} {op : SessionOp}
    (requeue : (shared.session k).requeue = true)
    (ruled : (Op.session k op).Ruled shared)
    (does : SessionDoes config shared k op outcome) :
    ∀ entry ∈ outcome.shared.history.disposals,
      entry ∈ shared.history.disposals ∨
        (entry.1 = k ∧ ∃ err, (shared.session k).ruling.Ended err ∧
          entry.2.2.Follows (shared.session k).ruling.refusal err
            entry.2.1) := by
  cases does
  all_goals simp [drainCalls, or_imp, forall_and]
  all_goals try exact fun _ _ _ member => Or.inl member
  all_goals refine ⟨fun _ _ _ member => .inl member, .inr ?_⟩
  case retryClosed closed =>
    obtain ⟨streaming, accepted, reason, ended, recoverable⟩ := ruled
    exact ⟨reason, ended, by
      rcases closed with rfl | rfl <;>
        simp_all [Disposal.Follows, Session.ruling]⟩
  all_goals
    obtain ⟨reason, equal, ended⟩ := ruled
    have refused := ended.refused
    exact ⟨reason, ended, by simp_all [Disposal.Follows]⟩

theorem follows_exec {op : Op} {choice : Choice}
    (requeue : ∀ k < shared.opened, (shared.session k).requeue = true)
    (ruled : op.Ruled shared)
    (executed : exec config shared op choice = some outcome) :
    ∀ entry ∈ outcome.shared.history.disposals,
      entry ∈ shared.history.disposals ∨
        (entry.1 < shared.opened ∧
          ∃ err, (shared.session entry.1).ruling.Ended err ∧
            entry.2.2.Follows (shared.session entry.1).ruling.refusal err
              entry.2.1) := by
  intro entry member
  cases history_exec executed
  case disposed k req disposal running reqs silent equal =>
    obtain ⟨inner, rfl⟩ : ∃ inner, op = .session k inner := by
      rcases running with ⟨err, running⟩ | running <;> exact ⟨_, running⟩
    cases exec_does executed with
    | session inside does =>
        rcases follows_session (requeue k inside) ruled does entry member
          with earlier | ⟨rfl, now⟩
        · exact .inl earlier
        · exact .inr ⟨inside, now⟩
  all_goals
    rename_i equal
    rw [equal] at member
    exact .inl member

/-- `outcome` returns what it found. -/
theorem outcomes_exec {op : Op} {choice : Choice}
    (executed : exec config shared op choice = some outcome) :
    ∀ verdict ∈ outcome.shared.history.outcomes,
      verdict ∈ shared.history.outcomes ∨
        ∃ backoff req, op = .run (.accepted verdict.session backoff req
          verdict.ended verdict.refusal) := by
  intro verdict member
  cases history_exec executed
  case outcome k backoff req hadEnded refusal running equal =>
    rw [equal] at member
    rcases List.mem_append.mp member with earlier | now
    · exact .inl earlier
    · rw [List.mem_singleton.mp now]
      exact .inr ⟨backoff, req, running⟩
  all_goals
    rename_i equal
    rw [equal] at member
    exact .inl member

end Disposals

/-- At most one goroutine receives on a session, and only on an opened one. -/
def Book.Receives (book : Book) : Prop :=
  book.receiving.Nodup ∧ ∀ k ∈ book.receiving, k < book.opened

theorem BookStep.receives {op : Op} {book after : Book}
    (step : BookStep book op after) (receives : book.Receives) :
    after.Receives := by
  obtain ⟨distinct, inside⟩ := receives
  cases step with
  | opened backoff req running equal =>
      subst equal
      refine ⟨List.nodup_cons.mpr ⟨fun member => ?_, distinct⟩, ?_⟩
      · exact Nat.lt_irrefl _ (inside _ member)
      · intro k member
        rcases List.mem_cons.mp member with rfl | earlier
        · exact Nat.lt_succ_self _
        · exact Nat.lt_succ_of_lt (inside k earlier)
  | received k running equal =>
      subst equal
      exact ⟨distinct.erase k, fun other member =>
        inside other (List.mem_of_mem_erase member)⟩
  | same equal => exact equal ▸ ⟨distinct, inside⟩
  | closing running fresh equal => exact equal ▸ ⟨distinct, inside⟩
  | closed running equal => exact equal ▸ ⟨distinct, inside⟩
  | exited main running equal => exact equal ▸ ⟨distinct, inside⟩

/-! ## Whole runs -/

section Runs

open Pool

variable {config : Config} {workload : Workload}
  {allowed : ChannelState → Step → Prop} {state next : ChannelState}
  {thread : Nat} {choice : Choice}

theorem receives_reached (reached : config.Reaches workload allowed state) :
    state.shared.book.Receives := by
  refine reached.invariant (fun state => state.shared.book.Receives) ?_ ?_
  · unfold Config.start
    cases config.kind <;> simp [Book.Receives, Shared.book]
  · intro state label next _ receives _ stepped
    rcases Machine.step_cases stepped with
      ⟨thread, choice, rfl, ⟨runs⟩⟩ | ⟨event, shared, rfl, acted, rfl⟩
    · rw [runs.next_shared]
      exact (book_exec runs.exec_eq).receives receives
    · exact (frame_environment acted).2.1 ▸ receives

/-- While a receive goroutine runs, the session has no other one. -/
theorem sole_receiver (reached : config.Reaches workload allowed state)
    (runs : (channel config).Runs state thread choice next)
    {k : Nat} {receiver other : RecvOp} (running : runs.op = .recv k receiver) :
    .recv k other ∉ runs.others := by
  intro member
  have two := (roster (.receiver k)).weight_add_weight_le runs member
  have one := List.nodup_iff_count_le_one.mp (receives_reached reached).1 k
  rw [weigh_roster (by simp) reached, running] at two
  simp [Op.roles, cast] at two
  exact absurd (Nat.le_trans two one) (by decide)

/-- What any other operation knows about verdicts, a step does not change. -/
theorem ruled_stable (reached : config.Reaches workload allowed state)
    (runs : (channel config).Runs state thread choice next)
    (running : runs.op.Ruled state.shared)
    {op : Op} (other : op ∈ runs.others)
    (ruled : op.Ruled state.shared) : op.Ruled runs.outcome.shared := by
  have executed := runs.exec_eq
  have noted := (closedDown_reached reached).2 op (runs.mem_of_others other)
  cases op with
  | session k op =>
      have inside : k < state.shared.opened := of_decide_eq_true noted.1
      cases op with
      | retryOrFail req err =>
          obtain ⟨reason, equal, ended⟩ := ruled
          exact ⟨reason, equal, ended_exec inside running ended executed⟩
      | retryClosed req =>
          obtain ⟨streaming, accepted, reason, ended, recoverable⟩ := ruled
          refine ⟨streaming, ?_, reason,
            ended_exec inside running ended executed, recoverable⟩
          rw [(settled_exec inside running ended.settled executed).2, accepted]
      | _ => trivial
  | recv k op =>
      have inside : k < state.shared.opened := of_decide_eq_true noted.1
      have before : op.Ruled (state.shared.session k).ruling := ruled
      show op.Ruled (runs.outcome.shared.session k).ruling
      cases ruling_exec executed inside with
      | same equal => rwa [equal]
      | swapped back req err sending fresh equal =>
          rw [equal]
          exact before.swapped fresh
      | received receiver receiving =>
          exact absurd other (sole_receiver reached runs receiving)
  | run op =>
      cases op with
      | accepted k backoff req hadEnded refusal =>
          intro ended
          have inside : k < state.shared.opened := of_decide_eq_true noted.1
          obtain ⟨settled, equal⟩ := ruled ended
          obtain ⟨still, same⟩ := settled_exec inside running settled executed
          exact ⟨still, equal.trans same.symm⟩
      | _ => trivial
  | _ => exact ruled

/-- A step keeps what sender and receiver have settled. -/
theorem handoffs_step (runs : (channel config).Runs state thread choice next)
    (noted : runs.op.Noted config state.shared)
    (handoffs : Handoffs state.shared) (ruled : runs.op.Ruled state.shared) :
    Handoffs runs.outcome.shared := by
  have executed := runs.exec_eq
  have advances := advances_exec executed
  have stands : ∀ {k err}, k < state.shared.opened →
      (state.shared.session k).ruling.Ended err →
      (runs.outcome.shared.session k).ruling.Ended err :=
    fun inside ended => ended_exec inside ruled ended executed
  refine ⟨?requeue, ?ended, ?outcomes, ?disposals⟩
  case requeue =>
    intro k inside
    by_cases earlier : k < state.shared.opened
    · exact (advances.session k earlier).requeue.trans
        (handoffs.requeue k earlier)
    · obtain ⟨suspect, equal⟩ :=
        session_opened executed (Nat.le_of_not_lt earlier) inside
      rw [equal]
      rfl
  case ended =>
    intro k inside received
    obtain ⟨below, earlier | now⟩ :=
      (book_exec executed).receiving inside received
    · obtain ⟨err, ended⟩ := handoffs.ended k below earlier
      exact ⟨err, stands below ended⟩
    · rw [now] at ruled
      obtain ⟨err, ended⟩ := ruled
      exact ⟨err, stands below ended⟩
  case outcomes =>
    intro verdict member
    have known : verdict.session < state.shared.opened ∧
        (verdict.ended = true →
          (state.shared.session verdict.session).ruling.verdict ≠ 0 ∧
            verdict.refusal =
              (state.shared.session verdict.session).ruling.refusal) := by
      rcases outcomes_exec executed verdict member with
        earlier | ⟨backoff, req, running⟩
      · exact handoffs.outcomes verdict earlier
      · rw [running] at noted ruled
        exact ⟨of_decide_eq_true noted.1, ruled⟩
    refine ⟨Nat.lt_of_lt_of_le known.1 advances.opened, fun hadEnded => ?_⟩
    obtain ⟨settled, equal⟩ := known.2 hadEnded
    obtain ⟨still, same⟩ := settled_exec known.1 ruled settled executed
    exact ⟨still, equal.trans same.symm⟩
  case disposals =>
    intro entry member
    obtain ⟨inside, err, ended, follows⟩ : entry.1 < state.shared.opened ∧
        ∃ err, (state.shared.session entry.1).ruling.Ended err ∧
          entry.2.2.Follows (state.shared.session entry.1).ruling.refusal err
            entry.2.1 := by
      rcases follows_exec handoffs.requeue ruled executed entry member with
        earlier | now
      · exact handoffs.disposals entry earlier
      · exact now
    refine ⟨Nat.lt_of_lt_of_le inside advances.opened, err,
      stands inside ended, ?_⟩
    rwa [(settled_exec inside ruled ended.settled executed).2]

/-- In every run of an outbound channel whose failing sends return `io.EOF`,
every operation knows what the ruling is. -/
theorem handoffs_reached (outbound : config.kind = .outbound)
    (eof : ∀ state step, allowed state step →
      sendsFailWithEOF state step = true)
    (reached : config.Reaches workload allowed state) :
    Handoffs state.shared ∧ ∀ op ∈ state.ops, op.Ruled state.shared := by
  refine Machine.Reach.annotated Handoffs Op.Ruled ?start ?run ?environment
    reached
  case start =>
    refine ⟨⟨?_, ?_, by simp, by simp⟩, ?_⟩
    · simp [Config.start, outbound]
    · simp [Config.start, outbound]
    · intro op member
      rcases config.mem_start_ops workload member with
        ⟨_, rfl⟩ | ⟨kind, _⟩ | ⟨req, _, rfl⟩ | rfl | ⟨other, rfl⟩
      · trivial
      · rw [outbound] at kind
        cases kind
      · trivial
      · trivial
      · trivial
  case run =>
    intro state thread choice next runs reached permitted handoffs ruled
    have noted := (closedDown_reached reached).2 runs.op runs.op_mem
    have fresh : FreshRuled runs.outcome := by
      refine ruled_exec outbound handoffs.requeue ?_ ruled noted runs.exec_eq
      intro k back req err running chosen
      subst chosen
      simpa [sendsFailWithEOF, runs.head?, running] using
        eof _ _ permitted
    refine ⟨handoffs_step runs noted handoffs ruled, ?_,
      fun op other => ruled_stable reached runs ruled other⟩
    intro op member
    rcases List.mem_append.mp member with following | spawned
    · exact fresh.1 op following
    · obtain ⟨thread, inside, member⟩ := List.mem_flatten.mp spawned
      exact fresh.2 thread inside op member
  case environment =>
    intro shared event after acted handoffs
    obtain ⟨_, sameBook, sameSessions⟩ := frame_environment acted
    obtain ⟨received, crowded, sameHistory⟩ := history_environment acted
    have sameRuling : ∀ k,
        (after.session k).ruling = (shared.session k).ruling := by
      intro k
      obtain ⟨done, equal⟩ := sameSessions k
      rw [equal]
      rfl
    have sameOpened : after.opened = shared.opened :=
      congrArg Book.opened sameBook
    have sameReceiving : after.receiving = shared.receiving :=
      congrArg Book.receiving sameBook
    refine ⟨⟨?_, ?_, ?_, ?_⟩, fun op ruled => ?_⟩
    · intro k inside
      rw [sameOpened] at inside
      exact (congrArg Ruling.requeue (sameRuling k)).trans
        (handoffs.requeue k inside)
    · simpa only [sameOpened, sameReceiving, sameRuling] using handoffs.ended
    · simpa only [sameOpened, sameHistory, sameRuling] using handoffs.outcomes
    · simpa only [sameOpened, sameHistory, sameRuling] using handoffs.disposals
    · revert ruled
      cases op with
      | session k op => simp [Op.Ruled, sameRuling k]
      | recv k op => simp [Op.Ruled, sameRuling k]
      | run op => cases op <;> simp [Op.Ruled, sameRuling]
      | _ => exact id

end Runs

end Stream
end Gorums
