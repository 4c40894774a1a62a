import Gorums.Stream.Service

/-!
# The last error after a refusal

The run loop records a refusal as the channel's last error.  A session that is
opened after a refusal is suspect: a completed send does not clear the last
error until the server has accepted the stream.  Whatever arrives on a stream
clears it, also on a stream that was opened before the refused one.
-/

namespace Gorums
namespace Stream

/-! ## What has arrived -/

/-- Whether a receive goroutine has not seen receiving end. -/
def RecvOp.early : RecvOp → Bool
  | .header => true
  | .recv => true
  | .check _ _ => true
  | .accept _ => true
  | .handoff _ => true
  | .verdict _ => true
  | .up _ => true
  | .handle _ _ => true
  | _ => false

/-- Whether a receive goroutine has just received the header or a frame. -/
def RecvOp.shown : RecvOp → Bool
  | .check _ _ => true
  | .accept _ => true
  | _ => false

/-- What a receive goroutine knows about its stream. -/
def Op.Witnessed (shared : Shared) : Op → Prop
  | .recv k op =>
      (op.early = true → (shared.session k).recvErr = none) ∧
        (op.shown = true → (shared.session k).arrived = true)
  | _ => True

/-- Only what has arrived shows that the server accepted a stream. -/
def Shared.AcceptedByArrival (shared : Shared) : Prop :=
  ∀ k < shared.opened, (shared.session k).accepted = true →
    (shared.session k).arrived = true

section Arrivals

open Pool

variable {config : Config} {shared : Shared} {outcome : Effect}

theorem Op.witnessed_of_service {op : Op} (service : op.service = true)
    (shared : Shared) : op.Witnessed shared := by
  cases op with
  | recv k op => cases service
  | _ => exact True.intro

theorem witnessed_exec {op : Op} {choice : Choice}
    (witnessed : op.Witnessed shared)
    (executed : exec config shared op choice = some outcome) :
    Fresh (Op.Witnessed outcome.shared) outcome := by
  by_cases serves : op.service = true
  · exact (service_exec serves executed).mono
      fun op service => op.witnessed_of_service service _
  have does := exec_does executed
  clear executed
  cases does with
  | session _ does =>
      cases does <;> first
        | exact absurd rfl serves
        | simp [Fresh, Op.Witnessed]
  | send _ does =>
      cases does
      all_goals simp [Fresh, drainCalls, loopReturn, or_imp, forall_and]
      all_goals simp [Op.Witnessed]
  | recv _ does =>
      cases does
      all_goals simp [Fresh, drainCalls, or_imp, forall_and]
      all_goals simp_all [Op.Witnessed, RecvOp.early, RecvOp.shown]
  | run _ does =>
      cases does
      all_goals simp [Fresh, openStream, recordFailure, or_imp, forall_and]
      all_goals simp [Op.Witnessed, Shared.openSession, openedSession,
        RecvOp.shown]
  | acceptHeader | noHeader | acceptCtx | acceptFrame | left | inboundCancel =>
      simp [Fresh, or_imp, forall_and]
      simp [Op.Witnessed]
  | _ => exact absurd rfl serves

/-- Only a receive goroutine that has received something accepts a stream. -/
theorem accepted_exec {op : Op} {choice : Choice} {k : Nat}
    (witnessed : op.Witnessed shared) (inside : k < shared.opened)
    (executed : exec config shared op choice = some outcome)
    (accepted : (outcome.shared.session k).accepted = true) :
    (shared.session k).accepted = true ∨ (shared.session k).arrived = true := by
  cases ruling_exec executed inside with
  | same equal =>
      exact .inl ((congrArg Ruling.accepted equal).symm.trans accepted)
  | swapped back req err running fresh equal =>
      exact .inl ((congrArg Ruling.accepted equal).symm.trans accepted)
  | received receiver running =>
      subst running
      have does := exec_does executed
      clear executed
      cases does with
      | recv _ does =>
          cases does <;> simp_all [Op.Witnessed, RecvOp.shown, drainCalls]

end Arrivals

section ArrivalRuns

open Pool

variable {config : Config} {workload : Workload}
  {allowed : ChannelState → Step → Prop} {state : ChannelState}

/-- What another receive goroutine knows, a step does not change. -/
theorem witnessed_stable {next : ChannelState} {thread : Nat} {choice : Choice}
    (reached : config.Reaches workload allowed state)
    (runs : (channel config).Runs state thread choice next)
    {op : Op} (other : op ∈ runs.others) (witnessed : op.Witnessed state.shared) :
    op.Witnessed runs.outcome.shared := by
  cases op with
  | recv k op =>
      have noted := (closedDown_reached reached).2 _ (runs.mem_of_others other)
      have inside : k < state.shared.opened := of_decide_eq_true noted.1
      refine ⟨fun early => ?_, fun shown => ?_⟩
      · have before := witnessed.1 early
        cases ruling_exec runs.exec_eq inside with
        | same equal => exact (congrArg Ruling.recvErr equal).trans before
        | swapped back req err running fresh equal =>
            exact (congrArg Ruling.recvErr equal).trans before
        | received receiver running =>
            exact absurd other (sole_receiver reached runs running)
      · have advances := (advances_exec runs.exec_eq).session k inside
        exact advances.arrived (witnessed.2 shown)
  | _ => exact True.intro

/-- In every run, only what has arrived shows that a stream is accepted. -/
theorem witnessed_reached (reached : config.Reaches workload allowed state) :
    state.shared.AcceptedByArrival ∧
      ∀ op ∈ state.ops, op.Witnessed state.shared := by
  refine reached.annotated Shared.AcceptedByArrival
    (fun shared op => op.Witnessed shared) ?start ?run ?environment
  case start =>
    refine ⟨?_, ?_⟩
    · intro k _ accepted
      revert accepted
      unfold Config.start
      cases config.kind <;> intro accepted <;> cases accepted
    · intro op member
      rcases config.mem_start_ops workload member with
        ⟨_, rfl⟩ | ⟨kind, rfl | rfl⟩ | ⟨_, _, rfl⟩ | rfl | ⟨_, rfl⟩
      · exact True.intro
      · exact True.intro
      · simp [Op.Witnessed, Config.start, kind, RecvOp.shown]
      · exact True.intro
      · exact True.intro
      · exact True.intro
  case run =>
    intro state thread choice next runs reached _ accepted witnessed
    have executed := runs.exec_eq
    have fresh := witnessed_exec witnessed executed
    refine ⟨?_, ?_, fun op other known => witnessed_stable reached runs other known⟩
    · intro k inside shows
      by_cases earlier : k < state.shared.opened
      · have advances := (advances_exec executed).session k earlier
        rcases accepted_exec witnessed earlier executed shows with before | arrived
        · exact advances.arrived (accepted k earlier before)
        · exact advances.arrived arrived
      · obtain ⟨suspect, new⟩ :=
          session_opened executed (Nat.le_of_not_lt earlier) inside
        rw [new] at shows
        cases shows
    · exact fun op member => fresh.of_mem member
  case environment =>
    intro shared event after acted accepted
    obtain ⟨_, book, sessions⟩ := frame_environment acted
    have opened : after.opened = shared.opened := congrArg Book.opened book
    refine ⟨?_, ?_⟩
    · intro k inside shows
      obtain ⟨done, equal⟩ := sessions k
      rw [equal] at shows ⊢
      exact accepted k (opened ▸ inside) shows
    · intro op witnessed
      cases op with
      | recv k op =>
          obtain ⟨done, equal⟩ := sessions k
          simpa only [Op.Witnessed, equal] using witnessed
      | _ => exact True.intro

end ArrivalRuns

/-! ## What a refusal leaves behind -/

/-- Something has arrived on a stream that was opened after the first `n`. -/
def Shared.Loud (shared : Shared) (n : Nat) : Prop :=
  ∃ k, n ≤ k ∧ k < shared.opened ∧ (shared.session k).arrived = true

/-- The pacing state of the run loop. -/
def RunOp.backoff : RunOp → Backoff
  | .await backoff => backoff
  | .refusing backoff _ => backoff
  | .ctx backoff _ => backoff
  | .openStream backoff _ => backoff
  | .failed backoff _ _ => backoff
  | .record backoff _ _ => backoff
  | .down _ backoff _ => backoff
  | .ended _ backoff _ => backoff
  | .verdict _ backoff _ => backoff
  | .accepted _ backoff _ _ _ => backoff
  | .connect _ backoff _ => backoff

/-- The session on which the run loop works. -/
def RunOp.session : RunOp → Option Nat
  | .down k _ _ => some k
  | .ended k _ _ => some k
  | .verdict k _ _ => some k
  | .accepted k _ _ _ _ => some k
  | .connect k _ _ => some k
  | _ => none

/-- Whether the run loop that a send loop returns to remembers a refusal. -/
def LoopReturn.suspect : LoopReturn → Bool
  | .run backoff => backoff.suspect
  | .serve => false

/-- What an operation knows about a refusal that was recorded when `n` streams
had been opened, unless something has arrived since. -/
def Op.Recalls (session : Nat → Session) (n : Nat) (loud : Prop) : Op → Prop
  | .session _ .healthLoad => loud
  | .session _ .healthClear => loud
  | .send k back _ =>
      n ≤ k ∧ ((session k).suspect = true ∨ loud) ∧
        (back.suspect = true ∨ loud)
  | .recv k op => op.early = true → n ≤ k
  | .run op =>
      (op.backoff.suspect = true ∨ loud) ∧ ∀ k, op.session = some k → n ≤ k
  | .inbound _ => False
  | _ => True

section Refusals

open Pool

variable {config : Config} {shared : Shared} {outcome : Effect} {n : Nat}

@[simp] theorem Backoff.suspect_attempt (backoff : Backoff) :
    backoff.attempt.suspect = backoff.suspect := rfl

@[simp] theorem Backoff.suspect_pace (backoff : Backoff) (now : Nat) :
    (backoff.pace now).suspect = backoff.suspect := by
  unfold Backoff.pace
  split <;> rfl

theorem Backoff.suspect_failed {backoff : Backoff} {err : Err} (now : Nat)
    (remembers : backoff.suspect = true ∨ isRefusal err = true) :
    (backoff.failed err now).suspect = true := by
  unfold Backoff.failed
  split
  · rfl
  · rename_i other
    rw [Backoff.suspect_pace]
    exact remembers.resolve_right other

theorem Backoff.suspect_after {backoff : Backoff} {accepted : Bool}
    {loud : Prop} (remembers : backoff.suspect = true ∨ loud)
    (accepts : accepted = true → loud) :
    (backoff.after accepted).suspect = true ∨ loud := by
  cases accepted with
  | true => exact .inr (accepts rfl)
  | false => exact remembers

theorem Op.recalls_of_service {op : Op} (service : op.service = true)
    (session : Nat → Session) (loud : Prop) : op.Recalls session n loud := by
  cases op with
  | session k op => cases op <;> first | exact True.intro | cases service
  | send k back op => cases service
  | recv k op => cases service
  | run op => cases service
  | inbound op => cases service
  | _ => exact True.intro

theorem Op.Recalls.mono {op : Op} {session later : Nat → Session}
    {loud louder : Prop} (recalls : op.Recalls session n loud)
    (same : ∀ k back sending, op = .send k back sending →
      (later k).suspect = (session k).suspect)
    (grows : loud → louder) : op.Recalls later n louder := by
  cases op with
  | session k op =>
      cases op with
      | healthLoad => exact grows recalls
      | healthClear => exact grows recalls
      | _ => exact True.intro
  | send k back op =>
      obtain ⟨after, suspect, returns⟩ := recalls
      refine ⟨after, ?_, returns.imp_right grows⟩
      rw [same k back op rfl]
      exact suspect.imp_right grows
  | run op => exact ⟨recalls.1.imp_right grows, recalls.2⟩
  | _ => exact recalls

/-- What a send loop leaves. -/
theorem recalls_send {k : Nat} {back : LoopReturn} {op : SendOp}
    {choice : Choice} {loud : Prop}
    (arrives : n ≤ k → (shared.session k).accepted = true → loud)
    (recalls : (Op.send k back op).Recalls shared.session n loud)
    (outbound : back ≠ .serve)
    (does : SendDoes config shared choice k back op outcome) :
    Fresh (Op.Recalls outcome.shared.session n loud) outcome := by
  obtain ⟨after, suspect, returns⟩ := recalls
  have heals : (shared.session k).healthy = true → loud := by
    intro healthy
    rcases suspect with suspect | loud
    · apply arrives after
      simpa [Session.healthy, suspect] using healthy
    · exact loud
  cases does
  all_goals simp [Fresh, drainCalls, loopReturn, or_imp, forall_and]
  all_goals simp_all [Op.Recalls, RunOp.backoff, RunOp.session,
    LoopReturn.suspect]

/-- What a receive goroutine leaves. -/
theorem recalls_recv {k : Nat} {op : RecvOp} {choice : Choice}
    {loud : Prop}
    (arrives : n ≤ k → (outcome.shared.session k).arrived = true → loud)
    (recalls : (Op.recv k op).Recalls shared.session n loud)
    (does : RecvDoes config shared choice k op outcome) :
    Fresh (Op.Recalls outcome.shared.session n loud) outcome := by
  cases does
  all_goals simp [Fresh, drainCalls, or_imp, forall_and]
  all_goals simp_all [Op.Recalls, RecvOp.early]

/-- What the run loop leaves, unless it records a refusal. -/
theorem recalls_run {op : RunOp} {loud : Prop}
    (bound : n ≤ shared.opened)
    (arrives : ∀ k, op.session = some k → n ≤ k →
      (shared.session k).accepted = true → loud)
    (recalls : (Op.run op).Recalls shared.session n loud)
    (does : RunDoes config shared op outcome) :
    Fresh (Op.Recalls outcome.shared.session n loud) outcome := by
  obtain ⟨suspect, after⟩ := recalls
  cases does
  all_goals simp [Fresh, openStream, recordFailure, or_imp, forall_and]
  all_goals simp_all [Op.Recalls, RunOp.backoff, RunOp.session,
    LoopReturn.suspect, Shared.openSession, openedSession, RecvOp.early]
  case record =>
    exact suspect.imp_left fun suspect =>
      Backoff.suspect_failed shared.now (.inl suspect)
  case accepted | refused => exact Backoff.suspect_after suspect arrives

/-- The run loop works only on sessions that have been opened. -/
theorem RunOp.session_lt {op : RunOp} {opened k : Nat}
    (known : (Op.run op).opened opened = true) (works : op.session = some k) :
    k < opened := by
  cases op <;> simp_all [RunOp.session, Op.opened]

/-! ## Who clears the last error -/

/-- Whether an operation may clear the last error. -/
def Op.heals : Op → Bool
  | .session _ .healthLoad => true
  | .session _ .healthClear => true
  | _ => false

/-- Whether an operation belongs to a send loop, or to a receive goroutine that
has not seen receiving end. -/
def Op.moves : Op → Bool
  | .send _ _ _ => true
  | .recv _ op => op.early
  | _ => false

theorem Op.not_heals_of_service {op : Op} (service : op.service = true) :
    ¬ op.heals = true := by
  cases op with
  | session k op => cases op <;> simp_all [Op.service, Op.heals]
  | _ => simp [Op.heals]

/-- Every operation that is left by one that need not be followed, and that
clears the last error, is followed by one that moves data. -/
def Op.Healing (op : Op) (outcome : Effect) : Prop :=
  ((op.heals = true → op.moves = true) →
    Pool.Covered (fun op : Op => op.heals = true) (fun op => op.moves = true)
      outcome.next) ∧
    ∀ thread ∈ outcome.spawned,
      Pool.Covered (fun op : Op => op.heals = true) (fun op => op.moves = true)
        thread

theorem Fresh.healing {op : Op}
    (fresh : Fresh (fun op => ¬ op.heals = true) outcome) : op.Healing outcome :=
  ⟨fun _ => .of_light fresh.1, fun thread inside => .of_light (fresh.2 thread inside)⟩

/-- A goroutine that clears the last error goes on to move data. -/
theorem healing_exec {op : Op} {choice : Choice}
    (executed : exec config shared op choice = some outcome) :
    op.Healing outcome := by
  by_cases serves : op.service = true
  · exact ((service_exec serves executed).mono
      fun op service => op.not_heals_of_service service).healing
  cases exec_does executed with
  | session _ does =>
      cases does <;> first
        | exact absurd rfl serves
        | simp [Op.heals, Op.moves, Op.Healing, Pool.Covered]
  | send _ does =>
      cases does <;>
        simp [Op.Healing, Pool.Covered, Op.heals, Op.moves, drainCalls,
          loopReturn]
  | recv _ does =>
      cases does with
      | ended | drain =>
          apply Fresh.healing
          simp [Fresh, Op.heals, drainCalls, or_imp, forall_and]
      | _ =>
          simp [Op.Healing, Pool.Covered, Op.heals, Op.moves, RecvOp.early]
  | run _ does =>
      apply Fresh.healing
      cases does
      all_goals simp [Fresh, openStream, recordFailure, or_imp, forall_and]
      all_goals simp [Op.heals]
  | acceptHeader | noHeader | acceptCtx | acceptFrame | left | inboundCancel =>
      apply Fresh.healing
      simp [Fresh, or_imp, forall_and]
      simp [Op.heals]
  | _ => exact absurd rfl serves

/-- What one operation leaves, unless it records a refusal. -/
theorem recalls_exec {op : Op} {choice : Choice} {loud : Prop}
    (bound : n ≤ shared.opened)
    (accepts : ∀ k < shared.opened, n ≤ k →
      (shared.session k).accepted = true → loud)
    (arrives : ∀ k < shared.opened, n ≤ k →
      (outcome.shared.session k).arrived = true → loud)
    (staged : op.Staged shared.live)
    (recalls : op.Recalls shared.session n loud)
    (executed : exec config shared op choice = some outcome) :
    Fresh (Op.Recalls outcome.shared.session n loud) outcome := by
  by_cases serves : op.service = true
  · exact (service_exec serves executed).mono
      fun op service => op.recalls_of_service service _ _
  cases exec_does executed with
  | session _ does =>
      cases does <;> first
        | exact absurd rfl serves
        | simp_all [Fresh, Op.Recalls]
  | send inside does =>
      refine recalls_send (accepts _ inside) recalls ?_ does
      rintro rfl
      simp [Op.Staged, LoopReturn.isRun] at staged
  | recv inside does => exact recalls_recv (arrives _ inside) recalls does
  | run opened does =>
      refine recalls_run bound (fun k works after => ?_) recalls does
      exact accepts k (RunOp.session_lt opened works) after
  | acceptHeader | noHeader | acceptCtx | acceptFrame | left | inboundCancel =>
      exact absurd staged id
  | _ => exact absurd rfl serves

/-- What one operation can do to the last error. -/
inductive HealthStep (shared : Shared) (op : Op) (after : Option Err) : Prop
  | same (equal : after = shared.lastErr)
  | set (err : Err) (equal : after = some err)
  | cleared (k : Nat) (running : op = .session k .healthClear)

theorem health_exec {op : Op} {choice : Choice}
    (executed : exec config shared op choice = some outcome) :
    HealthStep shared op outcome.shared.lastErr := by
  cases exec_does executed with
  | session _ does =>
      cases does with
      | healthClear => exact .cleared _ rfl
      | healthSet => exact .set _ rfl
      | _ => exact .same rfl
  | run _ does =>
      cases does with
      | record => exact .set _ rfl
      | _ => exact .same rfl
  | queue does | send _ does | recv _ does => cases does <;> exact .same rfl
  | _ => exact .same rfl

/-- Only the run loop records a refusal. -/
theorem refusedAt_exec {op : Op} {choice : Choice}
    (executed : exec config shared op choice = some outcome) :
    outcome.shared.history.refusedAt = shared.history.refusedAt ∨
      ∃ backoff req err, op = .run (.record backoff req err) ∧
        isRefusal err = true := by
  cases history_exec executed with
  | recorded backoff req err running equal =>
      rw [equal]
      by_cases refuses : isRefusal err = true
      · exact .inr ⟨backoff, req, err, running, refuses⟩
      · exact .inl (if_neg refuses)
  | same equal => exact .inl (congrArg History.refusedAt equal)
  | _ => simp_all

/-- Recording a refusal leaves a run loop that remembers it. -/
theorem recalls_record {backoff : Backoff} {req : Option Request} {err : Err}
    {choice : Choice} (refuses : isRefusal err = true) (n : Nat) (loud : Prop)
    (executed : exec config shared (.run (.record backoff req err)) choice =
      some outcome) :
    outcome.shared.history.refusedAt = some outcome.shared.opened ∧
      outcome.shared.lastErr = some err ∧
      Fresh (Op.Recalls outcome.shared.session n loud) outcome := by
  have recorded : outcome = recordFailure shared backoff req err := by
    cases exec_does executed with
    | run _ does => cases does; rfl
  rw [recorded]
  refine ⟨if_pos refuses, rfl, ?_⟩
  simp [Fresh, recordFailure, or_imp, forall_and]
  simp [Op.Recalls, RunOp.backoff, RunOp.session,
    Backoff.suspect_failed shared.now (.inr refuses)]

/-- The environment does not touch the last error. -/
theorem lastErr_environment {event : Event} {after : Shared}
    (acted : environment shared event = some after) :
    after.lastErr = shared.lastErr := by
  cases environment_acts acted <;> rfl

theorem Shared.Loud.advance {after : Shared} (loud : shared.Loud n)
    (advances : shared.Advances after) : after.Loud n := by
  obtain ⟨k, later, inside, arrived⟩ := loud
  exact ⟨k, later, Nat.lt_of_lt_of_le inside advances.opened,
    (advances.session k inside).arrived arrived⟩

end Refusals

/-! ## Runs that keep a refusal -/

/-- A step at which the run loop records a refusal only if receiving has ended
on every stream that has been opened. -/
def Settled (state : ChannelState) (label : Step) : Prop :=
  ∀ thread choice backoff req err, label = .run thread choice →
    state.head? thread = some (.run (.record backoff req err)) →
    isRefusal err = true →
    ∀ k < state.shared.opened, (state.shared.session k).recvErr.isSome = true

/-- The last error after a refusal that was recorded when `n` streams had been
opened. -/
def Shared.Refused (shared : Shared) : Prop :=
  ∀ n, shared.history.refusedAt = some n →
    n ≤ shared.opened ∧ (shared.lastErr.isSome = true ∨ shared.Loud n)

/-- What an operation knows about the latest refusal. -/
def Op.Warned (shared : Shared) (op : Op) : Prop :=
  ∀ n, shared.history.refusedAt = some n →
    op.Recalls shared.session n (shared.Loud n)

section RefusalRuns

open Pool

variable {config : Config} {workload : Workload}
  {allowed : ChannelState → Step → Prop} {state next : ChannelState}
  {thread : Nat} {choice : Choice}

/-- Whoever clears the last error moves data afterwards. -/
theorem moves_of_heals (reached : config.Reaches workload allowed state)
    {op : Op} (member : op ∈ state.ops) (heals : op.heals = true) :
    ∃ keeper ∈ state.ops, keeper.moves = true := by
  refine Machine.Reach.covered (fun op : Op => op.heals = true)
    (fun op => op.moves = true) ?start ?next ?spawned reached member heals
  case start =>
    intro started inside
    refine .of_light fun op member => ?_
    have initial : op ∈ (config.start workload).ops :=
      List.mem_flatten.mpr ⟨started, inside, member⟩
    rcases config.mem_start_ops workload initial with
      ⟨_, rfl⟩ | ⟨_, rfl | rfl⟩ | ⟨_, _, rfl⟩ | rfl | ⟨_, rfl⟩ <;>
      simp [Op.heals]
  case next =>
    intro state thread choice next runs _ _ kept
    exact (healing_exec runs.exec_eq).1 kept
  case spawned =>
    intro state thread choice next runs
    exact (healing_exec runs.exec_eq).2

/-- When the run loop records a refusal and receiving has ended on every stream,
nobody else can clear the last error. -/
theorem recalls_of_settled (outbound : config.kind = .outbound)
    (reached : config.Reaches workload allowed state)
    (runs : (channel config).Runs state thread choice next)
    {backoff : Backoff} {req : Option Request} {err : Err}
    (running : runs.op = .run (.record backoff req err))
    (settled : ∀ k < state.shared.opened,
      (state.shared.session k).recvErr.isSome = true)
    {op : Op} (other : op ∈ runs.others) (session : Nat → Session) (n : Nat)
    (loud : Prop) : op.Recalls session n loud := by
  have main : .main ∈ runs.op.roles := by simp [running, Op.roles]
  have late : ∀ k receiver, .recv k receiver ∈ state.ops →
      receiver.early = false := by
    intro k receiver member
    apply Bool.eq_false_of_not_eq_true
    intro early
    have noted := (closedDown_reached reached).2 _ member
    have open_ := ((witnessed_reached reached).2 _ member).1 early
    have ended := settled k (of_decide_eq_true noted.1)
    rw [open_] at ended
    cases ended
  have still : ¬ op.heals = true := by
    intro heals
    obtain ⟨keeper, member, moves⟩ :=
      moves_of_heals reached (runs.mem_of_others other) heals
    cases keeper with
    | send k back sending =>
        rcases List.mem_cons.mp (runs.ops_perm.mem_iff.mp member) with same | apart
        · rw [running] at same
          cases same
        · exact sole_main reached runs main apart (by simp [Op.roles])
    | recv k receiver =>
        rw [Op.moves, late k receiver member] at moves
        cases moves
    | _ => cases moves
  have apart := sole_main reached runs main other
  cases op with
  | session k op =>
      cases op with
      | healthLoad => exact absurd rfl still
      | healthClear => exact absurd rfl still
      | _ => exact True.intro
  | send k back op => simp [Op.roles] at apart
  | recv k op =>
      intro early
      rw [late k op (runs.mem_of_others other)] at early
      cases early
  | run op => simp [Op.roles] at apart
  | inbound op =>
      exact (reports_reached outbound reached).2 _ (runs.mem_of_others other)
  | _ => exact True.intro

/-- In every such run, the last error is kept until something arrives on a
stream that was opened after the refusal. -/
theorem refused_reached (outbound : config.kind = .outbound)
    (reached : config.Reaches workload Settled state) :
    state.shared.Refused ∧ ∀ op ∈ state.ops, op.Warned state.shared := by
  refine reached.annotated Shared.Refused (fun shared op => op.Warned shared)
    ?start ?run ?environment
  case start =>
    have never : (config.start workload).shared.history.refusedAt = none := by
      unfold Config.start
      cases config.kind <;> rfl
    refine ⟨?_, ?_⟩
    · intro n refused
      cases never.symm.trans refused
    · intro op _ n refused
      cases never.symm.trans refused
  case run =>
    intro state thread choice next runs reached permitted refused warned
    have executed := runs.exec_eq
    have advances := advances_exec executed
    rcases refusedAt_exec executed with same | ⟨backoff, req, err, running, refuses⟩
    · refine ⟨?_, ?_, ?_⟩
      · intro n recorded
        rw [same] at recorded
        obtain ⟨bound, kept⟩ := refused n recorded
        refine ⟨Nat.le_trans bound advances.opened, ?_⟩
        cases health_exec executed with
        | same equal =>
            rw [equal]
            exact kept.imp_right fun loud => loud.advance advances
        | set err equal => exact .inl (by rw [equal]; rfl)
        | cleared k running =>
            have recalls := warned n recorded
            rw [running] at recalls
            exact .inr (Shared.Loud.advance recalls advances)
      · intro op member n recorded
        rw [same] at recorded
        have fresh := recalls_exec (refused n recorded).1
          (fun k inside later accepted => ?_) (fun k inside later arrived => ?_)
          ((reports_reached outbound reached).2 _ runs.op_mem)
          ((warned n recorded).mono (fun _ _ _ _ => rfl)
            fun loud => Shared.Loud.advance loud advances) executed
        · exact fresh.of_mem member
        · exact Shared.Loud.advance ⟨k, later, inside,
            (witnessed_reached reached).1 k inside accepted⟩ advances
        · exact ⟨k, later, Nat.lt_of_lt_of_le inside advances.opened, arrived⟩
      · intro op other warned n recorded
        rw [same] at recorded
        refine (warned n recorded).mono (fun k back sending equal => ?_)
          fun loud => loud.advance advances
        have noted := (closedDown_reached reached).2 _ (runs.mem_of_others other)
        rw [equal] at noted
        exact (advances.session k (of_decide_eq_true noted.1)).suspect
    · have settled := permitted thread choice backoff req err rfl
        (running ▸ runs.head?) refuses
      rw [running] at executed
      obtain ⟨at_, set, fresh⟩ := recalls_record refuses
        runs.outcome.shared.opened
        (runs.outcome.shared.Loud runs.outcome.shared.opened) executed
      refine ⟨?_, ?_, ?_⟩
      · intro n recorded
        cases at_.symm.trans recorded
        exact ⟨Nat.le_refl _, .inl (by rw [set]; rfl)⟩
      · intro op member n recorded
        cases at_.symm.trans recorded
        exact fresh.of_mem member
      · intro op other _ n _
        exact recalls_of_settled outbound reached runs running settled other _ _ _
  case environment =>
    intro shared event after acted refused
    obtain ⟨received, crowded, history⟩ := history_environment acted
    obtain ⟨_, book, sessions⟩ := frame_environment acted
    have opened : after.opened = shared.opened := congrArg Book.opened book
    have at_ : after.history.refusedAt = shared.history.refusedAt := by
      rw [history]
    have loud : ∀ {n}, shared.Loud n → after.Loud n := by
      rintro n ⟨k, later, inside, arrived⟩
      obtain ⟨done, equal⟩ := sessions k
      exact ⟨k, later, opened ▸ inside, by rw [equal]; exact arrived⟩
    refine ⟨?_, ?_⟩
    · intro n recorded
      rw [at_] at recorded
      rw [opened, lastErr_environment acted]
      exact (refused n recorded).imp_right (Or.imp_right loud)
    · intro op warned n recorded
      rw [at_] at recorded
      refine (warned n recorded).mono (fun k _ _ _ => ?_) loud
      obtain ⟨done, equal⟩ := sessions k
      rw [equal]

/-- In every run of an outbound channel in which the run loop records a refusal
only once receiving has ended on every stream opened so far: while nothing has
arrived on a stream opened after the refused one, `LastErr` is not nil. -/
theorem lastErr_keeps_refusal (outbound : config.kind = .outbound)
    (reached : config.Reaches workload Settled state)
    {n : Nat} (refused : state.shared.history.refusedAt = some n)
    (quiet : ∀ k, n ≤ k → k < state.shared.opened →
      (state.shared.session k).arrived = false) :
    state.shared.lastErr ≠ none := by
  obtain ⟨_, kept⟩ := (refused_reached outbound reached).1 n refused
  rcases kept with recorded | ⟨k, later, inside, arrived⟩
  · exact Option.isSome_iff_ne_none.mp recorded
  · rw [quiet k later inside] at arrived
    cases arrived

/-- Check that a refusal is recorded only once receiving has ended on every
stream. -/
def settledCheck (state : ChannelState) : Step → Bool
  | .run thread _ =>
      match state.head? thread with
      | some (.run (.record _ _ err)) =>
          !isRefusal err || (List.range state.shared.opened).all fun k =>
            (state.shared.session k).recvErr.isSome
      | _ => true
  | .env _ => true

theorem settled_of_check {state : ChannelState} {label : Step}
    (checked : settledCheck state label = true) : Settled state label := by
  intro thread choice backoff req err running first refuses k inside
  rw [running] at checked
  simp only [settledCheck, first, refuses, Bool.not_true, Bool.false_or,
    List.all_eq_true, List.mem_range] at checked
  exact checked k inside

/-- A second call, with response channel 2. -/
def otherCall : Request :=
  { uid := 2, ctx := 1, msg := { messageSeqNo := 2 }, responseChan := some 2 }

/-- One goroutine makes two calls. -/
def twoCalls : Workload where
  users := [[.enqueue soleCall, .enqueue otherCall]]
  calls := by decide
  distinct := by decide

/-- The server refuses a stream, the run loop records it, and opens another stream
after the delay. -/
def recordedRun : List Step :=
  Step.first 0 2 ++ Step.first 1 6 ++ [.run 0 (.pick .third)] ++
    Step.first 0 8 ++
    [.run 2 (.pick .second), .run 2 (.err unauthenticated)] ++
    Step.first 2 6 ++ [.run 2 (.order [soleCall])] ++ Step.first 2 4 ++
    Step.first 0 9 ++ [.env (.tick eagerReconnectMaxDelay)] ++
    Step.first 1 6 ++ [.run 0 (.pick .second)] ++ Step.first 0 3

theorem recordedRun_followed :
    ((channel smallOutbound).follow settledCheck
      (smallOutbound.start twoCalls) recordedRun).isSome = true := by
  decide +kernel

/-- The refusal of the first stream is still recorded when the second is open. -/
theorem lastErr_keeps_refusal_recorded :
    ∃ state, smallOutbound.Reaches twoCalls Settled state ∧
      state.shared.history.refusedAt = some 1 ∧ state.shared.opened = 2 ∧
      state.shared.lastErr ≠ none := by
  have reached : smallOutbound.Reaches twoCalls Settled _ :=
    Machine.reach_of_isSome (fun _ _ => settled_of_check) recordedRun_followed
  have two : (((channel smallOutbound).follow settledCheck
      (smallOutbound.start twoCalls) recordedRun).get
        recordedRun_followed).shared.opened = 2 := by
    decide +kernel
  refine ⟨_, reached, by decide +kernel, two, ?_⟩
  refine lastErr_keeps_refusal rfl reached (n := 1) (by decide +kernel) ?_
  intro k later inside
  obtain rfl : k = 1 :=
    Nat.le_antisymm (Nat.le_of_lt_succ (Nat.lt_of_lt_of_eq inside two)) later
  decide +kernel

/-- The first stream is accepted and carries a call when it starts to drain.
The server refuses the second one, and then answers the call on the first. -/
def clearedRun : List Step :=
  Step.first 0 2 ++ Step.first 1 6 ++ [.run 0 (.pick .third)] ++
    Step.first 0 8 ++ Step.first 2 7 ++ [.run 3 (.pick .second)] ++
    Step.first 3 3 ++ [.run 0 (.pick .second)] ++ Step.first 0 9 ++
    Step.first 1 6 ++ [.run 0 (.pick .second)] ++ Step.first 0 11 ++
    [.run 5 (.pick .second), .run 5 (.err unauthenticated)] ++
    Step.first 5 6 ++ [.run 5 (.order [otherCall])] ++ Step.first 0 9 ++
    [.run 2 (.frame { messageSeqNo := 1 })] ++ Step.first 2 2

theorem clearedRun_followed :
    (smallOutbound.follow twoCalls clearedRun).isSome = true := by
  decide +kernel

/-- The answer on the draining stream clears the refusal of the next one. -/
theorem draining_stream_clears_refusal :
    ∃ state, smallOutbound.Reaches twoCalls (fun _ _ => True) state ∧
      state.shared.history.refusedAt = some 2 ∧
      (∀ k, 2 ≤ k → k < state.shared.opened →
        (state.shared.session k).arrived = false) ∧
      (state.shared.session 1).arrived = false ∧
      (state.shared.session 1).refusal = some unauthenticated ∧
      state.shared.lastErr = none := by
  have reached := Config.reaches_of_follow clearedRun_followed
  refine ⟨_, reached, by decide +kernel, ?_, by decide +kernel,
    by decide +kernel, by decide +kernel⟩
  intro k later inside
  have two : ((smallOutbound.follow twoCalls clearedRun).get
      clearedRun_followed).shared.opened = 2 := by
    decide +kernel
  exact absurd (Nat.lt_of_lt_of_eq inside two) (Nat.not_lt.mpr later)

end RefusalRuns

end Stream
end Gorums
