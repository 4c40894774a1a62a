import Gorums.Stream.Draining

/-!
# The state of the stream

`StreamUp` reports whether the server has accepted the stream of the live
session.  The run loop makes a session live when it opens its stream, and ends
that before it opens the next one, so at most one session can bring the stream
up, and the stream is down whenever a new one is opened.
-/

namespace Gorums
namespace Stream

/-- What a channel's state says about its stream. -/
structure Standing where
  /-- The number of sessions opened so far. -/
  opened : Nat
  /-- The session whose acceptance brings the stream up. -/
  live : Option Nat
  /-- Whether the stream is up. -/
  streamUp : Bool
  /-- The calls of `setStreamUp`. -/
  recorded : List (Nat × Bool)
  /-- How often the stream came up or went down. -/
  changes : Nat
  /-- The number of callbacks that have started. -/
  callbacks : Nat

/-- What a channel's state says about its stream. -/
def Shared.standing (shared : Shared) : Standing where
  opened := shared.opened
  live := shared.live
  streamUp := shared.streamUp
  recorded := shared.history.recorded
  changes := shared.history.changes
  callbacks := shared.callbacks

/-- What an operation can do to the stream's state. -/
inductive StandingStep (shared : Shared) (op : Op) (after : Standing) : Prop
  | same (equal : after = shared.standing)
  | opened (backoff : Backoff) (req : Option Request)
      (running : op = .run (.openStream backoff req))
      (equal : after =
        { shared.standing with
          opened := shared.opened + 1
          live := some shared.opened })
  | set (k : Nat) (up : Bool)
      (running : (up = true ∧ ∃ acceptance, op = .recv k (.up acceptance)) ∨
        (up = false ∧ ∃ backoff req, op = .run (.down k backoff req)))
      (equal : after =
        { shared.standing with
          live := shared.liveAfter k up
          streamUp := if shared.upChanged k up then up else shared.streamUp
          recorded := shared.history.recorded ++ [(k, up)]
          changes :=
            shared.history.changes + if shared.upChanged k up then 1 else 0 })
  | called (k : Nat) (running : op = .session k .callback)
      (equal : after =
        { shared.standing with callbacks := shared.callbacks + 1 })

/-- Whether a send loop returns to the run loop. -/
def LoopReturn.isRun : LoopReturn → Bool
  | .run _ => true
  | .serve => false

/-- What an operation of the run loop of an outbound channel knows of the live
session. -/
def Op.Staged (live : Option Nat) : Op → Prop
  | .send k back _ => back.isRun = true ∧ live = some k
  | .inbound _ => False
  | .run (.down k _ _) => live = some k
  | .run _ => live = none
  | _ => True

/-- Whether an operation is a stream-change callback. -/
def Op.isCallback : Op → Bool
  | .session _ .callback => true
  | _ => false

/-- The stream-change callbacks that are due. -/
def due (ops : List Op) : Nat :=
  ops.countP Op.isCallback

@[simp] theorem due_nil : due [] = 0 := rfl

@[simp] theorem due_cons (op : Op) (ops : List Op) :
    due (op :: ops) = due ops + if op.isCallback then 1 else 0 :=
  List.countP_cons

@[simp] theorem due_append (front back : List Op) :
    due (front ++ back) = due front + due back :=
  List.countP_append

/-- Whether an operation is neither one of the run loop nor a callback. -/
def Op.apart : Op → Bool
  | .send _ _ _ => false
  | .inbound _ => false
  | .run _ => false
  | .session _ .callback => false
  | _ => true

theorem Op.staged_of_apart {op : Op} (away : op.apart = true)
    (live : Option Nat) : op.Staged live := by
  revert away
  fun_cases Op.apart op <;> simp_all [Op.Staged]

theorem Op.isCallback_of_apart {op : Op} (away : op.apart = true) :
    op.isCallback = false := by
  revert away
  fun_cases Op.apart op <;> simp_all [Op.isCallback]

theorem apart_watchers {k : Nat} {watches : List PendingCalls.Watch} {op : Op}
    (member : op ∈ (watchers k watches).flatten) : op.apart = true := by
  obtain ⟨watch, rfl⟩ := expire_of_watchers member
  rfl

/-- What an operation can do to the stream's state and leave to the run loop. -/
structure StageStep (config : Config) (shared : Shared) (op : Op)
    (outcome : Effect) : Prop where
  /-- The stream's state. -/
  standing : StandingStep shared op outcome.shared.standing
  /-- The run loop. -/
  staged : op.Staged shared.live →
    ∀ later ∈ outcome.next ++ outcome.spawned.flatten,
      later.Staged outcome.shared.live
  /-- The callbacks. -/
  callbacks : outcome.shared.callbacks +
      due (outcome.next ++ outcome.spawned.flatten) +
      (if config.onStreamChange then shared.history.changes else 0) =
    shared.callbacks + due [op] +
      if config.onStreamChange then outcome.shared.history.changes else 0

section Exec

variable {config : Config} {shared : Shared} {outcome : Effect}

/-- Most operations leave the stream's state alone. -/
theorem StageStep.of_same {op : Op} {after : Shared} {next : List Op}
    {spawned : List (List Op)}
    (standing : StandingStep shared op after.standing)
    (changes : after.history.changes = shared.history.changes)
    (callbacks : after.callbacks = shared.callbacks)
    (plain : op.isCallback = false)
    (quiet : ∀ later ∈ next ++ spawned.flatten, later.isCallback = false)
    (staged : op.Staged shared.live →
      ∀ later ∈ next ++ spawned.flatten, later.Staged after.live) :
    StageStep config shared op ⟨after, next, spawned⟩ where
  standing := standing
  staged := staged
  callbacks := by
    have none : due (next ++ spawned.flatten) = 0 :=
      List.countP_eq_zero.mpr fun later member => by
        simp [quiet later member]
    rw [none, due_cons, plain, callbacks, changes]
    rfl

/-- Most operations have nothing to do with the run loop either. -/
theorem StageStep.of_apart {op : Op} {after : Shared} {next : List Op}
    {spawned : List (List Op)} (same : after.standing = shared.standing)
    (plain : op.isCallback = false)
    (away : ∀ later ∈ next ++ spawned.flatten, later.apart = true) :
    StageStep config shared op ⟨after, next, spawned⟩ :=
  .of_same (.same same) (congrArg Standing.changes same)
    (congrArg Standing.callbacks same) plain
    (fun later member => Op.isCallback_of_apart (away later member))
    (fun _ later member => Op.staged_of_apart (away later member) _)

/-- `setStreamUp` calls the callback if there is one and the stream changes. -/
theorem StageStep.of_set {op : Op} {k : Nat} {up : Bool} {rest : List Op}
    (running : (up = true ∧ ∃ acceptance, op = .recv k (.up acceptance)) ∨
      (up = false ∧ ∃ backoff req, op = .run (.down k backoff req)))
    (plain : op.isCallback = false) (quiet : due rest = 0)
    (staged : op.Staged shared.live → ∀ later ∈ rest,
      later.Staged (shared.liveAfter k up)) :
    StageStep config shared op (setStreamUp config shared k up rest) where
  standing := .set k up running rfl
  staged holds later member := by
    have inside : later ∈ (if shared.callsBack config k up then
        [.session k .callback] else []) ++ rest := by
      simpa using member
    rcases List.mem_append.mp inside with callback | following
    · split at callback
      · cases List.mem_singleton.mp callback
        trivial
      · cases callback
    · exact staged holds later following
  callbacks := by
    have callback : (Op.session k .callback).isCallback = true := rfl
    cases notified : config.onStreamChange <;>
      cases changed : shared.upChanged k up <;>
      simp [Shared.callsBack, callback, notified, changed, plain, quiet]
    omega

/-- The send loop goes on on the same session. -/
theorem StageStep.of_loop {k : Nat} {back : LoopReturn} {op : SendOp}
    {after : Shared} {next : List Op} {spawned : List (List Op)}
    (same : after.standing = shared.standing)
    (away : ∀ later ∈ next ++ spawned.flatten,
      later.apart = true ∨ ∃ op, later = .send k back op) :
    StageStep config shared (.send k back op) ⟨after, next, spawned⟩ := by
  have live : after.live = shared.live := congrArg Standing.live same
  refine .of_same (.same same) (congrArg Standing.changes same)
    (congrArg Standing.callbacks same) rfl ?_ ?_
  · intro later member
    rcases away later member with apart | ⟨op, equal⟩
    · exact Op.isCallback_of_apart apart
    · rw [equal]
      rfl
  · intro staged later member
    rcases away later member with apart | ⟨op, equal⟩
    · exact Op.staged_of_apart apart _
    · rw [equal, live]
      exact staged

theorem stage_send {k : Nat} {back : LoopReturn} {op : SendOp}
    {choice : Choice}
    (does : SendDoes config shared choice k back op outcome) :
    StageStep config shared (.send k back op) outcome := by
  cases does with
  | stopRun =>
      refine ⟨.same rfl, ?_, by simp [Op.isCallback]⟩
      intro staged
      simp [Op.Staged, staged.2]
  | stopServe =>
      refine ⟨.same rfl, ?_, by simp [Op.isCallback]⟩
      intro staged
      cases staged.1
  | add =>
      refine .of_loop rfl ?_
      intro later member
      rcases List.mem_append.mp member with following | watching
      · exact .inr ⟨_, List.mem_singleton.mp following⟩
      · exact .inl (apart_watchers watching)
  | _ =>
      exact .of_loop rfl (by
        simp [Op.apart, loopReturn, deliverError, or_imp, forall_and])

theorem stage_recv {k : Nat} {op : RecvOp} {choice : Choice}
    (does : RecvDoes config shared choice k op outcome) :
    StageStep config shared (.recv k op) outcome := by
  cases does with
  | upHeader | upFrame =>
      exact .of_set (.inl ⟨rfl, _, rfl⟩) rfl (by simp [Op.isCallback])
        (by simp [Op.Staged])
  | _ => exact .of_apart rfl rfl (by simp [Op.apart, or_imp, forall_and])

theorem stage_run {op : RunOp} (does : RunDoes config shared op outcome) :
    StageStep config shared (.run op) outcome := by
  cases does with
  | down =>
      refine .of_set (.inr ⟨rfl, _, _, rfl⟩) rfl (by simp [Op.isCallback]) ?_
      intro staged
      have live : shared.live = some _ := staged
      simp [Op.Staged, Shared.liveAfter, live]
  | openStream | openIdle =>
      refine .of_same (.opened _ _ rfl rfl) rfl rfl rfl
        (by simp [Op.isCallback]) ?_
      intro _
      simp [Op.Staged, Shared.openSession, LoopReturn.isRun]
  | _ =>
      refine .of_same (.same rfl) rfl rfl rfl
        (by simp [Op.isCallback, or_imp, forall_and]) ?_
      intro staged
      have none : shared.live = none := staged
      simp [Op.Staged, none, or_imp, forall_and]

/-- Every operation treats the stream's state in one of these ways. -/
theorem stage_exec {op : Op} {choice : Choice}
    (executed : exec config shared op choice = some outcome) :
    StageStep config shared op outcome := by
  cases exec_does executed with
  | @session k _ _ _ does =>
      cases does with
      | callback => exact ⟨.called k rfl rfl, by simp, by simp [Op.isCallback]⟩
      | _ => exact .of_apart rfl rfl (by simp [Op.apart, deliverError])
  | send _ does => exact stage_send does
  | recv _ does => exact stage_recv does
  | run _ does => exact stage_run does
  | watchExpiry =>
      refine .of_apart rfl rfl fun later member => ?_
      rcases List.mem_append.mp member with following | watching
      · cases List.mem_singleton.mp following
        rfl
      · exact apart_watchers watching
  | acceptHeader | noHeader | acceptCtx | acceptFrame | left | inboundCancel =>
      exact .of_same (.same rfl) rfl rfl rfl
        (by simp [Op.isCallback, or_imp, forall_and]) False.elim
  | dispatch =>
      refine .of_apart rfl rfl fun later member => ?_
      obtain ⟨inner, rfl⟩ := dispatch_of_liftDispatch member
      rfl
  | queue does =>
      cases does <;> exact .of_apart rfl rfl (by simp [Op.apart, deliverError])
  | _ => exact .of_apart rfl rfl (by simp [Op.apart, or_imp, forall_and])

/-- The environment does not touch the stream's state. -/
theorem standing_environment {event : Event} {after : Shared}
    (acted : environment shared event = some after) :
    after.standing = shared.standing := by
  cases environment_acts acted <;> rfl

end Exec

/-- The stream is up exactly if the live session's acceptance has been
recorded. -/
structure Standing.Reports (standing : Standing) : Prop where
  /-- Only opened sessions are recorded. -/
  bounded : ∀ entry ∈ standing.recorded, entry.1 < standing.opened
  /-- The end of the live session's send loop has not been recorded. -/
  undone : ∀ k, standing.live = some k → (k, false) ∉ standing.recorded
  /-- The acceptance of the live session brings the stream up. -/
  up : standing.streamUp = true ↔
    ∃ k, standing.live = some k ∧ (k, true) ∈ standing.recorded

section Steps

variable {config : Config} {shared : Shared} {outcome : Effect}

/-- Opening a stream makes a session live that has not been recorded. -/
theorem Standing.Reports.opened {standing : Standing}
    (reports : standing.Reports) (none : standing.live = none) :
    ({ standing with
      opened := standing.opened + 1
      live := some standing.opened } : Standing).Reports := by
  have new : ∀ up, (standing.opened, up) ∉ standing.recorded := by
    intro up member
    exact Nat.lt_irrefl _ (reports.bounded _ member)
  constructor
  · intro entry member
    exact Nat.lt_succ_of_lt (reports.bounded entry member)
  · intro k live
    cases live
    exact new false
  · have down : ¬ standing.streamUp = true := by
      intro up
      obtain ⟨k, live, _⟩ := reports.up.mp up
      rw [none] at live
      cases live
    constructor
    · intro up
      exact absurd up down
    · rintro ⟨k, live, member⟩
      cases live
      exact absurd member (new true)

/-- Only the acceptance of the live session brings the stream up. -/
theorem Standing.Reports.accepted (reports : shared.standing.Reports) {k : Nat}
    (inside : k < shared.opened) :
    ({ shared.standing with
      live := shared.liveAfter k true
      streamUp := if shared.upChanged k true then true else shared.streamUp
      recorded := shared.history.recorded ++ [(k, true)]
      changes := shared.history.changes +
        if shared.upChanged k true then 1 else 0 } : Standing).Reports := by
  constructor
  · intro entry member
    rcases List.mem_append.mp member with earlier | now
    · exact reports.bounded entry earlier
    · cases List.mem_singleton.mp now
      exact inside
  · intro other live member
    rcases List.mem_append.mp member with earlier | now
    · exact reports.undone other live earlier
    · cases List.mem_singleton.mp now
  · have up : shared.streamUp = true ↔
        ∃ k, shared.live = some k ∧ (k, true) ∈ shared.history.recorded :=
      reports.up
    have sameLive : shared.liveAfter k true = shared.live := rfl
    simp only [sameLive, List.mem_append, List.mem_singleton, Prod.mk.injEq,
      and_true]
    by_cases isLive : shared.live = some k
    · cases isUp : shared.streamUp <;> simp [Shared.upChanged, isLive, isUp]
    · have kept : shared.upChanged k true = false := by
        simp [Shared.upChanged, isLive]
      rw [kept]
      constructor
      · intro isUp
        obtain ⟨other, live, member⟩ := up.mp isUp
        exact ⟨other, live, .inl member⟩
      · rintro ⟨other, live, earlier | now⟩
        · exact up.mpr ⟨other, live, earlier⟩
        · rw [now] at live
          exact absurd live isLive

/-- The end of the live session's send loop brings the stream down. -/
theorem Standing.Reports.ended (reports : shared.standing.Reports) {k : Nat}
    (live : shared.live = some k) (inside : k < shared.opened) :
    ({ shared.standing with
      live := shared.liveAfter k false
      streamUp := if shared.upChanged k false then false else shared.streamUp
      recorded := shared.history.recorded ++ [(k, false)]
      changes := shared.history.changes +
        if shared.upChanged k false then 1 else 0 } : Standing).Reports := by
  have none : shared.liveAfter k false = none := by
    simp [Shared.liveAfter, live]
  constructor
  · intro entry member
    rcases List.mem_append.mp member with earlier | now
    · exact reports.bounded entry earlier
    · cases List.mem_singleton.mp now
      exact inside
  · intro other still
    rw [none] at still
    cases still
  · cases isUp : shared.streamUp <;>
      simp [Shared.upChanged, isUp, none]

/-- A step keeps the report. -/
theorem reports_step {op : Op} {after : Shared}
    (reports : shared.standing.Reports)
    (inside : op.opened shared.opened = true)
    (staged : op.Staged shared.live)
    (standing : StandingStep shared op after.standing) :
    after.standing.Reports := by
  cases standing with
  | same equal =>
      rw [equal]
      exact reports
  | opened backoff req running equal =>
      rw [running] at staged
      rw [equal]
      exact reports.opened staged
  | set k up running equal =>
      rw [equal]
      rcases running with ⟨rfl, acceptance, rfl⟩ | ⟨rfl, backoff, req, rfl⟩
      · exact reports.accepted (of_decide_eq_true inside)
      · exact reports.ended staged (of_decide_eq_true inside)
  | called k running equal =>
      rw [equal]
      exact ⟨reports.bounded, reports.undone, reports.up⟩

/-- The number of changes counts how often the stream's state changes. -/
theorem changes_step {op : Op} {after : Shared}
    (standing : StandingStep shared op after.standing) :
    after.history.changes = shared.history.changes +
      if after.streamUp = shared.streamUp then 0 else 1 := by
  have kept : after.streamUp = shared.streamUp →
      after.history.changes = shared.history.changes →
      after.history.changes = shared.history.changes +
        if after.streamUp = shared.streamUp then 0 else 1 := by
    intro streamUp changes
    rw [if_pos streamUp, changes, Nat.add_zero]
  cases standing with
  | same equal =>
      exact kept (congrArg Standing.streamUp equal)
        (congrArg Standing.changes equal)
  | opened _ _ _ equal =>
      exact kept (congrArg Standing.streamUp equal)
        (congrArg Standing.changes equal)
  | set k up _ equal =>
      have streamUp : after.streamUp = _ := congrArg Standing.streamUp equal
      have changes : after.history.changes = _ :=
        congrArg Standing.changes equal
      rw [streamUp, changes]
      by_cases change : shared.upChanged k up = true
      · have different : up ≠ shared.streamUp := by
          simp only [Shared.upChanged, Bool.and_eq_true, bne_iff_ne] at change
          exact Ne.symm change.2
        simp [change, different]
      · simp [change]
  | called _ _ equal =>
      exact kept (congrArg Standing.streamUp equal)
        (congrArg Standing.changes equal)

/-- Only the run loop knows of the live session. -/
theorem Op.main_of_staged {op : Op} {live after : Option Nat}
    (staged : op.Staged live) (changed : ¬ op.Staged after) :
    .main ∈ op.roles := by
  revert staged changed
  cases op with
  | send k back op => simp [Op.roles]
  | run op => simp [Op.roles]
  | _ => simp [Op.Staged]

end Steps

section Runs

open Pool

variable {config : Config} {workload : Workload}
  {allowed : ChannelState → Step → Prop} {state : ChannelState}

/-- Only the run loop changes the live session, so everyone else's knowledge of
it stays true. -/
theorem staged_stable {next : ChannelState} {thread : Nat} {choice : Choice}
    (reached : config.Reaches workload allowed state)
    (runs : (channel config).Runs state thread choice next)
    {op : Op} (other : op ∈ runs.others) (staged : op.Staged state.shared.live) :
    op.Staged runs.outcome.shared.live := by
  by_contra unstaged
  have running : Role.main ∉ runs.op.roles := fun running =>
    sole_main reached runs running other (Op.main_of_staged staged unstaged)
  have same : runs.outcome.shared.live = state.shared.live := by
    cases (stage_exec runs.exec_eq).standing with
    | same equal => exact congrArg Standing.live equal
    | opened _ _ opens _ =>
        rw [opens] at running
        simp [Op.roles] at running
    | set k up by_ equal =>
        rcases by_ with ⟨rfl, _⟩ | ⟨_, _, _, downs⟩
        · exact congrArg Standing.live equal
        · rw [downs] at running
          simp [Op.roles] at running
    | called _ _ equal => exact congrArg Standing.live equal
  rw [same] at unstaged
  exact unstaged staged

/-- In every run of an outbound channel, the stream is up exactly if the live
session's acceptance has been recorded, and the run loop knows which session is
live. -/
theorem reports_reached (outbound : config.kind = .outbound)
    (reached : config.Reaches workload allowed state) :
    state.shared.standing.Reports ∧
      ∀ op ∈ state.ops, op.Staged state.shared.live := by
  refine reached.annotated (fun shared => shared.standing.Reports)
    (fun shared op => op.Staged shared.live) ?_ ?_ ?_
  · refine ⟨?_, ?_⟩
    · constructor <;> simp [Config.start, outbound, Shared.standing]
    · intro op member
      rcases config.mem_start_ops workload member with
        ⟨_, rfl⟩ | ⟨kind, _⟩ | ⟨_, _, rfl⟩ | rfl | ⟨_, rfl⟩
      · simp [Op.Staged, Config.start, outbound]
      · rw [outbound] at kind
        cases kind
      · trivial
      · trivial
      · trivial
  · intro state thread choice next runs reached _ reports staged
    have step := stage_exec runs.exec_eq
    have noted := (closedDown_reached reached).2 runs.op runs.op_mem
    refine ⟨reports_step reports noted.1 staged step.standing, ?_, ?_⟩
    · exact step.staged staged
    · intro op other holds
      exact staged_stable reached runs other holds
  · intro shared event after acted reports
    have same := standing_environment acted
    have live : after.live = shared.live := congrArg Standing.live same
    rw [same, live]
    exact ⟨reports, fun _ staged => staged⟩

/-- The ledger of the stream-change callbacks: those that have started and
those that are due, against the changes of the stream's state. -/
def notices (config : Config) : Ledger Shared Op where
  credit shared := shared.callbacks
  debit shared :=
    if config.onStreamChange then shared.history.changes else 0
  weight op := if op.isCallback then 1 else 0

theorem weigh_notices (ops : List Op) : (notices config).weigh ops = due ops := by
  induction ops with
  | nil => rfl
  | cons op ops inductionHypothesis =>
      rw [Ledger.weigh_cons, due_cons, inductionHypothesis, Nat.add_comm]
      rfl

theorem notices_keeps {shared : Shared} {op : Op} {outcome : Effect}
    (step : StageStep config shared op outcome) :
    (notices config).Keeps shared op outcome := by
  have callbacks := step.callbacks
  rw [due_append, due_cons, due_nil, Nat.zero_add] at callbacks
  unfold Ledger.Keeps Ledger.worth
  rw [weigh_notices, weigh_notices]
  simp only [notices]
  omega

/-- In every run, a callback has started or is due for every change of the
stream's state. -/
theorem notices_reached (reached : config.Reaches workload allowed state) :
    state.shared.callbacks + due state.ops =
      if config.onStreamChange then state.shared.history.changes else 0 := by
  have balance := (notices config).balanced
    (fun _ _ _ _ executed _ => notices_keeps (stage_exec executed))
    (fun _ _ _ acted => by
      have same := standing_environment acted
      have callbacks := congrArg Standing.callbacks same
      have changes := congrArg Standing.changes same
      simp only [Shared.standing] at callbacks changes
      simp only [notices, callbacks, changes, and_self]) reached
  have start : due (config.start workload).ops = 0 := by
    refine List.countP_eq_zero.mpr fun op member => ?_
    rcases config.mem_start_ops workload member with
      ⟨_, rfl⟩ | ⟨_, rfl | rfl⟩ | ⟨_, _, rfl⟩ | rfl | ⟨_, rfl⟩ <;>
      simp [Op.isCallback]
  have uncalled : (config.start workload).shared.callbacks = 0 := by
    unfold Config.start
    cases config.kind <;> rfl
  rw [weigh_notices, weigh_notices, start] at balance
  simpa [notices, uncalled] using balance

/-- In every run of an outbound channel: `StreamUp` is true exactly if there is
a live session, its acceptance has been recorded and the end of its send loop
has not; the acceptance of any other session does not change it; it is false
when a stream is opened; and a callback has started or is due for each change of
it. -/
theorem streamUp_reports_live (outbound : config.kind = .outbound)
    (reached : config.Reaches workload allowed state) :
    (state.shared.streamUp = true ↔
      ∃ k, state.shared.live = some k ∧
        (k, true) ∈ state.shared.history.recorded ∧
        (k, false) ∉ state.shared.history.recorded) ∧
    (∀ thread choice next (runs : (channel config).Runs state thread choice next)
      k acceptance, runs.op = .recv k (.up acceptance) →
      state.shared.live ≠ some k →
      next.shared.streamUp = state.shared.streamUp) ∧
    (∀ thread choice next (runs : (channel config).Runs state thread choice next)
      backoff req, runs.op = .run (.openStream backoff req) →
      state.shared.streamUp = false ∧ next.shared.streamUp = false) ∧
    (config.onStreamChange = true →
      state.shared.callbacks + due state.ops = state.shared.history.changes) ∧
    ∀ label next, (channel config).step state label = some next →
      next.shared.history.changes = state.shared.history.changes +
        if next.shared.streamUp = state.shared.streamUp then 0 else 1 := by
  obtain ⟨reports, staged⟩ := reports_reached outbound reached
  refine ⟨?_, ?_, ?_, ?_, ?_⟩
  · refine reports.up.trans (exists_congr fun k => and_congr_right fun live => ?_)
    exact (and_iff_left (reports.undone k live)).symm
  · intro thread choice next runs k acceptance accepts other
    rw [runs.next_shared]
    cases (stage_exec runs.exec_eq).standing with
    | same equal => exact congrArg Standing.streamUp equal
    | opened _ _ _ equal => exact congrArg Standing.streamUp equal
    | set set up running equal =>
        have streamUp : runs.outcome.shared.streamUp = _ :=
          congrArg Standing.streamUp equal
        rw [accepts] at running
        rcases running with ⟨rfl, _, same⟩ | ⟨_, _, _, different⟩
        · cases same
          rw [streamUp]
          simp [Shared.upChanged, other]
        · cases different
    | called _ _ equal => exact congrArg Standing.streamUp equal
  · intro thread choice next runs backoff req opens
    have none := staged runs.op runs.op_mem
    rw [opens] at none
    have down : state.shared.streamUp = false := by
      apply Bool.eq_false_of_not_eq_true
      intro up
      obtain ⟨k, live, _⟩ := reports.up.mp up
      cases live.symm.trans none
    refine ⟨down, ?_⟩
    rw [runs.next_shared]
    cases (stage_exec runs.exec_eq).standing with
    | same equal => exact (congrArg Standing.streamUp equal).trans down
    | opened _ _ _ equal => exact (congrArg Standing.streamUp equal).trans down
    | set set up running equal =>
        rw [opens] at running
        rcases running with ⟨_, _, different⟩ | ⟨_, _, _, different⟩ <;>
          cases different
    | called _ _ equal => exact (congrArg Standing.streamUp equal).trans down
  · intro notified
    simpa [notified] using notices_reached reached
  · intro label next stepped
    rcases Machine.step_cases stepped with
      ⟨thread, choice, _, ⟨runs⟩⟩ | ⟨event, shared, _, acted, equal⟩
    · rw [runs.next_shared]
      exact changes_step (stage_exec runs.exec_eq).standing
    · have same := standing_environment acted
      have streamUp : shared.streamUp = state.shared.streamUp :=
        congrArg Standing.streamUp same
      have changes : shared.history.changes = state.shared.history.changes :=
        congrArg Standing.changes same
      rw [equal]
      simp [streamUp, changes]

/-- The server accepts the first stream. -/
def acceptedRun : List Step :=
  Step.first 0 2 ++ Step.first 2 6

theorem acceptedRun_followed :
    (smallOutbound.follow drainOnly acceptedRun).isSome = true := by
  decide +kernel

theorem streamUp_reports_live_accepted :
    ∃ state, smallOutbound.Reaches drainOnly (fun _ _ => True) state ∧
      state.shared.streamUp = true ∧
      state.shared.callbacks + due state.ops = 1 := by
  have reached := Config.reaches_of_follow acceptedRun_followed
  obtain ⟨up, _, _, callbacks, _⟩ := streamUp_reports_live rfl reached
  exact ⟨_, reached,
    up.mpr ⟨0, by decide +kernel, by decide +kernel, by decide +kernel⟩,
    (callbacks rfl).trans (by decide +kernel)⟩

end Runs

end Stream
end Gorums
