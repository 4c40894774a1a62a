import Gorums.Stream.Disposal

/-!
# Draining

A session that is draining, has stopped sending and has no pending calls is
*quiet*.  Whatever makes a session quiet is followed, in the same goroutine, by
a call of `endIfDrained`, and a quiet session stays quiet.  So every quiet
session ends, and it leaves no calls when it does.
-/

namespace Gorums
namespace Stream

/-- The session is draining, has stopped sending and has no pending calls. -/
def Session.Quiet (session : Session) : Prop :=
  session.draining = true ∧ session.sendStopped = true ∧
    session.pending.calls = []

/-- The number of operations of `endIfDrained` before the one that ends a quiet
session. -/
def SessionOp.untilEnd : SessionOp → Option Nat
  | .endCancel => some 0
  | .ifEmpty => some 1
  | .ifStopped => some 2
  | .ifDraining => some 3
  | _ => none

/-- The number of operations of `startDrain` before the one that ends a quiet
session, once the session is draining. -/
def WatchOp.untilEnd : WatchOp → Option Nat
  | .close => some 4
  | .watch => some 5
  | _ => none

/-- The number of operations of an operation's goroutine before the one that
ends session `k` if it is quiet. -/
def Op.untilEnd (k : Nat) : Op → Option Nat
  | .session other op => if other = k then op.untilEnd else none
  | .watch other op => if other = k then op.untilEnd else none
  | _ => none

/-- Whether an operation takes a pending call of session `k`. -/
def Op.takes (k : Nat) : Op → Bool
  | .session other (.take _ _) => decide (other = k)
  | _ => false

/-- Whether an operation neither takes calls nor drains tables. -/
def Op.light : Op → Bool
  | .session _ (.take _ _) => false
  | .session _ .endDrain => false
  | .send _ _ (.drain _ _) => false
  | .recv _ (.drain _) => false
  | .close .endDrain => false
  | _ => true

theorem Op.takes_of_light {op : Op} (light : op.light = true) (k : Nat) :
    op.takes k = false := by
  revert light
  fun_cases Op.light op <;> simp_all [Op.takes]

theorem Op.drains_of_light {op : Op} (light : op.light = true) (k : Nat) :
    op.drains k = false := by
  revert light
  fun_cases Op.light op <;> simp_all [Op.drains]

/-- What an operation can do to a session that is about to become quiet. -/
structure QuietStep (shared : Shared) (k : Nat) (op : Op) (outcome : Effect) :
    Prop where
  /-- A session becomes quiet only if `endIfDrained` is still to be called. -/
  quiet : (outcome.shared.session k).Quiet →
    (shared.session k).Quiet ∨ op.takes k = true ∨ op.drains k = true ∨
      ∃ later ∈ outcome.next, (later.untilEnd k).isSome = true
  /-- A session ends before its table is drained. -/
  ended : ∀ later ∈ outcome.next ++ outcome.spawned.flatten,
    later.drains k = true → (outcome.shared.session k).done = true
  /-- Taking a call is followed by `endIfDrained`. -/
  covered : Pool.Covered (fun later : Op => later.takes k = true)
    (fun later => (later.untilEnd k).isSome = true) outcome.next
  /-- No goroutine starts with it. -/
  spawned : ∀ later ∈ outcome.spawned.flatten, later.takes k = false

section Exec

variable {config : Config} {shared : Shared} {outcome : Effect} {k : Nat}

/-- Most operations leave operations that neither take calls nor drain
tables. -/
theorem QuietStep.of_light {op : Op} {after : Shared} {next : List Op}
    {spawned : List (List Op)}
    (quiet : (after.session k).Quiet →
      (shared.session k).Quiet ∨ op.takes k = true ∨ op.drains k = true ∨
        ∃ later ∈ next, (later.untilEnd k).isSome = true)
    (light : ∀ later ∈ next ++ spawned.flatten, later.light = true) :
    QuietStep shared k op ⟨after, next, spawned⟩ where
  quiet := quiet
  ended later member drains := by
    rw [Op.drains_of_light (light later member) k] at drains
    cases drains
  covered := Pool.Covered.of_light fun later member => by
    simp [Op.takes_of_light (light later (List.mem_append_left _ member)) k]
  spawned later member :=
    Op.takes_of_light (light later (List.mem_append_right _ member)) k

/-- Some operations leave one that drains the table, after they have ended its
session. -/
theorem QuietStep.of_cancel {op : Op} {other : Nat} {later : Op}
    (drains : later.drains k = decide (other = k))
    (untaken : later.takes k = false) :
    QuietStep shared k op ⟨shared.cancelSession other, [later], []⟩ where
  quiet quiet := by
    refine .inl ?_
    by_cases same : k = other
    · simpa [same, Session.Quiet] using quiet
    · simpa [same] using quiet
  ended next member ends := by
    cases List.mem_singleton.mp (by simpa using member)
    rw [drains, decide_eq_true_eq] at ends
    simp [ends]
  covered := Pool.Covered.of_light (by simp [untaken])
  spawned next member := by cases member

/-- A change of a session that leaves its drain alone. -/
theorem quiet_update {other : Nat} {change : Session → Session}
    (quiet : ((shared.update other change).session k).Quiet)
    (same : (change (shared.session other)).Quiet →
      (shared.session other).Quiet) :
    (shared.session k).Quiet := by
  rw [Shared.update_session] at quiet
  split at quiet
  · rename_i equal
    rw [equal]
    exact same quiet
  · exact quiet

/-- Operations that drain a table leave operations that dispose of its calls. -/
theorem quiet_drainCalls {op : Op} {other : Nat} {err : Option Err}
    {order : List Request} {rest : List Op}
    (drains : op.drains k = decide (other = k))
    (light : ∀ later ∈ rest, later.light = true) :
    QuietStep shared k op (drainCalls shared other err order rest) := by
  apply QuietStep.of_light
  · intro quiet
    by_cases same : other = k
    · rw [same, decide_eq_true rfl] at drains
      exact .inr (.inr (.inl drains))
    · exact .inl (by simpa [Ne.symm same] using quiet)
  · intro later member
    simp only [List.flatten_nil, List.append_nil, List.mem_append,
      List.mem_map] at member
    rcases member with ⟨req, _, equal⟩ | following
    · rw [← equal]
      rfl
    · exact light later following

theorem light_watchers {other : Nat} {watches : List PendingCalls.Watch}
    {later : Op} (member : later ∈ (watchers other watches).flatten) :
    later.light = true := by
  obtain ⟨watch, rfl⟩ := expire_of_watchers member
  rfl

theorem quiet_session {other : Nat} {op : SessionOp}
    (does : SessionDoes config shared other op outcome) :
    QuietStep shared k (.session other op) outcome := by
  cases does with
  | endCancel => exact .of_cancel rfl rfl
  | endDrain => exact quiet_drainCalls rfl (by simp)
  | take | unmatched | expire =>
      refine .of_light (fun quiet => ?_) (by simp [Op.light])
      by_cases same : other = k
      · exact .inr (by simp [Op.takes, Op.untilEnd, SessionOp.untilEnd, same])
      · exact .inl (by simpa [Ne.symm same] using quiet)
  | cancel =>
      exact .of_light (fun quiet => .inl (quiet_update quiet id)) (by simp)
  | _ => exact .of_light .inl (by simp [Op.light, deliverError])

theorem quiet_send {other : Nat} {back : LoopReturn} {op : SendOp}
    {choice : Choice}
    (does : SendDoes config shared choice other back op outcome) :
    QuietStep shared k (.send other back op) outcome := by
  cases does with
  | add _ added =>
      apply QuietStep.of_light
      · intro quiet
        have update : ((shared.setPending other _).session k).Quiet := quiet
        exact .inl (quiet_update update fun quiet =>
          absurd quiet.2.2 (PendingCalls.calls_add_ne_nil added))
      · intro later member
        rcases List.mem_append.mp member with following | watching
        · cases List.mem_singleton.mp following
          rfl
        · exact light_watchers watching
  | cancel => exact .of_cancel rfl rfl
  | drain => exact quiet_drainCalls rfl (by simp [Op.light])
  | swap =>
      exact .of_light (fun quiet => .inl (quiet_update quiet id))
        (by simp [Op.light])
  | stopRun | stopServe =>
      refine .of_light (fun quiet => ?_) (by simp [Op.light])
      by_cases same : other = k
      · exact .inr (by simp [Op.untilEnd, SessionOp.untilEnd, same])
      · exact .inl (by simpa [Ne.symm same] using quiet)
  | _ =>
      exact .of_light .inl
        (by simp [Op.light, deliverError, loopReturn, or_imp, forall_and])

theorem quiet_recv {other : Nat} {op : RecvOp} {choice : Choice}
    (does : RecvDoes config shared choice other op outcome) :
    QuietStep shared k (.recv other op) outcome := by
  cases does with
  | response =>
      exact ⟨.inl, by simp [Op.drains], by simp [Pool.Covered, Op.takes,
        Op.untilEnd, SessionOp.untilEnd], by simp⟩
  | cancel => exact .of_cancel rfl rfl
  | drain => exact quiet_drainCalls rfl (by simp [Op.light])
  | header | frame | accept | handoff | verdict | swap | refusal | close =>
      exact .of_light (fun quiet => .inl (quiet_update quiet id))
        (by simp [Op.light])
  | _ => exact .of_light .inl (by simp [Op.light, or_imp, forall_and])

/-- A new session is not draining. -/
theorem quiet_openSession {suspect : Bool}
    (quiet : ((shared.openSession suspect).session k).Quiet) :
    (shared.session k).Quiet := by
  have update : ((shared.update shared.opened fun _ =>
    openedSession suspect).session k).Quiet := quiet
  exact quiet_update update fun new => Bool.noConfusion new.1

/-- Every operation that makes a session quiet leaves a call of
`endIfDrained`. -/
theorem quiet_exec {op : Op} {choice : Choice}
    (executed : exec config shared op choice = some outcome) :
    QuietStep shared k op outcome := by
  cases exec_does executed with
  | session _ does => exact quiet_session does
  | send _ does => exact quiet_send does
  | recv _ does => exact quiet_recv does
  | run _ does =>
      cases does with
      | openStream | openIdle =>
          exact .of_light (.inl ∘ quiet_openSession) (by simp [Op.light])
      | _ => exact .of_light .inl (by simp [Op.light, or_imp, forall_and])
  | @drainFirst other =>
      refine .of_light (fun quiet => ?_) (by simp [Op.light])
      by_cases same : other = k
      · exact .inr (by simp [Op.untilEnd, WatchOp.untilEnd, same])
      · exact .inl (by simpa [Ne.symm same] using quiet)
  | @watchExpiry other =>
      refine .of_light (fun quiet => ?_) fun later member => ?_
      · by_cases same : other = k
        · exact .inr (by simp [Op.untilEnd, WatchOp.untilEnd, same])
        · exact .inl (by simpa [Ne.symm same] using quiet)
      · rcases List.mem_append.mp member with following | watching
        · cases List.mem_singleton.mp following
          rfl
        · exact light_watchers watching
  | closeDrain =>
      exact .of_light (fun quiet => .inl (quiet_update quiet id))
        (by simp [Op.light])
  | endCancel => exact .of_cancel rfl rfl
  | endDrain => exact quiet_drainCalls rfl (by simp [Op.light])
  | dispatch =>
      refine .of_light .inl fun later member => ?_
      obtain ⟨inner, rfl⟩ := dispatch_of_liftDispatch member
      rfl
  | queue does =>
      cases does <;> exact .of_light .inl (by simp [Op.light, deliverError])
  | _ => exact .of_light .inl (by simp [Op.light, or_imp, forall_and])

/-- The operations of `endIfDrained` lead to the end of a quiet session. -/
theorem untilEnd_exec {op : Op} {choice : Choice} {count : Nat}
    (ahead : op.untilEnd k = some count) (quiet : (shared.session k).Quiet)
    (executed : exec config shared op choice = some outcome) :
    (count = 0 ∧ (outcome.shared.session k).done = true) ∨
      ∃ fewer later rest, count = fewer + 1 ∧ outcome.next = later :: rest ∧
        later.untilEnd k = some fewer := by
  obtain ⟨draining, stopped, empty⟩ := quiet
  have does := exec_does executed
  clear executed
  cases does with
  | @session other _ _ _ does =>
      rcases eq_or_ne other k with same | other
      · subst same
        cases does <;> simp [Op.untilEnd, SessionOp.untilEnd] at ahead <;>
          subst ahead
        all_goals simp [draining, stopped, empty, PendingCalls.len, Op.untilEnd,
          SessionOp.untilEnd]
      · simp [Op.untilEnd, other] at ahead
  | watchExpiry | closeDrain =>
      simp [Op.untilEnd, WatchOp.untilEnd] at ahead
      simp [Op.untilEnd, SessionOp.untilEnd, WatchOp.untilEnd, ahead]
  | goAwayEnded | goAway | startDrain | drainAgain | drainFirst =>
      simp [Op.untilEnd, WatchOp.untilEnd] at ahead
  | _ => simp [Op.untilEnd] at ahead

/-- Whoever drains a table belongs to an opened session. -/
theorem Op.lt_of_drains {op : Op} {opened : Nat}
    (inside : op.opened opened = true) (drains : op.drains k = true) :
    k < opened := by
  revert inside drains
  fun_cases Op.drains k op <;> intro inside drains
  all_goals first
    | rw [← of_decide_eq_true drains]
      exact of_decide_eq_true inside
    | cases drains

theorem Op.untilEnd_of_takes {op : Op} (takes : op.takes k = true) :
    op.untilEnd k = none := by
  revert takes
  fun_cases Op.takes k op <;> simp [Op.untilEnd, SessionOp.untilEnd]

/-- The environment only ends sessions. -/
theorem drain_environment {event : Event} {after : Shared}
    (acted : environment shared event = some after) :
    ((after.session k).Quiet ↔ (shared.session k).Quiet) ∧
      ((shared.session k).done = true → (after.session k).done = true) := by
  cases environment_acts acted with
  | @propagate other =>
      by_cases same : k = other <;> simp [same, Session.Quiet]
  | _ => exact ⟨Iff.rfl, id⟩

end Exec

section Runs

open Pool

variable {config : Config} {workload : Workload}
  {allowed : ChannelState → Step → Prop} {state next : ChannelState}
  {thread : Nat} {choice : Choice} {k : Nat}

/-- A session has ended when its table is drained. -/
theorem done_of_drains (reached : config.Reaches workload allowed state)
    {op : Op} (member : op ∈ state.ops) (drains : op.drains k = true) :
    (state.shared.session k).done = true := by
  refine (reached.annotated (fun _ => True) (fun shared op =>
    op.drains k = true → (shared.session k).done = true) ?_ ?_ ?_).2 op member
      drains
  · refine ⟨trivial, fun op member drains => ?_⟩
    rcases config.mem_start_ops workload member with
      ⟨_, rfl⟩ | ⟨_, rfl | rfl⟩ | ⟨_, _, rfl⟩ | rfl | ⟨_, rfl⟩ <;> cases drains
  · intro state thread choice next runs reached _ _ _
    refine ⟨trivial, ?_, ?_⟩
    · exact (quiet_exec runs.exec_eq).ended
    · intro op other ended drains
      have noted := (closedDown_reached reached).2 op (runs.mem_of_others other)
      have below := Op.lt_of_drains noted.1 drains
      exact ((advances_exec runs.exec_eq).session k below).done (ended drains)
  · intro shared event after acted _
    exact ⟨trivial, fun op ended drains =>
      (drain_environment acted).2 (ended drains)⟩

/-- A goroutine that takes a call has a call of `endIfDrained` ahead. -/
theorem ahead_of_takes (reached : config.Reaches workload allowed state)
    {op : Op} (member : op ∈ state.ops) (takes : op.takes k = true) :
    ∃ later ∈ state.ops, (later.untilEnd k).isSome = true := by
  refine Machine.Reach.covered (fun op : Op => op.takes k = true)
    (fun op => (op.untilEnd k).isSome = true) ?_ ?_ ?_ reached member takes
  · intro thread inside
    refine Covered.of_light fun op member => ?_
    have start : op ∈ (config.start workload).ops :=
      List.mem_flatten.mpr ⟨thread, inside, member⟩
    rcases config.mem_start_ops workload start with
      ⟨_, rfl⟩ | ⟨_, rfl | rfl⟩ | ⟨_, _, rfl⟩ | rfl | ⟨_, rfl⟩ <;>
        exact Bool.noConfusion
  · intro state thread choice next runs _ _ _
    exact (quiet_exec runs.exec_eq).covered
  · intro state thread choice next runs started inside
    refine Covered.of_light fun op member => ?_
    have spawned := (quiet_exec (k := k) runs.exec_eq).spawned op
      (List.mem_flatten.mpr ⟨started, inside, member⟩)
    simp [spawned]

/-- A quiet session stays quiet. -/
theorem quiet_stable (reached : config.Reaches workload allowed state)
    (runs : (channel config).Runs state thread choice next)
    (below : k < state.shared.opened)
    (quiet : (state.shared.session k).Quiet) :
    (next.shared.session k).Quiet := by
  obtain ⟨draining, stopped, empty⟩ := quiet
  have advances := (advances_exec runs.exec_eq).session k below
  rw [runs.next_shared]
  exact ⟨advances.draining draining, advances.sendStopped stopped,
    empty_stable reached runs below stopped empty⟩

/-- The session has ended, or a goroutine has a call of `endIfDrained` ahead. -/
def Remembered (k : Nat) (state : ChannelState) : Prop :=
  (state.shared.session k).done = true ∨
    ∃ op ∈ state.ops, (op.untilEnd k).isSome = true

/-- A step keeps a session that was quiet remembered. -/
theorem Remembered.step (runs : (channel config).Runs state thread choice next)
    (below : k < state.shared.opened)
    (quiet : (state.shared.session k).Quiet)
    (remembered : Remembered k state) : Remembered k next := by
  rcases remembered with done | ⟨op, member, ahead⟩
  · refine .inl ?_
    rw [runs.next_shared]
    exact ((advances_exec runs.exec_eq).session k below).done done
  · rcases List.mem_cons.mp (runs.ops_perm.mem_iff.mp member) with
      running | other
    · obtain ⟨count, equal⟩ := Option.isSome_iff_exists.mp ahead
      rw [running] at equal
      rcases untilEnd_exec equal quiet runs.exec_eq with
        ⟨_, done⟩ | ⟨_, later, rest, _, follows, closer⟩
      · exact .inl (by rw [runs.next_shared]; exact done)
      · refine .inr ⟨later, runs.mem_next_ops.mpr (.inl ?_), by simp [closer]⟩
        simp [Machine.Runs.fresh, follows]
    · exact .inr ⟨op, runs.mem_next_ops.mpr (.inr other), ahead⟩

/-- In every run, a quiet session is remembered. -/
theorem remembered_reached (reached : config.Reaches workload allowed state)
    (inside : k < state.shared.opened)
    (quiet : (state.shared.session k).Quiet) : Remembered k state := by
  revert inside quiet
  refine reached.invariant (fun state => k < state.shared.opened →
    (state.shared.session k).Quiet → Remembered k state) ?_ ?_
  · intro _ quiet
    unfold Config.start at quiet
    cases kind : config.kind <;> rw [kind] at quiet <;>
      exact Bool.noConfusion quiet.1
  · intro state label next reached remembered _ stepped inside quiet
    rcases Machine.step_cases stepped with
      ⟨thread, choice, _, ⟨runs⟩⟩ | ⟨event, shared, _, acted, equal⟩
    · by_cases below : k < state.shared.opened
      · have becomes := (quiet_exec (k := k) runs.exec_eq).quiet
          (by rwa [runs.next_shared] at quiet)
        rcases becomes with before | takes | drains | ⟨later, follows, ahead⟩
        · exact (remembered below before).step runs below before
        · obtain ⟨op, member, ahead⟩ := ahead_of_takes reached runs.op_mem takes
          rcases List.mem_cons.mp (runs.ops_perm.mem_iff.mp member) with
            running | other
          · rw [running, Op.untilEnd_of_takes takes] at ahead
            cases ahead
          · exact .inr ⟨op, runs.mem_next_ops.mpr (.inr other), ahead⟩
        · refine .inl ?_
          rw [runs.next_shared]
          exact ((advances_exec runs.exec_eq).session k below).done
            (done_of_drains reached runs.op_mem drains)
        · refine .inr ⟨later, runs.mem_next_ops.mpr (.inl ?_), ahead⟩
          exact List.mem_append_left _ follows
      · rw [runs.next_shared] at inside quiet
        obtain ⟨suspect, new⟩ := session_opened runs.exec_eq
          (Nat.le_of_not_lt below) inside
        rw [new] at quiet
        exact Bool.noConfusion quiet.1
    · rw [equal] at inside quiet ⊢
      have opened : shared.opened = state.shared.opened :=
        congrArg Book.opened (frame_environment acted).2.1
      obtain ⟨sameQuiet, ended⟩ := drain_environment (k := k) acted
      rcases remembered (by simpa [opened] using inside) (sameQuiet.mp quiet)
        with done | ahead
      · exact .inl (ended done)
      · exact .inr ahead

/-- A drained table stays empty. -/
theorem empty_of_drained {later : ChannelState}
    (below : k < state.shared.opened)
    (drained : (state.shared.session k).pending.Drained)
    (reached : (channel config).Reach allowed state later) :
    (later.shared.session k).pending.calls = [] := by
  have invariant : k < later.shared.opened ∧
      (later.shared.session k).pending.Drained := by
    refine reached.invariant (fun later => k < later.shared.opened ∧
      (later.shared.session k).pending.Drained) ⟨below, drained⟩ ?_
    intro state label next _ holds _ stepped
    obtain ⟨below, drained⟩ := holds
    have advances : state.shared.Advances next.shared := by
      rcases Machine.step_cases stepped with
        ⟨thread, choice, _, ⟨runs⟩⟩ | ⟨event, shared, _, acted, equal⟩
      · rw [runs.next_shared]
        exact advances_exec runs.exec_eq
      · rw [equal]
        exact advances_environment acted
    exact ⟨Nat.lt_of_lt_of_le below advances.opened,
      (advances.session k below).drained drained⟩
  exact invariant.2.2

/-- Whenever `endIfDrained` ends a session, the table of the session is empty
when it is drained and stays empty, so that nothing happens to any call; calls
expire only when their contexts have ended; and a session that is draining, has
stopped sending and has no pending calls stays so, and has ended, or a goroutine
has a call of `endIfDrained` ahead, each operation of which brings the end of
the session closer. -/
theorem draining_loses_no_call
    (reached : config.Reaches workload allowed state)
    (inside : k < state.shared.opened) :
    (∀ thread choice next (runs : (channel config).Runs state thread choice next),
      runs.op = .session k .endDrain →
      (state.shared.session k).pending.calls = [] ∧
        runs.outcome.next = [] ∧ next.shared.history = state.shared.history ∧
        ∀ later, (channel config).Reach allowed next later →
          (later.shared.session k).pending.calls = []) ∧
    (∀ req, (req, .expired) ∈ state.shared.history.discarded →
      state.shared.ended req.ctx = true) ∧
    ((state.shared.session k).Quiet →
      (state.shared.session k).done = true ∨
        ∃ op ∈ state.ops, (op.untilEnd k).isSome = true) ∧
    ∀ thread choice next (runs : (channel config).Runs state thread choice next),
      (state.shared.session k).Quiet →
      (next.shared.session k).Quiet ∧
        ∀ count, runs.op.untilEnd k = some count →
          (count = 0 ∧ (next.shared.session k).done = true) ∨
            ∃ fewer op rest, count = fewer + 1 ∧
              runs.outcome.next = op :: rest ∧ op.untilEnd k = some fewer := by
  refine ⟨?_, ?_, remembered_reached reached inside, ?_⟩
  · intro thread choice next runs drains
    have asserts := ((closedDown_reached reached).2 runs.op runs.op_mem).2
    rw [drains] at asserts
    have empty : (state.shared.session k).pending.calls = [] := asserts.2
    obtain ⟨calls, permuted, equal⟩ : ∃ calls,
        calls.isPerm (state.shared.session k).pending.reqs = true ∧
          runs.outcome = drainCalls state.shared k none calls [] := by
      have executed := runs.exec_eq
      rw [drains] at executed
      generalize runs.outcome = outcome at executed ⊢
      cases exec_does executed with
      | session _ does =>
          cases does with
          | endDrain permuted => exact ⟨_, permuted, rfl⟩
    have none : calls = [] := by
      simpa [PendingCalls.reqs, empty] using List.isPerm_iff.mp permuted
    have drained : (next.shared.session k).pending.Drained := by
      rw [runs.next_shared, equal]
      simp [drainCalls, PendingCalls.drained_drain]
    refine ⟨empty, ?_, ?_, ?_⟩
    · simp [equal, none, drainCalls]
    · rw [runs.next_shared, equal, none]
      simp [drainCalls]
    · intro later further
      refine empty_of_drained ?_ drained further
      rw [runs.next_shared]
      exact Nat.lt_of_lt_of_le inside (advances_exec runs.exec_eq).opened
  · intro req expired
    exact ((outcomes_reached reached).1.discarded _ expired).1
  · intro thread choice next runs quiet
    refine ⟨quiet_stable reached runs inside quiet, ?_⟩
    intro count ahead
    rw [runs.next_shared]
    exact untilEnd_exec ahead quiet runs.exec_eq

/-- One goroutine drains the first session. -/
def drainOnly : Workload where
  users := [[.startDrain 0]]
  calls := by decide
  distinct := by decide

/-- The session starts to drain, then its send loop returns. -/
def drainedRun : List Step :=
  Step.first 0 2 ++ Step.first 1 5 ++ [.run 0 (.pick .second)] ++ Step.first 0 1

theorem drainedRun_followed :
    (smallOutbound.follow drainOnly drainedRun).isSome = true := by
  decide +kernel

theorem draining_loses_no_call_drained :
    ∃ state, smallOutbound.Reaches drainOnly (fun _ _ => True) state ∧
      (state.shared.session 0).Quiet ∧ (state.shared.session 0).done = false ∧
      ∃ op ∈ state.ops, (op.untilEnd 0).isSome = true := by
  have reached := Config.reaches_of_follow drainedRun_followed
  have quiet : (((smallOutbound.follow drainOnly drainedRun).get
      drainedRun_followed).shared.session 0).Quiet := by
    refine ⟨by decide +kernel, by decide +kernel, ?_⟩
    exact List.isEmpty_iff.mp (by decide +kernel)
  have ahead := (draining_loses_no_call reached (k := 0)
    (by decide +kernel)).2.2.1 quiet
  have going : (((smallOutbound.follow drainOnly drainedRun).get
      drainedRun_followed).shared.session 0).done = false := by
    decide +kernel
  exact ⟨_, reached, quiet, going, ahead.resolve_left (by simp [going])⟩

end Runs

end Stream
end Gorums
