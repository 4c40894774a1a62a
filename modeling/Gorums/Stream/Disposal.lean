import Gorums.Stream.Handoff

/-!
# Calls that a session leaves

A session that ends drains its pending table and disposes of the calls that
are left: each fails or is pushed to the send queue again.  A call is left by a
session at most once, and is disposed of once for it.
-/

namespace Gorums
namespace Stream

/-- The call that an operation is about to dispose of, with its session. -/
@[simp]
def SessionOp.leaves (k : Nat) : SessionOp → List (Nat × Request)
  | .retryOrFail req _ => [(k, req)]
  | .retryClosed req => [(k, req)]
  | _ => []

/-- The call that an operation is about to dispose of, with its session. -/
def Op.leaves : Op → List (Nat × Request)
  | .queue _ => []
  | .session k op => op.leaves k
  | .dispatch _ => []
  | .send _ _ _ => []
  | .recv _ _ => []
  | .watch _ _ => []
  | .run _ => []
  | .close _ => []
  | .inbound _ => []
  | .lock _ => []
  | .drainQueue _ => []
  | .exit _ => []

/-- The operations that drain the table of a session, and what their goroutines
do after the disposal of the calls. -/
inductive Drains (k : Nat) : Op → Option Err → List Op → Prop
  | recv (err : Err) :
      Drains k (.recv k (.drain err)) (some err) [.recv k .exit]
  | send (back : LoopReturn) (req : Request) (err : Err) :
      Drains k (.send k back (.drain req err)) (some err)
        [.send k back (.report req err false)]
  | session : Drains k (.session k .endDrain) none []
  | close (sole : k = 0) : Drains k (.close .endDrain) none [.lock .close]

/-- What follows from a disposal. -/
def Disposal.ops (config : Config) (req : Request) : Disposal → List Op
  | .failed err => deliverError config req err
  | .requeued => [.queue (.rlock req false .retry)]

/-- What an operation can do about calls that sessions leave. -/
inductive DisposalStep (config : Config) (shared : Shared) (op : Op)
    (outcome : Effect) : Prop
  | quiet (idle : op.leaves = [])
      (next : ∀ fresh ∈ outcome.next, fresh.leaves = [])
      (spawned : ∀ thread ∈ outcome.spawned, ∀ fresh ∈ thread,
        fresh.leaves = [])
      (left : outcome.shared.history.left = shared.history.left)
      (disposals :
        outcome.shared.history.disposals = shared.history.disposals)
  | drained (k : Nat) (err : Option Err) (order : List Request) (rest : List Op)
      (running : Drains k op err rest)
      (permuted : order.Perm (shared.session k).pending.reqs)
      (equal : outcome = drainCalls shared k err order rest)
  | closing (k : Nat) (req : Request) (err : Option Err)
      (running : op = .session k (.retryOrFail req err))
      (equal : outcome = ⟨shared, [.session k (.retryClosed req)], []⟩)
  | disposed (k : Nat) (req : Request) (disposal : Disposal)
      (running : (∃ err, op = .session k (.retryOrFail req err)) ∨
        op = .session k (.retryClosed req))
      (next : outcome.next = disposal.ops config req)
      (spawned : outcome.spawned = [])
      (left : outcome.shared.history.left = shared.history.left)
      (disposals : outcome.shared.history.disposals =
        shared.history.disposals ++ [(k, req, disposal)])

section Steps

variable {config : Config} {shared : Shared} {outcome : Effect}

/-- Every operation treats the calls that sessions leave in one of four
ways. -/
theorem disposal_exec {op : Op} {choice : Choice}
    (executed : exec config shared op choice = some outcome) :
    DisposalStep config shared op outcome := by
  cases exec_does executed with
  | session _ does =>
      cases does with
      | endDrain permuted =>
          exact .drained _ _ _ _ .session (List.isPerm_iff.mp permuted) rfl
      | giveUp => exact .closing _ _ _ rfl rfl
      | refused | exhausted =>
          exact .disposed _ _ (.failed _) (.inl ⟨_, rfl⟩)
            (by simp [Disposal.ops]) rfl rfl rfl
      | retryClosed =>
          exact .disposed _ _ (.failed _) (.inr rfl) (by simp [Disposal.ops])
            rfl rfl rfl
      | requeue =>
          exact .disposed _ _ .requeued (.inl ⟨_, rfl⟩) rfl rfl rfl rfl
      | _ =>
          exact .quiet rfl (by simp <;> simp [Op.leaves]) (by simp) rfl rfl
  | send _ does =>
      cases does with
      | drain permuted =>
          exact .drained _ _ _ _ (.send _ _ _) (List.isPerm_iff.mp permuted) rfl
      | _ =>
          refine .quiet rfl ?_ (by simp <;> simp [Op.leaves]) rfl rfl
          simp [loopReturn, or_imp, forall_and]
          simp [Op.leaves]
  | recv _ does =>
      cases does with
      | drain permuted =>
          exact .drained _ _ _ _ (.recv _) (List.isPerm_iff.mp permuted) rfl
      | _ =>
          refine .quiet rfl ?_ (by simp) rfl rfl
          simp [or_imp, forall_and]
          simp [Op.leaves]
  | endDrain _ permuted =>
      exact .drained 0 _ _ _ (.close rfl) (List.isPerm_iff.mp permuted) rfl
  | run _ does =>
      cases does
      all_goals
        refine .quiet rfl ?_ ?_ rfl rfl <;>
          simp [or_imp, forall_and, openStream, recordFailure] <;>
          simp [Op.leaves]
  | queue does =>
      cases does <;> refine .quiet rfl ?_ ?_ rfl rfl <;>
        simp <;> simp [Op.leaves]
  | dispatch | reply =>
      refine .quiet rfl ?_ ?_ rfl rfl <;>
        simp [liftDispatch, reply] <;> simp [Op.leaves]
  | _ =>
      refine .quiet rfl ?_ ?_ rfl rfl <;>
        simp [exited, or_imp, forall_and] <;> simp [Op.leaves]

end Steps

/-! ## Each call is disposed of once -/

/-- The calls that have been disposed of, with the sessions that left them. -/
def History.disposed (history : History) : List (Nat × Request) :=
  history.disposals.map fun entry => (entry.1, entry.2.1)

/-- The ledger of a call that a session leaves. -/
def estate (entry : Nat × Request) : Pool.Ledger Shared Op where
  credit shared := shared.history.disposed.count entry
  debit shared := shared.history.left.count entry
  weight op := op.leaves.count entry

section Estate

open Pool

variable {config : Config} {shared : Shared} {outcome : Effect}
  {entry : Nat × Request}

theorem estate_weigh_eq_zero {ops : List Op}
    (quiet : ∀ op ∈ ops, op.leaves = []) : (estate entry).weigh ops = 0 :=
  Ledger.weigh_eq_zero fun op member => by
    simp [estate, quiet op member]

theorem estate_weigh_drained (k : Nat) (err : Option Err)
    (order : List Request) :
    (estate entry).weigh
        (order.map fun req => Op.session k (.retryOrFail req err)) =
      (order.map fun req => (k, req)).count entry := by
  induction order with
  | nil => rfl
  | cons req order inductionHypothesis =>
      simp only [List.map_cons, Ledger.weigh_cons, inductionHypothesis,
        List.count_cons]
      simp [estate, Op.leaves, List.count_cons, Nat.add_comm]

theorem Drains.leaves {k : Nat} {op : Op} {err : Option Err} {rest : List Op}
    (drains : Drains k op err rest) :
    op.leaves = [] ∧ ∀ fresh ∈ rest, fresh.leaves = [] := by
  cases drains <;> simp [Op.leaves]

theorem Drains.inside {k opened : Nat} {op : Op} {err : Option Err}
    {rest : List Op} (drains : Drains k op err rest)
    (isOpened : op.opened opened = true) : k < opened := by
  cases drains with
  | close sole => exact sole ▸ of_decide_eq_true isOpened
  | _ => exact of_decide_eq_true isOpened

theorem Disposal.leaves_ops (req : Request) (disposal : Disposal) :
    ∀ fresh ∈ disposal.ops config req, fresh.leaves = [] := by
  cases disposal <;> simp [Disposal.ops, Op.leaves]

theorem estate_keeps {op : Op} {choice : Choice}
    (executed : exec config shared op choice = some outcome) :
    (estate entry).Keeps shared op outcome := by
  unfold Ledger.Keeps Ledger.worth
  cases disposal_exec executed with
  | quiet idle next spawned left disposals =>
      have started : ∀ op ∈ outcome.spawned.flatten, op.leaves = [] := by
        intro op member
        obtain ⟨thread, inside, member⟩ := List.mem_flatten.mp member
        exact spawned thread inside op member
      rw [estate_weigh_eq_zero next, estate_weigh_eq_zero started]
      simp [estate, History.disposed, idle, left, disposals]
  | drained k err order rest running permuted equal =>
      obtain ⟨idle, quiet⟩ := running.leaves
      subst equal
      simp only [drainCalls, Ledger.weigh_append, estate_weigh_drained,
        estate_weigh_eq_zero quiet]
      simp [estate, History.disposed, idle]
      omega
  | closing k req err running equal =>
      subst running equal
      simp [estate, Op.leaves]
  | disposed k req disposal running next spawned left disposals =>
      have disposing : op.leaves = [(k, req)] := by
        rcases running with ⟨err, rfl⟩ | rfl <;> rfl
      rw [next, spawned, estate_weigh_eq_zero (disposal.leaves_ops req)]
      simp [estate, History.disposed, disposing, left, disposals]

end Estate

section Runs

open Pool

variable {config : Config} {workload : Workload}
  {allowed : ChannelState → Step → Prop} {state : ChannelState}

theorem leaves_start {op : Op} (member : op ∈ (config.start workload).ops) :
    op.leaves = [] := by
  rcases config.mem_start_ops workload member with
    ⟨_, rfl⟩ | ⟨_, rfl | rfl⟩ | ⟨_, _, rfl⟩ | rfl | ⟨_, rfl⟩ <;> rfl

/-- Every call that a session left has been disposed of for it, or is about to
be. -/
theorem count_left (entry : Nat × Request)
    (reached : config.Reaches workload allowed state) :
    state.shared.history.disposed.count entry +
        (estate entry).weigh state.ops =
      state.shared.history.left.count entry := by
  have balance := (estate entry).balanced
    (fun _ _ _ _ executed _ => estate_keeps executed)
    (fun shared event after acted => by
      obtain ⟨received, crowded, equal⟩ := history_environment acted
      simp [estate, History.disposed, equal]) reached
  rw [estate_weigh_eq_zero fun _ => leaves_start] at balance
  simpa [estate, History.disposed] using balance

/-- A pending table holds no call twice. -/
theorem nodup_reqs (reached : config.Reaches workload allowed state)
    {k : Nat} (inside : k < state.shared.opened) :
    (state.shared.session k).pending.reqs.Nodup := by
  refine List.nodup_iff_count_le_one.mpr fun req => ?_
  by_cases member : req ∈ (state.shared.session k).pending.reqs
  · have want := (outcomes_reached reached).1.want inside member
    have balance := custody_reached (Request.isCall_of_want want) reached
    have distinct := List.nodup_iff_count_le_one.mp workload.distinct req
    have tabled := count_le_tabled state.shared inside req
    rw [custody_credit] at balance
    omega
  · rw [List.count_eq_zero.mpr member]
    exact Nat.zero_le 1

/-- A session leaves a call once. -/
theorem left_reached (reached : config.Reaches workload allowed state) :
    state.shared.history.left.Nodup ∧
      ∀ entry ∈ state.shared.history.left, entry.1 < state.shared.opened ∧
        (state.shared.session entry.1).pending.Drained := by
  refine reached.invariant (fun state => state.shared.history.left.Nodup ∧
      ∀ entry ∈ state.shared.history.left, entry.1 < state.shared.opened ∧
        (state.shared.session entry.1).pending.Drained) (by simp) ?_
  intro state label next reached ⟨distinct, drained⟩ _ stepped
  rcases Machine.step_cases stepped with
    ⟨thread, choice, rfl, ⟨runs⟩⟩ | ⟨event, shared, rfl, acted, rfl⟩
  · have advances := advances_exec runs.exec_eq
    have still : ∀ entry ∈ state.shared.history.left,
        entry.1 < runs.outcome.shared.opened ∧
          (runs.outcome.shared.session entry.1).pending.Drained :=
      fun entry member =>
        have ⟨inside, empty⟩ := drained entry member
        ⟨Nat.lt_of_lt_of_le inside advances.opened,
          (advances.session _ inside).drained empty⟩
    rw [runs.next_shared]
    cases disposal_exec runs.exec_eq with
    | quiet idle next spawned left disposals =>
        rw [left]
        exact ⟨distinct, still⟩
    | disposed k req disposal running next spawned left disposals =>
        rw [left]
        exact ⟨distinct, still⟩
    | closing k req err running equal =>
        rw [equal] at still ⊢
        exact ⟨distinct, still⟩
    | drained k err order rest running permuted equal =>
        have noted := (closedDown_reached reached).2 runs.op runs.op_mem
        have inside := running.inside noted.1
        have left : runs.outcome.shared.history.left =
            state.shared.history.left ++ order.map fun req => (k, req) := by
          rw [equal]
          rfl
        have empty : (runs.outcome.shared.session k).pending.Drained := by
          rw [equal]
          simp [drainCalls, PendingCalls.drained_drain]
        have new : (order.map fun req => (k, req)).Nodup :=
          (permuted.nodup_iff.mpr (nodup_reqs reached inside)).map
            fun _ _ same => (Prod.mk.inj same).2
        rw [left]
        refine ⟨List.nodup_append.mpr ⟨distinct, new, ?_⟩, ?_⟩
        · -- A drained table has no more calls to leave.
          rintro entry earlier other now rfl
          obtain ⟨req, member, rfl⟩ := List.mem_map.mp now
          have none := (drained _ earlier).2.2
          rw [permuted.mem_iff, PendingCalls.reqs, none] at member
          cases member
        · intro entry member
          rcases List.mem_append.mp member with earlier | now
          · exact still entry earlier
          · obtain ⟨req, _, rfl⟩ := List.mem_map.mp now
            exact ⟨Nat.lt_of_lt_of_le inside advances.opened, empty⟩
  · obtain ⟨_, sameBook, sameSessions⟩ := frame_environment acted
    obtain ⟨received, crowded, sameHistory⟩ := history_environment acted
    have sameOpened : shared.opened = state.shared.opened :=
      congrArg Book.opened sameBook
    have samePending : ∀ k,
        (shared.session k).pending = (state.shared.session k).pending := by
      intro k
      obtain ⟨done, equal⟩ := sameSessions k
      rw [equal]
    simpa only [sameHistory, sameOpened, samePending] using
      And.intro distinct drained

section EOF

variable (outbound : config.kind = .outbound)
  (eof : ∀ state step, allowed state step → sendsFailWithEOF state step = true)

/-- The receive goroutine of a session covers the disposal of its calls. -/
abbrev Receives (k : Nat) : List Op → Prop :=
  Pool.Covered (fun op => ∃ req, (k, req) ∈ op.leaves)
    (fun op => .receiver k ∈ op.roles)

theorem Receives.of_quiet {k : Nat} {ops : List Op}
    (quiet : ∀ op ∈ ops, op.leaves = []) : Receives k ops :=
  .of_light fun op member ⟨req, leaving⟩ => by
    rw [quiet op member] at leaving
    cases leaving

include outbound eof in
/-- What a step leaves of the calls of a session is covered. -/
theorem receives_next {next : ChannelState} {thread : Nat} {choice : Choice}
    (reached : config.Reaches workload allowed state)
    (runs : (channel config).Runs state thread choice next) {k : Nat}
    (kept : (∃ req, (k, req) ∈ runs.op.leaves) → .receiver k ∈ runs.op.roles) :
    Receives k runs.outcome.next := by
  have noted := (closedDown_reached reached).2 runs.op runs.op_mem
  have ruled := (handoffs_reached outbound eof reached).2 runs.op runs.op_mem
  cases disposal_exec runs.exec_eq with
  | quiet idle next spawned left disposals => exact .of_quiet next
  | disposed other req disposal running next spawned left disposals =>
      rw [next]
      exact .of_quiet (disposal.leaves_ops req)
  | closing other req err running equal =>
      refine .of_light fun op member leaving => ?_
      rw [equal, List.mem_singleton] at member
      subst member
      exact absurd (kept (by rw [running]; exact leaving))
        (by simp [running, Op.roles])
  | drained other err order rest running permuted equal =>
      rw [equal, drainCalls]
      generalize op : runs.op = op at running noted ruled
      cases running with
      | recv err =>
          by_cases same : other = k
          · refine Covered.of_keeper ⟨_, List.mem_singleton_self _, ?_⟩ ?_
            · simp [Op.roles, same]
            · exact Receives.of_quiet (by simp [Op.leaves])
          · refine Covered.of_light ?_
            simp [Op.leaves, Ne.symm same, or_imp, forall_and]
      | send back req err => exact ruled.elim
      | close sole => exact ruled.elim
      | session =>
          -- A session that ends because it is drained has no calls left.
          have empty : order = [] := by
            have none := noted.2.2
            simpa [PendingCalls.reqs, none] using permuted
          subst empty
          exact Receives.of_quiet (by simp)

include outbound eof in
/-- The receive goroutine disposes of the calls that its session leaves before
it returns. -/
theorem receiver_of_leaves (reached : config.Reaches workload allowed state)
    {op : Op} (member : op ∈ state.ops) {k : Nat} {req : Request}
    (leaving : (k, req) ∈ op.leaves) :
    ∃ receiver ∈ state.ops, .receiver k ∈ receiver.roles := by
  refine Machine.Reach.covered (fun op => ∃ req, (k, req) ∈ op.leaves)
    (fun op => .receiver k ∈ op.roles) ?start
    (fun runs reached _ kept => receives_next outbound eof reached runs kept)
    ?spawned reached member ⟨req, leaving⟩
  case start =>
    intro thread inside
    exact Receives.of_quiet fun op member =>
      leaves_start (List.mem_flatten.mpr ⟨thread, inside, member⟩)
  case spawned =>
    intro state thread choice next runs
    cases disposal_exec runs.exec_eq with
    | quiet idle next spawned left disposals =>
        exact fun thread inside => Receives.of_quiet (spawned thread inside)
    | drained _ _ _ _ _ _ equal => simp [equal, drainCalls]
    | closing _ _ _ _ equal => simp [equal]
    | disposed _ _ _ _ _ spawned _ _ => simp [spawned]

include outbound eof in
/-- Once receiving has ended, each call that the session left has been disposed
of once. -/
theorem disposed_of_ended (reached : config.Reaches workload allowed state)
    {k : Nat} (ended : k ∉ state.shared.receiving) {req : Request}
    (left : (k, req) ∈ state.shared.history.left) :
    state.shared.history.disposed.count (k, req) = 1 := by
  have balance := count_left (k, req) reached
  have once := List.count_eq_one_of_mem (left_reached reached).1 left
  have settled : (estate (k, req)).weigh state.ops = 0 := by
    refine Ledger.weigh_eq_zero fun op member => List.count_eq_zero.mpr ?_
    intro leaving
    obtain ⟨receiver, inside, receives⟩ :=
      receiver_of_leaves outbound eof reached member leaving
    exact not_mem_roles (.receiver k) (by simp) reached
      (List.count_eq_zero.mpr ended) receiver inside receives
  omega

end EOF

end Runs

/-! ## Calls that fail -/

/-- The error of a failed call has been delivered or is about to be, or the
caller has gone and its response channel had no room. -/
def Failing (config : Config) (state : ChannelState) (req : Request)
    (err : Err) : Prop :=
  ⟨req, errorResponse config.id err, true⟩ ∈ state.shared.history.responses ∨
    (req, .channelFull) ∈ state.shared.history.discarded ∨
    ∃ op ∈ state.ops,
      op = .queue (.deliver req (errorResponse config.id err) true) ∨
        op = .queue (.offer req (errorResponse config.id err) true)

/-- What became of a call that a session left, in order. -/
def History.disposalsOf (history : History) (k : Nat) (req : Request) :
    List Disposal :=
  history.disposals.filterMap fun entry =>
    if (entry.1, entry.2.1) = (k, req) then some entry.2.2 else none

section Failing

open Pool

variable {config : Config} {workload : Workload}
  {allowed : ChannelState → Step → Prop} {state next : ChannelState}
  {thread : Nat} {choice : Choice}

/-- A step of a delivery delivers the response, gives it up, or goes on. -/
theorem exec_delivery {shared : Shared} {outcome : Effect} {op : Op}
    {req : Request} {resp : Response}
    (delivery : op = .queue (.deliver req resp true) ∨
      op = .queue (.offer req resp true))
    (executed : exec config shared op choice = some outcome) :
    ⟨req, resp, true⟩ ∈ outcome.shared.history.responses ∨
      (req, .channelFull) ∈ outcome.shared.history.discarded ∨
      .queue (.offer req resp true) ∈ outcome.next := by
  rcases delivery with rfl | rfl <;> cases exec_does executed with
  | queue does =>
      cases does with
      | deliver delivers =>
          simp only [reduceCtorEq, QueueOp.deliver.injEq, QueueOp.offer.injEq,
            false_or, or_false] at delivers
          simp [delivers]
      | _ => simp

theorem Failing.step {req : Request} {err : Err}
    (runs : (channel config).Runs state thread choice next)
    (failing : Failing config state req err) : Failing config next req err := by
  have advances := (advances_exec runs.exec_eq).history
  unfold Failing
  rw [runs.next_shared]
  rcases failing with delivered | discarded | ⟨op, member, delivery⟩
  · exact .inl (advances.responses.subset delivered)
  · exact .inr (.inl (advances.discarded.subset discarded))
  · rcases List.mem_cons.mp (runs.ops_perm.mem_iff.mp member) with rfl | other
    · rcases exec_delivery delivery runs.exec_eq with
        delivered | discarded | offered
      · exact .inl delivered
      · exact .inr (.inl discarded)
      · exact .inr (.inr ⟨_, runs.mem_next_ops.mpr
          (.inl (List.mem_append_left _ offered)), .inr rfl⟩)
    · exact .inr (.inr ⟨op, runs.mem_next_ops.mpr (.inr other), delivery⟩)

/-- A call that fails gets its error. -/
theorem failing_reached (reached : config.Reaches workload allowed state) :
    ∀ entry ∈ state.shared.history.disposals, ∀ err,
      entry.2.2 = .failed err → Failing config state entry.2.1 err := by
  refine reached.invariant (fun state =>
      ∀ entry ∈ state.shared.history.disposals, ∀ err,
        entry.2.2 = .failed err → Failing config state entry.2.1 err)
    (by simp) ?_
  intro state label next reached failing _ stepped entry member err failed
  rcases Machine.step_cases stepped with
    ⟨thread, choice, rfl, ⟨runs⟩⟩ | ⟨event, shared, rfl, acted, rfl⟩
  · have earlier : entry ∈ state.shared.history.disposals →
        Failing config next entry.2.1 err :=
      fun member => (failing entry member err failed).step runs
    rw [runs.next_shared] at member
    cases disposal_exec runs.exec_eq with
    | quiet idle next spawned left disposals =>
        exact earlier (disposals ▸ member)
    | drained k reason order rest running permuted equal =>
        exact earlier (by simpa [equal, drainCalls] using member)
    | closing k req reason running equal =>
        exact earlier (by simpa [equal] using member)
    | disposed k req disposal running following spawned left disposals =>
        rw [disposals] at member
        rcases List.mem_append.mp member with old | new
        · exact earlier old
        · rw [List.mem_singleton.mp new] at failed ⊢
          have want : req.wantServerResponse = true := by
            have sound := (outcomes_reached reached).2 runs.op runs.op_mem
            rcases running with ⟨reason, running⟩ | running <;>
              simpa [running, Op.Sound] using sound
          have chan := (Bool.and_eq_true_iff.mp want).1
          refine .inr (.inr ⟨_, runs.mem_next_ops.mpr (.inl ?_), .inl rfl⟩)
          refine List.mem_append_left _ ?_
          rw [following, show disposal = .failed err from failed]
          simp [Disposal.ops, chan]
  · obtain ⟨received, crowded, equal⟩ := history_environment acted
    have still := failing entry (by simpa [equal] using member) err failed
    simpa [Failing, State.ops, equal] using still

theorem length_disposalsOf (history : History) (k : Nat) (req : Request) :
    (history.disposalsOf k req).length = history.disposed.count (k, req) := by
  unfold History.disposalsOf History.disposed
  induction history.disposals with
  | nil => rfl
  | cons entry disposals inductionHypothesis =>
      by_cases same : (entry.1, entry.2.1) = (k, req) <;> simp_all

theorem mem_disposalsOf {history : History} {k : Nat} {req : Request}
    {disposal : Disposal} :
    disposal ∈ history.disposalsOf k req ↔
      (k, req, disposal) ∈ history.disposals := by
  unfold History.disposalsOf
  rw [List.mem_filterMap]
  constructor
  · rintro ⟨⟨other, found, what⟩, member, equal⟩
    simp_all
  · intro member
    exact ⟨_, member, by simp⟩

end Failing

/-! ## The handoff -/

/-- The verdict channel is closed at most once, and the server does not both
accept and refuse the stream. -/
def Ruling.Consistent (ruling : Ruling) : Prop :=
  ruling.verdict ≤ 1 ∧
    ¬ (ruling.accepted = true ∧ ruling.refusal.isSome = true)

theorem Ruling.Ended.consistent {ruling : Ruling} {err : Err}
    (ended : ruling.Ended err) : ruling.Consistent := by
  refine ⟨Nat.le_of_eq ended.verdict, fun ⟨accepted, refused⟩ => ?_⟩
  rw [ended.refusal, accepted] at refused
  cases refused

theorem RecvOp.Ruled.consistent {ruling : Ruling} {op : RecvOp}
    (ruled : op.Ruled ruling) : ruling.Consistent := by
  cases op with
  | decide err prev => exact Ruling.Ended.consistent ruled
  | ended err => exact Ruling.Ended.consistent ruled
  | cancel err => exact Ruling.Ended.consistent ruled
  | drain err => exact Ruling.Ended.consistent ruled
  | exit => exact ruled.elim fun _ ended => ended.consistent
  | recv | check | swap =>
      rcases ruled with undecided | accepted
      · simp [Ruling.Consistent, undecided.accepted, undecided.verdict]
      · simp [Ruling.Consistent, accepted.refusal, accepted.verdict]
  | _ =>
      simp_all [Ruling.Consistent, Ruling.undecided_iff, Ruling.accepted_iff]

/-- A call that a session left has had this disposal and no other, or the
receive goroutine is still to come to it. -/
def DisposedAs (shared : Shared) (k : Nat) (req : Request)
    (disposal : Disposal) : Prop :=
  shared.history.disposalsOf k req = [disposal] ∨
    (k ∈ shared.receiving ∧ shared.history.disposalsOf k req = [])

section Main

open Pool

variable {config : Config} {workload : Workload} {state : ChannelState}
  {k : Nat}

/-- The states that runs reach in which failing sends return `io.EOF`. -/
abbrev Config.ReachesWithEOF (config : Config) (workload : Workload)
    (state : ChannelState) : Prop :=
  config.Reaches workload (fun state step => sendsFailWithEOF state step = true)
    state

theorem consistent_reached (outbound : config.kind = .outbound)
    (reached : config.ReachesWithEOF workload state)
    (inside : k < state.shared.opened) :
    (state.shared.session k).ruling.Consistent := by
  obtain ⟨handoffs, ruled⟩ :=
    handoffs_reached outbound (fun _ _ eof => eof) reached
  by_cases receiving : k ∈ state.shared.receiving
  · by_contra inconsistent
    have idle : (roster (.receiver k)).weigh state.ops = 0 := by
      refine Ledger.weigh_eq_zero fun op member =>
        List.count_eq_zero.mpr fun plays => ?_
      obtain ⟨_, receiver, rfl⟩ := Op.playedBy plays
      exact inconsistent (RecvOp.Ruled.consistent (ruled _ member))
    rw [weigh_roster (by simp) reached] at idle
    exact List.count_eq_zero.mp idle receiving
  · obtain ⟨err, ended⟩ := handoffs.ended k inside receiving
    exact ended.consistent

/-- A call that a session left is disposed of once, in the way in which all its
disposals are. -/
theorem disposedAs (outbound : config.kind = .outbound)
    (reached : config.ReachesWithEOF workload state)
    {req : Request} (left : (k, req) ∈ state.shared.history.left)
    {disposal : Disposal}
    (only : ∀ what ∈ state.shared.history.disposalsOf k req, what = disposal) :
    DisposedAs state.shared k req disposal := by
  have balance := count_left (k, req) reached
  have once := List.count_eq_one_of_mem (left_reached reached).1 left
  have length := length_disposalsOf state.shared.history k req
  unfold DisposedAs
  match disposals : state.shared.history.disposalsOf k req with
  | [] =>
      refine .inr ⟨?_, rfl⟩
      by_contra ended
      have done := disposed_of_ended outbound (fun _ _ eof => eof) reached ended
        left
      rw [disposals] at length
      simp only [List.length_nil] at length
      omega
  | [what] =>
      rw [disposals] at only
      exact .inl (by rw [only what (by simp)])
  | first :: second :: more =>
      rw [disposals] at length
      simp only [List.length_cons] at length
      omega

/-- What becomes of a call follows from the error that ended receiving. -/
theorem disposal_follows (outbound : config.kind = .outbound)
    (reached : config.ReachesWithEOF workload state)
    {req : Request} {what : Disposal}
    (member : what ∈ state.shared.history.disposalsOf k req) :
    ∃ err, (state.shared.session k).recvErr = some err ∧
      what.Follows (state.shared.session k).refusal err req := by
  have handoffs :=
    (handoffs_reached outbound (fun _ _ eof => eof) reached).1
  obtain ⟨_, err, ended, follows⟩ :=
    handoffs.disposals _ (mem_disposalsOf.mp member)
  exact ⟨err, ended.recvErr, follows⟩

/-- The server's refusal of a stream. -/
def unauthenticated : Err := .status .unauthenticated "no token"

/-- A call is sent on a stream that the server then refuses. -/
def refusedRun : List Step :=
  Step.first 0 2 ++ Step.first 1 6 ++ [.run 0 (.pick .third)] ++
    Step.first 0 8 ++
    [.run 3 (.pick .second), .run 3 (.err unauthenticated)] ++
    Step.first 3 6 ++ [.run 3 (.order [soleCall])] ++ Step.first 3 4

theorem refusedRun_followed :
    ((channel smallOutbound).follow sendsFailWithEOF
      (smallOutbound.start callAndClose) refusedRun).isSome = true := by
  decide +kernel

end Main

end Stream
end Gorums
