import Gorums.Stream.Custody

/-!
# The roster of a channel's goroutines

What the goroutines of a channel are doing agrees with what the channel's
state says about them: the readers of the queue's mutex, the counter of the
wait group, the one send loop and the one receive goroutine of each session,
and the one body of `Close`.
-/

namespace Gorums
namespace Stream

/-- A part that a goroutine plays until it has finished playing it. -/
inductive Role
  /-- In a call of `Enqueue`, or before it. -/
  | caller (req : Request)
  /-- Holds the queue's mutex for reading. -/
  | reader
  /-- Is one of the channel's own goroutines. -/
  | waited
  /-- Is the run loop, or the send goroutine of an inbound channel. -/
  | main
  /-- Is the send loop of a session. -/
  | sender (k : Nat)
  /-- Is the receive goroutine of a session. -/
  | receiver (k : Nat)
  /-- Is the body of `Close`. -/
  | closer
  deriving DecidableEq

/-- The parts of an operation on the queue. -/
def QueueOp.roles : QueueOp → List Role
  | .enqueue req => [.caller req]
  | .returned req => [.caller req]
  | .check _ _ _ => [.reader]
  | .select _ _ _ => [.reader]
  | .unlock => [.reader]
  | _ => []

/-- The parts of the send goroutine of an inbound channel. -/
def InboundOp.roles : InboundOp → List Role
  | .left _ => [.waited, .main]
  | .cancel => [.waited, .main]
  | _ => [.waited, .main, .sender 0]

/-- The parts of a goroutine that closes the queue. -/
def Closer.roles : Closer → List Role
  | .run => [.waited, .main]
  | .close => [.closer]
  | .inbound => [.waited, .main]

/-- The parts that an operation's goroutine plays. -/
def Op.roles : Op → List Role
  | .queue op => op.roles
  | .session _ _ => []
  | .dispatch _ => []
  | .send k _ _ => [.waited, .main, .sender k]
  | .recv k _ => [.waited, .receiver k]
  | .watch _ .goAway => [.waited]
  | .watch _ _ => []
  | .run _ => [.waited, .main]
  | .close _ => [.closer]
  | .inbound op => op.roles
  | .lock closer => closer.roles
  | .drainQueue closer => closer.roles
  | .exit true => [.waited, .main]
  | .exit false => [.waited]

/-- Which operations play a part: a call of `Enqueue` that has not begun or not
returned, one of a receive goroutine, or one that the channel waits for. -/
def Role.PlayedBy : Role → Op → Prop
  | .caller req, op => op = .queue (.enqueue req) ∨ op = .queue (.returned req)
  | .receiver k, op => .waited ∈ op.roles ∧ ∃ receiver, op = .recv k receiver
  | .main, op => .waited ∈ op.roles
  | _, _ => True

theorem Op.playedBy {op : Op} {role : Role} (plays : role ∈ op.roles) :
    role.PlayedBy op := by
  revert plays
  cases op with
  | queue op => cases op <;> cases role <;>
      simp [Op.roles, QueueOp.roles, Role.PlayedBy, eq_comm]
  | inbound op => cases op <;> cases role <;>
      simp [Op.roles, InboundOp.roles, Role.PlayedBy]
  | lock closer | drainQueue closer => cases closer <;> cases role <;>
      simp [Op.roles, Closer.roles, Role.PlayedBy]
  | exit main => cases main <;> cases role <;> simp [Op.roles, Role.PlayedBy]
  | watch k op => cases op <;> cases role <;> simp [Op.roles, Role.PlayedBy]
  | _ => cases role <;> simp [Op.roles, Role.PlayedBy, eq_comm]

/-- How many goroutines play a part, as the channel's state has it. -/
def cast (readers wg opened : Nat) (session : Nat → Session)
    (receiving : List Nat) (closeOnce : Once) (mainReturned : Bool) :
    Role → Nat
  | .caller _ => 0
  | .reader => readers
  | .waited => wg
  | .main => if mainReturned then 0 else 1
  | .sender k => if k < opened ∧ (session k).sendStopped = false then 1 else 0
  | .receiver k => receiving.count k
  | .closer => if closeOnce = .running then 1 else 0

/-- The calls of `Enqueue` that are over. -/
def played (returned : List Request) : Role → Nat
  | .caller req => returned.count req
  | _ => 0

/-- The ledger of a part. -/
@[simps] def roster (role : Role) : Pool.Ledger Shared Op where
  credit shared := played shared.history.returned role
  debit shared :=
    cast shared.queue.readers shared.wg shared.opened shared.session
      shared.receiving shared.closeOnce shared.history.mainReturned role
  weight op := op.roles.count role

section Keeps

open Pool

variable {config : Config} {shared : Shared} {outcome : Effect} {role : Role}

/-- A session update that does not stop the send loop keeps the cast. -/
@[simp] theorem cast_update {k readers wg opened : Nat} {receiving : List Nat}
    {closeOnce : Once} {mainReturned : Bool} {change : Session → Session}
    (same : (change (shared.session k)).sendStopped =
      (shared.session k).sendStopped) :
    cast readers wg opened (shared.update k change).session receiving closeOnce
        mainReturned role =
      cast readers wg opened shared.session receiving closeOnce mainReturned
        role := by
  cases role with
  | sender other =>
      by_cases equal : other = k
      · simp [cast, equal, same]
      · simp [cast, equal]
  | _ => rfl

@[simp] theorem roster_deliverError (req : Request) (err : Err) :
    (roster role).weigh (deliverError config req err) = 0 := by
  unfold deliverError
  split <;> rfl

@[simp] theorem roster_failRequest (req : Option Request) (err : Err) :
    (roster role).weigh (failRequest req err) = 0 := by
  cases req <;> rfl

@[simp] theorem roster_drained (k : Nat) (order : List Request)
    (err : Option Err) :
    (roster role).weigh
        (order.map fun req => Op.session k (.retryOrFail req err)) = 0 :=
  weigh_retries (fun _ => rfl) order

@[simp] theorem roster_watchers (k : Nat) (watches : List PendingCalls.Watch) :
    (roster role).weigh (watchers k watches).flatten = 0 :=
  weigh_watchers (fun _ => rfl) watches

/-- The parts that a goroutine plays are among those that the state knows of;
only calls of `Enqueue` are not counted. -/
def Known (shared : Shared) (role : Role) (op : Op) : Prop :=
  (∃ req, role = .caller req) ∨
    (roster role).weight op ≤ (roster role).debit shared

theorem roster_queue {op : QueueOp} (known : Known shared role (.queue op))
    (does : QueueDoes config shared op outcome) :
    (roster role).Keeps shared (.queue op) outcome := by
  unfold Ledger.Keeps
  cases does with
  | deliver delivers =>
      rcases delivers with rfl | rfl <;> simp [Op.roles, QueueOp.roles]
  | _ =>
      simp [Op.roles, QueueOp.roles] <;> cases role <;>
        simp_all [cast, played, Known, Op.roles, QueueOp.roles,
          List.count_cons] <;>
        omega

/-- A send loop that returns gives up its part. -/
theorem cast_stopSending {k : Nat} (inside : k < shared.opened)
    (running : role = .sender k → (shared.session k).sendStopped = false) :
    (roster role).debit (shared.stopSending k) + [Role.sender k].count role =
      (roster role).debit shared := by
  cases role with
  | sender other =>
      by_cases equal : other = k
      · subst equal
        simp [cast, inside, running rfl]
      · simp [cast, equal, Ne.symm equal]
  | _ => simp [cast]

theorem Known.running {k : Nat} {back : LoopReturn} {op : SendOp}
    (known : Known shared role (.send k back op)) :
    role = .sender k → (shared.session k).sendStopped = false := by
  rintro rfl
  rcases known with ⟨_, impossible⟩ | bound
  · cases impossible
  · by_contra stopped
    simp [Op.roles, cast, stopped] at bound

theorem roster_send {k : Nat} {back : LoopReturn} {op : SendOp}
    {choice : Choice} (inside : k < shared.opened)
    (known : Known shared role (.send k back op))
    (does : SendDoes config shared choice k back op outcome) :
    (roster role).Keeps shared (.send k back op) outcome := by
  have stop := cast_stopSending inside known.running
  unfold Ledger.Keeps
  cases does with
  | stopRun | stopServe =>
      simp [Op.roles, InboundOp.roles, List.count_cons] at stop ⊢
      omega
  | _ =>
      simp [Op.roles, QueueOp.roles, loopReturn, drainCalls, recordHealthy,
        recordUnlessEnded]

/-- A receive goroutine that returns gives up its part. -/
theorem roster_exit {k : Nat} (known : Known shared role (.recv k .exit)) :
    (roster role).Keeps shared (.recv k .exit)
      ⟨{ shared with receiving := shared.receiving.erase k },
        [.exit false], []⟩ := by
  unfold Ledger.Keeps
  cases role with
  | receiver other =>
      by_cases equal : other = k
      · subst equal
        rcases known with ⟨_, impossible⟩ | bound
        · cases impossible
        · simp only [roster_weight, Op.roles, roster_debit, cast,
            List.count_cons, List.count_nil, beq_self_eq_true, if_true] at bound
          simp [Op.roles, cast, played, List.count_erase_self]
          omega
      · simp [Op.roles, cast, played, List.count_erase_of_ne equal,
          Ne.symm equal]
  | _ => simp [Op.roles, cast]

/-- Opening a stream brings in a send loop, a receive goroutine and a watcher. -/
theorem roster_openStream (backoff : Backoff) (loop : SendOp) :
    (roster role).worth (openStream shared backoff loop) +
        (roster role).debit shared =
      (roster role).credit shared + [Role.waited, Role.main].count role +
        (roster role).debit (openStream shared backoff loop).shared := by
  cases role with
  | sender k =>
      rcases Nat.lt_trichotomy k shared.opened with below | equal | above
      · simp [openStream, Shared.openSession, Op.roles, cast, below,
          Nat.ne_of_lt below, Nat.ne_of_gt below, Nat.lt_succ_of_lt below]
      · simp [openStream, Shared.openSession, Op.roles, cast, equal,
          openedSession]
      · simp [openStream, Shared.openSession, Op.roles, cast,
          Nat.ne_of_gt above, Nat.ne_of_lt above, Nat.not_lt_of_lt above]
        omega
  | receiver k =>
      simp [openStream, Shared.openSession, Op.roles, cast, List.count_cons]
      omega
  | waited =>
      simp [openStream, Shared.openSession, Op.roles, cast]
      omega
  | _ => simp [openStream, Shared.openSession, Op.roles, cast]

/-- The body of `Close` gives up its part when it finishes. -/
theorem roster_finish (known : Known shared role (.close .finish)) :
    (roster role).Keeps shared (.close .finish)
      ⟨{ shared with closeOnce := .done }, [], []⟩ := by
  unfold Ledger.Keeps
  cases role <;> simp_all [cast, Known, Op.roles]
  by_contra idle
  simp [idle] at known

theorem roster_exited {main : Bool} (known : Known shared role (.exit main)) :
    (roster role).Keeps shared (.exit main) (exited shared main) := by
  unfold Ledger.Keeps
  cases main <;> cases role <;>
    simp_all [exited, cast, played, Known, Op.roles]
  all_goals first
    | omega
    | (by_contra returned; simp_all)

/-- Every operation keeps the roster. -/
theorem roster_keeps {op : Op} {choice : Choice}
    (known : Known shared role op)
    (executed : exec config shared op choice = some outcome) :
    (roster role).Keeps shared op outcome := by
  cases exec_does executed with
  | queue does => exact roster_queue known does
  | session inside does =>
      cases does <;>
        simp [Ledger.Keeps, Op.roles, QueueOp.roles, drainCalls]
  | dispatch => exact keeps_liftDispatch (fun _ => rfl) rfl rfl
  | send inside does => exact roster_send inside known does
  | recv inside does =>
      cases does with
      | exit => exact roster_exit known
      | _ => simp [Ledger.Keeps, Op.roles, drainCalls, recordUnlessEnded]
  | run opened does =>
      cases does with
      | openIdle | openStream => exact roster_openStream _ _
      | _ =>
          simp [Ledger.Keeps, Op.roles, QueueOp.roles, Closer.roles,
            recordFailure]
  | closeFinish => exact roster_finish known
  | drainedMain empty main =>
      rcases main with rfl | rfl <;>
        simp [Ledger.Keeps, Op.roles, Closer.roles]
  | exit => exact roster_exited known
  | _ =>
      simp [Ledger.Keeps, reply, Op.roles, QueueOp.roles, InboundOp.roles,
        Closer.roles, drainCalls, List.count_cons]

/-- The environment keeps the roster. -/
theorem roster_environment {event : Event} {after : Shared}
    (acted : environment shared event = some after) :
    (roster role).credit after = (roster role).credit shared ∧
      (roster role).debit after = (roster role).debit shared := by
  cases environment_acts acted <;> simp

end Keeps

/-- The users of a channel play no part that its state knows of. -/
theorem roster_threads (workload : Workload) {role : Role}
    (counted : ∀ req, role ≠ .caller req) :
    (roster role).weigh workload.threads.flatten = 0 := by
  refine Pool.Ledger.weigh_eq_zero fun op member => ?_
  rcases workload.mem_ops member with ⟨req, _, rfl⟩ | rfl | ⟨k, rfl⟩
  · simp [Op.roles, QueueOp.roles, (counted req).symm]
  · rfl
  · rfl

/-- The goroutines of a new channel are the ones that its state knows of. -/
theorem weigh_roster_start (config : Config) (workload : Workload) {role : Role}
    (counted : ∀ req, role ≠ .caller req) :
    (roster role).weigh (config.start workload).ops =
      (roster role).debit (config.start workload).shared := by
  have users := roster_threads workload counted
  unfold Config.start
  cases config.kind with
  | outbound => cases role <;> simp_all [Pool.State.ops, Op.roles, cast]
  | inbound =>
      cases role with
      | sender k =>
          rcases Nat.eq_zero_or_pos k with rfl | positive
          · simp_all [Pool.State.ops, Op.roles, InboundOp.roles, cast]
          · simp_all [Pool.State.ops, Op.roles, InboundOp.roles, cast,
              Nat.ne_of_lt positive, Nat.ne_of_gt positive]
      | receiver k =>
          simp_all [Pool.State.ops, Op.roles, InboundOp.roles, cast,
            List.count_cons]
      | _ => simp_all [Pool.State.ops, Op.roles, InboundOp.roles, cast]

/-- The callers of a new channel are its users. -/
theorem weigh_caller_start (config : Config) (workload : Workload)
    (req : Request) :
    (roster (.caller req)).weigh (config.start workload).ops =
      (enqueued workload.users).count req := by
  have users := workload.weigh_threads (roster (.caller req)) req
    (fun other => by
      simp [Op.roles, QueueOp.roles, List.count_cons])
    rfl (fun _ => rfl)
  unfold Config.start
  cases config.kind <;>
    simp_all [Pool.State.ops, Op.roles, InboundOp.roles]

section Runs

open Pool

variable {config : Config} {workload : Workload}
  {allowed : ChannelState → Step → Prop} {state : ChannelState}

theorem roster_balanced (role : Role)
    (reached : config.Reaches workload allowed state) :
    (roster role).credit state.shared + (roster role).weigh state.ops +
        (roster role).debit (config.start workload).shared =
      (roster role).weigh (config.start workload).ops +
        (roster role).debit state.shared := by
  have unplayed : (roster role).credit (config.start workload).shared = 0 := by
    cases role <;> simp [played]
  have balance := (roster role).balanced
    (fun shared op choice outcome executed bound => by
      refine roster_keeps ?_ executed
      by_cases caller : ∃ req, role = .caller req
      · exact .inl caller
      · refine .inr ?_
        have same := weigh_roster_start config workload
          (fun req equal => caller ⟨req, equal⟩)
        omega)
    (fun _ _ _ => roster_environment) reached
  omega

/-- In every state of a run, as many goroutines play a part as the state
says. -/
theorem weigh_roster {role : Role} (counted : ∀ req, role ≠ .caller req)
    (reached : config.Reaches workload allowed state) :
    (roster role).weigh state.ops = (roster role).debit state.shared := by
  have balance := roster_balanced role reached
  have same := weigh_roster_start config workload counted
  have unplayed : (roster role).credit state.shared = 0 := by
    cases role <;> simp_all [played]
  omega

/-- At most one operation belongs to the main goroutine. -/
theorem sole_main {next : ChannelState} {thread : Nat} {choice : Choice}
    (reached : config.Reaches workload allowed state)
    (runs : (channel config).Runs state thread choice next) {op : Op}
    (running : .main ∈ runs.op.roles) (other : op ∈ runs.others) :
    .main ∉ op.roles := by
  intro plays
  have two := (roster .main).weight_add_weight_le runs other
  rw [weigh_roster (by simp) reached] at two
  have one : (roster .main).debit state.shared ≤ 1 := by
    simp only [roster_debit, cast]
    split <;> omega
  have heavy := List.count_pos_iff.mpr running
  have light := List.count_pos_iff.mpr plays
  simp only [roster_weight] at two
  omega

/-- A call of `Enqueue` is over, in progress or still to come as often as the
users make it. -/
theorem weigh_caller (req : Request)
    (reached : config.Reaches workload allowed state) :
    state.shared.history.returned.count req +
        (roster (.caller req)).weigh state.ops =
      (enqueued workload.users).count req := by
  have balance := roster_balanced (.caller req) reached
  rw [weigh_caller_start] at balance
  simpa [played, cast] using balance

/-- Nobody plays a part that the state has no goroutine for. -/
theorem not_mem_roles (role : Role) (counted : ∀ req, role ≠ .caller req)
    (reached : config.Reaches workload allowed state)
    (nobody : (roster role).debit state.shared = 0) :
    ∀ op ∈ state.ops, role ∉ op.roles := by
  intro op member plays
  have light := (roster role).weight_le_weigh member
  rw [weigh_roster counted reached, nobody, roster_weight, Nat.le_zero,
    List.count_eq_zero] at light
  exact light plays

/-- Nobody is in a call of `Enqueue` that has returned. -/
theorem not_mem_roles_caller {req : Request}
    (reached : config.Reaches workload allowed state)
    (returned : req ∈ state.shared.history.returned) :
    ∀ op ∈ state.ops, .caller req ∉ op.roles := by
  intro op member plays
  have balance := weigh_caller req reached
  have once := List.nodup_iff_count_le_one.mp workload.distinct req
  have counted := List.count_pos_iff.mpr returned
  have light := (roster (.caller req)).weight_le_weigh member
  have heavy := List.count_pos_iff.mpr plays
  rw [roster_weight] at light
  omega

end Runs

end Stream
end Gorums
