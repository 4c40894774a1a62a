import Gorums.Stream.Service

/-!
# The order of requests

A request is pushed to the send queue, taken from it by the send loop or the run
loop, and passed to `Send`.  Of two requests that one goroutine enqueues, the
second is not pushed before the first, so it stays behind it on this way, until
a session queues the first one again.
-/

namespace Gorums
namespace Stream

/-! ## Who pushes a request -/

/-- The request that an operation brings to the send queue, and for whom. -/
def QueueOp.pushing : QueueOp → Option (Request × Origin)
  | .enqueue req => some (req, .caller)
  | .rlock req _ origin => some (req, origin)
  | .check req _ origin => some (req, origin)
  | .select req _ origin => some (req, origin)
  | _ => none

/-- The request that an operation brings to the send queue, and for whom. -/
def Op.pushing : Op → Option (Request × Origin)
  | .queue op => op.pushing
  | _ => none

/-- The operation disposes of a call by queueing it again. -/
def Op.Requeues (config : Config) (shared : Shared) (req : Request)
    (op : Op) : Prop :=
  ∃ k err, op = .session k (.retryOrFail req err) ∧
    .queue (.rlock req false .retry) ∈ (retryOrFail config shared k req err).next

/-- The job of a handler, or of a goroutine of it. -/
def DispatchOp.serving : DispatchOp Job → Option Job
  | .handler _ job => some job
  | .helper _ job => some job
  | _ => none

/-- The operation is a handler, or a goroutine of it, that replies. -/
def Op.Replies (choice : Choice) (req : Request) (op : Op) : Prop :=
  ∃ inner job msg, op = .dispatch inner ∧ inner.serving = some job ∧
    choice = .reply msg ∧ req = replyRequest job msg

/-- Where a push comes from: it goes on, a session queues a call again, or a
handler replies. -/
def Pushes (config : Config) (shared : Shared) (op : Op) (choice : Choice)
    (later : Op) : Prop :=
  ∀ req origin, later.pushing = some (req, origin) →
    op.pushing = some (req, origin) ∨
      (origin = .retry ∧ op.Requeues config shared req) ∨
      (origin = .reply ∧ op.Replies choice req)

section Exec

open Pool

variable {config : Config} {shared : Shared} {outcome : Effect}

theorem pushes_of_none {op later : Op} {choice : Choice}
    (silent : later.pushing = none) : Pushes config shared op choice later := by
  intro req origin pushing
  rw [silent] at pushing
  cases pushing

theorem Fresh.pushes {op : Op} {choice : Choice}
    (silent : Fresh (fun later => later.pushing = none) outcome) :
    Fresh (Pushes config shared op choice) outcome :=
  silent.mono fun _ => pushes_of_none

/-- Every push comes from somewhere. -/
theorem pushes_exec {op : Op} {choice : Choice}
    (executed : exec config shared op choice = some outcome) :
    Fresh (Pushes config shared op choice) outcome := by
  cases exec_does executed with
  | queue does =>
      cases does <;> simp [Fresh] <;>
        simp +contextual [Pushes, Op.pushing, QueueOp.pushing]
  | session _ does =>
      cases does with
      | @requeue err req refused lives requeues =>
          -- Only here can a session queue a call again.
          refine ⟨fun later member other origin pushing => ?_, by simp⟩
          cases List.mem_singleton.mp member
          cases pushing
          refine .inr (.inl ⟨rfl, _, err, rfl, ?_⟩)
          cases err <;> simp only [retryOrFail, refused, if_neg lives,
            if_pos requeues, List.mem_singleton]
      | _ =>
          exact .pushes (by
            simp [Fresh, drainCalls] <;> simp [Op.pushing, QueueOp.pushing])
  | dispatch =>
      refine .pushes ?_
      simp [Fresh, liftDispatch]
      simp [Op.pushing]
  | reply serves replies =>
      simp only [Fresh, reply, List.forall_mem_cons]
      refine ⟨⟨?_, pushes_of_none rfl, List.forall_mem_nil _⟩,
        List.forall_mem_nil _⟩
      rintro req origin ⟨⟩
      refine .inr (.inr ⟨rfl, _, _, _, rfl, ?_, replies, rfl⟩)
      rcases serves with rfl | rfl <;> rfl
  | send _ does | recv _ does | run _ does =>
      refine .pushes ?_
      cases does
      all_goals simp [Fresh, drainCalls, loopReturn, openStream, recordFailure,
        or_imp, forall_and]
      all_goals simp [Op.pushing, QueueOp.pushing]
  | _ =>
      refine .pushes ?_
      simp [Fresh, drainCalls, exited, or_imp, forall_and] <;>
        simp [Op.pushing, QueueOp.pushing]

/-- A push starts no goroutine. -/
theorem spawned_of_pushing {op : Op} {choice : Choice} {req : Request}
    {origin : Origin} (pushing : op.pushing = some (req, origin))
    (executed : exec config shared op choice = some outcome) :
    outcome.spawned = [] := by
  cases exec_does executed with
  | queue does =>
      cases does with
      | close => cases pushing
      | _ => rfl
  | _ => cases pushing

/-! ## The way of a request to `Send` -/

/-- The request that the send loop or the run loop has taken from the queue and
not yet passed to `Send`. -/
def Op.hand : Op → List Request
  | .send _ _ op => op.unsent
  | .run op => op.held
  | _ => []

/-- The requests passed to `Send`, in order. -/
def History.passed (history : History) : List Request :=
  history.sends.filterMap Prod.snd

/-- The requests on their way: those passed to `Send`, the one in hand, and
those in the queue. -/
def Shared.line (shared : Shared) (hand : List Request) : List Request :=
  shared.history.passed ++ (hand ++ shared.queue.ch)

/-- What an operation can do to the requests on their way. -/
inductive LineStep (shared : Shared) (op : Op) (after : Shared) : Prop
  | same (passed : after.history.passed = shared.history.passed)
      (ch : after.queue.ch = shared.queue.ch)
  | push (req : Request) (wait : Bool) (origin : Origin)
      (running : op = .queue (.select req wait origin))
      (passed : after.history.passed = shared.history.passed)
      (ch : after.queue.ch = shared.queue.ch ++ [req])
  | pop (req : Request)
      (passed : after.history.passed = shared.history.passed)
      (ch : shared.queue.ch = req :: after.queue.ch)
  | send (k : Nat) (back : LoopReturn) (req : Request)
      (running : op = .send k back (.call req))
      (passed : after.history.passed = shared.history.passed ++ [req])
      (ch : after.queue.ch = shared.queue.ch)

/-- An operation passes a request to `Send`, or passes none. -/
theorem passed_exec {op : Op} {choice : Choice}
    (executed : exec config shared op choice = some outcome) :
    outcome.shared.history.passed = shared.history.passed ∨
      ∃ k back req, op = .send k back (.call req) ∧
        outcome.shared.history.passed = shared.history.passed ++ [req] := by
  cases history_exec executed with
  | sending k back req running equal =>
      refine .inr ⟨k, back, req, running, ?_⟩
      rw [equal]
      simp [History.passed]
  | accepting running equal =>
      refine .inl ?_
      rw [equal]
      simp [History.passed]
  | _ =>
      rename_i equal
      rw [equal]
      exact .inl rfl

theorem line_exec {op : Op} {choice : Choice}
    (executed : exec config shared op choice = some outcome) :
    LineStep shared op outcome.shared := by
  rcases passed_exec executed with passed | ⟨k, back, req, rfl, passed⟩
  · cases queue_exec executed with
    | same ch closed => exact .same passed ch
    | push req wait origin running ch closed =>
        exact .push req wait origin running passed ch
    | pop req running ch closed => exact .pop req passed ch
    | lock closer running unread ch closed => exact .same passed ch
  · refine .send k back req rfl passed ?_
    cases queue_exec executed with
    | same ch closed => exact ch
    | push _ _ _ running => cases running
    | pop _ running => cases running
    | lock _ running => cases running

theorem Op.hand_of_service {op : Op} (service : op.service = true) :
    op.hand = [] := by
  cases op with
  | send k back op => cases service
  | run op => cases service
  | _ => rfl

/-- What an operation leaves in hand it has had in hand, or it has taken it from
the queue. -/
theorem hand_exec {op : Op} {choice : Choice}
    (executed : exec config shared op choice = some outcome) :
    Fresh (fun later => later.hand = [] ∨
      (outcome.shared.line later.hand).Sublist (shared.line op.hand))
      outcome := by
  by_cases serves : op.service = true
  · exact (service_exec serves executed).mono fun later service =>
      .inl (Op.hand_of_service service)
  have does := exec_does executed
  clear executed
  cases does with
  | session _ does =>
      cases does <;> first
        | exact absurd rfl serves
        | simp [Fresh, Op.hand]
  | send _ does =>
      cases does
      all_goals simp [Fresh, drainCalls, loopReturn, or_imp, forall_and]
      all_goals simp_all [Op.hand, SendOp.unsent, Shared.line, History.passed,
        RunOp.held]
  | recv _ does =>
      cases does
      all_goals simp [Fresh, drainCalls, or_imp, forall_and]
      all_goals simp [Op.hand]
  | run _ does =>
      cases does
      all_goals simp [Fresh, openStream, recordFailure, or_imp, forall_and]
      all_goals simp_all [Op.hand, SendOp.unsent, Shared.line, History.passed,
        RunOp.held, Shared.openSession]
  | acceptHeader | noHeader | acceptCtx | acceptFrame | left | inboundCancel =>
      simp [Fresh, or_imp, forall_and]
      simp [Op.hand, SendOp.unsent]
  | _ => exact absurd rfl serves

end Exec

section Runs

open Pool

variable {config : Config} {workload : Workload}
  {allowed : ChannelState → Step → Prop} {state next : ChannelState}
  {thread : Nat} {choice : Choice} {req : Request}

/-- A goroutine is in its call of `Enqueue` with the request and has not pushed
it, or it is still to make the call. -/
def Unpushed (req : Request) (state : ChannelState) : Prop :=
  ∃ op ∈ state.ops, op.pushing = some (req, .caller)

theorem Op.held_of_pushing {op : Op} {origin : Origin}
    (pushing : op.pushing = some (req, origin)) : op.held = [req] := by
  cases op with
  | queue op =>
      cases op with
      | _ => cases pushing <;> rfl
  | _ => cases pushing

/-- What is still to be pushed has been so all along. -/
theorem Unpushed.before {label : Step}
    (stepped : (channel config).step state label = some next)
    (unpushed : Unpushed req next) : Unpushed req state := by
  obtain ⟨op, member, pushing⟩ := unpushed
  rcases Machine.step_cases stepped with
    ⟨thread, choice, rfl, ⟨runs⟩⟩ | ⟨event, shared, rfl, acted, rfl⟩
  · rcases runs.mem_next_ops.mp member with fresh | other
    · rcases (pushes_exec runs.exec_eq).of_mem fresh req .caller pushing with
        running | ⟨retry, _⟩ | ⟨reply, _⟩
      · exact ⟨runs.op, runs.op_mem, running⟩
      · cases retry
      · cases reply
    · exact ⟨op, runs.mem_of_others other, pushing⟩
  · exact ⟨op, member, pushing⟩

/-- Nobody else holds a request that is still to be pushed. -/
theorem Unpushed.sole (reached : config.Reaches workload allowed state)
    (call : req.IsCall) (unpushed : Unpushed req state) :
    req ∉ state.shared.queue.ch ∧
      ∀ op ∈ state.ops, req ∈ op.held → op.pushing.isSome = true := by
  obtain ⟨entering, member, pushing⟩ := unpushed
  have once := List.nodup_iff_count_le_one.mp workload.distinct req
  have balance := custody_reached call reached
  have heavy : (custody req).weight entering = 1 := by
    simp [Op.held_of_pushing pushing]
  refine ⟨fun queued => ?_, fun op inside holds => ?_⟩
  · have light := (custody req).weight_le_weigh member
    have counted := List.count_pos_iff.mpr queued
    simp only [custody_credit] at balance
    omega
  · by_contra silent
    have different : entering ≠ op := by
      rintro rfl
      simp [pushing] at silent
    have two := (custody req).weight_add_weight_le_of_ne member inside different
    have counted := List.count_pos_iff.mpr holds
    simp only [custody_weight] at two heavy
    omega

/-- A request that is still to be pushed has not been sent and is not about to
be. -/
theorem Unpushed.unsent (reached : config.Reaches workload allowed state)
    (call : req.IsCall) (unpushed : Unpushed req state) :
    req ∉ state.shared.history.passed ∧
      ∀ k back, .send k back (.call req) ∉ state.ops := by
  induction reached with
  | start =>
      refine ⟨by simp [History.passed], fun k back member => ?_⟩
      rcases config.mem_start_ops workload member with
        ⟨_, same⟩ | ⟨_, same | same⟩ | ⟨_, _, same⟩ | same | ⟨_, same⟩ <;>
        cases same
  | step label reached permitted stepped inductionHypothesis =>
      have before := unpushed.before stepped
      obtain ⟨unpassed, uncalled⟩ := inductionHypothesis before
      rcases Machine.step_cases stepped with
        ⟨thread, choice, rfl, ⟨runs⟩⟩ | ⟨event, shared, rfl, acted, rfl⟩
      · refine ⟨?_, fun k back member => ?_⟩
        · rw [runs.next_shared]
          rcases passed_exec runs.exec_eq with same | ⟨k, back, other, running, grown⟩
          · rw [same]
            exact unpassed
          · rw [grown, List.mem_append, List.mem_singleton]
            rintro (passed | rfl)
            · exact unpassed passed
            · exact uncalled k back (running ▸ runs.op_mem)
        · rcases runs.mem_next_ops.mp member with fresh | other
          · obtain ⟨running, _⟩ := (carry_exec runs.exec_eq).call k back req fresh
            have pushing := (before.sole reached call).2 runs.op runs.op_mem
              (by simp [running, Op.held, SendOp.held])
            rw [running] at pushing
            cases pushing
          · exact uncalled k back (runs.mem_of_others other)
      · obtain ⟨received, crowded, history⟩ := history_environment acted
        refine ⟨?_, uncalled⟩
        simp only [History.passed, history]
        exact unpassed

/-- Who has a request in hand holds it, or is about to send it. -/
theorem Op.held_of_hand {op : Op} (inHand : req ∈ op.hand) :
    req ∈ op.held ∨ ∃ k back, op = .send k back (.call req) := by
  cases op with
  | send k back op =>
      cases op with
      | call other =>
          obtain rfl := List.mem_singleton.mp inHand
          exact .inr ⟨k, back, rfl⟩
      | _ =>
          first
          | exact .inl inHand
          | cases inHand
  | run op => exact .inl inHand
  | _ => cases inHand

/-- A request that is still to be pushed is not on its way. -/
theorem Unpushed.not_mem_line (reached : config.Reaches workload allowed state)
    (call : req.IsCall) (unpushed : Unpushed req state) {hand : List Request}
    (inHand : hand = [] ∨ ∃ op ∈ state.ops, op.hand = hand) :
    req ∉ state.shared.line hand := by
  obtain ⟨unqueued, holders⟩ := unpushed.sole reached call
  obtain ⟨unpassed, uncalled⟩ := unpushed.unsent reached call
  have free : req ∉ hand := by
    rcases inHand with rfl | ⟨op, member, rfl⟩
    · exact List.not_mem_nil
    · intro taken
      rcases Op.held_of_hand taken with holds | ⟨k, back, rfl⟩
      · have pushing := holders op member holds
        cases op <;> first | cases taken | cases pushing
      · exact uncalled k back member
  simp [Shared.line, unpassed, free, unqueued]

/-! ## Two requests of one goroutine -/

theorem mem_enqueued {users : List (List UserCall)} :
    req ∈ enqueued users ↔ ∃ calls ∈ users, .enqueue req ∈ calls := by
  unfold enqueued
  rw [List.mem_filterMap]
  constructor
  · rintro ⟨call, member, equal⟩
    obtain ⟨calls, user, inside⟩ := List.mem_flatten.mp member
    cases call with
    | enqueue other =>
        cases equal
        exact ⟨calls, user, inside⟩
    | _ => cases equal
  · rintro ⟨calls, user, inside⟩
    exact ⟨_, List.mem_flatten.mpr ⟨calls, user, inside⟩, rfl⟩

theorem enqueued_append (front back : List (List UserCall)) :
    enqueued (front ++ back) = enqueued front ++ enqueued back := by
  simp [enqueued]

/-- No two goroutines enqueue the same request. -/
theorem eq_of_enqueue_mem {calls others : List UserCall}
    (user : calls ∈ workload.users) (other : others ∈ workload.users)
    (called : .enqueue req ∈ calls) (again : .enqueue req ∈ others) :
    others = calls := by
  by_contra different
  obtain ⟨front, back, split⟩ := List.append_of_mem user
  have distinct := workload.distinct
  rw [split, enqueued_append, ← List.singleton_append, enqueued_append,
    List.nodup_append, List.nodup_append] at distinct
  have here : req ∈ enqueued [calls] :=
    mem_enqueued.mpr ⟨calls, by simp, called⟩
  rw [split] at other
  simp only [List.mem_append, List.mem_cons, different, false_or] at other
  rcases other with early | late
  · exact distinct.2.2 req (mem_enqueued.mpr ⟨others, early, again⟩) req
      (List.mem_append_left _ here) rfl
  · exact distinct.2.1.2.2 req here req
      (mem_enqueued.mpr ⟨others, late, again⟩) rfl

/-- A goroutine enqueues each of its requests once. -/
theorem not_mem_of_split {calls front back : List UserCall}
    (user : calls ∈ workload.users)
    (split : calls = front ++ .enqueue req :: back) : .enqueue req ∉ front := by
  intro again
  have part : (enqueued [calls]).Sublist (enqueued workload.users) :=
    (List.singleton_sublist.mpr user).flatten.filterMap _
  have distinct := workload.distinct.sublist part
  have parts : enqueued [calls] = enqueued [front] ++ req :: enqueued [back] := by
    simp [split, enqueued]
  rw [parts, List.nodup_append] at distinct
  exact distinct.2.2 req (mem_enqueued.mpr ⟨front, by simp, again⟩) req
    List.mem_cons_self rfl

variable {calls : List UserCall} {earlier later : Request}

/-- What a goroutine enqueues after a request, it enqueues after its call with
that request. -/
theorem mem_of_enqueue_sublist (user : calls ∈ workload.users)
    (order : [.enqueue earlier, .enqueue later].Sublist calls)
    {front back : List UserCall}
    (split : calls = front ++ .enqueue earlier :: back) :
    .enqueue later ∈ back := by
  have first := not_mem_of_split user split
  rw [split, List.sublist_append_iff] at order
  obtain ⟨head, tail, parts, inFront, inBack⟩ := order
  cases head with
  | nil =>
      rw [List.nil_append] at parts
      rw [← parts, List.cons_sublist_cons, List.singleton_sublist] at inBack
      exact inBack
  | cons call head =>
      obtain ⟨same, _⟩ := List.cons.inj parts
      exact absurd (inFront.subset (same ▸ List.mem_cons_self)) first

/-- The two requests are different. -/
theorem ne_of_enqueue_sublist (user : calls ∈ workload.users)
    (order : [.enqueue earlier, .enqueue later].Sublist calls) :
    earlier ≠ later := by
  rintro rfl
  obtain ⟨front, back, split⟩ :=
    List.append_of_mem (order.subset List.mem_cons_self)
  obtain ⟨middle, rest, again⟩ :=
    List.append_of_mem (mem_of_enqueue_sublist user order split)
  have other : calls = (front ++ .enqueue earlier :: middle) ++
      .enqueue earlier :: rest := by
    rw [split, again, List.append_assoc]
    rfl
  exact not_mem_of_split user other (by simp)

/-- The channel's own goroutines have nothing to push when it starts. -/
theorem Config.start_pushing {thread : List Op}
    (started : thread ∈ (config.start workload).threads) :
    thread ∈ workload.threads ∨ ∀ op ∈ thread, op.pushing = none := by
  unfold Config.start at started
  cases kind : config.kind with
  | outbound =>
      rw [kind] at started
      rcases List.mem_cons.mp started with rfl | user
      · refine .inr fun op member => ?_
        rw [List.mem_singleton.mp member]
        rfl
      · exact .inl user
  | inbound =>
      rw [kind] at started
      rcases List.mem_cons.mp started with rfl | rest
      · refine .inr fun op member => ?_
        rw [List.mem_singleton.mp member]
        rfl
      · rcases List.mem_cons.mp rest with rfl | user
        · refine .inr fun op member => ?_
          rw [List.mem_singleton.mp member]
          rfl
        · exact .inl user

/-- Of two requests that one goroutine enqueues, the second is still to be
pushed as long as the first is. -/
theorem unpushed_later (user : calls ∈ workload.users)
    (order : [.enqueue earlier, .enqueue later].Sublist calls)
    (reached : config.Reaches workload allowed state)
    (unpushed : Unpushed earlier state) : Unpushed later state := by
  have called : .enqueue earlier ∈ calls := order.subset (by simp)
  have fresh : ∀ {state next : ChannelState} {thread : Nat} {choice : Choice}
      (runs : (channel config).Runs state thread choice next),
      ∀ op ∈ runs.fresh, op.pushing = some (earlier, .caller) →
      runs.op.pushing = some (earlier, .caller) := by
    intro state next thread choice runs op fresh pushing
    rcases (pushes_exec runs.exec_eq).of_mem fresh _ _ pushing with
      running | ⟨retry, _⟩ | ⟨reply, _⟩
    · exact running
    · cases retry
    · cases reply
  obtain ⟨op, member, pushing⟩ := unpushed
  refine reached.covered (fun op => op.pushing = some (earlier, .caller))
    (fun op => op.pushing = some (later, .caller)) ?_ ?_ ?_ member pushing
  · intro thread inside
    rcases Config.start_pushing inside with isUser | silent
    · obtain ⟨others, other, rfl⟩ := List.mem_map.mp isUser
      refine Covered.of_followed fun front op back split pushing => ?_
      obtain ⟨before, rest, rfl, rfl, tail⟩ := List.map_eq_append_iff.mp split
      obtain ⟨call, after, rfl, rfl, rfl⟩ := List.map_eq_cons_iff.mp tail
      have same : call = .enqueue earlier := by
        cases call <;> cases pushing
        rfl
      rw [same] at other
      have equal := eq_of_enqueue_mem user other called (by simp)
      exact .inr ⟨_, List.mem_map_of_mem
        (mem_of_enqueue_sublist user order equal.symm), rfl⟩
    · refine Covered.of_light fun op member pushing => ?_
      rw [silent op member] at pushing
      cases pushing
  · intro state thread choice next runs _ _ kept
    refine Covered.of_light fun op member pushing => ?_
    have running := fresh runs op (List.mem_append_left _ member) pushing
    have both := running.symm.trans (kept running)
    exact ne_of_enqueue_sublist user order
      (congrArg Prod.fst (Option.some.inj both))
  · intro state thread choice next runs started spawned
    refine Covered.of_light fun op member pushing => ?_
    have running := fresh runs op (List.mem_append_right _
      (List.mem_flatten.mpr ⟨started, spawned, member⟩)) pushing
    rw [spawned_of_pushing running runs.exec_eq] at spawned
    cases spawned

/-- The users enqueue two requests, and the later one is still to be pushed as
long as the earlier one is. -/
structure Follows (config : Config) (workload : Workload)
    (allowed : ChannelState → Step → Prop) (earlier later : Request) :
    Prop where
  /-- The earlier request. -/
  first : earlier ∈ enqueued workload.users
  /-- The later request. -/
  second : later ∈ enqueued workload.users
  /-- The later one is pushed after the earlier one. -/
  behind : ∀ state, config.Reaches workload allowed state →
    Unpushed earlier state → Unpushed later state

/-- A goroutine pushes its requests in the order of its calls. -/
theorem follows_of_sublist (user : calls ∈ workload.users)
    (order : [.enqueue earlier, .enqueue later].Sublist calls) :
    Follows config workload allowed earlier later :=
  ⟨mem_enqueued.mpr ⟨calls, user, order.subset (by simp)⟩,
    mem_enqueued.mpr ⟨calls, user, order.subset (by simp)⟩,
    fun _ reached => unpushed_later user order reached⟩

/-! ## Requests stay in order -/

/-- In a list of requests, the later one of two does not come before the earlier
one. -/
def Precedes (earlier later : Request) (line : List Request) : Prop :=
  line.Pairwise fun one other => one = later → other ≠ earlier

theorem Precedes.push {line : List Request}
    (ordered : Precedes earlier later line)
    (first : req = earlier → later ∉ line) :
    Precedes earlier later (line ++ [req]) := by
  refine List.pairwise_append.mpr ⟨ordered, by simp, ?_⟩
  rintro one member other single rfl rfl
  exact first (List.mem_singleton.mp single).symm member

/-- Whoever has a request in hand is the main goroutine. -/
theorem Op.main_of_hand {op : Op} (inHand : op.hand ≠ []) :
    .main ∈ op.roles := by
  cases op with
  | send k back op => simp [Op.roles]
  | run op => simp [Op.roles]
  | _ => exact absurd rfl inHand

/-- Every operation leaves two requests in order, if what is sent has been in
hand before. -/
theorem Precedes.step
    (follows : Follows config workload allowed earlier later)
    (reached : config.Reaches workload allowed state)
    (runs : (channel config).Runs state thread choice next)
    (pushing : ∀ origin, runs.op.pushing = some (earlier, origin) →
      origin = .caller)
    {hand : List Request}
    (sent : ∀ k back req, runs.op = .send k back (.call req) →
      hand = [] ∧ Precedes earlier later (state.shared.line [req]))
    (inHand : hand = [] ∨ ∃ op ∈ state.ops, op.hand = hand)
    (ordered : Precedes earlier later (state.shared.line hand)) :
    Precedes earlier later (runs.outcome.shared.line hand) := by
  cases line_exec runs.exec_eq with
  | same passed ch =>
      unfold Shared.line
      rw [passed, ch]
      exact ordered
  | push req wait origin running passed ch =>
      have grown : runs.outcome.shared.line hand =
          state.shared.line hand ++ [req] := by
        simp [Shared.line, passed, ch]
      rw [grown]
      refine ordered.push ?_
      rintro rfl
      obtain rfl := pushing origin (by rw [running]; rfl)
      have unpushed : Unpushed req state :=
        ⟨runs.op, runs.op_mem, by rw [running]; rfl⟩
      exact (follows.behind state reached unpushed).not_mem_line reached
        (Request.isCall_of_cause (workload.calls later follows.second)) inHand
  | pop req passed ch =>
      refine List.Pairwise.sublist ?_ ordered
      unfold Shared.line
      rw [passed, ch]
      exact ((List.sublist_cons_self _ _).append_left _).append_left _
  | send k back req running passed ch =>
      obtain ⟨rfl, before⟩ := sent k back req running
      have moved : runs.outcome.shared.line [] = state.shared.line [req] := by
        simp [Shared.line, passed, ch]
      rw [moved]
      exact before

/-- Until something is past, two requests stay in order on their way to `Send`,
if no session queues the first one again before that. -/
theorem ordered_reached
    (follows : Follows config workload allowed earlier later)
    (past : Shared → Prop)
    (lasting : ∀ shared op choice outcome,
      exec config shared op choice = some outcome →
      past shared → past outcome.shared)
    (remaining : ∀ shared event after,
      environment shared event = some after → past shared → past after)
    (requeued : ∀ {state thread choice next}
      (runs : (channel config).Runs state thread choice next),
      config.Reaches workload allowed state →
      allowed state (.run thread choice) →
      runs.op.Requeues config state.shared earlier → past state.shared)
    (reached : config.Reaches workload allowed state) :
    (¬ past state.shared → Precedes earlier later (state.shared.line [])) ∧
      ∀ op ∈ state.ops, ¬ past state.shared →
        Precedes earlier later (state.shared.line op.hand) ∧
        ∀ origin, op.pushing = some (earlier, origin) → origin = .caller := by
  have call := Request.isCall_of_cause (workload.calls earlier follows.first)
  refine reached.annotated
    (fun shared => ¬ past shared → Precedes earlier later (shared.line []))
    (fun shared op => ¬ past shared →
      Precedes earlier later (shared.line op.hand) ∧
        ∀ origin, op.pushing = some (earlier, origin) → origin = .caller)
    ?initial ?run ?environment
  case initial =>
    have empty : (config.start workload).shared.line [] = [] := by
      simp [Shared.line, History.passed]
    refine ⟨fun _ => ?_, fun op member _ => ?_⟩
    · rw [empty]
      exact List.Pairwise.nil
    · rcases config.mem_start_ops workload member with
        ⟨_, rfl⟩ | ⟨_, rfl | rfl⟩ | ⟨_, _, rfl⟩ | rfl | ⟨_, rfl⟩
      all_goals
        refine ⟨?_, ?_⟩
        · exact empty.symm ▸ List.Pairwise.nil
        · rintro origin ⟨⟩ <;> rfl
  case run =>
    intro state thread choice next runs reached permitted ordered noted
    have proceeds : ¬ past runs.outcome.shared → ¬ past state.shared :=
      fun running ended => running (lasting _ _ _ _ runs.exec_eq ended)
    have total : ¬ past runs.outcome.shared →
        Precedes earlier later (runs.outcome.shared.line []) := by
      intro running
      obtain ⟨inHand, pushing⟩ := noted (proceeds running)
      refine Precedes.step follows reached runs pushing ?_ (.inl rfl)
        (ordered (proceeds running))
      intro k back req sending
      rw [sending] at inHand
      exact ⟨rfl, inHand⟩
    refine ⟨total, fun op fresh running => ?_, fun op other before running => ?_⟩
    · obtain ⟨inHand, pushing⟩ := noted (proceeds running)
      refine ⟨?_, fun origin pushed => ?_⟩
      · rcases (hand_exec runs.exec_eq).of_mem fresh with free | part
        · rw [free]
          exact total running
        · exact List.Pairwise.sublist part inHand
      · rcases (pushes_exec runs.exec_eq).of_mem fresh _ _ pushed with
          same | ⟨_, requeues⟩ | ⟨_, _, job, msg, _, _, _, reply⟩
        · exact pushing origin same
        · exact absurd (requeued runs reached permitted requeues)
            (proceeds running)
        · exact absurd reply.symm (call job msg)
    · obtain ⟨inHand, pushing⟩ := before (proceeds running)
      refine ⟨?_, pushing⟩
      by_cases free : op.hand = []
      · rw [free]
        exact total running
      · refine Precedes.step follows reached runs
          (noted (proceeds running)).2 ?_
          (.inr ⟨op, runs.mem_of_others other, rfl⟩) inHand
        -- Whoever sends is the main goroutine, and so is who has a request.
        intro k back req sending
        exact absurd (Op.main_of_hand free)
          (sole_main reached runs (by simp [sending, Op.roles]) other)
  case environment =>
    intro shared event after acted ordered
    obtain ⟨received, crowded, history⟩ := history_environment acted
    have same : ∀ hand, after.line hand = shared.line hand := by
      intro hand
      simp [Shared.line, History.passed, history, (frame_environment acted).1]
    refine ⟨fun proceeds => ?_, fun op noted proceeds => ?_⟩
    · rw [same]
      exact ordered fun ended => proceeds (remaining _ _ _ acted ended)
    · rw [same]
      exact noted fun ended => proceeds (remaining _ _ _ acted ended)

end Runs

end Stream
end Gorums
