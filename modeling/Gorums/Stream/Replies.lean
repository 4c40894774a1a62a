import Gorums.Stream.StreamUp

/-!
# Responses to the calls of a stream

A call that has been sent on a stream stays in the stream's table until the
first response to it arrives, unless the session or the call's context ends.
The first response is delivered, and later ones find no call.
-/

namespace Gorums
namespace Stream

/-- The frames that session `k` has routed as responses under a message ID. -/
def History.responsesTo (history : History) (k : Nat) (msgID : UInt64) :
    List Message :=
  history.routes.filterMap fun routed =>
    match routed.route with
    | .handler => none
    | .response _ _ =>
        if routed.session = k ∧ routed.msg.messageSeqNo = msgID then
          some routed.msg
        else none

/-- The frame that made an acceptance known. -/
def Acceptance.frame? : Acceptance → Option Message
  | .header => none
  | .frame _ msg => some msg

/-- The frame that an operation of a receive goroutine deals with. -/
def RecvOp.frame : RecvOp → Option Message
  | .check _ msg => some msg
  | .accept acceptance => acceptance.frame?
  | .handoff acceptance => acceptance.frame?
  | .verdict acceptance => acceptance.frame?
  | .up acceptance => acceptance.frame?
  | .handle _ msg => some msg
  | _ => none

/-- The session and the frame that an operation deals with. -/
def Op.frame : Op → Option (Nat × Message)
  | .recv k op => op.frame.map fun msg => (k, msg)
  | .session k (.take _ msg) => some (k, msg)
  | _ => none

/-- Whether an operation neither deals with a frame nor is about to send. -/
def Op.bare : Op → Bool
  | .recv _ op => op.frame.isNone
  | .session _ (.take _ _) => false
  | .send _ _ (.call _) => false
  | _ => true

/-- Whether an operation calls `Send`. -/
def Op.isCall : Op → Bool
  | .send _ _ (.call _) => true
  | _ => false

theorem Op.frame_of_bare {op : Op} (bare : op.bare = true) :
    op.frame = none := by
  revert bare
  fun_cases Op.bare op <;> simp_all [Op.frame]

/-- The peer has a reason to send a frame: it is a request of its own or the
acceptance frame, or it answers a call that has been sent on the stream. -/
def Caused (workload : Workload) (history : History) (k : Nat)
    (msg : Message) : Prop :=
  isServerSequenceNumber msg.messageSeqNo = false → msg.messageSeqNo ≠ 0 →
    ∃ req ∈ enqueued workload.users, (k, some req) ∈ history.sends ∧
      req.msgID = msg.messageSeqNo

/-- The frames that arrive have been caused. -/
def Answers (workload : Workload) (state : ChannelState) (label : Step) :
    Prop :=
  ∀ thread k msg, label = .run thread (.frame msg) →
    state.head? thread = some (.recv k .recv) →
    Caused workload state.shared.history k msg

/-- Check that a step receives only a frame that has been caused. -/
def answersCheck (workload : Workload) (state : ChannelState) : Step → Bool
  | .run thread (.frame msg) =>
      match state.head? thread with
      | some (.recv k .recv) =>
          isServerSequenceNumber msg.messageSeqNo || msg.messageSeqNo == 0 ||
            (enqueued workload.users).any fun req =>
              state.shared.history.sends.contains (k, some req) &&
                req.msgID == msg.messageSeqNo
      | _ => true
  | _ => true

theorem answers_of_check {workload : Workload} {state : ChannelState}
    {label : Step} (checked : answersCheck workload state label = true) :
    Answers workload state label := by
  intro thread k msg running first client nonzero
  rw [running] at checked
  simp only [answersCheck, first, client, Bool.false_or, Bool.or_eq_true,
    beq_iff_eq, nonzero, false_or, List.any_eq_true, Bool.and_eq_true,
    List.contains_iff_mem] at checked
  exact checked

/-- Whether an operation delivers a response that finishes a call. -/
def Op.settles : Op → Bool
  | .session _ (.matched _ _) => true
  | .queue (.deliver _ _ _) => true
  | .queue (.offer _ _ _) => true
  | _ => false

/-- The outcomes of a call: those that it has got, and those that are being
delivered. -/
@[simps] def settling (req : Request) : Pool.Ledger Shared Op where
  credit shared :=
    (answered shared.history.responses).count req +
      (shared.history.discarded.map Prod.fst).count req
  weight op := if op.settles then op.held.count req else 0

/-- The send loop of session `k` has sent a request or is about to. -/
def Launched (k : Nat) (req : Request) (state : ChannelState) : Prop :=
  (k, some req) ∈ state.shared.history.sends ∨
    ∃ back, .send k back (.call req) ∈ state.ops

/-- Where a call sent on stream `k` is, as long as neither the session nor the
call's context has ended: in the table until a response arrives, and then
settled or being settled. -/
def Followed (k : Nat) (req : Request) (state : ChannelState) : Prop :=
  (k < state.shared.opened ∧ (state.shared.session k).done = true) ∨
    state.shared.ended req.ctx = true ∨
    (state.shared.history.responsesTo k req.msgID = [] ∧
      (Launched k req state → k < state.shared.opened ∧
        req ∈ (state.shared.session k).pending.reqs)) ∨
    (state.shared.history.responsesTo k req.msgID ≠ [] ∧
      1 ≤ (settling req).credit state.shared + (settling req).weigh state.ops)

/-- A call is pending once it has been added. -/
theorem mem_reqs_of_add {table added : PendingCalls} {ended : Nat → Bool}
    {msgID : UInt64} {req : Request}
    (recorded : table.add ended msgID req = some added) :
    req ∈ added.reqs := by
  unfold PendingCalls.add at recorded
  split at recorded
  · cases recorded
  · rw [← Option.some.inj recorded]
    simp [PendingCalls.put, PendingCalls.reqs]

section Exec

open Pool

variable {config : Config} {shared : Shared} {outcome : Effect}

/-- Where the operations come from that deal with a frame or are about to
send. -/
structure CarryStep (op : Op) (choice : Choice) (outcome : Effect) : Prop where
  /-- A frame comes from the stream. -/
  frame : ∀ later ∈ outcome.next ++ outcome.spawned.flatten, ∀ k msg,
    later.frame = some (k, msg) →
    op.frame = some (k, msg) ∨ (op = .recv k .recv ∧ choice = .frame msg)
  /-- A request has been registered before it is sent. -/
  call : ∀ k back req,
    .send k back (.call req) ∈ outcome.next ++ outcome.spawned.flatten →
    op = .send k back (.add req) ∧
      (req.wantServerResponse = true →
        req ∈ (outcome.shared.session k).pending.reqs)

/-- Most operations leave bare ones. -/
theorem CarryStep.of_bare {op : Op} {choice : Choice} {after : Shared}
    {next : List Op} {spawned : List (List Op)}
    (bare : (next ++ spawned.flatten).all Op.bare = true) :
    CarryStep op choice ⟨after, next, spawned⟩ where
  frame later member k msg framed := by
    rw [Op.frame_of_bare (List.all_eq_true.mp bare later member)] at framed
    cases framed
  call k back req member :=
    Bool.noConfusion (List.all_eq_true.mp bare _ member)

/-- A receive goroutine goes on with its frame. -/
theorem CarryStep.of_recv {k : Nat} {op : RecvOp} {choice : Choice}
    {after : Shared} {next : List Op}
    (carried : ∀ later ∈ next, later.bare = true ∨ later.isCall = false ∧
      (later.frame = (Op.recv k op).frame ∨
        ∃ msg, later.frame = some (k, msg) ∧ op = .recv ∧
          choice = .frame msg)) :
    CarryStep (.recv k op) choice ⟨after, next, []⟩ where
  frame later member other msg framed := by
    rcases carried later (by simpa using member) with
      bare | ⟨_, same | ⟨own, same, rfl, received⟩⟩
    · rw [Op.frame_of_bare bare] at framed
      cases framed
    · exact .inl (same ▸ framed)
    · cases same.symm.trans framed
      exact .inr ⟨rfl, received⟩
  call other back req member := by
    rcases carried _ (by simpa using member) with bare | ⟨call, _⟩
    · cases bare
    · cases call

theorem bare_watchers {k : Nat} {watches : List PendingCalls.Watch} {op : Op}
    (member : op ∈ (watchers k watches).flatten) : op.bare = true := by
  obtain ⟨watch, rfl⟩ := expire_of_watchers member
  rfl

@[simp] theorem bare_deliverError (req : Request) (err : Err) :
    (deliverError config req err).all Op.bare = true := by
  unfold deliverError
  split <;> rfl

@[simp] theorem bare_failRequest (req : Option Request) (err : Err) :
    (failRequest req err).all Op.bare = true := by
  cases req <;> rfl

theorem carry_send {k : Nat} {back : LoopReturn} {op : SendOp}
    {choice : Choice}
    (does : SendDoes config shared choice k back op outcome) :
    CarryStep (.send k back op) choice outcome := by
  cases does with
  | add _ added =>
      refine ⟨fun later member other msg framed => ?_,
        fun other again req member => ?_⟩
      · rcases List.mem_append.mp member with following | watching
        · cases List.mem_singleton.mp following
          cases framed
        · rw [Op.frame_of_bare (bare_watchers watching)] at framed
          cases framed
      · rcases List.mem_append.mp member with following | watching
        · cases List.mem_singleton.mp following
          exact ⟨rfl, fun _ => by simpa using mem_reqs_of_add added⟩
        · exact Bool.noConfusion (bare_watchers watching)
  | oneway silent =>
      refine ⟨fun later member other msg framed => ?_,
        fun other again req member => ?_⟩
      · cases List.mem_singleton.mp member
        cases framed
      · cases List.mem_singleton.mp member
        exact ⟨rfl, fun want => absurd want silent⟩
  | _ =>
      refine .of_bare ?_
      first
        | rfl
        | split <;> rfl
        | simp [Op.bare, loopReturn, recordHealthy, recordUnlessEnded]

theorem carry_recv {k : Nat} {op : RecvOp} {choice : Choice}
    (does : RecvDoes config shared choice k op outcome) :
    CarryStep (.recv k op) choice outcome := by
  cases does
  all_goals
    exact .of_recv (by
      simp_all [Op.bare, Op.isCall, Op.frame, RecvOp.frame, Acceptance.frame?,
        or_imp])

theorem carry_exec {op : Op} {choice : Choice}
    (executed : exec config shared op choice = some outcome) :
    CarryStep op choice outcome := by
  cases exec_does executed with
  | send _ does => exact carry_send does
  | recv _ does => exact carry_recv does
  | dispatch =>
      refine .of_bare (List.all_eq_true.mpr fun later member => ?_)
      obtain ⟨inner, rfl⟩ := dispatch_of_liftDispatch member
      rfl
  | watchExpiry =>
      refine .of_bare (List.all_eq_true.mpr fun later member => ?_)
      rcases List.mem_append.mp member with following | watching
      · cases List.mem_singleton.mp following
        rfl
      · exact bare_watchers watching
  | queue does | session _ does | run _ does =>
      cases does <;> refine .of_bare ?_ <;> first
        | rfl
        | split <;> rfl
        | simp [Op.bare]
  | _ =>
      refine .of_bare ?_
      first
        | rfl
        | split <;> rfl
        | simp [Op.bare]

/-! ## Settled calls -/

/-- What has been settled stays settled. -/
theorem settling_mono {req : Request} {before after : Shared}
    (advances : before.history.Advances after.history) :
    (settling req).credit before ≤ (settling req).credit after := by
  have responses : (answered before.history.responses).count req ≤
      (answered after.history.responses).count req :=
    ((advances.responses.sublist.filter _).map _).count_le req
  have discarded := (advances.discarded.sublist.map Prod.fst).count_le req
  rw [settling_credit, settling_credit]
  exact Nat.add_le_add responses discarded

/-- A call that is being settled is still being settled after a step of its
delivery, or it is settled. -/
theorem settling_exec {req : Request} {op : Op} {choice : Choice}
    (settles : op.settles = true)
    (executed : exec config shared op choice = some outcome) :
    (settling req).credit shared + (settling req).weight op ≤
      (settling req).worth outcome := by
  cases exec_does executed with
  | queue does =>
      cases does with
      | deliver delivers =>
          rcases delivers with rfl | rfl <;>
            simp [Op.settles, Op.held, QueueOp.held] <;> omega
      | full => simp [Op.settles, Op.held, QueueOp.held]
      | giveUp =>
          simp [-List.map_map, Op.settles, Op.held, QueueOp.held]
          omega
      | _ => cases settles
  | session _ does =>
      cases does with
      | @matched req resp =>
          cases streaming : req.streaming <;>
            simp [Op.settles, Op.held, QueueOp.held, SessionOp.held,
              PendingCalls.removed, streaming]
      | _ => cases settles
  | _ => cases settles

end Exec

section Steps

variable {shared : Shared} {op : Op} {k : Nat}

/-- What a step adds to the responses under a message ID. -/
theorem responsesTo_step {later : History}
    (step : HistoryStep shared op later) (k : Nat) (msgID : UInt64) :
    later.responsesTo k msgID = shared.history.responsesTo k msgID ∨
      ∃ index msg, op = .session k (.take index msg) ∧
        msg.messageSeqNo = msgID ∧
        later.responsesTo k msgID =
          shared.history.responsesTo k msgID ++ [msg] := by
  cases step with
  | handled session index msg running equal =>
      refine .inl ?_
      rw [equal]
      simp [History.responsesTo]
  | taken session index msg found pending running took equal =>
      by_cases same : session = k ∧ msg.messageSeqNo = msgID
      · obtain ⟨rfl, own⟩ := same
        refine .inr ⟨index, msg, running, own, ?_⟩
        rw [equal]
        simp [History.responsesTo, own]
      · refine .inl ?_
        rw [equal]
        simp [History.responsesTo, same]
  | _ =>
      rename_i equal
      rw [equal]
      exact .inl rfl

/-- A request has been sent before, or the operation sends it. -/
theorem sends_step {later : History} {req : Request}
    (step : HistoryStep shared op later)
    (sent : (k, some req) ∈ later.sends) :
    (k, some req) ∈ shared.history.sends ∨
      ∃ back, op = .send k back (.call req) := by
  cases step with
  | sending session back other running equal =>
      rw [equal] at sent
      rcases List.mem_append.mp sent with earlier | now
      · exact .inl earlier
      · cases List.mem_singleton.mp now
        exact .inr ⟨back, running⟩
  | accepting running equal =>
      rw [equal] at sent
      rcases List.mem_append.mp sent with earlier | now
      · exact .inl earlier
      · cases List.mem_singleton.mp now
  | _ =>
      rename_i equal
      rw [equal] at sent
      exact .inl sent

/-- What a response takes has been registered under its message ID. -/
theorem mem_of_take {table taken : PendingCalls} {msgID : UInt64}
    {req : Request} (took : table.take msgID = (some req, taken)) :
    ∃ call ∈ table.calls, call.1 = msgID ∧ call.2.req = req := by
  unfold PendingCalls.take at took
  split at took
  · cases took
  · rename_i call found
    cases took
    exact ⟨(msgID, call), PendingCalls.mem_of_lookup found, rfl, rfl⟩

/-- A pending call stays pending unless its table is drained, its context has
ended, a response takes it or its message ID is registered again. -/
theorem TableStep.keeps {before after : PendingCalls}
    (step : TableStep shared k op before after) {req : Request}
    (registered : ∀ call ∈ before.calls, call.1 = call.2.req.msgID)
    (armed : ∀ watch, op = .session k (.expire watch) → before.Armed watch)
    (pending : req ∈ before.reqs) :
    req ∈ after.reqs ∨ op.drains k = true ∨ shared.ended req.ctx = true ∨
      (∃ index msg, op = .session k (.take index msg) ∧
        msg.messageSeqNo = req.msgID) ∨
      ∃ back other, op = .send k back (.add other) ∧
        other.msgID = req.msgID ∧ other ∈ after.reqs := by
  have present := List.count_pos_iff.mpr pending
  cases step with
  | same equal => exact .inl (equal ▸ pending)
  | take msgID found taken took equal running =>
      obtain ⟨index, msg, running, key⟩ := running
      by_cases own : msgID = req.msgID
      · exact .inr (.inr (.inr (.inl ⟨index, msg, running, key.trans own⟩)))
      · refine .inl (List.count_pos_iff.mp ?_)
        have counted := PendingCalls.count_take took req
        have other : (found.toList.flatMap PendingCalls.removed).count req =
            0 := by
          refine List.count_eq_zero.mpr fun member => own ?_
          obtain ⟨taken, there, removed⟩ := List.mem_flatMap.mp member
          rw [Option.mem_toList.mp there] at took
          obtain ⟨call, inside, rfl, rfl⟩ := mem_of_take took
          have same : req = call.2.req := by
            unfold PendingCalls.removed at removed
            split at removed
            · cases removed
            · exact List.mem_singleton.mp removed
          rw [same]
          exact registered call inside
        rw [equal]
        omega
  | expire watch found expired removal equal running ended =>
      by_cases own : found = some req
      · rw [own] at removal
        obtain ⟨call, inside, seq, rfl⟩ := PendingCalls.mem_of_expire removal
        rw [(armed watch running).2 call inside seq]
        exact .inr (.inr (.inl ended))
      · refine .inl (List.count_pos_iff.mp ?_)
        have counted := PendingCalls.count_expire removal req
        have other : found.toList.count req = 0 :=
          List.count_eq_zero.mpr fun member => own (Option.mem_toList.mp member)
        rw [equal]
        omega
  | drain equal running => exact .inr (.inl running)
  | watch equal =>
      rw [equal, PendingCalls.reqs_watchExpiry]
      exact .inl pending
  | add back other added running want recorded equal =>
      by_cases swept : req ∈ before.expired shared.ended
      · exact .inr (.inr (.inl (PendingCalls.ended_of_mem_expired swept)))
      by_cases replaced :
          req ∈ (before.swept shared.ended).registered other.msgID
      · obtain ⟨call, inside, key, rfl⟩ :=
          PendingCalls.mem_of_mem_registered replaced
        have own := registered call (PendingCalls.mem_of_mem_swept inside)
        exact .inr (.inr (.inr (.inr ⟨back, other, running, key ▸ own,
          equal ▸ mem_reqs_of_add recorded⟩)))
      · refine .inl (List.count_pos_iff.mp ?_)
        have counted := PendingCalls.count_add recorded req
        rw [List.count_eq_zero.mpr swept, List.count_eq_zero.mpr replaced]
          at counted
        rw [equal]
        omega

end Steps

section Runs

open Pool

variable {config : Config} {workload : Workload}
  {allowed : ChannelState → Step → Prop} {state next : ChannelState}
  {thread : Nat} {choice : Choice} {k : Nat} {req : Request}

/-- A call that is settled or being settled stays so. -/
theorem settling_step (runs : (channel config).Runs state thread choice next)
    (settled : 1 ≤ (settling req).credit state.shared +
      (settling req).weigh state.ops) :
    1 ≤ (settling req).credit next.shared + (settling req).weigh next.ops := by
  have before := (settling req).weigh_perm runs.ops_perm
  have after := (settling req).weigh_perm runs.next_ops_perm
  simp only [Ledger.weigh_cons, Ledger.weigh_append, Machine.Runs.fresh]
    at before after
  have grown : (settling req).credit state.shared +
      (settling req).weight runs.op ≤ (settling req).worth runs.outcome := by
    by_cases settles : runs.op.settles = true
    · exact settling_exec settles runs.exec_eq
    · have mono : (settling req).credit state.shared ≤
          (settling req).credit runs.outcome.shared :=
        settling_mono (advances_exec runs.exec_eq).history
      have light : (settling req).weight runs.op = 0 := if_neg settles
      unfold Ledger.worth
      omega
  unfold Ledger.worth at grown
  rw [runs.next_shared]
  omega

/-- In every run in which the frames that arrive have been caused, so have those
that are being dealt with. -/
theorem caused_reached (reached : config.Reaches workload (Answers workload) state)
    {op : Op} (member : op ∈ state.ops) {msg : Message}
    (framed : op.frame = some (k, msg)) :
    Caused workload state.shared.history k msg := by
  have stable : ∀ {before after : History}, before.Advances after →
      ∀ {k msg}, Caused workload before k msg → Caused workload after k msg := by
    intro before after advances k msg caused client nonzero
    obtain ⟨req, called, sent, key⟩ := caused client nonzero
    exact ⟨req, called, advances.sends.subset sent, key⟩
  refine (reached.annotated (fun _ => True) (fun shared op => ∀ k msg,
    op.frame = some (k, msg) → Caused workload shared.history k msg)
    ?_ ?_ ?_).2 op member k msg framed
  · refine ⟨trivial, fun op member k msg framed => ?_⟩
    rcases config.mem_start_ops workload member with
      ⟨_, rfl⟩ | ⟨_, rfl | rfl⟩ | ⟨_, _, rfl⟩ | rfl | ⟨_, rfl⟩ <;> cases framed
  · intro state thread choice next runs _ permitted _ caused
    have advances := (advances_exec runs.exec_eq).history
    refine ⟨trivial, fun op fresh k msg framed => ?_, fun op _ earlier k msg
      framed => stable advances (earlier k msg framed)⟩
    rcases (carry_exec runs.exec_eq).frame op fresh k msg framed with
      running | ⟨running, rfl⟩
    · exact stable advances (caused k msg running)
    · exact stable advances (permitted thread k msg rfl
        (running ▸ runs.head?))
  · intro shared event after acted _
    exact ⟨trivial, fun op earlier k msg framed =>
      stable (advances_environment acted).history (earlier k msg framed)⟩

/-- Who adds a call to a table has been given it by a user. -/
theorem enqueued_of_add (reached : config.Reaches workload allowed state)
    (runs : (channel config).Runs state thread choice next)
    {back : LoopReturn} {other : Request}
    (want : other.wantServerResponse = true)
    (running : runs.op = .send k back (.add other)) :
    other ∈ enqueued workload.users := by
  refine mem_enqueued_of_credit (Request.isCall_of_want want) reached ?_
  have hand := (custody other).weight_le_weigh runs.op_mem
  simp [running, Op.held, SendOp.held] at hand
  omega

/-- A step that takes no response to a silent call leaves it in its table once
it has been launched. -/
theorem pending_of_launched
    (reached : config.Reaches workload allowed state)
    (runs : (channel config).Runs state thread choice next)
    (want : req.wantServerResponse = true)
    (unique : ∀ other ∈ enqueued workload.users, other.msgID = req.msgID →
      other = req)
    (silent : ∀ index msg, runs.op = .session k (.take index msg) →
      msg.messageSeqNo ≠ req.msgID)
    (known : Launched k req state → k < state.shared.opened ∧
      req ∈ (state.shared.session k).pending.reqs)
    (launched : Launched k req next) :
    k < next.shared.opened ∧
      ((next.shared.session k).done = true ∨
        next.shared.ended req.ctx = true ∨
        req ∈ (next.shared.session k).pending.reqs) := by
  have advances := advances_exec runs.exec_eq
  obtain ⟨outcomes, sound⟩ := outcomes_reached reached
  rw [runs.next_shared]
  -- Either the call was launched before, or the step registers it.
  have origin : Launched k req state ∨
      ∃ back, runs.op = .send k back (.add req) ∧
        req ∈ (runs.outcome.shared.session k).pending.reqs := by
    rcases launched with sent | ⟨back, calling⟩
    · rw [runs.next_shared] at sent
      rcases sends_step (history_exec runs.exec_eq) sent with
        earlier | ⟨back, running⟩
      · exact .inl (.inl earlier)
      · exact .inl (.inr ⟨back, running ▸ runs.op_mem⟩)
    · rcases runs.mem_next_ops.mp calling with fresh | other
      · obtain ⟨running, added⟩ :=
          (carry_exec runs.exec_eq).call k back req fresh
        exact .inr ⟨back, running, added want⟩
      · exact .inl (.inr ⟨back, runs.mem_of_others other⟩)
  rcases origin with before | ⟨back, running, added⟩
  · obtain ⟨below, pending⟩ := known before
    refine ⟨Nat.lt_of_lt_of_le below advances.opened, ?_⟩
    have kept := (table_exec runs.exec_eq below).keeps
      (fun call member => (outcomes.registered k below call member).2)
      (fun watch running => by
        have armed := sound runs.op runs.op_mem
        rwa [running] at armed) pending
    rcases kept with there | drains | ended | ⟨index, msg, running, key⟩ |
      ⟨back, other, running, key, added⟩
    · exact .inr (.inr there)
    · exact .inl ((advances.session k below).done
        (done_of_drains reached runs.op_mem drains))
    · exact .inr (.inl (advances.ended ended))
    · exact absurd key (silent index msg running)
    · have below := Nat.lt_of_lt_of_le below advances.opened
      obtain ⟨call, there, same⟩ := List.mem_map.mp added
      have wanted := (registered_step runs outcomes k below call there).1
      rw [same] at wanted
      rw [unique other (enqueued_of_add reached runs wanted running) key] at added
      exact .inr (.inr added)
  · have inside := ((closedDown_reached reached).2 runs.op runs.op_mem).1
    rw [running] at inside
    exact ⟨Nat.lt_of_lt_of_le (of_decide_eq_true inside) advances.opened,
      .inr (.inr added)⟩

/-- `handle` takes the call of a response in one step. -/
theorem exec_take {shared : Shared} {outcome : Effect} {index : Nat}
    {msg : Message}
    (executed : exec config shared (.session k (.take index msg)) choice =
      some outcome) :
    k < shared.opened ∧ outcome = takeCall config shared k index msg := by
  cases exec_does executed with
  | session inside does =>
      refine ⟨inside, ?_⟩
      cases does with
      | unmatched took | take took => simp [takeCall, took]

/-- A response that is routed has been recorded. -/
theorem responsesTo_take (runs : (channel config).Runs state thread choice next)
    {index : Nat} {msg : Message}
    (running : runs.op = .session k (.take index msg)) :
    next.shared.history.responsesTo k msg.messageSeqNo ≠ [] := by
  have executed := runs.exec_eq
  rw [running] at executed
  rw [runs.next_shared, (exec_take executed).2]
  unfold takeCall
  split <;> simp [History.responsesTo]

/-- A response to a launched call is delivered to it. -/
theorem settling_of_take (reached : config.Reaches workload allowed state)
    (runs : (channel config).Runs state thread choice next)
    (single : req.streaming = false)
    {index : Nat} {msg : Message}
    (running : runs.op = .session k (.take index msg))
    (key : msg.messageSeqNo = req.msgID)
    (pending : req ∈ (state.shared.session k).pending.reqs) :
    1 ≤ (settling req).credit next.shared + (settling req).weigh next.ops := by
  have executed := runs.exec_eq
  rw [running] at executed
  obtain ⟨below, taken⟩ := exec_take executed
  obtain ⟨call, member, same⟩ := List.mem_map.mp pending
  have registered := ((outcomes_reached reached).1.registered k below call
    member).2
  have found : (state.shared.session k).pending.lookup msg.messageSeqNo =
      some call.2 := by
    rw [key, ← same, ← registered]
    exact PendingCalls.lookup_of_mem member
  have matching : Op.session k (.matched req
      { nodeID := config.id, value := some msg, err := msg.errorStatus }) ∈
      runs.outcome.next := by
    rw [taken]
    simp [takeCall, PendingCalls.take, found, same]
  have weight := (settling req).weight_le_weigh
    (runs.mem_next_ops.mpr (.inl (List.mem_append_left _ matching)))
  simp [Op.settles, Op.held, SessionOp.held, PendingCalls.removed, single]
    at weight
  omega

theorem followed_step
    (reached : config.Reaches workload (Answers workload) state)
    (runs : (channel config).Runs state thread choice next)
    (want : req.wantServerResponse = true) (single : req.streaming = false)
    (unique : ∀ other ∈ enqueued workload.users, other.msgID = req.msgID →
      other = req)
    (client : isServerSequenceNumber req.msgID = false)
    (nonzero : req.msgID ≠ 0) (followed : Followed k req state) :
    Followed k req next := by
  have advances := advances_exec runs.exec_eq
  rcases followed with ⟨below, done⟩ | ended | ⟨silent, known⟩ |
    ⟨answered, settled⟩
  · refine .inl ?_
    rw [runs.next_shared]
    exact ⟨Nat.lt_of_lt_of_le below advances.opened,
      (advances.session k below).done done⟩
  · refine .inr (.inl ?_)
    rw [runs.next_shared]
    exact advances.ended ended
  · by_cases takes : ∃ index msg, runs.op = .session k (.take index msg) ∧
        msg.messageSeqNo = req.msgID
    · -- The first response arrives after the call has been sent.
      obtain ⟨index, msg, running, key⟩ := takes
      have framed : runs.op.frame = some (k, msg) := by
        rw [running]
        rfl
      obtain ⟨other, member, sent, own⟩ := caused_reached reached runs.op_mem
        framed (key ▸ client) (key ▸ nonzero)
      rw [unique other member (own.trans key)] at sent
      exact .inr (.inr (.inr ⟨key ▸ responsesTo_take runs running,
        settling_of_take reached runs single running key (known (.inl sent)).2⟩))
    · -- No response arrives, so the call stays in its table.
      have same : next.shared.history.responsesTo k req.msgID = [] := by
        rw [runs.next_shared]
        rcases responsesTo_step (history_exec runs.exec_eq) k req.msgID with
          same | ⟨index, msg, running, key, _⟩
        · rw [same, silent]
        · exact absurd ⟨index, msg, running, key⟩ takes
      by_cases launched : Launched k req next
      · obtain ⟨below, done | ended | pending⟩ := pending_of_launched reached
          runs want unique (fun index msg running key =>
            takes ⟨index, msg, running, key⟩) known launched
        · exact .inl ⟨below, done⟩
        · exact .inr (.inl ended)
        · exact .inr (.inr (.inl ⟨same, fun _ => ⟨below, pending⟩⟩))
      · exact .inr (.inr (.inl ⟨same, fun now => absurd now launched⟩))
  · refine .inr (.inr (.inr ⟨?_, settling_step runs settled⟩))
    rw [runs.next_shared]
    rcases responsesTo_step (history_exec runs.exec_eq) k req.msgID with
      same | ⟨index, msg, running, key, extended⟩
    · rwa [same]
    · rw [extended]
      simp

theorem followed_environment {event : Event} {shared : Shared}
    (acted : environment state.shared event = some shared)
    (followed : Followed k req state) :
    Followed k req { state with shared := shared } := by
  have advances := advances_environment acted
  obtain ⟨received, crowded, history⟩ := history_environment acted
  obtain ⟨done, session⟩ := (frame_environment acted).2.2 k
  have opened : shared.opened = state.shared.opened :=
    congrArg Book.opened (frame_environment acted).2.1
  have responses : shared.history.responsesTo k req.msgID =
      state.shared.history.responsesTo k req.msgID := by
    rw [history]
    rfl
  rcases followed with ⟨below, done⟩ | ended | ⟨silent, known⟩ |
    ⟨answered, settled⟩
  · exact .inl ⟨Nat.lt_of_lt_of_le below advances.opened,
      (advances.session k below).done done⟩
  · exact .inr (.inl (advances.ended ended))
  · refine .inr (.inr (.inl ⟨responses.trans silent, fun launched => ?_⟩))
    have before : Launched k req state := by
      rcases launched with sent | calling
      · exact .inl (by simpa only [history] using sent)
      · exact .inr calling
    simpa only [opened, session] using known before
  · refine .inr (.inr (.inr ⟨responses ▸ answered, ?_⟩))
    exact Nat.le_trans settled
      (Nat.add_le_add_right (settling_mono advances.history) _)

/-- In every run in which the frames that arrive have been caused, every call is
followed. -/
theorem followed_reached
    (reached : config.Reaches workload (Answers workload) state)
    (want : req.wantServerResponse = true) (single : req.streaming = false)
    (unique : ∀ other ∈ enqueued workload.users, other.msgID = req.msgID →
      other = req)
    (client : isServerSequenceNumber req.msgID = false)
    (nonzero : req.msgID ≠ 0) (k : Nat) :
    Followed k req state := by
  refine reached.invariant (Followed k req) ?_ ?_
  · refine .inr (.inr (.inl ⟨by simp [History.responsesTo], fun launched => ?_⟩))
    rcases launched with sent | ⟨back, calling⟩
    · simp at sent
    · rcases config.mem_start_ops workload calling with
        ⟨_, equal⟩ | ⟨_, equal | equal⟩ | ⟨_, _, equal⟩ | equal | ⟨_, equal⟩ <;>
        cases equal
  · intro state label next reached followed _ stepped
    rcases Machine.step_cases stepped with
      ⟨thread, choice, _, ⟨runs⟩⟩ | ⟨event, shared, _, acted, equal⟩
    · exact followed_step reached runs want single unique client nonzero
        followed
    · rw [equal]
      exact followed_environment acted followed

/-- A call that has been sent on a stream gets one response if any response to
it arrives, as long as neither the session nor the call's context has ended. -/
theorem remote_deliveries
    (reached : config.Reaches workload (Answers workload) state)
    (called : req ∈ enqueued workload.users)
    (want : req.wantServerResponse = true) (single : req.streaming = false)
    (unique : ∀ other ∈ enqueued workload.users, other.msgID = req.msgID →
      other = req)
    (client : isServerSequenceNumber req.msgID = false)
    (nonzero : req.msgID ≠ 0)
    (sent : (k, some req) ∈ state.shared.history.sends)
    (live : (state.shared.session k).done = false)
    (unended : state.shared.ctxErr req.ctx = none)
    (idle : ∀ op ∈ state.ops, req ∉ op.held) :
    (deliveries state.shared.history req).length =
      min 1 (state.shared.history.responsesTo k req.msgID).length := by
  have balance := custody_reached (Request.isCall_of_want want) reached
  have once := List.count_eq_one_of_mem workload.distinct called
  rw [length_deliveries_reached reached (.inl single)]
  rw [custody_credit, once] at balance
  have running : state.shared.ended req.ctx = false := by
    simp [Shared.ended, unended]
  rcases followed_reached reached want single unique client nonzero k
    with ⟨_, done⟩ | ended | ⟨silent, known⟩ | ⟨answered, settled⟩
  · exact absurd done (by simp [live])
  · exact absurd ended (by simp [running])
  · -- The call is still in the table, so it has no response.
    obtain ⟨below, pending⟩ := known (.inl sent)
    have tabled := count_le_tabled state.shared below req
    have present := List.count_pos_iff.mpr pending
    rw [silent, List.length_nil]
    omega
  · -- Nobody is delivering a response any more, so the call has got it.
    have settlers : (settling req).weigh state.ops = 0 := by
      refine Ledger.weigh_eq_zero fun op member => ?_
      rw [settling_weight, List.count_eq_zero.mpr (idle op member), ite_self]
    have kept := discarded_eq_zero reached (Bool.and_eq_true_iff.mp want).1
      (fun _ => unique) (fun ended => absurd ended (by simp [running]))
    have some := List.length_pos_iff.mpr answered
    rw [settlers, settling_credit, kept] at settled
    omega

end Runs

end Stream
end Gorums
