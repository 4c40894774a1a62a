import Gorums.Stream.Replies
import Gorums.Pool.Observed

/-!
# Replies of handlers

A handler passes its replies to the channel, which sends each one or counts it
as dropped.  Replies have no response channel, so nothing else tells what
became of them: an observer notes the replies that are passed to `reply` and
the requests that the send queue counts.
-/

namespace Gorums
namespace Stream

open Pool

/-- Whether a request is a handler's reply: it answers a request of the peer
and has no response channel. -/
def Request.isReply (req : Request) : Bool :=
  req.cause.isSome && req.responseChan.isNone

theorem Request.silent_of_isReply {req : Request} (isReply : req.isReply = true) :
    req.responseChan = none :=
  Option.isNone_iff_eq_none.mp (Bool.and_eq_true_iff.mp isReply).2

/-- What an observer of replies has noted. -/
structure Mail where
  /-- The replies passed to `reply`. -/
  passed : List Request := []
  /-- The requests that the send queue counted as dropped. -/
  counted : List Request := []

/-- The reply that an operation passes to `reply`. -/
def Op.passes : Op → Choice → List Request
  | .dispatch (.handler _ job), .reply msg => [replyRequest job msg]
  | .dispatch (.helper _ job), .reply msg => [replyRequest job msg]
  | _, _ => []

/-- The request that an operation counts as dropped. -/
def Op.counts : Op → List Request
  | .queue (.fail req _) => req.mute
  | _ => []

/-- Note what one operation does. -/
def Mail.observe (op : Op) (choice : Choice) (mail : Mail) : Mail :=
  { passed := mail.passed ++ op.passes choice
    counted := mail.counted ++ op.counts }

/-- A state of a channel whose replies are observed. -/
abbrev ObservedState := State (Shared × Mail) Op

/-- The states that an observed run of a new channel reaches. -/
def Config.Observes (config : Config) (workload : Workload)
    (allowed : ChannelState → Step → Prop) (state : ObservedState) : Prop :=
  ((channel config).observed Mail.observe).Reach
    (fun state => allowed state.forget) ((config.start workload).noted {}) state

/-- The replies passed to `Send`. -/
def History.sentReplies (history : History) : List Request :=
  (history.sends.filterMap Prod.snd).filter Request.isReply

/-- The request in an operation's hand that has been neither sent nor
counted. -/
def Op.mail : Op → List Request
  | .queue (.fail req _) => [req]
  | .inbound op => op.held
  | op => op.unsent

/-- The ledger of a request that is on its way to `Send` or to be counted. -/
@[simps] def post (req : Request) : Ledger Shared Op where
  credit shared := shared.queue.ch.count req +
    (shared.history.sends.filterMap Prod.snd).count req
  weight op := op.mail.count req

section Steps

variable {config : Config} {shared : Shared} {outcome : Effect} {req : Request}

/-- An operation passes on the mail that it has, and takes on a new reply. -/
def Forwards (req : Request) (shared : Shared) (op : Op) (choice : Choice)
    (outcome : Effect) : Prop :=
  (post req).worth outcome + op.counts.count req =
    (post req).credit shared + (post req).weight op +
      (op.passes choice).count req

@[simp] theorem post_deliverError (other : Request) (err : Err) :
    (post req).weigh (deliverError config other err) = 0 := by
  unfold deliverError
  split <;> rfl

@[simp] theorem post_failRequest (other : Option Request) (err : Err) :
    (post req).weigh (failRequest other err) = other.toList.count req := by
  cases other <;> simp [failRequest, Op.mail]

@[simp] theorem post_drained (k : Nat) (order : List Request)
    (err : Option Err) :
    (post req).weigh
        (order.map fun other => Op.session k (.retryOrFail other err)) = 0 :=
  weigh_retries (fun _ => rfl) order

@[simp] theorem post_watchers (k : Nat) (watches : List PendingCalls.Watch) :
    (post req).weigh (watchers k watches).flatten = 0 :=
  weigh_watchers (fun _ => rfl) watches

/-- A request without a response channel is mute. -/
theorem count_mute_of_silent (silent : req.responseChan = none) (other : Request) :
    other.mute.count req = [other].count req := by
  unfold Request.mute
  split
  · rename_i chan
    symm
    rw [List.count_nil, List.count_eq_zero, List.mem_singleton]
    rintro rfl
    rw [silent] at chan
    cases chan
  · rfl

theorem count_want (silent : req.responseChan = none) {other : Request}
    (want : other.wantServerResponse = true) : [other].count req = 0 := by
  rw [List.count_eq_zero, List.mem_singleton]
  rintro rfl
  simp [Request.wantServerResponse, silent] at want

/-- A session queues only calls that await responses. -/
theorem forwards_session {k : Nat} {op : SessionOp} {choice : Choice}
    (silent : req.responseChan = none)
    (sound : (Op.session k op).Sound shared)
    (does : SessionDoes config shared k op outcome) :
    Forwards req shared (.session k op) choice outcome := by
  unfold Forwards
  cases does
  all_goals
    simp [Op.mail, Op.unsent, QueueOp.unsent, Op.counts, Op.passes, drainCalls]
  case requeue => exact count_want silent sound

theorem forwards_send {k : Nat} {back : LoopReturn} {op : SendOp}
    {choice : Choice}
    (live : op = .ctx req → shared.ended req.ctx = false)
    (does : SendDoes config shared choice k back op outcome) :
    Forwards req shared (.send k back op) choice outcome := by
  unfold Forwards
  cases does
  case ctxEnded err other failed =>
    have differs : other ≠ req := by
      rintro rfl
      simp [Shared.ended, failed] at live
    simp [Op.mail, Op.unsent, SendOp.unsent, Op.counts, Op.passes, differs]
  all_goals
    simp_all [Op.mail, Op.unsent, QueueOp.unsent, SendOp.unsent, RunOp.held,
      InboundOp.held, Op.counts, Op.passes, drainCalls, loopReturn,
      List.count_cons]
  all_goals omega

theorem forwards_run {op : RunOp} {choice : Choice}
    (does : RunDoes config shared op outcome) :
    Forwards req shared (.run op) choice outcome := by
  unfold Forwards
  cases does
  all_goals
    simp_all [Op.mail, Op.unsent, SendOp.unsent, RunOp.held, Op.counts,
      Op.passes, List.count_cons, openStream, recordFailure,
      Shared.openSession]
  all_goals omega

/-- The context check of a send loop finds a reply only while the context of
the channel has not ended. -/
def Op.live (shared : Shared) : Op → Bool
  | .send _ _ (.ctx req) => !(req.isReply && shared.ended req.ctx)
  | _ => true

/-- Every operation forwards a reply. -/
theorem forwards_exec {op : Op} {choice : Choice}
    (isReply : req.isReply = true)
    (sound : op.Sound shared) (live : op.live shared = true)
    (executed : exec config shared op choice = some outcome) :
    Forwards req shared op choice outcome := by
  have silent := Request.silent_of_isReply isReply
  cases exec_does executed with
  | queue does =>
      unfold Forwards
      cases does
      case deliver delivers =>
        rcases delivers with rfl | rfl <;>
          simp [Op.mail, Op.unsent, QueueOp.unsent, Op.counts, Op.passes]
      all_goals
        simp [Op.mail, Op.unsent, QueueOp.unsent, Op.counts, Op.passes,
          count_mute_of_silent silent]
      omega
  | session _ does => exact forwards_session silent sound does
  | @dispatch _ op effect picks =>
      have kept : (post req).Keeps shared (.dispatch op)
          (liftDispatch shared effect) :=
        keeps_liftDispatch (fun _ => rfl) rfl rfl
      subst picks
      simpa [Forwards, Ledger.Keeps, Op.counts, Op.passes] using kept
  | reply serves replies =>
      subst replies
      rcases serves with rfl | rfl <;>
        simp [Forwards, reply, Op.mail, Op.unsent, QueueOp.unsent, Op.counts,
          Op.passes]
  | send _ does =>
      refine forwards_send ?_ does
      rintro rfl
      simpa [Op.live, isReply] using live
  | recv _ does =>
      cases does <;>
        simp [Forwards, Op.mail, Op.unsent, Op.counts, Op.passes, drainCalls]
  | run _ does => exact forwards_run does
  | drainQueue queued =>
      simp [Forwards, Op.mail, Op.unsent, Op.counts, Op.passes, queued,
        List.count_cons]
      omega
  | _ =>
      simp [Forwards, exited, Op.mail, Op.unsent, SendOp.unsent, InboundOp.held,
        Op.counts, Op.passes, drainCalls]

/-! ## The counter of dropped replies -/

/-- The counter of the send queue counts what the observer notes. -/
theorem counter_exec {op : Op} {choice : Choice}
    (executed : exec config shared op choice = some outcome) :
    outcome.shared.queue.dropped =
      shared.queue.dropped + op.counts.length := by
  cases exec_does executed with
  | queue does =>
      cases does
      case deliver delivers => rcases delivers with rfl | rfl <;> rfl
      all_goals simp_all [Op.counts, Request.mute]
  | session _ does | send _ does | recv _ does | run _ does =>
      cases does <;> rfl
  | _ => rfl

end Steps

/-! ## Runs -/

section Runs

variable {config : Config} {workload : Workload}
  {allowed : ChannelState → Step → Prop} {state : ObservedState}

theorem Config.Observes.reaches
    (observed : config.Observes workload allowed state) :
    config.Reaches workload allowed state.forget :=
  Machine.Reach.forget observed

/-- The send queue counts the requests that the observer notes. -/
theorem counter_observed (observed : config.Observes workload allowed state) :
    state.shared.1.queue.dropped = state.shared.2.counted.length := by
  refine observed.invariant (fun state =>
    state.shared.1.queue.dropped = state.shared.2.counted.length) ?_ ?_
  · simp [State.noted]
  · intro state label next _ same _ stepped
    rcases Machine.step_cases stepped with
      ⟨thread, choice, rfl, ⟨runs⟩⟩ | ⟨event, shared, rfl, acted, rfl⟩
    · obtain ⟨effect, executed, equal⟩ := Machine.exec_observed runs.exec_eq
      rw [runs.next_shared, equal]
      simp only [Mail.observe, List.length_append]
      rw [counter_exec executed, same]
    · obtain ⟨inner, notes⟩ := Machine.env_observed acted
      rw [notes, (frame_environment inner).1]
      exact same

/-- The ledger of a reply, with the observer's notes. -/
@[simps] def accounts (req : Request) : Ledger (Shared × Mail) Op where
  credit shared := (post req).credit shared.1 + shared.2.counted.count req
  debit shared := shared.2.passed.count req
  weight op := (post req).weight op

theorem weigh_accounts (req : Request) (ops : List Op) :
    (accounts req).weigh ops = (post req).weigh ops := rfl

/-- A step that keeps account of replies.  The context check of a send loop
finds a reply only while the channel's context has not ended, and the send
queue fails a request without a response channel only if it is a reply. -/
def Accounted (state : ChannelState) (label : Step) : Prop :=
  ∀ thread choice op, label = .run thread choice →
    state.head? thread = some op →
    op.live state.shared = true ∧ op.counts.all Request.isReply = true

theorem sends_environment {shared after : Shared} {event : Event}
    (acted : environment shared event = some after) :
    after.history.sends = shared.history.sends := by
  cases environment_acts acted <;> rfl

theorem weigh_accounts_start {req : Request} (isReply : req.isReply = true) :
    (accounts req).weigh (config.start workload).ops = 0 := by
  apply Ledger.weigh_eq_zero
  intro op member
  rcases config.mem_start_ops workload member with
    ⟨_, rfl⟩ | ⟨_, rfl | rfl⟩ | ⟨other, called, rfl⟩ | rfl | ⟨k, rfl⟩
  · rfl
  · rfl
  · rfl
  · refine List.count_eq_zero.mpr fun same => ?_
    rw [← List.mem_singleton.mp same] at called
    simp [Request.isReply, workload.calls req called] at isReply
  · rfl
  · rfl

/-- Every reply that was passed on is in the queue, sent, counted, or in the
hand of a goroutine. -/
theorem accounts_observed {req : Request} (isReply : req.isReply = true)
    (observed : config.Observes workload Accounted state) :
    (post req).credit state.shared.1 + state.shared.2.counted.count req +
        (post req).weigh state.ops =
      state.shared.2.passed.count req := by
  have balance := (accounts req).conserved (by
    intro state thread choice next runs observed permitted _
    obtain ⟨effect, executed, equal⟩ := Machine.exec_observed runs.exec_eq
    have sound := (outcomes_reached (Config.Observes.reaches observed)).2
      runs.op runs.op_mem
    have live := (permitted thread choice runs.op rfl runs.head?).1
    have forwards : Forwards req state.shared.1 runs.op choice effect :=
      forwards_exec isReply sound live executed
    rw [equal]
    simp only [Ledger.Keeps, Ledger.worth_mk, weigh_accounts, accounts_credit,
      accounts_debit, accounts_weight, Mail.observe, List.count_append]
    simp only [Forwards, Ledger.worth] at forwards
    omega) (by
    intro shared event after acted
    obtain ⟨inner, same⟩ := Machine.env_observed acted
    simp only [accounts_credit, accounts_debit, same, post_credit,
      sends_environment inner, (frame_environment inner).1, and_self]) observed
  have start : (accounts req).weigh ((config.start workload).noted ({} : Mail)).ops = 0 :=
    weigh_accounts_start isReply
  rw [start] at balance
  simpa [accounts_credit, accounts_debit, weigh_accounts, State.noted]
    using balance

/-- The observer notes only replies. -/
theorem noted_replies (observed : config.Observes workload Accounted state) :
    (∀ req ∈ state.shared.2.passed, req.isReply = true) ∧
      ∀ req ∈ state.shared.2.counted, req.isReply = true := by
  refine observed.invariant (fun state =>
    (∀ req ∈ state.shared.2.passed, req.isReply = true) ∧
      ∀ req ∈ state.shared.2.counted, req.isReply = true) ?_ ?_
  · exact ⟨List.forall_mem_nil _, List.forall_mem_nil _⟩
  · intro state label next _ replies permitted stepped
    rcases Machine.step_cases stepped with
      ⟨thread, choice, rfl, ⟨runs⟩⟩ | ⟨event, shared, rfl, acted, rfl⟩
    · obtain ⟨effect, executed, equal⟩ := Machine.exec_observed runs.exec_eq
      have counts := (permitted thread choice runs.op rfl runs.head?).2
      rw [runs.next_shared, equal]
      refine ⟨?_, ?_⟩
      · intro req member
        rcases List.mem_append.mp member with old | new
        · exact replies.1 req old
        · revert new
          fun_cases Op.passes runs.op choice <;> intro new
          · rw [List.mem_singleton.mp new]
            rfl
          · rw [List.mem_singleton.mp new]
            rfl
          · cases new
      · intro req member
        rcases List.mem_append.mp member with old | new
        · exact replies.2 req old
        · exact List.all_eq_true.mp counts req new
    · rw [(Machine.env_observed acted).2]
      exact replies

/-- Whether an operation on the send queue has a reply in hand. -/
def Op.replying : Op → Bool
  | .queue op => op.held.any Request.isReply
  | _ => false

/-- An operation without a reply in hand, of a goroutine that the channel does
not wait for, has no mail. -/
theorem mail_of_quiet {op : Op} {req : Request} (isReply : req.isReply = true)
    (unwaited : .waited ∉ op.roles) (quiet : op.replying = false) :
    op.mail.count req = 0 := by
  cases op with
  | queue inner =>
      rw [List.count_eq_zero]
      intro member
      have held : req ∈ inner.held := by
        cases inner <;> first
          | exact member
          | cases member
      have replying : inner.held.any Request.isReply = true :=
        List.any_eq_true.mpr ⟨req, held, isReply⟩
      cases quiet.symm.trans replying
  | send k back inner => exact absurd (by simp [Op.roles]) unwaited
  | run inner => exact absurd (by simp [Op.roles]) unwaited
  | inbound inner =>
      cases inner <;> exact absurd (by simp [Op.roles, InboundOp.roles]) unwaited
  | _ => rfl

end Runs

/-- In every run that keeps account of replies, once the channel's goroutines
have returned and no reply is being queued, each reply passed to `reply` has
either been passed to `Send` or been counted as dropped. -/
theorem replies_conserved {config : Config} {workload : Workload}
    {state : ObservedState}
    (observed : config.Observes workload Accounted state)
    (returned : state.shared.1.wg = 0)
    (quiet : ∀ op ∈ state.ops, op.replying = false) :
    state.shared.2.passed.length =
        state.shared.1.history.sentReplies.length +
          state.shared.1.queue.dropped ∧
      state.shared.2.passed.Perm
        (state.shared.1.history.sentReplies ++ state.shared.2.counted) := by
  have reached := observed.reaches
  obtain ⟨onlyPassed, onlyCounted⟩ := noted_replies observed
  have partition : state.shared.2.passed.Perm
      (state.shared.1.history.sentReplies ++ state.shared.2.counted) := by
    rw [List.perm_iff_count]
    intro req
    rw [List.count_append]
    cases isReply : req.isReply with
    | true =>
        have balance := accounts_observed isReply observed
        have light : (post req).weigh state.ops = 0 := by
          apply Ledger.weigh_eq_zero
          intro op member
          exact mail_of_quiet isReply
            (not_mem_roles .waited (by simp) reached returned op member)
            (quiet op member)
        have empty := (empty_of_idle reached returned).1
        rw [light, post_credit, show state.shared.1.queue.ch = [] from empty,
          List.count_nil] at balance
        rw [History.sentReplies, List.count_filter isReply]
        omega
    | false =>
        have unpassed : state.shared.2.passed.count req = 0 :=
          List.count_eq_zero.mpr fun member => by
            cases isReply.symm.trans (onlyPassed req member)
        have uncounted : state.shared.2.counted.count req = 0 :=
          List.count_eq_zero.mpr fun member => by
            cases isReply.symm.trans (onlyCounted req member)
        have unsent : state.shared.1.history.sentReplies.count req = 0 :=
          List.count_eq_zero.mpr fun member => by
            cases isReply.symm.trans (List.mem_filter.mp member).2
        omega
  refine ⟨?_, partition⟩
  rw [partition.length_eq, List.length_append, counter_observed observed]

/-! ## A reply that is lost -/

/-- One goroutine closes the channel. -/
def closeOnly : Workload where
  users := [[.close]]
  calls := by decide
  distinct := by decide

/-- The channel receives a request, and its handler replies.  The send loop has
taken the reply from the queue. -/
def replyTaken : List Step :=
  Step.first 0 1 ++ [.run 1 (.frame { messageSeqNo := 1 })] ++
    Step.first 1 11 ++ Step.first 3 1 ++
    [.run 3 (.reply { messageSeqNo := 1 })] ++ Step.first 3 8 ++
    [.run 0 (.pick .third)] ++ Step.first 0 2

/-- The stream ends, and everything returns. -/
def replyEnd : List Step :=
  [.run 4 (.order [])] ++ Step.first 4 3 ++ Step.first 0 8 ++ Step.first 1 1 ++
    [.run 1 (.err .eof)] ++ Step.first 1 4 ++ [.run 1 (.order [])] ++
    Step.first 1 2 ++ Step.first 2 1

/-- `Close` cancels the channel's context before the send loop checks it. -/
def replyLost : List Step :=
  replyTaken ++ Step.first 2 1 ++ Step.first 4 1 ++ Step.first 0 1 ++
    Step.first 4 1 ++ replyEnd

/-- Follow the observed steps of a new channel. -/
def Config.watch (config : Config) (workload : Workload)
    (check : ChannelState → Step → Bool) (steps : List Step) :
    Option ObservedState :=
  ((channel config).observed Mail.observe).follow
    (fun state => check state.forget) ((config.start workload).noted {}) steps

theorem Config.observes_of_watch {config : Config} {workload : Workload}
    {check : ChannelState → Step → Bool}
    {allowed : ChannelState → Step → Prop}
    (sound : ∀ state label, check state label = true → allowed state label)
    {steps : List Step} {state : ObservedState}
    (watched : config.watch workload check steps = some state) :
    config.Observes workload allowed state :=
  Machine.reach_of_follow (fun state => sound state.forget) .start steps watched

theorem replyLost_watched :
    ((smallInbound.watch closeOnly (fun _ _ => true) replyLost).map fun state =>
      (state.shared.1.closeOnce == .done && state.shared.1.wg == 0 &&
        state.ops.isEmpty,
        state.shared.2.passed.length, state.shared.1.history.sends.length,
        state.shared.1.queue.dropped)) = some (true, 1, 0, 0) := by
  decide +kernel

/-- A closed channel whose goroutines have returned has lost a reply that was
neither sent nor counted. -/
theorem reply_neither_sent_nor_counted :
    ∃ state, smallInbound.Observes closeOnly (fun _ _ => True) state ∧
      state.shared.1.closeOnce = .done ∧ state.shared.1.wg = 0 ∧
      (∀ op ∈ state.ops, op.replying = false) ∧
      state.shared.2.passed.length ≠
        state.shared.1.history.sentReplies.length +
          state.shared.1.queue.dropped := by
  obtain ⟨state, watched, ends⟩ := Option.map_eq_some_iff.mp replyLost_watched
  simp only [Prod.mk.injEq, Bool.and_eq_true, beq_iff_eq, List.isEmpty_iff,
    List.length_eq_zero_iff] at ends
  obtain ⟨⟨⟨closed, returned⟩, idle⟩, passed, unsent, uncounted⟩ := ends
  refine ⟨state, Config.observes_of_watch (fun _ _ _ => trivial) watched, closed,
    returned, ?_, ?_⟩
  · rw [idle]
    exact List.forall_mem_nil _
  · rw [passed, uncounted, History.sentReplies, unsent]
    decide

/-- Check that a step keeps account of replies. -/
def accountedCheck (state : ChannelState) : Step → Bool
  | .run thread _ =>
      match state.head? thread with
      | some op => op.live state.shared && op.counts.all Request.isReply
      | none => true
  | .env _ => true

theorem accounted_of_check {state : ChannelState} {label : Step}
    (checked : accountedCheck state label = true) : Accounted state label := by
  intro thread choice op running first
  rw [running] at checked
  simp only [accountedCheck, first, Bool.and_eq_true] at checked
  exact checked

/-- The reply is sent before `Close` cancels the channel's context. -/
def replySent : List Step :=
  replyTaken ++ Step.first 0 6 ++ Step.first 2 1 ++ Step.first 4 2 ++ replyEnd

theorem replySent_watched :
    ((smallInbound.watch closeOnly accountedCheck replySent).map fun state =>
      (state.shared.1.wg, state.ops.isEmpty,
        state.shared.1.history.sentReplies.length)) = some (0, true, 1) := by
  decide +kernel

theorem replies_conserved_sent :
    ∃ state, smallInbound.Observes closeOnly Accounted state ∧
      state.shared.1.history.sentReplies.length = 1 ∧
      state.shared.2.passed.length =
        state.shared.1.history.sentReplies.length +
          state.shared.1.queue.dropped := by
  obtain ⟨state, watched, ends⟩ := Option.map_eq_some_iff.mp replySent_watched
  simp only [Prod.mk.injEq, List.isEmpty_iff] at ends
  obtain ⟨returned, idle, sent⟩ := ends
  have observed := Config.observes_of_watch
    (fun _ _ checked => accounted_of_check checked) watched
  refine ⟨state, observed, sent, (replies_conserved observed returned ?_).1⟩
  rw [idle]
  exact List.forall_mem_nil _

end Stream
end Gorums
