import Gorums.Stream.Order
import Gorums.Stream.Poison
import Mathlib.Data.List.Infix

/-!
# What the peer receives, and in which order

Each stream delivers the messages that were sent on it in order.  Over several
streams, two requests of one goroutine can change places: a session that ends
queues its pending calls behind the requests that are already in the queue, and
what was sent on an old stream can arrive after what was sent on a new one.  If
neither happens, the peer receives requests in the order of their calls.
-/

namespace Gorums
namespace Stream

/-! ## The stream of a send -/

/-- The stream on which an operation sends. -/
def Op.stream : Op → Option Nat
  | .send k _ _ => some k
  | .inbound .header => some 0
  | .inbound .ctx => some 0
  | .inbound .frame => some 0
  | _ => none

/-- The requests passed to `Send`, with their streams. -/
def History.called (history : History) : List (Nat × Request) :=
  history.sends.filterMap fun entry => entry.2.map (entry.1, ·)

/-- The requests whose `Send` has returned, with their streams. -/
def History.finished (history : History) : List (Nat × Request) :=
  history.sent.map fun entry => (entry.1, entry.2.1)

/-- The request whose `Send` an operation awaits, with its stream. -/
def Op.awaits : Op → List (Nat × Request)
  | .send k _ (.wait req) => [(k, req)]
  | _ => []

theorem History.map_called (history : History) :
    history.called.map Prod.snd = history.passed := by
  unfold called passed
  rw [List.map_filterMap]
  refine List.filterMap_congr fun entry _ => ?_
  cases entry.2 <;> rfl

section Exec

open Pool

variable {config : Config} {shared : Shared} {outcome : Effect}

/-- A send loop sends on its stream, and only the run loop goes over to another
one.  A `Send` is awaited after it has been called. -/
def Continues (op : Op) (after : Shared) (later : Op) : Prop :=
  (∀ k, later.stream = some k →
      op.stream = some k ∨ (.main ∈ op.roles ∧ k + 1 = after.opened)) ∧
    (later.awaits = [] ∨
      ∃ k back req, op = .send k back (.call req) ∧ later.awaits = [(k, req)])

theorem continues_of_service {op later : Op} {after : Shared}
    (service : later.service = true) : Continues op after later := by
  cases later with
  | send k back op => cases service
  | inbound op => cases service
  | _ =>
      refine ⟨fun k same => ?_, .inl rfl⟩
      cases same

theorem continues_exec {op : Op} {choice : Choice}
    (executed : exec config shared op choice = some outcome) :
    Fresh (Continues op outcome.shared) outcome := by
  by_cases serves : op.service = true
  · exact (service_exec serves executed).mono fun later => continues_of_service
  cases exec_does executed with
  | session _ does =>
      cases does <;> first
        | exact absurd rfl serves
        | simp [Fresh, Continues, Op.stream, Op.awaits]
  | send _ does =>
      cases does
      all_goals simp [Fresh, drainCalls, loopReturn, or_imp, forall_and]
      all_goals simp [Continues, Op.stream, Op.awaits]
  | recv _ does =>
      cases does
      all_goals simp [Fresh, drainCalls, or_imp, forall_and]
      all_goals simp [Continues, Op.stream, Op.awaits]
  | run _ does =>
      cases does
      all_goals simp [Fresh, openStream, recordFailure, or_imp, forall_and]
      all_goals simp [Continues, Op.stream, Op.awaits, Op.roles,
        Shared.openSession]
  | acceptHeader | noHeader | acceptCtx | acceptFrame | left | inboundCancel =>
      simp [Fresh, or_imp, forall_and]
      simp [Continues, Op.stream, Op.awaits]
  | _ => exact absurd rfl serves

/-- What an operation can do to the record of sends. -/
inductive SendStep (shared : Shared) (op : Op) (after : Shared) : Prop
  | same (called : after.history.called = shared.history.called)
      (sent : after.history.sent = shared.history.sent)
  | call (k : Nat) (back : LoopReturn) (req : Request)
      (running : op = .send k back (.call req))
      (called : after.history.called = shared.history.called ++ [(k, req)])
      (sent : after.history.sent = shared.history.sent)
  | wait (k : Nat) (back : LoopReturn) (req : Request) (err : Option Err)
      (running : op = .send k back (.wait req))
      (called : after.history.called = shared.history.called)
      (sent : after.history.sent = shared.history.sent ++ [(k, req, err)])

theorem send_exec {op : Op} {choice : Choice}
    (executed : exec config shared op choice = some outcome) :
    SendStep shared op outcome.shared := by
  cases history_exec executed with
  | sending k back req running equal =>
      refine .call k back req running ?_ ?_
      · rw [equal]
        simp [History.called]
      · rw [equal]
  | accepting running equal =>
      refine .same ?_ ?_
      · rw [equal]
        simp [History.called]
      · rw [equal]
  | sent k back req err running equal =>
      refine .wait k back req err running ?_ ?_
      · rw [equal]
        rfl
      · rw [equal]
  | _ =>
      rename_i equal
      refine .same ?_ ?_
      · simp only [equal, History.called]
      · simp only [equal]

/-- No operation receives anything for the peer. -/
theorem received_exec {op : Op} {choice : Choice}
    (executed : exec config shared op choice = some outcome) :
    outcome.shared.history.received = shared.history.received := by
  cases history_exec executed <;> simp_all only

/-- Every `Send` but the one that is awaited has returned. -/
theorem awaits_send {k : Nat} {back : LoopReturn} {op : SendOp}
    {choice : Choice}
    (awaited : shared.history.called =
      shared.history.finished ++ (Op.send k back op).awaits)
    (does : SendDoes config shared choice k back op outcome) :
    Fresh (fun later => .main ∈ later.roles → outcome.shared.history.called =
      outcome.shared.history.finished ++ later.awaits) outcome := by
  unfold History.called History.finished at awaited ⊢
  cases does
  all_goals simp [Fresh, drainCalls, loopReturn, or_imp, forall_and]
  all_goals simp_all [Op.awaits, Op.roles, QueueOp.roles]

end Exec

section Runs

open Pool

variable {config : Config} {workload : Workload}
  {allowed : ChannelState → Step → Prop} {state next : ChannelState}
  {thread : Nat} {choice : Choice}

/-- What the record of sends says. -/
structure Recorded (shared : Shared) : Prop where
  /-- A later request is sent on the same stream or on a later one. -/
  ordered : shared.history.called.Pairwise fun one other => one.1 ≤ other.1
  /-- Requests are sent on opened streams. -/
  opened : ∀ entry ∈ shared.history.called, entry.1 < shared.opened
  /-- The first `Send`s have returned. -/
  finished : shared.history.finished <+: shared.history.called

/-- What the goroutine that sends knows: its stream is the last one, and every
`Send` but the one that it awaits has returned. -/
def Op.Current (shared : Shared) (op : Op) : Prop :=
  (∀ k, op.stream = some k → k + 1 = shared.opened) ∧
    (.main ∈ op.roles →
      shared.history.called = shared.history.finished ++ op.awaits)

theorem Op.main_of_stream {op : Op} {k : Nat} (sends : op.stream = some k) :
    .main ∈ op.roles := by
  cases op with
  | send k back op => simp [Op.roles]
  | inbound op => cases op <;> simp_all [Op.stream, Op.roles, InboundOp.roles]
  | _ => cases sends

/-- Only the main goroutine opens a stream. -/
theorem opened_of_other {op : Op} {shared : Shared} {choice : Choice}
    {outcome : Effect} (executed : exec config shared op choice = some outcome)
    (apart : .main ∉ op.roles ∨ ∃ k, op.stream = some k) :
    outcome.shared.opened = shared.opened := by
  cases book_exec executed with
  | opened backoff req running equal =>
      rw [running] at apart
      rcases apart with notMain | ⟨k, sends⟩
      · exact absurd (by simp [Op.roles]) notMain
      · cases sends
  | _ =>
      rename_i equal
      exact congrArg Book.opened equal

/-- Only the main goroutine sends. -/
theorem SendStep.same_of_other {shared after : Shared} {op : Op}
    (step : SendStep shared op after)
    (apart : ∀ k back sending, op ≠ .send k back sending) :
    after.history.called = shared.history.called ∧
      after.history.sent = shared.history.sent := by
  cases step with
  | same called sent => exact ⟨called, sent⟩
  | call k back req running => exact absurd running (apart _ _ _)
  | wait k back req err running => exact absurd running (apart _ _ _)

/-- What an operation of the main goroutine leaves knows about the sends. -/
theorem awaits_exec {shared : Shared} {op : Op} {choice : Choice}
    {outcome : Effect} (main : .main ∈ op.roles) (current : op.Current shared)
    (executed : exec config shared op choice = some outcome) :
    Fresh (fun later => .main ∈ later.roles → outcome.shared.history.called =
      outcome.shared.history.finished ++ later.awaits) outcome := by
  by_cases sends : ∃ k back sending, op = .send k back sending
  · obtain ⟨k, back, sending, rfl⟩ := sends
    cases exec_does executed with
    | send _ does => exact awaits_send (current.2 main) does
  · have apart : ∀ k back sending, op ≠ .send k back sending :=
      fun k back sending same => sends ⟨k, back, sending, same⟩
    obtain ⟨called, sent⟩ := (send_exec executed).same_of_other apart
    have idle : op.awaits = [] := by
      cases op with
      | send k back sending => exact absurd rfl (apart k back sending)
      | _ => rfl
    refine (continues_exec executed).mono fun later continues _ => ?_
    rcases continues.2 with free | ⟨k, back, req, running, _⟩
    · have awaited := current.2 main
      rw [idle] at awaited
      unfold History.finished at awaited ⊢
      rw [free, called, sent, awaited]
    · exact absurd running (apart _ _ _)

/-- In every run, requests are sent stream by stream, one at a time. -/
theorem recorded_reached (reached : config.Reaches workload allowed state) :
    Recorded state.shared ∧ ∀ op ∈ state.ops, op.Current state.shared := by
  refine reached.annotated Recorded (fun shared op => op.Current shared)
    ?initial ?run ?environment
  case initial =>
    refine ⟨⟨?_, ?_, ?_⟩, fun op member => ?_⟩
    · simp [History.called]
    · simp [History.called]
    · simp [History.called, History.finished]
    · rcases config.mem_start_ops workload member with
        ⟨_, rfl⟩ | ⟨inbound, rfl | rfl⟩ | ⟨_, _, rfl⟩ | rfl | ⟨_, rfl⟩
      case inr.inl.inl =>
        simp [Op.Current, Op.stream, Op.awaits, History.called,
          History.finished, Config.start, inbound]
      all_goals simp [Op.Current, Op.stream, Op.awaits, History.called,
        History.finished]
  case run =>
    intro state thread choice next runs reached permitted recorded current
    have advances := advances_exec runs.exec_eq
    refine ⟨?_, fun op fresh => ⟨fun k sends => ?_, fun main => ?_⟩,
      fun op other before => ⟨fun k sends => ?_, fun main => ?_⟩⟩
    · cases send_exec runs.exec_eq with
      | same called sent =>
          refine ⟨called ▸ recorded.ordered, fun entry member => ?_, ?_⟩
          · rw [called] at member
            exact (recorded.opened entry member).trans_le advances.opened
          · unfold History.finished
            rw [called, sent]
            exact recorded.finished
      | call k back req running called sent =>
          have last : k + 1 = state.shared.opened :=
            current.1 k (by rw [running]; rfl)
          refine ⟨?_, fun entry member => ?_, ?_⟩
          · rw [called, List.pairwise_append]
            refine ⟨recorded.ordered, by simp, ?_⟩
            intro entry member now single
            have inside := recorded.opened entry member
            rw [List.mem_singleton.mp single]
            omega
          · rw [called, List.mem_append] at member
            have grown := advances.opened
            rcases member with before | now
            · exact (recorded.opened entry before).trans_le grown
            · rw [List.mem_singleton.mp now]
              omega
          · unfold History.finished
            rw [called, sent]
            exact recorded.finished.trans (List.prefix_append _ _)
      | wait k back req err running called sent =>
          have awaited := current.2 (by simp [running, Op.roles])
          refine ⟨called ▸ recorded.ordered, fun entry member => ?_, ?_⟩
          · rw [called] at member
            exact (recorded.opened entry member).trans_le advances.opened
          · rw [called, awaited, running]
            unfold History.finished
            rw [sent, List.map_append]
            exact List.prefix_refl _
    · rcases ((continues_exec runs.exec_eq).of_mem fresh).1 k sends with
        same | ⟨_, last⟩
      · rw [opened_of_other runs.exec_eq (.inr ⟨k, same⟩)]
        exact current.1 k same
      · exact last
    · have running := main_of_fresh reached permitted runs fresh main
      exact (awaits_exec running current runs.exec_eq).of_mem fresh main
    · have own := Op.main_of_stream sends
      have apart : .main ∉ runs.op.roles :=
        fun running => sole_main reached runs running other own
      rw [opened_of_other runs.exec_eq (.inl apart)]
      exact before.1 k sends
    · have apart : ∀ k back sending, runs.op ≠ .send k back sending := by
        intro k back sending running
        exact sole_main reached runs (by simp [running, Op.roles]) other main
      obtain ⟨called, sent⟩ := (send_exec runs.exec_eq).same_of_other apart
      have awaited := before.2 main
      unfold History.finished at awaited ⊢
      rw [called, sent, awaited]
  case environment =>
    intro shared event after acted recorded
    obtain ⟨received, crowded, history⟩ := history_environment acted
    have opened : after.opened = shared.opened :=
      congrArg Book.opened (frame_environment acted).2.1
    have called : after.history.called = shared.history.called := by
      simp only [history, History.called]
    have finished : after.history.finished = shared.history.finished := by
      simp only [history, History.finished]
    refine ⟨⟨called ▸ recorded.ordered, ?_, ?_⟩, fun op before => ⟨?_, ?_⟩⟩
    · rw [called, opened]
      exact recorded.opened
    · rw [called, finished]
      exact recorded.finished
    · rw [opened]
      exact before.1
    · rw [called, finished]
      exact before.2

/-! ## What the peer receives -/

/-- What the peer has received on a stream, the stream had delivered in order
from what was sent. -/
def History.Delivers (history : History) : Prop :=
  ∀ k, history.receipts k <+: history.completed k

theorem delivers_exec {op : Op} {shared : Shared} {choice : Choice}
    {outcome : Effect} (delivers : shared.history.Delivers)
    (executed : exec config shared op choice = some outcome) :
    outcome.shared.history.Delivers := by
  intro k
  have grown : shared.history.sent <+: outcome.shared.history.sent :=
    (advances_exec executed).history.sent
  have completed : shared.history.completed k <+:
      outcome.shared.history.completed k := grown.filterMap _
  unfold History.receipts
  rw [received_exec executed]
  exact (delivers k).trans completed

theorem History.Delivers.append {history : History} {k : Nat} {req : Request}
    (delivers : history.Delivers)
    (found : (history.completed k)[(history.receipts k).length]? = some req) :
    history.receipts k ++ [req] <+: history.completed k := by
  obtain ⟨inside, rfl⟩ := List.getElem?_eq_some_iff.mp found
  exact List.concat_get_prefix (delivers k) inside

/-- The peer receives the next message that a stream delivers. -/
theorem delivers_environment {shared after : Shared} {event : Event}
    (delivers : shared.history.Delivers)
    (acted : environment shared event = some after) :
    after.history.Delivers := by
  cases environment_acts acted with
  | @receive k req found =>
      intro other
      by_cases same : other = k
      · rw [same]
        simpa [History.receipts, History.completed] using delivers.append found
      · simpa [History.receipts, History.completed, Ne.symm same] using
          delivers other
  | _ => exact delivers

/-- A stream delivers a prefix of the messages whose `Send` completed on it. -/
theorem delivers_reached (reached : config.Reaches workload allowed state) :
    state.shared.history.Delivers := by
  refine reached.invariant (fun state => state.shared.history.Delivers) ?_ ?_
  · intro k
    simp [History.receipts, History.completed]
  · intro state label next _ delivers _ stepped
    rcases Machine.step_cases stepped with
      ⟨thread, choice, rfl, ⟨runs⟩⟩ | ⟨event, shared, rfl, acted, rfl⟩
    · rw [runs.next_shared]
      exact delivers_exec delivers runs.exec_eq
    · exact delivers_environment delivers acted

/-- What has completed on a stream has been called there, in the same order. -/
theorem completed_sublist (reached : config.Reaches workload allowed state)
    (k : Nat) :
    ((state.shared.history.completed k).map fun req => (k, req)).Sublist
      state.shared.history.called := by
  refine List.Sublist.trans ?_ (recorded_reached reached).1.finished.sublist
  unfold History.completed History.finished
  induction state.shared.history.sent with
  | nil => exact List.Sublist.refl _
  | cons entry sent inductionHypothesis =>
      rw [List.map_cons, List.filterMap_cons]
      by_cases own : entry.1 = k ∧ entry.2.2 = none
      · rw [if_pos own, List.map_cons, own.1]
        exact inductionHypothesis.cons_cons _
      · rw [if_neg own]
        exact inductionHypothesis.cons _

/-! ## Requests across streams -/

/-- The requests that the peer has received, in order. -/
def History.arrivals (history : History) : List Request :=
  history.received.map Prod.snd

/-- A step leaves a request its place in front of later ones: a session that
ends queues it again only if the peer has received it, and the peer receives
from a stream only if it has received nothing from a later one. -/
def KeepsPlace (config : Config) (req : Request) (state : ChannelState)
    (label : Step) : Prop :=
  (∀ thread choice op, label = .run thread choice →
      state.head? thread = some op → op.Requeues config state.shared req →
      req ∈ state.shared.history.arrivals) ∧
    ∀ k, label = .env (.receive k) →
      ∀ entry ∈ state.shared.history.received, entry.1 ≤ k

variable {calls : List UserCall} {earlier later : Request}

theorem mem_receipts {history : History} {k : Nat} {req : Request} :
    req ∈ history.receipts k ↔ (k, req) ∈ history.received := by
  unfold History.receipts
  rw [List.mem_filterMap]
  constructor
  · rintro ⟨entry, member, own⟩
    simp only [Option.ite_none_right_eq_some, Option.some.injEq] at own
    obtain ⟨rfl, rfl⟩ := own
    exact member
  · exact fun member => ⟨(k, req), member, if_pos rfl⟩

theorem arrivals_environment {shared after : Shared} {event : Event}
    (acted : environment shared event = some after) :
    after.history.arrivals = shared.history.arrivals ∨
      ∃ k req, event = .receive k ∧
        (shared.history.completed k)[(shared.history.receipts k).length]? =
          some req ∧
        after.history.arrivals = shared.history.arrivals ++ [req] := by
  cases environment_acts acted with
  | @receive k req found =>
      exact .inr ⟨k, req, rfl, found, by simp [History.arrivals]⟩
  | _ => exact .inl rfl

theorem arrivals_exec {op : Op} {shared : Shared} {choice : Choice}
    {outcome : Effect} (executed : exec config shared op choice = some outcome) :
    outcome.shared.history.arrivals = shared.history.arrivals :=
  congrArg (List.map Prod.snd) (received_exec executed)

/-- Until the peer has received the first of two requests, they have been sent
in order. -/
theorem called_in_order (user : calls ∈ workload.users)
    (order : [.enqueue earlier, .enqueue later].Sublist calls)
    (reached : config.Reaches workload (KeepsPlace config earlier) state)
    (unreceived : earlier ∉ state.shared.history.arrivals) :
    state.shared.history.called.Pairwise fun one other =>
      one.1 ≤ other.1 ∧ (one.2 = later → other.2 ≠ earlier) := by
  have ordered := (ordered_reached (follows_of_sublist user order)
    (fun shared => earlier ∈ shared.history.arrivals) ?_ ?_ ?_ reached).1
    unreceived
  · have passed : Precedes earlier later state.shared.history.passed :=
      ordered.sublist (List.sublist_append_left _ _)
    rw [← History.map_called] at passed
    exact (recorded_reached reached).1.ordered.and (List.pairwise_map.mp passed)
  · intro shared op choice outcome executed received
    rw [arrivals_exec executed]
    exact received
  · intro shared event after acted received
    rcases arrivals_environment acted with same | ⟨k, req, _, _, grown⟩
    · rw [same]
      exact received
    · rw [grown]
      exact List.mem_append_left _ received
  · intro state thread choice next runs _ permitted requeues
    exact permitted.1 thread choice runs.op rfl runs.head? requeues

/-- When the peer receives the first of two requests for the first time, it has
not received the second. -/
theorem not_mem_arrivals (user : calls ∈ workload.users)
    (order : [.enqueue earlier, .enqueue later].Sublist calls)
    (reached : config.Reaches workload (KeepsPlace config earlier) state)
    (unreceived : earlier ∉ state.shared.history.arrivals) {k : Nat}
    (found : (state.shared.history.completed k)[
      (state.shared.history.receipts k).length]? = some earlier)
    (latest : ∀ entry ∈ state.shared.history.received, entry.1 ≤ k) :
    later ∉ state.shared.history.arrivals := by
  intro member
  obtain ⟨⟨stream, _⟩, inside, rfl⟩ := List.mem_map.mp member
  have ordered := called_in_order user order reached unreceived
  have delivers := delivers_reached reached
  have sent := completed_sublist reached
  rcases (latest _ inside).lt_or_eq with before | rfl
  · -- The second request was sent on an earlier stream.
    have first : (k, earlier) ∈ state.shared.history.called :=
      (sent k).subset (List.mem_map_of_mem (List.mem_of_getElem? found))
    have second := (sent stream).subset (List.mem_map_of_mem
      ((delivers stream).subset (mem_receipts.mpr inside)))
    obtain ⟨front, back, split⟩ := List.append_of_mem second
    rw [split, List.pairwise_append, List.pairwise_cons] at ordered
    rw [split, List.mem_append, List.mem_cons] at first
    rcases first with early | same | late
    · have streams := (ordered.2.2 _ early _ List.mem_cons_self).1
      exact absurd streams (Nat.not_le.mpr before)
    · exact absurd (congrArg Prod.fst same) (Nat.ne_of_gt before)
    · exact (ordered.2.1.1 _ late).2 rfl rfl
  · -- Both came on one stream, in the order in which they were sent there.
    have pair : [_, earlier].Sublist (state.shared.history.completed stream) :=
      ((List.singleton_sublist.mpr (mem_receipts.mpr inside)).append
        (List.Sublist.refl [earlier])).trans (delivers.append found).sublist
    have called := (pair.map fun req => (stream, req)).trans (sent stream)
    have apart := ordered.sublist called
    simp at apart

/-- In every run that keeps the place of the first of two requests which one
goroutine enqueues, the peer's first receipt of it comes before its first
receipt of the second. -/
theorem fifo_across_streams (user : calls ∈ workload.users)
    (order : [.enqueue earlier, .enqueue later].Sublist calls)
    (reached : config.Reaches workload (KeepsPlace config earlier) state)
    (received : earlier ∈ state.shared.history.arrivals) :
    state.shared.history.arrivals.idxOf earlier <
      state.shared.history.arrivals.idxOf later := by
  revert received
  refine reached.invariant (fun state =>
    earlier ∈ state.shared.history.arrivals →
      state.shared.history.arrivals.idxOf earlier <
        state.shared.history.arrivals.idxOf later) ?_ ?_
  · simp [History.arrivals]
  · intro state label next reached inOrder permitted stepped received
    rcases Machine.step_cases stepped with
      ⟨thread, choice, rfl, ⟨runs⟩⟩ | ⟨event, shared, rfl, acted, rfl⟩
    · rw [runs.next_shared, arrivals_exec runs.exec_eq] at received ⊢
      exact inOrder received
    · rcases arrivals_environment acted with same | ⟨k, req, rfl, found, grown⟩
      · rw [same] at received ⊢
        exact inOrder received
      · rw [grown] at received ⊢
        by_cases before : earlier ∈ state.shared.history.arrivals
        · have first := inOrder before
          rw [List.idxOf_append, List.idxOf_append, if_pos before]
          split
          · exact first
          · have inside := List.idxOf_lt_length_iff.mpr before
            omega
        · have last : req = earlier := by
            simpa [before, eq_comm] using received
          rw [last] at found ⊢
          have absent := not_mem_arrivals user order reached before found
            (permitted.2 k rfl)
          have different := ne_of_enqueue_sublist user order
          rw [List.idxOf_append, List.idxOf_append, if_neg before,
            if_neg absent]
          simp [different]

/-! ## Requests that change places -/

/-- The first call is sent on a stream that is lost.  It is queued again behind
the second call, and the next stream delivers both. -/
def overtakenRun : List Step :=
  Step.first 0 2 ++ Step.first 1 6 ++ [.run 0 (.pick .third)] ++
    Step.first 0 8 ++ Step.first 1 6 ++
    [.run 2 (.pick .second), .run 2 (.err .eof)] ++ Step.first 2 7 ++
    [.run 2 (.order [soleCall])] ++ Step.first 2 7 ++ Step.first 0 8 ++
    [.run 0 (.pick .second)] ++ Step.first 0 12 ++ [.run 0 (.pick .third)] ++
    Step.first 0 8 ++ [.env (.receive 1), .env (.receive 1)]

theorem overtakenRun_followed :
    (roomyOutbound.follow twoCalls overtakenRun).isSome = true := by
  decide +kernel

/-- The peer receives a call before the one that its goroutine enqueued first. -/
theorem later_call_received_first :
    ∃ state, roomyOutbound.Reaches twoCalls (fun _ _ => True) state ∧
      (∃ calls ∈ twoCalls.users,
        [.enqueue soleCall, .enqueue otherCall].Sublist calls) ∧
      soleCall ∈ state.shared.history.arrivals ∧
      otherCall ∈ state.shared.history.arrivals ∧
      ¬ state.shared.history.arrivals.idxOf soleCall <
        state.shared.history.arrivals.idxOf otherCall := by
  refine ⟨_, Config.reaches_of_follow overtakenRun_followed,
    ⟨_, List.mem_singleton.mpr rfl, List.Sublist.refl _⟩, ?_, ?_, ?_⟩
  · decide +kernel
  · decide +kernel
  · decide +kernel

/-- Check that a step requeues nothing and receives from the last stream. -/
def keepsPlaceCheck (state : ChannelState) : Step → Bool
  | .run thread _ =>
      match state.head? thread with
      | some (.session _ (.retryOrFail _ _)) => false
      | _ => true
  | .env (.receive k) =>
      state.shared.history.received.all fun entry => decide (entry.1 ≤ k)
  | .env _ => true

theorem keepsPlace_of_check {config : Config} {req : Request}
    {state : ChannelState} {label : Step}
    (checked : keepsPlaceCheck state label = true) :
    KeepsPlace config req state label := by
  refine ⟨?_, ?_⟩
  · rintro thread choice op rfl first ⟨k, err, rfl, _⟩
    simp [keepsPlaceCheck, first] at checked
  · rintro k rfl
    simpa [keepsPlaceCheck] using checked

/-- Both calls are sent on the first stream, which delivers them. -/
def bothReceived : List Step :=
  Step.first 0 2 ++ Step.first 1 12 ++ [.run 0 (.pick .third)] ++
    Step.first 0 8 ++ [.run 0 (.pick .third)] ++ Step.first 0 8 ++
    [.env (.receive 0), .env (.receive 0)]

theorem bothReceived_followed :
    ((channel roomyOutbound).follow keepsPlaceCheck
      (roomyOutbound.start twoCalls) bothReceived).isSome = true := by
  decide +kernel

theorem fifo_across_streams_both :
    ∃ state, roomyOutbound.Reaches twoCalls
        (KeepsPlace roomyOutbound soleCall) state ∧
      otherCall ∈ state.shared.history.arrivals ∧
      state.shared.history.arrivals.idxOf soleCall <
        state.shared.history.arrivals.idxOf otherCall := by
  have reached : roomyOutbound.Reaches twoCalls
      (KeepsPlace roomyOutbound soleCall) _ :=
    Machine.reach_of_isSome (fun _ _ => keepsPlace_of_check)
      bothReceived_followed
  refine ⟨_, reached, by decide +kernel, ?_⟩
  exact fifo_across_streams (List.mem_singleton.mpr rfl) (List.Sublist.refl _)
    reached (by decide +kernel)

end Runs

end Stream
end Gorums
