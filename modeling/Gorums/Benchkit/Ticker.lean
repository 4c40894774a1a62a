import Gorums.Benchkit.Summary
import Gorums.Pool.Observed

/-!
# The ticker of a run

While workers record their latencies, the ticker takes the count of each interval and
emits an event for it, in two steps between which workers go on.  When it is stopped, it
flushes the interval that is left.  An observer notes which samples were recorded between
two of its snapshots, and the events are those of the intervals in the notes.
-/

namespace Gorums
namespace Benchkit

open Gorums.MachineInt Gorums.Pool

/-! ## The source -/

/-- The events of a run, in memory. -/
structure EventBuffer where
  /-- The time from which offsets count, if there is one. -/
  start : Option Int := none
  /-- The events. -/
  events : List Event := []

namespace EventBuffer

/-- The start of the offsets, which is the first time that is emitted. -/
def base (b : EventBuffer) (now : Int) : Int := b.start.getD now

/-- Append an event. -/
def emit (b : EventBuffer) (now : Int) (payload : Payload) : EventBuffer where
  start := some (b.base now)
  events := b.events ++ [⟨max (timeSub now (b.base now)) 0, payload⟩]

/-- Append a phase; the offsets count from the start. -/
def emitPhase (b : EventBuffer) (now : Int) (phase : Phase) (rate : Int) : EventBuffer :=
  match phase with
  | .start => { b with start := some now }.emit now (.phase .start rate)
  | .rateStep | .stop => b.emit now (.phase phase rate)

/-- Append the operations of an interval. -/
def emitThroughput (b : EventBuffer) (now : Int) (ops : UInt64) (duration : Int) : EventBuffer :=
  b.emit now (.throughput ops duration)

/-- Append the moments of an interval. -/
def emitLatency (sqrt : ℚ → ℚ) (b : EventBuffer) (now : Int) (m : LatencyMoments) :
    EventBuffer :=
  b.emit now (.latency m.count m.mean (m.stddev sqrt))

end EventBuffer

/-- A measurement: the statistics, and what its ticker shares with the workers. -/
structure Measurement where
  /-- The statistics. -/
  stats : Stats
  /-- The events. -/
  buffer : EventBuffer
  /-- Whether the ticker has been told to stop. -/
  done : Bool := false
  /-- The number of operations that failed. -/
  failed : UInt64 := 0

/-- Operations of the workers and of the ticker.  The ticker goes on with the time of its
last tick, unless it has been stopped. -/
inductive TickerOp
  /-- A worker records a latency. -/
  | addLatency (ns : Int)
  /-- The ticker begins. -/
  | begin
  /-- The ticker waits for a tick, or to be stopped. -/
  | select (prev : Int)
  /-- The ticker takes the counts of an interval. -/
  | tickInterval (now duration : Int) (again : Option Int)
  /-- The ticker emits the operations of the interval. -/
  | emitThroughput (now : Int) (ops : UInt64) (duration : Int) (m : LatencyMoments)
      (again : Option Int)
  /-- The ticker emits the moments of the interval. -/
  | emitLatency (now : Int) (m : LatencyMoments) (again : Option Int)

/-- What the scheduler decides: the time, and whether a tick is taken. -/
structure TickerChoice where
  /-- The time. -/
  now : Int
  /-- Whether a tick is taken. -/
  ticked : Bool := false

/-- What the goroutine that measures does. -/
inductive TickerEvent
  /-- `Stats.Start`. -/
  | start (now : Int) (ms : MemStats)
  /-- `Stats.End`. -/
  | finish (now : Int) (ms : MemStats)
  /-- `RecordError`. -/
  | recordError
  /-- `RateStep`. -/
  | rateStep (now rate : Int)
  /-- `Stop` closes the channel. -/
  | close

/-- The next round of the loop of the ticker. -/
def resume (again : Option Int) : List TickerOp := (again.map .select).toList

/-- Execute one operation. -/
def tickerExec (sqrt : ℚ → ℚ) (shared : Measurement) :
    TickerOp → TickerChoice → Option (Outcome Measurement TickerOp)
  | .addLatency ns, _ =>
      (shared.stats.addLatency ns).map fun stats => ⟨{ shared with stats := stats }, [], []⟩
  | .begin, choice => some ⟨shared, [.select choice.now], []⟩
  | .select prev, choice =>
      if choice.ticked then
        some ⟨shared, [.tickInterval choice.now (timeSub choice.now prev) (some choice.now)], []⟩
      else if shared.done then
        some ⟨shared, [.tickInterval choice.now (timeSub choice.now prev) none], []⟩
      else none
  | .tickInterval now duration again, _ =>
      let taken := shared.stats.tickInterval
      let shared := { shared with stats := taken.2 }
      -- the last interval emits nothing if it is empty
      if again = none ∧ taken.1.2 = 0 ∧ taken.1.1.count = 0 then some ⟨shared, [], []⟩
      else some ⟨shared, [.emitThroughput now taken.1.2 duration taken.1.1 again], []⟩
  | .emitThroughput now ops duration m again, _ =>
      some ⟨{ shared with buffer := shared.buffer.emitThroughput now ops duration },
        if 0 < m.count then [.emitLatency now m again] else resume again, []⟩
  | .emitLatency now m again, _ =>
      some ⟨{ shared with buffer := shared.buffer.emitLatency sqrt now m }, resume again, []⟩

/-- What the goroutine that measures does to the measurement. -/
def tickerEnv (shared : Measurement) : TickerEvent → Option Measurement
  | .start now ms =>
      some { shared with stats := { shared.stats with startTime := now, startMs := ms } }
  | .finish now ms =>
      some { shared with stats := { shared.stats with endTime := now, endMs := ms } }
  | .recordError => some { shared with failed := shared.failed + 1 }
  | .rateStep now rate =>
      some { shared with buffer := shared.buffer.emitPhase now .rateStep rate }
  | .close => if shared.done then none else some { shared with done := true }

/-- The machine of a measurement. -/
def tickerMachine (sqrt : ℚ → ℚ) :
    Machine Measurement TickerOp TickerChoice TickerEvent where
  exec := tickerExec sqrt
  env := tickerEnv

/-- A measurement that was started, whose workers are going to record latencies. -/
def startMeasurement (canonical : Histogram) (mode : StatsMode) (now rate : Int)
    (workers : List (List Int)) : State Measurement TickerOp where
  shared :=
    { stats := newStats canonical mode
      buffer := EventBuffer.emitPhase {} now .start rate }
  threads := [.begin] :: workers.map fun samples => samples.map .addLatency

/-- The result of a measurement, after its ticker has been stopped at some time. -/
def Measurement.finish (shared : Measurement) (now : Int) : Result :=
  { shared.stats.getResult with
    statsMode := shared.stats.mode
    measurementMode := .clientMeasured
    events := (shared.buffer.emitPhase now .stop 0).events
    failedOps := shared.failed }

/-! ## Notes of the intervals -/

/-- The samples of each interval, in the order of their recording. -/
structure Notes where
  /-- The intervals that the ticker has taken. -/
  closed : List (List Int) := []
  /-- The samples since then. -/
  current : List Int := []

/-- All samples, in the order of their recording. -/
def Notes.samples (notes : Notes) : List Int := notes.closed.flatten ++ notes.current

/-- Note a sample, or the end of an interval. -/
def Notes.note (op : TickerOp) (_ : TickerChoice) (notes : Notes) : Notes :=
  match op with
  | .addLatency ns => { notes with current := notes.current ++ [ns] }
  | .tickInterval .. => ⟨notes.closed ++ [notes.current], []⟩
  | .begin | .select _ | .emitThroughput .. | .emitLatency .. => notes

/-- The intervals that have an event, with its offset.  The events are in the order of the
intervals. -/
def intervalsOf (events : List Event) (notes : Notes) : List Interval :=
  ((throughputs events).map Prod.fst).zip notes.closed

/-- The ticker takes the last interval when no latency is left to be recorded. -/
def Recorded (state : State Measurement TickerOp) :
    Label TickerChoice TickerEvent → Prop
  | .run thread _ =>
      ∀ now duration rest,
        state.threads[thread]? = some (.tickInterval now duration none :: rest) →
        ∀ ops ∈ state.threads, ∀ ns, .addLatency ns ∉ ops
  | .env _ => True

/-! ## The steps of a run -/

/-- The operations that the ticker is going to emit. -/
def TickerOp.due : TickerOp → List UInt64
  | .emitThroughput _ ops _ _ _ => [ops]
  | _ => []

/-- The ticker has taken the last interval. -/
def TickerOp.Last : TickerOp → Prop
  | .emitThroughput _ _ _ _ again => again = none
  | .emitLatency _ _ again => again = none
  | _ => False

/-- An operation of the ticker. -/
def TickerOp.Ticks : TickerOp → Prop
  | .addLatency _ => False
  | _ => True

/-- A thread of the ticker, which does one operation at a time. -/
def Alone (ticker : List TickerOp) : Prop :=
  ticker = [] ∨ ∃ op : TickerOp, ticker = [op] ∧ op.Ticks

/-- The number of samples of each interval. -/
def counts (intervals : List (List Int)) : List UInt64 :=
  intervals.map fun interval => UInt64.ofNat interval.length

/-- The statistics are those of the samples in the notes. -/
structure Counted (stats : Stats) (notes : Notes) : Prop where
  /-- Samples are kept. -/
  mode : stats.mode = .exact
  /-- They are those of the notes. -/
  store : stats.store = some (.exact notes.samples)
  /-- They are in a slice. -/
  room : notes.samples.length ≤ maxInt
  /-- They are counted. -/
  opCount : stats.opCount = UInt64.ofNat notes.samples.length
  /-- So are those of the intervals that have been taken. -/
  iOpStart : stats.iOpStart = UInt64.ofNat notes.closed.flatten.length

/-- The events report the intervals in the notes.  An interval without an event is the
last one, and it is empty. -/
def Emitted (events : List Event) (notes : Notes) (ticker : List TickerOp) : Prop :=
  ∃ skipped, (skipped = [] ∨ skipped = [0] ∧ ticker = []) ∧
    counts notes.closed =
      (throughputs events).map Prod.snd ++ ticker.flatMap TickerOp.due ++ skipped

/-- What holds of the threads of a run. -/
structure Phased (shared : Measurement) (notes : Notes) (ticker : List TickerOp)
    (workers : List (List TickerOp)) : Prop where
  /-- The ticker does one operation at a time. -/
  alone : Alone ticker
  /-- The workers record latencies. -/
  recording : ∀ ops ∈ workers, ∀ op ∈ ops, ∃ ns, op = .addLatency ns
  /-- The statistics are those of the samples. -/
  counted : Counted shared.stats notes
  /-- The events are those of the intervals. -/
  emitted : Emitted shared.buffer.events notes ticker
  /-- Nothing is recorded after the last interval. -/
  ended : (∀ op ∈ ticker, op.Last) → notes.current = [] ∧ ∀ ops ∈ workers, ops = []

section Steps

variable {sqrt : ℚ → ℚ} {shared next : Measurement} {notes : Notes} {op : TickerOp}
  {choice : TickerChoice} {outcome : Outcome Measurement TickerOp} {event : TickerEvent}
  {ticker : List TickerOp} {workers : List (List TickerOp)} {stats : Stats}
  {events : List Event}

theorem samples_addLatency (ns : Int) (choice : TickerChoice) (notes : Notes) :
    (notes.note (.addLatency ns) choice).samples = notes.samples ++ [ns] := by
  simp [Notes.note, Notes.samples]

theorem closed_tickInterval (now duration : Int) (again : Option Int) (choice : TickerChoice)
    (notes : Notes) :
    (notes.note (.tickInterval now duration again) choice).closed.flatten = notes.samples := by
  simp [Notes.note, Notes.samples]

theorem samples_tickInterval (now duration : Int) (again : Option Int) (choice : TickerChoice)
    (notes : Notes) :
    (notes.note (.tickInterval now duration again) choice).samples = notes.samples := by
  simp [Notes.note, Notes.samples]

/-- Recording a latency. -/
theorem Counted.addLatency {ns : Int} {later : Stats} (counted : Counted stats notes)
    (added : stats.addLatency ns = some later) :
    Counted later (notes.note (.addLatency ns) choice) := by
  unfold Stats.addLatency at added
  rw [counted.store, Option.getD_some, SampleStore.add, append] at added
  split at added
  · rename_i free
    cases added
    refine ⟨counted.mode, ?_, ?_, ?_, counted.iOpStart⟩
    · rw [samples_addLatency]
      rfl
    · rw [samples_addLatency, List.length_append]
      exact free
    · rw [samples_addLatency, List.length_append, UInt64.ofNat_add, ← counted.opCount]
      rfl
  · cases added

/-- Taking an interval. -/
theorem Counted.tickInterval {now duration : Int} {again : Option Int}
    (counted : Counted stats notes) :
    Counted stats.tickInterval.2 (notes.note (.tickInterval now duration again) choice) where
  mode := counted.mode
  store := by
    rw [samples_tickInterval]
    exact counted.store
  room := by
    rw [samples_tickInterval]
    exact counted.room
  opCount := by
    rw [samples_tickInterval]
    exact counted.opCount
  iOpStart := by
    rw [closed_tickInterval]
    exact counted.opCount

/-- The operations of an interval are its samples. -/
theorem Counted.opDelta (counted : Counted stats notes) :
    stats.tickInterval.1.2 = UInt64.ofNat notes.current.length := by
  have delta : stats.tickInterval.1.2 = stats.opCount - stats.iOpStart := rfl
  rw [delta, counted.opCount, counted.iOpStart, Notes.samples, List.length_append,
    UInt64.ofNat_add, UInt64.add_comm, UInt64.add_sub_cancel]

/-- What an operation does to the statistics. -/
theorem counted_exec (counted : Counted shared.stats notes)
    (executed : tickerExec sqrt shared op choice = some outcome) :
    Counted outcome.shared.stats (notes.note op choice) := by
  cases op with
  | addLatency ns =>
      obtain ⟨stats, added, rfl⟩ := Option.map_eq_some_iff.mp executed
      exact counted.addLatency added
  | select prev =>
      simp only [tickerExec] at executed
      split_ifs at executed <;> cases executed <;> exact counted
  | tickInterval now duration again =>
      simp only [tickerExec] at executed
      split_ifs at executed <;> cases executed <;> exact counted.tickInterval
  | _ =>
      cases executed
      exact counted

theorem throughputs_emit (b : EventBuffer) (now : Int) (payload : Payload) :
    (throughputs (b.emit now payload).events).map Prod.snd =
      (throughputs b.events).map Prod.snd ++
        match payload with
        | .throughput ops _ => [ops]
        | .latency .. | .phase .. => [] := by
  cases payload <;> simp [throughputs, EventBuffer.emit]

/-- An operation is the only one of the ticker, so that no interval has been skipped. -/
theorem Emitted.reported (emitted : Emitted events notes [op]) :
    counts notes.closed = (throughputs events).map Prod.snd ++ op.due := by
  obtain ⟨skipped, none | ⟨_, done⟩, equal⟩ := emitted
  · rw [equal, none, List.append_nil, List.flatMap_singleton]
  · cases done

/-- No interval has been skipped. -/
theorem Emitted.of_reported
    (reported : counts notes.closed =
      (throughputs events).map Prod.snd ++ ticker.flatMap TickerOp.due) :
    Emitted events notes ticker :=
  ⟨[], .inl rfl, by rw [reported, List.append_nil]⟩

/-- Another interval. -/
theorem counts_tickInterval (counted : Counted stats notes) (now duration : Int)
    (again : Option Int) (choice : TickerChoice) :
    counts (notes.note (.tickInterval now duration again) choice).closed =
      counts notes.closed ++ [stats.tickInterval.1.2] := by
  rw [counted.opDelta]
  exact List.map_append

/-- How the ticker goes on: with nothing to report, and with another round unless it has
taken the last interval. -/
structure Continues (ticker : List TickerOp) (again : Option Int) : Prop where
  /-- One operation is left, or none. -/
  alone : Alone ticker
  /-- No operations are left to be reported. -/
  due : ticker.flatMap TickerOp.due = []
  /-- There is no other round after the last interval. -/
  last : (∀ op ∈ ticker, op.Last) → again = none

theorem continues_resume (again : Option Int) : Continues (resume again) again := by
  cases again with
  | none => exact ⟨.inl rfl, rfl, fun _ => rfl⟩
  | some prev =>
      refine ⟨.inr ⟨.select prev, rfl, trivial⟩, rfl, ?_⟩
      intro last
      exact (last (.select prev) (List.mem_singleton_self _)).elim

theorem continues_emitThroughput (now : Int) (m : LatencyMoments) (again : Option Int) :
    Continues (if 0 < m.count then [.emitLatency now m again] else resume again) again := by
  split
  · refine ⟨.inr ⟨_, rfl, trivial⟩, rfl, ?_⟩
    intro last
    exact last (.emitLatency now m again) (List.mem_singleton_self _)
  · exact continues_resume again

/-- The last interval is about to be taken, or has been. -/
def Ends (op : TickerOp) : Prop :=
  op.Last ∨ ∃ now duration, op = .tickInterval now duration none

/-- What an operation of the ticker does to its thread and to the events. -/
theorem ticker_exec (emitted : Emitted shared.buffer.events notes [op])
    (counted : Counted shared.stats notes) (ticks : op.Ticks)
    (executed : tickerExec sqrt shared op choice = some outcome) :
    Alone outcome.next ∧
      Emitted outcome.shared.buffer.events (notes.note op choice) outcome.next ∧
      ((∀ op ∈ outcome.next, op.Last) → Ends op) := by
  have reported := emitted.reported
  cases op with
  | addLatency ns => exact ticks.elim
  | begin =>
      cases executed
      exact ⟨.inr ⟨_, rfl, trivial⟩, .of_reported reported,
        fun last => (last _ (List.mem_singleton_self _)).elim⟩
  | select prev =>
      -- another interval follows, on a tick or because the phase is done
      simp only [tickerExec] at executed
      split_ifs at executed <;> cases executed <;>
        exact ⟨.inr ⟨_, rfl, trivial⟩, .of_reported reported,
          fun last => (last _ (List.mem_singleton_self _)).elim⟩
  | tickInterval now duration again =>
      simp only [tickerExec] at executed
      split_ifs at executed with skips <;> cases executed
      · -- the last interval has no operations
        refine ⟨.inl rfl, ⟨[0], .inr ⟨rfl, rfl⟩, ?_⟩, ?_⟩
        · have zero : shared.stats.tickInterval.1.2 = 0 := skips.2.1
          rw [counts_tickInterval counted, reported, zero]
          rfl
        · exact fun _ => .inr ⟨now, duration, by rw [skips.1]⟩
      · refine ⟨.inr ⟨_, rfl, trivial⟩, .of_reported ?_, ?_⟩
        · rw [counts_tickInterval counted, reported]
          simp [TickerOp.due]
        · intro last
          have none : again = none := last _ (List.mem_singleton_self _)
          exact .inr ⟨now, duration, by rw [none]⟩
  | emitThroughput now ops duration m again =>
      cases executed
      have continues := continues_emitThroughput now m again
      refine ⟨continues.alone, .of_reported ?_,
        fun last => .inl (continues.last last)⟩
      rw [EventBuffer.emitThroughput, throughputs_emit, continues.due,
        List.append_nil]
      exact reported
  | emitLatency now m again =>
      cases executed
      have continues := continues_resume again
      refine ⟨continues.alone, .of_reported ?_,
        fun last => .inl (continues.last last)⟩
      rw [EventBuffer.emitLatency, throughputs_emit, continues.due,
        List.append_nil]
      exact reported

theorem spawned_exec (executed : tickerExec sqrt shared op choice = some outcome) :
    outcome.spawned = [] := by
  cases op with
  | addLatency ns =>
      obtain ⟨stats, added, rfl⟩ := Option.map_eq_some_iff.mp executed
      rfl
  | select prev =>
      simp only [tickerExec] at executed
      split_ifs at executed <;> cases executed <;> rfl
  | tickInterval now duration again =>
      simp only [tickerExec] at executed
      split_ifs at executed <;> cases executed <;> rfl
  | _ =>
      cases executed
      rfl

/-- A step of the ticker. -/
theorem Phased.tick {rest : List TickerOp} (phased : Phased shared notes (op :: rest) workers)
    (executed : tickerExec sqrt shared op choice = some outcome)
    (recorded : ∀ now duration, op = .tickInterval now duration none →
      ∀ ops ∈ workers, ∀ ns, .addLatency ns ∉ ops) :
    Phased outcome.shared (notes.note op choice) (outcome.next ++ rest)
      (workers ++ outcome.spawned) := by
  obtain ⟨rfl, ticks⟩ : rest = [] ∧ op.Ticks := by
    obtain none | ⟨sole, equal, ticks⟩ := phased.alone
    · cases none
    · cases equal
      exact ⟨rfl, ticks⟩
  obtain ⟨alone, emitted, ends⟩ := ticker_exec phased.emitted phased.counted ticks executed
  rw [spawned_exec executed, List.append_nil, List.append_nil]
  refine ⟨alone, phased.recording, counted_exec phased.counted executed, emitted, ?_⟩
  intro last
  obtain earlier | ⟨now, duration, rfl⟩ := ends last
  · have ended := phased.ended (by simpa using earlier)
    cases op with
    | emitThroughput now ops duration m again => exact ended
    | emitLatency now m again => exact ended
    | _ => exact earlier.elim
  · -- no worker has a latency left, and they do nothing else
    refine ⟨rfl, ?_⟩
    intro ops member
    apply List.eq_nil_iff_forall_not_mem.mpr
    intro op inside
    obtain ⟨ns, rfl⟩ := phased.recording ops member op inside
    exact recorded now duration rfl ops member ns inside

/-- A step of a worker. -/
theorem Phased.work {before after : List (List TickerOp)} {rest : List TickerOp}
    (phased : Phased shared notes ticker (before ++ (op :: rest) :: after))
    (executed : tickerExec sqrt shared op choice = some outcome) :
    Phased outcome.shared (notes.note op choice) ticker
      (before ++ (outcome.next ++ rest) :: (after ++ outcome.spawned)) := by
  have member : op :: rest ∈ before ++ (op :: rest) :: after := by simp
  obtain ⟨ns, rfl⟩ := phased.recording _ member op List.mem_cons_self
  have counted := counted_exec phased.counted executed
  obtain ⟨stats, added, rfl⟩ := Option.map_eq_some_iff.mp executed
  refine ⟨phased.alone, ?_, counted, phased.emitted, ?_⟩
  · intro ops within op inside
    simp only [List.nil_append, List.append_nil, List.mem_append, List.mem_cons] at within
    obtain early | rfl | late := within
    · exact phased.recording ops (by simp [early]) op inside
    · exact phased.recording _ member op (List.mem_cons_of_mem _ inside)
    · exact phased.recording ops (by simp [late]) op inside
  · intro last
    cases (phased.ended last).2 _ member

/-- A step of the goroutine that measures. -/
theorem Phased.env (phased : Phased shared notes ticker workers)
    (acted : tickerEnv shared event = some next) :
    Phased next notes ticker workers := by
  have counted := phased.counted
  have same : Counted next.stats notes ∧
      (throughputs next.buffer.events).map Prod.snd =
        (throughputs shared.buffer.events).map Prod.snd := by
    cases event with
    | start now ms =>
        cases acted
        exact ⟨⟨counted.mode, counted.store, counted.room, counted.opCount, counted.iOpStart⟩,
          rfl⟩
    | finish now ms =>
        cases acted
        exact ⟨⟨counted.mode, counted.store, counted.room, counted.opCount, counted.iOpStart⟩,
          rfl⟩
    | recordError =>
        cases acted
        exact ⟨counted, rfl⟩
    | rateStep now rate =>
        cases acted
        refine ⟨counted, ?_⟩
        rw [EventBuffer.emitPhase, throughputs_emit, List.append_nil]
    | close =>
        rw [tickerEnv] at acted
        split at acted
        · cases acted
        · cases acted
          exact ⟨counted, rfl⟩
  obtain ⟨skipped, empty, equal⟩ := phased.emitted
  refine ⟨phased.alone, phased.recording, same.1, ⟨skipped, empty, ?_⟩, phased.ended⟩
  rw [same.2]
  exact equal

end Steps

/-! ## Runs -/

section Runs

variable {canonical : Histogram} {sqrt : ℚ → ℚ} {start rate : Int} {workers : List (List Int)}
  {state : State (Measurement × Notes) TickerOp} {events : List Event} {notes : Notes}

theorem phased_start :
    Phased (startMeasurement canonical .exact start rate workers).shared {} [.begin]
      (workers.map fun samples => samples.map .addLatency) where
  alone := .inr ⟨.begin, rfl, trivial⟩
  recording := by
    intro ops member op inside
    obtain ⟨samples, _, rfl⟩ := List.mem_map.mp member
    obtain ⟨ns, _, rfl⟩ := List.mem_map.mp inside
    exact ⟨ns, rfl⟩
  counted := ⟨rfl, rfl, Nat.zero_le _, rfl, rfl⟩
  emitted := ⟨[], .inl rfl, rfl⟩
  ended := fun last => (last .begin (List.mem_singleton_self _)).elim

/-- The first thread is the ticker and the others are the workers. -/
def Phases (state : State (Measurement × Notes) TickerOp) : Prop :=
  ∃ ticker workers, state.threads = ticker :: workers ∧
    Phased state.shared.1 state.shared.2 ticker workers

/-- What holds in every reachable state. -/
theorem phases_reached
    (reached : ((tickerMachine sqrt).observed Notes.note).Reach
      (fun state => Recorded state.forget)
      ((startMeasurement canonical .exact start rate workers).noted {}) state) :
    Phases state := by
  refine reached.invariant Phases ⟨_, _, rfl, phased_start⟩ ?_
  rintro state label next _ ⟨ticker, workers, threads, phased⟩ permitted stepped
  obtain ⟨thread, choice, rfl, ⟨runs⟩⟩ | ⟨event, shared, rfl, acted, rfl⟩ :=
    Machine.step_cases stepped
  · obtain ⟨outcome, executed, effect⟩ := Machine.exec_observed runs.exec_eq
    have placed := runs.threads_eq
    rw [threads] at placed
    rw [runs.next_eq, effect]
    cases found : runs.before with
    | nil =>
        -- the first thread is the ticker
        rw [found, List.nil_append] at placed
        obtain ⟨rfl, rfl⟩ := List.cons_eq_cons.mp placed
        refine ⟨_, _, rfl, phased.tick executed ?_⟩
        intro now duration last ops member
        apply permitted now duration runs.rest
        · have zero : thread = 0 := by
            rw [← runs.index, found, List.length_nil]
          refine (congrArg (state.threads[·]?) zero).trans ?_
          rw [threads, last, List.getElem?_cons_zero]
        · rw [State.forget, threads]
          exact List.mem_cons_of_mem _ member
    | cons first before =>
        rw [found, List.cons_append] at placed
        obtain ⟨rfl, rfl⟩ := List.cons_eq_cons.mp placed
        exact ⟨_, _, rfl, phased.work executed⟩
  · have acted := Machine.env_observed acted
    refine ⟨ticker, workers, threads, ?_⟩
    rw [acted.2]
    exact phased.env acted.1

/-- The counts of intervals are zero only if they are empty. -/
theorem flatten_of_counts {intervals : List (List Int)}
    (room : intervals.flatten.length ≤ maxInt)
    (zero : counts intervals = [] ∨ counts intervals = [0]) : intervals.flatten = [] := by
  obtain empty | single := zero
  · rw [List.map_eq_nil_iff.mp empty, List.flatten_nil]
  · obtain ⟨interval, rfl, count⟩ := List.map_eq_singleton_iff.mp single
    rw [List.flatten_singleton] at room ⊢
    apply List.length_eq_zero_iff.mp
    rw [← toNat_ofNat_length room, count]
    rfl

/-- The events report the intervals with their offsets, once the ticker has returned, and
no sample is outside of them. -/
theorem Emitted.reports (emitted : Emitted events notes [])
    (room : notes.closed.flatten.length ≤ maxInt) :
    Reports events (intervalsOf events notes) ∧
      samplesOf (intervalsOf events notes) = notes.closed.flatten := by
  obtain ⟨skipped, empty, equal⟩ := emitted
  rw [List.flatMap_nil, List.append_nil] at equal
  obtain ⟨front, back, closed, reported, rest⟩ := List.map_eq_append_iff.mp equal
  have lengths : ((throughputs events).map Prod.fst).length = front.length := by
    rw [List.length_map, ← List.length_map Prod.snd, ← reported, List.length_map]
  have intervals : intervalsOf events notes = ((throughputs events).map Prod.fst).zip front := by
    have cut : (((throughputs events).map Prod.fst) ++ []).zip (front ++ back) =
        ((throughputs events).map Prod.fst).zip front ++ [].zip back :=
      List.zip_append lengths
    rw [List.append_nil, List.zip_nil_left, List.append_nil] at cut
    rw [intervalsOf, closed, cut]
  rw [intervals]
  constructor
  · have pairs := List.zip_of_prod rfl reported.symm
    rw [List.zip_map_right] at pairs
    exact pairs
  · have idle : back.flatten = [] := by
      apply flatten_of_counts
      · rw [closed, List.flatten_append, List.length_append] at room
        omega
      · rw [counts, rest]
        exact empty.imp_right And.left
    rw [samplesOf, List.flatMap_def, List.map_snd_zip (Nat.le_of_eq lengths.symm), closed,
      List.flatten_append, idle, List.append_nil]

/-- The latencies of a result are the samples. -/
theorem Counted.latencies_getResult {stats : Stats} (counted : Counted stats notes) :
    stats.getResult.latencies = notes.samples := by
  unfold Stats.getResult
  rw [counted.store, Option.getD_some]
  dsimp only [SampleStore.count]
  split
  · rename_i none
    have zero : notes.samples.length = 0 := by
      rw [← toNat_ofNat_length counted.room, none]
      rfl
    rw [List.length_eq_zero_iff.mp zero, Stats.resultWindow]
    split <;> rfl
  · rfl

section Finish

variable {shared : Measurement} {others : List (List TickerOp)}

theorem events_finish (shared : Measurement) (stop : Int) :
    (shared.finish stop).events ≠ [] :=
  List.append_ne_nil_of_right_ne_nil _ (List.cons_ne_nil _ _)

/-- When the ticker has returned, the events of the result are those of the intervals. -/
theorem Phased.emitted_finish (phased : Phased shared notes [] others) (stop : Int) :
    Emitted (shared.finish stop).events notes [] := by
  obtain ⟨skipped, empty, equal⟩ := phased.emitted
  refine ⟨skipped, empty, ?_⟩
  rw [Measurement.finish, EventBuffer.emitPhase, throughputs_emit, List.append_nil]
  exact equal

/-- All samples are in intervals. -/
theorem Phased.samples_eq (phased : Phased shared notes [] others) :
    notes.samples = notes.closed.flatten := by
  have ended := phased.ended (fun op member => (List.not_mem_nil member).elim)
  rw [Notes.samples, ended.1, List.append_nil]

end Finish

/-- The operations of the events are all samples, and the latencies without the first part
of the run are the samples of the intervals that are not in that part. -/
theorem trim_cuts_intervals (coeffVar : List ℚ → ℚ) (stop : Int)
    (reached : ((tickerMachine sqrt).observed Notes.note).Reach
      (fun state => Recorded state.forget)
      ((startMeasurement canonical .exact start rate workers).noted {}) state)
    (returned : state.threads.head? = some [])
    (ordered : ((throughputs (state.shared.1.finish stop).events).map Prod.fst).Pairwise
      (· ≤ ·)) :
    let r := state.shared.1.finish stop
    let intervals := intervalsOf r.events state.shared.2
    r.latencies = state.shared.2.samples ∧
      samplesOf intervals = state.shared.2.samples ∧
      ((throughputs r.events).map fun p => p.2.toNat).sum = r.latencies.length ∧
      ∀ trim, (summarize coeffVar r trim).latencies =
        samplesOf (intervals.filter fun interval => trim ≤ interval.1) := by
  intro r intervals
  obtain ⟨ticker, others, threads, phased⟩ := phases_reached reached
  obtain rfl : ticker = [] := by
    rw [threads, List.head?_cons] at returned
    exact Option.some.inj returned
  have room := phased.counted.room
  rw [phased.samples_eq] at room
  have latencies : r.latencies = state.shared.2.samples := phased.counted.latencies_getResult
  obtain ⟨reports, within⟩ := (phased.emitted_finish stop).reports room
  have same : r.latencies = samplesOf intervals := by
    rw [latencies, phased.samples_eq, ← within]
  rw [← within] at room
  refine ⟨latencies, same.symm.trans latencies, ?_, ?_⟩
  · rw [same]
    exact reports.sum_ops room
  · intro trim
    exact reports.latencies_summarize coeffVar trim phased.counted.mode rfl
      (events_finish _ stop) same room (reports.ordered ordered)

/-- Whether a latency is recorded. -/
def TickerOp.adds : TickerOp → Bool
  | .addLatency _ => true
  | _ => false

/-- Whether no latency is left when the ticker takes the last interval. -/
def checkRecorded (state : State (Measurement × Notes) TickerOp) :
    Label TickerChoice TickerEvent → Bool
  | .run thread _ =>
      match state.threads[thread]? with
      | some (.tickInterval _ _ none :: _) => state.threads.all fun ops => ops.all (!·.adds)
      | _ => true
  | .env _ => true

theorem recorded_of_check (state : State (Measurement × Notes) TickerOp)
    (label : Label TickerChoice TickerEvent) (checked : checkRecorded state label = true) :
    Recorded state.forget label := by
  cases label with
  | env event => trivial
  | run thread choice =>
      intro now duration rest found ops member ns inside
      have same : state.threads[thread]? = some (.tickInterval now duration none :: rest) := found
      rw [checkRecorded, same] at checked
      have none := List.all_eq_true.mp (List.all_eq_true.mp checked ops member) _ inside
      cases none

/-- A histogram that statistics of exact samples do not use. -/
def unusedHistogram : Histogram where
  highest := 1
  unitMagnitude := 0
  subBucketHalfCountMagnitude := 0
  subBucketCount := 1
  subBucketHalfCount := 0
  subBucketMask := 0
  bucketCount := 1
  counts := [0]

/-- A measurement with two workers. -/
def twoWorkers : State (Measurement × Notes) TickerOp :=
  (startMeasurement unusedHistogram .exact 0 0 [[5], [7, 9]]).noted {}

/-- A latency is recorded before the tick, one between the tick and its snapshot, and one
between the snapshot and its event. -/
def twoWorkersRun : List (Label TickerChoice TickerEvent) :=
  [.run 0 ⟨0, false⟩, .run 1 ⟨3, false⟩, .run 0 ⟨10, true⟩, .run 2 ⟨11, false⟩,
    .run 0 ⟨12, false⟩, .run 2 ⟨13, false⟩, .run 0 ⟨14, false⟩, .run 0 ⟨15, false⟩,
    .env .close, .run 0 ⟨20, false⟩, .run 0 ⟨21, false⟩, .run 0 ⟨22, false⟩,
    .run 0 ⟨23, false⟩]

theorem twoWorkersRun_followed :
    (((tickerMachine id).observed Notes.note).follow checkRecorded twoWorkers
      twoWorkersRun).isSome = true := by
  decide +kernel

/-- The state after this run. -/
def twoWorkersState : State (Measurement × Notes) TickerOp :=
  (((tickerMachine id).observed Notes.note).follow checkRecorded twoWorkers
    twoWorkersRun).get twoWorkersRun_followed

theorem trim_cuts_twoWorkers :
    twoWorkersState.threads.head? = some [] ∧
      intervalsOf (twoWorkersState.shared.1.finish 30).events twoWorkersState.shared.2 =
        [(10, [5, 7]), (20, [9])] ∧
      (summarize (fun _ => 0) (twoWorkersState.shared.1.finish 30) 15).latencies = [9] := by
  have returned : twoWorkersState.threads.head? = some [] := rfl
  have intervals : intervalsOf (twoWorkersState.shared.1.finish 30).events
      twoWorkersState.shared.2 = [(10, [5, 7]), (20, [9])] := by decide +kernel
  refine ⟨returned, intervals, ?_⟩
  have trims := trim_cuts_intervals (fun _ => 0) 30
    (Machine.reach_of_isSome recorded_of_check twoWorkersRun_followed) returned
    (by decide +kernel)
  refine (trims.2.2.2 15).trans ?_
  refine (congrArg (fun intervals => samplesOf (intervals.filter fun interval =>
    15 ≤ interval.1)) intervals).trans ?_
  decide

end Runs

end Benchkit
end Gorums
