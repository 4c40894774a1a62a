import Gorums.Benchkit.LatencySeries
import Gorums.Benchkit.Store

/-!
# Statistics of a run

Samples are kept exactly or in histograms, for the whole run and for each sender.  The
results of the senders are corrected by their clock offsets: exact samples are shifted,
and the buckets of a histogram are shifted and recorded once more.
-/

namespace Gorums
namespace Benchkit

open Gorums.MachineInt
open Gorums.Keyed

/-! ## The source -/

/-- How samples are kept. -/
inductive StatsMode
  /-- Every sample is kept. -/
  | exact
  /-- Samples are counted in histograms. -/
  | hdr
  deriving DecidableEq

/-- Where latencies are measured. -/
inductive MeasurementMode
  /-- At the client, one for each operation. -/
  | clientMeasured
  /-- At the servers. -/
  | serverMeasured
  deriving DecidableEq

/-- A store of samples. -/
inductive SampleStore
  /-- All samples, in order. -/
  | exact (samples : List Int)
  /-- Their histograms. -/
  | hdr (store : HdrStore)

/-- The counters of the memory allocator. -/
structure MemStats where
  /-- The number of allocations. -/
  mallocs : UInt64 := 0
  /-- The number of bytes. -/
  totalAlloc : UInt64 := 0

/-- The raw data of a run. -/
structure Stats where
  /-- When the run started. -/
  startTime : Int := 0
  /-- When the run ended. -/
  endTime : Int := 0
  /-- The memory counters at the start. -/
  startMs : MemStats := {}
  /-- The memory counters at the end. -/
  endMs : MemStats := {}
  /-- How samples are kept. -/
  mode : StatsMode
  /-- The samples of the whole run. -/
  store : Option SampleStore
  /-- The samples of each sender. -/
  bySender : Finmap fun _ : UInt32 => SampleStore := ∅
  /-- The moments of intervals of receive time. -/
  series : Option LatencySeries := none
  /-- The moments of the current interval. -/
  interval : LatencyMoments := {}
  /-- The number of operations. -/
  opCount : UInt64 := 0
  /-- The number of operations before the current interval. -/
  iOpStart : UInt64 := 0

/-- The result of a run. -/
structure Result where
  /-- How samples are kept. -/
  statsMode : StatsMode := .exact
  /-- Where latencies are measured. -/
  measurementMode : MeasurementMode := .clientMeasured
  /-- The number of operations. -/
  totalOps : UInt64 := 0
  /-- The nanoseconds between the start and the end. -/
  totalTime : Int := 0
  /-- The operations in a second. -/
  throughput : ℚ := 0
  /-- The allocations of an operation. -/
  allocsPerOp : UInt64 := 0
  /-- The bytes allocated by an operation. -/
  memPerOp : UInt64 := 0
  /-- The samples, if they are kept. -/
  latencies : List Int := []
  /-- The events. -/
  events : List Event := []
  /-- The distribution of the samples, if they are not kept. -/
  histogram : Option LatencyHistogram := none
  /-- The number of operations that failed. -/
  failedOps : UInt64 := 0

/-- A sample at the end of a slice; a slice that is full panics. -/
def append (samples : List Int) (ns : Int) : Option (List Int) :=
  if samples.length < maxInt then some (samples ++ [ns]) else none

/-- A store without samples. -/
def newSampleStore (canonical : Histogram) (mode : StatsMode) : SampleStore :=
  match mode with
  | .hdr => .hdr (newHDRStore canonical)
  | .exact => .exact []

namespace SampleStore

/-- Record a sample. -/
def add : SampleStore → Int → Option SampleStore
  | .exact samples, ns => (append samples ns).map .exact
  | .hdr store, ns => (store.add ns).map .hdr

/-- The number of samples. -/
def count : SampleStore → UInt64
  | .exact samples => UInt64.ofNat samples.length
  | .hdr store => store.count

/-- The samples, if they are kept. -/
def samples : SampleStore → List Int
  | .exact samples => samples
  | .hdr _ => []

end SampleStore

/-- Statistics without samples. -/
def newStats (canonical : Histogram) (mode : StatsMode) : Stats :=
  { mode := mode, store := some (newSampleStore canonical mode) }

namespace Stats

/-- Count an operation with its latency in the current interval. -/
def intervalUpdate (s : Stats) (ns : Int) : Stats :=
  { s with opCount := s.opCount + 1, interval := s.interval.add ns }

/-- Record a latency. -/
def addLatency (s : Stats) (ns : Int) : Option Stats :=
  ((s.store.getD (.exact [])).add ns).map fun store =>
    { s with store := some store }.intervalUpdate ns

/-- Record a latency of a sender. -/
def addLatencyBySender (canonical : Histogram) (s : Stats) (now : Int) (id : UInt32)
    (ns : Int) : Option Stats :=
  (((s.bySender.lookup id).getD (newSampleStore canonical s.mode)).add ns).map fun store =>
    let s := { s with bySender := s.bySender.insert id store }.intervalUpdate ns
    { s with series := s.series.map fun series => series.add now id ns }

/-- The moments of the current interval and its number of operations, and a new
interval. -/
def tickInterval (s : Stats) : (LatencyMoments × UInt64) × Stats :=
  ((s.interval, s.opCount - s.iOpStart),
    { s with interval := {}, iOpStart := s.opCount })

/-- A result with the number of operations and the window of the run. -/
def resultWindow (s : Stats) (n : UInt64) : Result :=
  let totalTime := timeSub s.endTime s.startTime
  if n = 0 then { totalOps := n, totalTime := totalTime }
  else
    { totalOps := n
      totalTime := totalTime
      throughput := n.toNat / ((totalTime : ℚ) / 1000000000)
      allocsPerOp := (s.endMs.mallocs - s.startMs.mallocs) / n
      memPerOp := (s.endMs.totalAlloc - s.startMs.totalAlloc) / n }

/-- A result with samples. -/
def resultFromSamples (s : Stats) (samples : List Int) : Result :=
  { s.resultWindow (UInt64.ofNat samples.length) with latencies := samples }

/-- A result with a distribution. -/
def resultFromHistogram (s : Stats) (agg : Histogram) : Result :=
  { s.resultWindow agg.totalCount with
    histogram := if agg.totalCount = 0 then none else agg.snapshot }

/-- The result of the samples of the whole run. -/
def getResult (s : Stats) : Result :=
  let store := s.store.getD (.exact [])
  let n := store.count
  if n = 0 then s.resultWindow n
  else
    match store with
    | .exact samples => { s.resultWindow n with latencies := samples }
    | .hdr hs => { s.resultWindow n with histogram := hs.snapshot }

/-- The buckets of the senders, shifted by their clock offsets and recorded in order. -/
def correctedHistogram (s : Stats) (offsets : UInt32 → Int) :
    List UInt32 → Histogram → Option Histogram
  | [], agg => some agg
  | id :: rest, agg =>
      match s.bySender.lookup id with
      | some (.hdr hs) => do
          let agg ← agg.recordPairs hs.buckets (offsets id)
          correctedHistogram s offsets rest agg
      | _ => correctedHistogram s offsets rest agg

/-- Samples at the end of a slice, each shifted by a clock offset. -/
def appendShifted (off : Int) : List Int → List Int → Option (List Int)
  | [], corrected => some corrected
  | l :: rest, corrected => do
      let corrected ← append corrected (int (l + off))
      appendShifted off rest corrected

/-- The samples of the senders, shifted by their clock offsets, in order. -/
def correctedLatencies (s : Stats) (offsets : UInt32 → Int) :
    List UInt32 → List Int → Option (List Int)
  | [], corrected => some corrected
  | id :: rest, corrected => do
      let samples := ((s.bySender.lookup id).map SampleStore.samples).getD []
      let corrected ← appendShifted (offsets id) samples corrected
      correctedLatencies s offsets rest corrected

/-- The corrected intervals, if there is a series. -/
def correctedEvents (sqrt : ℚ → ℚ) (s : Stats) (offsets : UInt32 → Int) : List Event :=
  match s.series with
  | none => []
  | some series => series.corrected sqrt offsets

/-- The senders, in order. -/
def senders (s : Stats) : List UInt32 := sortedKeys s.bySender.keys

/-- The result of the samples of the senders, corrected by their clock offsets, which
are zero for senders that have none. -/
def getResultCorrected (canonical : Histogram) (sqrt : ℚ → ℚ) (s : Stats)
    (offsets : UInt32 → Int) : Option Result :=
  match s.mode with
  | .hdr =>
      (s.correctedHistogram offsets s.senders canonical).map fun agg =>
        { s.resultFromHistogram agg with events := s.correctedEvents sqrt offsets }
  | .exact =>
      (s.correctedLatencies offsets s.senders []).map fun corrected =>
        { s.resultFromSamples corrected with events := s.correctedEvents sqrt offsets }

end Stats

/-! ## The stores of the senders -/

/-- A store holds some samples, in one of the two ways. -/
def SampleStore.Keeps (canonical : Histogram) (mode : StatsMode) (store : SampleStore)
    (samples : List Int) : Prop :=
  match mode with
  | .exact => store = .exact samples
  | .hdr => ∃ hs : HdrStore, store = .hdr hs ∧ hs.Stored canonical samples

/-- What a mode needs to record a sample: a magnitude, or room. -/
def StatsMode.Records (mode : StatsMode) (count : Nat) (ns : Int) : Prop :=
  match mode with
  | .exact => count < maxInt
  | .hdr => -2 ^ 63 < ns

section
variable {canonical : Histogram} {mode : StatsMode}

theorem keeps_newSampleStore (empty : canonical.Tallied []) :
    (newSampleStore canonical mode).Keeps canonical mode [] := by
  cases mode with
  | exact => rfl
  | hdr => exact ⟨_, rfl, HdrStore.stored_new empty⟩

theorem SampleStore.Keeps.add {store : SampleStore} {samples : List Int} {ns : Int}
    (keeps : store.Keeps canonical mode samples) (highest : canonical.highest = hdrHighest)
    (records : mode.Records samples.length ns) :
    ∃ next, store.add ns = some next ∧ next.Keeps canonical mode (samples ++ [ns]) := by
  cases mode with
  | exact =>
      cases keeps
      have room : samples.length < maxInt := records
      refine ⟨.exact (samples ++ [ns]), ?_, rfl⟩
      rw [SampleStore.add, append, if_pos room, Option.map_some]
  | hdr =>
      obtain ⟨hs, rfl, stored⟩ := keeps
      obtain ⟨next, result, nextStored⟩ := stored.add highest records
      refine ⟨.hdr next, ?_, next, rfl, nextStored⟩
      rw [SampleStore.add, result, Option.map_some]

namespace Stats

/-- The samples of the senders, recorded one after another with their receive times. -/
def addAllBySender (canonical : Histogram) (s : Stats)
    (samples : List (Int × UInt32 × Int)) : Option Stats :=
  samples.foldlM (fun s sample =>
    s.addLatencyBySender canonical sample.1 sample.2.1 sample.2.2) s

/-- The stores of the senders hold their samples. -/
structure Holds (canonical : Histogram) (mode : StatsMode) (s : Stats)
    (items : List (UInt32 × Int)) : Prop where
  /-- The samples are kept in the way of the mode. -/
  modeEq : s.mode = mode
  /-- Each sender has its store. -/
  stores : Collected (SampleStore.Keeps canonical mode) s.bySender items

theorem holds_newStats : (newStats canonical mode).Holds canonical mode [] :=
  ⟨rfl, Collected.empty⟩

variable {s : Stats} {items : List (UInt32 × Int)}

theorem length_itemsOf_le (id : UInt32) (items : List (UInt32 × Int)) :
    (itemsOf id items).length ≤ items.length := by
  rw [itemsOf, List.length_map]
  exact List.length_filter_le _ _

/-- One more sample. -/
theorem Holds.add (holds : s.Holds canonical mode items) (empty : canonical.Tallied [])
    (highest : canonical.highest = hdrHighest) (now : Int) (id : UInt32) {ns : Int}
    (records : mode.Records items.length ns) :
    ∃ next, s.addLatencyBySender canonical now id ns = some next ∧
      next.Holds canonical mode (items ++ [(id, ns)]) := by
  have keeps : ((s.bySender.lookup id).getD (newSampleStore canonical s.mode)).Keeps
      canonical mode (itemsOf id items) := by
    rw [holds.modeEq]
    exact holds.stores.getD (keeps_newSampleStore empty) id
  have room : mode.Records (itemsOf id items).length ns := by
    have fewer := length_itemsOf_le id items
    cases mode with
    | exact => exact Nat.lt_of_le_of_lt fewer records
    | hdr => exact records
  obtain ⟨store, result, next⟩ := keeps.add highest room
  unfold addLatencyBySender
  rw [result]
  exact ⟨_, rfl, holds.modeEq, holds.stores.insert next⟩

/-- Any number of samples. -/
theorem Holds.addAll (holds : s.Holds canonical mode items) (empty : canonical.Tallied [])
    (highest : canonical.highest = hdrHighest) {samples : List (Int × UInt32 × Int)}
    (records : ∀ sample ∈ samples, ∀ count < items.length + samples.length,
      mode.Records count sample.2.2) :
    ∃ next, s.addAllBySender canonical samples = some next ∧
      next.Holds canonical mode (items ++ samples.map Prod.snd) := by
  induction samples generalizing s items with
  | nil =>
      refine ⟨s, rfl, ?_⟩
      rw [List.map_nil, List.append_nil]
      exact holds
  | cons sample rest inductionHypothesis =>
      obtain ⟨now, id, ns⟩ := sample
      obtain ⟨next, call, nextHolds⟩ := holds.add empty highest now id
        (records (now, id, ns) List.mem_cons_self items.length (by simp))
      obtain ⟨last, calls, lastHolds⟩ := inductionHypothesis nextHolds (by
        intro other inside count less
        apply records other (List.mem_cons_of_mem _ inside) count
        rw [List.length_append, List.length_singleton] at less
        rw [List.length_cons]
        omega)
      refine ⟨last, ?_, ?_⟩
      · rw [addAllBySender, List.foldlM_cons, call]
        exact calls
      · rw [List.map_cons, List.append_cons]
        exact lastHolds

/-- Reading the senders in order finds every sample once. -/
theorem Holds.perm (holds : s.Holds canonical mode items) :
    (s.senders.flatMap fun id => (itemsOf id items).map fun ns => (id, ns)).Perm items := by
  apply flatMap_itemsOf_perm (nodup_sortedKeys s.bySender.keys)
  intro item inside
  rw [mem_sortedKeys, Finmap.mem_keys, holds.stores.keys]
  exact List.mem_map_of_mem inside

end Stats

end

/-! ## Corrected histograms -/

namespace Histogram

theorem clamp_of_layout {h other : Histogram} (same : other.layout = h.layout) :
    other.clamp = h.clamp := by
  funext delta v
  rw [clamp, clamp, highest_of_layout same]

end Histogram

namespace Stats

variable {canonical : Histogram} {s : Stats} {items : List (UInt32 × Int)}

/-- The buckets of a sender. -/
def senderBuckets (s : Stats) (id : UInt32) : List (Int × UInt64) :=
  match s.bySender.lookup id with
  | some (.hdr hs) => hs.buckets
  | _ => []

theorem correctedHistogram_cons (s : Stats) (offsets : UInt32 → Int) (id : UInt32)
    (rest : List UInt32) (agg : Histogram) :
    s.correctedHistogram offsets (id :: rest) agg =
      (agg.recordPairs (s.senderBuckets id) (offsets id)).bind
        (s.correctedHistogram offsets rest) := by
  rw [correctedHistogram, senderBuckets]
  split <;> rfl

/-- What is recorded for a sender. -/
def recorded (canonical : Histogram) (s : Stats) (offsets : UInt32 → Int) (id : UInt32) :
    List Int :=
  (Histogram.occurrences (s.senderBuckets id)).map (canonical.clamp (offsets id))

/-- The loop records the buckets of each sender. -/
theorem exists_correctedHistogram (s : Stats) (offsets : UInt32 → Int) (ids : List UInt32)
    {agg : Histogram} {values : List Int} (tallied : agg.Tallied values)
    (layout : agg.layout = canonical.layout) (room : 0 ≤ canonical.highest) :
    ∃ result, s.correctedHistogram offsets ids agg = some result ∧
      result.Tallied (values ++ ids.flatMap (s.recorded canonical offsets)) ∧
      result.layout = canonical.layout := by
  induction ids generalizing agg values with
  | nil =>
      refine ⟨agg, rfl, ?_, layout⟩
      rw [List.flatMap_nil, List.append_nil]
      exact tallied
  | cons id rest inductionHypothesis =>
      have highest := Histogram.highest_of_layout layout
      obtain ⟨next, call, nextTallied, nextLayout⟩ :=
        tallied.recordPairs (by omega) (s.senderBuckets id) (offsets id)
      rw [Histogram.clamp_of_layout layout] at nextTallied
      obtain ⟨result, calls, resultTallied, resultLayout⟩ :=
        inductionHypothesis nextTallied (nextLayout.trans layout)
      refine ⟨result, ?_, ?_, resultLayout⟩
      · rw [correctedHistogram_cons, call, Option.bind_some, calls]
      · rw [List.flatMap_cons, ← List.append_assoc]
        exact resultTallied

theorem histogram_resultFromHistogram (s : Stats) (agg : Histogram) :
    (s.resultFromHistogram agg).histogram = agg.snapshot := by
  unfold resultFromHistogram Histogram.snapshot
  dsimp only
  split <;> rfl

theorem totalOps_resultFromHistogram (s : Stats) (agg : Histogram) :
    (s.resultFromHistogram agg).totalOps = agg.totalCount := by
  unfold resultFromHistogram resultWindow
  dsimp only
  split <;> rfl

/-- The corrected result of histograms is that of what is recorded for the senders. -/
theorem Holds.exists_hdrResult (holds : s.Holds canonical .hdr items)
    (empty : canonical.Tallied []) (room : 0 ≤ canonical.highest) (sqrt : ℚ → ℚ)
    (offsets : UInt32 → Int) :
    ∃ (result : Result) (agg : Histogram),
      s.getResultCorrected canonical sqrt offsets = some result ∧
      agg.Tallied (s.senders.flatMap (s.recorded canonical offsets)) ∧
      agg.layout = canonical.layout ∧
      result.histogram = agg.snapshot ∧ result.totalOps = agg.totalCount := by
  obtain ⟨agg, loop, tallied, layout⟩ :=
    s.exists_correctedHistogram offsets s.senders empty rfl room
  rw [List.nil_append] at tallied
  refine ⟨{ s.resultFromHistogram agg with events := s.correctedEvents sqrt offsets }, agg,
    ?_, tallied, layout, s.histogram_resultFromHistogram agg,
    s.totalOps_resultFromHistogram agg⟩
  simp only [getResultCorrected, holds.modeEq, loop, Option.map_some]

/-- The store of a sender in a run with histograms. -/
theorem Holds.exists_store (holds : s.Holds canonical .hdr items) {id : UInt32}
    (inside : id ∈ s.senders) :
    ∃ hs : HdrStore, s.senderBuckets id = hs.buckets ∧
      hs.Stored canonical (itemsOf id items) := by
  rw [senders, mem_sortedKeys, Finmap.mem_keys, Finmap.mem_iff] at inside
  obtain ⟨store, found⟩ := inside
  obtain ⟨hs, rfl, stored⟩ := holds.stores.related id store found
  refine ⟨hs, ?_, stored⟩
  rw [senderBuckets, found]

/-- As much is recorded as there are samples. -/
theorem Holds.length_recorded (holds : s.Holds canonical .hdr items)
    (offsets : UInt32 → Int) :
    UInt64.ofNat (s.senders.flatMap (s.recorded canonical offsets)).length =
      UInt64.ofNat items.length := by
  have each : ∀ ids : List UInt32, (∀ id ∈ ids, id ∈ s.senders) →
      UInt64.ofNat (ids.flatMap (s.recorded canonical offsets)).length =
        UInt64.ofNat (ids.flatMap fun id => (itemsOf id items).map fun ns => (id, ns)).length := by
    intro ids known
    induction ids with
    | nil => rfl
    | cons id rest inductionHypothesis =>
        obtain ⟨hs, buckets, stored⟩ := holds.exists_store (known id List.mem_cons_self)
        have later : ∀ other ∈ rest, other ∈ s.senders := by
          intro other inside
          exact known other (List.mem_cons_of_mem _ inside)
        rw [List.flatMap_cons, List.flatMap_cons, List.length_append, List.length_append,
          UInt64.ofNat_add, UInt64.ofNat_add, inductionHypothesis later, recorded,
          List.length_map, List.length_map, buckets, ← pairTotal_eq,
          stored.pairTotal_buckets, stored.count_eq]
  rw [each s.senders fun _ inside => inside, holds.perm.length_eq]

end Stats

/-! ## Conservation -/

section
variable {canonical : Histogram}

/-- A message has a value for each count. -/
def LatencyHistogram.WellFormed (hist : LatencyHistogram) : Prop :=
  hist.count.length ≤ hist.value.length

/-- Shifting a message keeps its total. -/
theorem totalCount_offsetHistogram (empty : canonical.Tallied [])
    (room : 0 ≤ canonical.highest) {src : LatencyHistogram} (formed : src.WellFormed)
    (delta : Int) :
    ∃ result, offsetHistogram canonical (some src) delta = some result ∧
      totalCount result = totalCount (some src) := by
  obtain ⟨h, _, call, tallied, _, total⟩ :=
    empty.recordPairs_totalCount room src.pairs delta
  refine ⟨h.snapshot, ?_, ?_⟩
  · rw [offsetHistogram, call, Option.map_some]
  · have none : canonical.totalCount = 0 := empty.total
    rw [tallied.totalCount_snapshot, total, none, UInt64.zero_add, totalCount_some formed]

/-- Merging adds up the totals. -/
theorem totalCount_mergeLoop {h : Histogram} {values : List Int} (tallied : h.Tallied values)
    (room : 0 ≤ h.highest) {hists : List (Option LatencyHistogram)}
    (formed : ∀ src, some src ∈ hists → src.WellFormed) :
    ∃ merged others, mergeLoop h hists = some merged ∧ Histogram.Tallied merged others ∧
      merged.totalCount = (hists.map totalCount).foldl (· + ·) h.totalCount := by
  induction hists generalizing h values with
  | nil => exact ⟨h, values, rfl, tallied, rfl⟩
  | cons hist rest inductionHypothesis =>
      have later : ∀ src, some src ∈ rest → src.WellFormed := by
        intro src inside
        exact formed src (List.mem_cons_of_mem _ inside)
      cases hist with
      | none =>
          obtain ⟨merged, others, loop, mergedTallied, total⟩ :=
            inductionHypothesis tallied room later
          refine ⟨merged, others, loop, mergedTallied, ?_⟩
          rw [total, List.map_cons, List.foldl_cons, totalCount, UInt64.add_zero]
      | some src =>
          obtain ⟨next, _, call, nextTallied, layout, nextTotal⟩ :=
            tallied.recordPairs_totalCount room src.pairs 0
          have highest := Histogram.highest_of_layout layout
          obtain ⟨merged, others, loop, mergedTallied, total⟩ :=
            inductionHypothesis nextTallied (by omega) later
          refine ⟨merged, others, ?_, mergedTallied, ?_⟩
          · rw [mergeLoop, call]
            exact loop
          · rw [total, List.map_cons, List.foldl_cons, nextTotal,
              totalCount_some (formed src List.mem_cons_self)]

end

/-- The least integer has no magnitude: its negation is negative, and the error of
recording it is ignored. -/
theorem HdrStore.add_least (store : HdrStore) :
    store.add (-2 ^ 63) = some store := by
  have wrapped : min (int (-(-2 ^ 63))) hdrHighest = -2 ^ 63 := by decide
  rw [HdrStore.add, if_pos (by decide), wrapped, Histogram.recordValue,
    Histogram.recordValueN, if_pos (.inl (by decide))]
  rfl

theorem HdrStore.addAll_filter {samples : List Int}
    (words : ∀ ns ∈ samples, -2 ^ 63 ≤ ns) (store : HdrStore) :
    store.addAll samples = store.addAll (samples.filter (-2 ^ 63 < ·)) := by
  induction samples generalizing store with
  | nil => rfl
  | cons ns rest inductionHypothesis =>
      obtain ⟨word, others⟩ := List.forall_mem_cons.mp words
      unfold HdrStore.addAll at inductionHypothesis ⊢
      rw [List.filter_cons]
      split_ifs with magnitude
      · rw [List.foldlM_cons, List.foldlM_cons]
        exact bind_congr fun next => inductionHypothesis others next
      · obtain rfl : ns = -2 ^ 63 := by
          rw [decide_eq_true_iff] at magnitude
          omega
        rw [List.foldlM_cons, store.add_least]
        exact inductionHypothesis others store

/-- If no sample is the least integer, a store counts all its samples, and so do its
buckets and its snapshot; otherwise it counts too few.  The corrected result of the
senders counts all of their samples, and shifting and merging messages keeps their
totals.  All numbers are those of 64 bits. -/
theorem hdr_conserves_samples (floorLog2 : Int → Int) (exact : floorLog2 1 = 0) :
    ∃ canonical : Histogram,
      (∀ rounds, 63 ≤ rounds →
        newHDRHistogram floorLog2 rounds = .ok (some canonical)) ∧
      (∀ samples : List Int, (∀ ns ∈ samples, -2 ^ 63 < ns ∧ ns < 2 ^ 63) →
        ∃ store, (newHDRStore canonical).addAll samples = some store ∧
          store.count = UInt64.ofNat samples.length ∧
          pairTotal store.buckets = UInt64.ofNat samples.length ∧
          totalCount store.snapshot = UInt64.ofNat samples.length) ∧
      (∀ samples : List Int, (∀ ns ∈ samples, -2 ^ 63 ≤ ns ∧ ns < 2 ^ 63) →
        samples.length < 2 ^ 64 →
        ∃ store, (newHDRStore canonical).addAll samples = some store ∧
          store.count ≤ UInt64.ofNat samples.length ∧
          (store.count = UInt64.ofNat samples.length ↔
            ∀ ns ∈ samples, -2 ^ 63 < ns)) ∧
      (∀ (sqrt : ℚ → ℚ) (samples : List (Int × UInt32 × Int)) (offsets : UInt32 → Int),
        (∀ sample ∈ samples, -2 ^ 63 < sample.2.2 ∧ sample.2.2 < 2 ^ 63) →
        ∃ stats result,
          (newStats canonical .hdr).addAllBySender canonical samples = some stats ∧
          stats.getResultCorrected canonical sqrt offsets = some result ∧
          result.totalOps = UInt64.ofNat samples.length ∧
          totalCount result.histogram = UInt64.ofNat samples.length) ∧
      (∀ (src : LatencyHistogram) (delta : Int), src.WellFormed →
        ∃ result, offsetHistogram canonical (some src) delta = some result ∧
          totalCount result = totalCount (some src)) ∧
      ∀ hists : List (Option LatencyHistogram), (∀ src, some src ∈ hists → src.WellFormed) →
        ∃ result, mergeHistograms canonical hists = some result ∧
          totalCount result = (hists.map totalCount).foldl (· + ·) 0 := by
  obtain ⟨canonical, empty, highest, _, _, result⟩ := exists_newHDRHistogram exact
  have room : 0 ≤ canonical.highest := by omega
  refine ⟨canonical, result, ?_, ?_, ?_, ?_, ?_⟩
  · intro samples bounds
    obtain ⟨store, calls, stored⟩ :=
      (HdrStore.stored_new empty).addAll highest fun ns inside => (bounds ns inside).1
    rw [List.nil_append] at stored
    exact ⟨store, calls, stored.count_eq, stored.pairTotal_buckets.trans stored.count_eq,
      stored.totalCount_snapshot.trans stored.count_eq⟩
  · intro samples words few
    obtain ⟨store, calls, stored⟩ := (HdrStore.stored_new empty).addAll highest
      fun ns inside => of_decide_eq_true (List.mem_filter.mp inside).2
    have fewer := samples.length_filter_le (-2 ^ 63 < ·)
    have number := UInt64.toNat_ofNat_of_lt' few
    have counted : store.count.toNat = (samples.filter (-2 ^ 63 < ·)).length := by
      rw [stored.count_eq, List.nil_append]
      exact UInt64.toNat_ofNat_of_lt' (fewer.trans_lt few)
    refine ⟨store, ?_, ?_, ?_⟩
    · rw [HdrStore.addAll_filter fun ns inside => (words ns inside).1]
      exact calls
    · rw [UInt64.le_iff_toNat_le, counted, number]
      exact fewer
    · rw [← UInt64.toNat_inj, counted, number, List.length_filter_eq_length_iff]
      simp only [decide_eq_true_iff]
  · intro sqrt samples offsets bounds
    have start : (newStats canonical .hdr).Holds canonical .hdr [] := Stats.holds_newStats
    obtain ⟨stats, calls, holds⟩ :=
      start.addAll empty highest fun sample inside _ _ => (bounds sample inside).1
    rw [List.nil_append] at holds
    obtain ⟨corrected, agg, call, tallied, _, histogram, total⟩ :=
      holds.exists_hdrResult empty room sqrt offsets
    have count : agg.totalCount = UInt64.ofNat samples.length := by
      rw [tallied.total, holds.length_recorded, List.length_map]
    refine ⟨stats, corrected, calls, call, total.trans count, ?_⟩
    rw [histogram, tallied.totalCount_snapshot, count]
  · intro src delta formed
    exact totalCount_offsetHistogram empty room formed delta
  · intro hists formed
    obtain ⟨merged, _, loop, tallied, total⟩ := totalCount_mergeLoop empty room formed
    refine ⟨merged.snapshot, ?_, ?_⟩
    · rw [mergeHistograms, loop, Option.map_some]
    · rw [tallied.totalCount_snapshot, total]
      congr 1
      exact empty.total

/-- Three samples, one negative and one above the range. -/
theorem hdr_conserves_three :
    ∃ canonical store, newHDRHistogram exactLog2 63 = .ok (some canonical) ∧
      (newHDRStore canonical).addAll [5, -7, 70000000000] = some store ∧ store.count = 3 := by
  obtain ⟨canonical, result, stores, _⟩ := hdr_conserves_samples exactLog2 rfl
  obtain ⟨store, calls, count, _⟩ := stores [5, -7, 70000000000] (by decide)
  exact ⟨canonical, store, result 63 (Nat.le_refl 63), calls, count⟩

/-- A store that is given the least integer stays empty. -/
theorem hdr_drops_least_integer :
    ∃ canonical store, newHDRHistogram exactLog2 63 = .ok (some canonical) ∧
      (newHDRStore canonical).addAll [-2 ^ 63] = some store ∧ store.count = 0 := by
  obtain ⟨canonical, empty, _, _, _, result⟩ :=
    exists_newHDRHistogram (show exactLog2 1 = 0 from rfl)
  refine ⟨canonical, newHDRStore canonical, result 63 (Nat.le_refl 63), ?_, ?_⟩
  · rw [HdrStore.addAll, List.foldlM_cons, HdrStore.add_least]
    rfl
  · have none : canonical.totalCount = 0 := empty.total
    show canonical.totalCount + canonical.totalCount = 0
    rw [none]
    rfl

end Benchkit
end Gorums
