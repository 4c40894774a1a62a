import Gorums.Benchkit.Stats
import Mathlib.Data.UInt

/-!
# Summaries over a window

A result is summarized without its first part.  The intervals that begin the run are
dropped by the offsets of their events, and the samples by the number of operations of
the dropped intervals.  If each event reports the number of samples of its interval, and
the offsets do not decrease, then what is left are the samples of the kept intervals.
-/

namespace Gorums
namespace Benchkit

open Gorums.MachineInt

/-! ## The source -/

/-- A result over a window. -/
structure Summary where
  /-- The operations in a second. -/
  throughput : ℚ
  /-- The coefficient of variation of the throughputs of the intervals. -/
  cv : ℚ := 0
  /-- Whether there are enough intervals for it. -/
  cvValid : Bool := false
  /-- The samples. -/
  latencies : List Int
  /-- Whether samples are kept. -/
  latencyValid : Bool
  /-- The distribution of the whole run, if samples are not kept. -/
  histogram : Option LatencyHistogram

/-- What the loop over the events adds up. -/
structure Window where
  /-- The operations of the kept intervals. -/
  keptOps : UInt64 := 0
  /-- The nanoseconds of the kept intervals. -/
  keptDurNs : Int := 0
  /-- The operations of the dropped intervals. -/
  cutOps : UInt64 := 0
  /-- The throughputs of the kept intervals. -/
  tputs : List ℚ := []

/-- The operations in a second, of a number of them in some nanoseconds. -/
def perSecond (ops : UInt64) (durationNs : Int) : ℚ :=
  ops.toNat / ((durationNs : ℚ) / 1000000000)

/-- One round of the loop over the events. -/
def Window.add (trimNs : Int) (w : Window) (ev : Event) : Window :=
  match ev.payload with
  | .throughput ops duration =>
      if ev.offset < trimNs then { w with cutOps := w.cutOps + ops }
      else
        { w with
          keptOps := w.keptOps + ops
          keptDurNs := int (w.keptDurNs + duration)
          tputs := if 0 < duration then w.tputs ++ [perSecond ops duration] else w.tputs }
  | .latency .. | .phase .. => w

/-- The summary of a result without its first part, with a function for the coefficient
of variation. -/
def summarize (coeffVar : List ℚ → ℚ) (r : Result) (trim : Int) : Summary :=
  let exact := decide (r.statsMode = .exact)
  let clientMeasured := decide (r.measurementMode = .clientMeasured)
  if r.events.length = 0 then
    { throughput := r.throughput
      latencies := r.latencies
      latencyValid := exact
      histogram := r.histogram }
  else
    let w := r.events.foldl (Window.add trim) {}
    { throughput := if 0 < w.keptDurNs then perSecond w.keptOps w.keptDurNs else r.throughput
      cv := coeffVar w.tputs
      cvValid := 2 ≤ w.tputs.length
      latencies :=
        if clientMeasured && exact && 0 < w.cutOps &&
            w.cutOps ≤ UInt64.ofNat r.latencies.length then
          r.latencies.drop w.cutOps.toNat
        else r.latencies
      latencyValid := exact
      histogram := r.histogram }

/-! ## Intervals and their events -/

/-- The offsets and the operations of the events about throughput. -/
def throughputs (events : List Event) : List (Int × UInt64) :=
  events.filterMap fun ev =>
    match ev.payload with
    | .throughput ops _ => some (ev.offset, ops)
    | .latency .. | .phase .. => none

/-- An interval of a run: the offset of its event, and its samples in order. -/
abbrev Interval := Int × List Int

/-- The samples of intervals, in order. -/
def samplesOf (intervals : List Interval) : List Int := intervals.flatMap Prod.snd

/-- There is an event for each interval, with the number of its samples. -/
def Reports (events : List Event) (intervals : List Interval) : Prop :=
  throughputs events =
    intervals.map fun interval => (interval.1, UInt64.ofNat interval.2.length)

variable {events : List Event} {intervals : List Interval} {trim : Int}

/-- The loop adds up the operations of the dropped intervals. -/
theorem cutOps_foldl (w : Window) :
    (events.foldl (Window.add trim) w).cutOps =
      w.cutOps + (((throughputs events).filter fun p => p.1 < trim).map Prod.snd).sum := by
  induction events generalizing w with
  | nil => simp [throughputs]
  | cons ev events inductionHypothesis =>
      obtain ⟨offset, payload⟩ := ev
      rw [List.foldl_cons, inductionHypothesis]
      cases payload with
      | throughput ops duration =>
          by_cases dropped : offset < trim
          · simp [Window.add, throughputs, dropped, UInt64.add_assoc]
          · simp [Window.add, throughputs, dropped]
      | latency count mean stddev => simp [Window.add, throughputs]
      | phase phase rate => simp [Window.add, throughputs]

/-- A sum of numbers in 64 bits. -/
theorem sum_ofNat (counts : List Nat) :
    (counts.map UInt64.ofNat).sum = UInt64.ofNat counts.sum := by
  induction counts with
  | nil => rfl
  | cons count counts inductionHypothesis =>
      rw [List.map_cons, List.sum_cons, List.sum_cons, inductionHypothesis, UInt64.ofNat_add]

/-- The length of a slice fits in 64 bits. -/
theorem toNat_ofNat_length {length : Nat} (room : length ≤ maxInt) :
    (UInt64.ofNat length).toNat = length := by
  apply UInt64.toNat_ofNat_of_lt'
  exact Nat.lt_of_le_of_lt room (by decide)

theorem length_samplesOf (intervals : List Interval) :
    (samplesOf intervals).length = (intervals.map fun interval => interval.2.length).sum := by
  rw [samplesOf, List.length_flatMap]

theorem samplesOf_append (front back : List Interval) :
    samplesOf (front ++ back) = samplesOf front ++ samplesOf back :=
  List.flatMap_append

/-- The operations of the dropped intervals are their samples. -/
theorem Reports.cutOps_eq (reports : Reports events intervals) :
    (events.foldl (Window.add trim) {}).cutOps =
      UInt64.ofNat (samplesOf (intervals.filter fun interval => interval.1 < trim)).length := by
  rw [cutOps_foldl, reports, List.filter_map, List.map_map, length_samplesOf, ← sum_ofNat,
    List.map_map]
  exact UInt64.zero_add _

/-- The operations of all intervals are all samples. -/
theorem Reports.sum_ops (reports : Reports events intervals)
    (room : (samplesOf intervals).length ≤ maxInt) :
    ((throughputs events).map fun p => p.2.toNat).sum = (samplesOf intervals).length := by
  rw [reports, List.map_map, length_samplesOf]
  congr 1
  apply List.map_congr_left
  intro interval member
  have part : interval.2.length ≤ (samplesOf intervals).length := by
    rw [length_samplesOf]
    exact List.le_sum_of_mem (List.mem_map_of_mem member)
  exact toNat_ofNat_length (Nat.le_trans part room)

/-- The intervals have the offsets of their events. -/
theorem Reports.ordered (reports : Reports events intervals)
    (ordered : ((throughputs events).map Prod.fst).Pairwise (· ≤ ·)) :
    intervals.Pairwise fun a b => a.1 ≤ b.1 := by
  rw [reports, List.map_map] at ordered
  exact List.pairwise_map.mp ordered

/-- Offsets that do not decrease split the intervals in two. -/
theorem dropped_append_kept (trim : Int)
    (ordered : intervals.Pairwise fun a b => a.1 ≤ b.1) :
    (intervals.filter fun interval => interval.1 < trim) ++
      (intervals.filter fun interval => trim ≤ interval.1) = intervals := by
  induction intervals with
  | nil => rfl
  | cons interval intervals inductionHypothesis =>
      obtain ⟨first, rest⟩ := List.pairwise_cons.mp ordered
      by_cases dropped : interval.1 < trim
      · simp only [List.filter_cons, dropped, Int.not_le.mpr dropped, decide_true, decide_false,
          if_true, Bool.false_eq_true, if_false, List.cons_append, inductionHypothesis rest]
      · -- all later intervals are kept as well
        have kept := Int.not_lt.mp dropped
        have none : (intervals.filter fun interval => interval.1 < trim) = [] := by
          apply List.filter_eq_nil_iff.mpr
          intro later member
          have := first later member
          simp only [decide_eq_true_eq]
          omega
        have all : (intervals.filter fun interval => trim ≤ interval.1) = intervals := by
          apply List.filter_eq_self.mpr
          intro later member
          have := first later member
          simp only [decide_eq_true_eq]
          omega
        simp only [List.filter_cons, dropped, kept, decide_true, decide_false, if_true,
          Bool.false_eq_true, if_false, none, all, List.nil_append]

/-- The samples without those of the dropped intervals are those of the kept ones. -/
theorem drop_samplesOf (ordered : intervals.Pairwise fun a b => a.1 ≤ b.1) :
    (samplesOf intervals).drop
        (samplesOf (intervals.filter fun interval => interval.1 < trim)).length =
      samplesOf (intervals.filter fun interval => trim ≤ interval.1) := by
  have split : samplesOf intervals =
      samplesOf (intervals.filter fun interval => interval.1 < trim) ++
        samplesOf (intervals.filter fun interval => trim ≤ interval.1) := by
    rw [← samplesOf_append, dropped_append_kept trim ordered]
  rw [split, List.drop_left]

theorem length_dropped_le (trim : Int) (intervals : List Interval) :
    (samplesOf (intervals.filter fun interval => interval.1 < trim)).length ≤
      (samplesOf intervals).length :=
  (List.filter_sublist.flatMap Prod.snd).length_le

/-- The samples that a summary keeps are those of the kept intervals. -/
theorem Reports.latencies_summarize {r : Result} (reports : Reports r.events intervals)
    (coeffVar : List ℚ → ℚ) (trim : Int)
    (exact : r.statsMode = .exact) (client : r.measurementMode = .clientMeasured)
    (some : r.events ≠ []) (samples : r.latencies = samplesOf intervals)
    (room : (samplesOf intervals).length ≤ maxInt)
    (ordered : intervals.Pairwise fun a b => a.1 ≤ b.1) :
    (summarize coeffVar r trim).latencies =
      samplesOf (intervals.filter fun interval => trim ≤ interval.1) := by
  rw [← drop_samplesOf ordered]
  have fewer := length_dropped_le trim intervals
  unfold summarize
  rw [if_neg (mt List.length_eq_zero_iff.mp some)]
  simp only [reports.cutOps_eq, samples, exact, client, decide_true, Bool.true_and]
  generalize (samplesOf (intervals.filter fun interval => interval.1 < trim)).length = cut at fewer
  have cutEq : (UInt64.ofNat cut).toNat = cut := toNat_ofNat_length (Nat.le_trans fewer room)
  split
  · rw [cutEq]
  · -- without a cut no sample is dropped
    rename_i uncut
    have below : UInt64.ofNat cut ≤ UInt64.ofNat (samplesOf intervals).length := by
      rw [UInt64.le_iff_toNat_le, cutEq, toNat_ofNat_length room]
      exact fewer
    have zero : cut = 0 := by
      simp only [below, decide_true, Bool.and_true, decide_eq_true_eq, UInt64.lt_iff_toNat_lt,
        cutEq] at uncut
      exact Nat.eq_zero_of_not_pos uncut
    rw [zero, List.drop_zero]

end Benchkit
end Gorums
