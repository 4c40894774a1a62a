import Gorums.Benchkit.Dispersion
import Gorums.Benchkit.Keyed
import Gorums.MachineInt
import Mathlib.Data.Rat.Cast.CharZero

/-!
# Moments of latencies

The count, the mean and the sum of the squared deviations of samples are kept one
sample at a time, for each sender and each interval of receive time.  A correction of
the senders' clocks shifts the means and merges the moments of an interval.  With
rational numbers for the floating-point ones, the result is that of all the shifted
samples at once.
-/

namespace Gorums
namespace Benchkit

open Gorums.MachineInt Gorums.Dispersion Gorums.Keyed

/-! ## The source -/

/-- The moments of some samples. -/
@[ext] structure LatencyMoments where
  /-- The number of samples. -/
  count : UInt64 := 0
  /-- The mean of the samples. -/
  mean : ℚ := 0
  /-- The sum of the squared deviations of the samples from their mean. -/
  m2 : ℚ := 0

/-- The phases of a run. -/
inductive Phase
  | start
  | rateStep
  | stop

/-- What an event reports. -/
inductive Payload
  /-- The operations of an interval and its duration. -/
  | throughput (ops : UInt64) (duration : Int)
  /-- The number of samples of an interval, their mean and their standard deviation. -/
  | latency (count : UInt64) (mean stddev : ℚ)
  /-- A phase of the run that begins, with the target rate. -/
  | phase (phase : Phase) (rate : Int)

/-- An event of a run. -/
structure Event where
  /-- The nanoseconds since the start of the run. -/
  offset : Int
  /-- What is reported. -/
  payload : Payload

namespace LatencyMoments

/-- Add a sample. -/
def add (m : LatencyMoments) (ns : Int) : LatencyMoments :=
  let count := m.count + 1
  let delta := ns - m.mean
  -- a count that wraps around to zero makes the mean an infinity in Go
  let mean := m.mean + delta / count.toNat
  { count := count
    mean := mean
    m2 := m.m2 + delta * (ns - mean) }

/-- Merge the moments of other samples. -/
def merge (m other : LatencyMoments) : LatencyMoments :=
  if other.count = 0 then m
  else if m.count = 0 then other
  else
    let count := m.count + other.count
    let delta := other.mean - m.mean
    { count := count
      mean := m.mean + delta * other.count.toNat / count.toNat
      m2 := m.m2 + (other.m2 +
        delta * delta * m.count.toNat * other.count.toNat / count.toNat) }

/-- Correct the mean by a clock offset. -/
def shift (m : LatencyMoments) (offset : Int) : LatencyMoments :=
  { m with mean := m.mean + offset }

/-- The standard deviation of the samples, with a function for square roots. -/
def stddev (sqrt : ℚ → ℚ) (m : LatencyMoments) : ℚ :=
  if 1 < m.count then sqrt (m.m2 / (m.count - 1).toNat) else 0

/-- The event that reports the moments. -/
def event (sqrt : ℚ → ℚ) (m : LatencyMoments) (offset : Int) : Event :=
  ⟨offset, .latency m.count m.mean (m.stddev sqrt)⟩

end LatencyMoments

/-- The moments of the samples of each sender. -/
abbrev BySender := Finmap fun _ : UInt32 => LatencyMoments

/-- The moments of samples by receive time and sender. -/
structure LatencySeries where
  /-- When the run was started. -/
  start : Int
  /-- The length of an interval. -/
  interval : Int
  /-- The moments of an interval, under its exclusive upper bound. -/
  buckets : Finmap fun _ : Int => BySender

/-- The distance of two times, which saturates. -/
def timeSub (now start : Int) : Int := max (-2 ^ 63) (min (now - start) maxInt)

/-- A duration rounded toward zero to a multiple of another. -/
def truncate (duration multiple : Int) : Int :=
  if multiple ≤ 0 then duration else duration - duration.tmod multiple

/-- The keys of a map of senders, in order. -/
def sortedKeys (ids : Finset UInt32) : List UInt32 := ids.sort (· ≤ ·)

/-- The moments of all samples of an interval, corrected by the clock offset of each
sender, which is zero for senders that have none. -/
def correctedMoments (offsets : UInt32 → Int) (bySender : BySender) : LatencyMoments :=
  (sortedKeys bySender.keys).foldl
    (fun merged id => merged.merge (((bySender.lookup id).getD {}).shift (offsets id))) {}

/-- The series of a run that was started. -/
def newSeries (start interval : Int) : LatencySeries := ⟨start, interval, ∅⟩

namespace LatencySeries

/-- The upper bound of the interval of a receive time, unless it is before the start. -/
def bucketEnd (s : LatencySeries) (now : Int) : Option Int :=
  let offset := timeSub now s.start
  if offset < 0 then none
  else some (int (truncate offset s.interval + s.interval))

/-- Add a sample of a sender. -/
def add (s : LatencySeries) (now : Int) (sender : UInt32) (ns : Int) : LatencySeries :=
  match s.bucketEnd now with
  | none => s
  | some upper =>
      let bySender := (s.buckets.lookup upper).getD ∅
      let m := (bySender.lookup sender).getD {}
      { s with buckets := s.buckets.insert upper (bySender.insert sender (m.add ns)) }

/-- The upper bounds of the intervals, in order. -/
def uppers (s : LatencySeries) : List Int := s.buckets.keys.sort (· ≤ ·)

/-- The corrected moments of each interval, as events. -/
def corrected (sqrt : ℚ → ℚ) (s : LatencySeries) (offsets : UInt32 → Int) : List Event :=
  s.uppers.map fun upper =>
    (correctedMoments offsets ((s.buckets.lookup upper).getD ∅)).event sqrt upper

end LatencySeries

/-! ## The moments of samples -/

namespace LatencyMoments

variable {m other : LatencyMoments} {values others : Multiset ℚ}

/-- The moments are those of some values.  No values have no mean. -/
structure Describes (m : LatencyMoments) (values : Multiset ℚ) : Prop where
  /-- The count is the number of values. -/
  count : m.count.toNat = values.card
  /-- The mean is theirs. -/
  mean : values ≠ 0 → m.mean = Dispersion.mean values
  /-- The squared deviations are theirs. -/
  m2 : m.m2 = squares values

theorem Describes.empty : Describes {} 0 := by
  refine ⟨rfl, ?_, ?_⟩
  · intro some
    exact absurd rfl some
  · exact squares_zero.symm

theorem Describes.count_eq_zero (describes : m.Describes values) :
    m.count = 0 ↔ values = 0 := by
  rw [← Multiset.card_eq_zero, ← describes.count, ← UInt64.toNat_inj]
  rfl

/-- A sample more, as long as the count does not wrap around. -/
theorem Describes.add (describes : m.Describes values) (few : values.card + 1 < 2 ^ 64)
    (ns : Int) : (m.add ns).Describes ((ns : ℚ) ::ₘ values) := by
  have count : (m.count + 1).toNat = values.card + 1 := by
    rw [UInt64.toNat_add, describes.count]
    exact Nat.mod_eq_of_lt few
  have mean : (m.add ns).mean = Dispersion.mean ((ns : ℚ) ::ₘ values) := by
    show m.mean + (ns - m.mean) / ((m.count + 1).toNat : ℚ) = _
    rw [count, Nat.cast_add, Nat.cast_one]
    by_cases none : values = 0
    · -- the first sample replaces the mean, whatever it was
      simp [none]
    · rw [describes.mean none, mean_cons]
  refine ⟨?_, fun _ => mean, ?_⟩
  · rw [Multiset.card_cons]
    exact count
  · have m2 : (m.add ns).m2 = m.m2 + (ns - m.mean) * (ns - (m.add ns).mean) := rfl
    rw [m2, mean, describes.m2]
    by_cases none : values = 0
    · simp [none]
    · rw [describes.mean none, squares_cons]

/-- A merge joins the samples, as long as the count does not wrap around. -/
theorem Describes.merge (first : m.Describes values) (second : other.Describes others)
    (few : values.card + others.card < 2 ^ 64) :
    (m.merge other).Describes (values + others) := by
  unfold LatencyMoments.merge
  split
  · rename_i none
    rw [second.count_eq_zero.mp none, add_zero]
    exact first
  split
  · rename_i _ none
    rw [first.count_eq_zero.mp none, zero_add]
    exact second
  rename_i someOther someFirst
  rw [second.count_eq_zero] at someOther
  rw [first.count_eq_zero] at someFirst
  have count : (m.count + other.count).toNat = values.card + others.card := by
    rw [UInt64.toNat_add, first.count, second.count]
    exact Nat.mod_eq_of_lt few
  refine ⟨?_, ?_, ?_⟩
  · rw [Multiset.card_add]
    exact count
  · intro _
    dsimp only
    rw [count, first.mean someFirst, second.mean someOther, second.count,
      mean_add someFirst someOther, Nat.cast_add]
  · dsimp only
    rw [count, first.mean someFirst, second.mean someOther, first.count, second.count,
      first.m2, second.m2, squares_add someFirst someOther, Nat.cast_add]

/-- A shift of the mean is that of the samples. -/
theorem Describes.shift (describes : m.Describes values) (offset : Int) :
    (m.shift offset).Describes (values.map fun value => value + offset) := by
  refine ⟨?_, ?_, ?_⟩
  · rw [Multiset.card_map]
    exact describes.count
  · intro some
    have someValues : values ≠ 0 := mt Multiset.map_eq_zero.mpr some
    rw [mean_map_add someValues, ← describes.mean someValues]
    rfl
  · rw [squares_map_add]
    exact describes.m2

end LatencyMoments

/-! ## Groupings of merges -/

/-- A grouping of merges of the corrected moments of senders. -/
inductive Merging
  /-- The samples of a sender, corrected by its clock offset. -/
  | sender (samples : List Int) (offset : Int)
  /-- A merge. -/
  | merged (first second : Merging)

/-- The moments that a grouping gives. -/
def Merging.moments : Merging → LatencyMoments
  | .sender samples offset => (samples.foldl LatencyMoments.add {}).shift offset
  | .merged first second => first.moments.merge second.moments

/-- The corrected samples of a sender. -/
def correctedSamples (samples : List Int) (offset : Int) : Multiset ℚ :=
  (samples : Multiset Int).map fun ns : Int => (ns : ℚ) + offset

/-- The corrected samples of a grouping. -/
def Merging.samples : Merging → Multiset ℚ
  | .sender samples offset => correctedSamples samples offset
  | .merged first second => first.samples + second.samples

namespace LatencyMoments

/-- Samples that are added one after another. -/
theorem Describes.foldl_add {m : LatencyMoments} {values : Multiset ℚ}
    (describes : m.Describes values) (samples : List Int)
    (few : values.card + samples.length < 2 ^ 64) :
    (samples.foldl LatencyMoments.add m).Describes
      (values + (samples : Multiset Int).map fun ns : Int => (ns : ℚ)) := by
  induction samples generalizing m values with
  | nil => simpa using describes
  | cons ns rest inductionHypothesis =>
      rw [List.length_cons] at few
      have next := inductionHypothesis (describes.add (by omega) ns)
        (by rw [Multiset.card_cons]; omega)
      rw [List.foldl_cons, ← Multiset.cons_coe, Multiset.map_cons, Multiset.add_cons,
        ← Multiset.cons_add]
      exact next

theorem Describes.sender {samples : List Int} (few : samples.length < 2 ^ 64)
    (offset : Int) :
    ((samples.foldl LatencyMoments.add {}).shift offset).Describes
      (correctedSamples samples offset) := by
  have added := Describes.empty.foldl_add samples (by simpa using few)
  have shifted := added.shift offset
  rw [zero_add, Multiset.map_map] at shifted
  exact shifted

end LatencyMoments

theorem Merging.describes (merging : Merging) (few : merging.samples.card < 2 ^ 64) :
    merging.moments.Describes merging.samples := by
  induction merging with
  | sender samples offset =>
      apply LatencyMoments.Describes.sender
      rwa [Merging.samples, correctedSamples, Multiset.card_map] at few
  | merged first second firstHypothesis secondHypothesis =>
      rw [samples, Multiset.card_add] at few
      exact (firstHypothesis (by omega)).merge (secondHypothesis (by omega)) few

/-! ## Merging in any order -/

namespace LatencyMoments

variable {m other third : LatencyMoments}

theorem merge_of_count_eq_zero (none : other.count = 0) : m.merge other = m :=
  if_pos none

theorem zero_merge (none : m.count = 0) (some : other.count ≠ 0) : m.merge other = other := by
  rw [merge, if_neg some, if_pos none]

theorem toNat_add_of_lt {x y : UInt64} (few : x.toNat + y.toNat < 2 ^ 64) :
    (x + y).toNat = x.toNat + y.toNat := by
  rw [UInt64.toNat_add]
  exact Nat.mod_eq_of_lt few

/-- The count of a merge. -/
theorem count_merge (m other : LatencyMoments) :
    (m.merge other).count = m.count + other.count := by
  unfold merge
  split
  · rename_i none
    rw [none, UInt64.add_zero]
  split
  · rename_i none
    rw [none, UInt64.zero_add]
  · rfl

theorem toNat_count_ne_zero (some : m.count ≠ 0) : m.count.toNat ≠ 0 :=
  fun zero => some (UInt64.toNat_inj.mp zero)

theorem cast_add_ne_zero (some : m.count ≠ 0) (more : ℕ) :
    (m.count.toNat + more : ℚ) ≠ 0 := by
  have positive := toNat_count_ne_zero some
  rw [← Nat.cast_add, Nat.cast_ne_zero]
  omega

theorem toNat_count_merge (few : m.count.toNat + other.count.toNat < 2 ^ 64) :
    (m.merge other).count.toNat = m.count.toNat + other.count.toNat := by
  rw [count_merge, toNat_add_of_lt few]

theorem count_merge_ne_zero (some : m.count ≠ 0)
    (few : m.count.toNat + other.count.toNat < 2 ^ 64) : (m.merge other).count ≠ 0 := by
  intro zero
  have total := toNat_count_merge few
  rw [zero] at total
  have positive := toNat_count_ne_zero some
  have : (0 : UInt64).toNat = 0 := rfl
  omega

section
variable (some : m.count ≠ 0) (someOther : other.count ≠ 0)
  (few : m.count.toNat + other.count.toNat < 2 ^ 64)
include some someOther few

/-- The mean of a merge weighs the two means. -/
theorem mean_merge : (m.merge other).mean =
    (m.count.toNat * m.mean + other.count.toNat * other.mean) /
      (m.count.toNat + other.count.toNat) := by
  have total := cast_add_ne_zero some other.count.toNat
  rw [merge, if_neg someOther, if_neg some]
  dsimp only
  rw [toNat_add_of_lt few, Nat.cast_add]
  field_simp
  ring

/-- The squared deviations of a merge. -/
theorem m2_merge : (m.merge other).m2 =
    m.m2 + other.m2 + (other.mean - m.mean) ^ 2 * m.count.toNat * other.count.toNat /
      (m.count.toNat + other.count.toNat) := by
  rw [merge, if_neg someOther, if_neg some]
  dsimp only
  rw [toNat_add_of_lt few, Nat.cast_add]
  ring

end

/-- Which of two moments is merged into the other does not matter, unless neither has
a sample. -/
theorem merge_comm (few : m.count.toNat + other.count.toNat < 2 ^ 64)
    (some : m.count ≠ 0 ∨ other.count ≠ 0) : m.merge other = other.merge m := by
  by_cases noneFirst : m.count = 0
  · rcases some with someFirst | someOther
    · exact absurd noneFirst someFirst
    · rw [zero_merge noneFirst someOther, merge_of_count_eq_zero noneFirst]
  by_cases noneOther : other.count = 0
  · rw [zero_merge noneOther noneFirst, merge_of_count_eq_zero noneOther]
  have fewSwapped : other.count.toNat + m.count.toNat < 2 ^ 64 := by omega
  apply LatencyMoments.ext
  · rw [count_merge, count_merge, UInt64.add_comm]
  · rw [mean_merge noneFirst noneOther few, mean_merge noneOther noneFirst fewSwapped]
    congr 1 <;> ring
  · rw [m2_merge noneFirst noneOther few, m2_merge noneOther noneFirst fewSwapped]
    ring

/-- Neither does the grouping of three. -/
theorem merge_assoc
    (few : m.count.toNat + other.count.toNat + third.count.toNat < 2 ^ 64) :
    (m.merge other).merge third = m.merge (other.merge third) := by
  by_cases noneThird : third.count = 0
  · rw [merge_of_count_eq_zero noneThird, merge_of_count_eq_zero noneThird]
  by_cases noneOther : other.count = 0
  · rw [merge_of_count_eq_zero noneOther, zero_merge noneOther noneThird]
  have fewFirst : m.count.toNat + other.count.toNat < 2 ^ 64 := by omega
  have fewLast : other.count.toNat + third.count.toNat < 2 ^ 64 := by omega
  have countFirst := toNat_count_merge fewFirst
  have countLast := toNat_count_merge fewLast
  have someLast : (other.merge third).count ≠ 0 := count_merge_ne_zero noneOther fewLast
  by_cases noneFirst : m.count = 0
  · rw [zero_merge noneFirst noneOther, zero_merge noneFirst someLast]
  have someFirst : (m.merge other).count ≠ 0 := count_merge_ne_zero noneFirst fewFirst
  have first := cast_add_ne_zero noneFirst other.count.toNat
  have last := cast_add_ne_zero noneOther third.count.toNat
  have total := cast_add_ne_zero noneFirst (other.count.toNat + third.count.toNat)
  rw [Nat.cast_add] at total
  have grouped := total
  rw [← add_assoc] at grouped
  apply LatencyMoments.ext
  · rw [count_merge, count_merge, count_merge, count_merge, UInt64.add_assoc]
  · rw [mean_merge someFirst noneThird (by omega), mean_merge noneFirst someLast (by omega),
      countFirst, countLast, mean_merge noneFirst noneOther fewFirst,
      mean_merge noneOther noneThird fewLast]
    push_cast
    field_simp
    ring
  · rw [m2_merge someFirst noneThird (by omega), m2_merge noneFirst someLast (by omega),
      countFirst, countLast, m2_merge noneFirst noneOther fewFirst,
      m2_merge noneOther noneThird fewLast, mean_merge noneFirst noneOther fewFirst,
      mean_merge noneOther noneThird fewLast]
    push_cast
    field_simp
    ring

end LatencyMoments

/-! ## The series -/

/-- The corrected samples of several senders. -/
def shiftedSamples (offsets : UInt32 → Int) (items : List (UInt32 × Int)) : Multiset ℚ :=
  (items : Multiset (UInt32 × Int)).map fun item => (item.2 : ℚ) + offsets item.1

theorem sum_correctedSamples (offsets : UInt32 → Int) (items : List (UInt32 × Int))
    (ids : List UInt32) :
    (ids.map fun id => correctedSamples (itemsOf id items) (offsets id)).sum =
      shiftedSamples offsets
        (ids.flatMap fun id => (itemsOf id items).map fun ns => (id, ns)) := by
  induction ids with
  | nil => rfl
  | cons id rest inductionHypothesis =>
      rw [List.map_cons, List.sum_cons, inductionHypothesis, List.flatMap_cons,
        shiftedSamples, shiftedSamples, ← Multiset.coe_add, Multiset.map_add]
      congr 1
      rw [correctedSamples, Multiset.map_coe, Multiset.map_coe, List.map_map]
      rfl

/-- The loop over the senders merges the corrected samples of all of them. -/
theorem LatencyMoments.Describes.foldl_merge (offsets : UInt32 → Int)
    (samplesOf : UInt32 → List Int) (ids : List UInt32) {m : LatencyMoments}
    {values : Multiset ℚ} (describes : m.Describes values)
    (few : values.card +
      (ids.map fun id => correctedSamples (samplesOf id) (offsets id)).sum.card < 2 ^ 64) :
    (ids.foldl (fun merged id =>
        merged.merge (((samplesOf id).foldl LatencyMoments.add {}).shift (offsets id))) m).Describes
      (values + (ids.map fun id => correctedSamples (samplesOf id) (offsets id)).sum) := by
  induction ids generalizing m values with
  | nil => simpa using describes
  | cons id rest inductionHypothesis =>
      rw [List.map_cons, List.sum_cons, Multiset.card_add] at few
      have length : (correctedSamples (samplesOf id) (offsets id)).card =
          (samplesOf id).length := Multiset.card_map _ _
      have sender := LatencyMoments.Describes.sender
        (show (samplesOf id).length < 2 ^ 64 by omega) (offsets id)
      have next := inductionHypothesis (describes.merge sender (by omega))
        (by rw [Multiset.card_add]; omega)
      rw [List.foldl_cons, List.map_cons, List.sum_cons, ← add_assoc]
      exact next

theorem nodup_sortedKeys (ids : Finset UInt32) : (sortedKeys ids).Nodup :=
  Finset.sort_nodup ids (· ≤ ·)

theorem mem_sortedKeys {ids : Finset UInt32} {id : UInt32} :
    id ∈ sortedKeys ids ↔ id ∈ ids :=
  Finset.mem_sort (· ≤ ·)

/-- The moments of a sender come from its samples. -/
def SenderMoments : BySender → List (UInt32 × Int) → Prop :=
  Collected fun m samples => m = samples.foldl LatencyMoments.add {}

/-- The corrected moments of an interval are those of its corrected samples. -/
theorem SenderMoments.describes {bySender : BySender} {items : List (UInt32 × Int)}
    (collected : SenderMoments bySender items) (offsets : UInt32 → Int)
    (few : items.length < 2 ^ 64) :
    (correctedMoments offsets bySender).Describes (shiftedSamples offsets items) := by
  have values : ∀ id,
      (bySender.lookup id).getD {} = (itemsOf id items).foldl LatencyMoments.add {} :=
    collected.getD rfl
  have all : ∀ item ∈ items, item.1 ∈ sortedKeys bySender.keys := by
    intro item inside
    rw [mem_sortedKeys, Finmap.mem_keys, collected.keys]
    exact List.mem_map_of_mem inside
  have perm := flatMap_itemsOf_perm (nodup_sortedKeys bySender.keys) all
  have samples : ((sortedKeys bySender.keys).map fun id =>
      correctedSamples (itemsOf id items) (offsets id)).sum = shiftedSamples offsets items := by
    rw [sum_correctedSamples, shiftedSamples, Multiset.coe_eq_coe.mpr perm, shiftedSamples]
  have merged := LatencyMoments.Describes.foldl_merge offsets
    (fun id => itemsOf id items) (sortedKeys bySender.keys) LatencyMoments.Describes.empty
  rw [samples, Multiset.card_zero, Nat.zero_add, zero_add, shiftedSamples,
    Multiset.card_map, Multiset.coe_card] at merged
  simp only [correctedMoments, values]
  exact merged few

namespace LatencySeries

/-- The series after samples with their receive times and senders. -/
def run (s : LatencySeries) (samples : List (Int × UInt32 × Int)) : LatencySeries :=
  samples.foldl (fun s sample => s.add sample.1 sample.2.1 sample.2.2) s

/-- The samples that fall into an interval, with its upper bound. -/
def bucketed (s : LatencySeries) (samples : List (Int × UInt32 × Int)) :
    List (Int × UInt32 × Int) :=
  samples.filterMap fun sample => (s.bucketEnd sample.1).map fun upper => (upper, sample.2)

variable {s : LatencySeries} {items : List (Int × UInt32 × Int)}

/-- The intervals hold the moments of their samples. -/
def Holds (s : LatencySeries) (items : List (Int × UInt32 × Int)) : Prop :=
  Collected SenderMoments s.buckets items

theorem bucketEnd_add (now : Int) (sender : UInt32) (ns later : Int) :
    (s.add now sender ns).bucketEnd later = s.bucketEnd later := by
  unfold add
  split <;> rfl

/-- One more sample. -/
theorem Holds.add (holds : s.Holds items) (now : Int) (sender : UInt32) (ns : Int) :
    (s.add now sender ns).Holds (items ++ s.bucketed [(now, sender, ns)]) := by
  unfold LatencySeries.add bucketed
  cases found : s.bucketEnd now with
  | none =>
      simp only [List.filterMap_cons, found, Option.map_none, List.filterMap_nil,
        List.append_nil]
      exact holds
  | some upper =>
      simp only [List.filterMap_cons, found, Option.map_some, List.filterMap_nil]
      apply Collected.insert holds
      have inner : SenderMoments ((s.buckets.lookup upper).getD ∅) (itemsOf upper items) :=
        holds.getD Collected.empty upper
      apply Collected.insert inner
      have moments : (((s.buckets.lookup upper).getD ∅).lookup sender).getD {} =
          (itemsOf sender (itemsOf upper items)).foldl LatencyMoments.add {} :=
        inner.getD rfl sender
      rw [moments, List.foldl_append, List.foldl_cons, List.foldl_nil]

/-- Any number of samples. -/
theorem Holds.run (holds : s.Holds items) (samples : List (Int × UInt32 × Int)) :
    (s.run samples).Holds (items ++ s.bucketed samples) := by
  induction samples generalizing s items with
  | nil =>
      rw [bucketed, List.filterMap_nil, List.append_nil]
      exact holds
  | cons sample rest inductionHypothesis =>
      obtain ⟨now, sender, ns⟩ := sample
      have next := inductionHypothesis (holds.add now sender ns)
      have same : (s.add now sender ns).bucketed rest = s.bucketed rest := by
        unfold bucketed
        simp only [bucketEnd_add]
      have split : s.bucketed ((now, sender, ns) :: rest) =
          s.bucketed [(now, sender, ns)] ++ s.bucketed rest := by
        rw [← List.singleton_append, bucketed, List.filterMap_append]
        rfl
      rw [same, List.append_assoc, ← split] at next
      exact next

end LatencySeries

/-- The moments of values. -/
def LatencyMoments.ofValues (values : Multiset ℚ) : LatencyMoments :=
  ⟨UInt64.ofNat values.card, Dispersion.mean values, squares values⟩

theorem LatencyMoments.Describes.eq_ofValues {m : LatencyMoments} {values : Multiset ℚ}
    (describes : m.Describes values) (some : values ≠ 0) :
    m = LatencyMoments.ofValues values := by
  apply LatencyMoments.ext
  · rw [ofValues, ← describes.count, UInt64.ofNat_toNat]
  · exact describes.mean some
  · exact describes.m2

/-- The corrected events of a series report, interval by interval, the moments of all
the corrected samples of the interval. -/
theorem LatencySeries.Holds.corrected_eq {s : LatencySeries}
    {items : List (Int × UInt32 × Int)} (holds : s.Holds items) (sqrt : ℚ → ℚ)
    (offsets : UInt32 → Int) (few : items.length < 2 ^ 64) :
    s.corrected sqrt offsets = s.uppers.map fun upper =>
      (LatencyMoments.ofValues (shiftedSamples offsets (itemsOf upper items))).event
        sqrt upper := by
  unfold corrected
  apply List.map_congr_left
  intro upper inside
  rw [uppers, Finset.mem_sort, Finmap.mem_keys, holds.keys] at inside
  have inner : SenderMoments ((s.buckets.lookup upper).getD ∅) (itemsOf upper items) :=
    holds.getD Collected.empty upper
  have fewer : (itemsOf upper items).length < 2 ^ 64 := by
    refine Nat.lt_of_le_of_lt ?_ few
    rw [itemsOf, List.length_map]
    exact List.length_filter_le _ _
  have describes := inner.describes offsets fewer
  rw [describes.eq_ofValues]
  intro none
  rw [shiftedSamples, Multiset.map_eq_zero, Multiset.coe_eq_zero] at none
  exact itemsOf_ne_nil inside none

/-- So do the events of a run, in the order of the intervals that have samples. -/
theorem LatencySeries.run_corrected (sqrt : ℚ → ℚ) (start interval : Int)
    {samples : List (Int × UInt32 × Int)} (offsets : UInt32 → Int)
    (few : samples.length < 2 ^ 64) :
    ∃ uppers : List Int, uppers.Pairwise (· < ·) ∧
      (∀ upper, upper ∈ uppers ↔
        ∃ sample ∈ samples, (newSeries start interval).bucketEnd sample.1 = some upper) ∧
      ((newSeries start interval).run samples).corrected sqrt offsets =
        uppers.map fun upper => (LatencyMoments.ofValues (shiftedSamples offsets
          (itemsOf upper ((newSeries start interval).bucketed samples)))).event sqrt upper := by
  have empty : (newSeries start interval).Holds [] := Collected.empty
  have holds := empty.run samples
  rw [List.nil_append] at holds
  refine ⟨_, ?_, ?_, holds.corrected_eq sqrt offsets ?_⟩
  · exact (Finset.sortedLT_sort _).pairwise
  · intro upper
    rw [uppers, Finset.mem_sort, Finmap.mem_keys, holds.keys]
    simp [LatencySeries.bucketed]
  · exact Nat.lt_of_le_of_lt (List.length_filterMap_le _ _) few

/-! ## Exactness -/

/-- Fewer than 2 ^ 64 samples have one count, mean and sum of squared deviations, those
of all the corrected samples, in whatever order and grouping they are added and merged;
merging is commutative and associative; and a corrected series reports the moments of
all the corrected samples of each interval. -/
theorem moments_merge_exactly :
    (∀ merging : Merging, merging.samples.card < 2 ^ 64 →
      merging.moments.Describes merging.samples) ∧
    (∀ m other : LatencyMoments, m.count.toNat + other.count.toNat < 2 ^ 64 →
      m.count ≠ 0 ∨ other.count ≠ 0 → m.merge other = other.merge m) ∧
    (∀ m other third : LatencyMoments,
      m.count.toNat + other.count.toNat + third.count.toNat < 2 ^ 64 →
        (m.merge other).merge third = m.merge (other.merge third)) ∧
    ∀ (sqrt : ℚ → ℚ) (start interval : Int) (samples : List (Int × UInt32 × Int))
      (offsets : UInt32 → Int), samples.length < 2 ^ 64 →
      ∃ uppers : List Int, uppers.Pairwise (· < ·) ∧
        (∀ upper, upper ∈ uppers ↔
          ∃ sample ∈ samples, (newSeries start interval).bucketEnd sample.1 = some upper) ∧
        ((newSeries start interval).run samples).corrected sqrt offsets =
          uppers.map fun upper => (LatencyMoments.ofValues (shiftedSamples offsets
            (itemsOf upper ((newSeries start interval).bucketed samples)))).event
              sqrt upper := by
  refine ⟨Merging.describes, ?_, ?_, ?_⟩
  · intro m other few some
    exact LatencyMoments.merge_comm few some
  · intro m other third few
    exact LatencyMoments.merge_assoc few
  · intro sqrt start interval samples offsets few
    exact LatencySeries.run_corrected sqrt start interval offsets few

/-- Two senders, one with a slow clock. -/
def twoSenders : Merging := .merged (.sender [1, 2] 10) (.sender [6] 0)

theorem moments_merge_exactly_twoSenders :
    twoSenders.moments.Describes twoSenders.samples ∧ twoSenders.moments.mean = 29 / 3 := by
  exact ⟨moments_merge_exactly.1 twoSenders (by decide), by decide +kernel⟩

/-! ## Counts that wrap around -/

/-- Two senders with some numbers of samples. -/
def senders (first second : Nat) : Merging :=
  .merged (.sender (List.replicate first 0) 0) (.sender (List.replicate second 0) 0)

theorem LatencyMoments.count_foldl_add (samples : List Int) (m : LatencyMoments) :
    (samples.foldl LatencyMoments.add m).count = m.count + UInt64.ofNat samples.length := by
  induction samples generalizing m with
  | nil => simp
  | cons ns rest inductionHypothesis =>
      have one : (m.add ns).count = m.count + 1 := rfl
      rw [List.foldl_cons, inductionHypothesis, one, List.length_cons, UInt64.ofNat_add,
        UInt64.add_assoc, UInt64.add_comm 1]
      rfl

theorem count_senders (first second : Nat) :
    (senders first second).moments.count = UInt64.ofNat first + UInt64.ofNat second := by
  rw [senders, Merging.moments, LatencyMoments.count_merge, Merging.moments, Merging.moments,
    LatencyMoments.shift, LatencyMoments.shift, LatencyMoments.count_foldl_add,
    LatencyMoments.count_foldl_add, List.length_replicate, List.length_replicate,
    UInt64.zero_add, UInt64.zero_add]

theorem card_senders (first second : Nat) :
    (senders first second).samples.card = first + second := by
  rw [senders, Merging.samples, Multiset.card_add, Merging.samples, Merging.samples,
    correctedSamples, correctedSamples, Multiset.card_map, Multiset.card_map,
    Multiset.coe_card, Multiset.coe_card, List.length_replicate, List.length_replicate]

/-- The count of 2 ^ 64 and one samples of two senders is 1. -/
theorem moments_of_wrapped_count :
    ¬ (senders (2 ^ 63) (2 ^ 63 + 1)).moments.Describes
      (senders (2 ^ 63) (2 ^ 63 + 1)).samples := by
  intro describes
  have same := describes.count
  rw [count_senders, card_senders] at same
  exact absurd same (by decide)

end Benchkit
end Gorums
