import Gorums.Benchkit.Matching
import Gorums.Benchkit.Stats

/-!
# The precision of corrected histograms

A sample in a histogram is replaced by the middle of its range, shifted by the clock
offset of its sender, and replaced by the middle of the range of the result.  The first
step loses a part of the magnitude of the sample and the second a part of the corrected
latency.  The two together keep the precision of the layout if the magnitude is not much
larger than the corrected latency, and can lose everything if the offset cancels most of
the sample.
-/

namespace Gorums
namespace Benchkit

open Gorums.MachineInt
open Gorums.Keyed
open LogLinear (middle middle_near)

/-! ## Corrected latencies -/

namespace Stats

variable {canonical : Histogram} {s : Stats} {items : List (UInt32 × Int)}

theorem appendShifted_eq (off : Int) (samples corrected : List Int)
    (room : corrected.length + samples.length ≤ maxInt) :
    appendShifted off samples corrected =
      some (corrected ++ samples.map fun l => int (l + off)) := by
  induction samples generalizing corrected with
  | nil =>
      rw [appendShifted, List.map_nil, List.append_nil]
  | cons l rest inductionHypothesis =>
      rw [List.length_cons] at room
      rw [appendShifted, append, if_pos (by omega), Option.bind_eq_bind, Option.bind_some,
        inductionHypothesis, List.map_cons, List.append_assoc, List.singleton_append]
      rw [List.length_append, List.length_singleton]
      omega

/-- The corrected latency of each sample, sender by sender. -/
def exactValues (offsets : UInt32 → Int) (items : List (UInt32 × Int)) (id : UInt32) :
    List Int :=
  (itemsOf id items).map fun l => int (l + offsets id)

theorem Holds.samples_eq (holds : s.Holds canonical .exact items) (id : UInt32) :
    ((s.bySender.lookup id).map SampleStore.samples).getD [] = itemsOf id items := by
  cases found : s.bySender.lookup id with
  | none =>
      have keeps := holds.stores.keys id
      rw [itemsOf_eq_nil]
      · rfl
      · rw [← keeps]
        exact Finmap.lookup_eq_none.mp found
  | some store =>
      have kept : store = .exact (itemsOf id items) := holds.stores.related id store found
      rw [kept]
      rfl

/-- The loop over the senders shifts all their samples. -/
theorem Holds.correctedLatencies_eq (holds : s.Holds canonical .exact items)
    (offsets : UInt32 → Int) (ids : List UInt32) (corrected : List Int)
    (room : corrected.length + (ids.flatMap (exactValues offsets items)).length ≤ maxInt) :
    s.correctedLatencies offsets ids corrected =
      some (corrected ++ ids.flatMap (exactValues offsets items)) := by
  induction ids generalizing corrected with
  | nil =>
      rw [correctedLatencies, List.flatMap_nil, List.append_nil]
  | cons id rest inductionHypothesis =>
      rw [List.flatMap_cons, List.length_append] at room
      have length : (exactValues offsets items id).length = (itemsOf id items).length :=
        List.length_map _
      have shifted := appendShifted_eq (offsets id) (itemsOf id items) corrected (by omega)
      simp only [correctedLatencies, holds.samples_eq, shifted, Option.bind_eq_bind,
        Option.bind_some]
      rw [← exactValues, inductionHypothesis, List.flatMap_cons, List.append_assoc]
      rw [List.length_append]
      omega

theorem Holds.length_exactValues {mode : StatsMode} (holds : s.Holds canonical mode items)
    (offsets : UInt32 → Int) :
    (s.senders.flatMap (exactValues offsets items)).length = items.length := by
  rw [← holds.perm.length_eq, List.length_flatMap, List.length_flatMap]
  simp only [exactValues, List.length_map]

/-- The corrected result of exact samples. -/
theorem Holds.exists_exactResult (holds : s.Holds canonical .exact items)
    (room : items.length ≤ maxInt) (sqrt : ℚ → ℚ) (offsets : UInt32 → Int) :
    ∃ result : Result, s.getResultCorrected canonical sqrt offsets = some result ∧
      result.latencies = s.senders.flatMap (exactValues offsets items) := by
  have loop := holds.correctedLatencies_eq offsets s.senders [] (by
    rw [holds.length_exactValues, List.length_nil]
    omega)
  rw [List.nil_append] at loop
  refine ⟨{ s.resultFromSamples (s.senders.flatMap (exactValues offsets items)) with
    events := s.correctedEvents sqrt offsets }, ?_, rfl⟩
  simp only [getResultCorrected, holds.modeEq, loop, Option.map_some]

/-- Both ways of keeping samples have the same senders. -/
theorem Holds.senders_eq {mode other : StatsMode} {t : Stats}
    (first : s.Holds canonical mode items) (second : t.Holds canonical other items) :
    s.senders = t.senders := by
  have keys : s.bySender.keys = t.bySender.keys := by
    ext id
    rw [Finmap.mem_keys, Finmap.mem_keys, first.stores.keys, second.stores.keys]
  rw [senders, senders, keys]

/-! ## Corrected histograms -/

/-- The value that the corrected histogram gives for each sample, sender by sender. -/
def hdrValues (canonical : Histogram) (offsets : UInt32 → Int) (items : List (UInt32 × Int))
    (id : UInt32) : List Int :=
  (itemsOf id items).map fun l =>
    canonical.mid (canonical.clamp (offsets id) (canonical.signedMid l))

end Stats

/-- The occurrences of the values of a message. -/
def sampleValues : Option LatencyHistogram → List Int
  | none => []
  | some hist => Histogram.occurrences hist.pairs

theorem Histogram.Tallied.sampleValues_snapshot {h : Histogram} {values : List Int}
    (tallied : h.Tallied values) (few : values.length < 2 ^ 64) :
    (sampleValues h.snapshot).Perm (values.map h.mid) := by
  have perm := tallied.occurrences_buckets_perm few
  unfold Histogram.snapshot
  split
  · rename_i zero
    have none : values = [] := by
      have total := congrArg UInt64.toNat tallied.total
      rw [zero, UInt64.toNat_ofNat', Nat.mod_eq_of_lt few] at total
      exact List.length_eq_zero_iff.mp total.symm
    rw [none]
    exact List.Perm.refl []
  · rw [sampleValues, Histogram.pairs_buckets]
    exact perm

namespace Stats

variable {canonical : Histogram} {s : Stats} {items : List (UInt32 × Int)}

/-- The corrected histogram gives the middle of the range of each shifted middle. -/
theorem Holds.sampleValues_perm (holds : s.Holds canonical .hdr items)
    (empty : canonical.Tallied []) (room : 0 ≤ canonical.highest)
    (few : items.length < 2 ^ 64) (sqrt : ℚ → ℚ) (offsets : UInt32 → Int) :
    ∃ result : Result, s.getResultCorrected canonical sqrt offsets = some result ∧
      (sampleValues result.histogram).Perm
        (s.senders.flatMap (hdrValues canonical offsets items)) := by
  obtain ⟨result, agg, call, tallied, layout, histogram, _⟩ :=
    holds.exists_hdrResult empty room sqrt offsets
  refine ⟨result, call, ?_⟩
  -- what is recorded for a sender are its shifted middles
  have each : ∀ id ∈ s.senders, (s.recorded canonical offsets id).Perm
      ((itemsOf id items).map fun l => canonical.clamp (offsets id) (canonical.signedMid l)) := by
    intro id inside
    obtain ⟨hs, buckets, stored⟩ := holds.exists_store inside
    have fewer := length_itemsOf_le id items
    have perm := (stored.occurrences_perm (by omega)).map (canonical.clamp (offsets id))
    rw [List.map_map] at perm
    rw [recorded, buckets]
    exact perm
  have values : (s.senders.flatMap (s.recorded canonical offsets)).Perm
      (s.senders.flatMap fun id => (itemsOf id items).map fun l =>
        canonical.clamp (offsets id) (canonical.signedMid l)) :=
    List.Perm.flatMap_left _ each
  have length : (s.senders.flatMap (s.recorded canonical offsets)).length = items.length := by
    rw [values.length_eq, ← holds.perm.length_eq, List.length_flatMap, List.length_flatMap]
    simp only [List.length_map]
  have samples := tallied.sampleValues_snapshot (by omega)
  rw [HdrStore.mid_of_layout layout] at samples
  have middles : (s.senders.flatMap fun id => (itemsOf id items).map fun l =>
      canonical.clamp (offsets id) (canonical.signedMid l)).map canonical.mid =
        s.senders.flatMap (hdrValues canonical offsets items) := by
    rw [List.map_flatMap]
    simp only [List.map_map]
    rfl
  have mapped := values.map canonical.mid
  rw [middles] at mapped
  rw [histogram]
  exact samples.trans mapped

end Stats

section
variable {canonical : Histogram}

/-- The two corrected results of the same samples: the corrected latency of each sample,
and for each sample the middle of the range of its shifted middle. -/
theorem exists_correctedResults (empty : canonical.Tallied [])
    (highest : canonical.highest = hdrHighest) {samples : List (Int × UInt32 × Int)}
    (room : samples.length ≤ maxInt) (magnitudes : ∀ sample ∈ samples, -2 ^ 63 < sample.2.2)
    (sqrt : ℚ → ℚ) (offsets : UInt32 → Int) :
    ∃ exactStats hdrStats exactResult hdrResult,
      (newStats canonical .exact).addAllBySender canonical samples = some exactStats ∧
      (newStats canonical .hdr).addAllBySender canonical samples = some hdrStats ∧
      exactStats.getResultCorrected canonical sqrt offsets = some exactResult ∧
      hdrStats.getResultCorrected canonical sqrt offsets = some hdrResult ∧
      ∃ ordered : List (UInt32 × Int), ordered.Perm (samples.map Prod.snd) ∧
        exactResult.latencies = ordered.map (fun item => int (item.2 + offsets item.1)) ∧
        (sampleValues hdrResult.histogram).Perm (ordered.map fun item =>
          canonical.mid (canonical.clamp (offsets item.1) (canonical.signedMid item.2))) := by
  have top : (0 : Int) ≤ hdrHighest := by decide
  have startExact : (newStats canonical .exact).Holds canonical .exact [] :=
    Stats.holds_newStats
  have startHdr : (newStats canonical .hdr).Holds canonical .hdr [] := Stats.holds_newStats
  obtain ⟨exactStats, exactCalls, exactHolds⟩ := startExact.addAll empty highest (by
    intro sample inside count less
    rw [List.length_nil, Nat.zero_add] at less
    exact Nat.lt_of_lt_of_le less room)
  obtain ⟨hdrStats, hdrCalls, hdrHolds⟩ := startHdr.addAll empty highest
    fun sample inside _ _ => magnitudes sample inside
  rw [List.nil_append] at exactHolds hdrHolds
  have fits : (samples.map Prod.snd).length ≤ maxInt := by
    rw [List.length_map]
    exact room
  have few : (samples.map Prod.snd).length < 2 ^ 64 := by
    unfold maxInt at fits
    omega
  obtain ⟨exactResult, exactCall, latencies⟩ :=
    exactHolds.exists_exactResult fits sqrt offsets
  obtain ⟨hdrResult, hdrCall, values⟩ :=
    hdrHolds.sampleValues_perm empty (by omega) few sqrt offsets
  rw [← exactHolds.senders_eq hdrHolds] at values
  refine ⟨exactStats, hdrStats, exactResult, hdrResult, exactCalls, hdrCalls, exactCall,
    hdrCall, _, exactHolds.perm, ?_, ?_⟩
  · rw [latencies, List.map_flatMap]
    simp only [List.map_map]
    rfl
  · rw [List.map_flatMap]
    simp only [List.map_map]
    exact values

end

/-! ## Precision -/

/-- A value is as close to a latency as the canonical layout promises. -/
def Near (value latency : Int) : Prop := |value - latency| ≤ max 1 (latency / 1000)

/-- The values of a histogram can be matched with latencies that they are close to. -/
def Matches (hist : Option LatencyHistogram) (latencies : List Int) : Prop :=
  ∃ values : List Int, values.Perm (sampleValues hist) ∧ List.Forall₂ Near values latencies

instance (value latency : Int) : Decidable (Near value latency) :=
  inferInstanceAs (Decidable (_ ≤ _))

/-- A larger latency leaves at least as much room below and above it. -/
theorem near_exchanges : Matching.Exchanges Near := by
  intro lower upper low high ordered orderedLatencies first second
  unfold Near at first second ⊢
  rw [abs_le] at first second ⊢
  rw [abs_le]
  omega

/-- The middle of the range of a value in the canonical layout. -/
def canonicalMiddle (v : Int) : Int := (middle 0 10 v.toNat : Nat)

/-- The middle of the range of the magnitude of a sample, with its sign. -/
def roundedOnce (l : Int) : Int :=
  if 0 ≤ l then canonicalMiddle l else -canonicalMiddle (-l)

/-- What a sample becomes in the corrected histogram: the middle of the range of its own
middle after the shift. -/
def roundedTwice (off l : Int) : Int :=
  canonicalMiddle (min (max (roundedOnce l + off) 0) hdrHighest)

theorem canonicalMiddle_near {v : Int} (lower : 0 ≤ v) :
    v ≤ canonicalMiddle v + v / 2048 ∧ canonicalMiddle v ≤ v + v / 2048 := by
  have near := middle_near 0 10 v.toNat
  unfold canonicalMiddle
  omega

theorem roundedOnce_near (l : Int) :
    l ≤ roundedOnce l + |l| / 2048 ∧ roundedOnce l ≤ l + |l| / 2048 := by
  unfold roundedOnce
  by_cases nonneg : 0 ≤ l
  · rw [if_pos nonneg, abs_of_nonneg nonneg]
    exact canonicalMiddle_near nonneg
  · have near := canonicalMiddle_near (show 0 ≤ -l by omega)
    rw [if_neg nonneg, abs_of_neg (by omega)]
    omega

/-- The error of the first step is relative to the magnitude of the sample, that of the
second one to what the first step gives. -/
theorem roundedTwice_near {l off : Int} (lower : 0 ≤ l + off)
    (upper : l + off ≤ 60000000000)
    (fine : |l| < 2048 ∨ 1000 * |l| ≤ 1047 * (l + off)) :
    Near (roundedTwice off l) (l + off) := by
  have positive := abs_nonneg l
  have first := roundedOnce_near l
  have top : hdrHighest = 60000000000 := rfl
  unfold roundedTwice
  generalize cut : min (max (roundedOnce l + off) 0) hdrHighest = clamped
  have second := canonicalMiddle_near (show 0 ≤ clamped by omega)
  have closer : l + off ≤ clamped + |l| / 2048 ∧ clamped ≤ l + off + |l| / 2048 := by
    omega
  unfold Near
  rw [abs_le]
  rcases fine with small | below
  · omega
  · have total : |l| / 2048 + clamped / 2048 ≤ (l + off) / 1000 := by omega
    omega

/-- What the corrected histogram makes of a sample, if no sum overflows. -/
theorem mid_clamp_eq {canonical : Histogram} (unit : canonical.unitMagnitude = 0)
    (half : canonical.subBucketHalfCountMagnitude = 10)
    (highest : canonical.highest = hdrHighest) {l off : Int}
    (range : |l| ≤ 60000000000) (lower : 0 ≤ l + off) (upper : l + off ≤ 60000000000) :
    canonical.mid (canonical.clamp off (canonical.signedMid l)) = roundedTwice off l := by
  have top : hdrHighest = 60000000000 := rfl
  have mid : ∀ v, canonical.mid v = canonicalMiddle v := by
    intro v
    rw [Histogram.mid, unit, half, canonicalMiddle]
  have bounds := abs_le.mp range
  have once : canonical.signedMid l = roundedOnce l := by
    unfold Histogram.signedMid roundedOnce
    split
    · rw [min_eq_left (by omega), mid]
    · have near := canonicalMiddle_near (show 0 ≤ -l by omega)
      rw [min_eq_left (by omega), mid, int_of_bounds (by omega) (by omega)]
  have near := roundedOnce_near l
  rw [mid, once, Histogram.clamp, int_of_bounds (by omega) (by omega), highest, roundedTwice]

/-- A sample and its corrected latency lie in the range of the canonical layout. -/
def InRange (offsets : UInt32 → Int) (sample : Int × UInt32 × Int) : Prop :=
  |sample.2.2| ≤ 60000000000 ∧ 0 ≤ sample.2.2 + offsets sample.2.1 ∧
    sample.2.2 + offsets sample.2.1 ≤ 60000000000

/-- The magnitude of a sample is small enough to be kept exactly, or it exceeds the
corrected latency by 47 in 1000 at most. -/
def HardlyShrinks (offsets : UInt32 → Int) (sample : Int × UInt32 × Int) : Prop :=
  |sample.2.2| < 2048 ∨
    1000 * |sample.2.2| ≤ 1047 * (sample.2.2 + offsets sample.2.1)

/-- In order of size, each sample rounded twice is as close to the corrected latency at
its place as the canonical layout promises. -/
def RoundsNear (offsets : UInt32 → Int) (samples : List (Int × UInt32 × Int)) : Prop :=
  List.Forall₂ Near
    ((samples.map fun sample =>
      roundedTwice (offsets sample.2.1) sample.2.2).insertionSort (· ≤ ·))
    ((samples.map fun sample =>
      sample.2.2 + offsets sample.2.1).insertionSort (· ≤ ·))

theorem roundsNear_of_hardlyShrinks {offsets : UInt32 → Int}
    {samples : List (Int × UInt32 × Int)}
    (inside : ∀ sample ∈ samples, InRange offsets sample)
    (fine : ∀ sample ∈ samples, HardlyShrinks offsets sample) :
    RoundsNear offsets samples := by
  apply near_exchanges.insertionSort
  rw [List.forall₂_map_left_iff, List.forall₂_map_right_iff, List.forall₂_same]
  intro sample member
  obtain ⟨_, lower, upper⟩ := inside sample member
  exact roundedTwice_near lower upper (fine sample member)

end Benchkit
end Gorums
