import Gorums.Benchkit.Keyed
import Gorums.Benchkit.Merge

/-!
# Histogram stores

A store that keeps no samples, but a histogram of the samples that are not negative and
one of the magnitudes of the others.  Its buckets stand for its samples, each replaced by
the middle of its range with its sign.  The one sample that has no magnitude is not
recorded at all.
-/

namespace Gorums
namespace Benchkit

open Gorums.MachineInt
open Gorums.Tally
open Gorums.Keyed
open LogLinear (slotOf start width middle)

/-! ## The source -/

/-- The highest value of the canonical histogram, a minute. -/
def hdrHighest : Int := 60000000000

/-- The histograms of a store. -/
structure HdrStore where
  /-- The samples that are not negative. -/
  h : Histogram
  /-- The magnitudes of the negative samples. -/
  neg : Histogram

/-- A store without samples, over the canonical histogram. -/
def newHDRStore (canonical : Histogram) : HdrStore := ⟨canonical, canonical⟩

/-- Record one value; the error is ignored, and a panic gives nothing. -/
def Histogram.recordValue (h : Histogram) (v : Int) : Option Histogram :=
  (h.recordValueN v 1).map Prod.fst

namespace HdrStore

/-- Record a sample. -/
def add (s : HdrStore) (ns : Int) : Option HdrStore :=
  if ns < 0 then
    (s.neg.recordValue (min (int (-ns)) hdrHighest)).map fun neg => { s with neg := neg }
  else
    (s.h.recordValue (min ns hdrHighest)).map fun h => { s with h := h }

/-- The number of samples. -/
def count (s : HdrStore) : UInt64 := s.h.totalCount + s.neg.totalCount

/-- The occupied buckets of both histograms, in ascending order. -/
def buckets (s : HdrStore) : List (Int × UInt64) :=
  (s.neg.buckets.map fun bucket => (int (-bucket.1), bucket.2)).reverse ++ s.h.buckets

/-- The occupied buckets as a message, or nothing if there are no samples. -/
def snapshot (s : HdrStore) : Option LatencyHistogram :=
  if s.count = 0 then none
  else some { value := s.buckets.map Prod.fst, count := s.buckets.map Prod.snd }

end HdrStore

/-- A message with a distance added to every value, on the canonical layout. -/
def offsetHistogram (canonical : Histogram) (src : Option LatencyHistogram) (delta : Int) :
    Option (Option LatencyHistogram) :=
  match src with
  | none => some none
  | some src => (canonical.recordPairs src.pairs delta).map Histogram.snapshot

/-- The sum of the counts of a message; none have the sum zero. -/
def totalCount (hist : Option LatencyHistogram) : UInt64 :=
  match hist with
  | none => 0
  | some hist => hist.count.foldl (· + ·) 0

/-! ## Totals -/

theorem foldl_add_eq (counts : List UInt64) (n : UInt64) :
    counts.foldl (· + ·) n = n + UInt64.ofNat (counts.map UInt64.toNat).sum := by
  induction counts generalizing n with
  | nil => simp
  | cons count rest inductionHypothesis =>
      rw [List.foldl_cons, inductionHypothesis, List.map_cons, List.sum_cons,
        UInt64.ofNat_add, UInt64.ofNat_toNat, UInt64.add_assoc]

/-- The number of occurrences of some pairs, in 64 bits. -/
def pairTotal (pairs : List (Int × UInt64)) : UInt64 :=
  (pairs.map Prod.snd).foldl (· + ·) 0

theorem pairTotal_eq (pairs : List (Int × UInt64)) :
    pairTotal pairs = UInt64.ofNat (Histogram.occurrences pairs).length := by
  rw [pairTotal, foldl_add_eq, UInt64.zero_add, List.map_map, Histogram.occurrences,
    List.length_flatMap]
  simp only [List.length_replicate]
  rfl

/-- The counts of a message with a value for each of them. -/
theorem map_snd_pairs {hist : LatencyHistogram} (formed : hist.count.length ≤ hist.value.length) :
    hist.pairs.map Prod.snd = hist.count :=
  List.map_snd_zip formed

theorem totalCount_some {hist : LatencyHistogram}
    (formed : hist.count.length ≤ hist.value.length) :
    totalCount (some hist) = pairTotal hist.pairs := by
  rw [totalCount, pairTotal, map_snd_pairs formed]

namespace Histogram

variable {h : Histogram} {values : List Int}

theorem Tallied.pairTotal_buckets (tallied : h.Tallied values) :
    pairTotal h.buckets = h.totalCount := by
  rw [pairTotal, foldl_add_eq, UInt64.zero_add, List.map_map]
  exact tallied.ofNat_sum_buckets

theorem Tallied.totalCount_snapshot (tallied : h.Tallied values) :
    Benchkit.totalCount h.snapshot = h.totalCount := by
  unfold snapshot
  split
  · rename_i zero
    rw [zero]
    rfl
  · exact tallied.pairTotal_buckets

/-- Recording pairs adds up their counts. -/
theorem Tallied.recordPairs_totalCount (tallied : h.Tallied values) (room : 0 ≤ h.highest)
    (pairs : List (Int × UInt64)) (delta : Int) :
    ∃ recorded others, h.recordPairs pairs delta = some recorded ∧ recorded.Tallied others ∧
      recorded.layout = h.layout ∧ recorded.totalCount = h.totalCount + pairTotal pairs := by
  obtain ⟨recorded, result, next, layout⟩ := tallied.recordPairs room pairs delta
  refine ⟨recorded, _, result, next, layout, ?_⟩
  rw [next.total, List.length_append, List.length_map, UInt64.ofNat_add, ← tallied.total,
    ← pairTotal_eq]

/-! ## What the buckets stand for -/

/-- The middle of the range of a value. -/
def mid (h : Histogram) (v : Int) : Int :=
  middle h.unitMagnitude h.subBucketHalfCountMagnitude v.toNat

/-- The values of a slot are replaced by the middle of the slot. -/
theorem Laid.mid_eq_median (laid : h.Laid) {cell : Nat × Nat} (inside : cell ∈ h.cells)
    {v : Int} (same : h.place v = slotOf h.subBucketHalfCountMagnitude cell.1 cell.2) :
    h.mid v = h.median cell := by
  obtain ⟨_, cellIs⟩ := laid.isCell_of_mem inside
  obtain ⟨sameBucket, sameSub⟩ := LogLinear.slotOf_injective (LogLinear.isCell _ _ _) cellIs same
  rw [laid.median_eq inside, mid, middle, sameBucket, sameSub]

/-- The occurrences of the buckets are the values, each replaced by the middle of its
range. -/
theorem Tallied.occurrences_buckets_perm (tallied : h.Tallied values)
    (few : values.length < 2 ^ 64) : (occurrences h.buckets).Perm (values.map h.mid) := by
  have laid := tallied.laid
  let items := values.map fun v => (h.place v, v)
  have length : ∀ i, (itemsOf i items).length = tally h.place values i := by
    intro i
    rw [itemsOf, List.length_map, List.filter_map, List.length_map, tally,
      List.countP_eq_length_filter]
    rfl
  -- the values of a slot are the occurrences of its bucket
  have each : ∀ cell ∈ h.cells,
      List.replicate (h.countAt cell).toNat (h.median cell) =
        (itemsOf (slotOf h.subBucketHalfCountMagnitude cell.1 cell.2) items).map h.mid := by
    intro cell inside
    symm
    rw [List.eq_replicate_iff, List.length_map, length, tallied.countAt_eq inside,
      UInt64.toNat_ofNat', Nat.mod_eq_of_lt (Nat.lt_of_le_of_lt (tally_le_length _ _) few)]
    refine ⟨rfl, ?_⟩
    intro value found
    obtain ⟨v, inItems, rfl⟩ := List.mem_map.mp found
    obtain ⟨item, inSlot, rfl⟩ := List.mem_map.mp inItems
    obtain ⟨inValues, same⟩ := List.mem_filter.mp inSlot
    obtain ⟨w, _, rfl⟩ := List.mem_map.mp inValues
    exact laid.mid_eq_median inside (of_decide_eq_true same)
  have slots : h.cells.flatMap (fun cell =>
      (itemsOf (slotOf h.subBucketHalfCountMagnitude cell.1 cell.2) items).map h.mid) =
        (List.range h.counts.length).flatMap fun i => (itemsOf i items).map h.mid := by
    rw [← laid.map_slotOf_cells, List.flatMap_map]
  have all : ∀ item ∈ items, item.1 ∈ List.range h.counts.length := by
    intro item inside
    obtain ⟨v, inValues, rfl⟩ := List.mem_map.mp inside
    exact List.mem_range.mpr (tallied.place_lt inValues)
  have perm := (flatMap_itemsOf_perm List.nodup_range all).map fun item => h.mid item.2
  rw [List.map_flatMap] at perm
  simp only [List.map_map, items] at perm
  rw [occurrences_buckets, List.flatMap_congr each, slots]
  exact perm

end Histogram

/-! ## The samples of a store -/

/-- A value in range is recorded. -/
theorem Histogram.Tallied.recordValue {h : Histogram} {values : List Int} {v : Int}
    (tallied : h.Tallied values) (lower : 0 ≤ v) (upper : v ≤ h.highest) :
    ∃ recorded, h.recordValue v = some recorded ∧ recorded.Tallied (values ++ [v]) ∧
      recorded.layout = h.layout := by
  obtain ⟨value, rfl⟩ := Int.eq_ofNat_of_zero_le lower
  obtain ⟨recorded, call⟩ := tallied.laid.exists_recordValueN upper 1
  obtain ⟨next, layout⟩ := tallied.recordValueN call
  refine ⟨recorded, ?_, next, layout⟩
  rw [Histogram.recordValue, call, Option.map_some]

/-- The values that stand for the samples that are not negative. -/
def positives (samples : List Int) : List Int :=
  (samples.filter fun ns => 0 ≤ ns).map fun ns => min ns hdrHighest

/-- The values that stand for the negative samples. -/
def negatives (samples : List Int) : List Int :=
  (samples.filter fun ns => !decide (0 ≤ ns)).map fun ns => min (-ns) hdrHighest

theorem length_positives_add (samples : List Int) :
    (positives samples).length + (negatives samples).length = samples.length := by
  rw [positives, negatives, List.length_map, List.length_map, ← List.length_append]
  exact (List.filter_append_perm _ samples).length_eq

/-- What the buckets give for a sample: the middle of the range of its magnitude, with
its sign. -/
def Histogram.signedMid (h : Histogram) (ns : Int) : Int :=
  if 0 ≤ ns then h.mid (min ns hdrHighest) else int (-h.mid (min (-ns) hdrHighest))

theorem map_signedMid_perm (h : Histogram) (samples : List Int) :
    ((positives samples).map h.mid ++
      ((negatives samples).map h.mid).map fun value => int (-value)).Perm
        (samples.map h.signedMid) := by
  have perm := (List.filter_append_perm (fun ns : Int => decide (0 ≤ ns)) samples).map
    h.signedMid
  rw [List.map_append] at perm
  have first : (samples.filter fun ns => 0 ≤ ns).map h.signedMid =
      (positives samples).map h.mid := by
    rw [positives, List.map_map]
    apply List.map_congr_left
    intro ns inside
    exact if_pos (of_decide_eq_true (List.mem_filter.mp inside).2)
  have second : (samples.filter fun ns => !decide (0 ≤ ns)).map h.signedMid =
      ((negatives samples).map h.mid).map fun value => int (-value) := by
    rw [negatives, List.map_map, List.map_map]
    apply List.map_congr_left
    intro ns inside
    have negative : ¬ 0 ≤ ns := by simpa using (List.mem_filter.mp inside).2
    exact if_neg negative
  rw [first, second] at perm
  exact perm

namespace HdrStore

variable {canonical : Histogram} {s : HdrStore} {samples : List Int}

/-- The histograms of a store have the canonical layout and the counts of some samples. -/
structure Stored (canonical : Histogram) (s : HdrStore) (samples : List Int) : Prop where
  /-- The layout of the samples that are not negative. -/
  layout : s.h.layout = canonical.layout
  /-- The layout of the negative ones. -/
  layoutNeg : s.neg.layout = canonical.layout
  /-- The samples that are not negative. -/
  tallied : s.h.Tallied (positives samples)
  /-- The negative ones. -/
  talliedNeg : s.neg.Tallied (negatives samples)

theorem stored_new (empty : canonical.Tallied []) :
    Stored canonical (newHDRStore canonical) [] :=
  ⟨rfl, rfl, empty, empty⟩

theorem positives_concat (samples : List Int) {ns : Int} (lower : 0 ≤ ns) :
    positives (samples ++ [ns]) = positives samples ++ [min ns hdrHighest] ∧
      negatives (samples ++ [ns]) = negatives samples := by
  simp [positives, negatives, lower]

theorem negatives_concat (samples : List Int) {ns : Int} (negative : ns < 0) :
    positives (samples ++ [ns]) = positives samples ∧
      negatives (samples ++ [ns]) = negatives samples ++ [min (-ns) hdrHighest] := by
  have : ¬ 0 ≤ ns := by omega
  simp [positives, negatives, this]

/-- Every sample but the one without a magnitude is recorded. -/
theorem Stored.add (stored : Stored canonical s samples)
    (highest : canonical.highest = hdrHighest) {ns : Int} (magnitude : -2 ^ 63 < ns) :
    ∃ next, s.add ns = some next ∧ Stored canonical next (samples ++ [ns]) := by
  have top : (0 : Int) ≤ hdrHighest := by decide
  unfold HdrStore.add
  by_cases negative : ns < 0
  · rw [if_pos negative]
    have absolute : int (-ns) = -ns := by apply int_of_bounds <;> omega
    have upper := Histogram.highest_of_layout stored.layoutNeg
    obtain ⟨neg, result, tallied, layout⟩ :=
      stored.talliedNeg.recordValue (v := min (-ns) hdrHighest) (by omega) (by omega)
    rw [absolute, result]
    obtain ⟨first, second⟩ := negatives_concat samples negative
    refine ⟨_, rfl, stored.layout, layout.trans stored.layoutNeg, ?_, ?_⟩
    · rw [first]
      exact stored.tallied
    · rw [second]
      exact tallied
  · rw [if_neg negative]
    have upper := Histogram.highest_of_layout stored.layout
    obtain ⟨h, result, tallied, layout⟩ :=
      stored.tallied.recordValue (v := min ns hdrHighest) (by omega) (by omega)
    rw [result]
    obtain ⟨first, second⟩ := positives_concat samples (show 0 ≤ ns by omega)
    refine ⟨_, rfl, layout.trans stored.layout, stored.layoutNeg, ?_, ?_⟩
    · rw [first]
      exact tallied
    · rw [second]
      exact stored.talliedNeg

/-- The count is the number of samples. -/
theorem Stored.count_eq (stored : Stored canonical s samples) :
    s.count = UInt64.ofNat samples.length := by
  rw [count, stored.tallied.total, stored.talliedNeg.total, ← UInt64.ofNat_add,
    length_positives_add]

theorem occurrences_buckets_perm (s : HdrStore) :
    (Histogram.occurrences s.buckets).Perm (Histogram.occurrences s.h.buckets ++
      (Histogram.occurrences s.neg.buckets).map fun value => int (-value)) := by
  have reversed := (List.reverse_perm
    (s.neg.buckets.map fun bucket => (int (-bucket.1), bucket.2))).flatMap_right
      fun record => List.replicate record.2.toNat record.1
  have negated := Histogram.occurrences_map (fun value => int (-value)) s.neg.buckets
  rw [← negated]
  refine List.Perm.trans ?_ List.perm_append_comm
  rw [buckets, Histogram.occurrences, List.flatMap_append]
  exact reversed.append_right _

/-- The counts of the buckets add up to the number of samples. -/
theorem Stored.pairTotal_buckets (stored : Stored canonical s samples) :
    pairTotal s.buckets = s.count := by
  rw [pairTotal_eq, s.occurrences_buckets_perm.length_eq, List.length_append,
    List.length_map, UInt64.ofNat_add, ← pairTotal_eq, ← pairTotal_eq,
    stored.tallied.pairTotal_buckets, stored.talliedNeg.pairTotal_buckets, count]

theorem Stored.totalCount_snapshot (stored : Stored canonical s samples) :
    totalCount s.snapshot = s.count := by
  unfold snapshot
  split
  · rename_i zero
    rw [zero]
    rfl
  · exact stored.pairTotal_buckets

theorem mid_of_layout {h other : Histogram} (same : other.layout = h.layout) :
    other.mid = h.mid := by
  simp only [Histogram.layout, Prod.mk.injEq] at same
  funext v
  rw [Histogram.mid, Histogram.mid, same.2.1, same.2.2.1]

/-- The occurrences of the buckets are what the buckets give for each sample. -/
theorem Stored.occurrences_perm (stored : Stored canonical s samples)
    (few : samples.length < 2 ^ 64) :
    (Histogram.occurrences s.buckets).Perm (samples.map canonical.signedMid) := by
  have total := length_positives_add samples
  have first := stored.tallied.occurrences_buckets_perm (by omega)
  have second := stored.talliedNeg.occurrences_buckets_perm (by omega)
  rw [mid_of_layout stored.layout] at first
  rw [mid_of_layout stored.layoutNeg] at second
  exact s.occurrences_buckets_perm.trans
    ((first.append (second.map _)).trans (map_signedMid_perm canonical samples))

/-- Record samples one after another. -/
def addAll (s : HdrStore) (samples : List Int) : Option HdrStore :=
  samples.foldlM HdrStore.add s

theorem Stored.addAll (stored : Stored canonical s samples)
    (highest : canonical.highest = hdrHighest) {more : List Int}
    (magnitudes : ∀ ns ∈ more, -2 ^ 63 < ns) :
    ∃ next, s.addAll more = some next ∧ Stored canonical next (samples ++ more) := by
  induction more generalizing s samples with
  | nil =>
      refine ⟨s, rfl, ?_⟩
      rw [List.append_nil]
      exact stored
  | cons ns rest inductionHypothesis =>
      obtain ⟨next, call, nextStored⟩ :=
        stored.add highest (magnitudes ns List.mem_cons_self)
      obtain ⟨last, calls, lastStored⟩ := inductionHypothesis nextStored (by
        intro other inside
        exact magnitudes other (List.mem_cons_of_mem _ inside))
      refine ⟨last, ?_, ?_⟩
      · rw [HdrStore.addAll, List.foldlM_cons, call]
        exact calls
      · rw [List.append_cons]
        exact lastStored

end HdrStore

end Benchkit
end Gorums
