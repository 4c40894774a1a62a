import Gorums.Benchkit.Recording
import Mathlib.Algebra.Order.BigOperators.Group.List

/-!
# Merging histograms

Snapshots of histograms with the canonical layout, merged by recording the middle
values of their buckets once more.  A middle value falls into its own bucket, also when
it is cut off at the highest value, so a merge of snapshots is the snapshot of all the
values, in whatever order and grouping the merges are made.
-/

namespace Gorums
namespace Benchkit

open Gorums.MachineInt
open Gorums.Tally
open LogLinear (bucket sub slot slotOf start width IsCell isCell)

/-! ## The source -/

/-- The canonical histogram, from 1 nanosecond to a minute with 3 significant figures. -/
def newHDRHistogram (floorLog2 : Int → Int) (rounds : Nat) :
    Except String (Option Histogram) :=
  newHistogram floorLog2 rounds 1 60000000000 3

/-- A snapshot: values with their numbers of occurrences. -/
structure LatencyHistogram where
  /-- The values. -/
  value : List Int
  /-- The number of occurrences of each value. -/
  count : List UInt64
  deriving DecidableEq

/-- The pairs of value and count; it stops if there are fewer counts than values. -/
def LatencyHistogram.pairs (hist : LatencyHistogram) : List (Int × UInt64) :=
  hist.value.zip hist.count

namespace Histogram

/-- Bring a shifted value into the range of a histogram. -/
def clamp (h : Histogram) (delta v : Int) : Int :=
  min (max (int (v + delta)) 0) h.highest

/-- Record weighted values that are shifted by a distance; a panic gives nothing. -/
def recordPairs : Histogram → List (Int × UInt64) → Int → Option Histogram
  | h, [], _ => some h
  | h, (v, c) :: rest, delta =>
      match h.recordValueN (h.clamp delta v) c with
      | none => none
      | some (recorded, _) => recordPairs recorded rest delta

/-- The occupied buckets as a message, or nothing if no value is recorded. -/
def snapshot (h : Histogram) : Option LatencyHistogram :=
  if h.totalCount = 0 then none
  else some { value := h.buckets.map Prod.fst, count := h.buckets.map Prod.snd }

end Histogram

/-- The loop of `mergeHistograms`, which skips the snapshots that are nil. -/
def mergeLoop : Histogram → List (Option LatencyHistogram) → Option Histogram
  | h, [] => some h
  | h, none :: rest => mergeLoop h rest
  | h, some src :: rest =>
      match h.recordPairs src.pairs 0 with
      | none => none
      | some merged => mergeLoop merged rest

/-- Merge snapshots onto a new canonical histogram; a panic gives nothing. -/
def mergeHistograms (canonical : Histogram) (hists : List (Option LatencyHistogram)) :
    Option (Option LatencyHistogram) :=
  (mergeLoop canonical hists).map Histogram.snapshot

/-! ## Groupings -/

/-- A grouping of merges: values that are recorded into a histogram of their own, or the
merge of what groupings give. -/
inductive Grouping
  /-- The snapshot of recorded values. -/
  | recorded (values : List Int)
  /-- A merge. -/
  | merged (parts : List Grouping)

mutual

/-- The snapshot that a grouping of merges gives. -/
def Grouping.snapshot (canonical : Histogram) : Grouping → Option (Option LatencyHistogram)
  | .recorded values =>
      (canonical.recordAll (values.map fun v => (v, 1))).map Histogram.snapshot
  | .merged parts => (Grouping.snapshots canonical parts).bind (mergeHistograms canonical)

/-- The snapshots that groupings of merges give. -/
def Grouping.snapshots (canonical : Histogram) :
    List Grouping → Option (List (Option LatencyHistogram))
  | [] => some []
  | part :: rest =>
      (Grouping.snapshot canonical part).bind fun first =>
        (Grouping.snapshots canonical rest).map fun others => first :: others

end

mutual

/-- The values of a grouping. -/
def Grouping.values : Grouping → List Int
  | .recorded values => values
  | .merged parts => Grouping.allValues parts

/-- The values of groupings. -/
def Grouping.allValues : List Grouping → List Int
  | [] => []
  | part :: rest => part.values ++ Grouping.allValues rest

end

/-! ## Histograms with equal counts -/

namespace Histogram

variable {h other : Histogram} {values others : List Int}

theorem place_of_layout (same : other.layout = h.layout) : other.place = h.place := by
  simp only [layout, Prod.mk.injEq] at same
  funext v
  rw [place, place, same.2.1, same.2.2.1]

theorem highest_of_layout (same : other.layout = h.layout) : other.highest = h.highest :=
  congrArg Prod.fst same

/-- The snapshot depends on the layout, the counts and the total only. -/
theorem snapshot_congr (same : other.layout = h.layout) (counts : other.counts = h.counts)
    (total : other.totalCount = h.totalCount) : other.snapshot = h.snapshot := by
  cases h
  cases other
  simp only [layout, Prod.mk.injEq] at same
  obtain ⟨rfl, rfl, rfl, rfl, rfl, rfl, rfl⟩ := same
  cases counts
  cases total
  rfl

/-- Histograms of one layout whose values fill the slots equally have one snapshot. -/
theorem Tallied.snapshot_eq (first : h.Tallied values) (second : other.Tallied others)
    (same : other.layout = h.layout)
    (tallies : ∀ i < h.counts.length, tally h.place others i = tally h.place values i)
    (lengths : others.length = values.length) : other.snapshot = h.snapshot := by
  have length : other.counts.length = h.counts.length := by
    have := same
    simp only [layout, Prod.mk.injEq] at this
    rw [first.laid.length, second.laid.length, this.2.2.1, this.2.2.2.2.2.2]
  apply snapshot_congr same
  · apply List.ext_getElem?
    intro i
    by_cases inside : i < h.counts.length
    · rw [first.counts i inside, second.counts i (by omega), place_of_layout same,
        tallies i inside]
    · rw [List.getElem?_eq_none (by omega), List.getElem?_eq_none (by omega)]
  · rw [first.total, second.total, lengths]

/-- Only how many values there are in each slot matters for the counts. -/
theorem Tallied.congr (tallied : h.Tallied values)
    (tracked : ∀ v ∈ others, 0 ≤ v ∧ v ≤ h.highest)
    (tallies : ∀ i < h.counts.length, tally h.place others i = tally h.place values i)
    (lengths : others.length = values.length) : h.Tallied others := by
  refine ⟨tallied.laid, tracked, ?_, ?_⟩
  · intro i inside
    rw [tallied.counts i inside, tallies i inside]
  · rw [tallied.total, lengths]

/-! ## Recording what is in range -/

/-- Recording pairs is recording the values that they are clamped to. -/
theorem Tallied.recordPairs_eq (tallied : h.Tallied values) (room : 0 ≤ h.highest)
    (pairs : List (Int × UInt64)) (delta : Int) :
    h.recordPairs pairs delta =
      h.recordAll (pairs.map fun pair => (h.clamp delta pair.1, pair.2)) := by
  induction pairs generalizing h values with
  | nil => rfl
  | cons pair rest inductionHypothesis =>
      obtain ⟨v, c⟩ := pair
      have lower : 0 ≤ h.clamp delta v := by
        unfold clamp
        omega
      have upper : h.clamp delta v ≤ h.highest := by
        unfold clamp
        omega
      obtain ⟨value, eq⟩ := Int.eq_ofNat_of_zero_le lower
      rw [eq] at upper
      obtain ⟨next, call⟩ := tallied.laid.exists_recordValueN upper c
      obtain ⟨nextTallied, same⟩ := tallied.recordValueN call
      have highest := highest_of_layout same
      have clamped : next.clamp delta = h.clamp delta := by
        funext other
        rw [clamp, clamp, highest]
      rw [recordPairs, List.map_cons, Histogram.recordAll, eq, call]
      dsimp only
      rw [inductionHypothesis nextTallied (by omega), clamped]

/-- Changing the values of pairs changes their occurrences. -/
theorem occurrences_map (change : Int → Int) (pairs : List (Int × UInt64)) :
    occurrences (pairs.map fun pair => (change pair.1, pair.2)) =
      (occurrences pairs).map change := by
  simp only [occurrences, List.flatMap_map, List.map_flatMap, List.map_replicate]

/-- Recording pairs does not fail, and every pair is recorded with the value that it is
clamped to. -/
theorem Tallied.recordPairs (tallied : h.Tallied values) (room : 0 ≤ h.highest)
    (pairs : List (Int × UInt64)) (delta : Int) :
    ∃ recorded, h.recordPairs pairs delta = some recorded ∧
      recorded.Tallied (values ++ (occurrences pairs).map (h.clamp delta)) ∧
      recorded.layout = h.layout := by
  have tracked : ∀ record ∈ pairs.map (fun pair => (h.clamp delta pair.1, pair.2)),
      0 ≤ record.1 ∧ record.1 ≤ h.highest := by
    intro record inside
    obtain ⟨pair, _, rfl⟩ := List.mem_map.mp inside
    unfold clamp
    omega
  obtain ⟨recorded, result⟩ := tallied.exists_recordAll tracked
  obtain ⟨next, layout⟩ := tallied.recordAll result
  rw [occurrences_map] at next
  exact ⟨recorded, (tallied.recordPairs_eq room pairs delta).trans result, next, layout⟩

/-! ## Recording a snapshot -/

theorem pairs_buckets (h : Histogram) :
    LatencyHistogram.pairs ⟨h.buckets.map Prod.fst, h.buckets.map Prod.snd⟩ =
      h.buckets := by
  unfold LatencyHistogram.pairs
  induction h.buckets with
  | nil => rfl
  | cons bucket rest inductionHypothesis =>
      rw [List.map_cons, List.map_cons, List.zip_cons_cons, inductionHypothesis]

/-- What is recorded of the buckets of a histogram. -/
def clamped (h : Histogram) : List (Int × UInt64) :=
  h.buckets.map fun bucket => (h.clamp 0 bucket.1, bucket.2)

theorem occurrences_buckets (h : Histogram) :
    occurrences h.buckets = h.cells.flatMap fun cell =>
      List.replicate (h.countAt cell).toNat (h.median cell) := by
  unfold occurrences buckets
  induction h.cells with
  | nil => rfl
  | cons cell rest inductionHypothesis =>
      rw [List.filterMap_cons, List.flatMap_cons, ← inductionHypothesis]
      by_cases zero : h.countAt cell = 0
      · simp [zero]
      · simp [zero]

theorem occurrences_clamped (h : Histogram) :
    occurrences h.clamped = h.cells.flatMap fun cell =>
      List.replicate (h.countAt cell).toNat (h.clamp 0 (h.median cell)) := by
  rw [clamped, occurrences_map, occurrences_buckets, List.map_flatMap]
  simp only [List.map_replicate]

namespace Tallied

variable (tallied : h.Tallied values)
include tallied

/-- The middle of an occupied bucket falls into its own bucket, also when it is cut off
at the highest value. -/
theorem place_clamp {cell : Nat × Nat} (inside : cell ∈ h.cells)
    (occupied : h.countAt cell ≠ 0) :
    (0 ≤ h.clamp 0 (h.median cell) ∧ h.clamp 0 (h.median cell) ≤ h.highest) ∧
      h.place (h.clamp 0 (h.median cell)) =
        slotOf h.subBucketHalfCountMagnitude cell.1 cell.2 := by
  have laid := tallied.laid
  obtain ⟨below, cellIs⟩ := laid.isCell_of_mem inside
  -- a value of the bucket bounds the highest value from below
  obtain ⟨v, inValues, same⟩ : ∃ v ∈ values,
      h.place v = slotOf h.subBucketHalfCountMagnitude cell.1 cell.2 := by
    by_contra none
    apply occupied
    rw [tallied.countAt_eq inside]
    have : tally h.place values (slotOf h.subBucketHalfCountMagnitude cell.1 cell.2) = 0 := by
      apply List.countP_eq_zero.mpr
      intro v inValues
      simp only [decide_eq_true_eq]
      intro same
      exact none ⟨v, inValues, same⟩
    rw [this]
    rfl
  obtain ⟨lower, upper⟩ := tallied.tracked v inValues
  obtain ⟨value, rfl⟩ := Int.eq_ofNat_of_zero_le lower
  obtain ⟨sameBucket, sameSub⟩ := LogLinear.slotOf_injective (isCell _ _ _) cellIs same
  have first := (LogLinear.holds h.unitMagnitude h.subBucketHalfCountMagnitude value).1
  rw [Int.toNat_natCast] at sameBucket sameSub
  rw [sameBucket, sameSub] at first
  have middle := LogLinear.holds_middle h.unitMagnitude cell.1 cell.2
  have bound := laid.start_add_width_le below cellIs
  obtain ⟨highest, top⟩ := Int.eq_ofNat_of_zero_le (Int.le_trans lower upper)
  rw [laid.median_eq inside, clamp, Int.add_zero]
  generalize start h.unitMagnitude cell.1 cell.2 + width h.unitMagnitude cell.1 / 2 =
    median at middle
  have small : int (median : Int) = median := by
    apply int_natCast
    have := middle.2
    unfold maxInt
    omega
  rw [small, top]
  have least : min (max (median : Int) 0) highest = (min median highest : Nat) := by omega
  rw [least]
  refine ⟨by omega, ?_⟩
  apply LogLinear.Holds.slot_eq cellIs
  rw [Int.toNat_natCast]
  obtain ⟨low, high⟩ := middle
  constructor
  · omega
  · omega

/-- The recorded buckets fill the slots as the values did. -/
theorem tally_clamped (few : values.length < 2 ^ 64) {i : Nat}
    (inside : i < h.counts.length) :
    tally h.place (occurrences h.clamped) i = tally h.place values i := by
  have laid := tallied.laid
  have each : ∀ cell ∈ h.cells,
      tally h.place (List.replicate (h.countAt cell).toNat (h.clamp 0 (h.median cell))) i =
        if slotOf h.subBucketHalfCountMagnitude cell.1 cell.2 = i then
          tally h.place values (slotOf h.subBucketHalfCountMagnitude cell.1 cell.2)
        else 0 := by
    intro cell inCells
    have count := tallied.countAt_eq inCells
    have exact : (h.countAt cell).toNat =
        tally h.place values (slotOf h.subBucketHalfCountMagnitude cell.1 cell.2) := by
      rw [count, UInt64.toNat_ofNat', Nat.mod_eq_of_lt]
      exact Nat.lt_of_le_of_lt (tally_le_length _ _) few
    rw [tally_replicate, ← exact]
    by_cases zero : h.countAt cell = 0
    · rw [zero]
      simp
    · rw [(tallied.place_clamp inCells zero).2]
  rw [occurrences_clamped, tally_flatMap, List.map_congr_left each]
  have slots := congrArg (List.map fun j =>
    if j = i then tally h.place values j else 0) laid.map_slotOf_cells
  rw [List.map_map] at slots
  have sum := congrArg List.sum slots
  rw [sum_range_single, if_pos inside] at sum
  exact sum

theorem length_clamped (few : values.length < 2 ^ 64) :
    (occurrences h.clamped).length = values.length := by
  have sum := tallied.sum_buckets few
  rw [tallied.total, UInt64.toNat_ofNat', Nat.mod_eq_of_lt few] at sum
  rw [← sum, occurrences, List.length_flatMap, clamped, List.map_map]
  congr 1
  apply List.map_congr_left
  intro bucket _
  exact List.length_replicate

end Tallied

/-- Recording the buckets of a histogram adds its values. -/
theorem Tallied.recordPairs_buckets (first : h.Tallied values) (second : other.Tallied others)
    (same : other.layout = h.layout) (few : others.length < 2 ^ 64)
    (room : 0 ≤ h.highest) :
    ∃ merged, h.recordPairs other.buckets 0 = some merged ∧
      merged.Tallied (values ++ others) ∧ merged.layout = h.layout := by
  have highest := highest_of_layout same
  have records : (occurrences other.buckets).map (h.clamp 0) = occurrences other.clamped := by
    rw [clamped, occurrences_map]
    unfold clamp
    rw [highest]
  obtain ⟨merged, result, tallied, layout⟩ := first.recordPairs room other.buckets 0
  rw [records] at tallied
  refine ⟨merged, result, ?_, layout⟩
  have length : merged.counts.length = other.counts.length := by
    have sameLayout := layout.trans same.symm
    simp only [Histogram.layout, Prod.mk.injEq] at sameLayout
    rw [tallied.laid.length, second.laid.length, sameLayout.2.2.1,
      sameLayout.2.2.2.2.2.2]
  have place : merged.place = other.place := place_of_layout (layout.trans same.symm)
  apply tallied.congr
  · intro v inside
    rw [highest_of_layout layout]
    rcases List.mem_append.mp inside with inFirst | inSecond
    · exact first.tracked v inFirst
    · rw [← highest]
      exact second.tracked v inSecond
  · intro i inside
    rw [tally_append, tally_append, place, second.tally_clamped few (by omega)]
  · rw [List.length_append, List.length_append, second.length_clamped few]

theorem occurrences_ones (values : List Int) :
    occurrences (values.map fun v => (v, 1)) = values := by
  induction values with
  | nil => rfl
  | cons v rest inductionHypothesis =>
      have split : occurrences (((v, 1) :: rest.map fun v => (v, 1))) =
          v :: occurrences (rest.map fun v => (v, 1)) := rfl
      rw [List.map_cons, split, inductionHypothesis]

end Histogram

/-! ## Groupings of merges -/

section
variable {canonical : Histogram}

/-- A snapshot is that of a histogram with the canonical layout and some values. -/
def Represents (canonical : Histogram) (snapshot : Option LatencyHistogram)
    (values : List Int) : Prop :=
  ∃ h : Histogram, h.layout = canonical.layout ∧ h.Tallied values ∧ snapshot = h.snapshot

/-- Merging a snapshot into a histogram adds its values. -/
theorem mergeLoop_cons {h : Histogram} {values others : List Int}
    {snapshot : Option LatencyHistogram} (tallied : h.Tallied values)
    (same : h.layout = canonical.layout) (room : 0 ≤ canonical.highest)
    (represents : Represents canonical snapshot others) (few : others.length < 2 ^ 64)
    (rest : List (Option LatencyHistogram)) :
    ∃ merged : Histogram, merged.Tallied (values ++ others) ∧
      merged.layout = canonical.layout ∧
      mergeLoop h (snapshot :: rest) = mergeLoop merged rest := by
  obtain ⟨source, layout, sourceTallied, rfl⟩ := represents
  unfold Histogram.snapshot
  split
  · -- a histogram without a total has no values
    rename_i zero
    have none : others = [] := by
      have total := congrArg UInt64.toNat sourceTallied.total
      rw [zero, UInt64.toNat_ofNat', Nat.mod_eq_of_lt few] at total
      exact List.length_eq_zero_iff.mp total.symm
    refine ⟨h, ?_, same, rfl⟩
    rw [none, List.append_nil]
    exact tallied
  · have highest := Histogram.highest_of_layout same
    obtain ⟨merged, result, mergedTallied, mergedLayout⟩ :=
      tallied.recordPairs_buckets sourceTallied (layout.trans same.symm) few (by omega)
    refine ⟨merged, mergedTallied, mergedLayout.trans same, ?_⟩
    rw [mergeLoop, Histogram.pairs_buckets, result]

/-- Recorded values have a snapshot. -/
theorem represents_recorded (empty : canonical.Tallied []) {values : List Int}
    (tracked : ∀ v ∈ values, 0 ≤ v ∧ v ≤ canonical.highest) :
    ∃ snapshot, Grouping.snapshot canonical (.recorded values) = some snapshot ∧
      Represents canonical snapshot values := by
  have inRange : ∀ record ∈ values.map fun v => (v, (1 : UInt64)),
      0 ≤ record.1 ∧ record.1 ≤ canonical.highest := by
    intro record inside
    obtain ⟨v, inValues, rfl⟩ := List.mem_map.mp inside
    exact tracked v inValues
  obtain ⟨recorded, result⟩ := empty.exists_recordAll inRange
  obtain ⟨tallied, layout⟩ := empty.recordAll result
  rw [List.nil_append, Histogram.occurrences_ones] at tallied
  refine ⟨recorded.snapshot, ?_, recorded, layout, tallied, rfl⟩
  rw [Grouping.snapshot, result, Option.map_some]

mutual

/-- Every grouping of merges gives the snapshot of its values. -/
theorem represents_grouping (empty : canonical.Tallied [])
    (room : 0 ≤ canonical.highest) (grouping : Grouping)
    (tracked : ∀ v ∈ grouping.values, 0 ≤ v ∧ v ≤ canonical.highest)
    (few : grouping.values.length < 2 ^ 64) :
    ∃ snapshot, grouping.snapshot canonical = some snapshot ∧
      Represents canonical snapshot grouping.values :=
  match grouping with
  | .recorded values => represents_recorded empty tracked
  | .merged parts => by
      obtain ⟨snapshots, result, merges⟩ := represents_groupings empty room parts tracked few
      obtain ⟨merged, loop, tallied, layout⟩ := merges canonical [] empty rfl
      refine ⟨merged.snapshot, ?_, merged, layout, tallied, rfl⟩
      rw [Grouping.snapshot, result, Option.bind_some, mergeHistograms, loop,
        Option.map_some]

/-- Merging what groupings give into a histogram adds their values. -/
theorem represents_groupings (empty : canonical.Tallied [])
    (room : 0 ≤ canonical.highest) (parts : List Grouping)
    (tracked : ∀ v ∈ Grouping.allValues parts, 0 ≤ v ∧ v ≤ canonical.highest)
    (few : (Grouping.allValues parts).length < 2 ^ 64) :
    ∃ snapshots, Grouping.snapshots canonical parts = some snapshots ∧
      ∀ (h : Histogram) (values : List Int), h.Tallied values →
        h.layout = canonical.layout →
        ∃ merged : Histogram, mergeLoop h snapshots = some merged ∧
          merged.Tallied (values ++ Grouping.allValues parts) ∧
          merged.layout = canonical.layout :=
  match parts with
  | [] => by
      refine ⟨[], rfl, ?_⟩
      intro h values tallied layout
      refine ⟨h, rfl, ?_, layout⟩
      rw [Grouping.allValues, List.append_nil]
      exact tallied
  | part :: rest => by
      rw [Grouping.allValues, List.length_append] at few
      have trackedFirst : ∀ v ∈ part.values, 0 ≤ v ∧ v ≤ canonical.highest := by
        intro v inside
        exact tracked v (List.mem_append_left _ inside)
      have trackedRest : ∀ v ∈ Grouping.allValues rest,
          0 ≤ v ∧ v ≤ canonical.highest := by
        intro v inside
        exact tracked v (List.mem_append_right _ inside)
      obtain ⟨first, firstResult, represents⟩ :=
        represents_grouping empty room part trackedFirst (by omega)
      obtain ⟨others, othersResult, merges⟩ :=
        represents_groupings empty room rest trackedRest (by omega)
      refine ⟨first :: others, ?_, ?_⟩
      · rw [Grouping.snapshots, firstResult, Option.bind_some, othersResult,
          Option.map_some]
      · intro h values tallied layout
        obtain ⟨next, nextTallied, nextLayout, loop⟩ :=
          mergeLoop_cons tallied layout room represents (by omega) others
        obtain ⟨merged, result, mergedTallied, mergedLayout⟩ :=
          merges next _ nextTallied nextLayout
        rw [List.append_assoc] at mergedTallied
        refine ⟨merged, loop.trans result, ?_, mergedLayout⟩
        rw [Grouping.allValues]
        exact mergedTallied

end

/-- The snapshot of values does not depend on their order. -/
theorem Represents.eq {snapshot other : Option LatencyHistogram} {values others : List Int}
    (first : Represents canonical snapshot values)
    (second : Represents canonical other others) (perm : others.Perm values) :
    other = snapshot := by
  obtain ⟨h, layout, tallied, rfl⟩ := first
  obtain ⟨g, otherLayout, otherTallied, rfl⟩ := second
  apply tallied.snapshot_eq otherTallied (otherLayout.trans layout.symm)
  · intro i _
    rw [tally_perm perm]
  · exact perm.length_eq

/-- Merging one snapshot gives it back. -/
theorem Represents.merge_single {snapshot : Option LatencyHistogram} {values : List Int}
    (represents : Represents canonical snapshot values) (empty : canonical.Tallied [])
    (room : 0 ≤ canonical.highest) (few : values.length < 2 ^ 64) :
    mergeHistograms canonical [snapshot] = some snapshot := by
  obtain ⟨merged, tallied, layout, loop⟩ :=
    mergeLoop_cons empty rfl room represents few []
  rw [List.nil_append] at tallied
  have same : merged.snapshot = snapshot :=
    represents.eq ⟨merged, layout, tallied, rfl⟩ (List.Perm.refl values)
  rw [mergeHistograms, loop, mergeLoop, Option.map_some, same]

end

/-- The canonical histogram is made, and it is empty. -/
theorem exists_newHDRHistogram {floorLog2 : Int → Int} (exact : floorLog2 1 = 0) :
    ∃ canonical : Histogram, canonical.Tallied [] ∧ canonical.highest = 60000000000 ∧
      canonical.unitMagnitude = 0 ∧ canonical.subBucketHalfCountMagnitude = 10 ∧
      ∀ rounds, 63 ≤ rounds →
        newHDRHistogram floorLog2 rounds = .ok (some canonical) := by
  have unit : unitMagnitudeOf floorLog2 1 = 0 := by
    have one : (1 : Int64).toInt = 1 := rfl
    rw [unitMagnitudeOf, one, exact]
    rfl
  have half : halfCountMagnitude 3 = 10 := by decide +kernel
  obtain ⟨bucketCount, laid, result⟩ := exists_newHistogram floorLog2
    (show checkParams 1 60000000000 3 = .ok () by decide) (by decide)
    (by rw [unit, half]; decide)
  exact ⟨_, tallied_emptyHistogram laid, rfl, unit, half, result⟩

/-- Fewer than 2 ^ 64 values in the range of the canonical histogram have one snapshot, in
whatever order and grouping they are recorded and merged, and merging it alone gives it
back. -/
theorem merge_lossless (floorLog2 : Int → Int) (exact : floorLog2 1 = 0) :
    ∃ canonical : Histogram,
      (∀ rounds, 63 ≤ rounds →
        newHDRHistogram floorLog2 rounds = .ok (some canonical)) ∧
      ∀ grouping : Grouping,
        (∀ v ∈ grouping.values, 0 ≤ v ∧ v ≤ 60000000000) →
        grouping.values.length < 2 ^ 64 →
        ∃ snapshot, grouping.snapshot canonical = some snapshot ∧
          (∀ all : List Int, all.Perm grouping.values →
            Grouping.snapshot canonical (.recorded all) = some snapshot) ∧
          mergeHistograms canonical [snapshot] = some snapshot := by
  obtain ⟨canonical, empty, highest, _, _, result⟩ := exists_newHDRHistogram exact
  refine ⟨canonical, result, ?_⟩
  intro grouping tracked few
  rw [← highest] at tracked
  have room : 0 ≤ canonical.highest := by omega
  obtain ⟨snapshot, merged, represents⟩ := represents_grouping empty room grouping tracked few
  refine ⟨snapshot, merged, ?_, represents.merge_single empty room few⟩
  intro all perm
  have trackedAll : ∀ v ∈ all, 0 ≤ v ∧ v ≤ canonical.highest := by
    intro v inside
    exact tracked v (perm.mem_iff.mp inside)
  obtain ⟨direct, recorded, representsAll⟩ := represents_recorded empty trackedAll
  rw [recorded, represents.eq representsAll perm]

/-- Three groups of values, two of which are merged first. -/
def threeGroups : Grouping :=
  .merged [.merged [.recorded [5, 70000], .recorded [60000000000]], .recorded [5]]

theorem merge_lossless_threeGroups :
    ∃ canonical : Histogram, newHDRHistogram exactLog2 63 = .ok (some canonical) ∧
      ∃ snapshot, threeGroups.snapshot canonical = some snapshot ∧
        Grouping.snapshot canonical (.recorded [5, 5, 70000, 60000000000]) =
          some snapshot := by
  obtain ⟨canonical, result, lossless⟩ := merge_lossless exactLog2 rfl
  have values : threeGroups.values = [5, 70000, 60000000000, 5] := by
    simp [threeGroups, Grouping.values, Grouping.allValues]
  obtain ⟨snapshot, merged, order, _⟩ := lossless threeGroups
    (by rw [values]; decide) (by rw [values]; decide)
  refine ⟨canonical, result 63 (Nat.le_refl 63), snapshot, merged, order _ ?_⟩
  rw [values]
  decide

/-! ## Totals that wrap around -/

/-- As many values 0 as values 5. -/
def spread (n : Nat) : List Int := List.replicate n 0 ++ List.replicate n 5

theorem length_spread (n : Nat) : (spread n).length = 2 * n := by
  rw [spread, List.length_append, List.length_replicate, List.length_replicate]
  omega

theorem mem_spread {n : Nat} {v : Int} (inside : v ∈ spread n) : v = 0 ∨ v = 5 := by
  rcases List.mem_append.mp inside with low | high
  · exact .inl (List.eq_of_mem_replicate low)
  · exact .inr (List.eq_of_mem_replicate high)

/-- A bucket counts the values in its slot, as far as 64 bits hold their number. -/
theorem Histogram.Tallied.mem_counts {h : Histogram} {values : List Int} {v : Int}
    (tallied : h.Tallied values) (inside : v ∈ values)
    (occupied : UInt64.ofNat (tally h.place values (h.place v)) ≠ 0) :
    UInt64.ofNat (tally h.place values (h.place v)) ∈ h.buckets.map Prod.snd := by
  have slots := tallied.place_lt inside
  rw [← List.mem_range, ← tallied.laid.map_slotOf_cells, List.mem_map] at slots
  obtain ⟨cell, inCells, slotEq⟩ := slots
  have count := tallied.countAt_eq inCells
  rw [slotEq] at count
  rw [← count] at occupied ⊢
  have found : (h.median cell, h.countAt cell) ∈ h.buckets :=
    List.mem_filterMap.mpr ⟨cell, inCells, if_neg occupied⟩
  exact List.mem_map_of_mem found

/-- Equal snapshots have equal counts. -/
theorem Histogram.counts_of_snapshot_eq {h other : Histogram}
    (same : h.snapshot = other.snapshot) (occupied : h.totalCount ≠ 0) :
    h.buckets.map Prod.snd = other.buckets.map Prod.snd := by
  unfold snapshot at same
  rw [if_neg occupied] at same
  split at same
  · cases same
  · exact (LatencyHistogram.mk.inj (Option.some.inj same)).2

/-- The snapshot of 2 ^ 63 values 0 and 2 ^ 63 values 5 is nil, because the total wraps
around to zero, and a merge loses them. -/
theorem merge_loses_wrapped_total :
    ∃ canonical : Histogram, newHDRHistogram exactLog2 63 = .ok (some canonical) ∧
      Grouping.snapshot canonical (.merged [.recorded (spread (2 ^ 63)), .recorded [0]]) ≠
        Grouping.snapshot canonical (.recorded (spread (2 ^ 63) ++ [0])) := by
  obtain ⟨canonical, empty, highest, unit, half, result⟩ :=
    exists_newHDRHistogram (show exactLog2 1 = 0 from rfl)
  refine ⟨canonical, result 63 (Nat.le_refl 63), ?_⟩
  have room : 0 ≤ canonical.highest := by omega
  have trackedSpread : ∀ v ∈ spread (2 ^ 63), 0 ≤ v ∧ v ≤ canonical.highest := by
    intro v inside
    rcases mem_spread inside with rfl | rfl <;> omega
  have trackedZero : ∀ v ∈ [(0 : Int)], 0 ≤ v ∧ v ≤ canonical.highest := by
    intro v inside
    rw [List.mem_singleton.mp inside]
    omega
  have trackedAll : ∀ v ∈ spread (2 ^ 63) ++ [0], 0 ≤ v ∧ v ≤ canonical.highest := by
    intro v inside
    rcases List.mem_append.mp inside with inSpread | isZero
    · exact trackedSpread v inSpread
    · exact trackedZero v isZero
  obtain ⟨nil, nilResult, first, _, firstTallied, nilEq⟩ :=
    represents_recorded empty trackedSpread
  obtain ⟨zero, zeroResult, representsZero⟩ := represents_recorded empty trackedZero
  obtain ⟨all, allResult, whole, layout, wholeTallied, allEq⟩ :=
    represents_recorded empty trackedAll
  have lost : nil = none := by
    rw [nilEq, Histogram.snapshot, if_pos]
    rw [firstTallied.total, length_spread]
    rfl
  obtain ⟨merged, mergedTallied, _, loop⟩ :=
    mergeLoop_cons empty rfl room representsZero (by simp) []
  have mergedResult : Grouping.snapshot canonical
      (.merged [.recorded (spread (2 ^ 63)), .recorded [0]]) = some merged.snapshot := by
    simp only [Grouping.snapshot, Grouping.snapshots] at nilResult zeroResult ⊢
    rw [nilResult, zeroResult, lost]
    simp only [Option.bind_some, Option.map_some, mergeHistograms, mergeLoop, loop]
  rw [mergedResult, allResult]
  intro same
  have snapshots : merged.snapshot = whole.snapshot := (Option.some.inj same).trans allEq
  have occupied : merged.totalCount ≠ 0 := by
    rw [mergedTallied.total]
    decide
  -- all the values have a bucket that the merged ones cannot have
  have count : tally whole.place (spread (2 ^ 63) ++ [0]) (whole.place 5) = 2 ^ 63 := by
    have place : whole.place = fun v => slot 0 10 v.toNat := by
      rw [Histogram.place_of_layout layout]
      funext v
      rw [Histogram.place, unit, half]
    have low : slot 0 10 (0 : Int).toNat ≠ slot 0 10 (5 : Int).toNat := by decide
    rw [place, spread, tally_append, tally_append, tally_replicate, tally_replicate,
      tally_singleton, if_neg low, if_pos rfl, if_neg low, Nat.zero_add, Nat.add_zero]
  have inside : (5 : Int) ∈ spread (2 ^ 63) ++ [0] := by
    apply List.mem_append_left
    apply List.mem_append_right
    exact List.mem_replicate.mpr ⟨by decide, rfl⟩
  have large := wholeTallied.mem_counts inside (by rw [count]; decide)
  rw [count, ← Histogram.counts_of_snapshot_eq snapshots occupied] at large
  have sum := mergedTallied.sum_buckets (by simp)
  have bound := List.le_sum_of_mem (List.mem_map_of_mem (f := UInt64.toNat) large)
  rw [List.map_map] at bound
  have total : merged.totalCount.toNat = 1 := by
    rw [mergedTallied.total]
    rfl
  have : (UInt64.ofNat (2 ^ 63)).toNat ≤ 1 := by
    rw [← total, ← sum]
    exact bound
  exact absurd this (by decide)

end Benchkit
end Gorums
