import Gorums.Benchkit.Histogram
import Mathlib.Data.Nat.Cast.Order.Ring

/-!
# Recorded values

What a histogram has after any sequence of successful calls: each count is the number
of occurrences in its slot, as far as 64 bits hold it.  If the occurrences are fewer
than 2 ^ 64, the buckets are a weighted sample of the values in ascending order, and
the scan for a rank finds the range of the value that has it.
-/

namespace Gorums
namespace Benchkit

open Gorums.MachineInt
open Gorums.Tally
open LogLinear (bucket sub slot slotOf start width IsCell isCell)

namespace Histogram

/-! ## Ranges -/

/-- The lowest value of the range of a value. -/
def rangeStart (h : Histogram) (v : Int) : Int :=
  h.valueFromIndex (h.bucketIndex v) (h.subBucketIndex v (h.bucketIndex v))

/-- The highest value of the range of a value. -/
def rangeTop (h : Histogram) (v : Int) : Int :=
  h.rangeStart v + h.rangeSize (h.bucketIndex v) - 1

/-- The range of a value holds another value. -/
def InRange (h : Histogram) (v w : Int) : Prop :=
  h.rangeStart v ≤ w ∧ w < h.rangeStart v + h.rangeSize (h.bucketIndex v)

/-- The slot of a value in the layout of a histogram. -/
def place (h : Histogram) (v : Int) : Nat :=
  slot h.unitMagnitude h.subBucketHalfCountMagnitude v.toNat

namespace Laid

variable {h : Histogram} (laid : h.Laid)
include laid

theorem rangeStart_eq {v : Nat} (tracked : (v : Int) ≤ h.highest) :
    h.rangeStart v = start h.unitMagnitude
      (bucket h.unitMagnitude h.subBucketHalfCountMagnitude v)
      (sub h.unitMagnitude h.subBucketHalfCountMagnitude v) := by
  rw [rangeStart, laid.bucketIndex_eq (laid.le_maxInt tracked), subBucketIndex_eq]
  exact laid.valueFromIndex_eq (laid.bucket_lt tracked) (isCell _ _ v)

theorem rangeSize_bucketIndex {v : Nat} (tracked : (v : Int) ≤ h.highest) :
    h.rangeSize (h.bucketIndex v) = width h.unitMagnitude
      (bucket h.unitMagnitude h.subBucketHalfCountMagnitude v) := by
  rw [laid.bucketIndex_eq (laid.le_maxInt tracked)]
  exact laid.rangeSize_eq (laid.bucket_lt tracked)

/-- The range of a value is narrow enough for the precision. -/
theorem rangeSize_le {v precision : Nat} (tracked : (v : Int) ≤ h.highest)
    (fine : precision ≤ 2 ^ h.subBucketHalfCountMagnitude) (positive : 0 < precision) :
    h.rangeSize (h.bucketIndex v) ≤ max (2 ^ h.unitMagnitude) ((v : Int) / precision) := by
  have narrow : width h.unitMagnitude
      (bucket h.unitMagnitude h.subBucketHalfCountMagnitude v) ≤
        max (2 ^ h.unitMagnitude) (v / precision) :=
    LogLinear.width_le fine positive
  rw [laid.rangeSize_bucketIndex tracked]
  exact_mod_cast narrow

theorem inRange_iff {v w : Nat} (tracked : (v : Int) ≤ h.highest) :
    h.InRange v w ↔ LogLinear.Holds h.unitMagnitude
      (bucket h.unitMagnitude h.subBucketHalfCountMagnitude v)
      (sub h.unitMagnitude h.subBucketHalfCountMagnitude v) w := by
  rw [InRange, laid.rangeStart_eq tracked, laid.rangeSize_bucketIndex tracked,
    LogLinear.Holds]
  omega

/-- Two values share a slot if one is in the range of the other. -/
theorem slotIndex_eq_iff_inRange {v w : Nat} (tracked : (v : Int) ≤ h.highest)
    (trackedOther : (w : Int) ≤ h.highest) :
    h.slotIndex v = h.slotIndex w ↔ h.InRange v w := by
  rw [laid.slotIndex_eq tracked, laid.slotIndex_eq trackedOther, laid.inRange_iff tracked,
    ← LogLinear.slot_eq_iff, Int.natCast_inj]

end Laid

/-! ## Recording -/

/-- A sequence of successful calls. -/
def recordAll : Histogram → List (Int × UInt64) → Option Histogram
  | h, [] => some h
  | h, (v, n) :: rest =>
      match h.recordValueN v n with
      | some (recorded, none) => recordAll recorded rest
      | _ => none

/-- The values that a sequence of calls records, with their occurrences. -/
def occurrences (records : List (Int × UInt64)) : List Int :=
  records.flatMap fun record => List.replicate record.2.toNat record.1

/-- The layout of a histogram, which recording does not change. -/
def layout (h : Histogram) : Int × Nat × Nat × Nat × Nat × Int × Nat :=
  (h.highest, h.unitMagnitude, h.subBucketHalfCountMagnitude, h.subBucketCount,
    h.subBucketHalfCount, h.subBucketMask, h.bucketCount)

/-- A histogram has the layout and the counts of some values. -/
structure Tallied (h : Histogram) (values : List Int) : Prop where
  /-- The fields describe a layout. -/
  laid : h.Laid
  /-- The values are in range. -/
  tracked : ∀ v ∈ values, 0 ≤ v ∧ v ≤ h.highest
  /-- A count is the number of values in its slot. -/
  counts : ∀ i < h.counts.length,
    h.counts[i]? = some (UInt64.ofNat (tally h.place values i))
  /-- The total is the number of values. -/
  total : h.totalCount = UInt64.ofNat values.length

/-- A call that succeeds adds the occurrences of its value. -/
theorem Tallied.recordValueN {h recorded : Histogram} {values : List Int} {v : Int}
    {n : UInt64} (tallied : h.Tallied values)
    (success : h.recordValueN v n = some (recorded, none)) :
    recorded.Tallied (values ++ List.replicate n.toNat v) ∧
      recorded.layout = h.layout := by
  unfold Histogram.recordValueN at success
  split at success
  · cases success
  rename_i inRange
  have range : 0 ≤ v ∧ v ≤ h.highest := by omega
  split at success
  · rename_i zero
    cases success
    subst zero
    exact ⟨by simpa using tallied, rfl⟩
  split at success
  · cases success
  cases success
  refine ⟨?_, rfl⟩
  have laid := tallied.laid
  obtain ⟨value, rfl⟩ := Int.eq_ofNat_of_zero_le range.1
  have index : (h.slotIndex value).toNat = h.place value := by
    rw [laid.slotIndex_eq range.2, Int.toNat_natCast]
    rfl
  refine ⟨⟨laid.count, laid.half, laid.mask, laid.positive, laid.fits, laid.covers, ?_⟩,
    ?_, ?_, ?_⟩
  · rw [← laid.length]
    exact List.length_modify _ _ _
  · intro other inside
    rcases List.mem_append.mp inside with earlier | new
    · exact tallied.tracked other earlier
    · rw [List.eq_of_mem_replicate new]
      exact range
  · intro i inside
    rw [List.length_modify] at inside
    show (h.counts.modify (h.slotIndex value).toNat (· + n))[i]? =
      some (UInt64.ofNat (tally h.place (values ++ List.replicate n.toNat (value : Int)) i))
    rw [index, List.getElem?_modify, tallied.counts i inside, tally_append, tally_replicate]
    by_cases same : h.place value = i
    · simp [same, UInt64.ofNat_add]
    · simp [same]
  · show h.totalCount + n = _
    rw [tallied.total, List.length_append, List.length_replicate, UInt64.ofNat_add,
      UInt64.ofNat_toNat]

/-- A sequence of successful calls adds its occurrences. -/
theorem Tallied.recordAll {h recorded : Histogram} {values : List Int}
    {records : List (Int × UInt64)} (tallied : h.Tallied values)
    (success : h.recordAll records = some recorded) :
    recorded.Tallied (values ++ occurrences records) ∧ recorded.layout = h.layout := by
  induction records generalizing h values with
  | nil =>
      cases success
      exact ⟨by simpa [occurrences] using tallied, rfl⟩
  | cons record rest inductionHypothesis =>
      obtain ⟨v, n⟩ := record
      rw [Histogram.recordAll] at success
      split at success
      · rename_i next call
        obtain ⟨nextTallied, sameLayout⟩ := tallied.recordValueN call
        obtain ⟨result, layout⟩ := inductionHypothesis nextTallied success
        rw [List.append_assoc] at result
        exact ⟨result, layout.trans sameLayout⟩
      · cases success

/-- Values in range are recorded. -/
theorem Tallied.exists_recordAll {h : Histogram} {values : List Int}
    {records : List (Int × UInt64)} (tallied : h.Tallied values)
    (tracked : ∀ record ∈ records, 0 ≤ record.1 ∧ record.1 ≤ h.highest) :
    ∃ recorded, h.recordAll records = some recorded := by
  induction records generalizing h values with
  | nil => exact ⟨h, rfl⟩
  | cons record rest inductionHypothesis =>
      obtain ⟨v, n⟩ := record
      obtain ⟨first, others⟩ := List.forall_mem_cons.mp tracked
      obtain ⟨value, rfl⟩ := Int.eq_ofNat_of_zero_le first.1
      obtain ⟨next, success⟩ := tallied.laid.exists_recordValueN first.2 n
      obtain ⟨nextTallied, layout⟩ := tallied.recordValueN success
      have highest : next.highest = h.highest := congrArg Prod.fst layout
      obtain ⟨recorded, later⟩ := inductionHypothesis nextTallied (highest ▸ others)
      refine ⟨recorded, ?_⟩
      rw [Histogram.recordAll, success]
      exact later

end Histogram

theorem tallied_emptyHistogram {highest : Int} {u k bucketCount : Nat}
    (laid : (emptyHistogram highest u k bucketCount).Laid) :
    (emptyHistogram highest u k bucketCount).Tallied [] := by
  refine ⟨laid, by simp, ?_, rfl⟩
  intro i inside
  simp only [emptyHistogram, List.length_replicate] at inside ⊢
  rw [List.getElem?_replicate, if_pos inside]
  rfl

/-! ## Buckets -/

namespace Histogram

namespace Laid

variable {h : Histogram} (laid : h.Laid)
include laid

theorem isCell_of_mem {cell : Nat × Nat} (inside : cell ∈ h.cells) :
    cell.1 < h.bucketCount ∧ IsCell h.subBucketHalfCountMagnitude cell.1 cell.2 := by
  rw [laid.cells_eq] at inside
  exact LogLinear.mem_cells.mp inside

/-- The loops over the slots visit them in order. -/
theorem map_slotOf_cells :
    h.cells.map (fun cell => slotOf h.subBucketHalfCountMagnitude cell.1 cell.2) =
      List.range h.counts.length := by
  obtain ⟨buckets, count⟩ := Nat.exists_eq_succ_of_ne_zero (Nat.ne_of_gt laid.positive)
  rw [laid.cells_eq, laid.length, count]
  exact LogLinear.map_slotOf_cells _ buckets

theorem slotOf_lt_length {cell : Nat × Nat} (inside : cell ∈ h.cells) :
    slotOf h.subBucketHalfCountMagnitude cell.1 cell.2 < h.counts.length := by
  rw [← List.mem_range, ← laid.map_slotOf_cells]
  exact List.mem_map_of_mem inside

theorem pairwise_cells : h.cells.Pairwise fun first second =>
    slotOf h.subBucketHalfCountMagnitude first.1 first.2 <
      slotOf h.subBucketHalfCountMagnitude second.1 second.2 := by
  apply List.pairwise_map.mp
  rw [laid.map_slotOf_cells]
  exact List.pairwise_lt_range

theorem median_eq {cell : Nat × Nat} (inside : cell ∈ h.cells) :
    h.median cell = (start h.unitMagnitude cell.1 cell.2 +
      width h.unitMagnitude cell.1 / 2 : Nat) := by
  obtain ⟨below, isCell⟩ := laid.isCell_of_mem inside
  have bound := laid.start_add_width_le below isCell
  have half := Nat.div_le_self (width h.unitMagnitude cell.1) 2
  rw [median, laid.valueFromIndex_eq below isCell, laid.rangeSize_eq below]
  apply int_of_bounds <;> omega

/-- The highest value of the range of a cell that has the slot of a value. -/
theorem rangeTop_eq {cell : Nat × Nat} (inside : cell ∈ h.cells) {v : Int} (lower : 0 ≤ v)
    (tracked : v ≤ h.highest)
    (same : slotOf h.subBucketHalfCountMagnitude cell.1 cell.2 = h.place v) :
    int (h.valueFromIndex cell.1 cell.2 + h.rangeSize cell.1 - 1) = h.rangeTop v := by
  obtain ⟨value, rfl⟩ := Int.eq_ofNat_of_zero_le lower
  obtain ⟨below, cellIs⟩ := laid.isCell_of_mem inside
  have bound := laid.start_add_width_le below cellIs
  have positive := LogLinear.width_pos h.unitMagnitude cell.1
  obtain ⟨sameBucket, sameSub⟩ := LogLinear.slotOf_injective cellIs (isCell _ _ _) same
  rw [Int.toNat_natCast] at sameBucket sameSub
  rw [rangeTop, laid.rangeStart_eq tracked, laid.rangeSize_bucketIndex tracked,
    laid.valueFromIndex_eq below cellIs, laid.rangeSize_eq below, ← sameBucket, ← sameSub]
  apply int_of_bounds <;> omega

theorem pairwise_median : h.cells.Pairwise fun first second =>
    h.median first < h.median second := by
  apply laid.pairwise_cells.imp_of_mem
  intro first second inFirst inSecond less
  have apart := LogLinear.end_le_start (u := h.unitMagnitude) (laid.isCell_of_mem inFirst).2
    (laid.isCell_of_mem inSecond).2 less
  have middle := (LogLinear.holds_middle h.unitMagnitude first.1 first.2).2
  rw [laid.median_eq inFirst, laid.median_eq inSecond]
  omega

end Laid

variable {h : Histogram} {values : List Int}

/-- The buckets are in ascending order. -/
theorem Laid.pairwise_buckets (laid : h.Laid) :
    (h.buckets.map Prod.fst).Pairwise (· < ·) := by
  rw [List.pairwise_map, buckets, List.pairwise_filterMap]
  apply laid.pairwise_median.imp
  intro first second less one isFirst other isSecond
  dsimp only at isFirst isSecond
  split at isFirst
  · cases isFirst
  split at isSecond
  · cases isSecond
  obtain rfl := Option.some.inj isFirst
  obtain rfl := Option.some.inj isSecond
  dsimp only
  exact less

/-- Buckets without occurrences do not count. -/
theorem sum_counts (h : Histogram) :
    (h.buckets.map fun bucket => bucket.2.toNat).sum =
      (h.cells.map fun cell => (h.countAt cell).toNat).sum := by
  unfold buckets
  induction h.cells with
  | nil => rfl
  | cons cell rest inductionHypothesis =>
      rw [List.filterMap_cons, List.map_cons, List.sum_cons, ← inductionHypothesis]
      by_cases zero : h.countAt cell = 0
      · simp [zero]
      · simp [zero]

namespace Tallied

variable (tallied : h.Tallied values)
include tallied

theorem countAt_eq {cell : Nat × Nat} (inside : cell ∈ h.cells) :
    h.countAt cell = UInt64.ofNat
      (tally h.place values (slotOf h.subBucketHalfCountMagnitude cell.1 cell.2)) := by
  have laid := tallied.laid
  obtain ⟨below, isCell⟩ := laid.isCell_of_mem inside
  rw [countAt, laid.countsIndex_eq below isCell, Int.toNat_natCast,
    tallied.counts _ (laid.slotOf_lt_length inside), Option.getD_some]

/-- Every value has a slot. -/
theorem place_lt {v : Int} (inside : v ∈ values) : h.place v < h.counts.length := by
  obtain ⟨lower, upper⟩ := tallied.tracked v inside
  obtain ⟨value, rfl⟩ := Int.eq_ofNat_of_zero_le lower
  exact tallied.laid.slot_lt_length upper

/-- The counts of the buckets add up to the number of values. -/
theorem sum_buckets (few : values.length < 2 ^ 64) :
    (h.buckets.map fun bucket => bucket.2.toNat).sum = h.totalCount.toNat := by
  have counts : h.cells.map (fun cell => (h.countAt cell).toNat) =
      (List.range h.counts.length).map (tally h.place values) := by
    rw [← tallied.laid.map_slotOf_cells, List.map_map]
    apply List.map_congr_left
    intro cell inside
    rw [tallied.countAt_eq inside, UInt64.toNat_ofNat', Nat.mod_eq_of_lt]
    · rfl
    · exact Nat.lt_of_le_of_lt (tally_le_length _ _) few
  rw [sum_counts, counts, sum_tally,
    below_eq_length fun v inside => tallied.place_lt inside, tallied.total,
    UInt64.toNat_ofNat', Nat.mod_eq_of_lt few]

/-- They add up to the total in 64 bits, however many values there are. -/
theorem ofNat_sum_buckets :
    UInt64.ofNat (h.buckets.map fun bucket => bucket.2.toNat).sum = h.totalCount := by
  have cells : ∀ cells : List (Nat × Nat), (∀ cell ∈ cells, cell ∈ h.cells) →
      UInt64.ofNat (cells.map fun cell => (h.countAt cell).toNat).sum =
        UInt64.ofNat (cells.map fun cell =>
          tally h.place values (slotOf h.subBucketHalfCountMagnitude cell.1 cell.2)).sum := by
    intro cells known
    induction cells with
    | nil => rfl
    | cons cell rest inductionHypothesis =>
        have later : ∀ other ∈ rest, other ∈ h.cells := by
          intro other inside
          exact known other (List.mem_cons_of_mem _ inside)
        rw [List.map_cons, List.sum_cons, List.map_cons, List.sum_cons, UInt64.ofNat_add,
          UInt64.ofNat_add, inductionHypothesis later, UInt64.ofNat_toNat,
          tallied.countAt_eq (known cell List.mem_cons_self)]
  have slots := congrArg (List.map (tally h.place values)) tallied.laid.map_slotOf_cells
  rw [List.map_map] at slots
  rw [sum_counts, cells h.cells fun _ inside => inside]
  have sum := congrArg List.sum slots
  rw [sum_tally, below_eq_length fun v inside => tallied.place_lt inside] at sum
  rw [tallied.total, ← sum]
  rfl

/-! ## Ranks -/

/-- The scan stops at the slot of the value of a rank. -/
theorem scan_eq (few : values.length < 2 ^ 64) {p : Nat} {value : Int}
    (inValues : value ∈ values)
    (before : below h.place values (h.place value) ≤ p)
    (after : p < below h.place values (h.place value + 1))
    {target : UInt64} (rank : target.toNat = p + 1) {rest : List (Nat × Nat)} {i count : Nat}
    (known : ∀ cell ∈ rest, cell ∈ h.cells)
    (slots : rest.map (fun cell => slotOf h.subBucketHalfCountMagnitude cell.1 cell.2) =
      List.range' i count)
    (lower : i ≤ h.place value) (upper : h.place value < i + count) :
    h.scan target rest (UInt64.ofNat (below h.place values i)) = h.rangeTop value := by
  induction rest generalizing i count with
  | nil =>
      have : count = 0 := by
        have := congrArg List.length slots
        simpa using this.symm
      omega
  | cons cell rest inductionHypothesis =>
      obtain ⟨left, rfl⟩ : ∃ left, count = left + 1 := by
        have := congrArg List.length slots
        simp only [List.length_map, List.length_cons, List.length_range'] at this
        exact ⟨_, this.symm⟩
      rw [List.map_cons, List.range'_succ, List.cons.injEq] at slots
      have inCells := known cell List.mem_cons_self
      have cum : UInt64.ofNat (below h.place values i) + h.countAt cell =
          UInt64.ofNat (below h.place values (i + 1)) := by
        rw [tallied.countAt_eq inCells, slots.1, below_succ, UInt64.ofNat_add]
      have exact : (UInt64.ofNat (below h.place values (i + 1))).toNat =
          below h.place values (i + 1) := by
        rw [UInt64.toNat_ofNat', Nat.mod_eq_of_lt]
        exact Nat.lt_of_le_of_lt (below_le_length _ _) few
      rw [scan, cum]
      by_cases here : i = h.place value
      · rw [if_pos]
        · obtain ⟨nonneg, tracked⟩ := tallied.tracked value inValues
          exact tallied.laid.rangeTop_eq inCells nonneg tracked (slots.1.trans here)
        · rw [UInt64.le_iff_toNat_le, exact, rank, here]
          exact after
      · have earlier : below h.place values (i + 1) ≤ below h.place values (h.place value) :=
          below_mono _ (by omega)
        rw [if_neg]
        · apply inductionHypothesis (fun other inside =>
            known other (List.mem_cons_of_mem _ inside)) slots.2 (by omega) (by omega)
        · rw [UInt64.le_iff_toNat_le, exact, rank]
          omega

end Tallied

/-- For each rank, the histogram finds the range of the value that has it. -/
def Ranks (h : Histogram) (values : List Int) : Prop :=
  ∀ quantileRank : UInt64 → UInt64,
    1 ≤ quantileRank h.totalCount → quantileRank h.totalCount ≤ h.totalCount →
    ∀ sorted : List Int, sorted.Perm values → sorted.Pairwise (· ≤ ·) →
      ∃ value, sorted[(quantileRank h.totalCount).toNat - 1]? = some value ∧
        h.valueAtQuantile quantileRank = h.rangeTop value

theorem Tallied.ranks (tallied : h.Tallied values) (few : values.length < 2 ^ 64) :
    h.Ranks values := by
  intro quantileRank lower upper sorted perm ordered
  have total : h.totalCount.toNat = values.length := by
    rw [tallied.total, UInt64.toNat_ofNat', Nat.mod_eq_of_lt few]
  generalize rankEq : quantileRank h.totalCount = rank at lower upper ⊢
  rw [UInt64.le_iff_toNat_le] at lower upper
  have one : (1 : UInt64).toNat = 1 := rfl
  have inside : rank.toNat - 1 < sorted.length := by
    rw [perm.length_eq]
    omega
  refine ⟨sorted.get ⟨rank.toNat - 1, inside⟩, List.getElem?_eq_getElem inside, ?_⟩
  generalize valueEq : sorted.get ⟨rank.toNat - 1, inside⟩ = value
  have found : sorted[rank.toNat - 1]? = some value := by
    rw [List.getElem?_eq_getElem inside, ← valueEq]
    rfl
  have inValues : value ∈ values := perm.mem_iff.mp (List.mem_of_getElem? found)
  have placed : sorted.Pairwise fun first second => h.place first ≤ h.place second := by
    apply ordered.imp
    intro first second le
    exact LogLinear.slot_mono (Int.toNat_le_toNat le)
  have before := below_slot_le placed found
  have after := lt_below_slot placed found
  rw [below_perm perm] at before after
  have nonempty : h.totalCount ≠ 0 := by
    intro zero
    rw [zero] at upper
    have : (0 : UInt64).toNat = 0 := rfl
    omega
  rw [valueAtQuantile, if_neg nonempty, rankEq]
  have slots := tallied.laid.map_slotOf_cells
  rw [List.range_eq_range'] at slots
  have start : UInt64.ofNat (below h.place values 0) = 0 := by
    rw [below_zero]
    rfl
  rw [← start]
  apply tallied.scan_eq few inValues before after (by omega) (fun _ known => known) slots
    (Nat.zero_le _)
  rw [Nat.zero_add]
  exact tallied.place_lt inValues

end Histogram

/-! ## The layout and the records -/

/-- The layout of an accepted histogram gives every value one range that is narrow
enough, in order.  Values in range are recorded, in buckets in ascending order; after
calls that record fewer than 2 ^ 64 occurrences, the buckets add up to the total, and the
scan finds the range of the value of each rank. -/
theorem histogram_layout_correct (floorLog2 : Int → Int) (lowest highest sigfigs : Int64)
    (accepted : checkParams lowest highest sigfigs = .ok ())
    (small : highest.toInt < 2 ^ 62)
    (fits : 2 ^ (halfCountMagnitude sigfigs + 1) * 2 ^ unitMagnitudeOf floorLog2 lowest <
      2 ^ 62) :
    ∃ h : Histogram,
      (∀ rounds, 63 ≤ rounds →
        newHistogram floorLog2 rounds lowest highest sigfigs = .ok (some h)) ∧
      (∀ v, 0 ≤ v → v ≤ highest.toInt →
        0 ≤ h.slotIndex v ∧ h.slotIndex v < h.counts.length ∧ h.InRange v v ∧
          h.rangeSize (h.bucketIndex v) ≤
            max (2 ^ unitMagnitudeOf floorLog2 lowest) (v / 10 ^ sigfigs.toInt.toNat)) ∧
      (∀ v w, 0 ≤ v → v ≤ w → w ≤ highest.toInt → h.slotIndex v ≤ h.slotIndex w) ∧
      (∀ v w, 0 ≤ v → v ≤ highest.toInt → 0 ≤ w → w ≤ highest.toInt →
        (h.slotIndex v = h.slotIndex w ↔
          ∃ x, 0 ≤ x ∧ x ≤ highest.toInt ∧ h.InRange x v ∧ h.InRange x w)) ∧
      (∀ records : List (Int × UInt64),
        (∀ record ∈ records, 0 ≤ record.1 ∧ record.1 ≤ highest.toInt) →
        ∃ recorded, h.recordAll records = some recorded) ∧
      ∀ records recorded, h.recordAll records = some recorded →
        (recorded.buckets.map Prod.fst).Pairwise (· < ·) ∧
        ((Histogram.occurrences records).length < 2 ^ 64 →
          (recorded.buckets.map fun bucket => bucket.2.toNat).sum =
            recorded.totalCount.toNat ∧
          recorded.Ranks (Histogram.occurrences records)) := by
  rw [← Nat.pow_add, Nat.pow_lt_pow_iff_right (by decide)] at fits
  obtain ⟨bucketCount, laid, result⟩ :=
    exists_newHistogram floorLog2 accepted small (by omega)
  refine ⟨_, result, ?_, ?_, ?_,
    fun _ => (tallied_emptyHistogram laid).exists_recordAll, ?_⟩
  · intro v lower upper
    obtain ⟨value, rfl⟩ := Int.eq_ofNat_of_zero_le lower
    have index := laid.slotIndex_eq upper
    have inside := laid.slot_lt_length upper
    refine ⟨by omega, by omega, (laid.inRange_iff upper).mpr (LogLinear.holds _ _ value), ?_⟩
    have narrow := laid.rangeSize_le upper (pow_le_halfCount sigfigs)
      (Nat.pow_pos (by decide))
    rw [Int.natCast_pow] at narrow
    exact narrow
  · intro v w lower le upper
    obtain ⟨value, rfl⟩ := Int.eq_ofNat_of_zero_le lower
    obtain ⟨other, rfl⟩ := Int.eq_ofNat_of_zero_le (Int.le_trans lower le)
    rw [laid.slotIndex_eq (Int.le_trans le upper), laid.slotIndex_eq upper]
    exact Int.ofNat_le.mpr (LogLinear.slot_mono (Int.ofNat_le.mp le))
  · intro v w lower upper lowerOther upperOther
    obtain ⟨value, rfl⟩ := Int.eq_ofNat_of_zero_le lower
    obtain ⟨other, rfl⟩ := Int.eq_ofNat_of_zero_le lowerOther
    constructor
    · intro same
      exact ⟨value, lower, upper,
        (laid.slotIndex_eq_iff_inRange upper upper).mp rfl,
        (laid.slotIndex_eq_iff_inRange upper upperOther).mp same⟩
    · rintro ⟨x, lowerX, upperX, inFirst, inSecond⟩
      obtain ⟨common, rfl⟩ := Int.eq_ofNat_of_zero_le lowerX
      rw [← (laid.slotIndex_eq_iff_inRange upperX upper).mpr inFirst]
      exact (laid.slotIndex_eq_iff_inRange upperX upperOther).mpr inSecond
  · intro records recorded success
    obtain ⟨tallied, _⟩ := (tallied_emptyHistogram laid).recordAll success
    rw [List.nil_append] at tallied
    exact ⟨tallied.laid.pairwise_buckets,
      fun few => ⟨tallied.sum_buckets few, tallied.ranks few⟩⟩

/-- The histogram of a minute, in which two values are recorded, one of them twice. -/
theorem histogram_layout_correct_minute :
    ∃ h recorded : Histogram,
      newHistogram exactLog2 63 1 60000000000 3 = .ok (some h) ∧
      h.slotIndex 1000 ≤ h.slotIndex 2000 ∧
      h.recordAll [(2000, 1), (1000, 2)] = some recorded ∧
      (recorded.buckets.map Prod.fst).Pairwise (· < ·) ∧
      (recorded.buckets.map fun bucket => bucket.2.toNat).sum =
        recorded.totalCount.toNat ∧
      recorded.Ranks [2000, 1000, 1000] := by
  obtain ⟨h, result, _, mono, _, records, recorded⟩ := histogram_layout_correct exactLog2 1
    60000000000 3 (by decide) (by decide) (by decide +kernel)
  obtain ⟨full, success⟩ := records [(2000, 1), (1000, 2)] (by decide)
  obtain ⟨ordered, counted⟩ := recorded _ full success
  exact ⟨h, full, result 63 (Nat.le_refl 63),
    mono 1000 2000 (by decide) (by decide) (by decide), success, ordered,
    counted (by decide)⟩

/-! ## Counts that wrap around -/

namespace Histogram

/-- Values that are recorded in ascending order are in ascending order. -/
theorem pairwise_occurrences {records : List (Int × UInt64)}
    (ordered : records.Pairwise fun first second => first.1 ≤ second.1) :
    (occurrences records).Pairwise (· ≤ ·) := by
  rw [occurrences, List.pairwise_flatMap]
  constructor
  · intro record _
    exact List.pairwise_replicate.mpr (.inr (Int.le_refl _))
  · apply ordered.imp
    intro first second le one inFirst other inSecond
    rw [List.eq_of_mem_replicate inFirst, List.eq_of_mem_replicate inSecond]
    exact le

theorem getElem?_occurrences_zero {v : Int} {n : UInt64} (positive : 0 < n.toNat)
    (rest : List (Int × UInt64)) : (occurrences ((v, n) :: rest))[0]? = some v := by
  have split : occurrences ((v, n) :: rest) =
      List.replicate n.toNat v ++ occurrences rest := rfl
  have inside : 0 < (List.replicate n.toNat v).length := by
    rw [List.length_replicate]
    exact positive
  rw [split, List.getElem?_append_left inside, List.getElem?_replicate, if_pos positive]

end Histogram

/-- Records whose count of the value 0 is 2 ^ 64. -/
def wrappingRecords : List (Int × UInt64) :=
  [(0, 9223372036854775808), (0, 9223372036854775808), (5, 1)]

/-- The lowest of 2 ^ 64 and one occurrences is 0, but its count is 0 too, and the scan
for rank 1 finds the range of 5. -/
theorem ranks_of_wrapped_counts :
    ∃ h recorded : Histogram, newHistogram exactLog2 63 1 10 1 = .ok (some h) ∧
      h.recordAll wrappingRecords = some recorded ∧
      ¬ recorded.Ranks (Histogram.occurrences wrappingRecords) := by
  have run : ((emptyHistogram 10 0 4 1).recordAll wrappingRecords).map
      (fun recorded => (recorded.totalCount, recorded.valueAtQuantile fun _ => 1,
        recorded.rangeTop 0)) = some (1, 5, 0) := by
    decide +kernel
  obtain ⟨recorded, success, facts⟩ := Option.map_eq_some_iff.mp run
  simp only [Prod.mk.injEq] at facts
  obtain ⟨total, found, top⟩ := facts
  refine ⟨emptyHistogram 10 0 4 1, recorded, by rfl, success, ?_⟩
  intro ranks
  have ordered : (Histogram.occurrences wrappingRecords).Pairwise (· ≤ ·) :=
    Histogram.pairwise_occurrences (by decide)
  obtain ⟨value, first, result⟩ := ranks (fun _ => 1) (by decide) (by rw [total]; decide)
    _ (List.Perm.refl _) ordered
  have zero : value = 0 := by
    have := Histogram.getElem?_occurrences_zero (v := 0) (n := 9223372036854775808) (by decide)
      [(0, 9223372036854775808), (5, 1)]
    have same : (Histogram.occurrences wrappingRecords)[0]? = some value := first
    rw [wrappingRecords, this] at same
    exact (Option.some.inj same).symm
  rw [zero, found, top] at result
  exact absurd result (by decide)

end Benchkit
end Gorums
