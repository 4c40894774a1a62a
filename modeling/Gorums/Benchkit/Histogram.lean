import Gorums.Benchkit.LogLinear
import Gorums.Benchkit.Tally
import Gorums.MachineInt
import Mathlib.Data.Nat.Log

/-!
# Histograms

A histogram with bounded memory whose buckets grow with the magnitude of the values.
The constructor counts the buckets by shifting a 64-bit integer to the left until it
is larger than the highest value; the slot of a value is found from bit lengths,
shifts and a mask.  Here the loop ends for the parameters for which no shift
overflows and for no others that track a value, and the slots are those of a
log-linear layout.
-/

namespace Gorums
namespace Benchkit

open Gorums.MachineInt

/-! ## The source -/

/-- A log-linear histogram. -/
structure Histogram where
  /-- The highest value that can be recorded. -/
  highest : Int
  /-- The magnitude of the smallest range. -/
  unitMagnitude : Nat
  /-- The magnitude of the number of sub-buckets in half a bucket. -/
  subBucketHalfCountMagnitude : Nat
  /-- The number of sub-buckets of a bucket. -/
  subBucketCount : Nat
  /-- The number of sub-buckets in half a bucket. -/
  subBucketHalfCount : Nat
  /-- The bits that tell the sub-buckets of the first bucket apart. -/
  subBucketMask : Int
  /-- The number of buckets. -/
  bucketCount : Nat
  /-- The number of occurrences recorded in each slot. -/
  counts : List UInt64
  /-- The number of occurrences recorded. -/
  totalCount : UInt64 := 0
  /-- The lowest value recorded. -/
  minValue : Int := 2 ^ 63 - 1
  /-- The highest value recorded. -/
  maxValue : Int := 0

/-- The parameter checks of the constructor, which panics where this is an error. -/
def checkParams (lowest highest sigfigs : Int64) : Except String Unit :=
  if lowest.toInt < 1 ∨ highest.toInt < int (2 * lowest.toInt) then
    .error ("benchkit.NewHistogram: need 1 <= lowest and highest >= 2*lowest, got [" ++
      toString lowest.toInt ++ ", " ++ toString highest.toInt ++ "]")
  else if sigfigs.toInt < 1 ∨ 5 < sigfigs.toInt then
    .error ("benchkit.NewHistogram: sigfigs must be in [1, 5], got " ++
      toString sigfigs.toInt)
  else .ok ()

/-- The loop that counts the buckets, for a number of rounds: nothing while it goes on. -/
def bucketLoop (highest : Int) : Nat → Int → Nat → Option Nat
  | 0, _, _ => none
  | rounds + 1, smallestUntrackable, bucketCount =>
      if smallestUntrackable ≤ highest then
        bucketLoop highest rounds (int (smallestUntrackable * 2)) (bucketCount + 1)
      else some bucketCount

/-- The magnitude of half the smallest power of two that resolves some decimal digits. -/
def halfCountMagnitude (sigfigs : Int64) : Nat :=
  Nat.clog 2 (2 * 10 ^ sigfigs.toInt.toNat) - 1

/-- The magnitude of the lowest value, from the logarithm in floating point. -/
def unitMagnitudeOf (floorLog2 : Int → Int) (lowest : Int64) : Nat :=
  (max (floorLog2 lowest.toInt) 0).toNat

/-- A histogram without values, with a number of buckets. -/
def emptyHistogram (highest : Int)
    (unitMagnitude subBucketHalfCountMagnitude bucketCount : Nat) : Histogram :=
  let subBucketCount : Nat := 2 ^ (subBucketHalfCountMagnitude + 1)
  let subBucketHalfCount := subBucketCount / 2
  { highest := highest
    unitMagnitude := unitMagnitude
    subBucketHalfCountMagnitude := subBucketHalfCountMagnitude
    subBucketCount := subBucketCount
    subBucketHalfCount := subBucketHalfCount
    subBucketMask := int ((subBucketCount - 1) * 2 ^ unitMagnitude)
    bucketCount := bucketCount
    counts := List.replicate ((bucketCount + 1) * subBucketHalfCount) 0 }

/-- A new histogram, if the loop is done after a number of rounds.  The rounded down
logarithm of a number is computed in floating point, which need not be exact. -/
def newHistogram (floorLog2 : Int → Int) (rounds : Nat)
    (lowest highest sigfigs : Int64) : Except String (Option Histogram) :=
  match checkParams lowest highest sigfigs with
  | .error err => .error err
  | .ok () =>
      let subBucketHalfCountMagnitude := halfCountMagnitude sigfigs
      let unitMagnitude := unitMagnitudeOf floorLog2 lowest
      let subBucketCount : Nat := 2 ^ (subBucketHalfCountMagnitude + 1)
      let bucketCount :=
        bucketLoop highest.toInt rounds (int (subBucketCount * 2 ^ unitMagnitude)) 1
      .ok (bucketCount.map
        (emptyHistogram highest.toInt unitMagnitude subBucketHalfCountMagnitude))

namespace Histogram

/-- The bucket that holds a value. -/
def bucketIndex (h : Histogram) (v : Int) : Int :=
  let pow2Ceiling := (word (or v h.subBucketMask)).size
  pow2Ceiling - h.unitMagnitude - (h.subBucketHalfCountMagnitude + 1)

/-- The sub-bucket of a value within a bucket. -/
def subBucketIndex (h : Histogram) (v bucketIdx : Int) : Int :=
  v / 2 ^ (bucketIdx + h.unitMagnitude).toNat

/-- The slot of a sub-bucket. -/
def countsIndex (h : Histogram) (bucketIdx subBucketIdx : Int) : Int :=
  let base := int ((bucketIdx + 1) * 2 ^ h.subBucketHalfCountMagnitude)
  int (base + subBucketIdx - h.subBucketHalfCount)

/-- The lowest value of a sub-bucket. -/
def valueFromIndex (h : Histogram) (bucketIdx subBucketIdx : Int) : Int :=
  int (subBucketIdx * 2 ^ (bucketIdx + h.unitMagnitude).toNat)

/-- The width of the sub-buckets of a bucket. -/
def rangeSize (h : Histogram) (bucketIdx : Int) : Int :=
  int (2 ^ (bucketIdx + h.unitMagnitude).toNat)

/-- The slot of a value. -/
def slotIndex (h : Histogram) (v : Int) : Int :=
  let bucketIdx := h.bucketIndex v
  h.countsIndex bucketIdx (h.subBucketIndex v bucketIdx)

/-- Record occurrences of a value.  A value that is out of range is an error; an index
that is out of range panics, which gives nothing. -/
def recordValueN (h : Histogram) (v : Int) (n : UInt64) :
    Option (Histogram × Option String) :=
  if v < 0 ∨ h.highest < v then
    some (h, some ("value " ++ toString v ++ " outside trackable range [0, " ++
      toString h.highest ++ "]"))
  else if n = 0 then some (h, none)
  else if h.slotIndex v < 0 ∨ h.counts.length ≤ h.slotIndex v then none
  else
    some
      ({ h with
          counts := h.counts.modify (h.slotIndex v).toNat (· + n)
          totalCount := h.totalCount + n
          minValue := min h.minValue v
          maxValue := max h.maxValue v }, none)

/-- The pairs of bucket and sub-bucket that the loops over the slots visit, in order. -/
def cells (h : Histogram) : List (Nat × Nat) :=
  (List.range h.bucketCount).flatMap fun bucketIdx =>
    let subLo := if 0 < bucketIdx then h.subBucketHalfCount else 0
    (List.range' subLo (h.subBucketCount - subLo)).map fun subBucketIdx =>
      (bucketIdx, subBucketIdx)

/-- The occurrences in the slot of a sub-bucket. -/
def countAt (h : Histogram) (cell : Nat × Nat) : UInt64 :=
  h.counts[(h.countsIndex cell.1 cell.2).toNat]?.getD 0

/-- The middle of the range of a sub-bucket. -/
def median (h : Histogram) (cell : Nat × Nat) : Int :=
  int (h.valueFromIndex cell.1 cell.2 + h.rangeSize cell.1 / 2)

/-- The occupied buckets: the middle of each range with its number of occurrences. -/
def buckets (h : Histogram) : List (Int × UInt64) :=
  h.cells.filterMap fun cell =>
    let c := h.countAt cell
    if c = 0 then none
    else some (h.median cell, c)

/-- The scan of `ValueAtQuantile` over the slots that are left. -/
def scan (h : Histogram) (target : UInt64) : List (Nat × Nat) → UInt64 → Int
  | [], _ => h.maxValue
  | cell :: rest, cum =>
      let cum := cum + h.countAt cell
      if target ≤ cum then
        int (h.valueFromIndex cell.1 cell.2 + h.rangeSize cell.1 - 1)
      else scan h target rest cum

/-- The highest value of the bucket that holds a quantile, with the function that
gives the rank of the quantile among a number of values. -/
def valueAtQuantile (h : Histogram) (quantileRank : UInt64 → UInt64) : Int :=
  if h.totalCount = 0 then 0
  else h.scan (quantileRank h.totalCount) h.cells 0

end Histogram

/-! ## The loop -/

/-- One round of the loop at a power of two. -/
theorem bucketLoop_two_pow (highest : Int) (rounds exp bucketCount : Nat) :
    bucketLoop highest (rounds + 1) (int (2 ^ exp)) bucketCount =
      if int (2 ^ exp) ≤ highest then
        bucketLoop highest rounds (int (2 ^ (exp + 1))) (bucketCount + 1)
      else some bucketCount := by
  rw [bucketLoop, int_int_mul, ← pow_succ]

/-- The loop goes on for as long as no power is larger than the highest value. -/
theorem bucketLoop_eq_none {highest : Int} {exp : Nat}
    (never : ∀ later, exp ≤ later → int (2 ^ later) ≤ highest) (rounds bucketCount : Nat) :
    bucketLoop highest rounds (int (2 ^ exp)) bucketCount = none := by
  induction rounds generalizing exp bucketCount with
  | zero => rfl
  | succ rounds inductionHypothesis =>
      rw [bucketLoop_two_pow, if_pos (never exp (Nat.le_refl exp))]
      apply inductionHypothesis
      intro later after
      exact never later (Nat.le_of_succ_le after)

/-- The loop ends at the first power that is larger than the highest value. -/
theorem bucketLoop_eq_some {highest : Int} (small : highest < 2 ^ 62) (left : Nat)
    {exp : Nat} (fits : exp + left = 62) (bucketCount : Nat) :
    ∃ more ≤ left, highest < 2 ^ (exp + more) ∧
      ∀ rounds, left < rounds →
        bucketLoop highest rounds (int (2 ^ exp)) bucketCount =
          some (bucketCount + more) := by
  have power : int (2 ^ exp) = 2 ^ exp := int_two_pow (by omega)
  by_cases untracked : (2 : Int) ^ exp ≤ highest
  · cases left with
    | zero =>
        rw [Nat.add_zero] at fits
        rw [fits] at untracked
        exact absurd untracked (Int.not_le.mpr small)
    | succ left =>
        obtain ⟨more, bound, covers, result⟩ :=
          bucketLoop_eq_some small left (show exp + 1 + left = 62 by omega) (bucketCount + 1)
        refine ⟨more + 1, by omega, ?_, ?_⟩
        · rw [← Nat.add_assoc, Nat.add_right_comm]
          exact covers
        · intro rounds enough
          obtain ⟨rest, rfl⟩ := Nat.exists_eq_succ_of_ne_zero (Nat.ne_zero_of_lt enough)
          rw [bucketLoop_two_pow, power, if_pos untracked, result rest (by omega),
            Nat.add_assoc, Nat.add_comm 1 more]
  · refine ⟨0, Nat.zero_le left, Int.not_le.mp untracked, ?_⟩
    intro rounds enough
    obtain ⟨rest, rfl⟩ := Nat.exists_eq_succ_of_ne_zero (Nat.ne_zero_of_lt enough)
    rw [bucketLoop_two_pow, power, if_neg untracked, Nat.add_zero]

/-- The loop ends at once, or after the one power that is negative, if no value is
to be tracked. -/
theorem bucketLoop_of_neg {highest : Int} (negative : highest < 0) (exp bucketCount : Nat) :
    ∃ count, ∀ rounds, 2 ≤ rounds →
      bucketLoop highest rounds (int (2 ^ exp)) bucketCount = some count := by
  by_cases last : int (2 ^ exp) ≤ highest
  · have next : ¬ int (2 ^ (exp + 1)) ≤ highest := by
      rcases Nat.lt_or_ge exp 63 with below | above
      · rw [int_two_pow (by omega)] at last
        have : (0 : Int) < 2 ^ exp := Int.pow_pos (by decide)
        omega
      · rw [int_two_pow_of_le (by omega)]
        omega
    refine ⟨bucketCount + 1, ?_⟩
    intro rounds enough
    obtain ⟨rest, rfl⟩ := Nat.exists_eq_add_of_le enough
    rw [Nat.add_comm 2 rest, bucketLoop_two_pow, if_pos last, bucketLoop_two_pow,
      if_neg next]
  · refine ⟨bucketCount, ?_⟩
    intro rounds enough
    obtain ⟨rest, rfl⟩ := Nat.exists_eq_add_of_le enough
    rw [Nat.add_comm 2 rest, bucketLoop_two_pow, if_neg last]

/-! ## The layout -/

namespace Histogram

open LogLinear

/-- The fields of a histogram describe a log-linear layout that covers the values up
to the highest one. -/
structure Laid (h : Histogram) : Prop where
  /-- The number of sub-buckets has the magnitude of the layout. -/
  count : h.subBucketCount = 2 ^ (h.subBucketHalfCountMagnitude + 1)
  /-- So has half of it. -/
  half : h.subBucketHalfCount = 2 ^ h.subBucketHalfCountMagnitude
  /-- The mask has the bits of the sub-buckets of the first bucket. -/
  mask : h.subBucketMask =
    ((2 ^ (h.subBucketHalfCountMagnitude + 1) - 1) * 2 ^ h.unitMagnitude : Nat)
  /-- There is a bucket. -/
  positive : 0 < h.bucketCount
  /-- No value of the layout overflows. -/
  fits : h.unitMagnitude + h.subBucketHalfCountMagnitude + h.bucketCount ≤ 62
  /-- The layout covers the highest value. -/
  covers : h.highest <
    2 ^ (h.unitMagnitude + h.subBucketHalfCountMagnitude + h.bucketCount)
  /-- There is a count for each slot. -/
  length : h.counts.length =
    (h.bucketCount + 1) * 2 ^ h.subBucketHalfCountMagnitude

theorem subBucketIndex_eq (h : Histogram) (v b : Nat) :
    h.subBucketIndex v b = (v / width h.unitMagnitude b : Nat) := by
  rw [subBucketIndex, ← Int.natCast_add, Int.toNat_natCast, width, Int.natCast_ediv,
    Int.natCast_pow]
  rfl

namespace Laid

variable {h : Histogram} (laid : h.Laid)
include laid

theorem two_pow_le {exp : Nat}
    (small : exp ≤ h.unitMagnitude + h.subBucketHalfCountMagnitude + h.bucketCount) :
    2 ^ exp ≤ 2 ^ 62 :=
  Nat.pow_le_pow_right Nat.two_pos (Nat.le_trans small laid.fits)

theorem bucketIndex_eq {v : Nat} (small : v ≤ maxInt) :
    h.bucketIndex v = bucket h.unitMagnitude h.subBucketHalfCountMagnitude v := by
  have positive := laid.positive
  have mask : (2 ^ (h.subBucketHalfCountMagnitude + 1) - 1) * 2 ^ h.unitMagnitude ≤
      maxInt := by
    have : (2 ^ (h.subBucketHalfCountMagnitude + 1) - 1) * 2 ^ h.unitMagnitude ≤ 2 ^ 62 := by
      calc (2 ^ (h.subBucketHalfCountMagnitude + 1) - 1) * 2 ^ h.unitMagnitude
          ≤ 2 ^ (h.subBucketHalfCountMagnitude + 1) * 2 ^ h.unitMagnitude :=
            Nat.mul_le_mul_right _ (Nat.sub_le _ _)
        _ = 2 ^ (h.subBucketHalfCountMagnitude + 1 + h.unitMagnitude) :=
            (Nat.pow_add 2 _ _).symm
        _ ≤ 2 ^ 62 := laid.two_pow_le (by omega)
    unfold maxInt
    omega
  have total : v ||| (2 ^ (h.subBucketHalfCountMagnitude + 1) - 1) * 2 ^ h.unitMagnitude ≤
      maxInt := by
    unfold maxInt at *
    have := Nat.or_lt_two_pow (n := 63) (show v < 2 ^ 63 by omega)
      (show _ < 2 ^ 63 from Nat.lt_of_le_of_lt mask (by decide))
    omega
  rw [bucketIndex, laid.mask, or_natCast small mask, word_natCast total, size_or_mask]
  omega

theorem countsIndex_eq {b s : Nat} (inside : b < h.bucketCount)
    (cell : IsCell h.subBucketHalfCountMagnitude b s) :
    h.countsIndex b s = slotOf h.subBucketHalfCountMagnitude b s := by
  have fits := laid.fits
  have positive := laid.positive
  have base : (b + 1) * 2 ^ h.subBucketHalfCountMagnitude ≤ 2 ^ 62 := by
    have exponent : b + 1 < 2 ^ (62 - h.subBucketHalfCountMagnitude) :=
      Nat.lt_of_le_of_lt (by omega) Nat.lt_two_pow_self
    calc (b + 1) * 2 ^ h.subBucketHalfCountMagnitude
        ≤ 2 ^ (62 - h.subBucketHalfCountMagnitude) * 2 ^ h.subBucketHalfCountMagnitude :=
          Nat.mul_le_mul_right _ (Nat.le_of_lt exponent)
      _ = 2 ^ 62 := by
          rw [← Nat.pow_add]
          congr 1
          omega
  have sub : s < 2 ^ 62 := Nat.lt_of_lt_of_le cell.1 (laid.two_pow_le (by omega))
  have product : ((b : Int) + 1) * 2 ^ h.subBucketHalfCountMagnitude =
      ((b + 1) * 2 ^ h.subBucketHalfCountMagnitude : Nat) := by
    push_cast
    rfl
  have sum : ((b + 1) * 2 ^ h.subBucketHalfCountMagnitude : Nat) + (s : Int) -
      (2 ^ h.subBucketHalfCountMagnitude : Nat) =
        slotOf h.subBucketHalfCountMagnitude b s := by
    rw [slotOf, Nat.add_mul]
    omega
  rw [countsIndex, laid.half, product, int_natCast (by unfold maxInt; omega), sum]
  apply int_natCast
  rw [Nat.add_mul] at base
  unfold slotOf maxInt
  omega

/-- The values of a bucket stay below the first value that is not covered. -/
theorem start_add_width_le {b s : Nat} (inside : b < h.bucketCount)
    (cell : IsCell h.subBucketHalfCountMagnitude b s) :
    start h.unitMagnitude b s + width h.unitMagnitude b ≤ 2 ^ 62 := by
  calc start h.unitMagnitude b s + width h.unitMagnitude b
      = (s + 1) * 2 ^ (b + h.unitMagnitude) := by
        rw [start, width, Nat.add_mul, Nat.one_mul]
    _ ≤ 2 ^ (h.subBucketHalfCountMagnitude + 1) * 2 ^ (b + h.unitMagnitude) :=
        Nat.mul_le_mul_right _ cell.1
    _ = 2 ^ (h.subBucketHalfCountMagnitude + 1 + (b + h.unitMagnitude)) :=
        (Nat.pow_add 2 _ _).symm
    _ ≤ 2 ^ 62 := laid.two_pow_le (by omega)

theorem valueFromIndex_eq {b s : Nat} (inside : b < h.bucketCount)
    (cell : IsCell h.subBucketHalfCountMagnitude b s) :
    h.valueFromIndex b s = start h.unitMagnitude b s := by
  have bound := laid.start_add_width_le inside cell
  have product : (s : Int) * 2 ^ (b + h.unitMagnitude) = start h.unitMagnitude b s := by
    rw [start, width]
    push_cast
    rfl
  rw [valueFromIndex, ← Int.natCast_add, Int.toNat_natCast, product]
  apply int_natCast
  unfold maxInt
  omega

theorem rangeSize_eq {b : Nat} (inside : b < h.bucketCount) :
    h.rangeSize b = width h.unitMagnitude b := by
  have fits := laid.fits
  rw [rangeSize, ← Int.natCast_add, Int.toNat_natCast, int_two_pow (by omega), width]
  push_cast
  rfl

/-- A value up to the highest one is in one of the buckets. -/
theorem bucket_lt {v : Nat} (tracked : (v : Int) ≤ h.highest) :
    bucket h.unitMagnitude h.subBucketHalfCountMagnitude v < h.bucketCount := by
  apply LogLinear.bucket_lt ?_ laid.positive
  have := Int.lt_of_le_of_lt tracked laid.covers
  exact_mod_cast this

theorem le_maxInt {v : Nat} (tracked : (v : Int) ≤ h.highest) : v ≤ maxInt := by
  have covered : v < 2 ^ (h.unitMagnitude + h.subBucketHalfCountMagnitude +
      h.bucketCount) := by
    exact_mod_cast Int.lt_of_le_of_lt tracked laid.covers
  have := laid.two_pow_le (Nat.le_refl _)
  unfold maxInt
  omega

/-- The slot of a value is that of the layout. -/
theorem slotIndex_eq {v : Nat} (tracked : (v : Int) ≤ h.highest) :
    h.slotIndex v = slot h.unitMagnitude h.subBucketHalfCountMagnitude v := by
  rw [slotIndex, laid.bucketIndex_eq (laid.le_maxInt tracked), subBucketIndex_eq]
  exact laid.countsIndex_eq (laid.bucket_lt tracked) (isCell _ _ v)

/-- The slot of a value is in the counts. -/
theorem slot_lt_length {v : Nat} (tracked : (v : Int) ≤ h.highest) :
    slot h.unitMagnitude h.subBucketHalfCountMagnitude v < h.counts.length := by
  obtain ⟨buckets, count⟩ := Nat.exists_eq_succ_of_ne_zero (Nat.ne_of_gt laid.positive)
  rw [laid.length, count]
  apply slot_lt
  have := Int.lt_of_le_of_lt tracked laid.covers
  rw [count] at this
  exact_mod_cast this

/-- A value that is not out of range can be recorded. -/
theorem exists_recordValueN {v : Nat} (tracked : (v : Int) ≤ h.highest) (n : UInt64) :
    ∃ recorded, h.recordValueN v n = some (recorded, none) := by
  have index := laid.slotIndex_eq tracked
  have inside := laid.slot_lt_length tracked
  rw [recordValueN, if_neg (by omega)]
  split
  · exact ⟨h, rfl⟩
  · rw [if_neg (by omega)]
    exact ⟨_, rfl⟩

/-- The loops over the slots visit the cells of the layout. -/
theorem cells_eq : h.cells =
    LogLinear.cells h.subBucketHalfCountMagnitude h.bucketCount := by
  unfold cells LogLinear.cells
  congr 1
  funext b
  rw [bucketCells, laid.count, laid.half]
  rcases Nat.eq_zero_or_pos b with first | later
  · rw [if_neg (by omega), if_pos first]
  · rw [if_pos later, if_neg (by omega)]

end Laid

end Histogram

/-! ## The constructor -/

/-- The half count resolves the decimal digits. -/
theorem pow_le_halfCount (sigfigs : Int64) :
    10 ^ sigfigs.toInt.toNat ≤ 2 ^ halfCountMagnitude sigfigs := by
  have least : 2 * 10 ^ sigfigs.toInt.toNat ≤
      2 ^ Nat.clog 2 (2 * 10 ^ sigfigs.toInt.toNat) :=
    Nat.le_pow_clog (by decide) _
  have positive : 0 < Nat.clog 2 (2 * 10 ^ sigfigs.toInt.toNat) := by
    apply Nat.clog_pos (by decide)
    have : 0 < 10 ^ sigfigs.toInt.toNat := Nat.pow_pos (by decide)
    omega
  obtain ⟨half, eq⟩ := Nat.exists_eq_succ_of_ne_zero (Nat.ne_of_gt positive)
  rw [halfCountMagnitude, eq, Nat.succ_sub_one]
  rw [eq, Nat.pow_succ] at least
  omega

/-- The first value that the loop starts with. -/
theorem untrackable_eq (k u : Nat) :
    int (((2 ^ (k + 1) : Nat) : Int) * 2 ^ u) = int (2 ^ (u + k + 1)) := by
  congr 1
  push_cast
  ring

/-- The layout of an empty histogram whose buckets cover the values. -/
theorem laid_emptyHistogram {highest : Int} {u k bucketCount : Nat}
    (positive : 0 < bucketCount) (fits : u + k + bucketCount ≤ 62)
    (covers : highest < 2 ^ (u + k + bucketCount)) :
    (emptyHistogram highest u k bucketCount).Laid := by
  have half : 2 ^ (k + 1) / 2 = 2 ^ k := by
    rw [Nat.pow_succ, Nat.mul_div_cancel _ Nat.two_pos]
  refine ⟨rfl, half, ?_, positive, fits, covers, ?_⟩
  · have cast : (((2 ^ (k + 1) : Nat) : Int) - 1) * 2 ^ u =
        ((2 ^ (k + 1) - 1) * 2 ^ u : Nat) := by
      rw [Int.natCast_mul, Int.ofNat_sub Nat.one_le_two_pow]
      push_cast
      rfl
    have bound : (2 ^ (k + 1) - 1) * 2 ^ u ≤ 2 ^ 62 := by
      calc (2 ^ (k + 1) - 1) * 2 ^ u
          ≤ 2 ^ (k + 1) * 2 ^ u := Nat.mul_le_mul_right _ (Nat.sub_le _ _)
        _ = 2 ^ (k + 1 + u) := (Nat.pow_add 2 _ _).symm
        _ ≤ 2 ^ 62 := Nat.pow_le_pow_right Nat.two_pos (by omega)
    simp only [emptyHistogram]
    rw [cast]
    apply int_natCast
    unfold maxInt
    omega
  · simp only [emptyHistogram, List.length_replicate, half]

section
variable (floorLog2 : Int → Int) {lowest highest sigfigs : Int64}

/-- The constructor ends with an empty histogram whose buckets cover the values. -/
theorem exists_newHistogram (accepted : checkParams lowest highest sigfigs = .ok ())
    (small : highest.toInt < 2 ^ 62)
    (fits : unitMagnitudeOf floorLog2 lowest + halfCountMagnitude sigfigs + 1 ≤ 62) :
    ∃ bucketCount,
      (emptyHistogram highest.toInt (unitMagnitudeOf floorLog2 lowest)
        (halfCountMagnitude sigfigs) bucketCount).Laid ∧
      ∀ rounds, 63 ≤ rounds →
        newHistogram floorLog2 rounds lowest highest sigfigs =
          .ok (some (emptyHistogram highest.toInt (unitMagnitudeOf floorLog2 lowest)
            (halfCountMagnitude sigfigs) bucketCount)) := by
  obtain ⟨left, total⟩ := Nat.exists_eq_add_of_le fits
  obtain ⟨more, bound, covers, result⟩ := bucketLoop_eq_some small left total.symm 1
  refine ⟨1 + more, laid_emptyHistogram (by omega) (by omega) ?_, ?_⟩
  · rw [← Nat.add_assoc]
    exact covers
  · intro rounds enough
    simp only [newHistogram, accepted, untrackable_eq, result rounds (by omega),
      Option.map_some]

/-- The constructor does not end if a shift overflows before the highest value. -/
theorem newHistogram_eq_none (accepted : checkParams lowest highest sigfigs = .ok ())
    (tracks : 0 ≤ highest.toInt)
    (large : 2 ^ 62 ≤ highest.toInt ∨
      62 < unitMagnitudeOf floorLog2 lowest + halfCountMagnitude sigfigs + 1)
    (rounds : Nat) :
    newHistogram floorLog2 rounds lowest highest sigfigs = .ok none := by
  have never : ∀ later,
      unitMagnitudeOf floorLog2 lowest + halfCountMagnitude sigfigs + 1 ≤ later →
        int (2 ^ later) ≤ highest.toInt := by
    intro later after
    rcases large with high | wide
    · exact Int.le_trans (int_two_pow_le later) high
    · rcases Nat.lt_or_ge 63 later with lost | negative
      · rw [int_two_pow_of_le lost]
        exact tracks
      · have : later = 63 := by omega
        subst this
        exact Int.le_trans (by decide) tracks
  simp only [newHistogram, accepted, untrackable_eq, bucketLoop_eq_none never,
    Option.map_none]

/-- The constructor ends at once if there is no value to track. -/
theorem exists_newHistogram_of_neg (accepted : checkParams lowest highest sigfigs = .ok ())
    (negative : highest.toInt < 0) :
    ∃ h : Histogram, h.highest = highest.toInt ∧ ∀ rounds, 2 ≤ rounds →
      newHistogram floorLog2 rounds lowest highest sigfigs = .ok (some h) := by
  obtain ⟨bucketCount, result⟩ := bucketLoop_of_neg negative
    (unitMagnitudeOf floorLog2 lowest + halfCountMagnitude sigfigs + 1) 1
  refine ⟨emptyHistogram highest.toInt (unitMagnitudeOf floorLog2 lowest)
    (halfCountMagnitude sigfigs) bucketCount, rfl, ?_⟩
  intro rounds enough
  simp only [newHistogram, accepted, untrackable_eq, result rounds enough, Option.map_some]

end

/-- No shift overflows before the highest value, or there is no value to track. -/
def ShiftsFit (floorLog2 : Int → Int) (lowest highest sigfigs : Int64) : Prop :=
  highest.toInt < 0 ∨ highest.toInt < 2 ^ 62 ∧
    2 ^ (halfCountMagnitude sigfigs + 1) * 2 ^ unitMagnitudeOf floorLog2 lowest ≤ 2 ^ 62

/-- The constructor ends, and every value up to the highest one has a slot and can be
recorded. -/
def Constructs (floorLog2 : Int → Int) (lowest highest sigfigs : Int64) : Prop :=
  ∃ h : Histogram,
    (∀ rounds, 63 ≤ rounds →
      newHistogram floorLog2 rounds lowest highest sigfigs = .ok (some h)) ∧
    ∀ v, 0 ≤ v → v ≤ highest.toInt →
      0 ≤ h.slotIndex v ∧ h.slotIndex v < h.counts.length ∧
        ∀ n, ∃ recorded, h.recordValueN v n = some (recorded, none)

section
variable {floorLog2 : Int → Int} {lowest highest sigfigs : Int64}

theorem constructs_of_shiftsFit (accepted : checkParams lowest highest sigfigs = .ok ())
    (condition : ShiftsFit floorLog2 lowest highest sigfigs) :
    Constructs floorLog2 lowest highest sigfigs := by
  rcases condition with negative | ⟨small, fits⟩
  · obtain ⟨h, _, result⟩ := exists_newHistogram_of_neg floorLog2 accepted negative
    refine ⟨h, ?_, ?_⟩
    · intro rounds enough
      exact result rounds (by omega)
    · intro v lower upper
      omega
  · rw [← Nat.pow_add, Nat.pow_le_pow_iff_right (by decide)] at fits
    obtain ⟨bucketCount, laid, result⟩ := exists_newHistogram floorLog2 accepted small (by omega)
    refine ⟨_, result, ?_⟩
    intro v lower upper
    obtain ⟨value, rfl⟩ := Int.eq_ofNat_of_zero_le lower
    have index := laid.slotIndex_eq upper
    have inside := laid.slot_lt_length upper
    refine ⟨by omega, by omega, ?_⟩
    intro n
    exact laid.exists_recordValueN upper n

/-- An accepted constructor ends, and then every value has a slot, if and only if no
shift overflows before the highest value or there is no value to track; it does not
return otherwise. -/
theorem newHistogram_ends_iff (accepted : checkParams lowest highest sigfigs = .ok ()) :
    (Constructs floorLog2 lowest highest sigfigs ↔
      ShiftsFit floorLog2 lowest highest sigfigs) ∧
    (¬ ShiftsFit floorLog2 lowest highest sigfigs →
      ∀ rounds, newHistogram floorLog2 rounds lowest highest sigfigs = .ok none) := by
  have never : ¬ ShiftsFit floorLog2 lowest highest sigfigs →
      ∀ rounds, newHistogram floorLog2 rounds lowest highest sigfigs = .ok none := by
    intro wraps
    rw [ShiftsFit, ← Nat.pow_add, Nat.pow_le_pow_iff_right (by decide)] at wraps
    exact newHistogram_eq_none floorLog2 accepted (by omega) (by omega)
  refine ⟨⟨?_, constructs_of_shiftsFit accepted⟩, never⟩
  rintro ⟨h, result, _⟩
  by_contra wraps
  have none := (never wraps 63).symm.trans (result 63 (Nat.le_refl 63))
  cases none

end

/-- The logarithm of a number, rounded down, as exact arithmetic gives it. -/
def exactLog2 (value : Int) : Int := Nat.log2 value.toNat

/-- The histogram of the latencies of a minute, in nanoseconds. -/
theorem newHistogram_ends_iff_minute : Constructs exactLog2 1 60000000000 3 :=
  (newHistogram_ends_iff (by decide)).1.mpr (.inr (by decide +kernel))

/-- The constructor accepts its parameters and does not return. -/
def NeverReturns (floorLog2 : Int → Int) (lowest highest sigfigs : Int64) : Prop :=
  checkParams lowest highest sigfigs = .ok () ∧
    ∀ rounds, newHistogram floorLog2 rounds lowest highest sigfigs = .ok none

/-- With a highest value of 2 ^ 62 the shifted value wraps around to zero. -/
theorem newHistogram_wraps : NeverReturns exactLog2 1 4611686018427387904 1 :=
  ⟨by decide, newHistogram_eq_none exactLog2 (by decide) (by decide) (.inl (by decide))⟩

end Benchkit
end Gorums
