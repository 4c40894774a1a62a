import Mathlib.Data.List.Basic
import Mathlib.Data.Nat.Size
import Mathlib.Tactic.Ring

/-!
# Log-linear layouts

Natural numbers sorted into slots whose widths grow with the numbers.  Bucket `b`
is split into ranges of width `2 ^ (b + u)`; bucket 0 has `2 ^ (k + 1)` of them, and
every later bucket only the upper `2 ^ k`, since the lower half is covered by the
buckets before it.  A cell is a bucket with one of its ranges, and the slots number
the cells in the order of their values.
-/

namespace Gorums
namespace LogLinear

/-- The width of the ranges of a bucket. -/
def width (u b : Nat) : Nat := 2 ^ (b + u)

/-- The lowest number of a cell. -/
def start (u b s : Nat) : Nat := s * width u b

/-- The slot of a cell. -/
def slotOf (k b s : Nat) : Nat := b * 2 ^ k + s

/-- The cells: a bucket after the first one has the upper half of the ranges. -/
def IsCell (k b s : Nat) : Prop := s < 2 ^ (k + 1) ∧ (0 < b → 2 ^ k ≤ s)

/-- A cell holds a number. -/
def Holds (u b s v : Nat) : Prop := start u b s ≤ v ∧ v < start u b s + width u b

/-- The bucket of a number. -/
def bucket (u k v : Nat) : Nat := v.size - (u + k + 1)

/-- The range of a number within its bucket. -/
def sub (u k v : Nat) : Nat := v / width u (bucket u k v)

/-- The slot of a number. -/
def slot (u k v : Nat) : Nat := slotOf k (bucket u k v) (sub u k v)

theorem width_pos (u b : Nat) : 0 < width u b := Nat.two_pow_pos _

/-! ## The cell of a number -/

theorem sub_lt (u k v : Nat) : sub u k v < 2 ^ (k + 1) := by
  have inside : v < 2 ^ (bucket u k v + (u + k + 1)) := by
    apply Nat.size_le.mp
    unfold bucket
    omega
  apply Nat.div_lt_of_lt_mul
  rw [width, ← Nat.pow_add]
  exact Nat.lt_of_lt_of_eq inside (by congr 1; omega)

theorem le_sub {u k v : Nat} (later : 0 < bucket u k v) : 2 ^ k ≤ sub u k v := by
  have large : 2 ^ (k + (bucket u k v + u)) ≤ v := by
    apply Nat.lt_size.mp
    unfold bucket at later ⊢
    omega
  rw [sub, Nat.le_div_iff_mul_le (width_pos u _), width, ← Nat.pow_add]
  exact large

theorem isCell (u k v : Nat) : IsCell k (bucket u k v) (sub u k v) :=
  ⟨sub_lt u k v, le_sub⟩

theorem holds (u k v : Nat) : Holds u (bucket u k v) (sub u k v) v := by
  have parts := Nat.div_add_mod v (width u (bucket u k v))
  have rest := Nat.mod_lt v (width_pos u (bucket u k v))
  rw [Nat.mul_comm] at parts
  unfold Holds start sub
  omega

/-- The lowest bits that tell the ranges of bucket 0 apart make every number as long
as those of bucket 0. -/
theorem size_or_mask (u k v : Nat) :
    (v ||| (2 ^ (k + 1) - 1) * 2 ^ u).size = bucket u k v + (u + k + 1) := by
  have twice : 2 ^ (k + 1) = 2 ^ k + 2 ^ k := by ring
  have one : 0 < 2 ^ k := Nat.two_pow_pos k
  have total : bucket u k v + (u + k + 1) = max v.size (u + k + 1) := by
    unfold bucket
    omega
  rw [total]
  apply Nat.le_antisymm
  · apply Nat.size_le.mpr
    apply Nat.or_lt_two_pow
    · exact Nat.size_le.mp (Nat.le_max_left _ _)
    · calc (2 ^ (k + 1) - 1) * 2 ^ u
          < 2 ^ (k + 1) * 2 ^ u :=
            Nat.mul_lt_mul_of_pos_right (by omega) (Nat.two_pow_pos u)
        _ = 2 ^ (u + k + 1) := by ring
        _ ≤ 2 ^ max v.size (u + k + 1) :=
            Nat.pow_le_pow_right Nat.two_pos (Nat.le_max_right _ _)
  · apply Nat.max_le.mpr
    constructor
    · exact Nat.size_le_size Nat.left_le_or
    · apply Nat.lt_size.mpr
      calc 2 ^ (u + k)
          = 2 ^ k * 2 ^ u := by ring
        _ ≤ (2 ^ (k + 1) - 1) * 2 ^ u := Nat.mul_le_mul_right _ (by omega)
        _ ≤ v ||| (2 ^ (k + 1) - 1) * 2 ^ u := Nat.right_le_or

/-! ## The order of the cells -/

/-- A later bucket has later slots. -/
theorem slotOf_lt_of_bucket_lt {k b s later t : Nat} (first : IsCell k b s)
    (second : IsCell k later t) (less : b < later) :
    slotOf k b s < slotOf k later t := by
  have half := second.2 (Nat.lt_of_le_of_lt (Nat.zero_le b) less)
  have next : (b + 1) * 2 ^ k ≤ later * 2 ^ k := Nat.mul_le_mul_right _ less
  have bound := first.1
  rw [Nat.pow_succ] at bound
  rw [Nat.add_mul, Nat.one_mul] at next
  unfold slotOf
  omega

/-- A cell with a later slot starts after a cell ends. -/
theorem end_le_start {u k b s later t : Nat} (first : IsCell k b s)
    (second : IsCell k later t) (less : slotOf k b s < slotOf k later t) :
    start u b s + width u b ≤ start u later t := by
  have end_eq : start u b s + width u b = (s + 1) * width u b := by
    rw [start, Nat.add_mul, Nat.one_mul]
  rw [end_eq]
  rcases Nat.lt_trichotomy b later with earlier | same | greater
  · have half := second.2 (Nat.lt_of_le_of_lt (Nat.zero_le b) earlier)
    calc (s + 1) * width u b
        ≤ 2 ^ (k + 1) * 2 ^ (b + u) := Nat.mul_le_mul_right _ first.1
      _ = 2 ^ k * 2 ^ (b + 1 + u) := by ring
      _ ≤ 2 ^ k * 2 ^ (later + u) :=
          Nat.mul_le_mul_left _ (Nat.pow_le_pow_right Nat.two_pos (by omega))
      _ ≤ t * width u later := Nat.mul_le_mul_right _ half
  · subst same
    exact Nat.mul_le_mul_right _ (Nat.lt_of_add_lt_add_left less)
  · exact absurd (slotOf_lt_of_bucket_lt second first greater) (Nat.lt_asymm less)

/-- The slot tells the cell. -/
theorem slotOf_injective {k b s other t : Nat} (first : IsCell k b s)
    (second : IsCell k other t) (same : slotOf k b s = slotOf k other t) :
    b = other ∧ s = t := by
  rcases Nat.lt_trichotomy b other with less | equal | greater
  · exact absurd same (Nat.ne_of_lt (slotOf_lt_of_bucket_lt first second less))
  · subst equal
    exact ⟨rfl, Nat.add_left_cancel same⟩
  · exact absurd same (Nat.ne_of_gt (slotOf_lt_of_bucket_lt second first greater))

/-- A number is in one cell only. -/
theorem Holds.unique {u k b s v : Nat} (cell : IsCell k b s) (inside : Holds u b s v) :
    bucket u k v = b ∧ sub u k v = s := by
  obtain ⟨lower, upper⟩ := holds u k v
  obtain ⟨first, last⟩ := inside
  apply slotOf_injective (isCell u k v) cell
  rcases Nat.lt_trichotomy (slot u k v) (slotOf k b s) with less | equal | greater
  · have := end_le_start (u := u) (isCell u k v) cell less
    omega
  · exact equal
  · have := end_le_start (u := u) cell (isCell u k v) greater
    omega

theorem Holds.slot_eq {u k b s v : Nat} (cell : IsCell k b s) (inside : Holds u b s v) :
    slot u k v = slotOf k b s := by
  obtain ⟨sameBucket, sameSub⟩ := inside.unique cell
  rw [slot, sameBucket, sameSub]

/-- Larger numbers have later slots. -/
theorem slot_mono {u k v w : Nat} (before : v ≤ w) : slot u k v ≤ slot u k w := by
  by_contra later
  have apart := end_le_start (u := u) (isCell u k w) (isCell u k v) (Nat.lt_of_not_le later)
  have above := (holds u k w).2
  have below := (holds u k v).1
  omega

/-- Two numbers share a slot if one is in the range of the other. -/
theorem slot_eq_iff {u k v w : Nat} :
    slot u k v = slot u k w ↔ Holds u (bucket u k v) (sub u k v) w := by
  constructor
  · intro same
    obtain ⟨sameBucket, sameSub⟩ := slotOf_injective (isCell u k v) (isCell u k w) same
    rw [sameBucket, sameSub]
    exact holds u k w
  · intro inside
    exact (inside.slot_eq (isCell u k v)).symm

/-- A range is no wider than the part of its numbers that the precision allows. -/
theorem width_le {u k v precision : Nat} (fine : precision ≤ 2 ^ k)
    (positive : 0 < precision) :
    width u (bucket u k v) ≤ max (2 ^ u) (v / precision) := by
  rcases Nat.eq_zero_or_pos (bucket u k v) with first | later
  · rw [first, width, Nat.zero_add]
    exact Nat.le_max_left _ _
  · apply le_max_of_le_right
    rw [Nat.le_div_iff_mul_le positive]
    calc width u (bucket u k v) * precision
        ≤ width u (bucket u k v) * sub u k v :=
          Nat.mul_le_mul_left _ (Nat.le_trans fine (le_sub later))
      _ ≤ v := Nat.mul_div_le v _

/-- The middle of a range is in the range. -/
theorem holds_middle (u b s : Nat) : Holds u b s (start u b s + width u b / 2) := by
  have := width_pos u b
  unfold Holds
  omega

/-- The middle of the range of a number. -/
def middle (u k v : Nat) : Nat :=
  start u (bucket u k v) (sub u k v) + width u (bucket u k v) / 2

/-- The middle of the range of a number is at most half its width away from it, which
is a small part of the number. -/
theorem middle_near (u k v : Nat) :
    v ≤ middle u k v + max (2 ^ u / 2) (v / 2 ^ (k + 1)) ∧
      middle u k v ≤ v + max (2 ^ u / 2) (v / 2 ^ (k + 1)) := by
  have narrow : width u (bucket u k v) ≤ max (2 ^ u) (v / 2 ^ k) :=
    width_le (Nat.le_refl _) (Nat.two_pow_pos k)
  have half : v / 2 ^ (k + 1) = v / 2 ^ k / 2 := by
    rw [Nat.pow_succ, Nat.div_div_eq_div_mul]
  obtain ⟨lower, upper⟩ := holds u k v
  unfold middle
  rw [half]
  omega

/-! ## Layouts with a number of buckets -/

theorem bucket_lt {u k v buckets : Nat} (small : v < 2 ^ (u + k + buckets))
    (some : 0 < buckets) : bucket u k v < buckets := by
  have := Nat.size_le.mpr small
  unfold bucket
  omega

/-- The cells of a bucket, in order. -/
def bucketCells (k b : Nat) : List (Nat × Nat) :=
  let first := if b = 0 then 0 else 2 ^ k
  (List.range' first (2 ^ (k + 1) - first)).map fun s => (b, s)

/-- The cells of some buckets, in order. -/
def cells (k buckets : Nat) : List (Nat × Nat) :=
  (List.range buckets).flatMap (bucketCells k)

theorem mem_cells {k buckets b s : Nat} :
    (b, s) ∈ cells k buckets ↔ b < buckets ∧ IsCell k b s := by
  have half : 2 ^ k ≤ 2 ^ (k + 1) := Nat.pow_le_pow_right Nat.two_pos (Nat.le_succ k)
  simp only [cells, bucketCells, List.mem_flatMap, List.mem_range, List.mem_map,
    List.mem_range'_1, Prod.mk.injEq, IsCell]
  constructor
  · rintro ⟨b, below, s, inside, rfl, rfl⟩
    by_cases first : b = 0
    · rw [if_pos first] at inside
      omega
    · rw [if_neg first] at inside
      omega
  · rintro ⟨below, upper, lower⟩
    refine ⟨b, below, s, ?_, rfl, rfl⟩
    split <;> omega

/-- The first bucket has two halves. -/
theorem map_slotOf_first (k : Nat) :
    (bucketCells k 0).map (fun cell => slotOf k cell.1 cell.2) =
      List.range (2 * 2 ^ k) := by
  rw [bucketCells, if_pos rfl, List.map_map, Nat.sub_zero, ← List.range_eq_range',
    Nat.pow_succ']
  apply List.map_id''
  intro s
  simp [slotOf]

/-- A later bucket has one half. -/
theorem map_slotOf_later (k b : Nat) :
    (bucketCells k (b + 1)).map (fun cell => slotOf k cell.1 cell.2) =
      List.range' ((b + 2) * 2 ^ k) (2 ^ k) := by
  have half : 2 ^ (k + 1) - 2 ^ k = 2 ^ k := by
    rw [Nat.pow_succ]
    omega
  have shift : (b + 2) * 2 ^ k = (b + 1) * 2 ^ k + 2 ^ k := by ring
  rw [bucketCells, if_neg (Nat.succ_ne_zero b), List.map_map, half, shift,
    ← List.map_add_range']
  rfl

/-- The slots number the cells in order. -/
theorem map_slotOf_cells (k buckets : Nat) :
    (cells k (buckets + 1)).map (fun cell => slotOf k cell.1 cell.2) =
      List.range ((buckets + 2) * 2 ^ k) := by
  induction buckets with
  | zero =>
      rw [cells, Nat.zero_add, List.range_one, List.flatMap_singleton, map_slotOf_first]
  | succ buckets inductionHypothesis =>
      have more : (buckets + 1 + 2) * 2 ^ k = (buckets + 2) * 2 ^ k + 2 ^ k := by ring
      rw [cells, List.range_succ, List.flatMap_append, List.map_append,
        List.flatMap_singleton, map_slotOf_later, more, ← cells, inductionHypothesis,
        List.range_eq_range', List.range_eq_range', ← List.range'_append_1, Nat.zero_add]

/-- The slot of a number that the buckets cover. -/
theorem slot_lt {u k v buckets : Nat} (small : v < 2 ^ (u + k + (buckets + 1))) :
    slot u k v < (buckets + 2) * 2 ^ k := by
  have inside : (bucket u k v, sub u k v) ∈ cells k (buckets + 1) :=
    mem_cells.mpr ⟨bucket_lt small (Nat.succ_pos buckets), isCell u k v⟩
  rw [← List.mem_range, ← map_slotOf_cells, List.mem_map]
  exact ⟨_, inside, rfl⟩

end LogLinear
end Gorums
