import Mathlib.Algebra.Order.Ring.Nat
import Mathlib.Tactic.Ring

/-!
# Complete trees in breadth-first order

The nodes of a complete tree in which every node has `b` children, numbered
level by level from the root, which is position 0.  The children of position `p`
are the `b` positions from `b * p + 1` on, and the descendants of `p` that are
`j` levels below it are `b ^ j` consecutive positions.
-/

namespace Gorums
namespace Heap

/-! ## Levels -/

/-- The number of positions in the first `d` levels. -/
def levelStart (b : Nat) : Nat → Nat
  | 0 => 0
  | d + 1 => levelStart b d + b ^ d

@[simp] theorem levelStart_zero (b : Nat) : levelStart b 0 = 0 := rfl

@[simp] theorem levelStart_one (b : Nat) : levelStart b 1 = 1 := by
  simp [levelStart]

theorem levelStart_succ (b d : Nat) :
    levelStart b (d + 1) = levelStart b d + b ^ d := rfl

theorem levelStart_succ' (b d : Nat) :
    levelStart b (d + 1) = b * levelStart b d + 1 := by
  induction d with
  | zero => simp
  | succ d inductionHypothesis =>
      calc levelStart b (d + 2)
          = levelStart b (d + 1) + b ^ (d + 1) := rfl
        _ = b * levelStart b d + 1 + b ^ (d + 1) := by rw [inductionHypothesis]
        _ = b * (levelStart b d + b ^ d) + 1 := by ring

/-- The levels below level `d` are `b ^ d` copies of the first levels. -/
theorem levelStart_add (b d j : Nat) :
    levelStart b (d + j) = b ^ j * levelStart b d + levelStart b j := by
  induction j with
  | zero => simp
  | succ j inductionHypothesis =>
      calc levelStart b (d + (j + 1))
          = b * levelStart b (d + j) + 1 := levelStart_succ' b (d + j)
        _ = b * (b ^ j * levelStart b d + levelStart b j) + 1 := by
            rw [inductionHypothesis]
        _ = b ^ (j + 1) * levelStart b d + (b * levelStart b j + 1) := by ring
        _ = b ^ (j + 1) * levelStart b d + levelStart b (j + 1) := by
            rw [levelStart_succ']

theorem levelStart_mono (b : Nat) {d later : Nat} (before : d ≤ later) :
    levelStart b d ≤ levelStart b later := by
  induction before with
  | refl => exact Nat.le_refl _
  | step _ inductionHypothesis =>
      exact Nat.le_trans inductionHypothesis (Nat.le_add_right _ _)

/-- A level holds the positions from its start to the start of the next one. -/
def InLevel (b d p : Nat) : Prop :=
  levelStart b d ≤ p ∧ p < levelStart b (d + 1)

/-- A position is in one level only. -/
theorem InLevel.unique {b d other p : Nat} (first : InLevel b d p)
    (second : InLevel b other p) : d = other := by
  rcases Nat.lt_trichotomy d other with less | equal | greater
  · have := levelStart_mono b less
    exact absurd (Nat.lt_of_lt_of_le first.2 (Nat.le_trans this second.1))
      (Nat.lt_irrefl p)
  · exact equal
  · have := levelStart_mono b greater
    exact absurd (Nat.lt_of_lt_of_le second.2 (Nat.le_trans this first.1))
      (Nat.lt_irrefl p)

/-- Lower levels have larger positions. -/
theorem InLevel.le_of_le {b d other p q : Nat} (first : InLevel b d p)
    (second : InLevel b other q) (before : p ≤ q) : d ≤ other := by
  by_contra deeper
  have := levelStart_mono b (Nat.lt_of_not_le deeper)
  exact absurd (Nat.lt_of_lt_of_le second.2 (Nat.le_trans this first.1))
    (Nat.not_lt.mpr before)

/-- A position in the first levels is in one of them. -/
theorem exists_inLevel {b d p : Nat} (inside : p < levelStart b d) :
    ∃ level < d, InLevel b level p := by
  induction d with
  | zero => exact absurd inside (Nat.not_lt_zero p)
  | succ d inductionHypothesis =>
      by_cases earlier : p < levelStart b d
      · obtain ⟨level, below, found⟩ := inductionHypothesis earlier
        exact ⟨level, Nat.lt_succ_of_lt below, found⟩
      · exact ⟨d, Nat.lt_succ_self d, Nat.le_of_not_lt earlier, inside⟩

/-! ## Parents and children -/

/-- The parent of a position other than the root. -/
def parent (b p : Nat) : Nat := (p - 1) / b

/-- The first child of a position. -/
def firstChild (b p : Nat) : Nat := b * p + 1

theorem parent_lt {b q : Nat} (below : 0 < q) : parent b q < q := by
  have := Nat.div_le_self (q - 1) b
  unfold parent
  omega

theorem lt_firstChild {b p : Nat} (positive : 0 < b) : p < firstChild b p := by
  have := Nat.le_mul_of_pos_left p positive
  unfold firstChild
  omega

/-- The position of a parent within its level. -/
theorem parent_eq {b d p : Nat} (positive : 0 < b)
    (level : levelStart b (d + 1) ≤ p) :
    parent b p = levelStart b d + (p - levelStart b (d + 1)) / b := by
  obtain ⟨index, rfl⟩ := Nat.exists_eq_add_of_le level
  rw [Nat.add_sub_cancel_left, levelStart_succ', parent]
  have : b * levelStart b d + 1 + index - 1 = index + b * levelStart b d := by
    omega
  rw [this, Nat.add_mul_div_left index _ positive, Nat.add_comm]

/-! ## Descendants -/

/-- The first descendant of a position that is `j` levels below it. -/
def firstDescendant (b p j : Nat) : Nat := b ^ j * p + levelStart b j

@[simp] theorem firstDescendant_zero (b p : Nat) : firstDescendant b p 0 = p := by
  simp [firstDescendant]

/-- The first descendants of the first child. -/
theorem firstDescendant_firstChild (b p j : Nat) :
    firstDescendant b (firstChild b p) j = firstDescendant b p (j + 1) := by
  unfold firstDescendant firstChild
  rw [levelStart_succ]
  ring

/-- The first child of a first descendant. -/
theorem firstChild_firstDescendant (b p j : Nat) :
    firstChild b (firstDescendant b p j) = firstDescendant b p (j + 1) := by
  unfold firstDescendant firstChild
  rw [levelStart_succ']
  ring

theorem firstDescendant_lt {b p j : Nat} (positive : 0 < b) :
    firstDescendant b p j < firstDescendant b p (j + 1) := by
  rw [← firstChild_firstDescendant]
  exact lt_firstChild positive

theorem firstDescendant_mono {b p j later : Nat} (positive : 0 < b)
    (before : j ≤ later) : firstDescendant b p j ≤ firstDescendant b p later := by
  induction before with
  | refl => exact Nat.le_refl _
  | step _ inductionHypothesis =>
      exact Nat.le_trans inductionHypothesis
        (Nat.le_of_lt (firstDescendant_lt positive))

/-- The descendants in one level end before those in the next one begin. -/
theorem firstDescendant_add_le {b p j : Nat} (positive : 0 < b) :
    firstDescendant b p j + b ^ j ≤ firstDescendant b p (j + 1) := by
  unfold firstDescendant
  have : b ^ j * p ≤ b ^ (j + 1) * p :=
    Nat.mul_le_mul_right p (Nat.pow_le_pow_right positive (Nat.le_succ j))
  rw [levelStart_succ]
  omega

/-- The position of a first descendant within its level. -/
theorem firstDescendant_eq {b d p j : Nat} (level : levelStart b d ≤ p) :
    firstDescendant b p j =
      levelStart b (d + j) + (p - levelStart b d) * b ^ j := by
  obtain ⟨index, rfl⟩ := Nat.exists_eq_add_of_le level
  rw [levelStart_add, firstDescendant, Nat.add_sub_cancel_left]
  ring

/-- The descendants of a position that are `j` levels below it. -/
def Descends (b p j q : Nat) : Prop :=
  firstDescendant b p j ≤ q ∧ q < firstDescendant b p j + b ^ j

@[simp] theorem descends_zero {b p q : Nat} : Descends b p 0 q ↔ q = p := by
  simp only [Descends, firstDescendant_zero, Nat.pow_zero]
  omega

/-- A descendant `j + 1` levels below is a child of one `j` levels below. -/
theorem descends_succ {b p j q : Nat} (positive : 0 < b) :
    Descends b p (j + 1) q ↔ 0 < q ∧ Descends b p j (parent b q) := by
  unfold Descends
  rw [← firstChild_firstDescendant]
  generalize firstDescendant b p j = first
  unfold firstChild parent
  rw [Nat.pow_succ, Nat.mul_comm (b ^ j) b]
  constructor
  · rintro ⟨lower, upper⟩
    refine ⟨by omega, ?_, ?_⟩
    · rw [Nat.le_div_iff_mul_le positive, Nat.mul_comm]
      omega
    · rw [Nat.div_lt_iff_lt_mul positive, Nat.mul_comm, Nat.mul_add]
      omega
  · rintro ⟨below, lower, upper⟩
    rw [Nat.le_div_iff_mul_le positive, Nat.mul_comm] at lower
    rw [Nat.div_lt_iff_lt_mul positive, Nat.mul_comm, Nat.mul_add] at upper
    omega

/-- A descendant `j` levels below is in the level `j` levels below. -/
theorem Descends.inLevel {b d p j q : Nat} (level : InLevel b d p)
    (descends : Descends b p j q) : InLevel b (d + j) q := by
  obtain ⟨lower, upper⟩ := level
  obtain ⟨first, last⟩ := descends
  unfold firstDescendant at first last
  unfold InLevel
  rw [Nat.add_right_comm, levelStart_add b d j, levelStart_add b (d + 1) j]
  constructor
  · exact Nat.le_trans (Nat.add_le_add_right (Nat.mul_le_mul_left _ lower) _) first
  · have : b ^ j * (p + 1) ≤ b ^ j * levelStart b (d + 1) :=
      Nat.mul_le_mul_left _ upper
    rw [Nat.mul_add, Nat.mul_one] at this
    omega

end Heap
end Gorums
