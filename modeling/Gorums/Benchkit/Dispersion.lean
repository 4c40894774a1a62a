import Mathlib.Algebra.BigOperators.Group.Multiset.Basic
import Mathlib.Algebra.BigOperators.Ring.Multiset
import Mathlib.Algebra.CharZero.Defs
import Mathlib.Algebra.Field.Basic
import Mathlib.Tactic.FieldSimp
import Mathlib.Tactic.Ring

/-!
# The mean and the squared deviations of values

The sum of the squared distances to any point is the sum of the squared deviations from
the mean and a part for the distance of the point to the mean.  Everything about joining
two collections of values and about shifting one follows from it.
-/

namespace Gorums
namespace Dispersion

variable {K : Type} [Field K]

/-- The mean of some values. -/
def mean (values : Multiset K) : K := values.sum / values.card

/-- The sum of the squared deviations of some values from their mean. -/
def squares (values : Multiset K) : K :=
  (values.map fun value => (value - mean values) ^ 2).sum

@[simp] theorem mean_zero : mean (0 : Multiset K) = 0 := by
  simp [mean]

@[simp] theorem squares_zero : squares (0 : Multiset K) = 0 := by
  simp [squares]

@[simp] theorem mean_singleton (value : K) : mean {value} = value := by
  simp [mean]

@[simp] theorem squares_singleton (value : K) : squares {value} = 0 := by
  simp [squares]

variable [CharZero K]

theorem card_ne_zero {values : Multiset K} (some : values ≠ 0) : (values.card : K) ≠ 0 := by
  rw [Nat.cast_ne_zero]
  exact mt Multiset.card_eq_zero.mp some

theorem card_mul_mean {values : Multiset K} (some : values ≠ 0) :
    values.card * mean values = values.sum :=
  mul_div_cancel₀ _ (card_ne_zero some)

theorem sum_sub_mean {values : Multiset K} (some : values ≠ 0) :
    (values.map fun value => value - mean values).sum = 0 := by
  rw [Multiset.sum_map_sub, Multiset.map_id', Multiset.map_const', Multiset.sum_replicate,
    nsmul_eq_mul, card_mul_mean some, sub_self]

/-- The squared distances to a point, from those to the mean. -/
theorem sum_sq_sub {values : Multiset K} (some : values ≠ 0) (point : K) :
    (values.map fun value => (value - point) ^ 2).sum =
      squares values + values.card * (mean values - point) ^ 2 := by
  have expand : ∀ value : K, (value - point) ^ 2 =
      (value - mean values) ^ 2 +
        (2 * (mean values - point) * (value - mean values) + (mean values - point) ^ 2) := by
    intro value
    ring
  rw [Multiset.map_congr rfl fun value _ => expand value, Multiset.sum_map_add,
    Multiset.sum_map_add, Multiset.sum_map_mul_left, sum_sub_mean some, Multiset.map_const',
    Multiset.sum_replicate, nsmul_eq_mul, mul_zero, zero_add, squares]

/-! ## Joining -/

theorem card_add_card_ne_zero {first : Multiset K} (some : first ≠ 0) (second : Multiset K) :
    (first.card + second.card : K) ≠ 0 := by
  have positive := Multiset.card_pos.mpr some
  rw [← Nat.cast_add, Nat.cast_ne_zero]
  omega

section
variable {first second : Multiset K} (someFirst : first ≠ 0) (someSecond : second ≠ 0)
include someFirst someSecond

theorem mean_add :
    mean (first + second) =
      mean first + (mean second - mean first) * second.card / (first.card + second.card) := by
  have total := card_add_card_ne_zero someFirst second
  rw [mean, Multiset.sum_add, Multiset.card_add, Nat.cast_add,
    ← card_mul_mean someFirst, ← card_mul_mean someSecond]
  field_simp
  ring

theorem squares_add :
    squares (first + second) =
      squares first + (squares second + (mean second - mean first) *
        (mean second - mean first) * first.card * second.card /
          (first.card + second.card)) := by
  have total := card_add_card_ne_zero someFirst second
  rw [squares, Multiset.map_add, Multiset.sum_add, sum_sq_sub someFirst,
    sum_sq_sub someSecond, mean_add someFirst someSecond]
  field_simp
  ring

end

/-- One more value moves the mean by its part of the distance. -/
theorem mean_cons (value : K) (values : Multiset K) :
    mean (value ::ₘ values) =
      mean values + (value - mean values) / (values.card + 1) := by
  by_cases none : values = 0
  · simp [none]
  · rw [← Multiset.singleton_add, add_comm, mean_add none (Multiset.singleton_ne_zero value)]
    simp

/-- One more value adds the product of its distances to the two means. -/
theorem squares_cons (value : K) (values : Multiset K) :
    squares (value ::ₘ values) =
      squares values + (value - mean values) * (value - mean (value ::ₘ values)) := by
  by_cases none : values = 0
  · simp [none]
  · have total := card_add_card_ne_zero none {value}
    rw [mean_cons, ← Multiset.singleton_add, add_comm,
      squares_add none (Multiset.singleton_ne_zero value)]
    simp only [Multiset.card_singleton, Nat.cast_one, mean_singleton, squares_singleton,
      zero_add, mul_one] at total ⊢
    field_simp
    ring

/-! ## Shifting -/

/-- A shift moves the mean. -/
theorem mean_map_add {values : Multiset K} (some : values ≠ 0) (offset : K) :
    mean (values.map fun value => value + offset) = mean values + offset := by
  have count := card_ne_zero some
  rw [mean, Multiset.sum_map_add, Multiset.map_id', Multiset.map_const',
    Multiset.sum_replicate, Multiset.card_map, nsmul_eq_mul, mean]
  field_simp

/-- A shift leaves the squared deviations. -/
theorem squares_map_add (values : Multiset K) (offset : K) :
    squares (values.map fun value => value + offset) = squares values := by
  by_cases none : values = 0
  · simp [none]
  · rw [squares, Multiset.map_map, mean_map_add none, squares]
    congr 2
    funext value
    simp

end Dispersion
end Gorums
