import Mathlib.Algebra.Order.Ring.Int
import Mathlib.Algebra.Order.Ring.Nat

/-!
# Two's complement integers

The signed and unsigned integers of 64 bits, as integers and natural numbers
that every operation brings back into their range.
-/

namespace Gorums
namespace MachineInt

/-- The largest signed integer. -/
def maxInt : Nat := 2 ^ 63 - 1

/-- The signed integer that has the low 64 bits of a value. -/
def int (value : Int) : Int := value.bmod (2 ^ 64)

/-- The low 64 bits of a value. -/
def uint (value : Nat) : Nat := value % 2 ^ 64

/-- Nothing is lost of a value that is a signed integer. -/
theorem int_of_bounds {value : Int} (lower : -2 ^ 63 ≤ value)
    (upper : value < 2 ^ 63) : int value = value :=
  Int.bmod_eq_of_le (by omega) (by omega)

theorem int_natCast {value : Nat} (small : value ≤ maxInt) :
    int value = value := by
  unfold maxInt at small
  apply int_of_bounds <;> omega

theorem int_succ {value : Nat} (small : value < maxInt) :
    int (value + 1) = ((value + 1 : Nat) : Int) :=
  int_natCast small

theorem uint_of_lt {value : Nat} (small : value < 2 ^ 64) : uint value = value :=
  Nat.mod_eq_of_lt small

/-- A value, unless some of it would be lost. -/
def fit (value : Int) : Option Int := if int value = value then some value else none

theorem fit_natCast {value : Nat} (small : value ≤ maxInt) :
    fit value = some (value : Int) :=
  if_pos (int_natCast small)

/-- Wrapping a factor does not matter for the wrapped product. -/
theorem int_int_mul (x y : Int) : int (int x * y) = int (x * y) :=
  Int.bmod_mul_bmod

/-- A value that is a multiple of the modulus is lost. -/
theorem int_two_pow_of_le {exp : Nat} (large : 64 ≤ exp) : int (2 ^ exp) = 0 := by
  apply Int.bmod_eq_zero_of_dvd
  exact pow_dvd_pow 2 large

theorem int_two_pow {exp : Nat} (small : exp ≤ 62) : int (2 ^ exp) = 2 ^ exp := by
  have bound : (2 : Int) ^ exp ≤ 2 ^ 62 := pow_le_pow_right₀ (by decide) small
  have positive : (0 : Int) < 2 ^ exp := Int.pow_pos (by decide)
  apply int_of_bounds <;> omega

/-- No wrapped power of two is larger than 2 ^ 62. -/
theorem int_two_pow_le (exp : Nat) : int (2 ^ exp) ≤ 2 ^ 62 := by
  rcases Nat.lt_trichotomy exp 63 with small | rfl | large
  · rw [int_two_pow (by omega)]
    exact pow_le_pow_right₀ (by decide) (by omega)
  · decide
  · rw [int_two_pow_of_le large]
    decide

/-- The unsigned integer with the bits of a signed one. -/
def word (value : Int) : Nat := (value % 2 ^ 64).toNat

theorem word_natCast {value : Nat} (small : value ≤ maxInt) : word value = value := by
  unfold maxInt at small
  unfold word
  omega

/-- The bitwise disjunction of two signed integers. -/
def or (x y : Int) : Int := int (word x ||| word y : Nat)

theorem or_natCast {x y : Nat} (smallX : x ≤ maxInt) (smallY : y ≤ maxInt) :
    or x y = (x ||| y : Nat) := by
  rw [or, word_natCast smallX, word_natCast smallY]
  apply int_natCast
  unfold maxInt at *
  have : x ||| y < 2 ^ 63 := Nat.or_lt_two_pow (by omega) (by omega)
  omega

/-- The sum of two words and its carry. -/
def add (x y : Nat) : Nat × Nat := (uint (x + y), (x + y) / 2 ^ 64)

/-- The high and the low word of a product of two words. -/
def mul (x y : Nat) : Nat × Nat := ((x * y) / 2 ^ 64, uint (x * y))

end MachineInt
end Gorums
