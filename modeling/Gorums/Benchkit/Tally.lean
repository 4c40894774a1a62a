import Mathlib.Algebra.BigOperators.Group.List.Basic
import Mathlib.Algebra.GroupWithZero.Nat
import Mathlib.Algebra.Order.Group.Nat

/-!
# Tallies

How many values fall into each of a sequence of slots, how many fall below a slot,
and what the two say about the value of a given rank.
-/

namespace Gorums
namespace Tally

variable {α : Type} (slot : α → Nat)

/-- The number of values in a slot. -/
def tally (values : List α) (i : Nat) : Nat :=
  values.countP fun value => slot value = i

/-- The number of values in the slots before a slot. -/
def below (values : List α) (i : Nat) : Nat :=
  values.countP fun value => slot value < i

variable {slot}

@[simp] theorem tally_nil (i : Nat) : tally slot [] i = 0 := rfl

@[simp] theorem below_zero (values : List α) : below slot values 0 = 0 := by
  simp [below]

theorem tally_append (first second : List α) (i : Nat) :
    tally slot (first ++ second) i = tally slot first i + tally slot second i :=
  List.countP_append

theorem tally_replicate (n : Nat) (value : α) (i : Nat) :
    tally slot (List.replicate n value) i = if slot value = i then n else 0 := by
  rw [tally, List.countP_replicate]
  simp

theorem tally_singleton (value : α) (i : Nat) :
    tally slot [value] i = if slot value = i then 1 else 0 :=
  tally_replicate 1 value i

theorem tally_perm {first second : List α} (perm : first.Perm second) :
    tally slot first = tally slot second := by
  funext i
  exact perm.countP_eq _

theorem below_perm {first second : List α} (perm : first.Perm second) :
    below slot first = below slot second := by
  funext i
  exact perm.countP_eq _

/-- The values below the next slot are those below a slot and those in it. -/
theorem below_succ (values : List α) (i : Nat) :
    below slot values (i + 1) = below slot values i + tally slot values i := by
  induction values with
  | nil => rfl
  | cons value rest inductionHypothesis =>
      unfold below tally at inductionHypothesis ⊢
      simp only [List.countP_cons, inductionHypothesis, decide_eq_true_eq]
      split <;> split <;> split <;> omega

theorem sum_tally (values : List α) (i : Nat) :
    ((List.range i).map (tally slot values)).sum = below slot values i := by
  induction i with
  | zero => simp
  | succ i inductionHypothesis =>
      rw [List.range_succ, List.map_append, List.sum_append, inductionHypothesis,
        below_succ]
      simp

theorem tally_flatMap {β : Type} (items : List β) (values : β → List α) (i : Nat) :
    tally slot (items.flatMap values) i =
      (items.map fun item => tally slot (values item) i).sum :=
  List.countP_flatMap

/-- A sum over slots of which one counts. -/
theorem sum_range_single (count : Nat → Nat) (i n : Nat) :
    ((List.range n).map fun j => if j = i then count j else 0).sum =
      if i < n then count i else 0 := by
  induction n with
  | zero => rfl
  | succ n inductionHypothesis =>
      rw [List.range_succ, List.map_append, List.sum_append, inductionHypothesis]
      rcases Nat.lt_trichotomy i n with less | rfl | greater
      · simp [less, Nat.lt_succ_of_lt less, Nat.ne_of_gt less]
      · simp
      · simp [Nat.not_lt_of_gt greater, Nat.ne_of_lt greater,
          Nat.not_lt.mpr (Nat.succ_le_of_lt greater)]

/-- All values are below a slot that is above all of them. -/
theorem below_eq_length {values : List α} {i : Nat}
    (all : ∀ value ∈ values, slot value < i) : below slot values i = values.length := by
  apply List.countP_eq_length.mpr
  simpa using all

theorem tally_le_length (values : List α) (i : Nat) :
    tally slot values i ≤ values.length :=
  List.countP_le_length

theorem below_le_length (values : List α) (i : Nat) :
    below slot values i ≤ values.length :=
  List.countP_le_length

theorem below_mono (values : List α) {i later : Nat} (before : i ≤ later) :
    below slot values i ≤ below slot values later := by
  apply List.countP_mono_left
  intro value _
  simp only [decide_eq_true_eq]
  omega

/-! ## Ranks -/

section
variable {sorted : List α} {p : Nat} {value : α}

/-- In sorted values, those in earlier slots come before the value of a rank. -/
theorem below_slot_le (ordered : sorted.Pairwise fun first second => slot first ≤ slot second)
    (found : sorted[p]? = some value) : below slot sorted (slot value) ≤ p := by
  have split := List.take_append_drop p sorted
  have rest : sorted.drop p = value :: sorted.drop (p + 1) :=
    List.drop_eq_getElem?_toList_append.trans (by rw [found]; rfl)
  have later : below slot (sorted.drop p) (slot value) = 0 := by
    apply List.countP_eq_zero.mpr
    intro other inside
    rw [rest] at inside
    have tail := ordered.sublist (List.drop_sublist p sorted)
    rw [rest, List.pairwise_cons] at tail
    simp only [decide_eq_true_eq, Nat.not_lt]
    rcases List.mem_cons.mp inside with same | inTail
    · rw [same]
    · exact tail.1 other inTail
  calc below slot sorted (slot value)
      = below slot (sorted.take p) (slot value) + below slot (sorted.drop p) (slot value) := by
        rw [below, below, below, ← List.countP_append, split]
    _ = below slot (sorted.take p) (slot value) := by rw [later, Nat.add_zero]
    _ ≤ (sorted.take p).length := below_le_length _ _
    _ ≤ p := List.length_take_le _ _

/-- In sorted values, those up to the value of a rank are in its slot or before it. -/
theorem lt_below_slot (ordered : sorted.Pairwise fun first second => slot first ≤ slot second)
    (found : sorted[p]? = some value) : p < below slot sorted (slot value + 1) := by
  have inside := (List.getElem?_eq_some_iff.mp found).1
  have last : sorted.take (p + 1) = sorted.take p ++ [value] := by
    rw [List.take_add_one, found]
    rfl
  have earlier : below slot (sorted.take (p + 1)) (slot value + 1) = p + 1 := by
    have length : (sorted.take (p + 1)).length = p + 1 := by
      rw [List.length_take]
      omega
    refine (below_eq_length ?_).trans length
    intro other before
    have front := ordered.sublist (List.take_sublist (p + 1) sorted)
    rw [last, List.pairwise_append] at front
    rw [last, List.mem_append, List.mem_singleton] at before
    rcases before with inFront | same
    · exact Nat.lt_succ_of_le (front.2.2 other inFront value List.mem_cons_self)
    · rw [same]
      exact Nat.lt_succ_self _
  calc p
      < below slot (sorted.take (p + 1)) (slot value + 1) := by omega
    _ ≤ below slot sorted (slot value + 1) := (List.take_sublist _ _).countP_le

end

end Tally
end Gorums
