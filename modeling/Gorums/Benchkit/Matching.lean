import Mathlib.Data.List.Sort
import Mathlib.Data.List.Perm.Basic

/-!
# Matchings of sorted lists

The values of one list match those of another one if they can be arranged such that each
is related to the value at its place.  If related pairs that cross can exchange their
partners, there is such an arrangement if and only if the sorted lists are related place
by place.
-/

namespace Gorums
namespace Matching

variable {α β : Type*} [LinearOrder α] [LinearOrder β] {related : α → β → Prop}
  {values : List α} {targets : List β}

/-- Two related pairs that cross can exchange their partners. -/
def Exchanges (related : α → β → Prop) : Prop :=
  ∀ ⦃lower upper low high⦄, lower ≤ upper → low ≤ high →
    related lower high → related upper low → related lower low ∧ related upper high

/-- The least value is inserted in front. -/
theorem orderedInsert_least {value : α} (sorted : (value :: values).Pairwise (· ≤ ·)) :
    values.orderedInsert (· ≤ ·) value = value :: values := by
  cases values with
  | nil => rfl
  | cons next rest =>
      exact List.orderedInsert_cons_of_le _ rest (List.rel_of_pairwise_cons sorted
        List.mem_cons_self)

/-- A related pair can be inserted into sorted lists that are related place by place. -/
theorem Exchanges.orderedInsert (exchanges : Exchanges related)
    (matched : List.Forall₂ related values targets)
    (sorted : values.Pairwise (· ≤ ·)) (sortedTargets : targets.Pairwise (· ≤ ·))
    {value : α} {target : β} (pair : related value target) :
    List.Forall₂ related (values.orderedInsert (· ≤ ·) value)
      (targets.orderedInsert (· ≤ ·) target) := by
  induction matched generalizing value target with
  | nil => exact .cons pair .nil
  | @cons first second values targets here rest inductionHypothesis =>
      have further : ∀ {value target}, related value target →
          List.Forall₂ related (values.orderedInsert (· ≤ ·) value)
            (targets.orderedInsert (· ≤ ·) target) :=
        inductionHypothesis sorted.of_cons sortedTargets.of_cons
      rw [List.orderedInsert_cons, List.orderedInsert_cons]
      by_cases before : value ≤ first <;> by_cases early : target ≤ second
      · rw [if_pos before, if_pos early]
        exact .cons pair (.cons here rest)
      · -- The value comes first and the target later: they exchange partners.
        obtain ⟨front, later⟩ := exchanges before (le_of_not_ge early) pair here
        rw [if_pos before, if_neg early, ← orderedInsert_least sorted]
        exact .cons front (further later)
      · obtain ⟨front, later⟩ := exchanges (le_of_not_ge before) early here pair
        rw [if_neg before, if_pos early, ← orderedInsert_least sortedTargets]
        exact .cons front (further later)
      · rw [if_neg before, if_neg early]
        exact .cons here (further pair)

/-- Lists that are related place by place still are when both are sorted. -/
theorem Exchanges.insertionSort (exchanges : Exchanges related)
    (matched : List.Forall₂ related values targets) :
    List.Forall₂ related (values.insertionSort (· ≤ ·))
      (targets.insertionSort (· ≤ ·)) := by
  induction matched with
  | nil => exact .nil
  | cons here rest inductionHypothesis =>
      exact exchanges.orderedInsert inductionHypothesis
        (List.pairwise_insertionSort _ _) (List.pairwise_insertionSort _ _) here

/-- Sorting forgets the order of a list. -/
theorem insertionSort_eq_of_perm {other : List α} (perm : values.Perm other) :
    values.insertionSort (· ≤ ·) = other.insertionSort (· ≤ ·) :=
  List.Perm.eq_of_pairwise' (List.pairwise_insertionSort _ _)
    (List.pairwise_insertionSort _ _)
    ((List.perm_insertionSort _ _).trans (perm.trans (List.perm_insertionSort _ _).symm))

/-- Values can be arranged to match targets if and only if they do when both are sorted. -/
theorem Exchanges.exists_arranged_iff (exchanges : Exchanges related) :
    (∃ arranged : List α, arranged.Perm values ∧ List.Forall₂ related arranged targets) ↔
      List.Forall₂ related (values.insertionSort (· ≤ ·))
        (targets.insertionSort (· ≤ ·)) := by
  constructor
  · rintro ⟨arranged, perm, matched⟩
    rw [← insertionSort_eq_of_perm perm]
    exact exchanges.insertionSort matched
  · intro matched
    obtain ⟨arranged, pairs, perm⟩ := List.perm_comp_forall₂
      (List.perm_insertionSort (· ≤ ·) targets).symm matched.flip
    exact ⟨arranged, perm.trans (List.perm_insertionSort _ _), pairs.flip⟩

end Matching
end Gorums
