import Mathlib.Data.Finmap
import Mathlib.Data.Finset.Sort

/-!
# Maps that collect items by key

Items with a key arrive one after another, and a map keeps one value for each key that
stands for the items of that key.  Reading the map key by key finds every item once.
-/

namespace Gorums
namespace Keyed

variable {K A V : Type} [DecidableEq K]

/-- The items of a key, in order of arrival. -/
def itemsOf (key : K) (items : List (K × A)) : List A :=
  (items.filter fun item => item.1 = key).map Prod.snd

theorem itemsOf_concat (key other : K) (items : List (K × A)) (item : A) :
    itemsOf key (items ++ [(other, item)]) =
      itemsOf key items ++ if other = key then [item] else [] := by
  rw [itemsOf, List.filter_append, List.map_append]
  congr 1
  by_cases same : other = key
  · simp [same]
  · simp [same]

theorem itemsOf_eq_nil {key : K} {items : List (K × A)}
    (missing : key ∉ items.map Prod.fst) : itemsOf key items = [] := by
  rw [itemsOf, List.map_eq_nil_iff, List.filter_eq_nil_iff]
  intro item inside
  simp only [decide_eq_true_eq]
  intro same
  exact missing (same ▸ List.mem_map_of_mem inside)

theorem itemsOf_ne_nil {key : K} {items : List (K × A)}
    (present : key ∈ items.map Prod.fst) : itemsOf key items ≠ [] := by
  obtain ⟨item, inside, same⟩ := List.mem_map.mp present
  apply List.ne_nil_of_mem (a := item.2)
  apply List.mem_map_of_mem
  exact List.mem_filter.mpr ⟨inside, decide_eq_true same⟩

theorem filter_key_eq (key : K) (items : List (K × A)) :
    (items.filter fun item => item.1 = key) =
      (itemsOf key items).map fun item => (key, item) := by
  have each : ∀ item ∈ items.filter (fun item => item.1 = key), (key, item.2) = id item := by
    intro item inside
    have same := of_decide_eq_true (List.mem_filter.mp inside).2
    exact Prod.ext same.symm rfl
  rw [itemsOf, List.map_map]
  exact ((List.map_congr_left each).trans (List.map_id _)).symm

/-- Items of other keys do not matter for the items of a key. -/
theorem itemsOf_filter_ne {key other : K} (different : other ≠ key) (items : List (K × A)) :
    itemsOf other (items.filter fun item => !decide (item.1 = key)) = itemsOf other items := by
  rw [itemsOf, itemsOf, List.filter_filter]
  congr 1
  apply List.filter_congr
  intro item _
  by_cases same : item.1 = other
  · simp [same, different]
  · simp [same]

/-- Reading the items key by key finds every item once. -/
theorem flatMap_itemsOf_perm {keys : List K} (distinct : keys.Nodup) {items : List (K × A)}
    (all : ∀ item ∈ items, item.1 ∈ keys) :
    (keys.flatMap fun key => (itemsOf key items).map fun item => (key, item)).Perm items := by
  induction keys generalizing items with
  | nil =>
      have none : items = [] := by
        apply List.eq_nil_iff_forall_not_mem.mpr
        intro item inside
        exact List.not_mem_nil (all item inside)
      rw [none]
      exact List.Perm.refl []
  | cons key rest inductionHypothesis =>
      rw [List.nodup_cons] at distinct
      -- the items of the other keys are those that are left without this key
      have others : (rest.flatMap fun other =>
          (itemsOf other items).map fun item => (other, item)).Perm
            (items.filter fun item => !decide (item.1 = key)) := by
        have left : ∀ item ∈ items.filter (fun item => !decide (item.1 = key)),
            item.1 ∈ rest := by
          intro item inside
          obtain ⟨inItems, different⟩ := List.mem_filter.mp inside
          rcases List.mem_cons.mp (all item inItems) with same | later
          · simp [same] at different
          · exact later
        have same : (rest.flatMap fun other =>
            (itemsOf other items).map fun item => (other, item)) =
              rest.flatMap fun other =>
                (itemsOf other (items.filter fun item => !decide (item.1 = key))).map
                  fun item => (other, item) := by
          apply List.flatMap_congr
          intro other inside
          rw [itemsOf_filter_ne]
          rintro rfl
          exact distinct.1 inside
        rw [same]
        exact inductionHypothesis distinct.2 left
      rw [List.flatMap_cons, ← filter_key_eq]
      exact (List.Perm.append_left _ others).trans (List.filter_append_perm _ items)

section
variable (related : V → List A → Prop)

/-- The keys of a map are those of some items, and the value of each key is related to
the items of that key. -/
structure Collected (map : Finmap fun _ : K => V) (items : List (K × A)) : Prop where
  /-- The value of a key is related to its items. -/
  related : ∀ key value, map.lookup key = some value → related value (itemsOf key items)
  /-- There is a value for the keys of the items only. -/
  keys : ∀ key, key ∈ map ↔ key ∈ items.map Prod.fst

variable {related} {map : Finmap fun _ : K => V} {items : List (K × A)}

theorem Collected.empty : Collected related (∅ : Finmap fun _ : K => V) ([] : List (K × A)) := by
  refine ⟨?_, ?_⟩
  · intro key value found
    rw [Finmap.lookup_empty] at found
    cases found
  · intro key
    exact iff_of_false Finmap.notMem_empty List.not_mem_nil

/-- The value of a key stands for its items, also when there are none. -/
theorem Collected.getD (collected : Collected related map items) {initial : V}
    (none : related initial []) (key : K) :
    related ((map.lookup key).getD initial) (itemsOf key items) := by
  cases found : map.lookup key with
  | none =>
      have missing : key ∉ items.map Prod.fst := by
        rw [← collected.keys]
        exact Finmap.lookup_eq_none.mp found
      rw [itemsOf_eq_nil missing]
      exact none
  | some value => exact collected.related key value found

/-- Another item changes the value of its key. -/
theorem Collected.insert (collected : Collected related map items) {key : K} {item : A}
    {value : V} (next : related value (itemsOf key items ++ [item])) :
    Collected related (map.insert key value) (items ++ [(key, item)]) := by
  refine ⟨?_, ?_⟩
  · intro other current found
    rw [itemsOf_concat]
    by_cases same : key = other
    · subst same
      rw [Finmap.lookup_insert] at found
      obtain rfl := Option.some.inj found
      rw [if_pos rfl]
      exact next
    · rw [Finmap.lookup_insert_of_ne _ (Ne.symm same)] at found
      rw [if_neg same, List.append_nil]
      exact collected.related other current found
  · intro other
    rw [Finmap.mem_insert, collected.keys, List.map_append, List.mem_append]
    simp [or_comm]

end

end Keyed
end Gorums
