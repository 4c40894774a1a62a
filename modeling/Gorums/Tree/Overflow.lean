import Gorums.Tree.Subtree
import Mathlib.Algebra.BigOperators.Ring.Finset

/-!
# Tree arithmetic without overflow

The index formulas of a tree multiply and add without checks, and an index that is out
of range panics.  Here every function has a twin that fails where a value that matters
for its result overflows, where the start of a level is not representable, or where an
index is out of range.  For an accepted tree the twins never fail.
-/

namespace Gorums
namespace Tree

open Gorums.Stream (ID)
open Gorums.Conn (Config Node)
open Gorums.MachineInt
open Gorums.Heap

/-! ## The twins -/

namespace Checked

/-- The start of a level, unless it is not representable. -/
def treeLevelStart (k bf : Int) : Option Int :=
  if Tree.treeLevelStart k bf < 0 then none else some (Tree.treeLevelStart k bf)

/-- A power, unless a product overflows. -/
def treePow (base : Int) : Nat → Option Int
  | 0 => some 1
  | exp + 1 => do
      let power ← treePow base exp
      fit (power * base)

/-- The node at an index, unless it is out of range. -/
def index (nodes : Config) (i : Int) : Option Node :=
  if i < 0 then none else nodes[i.toNat]?

/-- The nodes from one index up to another, unless one is out of range. -/
def slice (nodes : Config) (first last : Int) : Option Config :=
  if 0 ≤ first ∧ first ≤ last ∧ last ≤ nodes.length then
    some ((nodes.drop first.toNat).take (last - first).toNat)
  else none

/-- The loop of `posLevel`. -/
def levelLoop (bf pos : Int) : Nat → Int → Option (Int × Int)
  | 0, _ => some (-1, -1)
  | left + 1, d => do
      let next ← fit (d + 1)
      let after ← treeLevelStart next bf
      if pos < after then
        let start ← treeLevelStart d bf
        let idx ← fit (pos - start)
        some (d, idx)
      else levelLoop bf pos left next

section
variable (t : TreeConfig)

/-- The depth of a position and its index within its level. -/
def posLevel (pos : Int) : Option (Int × Int) :=
  if pos < 0 ∨ t.nodes.length ≤ pos then some (-1, -1)
  else do
    let levels ← fit (t.opts.depth.toInt + 1)
    levelLoop t.opts.branchingFactor.toInt pos levels.toNat 0

/-- The parent of a node. -/
def parentOf (id : ID) : Option (Option Node) :=
  match t.positionOf id with
  | none => some none
  | some pos => do
      let (d, idx) ← posLevel t pos
      let bf := t.opts.branchingFactor.toInt
      if d ≤ 0 then some none
      else
        let above ← fit (d - 1)
        let start ← treeLevelStart above bf
        let parentPos ← fit (start + idx.tdiv bf)
        let parent ← index t.nodes parentPos
        some (some parent)

/-- The first of the descendants of a node in a level. -/
def spanStart (lvl idx width : Int) : Option Int := do
  let start ← treeLevelStart lvl t.opts.branchingFactor.toInt
  let offset ← fit (idx * width)
  fit (start + offset)

/-- The children of a node. -/
def childrenOf (id : ID) : Option Config :=
  match t.positionOf id with
  | none => some []
  | some pos => do
      let (d, idx) ← posLevel t pos
      if d < 0 ∨ t.opts.depth.toInt ≤ d then some []
      else
        let bf := t.opts.branchingFactor.toInt
        let lvl ← fit (d + 1)
        let firstChild ← spanStart t lvl idx bf
        if t.nodes.length ≤ firstChild then some []
        else
          let last ← fit (firstChild + bf)
          slice t.nodes firstChild (min last t.nodes.length)

/-- The loop of `Subtree`, with the size that the result is allocated with. -/
def spanLoop (d idx : Int) : Nat → Int → Int → Option (List (Int × Int) × Int)
  | 0, _, size => some ([], size)
  | left + 1, lvl, size => do
      let levels ← fit (lvl - d)
      let width ← treePow t.opts.branchingFactor.toInt levels.toNat
      let start ← spanStart t lvl idx width
      if t.nodes.length ≤ start then some ([], size)
      else
        let last ← fit (start + width)
        let stop := min last t.nodes.length
        let count ← fit (stop - start)
        let larger ← fit (size + count)
        let next ← fit (lvl + 1)
        let (spans, total) ← spanLoop d idx left next larger
        some ((start, stop) :: spans, total)

/-- The node at a position of a level and its descendants. -/
def subtreeFrom (pos d idx : Int) : Option Config := do
  let lvl ← fit (d + 1)
  let (spans, size) ← spanLoop t d idx (t.opts.depth.toInt - d).toNat lvl 1
  -- a negative size panics
  if size < 0 then none
  else
    let node ← index t.nodes pos
    let parts ← spans.mapM fun span => slice t.nodes span.1 span.2
    some (node :: parts.flatten)

/-- A node and its descendants. -/
def subtree (id : ID) : Option Config :=
  match t.positionOf id with
  | none => some []
  | some pos => do
      let (d, idx) ← posLevel t pos
      if d < 0 then some [] else subtreeFrom t pos d idx

/-- The loop of `Height` for a number of rounds.  The first child of a node of the last
level is computed and not used. -/
def heightLoop : Nat → Int → Int → Option (Option Int)
  | 0, _, _ => some none
  | rounds + 1, pos, h => do
      let (d, idx) ← posLevel t pos
      if t.opts.depth.toInt ≤ d then some (some h)
      else
        let lvl ← fit (d + 1)
        let first ← spanStart t lvl idx t.opts.branchingFactor.toInt
        if t.nodes.length ≤ first then some (some h)
        else
          let taller ← fit (h + 1)
          heightLoop rounds first taller

/-- The number of edges on the longest path down to a leaf, if the loop is done after a
number of rounds. -/
def height (rounds : Nat) (id : ID) : Option (Option Int) :=
  match t.positionOf id with
  | none => some (some (-1))
  | some pos => heightLoop t rounds pos 0

end

end Checked

/-! ## The starts of the levels -/

theorem levelStart_eq_sum (b k : Nat) :
    levelStart b k = ∑ i ∈ Finset.range k, b ^ i := by
  induction k with
  | zero => rfl
  | succ k inductionHypothesis =>
      rw [levelStart_succ, inductionHypothesis, Finset.sum_range_succ]

/-- The start of a level is the sum of the powers before it, or -1. -/
theorem treeLevelStart_eq_sum {k bf : Int64} (lower : 0 ≤ k.toInt) (branching : 2 ≤ bf.toInt) :
    treeLevelStart k.toInt bf.toInt =
      if ∑ i ∈ Finset.range k.toInt.toNat, bf.toInt ^ i ≤ 2 ^ 63 - 1 then
        ∑ i ∈ Finset.range k.toInt.toNat, bf.toInt ^ i
      else -1 := by
  obtain ⟨count, countEq⟩ := Int.eq_ofNat_of_zero_le lower
  obtain ⟨b, bEq⟩ := Int.eq_ofNat_of_zero_le (Int.le_trans (by decide) branching)
  have word := bf.toInt_lt
  have sum : ∑ i ∈ Finset.range count, (b : Int) ^ i = (levelStart b count : Nat) := by
    rw [levelStart_eq_sum]
    push_cast
    rfl
  rw [bEq] at word
  rw [countEq, bEq, Int.toNat_natCast, sum, treeLevelStart_eq count (by omega)]
  congr 1
  unfold maxInt
  apply propext
  omega

namespace Checked

theorem treePow_eq {b : Nat} (positive : 0 < b) {exp : Nat} (small : b ^ exp ≤ maxInt) :
    treePow b exp = some ((b ^ exp : Nat) : Int) := by
  induction exp with
  | zero => rfl
  | succ exp inductionHypothesis =>
      have before : b ^ exp ≤ maxInt :=
        Nat.le_trans (Nat.pow_le_pow_right positive (Nat.le_succ exp)) small
      rw [treePow, inductionHypothesis before, Option.bind_eq_bind, Option.bind_some,
        ← Int.natCast_mul, ← Nat.pow_succ, fit_natCast small]

theorem fit_succ {value : Nat} (small : value < maxInt) :
    fit ((value : Int) + 1) = some ((value + 1 : Nat) : Int) :=
  fit_natCast small

variable (t : TreeConfig)

theorem treeLevelStart_bf {d : Nat} (inside : d ≤ t.depth + 1) :
    treeLevelStart d t.opts.branchingFactor.toInt = some (levelStart t.bf d : Int) := by
  have start := t.treeLevelStart_bf inside
  rw [treeLevelStart, start, if_neg (by omega)]

/-! ## Levels -/

/-- The loop finds the level of a position. -/
theorem levelLoop_eq {pos d : Nat} (level : InLevel t.bf d pos) (inside : d ≤ t.depth)
    {start left : Nat} (before : start ≤ d) (enough : d < start + left) :
    levelLoop t.opts.branchingFactor.toInt pos left start =
      some ((d : Int), ((pos - levelStart t.bf d : Nat) : Int)) := by
  have bound := t.depth_lt
  induction left generalizing start with
  | zero => omega
  | succ left inductionHypothesis =>
      simp only [levelLoop, fit_succ (show start < maxInt by omega), Option.bind_eq_bind,
        Option.bind_some, treeLevelStart_bf t (show start + 1 ≤ t.depth + 1 by omega)]
      by_cases here : start = d
      · subst here
        have below := t.levelStart_le (Nat.succ_le_succ inside)
        have index : fit ((pos : Int) - levelStart t.bf start) =
            some ((pos - levelStart t.bf start : Nat) : Int) := by
          rw [← Int.ofNat_sub level.1]
          apply fit_natCast
          have := level.2
          simp only [Nat.succ_eq_add_one] at below
          omega
        rw [if_pos (Int.ofNat_lt.mpr level.2), treeLevelStart_bf t (by omega),
          Option.bind_some, index, Option.bind_some]
      · have later := levelStart_mono t.bf (show start + 1 ≤ d by omega)
        have notHere : ¬ (pos : Int) < levelStart t.bf (start + 1) := by
          have := level.1
          omega
        rw [if_neg notHere]
        exact inductionHypothesis (by omega) (by omega)

/-- No position is looked up with an overflow. -/
theorem posLevel_eq (pos : Int) : posLevel t pos = some (t.posLevel pos) := by
  unfold posLevel
  by_cases outside : pos < 0 ∨ t.nodes.length ≤ pos
  · rw [if_pos outside, TreeConfig.posLevel, if_pos outside]
  · obtain ⟨place, rfl⟩ := Int.eq_ofNat_of_zero_le (show 0 ≤ pos by omega)
    have inside : place < t.nodes.length := by omega
    obtain ⟨d, below, level⟩ := t.exists_level inside
    rw [if_neg outside, t.depth_eq, fit_succ t.depth_lt, Option.bind_eq_bind,
      Option.bind_some, Int.toNat_natCast, t.posLevel_eq inside level]
    exact levelLoop_eq t level below (Nat.zero_le d) (by omega)

/-! ## Positions -/

theorem index_eq {node : Node} {pos : Nat} (found : t.nodes[pos]? = some node) :
    index t.nodes pos = some node := by
  rw [index, if_neg (by omega), Int.toNat_natCast, found]

/-- A span that starts within the nodes is cut off where the nodes end. -/
theorem slice_eq {first count : Nat} (inside : first < t.nodes.length) :
    slice t.nodes first (min ((first + count : Nat) : Int) t.nodes.length) =
      some (t.slice first (min ((first + count : Nat) : Int) t.nodes.length)) := by
  rw [slice, if_pos (by omega)]
  rfl

/-- The parent of a node is found without an overflow. -/
theorem parentOf_eq (id : ID) : parentOf t id = some (t.parentOf id) := by
  cases found : t.positionOf id with
  | none => simp only [parentOf, TreeConfig.parentOf, found]
  | some pos =>
      obtain ⟨node, here, rfl⟩ := t.positionOf_eq_some.mp found
      have inside := t.lt_length here
      obtain ⟨d, below, level⟩ := t.exists_level inside
      simp only [parentOf, found, posLevel_eq, Option.bind_eq_bind, Option.bind_some,
        t.posLevel_eq inside level]
      cases d with
      | zero =>
          have root : pos = 0 := by
            have := level.2
            simp at this
            omega
          subst root
          rw [t.parentOf_root here]
          rfl
      | succ d =>
          have positive : 0 < pos := by
            have := level.1
            rw [levelStart_succ'] at this
            omega
          have less : parent t.bf pos < t.nodes.length :=
            Nat.lt_trans (parent_lt positive) inside
          have size := t.length_le
          have bound := t.depth_lt
          have above : fit (((d + 1 : Nat) : Int) - 1) = some (d : Int) := by
            rw [Int.natCast_succ, Int.add_sub_cancel, fit_natCast (by omega)]
          have place : fit ((levelStart t.bf d : Int) +
              ((pos - levelStart t.bf (d + 1) : Nat) : Int).tdiv t.bf) =
                some (parent t.bf pos : Int) := by
            rw [← Int.ofNat_tdiv, ← Int.natCast_add, ← parent_eq t.bf_pos level.1,
              fit_natCast (by omega)]
          have known := List.getElem?_eq_getElem less
          rw [if_neg (by omega), above, Option.bind_some, treeLevelStart_bf t (by omega),
            Option.bind_some, t.branchingFactor_eq, place, Option.bind_some,
            index_eq t known, Option.bind_some, t.parentOf_eq here positive, known]

/-! ## Descendants -/

/-- The first descendant in a level of the tree. -/
theorem spanStart_eq {pos d j : Nat} (level : InLevel t.bf d pos) (inside : d + j ≤ t.depth) :
    spanStart t ((d + j : Nat) : Int) ((pos - levelStart t.bf d : Nat) : Int)
      ((t.bf ^ j : Nat) : Int) = some (firstDescendant t.bf pos j : Int) := by
  have eq := firstDescendant_eq (j := j) level.1
  have bound := t.firstDescendant_le level inside
  rw [spanStart, treeLevelStart_bf t (by omega), Option.bind_eq_bind, Option.bind_some,
    ← Int.natCast_mul, fit_natCast (by omega), Option.bind_some, ← Int.natCast_add, ← eq,
    fit_natCast (by omega)]

/-- The first child of a node that is not in the last level. -/
theorem spanStart_child {pos d : Nat} (level : InLevel t.bf d pos) (inside : d < t.depth) :
    spanStart t ((d + 1 : Nat) : Int) ((pos - levelStart t.bf d : Nat) : Int)
      t.opts.branchingFactor.toInt = some (firstDescendant t.bf pos 1 : Int) := by
  have start := spanStart_eq t (j := 1) level inside
  rw [Nat.pow_one] at start
  rw [t.branchingFactor_eq]
  exact start

/-- The children of a node are found without an overflow. -/
theorem childrenOf_eq (id : ID) : childrenOf t id = some (t.childrenOf id) := by
  cases found : t.positionOf id with
  | none => simp only [childrenOf, TreeConfig.childrenOf, found]
  | some pos =>
      obtain ⟨node, here, rfl⟩ := t.positionOf_eq_some.mp found
      have inside := t.lt_length here
      obtain ⟨d, below, level⟩ := t.exists_level inside
      simp only [childrenOf, found, posLevel_eq, Option.bind_eq_bind, Option.bind_some,
        t.posLevel_eq inside level]
      rw [t.childrenOf_eq, t.generation_eq 1 here]
      by_cases bottom : d = t.depth
      · rw [if_pos (by rw [t.depth_eq]; omega),
          List.drop_eq_nil_of_le (t.le_firstDescendant level (by omega)), List.take_nil]
      · have last := t.firstDescendant_le (j := 1) level (by omega)
        have bound := t.depth_lt
        rw [Nat.pow_one] at last
        rw [if_neg (by rw [t.depth_eq]; omega), fit_succ (by omega), Option.bind_some,
          spanStart_child t level (by omega), Option.bind_some, t.branchingFactor_eq,
          ← Int.natCast_add, fit_natCast last, Option.bind_some, Nat.pow_one]
        split
        · rename_i beyond
          rw [List.drop_eq_nil_of_le (Int.ofNat_le.mp beyond), List.take_nil]
        · rw [slice_eq t (by omega), t.slice_eq]

/-- The spans of a subtree are found without an overflow and are within the nodes.  The
nodes that are counted for its size come before the span that is looked at. -/
theorem spanLoop_eq {pos d : Nat} (level : InLevel t.bf d pos) {j size : Nat} (left : Nat)
    (levels : d + j + left = t.depth + 1) (counted : size ≤ firstDescendant t.bf pos j) :
    ∃ total : Nat,
      spanLoop t d (pos - levelStart t.bf d : Nat) left ((d + j : Nat) : Int) size =
        some (t.spanLoop d (pos - levelStart t.bf d : Nat) left ((d + j : Nat) : Int),
          (total : Int)) ∧
      ∀ span ∈ t.spanLoop d (pos - levelStart t.bf d : Nat) left ((d + j : Nat) : Int),
        slice t.nodes span.1 span.2 = some (t.slice span.1 span.2) := by
  have bound := t.depth_lt
  induction left generalizing j size with
  | zero => exact ⟨size, rfl, by simp [TreeConfig.spanLoop]⟩
  | succ left inductionHypothesis =>
      have within : d + j ≤ t.depth := by omega
      have last := t.firstDescendant_le level within
      have levelsAbove : ((d + j : Nat) : Int) - d = (j : Int) := by omega
      have start := t.int_firstDescendant level within
      simp only [spanLoop, TreeConfig.spanLoop, levelsAbove,
        fit_natCast (show j ≤ maxInt by omega), int_natCast (show j ≤ maxInt by omega),
        Option.bind_eq_bind, Option.bind_some, Int.toNat_natCast, t.branchingFactor_eq,
        treePow_eq t.bf_pos (show t.bf ^ j ≤ maxInt by omega),
        Tree.treePow_eq t.bf_pos (show t.bf ^ j ≤ maxInt by omega),
        spanStart_eq t level within]
      rw [← t.branchingFactor_eq, t.treeLevelStart_bf (by omega), start, ← Int.natCast_add,
        int_natCast last, fit_natCast last, Option.bind_some]
      by_cases beyond : (t.nodes.length : Int) ≤ firstDescendant t.bf pos j
      · rw [if_pos beyond, if_pos beyond]
        exact ⟨size, rfl, by simp⟩
      · rw [if_neg beyond, if_neg beyond]
        have after : firstDescendant t.bf pos j + t.bf ^ j ≤ firstDescendant t.bf pos (j + 1) :=
          firstDescendant_add_le t.bf_pos
        obtain ⟨count, countEq⟩ : ∃ count : Nat,
            min ((firstDescendant t.bf pos j + t.bf ^ j : Nat) : Int) t.nodes.length -
              firstDescendant t.bf pos j = (count : Int) :=
          Int.eq_ofNat_of_zero_le (by omega)
        have few : count ≤ t.bf ^ j := by omega
        have more : size + count ≤ firstDescendant t.bf pos (j + 1) := by omega
        obtain ⟨total, result, slices⟩ := inductionHypothesis (by omega) more
        refine ⟨total, ?_, ?_⟩
        · rw [countEq, fit_natCast (by omega), Option.bind_some, ← Int.natCast_add,
            fit_natCast (by omega), Option.bind_some, fit_succ (by omega), Option.bind_some,
            Nat.add_assoc d j 1, result, int_succ (by omega), Option.bind_some,
            Nat.add_assoc d j 1]
        · intro span inside
          rw [int_succ (by omega), Nat.add_assoc d j 1] at inside
          rcases List.mem_cons.mp inside with same | later
          · rw [same]
            exact slice_eq t (by omega)
          · exact slices span later

theorem mapM_eq_map {α β : Type} {f : α → Option β} {g : α → β} {items : List α}
    (all : ∀ item ∈ items, f item = some (g item)) : items.mapM f = some (items.map g) := by
  induction items with
  | nil => rfl
  | cons item rest inductionHypothesis =>
      have later : ∀ other ∈ rest, f other = some (g other) := by
        intro other inside
        exact all other (List.mem_cons_of_mem _ inside)
      rw [List.mapM_cons, all item List.mem_cons_self, inductionHypothesis later]
      rfl

theorem subtree_of_found {id : ID} {pos : Nat} {d idx : Int} (found : t.positionOf id = some pos)
    (level : posLevel t pos = some (d, idx)) (inside : ¬ d < 0) :
    subtree t id = subtreeFrom t pos d idx := by
  unfold subtree
  rw [found]
  dsimp only
  rw [level]
  exact if_neg inside

/-- A subtree is found without an overflow. -/
theorem subtree_eq (id : ID) : subtree t id = some (t.subtree id) := by
  cases found : t.positionOf id with
  | none => simp only [subtree, TreeConfig.subtree, found]
  | some pos =>
      obtain ⟨node, here, rfl⟩ := t.positionOf_eq_some.mp found
      have inside := t.lt_length here
      obtain ⟨d, below, level⟩ := t.exists_level inside
      have bound := t.depth_lt
      have counted : 1 ≤ firstDescendant t.bf pos 1 := by
        rw [firstDescendant, levelStart_one]
        omega
      have left : (t.opts.depth.toInt - d).toNat = t.depth - d := by
        rw [t.depth_eq]
        omega
      obtain ⟨total, result, slices⟩ :=
        spanLoop_eq t level (t.depth - d) (by omega) counted
      have place := posLevel_eq t pos
      rw [t.posLevel_eq inside level] at place
      rw [subtree_of_found t found place (by omega), subtreeFrom, left]
      simp only [TreeConfig.subtree, found, t.posLevel_eq inside level]
      rw [Int.natCast_one] at result
      rw [if_neg (by omega), left, int_succ (by omega)]
      simp only [fit_succ (show d < maxInt by omega), result, Option.bind_eq_bind,
        Option.bind_some]
      rw [if_neg (by omega), index_eq t here, Option.bind_some, mapM_eq_map slices,
        Option.bind_some, here, List.flatMap_def, Option.toList_some, List.singleton_append]

/-- The loop goes from level to level, so the height does not overflow. -/
theorem heightLoop_eq {pos d : Nat} (inside : pos < t.nodes.length)
    (level : InLevel t.bf d pos) {h : Nat} (climbed : h ≤ d) (rounds : Nat) :
    heightLoop t rounds pos h = some (t.heightLoop rounds pos h) := by
  have bound := t.depth_lt
  induction rounds generalizing pos d h with
  | zero => rfl
  | succ rounds inductionHypothesis =>
      have below := t.level_le inside level
      simp only [heightLoop, TreeConfig.heightLoop, posLevel_eq, Option.bind_eq_bind,
        Option.bind_some, t.posLevel_eq inside level]
      by_cases bottom : t.opts.depth.toInt ≤ (d : Int)
      · rw [if_pos bottom, if_pos (.inl bottom)]
      · have higher : d < t.depth := by
          rw [t.depth_eq] at bottom
          omega
        have first := t.int_firstDescendant (j := 1) level higher
        rw [Nat.pow_one] at first
        rw [if_neg bottom, fit_succ (by omega), Option.bind_some,
          spanStart_child t level higher, Option.bind_some, t.treeLevelStart_succ below,
          t.branchingFactor_eq, first]
        by_cases beyond : (t.nodes.length : Int) ≤ firstDescendant t.bf pos 1
        · rw [if_pos beyond, if_pos (.inr beyond)]
        · have lower : InLevel t.bf (d + 1) (firstDescendant t.bf pos 1) := by
            apply Descends.inLevel level
            exact ⟨Nat.le_refl _, Nat.lt_add_of_pos_right (Nat.pow_pos t.bf_pos)⟩
          rw [if_neg beyond, if_neg (by rw [not_or]; exact ⟨bottom, beyond⟩),
            fit_succ (by omega), Option.bind_some, int_succ (by omega)]
          exact inductionHypothesis (by omega) lower (by omega)

/-- The height of a node is found without an overflow. -/
theorem height_eq (rounds : Nat) (id : ID) :
    height t rounds id = some (t.height rounds id) := by
  unfold height TreeConfig.height
  cases found : t.positionOf id with
  | none => rfl
  | some pos =>
      obtain ⟨node, here, rfl⟩ := t.positionOf_eq_some.mp found
      obtain ⟨d, _, level⟩ := t.exists_level (t.lt_length here)
      exact heightLoop_eq t (t.lt_length here) level (Nat.zero_le d) rounds

end Checked

/-- The start of a level is the sum of the powers of the branching factor before it, or -1
if that is not representable; and in an accepted tree nothing that matters for a result
overflows, every index is within the nodes, and every position has a level. -/
theorem tree_arithmetic_fits :
    (∀ k bf : Int64, 0 ≤ k.toInt → 2 ≤ bf.toInt →
      treeLevelStart k.toInt bf.toInt =
        if ∑ i ∈ Finset.range k.toInt.toNat, bf.toInt ^ i ≤ 2 ^ 63 - 1 then
          ∑ i ∈ Finset.range k.toInt.toNat, bf.toInt ^ i
        else -1) ∧
    ∀ (cfg : Config) (opts : TreeOptions) (tree : TreeConfig), newTree cfg opts = .ok tree →
      (∀ pos : Nat, pos < cfg.length →
        0 ≤ (tree.posLevel pos).1 ∧ 0 ≤ (tree.posLevel pos).2) ∧
      (∀ pos : Int, Checked.posLevel tree pos = some (tree.posLevel pos)) ∧
      ∀ id : ID,
        Checked.parentOf tree id = some (tree.parentOf id) ∧
        Checked.childrenOf tree id = some (tree.childrenOf id) ∧
        Checked.subtree tree id = some (tree.subtree id) ∧
        ∀ rounds, Checked.height tree rounds id = some (tree.height rounds id) := by
  refine ⟨fun k bf lower branching => treeLevelStart_eq_sum lower branching, ?_⟩
  intro cfg opts tree accepted
  obtain ⟨rfl, rfl⟩ := nodes_of_accepted accepted
  refine ⟨?_, Checked.posLevel_eq tree, ?_⟩
  · intro pos inside
    obtain ⟨d, _, level⟩ := tree.exists_level inside
    rw [tree.posLevel_eq inside level]
    exact ⟨Int.natCast_nonneg _, Int.natCast_nonneg _⟩
  · intro id
    exact ⟨Checked.parentOf_eq tree id, Checked.childrenOf_eq tree id,
      Checked.subtree_eq tree id, fun rounds => Checked.height_eq tree rounds id⟩

/-- The five nodes of a binary tree. -/
theorem tree_arithmetic_fits_five :
    ∃ tree, newTree fiveNodes binaryOptions = .ok tree ∧
      (∀ pos : Nat, pos < 5 → 0 ≤ (tree.posLevel pos).1) ∧
      Checked.subtree tree 2 = some (tree.subtree 2) := by
  obtain ⟨tree, accepted⟩ := exists_fiveTree
  have fits := tree_arithmetic_fits.2 fiveNodes binaryOptions tree accepted
  exact ⟨tree, accepted, fun pos inside => (fits.1 pos inside).1, (fits.2.2 2).2.2.1⟩

end Tree
end Gorums
