import Gorums.Tree.TreeConfig
import Mathlib.Algebra.BigOperators.Group.List.Basic
import Mathlib.Logic.Relation
import Mathlib.Order.Bounds.Basic

/-!
# Subtrees and heights

The code collects the descendants of a node as one span of nodes for each level,
and finds the height of a node by going to the first child again and again.  Here
the spans are the generations of the node, which are what paths through the lists
of children reach, and the first descendants are on the longest of these paths.
-/

namespace Gorums
namespace Tree

open Gorums.Stream (ID)
open Gorums.Conn (Config Node)
open Gorums.MachineInt
open Gorums.Heap

theorem treePow_eq {b : Nat} (positive : 0 < b) {exp : Nat} (small : b ^ exp ≤ maxInt) :
    treePow b exp = (b ^ exp : Nat) := by
  induction exp with
  | zero => rfl
  | succ exp inductionHypothesis =>
      have before : b ^ exp ≤ maxInt :=
        Nat.le_trans (Nat.pow_le_pow_right positive (Nat.le_succ exp)) small
      rw [treePow, inductionHypothesis before, ← Int.natCast_mul, ← Nat.pow_succ,
        int_natCast small]

namespace TreeConfig

variable (t : TreeConfig)

/-! ## Generations -/

theorem generation_zero {node : Node} (inside : node ∈ t.nodes) :
    t.generation 0 node.id = [node] := by
  obtain ⟨pos, found⟩ := List.mem_iff_getElem?.mp inside
  rw [t.generation_eq 0 found, firstDescendant_zero, Nat.pow_zero, List.take_one,
    List.head?_drop, found]
  rfl

theorem generation_eq_nil {node : Node} {pos j : Nat}
    (found : t.nodes[pos]? = some node)
    (beyond : t.nodes.length ≤ firstDescendant t.bf pos j) :
    t.generation j node.id = [] := by
  rw [t.generation_eq j found, List.drop_eq_nil_of_le beyond, List.take_nil]

/-- A generation is made of the generations of the children. -/
theorem generation_succ {node : Node} (inside : node ∈ t.nodes) (j : Nat) :
    t.generation (j + 1) node.id =
      (t.childrenOf node.id).flatMap fun child => t.generation j child.id := by
  obtain ⟨pos, found⟩ := List.mem_iff_getElem?.mp inside
  have first : firstDescendant t.bf (firstDescendant t.bf pos 1) j =
      firstDescendant t.bf pos (j + 1) := by
    rw [← firstDescendant_firstChild t.bf pos j, ← firstChild_firstDescendant,
      firstDescendant_zero]
  rw [t.childrenOf_eq, t.generation_eq 1 found, t.flatMap_generation, first,
    t.generation_eq (j + 1) found, Nat.pow_one, Nat.pow_succ]

/-- The generations of a node in the levels of the tree. -/
def descendants (id : ID) : Config :=
  (List.range (t.depth + 1)).flatMap fun j => t.generation j id

/-- The spans from a level on are the generations from that level on. -/
theorem flatMap_spanLoop {node : Node} {pos d : Nat}
    (found : t.nodes[pos]? = some node) (level : InLevel t.bf d pos)
    {j : Nat} (left : Nat) (levels : d + j + left = t.depth + 1) :
    (t.spanLoop d (pos - levelStart t.bf d : Nat) left ((d + j : Nat) : Int)).flatMap
        (fun span => t.slice span.1 span.2) =
      (List.range' j (left + d)).flatMap fun i => t.generation i node.id := by
  induction left generalizing j with
  | zero =>
      symm
      apply List.flatMap_eq_nil_iff.mpr
      intro i later
      rw [List.mem_range'_1] at later
      exact t.generation_eq_nil found (t.le_firstDescendant level (by omega))
  | succ left inductionHypothesis =>
      have within : d + j ≤ t.depth := by omega
      have last := t.firstDescendant_le level within
      have bound := t.depth_lt
      have exponent : (int (((d + j : Nat) : Int) - d)).toNat = j := by
        have : ((d + j : Nat) : Int) - d = j := by omega
        rw [this, int_natCast (by omega), Int.toNat_natCast]
      rw [spanLoop]
      simp only [exponent]
      rw [t.treeLevelStart_bf (by omega), t.branchingFactor_eq,
        treePow_eq t.bf_pos (by omega), t.int_firstDescendant level within,
        ← Int.natCast_add, int_natCast last]
      split
      · -- the nodes end before this level, and so before the levels below it
        rename_i beyond
        symm
        apply List.flatMap_eq_nil_iff.mpr
        intro i later
        rw [List.mem_range'_1] at later
        exact t.generation_eq_nil found
          (Nat.le_trans (Int.ofNat_le.mp beyond) (firstDescendant_mono t.bf_pos later.1))
      · rw [int_succ (by omega), Nat.add_assoc d j 1,
          List.flatMap_cons, inductionHypothesis (by omega), t.slice_eq,
          Nat.add_right_comm left 1 d, List.range'_succ, List.flatMap_cons,
          t.generation_eq j found]

/-- A subtree is made of the generations of its node. -/
theorem subtree_eq {node : Node} (inside : node ∈ t.nodes) :
    t.subtree node.id = t.descendants node.id := by
  obtain ⟨pos, found⟩ := List.mem_iff_getElem?.mp inside
  obtain ⟨d, below, level⟩ := t.exists_level (t.lt_length found)
  have left : ((t.depth : Int) - d).toNat = t.depth - d := by omega
  have bound := t.depth_lt
  have spans := t.flatMap_spanLoop found level (j := 1) (t.depth - d) (by omega)
  rw [Nat.sub_add_cancel below] at spans
  rw [subtree, t.positionOf_of_getElem? found]
  simp only [t.posLevel_eq (t.lt_length found) level]
  rw [if_neg (by omega), t.depth_eq, left, int_succ (by omega), spans, found, descendants,
    List.range_eq_range', List.range'_succ, List.flatMap_cons, t.generation_zero inside]
  rfl

/-! ## Paths -/

/-- A path of a number of edges through the lists of children. -/
def Path : Nat → Node → Node → Prop
  | 0, node, last => last = node
  | edges + 1, node, last =>
      ∃ above, Path edges node above ∧ last ∈ t.childrenOf above.id

/-- A path reaches the descendants that are as many levels below as it has edges. -/
theorem path_iff {node : Node} {pos : Nat} (found : t.nodes[pos]? = some node)
    (edges : Nat) (last : Node) :
    t.Path edges node last ↔
      ∃ index, t.nodes[index]? = some last ∧ Descends t.bf pos edges index := by
  induction edges generalizing last with
  | zero =>
      simp only [Path, descends_zero]
      constructor
      · rintro rfl
        exact ⟨pos, found, rfl⟩
      · rintro ⟨index, here, rfl⟩
        rw [found] at here
        exact (Option.some.inj here).symm
  | succ edges inductionHypothesis =>
      simp only [Path, inductionHypothesis]
      constructor
      · rintro ⟨above, ⟨index, here, descends⟩, child⟩
        obtain ⟨below, foundBelow⟩ :=
          List.mem_iff_getElem?.mp (t.mem_of_mem_childrenOf child)
        rw [t.childrenOf_eq, t.mem_generation 1 here foundBelow, descends_succ t.bf_pos,
          descends_zero] at child
        refine ⟨below, foundBelow, (descends_succ t.bf_pos).mpr ⟨child.1, ?_⟩⟩
        rw [child.2]
        exact descends
      · rintro ⟨below, foundBelow, descends⟩
        obtain ⟨positive, descends⟩ := (descends_succ t.bf_pos).mp descends
        have less : parent t.bf below < t.nodes.length :=
          Nat.lt_trans (parent_lt positive) (t.lt_length foundBelow)
        have here : t.nodes[parent t.bf below]? = some (t.nodes[parent t.bf below]) :=
          List.getElem?_eq_getElem less
        refine ⟨_, ⟨_, here, descends⟩, ?_⟩
        rw [t.childrenOf_eq, t.mem_generation 1 here foundBelow, descends_succ t.bf_pos,
          descends_zero]
        exact ⟨positive, rfl⟩

/-- The generation that is reached by paths of one length. -/
theorem mem_generation_iff_path {node last : Node} (inside : node ∈ t.nodes) (j : Nat) :
    last ∈ t.generation j node.id ↔ t.Path j node last := by
  obtain ⟨pos, found⟩ := List.mem_iff_getElem?.mp inside
  rw [t.path_iff found]
  constructor
  · intro below
    have known : last ∈ t.nodes := by
      rw [t.generation_eq j found] at below
      exact List.mem_of_mem_drop (List.mem_of_mem_take below)
    obtain ⟨index, here⟩ := List.mem_iff_getElem?.mp known
    exact ⟨index, here, (t.mem_generation j found here).mp below⟩
  · rintro ⟨index, here, descends⟩
    exact (t.mem_generation j found here).mpr descends

/-- There is a path of some length to the first descendant of that level, if to any. -/
theorem exists_path_iff {node : Node} {pos : Nat} (found : t.nodes[pos]? = some node)
    (edges : Nat) :
    (∃ last, t.Path edges node last) ↔
      firstDescendant t.bf pos edges < t.nodes.length := by
  simp only [t.path_iff found]
  constructor
  · rintro ⟨last, index, here, descends⟩
    exact Nat.lt_of_le_of_lt descends.1 (t.lt_length here)
  · intro inside
    exact ⟨_, _, List.getElem?_eq_getElem inside, Nat.le_refl _,
      Nat.lt_add_of_pos_right (Nat.pow_pos t.bf_pos)⟩

/-- A path stays in the levels of the tree. -/
theorem Path.edges_le {node last : Node} {edges : Nat} (inside : node ∈ t.nodes)
    (path : t.Path edges node last) : edges ≤ t.depth := by
  obtain ⟨pos, found⟩ := List.mem_iff_getElem?.mp inside
  obtain ⟨d, _, level⟩ := t.exists_level (t.lt_length found)
  have reached := (t.exists_path_iff found edges).mp ⟨last, path⟩
  by_contra longer
  have := t.le_firstDescendant (j := edges) level (by omega)
  exact absurd reached (Nat.not_lt.mpr this)

/-- What paths reach is what repeated steps to children reach. -/
theorem reflTransGen_iff_path {node last : Node} :
    Relation.ReflTransGen (fun above child => child ∈ t.childrenOf above.id) node last ↔
      ∃ edges, t.Path edges node last := by
  constructor
  · intro reached
    induction reached with
    | refl => exact ⟨0, rfl⟩
    | tail _ child inductionHypothesis =>
        obtain ⟨edges, path⟩ := inductionHypothesis
        exact ⟨edges + 1, _, path, child⟩
  · rintro ⟨edges, path⟩
    induction edges generalizing last with
    | zero =>
        cases path
        exact .refl
    | succ edges inductionHypothesis =>
        obtain ⟨above, path, child⟩ := path
        exact (inductionHypothesis path).tail child

/-- The subtree of a node is what can be reached from it. -/
theorem mem_subtree_iff {node last : Node} (inside : node ∈ t.nodes) :
    last ∈ t.subtree node.id ↔
      Relation.ReflTransGen (fun above child => child ∈ t.childrenOf above.id)
        node last := by
  rw [t.subtree_eq inside, descendants, List.mem_flatMap, t.reflTransGen_iff_path]
  simp only [t.mem_generation_iff_path inside, List.mem_range]
  constructor
  · rintro ⟨edges, _, path⟩
    exact ⟨edges, path⟩
  · rintro ⟨edges, path⟩
    exact ⟨edges, Nat.lt_succ_of_le (Path.edges_le t inside path), path⟩

/-! ## The order of a subtree -/

/-- A part of the nodes, position by position. -/
theorem drop_take_eq_filterMap (first count : Nat) :
    (t.nodes.drop first).take count =
      (List.range' first count).filterMap fun pos => t.nodes[pos]? := by
  induction count with
  | zero => rfl
  | succ count inductionHypothesis =>
      rw [List.take_add_one, inductionHypothesis, List.range'_concat, List.filterMap_append,
        List.getElem?_drop, Nat.one_mul]
      cases found : t.nodes[first + count]? <;> simp [found]

/-- The positions of the descendants increase. -/
theorem pairwise_positions (pos levels : Nat) :
    ((List.range levels).flatMap fun j =>
      List.range' (firstDescendant t.bf pos j) (t.bf ^ j)).Pairwise (· < ·) := by
  rw [List.pairwise_flatMap]
  constructor
  · intro j _
    exact List.pairwise_lt_range'
  · apply List.pairwise_lt_range.imp
    intro j later less first inFirst second inSecond
    rw [List.mem_range'_1] at inFirst inSecond
    calc first
        < firstDescendant t.bf pos j + t.bf ^ j := inFirst.2
      _ ≤ firstDescendant t.bf pos (j + 1) := firstDescendant_add_le t.bf_pos
      _ ≤ firstDescendant t.bf pos later := firstDescendant_mono t.bf_pos less
      _ ≤ second := inSecond.1

/-- A node comes after another one if its level is not above and its position is later. -/
def Precedes (first second : Node) : Prop :=
  t.level first.id ≤ t.level second.id ∧ t.nodes.idxOf first < t.nodes.idxOf second

theorem precedes_of_lt {first second : Node} {pos later : Nat}
    (found : t.nodes[pos]? = some first) (foundLater : t.nodes[later]? = some second)
    (less : pos < later) : t.Precedes first second := by
  obtain ⟨inside, rfl⟩ := List.getElem?_eq_some_iff.mp found
  obtain ⟨insideLater, rfl⟩ := List.getElem?_eq_some_iff.mp foundLater
  obtain ⟨d, _, level⟩ := t.exists_level inside
  obtain ⟨below, _, levelLater⟩ := t.exists_level insideLater
  constructor
  · rw [t.level_eq found level, t.level_eq foundLater levelLater]
    exact Int.ofNat_le.mpr (level.le_of_le levelLater (Nat.le_of_lt less))
  · rw [t.nodup_nodes.idxOf_getElem, t.nodup_nodes.idxOf_getElem]
    exact less

theorem pairwise_subtree {node : Node} (inside : node ∈ t.nodes) :
    (t.subtree node.id).Pairwise t.Precedes := by
  obtain ⟨pos, found⟩ := List.mem_iff_getElem?.mp inside
  rw [t.subtree_eq inside, descendants]
  simp only [t.generation_eq _ found, t.drop_take_eq_filterMap, ← List.filterMap_flatMap]
  rw [List.pairwise_filterMap]
  apply (t.pairwise_positions pos (t.depth + 1)).imp
  intro first second less one here other there
  exact t.precedes_of_lt here there less

theorem nodup_subtree {node : Node} (inside : node ∈ t.nodes) :
    (t.subtree node.id).Nodup := by
  apply (t.pairwise_subtree inside).imp
  rintro first second ⟨_, less⟩ rfl
  exact Nat.lt_irrefl _ less

/-! ## The size of a subtree -/

theorem length_generations {node : Node} (inside : node ∈ t.nodes) (levels : Nat) :
    ((List.range (levels + 1)).flatMap fun j => t.generation j node.id).length =
      1 + ((t.childrenOf node.id).map fun child =>
        ((List.range levels).flatMap fun j => t.generation j child.id).length).sum := by
  induction levels with
  | zero => simp [t.generation_zero inside]
  | succ levels inductionHypothesis =>
      rw [List.range_succ, List.flatMap_append, List.length_append, inductionHypothesis,
        List.flatMap_singleton, t.generation_succ inside, List.length_flatMap,
        Nat.add_assoc, ← List.sum_map_add]
      simp only [List.range_succ, List.flatMap_append, List.length_append,
        List.flatMap_singleton]

/-- The last generation of a tree has no part below a child. -/
theorem descendants_child {node child : Node} (inside : node ∈ t.nodes)
    (below : child ∈ t.childrenOf node.id) :
    t.descendants child.id =
      (List.range t.depth).flatMap fun j => t.generation j child.id := by
  obtain ⟨pos, found⟩ := List.mem_iff_getElem?.mp (t.mem_of_mem_childrenOf below)
  obtain ⟨d, _, level⟩ := t.exists_level (t.lt_length found)
  have deeper : 0 < d := by
    have above := (t.level_bounds inside).1
    have child := t.level_child inside below
    rw [t.level_eq found level] at child
    omega
  rw [descendants, List.range_succ, List.flatMap_append, List.flatMap_singleton,
    t.generation_eq_nil found (t.le_firstDescendant level (by omega)), List.append_nil]

theorem length_subtree {node : Node} (inside : node ∈ t.nodes) :
    (t.subtree node.id).length =
      1 + ((t.childrenOf node.id).map fun child => (t.subtree child.id).length).sum := by
  rw [t.subtree_eq inside, descendants, t.length_generations inside]
  congr 2
  apply List.map_congr_left
  intro child below
  rw [t.subtree_eq (t.mem_of_mem_childrenOf below), t.descendants_child inside below]

/-- The subtree of the root is the configuration. -/
theorem subtree_root : t.subtree t.root.id = t.nodes := by
  have found : t.nodes[0]? = some t.root := by
    rw [← List.head?_eq_getElem?, List.head?_eq_some_head t.rooted]
    rfl
  have inside : t.root ∈ t.nodes := List.mem_of_getElem? found
  have generations : (fun j => t.generation j t.root.id) = t.relay := by
    funext j
    rw [t.generation_eq j found, t.relay_eq, firstDescendant, Nat.mul_zero, Nat.zero_add]
  rw [t.subtree_eq inside, descendants, generations, t.flatMap_relay_depth]

/-! ## Heights -/

/-- The loop goes to the first descendants and stops at the last of them. -/
theorem heightLoop_eq {pos d : Nat} (level : InLevel t.bf d pos) {h : Nat} (rounds : Nat)
    (enough : t.depth < d + h + rounds)
    (inside : firstDescendant t.bf pos h < t.nodes.length) :
    ∃ last : Nat, t.heightLoop rounds (firstDescendant t.bf pos h) h = some (last : Int) ∧
      firstDescendant t.bf pos last < t.nodes.length ∧
      t.nodes.length ≤ firstDescendant t.bf pos (last + 1) := by
  have here : InLevel t.bf (d + h) (firstDescendant t.bf pos h) := by
    apply Descends.inLevel level
    exact ⟨Nat.le_refl _, Nat.lt_add_of_pos_right (Nat.pow_pos t.bf_pos)⟩
  have below := t.level_le inside here
  have next : firstDescendant t.bf (firstDescendant t.bf pos h) 1 =
      firstDescendant t.bf pos (h + 1) := by
    rw [← firstChild_firstDescendant, firstDescendant_zero, firstChild_firstDescendant]
  induction rounds generalizing h with
  | zero => omega
  | succ rounds inductionHypothesis =>
      rw [heightLoop]
      simp only [t.posLevel_eq inside here]
      by_cases bottom : d + h = t.depth
      · rw [if_pos (.inl (by rw [t.depth_eq]; omega))]
        exact ⟨h, rfl, inside, t.le_firstDescendant level (by omega)⟩
      · have first := t.int_firstDescendant (j := 1) here (by omega)
        rw [Nat.pow_one, next] at first
        rw [t.treeLevelStart_succ below, t.branchingFactor_eq, first, t.depth_eq]
        split
        · rename_i stop
          exact ⟨h, rfl, inside, by omega⟩
        · rename_i go
          have bound := t.depth_lt
          have deeper : firstDescendant t.bf pos (h + 1) < t.nodes.length := by omega
          have lower : InLevel t.bf (d + (h + 1)) (firstDescendant t.bf pos (h + 1)) := by
            apply Descends.inLevel level
            exact ⟨Nat.le_refl _, Nat.lt_add_of_pos_right (Nat.pow_pos t.bf_pos)⟩
          rw [int_succ (by omega)]
          apply inductionHypothesis (by omega) deeper lower (t.level_le deeper lower)
          rw [← firstChild_firstDescendant, firstDescendant_zero,
            firstChild_firstDescendant]

/-- The height of a node is the length of the longest path from it, found within
one round for each level. -/
theorem height_eq {node : Node} (inside : node ∈ t.nodes) :
    ∃ longest : Nat, IsGreatest {edges | ∃ last, t.Path edges node last} longest ∧
      ∀ rounds, t.depth < rounds → t.height rounds node.id = some (longest : Int) := by
  obtain ⟨pos, found⟩ := List.mem_iff_getElem?.mp inside
  obtain ⟨d, _, level⟩ := t.exists_level (t.lt_length found)
  have greatest : ∀ last, firstDescendant t.bf pos last < t.nodes.length →
      t.nodes.length ≤ firstDescendant t.bf pos (last + 1) →
      IsGreatest {edges | ∃ last, t.Path edges node last} last := by
    intro last reached beyond
    constructor
    · exact (t.exists_path_iff found last).mpr reached
    · intro edges path
      have reached := (t.exists_path_iff found edges).mp path
      by_contra longer
      have := firstDescendant_mono (p := pos) t.bf_pos (Nat.lt_of_not_le longer)
      exact absurd reached (Nat.not_lt.mpr (Nat.le_trans beyond this))
  have start : firstDescendant t.bf pos 0 < t.nodes.length := by
    rw [firstDescendant_zero]
    exact t.lt_length found
  have stops : ∀ rounds, t.depth < rounds → ∃ last : Nat,
      t.height rounds node.id = some (last : Int) ∧
        IsGreatest {edges | ∃ last, t.Path edges node last} last := by
    intro rounds enough
    obtain ⟨last, result, reached, beyond⟩ :=
      t.heightLoop_eq level (h := 0) rounds (by omega) start
    refine ⟨last, ?_, greatest last reached beyond⟩
    rw [firstDescendant_zero] at result
    simp only [height, t.positionOf_of_getElem? found]
    exact result
  obtain ⟨longest, _, isGreatest⟩ := stops (t.depth + 1) (Nat.lt_succ_self _)
  refine ⟨longest, isGreatest, ?_⟩
  intro rounds enough
  obtain ⟨last, result, other⟩ := stops rounds enough
  rw [result, isGreatest.unique other]

end TreeConfig

/-- In every accepted tree the subtree of a node holds what can be reached from it
through lists of children, once and in breadth-first order, its size follows from
the sizes of the children's subtrees, and its height is the length of the longest
path, which the loop finds within one round for each level. -/
theorem subtree_height_agree {cfg : Config} {opts : TreeOptions} {tree : TreeConfig}
    (accepted : newTree cfg opts = .ok tree) :
    (∀ node ∈ cfg,
      (∀ other, other ∈ tree.subtree node.id ↔
        Relation.ReflTransGen (fun above child => child ∈ tree.childrenOf above.id)
          node other) ∧
      (tree.subtree node.id).Nodup ∧
      (tree.subtree node.id).Pairwise (fun first second =>
        tree.level first.id ≤ tree.level second.id ∧
          cfg.idxOf first < cfg.idxOf second) ∧
      (tree.subtree node.id).length =
        1 + ((tree.childrenOf node.id).map fun child =>
          (tree.subtree child.id).length).sum ∧
      ∃ longest : Nat,
        IsGreatest {edges | ∃ last, tree.Path edges node last} longest ∧
        ∀ rounds, opts.depth.toInt.toNat < rounds →
          tree.height rounds node.id = some (longest : Int)) ∧
    tree.subtree tree.root.id = cfg := by
  obtain ⟨rfl, rfl⟩ := nodes_of_accepted accepted
  refine ⟨?_, tree.subtree_root⟩
  intro node inside
  refine ⟨?_, tree.nodup_subtree inside, tree.pairwise_subtree inside,
    tree.length_subtree inside, tree.height_eq inside⟩
  intro other
  exact tree.mem_subtree_iff inside

/-- The subtree of the root of five nodes in a binary tree. -/
theorem subtree_height_agree_five :
    ∃ tree, newTree fiveNodes binaryOptions = .ok tree ∧
      tree.subtree tree.root.id = fiveNodes := by
  obtain ⟨tree, accepted⟩ := exists_fiveTree
  exact ⟨tree, accepted, (subtree_height_agree accepted).2⟩

end Tree
end Gorums
