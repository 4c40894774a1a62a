import Gorums.Conn.NodeSource
import Gorums.MachineInt
import Gorums.Tree.Heap

/-!
# Tree configurations

A tree topology over the nodes of a configuration: a complete tree in
breadth-first order whose last level may be filled in part only.  The code finds
parents, children and levels by index formulas over the starts of the levels.
Here they are the parents, children and levels of the complete tree on
positions, cut off where the nodes end, and relaying from the root to the
children reaches every node once.
-/

namespace Gorums
namespace Tree

open Gorums.Stream (ID)
open Gorums.Conn (Config Node)
open Gorums.MachineInt
open Gorums.Heap

/-! ## The source -/

/-- The shape of a tree. -/
structure TreeOptions where
  /-- The maximum number of children of a node. -/
  branchingFactor : Int64
  /-- The maximum number of edges from the root to a leaf. -/
  depth : Int64
  deriving DecidableEq

/-- The loop of `treeLevelStart`, with the number of rounds that are left. -/
def levelStartLoop (bf : Nat) : Nat → Nat → Nat → Int
  | 0, sum, _ => sum
  | left + 1, sum, pow =>
      let (sum, carry) := add sum pow
      if carry ≠ 0 ∨ maxInt < sum then -1
      -- the power is not needed after the last round
      else if left = 0 then sum
      else
        let (hi, lo) := mul pow bf
        if hi ≠ 0 then -1 else levelStartLoop bf left sum lo

/-- The index of the first node at level `k`, or -1 on overflow. -/
def treeLevelStart (k bf : Int) : Int :=
  levelStartLoop (uint bf.toNat) k.toNat 0 1

/-- A power, by repeated multiplication. -/
def treePow (base : Int) : Nat → Int
  | 0 => 1
  | exp + 1 => int (treePow base exp * base)

/-- The positions of the nodes by ID; an ID that occurs twice is an error. -/
def placeNodes : Nat → (ID → Option Nat) → Config → Except String (ID → Option Nat)
  | _, positionOf, [] => .ok positionOf
  | i, positionOf, n :: rest =>
      if (positionOf n.id).isSome then
        .error ("gorums: configuration contains node " ++ toString n.id ++
          " more than once")
      else
        placeNodes (i + 1) (Function.update positionOf n.id (some i)) rest

/-- A position map holds the positions of the nodes of a configuration. -/
def Placed (nodes : Config) (positionOf : ID → Option Nat) : Prop :=
  ∀ id pos, positionOf id = some pos ↔ ∃ node, nodes[pos]? = some node ∧ node.id = id

theorem getElem?_snoc {nodes : Config} {node other : Node} {pos : Nat} :
    (nodes ++ [node])[pos]? = some other ↔
      nodes[pos]? = some other ∨ pos = nodes.length ∧ other = node := by
  rcases Nat.lt_trichotomy pos nodes.length with less | rfl | greater
  · rw [List.getElem?_append_left less]
    simp [Nat.ne_of_lt less]
  · simp [eq_comm]
  · rw [List.getElem?_eq_none (by simp; omega), List.getElem?_eq_none (by omega)]
    simp [Nat.ne_of_gt greater]

/-- Placing one more node after the others. -/
theorem Placed.snoc {nodes : Config} {positionOf : ID → Option Nat} {node : Node}
    (placed : Placed nodes positionOf) (fresh : positionOf node.id = none) :
    Placed (nodes ++ [node])
      (Function.update positionOf node.id (some nodes.length)) := by
  intro id pos
  simp only [getElem?_snoc]
  by_cases same : id = node.id
  · subst same
    rw [Function.update_self]
    constructor
    · rintro ⟨⟩
      exact ⟨node, .inr ⟨rfl, rfl⟩, rfl⟩
    · rintro ⟨other, found | ⟨last, _⟩, equal⟩
      · have := (placed node.id pos).mpr ⟨other, found, equal⟩
        rw [fresh] at this
        cases this
      · rw [last]
  · rw [Function.update_of_ne same, placed id pos]
    constructor
    · rintro ⟨other, found, equal⟩
      exact ⟨other, .inl found, equal⟩
    · rintro ⟨other, found | ⟨_, last⟩, equal⟩
      · exact ⟨other, found, equal⟩
      · rw [last] at equal
        exact absurd equal.symm same

/-- The loop places the nodes that are left after those that it has placed. -/
theorem placed_placeNodes {nodes rest : Config}
    {positionOf result : ID → Option Nat} (placed : Placed nodes positionOf)
    (accepted : placeNodes nodes.length positionOf rest = .ok result) :
    Placed (nodes ++ rest) result := by
  induction rest generalizing nodes positionOf with
  | nil =>
      cases accepted
      rw [List.append_nil]
      exact placed
  | cons node rest inductionHypothesis =>
      rw [placeNodes] at accepted
      split at accepted
      · cases accepted
      · rename_i fresh
        rw [Bool.not_eq_true, Option.isSome_eq_false_iff,
          Option.isNone_iff_eq_none] at fresh
        rw [List.append_cons]
        apply inductionHypothesis (placed.snoc fresh)
        rw [List.length_append, List.length_singleton]
        exact accepted

/-- The positions that the loop finds in a whole configuration. -/
theorem placed_of_accepted {nodes : Config} {positionOf : ID → Option Nat}
    (accepted : placeNodes 0 (fun _ => none) nodes = .ok positionOf) :
    Placed nodes positionOf := by
  have empty : Placed [] fun _ => none := by
    intro id pos
    simp
  exact placed_placeNodes empty accepted

/-- A tree over the nodes of a configuration, in breadth-first order. -/
structure TreeConfig where
  /-- The nodes; the first one is the root. -/
  nodes : Config
  /-- The shape of the tree. -/
  opts : TreeOptions
  /-- The index of each node, by ID. -/
  positionOf : ID → Option Nat
  /-- A node may have two children. -/
  branching : 2 ≤ opts.branchingFactor.toInt
  /-- There is a level below the root. -/
  deep : 1 ≤ opts.depth.toInt
  /-- There is a root. -/
  rooted : nodes ≠ []
  /-- There is room for the nodes. -/
  fits : (nodes.length : Int) ≤
    treeLevelStart (int (opts.depth.toInt + 1)) opts.branchingFactor.toInt
  /-- The index of a node is its position. -/
  placed : Placed nodes positionOf

/-- A tree over a configuration, in the order of the configuration. -/
def newTree (cfg : Config) (opts : TreeOptions) : Except String TreeConfig :=
  let bf := opts.branchingFactor.toInt
  let depth := opts.depth.toInt
  if branching : bf < 2 then
    .error ("gorums: TreeOptions.BranchingFactor must be >= 2, got " ++ toString bf)
  else if deep : depth < 1 then
    .error ("gorums: TreeOptions.Depth must be >= 1, got " ++ toString depth)
  else if rooted : cfg = [] then
    .error "gorums: cannot build a tree from an empty configuration"
  else
    let capacity := treeLevelStart (int (depth + 1)) bf
    if capacity < 0 then
      .error ("gorums: tree shape (BranchingFactor=" ++ toString bf ++ ", Depth=" ++
        toString depth ++ ") exceeds representable range")
    else if fits : capacity < cfg.length then
      .error ("gorums: configuration has " ++ toString cfg.length ++
        " nodes, exceeds tree capacity of " ++ toString capacity)
    else
      match accepted : placeNodes 0 (fun _ => none) cfg with
      | .error err => .error err
      | .ok positionOf =>
          .ok
            { nodes := cfg, opts := opts, positionOf := positionOf
              branching := Int.not_lt.mp branching
              deep := Int.not_lt.mp deep
              rooted := rooted
              fits := Int.not_lt.mp fits
              placed := placed_of_accepted accepted }

/-- A root with every other node as its child. -/
def newStar (cfg : Config) : Except String TreeConfig :=
  newTree cfg
    { branchingFactor := Int64.ofInt (max (cfg.length - 1 : Int) 2), depth := 1 }

/-- The nodes of a tree that was accepted are those of the configuration. -/
theorem nodes_of_accepted {cfg : Config} {opts : TreeOptions} {tree : TreeConfig}
    (accepted : newTree cfg opts = .ok tree) : tree.nodes = cfg ∧ tree.opts = opts := by
  unfold newTree at accepted
  dsimp only at accepted
  split at accepted
  · cases accepted
  split at accepted
  · cases accepted
  split at accepted
  · cases accepted
  split at accepted
  · cases accepted
  split at accepted
  · cases accepted
  split at accepted
  · cases accepted
  · cases accepted
    exact ⟨rfl, rfl⟩

namespace TreeConfig

/-- The loop of `posLevel`, with the number of levels that are left. -/
def levelLoop (bf pos : Int) : Nat → Int → Int × Int
  | 0, _ => (-1, -1)
  | left + 1, d =>
      if pos < treeLevelStart (int (d + 1)) bf then
        (d, int (pos - treeLevelStart d bf))
      else levelLoop bf pos left (int (d + 1))

/-- The depth of a position and its index within its level. -/
def posLevel (t : TreeConfig) (pos : Int) : Int × Int :=
  if pos < 0 ∨ t.nodes.length ≤ pos then (-1, -1)
  else
    levelLoop t.opts.branchingFactor.toInt pos (int (t.opts.depth.toInt + 1)).toNat 0

/-- The parent of a node. -/
def parentOf (t : TreeConfig) (id : ID) : Option Node :=
  match t.positionOf id with
  | none => none
  | some pos =>
      let (d, idx) := t.posLevel pos
      let bf := t.opts.branchingFactor.toInt
      if d ≤ 0 then none
      else
        let parentPos := int (treeLevelStart (d - 1) bf + idx.tdiv bf)
        t.nodes[parentPos.toNat]?

/-- The nodes from one index up to another. -/
def slice (t : TreeConfig) (first last : Int) : Config :=
  (t.nodes.drop first.toNat).take (last - first).toNat

/-- The children of a node. -/
def childrenOf (t : TreeConfig) (id : ID) : Config :=
  match t.positionOf id with
  | none => []
  | some pos =>
      let (d, idx) := t.posLevel pos
      if d < 0 ∨ t.opts.depth.toInt ≤ d then []
      else
        let bf := t.opts.branchingFactor.toInt
        let firstChild := int (treeLevelStart (int (d + 1)) bf + int (idx * bf))
        if t.nodes.length ≤ firstChild then []
        else t.slice firstChild (min (int (firstChild + bf)) t.nodes.length)

/-- The loop of `Subtree` from a level on, with the number of levels left. -/
def spanLoop (t : TreeConfig) (d idx : Int) : Nat → Int → List (Int × Int)
  | 0, _ => []
  | left + 1, lvl =>
      let bf := t.opts.branchingFactor.toInt
      let width := treePow bf (int (lvl - d)).toNat
      let start := int (treeLevelStart lvl bf + int (idx * width))
      if t.nodes.length ≤ start then []
      else
        (start, min (int (start + width)) t.nodes.length) ::
          spanLoop t d idx left (int (lvl + 1))

/-- A node and its descendants. -/
def subtree (t : TreeConfig) (id : ID) : Config :=
  match t.positionOf id with
  | none => []
  | some pos =>
      let (d, idx) := t.posLevel pos
      if d < 0 then []
      else
        let spans := t.spanLoop d idx (t.opts.depth.toInt - d).toNat (int (d + 1))
        t.nodes[pos]?.toList ++ spans.flatMap fun span => t.slice span.1 span.2

/-- The root. -/
def root (t : TreeConfig) : Node := t.nodes.head t.rooted

/-- The number of edges between a node and the root. -/
def level (t : TreeConfig) (id : ID) : Int :=
  match t.positionOf id with
  | none => -1
  | some pos => (t.posLevel pos).1

/-- The loop of `Height` for a number of rounds: nothing while it goes on. -/
def heightLoop (t : TreeConfig) : Nat → Int → Int → Option Int
  | 0, _, _ => none
  | rounds + 1, pos, h =>
      let (d, idx) := t.posLevel pos
      let bf := t.opts.branchingFactor.toInt
      let first := int (treeLevelStart (int (d + 1)) bf + int (idx * bf))
      if t.opts.depth.toInt ≤ d ∨ t.nodes.length ≤ first then some h
      else heightLoop t rounds first (int (h + 1))

/-- The number of edges on the longest path down to a leaf, if the loop is done
after a number of rounds. -/
def height (t : TreeConfig) (rounds : Nat) (id : ID) : Option Int :=
  match t.positionOf id with
  | none => some (-1)
  | some pos => t.heightLoop rounds pos 0

/-- Whether a node is in the tree and has no children. -/
def isLeaf (t : TreeConfig) (id : ID) : Bool :=
  (t.positionOf id).isSome && (t.childrenOf id).length == 0

/-! ## The starts of the levels -/

end TreeConfig

/-- The loop adds up the powers, or notices that they do not fit. -/
theorem levelStartLoop_eq {b d : Nat} (left : Nat)
    (small : levelStart b d ≤ maxInt) :
    levelStartLoop b left (levelStart b d) (b ^ d) =
      if levelStart b (d + left) ≤ maxInt then (levelStart b (d + left) : Int) else -1 := by
  induction left generalizing d with
  | zero =>
      rw [Nat.add_zero, if_pos small]
      rfl
  | succ left inductionHypothesis =>
      have later : levelStart b (d + 1) ≤ levelStart b (d + (left + 1)) :=
        levelStart_mono b (by omega)
      have next : levelStart b (d + 1) = levelStart b d + b ^ d := rfl
      simp only [levelStartLoop, add, mul, ← next]
      by_cases fits : levelStart b (d + 1) ≤ maxInt
      · have word : levelStart b (d + 1) < 2 ^ 64 := by
          unfold maxInt at fits
          omega
        rw [uint_of_lt word, Nat.div_eq_of_lt word, if_neg (by omega)]
        by_cases last : left = 0
        · rw [if_pos last, last, Nat.zero_add, if_pos fits]
        · rw [if_neg last, ← Nat.pow_succ]
          -- the next power is part of the sum that is left to compute
          have power : b ^ (d + 1) ≤ levelStart b (d + (left + 1)) := by
            have : levelStart b (d + 2) ≤ levelStart b (d + (left + 1)) :=
              levelStart_mono b (by omega)
            rw [levelStart_succ b (d + 1)] at this
            omega
          by_cases wide : b ^ (d + 1) < 2 ^ 64
          · rw [Nat.div_eq_of_lt wide, if_neg (by simp), uint_of_lt wide,
              inductionHypothesis fits, Nat.add_right_comm, Nat.add_assoc]
          · have : b ^ (d + 1) / 2 ^ 64 ≠ 0 :=
              Nat.ne_of_gt (Nat.div_pos (Nat.le_of_not_lt wide) (by omega))
            rw [if_pos this, if_neg]
            unfold maxInt
            omega
      · have overflows : (levelStart b (d + 1)) / 2 ^ 64 ≠ 0 ∨
            maxInt < uint (levelStart b (d + 1)) := by
          by_cases word : levelStart b (d + 1) < 2 ^ 64
          · rw [uint_of_lt word]
            omega
          · exact .inl (Nat.ne_of_gt (Nat.div_pos (Nat.le_of_not_lt word) (by omega)))
        rw [if_pos overflows, if_neg (by omega)]

theorem treeLevelStart_eq {b : Nat} (k : Nat) (word : b < 2 ^ 64) :
    treeLevelStart k b =
      if levelStart b k ≤ maxInt then (levelStart b k : Int) else -1 := by
  have := levelStartLoop_eq (b := b) (d := 0) k (by simp)
  rw [Nat.zero_add] at this
  rw [treeLevelStart, Int.toNat_natCast, Int.toNat_natCast, uint_of_lt word]
  exact this

namespace TreeConfig

variable (t : TreeConfig)

/-- The branching factor. -/
def bf : Nat := t.opts.branchingFactor.toInt.toNat

/-- The level of the last leaves of a full tree. -/
def depth : Nat := t.opts.depth.toInt.toNat

theorem branchingFactor_eq : t.opts.branchingFactor.toInt = t.bf := by
  have := t.branching
  unfold bf
  omega

theorem depth_eq : t.opts.depth.toInt = t.depth := by
  have := t.deep
  unfold depth
  omega

theorem two_le_bf : 2 ≤ t.bf := by
  have := t.branching
  rw [t.branchingFactor_eq] at this
  omega

theorem bf_pos : 0 < t.bf := Nat.lt_of_lt_of_le Nat.zero_lt_two t.two_le_bf

theorem bf_lt : t.bf < 2 ^ 63 := by
  have := t.opts.branchingFactor.toInt_lt
  rw [t.branchingFactor_eq] at this
  omega

theorem length_pos : 0 < t.nodes.length := List.length_pos_iff.mpr t.rooted

/-- The number of levels does not wrap around: a tree whose depth is the largest
integer would have no room. -/
theorem depth_lt : t.depth < maxInt := by
  have bound := t.opts.depth.toInt_lt
  rw [t.depth_eq] at bound
  by_contra large
  have last : t.depth = 2 ^ 63 - 1 := by
    unfold maxInt at large
    omega
  have wrapped : int (t.opts.depth.toInt + 1) = -2 ^ 63 := by
    rw [t.depth_eq, last]
    decide
  have fits := t.fits
  rw [wrapped] at fits
  have empty : treeLevelStart (-2 ^ 63) t.opts.branchingFactor.toInt = 0 := rfl
  have := t.length_pos
  omega

theorem depth_succ : int (t.opts.depth.toInt + 1) = (t.depth + 1 : Nat) := by
  rw [t.depth_eq, int_succ t.depth_lt]

/-- A full tree has room for the nodes, and its size is an integer. -/
theorem length_le : t.nodes.length ≤ levelStart t.bf (t.depth + 1) ∧
    levelStart t.bf (t.depth + 1) ≤ maxInt := by
  have fits := t.fits
  have bound := t.bf_lt
  rw [t.depth_succ, t.branchingFactor_eq,
    treeLevelStart_eq _ (by omega)] at fits
  split at fits
  · rename_i small
    exact ⟨by omega, small⟩
  · have := t.length_pos
    omega

/-- The start of every level of the tree is computed without overflow. -/
theorem levelStart_le {d : Nat} (inside : d ≤ t.depth + 1) :
    levelStart t.bf d ≤ maxInt :=
  Nat.le_trans (levelStart_mono t.bf inside) t.length_le.2

theorem treeLevelStart_bf {d : Nat} (inside : d ≤ t.depth + 1) :
    treeLevelStart d t.opts.branchingFactor.toInt = levelStart t.bf d := by
  have bound := t.bf_lt
  rw [t.branchingFactor_eq, treeLevelStart_eq d (by omega),
    if_pos (t.levelStart_le inside)]

/-- The start of the level after a level of the tree. -/
theorem treeLevelStart_succ {d : Nat} (inside : d ≤ t.depth) :
    treeLevelStart (int (d + 1)) t.opts.branchingFactor.toInt =
      levelStart t.bf (d + 1) := by
  have bound := t.depth_lt
  rw [int_succ (by omega)]
  exact t.treeLevelStart_bf (Nat.succ_le_succ inside)

/-! ## Levels -/

/-- Every position of the tree is in one of its levels. -/
theorem exists_level {pos : Nat} (inside : pos < t.nodes.length) :
    ∃ d ≤ t.depth, InLevel t.bf d pos := by
  obtain ⟨d, below, level⟩ := exists_inLevel (Nat.lt_of_lt_of_le inside t.length_le.1)
  exact ⟨d, Nat.le_of_lt_succ below, level⟩

theorem level_le {pos d : Nat} (inside : pos < t.nodes.length)
    (level : InLevel t.bf d pos) : d ≤ t.depth := by
  obtain ⟨other, below, same⟩ := t.exists_level inside
  rw [level.unique same]
  exact below

/-- The loop stops at the level of the position. -/
theorem levelLoop_eq {pos d : Nat} (level : InLevel t.bf d pos) (inside : d ≤ t.depth)
    {start left : Nat} (before : start ≤ d) (enough : d < start + left) :
    levelLoop t.opts.branchingFactor.toInt pos left start =
      ((d : Int), ((pos - levelStart t.bf d : Nat) : Int)) := by
  induction left generalizing start with
  | zero => omega
  | succ left inductionHypothesis =>
      rw [levelLoop, t.treeLevelStart_succ (Nat.le_trans before inside)]
      by_cases here : start = d
      · subst here
        have below : levelStart t.bf (start + 1) ≤ maxInt :=
          t.levelStart_le (Nat.succ_le_succ inside)
        have index : int (pos - levelStart t.bf start) =
            ((pos - levelStart t.bf start : Nat) : Int) := by
          rw [← Int.ofNat_sub level.1]
          apply int_natCast
          have := level.2
          omega
        rw [if_pos (Int.ofNat_lt.mpr level.2), t.treeLevelStart_bf (by omega), index]
      · have later := levelStart_mono t.bf (show start + 1 ≤ d by omega)
        have bound := t.depth_lt
        have notHere : ¬ (pos : Int) < levelStart t.bf (start + 1) := by
          have := level.1
          omega
        rw [if_neg notHere, int_succ (by omega)]
        exact inductionHypothesis (by omega) (by omega)

/-- A position is found in its level. -/
theorem posLevel_eq {pos d : Nat} (inside : pos < t.nodes.length)
    (level : InLevel t.bf d pos) :
    t.posLevel pos = ((d : Int), ((pos - levelStart t.bf d : Nat) : Int)) := by
  have below := t.level_le inside level
  rw [posLevel, if_neg (by omega), t.depth_succ, Int.toNat_natCast]
  exact t.levelLoop_eq level below (Nat.zero_le d) (by omega)

/-! ## Positions -/

theorem positionOf_eq_some {id : ID} {pos : Nat} :
    t.positionOf id = some pos ↔ ∃ node, t.nodes[pos]? = some node ∧ node.id = id :=
  t.placed id pos

theorem positionOf_of_getElem? {node : Node} {pos : Nat}
    (found : t.nodes[pos]? = some node) : t.positionOf node.id = some pos :=
  t.positionOf_eq_some.mpr ⟨node, found, rfl⟩

theorem lt_length {node : Node} {pos : Nat} (found : t.nodes[pos]? = some node) :
    pos < t.nodes.length :=
  (List.getElem?_eq_some_iff.mp found).1

/-- The nodes have distinct IDs. -/
theorem nodup_ids : (t.nodes.map Node.id).Nodup := by
  rw [List.nodup_iff_getElem?_ne_getElem?]
  intro first second less inside equal
  rw [List.length_map] at inside
  have found : t.nodes[second]? = some t.nodes[second] :=
    List.getElem?_eq_getElem inside
  have earlier : t.nodes[first]? = some (t.nodes[first]) :=
    List.getElem?_eq_getElem (Nat.lt_trans less inside)
  rw [List.getElem?_map, List.getElem?_map, found, earlier] at equal
  have same : t.nodes[first].id = t.nodes[second].id := Option.some.inj equal
  have := t.positionOf_of_getElem? earlier
  rw [same, t.positionOf_of_getElem? found] at this
  exact absurd (Option.some.inj this) (Nat.ne_of_gt less)

theorem nodup_nodes : t.nodes.Nodup := t.nodup_ids.of_map

/-- A node is in a part of the nodes if its position is. -/
theorem mem_drop_take {node : Node} {pos first count : Nat}
    (found : t.nodes[pos]? = some node) :
    node ∈ (t.nodes.drop first).take count ↔ first ≤ pos ∧ pos < first + count := by
  rw [List.mem_iff_getElem?]
  constructor
  · rintro ⟨index, inside⟩
    have below : index < count := by
      by_contra above
      rw [List.getElem?_take, if_neg above] at inside
      cases inside
    rw [List.getElem?_take_of_lt below, List.getElem?_drop] at inside
    have := t.positionOf_of_getElem? inside
    rw [t.positionOf_of_getElem? found] at this
    cases this
    omega
  · rintro ⟨lower, upper⟩
    refine ⟨pos - first, ?_⟩
    rw [List.getElem?_take_of_lt (by omega), List.getElem?_drop,
      Nat.add_sub_cancel' lower]
    exact found

theorem level_eq {node : Node} {pos d : Nat} (found : t.nodes[pos]? = some node)
    (inLevel : InLevel t.bf d pos) : t.level node.id = d := by
  rw [level, t.positionOf_of_getElem? found]
  simp only [t.posLevel_eq (t.lt_length found) inLevel]

/-! ## Generations -/

/-- The descendants of a node that are a number of levels below it. -/
def generation (j : Nat) (id : ID) : Config :=
  match t.positionOf id with
  | none => []
  | some pos => (t.nodes.drop (firstDescendant t.bf pos j)).take (t.bf ^ j)

theorem generation_eq {node : Node} {pos : Nat} (j : Nat)
    (found : t.nodes[pos]? = some node) :
    t.generation j node.id =
      (t.nodes.drop (firstDescendant t.bf pos j)).take (t.bf ^ j) := by
  simp only [generation, t.positionOf_of_getElem? found]

theorem mem_generation {node descendant : Node} {pos below : Nat} (j : Nat)
    (found : t.nodes[pos]? = some node) (foundBelow : t.nodes[below]? = some descendant) :
    descendant ∈ t.generation j node.id ↔ Descends t.bf pos j below := by
  rw [t.generation_eq j found, t.mem_drop_take foundBelow]
  rfl

/-- The generations of consecutive nodes are consecutive. -/
theorem flatMap_generation (j first count : Nat) :
    ((t.nodes.drop first).take count).flatMap (fun node => t.generation j node.id) =
      (t.nodes.drop (firstDescendant t.bf first j)).take (t.bf ^ j * count) := by
  induction count with
  | zero => simp
  | succ count inductionHypothesis =>
      rw [List.take_add_one, List.flatMap_append, inductionHypothesis, Nat.mul_succ,
        List.take_add, List.drop_drop]
      congr 1
      have next : firstDescendant t.bf first j + t.bf ^ j * count =
          firstDescendant t.bf (first + count) j := by
        unfold firstDescendant
        ring
      rw [next, List.getElem?_drop]
      cases found : t.nodes[first + count]? with
      | none =>
          have outside := List.getElem?_eq_none_iff.mp found
          have := firstDescendant_mono (p := first + count) t.bf_pos (Nat.zero_le j)
          rw [firstDescendant_zero] at this
          rw [List.drop_eq_nil_of_le (Nat.le_trans outside this)]
          simp
      | some node => simp [t.generation_eq j found]

/-- The descendants in a level of the tree end within the full tree. -/
theorem firstDescendant_le {pos d j : Nat} (level : InLevel t.bf d pos)
    (inside : d + j ≤ t.depth) : firstDescendant t.bf pos j + t.bf ^ j ≤ maxInt := by
  have power : 0 < t.bf ^ j := Nat.pow_pos t.bf_pos
  have last : Descends t.bf pos j (firstDescendant t.bf pos j + t.bf ^ j - 1) := by
    constructor <;> omega
  have below := (last.inLevel level).2
  have := t.levelStart_le (Nat.succ_le_succ inside)
  simp only [Nat.succ_eq_add_one] at this
  omega

/-- The descendants below the last level would come after the full tree. -/
theorem le_firstDescendant {pos d j : Nat} (level : InLevel t.bf d pos)
    (below : t.depth < d + j) : t.nodes.length ≤ firstDescendant t.bf pos j := by
  have first : Descends t.bf pos j (firstDescendant t.bf pos j) :=
    ⟨Nat.le_refl _, Nat.lt_add_of_pos_right (Nat.pow_pos t.bf_pos)⟩
  calc t.nodes.length
      ≤ levelStart t.bf (t.depth + 1) := t.length_le.1
    _ ≤ levelStart t.bf (d + j) := levelStart_mono t.bf below
    _ ≤ firstDescendant t.bf pos j := (first.inLevel level).1

/-- The first descendant in a level of the tree, as the code computes it. -/
theorem int_firstDescendant {pos d j : Nat} (level : InLevel t.bf d pos)
    (inside : d + j ≤ t.depth) :
    int (levelStart t.bf (d + j) +
        int ((pos - levelStart t.bf d : Nat) * (t.bf ^ j : Nat))) =
      firstDescendant t.bf pos j := by
  have eq := firstDescendant_eq (j := j) level.1
  have bound := t.firstDescendant_le level inside
  have small : int ((pos - levelStart t.bf d : Nat) * (t.bf ^ j : Nat)) =
      (((pos - levelStart t.bf d) * t.bf ^ j : Nat) : Int) :=
    int_natCast (by omega)
  rw [small, ← Int.natCast_add, ← eq]
  exact int_natCast (by omega)

/-- The nodes of a span that is cut off where the nodes end. -/
theorem slice_eq (first count : Nat) :
    t.slice first (min ((first + count : Nat) : Int) t.nodes.length) =
      (t.nodes.drop first).take count := by
  rw [slice, Int.toNat_natCast, List.take_eq_take_iff, List.length_drop]
  omega

/-- The children are the first generation. -/
theorem childrenOf_eq (id : ID) : t.childrenOf id = t.generation 1 id := by
  unfold childrenOf generation
  cases found : t.positionOf id with
  | none => rfl
  | some pos =>
      obtain ⟨node, here, _⟩ := t.positionOf_eq_some.mp found
      have inside := t.lt_length here
      obtain ⟨d, below, level⟩ := t.exists_level inside
      simp only [t.posLevel_eq inside level]
      by_cases bottom : d = t.depth
      · have := t.le_firstDescendant (j := 1) level (by omega)
        rw [List.drop_eq_nil_of_le this, List.take_nil, if_pos (by rw [t.depth_eq]; omega)]
      · have first := t.int_firstDescendant (j := 1) level (by omega)
        have last := t.firstDescendant_le (j := 1) level (by omega)
        rw [Nat.pow_one] at first last
        rw [if_neg (by rw [t.depth_eq]; omega), t.treeLevelStart_succ below,
          t.branchingFactor_eq, first, ← Int.natCast_add, int_natCast last, Nat.pow_one,
          t.slice_eq]
        split
        · rename_i beyond
          rw [List.drop_eq_nil_of_le (Int.ofNat_le.mp beyond), List.take_nil]
        · rfl

/-! ## Parents and children -/

/-- The root has no parent. -/
theorem parentOf_root {node : Node} (found : t.nodes[0]? = some node) :
    t.parentOf node.id = none := by
  have level : InLevel t.bf 0 0 := by simp [InLevel]
  simp only [parentOf, t.positionOf_of_getElem? found,
    t.posLevel_eq (t.lt_length found) level]
  rfl

/-- The parent of another node is at the parent of its position. -/
theorem parentOf_eq {node : Node} {pos : Nat} (found : t.nodes[pos]? = some node)
    (below : 0 < pos) : t.parentOf node.id = t.nodes[parent t.bf pos]? := by
  have inside := t.lt_length found
  obtain ⟨d, bound, level⟩ := t.exists_level inside
  simp only [parentOf, t.positionOf_of_getElem? found, t.posLevel_eq inside level]
  cases d with
  | zero =>
      have := level.2
      simp at this
      omega
  | succ d =>
      have eq := parent_eq t.bf_pos level.1
      have less : parent t.bf pos < pos := parent_lt below
      have size := t.length_le
      rw [if_neg (by omega), Int.natCast_succ, Int.add_sub_cancel,
        t.treeLevelStart_bf (by omega), t.branchingFactor_eq, ← Int.ofNat_tdiv,
        ← Int.natCast_add, ← eq, int_natCast (by omega), Int.toNat_natCast]

/-- A node is a child of the node that is its parent. -/
theorem mem_childrenOf_iff {node child : Node} (inside : node ∈ t.nodes)
    (below : child ∈ t.nodes) :
    child ∈ t.childrenOf node.id ↔ t.parentOf child.id = some node := by
  obtain ⟨pos, found⟩ := List.mem_iff_getElem?.mp inside
  obtain ⟨index, foundBelow⟩ := List.mem_iff_getElem?.mp below
  rw [t.childrenOf_eq, t.mem_generation 1 found foundBelow, descends_succ t.bf_pos,
    descends_zero]
  rcases Nat.eq_zero_or_pos index with root | positive
  · subst root
    rw [t.parentOf_root foundBelow]
    simp
  · rw [t.parentOf_eq foundBelow positive]
    constructor
    · rintro ⟨_, same⟩
      rw [same, found]
    · intro same
      have := t.positionOf_of_getElem? same
      rw [t.positionOf_of_getElem? found] at this
      exact ⟨positive, (Option.some.inj this).symm⟩

theorem mem_of_mem_childrenOf {child : Node} {id : ID}
    (below : child ∈ t.childrenOf id) : child ∈ t.nodes := by
  rw [t.childrenOf_eq, generation] at below
  split at below
  · cases below
  · exact List.mem_of_mem_drop (List.mem_of_mem_take below)

theorem length_childrenOf_le (id : ID) : (t.childrenOf id).length ≤ t.bf := by
  rw [t.childrenOf_eq, generation]
  split
  · exact Nat.zero_le _
  · rw [Nat.pow_one]
    exact List.length_take_le _ _

/-- The lists of children, in the order of the nodes, are the nodes but the root. -/
theorem flatMap_childrenOf :
    t.nodes.flatMap (fun node => t.childrenOf node.id) = t.nodes.drop 1 := by
  simp only [t.childrenOf_eq]
  have all := t.flatMap_generation 1 0 t.nodes.length
  rw [List.drop_zero, List.take_length] at all
  have first : firstDescendant t.bf 0 1 = 1 := by simp [firstDescendant]
  rw [all, first, List.take_of_length_le]
  rw [List.length_drop, Nat.pow_one]
  calc t.nodes.length - 1
      ≤ t.nodes.length := Nat.sub_le _ _
    _ ≤ t.bf * t.nodes.length := Nat.le_mul_of_pos_left _ t.bf_pos

/-- Two nodes have no child in common. -/
theorem disjoint_childrenOf {first second : Node} (inFirst : first ∈ t.nodes)
    (inSecond : second ∈ t.nodes) (apart : first ≠ second) :
    (t.childrenOf first.id).Disjoint (t.childrenOf second.id) := by
  intro child ofFirst ofSecond
  have below := t.mem_of_mem_childrenOf ofFirst
  have one := (t.mem_childrenOf_iff inFirst below).mp ofFirst
  have other := (t.mem_childrenOf_iff inSecond below).mp ofSecond
  rw [one] at other
  exact apart (Option.some.inj other)

/-- The level of a node is a level of the tree. -/
theorem level_bounds {node : Node} (inside : node ∈ t.nodes) :
    0 ≤ t.level node.id ∧ t.level node.id ≤ t.opts.depth.toInt := by
  obtain ⟨pos, found⟩ := List.mem_iff_getElem?.mp inside
  obtain ⟨d, below, level⟩ := t.exists_level (t.lt_length found)
  rw [t.level_eq found level, t.depth_eq]
  omega

/-- A child is one level below its parent. -/
theorem level_child {node child : Node} (inside : node ∈ t.nodes)
    (below : child ∈ t.childrenOf node.id) :
    t.level child.id = t.level node.id + 1 := by
  obtain ⟨pos, found⟩ := List.mem_iff_getElem?.mp inside
  obtain ⟨index, foundBelow⟩ := List.mem_iff_getElem?.mp (t.mem_of_mem_childrenOf below)
  obtain ⟨d, _, level⟩ := t.exists_level (t.lt_length found)
  rw [t.childrenOf_eq, t.mem_generation 1 found foundBelow] at below
  rw [t.level_eq found level, t.level_eq foundBelow (below.inLevel level),
    Int.natCast_add]
  rfl

/-- A leaf is a node that is the parent of no node. -/
theorem isLeaf_iff {node : Node} (inside : node ∈ t.nodes) :
    t.isLeaf node.id = true ↔ ∀ child ∈ t.nodes, t.parentOf child.id ≠ some node := by
  obtain ⟨pos, found⟩ := List.mem_iff_getElem?.mp inside
  rw [isLeaf, t.positionOf_of_getElem? found, Option.isSome_some, Bool.true_and,
    beq_iff_eq, List.length_eq_zero_iff, List.eq_nil_iff_forall_not_mem]
  constructor
  · intro none child below parent
    exact none child ((t.mem_childrenOf_iff inside below).mpr parent)
  · intro none child below
    have known := t.mem_of_mem_childrenOf below
    exact none child known ((t.mem_childrenOf_iff inside known).mp below)

/-! ## Relaying -/

/-- The nodes that are reached in a round when every node that was reached in the
round before relays to its children. -/
def relay : Nat → Config
  | 0 => [t.root]
  | round + 1 => (relay round).flatMap fun node => t.childrenOf node.id

/-- A round reaches the nodes of one level. -/
theorem relay_eq (round : Nat) :
    t.relay round = (t.nodes.drop (levelStart t.bf round)).take (t.bf ^ round) := by
  induction round with
  | zero =>
      rw [relay, root, levelStart_zero, List.drop_zero, Nat.pow_zero,
        List.take_one, List.head?_eq_some_head t.rooted]
      rfl
  | succ round inductionHypothesis =>
      have next : firstDescendant t.bf (levelStart t.bf round) 1 =
          levelStart t.bf (round + 1) := by
        rw [firstDescendant, levelStart_one, Nat.pow_one, levelStart_succ']
      simp only [relay, inductionHypothesis, t.childrenOf_eq]
      rw [t.flatMap_generation, next, Nat.pow_one, Nat.pow_succ']

/-- The first rounds reach the nodes of the first levels. -/
theorem flatMap_relay (rounds : Nat) :
    (List.range rounds).flatMap t.relay = t.nodes.take (levelStart t.bf rounds) := by
  induction rounds with
  | zero => rfl
  | succ rounds inductionHypothesis =>
      rw [List.range_succ, List.flatMap_append, inductionHypothesis, levelStart_succ,
        List.take_add, List.flatMap_singleton, t.relay_eq]

/-- Relaying reaches every node in the rounds of the tree's depth. -/
theorem flatMap_relay_depth : (List.range (t.depth + 1)).flatMap t.relay = t.nodes := by
  rw [t.flatMap_relay, List.take_of_length_le t.length_le.1]

end TreeConfig

/-- Every accepted tree splits its nodes but the root among the lists of children,
in agreement with the parents, the levels and the leaves, and relaying from the
root visits each node once, in the order of the configuration. -/
theorem tree_relays_once {cfg : Config} {opts : TreeOptions} {tree : TreeConfig}
    (accepted : newTree cfg opts = .ok tree) :
    (∀ first ∈ cfg, ∀ second ∈ cfg, first ≠ second →
      (tree.childrenOf first.id).Disjoint (tree.childrenOf second.id)) ∧
    (∀ node ∈ cfg, (tree.childrenOf node.id).length ≤ opts.branchingFactor.toInt) ∧
    (cfg.Nodup ∧ cfg.flatMap (fun node => tree.childrenOf node.id) = cfg.drop 1) ∧
    (∀ node ∈ cfg, ∀ child ∈ cfg,
      child ∈ tree.childrenOf node.id ↔ tree.parentOf child.id = some node) ∧
    (∀ node ∈ cfg, ∀ child ∈ tree.childrenOf node.id,
      tree.level child.id = tree.level node.id + 1) ∧
    (∀ node ∈ cfg, 0 ≤ tree.level node.id ∧ tree.level node.id ≤ opts.depth.toInt) ∧
    (∀ node ∈ cfg, tree.isLeaf node.id = true ↔
      ∀ child ∈ cfg, tree.parentOf child.id ≠ some node) ∧
    (List.range (opts.depth.toInt.toNat + 1)).flatMap tree.relay = cfg := by
  obtain ⟨rfl, rfl⟩ := nodes_of_accepted accepted
  refine ⟨?_, ?_, ⟨tree.nodup_nodes, tree.flatMap_childrenOf⟩, ?_, ?_, ?_, ?_,
    tree.flatMap_relay_depth⟩
  · intro first inFirst second inSecond apart
    exact tree.disjoint_childrenOf inFirst inSecond apart
  · intro node _
    rw [tree.branchingFactor_eq]
    exact Int.ofNat_le.mpr (tree.length_childrenOf_le node.id)
  · intro node inside child below
    exact tree.mem_childrenOf_iff inside below
  · intro node inside child below
    exact tree.level_child inside below
  · intro node inside
    exact tree.level_bounds inside
  · intro node inside
    exact tree.isLeaf_iff inside

/-- Five nodes, whose order is not that of their IDs. -/
def fiveNodes : Config :=
  [⟨0, 7, "a", .outbound⟩, ⟨1, 2, "b", .outbound⟩, ⟨2, 9, "c", .outbound⟩,
    ⟨3, 4, "d", .outbound⟩, ⟨4, 1, "e", .outbound⟩]

/-- A binary tree with two levels below the root. -/
def binaryOptions : TreeOptions := { branchingFactor := 2, depth := 2 }

theorem exists_fiveTree : ∃ tree, newTree fiveNodes binaryOptions = .ok tree := by
  have accepted : (newTree fiveNodes binaryOptions).isOk = true := by decide +kernel
  cases result : newTree fiveNodes binaryOptions with
  | error err =>
      rw [result] at accepted
      cases accepted
  | ok tree => exact ⟨tree, rfl⟩

/-- Five nodes in a binary tree, whose last level is not full. -/
theorem tree_relays_once_five :
    ∃ tree, newTree fiveNodes binaryOptions = .ok tree ∧
      (List.range 3).flatMap tree.relay = fiveNodes := by
  obtain ⟨tree, accepted⟩ := exists_fiveTree
  exact ⟨tree, accepted, (tree_relays_once accepted).2.2.2.2.2.2.2⟩

end Tree
end Gorums
