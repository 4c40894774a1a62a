import Gorums.Conn.DistinctIDs

/-!
# Unions of configurations

The functions that make configurations from configurations.  `Add` looks the
IDs up in the pool of the first node, so here a node comes with the pool that
owns it.  The nodes of a server's inbound streams have no pool.
-/

namespace Gorums
namespace Conn

open Pool

/-- A node and the number of the pool that owns it; `none` is a nil manager. -/
structure Member where
  /-- The node. -/
  node : Node
  /-- The pool. -/
  mgr : Option Nat
  deriving DecidableEq

/-- The ID of a node. -/
def Member.id (member : Member) : Stream.ID := member.node.id

/-- What `outboundManager.Node` returns for an ID when `Add` asks each pool. -/
structure Registry where
  /-- The node that is found. -/
  find : Nat → Stream.ID → Option Node
  /-- It has the ID. -/
  ids : ∀ pool id node, find pool id = some node → node.id = id

/-- The registries of pools. -/
def Registry.ofPools (pools : Nat → Manager)
    (registered : ∀ pool, Registered (pools pool)) : Registry where
  find pool := (pools pool).lookup
  ids pool := (registered pool).lookup

/-- A configuration with the pools of its nodes. -/
abbrev Members := List Member

namespace Members

/-- The nodes of one pool. -/
def ofPool (pool : Nat) (config : Config) : Members :=
  config.map fun node => ⟨node, some pool⟩

/-- Nodes without a pool. -/
def inbound (config : Config) : Members :=
  config.map fun node => ⟨node, none⟩

/-- `Config.NodeIDs`. -/
def nodeIDs (config : Members) : List Stream.ID := config.map Member.id

/-- `Config.mgr`. -/
def mgr : Members → Option Nat
  | [] => none
  | first :: _ => first.mgr

/-- Sort nodes by ID. -/
def sortByID (config : Members) : Members := sortBy Member.id config

/-- The loop of `Config.Add`; `none` is the panic of a lookup in a nil
manager. -/
def addLoop (registry : Registry) (mgr : Option Nat) :
    Members → List Stream.ID → List Stream.ID → Option Members
  | nodes, _, [] => some nodes
  | nodes, seenIDs, id :: ids =>
      if id ∈ seenIDs then addLoop registry mgr nodes seenIDs ids
      else
        match mgr with
        | none => none
        | some pool =>
            match registry.find pool id with
            | none => addLoop registry mgr nodes seenIDs ids
            | some node =>
                addLoop registry mgr (nodes ++ [⟨node, some pool⟩])
                  (seenIDs ++ [id]) ids

/-- `Config.Add`. -/
def add (registry : Registry) (config : Members) (ids : List Stream.ID) :
    Option Members :=
  if config = [] then some []
  else (addLoop registry config.mgr config config.nodeIDs ids).map sortByID

/-- `Config.Union`. -/
def union (registry : Registry) (config other : Members) : Option Members :=
  if config = [] then some other
  else if other = [] then some config
  else config.add registry other.nodeIDs

/-- `Config.Remove`. -/
def remove (config : Members) (ids : List Stream.ID) : Members :=
  config.filter fun member => member.id ∉ ids

/-- `Config.Difference`. -/
def difference (config other : Members) : Members :=
  if other = [] then config else config.remove other.nodeIDs

end Members

/-- The configurations that programs obtain. -/
inductive Obtained : Members → Prop
  /-- `NewConfig`, also for a server's peer configuration, and `Extend`. -/
  | returned (pool : Nat) {context : Context} {calls : List Invocation}
      {state : State Manager Op}
      (reached : Reaches context (fun _ _ => True) {} calls state)
      {returned : Return} (member : returned ∈ state.shared.returns)
      {config : Config} (succeeded : returned.result = .ok config)
      (extended : ∀ config, returned.call.config = some config →
        Obtained (.ofPool pool config)) :
      Obtained (.ofPool pool config)
  /-- `ConnectedPeers` once the server has its peer configuration. -/
  | connectedPeers (pool : Nat) {server : Server} {events : List Event}
      {state : InboundManager}
      (ran : (InboundManager.new server).run server events = some state)
      {peers : Config} (configured : state.peerConfig = some peers)
      (obtained : Obtained (.ofPool pool peers)) :
      Obtained (.ofPool pool state.connectedPeers)
  /-- `ConnectedPeers` before that. -/
  | inboundPeers {server : Server} {events : List Event}
      {state : InboundManager}
      (ran : (InboundManager.new server).run server events = some state)
      (unconfigured : state.peerConfig = none) :
      Obtained (.inbound state.connectedPeers)
  /-- `ConnectedClients`. -/
  | connectedClients {server : Server} {events : List Event}
      {state : InboundManager}
      (ran : (InboundManager.new server).run server events = some state) :
      Obtained (.inbound state.connectedClients)
  /-- `Add`. -/
  | add {config after : Members} (registry : Registry) (ids : List Stream.ID)
      (obtained : Obtained config)
      (added : config.add registry ids = some after) : Obtained after
  /-- `Remove`. -/
  | remove {config : Members} (ids : List Stream.ID)
      (obtained : Obtained config) : Obtained (config.remove ids)
  /-- `Difference`. -/
  | difference {config : Members} (other : Members)
      (obtained : Obtained config) : Obtained (config.difference other)
  /-- `Sort`, with any comparator. -/
  | sort {config sorted : Members} (obtained : Obtained config)
      (permuted : sorted.Perm config) : Obtained sorted

/-! ## Add -/

/-- What `Add` makes of a configuration: its nodes, and the nodes that the pool
has under the other IDs. -/
structure Adds (registry : Registry) (pool : Nat) (config : Members)
    (ids : List Stream.ID) (after : Members) : Prop where
  /-- The nodes of the configuration stay. -/
  kept : config ⊆ after
  /-- Other nodes are those of the pool. -/
  found : ∀ member ∈ after, member ∈ config ∨
    member.id ∈ ids ∧ member.id ∉ config.nodeIDs ∧ member.mgr = some pool ∧
      registry.find pool member.id = some member.node
  /-- Every ID that the pool has is there. -/
  complete : ∀ id ∈ ids, id ∈ after.nodeIDs ∨ registry.find pool id = none
  /-- No ID becomes repeated. -/
  distinct : config.nodeIDs.Nodup → after.nodeIDs.Nodup

section Add

variable {registry : Registry} {pool : Nat} {config after other : Members}
  {ids : List Stream.ID}

theorem perm_sortByID (config : Members) : config.sortByID.Perm config :=
  perm_sortBy Member.id config

theorem mem_nodeIDs {id : Stream.ID} :
    id ∈ config.nodeIDs ↔ ∃ member ∈ config, member.id = id :=
  List.mem_map

theorem Adds.cons {id : Stream.ID} (adds : Adds registry pool config ids after)
    (settled : id ∈ after.nodeIDs ∨ registry.find pool id = none) :
    Adds registry pool config (id :: ids) after := by
  refine ⟨adds.kept, ?_, ?_, adds.distinct⟩
  · intro member inside
    refine (adds.found member inside).imp_right ?_
    rintro ⟨listed, rest⟩
    exact ⟨List.mem_cons_of_mem _ listed, rest⟩
  · intro other member
    rcases List.mem_cons.mp member with same | later
    · rw [same]
      exact settled
    · exact adds.complete other later

/-- The loop of `Add` on a pool returns. -/
theorem adds_addLoop (registry : Registry) (pool : Nat) (config : Members)
    (ids : List Stream.ID) :
    ∃ after, Members.addLoop registry (some pool) config config.nodeIDs ids =
      some after ∧ Adds registry pool config ids after := by
  induction ids generalizing config with
  | nil =>
      refine ⟨config, rfl, fun _ => id, fun _ => .inl, ?_, id⟩
      exact List.forall_mem_nil _
  | cons id ids inductionHypothesis =>
      by_cases seen : id ∈ config.nodeIDs
      · obtain ⟨after, returned, adds⟩ := inductionHypothesis config
        refine ⟨after, by rw [Members.addLoop, if_pos seen, returned], ?_⟩
        apply adds.cons
        obtain ⟨present, inside, equal⟩ := mem_nodeIDs.mp seen
        exact .inl (mem_nodeIDs.mpr ⟨present, adds.kept inside, equal⟩)
      · cases found : registry.find pool id with
        | none =>
            obtain ⟨after, returned, adds⟩ := inductionHypothesis config
            refine ⟨after, ?_, adds.cons (.inr found)⟩
            simp only [Members.addLoop, if_neg seen, found, returned]
        | some node =>
            have named : node.id = id := registry.ids pool id node found
            have nodeIDs : Members.nodeIDs (config ++ [⟨node, some pool⟩]) =
                config.nodeIDs ++ [id] := by
              simp [Members.nodeIDs, Member.id, named]
            obtain ⟨after, returned, adds⟩ :=
              inductionHypothesis (config ++ [⟨node, some pool⟩])
            rw [nodeIDs] at returned
            refine ⟨after, ?_, ?_, ?_, ?_, ?_⟩
            · simp only [Members.addLoop, if_neg seen, found, returned]
            · exact fun member inside =>
                adds.kept (List.mem_append_left _ inside)
            · intro member inside
              rcases adds.found member inside with before | ⟨listed, fresh, rest⟩
              · rcases List.mem_append.mp before with old | new
                · exact .inl old
                · rw [List.mem_singleton.mp new]
                  refine .inr ⟨?_, ?_, rfl, ?_⟩
                  · simp [Member.id, named]
                  · rw [Member.id, named]
                    exact seen
                  · rw [Member.id, named]
                    exact found
              · refine .inr ⟨List.mem_cons_of_mem _ listed, ?_, rest⟩
                rw [nodeIDs] at fresh
                exact fun old => fresh (List.mem_append_left _ old)
            · intro other member
              rcases List.mem_cons.mp member with same | later
              · rw [same]
                refine .inl (mem_nodeIDs.mpr ⟨⟨node, some pool⟩, ?_, named⟩)
                exact adds.kept (by simp)
              · exact adds.complete other later
            · intro distinct
              apply adds.distinct
              rw [nodeIDs]
              refine distinct.append (List.nodup_singleton _) ?_
              intro other old last
              rw [List.mem_singleton.mp last] at old
              exact seen old

theorem Adds.perm (adds : Adds registry pool config ids after)
    (permuted : other.Perm after) : Adds registry pool config ids other := by
  have same : other.nodeIDs.Perm after.nodeIDs := permuted.map Member.id
  refine ⟨?_, ?_, ?_, ?_⟩
  · exact fun member inside => permuted.mem_iff.mpr (adds.kept inside)
  · exact fun member inside => adds.found member (permuted.mem_iff.mp inside)
  · intro id listed
    rw [same.mem_iff]
    exact adds.complete id listed
  · exact fun distinct => same.nodup_iff.mpr (adds.distinct distinct)

/-- `Add` on a configuration whose first node has a pool returns. -/
theorem adds_add (registry : Registry) (owned : config.mgr = some pool)
    (ids : List Stream.ID) :
    ∃ after, config.add registry ids = some after ∧
      Adds registry pool config ids after := by
  have nonempty : config ≠ [] := by
    intro none
    rw [none] at owned
    cases owned
  obtain ⟨after, returned, adds⟩ := adds_addLoop registry pool config ids
  refine ⟨after.sortByID, ?_, adds.perm (perm_sortByID after)⟩
  rw [Members.add, if_neg nonempty, owned, returned]
  rfl

/-- `Add` without a pool only returns if there is nothing to look up. -/
theorem addLoop_of_nil {seenIDs : List Stream.ID}
    (returned : Members.addLoop registry none config seenIDs ids =
      some after) : after = config := by
  induction ids with
  | nil => exact (Option.some.inj returned).symm
  | cons id ids inductionHypothesis =>
      rw [Members.addLoop] at returned
      split at returned
      · exact inductionHypothesis returned
      · cases returned

theorem nodup_add (distinct : config.nodeIDs.Nodup)
    (added : config.add registry ids = some after) : after.nodeIDs.Nodup := by
  cases owned : config.mgr with
  | some pool =>
      obtain ⟨result, returned, adds⟩ := adds_add registry owned ids
      rw [returned] at added
      rw [← Option.some.inj added]
      exact adds.distinct distinct
  | none =>
      unfold Members.add at added
      split at added
      · rw [← Option.some.inj added]
        exact List.nodup_nil
      · rw [owned] at added
        obtain ⟨result, returned, equal⟩ := Option.map_eq_some_iff.mp added
        rw [addLoop_of_nil returned] at equal
        rw [← equal]
        exact ((perm_sortByID config).map Member.id).nodup_iff.mpr distinct

end Add

/-! ## Union -/

section Union

variable {registry : Registry} {pool : Nat} {config other after : Members}

theorem nodeIDs_ofPool (pool : Nat) (config : Config) :
    (Members.ofPool pool config).nodeIDs = config.map Node.id := by
  simp [Members.ofPool, Members.nodeIDs, Member.id]

theorem nodeIDs_inbound (config : Config) :
    (Members.inbound config).nodeIDs = config.map Node.id := by
  simp [Members.inbound, Members.nodeIDs, Member.id]

theorem nodup_remove (ids : List Stream.ID) (distinct : config.nodeIDs.Nodup) :
    (config.remove ids).nodeIDs.Nodup :=
  List.Nodup.sublist (List.filter_sublist.map _) distinct

/-- Every configuration that is obtained holds each ID once. -/
theorem Obtained.nodup (obtained : Obtained config) :
    config.nodeIDs.Nodup := by
  induction obtained with
  | returned pool reached member succeeded extended inductionHypothesis =>
      rw [nodeIDs_ofPool]
      apply (registered_reached reached).returns _ member _ succeeded
      intro config isExtended
      have distinct := inductionHypothesis config isExtended
      rw [nodeIDs_ofPool] at distinct
      exact distinct
  | connectedPeers pool ran configured obtained inductionHypothesis =>
      rw [nodeIDs_ofPool]
      apply distinct_connectedPeers ran
      intro config isConfigured
      rw [nodeIDs_ofPool] at inductionHypothesis
      rw [isConfigured] at configured
      rw [Option.some.inj configured]
      exact inductionHypothesis
  | inboundPeers ran unconfigured =>
      rw [nodeIDs_inbound]
      apply distinct_connectedPeers ran
      intro config configured
      rw [unconfigured] at configured
      cases configured
  | connectedClients ran =>
      rw [nodeIDs_inbound]
      exact distinct_connectedClients ran
  | add registry ids obtained added inductionHypothesis =>
      exact nodup_add inductionHypothesis added
  | remove ids obtained inductionHypothesis =>
      exact nodup_remove ids inductionHypothesis
  | difference other obtained inductionHypothesis =>
      unfold Members.difference
      split
      · exact inductionHypothesis
      · exact nodup_remove _ inductionHypothesis
  | sort obtained permuted inductionHypothesis =>
      exact (permuted.map Member.id).nodup_iff.mpr inductionHypothesis

/-- The union of two configurations: their IDs, each once, and the node of the
one that has the ID. -/
structure IsUnion (config other after : Members) : Prop where
  /-- The IDs are those of the two. -/
  ids : ∀ id, id ∈ after.nodeIDs ↔ id ∈ config.nodeIDs ∨ id ∈ other.nodeIDs
  /-- Each ID occurs once. -/
  distinct : after.nodeIDs.Nodup
  /-- An ID of the first only is that of its node. -/
  first : ∀ member ∈ config, member.id ∉ other.nodeIDs → member ∈ after
  /-- An ID of the second only is that of its node. -/
  second : ∀ member ∈ other, member.id ∉ config.nodeIDs → member ∈ after

/-- A union does not panic, and it is the union of both. -/
def Unites (registry : Registry) (config other : Members) : Prop :=
  ∃ after, config.union registry other = some after ∧ IsUnion config other after

/-- Every node of the second configuration whose ID the first one lacks is what the
manager of the first one has under the ID; or the first one is empty. -/
def Mergeable (registry : Registry) (config other : Members) : Prop :=
  config = [] ∨ ∀ member ∈ other, member.id ∉ config.nodeIDs →
    member.mgr = config.mgr ∧
      (config.mgr.bind fun pool => registry.find pool member.id) = some member.node

instance : Decidable (Mergeable registry config other) :=
  inferInstanceAs (Decidable (_ ∨ _))

/-- `Add` of IDs finds exactly the nodes that the pool has under them. -/
theorem Adds.isUnion_iff (adds : Adds registry pool config other.nodeIDs after)
    (owned : config.mgr = some pool) (distinct : config.nodeIDs.Nodup) :
    IsUnion config other after ↔ ∀ member ∈ other, member.id ∉ config.nodeIDs →
      member.mgr = config.mgr ∧
        (config.mgr.bind fun pool => registry.find pool member.id) =
          some member.node := by
  rw [owned]
  constructor
  · intro isUnion member inside unseen
    rcases adds.found member (isUnion.second member inside unseen) with
      old | ⟨_, _, sameMgr, sameNode⟩
    · exact absurd (mem_nodeIDs.mpr ⟨member, old, rfl⟩) unseen
    · exact ⟨sameMgr, sameNode⟩
  · intro found
    have added : ∀ member ∈ other, member.id ∉ config.nodeIDs → member ∈ after := by
      intro member inside unseen
      obtain ⟨sameMgr, sameNode⟩ := found member inside unseen
      rw [Option.bind_some] at sameNode
      rcases adds.complete member.id (mem_nodeIDs.mpr ⟨member, inside, rfl⟩) with
        present | absent
      · obtain ⟨new, isIn, equal⟩ := mem_nodeIDs.mp present
        rcases adds.found new isIn with old | ⟨_, _, newMgr, newNode⟩
        · exact absurd (mem_nodeIDs.mpr ⟨new, old, equal⟩) unseen
        · -- both are the node that the pool has under the ID
          rw [equal, sameNode] at newNode
          have same : new = member := by
            cases new
            cases member
            simp_all
          rw [← same]
          exact isIn
      · rw [sameNode] at absent
        cases absent
    refine ⟨?_, adds.distinct distinct, fun member inside _ => adds.kept inside, added⟩
    intro id
    constructor
    · intro listed
      obtain ⟨member, inside, equal⟩ := mem_nodeIDs.mp listed
      rcases adds.found member inside with old | new
      · exact .inl (mem_nodeIDs.mpr ⟨member, old, equal⟩)
      · exact .inr (equal ▸ new.1)
    · intro listed
      by_cases old : id ∈ config.nodeIDs
      · obtain ⟨member, inside, equal⟩ := mem_nodeIDs.mp old
        exact mem_nodeIDs.mpr ⟨member, adds.kept inside, equal⟩
      · obtain ⟨member, inside, equal⟩ :=
          mem_nodeIDs.mp (listed.resolve_left old)
        exact mem_nodeIDs.mpr ⟨member, added member inside (equal ▸ old), equal⟩

theorem isUnion_nil_left (distinct : other.nodeIDs.Nodup) :
    IsUnion [] other other := by
  refine ⟨?_, distinct, List.forall_mem_nil _, fun member inside _ => inside⟩
  simp [Members.nodeIDs]

/-- A configuration that has all IDs of another one is their union. -/
theorem isUnion_of_subset (distinct : config.nodeIDs.Nodup)
    (seen : ∀ member ∈ other, member.id ∈ config.nodeIDs)
    (same : after.Perm config) : IsUnion config other after := by
  have ids : after.nodeIDs.Perm config.nodeIDs := same.map Member.id
  refine ⟨?_, ids.nodup_iff.mpr distinct,
    fun member inside _ => same.mem_iff.mpr inside,
    fun member inside unseen => absurd (seen member inside) unseen⟩
  intro id
  rw [ids.mem_iff, iff_self_or]
  intro listed
  obtain ⟨member, inside, equal⟩ := mem_nodeIDs.mp listed
  exact equal ▸ seen member inside

/-- The loop of `Add` looks nothing up if every ID has been seen. -/
theorem addLoop_of_seen {mgr : Option Nat} {seenIDs ids : List Stream.ID}
    (seen : ∀ id ∈ ids, id ∈ seenIDs) :
    Members.addLoop registry mgr config seenIDs ids = some config := by
  induction ids with
  | nil => rfl
  | cons id ids inductionHypothesis =>
      obtain ⟨first, rest⟩ := List.forall_mem_cons.mp seen
      unfold Members.addLoop
      rw [if_pos first, inductionHypothesis rest]

/-- `Add` of the IDs of another configuration makes their union if and only if every
node that is missing is found. -/
theorem add_isUnion_iff (distinct : config.nodeIDs.Nodup) (nonempty : config ≠ []) :
    (∃ after, config.add registry other.nodeIDs = some after ∧
      IsUnion config other after) ↔ Mergeable registry config other := by
  unfold Mergeable
  rw [or_iff_right nonempty]
  cases owned : config.mgr with
  | some pool =>
      obtain ⟨after, returned, adds⟩ := adds_add registry owned other.nodeIDs
      simp only [returned, Option.some.injEq, exists_eq_left']
      rw [adds.isUnion_iff owned distinct, owned]
  | none =>
      rw [Members.add, if_neg nonempty, owned]
      constructor
      · rintro ⟨after, returned, isUnion⟩ member inside unseen
        obtain ⟨result, looped, rfl⟩ := Option.map_eq_some_iff.mp returned
        rw [addLoop_of_nil looped] at isUnion
        have isIn := (perm_sortByID config).mem_iff.mp
          (isUnion.second member inside unseen)
        exact absurd (mem_nodeIDs.mpr ⟨member, isIn, rfl⟩) unseen
      · intro found
        have seen : ∀ member ∈ other, member.id ∈ config.nodeIDs := by
          intro member inside
          by_contra unseen
          cases (found member inside unseen).2
        refine ⟨config.sortByID, ?_,
          isUnion_of_subset distinct seen (perm_sortByID config)⟩
        rw [addLoop_of_seen, Option.map_some]
        intro id listed
        obtain ⟨member, inside, equal⟩ := mem_nodeIDs.mp listed
        exact equal ▸ seen member inside

/-- `Union` is the union if and only if the configurations can be merged. -/
theorem unites_iff (distinct : config.nodeIDs.Nodup)
    (distinctOther : other.nodeIDs.Nodup) :
    Unites registry config other ↔ Mergeable registry config other := by
  unfold Unites Members.union
  by_cases empty : config = []
  · rw [if_pos empty, empty]
    exact iff_of_true ⟨other, rfl, isUnion_nil_left distinctOther⟩ (.inl rfl)
  · rw [if_neg empty]
    by_cases emptyOther : other = []
    · rw [if_pos emptyOther, emptyOther]
      exact iff_of_true ⟨config, rfl, isUnion_of_subset distinct
        (List.forall_mem_nil _) (.refl config)⟩ (.inr (List.forall_mem_nil _))
    · rw [if_neg emptyOther, add_isUnion_iff distinct empty]

/-- A union of configurations that programs obtain does not panic and is the union of
both if and only if every node that the first one lacks is what its manager has under
the ID; and if so in both orders, the two unions have the same IDs. -/
theorem union_iff_mergeable (obtained : Obtained config)
    (obtainedOther : Obtained other) :
    (Unites registry config other ↔ Mergeable registry config other) ∧
      (Mergeable registry config other → Mergeable registry other config →
        ∃ after reversed, config.union registry other = some after ∧
          other.union registry config = some reversed ∧
          ∀ id, id ∈ after.nodeIDs ↔ id ∈ reversed.nodeIDs) := by
  have one : Unites registry config other ↔ _ :=
    unites_iff obtained.nodup obtainedOther.nodup
  have two : Unites registry other config ↔ _ :=
    unites_iff obtainedOther.nodup obtained.nodup
  refine ⟨one, ?_⟩
  intro merges mergesToo
  obtain ⟨after, returned, isUnion⟩ := one.mpr merges
  obtain ⟨reversed, returnedToo, isUnionToo⟩ := two.mpr mergesToo
  refine ⟨after, reversed, returned, returnedToo, ?_⟩
  intro id
  rw [isUnion.ids, isUnionToo.ids, or_comm]

/-! ## Runs -/

/-- A `NewConfig` call alone, and the steps that it takes to return. -/
def newConfigRun (source : NodeSource) (steps : Nat) :
    Option (State Manager Op) :=
  (machine ⟨.plain, {}⟩).follow (fun _ _ => true) (start {} [.newConfig source])
    (List.replicate steps (.run 0 .go))

theorem reaches_newConfigRun {source : NodeSource} {steps : Nat}
    (ran : (newConfigRun source steps).isSome = true) :
    Reaches ⟨.plain, {}⟩ (fun _ _ => True) {} [.newConfig source]
      ((newConfigRun source steps).get ran) :=
  Machine.reach_of_isSome (fun _ _ _ => trivial) ran

/-- Whether a call has returned a configuration of new nodes. -/
def Return.newConfig (returned : Return) (config : Config) : Bool :=
  returned.call.config.isNone &&
    match returned.result with
    | .ok result => result == config
    | .error _ => false

/-- The configuration of a `NewConfig` call that succeeded. -/
theorem obtained_newConfigRun {source : NodeSource} {steps : Nat}
    (ran : (newConfigRun source steps).isSome = true) (pool : Nat)
    {config : Config}
    (returns : ((newConfigRun source steps).get ran).shared.returns.any
      (fun returned => returned.newConfig config) = true) :
    Obtained (.ofPool pool config) := by
  obtain ⟨returned, member, isNew⟩ := List.any_eq_true.mp returns
  obtain ⟨unextended, result⟩ := Bool.and_eq_true_iff.mp isNew
  have succeeded : returned.result = .ok config := by
    split at result
    · rename_i equal
      rw [equal, eq_of_beq result]
    · cases result
  refine .returned pool (reaches_newConfigRun ran) member succeeded ?_
  intro extended isExtended
  rw [isExtended] at unextended
  cases unextended

/-- Two nodes. -/
def twoNodes : NodeSource := .nodeList ["a:1", "b:1"]

/-- A node with another ID. -/
def otherNode : NodeSource :=
  .nodeMap ⟨[(3, ⟨"c:1", none⟩)], by decide⟩

theorem twoNodes_ran : (newConfigRun twoNodes 16).isSome = true := by
  decide +kernel

theorem otherNode_ran : (newConfigRun otherNode 10).isSome = true := by
  decide +kernel

/-- The pool of the two nodes and the pool of the other one. -/
def twoPools : Registry where
  find
    | 0 => ((newConfigRun twoNodes 16).get twoNodes_ran).shared.lookup
    | 1 => ((newConfigRun otherNode 10).get otherNode_ran).shared.lookup
    | _ => fun _ => none
  ids pool id node found := by
    match pool with
    | 0 =>
        exact (registered_reached (reaches_newConfigRun twoNodes_ran)).lookup
          id node found
    | 1 =>
        exact (registered_reached (reaches_newConfigRun otherNode_ran)).lookup
          id node found
    | _ + 2 => cases found

/-- The nodes of the first pool. -/
def firstPool : Members :=
  .ofPool 0 [⟨0, 1, "a:1", .outbound⟩, ⟨1, 2, "b:1", .outbound⟩]

/-- The node of the second pool. -/
def secondPool : Members := .ofPool 1 [⟨0, 3, "c:1", .outbound⟩]

theorem obtained_firstPool : Obtained firstPool :=
  obtained_newConfigRun twoNodes_ran 0 (by decide +kernel)

theorem obtained_secondPool : Obtained secondPool :=
  obtained_newConfigRun otherNode_ran 1 (by decide +kernel)

/-- Two parts of one configuration have a union in both orders. -/
theorem union_iff_mergeable_parts :
    Unites twoPools (firstPool.remove [2]) (firstPool.remove [1]) ∧
      Unites twoPools (firstPool.remove [1]) (firstPool.remove [2]) :=
  ⟨(union_iff_mergeable (obtained_firstPool.remove [2])
      (obtained_firstPool.remove [1])).1.mpr (by decide +kernel),
    (union_iff_mergeable (obtained_firstPool.remove [1])
      (obtained_firstPool.remove [2])).1.mpr (by decide +kernel)⟩

/-- The union of a server's clients and another configuration panics, and the
unions of configurations of two pools lack the IDs of the second one. -/
theorem union_across_pools :
    Obtained (.inbound overlapped.connectedClients) ∧ Obtained firstPool ∧
      Obtained secondPool ∧
      (Members.inbound overlapped.connectedClients).union twoPools firstPool =
        none ∧
      firstPool.union twoPools secondPool = some firstPool ∧
      secondPool.union twoPools firstPool = some secondPool :=
  ⟨.connectedClients (Option.some_get overlapping_run).symm, obtained_firstPool,
    obtained_secondPool, by decide +kernel, by decide +kernel,
    by decide +kernel⟩

end Union

end Conn
end Gorums
