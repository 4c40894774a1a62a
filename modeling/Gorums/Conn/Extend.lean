import Gorums.Conn.Release

/-!
# Concurrent extensions of one pool

`Extend` reads the nodes of the pool once and then registers its new nodes one
by one.  Between the two, other calls may register nodes: two calls can pick the
same ID or add the same address.  As long as no call registers a node whose ID
or resolved address another call has taken since it read the pool, the pool
stays consistent and every call gets the nodes that it asked for.
-/

namespace Gorums
namespace Conn

open Pool

/-- IDs and resolved addresses identify the nodes of the pool. -/
structure Consistent (net : Network) (pool : Manager) : Prop where
  /-- The IDs are distinct. -/
  ids : (pool.nodes.map Node.id).Nodup
  /-- The resolved addresses are distinct. -/
  addrs : (pool.nodes.map fun node => net.comparableAddr node.addr).Nodup
  /-- The lookup table maps the ID of each node to the node. -/
  lookup : ∀ node ∈ pool.nodes, pool.lookup node.id = some node
  /-- The lookup table holds nodes of the pool. -/
  found : ∀ id node, pool.lookup id = some node →
    node ∈ pool.nodes ∧ node.id = id

/-- A configuration has a node for each address of the source of a call. -/
def Answers (net : Network) (call : Call) (config : Config) : Prop :=
  ∀ source, call.source = some source → ∀ addr ∈ source.addrs,
    ∃ node ∈ config, net.resolveAddr addr = .ok (net.comparableAddr node.addr)

/-- The call extends a configuration of the pool. -/
def Grounded (state : Manager) (call : Call) : Prop :=
  ∀ config, call.config = some config → config ⊆ state.nodes

/-- What holds of a builder that has some addresses left to add. -/
structure Building (net : Network) (state : Manager) (call : Call)
    (builder : NodeBuilder) (pending : List String) : Prop where
  /-- The call extends a configuration of the pool. -/
  grounded : Grounded state call
  /-- Every address of the source is pending or has a node. -/
  answers : ∀ source, call.source = some source → ∀ addr ∈ source.addrs,
    addr ∈ pending ∨ ∃ node ∈ builder.nodes,
      net.resolveAddr addr = .ok (net.comparableAddr node.addr)
  /-- The builder knows the nodes that it has read. -/
  knows : builder.Knows net builder.existing
  /-- These nodes are in the pool. -/
  existing : builder.existing ⊆ state.nodes
  /-- The nodes of the configuration are in the pool. -/
  nodes : builder.nodes ⊆ state.nodes
  /-- The builder knows the addresses of these nodes. -/
  addrs : ∀ node ∈ builder.nodes,
    builder.addrToID (net.comparableAddr node.addr) ≠ none

/-- What holds while a node for an address is created. -/
structure Creating (net : Network) (state : Manager) (call : Call)
    (builder : NodeBuilder) (id : Stream.ID) (addr : String)
    (rest : List Entry) : Prop
    extends Building net state call builder (addr :: rest.map Entry.addr) where
  /-- The address resolves. -/
  resolves : net.resolveAddr addr = .ok (net.comparableAddr addr)
  /-- The builder knows the new address. -/
  known : builder.addrToID (net.comparableAddr addr) ≠ none
  /-- No node that the builder has seen has the address. -/
  newAddr : ∀ node, node ∈ builder.existing ∨ node ∈ builder.nodes →
    net.comparableAddr node.addr ≠ net.comparableAddr addr
  /-- No node that the builder has read has the ID. -/
  newID : ∀ node ∈ builder.existing, node.id ≠ id

/-- What holds while an operation is still to be executed. -/
def Extends (net : Network) (state : Manager) : Op → Prop
  | .checkClosed call | .refuseIdentity call => Grounded state call
  | .checkIdentity call source | .build call source =>
      Grounded state call ∧ call.source = some source
  | .add call builder entries =>
      Building net state call builder (entries.map Entry.addr)
  | .findNode call builder entry rest =>
      Creating net state call builder entry.id entry.addr rest
  | .prepare call builder entry rest | .construct call builder entry rest =>
      Creating net state call builder entry.id entry.addr rest ∧
        ∀ node ∈ builder.nodes, node.id ≠ entry.id
  | .addNode call builder node rest =>
      Creating net state call builder node.id node.addr rest ∧
        ∀ other ∈ builder.nodes, other.id ≠ node.id
  | .newNodeReturn call builder node _ err rest =>
      err = none → Creating net state call builder node.id node.addr rest ∧
        node ∈ state.nodes
  | .union call config ids =>
      config ⊆ state.nodes ∧
        ∀ source, call.source = some source → ∀ addr ∈ source.addrs,
          ∃ node ∈ state.nodes,
            net.resolveAddr addr = .ok (net.comparableAddr node.addr) ∧
              (node ∈ config ∨ node.id ∈ ids)
  | .ret call result => ∀ config, result = .ok config → Answers net call config
  | _ => True

section Stability

variable {net : Network} {state shared : Manager} {call : Call}
  {builder : NodeBuilder}

theorem Grounded.grows (grows : Grows state shared)
    (grounded : Grounded state call) : Grounded shared call :=
  fun config equal => List.Subset.trans (grounded config equal) grows.nodes

theorem Building.grows {pending : List String} (grows : Grows state shared)
    (building : Building net state call builder pending) :
    Building net shared call builder pending where
  grounded := building.grounded.grows grows
  answers := building.answers
  knows := building.knows
  existing := List.Subset.trans building.existing grows.nodes
  nodes := List.Subset.trans building.nodes grows.nodes
  addrs := building.addrs

theorem Creating.grows {id : Stream.ID} {addr : String} {rest : List Entry}
    (grows : Grows state shared)
    (creating : Creating net state call builder id addr rest) :
    Creating net shared call builder id addr rest where
  toBuilding := creating.toBuilding.grows grows
  resolves := creating.resolves
  known := creating.known
  newAddr := creating.newAddr
  newID := creating.newID

theorem Extends.grows {op : Op} (grows : Grows state shared)
    (holds : Extends net state op) : Extends net shared op := by
  cases op with
  | checkClosed call => exact Grounded.grows grows holds
  | refuseIdentity call => exact Grounded.grows grows holds
  | checkIdentity call source => exact ⟨holds.1.grows grows, holds.2⟩
  | build call source => exact ⟨holds.1.grows grows, holds.2⟩
  | add call builder entries => exact Building.grows grows holds
  | findNode call builder entry rest => exact Creating.grows grows holds
  | prepare call builder entry rest => exact ⟨holds.1.grows grows, holds.2⟩
  | construct call builder entry rest => exact ⟨holds.1.grows grows, holds.2⟩
  | addNode call builder node rest => exact ⟨holds.1.grows grows, holds.2⟩
  | newNodeReturn call builder node late err rest =>
      intro succeeded
      obtain ⟨creating, member⟩ := holds succeeded
      exact ⟨creating.grows grows, grows.nodes member⟩
  | union call config ids =>
      refine ⟨List.Subset.trans holds.1 grows.nodes, ?_⟩
      intro source equal addr named
      obtain ⟨node, member, answers⟩ := holds.2 source equal addr named
      exact ⟨node, grows.nodes member, answers⟩
  | ret call result => exact holds
  | _ => trivial

end Stability

section Steps

variable {context : Context} {state : Manager} {op : Op} {choice : Choice}
  {outcome : Outcome Manager Op}

theorem extends_fail (net : Network) (call : Call) (err : Stream.Err) :
    ∀ op ∈ call.fail err, Extends net state op := by
  unfold Call.fail
  split <;> simp [Extends]

/-- A builder starts with all addresses of its source pending. -/
theorem building_newNodeBuilder {net : Network} {call : Call}
    {source : NodeSource} (verify : Bool) (grounded : Grounded state call)
    (sourced : call.source = some source) :
    Building net state call (newNodeBuilder net state.nodes verify)
      ((source.entries (newNodeBuilder net state.nodes verify)).map
        Entry.addr) := by
  obtain ⟨existing, nodes, _⟩ := fields_newNodeBuilder net state.nodes verify
  constructor
  · exact grounded
  · intro other equal addr named
    rw [sourced] at equal
    rw [addrs_entries, Option.some.inj equal]
    exact .inl named
  · rw [existing]
    exact knows_newNodeBuilder net state.nodes verify
  · rw [existing]
    exact List.Subset.refl _
  · rw [nodes]
    exact List.nil_subset _
  · rw [nodes]
    intro node member
    cases member

/-- A reused node answers for the address of its entry. -/
theorem Building.reused {net : Network} {call : Call}
    {builder after : NodeBuilder} {entry : Entry} {rest : List Entry}
    (building : Building net state call builder
      ((entry :: rest).map Entry.addr))
    (added : builder.add net entry = .reused after) :
    Building net state call after (rest.map Entry.addr) := by
  obtain ⟨node, found, resolves, equal⟩ := NodeBuilder.add_eq_reused added
  obtain ⟨read, _⟩ := building.knows.found _ node found
  subst equal
  refine ⟨building.grounded, ?_, building.knows.append node,
    building.existing, ?_, ?_⟩
  · intro source sourced addr named
    rcases building.answers source sourced addr named with pending | answered
    · rcases List.mem_cons.mp pending with equal | later
      · exact .inr ⟨node, by simp [NodeBuilder.append], equal ▸ resolves⟩
      · exact .inl later
    · obtain ⟨other, member, answers⟩ := answered
      exact .inr ⟨other, by simp [NodeBuilder.append, member], answers⟩
  · intro other member
    rcases List.mem_append.mp member with earlier | last
    · exact building.nodes earlier
    · rw [List.mem_singleton.mp last]
      exact building.existing read
  · intro other member
    rcases List.mem_append.mp member with earlier | last
    · exact building.addrs other earlier
    · rw [List.mem_singleton.mp last]
      exact building.knows.addrs node read

/-- A builder that asks for a node has seen neither its ID nor its address. -/
theorem Building.create {net : Network} {call : Call}
    {builder after : NodeBuilder} {entry : Entry} {rest : List Entry}
    (building : Building net state call builder
      ((entry :: rest).map Entry.addr))
    (added : builder.add net entry = .create after) :
    Creating net state call after entry.id entry.addr rest := by
  obtain ⟨resolves, unknownID, unknownAddr, equal⟩ :=
    NodeBuilder.add_eq_create added
  subst equal
  have still : ∀ addr, builder.addrToID addr ≠ none →
      Function.update builder.addrToID (net.comparableAddr entry.addr)
        (some entry.id) addr ≠ none := by
    intro addr known
    by_cases same : addr = net.comparableAddr entry.addr
    · simp [same]
    · simpa [same] using known
  refine ⟨⟨building.grounded, building.answers, ?_, building.existing,
    building.nodes, ?_⟩, resolves, by simp, ?_, ?_⟩
  · exact ⟨fun node read => still _ (building.knows.addrs node read),
      building.knows.ids, building.knows.found⟩
  · intro node member
    exact still _ (building.addrs node member)
  · rintro node (read | added) same
    · exact building.knows.addrs node read (same ▸ unknownAddr)
    · exact building.addrs node added (same ▸ unknownAddr)
  · intro node read same
    exact building.knows.ids node read (same ▸ unknownID)

/-- A node that has been registered answers for its address. -/
theorem Creating.append {net : Network} {call : Call} {builder : NodeBuilder}
    {node : Node} {rest : List Entry}
    (creating : Creating net state call builder node.id node.addr rest)
    (registered : node ∈ state.nodes) :
    Building net state call (builder.append node) (rest.map Entry.addr) := by
  refine ⟨creating.grounded, ?_, creating.knows.append node,
    creating.existing, ?_, ?_⟩
  · intro source sourced addr named
    rcases creating.answers source sourced addr named with pending | answered
    · rcases List.mem_cons.mp pending with equal | later
      · exact .inr ⟨node, by simp [NodeBuilder.append],
          equal ▸ creating.resolves⟩
      · exact .inl later
    · obtain ⟨other, member, answers⟩ := answered
      exact .inr ⟨other, by simp [NodeBuilder.append, member], answers⟩
  · intro other member
    rcases List.mem_append.mp member with earlier | last
    · exact creating.nodes earlier
    · rw [List.mem_singleton.mp last]
      exact registered
  · intro other member
    rcases List.mem_append.mp member with earlier | last
    · exact creating.addrs other earlier
    · rw [List.mem_singleton.mp last]
      exact creating.known

/-- The nodes of a finished builder answer for all addresses. -/
theorem Building.combine {net : Network} {call : Call} {builder : NodeBuilder}
    (building : Building net state call builder []) :
    Extends net state (call.combine builder.configuration) := by
  have answers : ∀ source, call.source = some source →
      ∀ addr ∈ source.addrs, ∃ node ∈ builder.nodes,
        net.resolveAddr addr = .ok (net.comparableAddr node.addr) := by
    intro source sourced addr named
    exact (building.answers source sourced addr named).resolve_left (by simp)
  unfold Call.combine
  split
  · rename_i config extended
    refine ⟨building.grounded config extended, ?_⟩
    intro source sourced addr named
    obtain ⟨node, member, resolves⟩ := answers source sourced addr named
    refine ⟨node, building.nodes member, resolves, .inr ?_⟩
    exact List.mem_map_of_mem (mem_sortByID.mpr member)
  · intro config equal source sourced addr named
    obtain ⟨node, member, resolves⟩ := answers source sourced addr named
    cases equal
    exact ⟨node, mem_sortByID.mpr member, resolves⟩

/-- What an operation leaves to be executed meets its conditions. -/
theorem extends_exec (executed : exec context state op choice = some outcome)
    (consistent : Consistent context.net state)
    (holds : Extends context.net state op) :
    ∀ op ∈ outcome.next, Extends context.net outcome.shared op := by
  have grows := grows_exec executed
  cases exec_step executed with
  | alreadyClosed | identityRefused | unverified | refused | taken
  | withoutCredentials | unconstructed | newNodeFailed =>
      exact extends_fail _ _ _
  | extending source config inPool =>
      simp only [List.mem_singleton, forall_eq]
      intro other equal
      cases equal
      exact inPool
  | creating source => simp [Extends, Grounded]
  | sourceless call unsourced => simp [Extends, Answers, unsourced]
  | sourced call source given => simpa [Extends, given] using holds
  | otherIdentity call source => simpa [Extends] using holds.1
  | built call source verify verifier =>
      simp only [List.mem_singleton, forall_eq]
      exact building_newNodeBuilder verify holds.1 holds.2
  | combined call builder =>
      simp only [List.mem_singleton, forall_eq]
      exact Building.combine holds
  | reused call builder after entry rest added =>
      simp only [List.mem_singleton, forall_eq]
      exact Building.reused holds added
  | create call builder after entry rest added =>
      simp only [List.mem_singleton, forall_eq]
      exact Building.create holds added
  | free call builder entry rest unknown =>
      simp only [List.mem_singleton, forall_eq]
      refine ⟨holds, fun node member same => ?_⟩
      have known :=
        consistent.lookup node (Building.nodes holds.toBuilding member)
      rw [same, unknown] at known
      cases known
  | verifying call builder entry rest =>
      simp only [List.mem_singleton, forall_eq]
      exact Extends.grows grows holds
  | constructed call builder entry rest kind =>
      simp only [List.mem_singleton, forall_eq]
      exact ⟨holds.1.grows grows, holds.2⟩
  | registered call builder node rest =>
      simp only [List.mem_singleton, forall_eq]
      intro _
      exact ⟨holds.1.grows grows, by simp⟩
  | newNodeReturned call builder node late rest =>
      simp only [List.mem_singleton, forall_eq]
      obtain ⟨creating, registered⟩ := holds rfl
      exact (creating.append registered).grows grows
  | united call config =>
      simp only [List.mem_singleton, forall_eq]
      intro sorted equal source sourced addr named
      cases equal
      obtain ⟨node, _, resolves, inConfig | pending⟩ :=
        holds.2 source sourced addr named
      · exact ⟨node, mem_sortByID.mpr inConfig, resolves⟩
      · cases pending
  | present call config id ids has =>
      simp only [List.mem_singleton, forall_eq]
      refine ⟨holds.1, fun source sourced addr named => ?_⟩
      obtain ⟨node, member, resolves, place⟩ :=
        holds.2 source sourced addr named
      refine ⟨node, member, resolves, ?_⟩
      rcases place with inConfig | pending
      · exact .inl inConfig
      · rcases List.mem_cons.mp pending with equal | later
        · -- The configuration has a node with this ID, and it is this node.
          obtain ⟨other, inConfig, same⟩ := List.any_eq_true.mp has
          have first := consistent.lookup other (holds.1 inConfig)
          rw [beq_iff_eq.mp same, ← equal, consistent.lookup node member] at first
          exact .inl (Option.some.inj first ▸ inConfig)
        · exact .inr later
  | absent call config id ids unknown =>
      simp only [List.mem_singleton, forall_eq]
      refine ⟨holds.1, fun source sourced addr named => ?_⟩
      obtain ⟨node, member, resolves, place⟩ :=
        holds.2 source sourced addr named
      refine ⟨node, member, resolves, place.imp_right fun pending => ?_⟩
      rcases List.mem_cons.mp pending with equal | later
      · rw [← equal, consistent.lookup node member] at unknown
        cases unknown
      · exact later
  | found call config id ids node lacks known =>
      simp only [List.mem_singleton, forall_eq]
      obtain ⟨inPool, _⟩ := consistent.found id node known
      refine ⟨?_, fun source sourced addr named => ?_⟩
      · intro other member
        rcases List.mem_append.mp member with earlier | last
        · exact holds.1 earlier
        · rw [List.mem_singleton.mp last]
          exact inPool
      · obtain ⟨other, member, resolves, place⟩ :=
          holds.2 source sourced addr named
        refine ⟨other, member, resolves, ?_⟩
        rcases place with inConfig | pending
        · exact .inl (List.mem_append_left _ inConfig)
        · rcases List.mem_cons.mp pending with equal | later
          · rw [← equal, consistent.lookup other member] at known
            rw [Option.some.inj known]
            exact .inl (by simp)
          · exact .inr later
  | sameIdentity | unchecked =>
      simp only [List.mem_singleton, forall_eq]
      exact holds
  | _ => simp [Extends]

/-- A node with a new ID and a new address keeps the pool consistent. -/
theorem Consistent.register {net : Network} {node : Node}
    {shared : Manager} (consistent : Consistent net state)
    (newID : ∀ other ∈ state.nodes, other.id ≠ node.id)
    (newAddr : ∀ other ∈ state.nodes,
      net.comparableAddr other.addr ≠ net.comparableAddr node.addr)
    (nodes : shared.nodes = state.nodes ++ [node])
    (lookup :
      shared.lookup = Function.update state.lookup node.id (some node)) :
    Consistent net shared := by
  constructor
  · rw [nodes, List.map_append, List.map_singleton, List.nodup_append]
    refine ⟨consistent.ids, by simp, ?_⟩
    intro id member last equal same
    obtain ⟨other, inPool, hasID⟩ := List.mem_map.mp member
    exact newID other inPool
      (hasID.trans (same.trans (List.mem_singleton.mp equal)))
  · rw [nodes, List.map_append, List.map_singleton, List.nodup_append]
    refine ⟨consistent.addrs, by simp, ?_⟩
    intro addr member last equal same
    obtain ⟨other, inPool, hasAddr⟩ := List.mem_map.mp member
    exact newAddr other inPool
      (hasAddr.trans (same.trans (List.mem_singleton.mp equal)))
  · intro other member
    rw [nodes] at member
    rw [lookup]
    rcases List.mem_append.mp member with earlier | last
    · rw [Function.update_of_ne (newID other earlier)]
      exact consistent.lookup other earlier
    · rw [List.mem_singleton.mp last, Function.update_self]
  · intro id other found
    rw [lookup] at found
    rw [nodes]
    by_cases same : id = node.id
    · rw [same, Function.update_self] at found
      cases found
      exact ⟨by simp, same.symm⟩
    · rw [Function.update_of_ne same] at found
      obtain ⟨member, equal⟩ := consistent.found id other found
      exact ⟨by simp [member], equal⟩

end Steps

/-! ## Runs without interference -/

/-- A registration does not interfere with other calls: the nodes that other
calls have registered since this call read the pool have other IDs and other
resolved addresses. -/
def undisturbed (net : Network) (nodes : List Node) : Op → Bool
  | .addNode _ builder node _ => nodes.all fun other =>
      decide (other ∈ builder.existing) || decide (other ∈ builder.nodes) ||
        (other.id != node.id &&
          net.comparableAddr other.addr != net.comparableAddr node.addr)
  | _ => true

/-- The operation that a step executes. -/
def Undisturbed (net : Network) (state : State Manager Op) :
    Label Choice Empty → Prop
  | .run thread _ => ∀ op, state.head? thread = some op →
      undisturbed net state.shared.nodes op = true
  | .env _ => True

section Runs

variable {context : Context} {pool : Manager}
  {sources : List (Option NodeSource)} {state : State Manager Op}

theorem consistent_exec {outcome : Outcome Manager Op} {shared : Manager}
    {op : Op} {choice : Choice}
    (executed : exec context shared op choice = some outcome)
    (consistent : Consistent context.net shared)
    (holds : Extends context.net shared op)
    (apart : undisturbed context.net shared.nodes op = true) :
    Consistent context.net outcome.shared := by
  cases nodes_exec executed with
  | same nodes lookup =>
      obtain ⟨ids, addrs, maps, found⟩ := consistent
      rw [← nodes] at ids addrs
      refine ⟨ids, addrs, ?_, ?_⟩
      · rw [nodes, lookup]
        exact maps
      · rw [nodes, lookup]
        exact found
  | registered call builder node rest running isOpen nodes lookup =>
      subst running
      obtain ⟨creating, ownIDs⟩ := holds
      have others : ∀ other ∈ shared.nodes, other ∉ builder.existing →
          other ∉ builder.nodes → other.id ≠ node.id ∧
            context.net.comparableAddr other.addr ≠
              context.net.comparableAddr node.addr := by
        intro other member unread foreign
        simpa [unread, foreign] using List.all_eq_true.mp apart other member
      refine consistent.register ?_ ?_ nodes lookup
      · intro other member
        by_cases read : other ∈ builder.existing
        · exact creating.newID other read
        · by_cases own : other ∈ builder.nodes
          · exact ownIDs other own
          · exact (others other member read own).1
      · intro other member
        by_cases read : other ∈ builder.existing
        · exact creating.newAddr other (.inl read)
        · by_cases own : other ∈ builder.nodes
          · exact creating.newAddr other (.inr own)
          · exact (others other member read own).2

/-- Only the return of a call is recorded as one. -/
theorem returns_exec {outcome : Outcome Manager Op} {shared : Manager}
    {op : Op} {choice : Choice}
    (executed : exec context shared op choice = some outcome) :
    outcome.shared.returns = shared.returns ∨
      ∃ call result, op = .ret call result ∧
        outcome.shared.returns = shared.returns ++ [⟨call, result⟩] := by
  cases exec_step executed with
  | returned call result => exact .inr ⟨call, result, rfl, rfl⟩
  | _ => exact .inl rfl

/-- Concurrent `Extend` calls that do not take an ID or an address from each
other keep the pool consistent, and each call that succeeds gets a node for
each address that its source names. -/
theorem extend_consistent (consistent : Consistent context.net pool)
    (fresh : pool.returns = [])
    (reached : Reaches context (Undisturbed context.net) pool
      (sources.map .extend) state) :
    Consistent context.net state.shared ∧
      ∀ returned ∈ state.shared.returns, ∀ config,
        returned.result = .ok config →
          Answers context.net returned.call config := by
  refine (reached.annotated
    (fun shared => Consistent context.net shared ∧
      ∀ returned ∈ shared.returns, ∀ config, returned.result = .ok config →
        Answers context.net returned.call config)
    (Extends context.net) ?_ ?_ ?_).1
  · refine ⟨⟨consistent, ?_⟩, ?_⟩
    · intro returned member
      rw [start, fresh] at member
      cases member
    · intro op member
      obtain ⟨call, called, equal⟩ := mem_start_ops.mp member
      obtain ⟨source, _, extend⟩ := List.mem_map.mp called
      rw [equal, ← extend]
      trivial
  · intro state thread choice next runs _ permitted invariant holds
    obtain ⟨consistent, answered⟩ := invariant
    have executed : exec context state.shared runs.op choice =
      some runs.outcome := runs.exec_eq
    refine ⟨⟨?_, ?_⟩, ?_, ?_⟩
    · exact consistent_exec executed consistent holds
        (permitted runs.op runs.head?)
    · intro returned member config succeeded
      rcases returns_exec executed with same | ⟨call, result, running, added⟩
      · exact answered returned (same ▸ member) config succeeded
      · rw [added, List.mem_append, List.mem_singleton] at member
        rcases member with earlier | last
        · exact answered returned earlier config succeeded
        · rw [running] at holds
          rw [last] at succeeded ⊢
          exact holds config succeeded
    · intro op member
      rw [Machine.Runs.fresh, spawned_exec executed] at member
      exact extends_exec executed consistent holds op (by simpa using member)
    · intro op _ holds
      exact holds.grows (grows_exec executed)
  · intro shared event
    cases event

/-- A pool with one node. -/
def single : Manager where
  nodes := [⟨0, 1, "a:1", .outbound⟩]
  lookup := Function.update (fun _ => none) 1 (some ⟨0, 1, "a:1", .outbound⟩)
  created := 1

theorem consistent_single : Consistent .plain single := by
  refine ⟨by decide, by decide, by decide, ?_⟩
  intro id node found
  by_cases first : id = 1
  · subst first
    cases found
    exact ⟨by decide, rfl⟩
  · simp [single, first] at found

/-- Two calls that each add one address. -/
def pairSources : List (Option NodeSource) :=
  [some (.nodeList ["b:1"]), some (.nodeList ["c:1"])]

/-- One of these calls, up to its registration. -/
def untilRegistration (thread : Nat) : List (Label Choice Empty) :=
  .run thread (.config single.nodes) :: List.replicate 7 (.run thread .go)

/-- The check of `Undisturbed` in a run that is followed. -/
def checkUndisturbed (net : Network) (state : State Manager Op) :
    Label Choice Empty → Bool
  | .run thread _ =>
      (state.head? thread).all (undisturbed net state.shared.nodes)
  | .env _ => true

theorem undisturbed_of_check {net : Network} (state : State Manager Op)
    (label : Label Choice Empty)
    (checked : checkUndisturbed net state label = true) :
    Undisturbed net state label := by
  cases label with
  | run thread choice =>
      intro op first
      simpa [checkUndisturbed, first] using checked
  | env event => cases event

/-- The calls run one after the other. -/
def orderlyRun : List (Label Choice Empty) :=
  untilRegistration 0 ++ List.replicate 6 (.run 0 .go) ++
    untilRegistration 1 ++ List.replicate 6 (.run 1 .go)

theorem orderlyRun_followed :
    ((machine ⟨.plain, {}⟩).follow (checkUndisturbed .plain)
      (start single (pairSources.map .extend)) orderlyRun).isSome = true := by
  decide +kernel

theorem extend_consistent_orderly :
    Consistent .plain (((machine ⟨.plain, {}⟩).follow (checkUndisturbed .plain)
      (start single (pairSources.map .extend)) orderlyRun).get
        orderlyRun_followed).shared :=
  have reached : Reaches ⟨.plain, {}⟩ (Undisturbed .plain) single
      (pairSources.map .extend) _ :=
    Machine.reach_of_isSome undisturbed_of_check orderlyRun_followed
  (extend_consistent consistent_single rfl reached).1

/-- Both calls read the pool before either of them registers its node. -/
def collidingRun : List (Label Choice Empty) :=
  untilRegistration 0 ++ untilRegistration 1 ++
    List.replicate 2 (.run 0 .go) ++ List.replicate 2 (.run 1 .go) ++
    List.replicate 4 (.run 0 .go) ++ List.replicate 4 (.run 1 .go)

theorem collidingRun_followed :
    ((machine ⟨.plain, {}⟩).follow (fun _ _ => true)
      (start single (pairSources.map .extend)) collidingRun).isSome =
        true := by
  decide +kernel

/-- The state after this run. -/
def collided : State Manager Op :=
  ((machine ⟨.plain, {}⟩).follow (fun _ _ => true)
    (start single (pairSources.map .extend)) collidingRun).get
      collidingRun_followed

/-- Two concurrent calls give two nodes the same ID; the lookup table only has
the second one, and the first call gets it in place of its own node. -/
theorem concurrent_extends_collide :
    Consistent .plain single ∧
      Reaches ⟨.plain, {}⟩ (fun _ _ => True) single
        (pairSources.map .extend) collided ∧
      collided.shared.nodes.map Node.id = [1, 2, 2] ∧
      (∃ node ∈ collided.shared.nodes,
        collided.shared.lookup node.id ≠ some node) ∧
      collided.shared.returns.map (fun returned =>
        (returned.call.source.map NodeSource.addrs,
          returned.result.toOption.map (List.map Node.addr))) =
        [(some ["b:1"], some ["a:1", "c:1"]),
          (some ["c:1"], some ["a:1", "c:1"])] := by
  refine ⟨consistent_single, ?_, by decide +kernel, by decide +kernel,
    by decide +kernel⟩
  exact Machine.reach_of_isSome (fun _ _ _ => trivial) collidingRun_followed

end Runs

end Conn
end Gorums
