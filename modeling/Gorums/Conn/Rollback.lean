import Gorums.Conn.Extend

/-!
# Extensions that fail

`Extend` registers the nodes of its source one by one and does not take them
back if a later entry fails.  The pool is the same after a failed call if and
only if no entry before the first one that cannot be added has an unused ID.
-/

namespace Gorums
namespace Conn

open Pool

/-- No node of the pool has the ID of the entry. -/
def Unused (pool : Manager) (entry : Entry) : Prop :=
  ∀ node ∈ pool.nodes, node.id ≠ entry.id

/-- An entry can be added to a pool after other entries of the same source. -/
structure Addable (context : Context) (pool : Manager) (verify : Bool)
    (front : List Entry) (entry : Entry) : Prop where
  /-- The ID is not reserved. -/
  nonzero : entry.id ≠ 0
  /-- The address resolves. -/
  resolves : context.net.resolveAddr entry.addr =
    .ok (context.net.comparableAddr entry.addr)
  /-- The node of the pool that a builder finds by the ID has the address. -/
  same : ∀ node,
    (newNodeBuilder context.net pool.nodes verify).idToNode entry.id = some node →
    context.net.comparableAddr node.addr = context.net.comparableAddr entry.addr
  /-- An ID that no node has is new. -/
  newID : Unused pool entry →
    pool.lookup entry.id = none ∧ ∀ earlier ∈ front, earlier.id ≠ entry.id
  /-- The address of a new node is new. -/
  newAddr : Unused pool entry →
    (∀ node ∈ pool.nodes, context.net.comparableAddr node.addr ≠
      context.net.comparableAddr entry.addr) ∧
    ∀ earlier ∈ front, context.net.comparableAddr earlier.addr ≠
      context.net.comparableAddr entry.addr
  /-- There are credentials if the new node checks its server. -/
  credentials : Unused pool entry →
    context.opts.verifies entry.id verify = true →
    context.opts.credentials = true
  /-- The new node can be created. -/
  kind : Unused pool entry →
    ∃ kind, context.opts.kind context.net entry.id entry.addr = .ok kind

/-- The entries of a source on a pool. -/
def NodeSource.entriesOn (net : Network) (pool : Manager) (verify : Bool)
    (source : NodeSource) : List Entry :=
  source.entries (newNodeBuilder net pool.nodes verify)

/-- Every entry can be added after those in front of it. -/
def AllAddable (context : Context) (pool : Manager) (verify : Bool)
    (entries : List Entry) : Prop :=
  ∀ front entry rest, entries = front ++ entry :: rest →
    Addable context pool verify front entry

/-- A call that extends a configuration gets to the entries of its source, and one of
those before the first one that cannot be added has an unused ID. -/
def AddsBeforeFailure (context : Context) (pool : Manager)
    (config : Option Config) (source : NodeSource) : Prop :=
  config ≠ some [] ∧ pool.verifies = source.hasIdentity ∧
    ∃ verify front entry rest, source.verifier context.net = .ok verify ∧
      source.entriesOn context.net pool verify = front ++ entry :: rest ∧
      AllAddable context pool verify front ∧
      ¬ Addable context pool verify front entry ∧
      ∃ earlier ∈ front, Unused pool earlier

/-- The pool is as it was. -/
def Unchanged (pool state : Manager) : Prop :=
  state.nodes = pool.nodes ∧ state.lookup = pool.lookup

/-- What holds of a builder and the pool after some entries have been added. -/
structure Progress (context : Context) (pool : Manager) (verify : Bool)
    (done : List Entry) (builder : NodeBuilder) (state : Manager) : Prop where
  /-- Whether the nodes check their servers. -/
  verifies : builder.verify = verify
  /-- The builder finds the nodes of the pool by their IDs. -/
  idToNode : builder.idToNode =
    (newNodeBuilder context.net pool.nodes verify).idToNode
  /-- The entries could be added. -/
  addable : AllAddable context pool verify done
  /-- The lookup table has the IDs of the pool and of the new nodes. -/
  lookup : ∀ id, state.lookup id ≠ none ↔ pool.lookup id ≠ none ∨
    ∃ entry ∈ done, Unused pool entry ∧ entry.id = id
  /-- An entry with an unused ID adds a node. -/
  nodes : ∃ new, state.nodes = pool.nodes ++ new ∧
    (new = [] → ∀ entry ∈ done, ¬ Unused pool entry)
  /-- Only entries with unused IDs change the pool. -/
  unchanged : (∀ entry ∈ done, ¬ Unused pool entry) → Unchanged pool state

/-- The builder knows the addresses of the pool and of some entries. -/
def KnowsAddrs (net : Network) (pool : Manager) (done : List Entry)
    (builder : NodeBuilder) : Prop :=
  ∀ addr, builder.addrToID addr ≠ none ↔
    (∃ node ∈ pool.nodes, net.comparableAddr node.addr = addr) ∨
      ∃ entry ∈ done, net.comparableAddr entry.addr = addr

/-- A call to `Extend` of a configuration that is not empty. -/
def Call.Extends (call : Call) (source : NodeSource) : Prop :=
  (∃ config, call.config = some config ∧ config ≠ []) ∧
    call.source = some source

/-- A call that adds the entries of its source, after some of them. -/
structure Adding (context : Context) (pool : Manager) (source : NodeSource)
    (call : Call) (builder : NodeBuilder) (state : Manager) (verify : Bool)
    (done rest : List Entry) : Prop where
  /-- The call. -/
  extending : call.Extends source
  /-- The pool and the source agree on identities. -/
  agrees : pool.verifies = source.hasIdentity
  /-- Whether the nodes check their servers. -/
  verifier : source.verifier context.net = .ok verify
  /-- The entries of the source. -/
  split : source.entriesOn context.net pool verify = done ++ rest
  /-- What has been done. -/
  progress : Progress context pool verify done builder state

/-- What is known of an entry for which a node is about to be created. -/
structure Fresh (context : Context) (pool : Manager) (done : List Entry)
    (entry : Entry) : Prop where
  /-- The ID is not reserved. -/
  nonzero : entry.id ≠ 0
  /-- The address resolves. -/
  resolves : context.net.resolveAddr entry.addr =
    .ok (context.net.comparableAddr entry.addr)
  /-- No node has the ID. -/
  unused : Unused pool entry
  /-- The address is new in the pool. -/
  newInPool : ∀ node ∈ pool.nodes, context.net.comparableAddr node.addr ≠
    context.net.comparableAddr entry.addr
  /-- The address is new in the source. -/
  newInSource : ∀ earlier ∈ done, context.net.comparableAddr earlier.addr ≠
    context.net.comparableAddr entry.addr

/-- What holds while an operation of a sole call is still to be executed. -/
def Restores (context : Context) (pool : Manager) (source : NodeSource)
    (state : Manager) : Op → Prop
  | .extend extended => extended = some source ∧ state = pool
  | .checkClosed call => call.Extends source ∧ state = pool
  | .checkIdentity call extended =>
      call.Extends source ∧ extended = source ∧ state = pool
  | .refuseIdentity call => call.Extends source ∧
      pool.verifies ≠ source.hasIdentity ∧ state = pool
  | .build call extended => call.Extends source ∧ extended = source ∧
      pool.verifies = source.hasIdentity ∧ state = pool
  | .add call builder entries => ∃ verify done,
      Adding context pool source call builder state verify done entries ∧
        KnowsAddrs context.net pool done builder
  | .findNode call builder entry rest => ∃ verify done,
      Adding context pool source call builder state verify done (entry :: rest) ∧
        KnowsAddrs context.net pool (done ++ [entry]) builder ∧
        Fresh context pool done entry
  | .prepare call builder entry rest => ∃ verify done,
      Adding context pool source call builder state verify done (entry :: rest) ∧
        KnowsAddrs context.net pool (done ++ [entry]) builder ∧
        Fresh context pool done entry ∧ state.lookup entry.id = none
  | .construct call builder entry rest => ∃ verify done,
      Adding context pool source call builder state verify done (entry :: rest) ∧
        KnowsAddrs context.net pool (done ++ [entry]) builder ∧
        Fresh context pool done entry ∧ state.lookup entry.id = none ∧
        (context.opts.verifies entry.id verify = true →
          context.opts.credentials = true)
  | .addNode call builder node rest => ∃ verify done entry,
      Adding context pool source call builder state verify done (entry :: rest) ∧
        KnowsAddrs context.net pool (done ++ [entry]) builder ∧
        node.id = entry.id ∧ Unused pool entry ∧
        Addable context pool verify done entry
  | .newNodeReturn call builder _ _ err rest => err = none ∧ ∃ verify done,
      Adding context pool source call builder state verify done rest ∧
        KnowsAddrs context.net pool done builder
  | .union _ _ _ => True
  | .ret call result => ∀ err, result = .error err →
      (Unchanged pool state ↔
        ¬ AddsBeforeFailure context pool call.config source)
  | _ => False

section Steps

variable {context : Context} {pool state : Manager} {source : NodeSource}
  {verify : Bool} {done : List Entry} {builder : NodeBuilder} {entry : Entry}
  {rest : List Entry} {op : Op} {choice : Choice}
  {outcome : Outcome Manager Op}

/-- There is one first entry that cannot be added. -/
theorem front_unique {front after : List Entry} {failing : Entry}
    (split : done ++ entry :: rest = front ++ failing :: after)
    (addable : AllAddable context pool verify done)
    (fails : ¬ Addable context pool verify done entry)
    (addableToo : AllAddable context pool verify front)
    (failsToo : ¬ Addable context pool verify front failing) : done = front := by
  rcases List.append_eq_append_iff.mp split with
    ⟨middle, equal, here⟩ | ⟨middle, equal, here⟩
  · cases middle with
    | nil => rw [equal, List.append_nil]
    | cons first middle =>
        obtain ⟨rfl, _⟩ := List.cons.inj here
        exact absurd (addableToo done entry middle equal) fails
  · cases middle with
    | nil => rw [equal, List.append_nil]
    | cons first middle =>
        obtain ⟨rfl, _⟩ := List.cons.inj here
        exact absurd (addable front failing middle equal) failsToo

theorem AllAddable.concat (addable : AllAddable context pool verify done)
    (last : Addable context pool verify done entry) :
    AllAddable context pool verify (done ++ [entry]) := by
  intro front other rest split
  rcases List.append_eq_append_iff.mp split with
    ⟨middle, equal, here⟩ | ⟨middle, equal, here⟩
  · cases middle with
    | nil =>
        obtain ⟨rfl, _⟩ := List.cons.inj here
        rw [equal, List.append_nil]
        exact last
    | cons first middle => simp at here
  · cases middle with
    | nil =>
        obtain ⟨rfl, _⟩ := List.cons.inj here
        rw [equal, List.append_nil] at last
        exact last
    | cons first middle =>
        obtain ⟨rfl, _⟩ := List.cons.inj here
        exact addable front other middle equal

/-- An operation keeps the progress if it leaves alone what the builder knows and
what the pool has. -/
theorem Progress.frame {after : NodeBuilder} {shared : Manager}
    (progress : Progress context pool verify done builder state)
    (verifies : after.verify = builder.verify)
    (idToNode : after.idToNode = builder.idToNode)
    (same : Unchanged state shared) :
    Progress context pool verify done after shared := by
  obtain ⟨nodes, lookup⟩ := same
  refine ⟨verifies.trans progress.verifies, idToNode.trans progress.idToNode,
    progress.addable, lookup ▸ progress.lookup, nodes ▸ progress.nodes, ?_⟩
  intro used
  obtain ⟨sameNodes, sameLookup⟩ := progress.unchanged used
  exact ⟨nodes.trans sameNodes, lookup.trans sameLookup⟩

/-- The pool is unchanged if and only if no entry had an unused ID. -/
theorem Progress.unchanged_iff
    (progress : Progress context pool verify done builder state) :
    Unchanged pool state ↔ ∀ entry ∈ done, ¬ Unused pool entry := by
  refine ⟨?_, progress.unchanged⟩
  intro same
  obtain ⟨new, nodes, none⟩ := progress.nodes
  rw [same.1] at nodes
  exact none (List.self_eq_append_right.mp nodes)

/-- A call that fails at an entry which cannot be added. -/
theorem Adding.failed {call : Call}
    (adding : Adding context pool source call builder state verify done
      (entry :: rest))
    (fails : ¬ Addable context pool verify done entry) :
    Unchanged pool state ↔
      ¬ AddsBeforeFailure context pool call.config source := by
  rw [adding.progress.unchanged_iff]
  constructor
  · rintro used ⟨_, _, again, front, failing, after, verifier, split, addable,
      failsToo, earlier, member, unused⟩
    obtain rfl : verify = again :=
      Except.ok.inj (adding.verifier.symm.trans verifier)
    rw [front_unique (adding.split.symm.trans split) adding.progress.addable fails
      addable failsToo] at used
    exact used earlier member unused
  · intro never earlier member unused
    obtain ⟨config, equal, nonempty⟩ := adding.extending.1
    refine never ⟨?_, adding.agrees, verify, done, entry, rest, adding.verifier,
      adding.split, adding.progress.addable, fails, earlier, member, unused⟩
    rw [equal]
    exact fun empty => nonempty (Option.some.inj empty)

/-- The ID of an entry is unused if the builder does not find it. -/
theorem Progress.unused_iff
    (progress : Progress context pool verify done builder state) :
    Unused pool entry ↔ builder.idToNode entry.id = none := by
  have knows := knows_newNodeBuilder context.net pool.nodes verify
  rw [progress.idToNode]
  constructor
  · intro unused
    cases found :
        (newNodeBuilder context.net pool.nodes verify).idToNode entry.id with
    | none => rfl
    | some node =>
        obtain ⟨member, same⟩ := knows.found _ node found
        exact absurd same (unused node member)
  · intro unknown node member same
    exact knows.ids node member (same ▸ unknown)

/-- An entry that can be added is not refused. -/
theorem Addable.not_refused (addable : Addable context pool verify done entry)
    (progress : Progress context pool verify done builder state)
    (knows : KnowsAddrs context.net pool done builder) (err : Stream.Err) :
    builder.add context.net entry ≠ .refused err := by
  have resolves := addable.resolves
  unfold NodeBuilder.add
  simp only [addable.nonzero, if_false, resolves]
  cases found : builder.idToNode entry.id with
  | some node =>
      have same := addable.same node (progress.idToNode ▸ found)
      simp [same]
  | none =>
      obtain ⟨newInPool, newInSource⟩ :=
        addable.newAddr (progress.unused_iff.mpr found)
      cases taken :
          builder.addrToID (context.net.comparableAddr entry.addr) with
      | none => simp
      | some id =>
          have known : builder.addrToID
              (context.net.comparableAddr entry.addr) ≠ none := by simp [taken]
          rcases (knows _).mp known with
            ⟨node, member, same⟩ | ⟨other, member, same⟩
          · exact absurd same (newInPool node member)
          · exact absurd same (newInSource other member)

/-- The ID of a new entry is free if and only if neither the pool nor an earlier entry
has it. -/
theorem Progress.lookup_eq_none_iff
    (progress : Progress context pool verify done builder state)
    (unused : Unused pool entry) : state.lookup entry.id = none ↔
      pool.lookup entry.id = none ∧ ∀ earlier ∈ done, earlier.id ≠ entry.id := by
  rw [← not_iff_not, ← ne_eq, progress.lookup entry.id, not_and_or]
  apply or_congr Iff.rfl
  push Not
  constructor
  · rintro ⟨earlier, member, _, same⟩
    exact ⟨earlier, member, same⟩
  · rintro ⟨earlier, member, same⟩
    exact ⟨earlier, member, fun node inside => same ▸ unused node inside, same⟩

/-- A reused entry leaves the pool alone. -/
theorem Progress.reused
    (progress : Progress context pool verify done builder state)
    (knows : KnowsAddrs context.net pool done builder) {after : NodeBuilder}
    (added : builder.add context.net entry = .reused after) :
    Progress context pool verify (done ++ [entry]) after state ∧
      KnowsAddrs context.net pool (done ++ [entry]) after := by
  have nonzero := NodeBuilder.nonzero_of_add added nofun
  obtain ⟨node, found, resolves, equal⟩ := NodeBuilder.add_eq_reused added
  have sameAddr := comparableAddr_of_resolveAddr resolves
  have used : ¬ Unused pool entry := by
    rw [progress.unused_iff, found]
    simp
  have addable : Addable context pool verify done entry := by
    refine ⟨nonzero, sameAddr ▸ resolves, ?_, fun unused => absurd unused used,
      fun unused => absurd unused used, fun unused => absurd unused used,
      fun unused => absurd unused used⟩
    intro other known
    rw [← progress.idToNode, found] at known
    rw [← Option.some.inj known, sameAddr]
  rw [progress.idToNode] at found
  obtain ⟨member, _⟩ :=
    (knows_newNodeBuilder context.net pool.nodes verify).found _ _ found
  subst equal
  refine ⟨⟨progress.verifies, progress.idToNode, progress.addable.concat addable,
    ?_, ?_, ?_⟩, ?_⟩
  · intro id
    rw [progress.lookup id]
    apply or_congr Iff.rfl
    simp [or_and_right, exists_or, used]
  · obtain ⟨new, nodes, none⟩ := progress.nodes
    refine ⟨new, nodes, ?_⟩
    intro empty
    simpa [or_imp, forall_and, used] using none empty
  · intro all
    exact progress.unchanged fun other inside =>
      all other (List.mem_append_left _ inside)
  · intro addr
    refine (knows addr).trans ?_
    simp only [List.mem_append, List.mem_singleton, or_and_right, exists_or,
      exists_eq_left, ← or_assoc]
    refine ⟨.inl, fun known => known.elim id fun same => .inl ⟨node, member, ?_⟩⟩
    rw [← sameAddr, same]

/-- An entry for which a node is created is new. -/
theorem Progress.create
    (progress : Progress context pool verify done builder state)
    (knows : KnowsAddrs context.net pool done builder) {after : NodeBuilder}
    (added : builder.add context.net entry = .create after) :
    Fresh context pool done entry ∧
      Progress context pool verify done after state ∧
      KnowsAddrs context.net pool (done ++ [entry]) after := by
  have nonzero := NodeBuilder.nonzero_of_add added nofun
  obtain ⟨resolves, unknown, newAddr, equal⟩ := NodeBuilder.add_eq_create added
  have absent := mt (knows _).mpr (not_not.mpr newAddr)
  subst equal
  refine ⟨⟨nonzero, resolves, progress.unused_iff.mpr unknown, ?_, ?_⟩,
    progress.frame rfl rfl ⟨rfl, rfl⟩, ?_⟩
  · exact fun node member same => absent (.inl ⟨node, member, same⟩)
  · exact fun other member same => absent (.inr ⟨other, member, same⟩)
  · intro addr
    by_cases same : addr = context.net.comparableAddr entry.addr
    · subst same
      simp
    · rw [show (∃ other ∈ done ++ [entry],
          context.net.comparableAddr other.addr = addr) ↔
            ∃ other ∈ done, context.net.comparableAddr other.addr = addr by
        simp [or_and_right, exists_or, Ne.symm same]]
      simpa [Function.update_of_ne same] using knows addr

/-- What is known of a new entry makes it one that can be added. -/
theorem Fresh.addable (fresh : Fresh context pool done entry)
    (progress : Progress context pool verify done builder state)
    (free : state.lookup entry.id = none)
    (credentials : context.opts.verifies entry.id verify = true →
      context.opts.credentials = true) {kind : Kind}
    (made : context.opts.kind context.net entry.id entry.addr = .ok kind) :
    Addable context pool verify done entry := by
  refine ⟨fresh.nonzero, fresh.resolves, ?_,
    fun unused => (progress.lookup_eq_none_iff unused).mp free,
    fun _ => ⟨fresh.newInPool, fresh.newInSource⟩, fun _ => credentials,
    fun _ => ⟨kind, made⟩⟩
  intro node known
  rw [← progress.idToNode, progress.unused_iff.mp fresh.unused] at known
  cases known

/-- A registration is the work of an entry with an unused ID. -/
theorem Progress.register
    (progress : Progress context pool verify done builder state)
    (unused : Unused pool entry)
    (addable : Addable context pool verify done entry)
    {node : Node} (hasID : node.id = entry.id) {shared : Manager}
    (nodes : shared.nodes = state.nodes ++ [node])
    (lookup :
      shared.lookup = Function.update state.lookup node.id (some node)) :
    Progress context pool verify (done ++ [entry]) builder shared := by
  refine ⟨progress.verifies, progress.idToNode, progress.addable.concat addable,
    ?_, ?_, ?_⟩
  · intro id
    rw [lookup, hasID]
    by_cases same : id = entry.id
    · subst same
      simp [or_and_right, exists_or, unused]
    · simpa [Function.update_of_ne same, or_and_right, exists_or, Ne.symm same]
        using progress.lookup id
  · obtain ⟨new, before, _⟩ := progress.nodes
    refine ⟨new ++ [node], by rw [nodes, before, List.append_assoc], ?_⟩
    intro empty
    simp at empty
  · intro used
    exact absurd unused (used entry (by simp))

theorem progress_newNodeBuilder (context : Context) (pool : Manager)
    (verify : Bool) :
    Progress context pool verify []
        (newNodeBuilder context.net pool.nodes verify) pool ∧
      KnowsAddrs context.net pool []
        (newNodeBuilder context.net pool.nodes verify) := by
  have knows := knows_newNodeBuilder context.net pool.nodes verify
  have fields := fields_newNodeBuilder context.net pool.nodes verify
  refine ⟨⟨fields.2.2, rfl, by simp [AllAddable], by simp, ⟨[], by simp, by simp⟩,
    fun _ => ⟨rfl, rfl⟩⟩, ?_⟩
  intro addr
  refine ⟨fun known => .inl (exists_of_addrToID known), ?_⟩
  rintro (⟨node, member, rfl⟩ | ⟨_, member, _⟩)
  · exact knows.addrs node member
  · cases member

/-- A call that extends a configuration returns its error. -/
theorem Call.Extends.fail {call : Call} (extending : call.Extends source)
    (err : Stream.Err) : call.fail err = [.ret call (.error err)] := by
  obtain ⟨⟨config, equal, _⟩, _⟩ := extending
  rw [Call.fail, equal]

/-- What an operation leaves of a thread of one operation. -/
def Remains (context : Context) (pool : Manager) (source : NodeSource)
    (outcome : Outcome Manager Op) : Prop :=
  ∃ op, outcome.next = [op] ∧ Restores context pool source outcome.shared op

theorem remains_fail {call : Call} {shared : Manager} (err : Stream.Err)
    (extending : call.Extends source)
    (exact_ : Unchanged pool shared ↔
      ¬ AddsBeforeFailure context pool call.config source) :
    Remains context pool source ⟨shared, call.fail err, []⟩ := by
  refine ⟨.ret call (.error err), extending.fail err, ?_⟩
  intro _ _
  exact exact_

/-- A call that does not get to the entries of its source. -/
theorem unchanged_of_not_adds {config : Option Config}
    (never : ¬ AddsBeforeFailure context pool config source) :
    Unchanged pool pool ↔ ¬ AddsBeforeFailure context pool config source :=
  iff_of_true ⟨rfl, rfl⟩ never

theorem Adding.transport {call : Call} {after : NodeBuilder} {shared : Manager}
    {more : List Entry}
    (adding : Adding context pool source call builder state verify done rest)
    {done' : List Entry} (split : done ++ rest = done' ++ more)
    (progress : Progress context pool verify done' after shared) :
    Adding context pool source call after shared verify done' more :=
  ⟨adding.extending, adding.agrees, adding.verifier, adding.split.trans split,
    progress⟩

theorem Adding.frame {call : Call} {after : NodeBuilder} {shared : Manager}
    (adding : Adding context pool source call builder state verify done rest)
    (verifies : after.verify = builder.verify)
    (idToNode : after.idToNode = builder.idToNode)
    (same : Unchanged state shared) :
    Adding context pool source call after shared verify done rest :=
  adding.transport rfl (adding.progress.frame verifies idToNode same)

/-- Every operation of a sole call keeps what holds. -/
theorem restores_exec
    (executed : exec context state op choice = some outcome)
    (holds : Restores context pool source state op)
    (isOpen : state.closed = false) :
    Remains context pool source outcome ∨
      ∃ call result, op = .ret call result := by
  cases exec_step executed with
  | returned call result => exact .inr ⟨call, result, rfl⟩
  | emptyConfig extended err =>
      obtain ⟨rfl, rfl⟩ := holds
      refine .inl ⟨_, rfl, fun _ _ => unchanged_of_not_adds ?_⟩
      exact fun adds => adds.1 rfl
  | extending extended config inPool nonempty =>
      exact .inl ⟨_, rfl, ⟨⟨config, rfl, nonempty⟩, holds.1⟩, holds.2⟩
  | alreadyClosed call closed =>
      rw [isOpen] at closed
      cases closed
  | sourceless call unsourced =>
      rw [holds.1.2] at unsourced
      cases unsourced
  | sourced call extended given =>
      refine .inl ⟨_, rfl, holds.1, ?_, holds.2⟩
      exact Option.some.inj (given.symm.trans holds.1.2)
  | otherIdentity call extended differs =>
      obtain ⟨extending, rfl, rfl⟩ := holds
      exact .inl ⟨_, rfl, extending, differs, rfl⟩
  | sameIdentity call extended agrees =>
      obtain ⟨extending, rfl, rfl⟩ := holds
      exact .inl ⟨_, rfl, extending, rfl, agrees, rfl⟩
  | identityRefused call err =>
      obtain ⟨extending, differs, rfl⟩ := holds
      exact .inl (remains_fail err extending
        (unchanged_of_not_adds fun adds => differs adds.2.1))
  | unverified call extended err fails =>
      obtain ⟨extending, rfl, _, rfl⟩ := holds
      refine .inl (remains_fail err extending (unchanged_of_not_adds ?_))
      rintro ⟨_, _, verify, _, _, _, verifier, _⟩
      rw [fails] at verifier
      cases verifier
  | built call extended verify verifier =>
      obtain ⟨extending, rfl, agrees, rfl⟩ := holds
      obtain ⟨progress, knows⟩ := progress_newNodeBuilder context state verify
      exact .inl ⟨_, rfl, verify, [], ⟨extending, agrees, verifier, rfl, progress⟩,
        knows⟩
  | combined call builder =>
      obtain ⟨verify, done, adding, _⟩ := holds
      obtain ⟨config, equal, _⟩ := adding.extending.1
      refine .inl ⟨_, rfl, ?_⟩
      rw [Call.combine, equal]
      trivial
  | refused call builder entry rest err added =>
      obtain ⟨verify, done, adding, knows⟩ := holds
      refine .inl (remains_fail err adding.extending (adding.failed ?_))
      exact fun addable =>
        addable.not_refused adding.progress knows err added
  | reused call builder after entry rest added =>
      obtain ⟨verify, done, adding, knows⟩ := holds
      obtain ⟨progress, stillKnows⟩ := adding.progress.reused knows added
      exact .inl ⟨_, rfl, verify, done ++ [entry],
        adding.transport (by simp) progress, stillKnows⟩
  | create call builder after entry rest added =>
      obtain ⟨verify, done, adding, knows⟩ := holds
      obtain ⟨fresh, progress, stillKnows⟩ := adding.progress.create knows added
      exact .inl ⟨_, rfl, verify, done, adding.transport rfl progress, stillKnows,
        fresh⟩
  | taken call builder entry rest err node known =>
      obtain ⟨verify, done, adding, _, fresh⟩ := holds
      refine .inl (remains_fail err adding.extending (adding.failed ?_))
      intro addable
      rw [(adding.progress.lookup_eq_none_iff fresh.unused).mpr
        (addable.newID fresh.unused)] at known
      cases known
  | free call builder entry rest unknown =>
      obtain ⟨verify, done, adding, knows, fresh⟩ := holds
      exact .inl ⟨_, rfl, verify, done, adding, knows, fresh, unknown⟩
  | verifying call builder entry rest credentials =>
      obtain ⟨verify, done, adding, knows, fresh, free⟩ := holds
      exact .inl ⟨_, rfl, verify, done, adding.frame rfl rfl ⟨rfl, rfl⟩, knows, fresh,
        free, fun _ => credentials⟩
  | withoutCredentials call builder entry rest err checks missing =>
      obtain ⟨verify, done, adding, _, fresh, _⟩ := holds
      refine .inl (remains_fail err adding.extending (adding.failed ?_))
      intro addable
      rw [adding.progress.verifies] at checks
      exact missing (addable.credentials fresh.unused checks)
  | unchecked call builder entry rest trusts =>
      obtain ⟨verify, done, adding, knows, fresh, free⟩ := holds
      rw [adding.progress.verifies] at trusts
      exact .inl ⟨_, rfl, verify, done, adding, knows, fresh, free,
        fun checks => absurd checks trusts⟩
  | unconstructed call builder entry rest err fails =>
      obtain ⟨verify, done, adding, _, fresh, _⟩ := holds
      refine .inl (remains_fail err adding.extending (adding.failed ?_))
      intro addable
      obtain ⟨kind, made⟩ := addable.kind fresh.unused
      rw [made] at fails
      cases fails
  | constructed call builder entry rest kind made =>
      obtain ⟨verify, done, adding, knows, fresh, free, credentials⟩ := holds
      exact .inl ⟨_, rfl, verify, done, entry, adding.frame rfl rfl ⟨rfl, rfl⟩, knows,
        rfl, fresh.unused, fresh.addable adding.progress free credentials made⟩
  | rejecting call builder node rest closed =>
      rw [isOpen] at closed
      cases closed
  | registered call builder node rest =>
      obtain ⟨verify, done, entry, adding, knows, hasID, unused, addable⟩ := holds
      exact .inl ⟨_, rfl, rfl, verify, done ++ [entry],
        adding.transport (by simp)
          (adding.progress.register unused addable hasID rfl rfl), knows⟩
  | newNodeFailed => cases holds.1
  | newNodeReturned call builder node late rest =>
      obtain ⟨_, verify, done, adding, knows⟩ := holds
      exact .inl ⟨_, rfl, verify, done, adding.frame rfl rfl ⟨rfl, rfl⟩, knows⟩
  | united call config =>
      refine .inl ⟨_, rfl, ?_⟩
      intro err failed
      cases failed
  | present | absent | found => exact .inl ⟨_, rfl, trivial⟩
  | _ => exact holds.elim

/-- A sole call has one operation before it, or it has returned; if it returned an
error, the pool is unchanged just when no node was added before the failure. -/
def Sole (context : Context) (pool : Manager) (source : NodeSource)
    (state : Manager) (ops : List Op) : Prop :=
  state.closed = false ∧
    ((∃ op, ops = [op] ∧ Restores context pool source state op ∧
        state.returns = []) ∨
      ops = [] ∧ ∀ returned ∈ state.returns, ∀ err,
        returned.result = .error err → (Unchanged pool state ↔
          ¬ AddsBeforeFailure context pool returned.call.config source))

theorem sole_exec {ops : List Op}
    (executed : exec context state op choice = some outcome)
    (sole : Sole context pool source state (op :: ops)) :
    Sole context pool source outcome.shared (outcome.next ++ ops) := by
  obtain ⟨isOpen, ⟨sameOp, equal, holds, unreturned⟩ | ⟨none, _⟩⟩ := sole
  · obtain ⟨rfl, rfl⟩ := List.cons.inj equal
    rw [List.append_nil]
    have stillOpen : outcome.shared.closed = false := by
      rcases closed_exec executed with same | locks
      · rw [same]
        exact isOpen
      · rw [locks] at holds
        exact holds.elim
    refine ⟨stillOpen, ?_⟩
    by_cases returns : ∃ call result, op = .ret call result
    · obtain ⟨call, result, rfl⟩ := returns
      cases exec_step executed
      refine .inr ⟨rfl, ?_⟩
      intro recorded member err failed
      rw [unreturned] at member
      rw [List.mem_singleton.mp member] at failed ⊢
      exact holds err failed
    · obtain ⟨next, follows, restores⟩ :=
        (restores_exec executed holds isOpen).resolve_right returns
      rcases returns_exec executed with same | ⟨call, result, returning, _⟩
      · exact .inl ⟨next, follows, restores, same.trans unreturned⟩
      · exact absurd ⟨call, result, returning⟩ returns
  · cases none

end Steps

/-! ## A sole call -/

section Runs

variable {context : Context} {pool : Manager} {source : NodeSource}
  {state : State Manager Op}

/-- A call to `Extend` that fails leaves the pool as it was if and only if no entry of
its source before the first one that cannot be added has an unused ID, or the call does
not get to the entries. -/
theorem failed_extend_unchanged_iff (isOpen : pool.closed = false)
    (fresh : pool.returns = [])
    (reached : Reaches context (fun _ _ => True) pool [.extend (some source)]
      state)
    {returned : Return} (member : returned ∈ state.shared.returns)
    {err : Stream.Err} (failed : returned.result = .error err) :
    (state.shared.nodes = pool.nodes ∧ state.shared.lookup = pool.lookup) ↔
      ¬ AddsBeforeFailure context pool returned.call.config source := by
  obtain ⟨ops, _, _, ⟨_, _, _, unreturned⟩ | ⟨_, restored⟩⟩ :=
    reached.sequential (Sole context pool source) rfl
      ⟨isOpen, .inl ⟨.extend (some source), rfl, ⟨rfl, rfl⟩, fresh⟩⟩
      (fun runs _ sole =>
        ⟨sole_exec runs.exec_eq sole, spawned_exec runs.exec_eq⟩)
      (fun _ event => nomatch event)
  · rw [unreturned] at member
    cases member
  · exact restored returned member err failed

/-- A network in which one address does not resolve. -/
def badNetwork : Network where
  resolveAddr addr :=
    if addr = "bad" then .error (.named "missing port in address") else .ok addr
  newClient _ := none
  parseIdentity name := .ok ⟨name, false⟩

/-- A sole call with a source, and the steps that it takes to return. -/
def soleRun (pool : Manager) (source : NodeSource) (steps : Nat) :
    Option (State Manager Op) :=
  (machine ⟨badNetwork, {}⟩).follow (fun _ _ => true)
    (start pool [.extend (some source)])
    (.run 0 (.config single.nodes) :: List.replicate steps (.run 0 .go))

/-- Two nodes whose addresses do not resolve. -/
def bothBad : NodeSource := .nodeList ["bad", "bad"]

theorem soleRun_bothBad : (soleRun single bothBad 5).isSome = true := by
  decide +kernel

theorem not_addsBeforeFailure_bothBad (config : Option Config) :
    ¬ AddsBeforeFailure ⟨badNetwork, {}⟩ single config bothBad := by
  rintro ⟨_, _, verify, front, entry, rest, _, split, addable, _, _, member, _⟩
  have shape : front ++ entry :: rest = [⟨2, "bad"⟩, ⟨3, "bad"⟩] := split.symm
  cases front with
  | nil => cases member
  | cons first front =>
      obtain ⟨rfl, _⟩ := List.cons.inj shape
      cases (addable [] _ front rfl).resolves

/-- The call fails at the first entry of the source. -/
theorem failed_extend_unchanged_iff_bothBad :
    ((soleRun single bothBad 5).get soleRun_bothBad).shared.nodes =
      single.nodes :=
  have reached : Reaches ⟨badNetwork, {}⟩ (fun _ _ => True) single
      [.extend (some bothBad)] ((soleRun single bothBad 5).get soleRun_bothBad) :=
    Machine.reach_of_isSome (fun _ _ _ => trivial) soleRun_bothBad
  have returns : ((soleRun single bothBad 5).get soleRun_bothBad).shared.returns =
      [⟨⟨some single.nodes, some bothBad⟩, .error (.wrap
        "gorums: invalid address \"bad\"" (.named "missing port in address"))⟩] :=
    rfl
  ((failed_extend_unchanged_iff rfl rfl reached
    (by rw [returns]; exact List.mem_singleton_self _) rfl).mpr
      (not_addsBeforeFailure_bothBad _)).1

/-- A new node and one whose address does not resolve. -/
def newThenBad : NodeSource := .nodeList ["b:1", "bad"]

/-- The source with the address corrected. -/
def corrected : NodeSource := .nodeList ["b:1", "c:1"]

theorem soleRun_newThenBad : (soleRun single newThenBad 11).isSome = true := by
  decide +kernel

/-- The pool after the failed call. -/
def leftBehind : Manager :=
  ((soleRun single newThenBad 11).get soleRun_newThenBad).shared

/-- The error texts of the calls that have returned. -/
def Manager.failures (pool : Manager) : List (Option Stream.Err) :=
  pool.returns.map fun returned =>
    match returned.result with
    | .error err => some err
    | .ok _ => none

/-- A call fails at its second entry and leaves the node of the first one in
the pool; the same call with a corrected address then fails as well. -/
theorem failed_extend_adds_node :
    leftBehind.failures = [some (.wrap "gorums: invalid address \"bad\""
        (.named "missing port in address"))] ∧
      leftBehind.nodes.map Node.addr = ["a:1", "b:1"] ∧
      leftBehind.lookup 2 ≠ single.lookup 2 ∧
      (soleRun { leftBehind with returns := [] } corrected 5).map
        (fun state => state.shared.failures) =
        some [some (.named
          "gorums: address \"b:1\" already in use by node 2")] := by
  decide +kernel

end Runs

end Conn
end Gorums
