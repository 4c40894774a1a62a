import Gorums.Conn.Rollback
import Gorums.Conn.ConnectedPeers

/-!
# The IDs of configurations

Every configuration that a pool or a server returns holds each ID once.  For a
pool this does not depend on the registry: two of its nodes may have one ID, but
no call puts both into a configuration that had neither.
-/

namespace Gorums
namespace Conn

open Pool

/-- The IDs of a configuration are distinct. -/
def DistinctIDs (config : Config) : Prop :=
  (config.map Node.id).Nodup

theorem DistinctIDs.sortByID {config : Config} (distinct : DistinctIDs config) :
    DistinctIDs (sortByID config) :=
  ((List.perm_insertionSort _ config).map Node.id).nodup_iff.mpr distinct

theorem DistinctIDs.concat {config : Config} {node : Node}
    (distinct : DistinctIDs config)
    (unused : ∀ other ∈ config, other.id ≠ node.id) :
    DistinctIDs (config ++ [node]) := by
  unfold DistinctIDs
  rw [List.map_append]
  refine List.Nodup.append distinct (List.nodup_singleton _) ?_
  intro id inside last
  obtain ⟨other, member, equal⟩ := List.mem_map.mp inside
  apply unused other member
  rw [equal]
  exact List.mem_singleton.mp last

/-! ## Sources -/

section Sources

theorem lt_add_one {id : Stream.ID} (nonzero : id + 1 ≠ 0) : id < id + 1 := by
  rw [UInt32.lt_iff_toNat_lt, UInt32.toNat_add]
  have bound := id.toNat_lt
  by_cases last : id.toNat + 1 = 2 ^ 32
  · exfalso
    apply nonzero
    apply UInt32.toNat_inj.mp
    rw [UInt32.toNat_add]
    simp [last]
  · have one : (1 : UInt32).toNat = 1 := rfl
    rw [one, Nat.mod_eq_of_lt (by omega)]
    omega

/-- IDs that count up increase until they reach zero again. -/
theorem pairwise_takeWhile {ids : List Stream.ID}
    (counts : ids.IsChain fun id next => next = id + 1) :
    (ids.takeWhile (· ≠ 0)).Pairwise (· < ·) := by
  induction ids with
  | nil => exact List.Pairwise.nil
  | cons id rest inductionHypothesis =>
      have later := inductionHypothesis counts.tail
      by_cases zero : id = 0
      · simp [zero]
      · rw [List.takeWhile_cons, if_pos (by simpa using zero)]
        refine List.Pairwise.cons ?_ later
        intro other member
        cases rest with
        | nil => cases member
        | cons next rest =>
            have equal : next = id + 1 := counts.rel
            by_cases nextZero : next = 0
            · simp [nextZero] at member
            · have less : id < next := by
                rw [equal]
                exact lt_add_one (equal ▸ nextZero)
              rw [List.takeWhile_cons, if_pos (by simpa using nextZero)]
                at member later
              rcases List.mem_cons.mp member with same | further
              · rw [same]
                exact less
              · exact UInt32.lt_trans less (List.rel_of_pairwise_cons later further)

/-- The IDs that a list of addresses takes count up. -/
theorem isChain_nodeList (next : Stream.ID) (addrs : List String) (first : Nat) :
    ((addrs.zipIdx first).map fun named =>
      next + UInt32.ofNat named.2).IsChain fun id other => other = id + 1 := by
  induction addrs generalizing first with
  | nil => exact List.IsChain.nil
  | cons addr rest inductionHypothesis =>
      rw [List.zipIdx_cons, List.map_cons]
      refine List.IsChain.cons (inductionHypothesis (first + 1)) ?_
      intro other isHead
      cases rest with
      | nil => cases isHead
      | cons addr rest =>
          simp only [List.zipIdx_cons, List.map_cons, List.head?_cons,
            Option.mem_def, Option.some.injEq] at isHead
          rw [← isHead, UInt32.add_assoc]
          congr 1
          exact UInt32.ofNat_add first 1

/-- The entries of a source have distinct IDs, up to the first one that is
reserved. -/
theorem nodup_entries (source : NodeSource) (builder : NodeBuilder) :
    (((source.entries builder).map Entry.id).takeWhile (· ≠ 0)).Nodup := by
  cases source with
  | nodeMap nodes =>
      refine List.Nodup.sublist (List.takeWhile_sublist _) ?_
      simp only [NodeSource.entries, List.map_map]
      refine nodes.sorted.imp ?_
      intro first second less
      exact UInt32.ne_of_lt less
  | nodeList addrs =>
      simp only [NodeSource.entries, List.map_map]
      refine (pairwise_takeWhile (isChain_nodeList _ addrs 0)).imp ?_
      intro first second less
      exact UInt32.ne_of_lt less

/-- A builder whose nodes and pending IDs are distinct. -/
structure Separate (builder : NodeBuilder) (pending : List Stream.ID) :
    Prop where
  /-- The IDs are distinct, up to the first one that is reserved. -/
  nodup : (builder.nodes.map Node.id ++ pending.takeWhile (· ≠ 0)).Nodup
  /-- The map of IDs holds nodes under their IDs. -/
  found : ∀ id node, builder.idToNode id = some node → node.id = id

variable {net : Network} {builder after : NodeBuilder} {entry : Entry}
  {pending : List Stream.ID}

theorem separate_newNodeBuilder (existing : List Node) (verify : Bool)
    (source : NodeSource) :
    let builder := newNodeBuilder net existing verify
    Separate builder ((source.entries builder).map Entry.id) := by
  obtain ⟨_, nodes, _⟩ := fields_newNodeBuilder net existing verify
  refine ⟨?_, ?_⟩
  · rw [nodes]
    exact nodup_entries source _
  · intro id node found
    exact ((knows_newNodeBuilder net existing verify).found id node found).2

theorem Separate.append {node : Node}
    (separate : Separate builder (node.id :: pending)) (nonzero : node.id ≠ 0) :
    Separate (builder.append node) pending := by
  refine ⟨?_, separate.found⟩
  have nodup := separate.nodup
  rw [List.takeWhile_cons, if_pos (by simpa using nonzero)] at nodup
  simpa [NodeBuilder.append] using nodup

theorem Separate.distinct (separate : Separate builder pending) :
    DistinctIDs builder.configuration :=
  DistinctIDs.sortByID (List.Nodup.sublist (List.sublist_append_left _ _)
    separate.nodup)

end Sources

/-! ## Pools -/

/-- If the call extends a configuration with distinct IDs, so is the result. -/
def Call.KeepsDistinct (call : Call) (config : Config) : Prop :=
  (∀ extended, call.config = some extended → DistinctIDs extended) →
    DistinctIDs config

/-- What holds while an operation is still to be executed. -/
def Separates : Op → Prop
  | .add _ builder entries => Separate builder (entries.map Entry.id)
  | .findNode _ builder entry rest | .prepare _ builder entry rest
  | .construct _ builder entry rest =>
      entry.id ≠ 0 ∧ Separate builder (entry.id :: rest.map Entry.id)
  | .addNode _ builder node rest | .rejectNode _ builder node _ rest
  | .newNodeReturn _ builder node _ _ rest =>
      node.id ≠ 0 ∧ Separate builder (node.id :: rest.map Entry.id)
  | .union call config _ => call.KeepsDistinct config
  | .ret call result => ∀ config, result = .ok config →
      call.KeepsDistinct config
  | _ => True

/-- The registry has nodes under their IDs, and the calls that have returned
keep IDs distinct. -/
structure Registered (pool : Manager) : Prop where
  /-- A node is found under its ID. -/
  lookup : ∀ id node, pool.lookup id = some node → node.id = id
  /-- The configurations returned. -/
  returns : ∀ returned ∈ pool.returns, ∀ config, returned.result = .ok config →
    returned.call.KeepsDistinct config

section Steps

variable {context : Context} {state : Manager} {op : Op} {choice : Choice}
  {outcome : Outcome Manager Op}

theorem separates_fail (call : Call) (err : Stream.Err) :
    ∀ op ∈ call.fail err, Separates op := by
  unfold Call.fail
  split <;> simp [Separates]

theorem Separate.combine {builder : NodeBuilder}
    (separate : Separate builder []) (call : Call) :
    ∀ op ∈ [call.combine builder.configuration], Separates op := by
  intro op member
  rw [List.mem_singleton.mp member]
  unfold Call.combine
  split
  · rename_i config extends_
    intro extended
    exact extended config extends_
  · intro config equal
    cases equal
    exact fun _ => separate.distinct

/-- The configuration that a call extends. -/
theorem keepsDistinct_config (call : Call) :
    call.KeepsDistinct (call.config.getD []) := by
  intro extended
  cases found : call.config with
  | none => exact List.nodup_nil
  | some config => exact extended config found

/-- What an operation leaves to be executed meets its conditions. -/
theorem separates_exec (registered : Registered state)
    (executed : exec context state op choice = some outcome)
    (separates : Separates op) :
    ∀ op ∈ outcome.next, Separates op := by
  cases exec_step executed with
  | alreadyClosed | identityRefused | unverified | refused | taken
  | withoutCredentials | unconstructed | newNodeFailed =>
      exact separates_fail _ _
  | sourceless call =>
      intro op member
      rw [List.mem_singleton.mp member]
      intro config equal
      cases equal
      exact keepsDistinct_config call
  | built call source verify verifier =>
      intro op member
      rw [List.mem_singleton.mp member]
      exact separate_newNodeBuilder state.nodes verify source
  | combined call builder => exact Separate.combine separates call
  | reused call builder after entry rest added =>
      intro op member
      rw [List.mem_singleton.mp member]
      obtain ⟨node, found, _, equal⟩ := NodeBuilder.add_eq_reused added
      have same : node.id = entry.id := separates.found _ _ found
      have nonzero := NodeBuilder.nonzero_of_add added nofun
      rw [equal]
      exact Separate.append (same ▸ separates) (same ▸ nonzero)
  | create call builder after entry rest added =>
      intro op member
      rw [List.mem_singleton.mp member]
      obtain ⟨_, _, _, equal⟩ := NodeBuilder.add_eq_create added
      rw [equal]
      exact ⟨NodeBuilder.nonzero_of_add added nofun, separates.nodup,
        separates.found⟩
  | newNodeReturned call builder node late rest =>
      intro op member
      rw [List.mem_singleton.mp member]
      exact separates.2.append separates.1
  | united call config =>
      intro op member
      rw [List.mem_singleton.mp member]
      intro sorted equal
      cases equal
      exact fun extended => (separates extended).sortByID
  | found call config id ids node lacks known =>
      intro op member
      rw [List.mem_singleton.mp member]
      intro extended
      refine (separates extended).concat ?_
      intro other inside same
      apply lacks
      rw [registered.lookup id node known] at same
      exact List.any_eq_true.mpr ⟨other, inside, by simpa using same⟩
  | present | absent =>
      intro op member
      rw [List.mem_singleton.mp member]
      exact separates
  | _ => simp_all [Separates]

/-- Every operation keeps the pool registered. -/
theorem registered_exec (registered : Registered state)
    (executed : exec context state op choice = some outcome)
    (separates : Separates op) : Registered outcome.shared := by
  constructor
  · intro id node found
    cases nodes_exec executed with
    | same nodes lookup =>
        rw [lookup] at found
        exact registered.lookup id node found
    | registered call builder new rest running isOpen nodes lookup =>
        rw [lookup] at found
        by_cases same : id = new.id
        · rw [same, Function.update_self] at found
          rw [← Option.some.inj found]
          exact same.symm
        · rw [Function.update_of_ne same] at found
          exact registered.lookup id node found
  · intro returned member config succeeded
    rcases returns_exec executed with same | ⟨call, result, running, added⟩
    · exact registered.returns returned (same ▸ member) config succeeded
    · rw [added, List.mem_append, List.mem_singleton] at member
      rcases member with earlier | last
      · exact registered.returns returned earlier config succeeded
      · rw [running] at separates
        rw [last] at succeeded ⊢
        exact separates config succeeded

end Steps

/-- In every run, the registry has nodes under their IDs and calls keep IDs
distinct. -/
theorem registered_reached {context : Context}
    {allowed : State Manager Op → Label Choice Empty → Prop}
    {calls : List Invocation} {state : State Manager Op}
    (reached : Reaches context allowed {} calls state) :
    Registered state.shared := by
  refine (reached.annotated Registered (fun _ => Separates) ?_ ?_ ?_).1
  · refine ⟨⟨?_, ?_⟩, ?_⟩
    · intro id node found
      cases found
    · intro returned member
      cases member
    · intro op member
      obtain ⟨call, _, equal⟩ := mem_start_ops.mp member
      rw [equal]
      cases call <;> trivial
  · intro state thread choice next runs _ _ registered separates
    have executed : exec context state.shared runs.op choice =
      some runs.outcome := runs.exec_eq
    refine ⟨registered_exec registered executed separates, ?_,
      fun _ _ separates => separates⟩
    intro op member
    rw [Machine.Runs.fresh, spawned_exec executed] at member
    exact separates_exec registered executed separates op (by simpa using member)
  · intro shared event
    cases event

/-! ## Servers -/

/-- The connected peers are some of the peers, sorted by ID. -/
def Viewed (server : Server) (state : InboundManager) : Prop :=
  ∃ up, up.Sublist (state.peerConfig.getD server.known) ∧
    state.connectedPeers = sortByID up

section Servers

variable {server : Server} {state after : InboundManager}

theorem upPeers_sublist (peers : Config) (changes : List (List Nat)) :
    (InboundManager.upPeers server state peers changes).Sublist peers := by
  induction peers generalizing state changes with
  | nil => exact List.Sublist.slnil
  | cons node nodes inductionHypothesis =>
      rw [InboundManager.upPeers]
      split
      · exact (inductionHypothesis changes.tail).cons_cons node
      · exact (inductionHypothesis changes.tail).cons node

theorem viewed_rebuild {callback : Bool} {changes : List (List Nat)}
    (exact : Exact server (state.rebuildConfig server callback changes)) :
    Viewed server (state.rebuildConfig server callback changes) := by
  have viewed : (state.rebuildConfig server callback changes).connectedPeers =
      state.peerView server changes := rfl
  have configured :
      (state.rebuildConfig server callback changes).peerConfig =
        state.peerConfig := rfl
  unfold Viewed
  rw [viewed, configured, InboundManager.peerView]
  cases state.peerConfig with
  | some peers => exact ⟨_, upPeers_sublist peers changes, rfl⟩
  | none => exact ⟨_, List.filter_sublist, exact.inboundView_eq⟩

theorem viewed_step (exact : Exact server after)
    (viewed : Viewed server state) (step : ViewStep server state after) :
    Viewed server after := by
  have kept : after.peerConfig = state.peerConfig →
      after.connectedPeers = state.connectedPeers → Viewed server after := by
    intro peerConfig connectedPeers
    rw [Viewed, peerConfig, connectedPeers]
    exact viewed
  cases step with
  | rebuilt before changes rebuilds =>
      rw [rebuilds] at exact ⊢
      exact viewed_rebuild exact
  | kept peerConfig due isUp connectedPeers => exact kept peerConfig connectedPeers
  | changed peerConfig due connectedPeers => exact kept peerConfig connectedPeers

theorem viewed_run {events : List Event}
    (ran : (InboundManager.new server).run server events = some state) :
    Viewed server state := by
  refine (InboundManager.run_invariant
    (fun state => Tracks server state ∧ Viewed server state) ?_ ?_ ran).2
  · intro state event after holds stepped
    have tracks := tracks_step holds.1 stepped
    exact ⟨tracks, viewed_step tracks.1 holds.2
      (viewStep_step holds.1.1 stepped)⟩
  · have tracks := tracks_new server
    exact ⟨tracks, viewed_rebuild tracks.1⟩

/-- The IDs of the connected peers are distinct if those of the peer
configuration are. -/
theorem distinct_connectedPeers {events : List Event}
    (ran : (InboundManager.new server).run server events = some state)
    (peers : ∀ config, state.peerConfig = some config → DistinctIDs config) :
    DistinctIDs state.connectedPeers := by
  obtain ⟨up, sublist, equal⟩ := viewed_run ran
  rw [equal]
  apply DistinctIDs.sortByID
  refine List.Nodup.sublist (sublist.map Node.id) ?_
  cases configured : state.peerConfig with
  | none => exact server.distinct
  | some config => exact peers config configured

theorem distinct_connectedClients {events : List Event}
    (ran : (InboundManager.new server).run server events = some state) :
    DistinctIDs state.connectedClients := by
  obtain ⟨exact, current⟩ := tracks_run ran
  rw [current.connectedClients, exact.clientView_eq]
  exact DistinctIDs.sortByID exact.nodup_clients

end Servers

end Conn
end Gorums
