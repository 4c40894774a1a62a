import Gorums.Conn.Returning
import Mathlib.Data.List.TakeWhile

/-!
# Which IDs the nodes of a source get

The nodes of a list get the IDs that follow the last one of the pool.  Counting
past the largest ID leads to the reserved ID 0, at which the call fails, so no
ID is used twice.  A server that builds its known peers from a source gives
every address the ID that a new pool gives it.
-/

namespace Gorums
namespace Conn

open Pool

/-! ## Lists of addresses -/

/-- The largest ID of a pool, or zero if it has no nodes. -/
def lastID (nodes : List Node) : Nat :=
  (nodes.map fun node => node.id.toNat).foldr max 0

section Lists

variable {net : Network} {pool : Manager} {addrs : List String} {verify : Bool}
  {front rest : List Entry} {node : Node}

theorem toNat_maxID_know (net : Network) (builder : NodeBuilder)
    (node : Node) :
    (builder.know net node).maxID.toNat =
      max builder.maxID.toNat node.id.toNat := by
  have larger : (builder.know net node).maxID =
      if builder.maxID ≤ node.id then node.id else builder.maxID := rfl
  rw [larger]
  split
  · rename_i le
    exact (Nat.max_eq_right (UInt32.le_iff_toNat_le.mp le)).symm
  · rename_i less
    have le := (UInt32.le_total builder.maxID node.id).resolve_left less
    exact (Nat.max_eq_left (UInt32.le_iff_toNat_le.mp le)).symm

/-- The largest ID that a new builder has read. -/
theorem toNat_maxID (net : Network) (existing : List Node) (verify : Bool) :
    (newNodeBuilder net existing verify).maxID.toNat = lastID existing := by
  have general : ∀ (rest : List Node) (builder : NodeBuilder),
      (rest.foldl (NodeBuilder.know net) builder).maxID.toNat =
        max builder.maxID.toNat (lastID rest) := by
    intro rest
    induction rest with
    | nil =>
        intro builder
        exact (Nat.max_eq_left (Nat.zero_le _)).symm
    | cons node rest inductionHypothesis =>
        intro builder
        rw [List.foldl_cons, inductionHypothesis, toNat_maxID_know,
          Nat.max_assoc]
        rfl
  exact (general existing _).trans (Nat.max_eq_right (Nat.zero_le _))

theorem le_lastID {nodes : List Node} (member : node ∈ nodes) :
    node.id.toNat ≤ lastID nodes := by
  induction nodes with
  | nil => cases member
  | cons first nodes inductionHypothesis =>
      rcases List.mem_cons.mp member with rfl | later
      · exact Nat.le_max_left _ _
      · exact Nat.le_trans (inductionHypothesis later) (Nat.le_max_right _ _)

theorem lastID_lt (nodes : List Node) : lastID nodes < 2 ^ 32 := by
  rw [← toNat_maxID .plain nodes false]
  exact UInt32.toNat_lt _

/-- The ID at a position of a list of addresses. -/
theorem toNat_id_of_nodeList {entry : Entry}
    (split : (NodeSource.nodeList addrs).entriesOn net pool verify =
      front ++ entry :: rest) :
    entry.id.toNat = (lastID pool.nodes + 1 + front.length) % 2 ^ 32 := by
  have here := congrArg (fun entries => entries[front.length]?) split
  simp only [NodeSource.entriesOn, NodeSource.entries, List.getElem?_map,
    List.getElem?_append_right (Nat.le_refl _), Nat.sub_self,
    List.getElem?_cons_zero] at here
  obtain ⟨named, found, rfl⟩ := Option.map_eq_some_iff.mp here
  have index : named.2 = front.length := by
    obtain ⟨_, equal⟩ := List.getElem?_eq_some_iff.mp found
    rw [← equal, List.getElem_zipIdx]
    exact Nat.zero_add _
  have one : (1 : UInt32).toNat = 1 := rfl
  rw [index, NodeBuilder.nextID, UInt32.toNat_add, UInt32.toNat_add,
    toNat_maxID, UInt32.toNat_ofNat', one]
  omega

/-- As long as no entry of a list has the reserved ID, the IDs have not run past
the largest one. -/
theorem lastID_add_length_lt
    (split : (NodeSource.nodeList addrs).entriesOn net pool verify =
      front ++ rest)
    (nonzero : ∀ entry ∈ front, entry.id ≠ 0) :
    lastID pool.nodes + front.length < 2 ^ 32 := by
  by_contra past
  have bound := lastID_lt pool.nodes
  -- The position at which the IDs would have started again at zero.
  obtain ⟨before, entry, after, rfl, position⟩ :
      ∃ before entry after, front = before ++ entry :: after ∧
        before.length = 2 ^ 32 - 1 - lastID pool.nodes := by
    have inside : 2 ^ 32 - 1 - lastID pool.nodes < front.length := by omega
    generalize 2 ^ 32 - 1 - lastID pool.nodes = position at inside
    refine ⟨front.take position, front[position], front.drop (position + 1),
      ?_, List.length_take_of_le (Nat.le_of_lt inside)⟩
    rw [List.getElem_cons_drop, List.take_append_drop]
  apply nonzero entry (by simp)
  rw [List.append_assoc, List.cons_append] at split
  apply UInt32.toNat_inj.mp
  rw [toNat_id_of_nodeList split, position]
  have start : lastID pool.nodes + 1 + (2 ^ 32 - 1 - lastID pool.nodes) =
      2 ^ 32 := by omega
  rw [start]
  rfl

/-- A node that a list adds has an ID larger than those of the pool. -/
theorem Assigned.lastID_lt
    (assigned : Assigned net pool (.nodeList addrs) node) :
    lastID pool.nodes < node.id.toNat := by
  obtain ⟨verify, done, rest, _, split, earlier, nonzero, _⟩ := assigned
  have below : lastID pool.nodes +
      (done ++ [(⟨node.id, node.addr⟩ : Entry)]).length < 2 ^ 32 := by
    refine lastID_add_length_lt (split.trans (List.append_cons _ _ _)) ?_
    intro entry member
    rcases List.mem_append.mp member with before | last
    · exact earlier entry before
    · rw [List.mem_singleton.mp last]
      exact nonzero
  have value := toNat_id_of_nodeList split
  rw [List.length_append, List.length_singleton] at below
  rw [Nat.mod_eq_of_lt (by omega)] at value
  dsimp only at value
  omega

end Lists

/-! ## The known peers of a server -/

/-- The known peers of a server, by their IDs. -/
abbrev KnownNodes := Stream.ID → Option Node

/-- `InboundManager.newNode`, for the server with an ID that may have a request
handler. -/
def newKnownNode (myID : Stream.ID) (handler : Bool) (ref : Nat)
    (entry : Entry) : Node :=
  ⟨ref, entry.id, entry.addr,
    if entry.id == myID && handler then .inProcess else .inbound⟩

/-- Add the entries of a source to the known peers. -/
def addKnown (net : Network) (myID : Stream.ID) (handler : Bool) :
    NodeBuilder → KnownNodes → List Entry → Except Stream.Err KnownNodes
  | _, known, [] => .ok known
  | builder, known, entry :: rest =>
      match builder.add net entry with
      | .refused err => .error err
      | .reused builder => addKnown net myID handler builder known rest
      | .create builder =>
          let node := newKnownNode myID handler builder.nodes.length entry
          addKnown net myID handler (builder.append node)
            (Function.update known entry.id (some node)) rest

/-- The known peers that `NewInboundManager` builds from a source. -/
def newInboundManager (net : Network) (myID : Stream.ID) (handler : Bool)
    (peerNodes : NodeSource) : Except Stream.Err KnownNodes :=
  match peerNodes.verifier net with
  | .error err => .error err
  | .ok verify =>
      let builder := newNodeBuilder net [] verify
      addKnown net myID handler builder (fun _ => none)
        (peerNodes.entries builder)

/-- The addresses of the known peers. -/
def KnownNodes.addr (known : KnownNodes) (id : Stream.ID) : Option String :=
  (known id).map Node.addr

section Known

variable {net : Network} {myID : Stream.ID} {handler : Bool}
  {source : NodeSource} {known result : KnownNodes} {builder : NodeBuilder}
  {entries : List Entry}

/-- If a builder knows no nodes, then no entry is reused. -/
theorem NodeBuilder.add_ne_reused {entry : Entry}
    (unknown : builder.idToNode = fun _ => none) (after : NodeBuilder) :
    builder.add net entry ≠ .reused after := by
  intro added
  obtain ⟨node, found, _⟩ := NodeBuilder.add_eq_reused added
  rw [unknown] at found
  cases found

/-- The entries that have been added are the known peers. -/
theorem addr_addKnown (unknown : builder.idToNode = fun _ => none)
    (distinct : ((entries.map Entry.id).takeWhile (· ≠ 0)).Nodup)
    (added : addKnown net myID handler builder known entries = .ok result) :
    (∀ entry ∈ entries, entry.id ≠ 0 ∧ result.addr entry.id = some entry.addr) ∧
      ∀ id, (∀ entry ∈ entries, entry.id ≠ id) → result id = known id := by
  induction entries generalizing builder known with
  | nil =>
      cases added
      exact ⟨List.forall_mem_nil _, fun _ _ => rfl⟩
  | cons entry entries inductionHypothesis =>
      rw [addKnown] at added
      split at added
      · cases added
      · rename_i reused
        exact absurd reused (NodeBuilder.add_ne_reused unknown _)
      · rename_i after created
        have nonzero : entry.id ≠ 0 :=
          NodeBuilder.nonzero_of_add created nofun
        rw [List.map_cons, List.takeWhile_cons, if_pos (by simpa using nonzero),
          List.nodup_cons] at distinct
        obtain ⟨_, _, _, equal⟩ := NodeBuilder.add_eq_create created
        have stillUnknown : ∀ node,
            (after.append node).idToNode = fun _ => none := by
          intro node
          rw [equal]
          exact unknown
        obtain ⟨later, others⟩ :=
          inductionHypothesis (stillUnknown _) distinct.2 added
        have allNonzero : ∀ id ∈ entries.map Entry.id, id ≠ 0 := by
          intro id member
          obtain ⟨other, inside, rfl⟩ := List.mem_map.mp member
          exact (later other inside).1
        have new : ∀ other ∈ entries, other.id ≠ entry.id := by
          intro other member same
          apply distinct.1
          rw [List.takeWhile_eq_self_iff.mpr (by simpa using allNonzero), ← same]
          exact List.mem_map_of_mem member
        refine ⟨?_, ?_⟩
        · intro other member
          rcases List.mem_cons.mp member with rfl | inside
          · refine ⟨nonzero, ?_⟩
            rw [KnownNodes.addr, others other.id new, Function.update_self]
            rfl
          · exact later other inside
        · intro id absent
          have apart := absent entry List.mem_cons_self
          rw [others id fun other member =>
            absent other (List.mem_cons_of_mem _ member),
            Function.update_of_ne (Ne.symm apart)]

/-- The known peers of a server are the entries of its source on a new pool. -/
theorem addr_newInboundManager
    (built : newInboundManager net myID handler source = .ok known) :
    ∃ verify, source.verifier net = .ok verify ∧
      ∀ id addr, known.addr id = some addr ↔
        (⟨id, addr⟩ : Entry) ∈ source.entriesOn net {} verify := by
  rw [newInboundManager] at built
  split at built
  · cases built
  · rename_i verify verifier
    refine ⟨verify, verifier, ?_⟩
    obtain ⟨added, others⟩ := addr_addKnown rfl
      (nodup_entries source (newNodeBuilder net [] verify)) built
    intro id addr
    constructor
    · intro found
      obtain ⟨entry, member, same⟩ : ∃ entry ∈ source.entriesOn net {} verify,
          entry.id = id := by
        by_contra absent
        have unknown := others id fun entry member same =>
          absent ⟨entry, member, same⟩
        rw [KnownNodes.addr, unknown] at found
        cases found
      have named := (added entry member).2
      rw [same, found] at named
      have equal : (⟨id, addr⟩ : Entry) = entry := by
        rw [← same, Option.some.inj named]
      rw [equal]
      exact member
    · intro member
      exact (added _ member).2

end Known

/-! ## Sequences of calls -/

section Calls

variable {context : Context} {pool : Manager} {build : BuildCall}
  {state : State Manager Op}

/-- What a call that runs alone has returned. -/
theorem Stage.result {net : Network} {shared : Manager} {ops : List Op}
    (stage : Stage net pool build shared ops) :
    (ops ≠ [] ∧ shared.returns = pool.returns) ∨
      ∃ call result, shared.returns = pool.returns ++ [⟨call, result⟩] ∧
        Stands net pool build shared.nodes (.ret call result) := by
  cases stage with
  | single op stands unreturned => exact .inl ⟨by simp, unreturned⟩
  | closing op call err closes serves unreturned =>
      exact .inl ⟨by simp, unreturned⟩
  | rejecting closing node call builder late err rest serves unreturned =>
      exact .inl ⟨by simp, unreturned⟩
  | returned call result stands returns =>
      exact .inr ⟨call, result, returns, stands⟩

/-- A configuration that holds each ID once is sorted strictly. -/
theorem pairwise_lt_of_distinctIDs {config : Config}
    (sorted : config.Pairwise fun first second => first.id ≤ second.id)
    (distinct : DistinctIDs config) :
    config.Pairwise fun first second => first.id < second.id := by
  refine (sorted.and (List.pairwise_map.mp distinct)).imp ?_
  intro first second both
  exact UInt32.lt_of_le_of_ne both.1 both.2

/-- The nodes that a list adds have larger IDs than the nodes of the pool. -/
theorem Grown.lt_of_nodeList {net : Network} {addrs : List String}
    {shared : Manager}
    (grown : Grown net pool (.nodeList addrs) shared) :
    ∃ added, shared.nodes = pool.nodes ++ added ∧
      ∀ new ∈ added, ∀ old ∈ pool.nodes, old.id < new.id := by
  obtain ⟨added, nodes, assigned⟩ := grown
  refine ⟨added, nodes, ?_⟩
  intro new member old known
  apply UInt32.lt_iff_toNat_lt.mpr
  exact Nat.lt_of_le_of_lt (le_lastID known) (assigned new member).lastID_lt

/-- A call with a list that would count past the largest ID returns an
error. -/
theorem Contract.error_of_past {net : Network} {addrs : List String}
    {shared : Manager} (contract : Contract net pool build shared [])
    (listed : build.source = .nodeList addrs)
    (past : 2 ^ 32 ≤ lastID pool.nodes + addrs.length) :
    ∃ call err, shared.returns = pool.returns ++ [⟨call, .error err⟩] := by
  rcases contract.stage.result with ⟨running, _⟩ | ⟨call, result, returns, stands⟩
  · exact absurd rfl running
  · cases result with
    | error err => exact ⟨call, err, returns⟩
    | ok config =>
        exfalso
        obtain ⟨_, _, made, _, ⟨verify, _, nonzero, _⟩, _⟩ :=
          stands.2 config rfl
        rw [listed] at nonzero
        have below := lastID_add_length_lt (List.append_nil _).symm nonzero
        rw [NodeSource.entriesOn, length_entries] at below
        exact absurd below (Nat.not_lt.mpr past)

/-- On an empty pool, the nodes have the IDs and addresses of the entries. -/
theorem exists_makes_iff {entries : List Entry} {made : List Node}
    {id : Stream.ID} {addr : String}
    (makes : List.Forall₂ (Makes {}) entries made) :
    (∃ node ∈ made, node.id = id ∧ node.addr = addr) ↔
      (⟨id, addr⟩ : Entry) ∈ entries := by
  induction makes with
  | nil => simp
  | @cons entry node entries made first _ inductionHypothesis =>
      have hasAddr : node.addr = entry.addr :=
        first.addr fun _ absent => nomatch absent
      rw [List.mem_cons, ← inductionHypothesis, List.exists_mem_cons_iff,
        first.id, hasAddr]
      refine or_congr ?_ Iff.rfl
      constructor
      · rintro ⟨rfl, rfl⟩
        rfl
      · rintro rfl
        exact ⟨rfl, rfl⟩

/-- A new pool gives every entry of its source a node with its ID and its
address. -/
theorem addr_newConfig {source : NodeSource}
    (runs : RunsTo context {} (.newConfig source) state) {returned : Return}
    (member : returned ∈ state.shared.returns) {config : Config}
    (succeeded : returned.result = .ok config) :
    ∃ verify, source.verifier context.net = .ok verify ∧
      ∀ id addr, (∃ node ∈ config, node.id = id ∧ node.addr = addr) ↔
        (⟨id, addr⟩ : Entry) ∈ source.entriesOn context.net {} verify := by
  obtain ⟨ops, _, contract⟩ := runs.contract History.start.wellFormed
  rcases contract.stage.result with ⟨_, none⟩ | ⟨call, result, returns, stands⟩
  · rw [none] at member
    cases member
  · rw [returns] at member
    rw [List.mem_singleton.mp member] at succeeded
    obtain ⟨_, _, made, _, ⟨verify, verifier, _, makes⟩, permuted⟩ :=
      stands.2 config succeeded
    have same := permuted (stands.1.config.mpr rfl)
    refine ⟨verify, verifier, fun id addr => ?_⟩
    simp only [same.mem_iff]
    exact exists_makes_iff makes

/-- A pool that borrows the streams of known peers from the same source refuses
none of its nodes. -/
theorem kind_of_newInboundManager {source : NodeSource} {myID : Stream.ID}
    {handler verify : Bool} {known : KnownNodes}
    (built : newInboundManager context.net myID handler source = .ok known)
    (server : context.opts.inboundManager = some ⟨known.addr, verify⟩)
    (runs : RunsTo context {} (.newConfig source) state) {call : Call}
    {builder : NodeBuilder} {entry : Entry} {rest : List Entry}
    (creating : state.threads = [[.construct call builder entry rest]])
    (borrows : context.opts.borrowsStream entry.id = true) :
    ∃ kind, context.opts.kind context.net entry.id entry.addr = .ok kind := by
  obtain ⟨ops, alone, contract⟩ := runs.contract History.start.wellFormed
  rw [creating] at alone
  cases alone
  obtain ⟨wanted, verifier, peers⟩ := addr_newInboundManager built
  cases contract.stage with
  | single op stands unreturned =>
      obtain ⟨_, checked, done, staged, split, _⟩ := stands
      have equal := verifier.symm.trans staged.verifier
      cases equal
      have peer : known.addr entry.id = some entry.addr := by
        have inSource := List.mem_append_right done
          (List.mem_cons_self : entry ∈ entry :: rest)
        rw [← split] at inSource
        exact (peers _ _).mpr inSource
      have knownPeer : context.opts.knownPeer entry.id = some entry.addr := by
        rw [DialOptions.knownPeer, server]
        exact peer
      unfold DialOptions.kind
      split
      · exact ⟨_, rfl⟩
      · rw [knownPeer]
        exact ⟨_, if_neg fun differs => differs rfl⟩

/-- In every sequence of calls that build configurations on one pool, one after
the other, the nodes have distinct IDs and addresses, each call returns, and its
configuration is sorted and has the addresses of its source.  A list adds IDs
that are larger than those of the pool or ends in an error.  A server's known
peers have the IDs that a new pool gives to the same source, so the pool can
borrow their streams. -/
theorem build_well_formed (context : Context) (past : List Completed)
    (pool : Manager) (history : History context past pool) (build : BuildCall)
    (state : State Manager Op) (runs : RunsTo context pool build state) :
    ((state.shared.nodes.map Node.id).Nodup ∧
      (∀ node ∈ state.shared.nodes, node.id ≠ 0) ∧
      (state.shared.nodes.map fun node =>
        context.net.comparableAddr node.addr).Nodup) ∧
    (∀ returned ∈ state.shared.returns, ∀ config,
      returned.result = .ok config →
      Answers context.net returned.call config ∧
      ((∀ extended, returned.call.config = some extended →
          DistinctIDs extended) →
        config.Pairwise fun first second => first.id < second.id)) ∧
    (∀ addrs, build.source = .nodeList addrs →
      (∃ added, state.shared.nodes = pool.nodes ++ added ∧
        ∀ new ∈ added, ∀ old ∈ pool.nodes, old.id < new.id) ∧
      (2 ^ 32 ≤ lastID pool.nodes + addrs.length → state.threads = [[]] →
        ∃ call err,
          state.shared.returns = pool.returns ++ [⟨call, .error err⟩])) ∧
    ((machine context).Terminates state ∧
      ((machine context).Stopped state → state.threads = [[]])) ∧
    (∀ source myID handler known,
      newInboundManager context.net myID handler source = .ok known →
      ∀ building, RunsTo context {} (.newConfig source) building →
      (∀ returned ∈ building.shared.returns, ∀ config,
        returned.result = .ok config → ∀ id addr,
          (∃ node ∈ config, node.id = id ∧ node.addr = addr) ↔
            known.addr id = some addr) ∧
      (∀ verify, context.opts.inboundManager = some ⟨known.addr, verify⟩ →
        ∀ call builder entry rest,
          building.threads = [[.construct call builder entry rest]] →
          context.opts.borrowsStream entry.id = true →
          ∃ kind, context.opts.kind context.net entry.id entry.addr =
            .ok kind)) := by
  have wellFormed := history.wellFormed
  obtain ⟨ops, alone, contract⟩ := runs.contract wellFormed
  have inCall := runs.inCall wellFormed history.idle
  have formed := contract.wellFormed
  refine ⟨⟨formed.ids, formed.nonzero, formed.addrs⟩, ?_, ?_,
    ⟨inCall.terminates, inCall.stopped⟩, ?_⟩
  · intro returned member config succeeded
    obtain ⟨answers, sorted⟩ := formed.returns returned member config succeeded
    refine ⟨answers, fun distinct => pairwise_lt_of_distinctIDs sorted ?_⟩
    exact formed.registered.returns returned member config succeeded distinct
  · intro addrs listed
    refine ⟨?_, ?_⟩
    · have grown := contract.grown
      rw [listed] at grown
      exact grown.lt_of_nodeList
    · intro past returned
      rw [alone] at returned
      obtain rfl := List.singleton_inj.mp returned
      exact contract.error_of_past listed past
  · intro source myID handler known built building newRuns
    refine ⟨?_, ?_⟩
    · intro returned member config succeeded id addr
      obtain ⟨verify, verifier, assigned⟩ :=
        addr_newConfig newRuns member succeeded
      obtain ⟨_, sameVerifier, peers⟩ := addr_newInboundManager built
      cases verifier.symm.trans sameVerifier
      rw [assigned, peers]
    · intro verify server call builder entry rest creating borrows
      exact kind_of_newInboundManager built server newRuns creating borrows

end Calls

/-- A call that runs alone, by the choices that its steps make. -/
def runAlone (context : Context) (pool : Manager) (build : BuildCall)
    (choices : List Choice) : Option (State Manager Op) :=
  (machine context).follow (fun _ _ => true) ⟨pool, [[build.op]]⟩
    (choices.map (.run 0))

theorem runsTo_runAlone {context : Context} {pool : Manager}
    {build : BuildCall} {choices : List Choice}
    (followed : (runAlone context pool build choices).isSome = true) :
    RunsTo context pool build
      ((runAlone context pool build choices).get followed) :=
  Machine.reach_of_isSome (fun _ _ _ => trivial) followed

/-- A new pool with one address. -/
def firstAddr : BuildCall := .newConfig (.nodeList ["a:1"])

/-- The call that adds another one. -/
def secondAddr : BuildCall := .extend (.nodeList ["b:1"])

theorem firstAddr_followed :
    (runAlone ⟨.plain, {}⟩ {} firstAddr (.replicate 10 .go)).isSome = true := by
  decide +kernel

/-- The state in which the first call has returned. -/
def afterFirst : State Manager Op :=
  (runAlone ⟨.plain, {}⟩ {} firstAddr (.replicate 10 .go)).get
    firstAddr_followed

theorem secondAddr_followed :
    (runAlone ⟨.plain, {}⟩ afterFirst.shared secondAddr
      (.config afterFirst.shared.nodes :: .replicate 13 .go)).isSome =
        true := by
  decide +kernel

/-- The state in which the second call has returned. -/
def afterSecond : State Manager Op :=
  (runAlone ⟨.plain, {}⟩ afterFirst.shared secondAddr
    (.config afterFirst.shared.nodes :: .replicate 13 .go)).get
      secondAddr_followed

theorem build_well_formed_afterSecond :
    afterSecond.threads = [[]] ∧
      afterSecond.shared.nodes.map Node.id = [1, 2] ∧
      (afterSecond.shared.nodes.map Node.id).Nodup := by
  have history : History ⟨.plain, {}⟩ ([] ++ [⟨{}, firstAddr, afterFirst.shared⟩])
      afterFirst.shared :=
    .call firstAddr .start (runsTo_runAlone firstAddr_followed) rfl
  exact ⟨rfl, by decide +kernel,
    (build_well_formed _ _ _ history secondAddr afterSecond
      (runsTo_runAlone secondAddr_followed)).1.1⟩

end Conn
end Gorums
