import Gorums.Conn.DistinctIDs

/-!
# Calls that do not overlap

A call to `NewConfig` or `Extend` that runs alone on a pool, and sequences of
such calls.  The nodes that a call registers are those of the entries of its
source whose IDs the pool does not have, in order, up to the entry at which the
call fails.
-/

namespace Gorums
namespace Conn

open Pool

/-- A call that builds a configuration from a source. -/
inductive BuildCall
  | newConfig (source : NodeSource)
  | extend (source : NodeSource)

/-- The source of the nodes. -/
def BuildCall.source : BuildCall → NodeSource
  | .newConfig source | .extend source => source

/-- The first operation of the call. -/
def BuildCall.op : BuildCall → Op
  | .newConfig source => .newConfig source
  | .extend source => .extend (some source)

/-- The states that a call reaches when it runs alone on a pool. -/
def RunsTo (context : Context) (pool : Manager) (call : BuildCall)
    (state : State Manager Op) : Prop :=
  (machine context).Reach (fun _ _ => True) ⟨pool, [[call.op]]⟩ state

/-- A call that has returned. -/
structure Completed where
  /-- The pool before the call. -/
  before : Manager
  /-- The call. -/
  call : BuildCall
  /-- The pool after it. -/
  after : Manager

/-- The calls that have been made on a pool, one after the other. -/
inductive History (context : Context) : List Completed → Manager → Prop
  /-- A new pool. -/
  | start : History context [] {}
  /-- One more call has returned. -/
  | call {past : List Completed} {pool : Manager} {state : State Manager Op}
      (call : BuildCall) :
      History context past pool →
      RunsTo context pool call state → state.threads = [[]] →
      History context (past ++ [⟨pool, call, state.shared⟩]) state.shared

/-! ## The entries that a call has added -/

/-- A node is that of an entry; a new node has the address of the entry. -/
structure Makes (pool : Manager) (entry : Entry) (node : Node) : Prop where
  /-- The node has the ID of the entry. -/
  id : node.id = entry.id
  /-- A new node has its address. -/
  addr : Unused pool entry → node.addr = entry.addr

/-- What holds of a builder after some entries of its source. -/
structure Staged (net : Network) (pool : Manager) (source : NodeSource)
    (verify : Bool) (done : List Entry) (builder : NodeBuilder)
    (nodes : List Node) : Prop where
  /-- The source is not refused. -/
  verifier : source.verifier net = .ok verify
  /-- The builder has read the pool. -/
  existing : builder.existing = pool.nodes
  /-- It finds the nodes of the pool by their IDs. -/
  idToNode :
    builder.idToNode = (newNodeBuilder net pool.nodes verify).idToNode
  /-- No entry has the reserved ID. -/
  nonzero : ∀ entry ∈ done, entry.id ≠ 0
  /-- Each entry has its node. -/
  makes : List.Forall₂ (Makes pool) done builder.nodes
  /-- There are no other nodes in the pool. -/
  alone : ∀ node ∈ nodes, node ∈ pool.nodes ∨ node ∈ builder.nodes

/-- The entries of a source on a pool, each with its node. -/
def Finished (net : Network) (pool : Manager) (source : NodeSource)
    (made : List Node) : Prop :=
  ∃ verify, source.verifier net = .ok verify ∧
    (∀ entry ∈ source.entriesOn net pool verify, entry.id ≠ 0) ∧
    List.Forall₂ (Makes pool) (source.entriesOn net pool verify) made

/-- An entry whose ID the pool does not have is about to be added. -/
def Creates (net : Network) (pool : Manager) (source : NodeSource)
    (builder : NodeBuilder) (nodes : List Node) (entry : Entry)
    (rest : List Entry) : Prop :=
  ∃ verify done, Staged net pool source verify done builder nodes ∧
    source.entriesOn net pool verify = done ++ entry :: rest ∧
    Unused pool entry ∧ entry.id ≠ 0

/-- The call is one to `NewConfig` or to `Extend` with a source. -/
structure Call.Serves (call : Call) (build : BuildCall) : Prop where
  /-- The source. -/
  source : call.source = some build.source
  /-- `NewConfig` extends no configuration. -/
  config : call.config = none ↔ build = .newConfig build.source

/-- What holds while an operation of a sole call is still to be executed. -/
def Stands (net : Network) (pool : Manager) (build : BuildCall)
    (nodes : List Node) : Op → Prop
  | .newConfig begun => build = .newConfig begun ∧ nodes = pool.nodes
  | .extend begun =>
      begun = some build.source ∧ build = .extend build.source ∧
        nodes = pool.nodes
  | .checkClosed call | .refuseIdentity call =>
      call.Serves build ∧ nodes = pool.nodes
  | .checkIdentity call begun | .build call begun =>
      call.Serves build ∧ begun = build.source ∧ nodes = pool.nodes
  | .add call builder entries =>
      call.Serves build ∧ ∃ verify done,
        Staged net pool build.source verify done builder nodes ∧
        build.source.entriesOn net pool verify = done ++ entries
  | .findNode call builder entry rest | .prepare call builder entry rest
  | .construct call builder entry rest =>
      call.Serves build ∧
        Creates net pool build.source builder nodes entry rest
  | .addNode call builder node rest | .rejectNode call builder node _ rest =>
      call.Serves build ∧
        Creates net pool build.source builder nodes ⟨node.id, node.addr⟩ rest
  | .newNodeReturn call builder node _ err rest =>
      call.Serves build ∧ (err = none → ∃ verify done,
        Staged net pool build.source verify done (builder.append node) nodes ∧
        build.source.entriesOn net pool verify = done ++ rest)
  | .union call config _ =>
      call.Serves build ∧ config ⊆ nodes ∧ call.config ≠ none ∧
        ∃ made, made ⊆ nodes ∧ Finished net pool build.source made
  | .ret call result =>
      call.Serves build ∧ ∀ config, result = .ok config →
        config ⊆ nodes ∧
        config.Pairwise (fun first second => first.id ≤ second.id) ∧
        ∃ made, made ⊆ nodes ∧ Finished net pool build.source made ∧
          (call.config = none → config.Perm made)
  | _ => False

/-- Whether an operation belongs to `Close`. -/
def Op.Closes : Op → Prop
  | .close | .lockClose | .closeNodes _ | .nodeClosed _ _ | .closeReturn => True
  | _ => False

/-- The operations before a sole call and what holds then. -/
inductive Stage (net : Network) (pool : Manager) (build : BuildCall)
    (state : Manager) : List Op → Prop
  /-- One operation. -/
  | single (op : Op) (stands : Stands net pool build state.nodes op)
      (unreturned : state.returns = pool.returns) :
      Stage net pool build state [op]
  /-- A failed `NewConfig` closes the pool before it returns. -/
  | closing (op : Op) (call : Call) (err : Stream.Err) (closes : op.Closes)
      (serves : call.Serves build)
      (unreturned : state.returns = pool.returns) :
      Stage net pool build state [op, .ret call (.error err)]
  /-- A node that came too late is closed before `newNode` returns. -/
  | rejecting (closing node : Node) (call : Call) (builder : NodeBuilder)
      (late : Bool) (err : Stream.Err) (rest : List Entry)
      (serves : call.Serves build)
      (unreturned : state.returns = pool.returns) :
      Stage net pool build state [.nodeRejected closing,
        .newNodeReturn call builder node late (some err) rest]
  /-- The call has returned. -/
  | returned (call : Call) (result : Except Stream.Err Config)
      (stands : Stands net pool build state.nodes (.ret call result))
      (returns : state.returns = pool.returns ++ [⟨call, result⟩]) :
      Stage net pool build state []

section Steps

variable {context : Context} {pool state : Manager} {build : BuildCall}
  {source : NodeSource}
  {op : Op} {choice : Choice} {outcome : Outcome Manager Op}
  {nodes : List Node} {verify : Bool} {done rest : List Entry}
  {builder after : NodeBuilder} {entry : Entry}

theorem serves_extend {config : Config} {begun : Option NodeSource}
    (sourced : begun = some build.source)
    (extends_ : build = .extend build.source) :
    Call.Serves ⟨some config, begun⟩ build := by
  refine ⟨sourced, ?_⟩
  rw [extends_]
  simp

theorem stage_fail {call : Call} {shared : Manager} (err : Stream.Err)
    (serves : call.Serves build)
    (unreturned : shared.returns = pool.returns) :
    Stage context.net pool build shared (call.fail err) := by
  unfold Call.fail
  split
  · exact .single _ ⟨serves, nofun⟩ unreturned
  · exact .closing _ _ _ trivial serves unreturned

theorem staged_newNodeBuilder {net : Network}
    (verifier : source.verifier net = .ok verify) :
    Staged net pool source verify []
      (newNodeBuilder net pool.nodes verify) pool.nodes := by
  obtain ⟨existing, made, _⟩ := fields_newNodeBuilder net pool.nodes verify
  refine ⟨verifier, existing, rfl, by simp, ?_, fun _ => .inl⟩
  rw [made]
  exact .nil

/-- The node of an entry is appended. -/
theorem Staged.append {net : Network} {node : Node} {grown : List Node}
    (staged : Staged net pool source verify done builder nodes)
    (nonzero : entry.id ≠ 0) (makes : Makes pool entry node)
    (alone : ∀ other ∈ grown, other ∈ nodes ∨ other = node) :
    Staged net pool source verify (done ++ [entry]) (builder.append node)
      grown where
  verifier := staged.verifier
  existing := staged.existing
  idToNode := staged.idToNode
  nonzero := by
    intro other member
    rcases List.mem_append.mp member with earlier | last
    · exact staged.nonzero other earlier
    · rw [List.mem_singleton.mp last]
      exact nonzero
  makes := List.rel_append staged.makes (.cons makes .nil)
  alone := by
    intro other member
    rcases alone other member with before | rfl
    · exact (staged.alone other before).imp_right (List.mem_append_left _)
    · exact .inr (by simp [NodeBuilder.append])

theorem Staged.reused {net : Network}
    (staged : Staged net pool source verify done builder nodes)
    (added : builder.add net entry = .reused after) :
    Staged net pool source verify (done ++ [entry]) after nodes := by
  have nonzero := NodeBuilder.nonzero_of_add added nofun
  obtain ⟨node, found, _, equal⟩ := NodeBuilder.add_eq_reused added
  rw [staged.idToNode] at found
  obtain ⟨member, hasID⟩ :=
    (knows_newNodeBuilder net pool.nodes verify).found _ _ found
  rw [equal]
  refine staged.append nonzero ⟨hasID, ?_⟩ (fun _ => .inl)
  intro unused
  exact absurd hasID (unused node member)

theorem Staged.create {net : Network}
    (staged : Staged net pool source verify done builder nodes)
    (split : source.entriesOn net pool verify = done ++ entry :: rest)
    (added : builder.add net entry = .create after) :
    Creates net pool source after nodes entry rest := by
  have nonzero := NodeBuilder.nonzero_of_add added nofun
  obtain ⟨_, unknown, _, equal⟩ := NodeBuilder.add_eq_create added
  have unused : Unused pool entry := by
    intro node member same
    rw [staged.idToNode, ← same] at unknown
    exact (knows_newNodeBuilder net pool.nodes verify).ids node member unknown
  rw [equal]
  exact ⟨verify, done, ⟨staged.verifier, staged.existing, staged.idToNode,
    staged.nonzero, staged.makes, staged.alone⟩, split, unused, nonzero⟩

/-- A builder that has added all entries is finished. -/
theorem Staged.finished {net : Network}
    (staged : Staged net pool source verify done builder nodes)
    (split : source.entriesOn net pool verify = done ++ []) :
    Finished net pool source builder.nodes := by
  rw [List.append_nil] at split
  refine ⟨verify, staged.verifier, ?_, ?_⟩
  · rw [split]
    exact staged.nonzero
  · rw [split]
    exact staged.makes

/-- A sole operation leads to the next stage of the call. -/
theorem stage_single (executed : exec context state op choice = some outcome)
    (consistent : Consistent context.net state)
    (extends_ : Extends context.net state op)
    (stands : Stands context.net pool build state.nodes op)
    (unreturned : state.returns = pool.returns) :
    Stage context.net pool build outcome.shared outcome.next := by
  cases exec_step executed with
  | alreadyClosed | identityRefused | unverified | refused | taken
  | withoutCredentials | unconstructed | newNodeFailed =>
      exact stage_fail _ stands.1 unreturned
  | sameIdentity | free | verifying | unchecked | constructed | rejecting
  | present | absent => exact .single _ stands unreturned
  | emptyConfig begun err =>
      refine .single _ ⟨serves_extend stands.1 stands.2.1, ?_⟩ unreturned
      intro config failed
      cases failed
  | extending begun config =>
      exact .single _ ⟨serves_extend stands.1 stands.2.1, stands.2.2⟩ unreturned
  | creating begun =>
      obtain ⟨rfl, nodes⟩ := stands
      exact .single _ ⟨⟨rfl, by simp [BuildCall.source]⟩, rfl, nodes⟩ unreturned
  | sourceless call unsourced =>
      rw [stands.1.source] at unsourced
      cases unsourced
  | sourced call begun given =>
      refine .single _ ⟨stands.1, ?_, stands.2⟩ unreturned
      exact Option.some.inj (given.symm.trans stands.1.source)
  | otherIdentity call begun =>
      exact .single _ ⟨stands.1, stands.2.2⟩ unreturned
  | built call begun verify verifier =>
      obtain ⟨serves, rfl, nodes⟩ := stands
      have staged : Staged context.net pool build.source verify []
          (newNodeBuilder context.net pool.nodes verify) pool.nodes :=
        staged_newNodeBuilder verifier
      rw [← nodes] at staged
      refine .single _ ⟨serves, verify, [], ?_, ?_⟩ unreturned
      · exact staged
      · rw [NodeSource.entriesOn, ← nodes]
        rfl
  | combined call builder =>
      have building : Building context.net state call builder [] := extends_
      obtain ⟨serves, verify, done, staged, split⟩ := stands
      refine .single _ ?_ unreturned
      unfold Call.combine
      split
      · rename_i config extended
        exact ⟨serves, building.grounded config extended, by simp [extended],
          builder.nodes, building.nodes, staged.finished split⟩
      · refine ⟨serves, ?_⟩
        intro config equal
        cases equal
        refine ⟨?_, pairwise_sortByID _, builder.nodes, building.nodes,
          staged.finished split, fun _ => perm_sortBy Node.id _⟩
        intro node member
        exact building.nodes (mem_sortByID.mp member)
  | reused call builder after entry rest added =>
      obtain ⟨serves, verify, done, staged, split⟩ := stands
      exact .single _ ⟨serves, verify, done ++ [entry], staged.reused added,
        by simpa using split⟩ unreturned
  | create call builder after entry rest added =>
      obtain ⟨serves, verify, done, staged, split⟩ := stands
      exact .single _ ⟨serves, staged.create split added⟩ unreturned
  | registered call builder node rest =>
      obtain ⟨serves, verify, done, staged, split, unused, nonzero⟩ := stands
      refine .single _ ⟨serves, fun _ => ⟨verify,
        done ++ [⟨node.id, node.addr⟩], ?_, by simpa using split⟩⟩ unreturned
      refine staged.append nonzero ⟨rfl, fun _ => rfl⟩ ?_
      intro other member
      exact (List.mem_append.mp member).imp_right List.mem_singleton.mp
  | rejected call builder node late rest =>
      exact .rejecting _ _ _ _ _ _ _ stands.1 unreturned
  | newNodeReturned call builder node late rest =>
      obtain ⟨serves, appended⟩ := stands
      exact .single _ ⟨serves, appended rfl⟩ unreturned
  | united call config =>
      obtain ⟨serves, inPool, extended, made, nodes, finished⟩ := stands
      refine .single _ ⟨serves, ?_⟩ unreturned
      intro sorted equal
      cases equal
      refine ⟨?_, pairwise_sortByID _, made, nodes, finished,
        fun new => absurd new extended⟩
      intro node member
      exact inPool (mem_sortByID.mp member)
  | found call config id ids node lacks known =>
      obtain ⟨serves, inPool, rest⟩ := stands
      refine .single _ ⟨serves, ?_, rest⟩ unreturned
      intro other member
      rcases List.mem_append.mp member with earlier | last
      · exact inPool earlier
      · rw [List.mem_singleton.mp last]
        exact (consistent.found id node known).1
  | returned call result =>
      refine .returned call result stands ?_
      rw [unreturned]
  | _ => exact stands.elim

/-- `Close` goes on until it returns. -/
theorem closes_exec (executed : exec context state op choice = some outcome)
    (closes : op.Closes) :
    outcome.shared.returns = state.returns ∧
      (outcome.next = [] ∨ ∃ next, outcome.next = [next] ∧ next.Closes) := by
  cases exec_step executed with
  | closeReturned => exact ⟨rfl, .inl rfl⟩
  | closing | closedBefore | locked | closedAll | closingNode | nodeClosed =>
      exact ⟨rfl, .inr ⟨_, rfl, trivial⟩⟩
  | _ => exact closes.elim

/-- Every operation leads to the next stage of the call. -/
theorem stage_exec {ops : List Op}
    (executed : exec context state op choice = some outcome)
    (consistent : Consistent context.net state)
    (extends_ : Extends context.net state op)
    (stage : Stage context.net pool build state (op :: ops)) :
    Stage context.net pool build outcome.shared (outcome.next ++ ops) := by
  cases stage with
  | single op stands unreturned =>
      rw [List.append_nil]
      exact stage_single executed consistent extends_ stands unreturned
  | closing op call err closes serves unreturned =>
      obtain ⟨returns, next | ⟨next, follows, closing⟩⟩ :=
        closes_exec executed closes
      · rw [next]
        exact .single _ ⟨serves, fun _ failed => by cases failed⟩ (returns.trans unreturned)
      · rw [follows]
        exact .closing _ _ _ closing serves (returns.trans unreturned)
  | rejecting closing node call builder late err rest serves unreturned =>
      cases choice with
      | go =>
          cases executed
          exact .single _ ⟨serves, fun absent => by cases absent⟩ unreturned
      | config config => cases executed

end Steps

/-! ## One call -/

/-- The pool of a network is well formed. -/
structure WellFormed (net : Network) (pool : Manager) : Prop
    extends Consistent net pool where
  /-- No node has the reserved ID. -/
  nonzero : ∀ node ∈ pool.nodes, node.id ≠ 0
  /-- The configurations returned keep IDs distinct. -/
  registered : Registered pool
  /-- They have the addresses of their sources and are sorted. -/
  returns : ∀ returned ∈ pool.returns, ∀ config,
    returned.result = .ok config → Answers net returned.call config ∧
      config.Pairwise fun first second => first.id ≤ second.id

/-- A node is that of an entry of the source whose ID the pool does not have,
and no entry up to this one has the reserved ID. -/
def Assigned (net : Network) (pool : Manager) (source : NodeSource)
    (node : Node) : Prop :=
  ∃ verify done rest, source.verifier net = .ok verify ∧
    source.entriesOn net pool verify = done ++ ⟨node.id, node.addr⟩ :: rest ∧
    (∀ entry ∈ done, entry.id ≠ 0) ∧ node.id ≠ 0 ∧
    ∀ other ∈ pool.nodes, other.id ≠ node.id

/-- The nodes that a call has added to the pool are those of its source. -/
def Grown (net : Network) (pool : Manager) (source : NodeSource)
    (state : Manager) : Prop :=
  ∃ added, state.nodes = pool.nodes ++ added ∧
    ∀ node ∈ added, Assigned net pool source node

/-- What holds throughout a call that runs alone. -/
structure Contract (net : Network) (pool : Manager) (build : BuildCall)
    (state : Manager) (ops : List Op) : Prop where
  /-- The pool is well formed. -/
  wellFormed : WellFormed net state
  /-- The call has added nodes of its source. -/
  grown : Grown net pool build.source state
  /-- What is still to be executed. -/
  stage : Stage net pool build state ops
  /-- What holds of each operation. -/
  extends_ : ∀ op ∈ ops, Extends net state op
  /-- What holds of the IDs. -/
  separates : ∀ op ∈ ops, Separates op

section Call

variable {context : Context} {pool state : Manager} {build : BuildCall}
  {op : Op} {ops : List Op} {choice : Choice} {outcome : Outcome Manager Op}

/-- A call that runs alone does not disturb others. -/
theorem Stage.undisturbed {net : Network}
    (stage : Stage net pool build state (op :: ops)) :
    undisturbed net state.nodes op = true := by
  cases stage with
  | single op stands unreturned =>
      cases op with
      | addNode call builder node rest =>
          obtain ⟨_, verify, done, staged, _⟩ := stands
          refine List.all_eq_true.mpr ?_
          intro other member
          rcases staged.alone other member with inPool | own
          · simp [staged.existing, inPool]
          · simp [own]
      | _ => rfl
  | closing op call err closes =>
      cases op <;> first | rfl | exact closes.elim
  | rejecting => rfl

/-- Every operation keeps the nodes of the pool those of the source. -/
theorem Stage.grown (executed : exec context state op choice = some outcome)
    (stage : Stage context.net pool build state (op :: ops))
    (grown : Grown context.net pool build.source state) :
    Grown context.net pool build.source outcome.shared := by
  cases nodes_exec executed with
  | same nodes lookup =>
      unfold Grown
      rw [nodes]
      exact grown
  | registered call builder node rest running isOpen nodes lookup =>
      subst running
      obtain ⟨added, equal, assigned⟩ := grown
      refine ⟨added ++ [node], by rw [nodes, equal, List.append_assoc], ?_⟩
      intro other member
      rcases List.mem_append.mp member with earlier | last
      · exact assigned other earlier
      · rw [List.mem_singleton.mp last]
        cases stage with
        | single op stands unreturned =>
            obtain ⟨_, verify, done, staged, split, unused, nonzero⟩ := stands
            exact ⟨verify, done, rest, staged.verifier, split, staged.nonzero,
              nonzero, unused⟩
        | closing op call err closes => exact closes.elim

/-- What a call returns has the addresses of its source and is sorted. -/
theorem returns_of_stage {net : Network} {call : Call} {config : Config}
    (stage : Stage net pool build state (.ret call (.ok config) :: ops)) :
    config.Pairwise fun first second => first.id ≤ second.id := by
  cases stage with
  | single op stands unreturned => exact (stands.2 config rfl).2.1
  | closing op call err closes => exact closes.elim

/-- Every operation of a call keeps its contract. -/
theorem contract_exec
    (executed : exec context state op choice = some outcome)
    (contract : Contract context.net pool build state (op :: ops)) :
    Contract context.net pool build outcome.shared (outcome.next ++ ops) := by
  obtain ⟨wellFormed, grown, stage, extended, separated⟩ := contract
  have extends_ := extended op List.mem_cons_self
  have separates := separated op List.mem_cons_self
  have consistent := wellFormed.toConsistent
  have grows := grows_exec executed
  refine ⟨⟨?_, ?_, ?_, ?_⟩, stage.grown executed grown, ?_, ?_, ?_⟩
  · exact consistent_exec executed consistent extends_ stage.undisturbed
  · intro node member
    cases nodes_exec executed with
    | same nodes lookup =>
        rw [nodes] at member
        exact wellFormed.nonzero node member
    | registered call builder new rest running isOpen nodes lookup =>
        rw [nodes] at member
        rcases List.mem_append.mp member with earlier | last
        · exact wellFormed.nonzero node earlier
        · rw [List.mem_singleton.mp last]
          rw [running] at separates
          exact separates.1
  · exact registered_exec wellFormed.registered executed separates
  · intro returned member config succeeded
    rcases returns_exec executed with same | ⟨call, result, running, added⟩
    · exact wellFormed.returns returned (same ▸ member) config succeeded
    · rw [added, List.mem_append, List.mem_singleton] at member
      rcases member with earlier | last
      · exact wellFormed.returns returned earlier config succeeded
      · rw [last] at succeeded ⊢
        rw [running] at extends_ stage
        dsimp only at succeeded
        subst succeeded
        exact ⟨extends_ config rfl, returns_of_stage stage⟩
  · exact stage_exec executed consistent extends_ stage
  · intro next member
    rcases List.mem_append.mp member with fresh | later
    · exact extends_exec executed consistent extends_ next fresh
    · exact (extended next (List.mem_cons_of_mem _ later)).grows grows
  · intro next member
    rcases List.mem_append.mp member with fresh | later
    · exact separates_exec wellFormed.registered executed separates next fresh
    · exact separated next (List.mem_cons_of_mem _ later)

end Call

/-- A call that runs alone on a well-formed pool keeps its contract. -/
theorem RunsTo.contract {context : Context} {pool : Manager} {call : BuildCall}
    {state : State Manager Op} (wellFormed : WellFormed context.net pool)
    (runs : RunsTo context pool call state) :
    ∃ ops, state.threads = [ops] ∧
      Contract context.net pool call state.shared ops := by
  refine Machine.Reach.sequential
    (Contract context.net pool call) rfl ?_ ?_ ?_ runs
  · refine ⟨wellFormed, ⟨[], by simp, by simp⟩, .single _ ?_ rfl, ?_, ?_⟩
    · cases call with
      | newConfig source => exact ⟨rfl, rfl⟩
      | extend source => exact ⟨rfl, rfl, rfl⟩
    · intro op member
      rw [List.mem_singleton.mp member]
      cases call <;> trivial
    · intro op member
      rw [List.mem_singleton.mp member]
      cases call <;> trivial
  · intro state thread choice next runs _ contract
    exact ⟨contract_exec runs.exec_eq contract, spawned_exec runs.exec_eq⟩
  · intro _ event
    cases event

/-- The pool is well formed after any sequence of calls. -/
theorem History.wellFormed {context : Context} {past : List Completed}
    {pool : Manager} (history : History context past pool) :
    WellFormed context.net pool := by
  induction history with
  | start =>
      refine ⟨⟨.nil, .nil, ?_, ?_⟩, ?_, ⟨?_, ?_⟩, ?_⟩
      · exact fun _ absent => nomatch absent
      · exact fun _ _ absent => nomatch absent
      · exact fun _ absent => nomatch absent
      · exact fun _ _ absent => nomatch absent
      · exact fun _ absent => nomatch absent
      · exact fun _ absent => nomatch absent
  | call call _ runs _ inductionHypothesis =>
      obtain ⟨_, _, contract⟩ := runs.contract inductionHypothesis
      exact contract.wellFormed

end Conn
end Gorums
