import Gorums.Conn.OutboundManager

/-!
# Closing the pool

`Close` marks the pool closed and takes the list of its nodes in one critical
section; a node that is registered later is closed by the call that created it.
So every node is closed by one of the two, and the pool does not change after
the critical section.
-/

namespace Gorums
namespace Conn

open Pool

/-- What every state of a pool that started empty satisfies. -/
structure Released (state : Manager) : Prop where
  /-- `Close` closes the nodes of the pool. -/
  closing : ∀ nodes, state.closing = some nodes →
    nodes = state.nodes ∧ state.closed = true
  /-- A `newNode` call that came too late failed and called `close`. -/
  late : ∀ made ∈ state.newNodes, made.late = true →
    made.err ≠ none ∧ made.node ∈ state.calledClose
  /-- A node that was returned is in the pool. -/
  kept : ∀ made ∈ state.newNodes, made.err = none → made.node ∈ state.nodes
  /-- Once `Close` is done, all nodes are closed. -/
  done : state.closeOnce = .done →
    state.closed = true ∧ state.nodes ⊆ state.closedNodes
  /-- `Close` returns when it is done. -/
  returned : state.closeReturned = true → state.closeOnce = .done

/-- What holds while an operation is still to be executed. -/
def Releases (state : Manager) : Op → Prop
  | .newNodeReturn _ _ node late err _ =>
      (late = true → err ≠ none ∧ node ∈ state.calledClose) ∧
        (err = none → node ∈ state.nodes)
  | .closeNodes rest =>
      state.closed = true ∧
        ∀ node ∈ state.nodes, node ∈ state.closedNodes ∨ node ∈ rest
  | .nodeClosed closing rest =>
      state.closed = true ∧
        ∀ node ∈ state.nodes,
          node ∈ state.closedNodes ∨ node = closing ∨ node ∈ rest
  | .closeReturn => state.closeOnce = .done
  | _ => True

section Steps

variable {context : Context} {state shared : Manager} {op : Op}
  {choice : Choice} {outcome : Outcome Manager Op}

theorem Releases.grows (grows : Grows state shared)
    (releases : Releases state op) : Releases shared op := by
  cases op with
  | newNodeReturn call builder node late err rest =>
      obtain ⟨rejected, kept⟩ := releases
      refine ⟨fun isLate => ?_, fun succeeded => grows.nodes (kept succeeded)⟩
      obtain ⟨failed, called⟩ := rejected isLate
      exact ⟨failed, grows.calledClose called⟩
  | closeNodes rest =>
      obtain ⟨closed, all⟩ := releases
      refine ⟨grows.closed closed, fun node member => ?_⟩
      rw [(grows.frozen closed).1] at member
      exact (all node member).imp_left fun done => grows.closedNodes done
  | nodeClosed closing rest =>
      obtain ⟨closed, all⟩ := releases
      refine ⟨grows.closed closed, fun node member => ?_⟩
      rw [(grows.frozen closed).1] at member
      exact (all node member).imp_left fun done => grows.closedNodes done
  | closeReturn => exact grows.done releases
  | _ => trivial

theorem releases_fail (call : Call) (err : Stream.Err) :
    ∀ op ∈ call.fail err, Releases state op := by
  unfold Call.fail
  split <;> simp [Releases]

theorem releases_combine (call : Call) (newNodes : Config) :
    ∀ op ∈ [call.combine newNodes], Releases state op := by
  unfold Call.combine
  split <;> simp [Releases]

/-- What an operation leaves to be executed meets its conditions. -/
theorem releases_exec
    (executed : exec context state op choice = some outcome)
    (releases : Releases state op) (released : Released state) :
    ∀ op ∈ outcome.next, Releases outcome.shared op := by
  have unlocked : state.closed = false → state.closing = none := by
    intro isOpen
    cases taken : state.closing with
    | none => rfl
    | some nodes =>
        rw [(released.closing nodes taken).2] at isOpen
        cases isOpen
  cases exec_step executed with
  | alreadyClosed | identityRefused | unverified | refused | taken
  | withoutCredentials | unconstructed | newNodeFailed =>
      exact releases_fail _ _
  | combined => exact releases_combine _ _
  | nodeClosed node rest => simpa [Releases, or_assoc] using releases
  | _ => simp_all [Releases]

/-- How an operation changes the records of the pool. -/
structure Recorded (state shared : Manager) : Prop where
  /-- `Close` takes the nodes of the pool. -/
  closing : shared.closing = state.closing ∨
    shared.closing = some shared.nodes ∧ shared.closed = true
  /-- A `newNode` call returns. -/
  newNodes : shared.newNodes = state.newNodes ∨
    ∃ made, shared.newNodes = state.newNodes ++ [made] ∧
      (made.late = true → made.err ≠ none ∧ made.node ∈ shared.calledClose) ∧
      (made.err = none → made.node ∈ shared.nodes)
  /-- The once ends when all nodes are closed. -/
  done : shared.closeOnce = .done → state.closeOnce = .done ∨
    shared.closed = true ∧ shared.nodes ⊆ shared.closedNodes
  /-- `Close` returns. -/
  returned : shared.closeReturned = true → state.closeReturned = true ∨
    shared.closeOnce = .done

theorem recorded_exec
    (executed : exec context state op choice = some outcome)
    (releases : Releases state op) : Recorded state outcome.shared := by
  cases exec_step executed with
  | newNodeFailed | newNodeReturned =>
      refine ⟨.inl rfl, .inr ⟨_, rfl, ?_, ?_⟩, .inl, .inl⟩ <;>
        simp_all [Releases]
  | locked | closedAll | closeReturned =>
      constructor <;> simp_all [Releases, List.subset_def]
  | closing => exact ⟨.inl rfl, .inl rfl, fun running => (by cases running), .inl⟩
  | _ => exact ⟨.inl rfl, .inl rfl, .inl, .inl⟩

/-- Every operation keeps the pool released. -/
theorem released_exec
    (executed : exec context state op choice = some outcome)
    (releases : Releases state op) (released : Released state) :
    Released outcome.shared := by
  have grows := grows_exec executed
  have recorded := recorded_exec executed releases
  constructor
  · intro nodes taken
    rcases recorded.closing with same | ⟨now, closed⟩
    · obtain ⟨equal, closed⟩ := released.closing nodes (same ▸ taken)
      exact ⟨equal.trans (grows.frozen closed).1.symm, grows.closed closed⟩
    · rw [now] at taken
      exact ⟨(Option.some.inj taken).symm, closed⟩
  · intro made member isLate
    rcases recorded.newNodes with same | ⟨last, appended, late, _⟩
    · obtain ⟨failed, called⟩ := released.late made (same ▸ member) isLate
      exact ⟨failed, grows.calledClose called⟩
    · rw [appended, List.mem_append, List.mem_singleton] at member
      rcases member with earlier | equal
      · obtain ⟨failed, called⟩ := released.late made earlier isLate
        exact ⟨failed, grows.calledClose called⟩
      · rw [equal] at isLate ⊢
        exact late isLate
  · intro made member succeeded
    rcases recorded.newNodes with same | ⟨last, appended, _, kept⟩
    · exact grows.nodes (released.kept made (same ▸ member) succeeded)
    · rw [appended, List.mem_append, List.mem_singleton] at member
      rcases member with earlier | equal
      · exact grows.nodes (released.kept made earlier succeeded)
      · rw [equal] at succeeded ⊢
        exact kept succeeded
  · intro done
    rcases recorded.done done with before | now
    · obtain ⟨closed, all⟩ := released.done before
      refine ⟨grows.closed closed, ?_⟩
      rw [(grows.frozen closed).1]
      exact List.Subset.trans all grows.closedNodes
    · exact now
  · intro returned
    rcases recorded.returned returned with before | now
    · exact grows.done (released.returned before)
    · exact now

/-- No operation starts a thread. -/
theorem spawned_exec (executed : exec context state op choice = some outcome) :
    outcome.spawned = [] := by
  cases exec_step executed <;> rfl

end Steps

/-! ## Runs -/

/-- The calls that a program makes on a pool. -/
inductive Invocation
  | newConfig (source : NodeSource)
  | extend (source : Option NodeSource)
  | close

/-- The first operation of a call. -/
def Invocation.op : Invocation → Op
  | .newConfig source => .newConfig source
  | .extend source => .extend source
  | .close => .close

/-- A pool on which any number of calls are about to be made. -/
def start (pool : Manager) (calls : List Invocation) : State Manager Op where
  shared := pool
  threads := calls.map fun call => [call.op]

/-- The states that a run reaches if every step is allowed. -/
def Reaches (context : Context) (allowed : State Manager Op → Label Choice Empty → Prop)
    (pool : Manager) (calls : List Invocation) (state : State Manager Op) :
    Prop :=
  (machine context).Reach allowed (start pool calls) state

theorem mem_start_ops {pool : Manager} {calls : List Invocation} {op : Op} :
    op ∈ (start pool calls).ops ↔ ∃ call ∈ calls, op = call.op := by
  simp [start, State.ops]

section Runs

variable {context : Context} {allowed : State Manager Op → Label Choice Empty → Prop}
  {calls : List Invocation} {state later : State Manager Op}

theorem released_reached (reached : Reaches context allowed {} calls state) :
    Released state.shared := by
  refine (reached.annotated Released Releases ?_ ?_ ?_).1
  · refine ⟨⟨?_, ?_, ?_, ?_, ?_⟩, ?_⟩
    · intro nodes taken
      cases taken
    · intro made member
      cases member
    · intro made member
      cases member
    · intro done
      cases done
    · intro returned
      cases returned
    · intro op member
      obtain ⟨call, _, equal⟩ := mem_start_ops.mp member
      rw [equal]
      cases call <;> trivial
  · intro state thread choice next runs _ _ released releases
    have executed : exec context state.shared runs.op choice =
      some runs.outcome := runs.exec_eq
    refine ⟨released_exec executed releases released, ?_, ?_⟩
    · intro op member
      rw [Machine.Runs.fresh, spawned_exec executed] at member
      exact releases_exec executed releases released op (by simpa using member)
    · intro op _ releases
      exact releases.grows (grows_exec executed)
  · intro shared event
    cases event

/-- A closed pool has the same nodes in every later state. -/
theorem frozen_reached (closed : state.shared.closed = true)
    (reached : (machine context).Reach allowed state later) :
    later.shared.nodes = state.shared.nodes ∧
      later.shared.lookup = state.shared.lookup := by
  refine (reached.invariant (fun later => later.shared.closed = true ∧
    later.shared.nodes = state.shared.nodes ∧
      later.shared.lookup = state.shared.lookup) ⟨closed, rfl, rfl⟩ ?_).2
  intro state label next _ ⟨closed, nodes, lookup⟩ _ stepped
  rcases Machine.step_cases stepped with
    ⟨thread, choice, _, ⟨runs⟩⟩ | ⟨event, _⟩
  · have grows : Grows state.shared runs.outcome.shared :=
      grows_exec runs.exec_eq
    rw [runs.next_shared]
    obtain ⟨sameNodes, sameLookup⟩ := grows.frozen closed
    exact ⟨grows.closed closed, sameNodes.trans nodes, sameLookup.trans lookup⟩
  · cases event

/-- No node outlives its pool. -/
theorem no_node_outlives_pool
    (reached : Reaches context (fun _ _ => True) {} calls state) :
    (state.shared.closeReturned = true →
      (∀ node ∈ state.shared.nodes, node ∈ state.shared.closedNodes) ∧
      ∀ later, (machine context).Reach (fun _ _ => True) state later →
        later.shared.nodes = state.shared.nodes ∧
          later.shared.lookup = state.shared.lookup) ∧
    (∀ made ∈ state.shared.newNodes, made.late = true →
      made.err ≠ none ∧ made.node ∈ state.shared.calledClose) ∧
    ∀ made ∈ state.shared.newNodes, made.err = none →
      made.node ∈ state.shared.nodes ∧
        ∀ nodes, state.shared.closing = some nodes → made.node ∈ nodes := by
  have released := released_reached reached
  refine ⟨fun returned => ?_, released.late, fun made member succeeded => ?_⟩
  · obtain ⟨closed, all⟩ := released.done (released.returned returned)
    exact ⟨all, fun later following => frozen_reached closed following⟩
  · have kept := released.kept made member succeeded
    refine ⟨kept, fun nodes taken => ?_⟩
    rw [(released.closing nodes taken).1]
    exact kept

/-- A pool of one node, a call that adds a second one, and `Close`. -/
def lateCalls : List Invocation :=
  [.newConfig (.nodeList ["a:1"]), .extend (some (.nodeList ["b:1"])), .close]

/-- `Close` runs while the second node is created. -/
def lateRun : List (Label Choice Empty) :=
  List.replicate 10 (.run 0 .go) ++
    .run 1 (.config [⟨0, 1, "a:1", .outbound⟩]) ::
    List.replicate 7 (.run 1 .go) ++ List.replicate 6 (.run 2 .go) ++
    List.replicate 5 (.run 1 .go)

theorem lateRun_followed :
    ((machine ⟨.plain, {}⟩).follow (fun _ _ => true) (start {} lateCalls)
      lateRun).isSome = true := by
  decide +kernel

/-- The state after this run. -/
def lateState : State Manager Op :=
  ((machine ⟨.plain, {}⟩).follow (fun _ _ => true) (start {} lateCalls)
    lateRun).get lateRun_followed

theorem no_node_outlives_pool_late :
    (∀ node ∈ lateState.shared.nodes, node ∈ lateState.shared.closedNodes) ∧
      (∃ made ∈ lateState.shared.newNodes, made.late = true ∧
        made.err ≠ none ∧ made.node ∈ lateState.shared.calledClose) ∧
      ∃ made ∈ lateState.shared.newNodes, made.err = none ∧
        made.node ∈ lateState.shared.nodes :=
  have reached : Reaches ⟨.plain, {}⟩ (fun _ _ => True) {} lateCalls
      lateState :=
    Machine.reach_of_isSome (fun _ _ _ => trivial) lateRun_followed
  have safe := no_node_outlives_pool reached
  have lateMade : ⟨⟨1, 2, "b:1", .outbound⟩, true, some errConfigClosed⟩ ∈
      lateState.shared.newNodes := by decide +kernel
  have firstMade : ⟨⟨0, 1, "a:1", .outbound⟩, false, none⟩ ∈
      lateState.shared.newNodes := by decide +kernel
  ⟨(safe.1 (by decide +kernel)).1,
    ⟨_, lateMade, rfl, safe.2.1 _ lateMade rfl⟩,
    ⟨_, firstMade, rfl, (safe.2.2 _ firstMade rfl).1⟩⟩

end Runs

end Conn
end Gorums
