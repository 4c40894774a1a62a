import Gorums.Quorum.Threshold
import Gorums.Pool.Ledger
import Mathlib.Data.List.Rotate
import Mathlib.Tactic.Linarith

/-!
# Quorum calls

A non-streaming quorum call: the fan-out to the nodes of a configuration, the
channels of the nodes, which deliver at most one response for each request, and
the caller's goroutine in `Threshold`.  The response channel has room for one
response of each node.
-/

namespace Gorums
namespace Quorum

open Gorums.Stream

variable {α : Type}

/-- What becomes of the request for one node when request transforms are
registered. -/
inductive Prepared
  /-- The transformed request is not valid. -/
  | skip
  /-- The transformed request cannot be marshaled. -/
  | fail (err : Err)
  /-- The request becomes a message. -/
  | message

/-- A quorum call. -/
structure CallContext where
  /-- The nodes of the configuration. -/
  config : List ID
  /-- The result of the request transforms, if any are registered. -/
  transforms : Option (ID → Prepared)
  /-- The error of marshaling the request once for all nodes. -/
  marshalErr : Option Err := none
  /-- The index of the node at which the fan-out starts. -/
  first : Nat := 0

/-- Operations of the goroutines that take part in a quorum call. -/
inductive CallOp
  /-- `reportNodeError`. -/
  | report (node : ID) (err : Err)
  /-- `enqueue`. -/
  | enqueue (node : ID)
  /-- The node's channel delivers its response. -/
  | deliver (node : ID)
  /-- The loop of the response sequence, for so many more responses. -/
  | iterate (remaining : Nat)

/-- What the scheduler and the nodes decide in one step. -/
inductive CallChoice
  | go
  | done
  | response (value : Option Message) (err : Option Err)

/-- The state of a quorum call. -/
structure CallState (α : Type) where
  /-- Whether the context has ended. -/
  ended : Bool := false
  /-- The responses in the response channel. -/
  responseChan : List Response := []
  /-- The responses that the sequence has yielded. -/
  yielded : List (NodeResponse α) := []
  /-- The variables of the loop of `Threshold`. -/
  loop : Loop α := {}
  /-- What `Threshold` returned. -/
  result : Option (Result α) := none

/-- `sendShared`: one message for all nodes, from a starting node on. -/
def sendShared (call : CallContext) : List CallOp :=
  match call.marshalErr with
  | some err => call.config.map fun node => .report node err
  | none => (call.config.rotate call.first).map .enqueue

/-- `transformAndMarshal` for one node, and what is done with its result. -/
def transformAndMarshal (transforms : ID → Prepared) (node : ID) : CallOp :=
  match transforms node with
  | .skip => .report node errSkipNode
  | .fail err => .report node err
  | .message => .enqueue node

/-- `sendWithPerNodeTransformation`. -/
def sendWithPerNodeTransformation (call : CallContext)
    (transforms : ID → Prepared) : List CallOp :=
  call.config.map (transformAndMarshal transforms)

/-- `send`. -/
def send (call : CallContext) : List CallOp :=
  match call.transforms with
  | none => sendShared call
  | some transforms => sendWithPerNodeTransformation call transforms

/-- How replies of a call become values of its response type. -/
structure Decoder (α : Type) where
  /-- Unmarshal a reply; `none` is a value of another type. -/
  unmarshalResponse : Option Message → Except Err (Option α)
  /-- The zero value. -/
  zero : α

/-- `mapToCallResponse`. -/
def mapToCallResponse (decoder : Decoder α) (resp : Response) :
    NodeResponse α :=
  match resp.err with
  | some err => ⟨resp.nodeID, decoder.zero, some err⟩
  | none =>
      match decoder.unmarshalResponse resp.value with
      | .ok (some value) => ⟨resp.nodeID, value, none⟩
      | .ok none => ⟨resp.nodeID, decoder.zero, some errTypeMismatch⟩
      | .error err => ⟨resp.nodeID, decoder.zero, some err⟩

@[simp] theorem nodeID_mapToCallResponse (decoder : Decoder α)
    (resp : Response) :
    (mapToCallResponse decoder resp).nodeID = resp.nodeID := by
  unfold mapToCallResponse
  split
  · simp
  · split <;> simp

/-- Send on a channel, if it has room. -/
def sendOn (capacity : Nat) (chan : List Response) (resp : Response) :
    Option (List Response) :=
  if chan.length < capacity then some (chan ++ [resp]) else none

/-- A send that does not block puts the response at the end of the channel. -/
theorem eq_of_sendOn {capacity : Nat} {chan : List Response} {resp : Response}
    {change : List Response → β} {after : β}
    (sent : (sendOn capacity chan resp).map change = some after) :
    after = change (chan ++ [resp]) := by
  unfold sendOn at sent
  split at sent
  · exact (Option.some.inj sent).symm
  · cases sent

/-- Send on the response channel, if it has room. -/
def CallState.push (state : CallState α) (capacity : Nat) (resp : Response) :
    Option (CallState α) :=
  (sendOn capacity state.responseChan resp).map fun chan =>
    { state with responseChan := chan }

/-- Yield a response to the loop of `Threshold`. -/
def CallState.yield (state : CallState α) (threshold : Nat)
    (result : NodeResponse α) (remaining : Nat) :
    Pool.Outcome (CallState α) CallOp :=
  if state.loop.reaches threshold result then
    ⟨{ state with
        yielded := state.yielded ++ [result]
        loop := state.loop.next result
        result := some (state.loop.next result).reached }, [], []⟩
  else
    ⟨{ state with
        yielded := state.yielded ++ [result]
        loop := state.loop.next result }, [.iterate remaining], []⟩

/-- The response sequence ends. -/
def CallState.finish (state : CallState α) : CallState α :=
  { state with result := some state.loop.incomplete }

/-- Receive the next response from the response channel. -/
def CallState.receive (state : CallState α) (decoder : Decoder α)
    (threshold remaining : Nat) :
    Option (Pool.Outcome (CallState α) CallOp) :=
  match state.responseChan with
  | [] => none
  | resp :: rest =>
      some (({ state with responseChan := rest }).yield threshold
        (mapToCallResponse decoder resp) remaining)

/-- Execute one operation of a quorum call with a threshold. -/
def CallContext.exec (call : CallContext) (decoder : Decoder α)
    (threshold : Nat) (state : CallState α) :
    CallOp → CallChoice → Option (Pool.Outcome (CallState α) CallOp)
  | .report node err, .go =>
      (state.push call.config.length (errorResponse node err)).map
        fun state => ⟨state, [], []⟩
  | .enqueue node, .go => some ⟨state, [], [[.deliver node]]⟩
  | .deliver node, .response value err =>
      (state.push call.config.length ⟨node, value, err⟩).map
        fun state => ⟨state, [], []⟩
  | .iterate 0, .go => some ⟨state.finish, [], []⟩
  | .iterate (remaining + 1), .go => state.receive decoder threshold remaining
  | .iterate (_ + 1), .done =>
      if state.ended then some ⟨state.finish, [], []⟩ else none
  | _, _ => none

/-- The machine of a quorum call; the environment ends its context. -/
def CallContext.machine (call : CallContext) (decoder : Decoder α)
    (threshold : Nat) : Pool.Machine (CallState α) CallOp CallChoice Unit where
  exec := call.exec decoder threshold
  env state _ := some { state with ended := true }

/-- A call that is about to send. -/
def CallContext.start (call : CallContext) : Pool.State (CallState α) CallOp where
  shared := {}
  threads := [send call ++ [.iterate call.config.length]]

/-- The states that a quorum call with a threshold reaches. -/
def CallContext.Reaches (call : CallContext) (decoder : Decoder α)
    (threshold : Nat) (state : Pool.State (CallState α) CallOp) : Prop :=
  (call.machine decoder threshold).Reach (fun _ _ => True) call.start state

/-! ## Every node is accounted for -/

/-- The node to whose response an operation leads. -/
def CallOp.node : CallOp → List ID
  | .report node _ => [node]
  | .enqueue node => [node]
  | .deliver node => [node]
  | .iterate _ => []

/-- The ledger of a node's response: it is still to come, in the response
channel, or yielded. -/
def account (node : ID) : Pool.Ledger (CallState α) CallOp where
  credit state :=
    (state.responseChan.map NodeResponse.nodeID).count node +
      (state.yielded.map NodeResponse.nodeID).count node
  weight op := op.node.count node

/-- The ledger of all responses. -/
def load : Pool.Ledger (CallState α) CallOp where
  credit state := state.responseChan.length + state.yielded.length
  weight op := op.node.length

/-- The ledger of the caller, which is in the loop or has returned. -/
def caller : Pool.Ledger (CallState α) CallOp where
  credit state := if state.result.isSome then 1 else 0
  weight
    | .iterate _ => 1
    | _ => 0

/-- What a step of a quorum call can do. -/
inductive CallStep (threshold : Nat) (state : CallState α)
    (op : CallOp) (outcome : Pool.Outcome (CallState α) CallOp) : Prop
  | pushed (resp : Response) (running : op.node = [resp.nodeID])
      (sending : ∀ remaining, op ≠ .iterate remaining)
      (equal : outcome =
        ⟨{ state with responseChan := state.responseChan ++ [resp] }, [], []⟩)
  | enqueued (node : ID) (running : op = .enqueue node)
      (equal : outcome = ⟨state, [], [[.deliver node]]⟩)
  | finished (remaining : Nat) (running : op = .iterate remaining)
      (equal : outcome = ⟨state.finish, [], []⟩)
  | reached (remaining : Nat) (resp : Response) (rest : List Response)
      (result : NodeResponse α) (running : op = .iterate remaining)
      (chan : state.responseChan = resp :: rest)
      (same : result.nodeID = resp.nodeID)
      (enough : state.loop.reaches threshold result = true)
      (equal : outcome =
        ⟨{ state with
            responseChan := rest
            yielded := state.yielded ++ [result]
            loop := state.loop.next result
            result := some (state.loop.next result).reached }, [], []⟩)
  | counted (remaining : Nat) (resp : Response) (rest : List Response)
      (result : NodeResponse α) (running : op = .iterate (remaining + 1))
      (chan : state.responseChan = resp :: rest)
      (same : result.nodeID = resp.nodeID)
      (few : ¬ state.loop.reaches threshold result = true)
      (equal : outcome =
        ⟨{ state with
            responseChan := rest
            yielded := state.yielded ++ [result]
            loop := state.loop.next result }, [.iterate remaining], []⟩)

section Steps

open Pool

variable {call : CallContext} {decoder : Decoder α} {threshold : Nat}
  {state : CallState α} {op : CallOp} {choice : CallChoice}
  {outcome : Outcome (CallState α) CallOp}

/-- Every operation of a quorum call does one of these things. -/
theorem call_exec
    (executed : call.exec decoder threshold state op choice = some outcome) :
    CallStep threshold state op outcome := by
  cases op <;> cases choice
  case report.go node err =>
    rw [CallContext.exec, CallState.push, Option.map_map] at executed
    exact .pushed (errorResponse node err) rfl (by simp) (eq_of_sendOn executed)
  case enqueue.go node =>
    exact .enqueued node rfl (Option.some.inj executed).symm
  case deliver.response node value err =>
    rw [CallContext.exec, CallState.push, Option.map_map] at executed
    exact .pushed ⟨node, value, err⟩ rfl (by simp) (eq_of_sendOn executed)
  case iterate.go remaining =>
    cases remaining with
    | zero => exact .finished 0 rfl (Option.some.inj executed).symm
    | succ remaining =>
        simp only [CallContext.exec, CallState.receive] at executed
        split at executed
        · cases executed
        · rename_i resp rest chan
          have equal := (Option.some.inj executed).symm
          unfold CallState.yield at equal
          split at equal
          · exact .reached _ resp rest _ rfl chan
              (nodeID_mapToCallResponse decoder resp) ‹_› equal
          · exact .counted remaining resp rest _ rfl chan
              (nodeID_mapToCallResponse decoder resp) ‹_› equal
  case iterate.done remaining =>
    cases remaining with
    | zero => cases executed
    | succ remaining =>
        simp only [CallContext.exec] at executed
        split at executed
        · exact .finished _ rfl (Option.some.inj executed).symm
        · cases executed
  all_goals simp [CallContext.exec] at executed

theorem account_keeps (node : ID)
    (executed : call.exec decoder threshold state op choice = some outcome) :
    (account node).Keeps state op outcome := by
  unfold Ledger.Keeps Ledger.worth
  cases call_exec executed with
  | pushed resp running sending equal =>
      subst equal
      simp [account, running]
      omega
  | enqueued sent running equal =>
      subst running equal
      simp [account, CallOp.node]
  | finished remaining running equal =>
      subst running equal
      simp [account, CallOp.node, CallState.finish]
  | reached remaining resp rest result running chan same enough equal =>
      subst running equal
      simp [account, CallOp.node, chan, same, List.count_cons]
      omega
  | counted remaining resp rest result running chan same few equal =>
      subst running equal
      simp [account, CallOp.node, chan, same, List.count_cons]
      omega

theorem load_keeps
    (executed : call.exec decoder threshold state op choice = some outcome) :
    load.Keeps state op outcome := by
  unfold Ledger.Keeps Ledger.worth
  cases call_exec executed with
  | pushed resp running sending equal =>
      subst equal
      simp [load, running]
      omega
  | enqueued sent running equal =>
      subst running equal
      simp [load, CallOp.node]
  | finished remaining running equal =>
      subst running equal
      simp [load, CallOp.node, CallState.finish]
  | reached remaining resp rest result running chan same enough equal =>
      subst running equal
      simp [load, CallOp.node, chan]
      omega
  | counted remaining resp rest result running chan same few equal =>
      subst running equal
      simp [load, CallOp.node, chan]
      omega

/-- The caller returns once; an operation may use that it has not yet. -/
theorem caller_keeps
    (executed : call.exec decoder threshold state op choice = some outcome)
    (once : caller.credit state + (caller (α := α)).weight op ≤ 1) :
    caller.Keeps state op outcome := by
  unfold Ledger.Keeps Ledger.worth
  cases call_exec executed with
  | pushed resp running sending equal =>
      subst equal
      cases op <;> simp_all [caller]
  | enqueued sent running equal =>
      subst running equal
      simp [caller]
  | finished remaining running equal =>
      subst running equal
      cases returned : state.result <;> simp_all [caller, CallState.finish]
  | reached remaining resp rest result running chan same enough equal =>
      subst running equal
      cases returned : state.result <;> simp_all [caller]
  | counted remaining resp rest result running chan same few equal =>
      subst running equal
      simp [caller]

end Steps

/-! ## Balances -/

theorem weigh_account (node : ID) (ops : List CallOp) :
    (account (α := α) node).weigh ops =
      (ops.flatMap CallOp.node).count node := by
  induction ops with
  | nil => rfl
  | cons op ops inductionHypothesis =>
      rw [Pool.Ledger.weigh_cons, inductionHypothesis, List.flatMap_cons,
        List.count_append]
      rfl

theorem weigh_load (ops : List CallOp) :
    (load (α := α)).weigh ops = (ops.flatMap CallOp.node).length := by
  induction ops with
  | nil => rfl
  | cons op ops inductionHypothesis =>
      rw [Pool.Ledger.weigh_cons, inductionHypothesis, List.flatMap_cons,
        List.length_append]
      rfl

/-- The fan-out asks every node of the configuration once. -/
theorem flatMap_node_send (call : CallContext) :
    ((send call).flatMap CallOp.node).Perm call.config := by
  have each : ∀ (nodes : List ID) (ask : ID → CallOp),
      (∀ node, (ask node).node = [node]) →
      (nodes.map ask).flatMap CallOp.node = nodes := by
    intro nodes ask asks
    induction nodes with
    | nil => rfl
    | cons node nodes inductionHypothesis => simp [asks, inductionHypothesis]
  unfold send
  split
  · unfold sendShared
    split
    · rw [each _ _ fun node => rfl]
    · rw [each _ _ fun node => rfl]
      exact List.rotate_perm _ _
  · rename_i transforms _
    unfold sendWithPerNodeTransformation
    rw [each]
    intro node
    unfold transformAndMarshal
    split <;> rfl

theorem light_send (call : CallContext) :
    (caller (α := α)).weigh (send call) = 0 := by
  apply Pool.Ledger.weigh_eq_zero
  intro op member
  unfold send sendShared sendWithPerNodeTransformation at member
  split at member
  · split at member <;> obtain ⟨node, _, equal⟩ := List.mem_map.mp member <;>
      rw [← equal] <;> rfl
  · obtain ⟨node, _, equal⟩ := List.mem_map.mp member
    rw [← equal]
    unfold transformAndMarshal
    split <;> rfl

section Balances

variable {call : CallContext} {decoder : Decoder α} {threshold : Nat}
  {state : Pool.State (CallState α) CallOp}

/-- The environment only ends the context. -/
theorem env_eq {shared shared' : CallState α} {event : Unit}
    (acted : (call.machine decoder threshold).env shared event = some shared') :
    shared' = { shared with ended := true } :=
  (Option.some.inj acted).symm

theorem account_reached (node : ID)
    (reached : call.Reaches decoder threshold state) :
    (account node).credit state.shared +
        (state.ops.flatMap CallOp.node).count node =
      call.config.count node := by
  have balance := Pool.Ledger.balanced (account (α := α) node)
    (fun shared op choice outcome executed _ => account_keeps node executed)
    (fun shared event shared' acted => by rw [env_eq acted]; simp [account])
    reached
  have sent := (flatMap_node_send call).count_eq node
  simp only [weigh_account, CallContext.start, Pool.State.ops,
    List.flatten_singleton, List.flatMap_append, List.count_append] at balance
  simpa [account, CallOp.node, sent, Pool.State.ops] using balance

theorem load_reached (reached : call.Reaches decoder threshold state) :
    state.shared.responseChan.length + state.shared.yielded.length +
        (state.ops.flatMap CallOp.node).length =
      call.config.length := by
  have balance := Pool.Ledger.balanced (load (α := α))
    (fun shared op choice outcome executed _ => load_keeps executed)
    (fun shared event shared' acted => by rw [env_eq acted]; simp [load])
    reached
  have sent := (flatMap_node_send call).length_eq
  simp only [weigh_load, CallContext.start, Pool.State.ops,
    List.flatten_singleton, List.flatMap_append, List.length_append] at balance
  simpa [load, CallOp.node, sent, Pool.State.ops] using balance

theorem caller_reached (reached : call.Reaches decoder threshold state) :
    caller.credit state.shared + (caller (α := α)).weigh state.ops = 1 := by
  have alone : caller.credit (call.start (α := α)).shared +
      (caller (α := α)).weigh (call.start (α := α)).ops = 1 := by
    simp only [CallContext.start, Pool.State.ops, List.flatten_singleton,
      Pool.Ledger.weigh_append, light_send]
    simp [caller]
  have balance := Pool.Ledger.balanced (caller (α := α))
    (fun shared op choice outcome executed within =>
      caller_keeps executed (by
        rw [alone] at within
        simpa [caller] using within))
    (fun shared event shared' acted => by rw [env_eq acted]; simp [caller])
    reached
  rw [alone] at balance
  simpa [caller] using balance

/-- A node that is still to respond leaves room in the response channel. -/
theorem room_of_pending (reached : call.Reaches decoder threshold state)
    {op : CallOp} (pending : op ∈ state.ops) (sends : op.node ≠ []) :
    state.shared.responseChan.length < call.config.length := by
  have total := load_reached reached
  have some : 0 < (state.ops.flatMap CallOp.node).length := by
    apply List.length_pos_of_ne_nil
    intro none
    exact sends (List.flatMap_eq_nil_iff.mp none op pending)
  omega

theorem nodup_yielded (distinct : call.config.Nodup)
    (reached : call.Reaches decoder threshold state) :
    (state.shared.yielded.map NodeResponse.nodeID).Nodup := by
  apply List.nodup_iff_count_le_one.mpr
  intro node
  have balance := account_reached node reached
  have once := List.nodup_iff_count_le_one.mp distinct node
  simp only [account] at balance
  omega

/-- Only nodes of the configuration respond. -/
theorem responders_subset (reached : call.Reaches decoder threshold state) :
    responders state.shared.yielded ⊆ call.config.toFinset := by
  intro node member
  have yielded : node ∈ state.shared.yielded.map NodeResponse.nodeID := by
    obtain ⟨success, successful, equal⟩ :=
      List.mem_map.mp (List.mem_toFinset.mp member)
    exact List.mem_map.mpr ⟨success, List.mem_of_mem_filter successful, equal⟩
  have balance := account_reached node reached
  have counted := List.count_pos_iff.mpr yielded
  simp only [account] at balance
  exact List.mem_toFinset.mpr (List.count_pos_iff.mp (by omega))

/-- `Threshold` has not returned while its loop runs. -/
theorem result_of_iterate (reached : call.Reaches decoder threshold state)
    {remaining : Nat} (pending : CallOp.iterate remaining ∈ state.ops) :
    state.shared.result = none := by
  have balance := caller_reached reached
  have heavy : (caller (α := α)).weight (.iterate remaining) ≤
      (caller (α := α)).weigh state.ops := Pool.Ledger.weight_le_weigh pending
  cases returned : state.shared.result with
  | none => rfl
  | some result =>
      simp only [caller, returned, Option.isSome_some, if_true] at balance heavy
      omega

end Balances

/-! ## The caller -/

/-- The first goroutine is that of the caller: it sends, and then asks for the
responses that were not yielded yet, until `Threshold` has returned. -/
structure Calling (call : CallContext)
    (state : Pool.State (CallState α) CallOp) : Prop where
  /-- The loop comes after what is left to send. -/
  loop : state.shared.result = none → ∃ sends remaining,
    state.threads[0]? = some (sends ++ [.iterate remaining]) ∧
      (∀ op ∈ sends, op.node ≠ []) ∧
      remaining + state.shared.yielded.length = call.config.length
  /-- The other goroutines deliver responses. -/
  others : ∀ thread ∈ state.threads.tail, ∀ op ∈ thread, op.node ≠ []

section Caller

open Pool

variable {call : CallContext} {decoder : Decoder α} {threshold : Nat}
  {state : Pool.State (CallState α) CallOp}

theorem node_ne_nil_of_mem_send {op : CallOp} (sent : op ∈ send call) :
    op.node ≠ [] := by
  intro none
  have light : (caller (α := Unit)).weight op ≤ _ :=
    Ledger.weight_le_weigh sent
  rw [light_send] at light
  cases op <;> simp_all [CallOp.node, caller]

section Steps

variable {shared : CallState α} {op : CallOp} {choice : CallChoice}
  {outcome : Outcome (CallState α) CallOp}

/-- Only goroutines that deliver responses are started. -/
theorem node_ne_nil_of_spawned
    (executed : call.exec decoder threshold shared op choice = some outcome) :
    ∀ thread ∈ outcome.spawned, ∀ op ∈ thread, op.node ≠ [] := by
  cases call_exec executed with
  | enqueued node running equal => simp [equal, CallOp.node]
  | pushed _ _ _ equal => simp [equal]
  | finished _ _ equal => simp [equal]
  | reached _ _ _ _ _ _ _ _ equal => simp [equal]
  | counted _ _ _ _ _ _ _ _ equal => simp [equal]

/-- An operation outside the loop yields nothing. -/
theorem sending_exec
    (executed : call.exec decoder threshold shared op choice = some outcome)
    (sends : op.node ≠ []) :
    outcome.shared.result = shared.result ∧
      outcome.shared.yielded = shared.yielded ∧ outcome.next = [] := by
  cases call_exec executed with
  | pushed _ _ _ equal => exact equal ▸ ⟨rfl, rfl, rfl⟩
  | enqueued _ _ equal => exact equal ▸ ⟨rfl, rfl, rfl⟩
  | finished _ running => exact absurd (running ▸ rfl) sends
  | reached _ _ _ _ running => exact absurd (running ▸ rfl) sends
  | counted _ _ _ _ running => exact absurd (running ▸ rfl) sends

/-- A return is final. -/
theorem unreturned_of_exec
    (executed : call.exec decoder threshold shared op choice = some outcome)
    (unreturned : outcome.shared.result = none) : shared.result = none := by
  cases call_exec executed with
  | pushed _ _ _ equal => subst equal; exact unreturned
  | enqueued _ _ equal => subst equal; exact unreturned
  | finished _ _ equal => subst equal; cases unreturned
  | reached _ _ _ _ _ _ _ _ equal => subst equal; cases unreturned
  | counted _ _ _ _ _ _ _ _ equal => subst equal; exact unreturned

/-- The loop returns, or it has yielded one more response of the buffer. -/
theorem iterate_exec {remaining : Nat}
    (executed : call.exec decoder threshold shared (.iterate remaining) choice =
      some outcome)
    (unreturned : outcome.shared.result = none) :
    shared.responseChan ≠ [] ∧
      ∃ left, remaining = left + 1 ∧ outcome.next = [.iterate left] ∧
        outcome.shared.yielded.length = shared.yielded.length + 1 := by
  cases call_exec executed with
  | pushed _ running => cases running
  | enqueued _ running => cases running
  | finished _ _ equal => subst equal; cases unreturned
  | reached _ _ _ _ _ _ _ _ equal => subst equal; cases unreturned
  | counted left resp rest result running chan same few equal =>
      cases running
      subst equal
      exact ⟨by rw [chan]; exact List.cons_ne_nil _ _, left, rfl, rfl, by simp⟩

/-- The caller goes on with what is left of its goroutine. -/
theorem calling_exec {rest sends : List CallOp} {remaining : Nat}
    (executed : call.exec decoder threshold shared op choice = some outcome)
    (thread : op :: rest = sends ++ [.iterate remaining])
    (sending : ∀ op ∈ sends, op.node ≠ [])
    (left : remaining + shared.yielded.length = call.config.length)
    (unreturned : outcome.shared.result = none) :
    ∃ sends remaining,
      some (outcome.next ++ rest) = some (sends ++ [CallOp.iterate remaining]) ∧
      (∀ op ∈ sends, op.node ≠ []) ∧
      remaining + outcome.shared.yielded.length = call.config.length := by
  cases sends with
  | nil =>
      obtain ⟨rfl, rfl⟩ := List.cons.inj thread
      obtain ⟨_, fewer, rfl, continued, yielded⟩ := iterate_exec executed unreturned
      refine ⟨[], fewer, by rw [continued]; rfl, by simp, ?_⟩
      omega
  | cons first sends =>
      obtain ⟨rfl, rfl⟩ := List.cons.inj thread
      obtain ⟨_, yielded, continued⟩ :=
        sending_exec executed (sending op List.mem_cons_self)
      rw [continued, yielded]
      exact ⟨sends, remaining, rfl,
        fun op member => sending op (List.mem_cons_of_mem _ member), left⟩

end Steps

theorem calling_reached (reached : call.Reaches decoder threshold state) :
    Calling call state := by
  refine reached.invariant (fun state => Calling call state) ?_ ?_
  · refine ⟨fun _ => ⟨send call, call.config.length, rfl, ?_, rfl⟩, ?_⟩
    · intro op sent
      exact node_ne_nil_of_mem_send sent
    · intro thread member
      cases member
  · intro state label next reached calling _ stepped
    rcases Machine.step_cases stepped with
      ⟨thread, choice, rfl, ⟨runs⟩⟩ | ⟨event, shared, rfl, acted, rfl⟩
    · have pool := runs.threads_eq
      have spawned := node_ne_nil_of_spawned runs.exec_eq
      have others := calling.others
      rw [pool] at others
      cases front : runs.before with
      | nil =>
          rw [front] at pool others
          refine ⟨?_, ?_⟩
          · intro unreturned
            rw [runs.next_shared] at unreturned
            obtain ⟨sends, remaining, thread, sending, left⟩ :=
              calling.loop (unreturned_of_exec runs.exec_eq unreturned)
            rw [pool] at thread
            rw [runs.next_shared, runs.next_threads, front]
            exact calling_exec runs.exec_eq (Option.some.inj thread) sending left
              unreturned
          · rw [runs.next_threads, front]
            intro thread member
            rcases List.mem_append.mp member with old | new
            · exact others thread old
            · exact spawned thread new
      | cons first before =>
          rw [front] at pool others
          have sends : runs.op.node ≠ [] :=
            others (runs.op :: runs.rest) (by simp) runs.op List.mem_cons_self
          obtain ⟨same, yielded, continued⟩ := sending_exec runs.exec_eq sends
          refine ⟨?_, ?_⟩
          · have loop := calling.loop
            rw [pool] at loop
            rw [runs.next_shared, runs.next_threads, front, same, yielded]
            exact loop
          · rw [runs.next_threads, front, continued]
            intro thread member
            simp only [List.cons_append, List.tail_cons, List.nil_append,
              List.mem_append, List.mem_cons] at member others
            rcases member with old | rfl | old | new
            · exact others thread (.inl old)
            · intro op inside
              exact others _ (.inr (.inl rfl)) op (List.mem_cons_of_mem _ inside)
            · exact others thread (.inr (.inr old))
            · exact spawned thread new
    · rw [env_eq acted]
      exact ⟨calling.loop, calling.others⟩

/-- The caller is blocked only while the response channel is empty, the context
has not ended and responses are missing. -/
theorem caller_steps (reached : call.Reaches decoder threshold state)
    (unreturned : state.shared.result = none)
    (ready : state.shared.responseChan ≠ [] ∨ state.shared.ended = true ∨
      state.shared.yielded.length = call.config.length) :
    ∃ choice, ((call.machine decoder threshold).step state
      (.run 0 choice)).isSome := by
  obtain ⟨sends, remaining, thread, sending, left⟩ :=
    (calling_reached reached).loop unreturned
  suffices runs : ∃ choice, (call.exec decoder threshold state.shared
      ((sends ++ [CallOp.iterate remaining]).head (by simp)) choice).isSome by
    obtain ⟨choice, runs⟩ := runs
    refine ⟨choice, ?_⟩
    cases sends <;> simp_all [Machine.step, CallContext.machine]
  cases sends with
  | nil =>
      cases remaining with
      | zero => exact ⟨.go, rfl⟩
      | succ fewer =>
          rcases ready with buffered | ended | all
          · refine ⟨.go, ?_⟩
            obtain ⟨resp, rest, chan⟩ := List.exists_cons_of_ne_nil buffered
            simp [CallContext.exec, CallState.receive, chan]
          · exact ⟨.done, by simp [CallContext.exec, ended]⟩
          · omega
  | cons op sends =>
      have pending : op ∈ state.ops :=
        List.mem_flatten.mpr ⟨_, List.mem_of_getElem? thread, by simp⟩
      have room := room_of_pending reached pending
        (sending op List.mem_cons_self)
      cases op with
      | report node err => exact ⟨.go, by simp [CallContext.exec, CallState.push, sendOn, room]⟩
      | enqueue node => exact ⟨.go, rfl⟩
      | deliver node =>
          exact ⟨.response none none, by simp [CallContext.exec, CallState.push, sendOn, room]⟩
      | iterate remaining => exact absurd rfl (sending _ List.mem_cons_self)

end Caller

/-! ## What `Threshold` returns -/

/-- `Threshold` stopped at the success that reached the threshold. -/
structure Stopped (threshold : Nat) (yielded : List (NodeResponse α))
    (result : Result α) : Prop where
  /-- The last response that was yielded is the success with the number
  `threshold`. -/
  last : ∃ front success, yielded = front ++ [success] ∧ success.err = none ∧
    (successes front).length + 1 = threshold
  /-- The first success is returned. -/
  first : ∃ success, (successes yielded).head? = some success ∧
    result.resp = some success.value
  /-- There is no error. -/
  nil : result.err = none

/-- `Threshold` went through the whole response sequence. -/
structure Exhausted (threshold : Nat) (yielded : List (NodeResponse α))
    (result : Result α) : Prop where
  /-- There were too few successes. -/
  few : (successes yielded).length < threshold
  /-- The error holds the errors of the nodes. -/
  err : result.err = some ⟨errIncomplete, nodeErrors yielded⟩

/-- The loop of `Threshold` has counted what was yielded. -/
structure Counted (threshold : Nat) (state : CallState α) : Prop where
  /-- The loop variables. -/
  loop : state.loop = .after state.yielded
  /-- The loop goes on below the threshold. -/
  running : state.result = none →
    (successes state.yielded).length < threshold
  /-- The return. -/
  returned : ∀ result, state.result = some result →
    Stopped threshold state.yielded result ∨
      Exhausted threshold state.yielded result

section Loop

open Pool

variable {call : CallContext} {decoder : Decoder α} {threshold : Nat}

theorem Loop.reaches_iff {seq : List (NodeResponse α)}
    {result : NodeResponse α} :
    (Loop.after seq).reaches threshold result = true ↔
      result.err = none ∧ threshold ≤ (successes seq).length + 1 := by
  rw [Loop.reaches, Bool.and_eq_true, Option.isNone_iff_eq_none,
    decide_eq_true_iff]
  rfl

theorem stopped_of_reaches {seq : List (NodeResponse α)}
    {result : NodeResponse α} (below : (successes seq).length < threshold)
    (enough : (Loop.after seq).reaches threshold result = true) :
    Stopped threshold (seq ++ [result])
      (Loop.after (seq ++ [result])).reached := by
  obtain ⟨succeeded, reaches⟩ := Loop.reaches_iff.mp enough
  refine ⟨⟨seq, result, rfl, succeeded, by omega⟩, ?_, rfl⟩
  have nonempty : (successes (seq ++ [result])).length ≠ 0 := by
    rw [length_successes_concat succeeded]
    omega
  cases successful : successes (seq ++ [result]) with
  | nil => simp [successful] at nonempty
  | cons first rest => exact ⟨first, rfl, by simp [Loop.reached, Loop.after,
      successful]⟩

theorem below_of_not_reaches {seq : List (NodeResponse α)}
    {result : NodeResponse α} (below : (successes seq).length < threshold)
    (few : ¬ (Loop.after seq).reaches threshold result = true) :
    (successes (seq ++ [result])).length < threshold := by
  cases error : result.err with
  | none =>
      rw [length_successes_concat error]
      rw [Loop.reaches_iff] at few
      have short : ¬ threshold ≤ (successes seq).length + 1 :=
        fun reaches => few ⟨error, reaches⟩
      omega
  | some err =>
      rw [successes_append, List.length_append]
      simpa [successes, error] using below

theorem counted_exec {state : CallState α} {op : CallOp} {choice : CallChoice}
    {outcome : Outcome (CallState α) CallOp}
    (executed : call.exec decoder threshold state op choice = some outcome)
    (running : ∀ remaining, op = .iterate remaining → state.result = none)
    (counted : Counted threshold state) :
    Counted threshold outcome.shared := by
  cases call_exec executed with
  | pushed resp asks sending equal =>
      subst equal
      exact ⟨counted.loop, counted.running, counted.returned⟩
  | enqueued node ran equal =>
      subst equal
      exact counted
  | finished remaining ran equal =>
      subst equal
      refine ⟨counted.loop, fun going => (by cases going), ?_⟩
      intro result returned
      have few := counted.running (running remaining ran)
      refine .inr ⟨few, ?_⟩
      rw [← Option.some.inj returned, counted.loop]
      rfl
  | reached remaining resp rest result ran chan same enough equal =>
      subst equal
      have below := counted.running (running remaining ran)
      rw [counted.loop] at enough
      refine ⟨?_, fun going => (by cases going), ?_⟩
      · simp only [counted.loop, Loop.next_after]
      · intro returned equal
        rw [← Option.some.inj equal, counted.loop, Loop.next_after]
        exact .inl (stopped_of_reaches below enough)
  | counted remaining resp rest result ran chan same few equal =>
      subst equal
      have going := running _ ran
      rw [counted.loop] at few
      refine ⟨?_, fun _ => below_of_not_reaches (counted.running going) few, ?_⟩
      · simp only [counted.loop, Loop.next_after]
      · intro returned equal
        rw [going] at equal
        cases equal

theorem counted_reached (positive : 1 ≤ threshold)
    {state : Pool.State (CallState α) CallOp}
    (reached : call.Reaches decoder threshold state) :
    Counted threshold state.shared := by
  refine reached.invariant (fun state => Counted threshold state.shared) ?_ ?_
  · refine ⟨rfl, fun _ => positive, ?_⟩
    intro result returned
    cases returned
  · intro state label next reached counted _ stepped
    rcases Machine.step_cases stepped with
      ⟨thread, choice, rfl, ⟨runs⟩⟩ | ⟨event, shared, rfl, acted, rfl⟩
    · rw [runs.next_shared]
      apply counted_exec runs.exec_eq _ counted
      intro remaining equal
      exact result_of_iterate reached (equal ▸ runs.op_mem)
    · rw [env_eq acted]
      exact ⟨counted.loop, counted.running, counted.returned⟩

end Loop

/-! ## Soundness -/

/-- What holds of every state of a quorum call with a threshold. -/
structure Sound (call : CallContext) (decoder : Decoder α) (threshold : Nat)
    (state : Pool.State (CallState α) CallOp) : Prop where
  /-- An error report does not block. -/
  reports : ∀ node err, .report node err ∈ state.ops →
    (call.exec decoder threshold state.shared (.report node err) .go).isSome
  /-- The delivery of a response does not block. -/
  delivers : ∀ node value err, .deliver node ∈ state.ops →
    (call.exec decoder threshold state.shared (.deliver node)
      (.response value err)).isSome
  /-- The responses that are yielded come from distinct nodes. -/
  distinct : (state.shared.yielded.map NodeResponse.nodeID).Nodup
  /-- A nil error is returned for successes of enough nodes, and only then. -/
  nil_iff : ∀ result, state.shared.result = some result →
    (result.err = none ↔ threshold ≤ (responders state.shared.yielded).card)
  /-- A nil error is returned at the last success that is needed. -/
  stopped : ∀ result, state.shared.result = some result →
    result.err = none → Stopped threshold state.shared.yielded result
  /-- There were too few successes until `Threshold` returned. -/
  few : state.shared.result = none →
    (successes state.shared.yielded).length < threshold
  /-- Until then the caller sends, and asks for the responses that were not yielded
  yet. -/
  calling : Calling call state
  /-- It is blocked only while the response channel is empty, the context has not
  ended and responses are missing. -/
  proceeds : state.shared.result = none →
    state.shared.responseChan ≠ [] ∨ state.shared.ended = true ∨
      state.shared.yielded.length = call.config.length →
    ∃ choice, ((call.machine decoder threshold).step state
      (.run 0 choice)).isSome
  /-- A step of its loop that does not return yields a buffered response, and one
  fewer is left to ask for. -/
  advances : ∀ remaining choice outcome,
    call.exec decoder threshold state.shared (.iterate remaining) choice =
      some outcome →
    outcome.shared.result = none →
    state.shared.responseChan ≠ [] ∧
      ∃ left, remaining = left + 1 ∧ outcome.next = [.iterate left] ∧
        outcome.shared.yielded.length = state.shared.yielded.length + 1
  /-- Every other return is that of an incomplete call. -/
  exhausted : ∀ result, state.shared.result = some result →
    result.err ≠ none →
    result.err = some ⟨errIncomplete, nodeErrors state.shared.yielded⟩

section Soundness

variable {call : CallContext} {decoder : Decoder α} {threshold : Nat}
  {state : Pool.State (CallState α) CallOp}

theorem push_isSome {shared : CallState α} {capacity : Nat}
    (room : shared.responseChan.length < capacity) (resp : Response) :
    (shared.push capacity resp).isSome := by
  simp [CallState.push, sendOn, room]

theorem Stopped.enough {yielded : List (NodeResponse α)} {result : Result α}
    (stopped : Stopped threshold yielded result) :
    (successes yielded).length = threshold := by
  obtain ⟨front, success, split, succeeded, count⟩ := stopped.last
  rw [split, length_successes_concat succeeded, count]

theorem sound_reached (distinct : call.config.Nodup) (positive : 1 ≤ threshold)
    (reached : call.Reaches decoder threshold state) :
    Sound call decoder threshold state := by
  have counted := counted_reached positive reached
  have yielded := nodup_yielded distinct reached
  have nodes : (responders state.shared.yielded).card =
      (successes state.shared.yielded).length := by
    apply card_responders_eq_iff.mpr
    refine List.Nodup.sublist ?_ yielded
    exact (List.filter_sublist).map _
  refine ⟨?_, ?_, yielded, ?_, ?_, counted.running, calling_reached reached,
    caller_steps reached, ?_, ?_⟩
  · intro node err pending
    have room := room_of_pending reached pending (by simp [CallOp.node])
    simpa [CallContext.exec] using push_isSome room _
  · intro node value err pending
    have room := room_of_pending reached pending (by simp [CallOp.node])
    simpa [CallContext.exec] using push_isSome room _
  · intro result returned
    rw [nodes]
    rcases counted.returned result returned with stopped | exhausted
    · exact ⟨fun _ => stopped.enough.ge, fun _ => stopped.nil⟩
    · refine ⟨fun nil => ?_, fun enough => ?_⟩
      · rw [exhausted.err] at nil
        cases nil
      · exact absurd exhausted.few (Nat.not_lt.mpr enough)
  · intro result returned nil
    rcases counted.returned result returned with stopped | exhausted
    · exact stopped
    · rw [exhausted.err] at nil
      cases nil
  · intro remaining choice outcome executed unreturned
    exact iterate_exec executed unreturned
  · intro result returned failed
    rcases counted.returned result returned with stopped | exhausted
    · exact absurd stopped.nil failed
    · exact exhausted.err

/-- Two sets of more than half of the nodes have a node in common. -/
theorem majorities_intersect {config : List ID} (distinct : config.Nodup)
    {first second : Finset ID} (inFirst : first ⊆ config.toFinset)
    (inSecond : second ⊆ config.toFinset)
    (firstMajority : config.length / 2 + 1 ≤ first.card)
    (secondMajority : config.length / 2 + 1 ≤ second.card) :
    (first ∩ second).Nonempty := by
  apply Finset.inter_nonempty_of_card_lt_card_add_card inFirst inSecond
  rw [List.toFinset_card_of_nodup distinct]
  omega

/-- Every state of every quorum call on a configuration is sound, and two
`Majority` calls that succeed on the same configuration have a responding node
in common. -/
theorem quorum_soundness {config : List ID} (_nonempty : config ≠ [])
    (distinct : config.Nodup) :
    (∀ (call : CallContext) (decoder : Decoder α) (threshold : Nat)
        (state : Pool.State (CallState α) CallOp),
      call.config = config → 1 ≤ threshold →
      call.Reaches decoder threshold state →
      Sound call decoder threshold state) ∧
    ∀ (first second : CallContext)
      (firstDecoder secondDecoder : Decoder α)
      (firstState secondState : Pool.State (CallState α) CallOp)
      (firstResult secondResult : Result α),
      first.config = config → second.config = config →
      first.Reaches firstDecoder (config.length / 2 + 1) firstState →
      second.Reaches secondDecoder (config.length / 2 + 1) secondState →
      firstState.shared.result = some firstResult →
      secondState.shared.result = some secondResult →
      firstResult.err = none → secondResult.err = none →
      (responders firstState.shared.yielded ∩
        responders secondState.shared.yielded).Nonempty := by
  constructor
  · rintro call decoder threshold state rfl positive reached
    exact sound_reached distinct positive reached
  · intro first second firstDecoder secondDecoder firstState secondState
      firstResult secondResult firstConfig secondConfig firstReached
      secondReached firstReturned secondReturned firstNil secondNil
    have firstSound := sound_reached (firstConfig ▸ distinct)
      (Nat.le_add_left 1 _) firstReached
    have secondSound := sound_reached (secondConfig ▸ distinct)
      (Nat.le_add_left 1 _) secondReached
    apply majorities_intersect distinct
    · exact firstConfig ▸ responders_subset firstReached
    · exact secondConfig ▸ responders_subset secondReached
    · exact (firstSound.nil_iff _ firstReturned).mp firstNil
    · exact (secondSound.nil_iff _ secondReturned).mp secondNil

/-- A call to three nodes. -/
def trio : CallContext where
  config := [1, 2, 3]
  transforms := none

/-- Replies without content. -/
def blank : Decoder Unit where
  unmarshalResponse _ := .ok (some ())
  zero := ()

/-- The nodes 1 and 3 reply, and the caller receives both replies. -/
def answeredRun : List (Pool.Label CallChoice Unit) :=
  [.run 0 .go, .run 0 .go, .run 0 .go,
    .run 3 (.response none none), .run 1 (.response none none),
    .run 0 .go, .run 0 .go]

theorem answeredRun_followed :
    ((trio.machine blank 2).follow (fun _ _ => true) trio.start
      answeredRun).isSome = true := by
  decide

/-- The state after the two replies. -/
def answered : Pool.State (CallState Unit) CallOp :=
  ((trio.machine blank 2).follow (fun _ _ => true) trio.start
    answeredRun).get answeredRun_followed

theorem trio_reaches_answered : trio.Reaches blank 2 answered :=
  Pool.Machine.reach_of_isSome (fun _ _ _ => trivial) answeredRun_followed

theorem quorum_soundness_trio :
    Sound trio blank 2 answered ∧
      (responders answered.shared.yielded ∩
        responders answered.shared.yielded).Nonempty :=
  have sound := @quorum_soundness Unit [1, 2, 3] (by decide) (by decide)
  ⟨sound.1 trio blank 2 answered rfl (by decide) trio_reaches_answered,
    sound.2 trio trio blank blank answered answered ⟨some (), none⟩
      ⟨some (), none⟩ rfl rfl trio_reaches_answered trio_reaches_answered rfl
      rfl rfl rfl⟩

end Soundness

end Quorum
end Gorums
