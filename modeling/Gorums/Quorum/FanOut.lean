import Gorums.Quorum.Call
import Mathlib.Data.List.Nodup
import Mathlib.Data.List.Perm.Lattice
import Mathlib.Data.Nat.Bitwise

/-!
# The fan-out of a call

The two ways in which a call sends its request to the nodes of a configuration,
with the messages that they build.  `sendShared` marshals the request once and
shares one message among the ordinary nodes; a node that borrows the stream of
a peer gets a message of its own.  `sendWithPerNodeTransformation` marshals the
request for each node.  Other calls may draw message IDs between any two steps,
and each message may iterate over the metadata in another order.
-/

namespace Gorums
namespace Quorum
namespace FanOut

open Gorums.Stream

/-- A node of a pool. -/
structure Node where
  /-- The node's ID. -/
  id : ID
  /-- Whether the node borrows the stream of a peer. -/
  shared : Bool
  deriving DecidableEq

/-- The client metadata of a context: the values of each key. -/
abbrev Metadata := List (String × List String)

/-- The entries of metadata, in the order of an iteration. -/
def Metadata.entries (order : Metadata) : List MetadataEntry :=
  order.flatMap fun keyed => keyed.2.map fun value => ⟨keyed.1, value⟩

/-- `NewMessageFromPayload`, which iterates over the metadata in some order. -/
def newMessageFromPayload (order : Metadata) (msgID : UInt64) (method : String)
    (payload : List UInt8) : Message :=
  { messageSeqNo := msgID
    method := method
    payload := payload
    entry := order.entries }

/-- How many message IDs have been drawn from each generator. -/
structure Generators where
  /-- The generator of the pool. -/
  pool : Nat := 0
  /-- The generator of the server whose streams are borrowed. -/
  server : Nat := 0

namespace Generators

/-- The ID that the generator of a pool returns at a draw. -/
def poolID (count : Nat) : UInt64 :=
  UInt64.ofNat count

/-- The ID that the generator of a server returns at a draw. -/
def serverID (count : Nat) : UInt64 :=
  serverSequenceNumber (UInt64.ofNat count)

/-- Other calls draw IDs. -/
def advance (generators others : Generators) : Generators :=
  { pool := generators.pool + others.pool
    server := generators.server + others.server }

/-- `NextMsgID` of a node's transport: a shared node draws from the server's
generator. -/
def nextMsgID (generators : Generators) (node : Node) : UInt64 × Generators :=
  if node.shared then
    (serverID (generators.server + 1),
      { generators with server := generators.server + 1 })
  else
    (poolID (generators.pool + 1),
      { generators with pool := generators.pool + 1 })

end Generators

/-- A call with a request of type `ρ`. -/
structure CallContext (ρ : Type) where
  /-- The nodes of the configuration. -/
  config : List Node
  /-- The request. -/
  request : ρ
  /-- The method. -/
  method : String
  /-- The client metadata of the call's context. -/
  metadata : Metadata := []
  /-- Metadata is a map. -/
  keyed : (metadata.map Prod.fst).Nodup := by exact List.nodup_nil
  /-- `proto.Marshal`. -/
  marshal : ρ → Except Err (List UInt8)
  /-- Whether a request is a valid message. -/
  isValid : ρ → Bool
  /-- The request transforms. -/
  reqTransforms : List (ρ → Node → ρ) := []

/-- What happens around the steps of a fan-out. -/
structure Surroundings (metadata : Metadata) where
  /-- The IDs that other calls draw before a step. -/
  draws : Nat → Generators
  /-- The order in which a step iterates over the metadata. -/
  order : Nat → Metadata
  /-- Each iteration visits the metadata once. -/
  visits : ∀ step, (order step).Perm metadata

/-- What a fan-out does. -/
inductive Action
  /-- `enqueue`. -/
  | enqueue (node : Node) (msg : Message)
  /-- `reportNodeError`. -/
  | report (node : ID) (err : Err)

/-- The result of a fan-out. -/
structure Sent where
  /-- What the fan-out did, in order. -/
  actions : List Action := []
  /-- The generators afterwards. -/
  generators : Generators

/-- Put an action before what a fan-out does. -/
def Sent.after (sent : Sent) (action : Action) : Sent :=
  { sent with actions := action :: sent.actions }

/-- The nodes in the order in which `sendShared` visits them. -/
def visited (config : List Node) (start : Nat) : List Node :=
  (List.range config.length).filterMap fun i =>
    config[(start + i) % config.length]?

namespace CallContext

variable {ρ : Type} (call : CallContext ρ)
  (surroundings : Surroundings call.metadata)

/-- The message that step `i` builds. -/
def build (i : Nat) (msgID : UInt64) (payload : List UInt8) : Message :=
  newMessageFromPayload (surroundings.order i) msgID call.method payload

/-- The loop of `sendShared`. -/
def sharedLoop (payload : List UInt8) :
    Nat → List Node → Option Message → Generators → Sent
  | _, [], _, generators => { generators := generators }
  | i, node :: nodes, sharedMsg, generators =>
      let drawn := (generators.advance (surroundings.draws i)).nextMsgID node
      if node.shared then
        (sharedLoop payload (i + 1) nodes sharedMsg drawn.2).after
          (.enqueue node (call.build surroundings i drawn.1 payload))
      else
        match sharedMsg with
        | some msg =>
            (sharedLoop payload (i + 1) nodes (some msg)
              (generators.advance (surroundings.draws i))).after
              (.enqueue node msg)
        | none =>
            let msg := call.build surroundings i drawn.1 payload
            (sharedLoop payload (i + 1) nodes (some msg) drawn.2).after
              (.enqueue node msg)

/-- `sendShared`, from a starting node on. -/
def sendShared (start : Nat) (generators : Generators) : Sent :=
  match call.marshal call.request with
  | .error err =>
      { actions := call.config.map fun node => .report node.id err
        generators := generators }
  | .ok payload =>
      call.sharedLoop surroundings payload 0 (visited call.config start) none
        generators

/-- The request for a node after the request transforms. -/
def transformed (node : Node) : ρ :=
  call.reqTransforms.foldl (fun request transform => transform request node)
    call.request

/-- `transformAndMarshal` in step `i`, and what is done with its result. -/
def transformAndMarshal (i : Nat) (node : Node) (generators : Generators) :
    Action × Generators :=
  if call.isValid (call.transformed node) then
    let drawn := generators.nextMsgID node
    match call.marshal (call.transformed node) with
    | .error err => (.report node.id err, drawn.2)
    | .ok payload =>
        (.enqueue node (call.build surroundings i drawn.1 payload), drawn.2)
  else (.report node.id errSkipNode, generators)

/-- The loop of `sendWithPerNodeTransformation`. -/
def nodeLoop : Nat → List Node → Generators → Sent
  | _, [], generators => { generators := generators }
  | i, node :: nodes, generators =>
      let done := call.transformAndMarshal surroundings i node
        (generators.advance (surroundings.draws i))
      (nodeLoop (i + 1) nodes done.2).after done.1

/-- `sendWithPerNodeTransformation`. -/
def sendWithPerNodeTransformation (generators : Generators) : Sent :=
  call.nodeLoop surroundings 0 call.config generators

end CallContext

/-! ## Message IDs -/

theorem toNat_serverSequenceNumberBitMask :
    serverSequenceNumberBitMask.toNat = 2 ^ 63 := by
  decide

/-- The high bit tells the ID spaces apart. -/
theorem isServerSequenceNumber_eq (seqNo : UInt64) :
    isServerSequenceNumber seqNo = seqNo.toNat.testBit 63 := by
  rw [Bool.eq_iff_iff]
  simp only [isServerSequenceNumber, bne_iff_ne, ne_eq, ← UInt64.toNat_inj,
    UInt64.toNat_and, toNat_serverSequenceNumberBitMask, Nat.and_two_pow]
  cases seqNo.toNat.testBit 63 <;> simp

theorem toNat_serverSequenceNumber {seqNo : UInt64}
    (client : seqNo.toNat < 2 ^ 63) :
    (serverSequenceNumber seqNo).toNat = 2 ^ 63 + seqNo.toNat := by
  have added := Nat.two_pow_add_eq_or_of_lt client 1
  rw [Nat.mul_one] at added
  rw [serverSequenceNumber, UInt64.toNat_or, toNat_serverSequenceNumberBitMask,
    Nat.or_comm, ← added]

namespace Generators

theorem toNat_poolID {count : Nat} (bounded : count < 2 ^ 63) :
    (poolID count).toNat = count := by
  rw [poolID, UInt64.toNat_ofNat', Nat.mod_eq_of_lt]
  exact Nat.lt_trans bounded (by decide)

/-- The IDs of a pool do not have the high bit set. -/
theorem isServerSequenceNumber_poolID {count : Nat} (bounded : count < 2 ^ 63) :
    isServerSequenceNumber (poolID count) = false := by
  rw [isServerSequenceNumber_eq, toNat_poolID bounded]
  exact Nat.testBit_lt_two_pow bounded

theorem poolID_injOn {count other : Nat} (bounded : count < 2 ^ 63)
    (otherBounded : other < 2 ^ 63) (same : poolID count = poolID other) :
    count = other := by
  rw [← toNat_poolID bounded, ← toNat_poolID otherBounded, same]

/-- The IDs of a server have the high bit set. -/
theorem isServerSequenceNumber_serverID (count : Nat) :
    isServerSequenceNumber (serverID count) = true := by
  rw [isServerSequenceNumber_eq, serverID, serverSequenceNumber,
    UInt64.toNat_or, toNat_serverSequenceNumberBitMask, Nat.testBit_or,
    Nat.testBit_two_pow_self, Bool.or_true]

theorem toNat_serverID {count : Nat} (bounded : count < 2 ^ 63) :
    (serverID count).toNat = 2 ^ 63 + count := by
  have number : (UInt64.ofNat count).toNat = count := toNat_poolID bounded
  have client : (UInt64.ofNat count).toNat < 2 ^ 63 := by rwa [number]
  rw [serverID, toNat_serverSequenceNumber client, number]

theorem serverID_injOn {count other : Nat} (bounded : count < 2 ^ 63)
    (otherBounded : other < 2 ^ 63) (same : serverID count = serverID other) :
    count = other := by
  have equal := congrArg UInt64.toNat same
  rw [toNat_serverID bounded, toNat_serverID otherBounded] at equal
  exact Nat.add_left_cancel equal

theorem nextMsgID_of_shared (generators : Generators) {node : Node}
    (shared : node.shared = true) :
    generators.nextMsgID node = (serverID (generators.server + 1),
      { generators with server := generators.server + 1 }) := by
  rw [nextMsgID, if_pos shared]

theorem nextMsgID_of_ordinary (generators : Generators) {node : Node}
    (ordinary : node.shared = false) :
    generators.nextMsgID node = (poolID (generators.pool + 1),
      { generators with pool := generators.pool + 1 }) := by
  rw [nextMsgID, if_neg (Bool.not_eq_true _ ▸ ordinary)]

end Generators

/-- IDs that a generator returned at later and later draws. -/
def Ascending (toID : Nat → UInt64) (low high : Nat) : List UInt64 → Prop
  | [] => low ≤ high
  | msgID :: msgIDs =>
      ∃ count, low < count ∧ msgID = toID count ∧
        Ascending toID count high msgIDs

namespace Ascending

variable {toID : Nat → UInt64} {low high : Nat} {msgIDs : List UInt64}

theorem weaken {lower : Nat} (below : lower ≤ low)
    (ascending : Ascending toID low high msgIDs) :
    Ascending toID lower high msgIDs := by
  cases msgIDs with
  | nil => exact Nat.le_trans below ascending
  | cons msgID msgIDs =>
      obtain ⟨count, above, drawn, later⟩ := ascending
      exact ⟨count, Nat.lt_of_le_of_lt below above, drawn, later⟩

theorem le (ascending : Ascending toID low high msgIDs) : low ≤ high := by
  induction msgIDs generalizing low with
  | nil => exact ascending
  | cons msgID msgIDs inductionHypothesis =>
      obtain ⟨count, above, _, later⟩ := ascending
      exact Nat.le_trans (Nat.le_of_lt above) (inductionHypothesis later)

theorem mem (ascending : Ascending toID low high msgIDs) {msgID : UInt64}
    (member : msgID ∈ msgIDs) :
    ∃ count, low < count ∧ count ≤ high ∧ msgID = toID count := by
  induction msgIDs generalizing low with
  | nil => cases member
  | cons first msgIDs inductionHypothesis =>
      obtain ⟨count, above, drawn, later⟩ := ascending
      rcases List.mem_cons.mp member with rfl | rest
      · exact ⟨count, above, later.le, drawn⟩
      · obtain ⟨other, after, bounded, equal⟩ := inductionHypothesis later rest
        exact ⟨other, Nat.lt_trans above after, bounded, equal⟩

/-- Later draws return other IDs. -/
theorem nodup (ascending : Ascending toID low high msgIDs)
    (injective : ∀ count other, count ≤ high → other ≤ high →
      toID count = toID other → count = other) : msgIDs.Nodup := by
  induction msgIDs generalizing low with
  | nil => exact List.nodup_nil
  | cons msgID msgIDs inductionHypothesis =>
      obtain ⟨count, _, drawn, later⟩ := ascending
      refine List.nodup_cons.mpr ⟨?_, inductionHypothesis later⟩
      intro repeated
      obtain ⟨other, after, bounded, equal⟩ := later.mem repeated
      have same := injective count other later.le bounded (drawn.symm.trans equal)
      exact absurd after (same ▸ Nat.lt_irrefl _)

end Ascending

/-! ## Metadata -/

/-- The values of a key, in order. -/
def valuesOf (entries : List MetadataEntry) (key : String) : List String :=
  (entries.filter fun entry => entry.key == key).map MetadataEntry.value

/-- The values of a key that metadata has. -/
def Metadata.values (md : Metadata) (key : String) : List String :=
  (md.lookup key).getD []

/-- A map has the keyed values that an iteration over it meets. -/
theorem Metadata.lookup_eq_some {md : Metadata} (distinct : (md.map Prod.fst).Nodup)
    {key : String} {values : List String} :
    md.lookup key = some values ↔ (key, values) ∈ md := by
  induction md with
  | nil => simp
  | cons keyed rest inductionHypothesis =>
      obtain ⟨fresh, distinct⟩ := List.nodup_cons.mp distinct
      rw [List.lookup_cons, List.mem_cons]
      by_cases same : key = keyed.1
      · subst same
        have absent : (keyed.1, values) ∉ rest := by
          intro found
          exact fresh (List.mem_map.mpr ⟨_, found, rfl⟩)
        simp [absent, Prod.ext_iff, eq_comm]
      · have : (key == keyed.1) = false := beq_eq_false_iff_ne.mpr same
        rw [this, inductionHypothesis distinct]
        simp [same, Prod.ext_iff]

/-- The values of a key do not depend on the order of an iteration. -/
theorem Metadata.values_perm {md order : Metadata} (iteration : order.Perm md)
    (distinct : (md.map Prod.fst).Nodup) (key : String) :
    order.values key = md.values key := by
  have ordered : (order.map Prod.fst).Nodup :=
    (iteration.map Prod.fst).nodup_iff.mpr distinct
  have same : order.lookup key = md.lookup key := by
    ext values
    rw [lookup_eq_some ordered, lookup_eq_some distinct, iteration.mem_iff]
  rw [values, values, same]

/-- The entries of a key carry the values of the key, in their order. -/
theorem valuesOf_entries {order : Metadata} (distinct : (order.map Prod.fst).Nodup)
    (key : String) : valuesOf order.entries key = order.values key := by
  induction order with
  | nil => rfl
  | cons keyed rest inductionHypothesis =>
      obtain ⟨fresh, distinct⟩ := List.nodup_cons.mp distinct
      have split : valuesOf (Metadata.entries (keyed :: rest)) key =
          valuesOf (keyed.2.map fun value => ⟨keyed.1, value⟩) key ++
            valuesOf (Metadata.entries rest) key := by
        simp [valuesOf, Metadata.entries]
      rw [split, inductionHypothesis distinct, Metadata.values, Metadata.values,
        List.lookup_cons]
      by_cases same : key = keyed.1
      · -- no later entry has the key
        have absent : rest.lookup keyed.1 = none := by
          apply List.lookup_eq_none_iff.mpr
          intro other inside
          apply bne_iff_ne.mpr
          intro equal
          exact fresh (List.mem_map.mpr ⟨other, inside, equal.symm⟩)
        subst same
        simp [absent, valuesOf, List.filter_map, Function.comp_def]
      · simp [beq_eq_false_iff_ne.mpr same, valuesOf, List.filter_map,
          Function.comp_def, Ne.symm same]

/-- The entries carry the same values in every iteration. -/
theorem valuesOf_perm {order metadata : Metadata} (visits : order.Perm metadata)
    (keyed : (metadata.map Prod.fst).Nodup) (key : String) :
    valuesOf order.entries key = metadata.values key := by
  have ordered := (visits.map Prod.fst).nodup_iff.mpr keyed
  rw [valuesOf_entries ordered, Metadata.values_perm visits keyed]

/-! ## What a fan-out sends -/

/-- The message that an action enqueues, with its node. -/
def Action.enqueued : Action → Option (Node × Message)
  | .enqueue node msg => some (node, msg)
  | .report _ _ => none

/-- The error that an action reports, with its node. -/
def Action.reported : Action → Option (ID × Err)
  | .enqueue _ _ => none
  | .report node err => some (node, err)

namespace Sent

/-- The messages that a fan-out enqueues, with their nodes. -/
def enqueued (sent : Sent) : List (Node × Message) :=
  sent.actions.filterMap Action.enqueued

/-- The errors that a fan-out reports, with their nodes. -/
def reported (sent : Sent) : List (ID × Err) :=
  sent.actions.filterMap Action.reported

/-- The IDs of the messages for shared nodes. -/
def sharedIDs (sent : Sent) : List UInt64 :=
  (sent.enqueued.filter fun entry => entry.1.shared).map
    fun entry => entry.2.messageSeqNo

@[simp] theorem enqueued_after (sent : Sent) (node : Node) (msg : Message) :
    (sent.after (.enqueue node msg)).enqueued = (node, msg) :: sent.enqueued :=
  rfl

@[simp] theorem reported_after (sent : Sent) (node : Node) (msg : Message) :
    (sent.after (.enqueue node msg)).reported = sent.reported := rfl

@[simp] theorem generators_after (sent : Sent) (action : Action) :
    (sent.after action).generators = sent.generators := rfl

theorem sharedIDs_after (sent : Sent) (node : Node) (msg : Message) :
    (sent.after (.enqueue node msg)).sharedIDs =
      if node.shared then msg.messageSeqNo :: sent.sharedIDs
      else sent.sharedIDs := by
  unfold sharedIDs
  rw [enqueued_after, List.filter_cons]
  split <;> rfl

end Sent

namespace CallContext

variable {ρ : Type} {call : CallContext ρ}
  {surroundings : Surroundings call.metadata} {payload : List UInt8}

/-- A message carries the call's method, a payload and the metadata of the
call's context. -/
structure Carries (call : CallContext ρ) (payload : List UInt8)
    (msg : Message) : Prop where
  /-- The method of the call. -/
  method : msg.method = call.method
  /-- The marshaled request. -/
  payload : msg.payload = payload
  /-- The metadata, in some order. -/
  entry : ∃ order : Metadata, order.Perm call.metadata ∧
    msg.entry = order.entries

theorem carries_build (i : Nat) (msgID : UInt64) :
    call.Carries payload (call.build surroundings i msgID payload) :=
  ⟨rfl, rfl, _, surroundings.visits i, rfl⟩

/-- A fan-out sends a message with the payload to each of some nodes, with IDs
drawn between two states of the generators. -/
structure Sends (call : CallContext ρ) (payload : List UInt8) (low : Nat)
    (generators : Generators) (nodes : List Node) (sent : Sent) : Prop where
  /-- Every node gets one message, in order. -/
  nodes : sent.enqueued.map Prod.fst = nodes
  /-- Nothing is reported. -/
  unreported : sent.reported = []
  /-- The messages have the same content. -/
  carries : ∀ entry ∈ sent.enqueued, call.Carries payload entry.2
  /-- The IDs of shared nodes are drawn one after the other. -/
  shared : Ascending Generators.serverID generators.server
    sent.generators.server sent.sharedIDs
  /-- The generator of the pool only advances. -/
  advances : generators.pool ≤ sent.generators.pool
  /-- The IDs of ordinary nodes are drawn from the generator of the pool. -/
  ordinary : ∀ entry ∈ sent.enqueued, entry.1.shared = false →
    ∃ count, low < count ∧ count ≤ sent.generators.pool ∧
      entry.2.messageSeqNo = Generators.poolID count

theorem Sends.nil (low : Nat) (generators : Generators) :
    call.Sends payload low generators [] { generators := generators } :=
  ⟨rfl, rfl, List.forall_mem_nil _, Nat.le_refl _, Nat.le_refl _,
    List.forall_mem_nil _⟩

section Cons

variable {low : Nat} {generators : Generators} {node : Node}
  {nodes : List Node} {sent : Sent} {msg : Message}

/-- A message for a shared node, with an ID that has just been drawn. -/
theorem Sends.shared_cons {others : Generators}
    (shared : node.shared = true) (carried : call.Carries payload msg)
    (drawn : msg.messageSeqNo =
      ((generators.advance others).nextMsgID node).1)
    (sends : call.Sends payload low
      ((generators.advance others).nextMsgID node).2 nodes sent) :
    call.Sends payload low generators (node :: nodes)
      (sent.after (.enqueue node msg)) := by
  rw [Generators.nextMsgID_of_shared _ shared] at drawn sends
  refine ⟨?_, sends.unreported, ?_, ?_, ?_, ?_⟩
  · rw [Sent.enqueued_after, List.map_cons, sends.nodes]
  · rw [Sent.enqueued_after]
    exact List.forall_mem_cons.mpr ⟨carried, sends.carries⟩
  · rw [Sent.sharedIDs_after, if_pos shared]
    refine ⟨_, ?_, drawn, sends.shared⟩
    exact Nat.lt_succ_of_le (Nat.le_add_right _ _)
  · exact Nat.le_trans (Nat.le_add_right _ _) sends.advances
  · rw [Sent.enqueued_after]
    refine List.forall_mem_cons.mpr ⟨?_, sends.ordinary⟩
    intro ordinary
    cases shared.symm.trans ordinary

/-- A message for an ordinary node, with an ID that has been drawn. -/
theorem Sends.ordinary_cons (later : Generators)
    (ordinary : node.shared = false) (carried : call.Carries payload msg)
    (number : ∃ count, low < count ∧ count ≤ later.pool ∧
      msg.messageSeqNo = Generators.poolID count)
    (poolLater : generators.pool ≤ later.pool)
    (serverLater : generators.server ≤ later.server)
    (sends : call.Sends payload low later nodes sent) :
    call.Sends payload low generators (node :: nodes)
      (sent.after (.enqueue node msg)) := by
  refine ⟨?_, sends.unreported, ?_, ?_, ?_, ?_⟩
  · rw [Sent.enqueued_after, List.map_cons, sends.nodes]
  · rw [Sent.enqueued_after]
    exact List.forall_mem_cons.mpr ⟨carried, sends.carries⟩
  · rw [Sent.sharedIDs_after, if_neg (by simp [ordinary])]
    exact sends.shared.weaken serverLater
  · exact Nat.le_trans poolLater sends.advances
  · rw [Sent.enqueued_after]
    refine List.forall_mem_cons.mpr ⟨?_, sends.ordinary⟩
    intro _
    obtain ⟨count, above, below, equal⟩ := number
    exact ⟨count, above, Nat.le_trans below sends.advances, equal⟩

end Cons

/-- The loop of `sendShared` sends to the nodes that it is given. -/
theorem sends_sharedLoop {low i : Nat} {nodes : List Node}
    {sharedMsg : Option Message} {generators : Generators}
    (lower : low ≤ generators.pool)
    (built : ∀ msg, sharedMsg = some msg → call.Carries payload msg ∧
      ∃ count, low < count ∧ count ≤ generators.pool ∧
        msg.messageSeqNo = Generators.poolID count) :
    call.Sends payload low generators nodes
      (call.sharedLoop surroundings payload i nodes sharedMsg generators) := by
  induction nodes generalizing i sharedMsg generators with
  | nil => exact Sends.nil low generators
  | cons node nodes inductionHypothesis =>
      have further : generators.pool ≤
          (generators.advance (surroundings.draws i)).pool :=
        Nat.le_add_right _ _
      unfold sharedLoop
      cases shared : node.shared with
      | true =>
          simp only [if_true]
          refine Sends.shared_cons shared (carries_build i _) rfl ?_
          rw [Generators.nextMsgID_of_shared _ shared]
          refine inductionHypothesis (Nat.le_trans lower further) ?_
          intro msg known
          obtain ⟨carried, count, above, below, equal⟩ := built msg known
          exact ⟨carried, count, above, Nat.le_trans below further, equal⟩
      | false =>
          simp only [Bool.false_eq_true, if_false]
          cases sharedMsg with
          | some msg =>
              obtain ⟨carried, count, above, below, equal⟩ := built msg rfl
              have number : ∃ count, low < count ∧
                  count ≤ (generators.advance (surroundings.draws i)).pool ∧
                  msg.messageSeqNo = Generators.poolID count :=
                ⟨count, above, Nat.le_trans below further, equal⟩
              refine Sends.ordinary_cons _ shared carried number further
                (Nat.le_add_right _ _) ?_
              refine inductionHypothesis (Nat.le_trans lower further) ?_
              intro other known
              rw [← Option.some.inj known]
              exact ⟨carried, number⟩
          | none =>
              -- The first ordinary node draws the ID of the shared message.
              rw [Generators.nextMsgID_of_ordinary _ shared]
              have number : ∃ count, low < count ∧
                  count ≤ (generators.advance (surroundings.draws i)).pool + 1 ∧
                  (call.build surroundings i
                    (Generators.poolID
                      ((generators.advance (surroundings.draws i)).pool + 1))
                    payload).messageSeqNo = Generators.poolID count :=
                ⟨_, Nat.lt_succ_of_le (Nat.le_trans lower further),
                  Nat.le_refl _, rfl⟩
              refine Sends.ordinary_cons
                { pool := (generators.advance (surroundings.draws i)).pool + 1
                  server := (generators.advance (surroundings.draws i)).server }
                shared (carries_build i _) number (Nat.le_succ_of_le further)
                (Nat.le_add_right _ _) ?_
              refine inductionHypothesis
                (Nat.le_succ_of_le (Nat.le_trans lower further)) ?_
              intro other known
              rw [← Option.some.inj known]
              exact ⟨carries_build i _, number⟩

/-- With requests that become the same valid message, the loop of
`sendWithPerNodeTransformation` sends to the nodes that it is given. -/
theorem sends_nodeLoop {low i : Nat} {nodes : List Node}
    {generators : Generators}
    (valid : ∀ node ∈ nodes, call.isValid (call.transformed node) = true)
    (marshals : ∀ node ∈ nodes,
      call.marshal (call.transformed node) = .ok payload)
    (lower : low ≤ generators.pool) :
    call.Sends payload low generators nodes
      (call.nodeLoop surroundings i nodes generators) := by
  induction nodes generalizing i generators with
  | nil => exact Sends.nil low generators
  | cons node nodes inductionHypothesis =>
      have further : generators.pool ≤
          (generators.advance (surroundings.draws i)).pool :=
        Nat.le_add_right _ _
      obtain ⟨validFirst, validRest⟩ := List.forall_mem_cons.mp valid
      obtain ⟨marshalsFirst, marshalsRest⟩ := List.forall_mem_cons.mp marshals
      unfold nodeLoop transformAndMarshal
      simp only [validFirst, marshalsFirst, if_true]
      cases shared : node.shared with
      | true =>
          refine Sends.shared_cons shared (carries_build i _) rfl ?_
          refine inductionHypothesis validRest marshalsRest ?_
          rw [Generators.nextMsgID_of_shared _ shared]
          exact Nat.le_trans lower further
      | false =>
          rw [Generators.nextMsgID_of_ordinary _ shared]
          refine Sends.ordinary_cons
            { pool := (generators.advance (surroundings.draws i)).pool + 1
              server := (generators.advance (surroundings.draws i)).server }
            shared (carries_build i _)
            ⟨_, Nat.lt_succ_of_le (Nat.le_trans lower further), Nat.le_refl _,
              rfl⟩
            (Nat.le_succ_of_le further) (Nat.le_add_right _ _) ?_
          exact inductionHypothesis validRest marshalsRest
            (Nat.le_succ_of_le (Nat.le_trans lower further))

/-- Identity transforms leave the request as it is. -/
theorem transformed_of_identity
    (identity : ∀ transform ∈ call.reqTransforms, ∀ request node,
      transform request node = request) (node : Node) :
    call.transformed node = call.request := by
  unfold transformed
  generalize call.reqTransforms = transforms at identity
  induction transforms with
  | nil => rfl
  | cons transform transforms inductionHypothesis =>
      obtain ⟨first, rest⟩ := List.forall_mem_cons.mp identity
      rw [List.foldl_cons, first]
      exact inductionHypothesis rest

/-- With a request that cannot be marshaled, the loop of
`sendWithPerNodeTransformation` reports the error for each node. -/
theorem nodeLoop_of_error {i : Nat} {nodes : List Node}
    {generators : Generators} {err : Err}
    (valid : ∀ node ∈ nodes, call.isValid (call.transformed node) = true)
    (fails : ∀ node ∈ nodes,
      call.marshal (call.transformed node) = .error err) :
    (call.nodeLoop surroundings i nodes generators).actions =
      nodes.map fun node => .report node.id err := by
  induction nodes generalizing i generators with
  | nil => rfl
  | cons node nodes inductionHypothesis =>
      obtain ⟨validFirst, validRest⟩ := List.forall_mem_cons.mp valid
      obtain ⟨failsFirst, failsRest⟩ := List.forall_mem_cons.mp fails
      unfold nodeLoop transformAndMarshal
      simp only [validFirst, failsFirst, if_true, List.map_cons, Sent.after]
      rw [inductionHypothesis validRest failsRest]

end CallContext

/-! ## The nodes that `sendShared` visits -/

theorem filterMap_range_getElem? (nodes : List Node) :
    (List.range nodes.length).filterMap (fun i => nodes[i]?) = nodes := by
  induction nodes with
  | nil => rfl
  | cons node nodes inductionHypothesis =>
      rw [List.length_cons, List.range_succ_eq_map, List.filterMap_cons]
      simp only [List.getElem?_cons_zero, List.filterMap_map, Function.comp_def,
        List.getElem?_cons_succ, inductionHypothesis]

/-- From any starting node on, `sendShared` visits every node once. -/
theorem visited_eq_rotate (config : List Node) (start : Nat) :
    visited config start = config.rotate start := by
  have same : visited config start =
      (List.range (config.rotate start).length).filterMap
        fun i => (config.rotate start)[i]? := by
    rw [List.length_rotate]
    apply List.filterMap_congr
    intro i inside
    rw [List.getElem?_rotate (List.mem_range.mp inside), Nat.add_comm]
  rw [same, filterMap_range_getElem?]

/-! ## The operations of the call -/

/-- The operation of a call that an action is. -/
def Action.op : Action → CallOp
  | .enqueue node _ => .enqueue node.id
  | .report node err => .report node err

theorem Sent.map_op {sent : Sent} (unreported : sent.reported = []) :
    sent.actions.map Action.op =
      (sent.enqueued.map Prod.fst).map fun node => .enqueue node.id := by
  obtain ⟨actions, generators⟩ := sent
  unfold Sent.reported Sent.enqueued at *
  simp only at unreported ⊢
  induction actions with
  | nil => rfl
  | cons action actions inductionHypothesis =>
      cases action with
      | enqueue node msg =>
          rw [List.map_cons, inductionHypothesis unreported]
          rfl
      | report node err => cases unreported

namespace CallContext

variable {ρ : Type} (call : CallContext ρ)
  (surroundings : Surroundings call.metadata) (generators : Generators)

/-- The error of marshaling the request. -/
def marshalErr : Option Err :=
  match call.marshal call.request with
  | .error err => some err
  | .ok _ => none

theorem sends_sendShared {payload : List UInt8}
    (marshals : call.marshal call.request = .ok payload) (start : Nat) :
    call.Sends payload generators.pool generators (call.config.rotate start)
      (call.sendShared surroundings start generators) := by
  rw [sendShared, marshals, ← visited_eq_rotate]
  apply sends_sharedLoop (Nat.le_refl _)
  intro msg known
  cases known

theorem sendShared_of_error {err : Err}
    (fails : call.marshal call.request = .error err) (start : Nat) :
    (call.sendShared surroundings start generators).actions =
      call.config.map fun node => .report node.id err := by
  rw [sendShared, fails]

/-- `sendShared` does what it does in a quorum call. -/
theorem sendShared_op (start : Nat) :
    (call.sendShared surroundings start generators).actions.map Action.op =
      Quorum.sendShared
        { config := call.config.map Node.id
          transforms := none
          marshalErr := call.marshalErr
          first := start } := by
  cases marshals : call.marshal call.request with
  | error err =>
      rw [sendShared_of_error call surroundings generators marshals]
      simp [Quorum.sendShared, marshalErr, marshals, Action.op]
  | ok payload =>
      have sends := sends_sendShared call surroundings generators marshals start
      rw [Sent.map_op sends.unreported, sends.nodes]
      simp [Quorum.sendShared, marshalErr, marshals, List.map_rotate]

/-- What becomes of the request for a node. -/
def prepared (node : Node) : Prepared :=
  if call.isValid (call.transformed node) then
    match call.marshal (call.transformed node) with
    | .error err => .fail err
    | .ok _ => .message
  else .skip

theorem nodeLoop_op {transforms : ID → Prepared} {i : Nat} {nodes : List Node}
    (known : ∀ node ∈ nodes, transforms node.id = call.prepared node) :
    (call.nodeLoop surroundings i nodes generators).actions.map Action.op =
      (nodes.map Node.id).map (Quorum.transformAndMarshal transforms) := by
  induction nodes generalizing i generators with
  | nil => rfl
  | cons node nodes inductionHypothesis =>
      obtain ⟨first, rest⟩ := List.forall_mem_cons.mp known
      rw [nodeLoop, Sent.after, List.map_cons, List.map_cons, List.map_cons,
        inductionHypothesis _ rest]
      congr 1
      rw [Quorum.transformAndMarshal, first]
      unfold transformAndMarshal prepared
      split
      · cases call.marshal (call.transformed node) <;> rfl
      · rfl

/-- `sendWithPerNodeTransformation` does what it does in a quorum call. -/
theorem sendWithPerNodeTransformation_op {transforms : ID → Prepared}
    (known : ∀ node ∈ call.config, transforms node.id = call.prepared node) :
    (call.sendWithPerNodeTransformation surroundings generators).actions.map
        Action.op =
      Quorum.sendWithPerNodeTransformation
        { config := call.config.map Node.id, transforms := some transforms }
        transforms :=
  nodeLoop_op call surroundings generators known

end CallContext

/-! ## Agreement -/

/-- Two messages have the same content, apart from their IDs and the order of
the keys of their metadata. -/
structure SameContent (left right : Message) : Prop where
  /-- The same method. -/
  method : left.method = right.method
  /-- The same payload. -/
  payload : left.payload = right.payload
  /-- The same metadata entries. -/
  entry : left.entry.Perm right.entry
  /-- The same values of each key, in order. -/
  values : ∀ key, valuesOf left.entry key = valuesOf right.entry key

theorem CallContext.Carries.sameContent {ρ : Type} {call : CallContext ρ}
    {payload : List UInt8} {left right : Message}
    (first : call.Carries payload left) (second : call.Carries payload right) :
    SameContent left right := by
  obtain ⟨firstOrder, firstVisits, firstEntry⟩ := first.entry
  obtain ⟨secondOrder, secondVisits, secondEntry⟩ := second.entry
  refine ⟨first.method.trans second.method.symm,
    first.payload.trans second.payload.symm, ?_, ?_⟩
  · rw [firstEntry, secondEntry]
    exact (firstVisits.trans secondVisits.symm).flatMap_right _
  · intro key
    rw [firstEntry, secondEntry, valuesOf_perm firstVisits call.keyed,
      valuesOf_perm secondVisits call.keyed]

/-- What is claimed of the IDs of a fan-out that starts with some state of the
generators. -/
structure Identified (generators : Generators) (sent : Sent) : Prop where
  /-- The IDs of shared nodes have the high bit set. -/
  shared : ∀ entry ∈ sent.enqueued, entry.1.shared = true →
    isServerSequenceNumber entry.2.messageSeqNo = true
  /-- The IDs of shared nodes are distinct. -/
  distinct : sent.sharedIDs.Nodup
  /-- The IDs of ordinary nodes do not have the high bit set, and no earlier
  call of the pool has drawn them. -/
  ordinary : ∀ entry ∈ sent.enqueued, entry.1.shared = false →
    isServerSequenceNumber entry.2.messageSeqNo = false ∧
      ∀ count ≤ generators.pool,
        entry.2.messageSeqNo ≠ Generators.poolID count

/-- Fewer than 2^63 IDs have been drawn from each generator. -/
def Generators.Bounded (generators : Generators) : Prop :=
  generators.pool < 2 ^ 63 ∧ generators.server < 2 ^ 63

theorem CallContext.Sends.identified {ρ : Type} {call : CallContext ρ}
    {payload : List UInt8} {generators : Generators} {nodes : List Node}
    {sent : Sent}
    (sends : call.Sends payload generators.pool generators nodes sent)
    (bounded : sent.generators.Bounded) : Identified generators sent := by
  refine ⟨?_, ?_, ?_⟩
  · intro entry member shared
    have inside : entry.2.messageSeqNo ∈ sent.sharedIDs :=
      List.mem_map_of_mem (List.mem_filter.mpr ⟨member, shared⟩)
    obtain ⟨count, _, _, equal⟩ := sends.shared.mem inside
    rw [equal]
    exact Generators.isServerSequenceNumber_serverID count
  · apply sends.shared.nodup
    intro count other below otherBelow
    exact Generators.serverID_injOn (Nat.lt_of_le_of_lt below bounded.2)
      (Nat.lt_of_le_of_lt otherBelow bounded.2)
  · intro entry member ordinary
    obtain ⟨count, above, below, equal⟩ := sends.ordinary entry member ordinary
    have small : count < 2 ^ 63 := Nat.lt_of_le_of_lt below bounded.1
    rw [equal]
    refine ⟨Generators.isServerSequenceNumber_poolID small, ?_⟩
    intro earlier before same
    have repeated := Generators.poolID_injOn small
      (Nat.lt_of_le_of_lt before (Nat.lt_trans above small)) same
    exact absurd before (Nat.not_le.mpr (repeated ▸ above))

/-- Every node of a configuration gets exactly one message, and no other node
gets any. -/
def CoversOnce (config : List Node) (sent : Sent) : Prop :=
  (∀ node ∈ config, (sent.enqueued.map Prod.fst).count node = 1) ∧
    ∀ entry ∈ sent.enqueued, entry.1 ∈ config

theorem coversOnce_of_perm {config : List Node} {sent : Sent}
    (distinct : config.Nodup)
    (nodes : (sent.enqueued.map Prod.fst).Perm config) :
    CoversOnce config sent := by
  refine ⟨?_, ?_⟩
  · intro node member
    rw [nodes.count_eq]
    exact List.count_eq_one_of_mem distinct member
  · intro entry member
    exact nodes.mem_iff.mp (List.mem_map_of_mem member)

/-- With identity transforms the two fan-outs send messages of the same content
to every node, once each, from any starting node on; the IDs of shared nodes
are distinct and server-initiated, those of ordinary nodes are new and
client-initiated.  If the request cannot be marshaled, both report the error
for every node. -/
theorem fan_outs_agree {ρ : Type} (call : CallContext ρ)
    (distinct : call.config.Nodup)
    (valid : call.isValid call.request = true)
    (identity : ∀ transform ∈ call.reqTransforms, ∀ request node,
      transform request node = request)
    (start : Nat) (first second : Surroundings call.metadata)
    (before other : Generators)
    (bounded : (call.sendShared first start before).generators.Bounded)
    (otherBounded : (call.sendWithPerNodeTransformation second
      other).generators.Bounded) :
    let shared := call.sendShared first start before
    let single := call.sendWithPerNodeTransformation second other
    (∀ payload, call.marshal call.request = .ok payload →
      CoversOnce call.config shared ∧ CoversOnce call.config single ∧
        shared.reported = [] ∧ single.reported = [] ∧
        (∀ node left right, (node, left) ∈ shared.enqueued →
          (node, right) ∈ single.enqueued → SameContent left right) ∧
        Identified before shared ∧ Identified other single) ∧
      ∀ err, call.marshal call.request = .error err →
        shared.enqueued = [] ∧ single.enqueued = [] ∧
          shared.reported = call.config.map (fun node => (node.id, err)) ∧
          single.reported = call.config.map fun node => (node.id, err) := by
  have same := CallContext.transformed_of_identity identity
  refine ⟨?_, ?_⟩
  · intro payload marshals
    have shared := call.sends_sendShared first before marshals start
    have single : call.Sends payload other.pool other call.config
        (call.sendWithPerNodeTransformation second other) := by
      apply CallContext.sends_nodeLoop
      · intro node _
        rw [same, valid]
      · intro node _
        rw [same, marshals]
      · exact Nat.le_refl _
    refine ⟨?_, ?_, shared.unreported, single.unreported, ?_,
      shared.identified bounded, single.identified otherBounded⟩
    · apply coversOnce_of_perm distinct
      rw [shared.nodes]
      exact List.rotate_perm _ _
    · apply coversOnce_of_perm distinct
      rw [single.nodes]
    · intro node left right leftSent rightSent
      exact (shared.carries _ leftSent).sameContent
        (single.carries _ rightSent)
  · intro err fails
    have shared := call.sendShared_of_error first before fails start
    have single : (call.sendWithPerNodeTransformation second other).actions =
        call.config.map fun node => .report node.id err := by
      apply CallContext.nodeLoop_of_error
      · intro node _
        rw [same, valid]
      · intro node _
        rw [same, fails]
    simp only [Sent.enqueued, Sent.reported, shared, single]
    simp [Function.comp_def, List.filterMap_map, Action.enqueued,
      Action.reported, List.filterMap_eq_map']

/-- A call to two ordinary nodes and two shared ones, with an identity
transform. -/
def mixedCall : CallContext Nat where
  config := [⟨1, false⟩, ⟨2, true⟩, ⟨3, false⟩, ⟨4, true⟩]
  request := 7
  method := "Write"
  metadata := [("a", ["x", "y"]), ("b", ["z"])]
  keyed := by decide
  marshal := fun request => .ok [request.toUInt8]
  isValid := fun _ => true
  reqTransforms := [fun request _ => request]

/-- Other calls draw one ID of each kind before every step, and every other
message iterates over the metadata backwards. -/
def busySurroundings : Surroundings mixedCall.metadata where
  draws := fun _ => { pool := 1, server := 1 }
  order := fun step =>
    if step % 2 = 0 then mixedCall.metadata else mixedCall.metadata.reverse
  visits := by
    intro step
    split
    · exact List.Perm.refl _
    · exact List.reverse_perm _

theorem fan_outs_agree_mixed :
    CoversOnce mixedCall.config
        (mixedCall.sendShared busySurroundings 2 { pool := 5, server := 9 }) ∧
      Identified { pool := 5, server := 9 }
        (mixedCall.sendShared busySurroundings 2 { pool := 5, server := 9 }) := by
  have agree := (fan_outs_agree mixedCall (by decide) rfl (by simp [mixedCall]) 2
    busySurroundings busySurroundings { pool := 5, server := 9 } {}
    ⟨by decide +kernel, by decide +kernel⟩
    ⟨by decide +kernel, by decide +kernel⟩).1 [7] rfl
  exact ⟨agree.1, agree.2.2.2.2.2.1⟩

end FanOut
end Quorum
end Gorums
