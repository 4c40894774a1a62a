import Gorums.Quorum.Oneway
import Gorums.Stream.LocalConfirm
import Gorums.Stream.Transmission

/-!
# Multicasts

A multicast that returns nil has been sent to every node that no request
transform skipped: each channel confirms a request once, after its stream has
sent the message or the local dispatcher has admitted it.  The error that a
multicast returns lists the nodes that failed, unless the context ended before
all nodes had confirmed.
-/

namespace Gorums
namespace Quorum

open Gorums.Stream

/-! ## Channels -/

/-- What the channel of a node makes of the request of a one-way call. -/
structure Channel where
  /-- The error of an outcome that the channel delivers; nil confirms the
  request. -/
  delivers : Option Err → Prop
  /-- The send of the message completed with nil, or the local dispatcher
  accepted the request. -/
  accepted : Prop
  /-- The channel delivers at most one outcome. -/
  single : ∀ {err other}, delivers err → delivers other → err = other
  /-- The channel confirms only what has been sent or accepted. -/
  confirmed : delivers none → accepted
  /-- No channel fails a request with `ErrSkipNode`. -/
  foreign : ∀ {err}, delivers (some err) → isErr errSkipNode err = false

namespace Channel

/-- A node that has no channel fails its requests. -/
def down : Channel where
  delivers err := err = some errStreamDown
  accepted := False
  single first second := first.trans second.symm
  confirmed nil := by cases nil
  foreign failed := by
    cases failed
    decide

/-- Two members of a list of at most one element are equal. -/
theorem eq_of_length_le_one {elements : List α}
    (single : elements.length ≤ 1) {first second : α}
    (left : first ∈ elements) (right : second ∈ elements) : first = second := by
  cases elements with
  | nil => cases left
  | cons head tail =>
      have empty : tail = [] := List.length_eq_zero_iff.mp (by simpa using single)
      rw [empty, List.mem_singleton] at left right
      rw [left, right]

/-- The channel of a stream, in a state that a run of it reaches. -/
def stream {config : Config} {workload : Workload} {state : ChannelState}
    {allowed : ChannelState → Step → Prop}
    (reached : config.Reaches workload allowed state) (req : Request)
    (want : req.wantSendConfirmation = true)
    (foreign : ∀ delivery ∈ deliveries state.shared.history req,
      ∀ err, delivery.resp.err = some err → isErr errSkipNode err = false) :
    Channel where
  delivers err :=
    ∃ delivery ∈ deliveries state.shared.history req, delivery.resp.err = err
  accepted := ∃ k, (k, req, none) ∈ state.shared.history.sent
  single := by
    rintro _ _ ⟨first, left, rfl⟩ ⟨second, right, rfl⟩
    obtain ⟨oneway, responds⟩ := Bool.and_eq_true_iff.mp want
    rw [eq_of_length_le_one (deliveries_le_one
      (Request.isCall_of_responseChan responds) reached (.inr oneway)) left right]
  confirmed := by
    rintro ⟨delivery, member, success⟩
    obtain ⟨inside, same⟩ := List.mem_filter.mp member
    obtain rfl := of_decide_eq_true same
    exact (outcomes_reached reached).1.confirmed delivery inside
      (Bool.and_eq_true_iff.mp want).1 success
  foreign := by
    rintro err ⟨delivery, member, failed⟩
    exact foreign delivery member err failed

/-- A local channel, in a state that a run of it reaches. -/
def loopback {config : LocalConfig} {users : List (List Request)}
    {state : LocalState} (distinct : users.flatten.Nodup)
    (reached : config.Reaches users state) (req : Request)
    (want : req.wantSendConfirmation = true)
    (foreign : ∀ resp ∈ state.shared.deliveries req,
      ∀ err, resp.err = some err → isErr errSkipNode err = false) :
    Channel where
  delivers err := ∃ resp ∈ state.shared.deliveries req, resp.err = err
  accepted := req ∈ state.shared.requests.admitted
  single := by
    rintro _ _ ⟨first, left, rfl⟩ ⟨second, right, rfl⟩
    obtain ⟨oneway, _⟩ := Bool.and_eq_true_iff.mp want
    rw [eq_of_length_le_one (length_local_deliveries oneway distinct reached)
      left right]
  confirmed := by
    rintro ⟨resp, member, success⟩
    obtain ⟨delivery, inside, rfl⟩ := List.mem_map.mp member
    obtain ⟨held, same⟩ := List.mem_filter.mp inside
    obtain rfl := of_decide_eq_true same
    exact admitted_of_confirmed want distinct reached held success
  foreign := by
    rintro err ⟨resp, member, failed⟩
    exact foreign resp member err failed

end Channel

/-! ## Multicasts -/

/-- A multicast on a configuration of distinct nodes. -/
structure Multicast where
  /-- The call context. -/
  ctx : CallContext
  /-- The nodes are distinct. -/
  distinct : ctx.config.Nodup
  /-- Marshaling the request never fails with `ErrSkipNode`. -/
  marshal : ∀ err, ctx.marshalErr = some err → isErr errSkipNode err = false
  /-- Marshaling a transformed request never fails with `ErrSkipNode`. -/
  marshalEach : ∀ transforms node err, ctx.transforms = some transforms →
    transforms node = .fail err → isErr errSkipNode err = false

/-- A request transform skips the node. -/
def Skipped (ctx : CallContext) (node : ID) : Prop :=
  ∃ transforms, ctx.transforms = some transforms ∧ transforms node = .skip

/-- The channels of the nodes deliver the outcomes. -/
def Delivers (channels : ID → Channel) (state : OnewayPool)
    (label : Pool.Label CallChoice Err) : Prop :=
  ∀ thread value err node, label = .run thread (.response value err) →
    state.head? thread = some (.fanOut (.deliver node)) →
    (channels node).delivers err

/-- The states that a multicast reaches. -/
def Multicast.Reaches (call : Multicast) (channels : ID → Channel)
    (waits : List Nat) (state : OnewayPool) : Prop :=
  (multicast call.ctx).machine.Reach (Delivers channels)
    ((multicast call.ctx).start waits) state

/-! ## What `collect` returns -/

/-- What a confirmation says about its node. -/
structure Attests (ctx : CallContext) (channels : ID → Channel)
    (resp : Response) : Prop where
  /-- A nil confirmation comes from a channel. -/
  accepted : resp.err = none → (channels resp.nodeID).accepted
  /-- `ErrSkipNode` comes from a request transform. -/
  skipped : isSkip resp = true → Skipped ctx resp.nodeID

/-- What an operation of a multicast can rely on. -/
def OnewayOp.Sound (ctx : CallContext) (state : OnewayState) : OnewayOp → Prop
  | .fanOut (.report node err) =>
      isErr errSkipNode err = true → Skipped ctx node
  | .collect => state.read = [] ∧ state.starved = false
  | .iterate remaining errs =>
      state.read.length + remaining = ctx.config.length ∧
        errs = nodeErrors state.read
  | .receive remaining errs =>
      state.read.length + (remaining + 1) = ctx.config.length ∧
        errs = nodeErrors state.read ∧ state.starved = true
  | .waited => state.once = .done
  | _ => True

/-- What `collect` has returned for a multicast. -/
inductive Collected (ctx : CallContext) (state : OnewayState) : Prop
  /-- The error of the handle. -/
  | held (empty : ctx.config = [])
      (err : state.err = some (.plain errEmptyConfig))
  /-- The end of the loop. -/
  | read (all : state.read.length = ctx.config.length)
      (err : state.err = sendFailures (nodeErrors state.read))
  /-- The error of the context. -/
  | ended (cause : Err) (expired : state.ctxErr = some cause)
      (starved : state.starved = true)
      (few : state.read.length < ctx.config.length)
      (err : state.err = some (.plain cause))

/-- What holds of a multicast in every state. -/
structure Multicasting (ctx : CallContext) (channels : ID → Channel)
    (state : OnewayState) : Prop where
  /-- Confirmations are true. -/
  attests : ∀ resp ∈ state.arrivals, Attests ctx channels resp
  /-- Nothing is read before `collect` runs. -/
  fresh : state.once = .fresh → state.read = [] ∧ state.starved = false
  /-- `collect` returns one result. -/
  done : state.once = .done → Collected ctx state
  /-- Every call of `Wait` returns that result. -/
  returned : ∀ result ∈ state.returned,
    state.once = .done ∧ result = state.err
  /-- Confirmations that were there before are read first. -/
  began : ∀ confirmations, state.began = some confirmations →
    ctx.config ≠ [] ∧ confirmations <+: state.arrivals ∧
      (confirmations.length = ctx.config.length → state.starved = false)

section Multicasting

open Pool

variable {ctx : CallContext} {channels : ID → Channel} {state : OnewayState}
  {op : OnewayOp} {choice : CallChoice}
  {outcome : Outcome OnewayState OnewayOp}

theorem Collected.frame {after : OnewayState} (collected : Collected ctx state)
    (err : after.err = state.err) (read : after.read = state.read)
    (starved : after.starved = state.starved)
    (expired : ∀ cause, state.ctxErr = some cause → after.ctxErr = some cause) :
    Collected ctx after := by
  cases collected with
  | held empty result => exact .held empty (err.trans result)
  | read all result => exact .read (read ▸ all) (by rw [err, read, result])
  | ended cause ended starving few result =>
      exact .ended cause (expired cause ended) (starved.trans starving)
        (read ▸ few) (err.trans result)

theorem Multicasting.push (holds : Multicasting ctx channels state)
    {resp : Response} (attests : Attests ctx channels resp) :
    Multicasting ctx channels
      { state with responseChan := state.responseChan ++ [resp] } := by
  have more : ({ state with
      responseChan := state.responseChan ++ [resp] } : OnewayState).arrivals =
        state.arrivals ++ [resp] := by
    simp [OnewayState.arrivals]
  refine ⟨?_, holds.fresh, ?_, holds.returned, ?_⟩
  · intro other member
    rw [more] at member
    rcases List.mem_append.mp member with earlier | new
    · exact holds.attests other earlier
    · rw [List.mem_singleton.mp new]
      exact attests
  · intro done
    exact (holds.done done).frame rfl rfl rfl fun _ expired => expired
  · intro confirmations began
    obtain ⟨nonempty, first, calm⟩ := holds.began confirmations began
    rw [more]
    exact ⟨nonempty, first.trans (List.prefix_append _ _), calm⟩

theorem Multicasting.take (holds : Multicasting ctx channels state)
    (running : state.once = .running) {resp : Response} {rest : List Response}
    (chan : state.responseChan = resp :: rest) :
    Multicasting ctx channels (state.take resp rest) := by
  have same := arrivals_take chan
  refine ⟨?_, ?_, ?_, holds.returned, ?_⟩
  · rw [same]
    exact holds.attests
  · intro first
    cases running.symm.trans first
  · intro done
    cases running.symm.trans done
  · rw [same]
    exact holds.began

theorem Multicasting.finish (holds : Multicasting ctx channels state)
    (running : state.once = .running) {err : Option CallError}
    (collected : Collected ctx { state with once := .done, err := err }) :
    Multicasting ctx channels (state.finish err).shared := by
  refine ⟨holds.attests, ?_, fun _ => collected, ?_, holds.began⟩
  · intro first
    cases first
  · intro result member
    cases running.symm.trans (holds.returned result member).1

/-- The handle of a multicast holds an error if it has no node to send to. -/
theorem multicast_err {err : Err} :
    (multicast ctx).err = some err ↔ ctx.config = [] ∧ errEmptyConfig = err := by
  simp [multicast]

theorem multicast_nonempty (holds : (multicast ctx).err = none) :
    ctx.config ≠ [] := by
  simpa [multicast] using holds

/-- One operation of a multicast, if no other one collects. -/
theorem multicasting_exec
    (executed : (multicast ctx).exec state op choice = some outcome)
    (delivers : ∀ node value err, op = .fanOut (.deliver node) →
      choice = .response value err → (channels node).delivers err)
    (running : op.collects = true → state.once = .running)
    (holds : Multicasting ctx channels state) (sound : op.Sound ctx state) :
    Multicasting ctx channels outcome.shared := by
  cases oneway_exec executed with
  | reported node err ran equal =>
      subst ran equal
      exact holds.push ⟨fun nil => (by cases nil), sound⟩
  | delivered node value err ran chosen equal =>
      subst ran equal
      have origin := delivers node value err rfl chosen
      apply holds.push
      refine ⟨fun nil => (channels node).confirmed (nil ▸ origin), ?_⟩
      intro skip
      cases err with
      | none => cases skip
      | some err => cases skip.symm.trans ((channels node).foreign origin)
  | enqueued node ran equal
  | handed _ ran equal
  | joined ran _ equal =>
      subst equal
      exact holds
  | entered ran first equal =>
      subst equal
      refine ⟨holds.attests, ?_, ?_, ?_, holds.began⟩
      · intro fresh
        cases fresh
      · intro done
        cases done
      · intro result member
        cases first.symm.trans (holds.returned result member).1
  | held err ran error equal =>
      subst ran equal
      apply holds.finish (running rfl)
      obtain ⟨empty, rfl⟩ := multicast_err.mp error
      exact .held empty rfl
  | began ran error equal =>
      subst ran equal
      obtain ⟨unread, calm⟩ := sound
      refine ⟨holds.attests, holds.fresh, ?_, holds.returned, ?_⟩
      · intro done
        cases (running rfl).symm.trans done
      · intro confirmations began
        cases began
        exact ⟨multicast_nonempty error,
          by simp [OnewayState.arrivals, unread], fun _ => calm⟩
  | exhausted errs ran equal =>
      subst ran equal
      apply holds.finish (running rfl)
      exact .read sound.1 (by rw [sound.2])
  | received remaining errs resp rest ran chan equal =>
      subst equal
      have collects : op.collects = true := by
        rcases ran with rfl | rfl <;> rfl
      exact holds.take (running collects) chan
  | starved remaining errs ran chan equal =>
      subst ran equal
      refine ⟨holds.attests, ?_, ?_, holds.returned, ?_⟩
      · intro first
        cases (running rfl).symm.trans first
      · intro done
        cases (running rfl).symm.trans done
      · intro confirmations began
        obtain ⟨nonempty, first, _⟩ := holds.began confirmations began
        refine ⟨nonempty, first, fun all => ?_⟩
        -- What has arrived has been read, and that is not all.
        have short := first.length_le
        simp only [OnewayState.arrivals, chan, List.append_nil] at short
        have left := sound.1
        omega
  | ended remaining errs err ran expired equal =>
      subst ran equal
      have left := sound.1
      exact holds.finish (running rfl)
        (.ended err expired sound.2.2 (by dsimp only; omega) rfl)
  | returned ran equal =>
      subst ran equal
      refine ⟨holds.attests, holds.fresh, ?_, ?_, holds.began⟩
      · intro done
        exact (holds.done done).frame rfl rfl rfl fun _ expired => expired
      · intro result member
        rcases List.mem_append.mp member with earlier | new
        · exact holds.returned result earlier
        · exact ⟨sound, List.mem_singleton.mp new⟩

/-- What an operation leaves finds what it relies on. -/
theorem OnewayOp.sound_fresh
    (executed : (multicast ctx).exec state op choice = some outcome)
    (running : op.collects = true → state.once = .running)
    (holds : Multicasting ctx channels state) (sound : op.Sound ctx state) :
    (∀ fresh ∈ outcome.next, fresh.Sound ctx outcome.shared) ∧
      ∀ thread ∈ outcome.spawned, ∀ fresh ∈ thread,
        fresh.Sound ctx outcome.shared := by
  cases oneway_exec executed with
  | reported _ _ ran equal
  | delivered _ _ _ ran _ equal
  | returned ran equal =>
      subst equal
      exact ⟨List.forall_mem_nil _, List.forall_mem_nil _⟩
  | enqueued node ran equal =>
      subst equal
      simp [OnewayOp.Sound]
  | handed waits ran equal =>
      subst equal
      refine ⟨List.forall_mem_nil _, fun thread member op held => ?_⟩
      obtain ⟨count, _, rfl⟩ := List.mem_map.mp member
      rw [List.eq_of_mem_replicate held]
      exact True.intro
  | entered ran first equal =>
      subst equal
      simpa [OnewayOp.Sound] using holds.fresh first
  | joined ran finished equal =>
      subst equal
      simpa [OnewayOp.Sound] using finished
  | held err ran error equal
  | exhausted err ran equal
  | ended _ _ err ran expired equal =>
      subst equal
      simp [OnewayState.finish, OnewayOp.Sound]
  | began ran error equal =>
      subst ran equal
      simp [OnewayOp.Sound, sound.1, multicast, nodeErrors]
  | received remaining errs resp rest ran chan equal =>
      subst equal
      have left : state.read.length + (remaining + 1) = ctx.config.length ∧
          errs = nodeErrors state.read := by
        rcases ran with rfl | rfl
        · exact sound
        · exact ⟨sound.1, sound.2.1⟩
      have listed : nodeErrors (state.read ++ [resp]) =
          nodeErrors state.read ++ (nodeError resp).toList := by
        rw [nodeErrors_append]
        cases error : nodeError resp <;> simp [nodeErrors, error]
      simp [OnewayCall.received, multicast, OnewayOp.Sound, OnewayState.take,
        left.2, listed]
      omega
  | starved remaining errs ran chan equal =>
      subst ran equal
      simpa [OnewayOp.Sound] using sound

/-- What an operation relies on is what has been read, for one that collects,
and that `once` is done. -/
theorem OnewayOp.Sound.frame {after : OnewayState} (sound : op.Sound ctx state)
    (read : op.collects = true → after.read = state.read ∧
      after.starved = state.starved)
    (done : state.once = .done → after.once = .done) : op.Sound ctx after := by
  cases op with
  | fanOut op => cases op <;> exact sound
  | handle waits => exact sound
  | wait => exact sound
  | collect =>
      obtain ⟨same, calm⟩ := read rfl
      exact ⟨same.trans sound.1, calm.trans sound.2⟩
  | iterate remaining errs =>
      obtain ⟨same, _⟩ := read rfl
      simpa [OnewayOp.Sound, same] using sound
  | receive remaining errs =>
      obtain ⟨same, calm⟩ := read rfl
      simpa [OnewayOp.Sound, same, calm] using sound
  | waited => exact done sound

/-- An operation keeps what the others rely on, if no other one collects. -/
theorem OnewayOp.Sound.kept
    (executed : (multicast ctx).exec state op choice = some outcome)
    (running : op.collects = true → state.once = .running)
    {other : OnewayOp} (alone : op.collects = true → other.collects = false)
    (sound : other.Sound ctx state) : other.Sound ctx outcome.shared := by
  by_cases collects : op.collects = true
  · apply sound.frame
    · intro also
      cases also.symm.trans (alone collects)
    · intro done
      cases (running collects).symm.trans done
  · cases oneway_exec executed with
    | entered ran first equal =>
        subst equal
        refine sound.frame (fun _ => ⟨rfl, rfl⟩) fun done => ?_
        cases first.symm.trans done
    | reported _ _ ran equal
    | delivered _ _ _ ran _ equal
    | enqueued _ ran equal
    | handed _ ran equal
    | joined ran _ equal
    | returned ran equal =>
        subst equal
        exact sound.frame (fun _ => ⟨rfl, rfl⟩) id
    | held _ ran _ equal
    | began ran _ equal
    | exhausted _ ran equal
    | starved _ _ ran _ equal
    | ended _ _ _ ran _ equal =>
        subst ran
        exact absurd rfl collects
    | received _ _ _ _ ran _ equal =>
        rcases ran with rfl | rfl <;> exact absurd rfl collects

end Multicasting

section Runs

open Pool

variable {call : Multicast} {channels : ID → Channel} {waits : List Nat}
  {state : OnewayPool}

/-- Only a request transform reports `ErrSkipNode`. -/
theorem sound_send {op : CallOp} (member : op ∈ send call.ctx)
    (shared : OnewayState) : (OnewayOp.fanOut op).Sound call.ctx shared := by
  unfold send at member
  split at member
  · unfold sendShared at member
    split at member
    · rename_i err failed
      obtain ⟨node, _, rfl⟩ := List.mem_map.mp member
      intro skip
      cases skip.symm.trans (call.marshal err failed)
    · obtain ⟨node, _, rfl⟩ := List.mem_map.mp member
      exact True.intro
  · rename_i transforms registered
    obtain ⟨node, _, rfl⟩ := List.mem_map.mp member
    unfold transformAndMarshal
    split
    · rename_i skipped
      exact fun _ => ⟨transforms, registered, skipped⟩
    · rename_i err failed
      intro skip
      cases skip.symm.trans
        (call.marshalEach transforms node err registered failed)
    · exact True.intro

theorem multicasting_reached (reached : call.Reaches channels waits state) :
    Multicasting call.ctx channels state.shared ∧
      ∀ op ∈ state.ops, op.Sound call.ctx state.shared := by
  refine Machine.Reach.annotated (Multicasting call.ctx channels)
    (fun shared op => op.Sound call.ctx shared) ?start ?run ?environment reached
  case start =>
    refine ⟨⟨List.forall_mem_nil _, fun _ => ⟨rfl, rfl⟩, ?_,
      List.forall_mem_nil _, ?_⟩, ?_⟩
    · intro done
      cases done
    · intro confirmations began
      cases began
    · intro op member
      simp only [OnewayCall.start, State.ops, List.flatten_singleton,
        List.mem_append, List.mem_singleton] at member
      rcases member with sent | rfl
      · unfold OnewayCall.dispatch at sent
        split at sent
        · cases sent
        · obtain ⟨op, inside, rfl⟩ := List.mem_map.mp sent
          exact sound_send inside _
      · exact True.intro
  case run =>
    intro state thread choice next runs reached permitted holds sound
    have balance := collector_reached reached
    have heavy : collector.weight runs.op ≤ collector.weigh state.ops :=
      Ledger.weight_le_weigh runs.op_mem
    have running : runs.op.collects = true →
        state.shared.once = .running := by
      intro collects
      by_contra different
      simp only [collector_credit, different, if_false, collector_weight,
        collects, Bool.toNat_true] at balance heavy
      omega
    have delivers : ∀ node value err, runs.op = .fanOut (.deliver node) →
        choice = .response value err → (channels node).delivers err := by
      intro node value err ran chosen
      exact permitted thread value err node (by rw [chosen])
        (by rw [runs.head?, ran])
    obtain ⟨following, started⟩ := OnewayOp.sound_fresh runs.exec_eq running
      holds sound
    refine ⟨multicasting_exec runs.exec_eq delivers running holds sound, ?_, ?_⟩
    · intro op member
      rcases List.mem_append.mp member with next | spawned
      · exact following op next
      · obtain ⟨thread, inside, held⟩ := List.mem_flatten.mp spawned
        exact started thread inside op held
    · intro op other relied
      apply relied.kept runs.exec_eq running
      intro collects
      have both := collector.weight_add_weight_le runs other
      cases also : op.collects with
      | false => rfl
      | true =>
          simp only [collector_weight, collects, also, Bool.toNat_true] at both
          omega
  case environment =>
    intro shared err shared' acted holds
    obtain ⟨going, rfl⟩ := oneway_env_eq acted
    refine ⟨⟨holds.attests, holds.fresh, ?_, holds.returned, holds.began⟩, ?_⟩
    · intro done
      refine (holds.done done).frame rfl rfl rfl fun cause expired => ?_
      cases going.symm.trans expired
    · intro op sound
      exact sound.frame (fun _ => ⟨rfl, rfl⟩) id

/-! ## What a multicast tells its caller -/

/-- A confirmation says that the send to a node failed. -/
def Failed (resp : Response) : Prop :=
  ∃ err, resp.err = some err ∧ isErr errSkipNode err = false

/-- What a call of `Send` or `Wait` returns for a multicast. -/
structure MulticastReturns (call : Multicast) (channels : ID → Channel)
    (state : OnewayState) (result : Option CallError) : Prop where
  /-- Nil is returned only if every node that was not skipped has been sent
  to. -/
  nil : result = none → ∀ node ∈ call.ctx.config, ¬ Skipped call.ctx node →
    (channels node).accepted
  /-- An error with the errors of the nodes is returned if all confirmations
  have been read and one of them failed. -/
  failed : (∃ err, result = some (.quorum err)) ↔
    state.read.length = call.ctx.config.length ∧ ∃ resp ∈ state.read, Failed resp
  /-- It lists the nodes that failed. -/
  listed : ∀ err, result = some (.quorum err) →
    err.cause = errSendFailure ∧ (err.errors.map NodeError.nodeID).Nodup ∧
      ∀ node cause, ⟨node, cause⟩ ∈ err.errors ↔
        ∃ resp ∈ state.read, resp.nodeID = node ∧ resp.err = some cause ∧
          isErr errSkipNode cause = false
  /-- Any other error is that of an empty configuration, or that of the context
  after a `receive` that found no confirmation. -/
  context : ∀ err, result = some (.plain err) →
    (call.ctx.config = [] ∧ err = errEmptyConfig) ∨
      (state.ctxErr = some err ∧ state.starved = true)
  /-- If all confirmations were there before, they alone tell what is
  returned. -/
  settled : ∀ confirmations, state.began = some confirmations →
    confirmations.length = call.ctx.config.length →
    result = sendFailures (nodeErrors confirmations)

/-- How a multicast comes to its return. -/
structure MulticastProceeds (call : Multicast) (state : OnewayPool) : Prop where
  /-- The report of an error does not block. -/
  reports : ∀ node err, .fanOut (.report node err) ∈ state.ops →
    ((multicast call.ctx).exec state.shared (.fanOut (.report node err))
      .go).isSome
  /-- The delivery of a confirmation does not block. -/
  delivers : ∀ node value err, .fanOut (.deliver node) ∈ state.ops →
    ((multicast call.ctx).exec state.shared (.fanOut (.deliver node))
      (.response value err)).isSome
  /-- Some goroutine collects until there is a result. -/
  collects : state.shared.once = .running →
    ∃ thread op, state.head? thread = some op ∧ op.collects = true
  /-- It is blocked only while no confirmation is there, the context has not ended
  and confirmations are missing. -/
  proceeds : ∀ thread op, state.head? thread = some op → op.collects = true →
    state.shared.responseChan ≠ [] ∨ state.shared.ctxErr.isSome ∨
      state.shared.read.length = call.ctx.config.length →
    ∃ choice, ((multicast call.ctx).machine.step state
      (.run thread choice)).isSome
  /-- It returns once all confirmations have been read. -/
  returns : call.ctx.config ≠ [] →
    ∀ thread op, state.head? thread = some op → op.collects = true →
    state.shared.read.length = call.ctx.config.length →
    (multicast call.ctx).Returns state thread
      (sendFailures (nodeErrors state.shared.read))
  /-- It returns at once if there is no node. -/
  empty : call.ctx.config = [] → ∀ thread,
    state.head? thread = some .collect →
    (multicast call.ctx).Returns state thread (some (.plain errEmptyConfig))
  /-- Every later call of `Wait` returns as well. -/
  joins : state.shared.once = .done → ∀ thread,
    state.head? thread = some .wait →
    (multicast call.ctx).Returns state thread state.shared.err

theorem nodeError_eq_some {resp : Response} {failure : NodeError} :
    nodeError resp = some failure ↔
      resp.nodeID = failure.nodeID ∧ resp.err = some failure.cause ∧
        isErr errSkipNode failure.cause = false := by
  obtain ⟨node, cause⟩ := failure
  unfold nodeError
  cases error : resp.err with
  | none => simp
  | some err =>
      by_cases equal : err = cause
      · subst equal
        cases skip : isErr errSkipNode err <;> simp [skip]
      · cases skip : isErr errSkipNode err <;> simp [skip, equal]

theorem mem_nodeErrors {seq : List Response} {node : ID} {cause : Err} :
    ⟨node, cause⟩ ∈ nodeErrors seq ↔
      ∃ resp ∈ seq, resp.nodeID = node ∧ resp.err = some cause ∧
        isErr errSkipNode cause = false := by
  simp only [nodeErrors, List.mem_filterMap, nodeError_eq_some]

theorem sendFailures_eq_none {errs : List NodeError} :
    sendFailures errs = none ↔ errs = [] := by
  cases errs <;> simp [sendFailures]

theorem sendFailures_eq_quorum {errs : List NodeError} {err : QuorumCallError} :
    sendFailures errs = some (.quorum err) ↔
      errs ≠ [] ∧ err = ⟨errSendFailure, errs⟩ := by
  cases errs <;> simp [sendFailures, eq_comm]

theorem sendFailures_ne_plain {errs : List NodeError} {err : Err} :
    sendFailures errs ≠ some (.plain err) := by
  cases errs <;> simp [sendFailures]

theorem targets_multicast (ctx : CallContext) :
    (multicast ctx).targets = ctx.config := by
  by_cases empty : ctx.config = [] <;>
    simp [OnewayCall.targets, multicast, empty]

/-- Once as many confirmations have been read as there are nodes, all have. -/
theorem read_perm (reached : call.Reaches channels waits state)
    (all : state.shared.read.length = call.ctx.config.length) :
    state.shared.responseChan = [] ∧
      (state.shared.read.map NodeResponse.nodeID).Perm call.ctx.config := by
  have perm := arrivals_perm reached
  rw [targets_multicast] at perm
  have total := perm.length_eq
  simp only [OnewayState.arrivals, List.length_append, List.length_map] at total
  have drained : state.shared.responseChan = [] :=
    List.length_eq_zero_iff.mp (by omega)
  have quiet : state.ops.flatMap OnewayOp.node = [] :=
    List.length_eq_zero_iff.mp (by omega)
  rw [quiet, List.append_nil, OnewayState.arrivals, drained, List.append_nil]
    at perm
  exact ⟨drained, perm⟩

theorem nodeErrors_ne_nil {seq : List Response} :
    nodeErrors seq ≠ [] ↔ ∃ resp ∈ seq, Failed resp := by
  constructor
  · intro nonempty
    obtain ⟨⟨node, cause⟩, member⟩ := List.exists_mem_of_ne_nil _ nonempty
    obtain ⟨resp, inside, _, error, unskipped⟩ := mem_nodeErrors.mp member
    exact ⟨resp, inside, cause, error, unskipped⟩
  · rintro ⟨resp, inside, cause, error, unskipped⟩
    exact List.ne_nil_of_mem
      (mem_nodeErrors.mpr ⟨resp, inside, rfl, error, unskipped⟩)

/-- The nodes of the errors of distinct nodes are distinct. -/
theorem nodup_nodeErrors {seq : List Response}
    (distinct : (seq.map NodeResponse.nodeID).Nodup) :
    ((nodeErrors seq).map NodeError.nodeID).Nodup := by
  have sub : ((nodeErrors seq).map NodeError.nodeID).Sublist
      (seq.map NodeResponse.nodeID) := by
    clear distinct
    induction seq with
    | nil => exact List.Sublist.slnil
    | cons resp seq inductionHypothesis =>
        unfold nodeErrors at inductionHypothesis ⊢
        rw [List.filterMap_cons, List.map_cons]
        split
        · exact inductionHypothesis.cons _
        · rename_i failure listed
          rw [List.map_cons, (nodeError_eq_some.mp listed).1]
          exact inductionHypothesis.cons_cons _
  exact sub.nodup distinct

/-- A multicast without failures has been sent to every node that was not
skipped. -/
theorem accepted_of_nil (reached : call.Reaches channels waits state)
    (all : state.shared.read.length = call.ctx.config.length)
    (unfailed : nodeErrors state.shared.read = []) {node : ID}
    (member : node ∈ call.ctx.config) (kept : ¬ Skipped call.ctx node) :
    (channels node).accepted := by
  obtain ⟨holds, _⟩ := multicasting_reached reached
  obtain ⟨resp, inside, rfl⟩ :=
    List.mem_map.mp ((read_perm reached all).2.mem_iff.mpr member)
  have attests := holds.attests resp (List.mem_append_left _ inside)
  cases error : resp.err with
  | none => exact attests.accepted error
  | some err =>
      cases skip : isErr errSkipNode err with
      | true => exact absurd (attests.skipped (by simp [isSkip, error, skip])) kept
      | false =>
          exact absurd unfailed
            (nodeErrors_ne_nil.mpr ⟨resp, inside, err, error, skip⟩)

/-- Confirmations that were all there before are what `collect` reads. -/
theorem read_eq_began (reached : call.Reaches channels waits state)
    (all : state.shared.read.length = call.ctx.config.length)
    {confirmations : List Response}
    (began : state.shared.began = some confirmations)
    (complete : confirmations.length = call.ctx.config.length) :
    confirmations = state.shared.read := by
  obtain ⟨holds, _⟩ := multicasting_reached reached
  obtain ⟨_, first, _⟩ := holds.began confirmations began
  rw [OnewayState.arrivals, (read_perm reached all).1, List.append_nil] at first
  exact first.eq_of_length (complete.trans all.symm)

theorem mem_ops_of_head? {thread : Nat} {op : OnewayOp}
    (next : state.head? thread = some op) : op ∈ state.ops := by
  obtain ⟨ops, found, first⟩ := Option.bind_eq_some_iff.mp next
  exact List.mem_flatten.mpr
    ⟨ops, List.mem_of_getElem? found, List.mem_of_head? first⟩

/-- A goroutine that collects reads what is there, and does not wait for more than
the context or the confirmations that are missing. -/
theorem collector_steps (reached : call.Reaches channels waits state)
    {thread : Nat} {op : OnewayOp} (next : state.head? thread = some op)
    (collects : op.collects = true)
    (ready : state.shared.responseChan ≠ [] ∨ state.shared.ctxErr.isSome ∨
      state.shared.read.length = call.ctx.config.length) :
    ∃ choice, ((multicast call.ctx).machine.step state
      (.run thread choice)).isSome := by
  have sound := (multicasting_reached reached).2 op (mem_ops_of_head? next)
  suffices runs : ∃ choice,
      ((multicast call.ctx).exec state.shared op choice).isSome by
    obtain ⟨choice, runs⟩ := runs
    obtain ⟨ops, found, first⟩ := Option.bind_eq_some_iff.mp next
    obtain ⟨rest, rfl⟩ := List.head?_eq_some_iff.mp first
    exact ⟨choice, by simpa [Machine.step, OnewayCall.machine, found] using runs⟩
  cases op with
  | fanOut op => cases collects
  | handle waits => cases collects
  | wait => cases collects
  | waited => cases collects
  | collect =>
      refine ⟨.go, ?_⟩
      cases error : (multicast call.ctx).err <;>
        simp [OnewayCall.exec, error]
  | iterate remaining errs =>
      refine ⟨.go, ?_⟩
      cases remaining with
      | zero => rfl
      | succ fewer =>
          cases chan : state.shared.responseChan <;>
            simp [OnewayCall.exec, chan]
  | receive remaining errs =>
      rcases ready with buffered | ended | all
      · obtain ⟨resp, rest, chan⟩ := List.exists_cons_of_ne_nil buffered
        exact ⟨.go, by simp [OnewayCall.exec, chan]⟩
      · exact ⟨.done, by simpa [OnewayCall.exec] using ended⟩
      · have left := sound.1
        omega

/-- With all confirmations read, `collect` is at its end. -/
theorem collector_returns (reached : call.Reaches channels waits state)
    (nonempty : call.ctx.config ≠ []) {thread : Nat} {op : OnewayOp}
    (next : state.head? thread = some op) (collects : op.collects = true)
    (all : state.shared.read.length = call.ctx.config.length) :
    (multicast call.ctx).Returns state thread
      (sendFailures (nodeErrors state.shared.read)) := by
  have sound := (multicasting_reached reached).2 op (mem_ops_of_head? next)
  cases op with
  | fanOut op => cases collects
  | handle waits => cases collects
  | wait => cases collects
  | waited => cases collects
  | collect =>
      rw [sound.1] at all
      exact absurd (List.length_eq_zero_iff.mp all.symm) nonempty
  | iterate remaining errs =>
      obtain ⟨left, rfl⟩ := sound
      obtain rfl : remaining = 0 := by omega
      exact returns_of_exec next rfl rfl
  | receive remaining errs =>
      have left := sound.1
      omega

theorem proceeds_reached (reached : call.Reaches channels waits state) :
    MulticastProceeds call state where
  reports node err pending := by
    have room := room_of_unconfirmed reached pending
      (by simp [OnewayOp.node, CallOp.node])
    simpa [OnewayCall.exec, OnewayState.push, sendOn] using room
  delivers node value err pending := by
    have room := room_of_unconfirmed reached pending
      (by simp [OnewayOp.node, CallOp.node])
    simpa [OnewayCall.exec, OnewayState.push, sendOn] using room
  collects := exists_collector reached
  proceeds _ _ := collector_steps reached
  returns nonempty _ _ := collector_returns reached nonempty
  empty none thread next := by
    have error : (multicast call.ctx).err = some errEmptyConfig :=
      multicast_err.mpr ⟨none, rfl⟩
    have executed : (multicast call.ctx).exec state.shared .collect .go =
        some (state.shared.finish (some (.plain errEmptyConfig))) := by
      simp [OnewayCall.exec, error]
    exact returns_of_exec next executed rfl
  joins done thread next :=
    returns_of_exec next (by simp [OnewayCall.exec, done]) rfl

/-- In every run of a multicast, `Send` and every call of `Wait` return the same
result, and nil only if the message has been sent to every node that a request
transform did not skip.  They return once all confirmations have been read. -/
theorem multicast_confirms_sends (call : Multicast) (channels : ID → Channel)
    {waits : List Nat} {state : OnewayPool}
    (reached : call.Reaches channels waits state) :
    (∀ result ∈ state.shared.returned, ∀ other ∈ state.shared.returned,
        result = other) ∧
      (∀ result ∈ state.shared.returned,
        MulticastReturns call channels state.shared result) ∧
      MulticastProceeds call state := by
  obtain ⟨holds, _⟩ := multicasting_reached reached
  refine ⟨fun result member other among => ?_, fun result member => ?_,
    proceeds_reached reached⟩
  · exact (holds.returned result member).2.trans
      (holds.returned other among).2.symm
  obtain ⟨done, rfl⟩ := holds.returned result member
  cases holds.done done with
  | held empty err =>
      rw [err]
      refine ⟨by simp, ?_, by simp, ?_, ?_⟩
      · simp only [empty, List.length_nil, List.length_eq_zero_iff]
        constructor
        · rintro ⟨_, impossible⟩
          cases impossible
        · rintro ⟨none, resp, inside, _⟩
          rw [none] at inside
          cases inside
      · intro cause equal
        cases equal
        exact .inl ⟨empty, rfl⟩
      · intro confirmations began
        exact absurd empty (holds.began confirmations began).1
  | read all err =>
      rw [err]
      refine ⟨?_, ?_, ?_, ?_, ?_⟩
      · intro nil node
        exact accepted_of_nil reached all (sendFailures_eq_none.mp nil)
      · rw [← nodeErrors_ne_nil]
        simp [sendFailures_eq_quorum, all]
      · intro cause equal
        obtain ⟨_, rfl⟩ := sendFailures_eq_quorum.mp equal
        have distinct := (read_perm reached all).2.nodup_iff.mpr call.distinct
        exact ⟨rfl, nodup_nodeErrors distinct, fun _ _ => mem_nodeErrors⟩
      · intro cause equal
        exact absurd equal sendFailures_ne_plain
      · intro confirmations began complete
        rw [read_eq_began reached all began complete]
  | ended cause expired starved few err =>
      rw [err]
      refine ⟨by simp, ?_, by simp, ?_, ?_⟩
      · constructor
        · rintro ⟨_, impossible⟩
          cases impossible
        · rintro ⟨all, _⟩
          omega
      · intro other equal
        cases equal
        exact .inr ⟨expired, starved⟩
      · intro confirmations began complete
        obtain ⟨_, _, calm⟩ := holds.began confirmations began
        cases starved.symm.trans (calm complete)

/-- A multicast to a node that is sent to and one that is skipped. -/
def halfSkipped : Multicast where
  ctx :=
    { config := [1, 2]
      transforms := some fun node => if node = 2 then .skip else .message }
  distinct := by decide
  marshal err failed := by cases failed
  marshalEach transforms node err registered failed := by
    cases registered
    dsimp only at failed
    split at failed <;> cases failed

/-- The only outcome of the request of `confirmedRun` is a confirmation. -/
theorem confirmedRun_outcomes :
    (deliveries ((smallOutbound.follow castAndClose confirmedRun).get
      confirmedRun_followed).shared.history soleCast).map
        (fun delivery => delivery.resp.err) = [none] := by
  decide +kernel

/-- The channel of a stream that has sent its one request. -/
def soleChannel : Channel :=
  .stream (Config.reaches_of_follow confirmedRun_followed) soleCast rfl (by
    intro delivery member err failed
    have outcome := List.mem_map_of_mem member
      (f := fun delivery : Delivery => delivery.resp.err)
    rw [confirmedRun_outcomes, failed] at outcome
    cases List.mem_singleton.mp outcome)

theorem soleChannel_delivers : soleChannel.delivers none := by
  apply List.mem_map.mp
  rw [confirmedRun_outcomes]
  exact List.mem_singleton_self none

/-- The channel confirms the request, and `Wait` is called twice. -/
def halfSkippedRun : List (Label CallChoice Err) :=
  List.replicate 3 (.run 0 .go) ++ [.run 1 (.response none none)] ++
    List.replicate 8 (.run 2 .go)

/-- Only confirmations are delivered. -/
def onlyConfirms (_ : OnewayPool) : Label CallChoice Err → Bool
  | .run _ (.response _ err) => err.isNone
  | _ => true

theorem halfSkippedRun_followed :
    ((multicast halfSkipped.ctx).machine.follow onlyConfirms
      ((multicast halfSkipped.ctx).start [2]) halfSkippedRun).isSome = true := by
  decide +kernel

theorem multicast_confirms_sends_half :
    ∃ state, halfSkipped.Reaches (fun _ => soleChannel) [2] state ∧
      state.shared.returned = [none, none] ∧ soleChannel.accepted := by
  have reached : halfSkipped.Reaches (fun _ => soleChannel) [2] _ :=
    Machine.reach_of_isSome (by
      intro state label checked thread value err node equal _
      subst equal
      cases err with
      | none => exact soleChannel_delivers
      | some err => cases checked) halfSkippedRun_followed
  have returned := (multicast_confirms_sends halfSkipped _ reached).2.1 none
    (by decide +kernel)
  exact ⟨_, reached, by decide +kernel, returned.nil rfl 1 (by decide) (by
    rintro ⟨transforms, registered, skipped⟩
    cases registered
    cases skipped)⟩

end Runs

end Quorum
end Gorums
