import Gorums.Stream.Local

/-!
# Confirmations of local channels

A one-way request on a local channel gets at most one outcome: the error with
which `Enqueue` fails it, or a confirmation.  `Enqueue` confirms the request
after the dispatcher has admitted it.
-/

namespace Gorums
namespace Stream

/-- The requests that an operation may still give an outcome. -/
def LocalOp.settles : LocalOp → List Request
  | .enqueue req => [req]
  | .push req => [req]
  | .deliver req _ => [req]
  | .offer req _ => [req]
  | _ => []

/-- The requests that an operation may still confirm. -/
def LocalOp.confirms : LocalOp → List Request
  | .enqueue req => [req]
  | .push req => [req]
  | .deliver req resp => if resp.err.isNone then [req] else []
  | .offer req resp => if resp.err.isNone then [req] else []
  | _ => []

/-- The requests that an operation may still pass to the dispatcher. -/
def LocalOp.admits : LocalOp → List Request
  | .enqueue req => [req]
  | .push req => [req]
  | .dispatch (.admitRun req) => [req]
  | _ => []

/-- The confirmations that have been delivered. -/
def LocalShared.confirmed (shared : LocalShared) : List Request :=
  (shared.responses.filter fun delivery => delivery.2.err.isNone).map Prod.fst

/-- The outcomes that a request has got or may still get. -/
@[simps] def settlement (req : Request) : Pool.Ledger LocalShared LocalOp where
  credit shared := (shared.responses.map Prod.fst).count req
  weight op := op.settles.count req

/-- Whether a request has been confirmed, has failed, or is still open. -/
@[simps] def verdict (req : Request) : Pool.Ledger LocalShared LocalOp where
  credit shared := shared.confirmed.count req + shared.failed.count req
  weight op := op.confirms.count req

/-- Whether a request has been admitted, has failed, or is still open. -/
@[simps] def intake (req : Request) : Pool.Ledger LocalShared LocalOp where
  credit shared :=
    shared.requests.admitted.count req + shared.failed.count req
  weight op := op.admits.count req

section Ledgers

open Pool

variable {config : LocalConfig} {shared : LocalShared} {outcome : LocalEffect}
  {req : Request} {op : LocalOp} {branch : Branch}

/-- Operations that follow from one on the dispatcher settle nothing. -/
theorem light_dispatched (op : DispatchOp Request) :
    (config.dispatched op).settles = [] ∧
      (config.dispatched op).confirms = [] := by
  cases op <;> exact ⟨rfl, rfl⟩

/-- A ledger that does not look at the dispatcher or its operations stays as it
is. -/
theorem bounds_execDispatch {ledger : Ledger LocalShared LocalOp}
    {op : DispatchOp Request}
    (light : ∀ op, ledger.weight (config.dispatched op) = 0)
    (credit : ∀ requests, ledger.credit { shared with requests := requests } =
      ledger.credit shared)
    (debit : ∀ shared, ledger.debit shared = 0)
    (executed : config.execDispatch shared op branch = some outcome) :
    ledger.Bounds shared (.dispatch op) outcome := by
  obtain ⟨effect, _, rfl⟩ := Option.map_eq_some_iff.mp executed
  have next : ledger.weigh (effect.next.map config.dispatched) = 0 := by
    apply Ledger.weigh_eq_zero
    intro op member
    obtain ⟨origin, _, rfl⟩ := List.mem_map.mp member
    exact light origin
  have spawned : ledger.weigh
      (effect.spawned.map fun ops => ops.map config.dispatched).flatten = 0 := by
    apply Ledger.weigh_eq_zero
    intro op member
    obtain ⟨thread, inside, held⟩ := List.mem_flatten.mp member
    obtain ⟨ops, _, rfl⟩ := List.mem_map.mp inside
    obtain ⟨origin, _, rfl⟩ := List.mem_map.mp held
    exact light origin
  simp only [Ledger.Bounds, Ledger.worth_mk, next, spawned, credit, debit]
  omega

theorem settlement_exec (oneway : req.oneway = true)
    (executed : config.exec shared op branch = some outcome) :
    (settlement req).Bounds shared op outcome := by
  have silent : req.wantServerResponse = false := by
    simp [Request.wantServerResponse, oneway]
  cases LocalConfig.exec_does executed with
  | failed calls =>
      unfold LocalConfig.failRequest
      rcases calls with rfl | rfl <;> split <;>
        simp [Ledger.Bounds, LocalOp.settles]
  | dispatched inside executed =>
      exact bounds_execDispatch
        (fun op => by rw [settlement_weight, (light_dispatched op).1]; rfl)
        (fun _ => rfl) (fun _ => rfl) executed
  | @sent other msg =>
      by_cases same : other = req
      · simp [Ledger.Bounds, LocalOp.settles, same, silent]
      · split <;> simp [Ledger.Bounds, LocalOp.settles, same]
  | delivered delivers =>
      rcases delivers with rfl | rfl <;> simp [Ledger.Bounds, LocalOp.settles]
  | _ =>
      simp [Ledger.Bounds, LocalConfig.confirmation, LocalOp.settles] <;>
        (try split) <;> simp

/-- A failed request is not confirmed. -/
theorem verdict_failRequest (other : Request) (err : Err) :
    (verdict req).worth (config.failRequest shared other err) =
      (verdict req).credit shared + [other].count req := by
  unfold LocalConfig.failRequest
  split <;> simp [LocalOp.confirms, errorResponse, LocalShared.confirmed] <;>
    omega

theorem confirmed_append (other : Request) (resp : Response) :
    ({ shared with
        responses := shared.responses ++ [(other, resp)] }).confirmed =
      shared.confirmed ++ if resp.err.isNone then [other] else [] := by
  cases error : resp.err <;> simp [LocalShared.confirmed, error]

theorem verdict_exec (oneway : req.oneway = true)
    (executed : config.exec shared op branch = some outcome) :
    (verdict req).Bounds shared op outcome := by
  have silent : req.wantServerResponse = false := by
    simp [Request.wantServerResponse, oneway]
  cases LocalConfig.exec_does executed with
  | failed calls =>
      rcases calls with rfl | rfl <;>
        simp [Ledger.Bounds, -Ledger.worth_mk, verdict_failRequest,
          LocalOp.confirms]
  | dispatched inside executed =>
      exact bounds_execDispatch
        (fun op => by rw [verdict_weight, (light_dispatched op).2]; rfl)
        (fun _ => rfl) (fun _ => rfl) executed
  | pushed =>
      simp only [Ledger.Bounds, Ledger.worth_mk, verdict_credit, verdict_debit,
        LocalConfig.confirmation, LocalShared.confirmed]
      split <;> simp [LocalOp.confirms]
  | @sent other msg =>
      by_cases same : other = req
      · simp [Ledger.Bounds, LocalOp.confirms, same, silent,
          LocalShared.confirmed]
      · simp only [Ledger.Bounds, Ledger.worth_mk, verdict_credit,
          verdict_debit, verdict_weight, LocalShared.confirmed]
        repeat' split
        all_goals simp [LocalOp.confirms]
        all_goals split <;> simp [same]
  | delivered delivers =>
      rcases delivers with rfl | rfl <;>
        simp [Ledger.Bounds, LocalOp.confirms, confirmed_append] <;> omega
  | gaveUp =>
      simp only [Ledger.Bounds, Ledger.worth_mk, verdict_credit, verdict_debit,
        LocalShared.confirmed, Ledger.weigh_nil, List.flatten_nil]
      omega
  | _ => simp [Ledger.Bounds, LocalOp.confirms]

theorem intake_execDispatch {op : DispatchOp Request}
    (internal : LocalConfig.internal op = true)
    (executed : config.execDispatch shared op branch = some outcome) :
    (intake req).Keeps shared (.dispatch op) outcome := by
  obtain ⟨effect, ran, rfl⟩ := Option.map_eq_some_iff.mp executed
  unfold Ledger.Keeps
  cases Dispatcher.exec_does ran with
  | nextNone took | nextFound took | takeNone took | takeFound took =>
      simp [LocalConfig.dispatched, LocalOp.admits,
        Dispatcher.admitted_of_take took]
  | _ =>
      simp_all [LocalConfig.internal, LocalConfig.dispatched, LocalOp.admits,
        Dispatcher.setOnce] <;> omega

/-- A failed request is not admitted. -/
theorem intake_failRequest (other : Request) (err : Err) :
    (intake req).worth (config.failRequest shared other err) =
      (intake req).credit shared + [other].count req := by
  unfold LocalConfig.failRequest
  split <;> simp [LocalOp.admits] <;> omega

theorem intake_exec
    (executed : config.exec shared op branch = some outcome) :
    (intake req).Keeps shared op outcome := by
  unfold Ledger.Keeps
  cases LocalConfig.exec_does executed with
  | failed calls =>
      rcases calls with rfl | rfl <;>
        simp only [intake_failRequest, intake_weight, LocalOp.admits,
          intake_debit]
  | dispatched inside executed => exact intake_execDispatch inside executed
  | delivered delivers =>
      rcases delivers with rfl | rfl <;> simp [LocalOp.admits]
  | _ => simp [LocalConfig.confirmation, LocalOp.admits]

end Ledgers

section Runs

open Pool

variable {config : LocalConfig} {users : List (List Request)}
  {state : LocalState} {req : Request}

theorem settlement_reached (oneway : req.oneway = true)
    (reached : config.Reaches users state) :
    (state.shared.responses.map Prod.fst).count req ≤
      users.flatten.count req := by
  have bound := (settlement req).bounded
    (fun runs _ _ => settlement_exec oneway runs.exec_eq)
    (fun _ _ _ acted => by
      obtain ⟨_, _, rfl⟩ := environment_eq acted
      exact ⟨rfl, rfl⟩) reached
  rw [weigh_start fun _ => rfl] at bound
  simp only [settlement_credit, settlement_debit, newLocalChannel,
    List.map_nil, List.count_nil] at bound
  omega

theorem verdict_reached (oneway : req.oneway = true)
    (reached : config.Reaches users state) :
    (verdict req).credit state.shared + (verdict req).weigh state.ops ≤
      users.flatten.count req := by
  have bound := (verdict req).bounded
    (fun runs _ _ => verdict_exec oneway runs.exec_eq)
    (fun _ _ _ acted => by
      obtain ⟨_, _, rfl⟩ := environment_eq acted
      exact ⟨rfl, rfl⟩) reached
  rw [weigh_start fun _ => rfl] at bound
  simpa [newLocalChannel, LocalShared.confirmed] using bound

theorem intake_reached (reached : config.Reaches users state)
    (req : Request) :
    (intake req).credit state.shared + (intake req).weigh state.ops =
      users.flatten.count req := by
  have balance := (intake req).balanced
    (fun _ _ _ _ executed _ => intake_exec executed)
    (fun _ _ _ acted => by
      obtain ⟨_, _, rfl⟩ := environment_eq acted
      exact ⟨rfl, rfl⟩) reached
  rw [weigh_start fun _ => rfl] at balance
  simpa [newLocalChannel] using balance

/-- Only `push` and `tryPush` admit a request. -/
theorem not_admits_execDispatch {shared : LocalShared}
    {op : DispatchOp Request} {branch : Branch} {outcome : LocalEffect}
    (internal : LocalConfig.internal op = true)
    (executed : config.execDispatch shared op branch = some outcome) :
    (∀ op ∈ outcome.next, op ≠ .dispatch (.admitRun req)) ∧
      ∀ thread ∈ outcome.spawned, ∀ op ∈ thread,
        op ≠ .dispatch (.admitRun req) := by
  obtain ⟨effect, ran, rfl⟩ := Option.map_eq_some_iff.mp executed
  cases Dispatcher.exec_does ran with
  | pushed | tryPushed => cases internal
  | _ => simp [LocalConfig.dispatched]

/-- What confirms a request. -/
def Confirms (req : Request) (op : LocalOp) : Prop :=
  ∃ resp : Response, resp.err = none ∧ op = .deliver req resp

theorem admits_covered {shared : LocalShared} {op : LocalOp} {branch : Branch}
    {outcome : LocalEffect} (want : req.wantSendConfirmation = true)
    (executed : config.exec shared op branch = some outcome) :
    Covered (· = .dispatch (.admitRun req)) (Confirms req) outcome.next ∧
      ∀ thread ∈ outcome.spawned,
        Covered (· = .dispatch (.admitRun req)) (Confirms req) thread := by
  cases LocalConfig.exec_does executed with
  | failed calls =>
      unfold LocalConfig.failRequest
      split <;> simp [Covered]
  | dispatched inside executed =>
      obtain ⟨next, spawned⟩ := not_admits_execDispatch inside executed
      exact ⟨.of_light next,
        fun thread member => .of_light (spawned thread member)⟩
  | pushed =>
      unfold LocalConfig.confirmation
      refine ⟨⟨?_, ?_⟩, List.forall_mem_nil _⟩
      · intro equal
        cases equal
        simp [want, Confirms]
      · split <;> simp [Covered]
  | sent => split <;> simp [Covered]
  | _ => simp [Covered]

/-- `Enqueue` confirms a request after it has pushed it. -/
theorem confirms_of_admits (want : req.wantSendConfirmation = true)
    (reached : config.Reaches users state)
    (admits : .dispatch (.admitRun req) ∈ state.ops) :
    ∃ op ∈ state.ops, Confirms req op := by
  refine reached.covered (· = .dispatch (.admitRun req)) (Confirms req)
    ?start ?next ?spawned admits rfl
  case start =>
    intro thread member
    obtain ⟨reqs, _, rfl⟩ := List.mem_map.mp member
    apply Covered.of_light
    intro op inside
    obtain ⟨call, _, rfl⟩ := List.mem_map.mp inside
    simp
  case next =>
    intro state thread choice next runs _ _ _
    exact (admits_covered want runs.exec_eq).1
  case spawned =>
    intro state thread choice next runs
    exact (admits_covered want runs.exec_eq).2

/-- A one-way request gets at most one outcome. -/
theorem length_local_deliveries (oneway : req.oneway = true)
    (distinct : users.flatten.Nodup) (reached : config.Reaches users state) :
    (state.shared.deliveries req).length ≤ 1 := by
  have once := List.nodup_iff_count_le_one.mp distinct req
  rw [LocalShared.length_deliveries]
  exact (settlement_reached oneway reached).trans once

/-- A one-way request is confirmed after the dispatcher has admitted it. -/
theorem admitted_of_confirmed (want : req.wantSendConfirmation = true)
    (distinct : users.flatten.Nodup) (reached : config.Reaches users state)
    {resp : Response} (delivered : (req, resp) ∈ state.shared.responses)
    (success : resp.err = none) : req ∈ state.shared.requests.admitted := by
  have oneway : req.oneway = true := by
    simp_all [Request.wantSendConfirmation]
  have confirmed : 0 < state.shared.confirmed.count req := by
    apply List.count_pos_iff.mpr
    apply List.mem_map.mpr
    exact ⟨(req, resp), List.mem_filter.mpr ⟨delivered, by simp [success]⟩, rfl⟩
  have once := List.nodup_iff_count_le_one.mp distinct req
  have settled := verdict_reached oneway reached
  have balance := intake_reached reached req
  rw [verdict_credit] at settled
  rw [intake_credit] at balance
  have open_eq_zero : ∀ op ∈ state.ops, op.confirms.count req = 0 := by
    intro op member
    have held : (verdict req).weight op ≤ _ := Ledger.weight_le_weigh member
    rw [verdict_weight] at held
    omega
  have closed : (intake req).weigh state.ops = 0 := by
    apply Ledger.weigh_eq_zero
    intro op member
    cases op with
    | enqueue other => exact open_eq_zero _ member
    | push other => exact open_eq_zero _ member
    | dispatch op =>
        cases op with
        | admitRun other =>
            apply List.count_eq_zero.mpr
            intro same
            obtain rfl := List.mem_singleton.mp same
            -- The confirmation of this request would still be to come.
            obtain ⟨_, pending, later, succeeds, rfl⟩ :=
              confirms_of_admits want reached member
            simpa [LocalOp.confirms, succeeds] using open_eq_zero _ pending
        | _ => rfl
    | _ => rfl
  apply List.count_pos_iff.mp
  omega

/-- A one-way request on a local channel gets at most one outcome, and is
confirmed only if its handler is to run. -/
theorem local_confirmation_sound (want : req.wantSendConfirmation = true)
    (distinct : users.flatten.Nodup) (reached : config.Reaches users state) :
    (state.shared.deliveries req).length ≤ 1 ∧
      ∀ resp, (req, resp) ∈ state.shared.responses → resp.err = none →
        req ∈ state.shared.requests.admitted :=
  ⟨length_local_deliveries (Bool.and_eq_true_iff.mp want).1 distinct reached,
    fun _ => admitted_of_confirmed want distinct reached⟩

/-- A one-way request. -/
def localCast : Request :=
  { uid := 1, ctx := 1, msg := {}, responseChan := some 1, oneway := true }

/-- Follow the steps of `Enqueue` for a one-way request. -/
def followCast : Option LocalState :=
  LocalConfig.machine ⟨1, some fun _ => [], 1⟩ |>.follow (fun _ _ => true)
    (newLocalChannel [[localCast]]) (List.replicate 6 (.run 0 .first))

theorem followCast_isSome : followCast.isSome = true := by
  decide +kernel

theorem local_confirmation_sound_cast :
    localCast ∈ (followCast.get followCast_isSome).shared.requests.admitted :=
  (local_confirmation_sound (by decide) (by decide)
    (Pool.Machine.reach_of_isSome (fun _ _ _ => trivial)
      followCast_isSome)).2 ⟨1, none, none⟩ (by decide +kernel) rfl

end Runs

end Stream
end Gorums
