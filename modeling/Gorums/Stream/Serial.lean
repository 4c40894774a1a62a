import Gorums.Stream.Order
import Gorums.Stream.Slots

/-!
# Handlers run one at a time and in order

On every channel, one handler at most has neither released nor returned, and
handlers start in the order in which they were admitted.
-/

namespace Gorums
namespace Stream

open Pool

/-! ## The order of a dispatcher -/

namespace Dispatcher

variable {size : Nat} {stopped : Bool} {expired : α → Bool}
  {dispatcher : Dispatcher α} {op : DispatchOp α} {branch : Branch}
  {effect : Outcome (Dispatcher α) (DispatchOp α)} {starting : List α}

/-- The handlers that have started, the one that is about to, and the queued
ones are the first that were admitted, and all of them until the dispatcher
stops. -/
def Lined (stopped : Bool) (dispatcher : Dispatcher α) (starting : List α) :
    Prop :=
  dispatcher.started ++ (starting ++ dispatcher.queue) <+: dispatcher.admitted ∧
    (stopped = false →
      dispatcher.started ++ (starting ++ dispatcher.queue) = dispatcher.admitted)

/-- The dispatcher is idle, or a handler is in charge of it. -/
def Settled (dispatcher : Dispatcher α) : Prop :=
  dispatcher.running = false ∨ 0 < dispatcher.unreleased.card

theorem Lined.of_eq
    (equal : dispatcher.started ++ (starting ++ dispatcher.queue) =
      dispatcher.admitted) : dispatcher.Lined stopped starting :=
  ⟨equal ▸ List.prefix_refl _, fun _ => equal⟩

/-- A dispatcher that has just stopped still has its handlers in order. -/
theorem Lined.mono {later : Bool} (stops : stopped = true → later = true)
    (lined : dispatcher.Lined stopped starting) :
    dispatcher.Lined later starting := by
  refine ⟨lined.1, fun isOpen => lined.2 ?_⟩
  rw [← Bool.not_eq_true] at isOpen ⊢
  exact fun ended => isOpen (stops ended)

theorem Lined.push {run : α} (isOpen : stopped = false)
    (lined : dispatcher.Lined stopped starting) :
    ({ dispatcher with
      queue := dispatcher.queue ++ [run]
      admitted := dispatcher.admitted ++ [run] } :
        Dispatcher α).Lined stopped starting := by
  apply Lined.of_eq
  simp [← lined.2 isOpen]

/-- What a queued handler leaves behind. -/
theorem Lined.take {taken : Dispatcher α} {run : α}
    (took : dispatcher.take stopped = (some run, taken))
    (lined : dispatcher.Lined stopped []) : taken.Lined stopped [run] := by
  obtain ⟨isOpen, queue, queued, rfl⟩ := take_found took
  apply Lined.of_eq
  simp [← lined.2 isOpen, queued]

theorem Lined.idle {taken : Dispatcher α}
    (took : dispatcher.take stopped = (none, taken))
    (lined : dispatcher.Lined stopped []) : taken.Lined stopped [] := by
  obtain ⟨slots, dropped, _, kept, rfl⟩ := take_idle took
  refine ⟨?_, fun isOpen => ?_⟩
  · simpa using (List.prefix_append _ _).trans lined.1
  · simpa [(kept isOpen).1] using lined.2 isOpen

theorem Lined.begin {run : α} (lined : dispatcher.Lined stopped [run]) :
    ({ dispatcher with started := dispatcher.started ++ [run] } :
      Dispatcher α).Lined stopped [] := by
  simpa [Lined] using lined

/-- A dispatcher is not settled while an operation is in charge of it. -/
theorem not_settled
    (inCharge : dispatcher.unreleased.card + 1 ≤ dispatcher.running.toNat) :
    ¬ dispatcher.Settled := by
  have bound := Bool.toNat_le dispatcher.running
  rintro (idle | handler)
  · rw [idle, Bool.toNat_false] at inCharge
    omega
  · omega

/-- The first call of a handler's `once` takes over its charge. -/
theorem not_settled_setOnce {position : Nat}
    (started : position < dispatcher.started.length)
    (fresh : dispatcher.once position = .fresh)
    (balance : dispatcher.unreleased.card ≤ dispatcher.running.toNat) :
    ¬ (dispatcher.setOnce position .running).Settled := by
  apply not_settled
  rw [card_unreleased_first .running (by decide) started fresh, running_setOnce]
  exact balance

theorem unreleased_pos {position : Nat}
    (started : position < dispatcher.started.length)
    (fresh : dispatcher.once position = .fresh) :
    0 < dispatcher.unreleased.card := by
  apply Finset.card_pos.mpr
  exact ⟨position, by simp [unreleased, started, fresh]⟩

theorem Lined.setOnce {position : Nat} {once : Once}
    (lined : dispatcher.Lined stopped starting) :
    (dispatcher.setOnce position once).Lined stopped starting :=
  lined

section Exec

variable (sound : dispatcher.Sound size stopped)
  (noted : dispatcher.Noted op)
  (balance : dispatcher.unreleased.card + charge.weight op ≤
    dispatcher.running.toNat)
  (settled : dispatcher.Settled → dispatcher.Lined stopped [])
  (inLine : 0 < charge.weight op →
    dispatcher.Lined stopped op.starts.toList)
  (executed : dispatcher.exec size stopped expired op branch = some effect)

include executed

/-- An operation that is not in charge leaves the order of a dispatcher that
runs as it is. -/
theorem lined_of_running (light : charge.weight op = 0)
    (running : dispatcher.running = true)
    (lined : dispatcher.Lined stopped starting) :
    effect.shared.Lined stopped starting := by
  cases exec_does executed with
  | queued isOpen => exact lined.push isOpen
  | admitted isOpen idle => cases idle.symm.trans running
  | begun => cases light
  | nextNone | nextFound | takeNone | takeFound => cases light
  | _ => exact lined

include noted balance settled inLine

/-- While a dispatcher is settled, no handler is about to start. -/
theorem lined_of_settled (stays : effect.shared.Settled) :
    effect.shared.Lined stopped [] := by
  cases exec_does executed with
  | queued isOpen => exact (settled stays).push isOpen
  | admitted isOpen idle =>
      -- The new handler is in charge, so the dispatcher is not settled.
      refine absurd stays (not_settled ?_)
      rw [idle, Bool.toNat_false] at balance
      exact Nat.succ_le_succ balance
  | begun => exact (inLine Nat.one_pos).begin
  | releaseCalled fresh | returnCalled fresh =>
      exact absurd stays (not_settled_setOnce noted fresh balance)
  | onceReturned =>
      refine (settled (stays.imp_right fun handler => ?_)).setOnce
      rw [card_unreleased_again .done (by decide) noted.2] at handler
      exact handler
  | nextNone took | takeNone took => exact (inLine Nat.one_pos).idle took
  | nextFound took | takeFound took =>
      obtain ⟨_, queue, _, rfl⟩ := take_found took
      exact absurd stays (not_settled balance)
  | _ => exact settled stays

include sound in
/-- A handler that is about to start is the next one. -/
theorem lined_of_fresh :
    ∀ left ∈ effect.next ++ effect.spawned.flatten, 0 < charge.weight left →
      effect.shared.Lined stopped left.starts.toList := by
  cases exec_does executed with
  | @admitted run isOpen idle =>
      have lined := (settled (.inl idle)).2 isOpen
      have next : ({ dispatcher with
          running := true
          admitted := dispatcher.admitted ++ [run] } :
            Dispatcher α).Lined stopped [run] := by
        apply Lined.of_eq
        rw [sound.idle idle] at lined ⊢
        simp [← lined]
      simpa [charge, DispatchOp.starts] using next
  | spawned => simpa [charge, DispatchOp.starts] using inLine Nat.one_pos
  | releaseCalled fresh | returnCalled fresh =>
      simpa [charge, DispatchOp.starts] using
        (settled (.inr (unreleased_pos noted fresh))).setOnce
  | nextFound took | takeFound took =>
      simpa [charge, DispatchOp.starts] using (inLine Nat.one_pos).take took
  | _ => simp [charge]

end Exec

end Dispatcher

/-! ## The dispatcher of a channel -/

/-- What an operation of a channel does to the dispatcher, and which operations
on the dispatcher it leaves. -/
inductive DispatchStep (config : Config) (shared : Shared) (op : Op)
    (outcome : Effect) : Prop
  | own (inner : DispatchOp Job) (branch : Branch)
      (effect : Outcome (Dispatcher Job) (DispatchOp Job))
      (running : op = .dispatch inner)
      (executed : shared.requests.exec config.recvBufferSize (shared.ended 0)
        (fun _ => shared.ended 0) inner branch = some effect)
      (equal : outcome = liftDispatch shared effect)
  | other (requests : outcome.shared.requests = shared.requests)
      (serving : ∀ inner, op = .dispatch inner → inner.serving.isSome = true)
      (fresh : Fresh (fun later => ∀ inner, later = .dispatch inner →
        op = .dispatch inner ∨ ∃ job, inner = .push job ∧
          op = .recv job.session (.handle job.index job.msg) ∧
          (shared.session job.session).isRequest job.msg = true) outcome)

section Exec

variable {config : Config} {shared : Shared} {outcome : Effect}

theorem dispatch_exec {op : Op} {choice : Choice}
    (executed : exec config shared op choice = some outcome) :
    DispatchStep config shared op outcome := by
  cases exec_does executed with
  | dispatch _ ran => exact .own _ _ _ rfl ran rfl
  | reply serves =>
      rcases serves with rfl | rfl <;>
        exact .other rfl (by simp [DispatchOp.serving]) (by simp [Fresh, reply])
  | queue does | session _ does =>
      cases does <;> exact .other rfl (by simp) (by simp [Fresh, drainCalls])
  | send _ does | run _ does =>
      cases does <;> refine .other rfl (by simp) ?_ <;>
        simp [Fresh, drainCalls, loopReturn, openStream, recordFailure, or_imp,
          forall_and]
  | recv _ does =>
      clear executed
      cases does <;> refine .other rfl (by simp) ?_ <;>
        simp_all [Fresh, drainCalls, or_imp]
  | _ =>
      refine .other rfl (by simp) ?_
      simp [Fresh, drainCalls, exited, or_imp, forall_and]

/-- The dispatcher of a channel takes nothing back. -/
theorem DispatchStep.grows {op : Op}
    (step : DispatchStep config shared op outcome) :
    shared.requests.Grows outcome.shared.requests := by
  cases step with
  | own inner branch effect running executed equal =>
      rw [equal]
      exact Dispatcher.grows_exec executed
  | other requests serving fresh =>
      rw [requests]
      exact .unchanged rfl rfl rfl rfl

/-- What an operation on the dispatcher leaves. -/
theorem mem_liftDispatch {effect : Outcome (Dispatcher Job) (DispatchOp Job)}
    {inner : DispatchOp Job} :
    .dispatch inner ∈ (liftDispatch shared effect).next ++
        (liftDispatch shared effect).spawned.flatten ↔
      inner ∈ effect.next ++ effect.spawned.flatten := by
  simp only [liftDispatch]
  rw [← List.map_flatten, ← List.map_append]
  apply List.mem_map_of_injective
  intro first second same
  exact Op.dispatch.inj same

theorem requests_environment {event : Event} {after : Shared}
    (acted : environment shared event = some after) :
    after.requests = shared.requests := by
  cases environment_acts acted <;> rfl

/-- A ledger of the dispatcher, as part of the channel. -/
def hosted (ledger : Ledger (Dispatcher Job) (DispatchOp Job)) :
    Ledger Shared Op where
  credit shared := ledger.credit shared.requests
  debit shared := ledger.debit shared.requests
  weight := fun
    | .dispatch op => ledger.weight op
    | _ => 0

theorem weigh_hosted (ledger : Ledger (Dispatcher Job) (DispatchOp Job))
    (ops : List (DispatchOp Job)) :
    (hosted ledger).weigh (ops.map .dispatch) = ledger.weigh ops := by
  simp [Ledger.weigh, Function.comp_def, hosted]

/-- A ledger of the dispatcher in which neither handlers nor pushes weigh
anything stays balanced if the operations of the dispatcher keep it so. -/
theorem hosted_keeps {ledger : Ledger (Dispatcher Job) (DispatchOp Job)}
    {op : Op}
    (handlers : ∀ inner : DispatchOp Job, inner.serving.isSome = true →
      ledger.weight inner = 0)
    (pushes : ∀ job, ledger.weight (.push job) = 0)
    (keeps : ∀ inner branch effect, op = .dispatch inner →
      shared.requests.exec config.recvBufferSize (shared.ended 0)
        (fun _ => shared.ended 0) inner branch = some effect →
      ledger.Keeps shared.requests inner effect)
    (step : DispatchStep config shared op outcome) :
    (hosted ledger).Keeps shared op outcome := by
  cases step with
  | own inner branch effect running executed equal =>
      have kept := keeps inner branch effect running executed
      have spawned : (hosted ledger).weigh
          (effect.spawned.map fun ops => ops.map Op.dispatch).flatten =
            ledger.weigh effect.spawned.flatten := by
        rw [← List.map_flatten, weigh_hosted]
      rw [equal, running]
      unfold Ledger.Keeps Ledger.worth at kept ⊢
      simp only [liftDispatch, weigh_hosted, spawned]
      exact kept
  | other requests serving fresh =>
      have running : (hosted ledger).weight op = 0 := by
        cases op with
        | dispatch inner => exact handlers inner (serving inner rfl)
        | _ => rfl
      have left : ∀ later ∈ outcome.next ++ outcome.spawned.flatten,
          (hosted ledger).weight later = 0 := by
        intro later member
        cases later with
        | dispatch inner =>
            rcases fresh.of_mem member inner rfl with same | ⟨job, rfl, _⟩
            · exact same ▸ running
            · exact pushes job
        | _ => rfl
      have weight := (hosted ledger).weigh_eq_zero left
      rw [Ledger.weigh_append] at weight
      have same : (hosted ledger).credit outcome.shared =
          (hosted ledger).credit shared ∧
        (hosted ledger).debit outcome.shared = (hosted ledger).debit shared := by
        simp [hosted, requests]
      unfold Ledger.Keeps Ledger.worth
      omega

end Exec

section Runs

variable {config : Config} {workload : Workload}
  {allowed : ChannelState → Step → Prop} {state : ChannelState}

@[simp] theorem Config.start_requests (config : Config) (workload : Workload) :
    (config.start workload).shared.requests = {} := by
  unfold Config.start
  cases config.kind <;> rfl

/-- A new channel has no operation on its dispatcher. -/
theorem Config.start_dispatch (inner : DispatchOp Job) :
    .dispatch inner ∉ (config.start workload).ops := by
  intro member
  rcases config.mem_start_ops workload member with
    ⟨_, same⟩ | ⟨_, same | same⟩ | ⟨_, _, same⟩ | same | ⟨_, same⟩ <;>
    cases same

/-- What holds of the dispatcher of a channel, and what is known when an
operation on it is reached. -/
theorem dispatcher_reached (reached : config.Reaches workload allowed state) :
    state.shared.requests.Sound config.recvBufferSize (state.shared.ended 0) ∧
      ∀ op ∈ state.ops, ∀ inner, op = .dispatch inner →
        state.shared.requests.Noted inner := by
  have stops : ∀ {before after : Shared}, before.Advances after →
      before.requests.Sound config.recvBufferSize (before.ended 0) →
      before.requests.Sound config.recvBufferSize (after.ended 0) :=
    fun advances sound => ⟨sound.unstarted, sound.slots, sound.idle,
      fun lost => advances.ended (sound.dropped lost)⟩
  refine reached.annotated
    (fun shared =>
      shared.requests.Sound config.recvBufferSize (shared.ended 0))
    (fun shared op => ∀ inner, op = .dispatch inner →
      shared.requests.Noted inner) ?initial ?run ?environment
  case initial =>
    refine ⟨?_, ?_⟩
    · rw [config.start_requests workload]
      exact ⟨fun _ _ => rfl, Nat.zero_le _, fun _ => rfl,
        fun lost => absurd rfl lost⟩
    · rintro op member inner rfl
      exact absurd member (config.start_dispatch inner)
  case run =>
    intro state thread choice next runs reached _ sound noted
    have step := dispatch_exec runs.exec_eq
    have advances := advances_exec runs.exec_eq
    refine ⟨?_, ?_, fun op _ before inner same =>
      (before inner same).grows step.grows⟩
    · cases step with
      | own inner branch effect running executed equal =>
          rw [equal]
          exact Dispatcher.sound_exec sound (noted inner running) executed
      | other requests serving fresh =>
          rw [requests]
          exact stops advances sound
    · rintro op fresh inner rfl
      cases step with
      | own running branch effect same executed equal =>
          unfold Machine.Runs.fresh at fresh
          rw [equal] at fresh ⊢
          exact Dispatcher.noted_exec (noted running same) executed inner
            (mem_liftDispatch.mp fresh)
      | other requests serving left =>
          rw [requests]
          rcases left.of_mem fresh inner rfl with same | ⟨job, rfl, _⟩
          · exact noted inner same
          · trivial
  case environment =>
    intro shared event after acted sound
    rw [requests_environment acted]
    exact ⟨stops (advances_environment acted) sound, fun op before => before⟩

/-- While the dispatcher of a channel runs, one handler or operation is in
charge of it. -/
theorem charge_reached (reached : config.Reaches workload allowed state) :
    state.shared.requests.unreleased.card +
        (hosted Dispatcher.charge).weigh state.ops =
      state.shared.requests.running.toNat := by
  have light : (hosted Dispatcher.charge).weigh (config.start workload).ops = 0 := by
    apply Ledger.weigh_eq_zero
    intro op member
    cases op with
    | dispatch inner => exact absurd member (config.start_dispatch inner)
    | _ => rfl
  have balance := (hosted Dispatcher.charge).conserved (by
    intro state thread choice next runs reached _ bound
    obtain ⟨sound, noted⟩ := dispatcher_reached reached
    refine hosted_keeps ?_ (fun _ => rfl) ?_ (dispatch_exec runs.exec_eq)
    · intro inner serves
      cases inner <;> first | rfl | cases serves
    · intro inner branch effect running executed
      refine Dispatcher.charge_exec sound (noted _ runs.op_mem inner running) ?_
        executed
      intro weighs
      rw [running, light] at bound
      simp only [hosted, Config.start_requests, Dispatcher.charge_debit] at bound
      have empty : Dispatcher.charge.credit ({} : Dispatcher Job) = 0 := rfl
      have least : 1 ≤ state.shared.requests.running.toNat := by omega
      exact Bool.toNat_eq_one.mp (Nat.le_antisymm (Bool.toNat_le _) least))
    (fun _ _ _ acted => by simp [hosted, requests_environment acted]) reached
  rw [light] at balance
  simpa [hosted, Dispatcher.unreleased] using balance

/-- At most one started handler has neither released nor returned. -/
theorem unreleased_le_one (reached : config.Reaches workload allowed state) :
    state.shared.requests.unreleased.card ≤ 1 := by
  have charge := charge_reached reached
  have bound := Bool.toNat_le state.shared.requests.running
  omega

/-- The handlers of a channel start in the order of their admission. -/
theorem lined_reached (reached : config.Reaches workload allowed state) :
    (state.shared.requests.Settled →
        state.shared.requests.Lined (state.shared.ended 0) []) ∧
      ∀ op ∈ state.ops, ∀ inner, op = .dispatch inner →
        0 < Dispatcher.charge.weight inner →
        state.shared.requests.Lined (state.shared.ended 0)
          inner.starts.toList := by
  refine reached.annotated
    (fun shared => shared.requests.Settled →
      shared.requests.Lined (shared.ended 0) [])
    (fun shared op => ∀ inner, op = .dispatch inner →
      0 < Dispatcher.charge.weight inner →
      shared.requests.Lined (shared.ended 0) inner.starts.toList)
    ?initial ?run ?environment
  case initial =>
    refine ⟨fun _ => ?_, ?_⟩
    · rw [config.start_requests workload]
      exact Dispatcher.Lined.of_eq rfl
    · rintro op member inner rfl
      exact absurd member (config.start_dispatch inner)
  case run =>
    intro state thread choice next runs reached _ settled inLine
    obtain ⟨sound, noted⟩ := dispatcher_reached reached
    have charge := charge_reached reached
    have stops : state.shared.ended 0 = true → runs.outcome.shared.ended 0 = true :=
      (advances_exec runs.exec_eq).ended
    cases dispatch_exec runs.exec_eq with
    | own running branch effect same executed equal =>
        have weighs := (hosted Dispatcher.charge).weight_le_weigh runs.op_mem
        rw [same] at weighs
        have balance : state.shared.requests.unreleased.card +
            Dispatcher.charge.weight running ≤
              state.shared.requests.running.toNat := by
          rw [← charge]
          exact Nat.add_le_add_left weighs _
        have calm := noted _ runs.op_mem running same
        rw [equal]
        refine ⟨?_, ?_, ?_⟩
        · exact Dispatcher.lined_of_settled calm balance settled
            (inLine running same) executed
        · rintro op fresh inner rfl heavy
          unfold Machine.Runs.fresh at fresh
          rw [equal] at fresh
          exact Dispatcher.lined_of_fresh sound calm balance settled
            (inLine running same) executed inner (mem_liftDispatch.mp fresh) heavy
        · rintro op other before inner rfl heavy
          -- Only one operation is in charge, and it is not the running one.
          have two := (hosted Dispatcher.charge).weight_add_weight_le runs other
          have bound := Bool.toNat_le state.shared.requests.running
          rw [same] at two
          simp only [hosted] at two charge
          have light : Dispatcher.charge.weight running = 0 := by omega
          refine Dispatcher.lined_of_running executed light ?_
            (before inner rfl heavy)
          apply Bool.toNat_eq_one.mp
          omega
    | other requests serving left =>
        rw [requests]
        refine ⟨fun stays => (settled stays).mono stops, ?_, ?_⟩
        · rintro op fresh inner rfl heavy
          rcases left.of_mem fresh inner rfl with same | ⟨job, rfl, _⟩
          · exact (inLine inner same heavy).mono stops
          · cases heavy
        · intro op _ before inner same heavy
          exact (before inner same heavy).mono stops
  case environment =>
    intro shared event after acted settled
    have stops : shared.ended 0 = true → after.ended 0 = true :=
      (advances_environment acted).ended
    rw [requests_environment acted]
    refine ⟨fun stays => (settled stays).mono stops, ?_⟩
    intro op before inner same heavy
    exact (before inner same heavy).mono stops

/-- At most one handler is about to start. -/
theorem exists_lined (reached : config.Reaches workload allowed state) :
    ∃ starting, starting.length ≤ 1 ∧
      state.shared.requests.Lined (state.shared.ended 0) starting := by
  obtain ⟨settled, inLine⟩ := lined_reached reached
  by_cases stays : state.shared.requests.Settled
  · exact ⟨[], Nat.zero_le 1, settled stays⟩
  · -- Some operation is in charge, and it knows the order.
    have charge := charge_reached reached
    simp only [Dispatcher.Settled, not_or, Bool.not_eq_false, Nat.not_lt,
      Nat.le_zero] at stays
    rw [stays.1, stays.2, Nat.zero_add] at charge
    obtain ⟨op, member, heavy⟩ := Ledger.exists_of_weigh_pos
      (Nat.lt_of_lt_of_eq Nat.one_pos charge.symm)
    cases op with
    | dispatch inner =>
        exact ⟨_, Option.length_toList_le, inLine _ member inner rfl heavy⟩
    | _ => cases heavy

/-- On every channel, one handler at most has neither released nor returned, and
handlers start in the order of their admission.  Until the channel's context
ends, a request that has been admitted has started, is about to start, or is
queued. -/
theorem handlers_serial (reached : config.Reaches workload allowed state) :
    state.shared.requests.unreleased.card ≤ 1 ∧
      state.shared.requests.started <+: state.shared.requests.admitted ∧
      (state.shared.ended 0 = false → ∃ starting, starting.length ≤ 1 ∧
        state.shared.requests.admitted = state.shared.requests.started ++
          (starting ++ state.shared.requests.queue)) := by
  obtain ⟨starting, few, lined⟩ := exists_lined reached
  exact ⟨unreleased_le_one reached, (List.prefix_append _ _).trans lined.1,
    fun isOpen => ⟨starting, few, (lined.2 isOpen).symm⟩⟩

/-- A second request is received while the handler of the first runs. -/
def secondQueued : List Step :=
  Step.first 0 1 ++ [.run 1 (.frame { messageSeqNo := 1 })] ++
    Step.first 1 11 ++ Step.first 3 1 ++ Step.first 1 1 ++
    [.run 1 (.frame { messageSeqNo := 2 })] ++ Step.first 1 6

theorem secondQueued_followed :
    (smallInbound.follow callOnly secondQueued).isSome = true := by
  decide +kernel

theorem handlers_serial_queued :
    ∃ state : ChannelState, state.shared.requests.queue.length = 1 ∧
      state.shared.requests.unreleased.card = 1 ∧
      state.shared.requests.started <+: state.shared.requests.admitted := by
  refine ⟨_, ?_, ?_, (handlers_serial
    (Config.reaches_of_follow secondQueued_followed)).2.1⟩
  · decide +kernel
  · decide +kernel

end Runs

end Stream
end Gorums
