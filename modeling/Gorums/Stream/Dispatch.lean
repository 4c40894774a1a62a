import Gorums.Pool.Machine

/-!
# The dispatcher

Request handlers of one channel run one at a time, in push order.  A section
that holds the dispatcher's mutex is one operation; sends to and receives from
the slot channel are operations of their own.  The `sync.Once` of a started
handler is part of the state, under the position at which the handler started.
-/

namespace Gorums
namespace Stream

/-- Which ready case a `select`, or which continuation a handler, takes. -/
inductive Branch
  | first
  | second
  | third
  deriving DecidableEq

/-- The state of a dispatcher for handlers `α`. -/
structure Dispatcher (α : Type) where
  /-- The number of tokens in the slot channel. -/
  slots : Nat := 0
  /-- The handlers that wait for the running one. -/
  queue : List α := []
  /-- Whether a handler is running and has not been released. -/
  running : Bool := false
  /-- The `sync.Once` of each started handler. -/
  once : Nat → Once := fun _ => .fresh
  /-- The handlers that have started, in order. -/
  started : List α := []
  /-- The handlers whose push returned true, in order. -/
  admitted : List α := []
  /-- The handlers that a stopped dispatcher discarded. -/
  dropped : List α := []

/-- The operations of the goroutines that use a dispatcher. -/
inductive DispatchOp (α : Type)
  /-- `push`: wait for a slot. -/
  | push (run : α)
  /-- `tryPush`: take a slot if there is one. -/
  | tryPush (run : α)
  /-- `admit`, after the slot has been taken. -/
  | admitRun (run : α)
  /-- `<-d.slots`. -/
  | slot
  /-- `start`: a new goroutine for a handler. -/
  | start (run : α)
  /-- The goroutine calls the handler. -/
  | begin (run : α)
  /-- The body of a started handler. -/
  | handler (position : Nat) (run : α)
  /-- A goroutine of the handler that can also reply and release. -/
  | helper (position : Nat) (run : α)
  /-- A call of the handler's release function. -/
  | release (position : Nat)
  /-- `next`, inside the handler's `once`. -/
  | next (position : Nat)
  /-- The handler has returned. -/
  | returned (position : Nat)
  /-- `take` after a return, inside the handler's `once`. -/
  | takeRun (position : Nat)
  /-- The function passed to `once.Do` returns. -/
  | onceDone (position : Nat)

namespace DispatchOp

/-- The handler in whose `once` an operation calls `take`. -/
def takes : DispatchOp α → Option Nat
  | .next position => some position
  | .takeRun position => some position
  | _ => none

theorem takes_cases {op : DispatchOp α} {position : Nat}
    (takes : op.takes = some position) :
    op = .next position ∨ op = .takeRun position := by
  cases op with
  | next other => exact .inl (congrArg _ (Option.some.inj takes))
  | takeRun other => exact .inr (congrArg _ (Option.some.inj takes))
  | _ => cases takes

end DispatchOp

namespace Dispatcher

/-- The mutex section of `take`: the oldest queued handler, if any. -/
def take (dispatcher : Dispatcher α) (stopped : Bool) :
    Option α × Dispatcher α :=
  let cleared :=
    if stopped then
      { dispatcher with
        slots := dispatcher.slots - dispatcher.queue.length
        queue := []
        dropped := dispatcher.dropped ++ dispatcher.queue }
    else dispatcher
  match cleared.queue with
  | [] => (none, { cleared with running := false })
  | run :: queue => (some run, { cleared with queue := queue })

/-- Set the `sync.Once` of a started handler. -/
def setOnce (dispatcher : Dispatcher α) (position : Nat) (once : Once) :
    Dispatcher α :=
  { dispatcher with
    once := fun other =>
      if other = position then once else dispatcher.once other }

/-- Execute one operation on a dispatcher with `size` slots, where `expired`
tells whether the context passed with a handler has ended. -/
def exec (size : Nat) (stopped : Bool) (expired : α → Bool)
    (dispatcher : Dispatcher α) :
    DispatchOp α → Branch → Option (Pool.Outcome (Dispatcher α) (DispatchOp α))
  | .push run, .first =>
      if dispatcher.slots < size then
        some ⟨{ dispatcher with slots := dispatcher.slots + 1 },
          [.admitRun run], []⟩
      else none
  | .push run, .second =>
      if stopped || expired run then some ⟨dispatcher, [], []⟩ else none
  | .tryPush run, .first =>
      if dispatcher.slots < size then
        some ⟨{ dispatcher with slots := dispatcher.slots + 1 },
          [.admitRun run], []⟩
      else some ⟨dispatcher, [], []⟩
  | .admitRun run, .first =>
      if stopped then some ⟨dispatcher, [.slot], []⟩
      else if dispatcher.running then
        some ⟨{ dispatcher with
          queue := dispatcher.queue ++ [run]
          admitted := dispatcher.admitted ++ [run] }, [], []⟩
      else
        some ⟨{ dispatcher with
          running := true
          admitted := dispatcher.admitted ++ [run] },
          [.slot, .start run], []⟩
  | .slot, .first =>
      if 0 < dispatcher.slots then
        some ⟨{ dispatcher with slots := dispatcher.slots - 1 }, [], []⟩
      else none
  | .start run, .first => some ⟨dispatcher, [], [[.begin run]]⟩
  | .begin run, .first =>
      some ⟨{ dispatcher with started := dispatcher.started ++ [run] },
        [.handler dispatcher.started.length run], []⟩
  | .handler position _, .first =>
      some ⟨dispatcher, [.returned position], []⟩
  | .handler position run, .second =>
      some ⟨dispatcher, [.release position, .handler position run], []⟩
  | .handler position run, .third =>
      some ⟨dispatcher, [.handler position run], [[.helper position run]]⟩
  | .helper _ _, .first => some ⟨dispatcher, [], []⟩
  | .helper position run, .second =>
      some ⟨dispatcher, [.release position, .helper position run], []⟩
  | .helper position run, .third =>
      some ⟨dispatcher, [.helper position run], [[.helper position run]]⟩
  | .release position, .first =>
      match dispatcher.once position with
      | .fresh => some ⟨dispatcher.setOnce position .running,
          [.next position], []⟩
      | .running => none
      | .done => some ⟨dispatcher, [], []⟩
  | .next position, .first =>
      match dispatcher.take stopped with
      | (none, taken) => some ⟨taken, [.onceDone position], []⟩
      | (some run, taken) =>
          some ⟨taken, [.slot, .start run, .onceDone position], []⟩
  | .returned position, .first =>
      match dispatcher.once position with
      | .fresh => some ⟨dispatcher.setOnce position .running,
          [.takeRun position], []⟩
      | .running => none
      | .done => some ⟨dispatcher, [], []⟩
  | .takeRun position, .first =>
      match dispatcher.take stopped with
      | (none, taken) => some ⟨taken, [.onceDone position], []⟩
      | (some run, taken) =>
          some ⟨taken, [.slot, .onceDone position, .begin run], []⟩
  | .onceDone position, .first =>
      some ⟨dispatcher.setOnce position .done, [], []⟩
  | _, _ => none

/-! ## What the mutex section of `take` leaves -/

theorem take_none {dispatcher taken : Dispatcher α}
    (took : dispatcher.take false = (none, taken)) :
    dispatcher.queue = [] ∧ taken = { dispatcher with running := false } := by
  unfold take at took
  cases queued : dispatcher.queue with
  | nil =>
      simp only [Bool.false_eq_true, if_false, queued] at took
      cases took
      exact ⟨rfl, by rw [← queued]⟩
  | cons run queue =>
      simp only [Bool.false_eq_true, if_false, queued] at took
      cases took

theorem take_some {dispatcher taken : Dispatcher α} {run : α}
    (took : dispatcher.take false = (some run, taken)) :
    ∃ queue, dispatcher.queue = run :: queue ∧
      taken = { dispatcher with queue := queue } := by
  unfold take at took
  cases queued : dispatcher.queue with
  | nil =>
      simp only [Bool.false_eq_true, if_false, queued] at took
      cases took
  | cons head queue =>
      simp only [Bool.false_eq_true, if_false, queued] at took
      cases took
      exact ⟨queue, rfl, rfl⟩

/-- A dispatcher that finds no handler is idle.  It loses handlers only if it has
stopped. -/
theorem take_idle {dispatcher taken : Dispatcher α} {stopped : Bool}
    (took : dispatcher.take stopped = (none, taken)) :
    ∃ slots dropped, slots ≤ dispatcher.slots ∧
      (stopped = false → dispatcher.queue = [] ∧ dropped = dispatcher.dropped) ∧
      taken = { dispatcher with
        slots := slots
        queue := []
        running := false
        dropped := dropped } := by
  cases stopped with
  | true =>
      cases took
      refine ⟨_, _, Nat.sub_le _ _, ?_, rfl⟩
      intro isOpen
      cases isOpen
  | false =>
      obtain ⟨queue, rfl⟩ := take_none took
      exact ⟨_, _, Nat.le_refl _, fun _ => ⟨queue, rfl⟩, by rw [queue]⟩

/-- A dispatcher that finds a handler has not stopped. -/
theorem take_found {dispatcher taken : Dispatcher α} {stopped : Bool} {run : α}
    (took : dispatcher.take stopped = (some run, taken)) :
    stopped = false ∧ ∃ queue, dispatcher.queue = run :: queue ∧
      taken = { dispatcher with queue := queue } := by
  cases stopped with
  | true => cases took
  | false => exact ⟨rfl, take_some took⟩

/-- A dispatcher that has not stopped loses no handler. -/
theorem take_of_open {dispatcher taken : Dispatcher α} {found : Option α}
    (took : dispatcher.take false = (found, taken)) :
    dispatcher.queue = found.toList ++ taken.queue ∧
      taken.started = dispatcher.started := by
  cases found with
  | none =>
      obtain ⟨queue, rfl⟩ := take_none took
      exact ⟨by simp [queue], rfl⟩
  | some run =>
      obtain ⟨queue, queued, rfl⟩ := take_some took
      exact ⟨queued, rfl⟩

theorem admitted_of_take {dispatcher taken : Dispatcher α} {found : Option α}
    (took : dispatcher.take false = (found, taken)) :
    taken.admitted = dispatcher.admitted := by
  cases found with
  | none =>
      obtain ⟨_, rfl⟩ := take_none took
      rfl
  | some run =>
      obtain ⟨_, _, rfl⟩ := take_some took
      rfl

/-! ## What a dispatcher never takes back -/

/-- How a dispatcher changes over time. -/
structure Grows (before after : Dispatcher α) : Prop where
  /-- Admitted handlers stay admitted. -/
  admitted : before.admitted <+: after.admitted
  /-- Started handlers stay started. -/
  started : before.started <+: after.started
  /-- Discarded handlers stay discarded. -/
  dropped : before.dropped <+: after.dropped
  /-- A `sync.Once` that has been called stays called. -/
  once : ∀ position, before.once position ≠ .fresh →
    after.once position ≠ .fresh

namespace Grows

theorem unchanged {before after : Dispatcher α}
    (admitted : after.admitted = before.admitted)
    (started : after.started = before.started)
    (dropped : after.dropped = before.dropped)
    (once : after.once = before.once) : before.Grows after :=
  ⟨admitted ▸ List.prefix_refl _, started ▸ List.prefix_refl _,
    dropped ▸ List.prefix_refl _, once ▸ fun _ called => called⟩

theorem trans {first second third : Dispatcher α}
    (before : first.Grows second) (after : second.Grows third) :
    first.Grows third :=
  ⟨before.admitted.trans after.admitted, before.started.trans after.started,
    before.dropped.trans after.dropped,
    fun position called => after.once position (before.once position called)⟩

theorem setOnce (dispatcher : Dispatcher α) (position : Nat) {once : Once}
    (called : once ≠ .fresh) :
    dispatcher.Grows (dispatcher.setOnce position once) := by
  refine ⟨List.prefix_refl _, List.prefix_refl _, List.prefix_refl _, ?_⟩
  intro other before
  simp only [Dispatcher.setOnce]
  split
  · exact called
  · exact before

theorem take {dispatcher taken : Dispatcher α} {stopped : Bool}
    {found : Option α} (took : dispatcher.take stopped = (found, taken)) :
    dispatcher.Grows taken := by
  cases stopped with
  | true =>
      cases took
      exact ⟨List.prefix_refl _, List.prefix_refl _, List.prefix_append _ _,
        fun _ called => called⟩
  | false =>
      cases found with
      | none =>
          obtain ⟨_, rfl⟩ := take_none took
          exact unchanged rfl rfl rfl rfl
      | some run =>
          obtain ⟨_, _, rfl⟩ := take_some took
          exact unchanged rfl rfl rfl rfl

end Grows

/-! ## What one operation does -/

/-- The cases of one operation of a dispatcher. -/
inductive Does (size : Nat) (stopped : Bool) (dispatcher : Dispatcher α) :
    DispatchOp α → Pool.Outcome (Dispatcher α) (DispatchOp α) → Prop
  /-- `push` takes a slot. -/
  | pushed (room : dispatcher.slots < size) :
      Does size stopped dispatcher (.push run)
        ⟨{ dispatcher with slots := dispatcher.slots + 1 }, [.admitRun run], []⟩
  /-- `push` returns false. -/
  | pushFailed : Does size stopped dispatcher (.push run) ⟨dispatcher, [], []⟩
  /-- `tryPush` takes a slot. -/
  | tryPushed (room : dispatcher.slots < size) :
      Does size stopped dispatcher (.tryPush run)
        ⟨{ dispatcher with slots := dispatcher.slots + 1 }, [.admitRun run], []⟩
  /-- `tryPush` returns false. -/
  | tryPushFailed :
      Does size stopped dispatcher (.tryPush run) ⟨dispatcher, [], []⟩
  /-- A stopped dispatcher admits nothing. -/
  | refused (stops : stopped = true) :
      Does size stopped dispatcher (.admitRun run)
        ⟨dispatcher, [.slot], []⟩
  /-- The handler waits for the running one. -/
  | queued (isOpen : stopped = false)
      (running : dispatcher.running = true) :
      Does size stopped dispatcher (.admitRun run)
        ⟨{ dispatcher with
          queue := dispatcher.queue ++ [run]
          admitted := dispatcher.admitted ++ [run] }, [], []⟩
  /-- The handler is started at once. -/
  | admitted (isOpen : stopped = false)
      (idle : dispatcher.running = false) :
      Does size stopped dispatcher (.admitRun run)
        ⟨{ dispatcher with
          running := true
          admitted := dispatcher.admitted ++ [run] }, [.slot, .start run], []⟩
  /-- A token is received. -/
  | slotFreed (token : 0 < dispatcher.slots) :
      Does size stopped dispatcher .slot
        ⟨{ dispatcher with slots := dispatcher.slots - 1 }, [], []⟩
  /-- A goroutine is started. -/
  | spawned :
      Does size stopped dispatcher (.start run)
        ⟨dispatcher, [], [[.begin run]]⟩
  /-- The handler is called. -/
  | begun :
      Does size stopped dispatcher (.begin run)
        ⟨{ dispatcher with started := dispatcher.started ++ [run] },
          [.handler dispatcher.started.length run], []⟩
  /-- The handler returns. -/
  | handled :
      Does size stopped dispatcher (.handler position run)
        ⟨dispatcher, [.returned position], []⟩
  /-- A goroutine of the handler returns. -/
  | helped :
      Does size stopped dispatcher (.helper position run)
        ⟨dispatcher, [], []⟩
  /-- The handler releases itself. -/
  | handlerReleases :
      Does size stopped dispatcher (.handler position run)
        ⟨dispatcher, [.release position, .handler position run], []⟩
  /-- A goroutine of the handler releases it. -/
  | helperReleases :
      Does size stopped dispatcher (.helper position run)
        ⟨dispatcher, [.release position, .helper position run], []⟩
  /-- The handler starts a goroutine. -/
  | handlerSpawns :
      Does size stopped dispatcher (.handler position run)
        ⟨dispatcher, [.handler position run], [[.helper position run]]⟩
  /-- A goroutine of the handler starts another. -/
  | helperSpawns :
      Does size stopped dispatcher (.helper position run)
        ⟨dispatcher, [.helper position run], [[.helper position run]]⟩
  /-- A release is the first call of the handler's `once`. -/
  | releaseCalled (fresh : dispatcher.once position = .fresh) :
      Does size stopped dispatcher (.release position)
        ⟨dispatcher.setOnce position .running, [.next position], []⟩
  /-- A release is a later call of the handler's `once`. -/
  | releaseSkipped :
      Does size stopped dispatcher (.release position) ⟨dispatcher, [], []⟩
  /-- The return is the first call of the handler's `once`. -/
  | returnCalled (fresh : dispatcher.once position = .fresh) :
      Does size stopped dispatcher (.returned position)
        ⟨dispatcher.setOnce position .running, [.takeRun position], []⟩
  /-- The return is a later call of the handler's `once`. -/
  | returnSkipped :
      Does size stopped dispatcher (.returned position) ⟨dispatcher, [], []⟩
  /-- `next` finds no handler. -/
  | nextNone (took : dispatcher.take stopped = (none, taken)) :
      Does size stopped dispatcher (.next position)
        ⟨taken, [.onceDone position], []⟩
  /-- `next` finds a handler, to run in a new goroutine. -/
  | nextFound (took : dispatcher.take stopped = (some run, taken)) :
      Does size stopped dispatcher (.next position)
        ⟨taken, [.slot, .start run, .onceDone position], []⟩
  /-- A handler that returned finds no other. -/
  | takeNone (took : dispatcher.take stopped = (none, taken)) :
      Does size stopped dispatcher (.takeRun position)
        ⟨taken, [.onceDone position], []⟩
  /-- A handler that returned finds another, to run in its goroutine. -/
  | takeFound (took : dispatcher.take stopped = (some run, taken)) :
      Does size stopped dispatcher (.takeRun position)
        ⟨taken, [.slot, .onceDone position, .begin run], []⟩
  /-- The function passed to `once.Do` returns. -/
  | onceReturned :
      Does size stopped dispatcher (.onceDone position)
        ⟨dispatcher.setOnce position .done, [], []⟩

theorem exec_does {size : Nat} {stopped : Bool} {expired : α → Bool}
    {dispatcher : Dispatcher α} {op : DispatchOp α} {branch : Branch}
    {outcome : Pool.Outcome (Dispatcher α) (DispatchOp α)}
    (executed : dispatcher.exec size stopped expired op branch =
      some outcome) : dispatcher.Does size stopped op outcome := by
  revert executed
  fun_cases exec size stopped expired dispatcher op branch <;>
    intro executed <;> cases executed
  all_goals
    first
    | exact .queued (Bool.eq_false_iff.mpr ‹_›) ‹_›
    | exact .admitted (Bool.eq_false_iff.mpr ‹_›) (Bool.eq_false_iff.mpr ‹_›)
    | constructor <;> assumption

theorem grows_exec {size : Nat} {stopped : Bool} {expired : α → Bool}
    {dispatcher : Dispatcher α} {op : DispatchOp α} {branch : Branch}
    {outcome : Pool.Outcome (Dispatcher α) (DispatchOp α)}
    (executed : dispatcher.exec size stopped expired op branch =
      some outcome) : dispatcher.Grows outcome.shared := by
  cases exec_does executed with
  | queued | admitted =>
      exact ⟨List.prefix_append _ _, List.prefix_refl _, List.prefix_refl _,
        fun _ called => called⟩
  | begun =>
      exact ⟨List.prefix_refl _, List.prefix_append _ _, List.prefix_refl _,
        fun _ called => called⟩
  | releaseCalled | returnCalled | onceReturned =>
      exact .setOnce dispatcher _ (by decide)
  | nextNone took | nextFound took | takeNone took | takeFound took =>
      exact .take took
  | _ => exact .unchanged rfl rfl rfl rfl

end Dispatcher

end Stream
end Gorums
