import Gorums.Stream.Dispatch
import Gorums.Pool.Ledger
import Mathlib.Data.Finset.Card
import Mathlib.Data.Finset.Range
import Mathlib.Data.List.Count

/-!
# The slots of a dispatcher

A dispatcher on its own, with any goroutines that push handlers and with an
environment that stops it and ends contexts.  The section of `take` in which a
stopped dispatcher discards its queue receives the tokens of the queue one by
one while it holds the mutex: here each of these receives is an operation, and
the mutex is part of the state.
-/

namespace Gorums
namespace Stream

namespace DispatchOp

/-- The handler that an operation is about to start. -/
def starts : DispatchOp α → Option α
  | .start run => some run
  | .begin run => some run
  | _ => none

/-- Whether an operation has taken a token and not yet returned it. -/
def holdsToken : DispatchOp α → Bool
  | .admitRun _ => true
  | .slot => true
  | _ => false

/-- Whether an operation locks the mutex. -/
def locks : DispatchOp α → Bool
  | .admitRun _ => true
  | op => op.takes.isSome

end DispatchOp

/-- The state that the users of a dispatcher share. -/
structure Slots (α : Type) where
  /-- The dispatcher. -/
  dispatcher : Dispatcher α := {}
  /-- Whether a stopped dispatcher holds the mutex to discard its queue. -/
  locked : Bool := false
  /-- Whether `done` is closed. -/
  stopped : Bool := false
  /-- Whether the context passed with a handler has ended. -/
  expired : α → Bool := fun _ => false

/-- The operations on a dispatcher. -/
inductive SlotOp (α : Type)
  /-- An operation of the dispatcher. -/
  | op (op : DispatchOp α)
  /-- `take` of a stopped dispatcher: discard the rest of the queue. -/
  | discard (position : Nat)

/-- What happens to a dispatcher from outside. -/
inductive SlotEvent (α : Type)
  /-- `done` is closed. -/
  | close
  /-- Contexts of handlers end. -/
  | expire (ended : α → Bool)

/-- A call of the dispatcher. -/
inductive SlotCall (α : Type)
  | push (run : α)
  | tryPush (run : α)

/-- The operation that a call starts with. -/
def SlotCall.op : SlotCall α → SlotOp α
  | .push run => .op (.push run)
  | .tryPush run => .op (.tryPush run)

namespace Slots

/-- The effect of an operation of the dispatcher. -/
def lift (shared : Slots α)
    (effect : Pool.Outcome (Dispatcher α) (DispatchOp α)) :
    Pool.Outcome (Slots α) (SlotOp α) :=
  ⟨{ shared with dispatcher := effect.shared }, effect.next.map .op,
    effect.spawned.map fun ops => ops.map .op⟩

/-- Receive the token of the oldest queued handler and discard it, or mark the
dispatcher idle and unlock the mutex. -/
def discard (shared : Slots α) (position : Nat) :
    Option (Pool.Outcome (Slots α) (SlotOp α)) :=
  match shared.dispatcher.queue with
  | [] =>
      some ⟨{ shared with
          dispatcher := { shared.dispatcher with running := false }
          locked := false },
        [.op (.onceDone position)], []⟩
  | run :: queue =>
      if 0 < shared.dispatcher.slots then
        some ⟨{ shared with
            dispatcher := { shared.dispatcher with
              slots := shared.dispatcher.slots - 1
              queue := queue
              dropped := shared.dispatcher.dropped ++ [run] } },
          [.discard position], []⟩
      else none

/-- Execute one operation of a dispatcher with `size` slots. -/
def exec (size : Nat) (shared : Slots α) :
    SlotOp α → Branch → Option (Pool.Outcome (Slots α) (SlotOp α))
  | .op op, branch =>
      if op.locks && shared.locked then none
      else
        match op.takes, shared.stopped with
        | some position, true =>
            some ⟨{ shared with locked := true }, [.discard position], []⟩
        | _, _ =>
            (shared.dispatcher.exec size shared.stopped shared.expired op
              branch).map shared.lift
  | .discard position, .first => shared.discard position
  | .discard _, _ => none

/-- Let the environment act. -/
def env (shared : Slots α) : SlotEvent α → Option (Slots α)
  | .close => some { shared with stopped := true }
  | .expire ended => some { shared with
      expired := fun run => shared.expired run || ended run }

/-- The machine of a dispatcher with `size` slots. -/
def machine (size : Nat) : Pool.Machine (Slots α) (SlotOp α) Branch (SlotEvent α) :=
  { exec := exec size, env := env }

end Slots

/-- A new dispatcher with goroutines that call it. -/
def newDispatcher (users : List (List (SlotCall α))) :
    Pool.State (Slots α) (SlotOp α) :=
  { shared := {}, threads := users.map fun calls => calls.map SlotCall.op }

/-! ## What one operation does -/

namespace Slots

/-- A stopped dispatcher that discards its queue without interruption does what
the mutex section of `take` does. -/
theorem discard_take (size : Nat) (shared : Slots α) (position : Nat)
    (tokens : shared.dispatcher.queue.length ≤ shared.dispatcher.slots) :
    (machine size).follow (fun _ _ => true)
        { shared := shared, threads := [[.discard position]] }
        (List.replicate (shared.dispatcher.queue.length + 1) (.run 0 .first)) =
      some
        { shared := { shared with
            dispatcher := (shared.dispatcher.take true).2
            locked := false }
          threads := [[.op (.onceDone position)]] } := by
  induction queued : shared.dispatcher.queue generalizing shared with
  | nil =>
      simp [Pool.Machine.follow, Pool.Machine.step, machine, exec, discard,
        Dispatcher.take, queued]
  | cons run queue inductionHypothesis =>
      rw [queued, List.length_cons] at tokens
      have token : 0 < shared.dispatcher.slots := by omega
      rw [List.length_cons, List.replicate_succ]
      simp only [Pool.Machine.follow, Pool.Machine.step, machine, exec, discard,
        queued, token, if_true, List.getElem?_cons_zero, Option.map_some,
        Option.bind_some, List.set_cons_zero, List.append_nil,
        List.singleton_append]
      refine (inductionHypothesis _ (by simp only; omega) rfl).trans ?_
      simp only [Dispatcher.take, queued, if_true, List.length_cons,
        List.append_assoc, List.singleton_append, Nat.add_comm queue.length 1,
        Nat.sub_add_eq]

variable {size : Nat} {shared : Slots α}
  {outcome : Pool.Outcome (Slots α) (SlotOp α)}

/-- The cases of one operation. -/
inductive Does (size : Nat) (shared : Slots α) :
    SlotOp α → Pool.Outcome (Slots α) (SlotOp α) → Prop
  /-- An operation of the dispatcher, which has not stopped if it takes. -/
  | dispatched {op : DispatchOp α} {branch : Branch}
      {effect : Pool.Outcome (Dispatcher α) (DispatchOp α)}
      (isOpen : op.takes.isSome → shared.stopped = false)
      (executed : shared.dispatcher.exec size shared.stopped shared.expired op
        branch = some effect) :
      Does size shared (.op op) (shared.lift effect)
  /-- A stopped dispatcher locks the mutex to discard its queue. -/
  | locked {op : DispatchOp α} {position : Nat}
      (takes : op.takes = some position) (stopped : shared.stopped = true) :
      Does size shared (.op op)
        ⟨{ shared with locked := true }, [.discard position], []⟩
  /-- The queue has been discarded. -/
  | unlocked {position : Nat} (queue : shared.dispatcher.queue = []) :
      Does size shared (.discard position)
        ⟨{ shared with
            dispatcher := { shared.dispatcher with running := false }
            locked := false },
          [.op (.onceDone position)], []⟩
  /-- One more handler is discarded. -/
  | discarded {position : Nat} {run : α} {queue : List α}
      (queued : shared.dispatcher.queue = run :: queue)
      (token : 0 < shared.dispatcher.slots) :
      Does size shared (.discard position)
        ⟨{ shared with
            dispatcher := { shared.dispatcher with
              slots := shared.dispatcher.slots - 1
              queue := queue
              dropped := shared.dispatcher.dropped ++ [run] } },
          [.discard position], []⟩

theorem exec_does {op : SlotOp α} {branch : Branch}
    (executed : exec size shared op branch = some outcome) :
    Does size shared op outcome := by
  cases op with
  | op op =>
      simp only [exec] at executed
      split at executed
      · cases executed
      · split at executed
        · rename_i takes stopped
          cases executed
          exact .locked takes stopped
        · rename_i unstopped
          obtain ⟨effect, ran, rfl⟩ := Option.map_eq_some_iff.mp executed
          refine .dispatched ?_ ran
          intro isSome
          obtain ⟨position, takes⟩ := Option.isSome_iff_exists.mp isSome
          rw [← Bool.not_eq_true]
          exact unstopped position takes
  | discard position =>
      cases branch with
      | first =>
          simp only [exec, discard] at executed
          split at executed
          · cases executed
            exact .unlocked ‹_›
          · split at executed
            · cases executed
              exact .discarded ‹_› ‹_›
            · cases executed
      | second => cases executed
      | third => cases executed

end Slots

/-! ## Ledgers -/

open Pool

namespace Dispatcher

variable {size : Nat} {stopped : Bool} {expired : α → Bool}
  {dispatcher : Dispatcher α} {op : DispatchOp α} {branch : Branch}
  {effect : Outcome (Dispatcher α) (DispatchOp α)}

/-- The tokens of the slot channel: one for each queued handler, and one for
each operation that has taken a token and not yet returned it. -/
def tokens : Ledger (Dispatcher α) (DispatchOp α) where
  credit := fun dispatcher => dispatcher.queue.length
  debit := fun dispatcher => dispatcher.slots
  weight := fun op => op.holdsToken.toNat

theorem tokens_exec (isOpen : op.takes.isSome → stopped = false)
    (executed : dispatcher.exec size stopped expired op branch = some effect) :
    tokens.Keeps dispatcher op effect := by
  unfold Ledger.Keeps
  cases exec_does executed with
  | nextNone took | takeNone took =>
      cases isOpen rfl
      obtain ⟨queue, rfl⟩ := take_none took
      rfl
  | nextFound took | takeFound took =>
      cases isOpen rfl
      obtain ⟨queue, queued, rfl⟩ := take_some took
      simp [tokens, DispatchOp.holdsToken, queued]
  | _ => simp [tokens, DispatchOp.holdsToken, setOnce] <;> omega

section Handlers

variable [DecidableEq α]

/-- The copies of a handler: it is queued, about to be started, started or
discarded, and was admitted once for each copy. -/
def copies (run : α) : Ledger (Dispatcher α) (DispatchOp α) where
  credit := fun dispatcher => dispatcher.queue.count run +
    dispatcher.started.count run + dispatcher.dropped.count run
  debit := fun dispatcher => dispatcher.admitted.count run
  weight := fun op => op.starts.toList.count run

theorem copies_exec {run : α} (isOpen : op.takes.isSome → stopped = false)
    (executed : dispatcher.exec size stopped expired op branch = some effect) :
    (copies run).Keeps dispatcher op effect := by
  unfold Ledger.Keeps
  cases exec_does executed with
  | nextNone took | takeNone took =>
      cases isOpen rfl
      obtain ⟨queue, rfl⟩ := take_none took
      rfl
  | nextFound took | takeFound took =>
      cases isOpen rfl
      obtain ⟨queue, queued, rfl⟩ := take_some took
      simp [copies, DispatchOp.starts, queued, List.count_cons]
      omega
  | _ => simp [copies, DispatchOp.starts, setOnce] <;> omega

end Handlers

/-! ## The handler in charge -/

/-- The started handlers that have neither released nor returned. -/
def unreleased (dispatcher : Dispatcher α) : Finset Nat :=
  (Finset.range dispatcher.started.length).filter
    fun position => dispatcher.once position = .fresh

theorem unreleased_setOnce {position : Nat} {once : Once}
    (called : once ≠ .fresh) :
    (dispatcher.setOnce position once).unreleased =
      dispatcher.unreleased.erase position := by
  ext other
  simp only [unreleased, Finset.mem_filter, Finset.mem_range, Finset.mem_erase]
  by_cases same : other = position
  · simp [setOnce, same, called]
  · simp [setOnce, same]

theorem card_unreleased_first (once : Once) {position : Nat}
    (called : once ≠ .fresh) (started : position < dispatcher.started.length)
    (fresh : dispatcher.once position = .fresh) :
    (dispatcher.setOnce position once).unreleased.card + 1 =
      dispatcher.unreleased.card := by
  rw [unreleased_setOnce called]
  apply Finset.card_erase_add_one
  simp [unreleased, started, fresh]

theorem card_unreleased_again (once : Once) {position : Nat}
    (called : once ≠ .fresh) (before : dispatcher.once position ≠ .fresh) :
    (dispatcher.setOnce position once).unreleased.card =
      dispatcher.unreleased.card := by
  rw [unreleased_setOnce called, Finset.erase_eq_of_notMem]
  simp [unreleased, before]

theorem card_unreleased_begin (run : α)
    (fresh : dispatcher.once dispatcher.started.length = .fresh) :
    ({ dispatcher with started := dispatcher.started ++ [run] } :
      Dispatcher α).unreleased.card = dispatcher.unreleased.card + 1 := by
  unfold unreleased
  rw [List.length_append, List.length_singleton, Finset.range_add_one,
    Finset.filter_insert, if_pos fresh, Finset.card_insert_of_notMem]
  simp

/-- What holds of a dispatcher in every run. -/
structure Sound (size : Nat) (stopped : Bool) (dispatcher : Dispatcher α) :
    Prop where
  /-- Handlers that have not started have not called their `once`. -/
  unstarted : ∀ position, dispatcher.started.length ≤ position →
    dispatcher.once position = .fresh
  /-- The slot channel holds at most `size` tokens. -/
  slots : dispatcher.slots ≤ size
  /-- Handlers wait only for a running one. -/
  idle : dispatcher.running = false → dispatcher.queue = []
  /-- Only a stopped dispatcher discards handlers. -/
  dropped : dispatcher.dropped ≠ [] → stopped = true

/-- A started handler has called its `once`. -/
def Called (dispatcher : Dispatcher α) (position : Nat) : Prop :=
  position < dispatcher.started.length ∧ dispatcher.once position ≠ .fresh

/-- What is known when an operation is reached. -/
def Noted (dispatcher : Dispatcher α) : DispatchOp α → Prop
  | .handler position _ => position < dispatcher.started.length
  | .helper position _ => position < dispatcher.started.length
  | .release position => position < dispatcher.started.length
  | .returned position => position < dispatcher.started.length
  | .next position => dispatcher.Called position
  | .takeRun position => dispatcher.Called position
  | .onceDone position => dispatcher.Called position
  | _ => True

/-- The handler that is running, or an operation that follows from it, is in
charge: it runs the next handler or marks the dispatcher idle. -/
@[simps credit debit] def charge : Ledger (Dispatcher α) (DispatchOp α) where
  credit := fun dispatcher => dispatcher.unreleased.card
  debit := fun dispatcher => dispatcher.running.toNat
  weight := fun
    | .start _ => 1
    | .begin _ => 1
    | .next _ => 1
    | .takeRun _ => 1
    | _ => 0

@[simp] theorem running_setOnce (dispatcher : Dispatcher α) (position : Nat)
    (once : Once) :
    (dispatcher.setOnce position once).running = dispatcher.running := rfl

theorem charge_exec (sound : dispatcher.Sound size stopped)
    (noted : dispatcher.Noted op)
    (inCharge : 0 < charge.weight op → dispatcher.running = true)
    (executed : dispatcher.exec size stopped expired op branch = some effect) :
    charge.Keeps dispatcher op effect := by
  unfold Ledger.Keeps
  cases exec_does executed with
  | @begun run =>
      have begun := card_unreleased_begin run
        (sound.unstarted _ (Nat.le_refl _))
      simp only [Ledger.worth_mk, charge_credit, begun]
      rfl
  | releaseCalled fresh | returnCalled fresh =>
      have released := card_unreleased_first .running (by decide) noted fresh
      simp only [Ledger.worth_mk, charge_credit, ← released]
      simp [charge]
  | onceReturned =>
      have same := card_unreleased_again .done (by decide) noted.2
      simp only [Ledger.worth_mk, charge_credit, same]
      rfl
  | nextNone took | takeNone took =>
      obtain ⟨slots, dropped, _, _, rfl⟩ := take_idle took
      simp [charge, unreleased, inCharge Nat.one_pos]
  | nextFound took | takeFound took =>
      obtain ⟨_, queue, queued, rfl⟩ := take_found took
      simp [charge, unreleased]
  | admitted isOpen idle => simp [charge, unreleased, idle]
  | _ => simp [charge, unreleased]

/-! ## What each operation leaves -/

theorem Called.grows {after : Dispatcher α} {position : Nat}
    (called : dispatcher.Called position) (grows : dispatcher.Grows after) :
    after.Called position :=
  ⟨Nat.lt_of_lt_of_le called.1 grows.started.length_le,
    grows.once position called.2⟩

theorem Noted.grows {after : Dispatcher α} (noted : dispatcher.Noted op)
    (grows : dispatcher.Grows after) : after.Noted op := by
  have longer := grows.started.length_le
  cases op <;>
    first
    | trivial
    | exact Called.grows noted grows
    | exact Nat.lt_of_lt_of_le noted longer

theorem called_setOnce {position : Nat} {once : Once}
    (called : once ≠ .fresh) (started : position < dispatcher.started.length) :
    (dispatcher.setOnce position once).Called position :=
  ⟨started, by simpa [setOnce] using called⟩

theorem Sound.setOnce {position : Nat} {once : Once}
    (sound : dispatcher.Sound size stopped)
    (started : position < dispatcher.started.length) :
    (dispatcher.setOnce position once).Sound size stopped := by
  refine ⟨?_, sound.slots, sound.idle, sound.dropped⟩
  intro other unstarted
  have different : other ≠ position := by
    rintro rfl
    exact Nat.not_lt.mpr unstarted started
  simpa [Dispatcher.setOnce, different] using sound.unstarted other unstarted

theorem Sound.take_idle {taken : Dispatcher α}
    (sound : dispatcher.Sound size stopped)
    (took : dispatcher.take stopped = (none, taken)) :
    taken.Sound size stopped := by
  obtain ⟨slots, dropped, less, kept, rfl⟩ := Dispatcher.take_idle took
  refine ⟨sound.unstarted, Nat.le_trans less sound.slots, fun _ => rfl, ?_⟩
  intro lost
  by_contra isOpen
  obtain ⟨_, same⟩ := kept (Bool.eq_false_iff.mpr isOpen)
  exact isOpen (sound.dropped (same ▸ lost))

theorem Sound.take_found {taken : Dispatcher α} {run : α}
    (sound : dispatcher.Sound size stopped)
    (took : dispatcher.take stopped = (some run, taken)) :
    taken.Sound size stopped := by
  obtain ⟨_, queue, queued, rfl⟩ := Dispatcher.take_found took
  refine ⟨sound.unstarted, sound.slots, ?_, sound.dropped⟩
  intro idle
  cases queued.symm.trans (sound.idle idle)

theorem sound_exec (sound : dispatcher.Sound size stopped)
    (noted : dispatcher.Noted op)
    (executed : dispatcher.exec size stopped expired op branch = some effect) :
    effect.shared.Sound size stopped := by
  cases exec_does executed with
  | pushed room | tryPushed room =>
      exact ⟨sound.unstarted, room, sound.idle, sound.dropped⟩
  | queued isOpen running =>
      refine ⟨sound.unstarted, sound.slots, ?_, sound.dropped⟩
      intro idle
      cases running.symm.trans idle
  | admitted isOpen idle =>
      exact ⟨sound.unstarted, sound.slots, nofun, sound.dropped⟩
  | slotFreed =>
      exact ⟨sound.unstarted, Nat.le_trans (Nat.sub_le _ _) sound.slots,
        sound.idle, sound.dropped⟩
  | begun =>
      refine ⟨?_, sound.slots, sound.idle, sound.dropped⟩
      intro position unstarted
      rw [List.length_append] at unstarted
      exact sound.unstarted position (Nat.le_of_add_right_le unstarted)
  | releaseCalled | returnCalled => exact sound.setOnce noted
  | onceReturned => exact sound.setOnce noted.1
  | nextNone took | takeNone took => exact sound.take_idle took
  | nextFound took | takeFound took => exact sound.take_found took
  | _ => exact sound

theorem noted_exec (noted : dispatcher.Noted op)
    (executed : dispatcher.exec size stopped expired op branch = some effect) :
    ∀ left ∈ effect.next ++ effect.spawned.flatten,
      effect.shared.Noted left := by
  have grows := grows_exec executed
  cases exec_does executed with
  | begun => simp [Noted]
  | releaseCalled | returnCalled =>
      simpa [Noted] using called_setOnce (by decide) noted
  | nextNone | nextFound | takeNone | takeFound =>
      simpa [Noted] using Called.grows noted grows
  | _ => simp_all [Noted]

/-- A stopped dispatcher that is idle stays idle: no operation without charge
starts a handler. -/
theorem calm_exec (stops : stopped = true) (calm : charge.weight op = 0)
    (idle : dispatcher.running = false)
    (executed : dispatcher.exec size stopped expired op branch = some effect) :
    effect.shared.running = false ∧
      effect.shared.started = dispatcher.started := by
  cases exec_does executed with
  | queued isOpen | admitted isOpen => cases isOpen.symm.trans stops
  | begun => cases calm
  | nextNone | nextFound | takeNone | takeFound => cases calm
  | _ => exact ⟨idle, rfl⟩

end Dispatcher

/-! ## Runs -/

namespace SlotOp

/-- Whether an operation has taken a token and not yet returned it. -/
def holdsToken : SlotOp α → Bool
  | .op inner => inner.holdsToken
  | .discard _ => false

/-- Whether an operation receives from the slot channel. -/
def receives : SlotOp α → Bool
  | .op .slot => true
  | .discard _ => true
  | _ => false

/-- The handler that an operation is about to start. -/
def starts : SlotOp α → Option α
  | .op inner => inner.starts
  | .discard _ => none

/-- Whether an operation of the dispatcher has begun and not ended; a push
begins when it has taken a token. -/
def inProgress : SlotOp α → Bool
  | .op (.admitRun _) => true
  | .op .slot => true
  | .op (.start _) => true
  | .op (.begin _) => true
  | .op (.next _) => true
  | .op (.takeRun _) => true
  | .op (.onceDone _) => true
  | .discard _ => true
  | _ => false

theorem holdsToken_of_calm {op : SlotOp α} (calm : op.inProgress = false) :
    op.holdsToken = false := by
  cases op with
  | op inner =>
      cases inner <;> first
        | rfl
        | cases calm
  | discard position => rfl

end SlotOp

namespace Slots

variable {size : Nat} {shared : Slots α} {op : SlotOp α}
  {outcome : Outcome (Slots α) (SlotOp α)}

/-- A ledger of a dispatcher, where discarding the queue has a weight. -/
def carried (ledger : Ledger (Dispatcher α) (DispatchOp α)) (held : Nat) :
    Ledger (Slots α) (SlotOp α) where
  credit := fun shared => ledger.credit shared.dispatcher
  debit := fun shared => ledger.debit shared.dispatcher
  weight := fun
    | .op op => ledger.weight op
    | .discard _ => held

section Carried

variable {ledger : Ledger (Dispatcher α) (DispatchOp α)} {held : Nat}

theorem weigh_carried (ops : List (DispatchOp α)) :
    (carried ledger held).weigh (ops.map .op) = ledger.weigh ops := by
  simp [Ledger.weigh, Function.comp_def, carried]

theorem keeps_lift {op : DispatchOp α}
    {effect : Outcome (Dispatcher α) (DispatchOp α)}
    (keeps : ledger.Keeps shared.dispatcher op effect) :
    (carried ledger held).Keeps shared (.op op) (shared.lift effect) := by
  have spawned : (carried ledger held).weigh
      (effect.spawned.map fun ops => ops.map SlotOp.op).flatten =
        ledger.weigh effect.spawned.flatten := by
    rw [← List.map_flatten, weigh_carried]
  unfold Ledger.Keeps Ledger.worth at keeps ⊢
  simp only [lift, weigh_carried, spawned]
  exact keeps

end Carried

theorem tokens_keeps (does : Does size shared op outcome) :
    (carried Dispatcher.tokens 0).Keeps shared op outcome := by
  cases does with
  | dispatched isOpen executed =>
      exact keeps_lift (Dispatcher.tokens_exec isOpen executed)
  | locked takes stopped =>
      rcases DispatchOp.takes_cases takes with rfl | rfl <;> rfl
  | unlocked queue => rfl
  | discarded queued token =>
      simp only [Ledger.Keeps, carried, Dispatcher.tokens, Ledger.worth_mk,
        Ledger.weigh_cons, Ledger.weigh_nil, List.flatten_nil, queued,
        List.length_cons]
      omega

theorem copies_keeps [DecidableEq α] {run : α}
    (does : Does size shared op outcome) :
    (carried (Dispatcher.copies run) 0).Keeps shared op outcome := by
  cases does with
  | dispatched isOpen executed =>
      exact keeps_lift (Dispatcher.copies_exec isOpen executed)
  | locked takes stopped =>
      rcases DispatchOp.takes_cases takes with rfl | rfl <;> rfl
  | unlocked queue => rfl
  | discarded queued token =>
      simp only [Ledger.Keeps, carried, Dispatcher.copies, Ledger.worth_mk,
        Ledger.weigh_cons, Ledger.weigh_nil, List.flatten_nil, queued,
        List.count_cons, List.count_append, List.count_nil]
      omega

/-- What is known when an operation is reached. -/
def Noted (shared : Slots α) : SlotOp α → Prop
  | .op op => shared.dispatcher.Noted op
  | .discard position =>
      shared.dispatcher.Called position ∧ shared.stopped = true

/-- What holds in every state of a run. -/
def Sound (size : Nat) (shared : Slots α) : Prop :=
  shared.dispatcher.Sound size shared.stopped

theorem charge_keeps (does : Does size shared op outcome)
    (sound : shared.Sound size) (noted : shared.Noted op)
    (inCharge : 0 < (carried Dispatcher.charge 1).weight op →
      shared.dispatcher.running = true) :
    (carried Dispatcher.charge 1).Keeps shared op outcome := by
  cases does with
  | dispatched isOpen executed =>
      exact keeps_lift
        (Dispatcher.charge_exec sound noted inCharge executed)
  | locked takes stopped =>
      rcases DispatchOp.takes_cases takes with rfl | rfl <;> rfl
  | unlocked queue =>
      simp [Ledger.Keeps, carried, Dispatcher.charge, Dispatcher.unreleased,
        inCharge Nat.one_pos]
  | discarded queued token => rfl

/-- No operation takes anything back. -/
theorem does_grows (does : Does size shared op outcome) :
    shared.dispatcher.Grows outcome.shared.dispatcher ∧
      outcome.shared.stopped = shared.stopped := by
  cases does with
  | dispatched isOpen executed => exact ⟨Dispatcher.grows_exec executed, rfl⟩
  | locked takes stopped => exact ⟨.unchanged rfl rfl rfl rfl, rfl⟩
  | unlocked queue => exact ⟨.unchanged rfl rfl rfl rfl, rfl⟩
  | discarded queued token =>
      exact ⟨⟨List.prefix_refl _, List.prefix_refl _, List.prefix_append _ _,
        fun _ called => called⟩, rfl⟩

theorem Noted.grows {after : Slots α} (noted : shared.Noted op)
    (grows : shared.dispatcher.Grows after.dispatcher)
    (stopped : shared.stopped = true → after.stopped = true) :
    after.Noted op := by
  cases op with
  | op inner => exact Dispatcher.Noted.grows noted grows
  | discard position => exact ⟨noted.1.grows grows, stopped noted.2⟩

theorem does_sound (does : Does size shared op outcome)
    (sound : shared.Sound size) (noted : shared.Noted op) :
    outcome.shared.Sound size := by
  cases does with
  | dispatched isOpen executed =>
      exact Dispatcher.sound_exec sound noted executed
  | locked takes stopped => exact sound
  | unlocked queue =>
      exact ⟨sound.unstarted, sound.slots, fun _ => queue, sound.dropped⟩
  | discarded queued token =>
      refine ⟨sound.unstarted, Nat.le_trans (Nat.sub_le _ _) sound.slots, ?_,
        fun _ => noted.2⟩
      intro idle
      cases queued.symm.trans (sound.idle idle)

theorem does_noted (does : Does size shared op outcome)
    (noted : shared.Noted op) :
    ∀ left ∈ outcome.next ++ outcome.spawned.flatten,
      outcome.shared.Noted left := by
  cases does with
  | dispatched isOpen executed =>
      intro left member
      rw [lift, ← List.map_flatten, ← List.map_append] at member
      obtain ⟨inner, inside, rfl⟩ := List.mem_map.mp member
      exact Dispatcher.noted_exec noted executed inner inside
  | locked takes stopped =>
      intro left member
      rw [List.mem_singleton.mp member]
      rcases DispatchOp.takes_cases takes with rfl | rfl <;>
        exact ⟨noted, stopped⟩
  | unlocked queue =>
      intro left member
      rw [List.mem_singleton.mp member]
      exact noted.1
  | discarded queued token =>
      intro left member
      rw [List.mem_singleton.mp member]
      exact noted

/-- The states that a new dispatcher reaches. -/
def Reaches (size : Nat) (users : List (List (SlotCall α)))
    (state : State (Slots α) (SlotOp α)) : Prop :=
  (machine size).Reach (fun _ _ => True) (newDispatcher users) state

section Runs

variable {users : List (List (SlotCall α))}
  {state : State (Slots α) (SlotOp α)}

/-- A call at the start of a run. -/
theorem mem_newDispatcher (member : op ∈ (newDispatcher users).ops) :
    ∃ call : SlotCall α, op = call.op := by
  obtain ⟨thread, inside, there⟩ := List.mem_flatten.mp member
  obtain ⟨calls, _, rfl⟩ := List.mem_map.mp inside
  obtain ⟨call, _, rfl⟩ := List.mem_map.mp there
  exact ⟨call, rfl⟩

/-- Calls that have not begun weigh nothing. -/
theorem weigh_newDispatcher
    {ledger : Ledger (Slots α) (SlotOp α)}
    (light : ∀ call : SlotCall α, ledger.weight call.op = 0) :
    ledger.weigh (newDispatcher users).ops = 0 := by
  apply Ledger.weigh_eq_zero
  intro op member
  obtain ⟨call, rfl⟩ := mem_newDispatcher member
  exact light call

theorem env_dispatcher {event : SlotEvent α} {after : Slots α}
    (acted : env shared event = some after) :
    after.dispatcher = shared.dispatcher ∧
      (shared.stopped = true → after.stopped = true) := by
  cases event <;> cases acted
  · exact ⟨rfl, fun _ => rfl⟩
  · exact ⟨rfl, fun stopped => stopped⟩

theorem reached_sound (reached : Reaches size users state) :
    state.shared.Sound size ∧ ∀ op ∈ state.ops, state.shared.Noted op := by
  refine Machine.Reach.annotated (Sound size) Noted ⟨?_, ?_⟩ ?_ ?_ reached
  · exact ⟨fun _ _ => rfl, Nat.zero_le _, fun _ => rfl, fun some => absurd rfl some⟩
  · intro op member
    obtain ⟨call, rfl⟩ := mem_newDispatcher member
    cases call <;> trivial
  · intro state thread choice next runs _ _ sound noted
    have does := exec_does runs.exec_eq
    obtain ⟨grows, stopped⟩ := does_grows does
    refine ⟨does_sound does sound noted, does_noted does noted, ?_⟩
    intro other _ before
    exact before.grows grows fun stops => stopped.trans stops
  · intro shared event after acted sound
    obtain ⟨same, stops⟩ := env_dispatcher acted
    refine ⟨?_, ?_⟩
    · unfold Sound
      rw [same]
      exact ⟨sound.unstarted, sound.slots, sound.idle,
        fun some => stops (sound.dropped some)⟩
    · intro op noted
      exact noted.grows (same ▸ .unchanged rfl rfl rfl rfl) stops

theorem env_carried (ledger : Ledger (Dispatcher α) (DispatchOp α)) (held : Nat)
    (shared : Slots α) (event : SlotEvent α) (after : Slots α)
    (acted : (machine size).env shared event = some after) :
    (carried ledger held).credit after = (carried ledger held).credit shared ∧
      (carried ledger held).debit after =
        (carried ledger held).debit shared := by
  have same := (env_dispatcher acted).1
  simp [carried, same]

/-- Every token belongs to a queued handler or to an operation that holds
it. -/
theorem reached_tokens (reached : Reaches size users state) :
    state.shared.dispatcher.slots = state.shared.dispatcher.queue.length +
      state.ops.countP SlotOp.holdsToken := by
  have balance := (carried Dispatcher.tokens 0).balanced
    (fun _ _ _ _ executed _ => tokens_keeps (exec_does executed))
    (env_carried _ _) reached
  rw [weigh_newDispatcher (fun call => by cases call <;> rfl),
    Ledger.weigh_eq_countP SlotOp.holdsToken
      (fun op => by cases op <;> rfl)] at balance
  simpa [carried, Dispatcher.tokens, newDispatcher] using balance.symm

/-- Every admitted handler is queued, about to start, started or discarded. -/
theorem reached_copies (reached : Reaches size users state) :
    state.shared.dispatcher.admitted.Perm
      (state.shared.dispatcher.queue ++ state.ops.filterMap SlotOp.starts ++
        state.shared.dispatcher.started ++ state.shared.dispatcher.dropped) := by
  classical
  rw [List.perm_iff_count]
  intro run
  have balance := (carried (Dispatcher.copies run) 0).balanced
    (fun _ _ _ _ executed _ => copies_keeps (exec_does executed))
    (env_carried _ _) reached
  have starting : (carried (Dispatcher.copies run) 0).weigh state.ops =
      (state.ops.filterMap SlotOp.starts).count run := by
    induction state.ops with
    | nil => rfl
    | cons op ops inductionHypothesis =>
        rw [Ledger.weigh_cons, inductionHypothesis, List.filterMap_cons]
        cases op with
        | op inner => cases starts : inner.starts <;>
            simp [carried, Dispatcher.copies, SlotOp.starts, starts,
              List.count_cons, Nat.add_comm]
        | discard position => simp [carried, SlotOp.starts]
  rw [weigh_newDispatcher (fun call => by cases call <;> rfl), starting] at balance
  simp only [carried, Dispatcher.copies, newDispatcher, List.count_nil] at balance
  simp only [List.count_append]
  omega

/-- While the dispatcher runs, one handler or operation is in charge. -/
theorem reached_charge (reached : Reaches size users state) :
    state.shared.dispatcher.unreleased.card +
        (carried Dispatcher.charge 1).weigh state.ops =
      state.shared.dispatcher.running.toNat := by
  have light : (carried Dispatcher.charge 1).weigh (newDispatcher users).ops = 0 :=
    weigh_newDispatcher fun call => by cases call <;> rfl
  have balance := (carried Dispatcher.charge 1).conserved (by
    intro state thread choice next runs reached _ bound
    obtain ⟨sound, noted⟩ := reached_sound reached
    refine charge_keeps (exec_does runs.exec_eq) sound (noted _ runs.op_mem) ?_
    intro weighs
    rw [light] at bound
    have least : 1 ≤ state.shared.dispatcher.running.toNat :=
      Nat.le_trans weighs (Nat.le_trans (Nat.le_add_left _ _)
        (Nat.le_trans bound (Nat.le_of_eq (Nat.zero_add _))))
    exact Bool.toNat_eq_one.mp (Nat.le_antisymm (Bool.toNat_le _) least))
    (env_carried _ _) reached
  rw [light] at balance
  exact balance.trans (Nat.zero_add _)

/-- An operation that receives from the slot channel finds a token. -/
theorem reached_receives (reached : Reaches size users state)
    (member : op ∈ state.ops) (receives : op.receives = true) :
    (exec size state.shared op .first).isSome = true := by
  have tokens := reached_tokens reached
  cases op with
  | op inner =>
      cases inner with
      | slot =>
          have held : 0 < state.ops.countP SlotOp.holdsToken :=
            List.countP_pos_iff.mpr ⟨_, member, rfl⟩
          have token : 0 < state.shared.dispatcher.slots := by omega
          simp [exec, DispatchOp.locks, DispatchOp.takes, Dispatcher.exec, token]
      | _ => cases receives
  | discard position =>
      cases queued : state.shared.dispatcher.queue with
      | nil => simp [exec, discard, queued]
      | cons run queue =>
          rw [queued, List.length_cons] at tokens
          have token : 0 < state.shared.dispatcher.slots := by omega
          simp [exec, discard, queued, token]

/-- Operations that have not begun are not in charge. -/
theorem weight_charge_of_calm (calm : op.inProgress = false) :
    (carried Dispatcher.charge 1).weight op = 0 := by
  cases op with
  | op inner =>
      cases inner <;> first
        | rfl
        | cases calm
  | discard position => cases calm

/-- A dispatcher without operations in progress whose handlers have all
released is idle. -/
theorem idle_of_calm (reached : Reaches size users state)
    (calm : ∀ op ∈ state.ops, op.inProgress = false)
    (released : ∀ position < state.shared.dispatcher.started.length,
      state.shared.dispatcher.once position ≠ .fresh) :
    state.shared.dispatcher.running = false := by
  have charge := reached_charge reached
  have none : state.shared.dispatcher.unreleased = ∅ := by
    apply Finset.filter_false_of_mem
    intro position inside
    exact released position (Finset.mem_range.mp inside)
  rw [none, Ledger.weigh_eq_zero fun op member =>
    weight_charge_of_calm (calm op member)] at charge
  exact Bool.toNat_eq_zero.mp charge.symm

theorem does_calm (does : Does size shared op outcome)
    (stopped : shared.stopped = true)
    (idle : shared.dispatcher.running = false)
    (calm : (carried Dispatcher.charge 1).weight op = 0) :
    outcome.shared.dispatcher.running = false ∧
      outcome.shared.dispatcher.started = shared.dispatcher.started := by
  cases does with
  | dispatched isOpen executed =>
      exact Dispatcher.calm_exec stopped calm idle executed
  | locked takes stopped => exact ⟨idle, rfl⟩
  | unlocked queue => cases calm
  | discarded queued token => cases calm

/-- No handler starts after a stopped dispatcher has become idle. -/
theorem started_of_idle {later : State (Slots α) (SlotOp α)}
    (reached : Reaches size users state)
    (stopped : state.shared.stopped = true)
    (idle : state.shared.dispatcher.running = false)
    (continued : (machine size).Reach (fun _ _ => True) state later) :
    later.shared.stopped = true ∧ later.shared.dispatcher.running = false ∧
      later.shared.dispatcher.started = state.shared.dispatcher.started := by
  refine continued.invariant
    (fun later => later.shared.stopped = true ∧
      later.shared.dispatcher.running = false ∧
      later.shared.dispatcher.started = state.shared.dispatcher.started)
    ⟨stopped, idle, rfl⟩ ?_
  intro before label next continued ⟨stopped, idle, same⟩ _ stepped
  rcases Machine.step_cases stepped with
    ⟨thread, choice, rfl, ⟨runs⟩⟩ | ⟨event, shared, rfl, acted, rfl⟩
  · -- An idle dispatcher leaves no operation in charge.
    have charge := reached_charge (reached.trans continued)
    rw [idle, Bool.toNat_false, Nat.add_eq_zero_iff] at charge
    have calm := Nat.le_zero.mp (charge.2 ▸ Ledger.weight_le_weigh runs.op_mem)
    have does := exec_does runs.exec_eq
    obtain ⟨stays, unstarted⟩ := does_calm does stopped idle calm
    rw [runs.next_shared]
    exact ⟨(does_grows does).2.trans stopped, stays, unstarted.trans same⟩
  · obtain ⟨unchanged, stops⟩ := env_dispatcher acted
    simp only [unchanged]
    exact ⟨stops stopped, idle, same⟩

/-- A dispatcher never takes anything back. -/
theorem grows_of_reach {later : State (Slots α) (SlotOp α)}
    (continued : (machine size).Reach (fun _ _ => True) state later) :
    state.shared.dispatcher.Grows later.shared.dispatcher := by
  refine continued.invariant
    (fun later => state.shared.dispatcher.Grows later.shared.dispatcher)
    (.unchanged rfl rfl rfl rfl) ?_
  intro before label next _ grows _ stepped
  rcases Machine.step_cases stepped with
    ⟨thread, choice, rfl, ⟨runs⟩⟩ | ⟨event, shared, rfl, acted, rfl⟩
  · rw [runs.next_shared]
    exact grows.trans (does_grows (exec_does runs.exec_eq)).1
  · simpa only [(env_dispatcher acted).1] using grows

end Runs

end Slots

/-- In every run of a dispatcher the tokens are those of the queued handlers
and of the operations that hold one, so that no receive from the slot channel
blocks; the queue is bounded and empty while no handler runs; every admitted
handler is queued, about to start, started or discarded, and stays admitted;
and once a stopped dispatcher has no operation in progress and its handlers
have released or returned, all tokens have been returned and no handler starts
again. -/
theorem slots_accounted {size : Nat} {users : List (List (SlotCall α))}
    {state : State (Slots α) (SlotOp α)}
    (reached : Slots.Reaches size users state) :
    let dispatcher := state.shared.dispatcher
    dispatcher.slots =
        dispatcher.queue.length + state.ops.countP SlotOp.holdsToken ∧
      (∀ op ∈ state.ops, op.receives = true →
        (Slots.exec size state.shared op .first).isSome = true) ∧
      dispatcher.queue.length ≤ size ∧
      (dispatcher.running = false → dispatcher.queue = []) ∧
      dispatcher.admitted.Perm
        (dispatcher.queue ++ state.ops.filterMap SlotOp.starts ++
          dispatcher.started ++ dispatcher.dropped) ∧
      (dispatcher.dropped ≠ [] → state.shared.stopped = true) ∧
      (∀ later, (Slots.machine size).Reach (fun _ _ => True) state later →
        dispatcher.Grows later.shared.dispatcher) ∧
      (state.shared.stopped = true →
        (∀ op ∈ state.ops, op.inProgress = false) →
        (∀ position < dispatcher.started.length,
          dispatcher.once position ≠ .fresh) →
        dispatcher.queue = [] ∧ dispatcher.slots = 0 ∧
          ∀ later, (Slots.machine size).Reach (fun _ _ => True) state later →
            later.shared.dispatcher.started = dispatcher.started) := by
  obtain ⟨sound, _⟩ := Slots.reached_sound reached
  have tokens := Slots.reached_tokens reached
  refine ⟨tokens, ?_, ?_, sound.idle, Slots.reached_copies reached, sound.dropped,
    ?_, ?_⟩
  · intro op member receives
    exact Slots.reached_receives reached member receives
  · exact Nat.le_trans (Nat.le_of_add_right_le (Nat.le_of_eq tokens.symm)) sound.slots
  · intro later continued
    exact Slots.grows_of_reach continued
  · intro stopped calm released
    have idle := Slots.idle_of_calm reached calm released
    have empty := sound.idle idle
    have unheld : state.ops.countP SlotOp.holdsToken = 0 := by
      rw [List.countP_eq_zero]
      intro op member
      simp [SlotOp.holdsToken_of_calm (calm op member)]
    refine ⟨empty, ?_, ?_⟩
    · rw [tokens, unheld, empty]
      rfl
    · intro later continued
      exact (Slots.started_of_idle reached stopped idle continued).2.2

/-- Two handlers are pushed, a third finds no slot, and the dispatcher is
stopped before the first one releases. -/
def stoppedWhileQueued : List (Label Branch (SlotEvent Nat)) :=
  List.replicate 6 (.run 0 .first) ++
    [.run 1 .first, .run 2 .first, .env .close, .run 2 .second] ++
    List.replicate 7 (.run 2 .first)

/-- The goroutines that push the handlers. -/
def twoPushers : List (List (SlotCall Nat)) :=
  [[.push 0, .push 1], [.tryPush 2]]

theorem stoppedWhileQueued_followed :
    (((Slots.machine 1).follow (fun _ _ => true) (newDispatcher twoPushers)
      stoppedWhileQueued).map fun state =>
        (state.shared.dispatcher.dropped, state.threads.flatten.length)) =
      some ([1], 0) := by
  decide +kernel

theorem slots_accounted_stopped :
    ∃ state, Slots.Reaches 1 twoPushers state ∧
      state.shared.dispatcher.dropped = [1] ∧
      state.shared.dispatcher.slots = state.shared.dispatcher.queue.length +
        state.ops.countP SlotOp.holdsToken := by
  obtain ⟨state, followed, ends⟩ :=
    Option.map_eq_some_iff.mp stoppedWhileQueued_followed
  have reached : Slots.Reaches 1 twoPushers state :=
    Machine.reach_of_follow (fun _ _ _ => trivial) .start _ followed
  exact ⟨state, reached, (Prod.mk.inj ends).1, (slots_accounted reached).1⟩

end Stream
end Gorums
