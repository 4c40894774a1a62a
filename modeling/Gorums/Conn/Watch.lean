import Gorums.Conn.NodeSource
import Gorums.Pool.Ledger

/-!
# Watching a configuration

`Config.Watch` starts a goroutine that derives a configuration at every tick and
emits it on a channel with a buffer of one.  The consumer reads the channel and
the context ends at any time; what `derive` returns is a choice of each tick.
-/

namespace Gorums
namespace Conn

open Gorums.Stream

/-- The loop of `Config.Equal` over two configurations of the same length. -/
def equalIDs : Config → Config → Bool
  | first :: rest, second :: others =>
      if first.id ≠ second.id then false else equalIDs rest others
  | _, _ => true

/-- `Config.Equal`. -/
def Config.equal (first second : Config) : Bool :=
  if first.length ≠ second.length then false else equalIDs first second

/-- A tick that the goroutine has handled. -/
structure Tick where
  /-- Whether the buffer was empty when the tick was received. -/
  empty : Bool
  /-- The configuration derived at the tick. -/
  derived : Config
  /-- The last configuration that had been emitted after the tick. -/
  emitted : Option Config

/-- The state of a watch.  The fields from `emitted` on record what has
happened. -/
structure WatchShared where
  /-- The configuration in the channel's buffer. -/
  buffer : Option Config := none
  /-- Whether the context has ended. -/
  ended : Bool := false
  /-- Whether the channel is closed. -/
  closed : Bool := false
  /-- The configurations sent on the channel. -/
  emitted : List Config := []
  /-- The ticks handled. -/
  ticks : List Tick := []

/-- Operations of the goroutine. -/
inductive WatchOp
  /-- The first call of `derive`. -/
  | derive
  /-- The first send. -/
  | first (current : Config)
  /-- The select of the loop. -/
  | select (current : Config)
  /-- The comparison with the configuration derived at a tick, and the
  emission. -/
  | compare (current fresh : Config) (empty : Bool)
  /-- The deferred close of the channel. -/
  | close

/-- What the scheduler and `derive` decide in one step. -/
inductive WatchChoice
  | go
  | derived (config : Config)
  | done

/-- What the consumer and the context do. -/
inductive WatchEvent
  | read
  | cancel

/-- Send on the channel. -/
def WatchShared.send (shared : WatchShared) (config : Config) : WatchShared :=
  { shared with
    buffer := some config
    emitted := shared.emitted ++ [config] }

/-- Record a tick. -/
def WatchShared.tick (shared : WatchShared) (empty : Bool) (derived : Config) :
    WatchShared :=
  { shared with
    ticks := shared.ticks ++ [⟨empty, derived, shared.emitted.getLast?⟩] }

/-- The select that sends only if the buffer has room. -/
def WatchShared.trySend (shared : WatchShared) (config : Config) :
    WatchShared :=
  match shared.buffer with
  | none => shared.send config
  | some _ => shared

/-- Execute one operation of the goroutine. -/
def watchExec (shared : WatchShared) :
    WatchOp → WatchChoice → Option (Pool.Outcome WatchShared WatchOp)
  | .derive, .derived current => some ⟨shared, [.first current], []⟩
  | .first current, .go =>
      match shared.buffer with
      | none => some ⟨shared.send current, [.select current], []⟩
      | some _ => none
  | .select current, .derived fresh =>
      some ⟨shared, [.compare current fresh shared.buffer.isNone], []⟩
  | .select _, .done =>
      if shared.ended then some ⟨shared, [.close], []⟩ else none
  | .compare current fresh empty, .go =>
      if !fresh.equal current then
        some ⟨(shared.trySend fresh).tick empty fresh, [.select fresh], []⟩
      else some ⟨shared.tick empty fresh, [.select current], []⟩
  | .close, .go => some ⟨{ shared with closed := true }, [], []⟩
  | _, _ => none

/-- The consumer reads the buffer, or the context ends. -/
def watchEnv (shared : WatchShared) : WatchEvent → Option WatchShared
  | .read => shared.buffer.map fun _ => { shared with buffer := none }
  | .cancel => some { shared with ended := true }

/-- The machine of a watch. -/
def watchMachine : Pool.Machine WatchShared WatchOp WatchChoice WatchEvent where
  exec := watchExec
  env := watchEnv

/-- `Config.Watch`. -/
def newWatch : Pool.State WatchShared WatchOp where
  shared := {}
  threads := [[.derive]]

/-- The states that a watch reaches if every step is allowed. -/
def WatchReaches
    (allowed : Pool.State WatchShared WatchOp →
      Pool.Label WatchChoice WatchEvent → Prop)
    (state : Pool.State WatchShared WatchOp) : Prop :=
  watchMachine.Reach allowed newWatch state

/-- A tick that derives another configuration than the remembered one is
received with an empty buffer. -/
def Drained (state : Pool.State WatchShared WatchOp) :
    Pool.Label WatchChoice WatchEvent → Prop
  | .run thread (.derived fresh) => ∀ current,
      state.head? thread = some (.select current) →
        fresh.equal current = true ∨ state.shared.buffer = none
  | _ => True

/-- Two configurations have the same sequence of IDs. -/
def SameIDs (first second : Config) : Prop :=
  first.map Node.id = second.map Node.id

theorem equalIDs_iff {first second : Config}
    (length : first.length = second.length) :
    equalIDs first second = true ↔ SameIDs first second := by
  induction first generalizing second with
  | nil =>
      have none : second = [] := List.length_eq_zero_iff.mp length.symm
      simp [equalIDs, none, SameIDs]
  | cons node rest inductionHypothesis =>
      cases second with
      | nil => cases length
      | cons other others =>
          have shorter : rest.length = others.length := by simpa using length
          have tails := inductionHypothesis shorter
          by_cases same : node.id = other.id
          · simpa [equalIDs, SameIDs, same] using tails
          · simp [equalIDs, SameIDs, same]

/-- `Equal` compares the sequences of IDs. -/
theorem equal_iff {first second : Config} :
    first.equal second = true ↔ SameIDs first second := by
  unfold Config.equal
  by_cases length : first.length = second.length
  · rw [if_neg (by simpa using length)]
    exact equalIDs_iff length
  · rw [if_pos length]
    constructor
    · intro impossible
      cases impossible
    · intro same
      have equal := congrArg List.length same
      rw [List.length_map, List.length_map] at equal
      exact absurd equal length

/-! ## Drained watches -/

/-- The last configuration emitted has the IDs of a configuration. -/
def LastEmitted (shared : WatchShared) (config : Config) : Prop :=
  ∃ last, shared.emitted.getLast? = some last ∧ SameIDs last config

/-- What the goroutine knows in a drained watch. -/
def WatchOp.note (shared : WatchShared) : WatchOp → Prop
  | .derive | .first _ => shared.emitted = []
  | .select current => LastEmitted shared current
  | .compare current fresh _ =>
      LastEmitted shared current ∧
        (fresh.equal current = true ∨ shared.buffer = none)
  | .close => True

/-- Every tick so far left its configuration as the last one emitted. -/
def TicksEmitted (shared : WatchShared) : Prop :=
  ∀ tick ∈ shared.ticks, ∃ last, tick.emitted = some last ∧
    SameIDs last tick.derived

section Steps

open Pool

variable {shared after : WatchShared} {op : WatchOp} {choice : WatchChoice}
  {outcome : Outcome WatchShared WatchOp} {config : Config}

theorem lastEmitted_send : LastEmitted (shared.send config) config :=
  ⟨config, List.getLast?_concat, rfl⟩

theorem LastEmitted.tick {empty : Bool} {derived : Config}
    (last : LastEmitted shared config) :
    LastEmitted (shared.tick empty derived) config := last

/-- A tick whose configuration is the last one emitted is recorded so. -/
theorem TicksEmitted.tick {empty : Bool}
    (ticks : TicksEmitted shared) (last : LastEmitted shared config) :
    TicksEmitted (shared.tick empty config) := by
  intro tick member
  rcases List.mem_append.mp member with earlier | new
  · exact ticks tick earlier
  · rw [List.mem_singleton.mp new]
    exact last

/-- A step of a drained watch keeps what is known. -/
theorem watch_exec (executed : watchExec shared op choice = some outcome)
    (drained : ∀ current fresh, op = .select current →
      choice = .derived fresh →
        fresh.equal current = true ∨ shared.buffer = none)
    (ticks : TicksEmitted shared) (noted : op.note shared) :
    TicksEmitted outcome.shared ∧
      (∀ op ∈ outcome.next, op.note outcome.shared) ∧
      outcome.spawned = [] := by
  cases op <;> cases choice <;> try cases executed
  case derive.derived current =>
    exact ⟨ticks, by simpa [WatchOp.note] using noted, rfl⟩
  case first.go current =>
    simp only [watchExec] at executed
    cases room : shared.buffer <;> rw [room] at executed <;> cases executed
    exact ⟨ticks, List.forall_mem_singleton.mpr lastEmitted_send, rfl⟩
  case select.derived current fresh =>
    refine ⟨ticks, List.forall_mem_singleton.mpr ?_, rfl⟩
    exact ⟨noted, drained current fresh rfl rfl⟩
  case select.done current =>
    obtain ⟨_, equal⟩ := Option.ite_none_right_eq_some.mp executed
    cases equal
    exact ⟨ticks, List.forall_mem_singleton.mpr trivial, rfl⟩
  case compare.go current fresh empty =>
    simp only [watchExec] at executed
    split_ifs at executed with differs <;> cases executed
    · -- the buffer is empty, so the new configuration is sent
      have room : shared.buffer = none := by
        rcases noted.2 with same | room
        · rw [same] at differs
          cases differs
        · exact room
      have sent : shared.trySend fresh = shared.send fresh := by
        rw [WatchShared.trySend, room]
      have last : LastEmitted (shared.trySend fresh) fresh :=
        sent ▸ lastEmitted_send
      have before : TicksEmitted (shared.trySend fresh) := by
        rw [sent]
        exact ticks
      exact ⟨before.tick last, List.forall_mem_singleton.mpr last.tick, rfl⟩
    · obtain ⟨last, found, ids⟩ := noted.1
      have equal : SameIDs fresh current := equal_iff.mp (by simpa using differs)
      have fresher : LastEmitted shared fresh :=
        ⟨last, found, ids.trans equal.symm⟩
      exact ⟨ticks.tick fresher, List.forall_mem_singleton.mpr noted.1.tick, rfl⟩
  case close.go => exact ⟨ticks, List.forall_mem_nil _, rfl⟩

/-- The goroutine has one operation at a time. -/
theorem length_next (executed : watchExec shared op choice = some outcome) :
    outcome.next.length ≤ 1 := by
  revert executed
  fun_cases watchExec shared op choice <;> intro executed <;>
    cases executed <;> simp

theorem watch_env {event : WatchEvent}
    (acted : watchEnv shared event = some after) :
    after.emitted = shared.emitted ∧ after.ticks = shared.ticks ∧
      (shared.buffer = none → after.buffer = none) := by
  cases event with
  | read =>
      obtain ⟨config, _, equal⟩ := Option.map_eq_some_iff.mp acted
      rw [← equal]
      exact ⟨rfl, rfl, fun _ => rfl⟩
  | cancel =>
      rw [← Option.some.inj acted]
      exact ⟨rfl, rfl, id⟩

theorem WatchOp.note_env {event : WatchEvent}
    (acted : watchEnv shared event = some after) (noted : op.note shared) :
    op.note after := by
  obtain ⟨emitted, _, buffer⟩ := watch_env acted
  have last : ∀ config, LastEmitted shared config →
      LastEmitted after config := by
    intro config known
    rw [LastEmitted, emitted]
    exact known
  cases op with
  | derive => exact emitted.trans noted
  | first current => exact emitted.trans noted
  | select current => exact last current noted
  | compare current fresh empty =>
      exact ⟨last current noted.1, noted.2.imp id buffer⟩
  | close => trivial

end Steps

section Runs

open Pool

variable {state : State WatchShared WatchOp}

/-- If every tick that derives a new configuration is received with an empty
buffer, the last configuration emitted after each tick has the IDs of the one
derived at the tick. -/
theorem watch_current (reached : WatchReaches Drained state) :
    ∀ tick ∈ state.shared.ticks,
      ∃ last, tick.emitted = some last ∧ SameIDs last tick.derived := by
  have initial : TicksEmitted newWatch.shared ∧ [WatchOp.derive].length ≤ 1 ∧
      ∀ op ∈ [WatchOp.derive], op.note newWatch.shared := by
    refine ⟨List.forall_mem_nil _, Nat.le_refl _, ?_⟩
    simp [WatchOp.note, newWatch]
  have kept := reached.sequential
    (fun shared ops => TicksEmitted shared ∧ ops.length ≤ 1 ∧
      ∀ op ∈ ops, op.note shared) rfl initial ?_ ?_
  · obtain ⟨_, _, ticks, _⟩ := kept
    exact ticks
  · intro state thread choice next runs permitted ⟨ticks, sole, noted⟩
    have alone : runs.rest = [] := by
      simpa using sole
    have drained : ∀ current fresh, runs.op = .select current →
        choice = .derived fresh →
          fresh.equal current = true ∨ state.shared.buffer = none := by
      intro current fresh running chosen
      subst chosen
      exact permitted current (running ▸ runs.head?)
    obtain ⟨kept, established, unspawned⟩ :=
      watch_exec runs.exec_eq drained ticks (noted runs.op (by simp))
    have short := length_next runs.exec_eq
    rw [alone, List.append_nil]
    exact ⟨⟨kept, short, established⟩, unspawned⟩
  · intro shared event after ops acted ⟨ticks, sole, noted⟩
    refine ⟨?_, sole, fun op member => WatchOp.note_env acted (noted op member)⟩
    rw [TicksEmitted, (watch_env acted).2.1]
    exact ticks

/-- A node with an ID. -/
def numbered (id : ID) : Node := { ref := 0, id := id, addr := "" }

/-- The consumer reads the first configuration before the second is derived. -/
def drainedWatch : List (Label WatchChoice WatchEvent) :=
  [.run 0 (.derived [numbered 1]), .run 0 .go, .env .read,
    .run 0 (.derived [numbered 2]), .run 0 .go]

/-- Whether a step is drained, as far as a script needs it. -/
def checkDrained (state : State WatchShared WatchOp) :
    Label WatchChoice WatchEvent → Bool
  | .run _ (.derived _) => state.shared.buffer.isNone
  | _ => true

theorem drained_of_check (state : State WatchShared WatchOp)
    (label : Label WatchChoice WatchEvent)
    (checked : checkDrained state label = true) : Drained state label := by
  cases label with
  | env event => trivial
  | run thread choice =>
      cases choice with
      | go => trivial
      | done => trivial
      | derived fresh =>
          intro current _
          exact .inr (Option.isNone_iff_eq_none.mp checked)

theorem drainedWatch_followed :
    (watchMachine.follow checkDrained newWatch drainedWatch).isSome = true := by
  decide +kernel

/-- The state after this run. -/
def drainedState : State WatchShared WatchOp :=
  (watchMachine.follow checkDrained newWatch drainedWatch).get
    drainedWatch_followed

theorem watch_current_drained :
    drainedState.shared.ticks.length = 1 ∧
      ∀ tick ∈ drainedState.shared.ticks,
        ∃ last, tick.emitted = some last ∧ SameIDs last tick.derived :=
  ⟨by decide +kernel, watch_current
    (Machine.reach_of_isSome drained_of_check drainedWatch_followed)⟩

/-- The consumer reads the first configuration after the second has been
skipped, and the second is derived again. -/
def skippedWatch : List (Label WatchChoice WatchEvent) :=
  [.run 0 (.derived [numbered 1]), .run 0 .go, .run 0 (.derived [numbered 2]),
    .run 0 .go, .env .read, .run 0 (.derived [numbered 2]), .run 0 .go]

theorem skippedWatch_followed :
    (watchMachine.follow (fun _ _ => true) newWatch skippedWatch).isSome =
      true := by
  decide +kernel

/-- The state after this run. -/
def skippedState : State WatchShared WatchOp :=
  (watchMachine.follow (fun _ _ => true) newWatch skippedWatch).get
    skippedWatch_followed

/-- A tick with an empty buffer does not emit the configuration that an earlier
tick has skipped. -/
theorem watch_goes_stale :
    WatchReaches (fun _ _ => True) skippedState ∧
      (skippedState.shared.ticks.getLast?.map Tick.empty = some true) ∧
      (skippedState.shared.ticks.getLast?.map fun tick =>
        tick.derived.map Node.id) = some [2] ∧
      (skippedState.shared.ticks.getLast?.map fun tick =>
        tick.emitted.map fun config => config.map Node.id) =
          some (some [1]) :=
  ⟨Machine.reach_of_isSome (fun _ _ _ => trivial) skippedWatch_followed,
    by decide +kernel, by decide +kernel, by decide +kernel⟩

end Runs

end Conn
end Gorums
