import Gorums.Quorum.Terminals
import Gorums.Pool.Ledger
import Mathlib.Data.List.ReduceOption

/-!
# Correctable calls

A correctable call is updated by one goroutine that ranges over the response
sequence, and watched by any number of others.  `update` and `Watch` hold the
call's mutex, so each is one step.  A channel that `Watch` makes is numbered by
its place among all of them; closing a channel is counted, because Go panics if
a channel is closed twice.
-/

namespace Gorums
namespace Quorum

open Gorums.Stream

variable {α : Type}

/-- `LevelNotSet`. -/
def levelNotSet : Int := -1

/-- `watcher`. -/
structure Watcher where
  /-- The level that is waited for. -/
  level : Int
  /-- The channel to close. -/
  ch : Nat

/-- `Correctable`. -/
structure Correctable (α : Type) where
  /-- The latest response, if it is set. -/
  reply : Option α := none
  /-- The current level. -/
  level : Int := levelNotSet
  /-- The last error. -/
  err : Option CallError := none
  /-- Whether the call is complete. -/
  done : Bool := false
  /-- The watchers; `none` is a watcher whose channel is closed. -/
  watchers : List (Option Watcher) := []
  /-- How often the done channel has been closed. -/
  donech : Nat := 0

/-- Whether the call is complete or has reached a level. -/
def Correctable.reached (corr : Correctable α) (level : Int) : Bool :=
  corr.done || decide (level ≤ corr.level)

/-- The arguments of `update`. -/
structure Update (α : Type) where
  /-- The response. -/
  reply : Option α
  /-- The level. -/
  level : Int
  /-- Whether the call completes. -/
  done : Bool
  /-- The error. -/
  err : Option CallError

/-- A correctable call and the channels that `Watch` has returned. -/
structure CorrectableShared (α : Type) where
  /-- The call. -/
  corr : Correctable α := {}
  /-- History: the level of each call of `Watch`. -/
  levels : List Int := []
  /-- How often each channel has been closed. -/
  closes : Nat → Nat := fun _ => 0
  /-- Whether `update` has been called on a completed call. -/
  panicked : Bool := false

namespace CorrectableShared

/-- Close each of a list of channels. -/
def close (shared : CorrectableShared α) (chs : List Nat) :
    CorrectableShared α :=
  { shared with closes := fun ch => shared.closes ch + chs.count ch }

/-- The watchers whose channel is open. -/
def live (shared : CorrectableShared α) : List Watcher :=
  shared.corr.watchers.reduceOption

/-- `Correctable.Watch`. -/
def watch (shared : CorrectableShared α) (level : Int) :
    CorrectableShared α :=
  if shared.corr.reached level then
    ({ shared with levels := shared.levels ++ [level] } :
      CorrectableShared α).close [shared.levels.length]
  else
    { shared with
      levels := shared.levels ++ [level]
      corr := { shared.corr with
        watchers := shared.corr.watchers ++
          [some ⟨level, shared.levels.length⟩] } }

/-- `Correctable.update`. -/
def update (shared : CorrectableShared α) (update : Update α) :
    CorrectableShared α :=
  if shared.corr.done then { shared with panicked := true }
  else
    let corr : Correctable α := { shared.corr with
      reply := update.reply
      level := update.level
      err := update.err
      done := update.done }
    if update.done then
      let corr : Correctable α := { corr with donech := corr.donech + 1 }
      ({ shared with corr := corr } : CorrectableShared α).close
        (shared.live.map Watcher.ch)
    else
      let corr : Correctable α := { corr with
        watchers := corr.watchers.map (Option.filter fun watcher =>
          update.level < watcher.level) }
      ({ shared with corr := corr } : CorrectableShared α).close
        ((shared.live.filter fun watcher =>
          watcher.level ≤ update.level).map Watcher.ch)

end CorrectableShared

/-- The variables of the goroutine of a correctable call. -/
structure Corrector (α : Type) where
  /-- The last successful response. -/
  lastResp : Option α := none
  /-- The number of successful responses. -/
  count : Nat := 0
  /-- The errors of the nodes. -/
  errs : List NodeError := []

/-- One round of the loop: the variables after a response, and the update that
it makes. -/
def Corrector.receive (threshold : Nat) (loop : Corrector α)
    (result : NodeResponse α) : Corrector α × Option (Update α) :=
  match result.err with
  | some err =>
      if isErr errSkipNode err then (loop, none)
      else ({ loop with errs := loop.errs ++ [⟨result.nodeID, err⟩] }, none)
  | none =>
      let count := loop.count + 1
      ({ loop with lastResp := some result.value, count := count },
        some ⟨some result.value, count, decide (threshold ≤ count), none⟩)

/-- The update after the loop. -/
def Corrector.finish (loop : Corrector α) : Update α :=
  ⟨loop.lastResp, loop.count, true, some (.quorum ⟨errIncomplete, loop.errs⟩)⟩

/-- Operations of the goroutines of a correctable call. -/
inductive CorrectableOp (α : Type)
  /-- The loop over the response sequence. -/
  | range (loop : Corrector α)
  /-- A call of `Watch`. -/
  | watch (level : Int)

/-- Execute one operation; the choice is what the response sequence yields next,
or `none` if it ends. -/
def correctableExec (threshold : Nat) (shared : CorrectableShared α) :
    CorrectableOp α → Option (NodeResponse α) →
      Option (Pool.Outcome (CorrectableShared α) (CorrectableOp α))
  | .range loop, some result =>
      match loop.receive threshold result with
      | (loop, none) => some ⟨shared, [.range loop], []⟩
      | (loop, some update) =>
          some ⟨shared.update update,
            if update.done then [] else [.range loop], []⟩
  | .range loop, none => some ⟨shared.update loop.finish, [], []⟩
  | .watch level, _ => some ⟨shared.watch level, [], []⟩

/-- The machine of a correctable call; nothing else acts on it. -/
def correctableMachine (threshold : Nat) :
    Pool.Machine (CorrectableShared α) (CorrectableOp α)
      (Option (NodeResponse α)) Empty where
  exec := correctableExec threshold
  env _ event := event.elim

/-- `Responses.Correctable` on a call with an error or without, and goroutines
that each watch some levels. -/
def newCorrectable (err : Option Err) (users : List (List Int)) :
    Pool.State (CorrectableShared α) (CorrectableOp α) :=
  let threads := users.map fun levels => levels.map .watch
  match err with
  | some err =>
      { shared := CorrectableShared.update {}
          ⟨none, levelNotSet, true, some (.plain err)⟩
        threads := threads }
  | none => { shared := {}, threads := [.range {}] :: threads }

/-- The states that a correctable call reaches. -/
def CorrectableReaches (threshold : Nat) (err : Option Err)
    (users : List (List Int))
    (state : Pool.State (CorrectableShared α) (CorrectableOp α)) : Prop :=
  (correctableMachine threshold).Reach (fun _ _ => True)
    (newCorrectable err users) state

/-! ## What a step does -/

/-- The level after the responses counted so far. -/
def Corrector.level (loop : Corrector α) : Int :=
  if loop.count = 0 then levelNotSet else loop.count

/-- What a step of a correctable call can do. -/
inductive CorrectableStep (shared : CorrectableShared α)
    (op : CorrectableOp α)
    (outcome : Pool.Outcome (CorrectableShared α) (CorrectableOp α)) : Prop
  /-- A response that is not counted. -/
  | passed (loop after : Corrector α) (running : op = .range loop)
      (same : after.count = loop.count)
      (equal : outcome = ⟨shared, [.range after], []⟩)
  /-- An update that leaves the call incomplete. -/
  | raised (loop after : Corrector α) (update : Update α)
      (running : op = .range loop) (level : update.level = after.level)
      (higher : loop.level ≤ after.level) (undone : update.done = false)
      (equal : outcome = ⟨shared.update update, [.range after], []⟩)
  /-- An update that completes the call. -/
  | completed (loop : Corrector α) (update : Update α)
      (running : op = .range loop) (higher : loop.level ≤ update.level)
      (done : update.done = true)
      (equal : outcome = ⟨shared.update update, [], []⟩)
  /-- A call of `Watch`. -/
  | watched (level : Int) (running : op = .watch level)
      (equal : outcome = ⟨shared.watch level, [], []⟩)

section Steps

variable {threshold : Nat} {shared : CorrectableShared α}
  {op : CorrectableOp α} {choice : Option (NodeResponse α)}
  {outcome : Pool.Outcome (CorrectableShared α) (CorrectableOp α)}

theorem Corrector.level_le_count (loop : Corrector α) :
    loop.level ≤ loop.count := by
  unfold Corrector.level levelNotSet
  split <;> omega

theorem Corrector.level_of_succ {loop after : Corrector α}
    (more : after.count = loop.count + 1) :
    after.level = loop.count + 1 := by
  unfold Corrector.level
  rw [if_neg (by omega), more]
  simp

/-- A response that is not a success changes neither the count nor the call. -/
theorem Corrector.receive_of_failed (loop : Corrector α)
    {result : NodeResponse α} (failed : result.err ≠ none) :
    ∃ after : Corrector α, after.count = loop.count ∧
      loop.receive threshold result = (after, none) := by
  unfold Corrector.receive
  split
  · split
    · exact ⟨loop, rfl, rfl⟩
    · exact ⟨{ loop with errs := loop.errs ++ [_] }, rfl, rfl⟩
  · exact absurd ‹_› failed

theorem Corrector.receive_of_succeeded (loop : Corrector α)
    {result : NodeResponse α} (succeeded : result.err = none) :
    loop.receive threshold result =
      (⟨some result.value, loop.count + 1, loop.errs⟩,
        some ⟨some result.value, (loop.count + 1 : Nat),
          decide (threshold ≤ loop.count + 1), none⟩) := by
  simp [Corrector.receive, succeeded]

/-- Every operation of a correctable call does one of these things. -/
theorem correctable_exec
    (executed : correctableExec threshold shared op choice = some outcome) :
    CorrectableStep shared op outcome := by
  cases op with
  | watch level =>
      cases choice <;>
        exact .watched level rfl (Option.some.inj executed).symm
  | range loop =>
      cases choice with
      | none =>
          exact .completed loop loop.finish rfl loop.level_le_count rfl
            (Option.some.inj executed).symm
      | some result =>
          rw [correctableExec] at executed
          by_cases succeeded : result.err = none
          · rw [loop.receive_of_succeeded succeeded] at executed
            have equal := (Option.some.inj executed).symm
            have below := loop.level_le_count
            by_cases reached : threshold ≤ loop.count + 1
            · rw [if_pos (decide_eq_true reached)] at equal
              exact .completed loop _ rfl (by dsimp only; omega)
                (decide_eq_true reached) equal
            · rw [if_neg (by simpa using reached)] at equal
              have level : Corrector.level
                  ⟨some result.value, loop.count + 1, loop.errs⟩ =
                    (loop.count + 1 : Nat) := Corrector.level_of_succ rfl
              exact .raised loop _ _ rfl level.symm (by rw [level]; omega)
                (decide_eq_false reached) equal
          · obtain ⟨after, same, passes⟩ := loop.receive_of_failed succeeded
            rw [passes] at executed
            exact .passed loop after rfl same (Option.some.inj executed).symm

end Steps

/-! ## The watchers -/

/-- The places of the levels that satisfy a condition. -/
def places (levels : List Int) (condition : Int → Bool) : List Watcher :=
  (levels.zipIdx.filter fun place => condition place.1).map fun place =>
    ⟨place.1, place.2⟩

/-- The channels of `Watch` are closed exactly when the call has reached their
level or is complete, and each once. -/
structure Watched (shared : CorrectableShared α) : Prop where
  /-- No update came after completion. -/
  calm : shared.panicked = false
  /-- The done channel is closed on completion. -/
  donech : shared.corr.donech = shared.corr.done.toNat
  /-- While the call is incomplete, the live watchers are those of higher
  levels. -/
  live : shared.corr.done = false →
    shared.live = places shared.levels fun level => !shared.corr.reached level
  /-- How often each channel has been closed. -/
  closes : ∀ ch, shared.closes ch =
    ((shared.levels[ch]?).any shared.corr.reached).toNat

section Watchers

variable {shared : CorrectableShared α} {levels : List Int}
  {condition : Int → Bool}

theorem places_concat (level : Int) :
    places (levels ++ [level]) condition =
      places levels condition ++
        if condition level then [⟨level, levels.length⟩] else [] := by
  unfold places
  rw [List.zipIdx_append, List.filter_append, List.map_append]
  by_cases holds : condition level = true <;> simp [holds]

theorem filter_places (further : Int → Bool) :
    (places levels condition).filter (fun watcher => further watcher.level) =
      places levels fun level => condition level && further level := by
  unfold places
  rw [List.filter_map, List.filter_filter]
  congr 1
  apply List.filter_congr
  intro place _
  exact Bool.and_comm _ _

/-- A level is at one place. -/
theorem count_places (ch : Nat) :
    ((places levels condition).map Watcher.ch).count ch =
      ((levels[ch]?).any condition).toNat := by
  have distinct : ((places levels condition).map Watcher.ch).Nodup := by
    have all : (levels.zipIdx.map Prod.snd).Nodup := by
      rw [List.zipIdx_map_snd]
      exact List.nodup_range'
    refine List.Nodup.sublist ?_ all
    unfold places
    rw [List.map_map]
    exact List.filter_sublist.map _
  have placed : ch ∈ (places levels condition).map Watcher.ch ↔
      (levels[ch]?).any condition = true := by
    simp only [places, List.map_map, List.mem_map, List.mem_filter,
      Function.comp_apply, Prod.exists, List.mem_zipIdx_iff_getElem?,
      Option.any_eq_true]
    constructor
    · rintro ⟨level, index, ⟨found, holds⟩, rfl⟩
      exact ⟨level, found, holds⟩
    · rintro ⟨level, found, holds⟩
      exact ⟨level, ch, ⟨found, holds⟩, rfl⟩
  by_cases holds : (levels[ch]?).any condition = true
  · rw [List.count_eq_one_of_mem distinct (placed.mpr holds), holds]
    rfl
  · rw [List.count_eq_zero_of_not_mem fun inside => holds (placed.mp inside),
      Bool.eq_false_iff.mpr holds]
    rfl

/-- The level of a new channel. -/
theorem any_getElem?_concat (level : Int) (ch : Nat) :
    ((levels ++ [level])[ch]?).any condition =
      ((levels[ch]?).any condition ||
        (ch == levels.length && condition level)) := by
  rcases Nat.lt_trichotomy ch levels.length with inside | rfl | beyond
  · have other : (ch == levels.length) = false := by
      simpa using Nat.ne_of_lt inside
    rw [List.getElem?_append_left inside, other]
    simp
  · simp
  · have other : (ch == levels.length) = false := by
      simpa using Nat.ne_of_gt beyond
    rw [List.getElem?_eq_none (by simpa [Nat.succ_le_iff] using beyond),
      List.getElem?_eq_none (Nat.le_of_lt beyond), other]
    rfl

theorem reduceOption_map_filter (keep : Watcher → Bool)
    (watchers : List (Option Watcher)) :
    (watchers.map (Option.filter keep)).reduceOption =
      watchers.reduceOption.filter keep := by
  induction watchers with
  | nil => rfl
  | cons watcher rest inductionHypothesis =>
      cases watcher with
      | none => simpa using inductionHypothesis
      | some watcher =>
          by_cases kept : keep watcher = true <;>
            simp [Option.filter, kept, inductionHypothesis]

end Watchers

section Watch

variable {shared : CorrectableShared α} {level : Int}

@[simp] theorem watch_panicked :
    (shared.watch level).panicked = shared.panicked := by
  unfold CorrectableShared.watch
  split <;> rfl

@[simp] theorem watch_donech :
    (shared.watch level).corr.donech = shared.corr.donech := by
  unfold CorrectableShared.watch
  split <;> rfl

@[simp] theorem watch_done :
    (shared.watch level).corr.done = shared.corr.done := by
  unfold CorrectableShared.watch
  split <;> rfl

@[simp] theorem watch_level :
    (shared.watch level).corr.level = shared.corr.level := by
  unfold CorrectableShared.watch
  split <;> rfl

@[simp] theorem watch_reached :
    (shared.watch level).corr.reached = shared.corr.reached := by
  unfold Correctable.reached
  rw [watch_done, watch_level]

@[simp] theorem watch_levels :
    (shared.watch level).levels = shared.levels ++ [level] := by
  unfold CorrectableShared.watch
  split <;> rfl

theorem watch_live :
    (shared.watch level).live = shared.live ++
      if !shared.corr.reached level then [⟨level, shared.levels.length⟩]
      else [] := by
  unfold CorrectableShared.watch
  by_cases reached : shared.corr.reached level = true
  · simp [CorrectableShared.live, CorrectableShared.close, reached]
  · simp [CorrectableShared.live, List.reduceOption_append,
      Bool.eq_false_iff.mpr reached]

theorem watch_closes (ch : Nat) :
    (shared.watch level).closes ch = shared.closes ch +
      (ch == shared.levels.length && shared.corr.reached level).toNat := by
  unfold CorrectableShared.watch
  by_cases reached : shared.corr.reached level = true
  · by_cases last : ch = shared.levels.length
    · simp [CorrectableShared.close, reached, last]
    · simp [CorrectableShared.close, reached, last, Ne.symm last]
  · simp [Bool.eq_false_iff.mpr reached]

theorem Watched.of_watch (watched : Watched shared) (level : Int) :
    Watched (shared.watch level) := by
  refine ⟨?_, ?_, ?_, ?_⟩
  · rw [watch_panicked]
    exact watched.calm
  · rw [watch_donech, watch_done]
    exact watched.donech
  · intro undone
    rw [watch_done] at undone
    rw [watch_live, watch_levels, watch_reached, places_concat,
      watched.live undone]
  · intro ch
    rw [watch_closes, watch_levels, watch_reached, any_getElem?_concat,
      watched.closes]
    by_cases last : ch = shared.levels.length
    · rw [last, List.getElem?_eq_none (Nat.le_refl _)]
      simp
    · have other : (ch == shared.levels.length) = false := by
        simpa using last
      rw [other]
      simp

end Watch

section Update

variable {shared : CorrectableShared α} {update : Update α}

/-- Whether an update completes the call or reaches a level. -/
def Update.reaches (update : Update α) (level : Int) : Bool :=
  update.done || decide (level ≤ update.level)

@[simp] theorem update_levels :
    (shared.update update).levels = shared.levels := by
  unfold CorrectableShared.update
  split
  · rfl
  · split <;> rfl

variable (undone : shared.corr.done = false)
include undone

theorem update_panicked :
    (shared.update update).panicked = shared.panicked := by
  unfold CorrectableShared.update
  rw [if_neg (by simp [undone])]
  split <;> rfl

theorem update_donech :
    (shared.update update).corr.donech =
      shared.corr.donech + update.done.toNat := by
  unfold CorrectableShared.update
  rw [if_neg (by simp [undone])]
  split
  · rename_i done
    rw [done]
    rfl
  · rename_i incomplete
    rw [Bool.eq_false_iff.mpr incomplete]
    rfl

theorem update_done : (shared.update update).corr.done = update.done := by
  unfold CorrectableShared.update
  rw [if_neg (by simp [undone])]
  split <;> rfl

theorem update_level : (shared.update update).corr.level = update.level := by
  unfold CorrectableShared.update
  rw [if_neg (by simp [undone])]
  split <;> rfl

theorem update_reached :
    (shared.update update).corr.reached = update.reaches := by
  unfold Correctable.reached Update.reaches
  rw [update_done undone, update_level undone]

theorem update_live (incomplete : update.done = false) :
    (shared.update update).live =
      shared.live.filter fun watcher => !update.reaches watcher.level := by
  have higher : (fun watcher : Watcher => !update.reaches watcher.level) =
      fun watcher => decide (update.level < watcher.level) := by
    funext watcher
    rw [Bool.eq_iff_iff]
    simp [Update.reaches, incomplete]
  unfold CorrectableShared.update
  rw [if_neg (by simp [undone]), if_neg (by simp [incomplete]), higher]
  exact reduceOption_map_filter _ _

theorem update_closes (ch : Nat) :
    (shared.update update).closes ch = shared.closes ch +
      ((shared.live.filter fun watcher =>
        update.reaches watcher.level).map Watcher.ch).count ch := by
  unfold CorrectableShared.update Update.reaches
  rw [if_neg (by simp [undone])]
  cases done : update.done <;> simp [CorrectableShared.close]

/-- An update to a level that is not lower keeps the watchers right. -/
theorem Watched.of_update (watched : Watched shared)
    (higher : shared.corr.level ≤ update.level) :
    Watched (shared.update update) := by
  have live := watched.live undone
  -- what was reached stays reached
  have further : ∀ level, shared.corr.reached level = true →
      update.reaches level = true := by
    intro level reached
    simp only [Correctable.reached, undone, Bool.false_or,
      decide_eq_true_eq] at reached
    simp only [Update.reaches, Bool.or_eq_true, decide_eq_true_eq]
    exact .inr (Int.le_trans reached higher)
  refine ⟨?_, ?_, ?_, ?_⟩
  · rw [update_panicked undone]
    exact watched.calm
  · rw [update_donech undone, update_done undone, watched.donech, undone]
    simp
  · intro incomplete
    rw [update_done undone] at incomplete
    rw [update_live undone incomplete, update_reached undone, update_levels,
      live, filter_places (fun level => !update.reaches level)]
    congr 1
    funext level
    cases reached : shared.corr.reached level with
    | false => simp
    | true => simp [further level reached]
  · intro ch
    rw [update_closes undone, update_reached undone, update_levels, live,
      filter_places update.reaches, count_places, watched.closes]
    cases found : shared.levels[ch]? with
    | none => simp
    | some level =>
        cases reached : shared.corr.reached level with
        | false => simp [reached]
        | true => simp [reached, further level reached]

end Update

/-! ## Runs -/

/-- The ledger of the completion of a call: it is complete, or its goroutine is
in the loop. -/
def completion : Pool.Ledger (CorrectableShared α) (CorrectableOp α) where
  credit shared := shared.corr.done.toNat
  weight
    | .range _ => 1
    | .watch _ => 0

/-- What the goroutine in the loop knows. -/
def CorrectableOp.note (shared : CorrectableShared α) :
    CorrectableOp α → Prop
  | .range loop => shared.corr.level = loop.level
  | .watch _ => True

section Runs

open Pool

variable {threshold : Nat} {err : Option Err} {users : List (List Int)}
  {shared : CorrectableShared α} {op : CorrectableOp α}
  {choice : Option (NodeResponse α)}
  {outcome : Outcome (CorrectableShared α) (CorrectableOp α)}
  {state final : State (CorrectableShared α) (CorrectableOp α)}

/-- The users of a call only watch it. -/
theorem watch_of_user
    (member : op ∈ (users.map fun levels =>
      levels.map (CorrectableOp.watch (α := α))).flatten) :
    ∃ level, op = .watch level := by
  obtain ⟨ops, inside, listed⟩ := List.mem_flatten.mp member
  obtain ⟨levels, _, rfl⟩ := List.mem_map.mp inside
  obtain ⟨level, _, rfl⟩ := List.mem_map.mp listed
  exact ⟨level, rfl⟩

/-- A new call is complete or has its goroutine. -/
theorem completion_start (err : Option Err) (users : List (List Int)) :
    completion.credit (newCorrectable (α := α) err users).shared +
      completion.weigh (newCorrectable (α := α) err users).ops = 1 := by
  have idle : completion.weigh (users.map fun levels =>
      levels.map (CorrectableOp.watch (α := α))).flatten = 0 := by
    refine Ledger.weigh_eq_zero fun op member => ?_
    obtain ⟨level, rfl⟩ := watch_of_user member
    rfl
  cases err with
  | some err => exact congrArg (1 + ·) idle
  | none =>
      rw [newCorrectable, State.ops, List.flatten_cons, Ledger.weigh_append,
        idle]
      rfl

theorem completion_keeps
    (executed : correctableExec threshold shared op choice = some outcome)
    (sole : completion.credit shared + completion.weight op ≤ 1) :
    completion.Keeps shared op outcome := by
  unfold Ledger.Keeps Ledger.worth
  have undone : (∃ loop, op = .range loop) → shared.corr.done = false := by
    rintro ⟨loop, rfl⟩
    cases done : shared.corr.done with
    | false => rfl
    | true => simp [completion, done] at sole
  cases correctable_exec executed with
  | passed loop after running same equal =>
      subst running equal
      simp [completion]
  | raised loop after update running level higher incomplete equal =>
      have open_ := undone ⟨loop, running⟩
      subst running equal
      simp [completion, update_done open_, incomplete, open_]
  | completed loop update running higher done equal =>
      have open_ := undone ⟨loop, running⟩
      subst running equal
      simp [completion, update_done open_, done, open_]
  | watched level running equal =>
      subst running equal
      simp [completion]

/-- In every state, the call is complete or one goroutine is in the loop. -/
theorem completion_reached (reached : CorrectableReaches threshold err users state) :
    completion.credit state.shared + completion.weigh state.ops = 1 := by
  have start := completion_start (α := α) err users
  have balance := completion.balanced (fun shared op choice outcome executed
      bounded => completion_keeps executed (by
    simp only [completion] at bounded start ⊢
    omega)) (fun _ event => event.elim) reached
  simp only [completion] at balance start ⊢
  omega

/-- While the goroutine is in the loop, the call is incomplete. -/
theorem undone_of_range (reached : CorrectableReaches threshold err users state)
    {loop : Corrector α} (member : .range loop ∈ state.ops) :
    state.shared.corr.done = false := by
  have sole := completion_reached reached
  have weighs := completion.weight_le_weigh member
  cases done : state.shared.corr.done with
  | false => rfl
  | true =>
      simp only [completion, done, Bool.toNat_true] at sole weighs
      omega

/-- A step never lowers the level, and the goroutine knows it. -/
theorem level_of_step (watched : Watched shared) (noted : op.note shared)
    (undone : (∃ loop, op = .range loop) → shared.corr.done = false)
    (executed : correctableExec threshold shared op choice = some outcome) :
    Watched outcome.shared ∧ shared.corr.level ≤ outcome.shared.corr.level ∧
      ∀ op ∈ outcome.next ++ outcome.spawned.flatten,
        op.note outcome.shared := by
  cases correctable_exec executed with
  | passed loop after running same equal =>
      subst running equal
      refine ⟨watched, Int.le_refl _, ?_⟩
      have level : after.level = loop.level := by
        simp [Corrector.level, same]
      simpa [CorrectableOp.note, level] using noted
  | raised loop after update running level higher incomplete equal =>
      have open_ := undone ⟨loop, running⟩
      subst running equal
      have known : shared.corr.level = loop.level := noted
      have raised : shared.corr.level ≤ update.level := by omega
      refine ⟨watched.of_update open_ raised, ?_, ?_⟩
      · rw [update_level open_]
        exact raised
      · simpa [CorrectableOp.note, update_level open_] using level
  | completed loop update running higher done equal =>
      have open_ := undone ⟨loop, running⟩
      subst running equal
      have known : shared.corr.level = loop.level := noted
      have raised : shared.corr.level ≤ update.level := by omega
      refine ⟨watched.of_update open_ raised, ?_, ?_⟩
      · rw [update_level open_]
        exact raised
      · exact List.forall_mem_nil _
  | watched level running equal =>
      subst running equal
      refine ⟨watched.of_watch level, ?_, ?_⟩
      · rw [watch_level]
      · exact List.forall_mem_nil _

theorem watched_start :
    Watched (newCorrectable (α := α) err users).shared := by
  have fresh : Watched ({} : CorrectableShared α) := by
    refine ⟨rfl, rfl, fun _ => rfl, fun ch => ?_⟩
    simp
  cases err with
  | none => exact fresh
  | some err =>
      change Watched (CorrectableShared.update {}
        ⟨none, levelNotSet, true, some (.plain err)⟩)
      exact Watched.of_update rfl fresh (le_refl levelNotSet)

theorem note_start (op : CorrectableOp α)
    (member : op ∈ (newCorrectable err users).ops) :
    op.note (newCorrectable err users).shared := by
  have idle : (∃ level, op = .watch level) →
      op.note (newCorrectable err users).shared := by
    rintro ⟨level, rfl⟩
    trivial
  cases err with
  | some err => exact idle (watch_of_user member)
  | none =>
      rcases List.mem_cons.mp member with rfl | other
      · rfl
      · exact idle (watch_of_user other)

/-- The watchers are right in every state, and the goroutine knows the level. -/
theorem watched_reached (reached : CorrectableReaches threshold err users state) :
    Watched state.shared ∧ ∀ op ∈ state.ops, op.note state.shared := by
  refine reached.annotated Watched (fun shared op => op.note shared)
    ⟨watched_start, note_start⟩ ?_ (fun _ event => event.elim)
  intro state thread choice next runs reached _ watched noted
  have undone : (∃ loop, runs.op = .range loop) →
      state.shared.corr.done = false := by
    rintro ⟨loop, running⟩
    exact undone_of_range reached (running ▸ runs.op_mem)
  obtain ⟨kept, _, established⟩ :=
    level_of_step watched noted undone runs.exec_eq
  refine ⟨kept, established, fun op other noted => ?_⟩
  cases op with
  | watch level => trivial
  | range loop =>
      -- only one goroutine is in the loop, so another one is running
      have sole := completion_reached reached
      have both := completion.weight_add_weight_le runs other
      cases running : runs.op with
      | range _ =>
          simp only [running, completion] at both sole
          omega
      | watch level =>
          have executed := running ▸ correctable_exec runs.exec_eq
          cases executed with
          | watched other same equal =>
              rw [equal]
              cases same
              exact watch_level.trans noted
          | passed _ _ same => cases same
          | raised _ _ _ same => cases same
          | completed _ _ same => cases same

/-- The level of a call never decreases. -/
theorem level_mono (reached : CorrectableReaches threshold err users state)
    (later : (correctableMachine threshold).Reach (fun _ _ => True) state
      final) :
    state.shared.corr.level ≤ final.shared.corr.level := by
  have both : CorrectableReaches threshold err users final ∧
      state.shared.corr.level ≤ final.shared.corr.level := by
    refine later.invariant
      (fun final => CorrectableReaches threshold err users final ∧
        state.shared.corr.level ≤ final.shared.corr.level)
      ⟨reached, Int.le_refl _⟩ ?_
    intro current label next _ ⟨reached, higher⟩ _ stepped
    refine ⟨reached.step label trivial stepped, ?_⟩
    rcases Machine.step_cases stepped with
      ⟨thread, choice, rfl, ⟨runs⟩⟩ | ⟨event, _, _, _, _⟩
    · have watched := watched_reached reached
      have raised := level_of_step watched.1 (watched.2 _ runs.op_mem)
        (by
          rintro ⟨loop, running⟩
          exact undone_of_range reached (running ▸ runs.op_mem))
        runs.exec_eq
      rw [runs.next_shared]
      exact Int.le_trans higher raised.2.1
    · exact event.elim
  exact both.2

/-- The channels of a correctable call, in every state: the channel of a
`Watch` is closed if and only if the call is complete or has reached its level,
no channel is closed twice, the done channel is closed if and only if the call
is complete, and no update comes after that; the level never decreases. -/
theorem correctable_watchers
    (reached : CorrectableReaches threshold err users state) :
    (∀ ch level, state.shared.levels[ch]? = some level →
        state.shared.closes ch ≤ 1 ∧
          (0 < state.shared.closes ch ↔ state.shared.corr.done = true ∨
            level ≤ state.shared.corr.level)) ∧
      state.shared.corr.donech ≤ 1 ∧
      (0 < state.shared.corr.donech ↔ state.shared.corr.done = true) ∧
      state.shared.panicked = false ∧
      (state.shared.corr.done = true →
        ∀ op ∈ state.ops, ∃ level, op = .watch level) ∧
      ∀ final, (correctableMachine threshold).Reach (fun _ _ => True) state
          final →
        state.shared.corr.level ≤ final.shared.corr.level := by
  have watched := (watched_reached reached).1
  have positive : ∀ bit : Bool, 0 < bit.toNat ↔ bit = true := by decide
  refine ⟨?_, ?_, ?_, watched.calm, ?_, fun final => level_mono reached⟩
  · intro ch level found
    have closes := watched.closes ch
    rw [found, Option.any_some] at closes
    rw [closes]
    refine ⟨Bool.toNat_le _, ?_⟩
    rw [positive, Correctable.reached, Bool.or_eq_true, decide_eq_true_eq]
  · rw [watched.donech]
    exact Bool.toNat_le _
  · rw [watched.donech]
    exact positive _
  · intro done op member
    cases op with
    | watch level => exact ⟨level, rfl⟩
    | range loop =>
        rw [undone_of_range reached member] at done
        cases done

/-- One response, and a goroutine that watches level one. -/
def watchScript : List (Label (Option (NodeResponse Nat)) Empty) :=
  [.run 1 none, .run 0 (some ⟨1, 7, none⟩), .run 0 none]

theorem watchScript_followed :
    ((correctableMachine 2).follow (fun _ _ => true)
      (newCorrectable none [[1]]) watchScript).isSome = true := by
  decide +kernel

theorem correctable_watchers_script :
    0 < (((correctableMachine 2).follow (fun _ _ => true)
        (newCorrectable none [[1]]) watchScript).get
      watchScript_followed).shared.closes 0 ↔
      (((correctableMachine 2).follow (fun _ _ => true)
          (newCorrectable none [[1]]) watchScript).get
        watchScript_followed).shared.corr.done = true ∨
        1 ≤ (((correctableMachine 2).follow (fun _ _ => true)
            (newCorrectable none [[1]]) watchScript).get
          watchScript_followed).shared.corr.level :=
  ((correctable_watchers (Machine.reach_of_isSome
    (fun _ _ _ => trivial) watchScript_followed)).1 0 1 (by decide +kernel)).2

end Runs

end Quorum
end Gorums
