import Gorums.Stream.Pending
import Mathlib.Algebra.Group.Nat.Defs
import Mathlib.Logic.Function.Basic

/-!
# Runs of a table of pending calls

A table together with the contexts of its calls and the expiry watches that it
has armed.  A callback may run at any time after the context of its watch has
ended: stopping a watch does not stop a callback that has started, so no armed
watch is ever taken back here.  Registrations are numbered by a natural number
where the source has a 64-bit counter, which makes no difference to a run of fewer
than 2^64 registrations.
-/

namespace Gorums
namespace Stream

/-- A registration of a request. -/
structure Registration where
  /-- The message ID. -/
  msgID : UInt64
  /-- The number of the registration. -/
  seq : Nat
  /-- The request. -/
  req : Request

/-- The expiry watch that is armed for a registration. -/
def Registration.watch (registration : Registration) : PendingCalls.Watch :=
  { msgID := registration.msgID
    seq := registration.seq
    ctx := registration.req.ctx }

/-- The registrations in a table. -/
def PendingCalls.registrations (table : PendingCalls) : List Registration :=
  table.calls.map fun call => ⟨call.1, call.2.seq, call.2.req⟩

/-- A table and its surroundings. -/
structure TableRun where
  /-- The table. -/
  table : PendingCalls := .empty
  /-- Whether a context has ended. -/
  ended : Nat → Bool := fun _ => false
  /-- The registrations that an expiry watch was armed for so far. -/
  armed : List Registration := []
  /-- History: the number of calls that the last sweep kept. -/
  kept : Nat := 0

/-- What happens to a table. -/
inductive TableEvent
  | add (msgID : UInt64) (req : Request)
  | take (msgID : UInt64)
  | drain
  | watchExpiry
  | endContext (ctx : Nat)
  | callback (index : Nat)

namespace TableRun

/-- A registration by `add`. -/
def added (run : TableRun) (msgID : UInt64) (req : Request)
    (table : PendingCalls) : TableRun :=
  { run with
    table := table
    armed := run.armed ++
      if run.table.watching then [⟨msgID, table.seq, req⟩] else []
    kept :=
      if run.table.sweepDue then (run.table.sweepLocked run.ended).len
      else run.kept }

/-- One event; `none` is a callback that cannot run. -/
def step (run : TableRun) : TableEvent → Option TableRun
  | .add msgID req =>
      match run.table.add run.ended msgID req with
      | none => some run
      | some table => some (run.added msgID req table)
  | .take msgID => some { run with table := (run.table.take msgID).2 }
  | .drain => some { run with table := run.table.drain }
  | .watchExpiry => some { run with
      table := run.table.watchExpiry
      armed := run.armed ++
        if run.table.watching then [] else run.table.registrations }
  | .endContext ctx =>
      some { run with ended := Function.update run.ended ctx true }
  | .callback index =>
      match run.armed[index]? with
      | none => none
      | some registration =>
          if run.ended registration.req.ctx then
            some { run with table := (run.table.expire registration.watch).2 }
          else none

/-- The state after a sequence of events. -/
def after (run : TableRun) : List TableEvent → Option TableRun
  | [] => some run
  | event :: events => (run.step event).bind fun next => next.after events

end TableRun

/-! ## The counter of the source -/

/-- The callback of an expiry watch as the source has it: it compares the 64 bits
that its counter has of the numbers. -/
def PendingCalls.expireWord (table : PendingCalls) (watch : Watch) :
    Option Request × PendingCalls :=
  match table.lookup watch.msgID with
  | none => (none, table)
  | some call =>
      if UInt64.ofNat call.seq = UInt64.ofNat watch.seq then
        (some call.req, table.delete watch.msgID)
      else (none, table)

namespace TableRun

/-- One event of a table with the counter of the source. -/
def stepWord (run : TableRun) : TableEvent → Option TableRun
  | .callback index =>
      match run.armed[index]? with
      | none => none
      | some registration =>
          if run.ended registration.req.ctx then
            some { run with
              table := (run.table.expireWord registration.watch).2 }
          else none
  | event => run.step event

/-- The state of such a table after a sequence of events. -/
def afterWord (run : TableRun) : List TableEvent → Option TableRun
  | [] => some run
  | event :: events =>
      (run.stepWord event).bind fun next => next.afterWord events

end TableRun

/-- Whether an event is an `add`. -/
def TableEvent.isAdd : TableEvent → Bool
  | .add _ _ => true
  | _ => false

/-! ## What each operation removes -/

namespace PendingCalls

variable {table : PendingCalls} {registration : Registration} {msgID : UInt64}

theorem mem_registrations : registration ∈ table.registrations ↔
    ∃ call ∈ table.calls, call.1 = registration.msgID ∧
      call.2.seq = registration.seq ∧ call.2.req = registration.req := by
  simp only [registrations, List.mem_map]
  constructor
  · rintro ⟨call, member, rfl⟩
    exact ⟨call, member, rfl, rfl, rfl⟩
  · rintro ⟨call, member, sameID, sameSeq, sameReq⟩
    exact ⟨call, member, by rw [sameID, sameSeq, sameReq]⟩

theorem mem_filter {keep : UInt64 × PendingCall → Bool}
    (member : registration ∈ table.registrations)
    (kept : ∀ call, call.1 = registration.msgID →
      call.2.seq = registration.seq → call.2.req = registration.req →
        keep call = true) :
    registration ∈ (table.filter keep).registrations := by
  obtain ⟨call, inside, sameID, sameSeq, sameReq⟩ := mem_registrations.mp member
  exact mem_registrations.mpr ⟨call,
    List.mem_filter.mpr ⟨inside, kept call sameID sameSeq sameReq⟩, sameID,
    sameSeq, sameReq⟩

theorem mem_delete (member : registration ∈ table.registrations)
    (other : registration.msgID ≠ msgID) :
    registration ∈ (table.delete msgID).registrations := by
  refine mem_filter member fun call sameID _ _ => ?_
  rw [sameID]
  exact bne_iff_ne.mpr other

theorem lookup_registration (member : registration ∈ table.registrations) :
    ∃ call, table.lookup registration.msgID = some call ∧
      call.seq = registration.seq ∧ call.req = registration.req := by
  obtain ⟨call, inside, sameID, sameSeq, sameReq⟩ := mem_registrations.mp member
  exact ⟨call.2, sameID ▸ lookup_of_mem inside, sameSeq, sameReq⟩

/-- A sweep keeps the calls whose contexts have not ended. -/
theorem mem_swept {ended : Nat → Bool}
    (member : registration ∈ table.registrations)
    (live : ended registration.req.ctx = false) :
    registration ∈ (table.swept ended).registrations := by
  unfold swept
  split
  · refine mem_filter member fun call _ _ sameReq => ?_
    rw [sameReq, live]
    rfl
  · exact member

/-- A registration keeps the live calls under other message IDs. -/
theorem mem_add {ended : Nat → Bool} {req : Request} {added : PendingCalls}
    (recorded : table.add ended msgID req = some added)
    (member : registration ∈ table.registrations)
    (live : ended registration.req.ctx = false)
    (other : registration.msgID ≠ msgID) :
    registration ∈ added.registrations := by
  unfold add at recorded
  split at recorded
  · cases recorded
  · rw [← Option.some.inj recorded]
    have kept := mem_delete (mem_swept member live) other
    simp only [registrations, put, List.map_append] at kept ⊢
    exact List.mem_append_left _ kept

/-- `take` removes only a non-streaming call under its message ID. -/
theorem mem_take (member : registration ∈ table.registrations)
    (stays : registration.msgID ≠ msgID ∨
      registration.req.streaming = true) :
    registration ∈ (table.take msgID).2.registrations := by
  unfold take
  cases found : table.lookup msgID with
  | none => exact member
  | some call =>
      dsimp only
      split
      · exact member
      · rename_i single
        refine mem_delete member fun same => ?_
        rcases stays with other | streams
        · exact other same
        · obtain ⟨registered, isFound, _, sameReq⟩ := lookup_registration member
          rw [same, found] at isFound
          rw [Option.some.inj isFound, sameReq] at single
          exact single streams

/-- A callback removes only the registration that its watch was armed for. -/
theorem mem_expire {watch : Watch} (member : registration ∈ table.registrations)
    (other : registration.msgID = watch.msgID →
      registration.seq ≠ watch.seq) :
    registration ∈ (table.expire watch).2.registrations := by
  unfold expire
  cases found : table.lookup watch.msgID with
  | none => exact member
  | some call =>
      dsimp only
      split
      · rename_i equal
        refine mem_delete member fun same => ?_
        obtain ⟨registered, isFound, sameSeq, _⟩ := lookup_registration member
        rw [same, found] at isFound
        rw [Option.some.inj isFound, sameSeq] at equal
        exact other same equal
      · exact member

@[simp] theorem registrations_watchExpiry (table : PendingCalls) :
    table.watchExpiry.registrations = table.registrations := by
  unfold watchExpiry registrations
  split
  · rfl
  · simp [Function.comp_def]

/-! ## The size of the table -/

theorem length_put (table : PendingCalls) (msgID : UInt64) (req : Request)
    (watched : Bool) :
    (table.put msgID req watched).len ≤ table.len + 1 := by
  have fewer : (table.delete msgID).calls.length ≤ table.calls.length :=
    List.length_filter_le _ _
  simp only [len, put, List.length_append, List.length_singleton]
  omega

/-- The table after a registration is as large as the next sweep allows. -/
theorem len_add {ended : Nat → Bool} {req : Request} {added : PendingCalls}
    (recorded : table.add ended msgID req = some added) :
    added.len ≤ max minSweepSize (table.swept ended).sweepAt := by
  unfold add at recorded
  split at recorded
  · cases recorded
  · rw [← Option.some.inj recorded]
    have longer := length_put (table.swept ended) msgID req
      (table.swept ended).watching
    have positive : minSweepSize = 64 := rfl
    have room : (table.swept ended).len + 1 ≤
        max minSweepSize (table.swept ended).sweepAt := by
      unfold swept
      split
      · simp only [sweepLocked, len]
        omega
      · rename_i small
        simp only [sweepDue, decide_eq_true_eq] at small
        simp only [len]
        omega
    omega

theorem sweepAt_add {ended : Nat → Bool} {req : Request} {added : PendingCalls}
    (recorded : table.add ended msgID req = some added) :
    added.sweepAt = (table.swept ended).sweepAt := by
  unfold add at recorded
  split at recorded
  · cases recorded
  · rw [← Option.some.inj recorded]
    rfl

@[simp] theorem closed_swept (table : PendingCalls) (ended : Nat → Bool) :
    (table.swept ended).closed = table.closed := by
  unfold swept
  split <;> rfl

@[simp] theorem closed_take (table : PendingCalls) (msgID : UInt64) :
    (table.take msgID).2.closed = table.closed := by
  unfold take
  split
  · rfl
  · dsimp only
    split <;> rfl

@[simp] theorem closed_expire (table : PendingCalls) (watch : Watch) :
    (table.expire watch).2.closed = table.closed := by
  unfold expire
  split
  · rfl
  · split <;> rfl

theorem sweepAt_take (table : PendingCalls) (msgID : UInt64) :
    (table.take msgID).2.sweepAt = table.sweepAt := by
  unfold take
  split
  · rfl
  · dsimp only
    split <;> rfl

theorem sweepAt_expire (table : PendingCalls) (watch : Watch) :
    (table.expire watch).2.sweepAt = table.sweepAt := by
  unfold expire
  split
  · rfl
  · split <;> rfl

theorem isOpen_add {ended : Nat → Bool} {req : Request} {added : PendingCalls}
    (recorded : table.add ended msgID req = some added) :
    added.closed = false := by
  unfold add at recorded
  split at recorded
  · cases recorded
  · rename_i isOpen
    rw [← Option.some.inj recorded]
    exact (closed_swept table ended).trans (Bool.not_eq_true _ ▸ isOpen)

/-! ## What the table holds afterwards -/

/-- A registration in a table that keeps some calls was there before. -/
theorem mem_of_subset {after : PendingCalls}
    (kept : ∀ call ∈ after.calls, call ∈ table.calls)
    (member : registration ∈ after.registrations) :
    registration ∈ table.registrations := by
  obtain ⟨call, inside, same⟩ := mem_registrations.mp member
  exact mem_registrations.mpr ⟨call, kept call inside, same⟩

/-- A registration after `add` is the new one or was there before. -/
theorem registration_of_add {ended : Nat → Bool} {req : Request}
    {added : PendingCalls}
    (recorded : table.add ended msgID req = some added)
    (member : registration ∈ added.registrations) :
    registration ∈ table.registrations ∨
      registration = ⟨msgID, added.seq, req⟩ := by
  obtain ⟨call, inside, sameID, sameSeq, sameReq⟩ := mem_registrations.mp member
  rcases mem_of_mem_add recorded inside with old | ⟨newID, newReq, newSeq⟩
  · exact .inl (mem_registrations.mpr ⟨call, old, sameID, sameSeq, sameReq⟩)
  · obtain ⟨id, seq, request⟩ := registration
    rw [Registration.mk.injEq, seq_add recorded]
    exact .inr ⟨sameID.symm.trans newID, sameSeq.symm.trans newSeq,
      sameReq.symm.trans newReq⟩

theorem seq_le (member : registration ∈ table.registrations) :
    registration.seq ≤ table.seq := by
  obtain ⟨call, inside, _, sameSeq, _⟩ := mem_registrations.mp member
  rw [← sameSeq]
  exact table.numbered call inside

/-- A number belongs to one registration. -/
theorem registration_unique {other : Registration}
    (member : registration ∈ table.registrations)
    (otherMember : other ∈ table.registrations)
    (same : registration.seq = other.seq) : registration = other := by
  obtain ⟨call, inside, rfl⟩ := List.mem_map.mp member
  obtain ⟨otherCall, otherInside, rfl⟩ := List.mem_map.mp otherMember
  rw [List.inj_on_of_nodup_map table.apart inside otherInside same]

/-- The number of a registration that was made is not used for another. -/
def Known (table : PendingCalls) (made : Registration) : Prop :=
  made.seq ≤ table.seq ∧
    ∀ registration ∈ table.registrations,
      registration.seq = made.seq → registration = made

theorem known_of_mem (member : registration ∈ table.registrations) :
    table.Known registration :=
  ⟨seq_le member, fun _ otherMember => registration_unique otherMember member⟩

/-- A table that loses registrations knows the numbers that it knew. -/
theorem Known.subset {made : Registration} {after : PendingCalls}
    (known : table.Known made) (sameSeq : after.seq = table.seq)
    (kept : ∀ registration ∈ after.registrations,
      registration ∈ table.registrations) : after.Known made := by
  refine ⟨sameSeq ▸ known.1, ?_⟩
  intro registration member
  exact known.2 registration (kept registration member)

/-- A new registration has a number of its own. -/
theorem Known.add {made : Registration} {ended : Nat → Bool} {req : Request}
    {added : PendingCalls} (known : table.Known made)
    (recorded : table.add ended msgID req = some added) : added.Known made := by
  have next := seq_add recorded
  refine ⟨by have := known.1; omega, ?_⟩
  intro registration member same
  rcases registration_of_add recorded member with old | rfl
  · exact known.2 registration old same
  · have bound := known.1
    simp only at same
    omega

/-- The registration that `add` makes. -/
theorem registration_add {ended : Nat → Bool} {req : Request}
    {added : PendingCalls}
    (recorded : table.add ended msgID req = some added) :
    ⟨msgID, added.seq, req⟩ ∈ added.registrations := by
  unfold PendingCalls.add at recorded
  split at recorded
  · cases recorded
  · rw [← Option.some.inj recorded]
    simp [registrations, put]

end PendingCalls

/-! ## Runs -/

/-- What holds in every state of a run. -/
structure TableRun.Sound (run : TableRun) : Prop where
  /-- A watch is armed for one registration. -/
  known : ∀ made ∈ run.armed, run.table.Known made
  /-- The next sweep runs at twice the size that the last one left. -/
  sweepAt : run.table.sweepAt = 2 * run.kept
  /-- A drained table is empty. -/
  closed : run.table.closed = true → run.table.calls = []

namespace TableRun

open PendingCalls

variable {run next : TableRun} {event : TableEvent}

theorem sweepAt_added {msgID : UInt64} {req : Request} {table : PendingCalls}
    (sweepAt : run.table.sweepAt = 2 * run.kept) :
    (run.table.swept run.ended).sweepAt =
      2 * (run.added msgID req table).kept := by
  simp only [TableRun.added, swept]
  split
  · rfl
  · exact sweepAt

theorem Sound.added {msgID : UInt64} {req : Request} {table : PendingCalls}
    (sound : run.Sound)
    (recorded : run.table.add run.ended msgID req = some table) :
    (run.added msgID req table).Sound := by
  refine ⟨?_, ?_, ?_⟩
  · intro made member
    rcases List.mem_append.mp member with old | new
    · exact (sound.known made old).add recorded
    · split at new
      · rw [List.mem_singleton.mp new]
        exact known_of_mem (registration_add recorded)
      · cases new
  · exact (sweepAt_add recorded).trans (sweepAt_added sound.sweepAt)
  · intro isClosed
    cases isClosed.symm.trans (isOpen_add recorded)

/-- Removing registrations keeps a run sound. -/
theorem Sound.removed {table : PendingCalls} (sound : run.Sound)
    (seq : table.seq = run.table.seq)
    (sweepAt : table.sweepAt = run.table.sweepAt)
    (closed : table.closed = run.table.closed)
    (kept : ∀ call ∈ table.calls, call ∈ run.table.calls) :
    ({ run with table := table } : TableRun).Sound := by
  refine ⟨?_, sweepAt.trans sound.sweepAt, ?_⟩
  · intro made member
    exact (sound.known made member).subset seq
      fun registration => mem_of_subset kept
  · intro isClosed
    rw [List.eq_nil_iff_forall_not_mem]
    intro call member
    have inside := kept call member
    rw [sound.closed (closed ▸ isClosed)] at inside
    cases inside

theorem Sound.take (sound : run.Sound) (msgID : UInt64) :
    ({ run with table := (run.table.take msgID).2 } : TableRun).Sound :=
  sound.removed (seq_take rfl) (sweepAt_take _ _) (closed_take _ _)
    fun _ => mem_of_mem_take rfl

theorem Sound.expire (sound : run.Sound) (watch : Watch) :
    ({ run with table := (run.table.expire watch).2 } : TableRun).Sound :=
  sound.removed (seq_expire rfl) (sweepAt_expire _ _) (closed_expire _ _)
    fun _ => mem_of_mem_expire rfl

theorem Sound.drain (sound : run.Sound) :
    ({ run with table := run.table.drain } : TableRun).Sound := by
  refine ⟨?_, sound.sweepAt, fun _ => rfl⟩
  intro made member
  exact (sound.known made member).subset rfl fun _ none => by cases none

theorem Sound.watchExpiry (sound : run.Sound) :
    ({ run with
        table := run.table.watchExpiry
        armed := run.armed ++
          if run.table.watching then [] else run.table.registrations } :
      TableRun).Sound := by
  have same : ∀ made, run.table.Known made → run.table.watchExpiry.Known made := by
    intro made known
    refine known.subset (seq_watchExpiry _) ?_
    intro registration member
    rwa [registrations_watchExpiry] at member
  refine ⟨?_, ?_, ?_⟩
  · intro made member
    rcases List.mem_append.mp member with old | new
    · exact same made (sound.known made old)
    · split at new
      · cases new
      · exact same made (known_of_mem new)
  · refine Eq.trans ?_ sound.sweepAt
    unfold PendingCalls.watchExpiry
    split <;> rfl
  · intro isClosed
    have none := sound.closed ((closed_watchExpiry _).symm.trans isClosed)
    unfold PendingCalls.watchExpiry
    split
    · exact none
    · simp [none]

/-- An event keeps a run sound. -/
theorem Sound.step (sound : run.Sound) (stepped : run.step event = some next) :
    next.Sound := by
  cases event with
  | add msgID req =>
      cases recorded : run.table.add run.ended msgID req with
      | none =>
          simp only [TableRun.step, recorded] at stepped
          exact Option.some.inj stepped ▸ sound
      | some table =>
          simp only [TableRun.step, recorded] at stepped
          exact Option.some.inj stepped ▸ sound.added recorded
  | take msgID => exact Option.some.inj stepped ▸ sound.take msgID
  | drain => exact Option.some.inj stepped ▸ sound.drain
  | watchExpiry => exact Option.some.inj stepped ▸ sound.watchExpiry
  | endContext ctx =>
      exact Option.some.inj stepped ▸ ⟨sound.known, sound.sweepAt, sound.closed⟩
  | callback index =>
      simp only [TableRun.step] at stepped
      split at stepped
      · cases stepped
      · split at stepped
        · exact Option.some.inj stepped ▸ sound.expire _
        · cases stepped

theorem Sound.after {events : List TableEvent} (sound : run.Sound)
    (reached : run.after events = some next) : next.Sound := by
  induction events generalizing run with
  | nil => exact Option.some.inj reached ▸ sound
  | cons event events inductionHypothesis =>
      obtain ⟨middle, stepped, rest⟩ := Option.bind_eq_some_iff.mp reached
      exact inductionHypothesis (sound.step stepped) rest

theorem sound_new : ({} : TableRun).Sound :=
  ⟨List.forall_mem_nil _, rfl, fun _ => rfl⟩

/-! ## Fewer than 2^64 registrations -/

/-- The counter goes up by one at an `add`, and at nothing else. -/
theorem seq_step (stepped : run.step event = some next) :
    next.table.seq ≤ run.table.seq + event.isAdd.toNat := by
  cases event with
  | add msgID req =>
      cases recorded : run.table.add run.ended msgID req with
      | none =>
          simp only [step, recorded] at stepped
          exact Option.some.inj stepped ▸ Nat.le_succ _
      | some table =>
          simp only [step, recorded] at stepped
          exact Option.some.inj stepped ▸ Nat.le_of_eq (seq_add recorded)
  | take msgID => exact Option.some.inj stepped ▸ Nat.le_of_eq (seq_take rfl)
  | drain => exact Option.some.inj stepped ▸ Nat.le_refl _
  | watchExpiry =>
      exact Option.some.inj stepped ▸ Nat.le_of_eq (seq_watchExpiry _)
  | endContext ctx => exact Option.some.inj stepped ▸ Nat.le_refl _
  | callback index =>
      simp only [step] at stepped
      split at stepped
      · cases stepped
      · split at stepped
        · exact Option.some.inj stepped ▸ Nat.le_of_eq (seq_expire rfl)
        · cases stepped

theorem stepWord_eq (sound : run.Sound) (few : run.table.seq < 2 ^ 64) :
    run.stepWord event = run.step event := by
  cases event with
  | callback index =>
      cases armed : run.armed[index]? with
      | none => simp only [stepWord, step, armed]
      | some made =>
          have bound : made.watch.seq ≤ run.table.seq :=
            (sound.known made (List.mem_of_getElem? armed)).1
          have same : run.table.expireWord made.watch =
              run.table.expire made.watch := by
            unfold PendingCalls.expireWord PendingCalls.expire
            cases found : run.table.lookup made.watch.msgID with
            | none => rfl
            | some call =>
                have number := run.table.numbered _ (mem_of_lookup found)
                refine if_congr ⟨fun equal => ?_, congrArg UInt64.ofNat⟩ rfl rfl
                have numbers := congrArg UInt64.toNat equal
                rwa [UInt64.toNat_ofNat_of_lt' (Nat.lt_of_le_of_lt number few),
                  UInt64.toNat_ofNat_of_lt' (Nat.lt_of_le_of_lt bound few)] at numbers
          simp only [stepWord, step, armed, same]
  | _ => rfl

/-- The table of the source goes through the same states in a run that makes fewer
than 2^64 registrations. -/
theorem afterWord_eq {events : List TableEvent} (sound : run.Sound)
    (few : run.table.seq + events.countP TableEvent.isAdd < 2 ^ 64) :
    run.afterWord events = run.after events := by
  induction events generalizing run with
  | nil => rfl
  | cons event events inductionHypothesis =>
      rw [List.countP_cons] at few
      rw [afterWord, after, stepWord_eq sound (by omega)]
      cases stepped : run.step event with
      | none => rfl
      | some next =>
          have grows := seq_step stepped
          refine inductionHypothesis (sound.step stepped) ?_
          cases adds : event.isAdd <;>
            simp only [adds, Bool.toNat_true, Bool.toNat_false, if_true,
              Bool.false_eq_true, if_false] at grows few <;> omega

/-! ## Closed tables -/

theorem closed_step (isClosed : run.table.closed = true)
    (stepped : run.step event = some next) : next.table.closed = true := by
  cases event with
  | add msgID req =>
      simp only [step, PendingCalls.add, isClosed, if_true] at stepped
      exact Option.some.inj stepped ▸ isClosed
  | take msgID =>
      rw [← Option.some.inj stepped]
      exact (closed_take _ _).trans isClosed
  | drain => exact Option.some.inj stepped ▸ rfl
  | watchExpiry =>
      rw [← Option.some.inj stepped]
      exact (closed_watchExpiry _).trans isClosed
  | endContext ctx => exact Option.some.inj stepped ▸ isClosed
  | callback index =>
      simp only [step] at stepped
      split at stepped
      · cases stepped
      · split at stepped
        · rw [← Option.some.inj stepped]
          exact (closed_expire _ _).trans isClosed
        · cases stepped

/-- A drained table stays drained. -/
theorem closed_after {events : List TableEvent}
    (drained : run.table.closed = true ∨ .drain ∈ events)
    (reached : run.after events = some next) : next.table.closed = true := by
  induction events generalizing run with
  | nil =>
      rcases drained with isClosed | none
      · exact Option.some.inj reached ▸ isClosed
      · cases none
  | cons event events inductionHypothesis =>
      obtain ⟨middle, stepped, rest⟩ := Option.bind_eq_some_iff.mp reached
      refine inductionHypothesis ?_ rest
      rcases drained with isClosed | member
      · exact .inl (closed_step isClosed stepped)
      · rcases List.mem_cons.mp member with rfl | later
        · exact .inl (Option.some.inj stepped ▸ rfl)
        · exact .inr later

/-! ## What an event removes -/

/-- A callback removes the registration that its watch was armed for. -/
theorem callback_removes {index : Nat} {registration : Registration}
    (sound : run.Sound) (stepped : run.step (.callback index) = some next)
    (member : registration ∈ run.table.registrations)
    (gone : registration ∉ next.table.registrations) :
    run.armed[index]? = some registration ∧
      run.ended registration.req.ctx = true := by
  simp only [step] at stepped
  split at stepped
  · cases stepped
  · rename_i made armed
    split at stepped
    · rename_i expired
      rw [← Option.some.inj stepped] at gone
      have same : registration = made := by
        refine (sound.known made (List.mem_of_getElem? armed)).2 _ member ?_
        by_contra different
        exact gone (mem_expire member fun _ => different)
      rw [same]
      exact ⟨armed, expired⟩
    · cases stepped

/-- A call whose context has not ended stays in the table except for three
events. -/
theorem live_removed {registration : Registration}
    (sound : run.Sound) (stepped : run.step event = some next)
    (member : registration ∈ run.table.registrations)
    (live : run.ended registration.req.ctx = false)
    (gone : registration ∉ next.table.registrations) :
    (event = .take registration.msgID ∧ registration.req.streaming = false) ∨
      event = .drain ∨ ∃ req, event = .add registration.msgID req := by
  cases event with
  | add msgID req =>
      cases recorded : run.table.add run.ended msgID req with
      | none =>
          simp only [step, recorded] at stepped
          exact absurd (Option.some.inj stepped ▸ member) gone
      | some table =>
          simp only [step, recorded] at stepped
          rw [← Option.some.inj stepped] at gone
          by_cases same : registration.msgID = msgID
          · exact .inr (.inr ⟨req, same ▸ rfl⟩)
          · exact absurd (mem_add recorded member live same) gone
  | take msgID =>
      rw [← Option.some.inj stepped] at gone
      have taken : ¬(registration.msgID ≠ msgID ∨
          registration.req.streaming = true) :=
        fun stays => gone (mem_take member stays)
      rw [not_or, Bool.not_eq_true, not_not] at taken
      exact .inl ⟨taken.1 ▸ rfl, taken.2⟩
  | drain => exact .inr (.inl rfl)
  | watchExpiry =>
      rw [← Option.some.inj stepped] at gone
      exact absurd (registrations_watchExpiry run.table ▸ member) gone
  | endContext ctx => exact absurd (Option.some.inj stepped ▸ member) gone
  | callback index =>
      have ended := (callback_removes sound stepped member gone).2
      cases live.symm.trans ended

/-- The size of the table after an `add`, accepted or not. -/
theorem len_step_add {msgID : UInt64} {req : Request} (sound : run.Sound)
    (stepped : run.step (.add msgID req) = some next) :
    next.table.len ≤ max 64 (2 * next.kept) := by
  cases recorded : run.table.add run.ended msgID req with
  | none =>
      have isClosed : run.table.closed = true := by
        simpa [PendingCalls.add] using recorded
      simp only [step, recorded] at stepped
      rw [← Option.some.inj stepped, len, sound.closed isClosed]
      exact Nat.zero_le _
  | some table =>
      simp only [step, recorded] at stepped
      have size := len_add recorded
      rw [sweepAt_added sound.sweepAt] at size
      rw [← Option.some.inj stepped]
      exact size

end TableRun

/-- In every run of a table a live call leaves it only through `take`, `drain`
or a registration under its message ID; a callback removes only the
registration that it was armed for; `add` keeps the table within twice the
calls that the last sweep kept; and a drained table stays empty.  With the counter
of the source the run is the same, if it has fewer than 2^64 registrations. -/
theorem live_calls_kept {events : List TableEvent} {run : TableRun}
    (reached : ({} : TableRun).after events = some run) :
    (∀ event next registration, run.step event = some next →
      registration ∈ run.table.registrations →
      run.ended registration.req.ctx = false →
      registration ∉ next.table.registrations →
        (event = .take registration.msgID ∧
          registration.req.streaming = false) ∨
        event = .drain ∨ ∃ req, event = .add registration.msgID req) ∧
    (∀ index next registration, run.step (.callback index) = some next →
      registration ∈ run.table.registrations →
      registration ∉ next.table.registrations →
        run.armed[index]? = some registration) ∧
    (∀ msgID req next, run.step (.add msgID req) = some next →
      next.table.len ≤ max 64 (2 * next.kept)) ∧
    (.drain ∈ events → run.table.calls = [] ∧
      ∀ msgID req, run.table.add run.ended msgID req = none) ∧
    (events.countP TableEvent.isAdd < 2 ^ 64 →
      ({} : TableRun).afterWord events = some run) := by
  have sound := TableRun.sound_new.after reached
  refine ⟨?_, ?_, ?_, ?_, ?_⟩
  · intro event next registration stepped member live gone
    exact TableRun.live_removed sound stepped member live gone
  · intro index next registration stepped member gone
    exact (TableRun.callback_removes sound stepped member gone).1
  · intro msgID req next stepped
    exact TableRun.len_step_add sound stepped
  · intro drained
    have isClosed := TableRun.closed_after (.inr drained) reached
    refine ⟨sound.closed isClosed, ?_⟩
    intro msgID req
    simp [PendingCalls.add, isClosed]
  · intro few
    have start : ({} : TableRun).table.seq = 0 := rfl
    rw [TableRun.afterWord_eq TableRun.sound_new (by omega), reached]

/-- A watched call expires after its message ID was registered again. -/
def staleCallback : List TableEvent :=
  [.watchExpiry,
    .add 7 { uid := 0, ctx := 1, msg := {} },
    .add 7 { uid := 1, ctx := 2, msg := {}, streaming := true },
    .endContext 1,
    .callback 0]

theorem staleCallback_run :
    (({} : TableRun).after staleCallback).isSome = true := by
  decide +kernel

/-- The second call of the message ID stays, and leaves with `drain`. -/
theorem live_calls_kept_stale :
    (∃ run, ({} : TableRun).afterWord staleCallback = some run ∧
      run.table.registrations.map (·.req.uid) = [1] ∧
      run.armed.map (·.req.uid) = [0, 1] ∧
      ∀ event next registration, run.step event = some next →
        registration ∈ run.table.registrations →
        run.ended registration.req.ctx = false →
        registration ∉ next.table.registrations →
          (event = .take registration.msgID ∧
            registration.req.streaming = false) ∨
          event = .drain ∨ ∃ req, event = .add registration.msgID req) ∧
    ∃ run, ({} : TableRun).after (staleCallback ++ [.drain]) = some run ∧
      run.table.calls = [] := by
  have reached := (Option.some_get staleCallback_run).symm
  obtain ⟨live, _, _, _, word⟩ := live_calls_kept reached
  refine ⟨⟨_, word (by decide), by decide +kernel, by decide +kernel, live⟩, ?_⟩
  obtain ⟨run, drained⟩ := Option.isSome_iff_exists.mp (show
    (({} : TableRun).after (staleCallback ++ [.drain])).isSome = true by
      decide +kernel)
  exact ⟨run, drained, ((live_calls_kept drained).2.2.2.1 (by simp)).1⟩

end Stream
end Gorums
