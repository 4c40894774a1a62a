import Gorums.Stream.Message
import Mathlib.Data.List.Nodup
import Mathlib.Data.List.Perm.Basic

/-!
# The table of pending calls

The two-way calls sent on one stream that await responses.  The table maps
message IDs to calls.  Each operation of the source that holds the table's
mutex is one function here; what the source leaves to the iteration order of a
Go map is left to the caller.
-/

namespace Gorums
namespace Stream

/-- The table size at which `add` first removes expired calls. -/
def minSweepSize : Nat := 64

/-- A call in the table. -/
structure PendingCall where
  /-- The request that awaits responses. -/
  req : Request
  /-- Identifies the registration. -/
  seq : Nat
  /-- Whether an expiry watch is armed for the registration. -/
  watched : Bool := false

/-- The table of one stream. -/
structure PendingCalls where
  /-- The calls by message ID. -/
  calls : List (UInt64 × PendingCall) := []
  /-- No message ID occurs twice. -/
  distinct : (calls.map Prod.fst).Nodup := by exact List.nodup_nil
  /-- Whether the table is drained. -/
  closed : Bool := false
  /-- The number of registrations so far. -/
  seq : Nat := 0
  /-- Registrations are numbered in turn. -/
  numbered : ∀ call ∈ calls, call.2.seq ≤ seq := by
    exact List.forall_mem_nil _
  /-- No two calls are the same registration. -/
  apart : (calls.map fun call => call.2.seq).Nodup := by
    exact List.nodup_nil
  /-- The table size at which the next sweep runs. -/
  sweepAt : Nat := 0
  /-- Whether each call is removed as soon as its context ends. -/
  watching : Bool := false

namespace PendingCalls

/-- The table of a new session. -/
def empty : PendingCalls := {}

@[simp] theorem calls_empty : empty.calls = [] := rfl

/-- The requests in the table. -/
def reqs (table : PendingCalls) : List Request :=
  table.calls.map fun call => call.2.req

/-- The call registered under a message ID. -/
def lookup (table : PendingCalls) (msgID : UInt64) : Option PendingCall :=
  (table.calls.find? fun call => call.1 == msgID).map Prod.snd

/-- Keep only some of the calls. -/
def filter (table : PendingCalls) (keep : UInt64 × PendingCall → Bool) :
    PendingCalls :=
  { table with
    calls := table.calls.filter keep
    distinct := table.distinct.sublist (List.filter_sublist.map _)
    numbered := fun call member =>
      table.numbered call (List.mem_of_mem_filter member)
    apart := table.apart.sublist (List.filter_sublist.map _) }

/-- Remove the call registered under a message ID. -/
def delete (table : PendingCalls) (msgID : UInt64) : PendingCalls :=
  table.filter fun call => call.1 != msgID

/-- Register a request under a message ID in place of any other. -/
def put (table : PendingCalls) (msgID : UInt64) (req : Request)
    (watched : Bool) : PendingCalls :=
  { table with
    calls := (table.delete msgID).calls ++
      [(msgID, { req := req, seq := table.seq + 1, watched := watched })]
    seq := table.seq + 1
    distinct := by
      rw [List.map_append, List.nodup_append]
      refine ⟨(table.delete msgID).distinct, by simp, ?_⟩
      intro left leftMember right rightMember
      simp only [delete, filter, List.mem_map, List.mem_filter, bne_iff_ne,
        List.map_cons, List.map_nil, List.mem_singleton] at leftMember rightMember
      obtain ⟨entry, ⟨_, different⟩, equal⟩ := leftMember
      rw [← equal, rightMember]
      exact different
    numbered := by
      intro call member
      rcases List.mem_append.mp member with kept | new
      · exact Nat.le_succ_of_le ((table.delete msgID).numbered call kept)
      · cases List.mem_singleton.mp new
        exact Nat.le_refl _
    apart := by
      rw [List.map_append, List.nodup_append]
      refine ⟨(table.delete msgID).apart, by simp, ?_⟩
      intro left leftMember right rightMember equal
      obtain ⟨call, kept, rfl⟩ := List.mem_map.mp leftMember
      have below := (table.delete msgID).numbered call kept
      rw [List.map_singleton, List.mem_singleton] at rightMember
      rw [equal, rightMember] at below
      exact absurd below (Nat.not_succ_le_self _) }

/-- The requests registered under a message ID. -/
def registered (table : PendingCalls) (msgID : UInt64) : List Request :=
  (table.calls.filter fun call => call.1 == msgID).map fun call => call.2.req

section Sweep

variable (ended : Nat → Bool)

/-- Whether `add` removes the expired calls first. -/
def sweepDue (table : PendingCalls) : Bool :=
  decide (max table.sweepAt minSweepSize ≤ table.calls.length)

/-- Remove the calls whose context has ended and set the size at which the
next sweep runs. -/
def sweepLocked (table : PendingCalls) : PendingCalls :=
  let kept := table.filter fun call => !ended call.2.req.ctx
  { kept with sweepAt := 2 * kept.calls.length }

/-- The table in which `add` registers the call. -/
def swept (table : PendingCalls) : PendingCalls :=
  if table.sweepDue then table.sweepLocked ended else table

/-- The calls that `add` removes because their context has ended. -/
def expired (table : PendingCalls) : List Request :=
  if table.sweepDue then
    (table.calls.filter fun call => ended call.2.req.ctx).map
      fun call => call.2.req
  else []

/-- Record a request under a message ID; `none` once the table is drained. -/
def add (table : PendingCalls) (msgID : UInt64) (req : Request) :
    Option PendingCalls :=
  if table.closed then none
  else
    some ((table.swept ended).put msgID req (table.swept ended).watching)

end Sweep

/-- The request registered under a message ID, and the table that `take`
leaves: a non-streaming call is removed. -/
def take (table : PendingCalls) (msgID : UInt64) :
    Option Request × PendingCalls :=
  match table.lookup msgID with
  | none => (none, table)
  | some call =>
      (some call.req,
        if call.req.streaming then table else table.delete msgID)

/-- The table after `drain`, which returns its requests in any order. -/
def drain (table : PendingCalls) : PendingCalls :=
  { table with
    calls := []
    distinct := by simp
    closed := true
    numbered := by simp
    apart := by simp }

/-- The number of calls. -/
def len (table : PendingCalls) : Nat :=
  table.calls.length

/-- Watch the contexts of all calls, present or later added. -/
def watchExpiry (table : PendingCalls) : PendingCalls :=
  if table.watching then table
  else
    { table with
      watching := true
      calls := table.calls.map fun call =>
        (call.1, { call.2 with watched := true })
      distinct := by
        have mapped := table.distinct
        simpa [List.map_map, Function.comp_def] using mapped
      numbered := by
        intro call member
        obtain ⟨entry, inside, rfl⟩ := List.mem_map.mp member
        exact table.numbered entry inside
      apart := by
        have mapped := table.apart
        simpa [List.map_map, Function.comp_def] using mapped }

/-- An armed expiry watch: the message ID, the registration, its context. -/
structure Watch where
  /-- The message ID of the watched call. -/
  msgID : UInt64
  /-- The registration that the watch was armed for. -/
  seq : Nat
  /-- The context of the watched call. -/
  ctx : Nat

/-- The watches that `watchExpiry` arms. -/
def watches (table : PendingCalls) : List Watch :=
  if table.watching then []
  else table.calls.map fun call =>
    { msgID := call.1, seq := call.2.seq, ctx := call.2.req.ctx }

/-- The watch that `add` arms for a call. -/
def addWatch (table : PendingCalls) (ended : Nat → Bool)
    (msgID : UInt64) (req : Request) : List Watch :=
  if (table.swept ended).watching then
    [{ msgID := msgID, seq := (table.swept ended).seq + 1, ctx := req.ctx }]
  else []

/-- The callback of an expiry watch: it removes only the registration that the
watch was armed for. -/
def expire (table : PendingCalls) (watch : Watch) :
    Option Request × PendingCalls :=
  match table.lookup watch.msgID with
  | none => (none, table)
  | some call =>
      if call.seq = watch.seq then
        (some call.req, table.delete watch.msgID)
      else (none, table)

/-! ## What each operation does to the requests -/

@[simp] theorem reqs_drain (table : PendingCalls) :
    table.drain.reqs = [] := rfl

@[simp] theorem closed_drain (table : PendingCalls) :
    table.drain.closed = true := rfl

@[simp] theorem reqs_watchExpiry (table : PendingCalls) :
    table.watchExpiry.reqs = table.reqs := by
  unfold watchExpiry reqs
  split
  · rfl
  · simp [Function.comp_def]

@[simp] theorem closed_watchExpiry (table : PendingCalls) :
    table.watchExpiry.closed = table.closed := by
  unfold watchExpiry
  split <;> rfl

@[simp] theorem closed_delete (table : PendingCalls) (msgID : UInt64) :
    (table.delete msgID).closed = table.closed := rfl

theorem count_filter_add (table : PendingCalls)
    (keep : UInt64 × PendingCall → Bool) (request : Request) :
    (table.filter keep).reqs.count request +
        ((table.calls.filter fun call => !keep call).map
          fun call => call.2.req).count request =
      table.reqs.count request := by
  unfold reqs filter
  simp only
  induction table.calls with
  | nil => rfl
  | cons call calls inductionHypothesis =>
      cases kept : keep call <;>
        simp [kept, List.count_cons] <;> omega

theorem count_delete (table : PendingCalls)
    (msgID : UInt64) (request : Request) :
    (table.delete msgID).reqs.count request +
        (table.registered msgID).count request =
      table.reqs.count request := by
  rw [← table.count_filter_add (fun call => call.1 != msgID) request]
  simp only [delete, registered, bne, Bool.not_not]

theorem count_put (table : PendingCalls)
    (msgID : UInt64) (req : Request) (watched : Bool) (request : Request) :
    (table.put msgID req watched).reqs.count request +
        (table.registered msgID).count request =
      table.reqs.count request + [req].count request := by
  have deleted := table.count_delete msgID request
  have split : (table.put msgID req watched).reqs =
      (table.delete msgID).reqs ++ [req] := by
    simp [put, reqs]
  rw [split, List.count_append]
  omega

theorem count_swept (table : PendingCalls)
    (ended : Nat → Bool) (request : Request) :
    (table.swept ended).reqs.count request +
        (table.expired ended).count request =
      table.reqs.count request := by
  unfold swept expired
  split
  · have kept := table.count_filter_add
      (fun call => !ended call.2.req.ctx) request
    simpa [sweepLocked, reqs] using kept
  · simp

/-- A registration keeps every request of the table, except the expired ones
and those registered under the same message ID. -/
theorem count_add {table added : PendingCalls}
    {ended : Nat → Bool} {msgID : UInt64} {req : Request}
    (recorded : table.add ended msgID req = some added)
    (request : Request) :
    added.reqs.count request +
        ((table.swept ended).registered msgID).count request +
        (table.expired ended).count request =
      table.reqs.count request + [req].count request := by
  unfold add at recorded
  split at recorded
  · exact absurd recorded (by simp)
  · simp only [Option.some.injEq] at recorded
    have putCount := (table.swept ended).count_put msgID req
      (table.swept ended).watching request
    have sweptCount := table.count_swept ended request
    rw [← recorded]
    omega

/-- A message ID has at most one registration. -/
theorem registered_of_lookup {table : PendingCalls}
    {msgID : UInt64} {call : PendingCall}
    (found : table.lookup msgID = some call) :
    table.registered msgID = [call.req] := by
  have distinct := table.distinct
  simp only [lookup, registered] at found ⊢
  generalize table.calls = calls at found distinct ⊢
  induction calls with
  | nil => simp at found
  | cons head tail inductionHypothesis =>
      rw [List.map_cons, List.nodup_cons] at distinct
      by_cases same : head.1 = msgID
      · simp only [List.find?_cons, same, beq_self_eq_true, Option.map_some,
          Option.some.injEq] at found
        have none : tail.filter (fun call => call.1 == msgID) = [] := by
          rw [List.filter_eq_nil_iff]
          intro entry member equal
          apply distinct.1
          rw [same, ← beq_iff_eq.mp equal]
          exact List.mem_map_of_mem member
        simp [same, none, found]
      · simp only [List.find?_cons, beq_eq_false_iff_ne.mpr same] at found
        simpa [same] using inductionHypothesis found distinct.2

theorem count_delete_of_lookup {table : PendingCalls}
    {msgID : UInt64} {call : PendingCall}
    (found : table.lookup msgID = some call) (request : Request) :
    (table.delete msgID).reqs.count request + [call.req].count request =
      table.reqs.count request := by
  rw [← registered_of_lookup found]
  exact table.count_delete msgID request

/-- What `take` removes: a streaming call stays in the table. -/
def removed (req : Request) : List Request :=
  if req.streaming then [] else [req]

/-- A taken call leaves the table, unless it is a streaming call. -/
theorem count_take {table taken : PendingCalls}
    {msgID : UInt64} {found : Option Request}
    (took : table.take msgID = (found, taken)) (request : Request) :
    taken.reqs.count request + (found.toList.flatMap removed).count request =
      table.reqs.count request := by
  unfold take at took
  split at took
  · cases took
    simp
  · rename_i call lookedUp
    have deleted := count_delete_of_lookup lookedUp request
    cases took
    cases streaming : call.req.streaming <;> simp [removed, streaming, deleted]

/-- An expired registration leaves the table. -/
theorem count_expire {table expired : PendingCalls}
    {watch : Watch} {found : Option Request}
    (removal : table.expire watch = (found, expired)) (request : Request) :
    expired.reqs.count request + found.toList.count request =
      table.reqs.count request := by
  unfold expire at removal
  split at removal
  · cases removal
    simp
  · rename_i call lookedUp
    have deleted := count_delete_of_lookup lookedUp request
    split at removal
    · cases removal
      simpa using deleted
    · cases removal
      simp

/-- The looked-up request stands in the table. -/
theorem mem_reqs_of_lookup {table : PendingCalls}
    {msgID : UInt64} {call : PendingCall}
    (found : table.lookup msgID = some call) :
    call.req ∈ table.reqs := by
  obtain ⟨entry, inside, equal⟩ := Option.map_eq_some_iff.mp found
  rw [← equal]
  exact List.mem_map_of_mem (List.mem_of_find?_eq_some inside)

theorem mem_reqs_of_take {table taken : PendingCalls} {msgID : UInt64}
    {req : Request} (took : table.take msgID = (some req, taken)) :
    req ∈ table.reqs := by
  unfold take at took
  split at took
  · cases took
  · cases took
    exact mem_reqs_of_lookup ‹_›

/-! ## Registrations -/

theorem mem_of_lookup {table : PendingCalls} {msgID : UInt64}
    {call : PendingCall} (found : table.lookup msgID = some call) :
    (msgID, call) ∈ table.calls := by
  obtain ⟨entry, inside, rfl⟩ := Option.map_eq_some_iff.mp found
  have key := List.find?_some inside
  simp only [beq_iff_eq] at key
  rw [← key]
  exact List.mem_of_find?_eq_some inside

/-- A registered call is found under its message ID. -/
theorem lookup_of_mem {table : PendingCalls} {call : UInt64 × PendingCall}
    (member : call ∈ table.calls) : table.lookup call.1 = some call.2 := by
  cases found : table.lookup call.1 with
  | none =>
      have absent := List.find?_eq_none.mp (Option.map_eq_none_iff.mp found)
      exact absurd (beq_self_eq_true call.1) (absent call member)
  | some other =>
      have inside := mem_of_lookup found
      have same : (call.1, other) = call :=
        List.inj_on_of_nodup_map table.distinct inside member rfl
      rw [← same]

theorem mem_of_mem_delete {table : PendingCalls} {msgID : UInt64}
    {call : UInt64 × PendingCall} (member : call ∈ (table.delete msgID).calls) :
    call ∈ table.calls :=
  List.mem_of_mem_filter member

theorem mem_of_mem_take {table taken : PendingCalls} {msgID : UInt64}
    {found : Option Request} (took : table.take msgID = (found, taken))
    {call : UInt64 × PendingCall} (member : call ∈ taken.calls) :
    call ∈ table.calls := by
  unfold take at took
  split at took
  · cases took
    exact member
  · cases took
    split at member
    · exact member
    · exact mem_of_mem_delete member

theorem mem_of_mem_expire {table expired : PendingCalls} {watch : Watch}
    {found : Option Request} (removal : table.expire watch = (found, expired))
    {call : UInt64 × PendingCall} (member : call ∈ expired.calls) :
    call ∈ table.calls := by
  unfold expire at removal
  split at removal
  · cases removal
    exact member
  · split at removal
    · cases removal
      exact mem_of_mem_delete member
    · cases removal
      exact member

theorem mem_of_mem_swept {table : PendingCalls} {ended : Nat → Bool}
    {call : UInt64 × PendingCall} (member : call ∈ (table.swept ended).calls) :
    call ∈ table.calls := by
  unfold swept at member
  split at member
  · exact List.mem_of_mem_filter member
  · exact member

@[simp] theorem seq_swept (table : PendingCalls) (ended : Nat → Bool) :
    (table.swept ended).seq = table.seq := by
  unfold swept
  split <;> rfl

/-- A table has the call that was added to it. -/
theorem calls_add_ne_nil {ended : Nat → Bool} {table pending : PendingCalls}
    {msgID : UInt64} {req : Request}
    (added : table.add ended msgID req = some pending) :
    pending.calls ≠ [] := by
  unfold add at added
  split at added
  · cases added
  · rw [← Option.some.inj added]
    simp [put]

/-- A call in the table after a registration is the registered one or was
there before. -/
theorem mem_of_mem_add {table added : PendingCalls} {ended : Nat → Bool}
    {msgID : UInt64} {req : Request}
    (recorded : table.add ended msgID req = some added)
    {call : UInt64 × PendingCall} (member : call ∈ added.calls) :
    call ∈ table.calls ∨
      call.1 = msgID ∧ call.2.req = req ∧ call.2.seq = table.seq + 1 := by
  unfold add at recorded
  split at recorded
  · cases recorded
  · cases recorded
    rcases List.mem_append.mp member with kept | new
    · exact .inl (mem_of_mem_swept (mem_of_mem_delete kept))
    · rw [List.mem_singleton.mp new]
      exact .inr ⟨rfl, rfl, by simp⟩

theorem seq_take {table taken : PendingCalls} {msgID : UInt64}
    {found : Option Request} (took : table.take msgID = (found, taken)) :
    taken.seq = table.seq := by
  unfold take at took
  split at took
  · cases took
    rfl
  · cases took
    split <;> rfl

theorem seq_expire {table expired : PendingCalls} {watch : Watch}
    {found : Option Request} (removal : table.expire watch = (found, expired)) :
    expired.seq = table.seq := by
  unfold expire at removal
  split at removal
  · cases removal
    rfl
  · split at removal <;> cases removal <;> rfl

theorem seq_watchExpiry (table : PendingCalls) :
    table.watchExpiry.seq = table.seq := by
  unfold watchExpiry
  split <;> rfl

theorem seq_add {table added : PendingCalls} {ended : Nat → Bool}
    {msgID : UInt64} {req : Request}
    (recorded : table.add ended msgID req = some added) :
    added.seq = table.seq + 1 := by
  unfold add at recorded
  split at recorded
  · cases recorded
  · cases recorded
    simp [put]

/-- An expired call is the registration that the watch was armed for. -/
theorem mem_of_expire {table expired : PendingCalls} {watch : Watch}
    {req : Request} (removal : table.expire watch = (some req, expired)) :
    ∃ call ∈ table.calls, call.2.seq = watch.seq ∧ call.2.req = req := by
  unfold expire at removal
  split at removal
  · cases removal
  · rename_i call found
    split at removal
    · cases removal
      exact ⟨_, mem_of_lookup found, ‹_›, rfl⟩
    · cases removal

/-- The calls that a sweep removes have ended contexts. -/
theorem ended_of_mem_expired {table : PendingCalls} {ended : Nat → Bool}
    {req : Request} (member : req ∈ table.expired ended) :
    ended req.ctx = true := by
  unfold expired at member
  split at member
  · obtain ⟨call, inside, rfl⟩ := List.mem_map.mp member
    exact (List.mem_filter.mp inside).2
  · cases member

theorem mem_reqs_of_mem_expired {table : PendingCalls} {ended : Nat → Bool}
    {req : Request} (member : req ∈ table.expired ended) : req ∈ table.reqs := by
  unfold expired at member
  split at member
  · obtain ⟨call, inside, rfl⟩ := List.mem_map.mp member
    exact List.mem_map_of_mem (List.mem_of_mem_filter inside)
  · cases member

theorem mem_of_mem_registered {table : PendingCalls} {msgID : UInt64}
    {req : Request} (member : req ∈ table.registered msgID) :
    ∃ call ∈ table.calls, call.1 = msgID ∧ call.2.req = req := by
  obtain ⟨call, inside, rfl⟩ := List.mem_map.mp member
  obtain ⟨there, key⟩ := List.mem_filter.mp inside
  exact ⟨call, there, beq_iff_eq.mp key, rfl⟩

/-- A watch knows the context of the registration that it was armed for. -/
def Armed (table : PendingCalls) (watch : Watch) : Prop :=
  watch.seq ≤ table.seq ∧
    ∀ call ∈ table.calls, call.2.seq = watch.seq → call.2.req.ctx = watch.ctx

theorem armed_watches {table : PendingCalls} {watch : Watch}
    (member : watch ∈ table.watches) : table.watchExpiry.Armed watch := by
  unfold watches at member
  split at member
  · cases member
  · rename_i unwatched
    obtain ⟨armed, inside, rfl⟩ := List.mem_map.mp member
    refine ⟨?_, fun call member same => ?_⟩
    · rw [seq_watchExpiry]
      exact table.numbered armed inside
    · simp only [watchExpiry, unwatched, Bool.false_eq_true, if_false,
        List.mem_map] at member
      obtain ⟨old, there, rfl⟩ := member
      rw [List.inj_on_of_nodup_map table.apart there inside same]

theorem armed_addWatch {table added : PendingCalls} {ended : Nat → Bool}
    {msgID : UInt64} {req : Request} {watch : Watch}
    (recorded : table.add ended msgID req = some added)
    (member : watch ∈ table.addWatch ended msgID req) : added.Armed watch := by
  unfold addWatch at member
  split at member
  · rw [List.mem_singleton.mp member]
    refine ⟨by simp [seq_add recorded], fun call inside same => ?_⟩
    rcases mem_of_mem_add recorded inside with old | ⟨_, equal, _⟩
    · have below := table.numbered call old
      simp only [seq_swept] at same
      omega
    · rw [equal]
  · cases member

end PendingCalls

end Stream
end Gorums
