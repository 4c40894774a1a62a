import Gorums.Quorum.Threshold
import Mathlib.Data.Int.ConditionallyCompleteOrder
import Mathlib.Data.List.MinMax
import Mathlib.Order.ConditionallyCompleteLattice.Basic

/-!
# The storage example

A server keeps the newest value of every key, by the time at which the client
wrote it.  A client writes to all servers, and learns whether a majority of them
has taken its value; it reads from all servers, and takes the newest value.
-/

namespace Gorums
namespace Storage

open Gorums.Stream
open Gorums.Quorum

/-! ## Servers -/

/-- A value and the time at which it was written, in nanoseconds since the Unix
epoch. -/
structure State where
  /-- The value. -/
  value : String
  /-- The time. -/
  time : Int
  deriving DecidableEq

/-- The functions of the timestamp package of protobuf that the example calls. -/
structure TimestampPackage (Timestamp : Type) where
  /-- `timestamppb.New`. -/
  new : Int → Timestamp
  /-- `Timestamp.AsTime`, also of a nil timestamp. -/
  asTime : Option Timestamp → Int

/-- What is assumed of the package. -/
structure TimestampPackage.Lawful {Timestamp : Type}
    (package : TimestampPackage Timestamp) : Prop where
  /-- A nil timestamp is the Unix epoch. -/
  absent : package.asTime none = 0
  /-- A timestamp is read as the time from which it was made. -/
  asTime_new : ∀ time, package.asTime (some (package.new time)) = time

/-- The request of a write. -/
structure WriteRequest (Timestamp : Type) where
  /-- The key. -/
  key : String
  /-- The value. -/
  value : String
  /-- The time, or `none` for a nil timestamp. -/
  time : Option Timestamp
  deriving DecidableEq

/-- The reply to a write. -/
structure WriteResponse where
  /-- Whether the value is new. -/
  new : Bool
  deriving DecidableEq

/-- The reply to a read. -/
structure ReadResponse (Timestamp : Type) where
  /-- Whether the key has a value. -/
  found : Bool
  /-- The value. -/
  value : String := ""
  /-- The time of the value, or `none` for a nil timestamp. -/
  time : Option Timestamp := none
  deriving DecidableEq

/-- The values of a server. -/
abbrev Values := String → Option State

section Server

variable {Timestamp : Type} (package : TimestampPackage Timestamp)

/-- What a write stores. -/
def WriteRequest.state (req : WriteRequest Timestamp) : State :=
  ⟨req.value, package.asTime req.time⟩

/-- `storageServer.read`. -/
def read (values : Values) (key : String) : ReadResponse Timestamp :=
  match values key with
  | none => { found := false }
  | some state =>
      { found := true, value := state.value, time := some (package.new state.time) }

/-- `storageServer.write` keeps an old value that is newer. -/
def write (values : Values) (req : WriteRequest Timestamp) :
    Values × WriteResponse :=
  match values req.key with
  | none => (Function.update values req.key (some (req.state package)), ⟨true⟩)
  | some old =>
      if package.asTime req.time < old.time then (values, ⟨false⟩)
      else (Function.update values req.key (some (req.state package)), ⟨true⟩)

end Server

/-! ## The newest value -/

/-- The newer one of two values; a value replaces one of the same time. -/
def newer (old : Option State) (state : State) : State :=
  match old with
  | none => state
  | some old => if state.time < old.time then old else state

theorem time_le_newer (old : Option State) (state : State) :
    state.time ≤ (newer old state).time := by
  cases old with
  | none => exact Int.le_refl _
  | some old =>
      simp only [newer]
      split_ifs with older
      · exact Int.le_of_lt older
      · exact Int.le_refl _

theorem old_le_newer (old state : State) :
    old.time ≤ (newer (some old) state).time := by
  simp only [newer]
  split_ifs with older
  · exact Int.le_refl _
  · exact Int.not_lt.mp older

theorem newer_comm (old : Option State) {first second : State}
    (same : first.time = second.time → first = second) :
    newer (some (newer old first)) second =
      newer (some (newer old second)) first := by
  cases old with
  | none => grind [newer]
  | some old => grind [newer]

section Convergence

variable {Timestamp : Type} (package : TimestampPackage Timestamp)

/-- A write stores the newer value. -/
theorem write_eq (values : Values) (req : WriteRequest Timestamp) :
    (write package values req).1 =
      Function.update values req.key
        (some (newer (values req.key) (req.state package))) := by
  unfold write
  cases present : values req.key with
  | none => rfl
  | some old =>
      dsimp only
      split_ifs with older
      · have kept : newer (some old) (req.state package) = old := if_pos older
        rw [kept, ← present, Function.update_eq_self]
      · have replaced : newer (some old) (req.state package) = req.state package :=
          if_neg older
        rw [replaced]

/-! ## Servers converge -/

/-- Writes of one key at one time are of one value. -/
def Compatible (req other : WriteRequest Timestamp) : Prop :=
  req.key = other.key → package.asTime req.time = package.asTime other.time →
    req.value = other.value

/-- Two writes can be executed in either order. -/
theorem write_comm (values : Values) {req other : WriteRequest Timestamp}
    (compatible : Compatible package req other) :
    (write package (write package values req).1 other).1 =
      (write package (write package values other).1 req).1 := by
  simp only [write_eq]
  by_cases same : req.key = other.key
  · have equal : (req.state package).time = (other.state package).time →
        req.state package = other.state package := by
      intro times
      simp only [WriteRequest.state] at times ⊢
      rw [compatible same times, times]
    rw [same, Function.update_self, Function.update_self, Function.update_idem,
      Function.update_idem, newer_comm _ equal]
  · rw [Function.update_of_ne same, Function.update_of_ne (Ne.symm same),
      Function.update_comm same]

/-- The values of a server after some writes. -/
def Values.after (values : Values) (reqs : List (WriteRequest Timestamp)) :
    Values :=
  reqs.foldl (fun values req => (write package values req).1) values

/-- Servers that execute the same writes, in whatever order, have the same
values, unless two of the writes are of one key and one time but of two
values. -/
theorem storage_converges (values : Values)
    {reqs others : List (WriteRequest Timestamp)}
    (compatible : ∀ req ∈ reqs, ∀ other ∈ reqs, Compatible package req other)
    (same : reqs.Perm others) :
    values.after package reqs = values.after package others :=
  same.foldl_eq' (fun req first other second values =>
    write_comm package values (compatible req first other second)) values

end Convergence

/-- Timestamps that are nanoseconds since the Unix epoch. -/
def unixNano : TimestampPackage Int where
  new := id
  asTime time := time.getD 0

/-- A write, five nanoseconds after the Unix epoch. -/
def dinner : WriteRequest Int := ⟨"dinner", "soup", some 5⟩

/-- A write of the same key, one nanosecond earlier. -/
def lunch : WriteRequest Int := ⟨"dinner", "salad", some 4⟩

/-- The later write stays, also if it is executed first. -/
theorem storage_converges_swapped :
    Values.after unixNano (fun _ => none) [dinner, lunch] =
      Values.after unixNano (fun _ => none) [lunch, dinner] :=
  storage_converges unixNano _ (by simp [Compatible, dinner, lunch, unixNano])
    (.swap lunch dinner [])

/-! ## Reads follow writes -/

section Reads

variable {Timestamp : Type} (package : TimestampPackage Timestamp)

/-- One iteration of the loop of `newestValue`. -/
def newestStep (newest : Option (ReadResponse Timestamp))
    (resp : NodeResponse (ReadResponse Timestamp)) :
    Option (ReadResponse Timestamp) :=
  if resp.err.isSome then newest
  else if newest.all fun best =>
      package.asTime best.time < package.asTime resp.value.time then
    some resp.value
  else newest

/-- The reply with the most recent time. -/
def newestValue (seq : List (NodeResponse (ReadResponse Timestamp))) :
    Except Err (ReadResponse Timestamp) :=
  match seq.foldl (newestStep package) none with
  | none => .error errIncomplete
  | some newest => .ok newest

/-- Whether a majority of the nodes updated their value. -/
def numUpdated (size : Nat) (seq : List (NodeResponse WriteResponse)) :
    WriteResponse :=
  ⟨decide (size / 2 < ((successes seq).filter fun resp => resp.value.new).length)⟩

/-- What a server executes. -/
inductive Command (Timestamp : Type)
  /-- A read of a key. -/
  | read (key : String)
  /-- A write. -/
  | write (req : WriteRequest Timestamp)

/-- The server of a node executes a command. -/
structure Event (Timestamp : Type) where
  /-- The node. -/
  node : ID
  /-- The command. -/
  command : Command Timestamp

/-- The values of all servers. -/
abbrev Servers := ID → Values

/-- One server executes a command. -/
def Servers.step (servers : Servers) (event : Event Timestamp) : Servers :=
  match event.command with
  | .read _ => servers
  | .write req => Function.update servers event.node
      (write package (servers event.node) req).1

/-- The servers execute commands. -/
def Servers.run (servers : Servers) (events : List (Event Timestamp)) : Servers :=
  events.foldl (Servers.step package) servers

/-- The responses to a write are the replies of servers in a run, or errors. -/
def WriteReplies (servers : Servers) (events : List (Event Timestamp))
    (req : WriteRequest Timestamp) (seq : List (NodeResponse WriteResponse)) :
    Prop :=
  ∀ resp ∈ successes seq, ∃ front back,
    events = front ++ ⟨resp.nodeID, .write req⟩ :: back ∧
      resp.value = (write package (servers.run package front resp.nodeID) req).2

/-- The responses to a read are the replies of servers in a run, or errors. -/
def ReadReplies (servers : Servers) (events : List (Event Timestamp))
    (key : String) (seq : List (NodeResponse (ReadResponse Timestamp))) : Prop :=
  ∀ resp ∈ successes seq, ∃ front back,
    events = front ++ ⟨resp.nodeID, .read key⟩ :: back ∧
      resp.value = read package (servers.run package front resp.nodeID) key

/-- A server has a value that is not older than some time. -/
def Dated (values : Values) (key : String) (time : Int) : Prop :=
  ∃ state, values key = some state ∧ time ≤ state.time

variable {package}

theorem Dated.of_write (values : Values) (req : WriteRequest Timestamp) :
    Dated (write package values req).1 req.key (package.asTime req.time) := by
  rw [write_eq]
  exact ⟨_, Function.update_self .., time_le_newer _ _⟩

/-- No command replaces a value by an older one. -/
theorem Dated.step {servers : Servers} {node : ID} {key : String} {time : Int}
    (dated : Dated (servers node) key time) (event : Event Timestamp) :
    Dated (servers.step package event node) key time := by
  unfold Servers.step
  cases event.command with
  | read key => exact dated
  | write req =>
      dsimp only
      by_cases other : node = event.node
      · subst other
        obtain ⟨state, present, bound⟩ := dated
        rw [Function.update_self, write_eq]
        by_cases same : key = req.key
        · subst same
          rw [present]
          exact ⟨_, Function.update_self .., bound.trans (old_le_newer _ _)⟩
        · exact ⟨state, by rwa [Function.update_of_ne same], bound⟩
      · rwa [Function.update_of_ne other]

theorem Dated.run {servers : Servers} {node : ID} {key : String} {time : Int}
    (dated : Dated (servers node) key time) (events : List (Event Timestamp)) :
    Dated (servers.run package events node) key time := by
  induction events generalizing servers with
  | nil => exact dated
  | cons event events inductionHypothesis =>
      exact inductionHypothesis (dated.step event)

/-- A server that has replied to a write keeps a value that is not older. -/
theorem WriteReplies.dated {servers : Servers} {events : List (Event Timestamp)}
    {req : WriteRequest Timestamp} {seq : List (NodeResponse WriteResponse)}
    (replies : WriteReplies package servers events req seq)
    {resp : NodeResponse WriteResponse} (member : resp ∈ successes seq) :
    Dated (servers.run package events resp.nodeID) req.key
      (package.asTime req.time) := by
  obtain ⟨front, back, rfl, _⟩ := replies resp member
  unfold Servers.run
  rw [List.foldl_append, List.foldl_cons]
  apply Dated.run
  simpa only [Servers.step, Function.update_self] using Dated.of_write _ req

/-- The loop keeps the first of the newest replies. -/
theorem foldl_newestStep (seq : List (NodeResponse (ReadResponse Timestamp))) :
    seq.foldl (newestStep package) none =
      ((successes seq).map NodeResponse.value).argmax (package.asTime ·.time) := by
  rw [List.argmax, List.foldl_map, successes, List.foldl_filter]
  congr 1
  funext newest resp
  cases failed : resp.err <;> cases newest <;>
    simp [newestStep, List.argAux, failed]

/-- Whatever the servers execute meanwhile, a read that hears from a majority of
the nodes after a write that updated a majority returns a value that is not
older than the one written. -/
theorem read_follows_write (lawful : package.Lawful) (servers : Servers)
    (earlier later : List (Event Timestamp)) (config : List ID)
    (req : WriteRequest Timestamp) (dated : 0 < package.asTime req.time)
    (writes : List (NodeResponse WriteResponse))
    (wrote : WriteReplies package servers earlier req writes)
    (writers : ((successes writes).map NodeResponse.nodeID).Nodup ∧
      responders writes ⊆ config.toFinset)
    (updated : (numUpdated config.length writes).new = true)
    (reads : List (NodeResponse (ReadResponse Timestamp)))
    (heard : ReadReplies package (servers.run package earlier) later req.key reads)
    (readers : ((successes reads).map NodeResponse.nodeID).Nodup ∧
      responders reads ⊆ config.toFinset)
    (majority : config.length / 2 < (successes reads).length) :
    ∃ resp, newestValue package reads = .ok resp ∧ resp.found = true ∧
      package.asTime req.time ≤ package.asTime resp.time := by
  have count := of_decide_eq_true updated
  have fewer := List.length_filter_le (fun resp : NodeResponse WriteResponse =>
    resp.value.new) (successes writes)
  have size := List.toFinset_card_le config
  -- Some node has replied to both calls.
  obtain ⟨node, both⟩ := Finset.inter_nonempty_of_card_lt_card_add_card
    writers.2 readers.2
    (by
      rw [card_responders_eq_iff.mpr writers.1,
        card_responders_eq_iff.mpr readers.1]
      omega)
  simp only [Finset.mem_inter, responders, List.mem_toFinset, List.mem_map]
    at both
  obtain ⟨⟨written, took, rfl⟩, reply, replied, same⟩ := both
  obtain ⟨front, back, _, value⟩ := heard reply replied
  obtain ⟨state, present, bound⟩ := (wrote.dated took).run front
  have heeded := List.mem_map_of_mem (f := NodeResponse.value) replied
  obtain ⟨best, result⟩ := Option.ne_none_iff_exists'.mp
    (mt (List.argmax_eq_none
      (f := fun resp : ReadResponse Timestamp => package.asTime resp.time)).mp
      (List.ne_nil_of_mem heeded))
  have newest := List.le_of_mem_argmax heeded result
  have recent : package.asTime req.time ≤ package.asTime best.time := by
    rw [value, same, read, present] at newest
    exact (bound.trans (lawful.asTime_new state.time).ge).trans newest
  refine ⟨best, by rw [newestValue, foldl_newestStep, result], ?_, recent⟩
  -- A reply without a value is of the Unix epoch.
  obtain ⟨source, member, rfl⟩ := List.mem_map.mp (List.argmax_mem result)
  obtain ⟨front, back, _, value⟩ := heard source member
  rw [value] at recent ⊢
  unfold read at recent ⊢
  split at recent
  · exact absurd recent (Int.not_le.mpr (lawful.absent ▸ dated))
  · rfl

end Reads

/-- Node 3 has not executed the write and replies first. -/
theorem read_follows_write_stale :
    ∃ resp, newestValue unixNano [⟨3, { found := false }, none⟩,
        ⟨2, ⟨true, "soup", some 5⟩, none⟩] = .ok resp ∧
      resp.found = true ∧ 5 ≤ unixNano.asTime resp.time := by
  refine read_follows_write ⟨rfl, fun _ => rfl⟩ (fun _ _ => none)
    [⟨1, .write dinner⟩, ⟨2, .write dinner⟩]
    [⟨3, .read "dinner"⟩, ⟨2, .read "dinner"⟩] [1, 2, 3] dinner (by decide)
    [⟨1, ⟨true⟩, none⟩, ⟨2, ⟨true⟩, none⟩] ?_ (by decide) (by decide) _ ?_
    (by decide) (by decide)
  all_goals
    intro resp member
    simp only [successes, List.filter, Option.isNone_none, List.mem_cons,
      List.not_mem_nil, or_false] at member
    rcases member with rfl | rfl
    · exact ⟨[], _, rfl, by decide⟩
    · exact ⟨[_], _, rfl, by decide⟩

end Storage
end Gorums
