import Gorums.Quorum.FanOut
import Mathlib.Data.List.Basic

/-!
# The metadata of a message

A message carries the client's outgoing metadata as a flat list of entries, in
the order in which the map of the metadata happened to be iterated.  The receiver
appends the entries to a copy of the incoming metadata that its context has.
Maps are shared by reference, so they live in a store; what a context has is a
reference to a map in it.
-/

namespace Gorums
namespace Quorum
namespace FanOut

open Gorums.Stream

/-! ## Maps of metadata -/

/-- A map of metadata: the values of the keys that it has. -/
abbrev MD := String → Option (List String)

/-- The maps of metadata that have been made; a reference is an index. -/
abbrev MDStore := List MD

/-- The incoming metadata that a context has. -/
structure IncomingContext where
  /-- The reference to the map, if the context has one. -/
  md : Option Nat
  deriving DecidableEq

namespace MDStore

/-- A new map. -/
def alloc (store : MDStore) (md : MD) : MDStore × Nat :=
  (store ++ [md], store.length)

/-- The maps after a value has been added to those of a key of one map. -/
def added (store : MDStore) (ref : Nat) (key value : String) : MDStore :=
  store.modify ref fun md =>
    Function.update md key (some ((md key).getD [] ++ [value]))

/-- The values of a key in a map, if the map has the key. -/
def get (store : MDStore) (ref : Nat) (key : String) : Option (List String) :=
  store[ref]?.bind fun md => md key

end MDStore

/-- The functions of the metadata package of gRPC that a receiver calls. -/
structure MetadataPackage where
  /-- `metadata.FromIncomingContext`: the metadata of a context, if it has any. -/
  fromIncomingContext : MDStore → IncomingContext → MDStore × Option Nat
  /-- `MD.Append`: add a value to those of a key. -/
  append : MDStore → Nat → String → String → MDStore

/-- The keys of a map are lower-case. -/
def LowerKeys (toLower : String → String) (md : MD) : Prop :=
  ∀ key, toLower key ≠ key → md key = none

/-- What is assumed of the package, with the function that lower-cases a key. -/
structure MetadataPackage.Lawful (package : MetadataPackage)
    (toLower : String → String) : Prop where
  /-- There is nothing to return for a context without metadata. -/
  absent : ∀ store, package.fromIncomingContext store ⟨none⟩ = (store, none)
  /-- Metadata is copied; its keys, which are lower-cased then, are kept if they are
  lower-case. -/
  copies : ∀ store ref md, store[ref]? = some md → LowerKeys toLower md →
    package.fromIncomingContext store ⟨some ref⟩ =
      ((store.alloc md).1, some (store.alloc md).2)
  /-- A value is added to those of the lower-cased key. -/
  appends : ∀ store ref key value,
    package.append store ref key value = store.added ref (toLower key) value

/-- Append the entries of a message to the incoming metadata of a context. -/
def appendToIncomingContext (package : MetadataPackage) (message : Message)
    (store : MDStore) (ctx : IncomingContext) : MDStore × IncomingContext :=
  if message.entry.length = 0 then (store, ctx)
  else
    let (store, md) := package.fromIncomingContext store ctx
    let (store, md) :=
      match md with
      | some md => (store, md)
      | none => store.alloc fun _ => none
    let store := message.entry.foldl
      (fun store entry => package.append store md entry.key entry.value) store
    (store, { ctx with md := some md })

/-- The values of a key in the metadata of a context, if it has the key. -/
def IncomingContext.get (ctx : IncomingContext) (store : MDStore) (key : String) :
    Option (List String) :=
  ctx.md.bind fun ref => store.get ref key

/-! ## Appending -/

/-- What a map has for a key once values have been appended. -/
def withValues (base : Option (List String)) : List String → Option (List String)
  | [] => base
  | values => some (base.getD [] ++ values)

theorem getD_withValues (base : Option (List String)) (values : List String) :
    (withValues base values).getD [] = base.getD [] ++ values := by
  cases values with
  | nil => simp [withValues]
  | cons value rest => rfl

/-- Appending twice is appending everything at once. -/
theorem withValues_withValues (base : Option (List String)) (first second : List String) :
    withValues (withValues base first) second = withValues base (first ++ second) := by
  cases second with
  | nil => rw [List.append_nil, withValues]
  | cons value rest =>
      cases first with
      | nil => rfl
      | cons head tail => simp [withValues]

namespace MDStore

variable {store : MDStore} {ref : Nat}

theorem get_alloc (md : MD) (key : String) :
    (store.alloc md).1.get (store.alloc md).2 key = md key := by
  simp [alloc, get]

theorem length_added {key value : String} :
    (store.added ref key value).length = store.length :=
  List.length_modify _ _ _

/-- The values of every other key are left, and those of the key are added to. -/
theorem get_added (inside : ref < store.length) (key value other : String) :
    (store.added ref key value).get ref other =
      withValues (store.get ref other) (if key = other then [value] else []) := by
  unfold get added
  rw [List.getElem?_modify_eq, List.getElem?_eq_getElem inside]
  by_cases same : key = other
  · subst same
    simp [withValues]
  · simp [withValues, same, Function.update_of_ne (Ne.symm same)]

end MDStore

namespace MetadataPackage.Lawful

variable {package : MetadataPackage} {toLower : String → String}
  (lawful : package.Lawful toLower) {store : MDStore} {ref : Nat}
include lawful

/-- Appending entries leaves every other map as it is. -/
theorem foldl_append_frame (entries : List MetadataEntry) {other : Nat}
    (apart : ref ≠ other) :
    (entries.foldl (fun store entry => package.append store ref entry.key entry.value)
      store)[other]? = store[other]? := by
  induction entries generalizing store with
  | nil => rfl
  | cons entry rest inductionHypothesis =>
      rw [List.foldl_cons, inductionHypothesis, lawful.appends, MDStore.added,
        List.getElem?_modify_ne _ _ apart]

/-- Appending entries adds the values of each key, in the order of the entries. -/
theorem get_foldl_append (entries : List MetadataEntry)
    (inside : ref < store.length) (key : String) :
    MDStore.get
        (entries.foldl
          (fun store entry => package.append store ref entry.key entry.value) store)
        ref key =
      withValues (store.get ref key)
        ((entries.filter fun entry => toLower entry.key = key).map
          MetadataEntry.value) := by
  induction entries generalizing store with
  | nil => rfl
  | cons entry rest inductionHypothesis =>
      have kept : ref < (store.added ref (toLower entry.key) entry.value).length := by
        rw [MDStore.length_added]
        exact inside
      rw [List.foldl_cons, lawful.appends, inductionHypothesis kept,
        MDStore.get_added inside, withValues_withValues, List.filter_cons]
      by_cases same : toLower entry.key = key
      · simp [same]
      · simp [same]

end MetadataPackage.Lawful

/-! ## The round trip -/

/-- The metadata of a context is a map with lower-case keys. -/
def IncomingContext.Lower (ctx : IncomingContext) (toLower : String → String)
    (store : MDStore) : Prop :=
  ∀ ref ∈ ctx.md, ∃ md, store[ref]? = some md ∧ LowerKeys toLower md

section
variable {package : MetadataPackage} {toLower : String → String}
  (lawful : package.Lawful toLower) {message : Message} {store : MDStore}
  {ctx : IncomingContext} (base : ctx.Lower toLower store)
include lawful base

/-- The receiver appends the entries to a new map, which has what its context has. -/
theorem appendToIncomingContext_eq (carries : message.entry ≠ []) :
    ∃ md : MD, (∀ key, md key = ctx.get store key) ∧
      appendToIncomingContext package message store ctx =
        (message.entry.foldl (fun maps entry =>
          package.append maps store.length entry.key entry.value) (store ++ [md]),
          ⟨some store.length⟩) := by
  unfold appendToIncomingContext
  rw [if_neg (by rwa [List.length_eq_zero_iff])]
  obtain ⟨_ | ref⟩ := ctx
  · exact ⟨fun _ => none, fun key => rfl, by rw [lawful.absent]; rfl⟩
  · obtain ⟨md, found, lower⟩ := base ref rfl
    refine ⟨md, ?_, by rw [lawful.copies store ref md found lower]; rfl⟩
    intro key
    simp [IncomingContext.get, MDStore.get, found]

/-- A receiver sees the values of the entries after those of its context. -/
theorem appendToIncomingContext_get (key : String) :
    let result := appendToIncomingContext package message store ctx
    result.2.get result.1 key = withValues (ctx.get store key)
      ((message.entry.filter fun entry => toLower entry.key = key).map
        MetadataEntry.value) := by
  dsimp only
  by_cases carries : message.entry = []
  · simp [appendToIncomingContext, carries, withValues]
  · obtain ⟨md, same, equal⟩ := appendToIncomingContext_eq lawful base carries
    have inside : store.length < (store ++ [md]).length := by simp
    have last : MDStore.get (store ++ [md]) store.length key = md key :=
      MDStore.get_alloc md key
    rw [equal, IncomingContext.get, Option.bind_some,
      lawful.get_foldl_append _ inside, last, same]

/-- Every map that there was is left as it was. -/
theorem appendToIncomingContext_frame {ref : Nat} (inside : ref < store.length) :
    (appendToIncomingContext package message store ctx).1[ref]? = store[ref]? := by
  by_cases carries : message.entry = []
  · simp [appendToIncomingContext, carries]
  · obtain ⟨md, _, equal⟩ := appendToIncomingContext_eq lawful base carries
    rw [equal, lawful.foldl_append_frame _ (Nat.ne_of_gt inside),
      List.getElem?_append_left inside]

/-- The message that carries outgoing metadata gives a receiver the outgoing values of
each key after those of its context. -/
theorem get_newMessageFromPayload {outgoing order : Metadata}
    (distinct : (outgoing.map Prod.fst).Nodup)
    (lower : ∀ keyed ∈ outgoing, toLower keyed.1 = keyed.1)
    (iteration : order.Perm outgoing) {msgID : UInt64} {method : String}
    {payload : List UInt8} (key : String) :
    let message := newMessageFromPayload order msgID method payload
    let result := appendToIncomingContext package message store ctx
    result.2.get result.1 key = withValues (ctx.get store key) (outgoing.values key) := by
  intro message result
  have lowered : ∀ entry ∈ order.entries, toLower entry.key = entry.key := by
    intro entry inside
    obtain ⟨keyed, visited, carried⟩ := List.mem_flatMap.mp inside
    obtain ⟨value, _, rfl⟩ := List.mem_map.mp carried
    exact lower keyed (iteration.mem_iff.mp visited)
  rw [appendToIncomingContext_get lawful base key, ← valuesOf_perm iteration distinct]
  congr 2
  apply List.filter_congr
  intro entry inside
  rw [lowered entry inside]
  rfl

end

/-- In whatever order the outgoing metadata is iterated, the receiver sees for each
key the values that its context had followed by the outgoing values in their order;
it sees the same map after every other iteration; and the maps that there were, that of
its context among them, are unchanged. -/
theorem metadata_round_trip {package : MetadataPackage} {toLower : String → String}
    (lawful : package.Lawful toLower) {outgoing order : Metadata}
    (distinct : (outgoing.map Prod.fst).Nodup)
    (lower : ∀ keyed ∈ outgoing, toLower keyed.1 = keyed.1)
    (iteration : order.Perm outgoing) (msgID : UInt64) (method : String)
    (payload : List UInt8) {store : MDStore} {ctx : IncomingContext}
    (base : ctx.Lower toLower store) :
    let receive := fun order : Metadata =>
      appendToIncomingContext package
        (newMessageFromPayload order msgID method payload) store ctx
    let result := receive order
    (∀ key, (result.2.get result.1 key).getD [] =
      (ctx.get store key).getD [] ++ outgoing.values key) ∧
    (∀ other : Metadata, other.Perm outgoing →
      (receive other).2.get (receive other).1 = result.2.get result.1) ∧
    (∀ ref < store.length, result.1[ref]? = store[ref]?) ∧
    (order.entries = [] → result = (store, ctx)) := by
  intro receive result
  refine ⟨?_, ?_, ?_, ?_⟩
  · intro key
    rw [get_newMessageFromPayload lawful base distinct lower iteration key,
      getD_withValues]
  · intro other reiteration
    funext key
    rw [get_newMessageFromPayload lawful base distinct lower reiteration key,
      get_newMessageFromPayload lawful base distinct lower iteration key]
  · intro ref inside
    exact appendToIncomingContext_frame lawful base inside
  · intro empty
    have none : order.entries.length = 0 := List.length_eq_zero_iff.mpr empty
    exact if_pos none

/-- Functions that satisfy the assumptions, if the keys of every map are lower-case. -/
def plainPackage : MetadataPackage where
  fromIncomingContext store ctx :=
    match ctx.md.bind fun ref => store[ref]? with
    | none => (store, none)
    | some md => ((store.alloc md).1, some (store.alloc md).2)
  append store ref key value := store.added ref key.toLower value

theorem plainPackage_lawful : plainPackage.Lawful String.toLower where
  absent _ := rfl
  copies store ref md found _ := by simp [plainPackage, found]
  appends _ _ _ _ := rfl

/-- The metadata of a context with a key that the message carries too. -/
def peerMetadata : MD := fun key => if key = "x-role" then some ["peer"] else none

theorem lowerKeys_peerMetadata : LowerKeys String.toLower peerMetadata := by
  intro key upper
  apply if_neg
  rintro rfl
  exact upper (by decide +kernel)

/-- Outgoing metadata with two keys. -/
def roleMetadata : Metadata := [("x-role", ["replica", "leader"]), ("x-id", ["42"])]

/-- What a receiver has of the two keys, when they were iterated in the other order. -/
def receivedRoles : MDStore × IncomingContext :=
  appendToIncomingContext plainPackage
    (newMessageFromPayload roleMetadata.reverse 7 "test.Method" []) [peerMetadata] ⟨some 0⟩

theorem metadata_round_trip_roles :
    (receivedRoles.2.get receivedRoles.1 "x-role").getD [] =
      ["peer", "replica", "leader"] :=
  (metadata_round_trip plainPackage_lawful (by decide) (by decide +kernel)
    (List.reverse_perm roleMetadata) 7 "test.Method" []
    (by rintro ref ⟨⟩; exact ⟨_, rfl, lowerKeys_peerMetadata⟩)).1 "x-role"

end FanOut
end Quorum
end Gorums
