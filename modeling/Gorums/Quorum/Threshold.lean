import Gorums.Stream.Message
import Mathlib.Data.Finset.Card
import Mathlib.Data.List.Nodup

/-!
# Terminals that count responses

The loop of `Responses.Threshold`, over which `First`, `Majority` and `All` are
defined.  A response sequence is the list of the responses that it yields if it
is not stopped.  The loop counts successful responses; it does not look at the
nodes that they come from.
-/

namespace Gorums
namespace Quorum

open Gorums.Stream

/-- `ErrIncomplete`. -/
def errIncomplete : Err := .named "incomplete call"

/-- `ErrSkipNode`. -/
def errSkipNode : Err := .named "skip node"

/-- `ErrTypeMismatch`. -/
def errTypeMismatch : Err := .named "response type mismatch"

/-- `errors.Is`, for errors that wrap at most one other error. -/
def isErr (target : Err) : Err → Bool
  | .wrap message cause => .wrap message cause == target || isErr target cause
  | err => err == target

/-- A failed call to one node. -/
structure NodeError where
  /-- The node. -/
  nodeID : ID
  /-- Its error. -/
  cause : Err
  deriving DecidableEq

/-- The error of a quorum call. -/
structure QuorumCallError where
  /-- The overall cause. -/
  cause : Err
  /-- The errors of the nodes. -/
  errors : List NodeError
  deriving DecidableEq

variable {α : Type}

/-- Whether a request transform skipped the node. -/
def isSkip (result : NodeResponse α) : Bool :=
  match result.err with
  | none => false
  | some err => isErr errSkipNode err

/-- What a response adds to the errors that a terminal reports. -/
def nodeError (result : NodeResponse α) : Option NodeError :=
  match result.err with
  | none => none
  | some err =>
      if isErr errSkipNode err then none else some ⟨result.nodeID, err⟩

/-- The successful responses of a sequence. -/
def successes (seq : List (NodeResponse α)) : List (NodeResponse α) :=
  seq.filter fun result => result.err.isNone

/-- The errors of a sequence, without skipped nodes, in arrival order. -/
def nodeErrors (seq : List (NodeResponse α)) : List NodeError :=
  seq.filterMap nodeError

/-- The nodes that responded successfully. -/
def responders (seq : List (NodeResponse α)) : Finset ID :=
  ((successes seq).map NodeResponse.nodeID).toFinset

/-- The variables of the loop of `Threshold`; a response that is not yet set is
`none`. -/
structure Loop (α : Type) where
  /-- The number of successful responses. -/
  count : Nat := 0
  /-- The errors of the nodes. -/
  errs : List NodeError := []
  /-- The first successful response. -/
  resp : Option α := none

/-- What `Threshold` returns; `none` is the nil error. -/
structure Result (α : Type) where
  /-- The response. -/
  resp : Option α
  /-- The error. -/
  err : Option QuorumCallError

/-- The loop variables after one more response. -/
def Loop.next (loop : Loop α) (result : NodeResponse α) : Loop α :=
  match result.err with
  | none =>
      { loop with
        count := loop.count + 1
        resp := if loop.count = 0 then some result.value else loop.resp }
  | some err =>
      if isErr errSkipNode err then loop
      else { loop with errs := loop.errs ++ [⟨result.nodeID, err⟩] }

/-- Whether the loop returns after a response. -/
def Loop.reaches (loop : Loop α) (threshold : Nat)
    (result : NodeResponse α) : Bool :=
  result.err.isNone && decide (threshold ≤ loop.count + 1)

/-- The return inside the loop. -/
def Loop.reached (loop : Loop α) : Result α := ⟨loop.resp, none⟩

/-- The return after the loop. -/
def Loop.incomplete (loop : Loop α) : Result α :=
  ⟨loop.resp, some ⟨errIncomplete, loop.errs⟩⟩

/-- The loop of `Threshold`: its result and the responses that it leaves. -/
def Loop.run (threshold : Nat) (loop : Loop α) :
    List (NodeResponse α) → Result α × List (NodeResponse α)
  | [] => (loop.incomplete, [])
  | result :: rest =>
      if loop.reaches threshold result then
        ((loop.next result).reached, rest)
      else Loop.run threshold (loop.next result) rest

/-- `Responses.Threshold`, for a positive threshold. -/
def threshold (threshold : Nat) (seq : List (NodeResponse α)) : Result α :=
  (Loop.run threshold {} seq).1

/-- `Responses.Majority` on a configuration of `size` nodes. -/
def majority (size : Nat) (seq : List (NodeResponse α)) : Result α :=
  threshold (size / 2 + 1) seq

/-! ## The loop after any number of responses -/

/-- The loop variables after a sequence of responses. -/
def Loop.after (seq : List (NodeResponse α)) : Loop α where
  count := (successes seq).length
  errs := nodeErrors seq
  resp := (successes seq).head?.map NodeResponse.value

section Lemmas

variable {seq rest : List (NodeResponse α)} {result : NodeResponse α}

@[simp] theorem successes_nil : successes ([] : List (NodeResponse α)) = [] :=
  rfl

theorem successes_append (front back : List (NodeResponse α)) :
    successes (front ++ back) = successes front ++ successes back := by
  simp [successes]

theorem nodeErrors_append (front back : List (NodeResponse α)) :
    nodeErrors (front ++ back) = nodeErrors front ++ nodeErrors back := by
  simp [nodeErrors]

/-- The loop variables are what the responses so far make them. -/
theorem Loop.next_after (seq : List (NodeResponse α))
    (result : NodeResponse α) :
    (Loop.after seq).next result = Loop.after (seq ++ [result]) := by
  unfold Loop.next Loop.after
  rw [successes_append, nodeErrors_append]
  cases error : result.err with
  | none =>
      have succeeds : successes [result] = [result] := by
        simp [successes, error]
      have unerring : nodeErrors [result] = [] := by
        simp [nodeErrors, nodeError, error]
      cases successful : successes seq <;> simp [succeeds, unerring]
  | some err =>
      have fails : successes [result] = [] := by simp [successes, error]
      by_cases skipped : isErr errSkipNode err = true
      · simp [fails, nodeErrors, nodeError, error, skipped]
      · simp [fails, nodeErrors, nodeError, error, skipped]

/-- A result of the loop after it has counted the responses of `seq`: either it
stopped at the response that reached the threshold, or it has gone through all
of them. -/
theorem Loop.run_after {threshold : Nat} (seq rest : List (NodeResponse α))
    (below : (successes seq).length < threshold) :
    (∃ front last, rest = front ++ last :: (Loop.run threshold (.after seq)
          rest).2 ∧ last.err = none ∧
        (successes (seq ++ front)).length + 1 = threshold ∧
        (Loop.run threshold (.after seq) rest).1 =
          (Loop.after (seq ++ front ++ [last])).reached) ∨
      ((successes (seq ++ rest)).length < threshold ∧
        Loop.run threshold (.after seq) rest =
          ((Loop.after (seq ++ rest)).incomplete, [])) := by
  induction rest generalizing seq with
  | nil =>
      refine .inr ⟨by simpa using below, ?_⟩
      simp [Loop.run]
  | cons result rest inductionHypothesis =>
      have counted : (Loop.after seq).count = (successes seq).length := rfl
      by_cases reaches : (Loop.after seq).reaches threshold result = true
      · refine .inl ⟨[], result, ?_, ?_, ?_, ?_⟩
        · simp [Loop.run, reaches]
        · simp only [Loop.reaches, Bool.and_eq_true] at reaches
          exact Option.isNone_iff_eq_none.mp reaches.1
        · simp only [Loop.reaches, counted, Bool.and_eq_true,
            decide_eq_true_eq] at reaches
          simp only [List.append_nil]
          omega
        · simp [Loop.run, reaches, Loop.next_after]
      · have unreached : Loop.run threshold (.after seq) (result :: rest) =
            Loop.run threshold (.after (seq ++ [result])) rest := by
          simp [Loop.run, reaches, Loop.next_after]
        have still : (successes (seq ++ [result])).length < threshold := by
          rw [successes_append, List.length_append]
          cases error : result.err with
          | none =>
              simp only [Loop.reaches, counted, error, Option.isNone_none,
                Bool.true_and, decide_eq_true_eq] at reaches
              simp only [successes, List.filter_cons, error, Option.isNone_none,
                if_true, List.filter_nil, List.length_singleton]
              simp only [successes] at reaches
              omega
          | some err => simpa [successes, error] using below
        rw [unreached]
        rcases inductionHypothesis (seq ++ [result]) still with
          ⟨front, last, split, succeeded, count, stopped⟩ | ⟨few, ended⟩
        · refine .inl ⟨result :: front, last, ?_, succeeded, ?_, ?_⟩
          · rw [List.cons_append, ← split]
          · simpa using count
          · simpa using stopped
        · refine .inr ⟨by simpa using few, ?_⟩
          simpa using ended

/-- `Threshold` reports success where it stops, at the response that reaches
the threshold. -/
theorem Loop.run_reached {threshold : Nat} (positive : 1 ≤ threshold)
    (returned : (Loop.run threshold {} seq).1.err = none) :
    ∃ front last, seq = front ++ last :: (Loop.run threshold {} seq).2 ∧
      last.err = none ∧ (successes front).length + 1 = threshold := by
  rcases Loop.run_after [] seq positive with
    ⟨front, last, split, succeeded, count, _⟩ | ⟨_, ended⟩
  · exact ⟨front, last, split, succeeded, by simpa using count⟩
  · have run : Loop.run threshold {} seq = _ := ended
    rw [run] at returned
    cases returned

end Lemmas

/-! ## Nodes and responses -/

section Nodes

variable {seq : List (NodeResponse α)}

theorem card_responders_le :
    (responders seq).card ≤ (successes seq).length := by
  rw [← List.length_map NodeResponse.nodeID]
  exact List.toFinset_card_le _

/-- The responses come from as many nodes if and only if no node responded twice. -/
theorem card_responders_eq_iff :
    (responders seq).card = (successes seq).length ↔
      ((successes seq).map NodeResponse.nodeID).Nodup := by
  rw [← List.length_map NodeResponse.nodeID]
  exact Multiset.toFinset_card_eq_card_iff_nodup

theorem length_successes_concat {last : NodeResponse α}
    (succeeded : last.err = none) :
    (successes (seq ++ [last])).length = (successes seq).length + 1 := by
  rw [successes_append, List.length_append]
  simp [successes, succeeded]

/-- The responses that `Threshold` consumes. -/
def consumed (threshold : Nat) (seq : List (NodeResponse α)) :
    List (NodeResponse α) :=
  seq.take (seq.length - (Loop.run threshold {} seq).2.length)

theorem consumed_of_split {threshold : Nat} {front : List (NodeResponse α)}
    {last : NodeResponse α}
    (split : seq = front ++ last :: (Loop.run threshold {} seq).2) :
    consumed threshold seq = front ++ [last] := by
  have length := congrArg List.length split
  rw [List.length_append, List.length_cons] at length
  have isPrefix : front ++ [last] <+: seq :=
    ⟨(Loop.run threshold {} seq).2, by simpa using split.symm⟩
  unfold consumed
  rw [List.prefix_iff_eq_take.mp isPrefix]
  congr 1
  rw [List.length_append, List.length_singleton]
  omega

/-- `Threshold` returns a nil error after as many successful responses as its
threshold, the first ones of the sequence. -/
theorem successes_consumed {threshold : Nat} (positive : 1 ≤ threshold)
    (returned : (Loop.run threshold {} seq).1.err = none) :
    (successes (consumed threshold seq)).length = threshold ∧
      successes (consumed threshold seq) = (successes seq).take threshold := by
  obtain ⟨front, last, split, succeeded, reached⟩ :=
    Loop.run_reached positive returned
  have stopped := consumed_of_split split
  have count : (successes (consumed threshold seq)).length = threshold := by
    rw [stopped, length_successes_concat succeeded, reached]
  refine ⟨count, ?_⟩
  have first : successes (consumed threshold seq) <+: successes seq :=
    (List.take_prefix _ seq).filter _
  rw [List.prefix_iff_eq_take.mp first, count]

/-- Where `Threshold` returns a nil error, as many nodes as its threshold responded
successfully if and only if the successful responses that it counted, the first ones
of the sequence, come from different nodes; and so for `Majority` and more than half
of the nodes. -/
theorem threshold_of_distinct_successes {count : Nat} (positive : 1 ≤ count)
    (size : Nat) :
    ((threshold count seq).err = none →
        (count ≤ (responders (consumed count seq)).card ↔
          (((successes seq).take count).map NodeResponse.nodeID).Nodup)) ∧
      ((majority size seq).err = none →
        (size < 2 * (responders (consumed (size / 2 + 1) seq)).card ↔
          (((successes seq).take (size / 2 + 1)).map
            NodeResponse.nodeID).Nodup)) := by
  have nodes : ∀ {count : Nat}, 1 ≤ count →
      (threshold count seq).err = none →
      (count ≤ (responders (consumed count seq)).card ↔
        (((successes seq).take count).map NodeResponse.nodeID).Nodup) := by
    intro count positive returned
    obtain ⟨length, first⟩ := successes_consumed positive returned
    have most : (responders (consumed count seq)).card ≤ _ := card_responders_le
    rw [← first, ← card_responders_eq_iff]
    omega
  refine ⟨nodes positive, ?_⟩
  intro returned
  rw [← nodes (Nat.le_add_left 1 _) returned]
  omega

/-- One node responds again after another one. -/
def again : List (NodeResponse Unit) :=
  [⟨1, (), none⟩, ⟨2, (), none⟩, ⟨1, (), none⟩]

/-- The loop does not reach the repeated response. -/
theorem threshold_of_distinct_successes_again :
    (threshold 2 again).err = none ∧
      2 ≤ (responders (consumed 2 again)).card :=
  ⟨by decide, ((threshold_of_distinct_successes (by decide) 3).1
    (by decide)).mpr (by decide)⟩

/-- One node of a streaming call responds twice. -/
def repeated : List (NodeResponse Unit) := [⟨1, (), none⟩, ⟨1, (), none⟩]

/-- Two responses of one node make a majority of three nodes. -/
theorem majority_of_one_node :
    (majority 3 repeated).err = none ∧ (threshold 2 repeated).err = none ∧
      (responders repeated).card = 1 := by
  decide

end Nodes

end Quorum
end Gorums
