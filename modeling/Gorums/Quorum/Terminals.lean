import Gorums.Quorum.Threshold
import Mathlib.Logic.Function.Basic

/-!
# Terminals that count nodes

`Responses.Reduce` and `Responses.Matching` count only the first successful
response of each node.  Each of their loops is described by what it has made of
the responses read so far: the first successes of the nodes, the errors of the
others, and where it stops.
-/

namespace Gorums
namespace Quorum

open Gorums.Stream

variable {α β κ : Type}

/-- The handle of a quorum call. -/
structure Responses (α : Type) where
  /-- The responses that the sequence yields if it is not stopped. -/
  seq : List (NodeResponse α)
  /-- The error that the call reports instead of sending. -/
  err : Option Err := none

/-- An error that a terminal returns. -/
inductive CallError
  /-- An error with the errors of the nodes. -/
  | quorum (err : QuorumCallError)
  /-- An error of the call itself or of a function of the caller. -/
  | plain (err : Err)
  deriving DecidableEq

/-- What a terminal returns, and the responses that it leaves unread. -/
structure Returned (α β : Type) where
  /-- The result. -/
  result : β
  /-- The error; `none` is nil. -/
  err : Option CallError
  /-- The responses that are not consumed. -/
  rest : List (NodeResponse α)

/-- `nodeTally`. -/
structure NodeTally where
  /-- The nodes that contributed a successful response. -/
  counted : List ID := []
  /-- The errors of the nodes. -/
  errs : List NodeError := []

/-- `nodeTally.add`: whether a response is the first success of its node, and
the tally after it. -/
def NodeTally.add (tally : NodeTally) (id : ID) : Option Err → Bool × NodeTally
  | some err =>
      if isErr errSkipNode err then (false, tally)
      else (false, { tally with errs := tally.errs ++ [⟨id, err⟩] })
  | none =>
      if id ∈ tally.counted then (false, tally)
      else (true, { tally with counted := tally.counted ++ [id] })

/-- `nodeTally.incomplete`. -/
def NodeTally.incomplete (tally : NodeTally) : CallError :=
  .quorum ⟨errIncomplete, tally.errs⟩

/-- `Responses.Threshold`, for a positive threshold. -/
def Responses.threshold (responses : Responses α) (threshold : Nat) :
    Returned α (Option α) :=
  match responses.err with
  | some err => ⟨none, some (.plain err), responses.seq⟩
  | none =>
      let (result, rest) := Loop.run threshold {} responses.seq
      ⟨result.resp, result.err.map .quorum, rest⟩

/-- The loop of `Reduce`. -/
def reduceLoop (n : Nat) (add : β → NodeResponse α → β × Option Err)
    (acc : β) (tally : NodeTally) : List (NodeResponse α) → Returned α β
  | [] => ⟨acc, some tally.incomplete, []⟩
  | result :: rest =>
      match tally.add result.nodeID result.err with
      | (false, tally) => reduceLoop n add acc tally rest
      | (true, tally) =>
          match add acc result with
          | (acc, some err) => ⟨acc, some (.plain err), rest⟩
          | (acc, none) =>
              if n ≤ tally.counted.length then ⟨acc, none, rest⟩
              else reduceLoop n add acc tally rest

/-- `Responses.Reduce`, for a positive threshold. -/
def Responses.reduce (responses : Responses α) (n : Nat) (initial : β)
    (add : β → NodeResponse α → β × Option Err) : Returned α β :=
  match responses.err with
  | some err => ⟨initial, some (.plain err), responses.seq⟩
  | none => reduceLoop n add initial {} responses.seq

/-- `Agreement`; the zero agreement has no value. -/
structure Agreement (α : Type) where
  /-- The first response with the key. -/
  value : Option α := none
  /-- The responses with the key. -/
  responses : List (NodeResponse α) := []

/-- The loop of `Matching`, with its map of buckets. -/
def matchingLoop [DecidableEq κ] (n : Nat) (key : α → κ) (tally : NodeTally)
    (buckets : κ → List (NodeResponse α)) :
    List (NodeResponse α) → Returned α (Agreement α)
  | [] => ⟨{}, some tally.incomplete, []⟩
  | result :: rest =>
      match tally.add result.nodeID result.err with
      | (false, tally) => matchingLoop n key tally buckets rest
      | (true, tally) =>
          let bucket := buckets (key result.value) ++ [result]
          if n ≤ bucket.length then
            ⟨⟨bucket.head?.map NodeResponse.value, bucket⟩, none, rest⟩
          else
            matchingLoop n key tally
              (Function.update buckets (key result.value) bucket) rest

/-- `Responses.Matching`, for a positive threshold. -/
def Responses.matching [DecidableEq κ] (responses : Responses α) (n : Nat)
    (key : α → κ) : Returned α (Agreement α) :=
  match responses.err with
  | some err => ⟨{}, some (.plain err), responses.seq⟩
  | none => matchingLoop n key {} (fun _ => []) responses.seq

/-! ## The first success of each node -/

/-- The subsequence of the first success of each node. -/
def firstSuccesses : List (NodeResponse α) → List (NodeResponse α)
  | [] => []
  | result :: rest =>
      if result.err.isNone then
        result :: (firstSuccesses rest).filter fun later =>
          later.nodeID ≠ result.nodeID
      else firstSuccesses rest

/-- Whether a response that follows a sequence is the first success of its
node. -/
def countsAfter (seq : List (NodeResponse α)) (result : NodeResponse α) :
    Bool :=
  result.err.isNone &&
    decide (result.nodeID ∉ (firstSuccesses seq).map NodeResponse.nodeID)

section FirstSuccesses

variable {seq front back : List (NodeResponse α)} {result : NodeResponse α}

theorem countsAfter_cons_of_failed {first : NodeResponse α}
    (failed : first.err ≠ none) :
    countsAfter (first :: seq) result = countsAfter seq result := by
  cases error : first.err with
  | none => exact absurd error failed
  | some err => simp [countsAfter, firstSuccesses, error]

/-- After a success of a node, no other response of that node counts. -/
theorem countsAfter_cons_of_succeeded {first : NodeResponse α}
    (succeeded : first.err = none) :
    countsAfter (first :: seq) result =
      (countsAfter seq result && decide (result.nodeID ≠ first.nodeID)) := by
  have firsts : firstSuccesses (first :: seq) =
      first :: (firstSuccesses seq).filter fun later =>
        later.nodeID ≠ first.nodeID := by
    simp [firstSuccesses, succeeded]
  rw [Bool.eq_iff_iff, countsAfter, firsts]
  simp only [countsAfter, List.map_cons, List.mem_cons, List.mem_map,
    List.mem_filter, Bool.and_eq_true, decide_eq_true_eq]
  constructor
  · rintro ⟨nil, unseen⟩
    refine ⟨⟨nil, ?_⟩, fun same => unseen (.inl same)⟩
    rintro ⟨later, member, equal⟩
    by_cases same : later.nodeID = first.nodeID
    · exact unseen (.inl (equal ▸ same))
    · exact unseen (.inr ⟨later, ⟨member, same⟩, equal⟩)
  · rintro ⟨⟨nil, unseen⟩, apart⟩
    refine ⟨nil, ?_⟩
    rintro (same | ⟨later, ⟨member, _⟩, equal⟩)
    · exact apart same
    · exact unseen ⟨later, member, equal⟩

theorem firstSuccesses_concat (seq : List (NodeResponse α))
    (result : NodeResponse α) :
    firstSuccesses (seq ++ [result]) =
      firstSuccesses seq ++ if countsAfter seq result then [result] else [] := by
  induction seq with
  | nil =>
      cases error : result.err <;> simp [firstSuccesses, countsAfter, error]
  | cons first rest inductionHypothesis =>
      rw [List.cons_append, firstSuccesses, firstSuccesses, inductionHypothesis]
      cases error : first.err with
      | some err =>
          rw [countsAfter_cons_of_failed (by simp [error])]
          simp
      | none =>
          rw [countsAfter_cons_of_succeeded error]
          by_cases counts : countsAfter rest result = true <;>
            by_cases same : result.nodeID = first.nodeID <;>
            simp [counts, same]

/-- The first successes of a longer sequence begin with those of its start. -/
theorem firstSuccesses_begins (front back : List (NodeResponse α)) :
    firstSuccesses front <+: firstSuccesses (front ++ back) := by
  induction back using List.reverseRecOn with
  | nil => simp
  | append_singleton back result inductionHypothesis =>
      rw [← List.append_assoc, firstSuccesses_concat]
      exact inductionHypothesis.trans (List.prefix_append _ _)

/-- The first successes are of distinct nodes. -/
theorem nodup_firstSuccesses (seq : List (NodeResponse α)) :
    ((firstSuccesses seq).map NodeResponse.nodeID).Nodup := by
  induction seq using List.reverseRecOn with
  | nil => exact List.nodup_nil
  | append_singleton seq result inductionHypothesis =>
      rw [firstSuccesses_concat]
      by_cases counts : countsAfter seq result = true
      · have fresh : result.nodeID ∉
            (firstSuccesses seq).map NodeResponse.nodeID := by
          simp only [countsAfter, Bool.and_eq_true, decide_eq_true_eq] at counts
          exact counts.2
        rw [if_pos counts, List.map_append]
        exact List.nodup_append.mpr ⟨inductionHypothesis, by simp,
          by simpa using fun other member equal =>
            fresh (List.mem_map.mpr ⟨other, member, equal⟩)⟩
      · rw [if_neg counts, List.append_nil]
        exact inductionHypothesis

end FirstSuccesses

/-- The tally after a sequence of responses. -/
def NodeTally.after (seq : List (NodeResponse α)) : NodeTally where
  counted := (firstSuccesses seq).map NodeResponse.nodeID
  errs := nodeErrors seq

/-- The tally is what the responses so far make it. -/
theorem NodeTally.add_after (seq : List (NodeResponse α))
    (result : NodeResponse α) :
    (NodeTally.after seq).add result.nodeID result.err =
      (countsAfter seq result, NodeTally.after (seq ++ [result])) := by
  unfold NodeTally.after
  rw [firstSuccesses_concat, nodeErrors_append]
  cases error : result.err with
  | some err =>
      by_cases skipped : isErr errSkipNode err = true
      · simp [NodeTally.add, countsAfter, nodeErrors, nodeError, error, skipped]
      · simp [NodeTally.add, countsAfter, nodeErrors, nodeError, error, skipped]
  | none =>
      have unerring : nodeErrors [result] = [] := by
        simp [nodeErrors, nodeError, error]
      by_cases seen :
        result.nodeID ∈ (firstSuccesses seq).map NodeResponse.nodeID
      · simp only [NodeTally.add, countsAfter, error, seen, unerring]
        simp
      · simp only [NodeTally.add, countsAfter, error, seen, unerring]
        simp

/-! ## Reduce -/

/-- Fold responses into an accumulator, up to the first step that fails. -/
def foldSteps (add : β → NodeResponse α → β × Option Err) (acc : β) :
    List (NodeResponse α) → β × Option Err
  | [] => (acc, none)
  | result :: rest =>
      match add acc result with
      | (acc, some err) => (acc, some err)
      | (acc, none) => foldSteps add acc rest

/-- What `Reduce` reports, from the error of its fold. -/
def reduceErr (n : Nat) (seq : List (NodeResponse α)) :
    Option Err → Option CallError
  | some err => some (.plain err)
  | none =>
      if n ≤ (firstSuccesses seq).length then none
      else some (.quorum ⟨errIncomplete, nodeErrors seq⟩)

section Reduce

variable {add : β → NodeResponse α → β × Option Err} {n : Nat}

theorem foldSteps_cons_of_ok {acc folded : β} {result : NodeResponse α}
    (rest : List (NodeResponse α)) (added : add acc result = (folded, none)) :
    foldSteps add acc (result :: rest) = foldSteps add folded rest := by
  simp [foldSteps, added]

/-- A fold whose steps never fail is a left fold. -/
theorem foldSteps_of_total (total : ∀ acc result, (add acc result).2 = none)
    (acc : β) (steps : List (NodeResponse α)) :
    foldSteps add acc steps =
      (steps.foldl (fun acc result => (add acc result).1) acc, none) := by
  induction steps generalizing acc with
  | nil => rfl
  | cons result rest inductionHypothesis =>
      have added : add acc result = ((add acc result).1, none) :=
        Prod.ext rfl (total acc result)
      rw [foldSteps_cons_of_ok rest added, inductionHypothesis]
      rfl

/-- The first successes that a response and those after it add to a sequence
that is already read. -/
theorem drop_firstSuccesses_of_counts {seq : List (NodeResponse α)}
    {result : NodeResponse α} (counts : countsAfter seq result = true)
    (rest : List (NodeResponse α)) :
    (firstSuccesses (seq ++ result :: rest)).drop (firstSuccesses seq).length =
      result :: (firstSuccesses (seq ++ [result] ++ rest)).drop
        (firstSuccesses (seq ++ [result])).length := by
  have joined : seq ++ result :: rest = seq ++ [result] ++ rest := by simp
  obtain ⟨later, split⟩ := firstSuccesses_begins (seq ++ [result]) rest
  rw [joined, ← split, List.drop_left, firstSuccesses_concat, if_pos counts,
    List.append_assoc, List.drop_left, List.singleton_append]

/-- The loop of `Reduce` after the responses of `seq`, which gave `acc`: it
folds the first successes that follow, up to the threshold. -/
theorem reduceLoop_after (add : β → NodeResponse α → β × Option Err)
    (seq rest : List (NodeResponse α)) (acc : β)
    (below : (firstSuccesses seq).length < n) :
    let steps := ((firstSuccesses (seq ++ rest)).drop
      (firstSuccesses seq).length).take (n - (firstSuccesses seq).length)
    let returned := reduceLoop n add acc (.after seq) rest
    returned.result = (foldSteps add acc steps).1 ∧
      returned.err =
        reduceErr n (seq ++ rest) (foldSteps add acc steps).2 := by
  induction rest generalizing seq acc with
  | nil =>
      have few : ¬ n ≤ (firstSuccesses seq).length := by omega
      simp [reduceLoop, reduceErr, foldSteps, few, NodeTally.incomplete,
        NodeTally.after]
  | cons result rest inductionHypothesis =>
      have joined : seq ++ [result] ++ rest = seq ++ result :: rest := by simp
      by_cases counts : countsAfter seq result = true
      · have length : (firstSuccesses (seq ++ [result])).length =
            (firstSuccesses seq).length + 1 := by
          rw [firstSuccesses_concat, if_pos counts, List.length_append]
          rfl
        obtain ⟨left, leftEq⟩ : ∃ left, n - (firstSuccesses seq).length =
            left + 1 := ⟨n - (firstSuccesses seq).length - 1, by omega⟩
        have counted :
            (NodeTally.after (seq ++ [result])).counted.length =
              (firstSuccesses (seq ++ [result])).length := by
          simp [NodeTally.after]
        dsimp only
        rw [drop_firstSuccesses_of_counts counts, leftEq, List.take_succ_cons,
          reduceLoop, NodeTally.add_after, counts]
        obtain ⟨folded, failed⟩ | ⟨folded, added⟩ :
            (∃ folded, ∃ err, add acc result = (folded, some err)) ∨
              ∃ folded, add acc result = (folded, none) := by
          rcases added : add acc result with ⟨folded, _ | err⟩
          · exact .inr ⟨folded, rfl⟩
          · exact .inl ⟨folded, err, rfl⟩
        · obtain ⟨err, failed⟩ := failed
          simp [foldSteps, failed, reduceErr]
        · rw [foldSteps_cons_of_ok _ added]
          simp only [added]
          by_cases reached : n ≤ (NodeTally.after (seq ++ [result])).counted.length
          · rw [if_pos reached]
            rw [counted, length] at reached
            have none : left = 0 := by omega
            have long : (firstSuccesses (seq ++ [result])).length ≤
                (firstSuccesses (seq ++ result :: rest)).length := by
              rw [← joined]
              exact (firstSuccesses_begins _ rest).length_le
            rw [none, List.take_zero]
            simp only [foldSteps, reduceErr, true_and]
            rw [if_pos (by omega)]
          · rw [if_neg reached]
            rw [counted, length] at reached
            have continued := inductionHypothesis (seq ++ [result]) folded
              (by omega)
            have remaining : n - (firstSuccesses (seq ++ [result])).length =
                left := by omega
            rw [remaining, joined] at continued
            rw [joined]
            exact continued
      · have same : firstSuccesses (seq ++ [result]) = firstSuccesses seq := by
          rw [firstSuccesses_concat, if_neg counts, List.append_nil]
        have continued := inductionHypothesis (seq ++ [result]) acc
          (by rw [same]; exact below)
        rw [same, joined] at continued
        rw [reduceLoop, NodeTally.add_after, Bool.eq_false_iff.mpr counts]
        exact continued

end Reduce

/-! ## Matching -/

/-- The first successes of nodes whose responses have a key. -/
def votes [DecidableEq κ] (key : α → κ) (seq : List (NodeResponse α)) (k : κ) :
    List (NodeResponse α) :=
  (firstSuccesses seq).filter fun result => key result.value = k

section Matching

variable [DecidableEq κ] {key : α → κ} {n : Nat}

theorem votes_concat_of_counts {seq : List (NodeResponse α)}
    {result : NodeResponse α} (counts : countsAfter seq result = true) :
    votes key (seq ++ [result]) =
      Function.update (votes key seq) (key result.value)
        (votes key seq (key result.value) ++ [result]) := by
  funext k
  unfold votes
  rw [firstSuccesses_concat, if_pos counts, List.filter_append]
  by_cases same : k = key result.value
  · subst k
    simp
  · rw [Function.update_of_ne same]
    simp [Ne.symm same]

theorem votes_concat_of_not_counts {seq : List (NodeResponse α)}
    {result : NodeResponse α} (ignored : ¬ countsAfter seq result = true) :
    votes key (seq ++ [result]) = votes key seq := by
  unfold votes
  rw [firstSuccesses_concat, if_neg ignored, List.append_nil]

/-- Where the loop of `Matching` stops on a sequence: at the response that
completes the first bucket of `n` responses. -/
structure Completes (key : α → κ) (n : Nat) (seq : List (NodeResponse α))
    (returned : Returned α (Agreement α)) (front : List (NodeResponse α))
    (last : NodeResponse α) : Prop where
  /-- The responses after the last one are left. -/
  split : seq = front ++ last :: returned.rest
  /-- No bucket was full before. -/
  before : ∀ k, (votes key front k).length < n
  /-- The last response is the first success of its node. -/
  counts : countsAfter front last = true
  /-- The bucket of its key is full with it. -/
  full : (votes key (front ++ [last]) (key last.value)).length = n
  /-- The bucket is returned. -/
  agreement : returned.result =
    ⟨(votes key (front ++ [last]) (key last.value)).head?.map
      NodeResponse.value, votes key (front ++ [last]) (key last.value)⟩
  /-- There is no error. -/
  ok : returned.err = none

/-- The loop of `Matching` after the responses of `seq`. -/
theorem matchingLoop_after (key : α → κ) (seq rest : List (NodeResponse α))
    (before : ∀ k, (votes key seq k).length < n) :
    let returned := matchingLoop n key (.after seq) (votes key seq) rest
    (∃ front last, Completes key n (seq ++ rest) returned front last) ∨
      (∀ k, (votes key (seq ++ rest) k).length < n) ∧
        returned = ⟨{}, some (.quorum ⟨errIncomplete, nodeErrors (seq ++ rest)⟩),
          []⟩ := by
  induction rest generalizing seq with
  | nil =>
      refine .inr ⟨by simpa using before, ?_⟩
      simp [matchingLoop, NodeTally.incomplete, NodeTally.after]
  | cons result rest inductionHypothesis =>
      have joined : seq ++ [result] ++ rest = seq ++ result :: rest := by simp
      dsimp only
      rw [matchingLoop, NodeTally.add_after]
      by_cases counts : countsAfter seq result = true
      · have bucket : votes key (seq ++ [result]) (key result.value) =
            votes key seq (key result.value) ++ [result] := by
          rw [votes_concat_of_counts counts, Function.update_self]
        rw [counts]
        dsimp only
        rw [← bucket]
        by_cases full :
          n ≤ (votes key (seq ++ [result]) (key result.value)).length
        · rw [if_pos full]
          have short := before (key result.value)
          rw [bucket, List.length_append, List.length_singleton] at full
          refine .inl ⟨seq, result, rfl, before, counts, ?_, rfl, rfl⟩
          rw [bucket, List.length_append, List.length_singleton]
          omega
        · rw [if_neg full, bucket, ← votes_concat_of_counts counts]
          have still : ∀ k, (votes key (seq ++ [result]) k).length < n := by
            intro k
            by_cases same : k = key result.value
            · rw [same]
              omega
            · rw [votes_concat_of_counts counts, Function.update_of_ne same]
              exact before k
          have continued := inductionHypothesis (seq ++ [result]) still
          rw [joined] at continued
          exact continued
      · have same : votes key (seq ++ [result]) = votes key seq :=
          votes_concat_of_not_counts counts
        have continued := inductionHypothesis (seq ++ [result])
          (by rw [same]; exact before)
        rw [same, joined] at continued
        rw [Bool.eq_false_iff.mpr counts]
        exact continued

namespace Completes

variable {seq front : List (NodeResponse α)} {last : NodeResponse α}
  {returned : Returned α (Agreement α)}

/-- The bucket of the last response. -/
theorem responses_eq (completes : Completes key n seq returned front last) :
    returned.result.responses =
      votes key front (key last.value) ++ [last] := by
  rw [completes.agreement, votes_concat_of_counts completes.counts,
    Function.update_self]

theorem firstSuccesses_full
    (completes : Completes key n seq returned front last) :
    firstSuccesses front ++ [last] <+: firstSuccesses seq := by
  have start := firstSuccesses_begins (front ++ [last]) returned.rest
  rw [firstSuccesses_concat, if_pos completes.counts, List.append_assoc,
    List.singleton_append, ← completes.split] at start
  exact start

/-- The bucket that is returned is filled by the first responses with its
key. -/
theorem responses_eq_take
    (completes : Completes key n seq returned front last) :
    returned.result.responses =
      (votes key seq (key last.value)).take n := by
  obtain ⟨later, split⟩ := completes.firstSuccesses_full
  have full := completes.full
  have equal := completes.responses_eq
  rw [votes_concat_of_counts completes.counts, Function.update_self] at full
  have begins : votes key seq (key last.value) =
      votes key front (key last.value) ++ [last] ++
        later.filter fun result => key result.value = key last.value := by
    unfold votes
    rw [← split, List.filter_append, List.filter_append]
    simp
  rw [equal, begins, ← full, List.take_left]

/-- No other key has as many responses sooner. -/
theorem earliest (completes : Completes key n seq returned front last)
    {start : List (NodeResponse α)} (begins : start <+: firstSuccesses seq)
    {other : κ}
    (many : n ≤ start.countP fun result => key result.value = other) :
    n ≤ start.countP fun result => key result.value = key last.value := by
  have full : (firstSuccesses front ++ [last]).countP
      (fun result => key result.value = key last.value) = n := by
    rw [List.countP_eq_length_filter, List.filter_append, ← completes.full,
      votes_concat_of_counts completes.counts, Function.update_self]
    simp [votes]
  have reached : firstSuccesses front ++ [last] <+: start := by
    rcases List.prefix_or_prefix_of_prefix completes.firstSuccesses_full begins
      with ready | early
    · exact ready
    · rcases List.prefix_concat_iff.mp early with equal | short
      · rw [equal]
      · have few := completes.before other
        have fewer := short.sublist.countP_le
          (p := fun result => decide (key result.value = other))
        rw [votes, ← List.countP_eq_length_filter] at few
        omega
  calc n = _ := full.symm
    _ ≤ _ := reached.sublist.countP_le

end Completes

/-- `Matching` returns the earliest agreement on the first successes of the
nodes, and reads nothing after it; without one, it reports the errors of all
nodes. -/
theorem matching_earliest (seq : List (NodeResponse α)) (key : α → κ)
    (positive : 1 ≤ n) :
    let firsts := firstSuccesses seq
    let returned := Responses.matching { seq := seq } n key
    (returned.err = none ↔
        ∃ k, n ≤ firsts.countP fun result => key result.value = k) ∧
      (returned.err = none → ∃ k front first last,
        (∀ start, start <+: firsts → ∀ other,
          n ≤ start.countP (fun result => key result.value = other) →
            n ≤ start.countP fun result => key result.value = k) ∧
        returned.result.responses =
          (firsts.filter fun result => key result.value = k).take n ∧
        returned.result.responses.length = n ∧
        (returned.result.responses.map NodeResponse.nodeID).Nodup ∧
        returned.result.responses.head? = some first ∧
        returned.result.value = some first.value ∧
        seq = front ++ last :: returned.rest ∧
        returned.result.responses =
          ((firstSuccesses front).filter fun result => key result.value = k) ++
            [last]) ∧
      (returned.err ≠ none → returned =
        ⟨{}, some (.quorum ⟨errIncomplete, nodeErrors seq⟩), []⟩) := by
  dsimp only
  have outcome := matchingLoop_after key [] seq
    (fun _ => positive)
  change (∃ front last, Completes key n seq
      (Responses.matching { seq := seq } n key) front last) ∨ _ ∧
    Responses.matching { seq := seq } n key = _ at outcome
  rcases outcome with ⟨front, last, completes⟩ | ⟨few, incomplete⟩
  · have taken := completes.responses_eq_take
    have length : (Responses.matching { seq := seq } n
        key).result.responses.length = n := by
      rw [completes.agreement]
      exact completes.full
    have many : n ≤ (firstSuccesses seq).countP
        fun result => key result.value = key last.value := by
      rw [List.countP_eq_length_filter]
      rw [taken, List.length_take] at length
      exact le_of_inf_eq length
    obtain ⟨first, others, begins⟩ :=
      List.exists_cons_of_length_pos (positive.trans_eq length.symm)
    refine ⟨⟨fun _ => ⟨_, many⟩, fun _ => completes.ok⟩, fun _ =>
      ⟨key last.value, front, first, last, ?_, taken, length, ?_, ?_, ?_,
        completes.split, completes.responses_eq⟩,
      fun failed => absurd completes.ok failed⟩
    · exact fun start begins other => completes.earliest begins
    · rw [taken]
      refine List.Nodup.sublist (List.Sublist.map _ ?_)
        (nodup_firstSuccesses seq)
      exact (List.take_sublist _ _).trans List.filter_sublist
    · rw [begins]
      rfl
    · rw [completes.agreement] at begins ⊢
      dsimp only at begins ⊢
      rw [begins]
      rfl
  · have failed : (Responses.matching { seq := seq } n key).err ≠ none := by
      rw [incomplete]
      simp
    refine ⟨⟨fun ok => absurd ok failed, ?_⟩, fun ok => absurd ok failed,
      fun _ => incomplete⟩
    rintro ⟨k, many⟩
    have short := few k
    rw [List.nil_append, votes, ← List.countP_eq_length_filter] at short
    omega

/-- Two nodes agree on a value after a third has failed, and one of them
repeats. -/
def agreeing : List (NodeResponse Nat) :=
  [⟨1, 7, none⟩, ⟨3, 0, some errIncomplete⟩, ⟨1, 7, none⟩, ⟨2, 7, none⟩,
    ⟨4, 7, none⟩]

theorem matching_earliest_agreeing :
    (Responses.matching { seq := agreeing } 2 id).err = none ∧
      ∃ k, 2 ≤ (firstSuccesses agreeing).countP fun result =>
        id result.value = k :=
  have agreed : (Responses.matching { seq := agreeing } 2 id).err = none := by
    decide
  ⟨agreed, (matching_earliest agreeing id (by decide)).1.mp agreed⟩

end Matching

end Quorum
end Gorums
