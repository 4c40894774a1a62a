import Gorums.Quorum.Correctable

/-!
# Terminals on single-reply sequences

`Threshold`, `Reduce` and `Correctable` are three loops with different
variables.  On a sequence in which every node occurs at most once they run in
lockstep, so they stop at the same response or report the same errors.
-/

namespace Gorums
namespace Quorum

open Gorums.Stream

variable {α β : Type}

/-- The loop of the goroutine of a correctable call over a whole sequence: the
call after it, and the responses that it leaves. -/
def correctableLoop (threshold : Nat) (loop : Corrector α)
    (shared : CorrectableShared α) :
    List (NodeResponse α) → CorrectableShared α × List (NodeResponse α)
  | [] => (shared.update loop.finish, [])
  | result :: rest =>
      match loop.receive threshold result with
      | (loop, none) => correctableLoop threshold loop shared rest
      | (loop, some update) =>
          if update.done then (shared.update update, rest)
          else correctableLoop threshold loop (shared.update update) rest

/-- `Responses.Correctable`, for a positive threshold, when its goroutine has
returned. -/
def Responses.correctable (responses : Responses α) (threshold : Nat) :
    Returned α (Correctable α) :=
  match responses.err with
  | some err =>
      let corr := (CorrectableShared.update ({} : CorrectableShared α)
        ⟨none, levelNotSet, true, some (.plain err)⟩).corr
      ⟨corr, corr.err, responses.seq⟩
  | none =>
      let (shared, rest) := correctableLoop threshold {} {} responses.seq
      ⟨shared.corr, shared.corr.err, rest⟩

/-- The variables of the three loops agree. -/
structure Lockstep (loop : Loop α) (tally : NodeTally)
    (corrector : Corrector α) : Prop where
  /-- `Reduce` has counted as many nodes as `Threshold` responses. -/
  counted : tally.counted.length = loop.count
  /-- `Correctable` has counted as many responses. -/
  count : corrector.count = loop.count
  /-- `Reduce` has recorded the same errors. -/
  tallied : tally.errs = loop.errs
  /-- `Correctable` has recorded the same errors. -/
  errs : corrector.errs = loop.errs

/-- What the three loops have in common when they return. -/
inductive SameEnd (n : Nat) (rest : List (NodeResponse α))
    (threshold : Result α × List (NodeResponse α)) (reduce : Returned α β)
    (correctable : CorrectableShared α × List (NodeResponse α)) : Prop
  /-- All of them succeed at the same response. -/
  | succeeded (front : List (NodeResponse α)) (last : NodeResponse α)
      (split : rest = front ++ last :: threshold.2)
      (reduceRest : reduce.rest = threshold.2)
      (correctableRest : correctable.2 = threshold.2)
      (thresholdErr : threshold.1.err = none)
      (reduceErr : reduce.err = none)
      (correctableErr : correctable.1.corr.err = none)
      (reply : correctable.1.corr.reply = some last.value)
      (level : correctable.1.corr.level = n)
      (done : correctable.1.corr.done = true)
  /-- All of them report the same errors. -/
  | incomplete (errs : List NodeError)
      (thresholdRest : threshold.2 = [])
      (reduceRest : reduce.rest = [])
      (correctableRest : correctable.2 = [])
      (thresholdErr : threshold.1.err = some ⟨errIncomplete, errs⟩)
      (reduceErr : reduce.err = some (.quorum ⟨errIncomplete, errs⟩))
      (correctableErr : correctable.1.corr.err =
        some (.quorum ⟨errIncomplete, errs⟩))
      (done : correctable.1.corr.done = true)

section Lockstep

variable {n : Nat} {add : β → NodeResponse α → β × Option Err}

/-- The end of the loops on the rest of a sequence is their end on all of it. -/
theorem SameEnd.cons {rest : List (NodeResponse α)}
    {threshold : Result α × List (NodeResponse α)} {reduce : Returned α β}
    {correctable : CorrectableShared α × List (NodeResponse α)}
    (result : NodeResponse α)
    (same : SameEnd n rest threshold reduce correctable) :
    SameEnd n (result :: rest) threshold reduce correctable := by
  cases same with
  | succeeded front last split reduceRest correctableRest thresholdErr reduceErr
      correctableErr reply level done =>
      exact .succeeded (result :: front) last (by rw [split, List.cons_append])
        reduceRest correctableRest thresholdErr reduceErr correctableErr reply
        level done
  | incomplete errs thresholdRest reduceRest correctableRest thresholdErr
      reduceErr correctableErr done =>
      exact .incomplete errs thresholdRest reduceRest correctableRest
        thresholdErr reduceErr correctableErr done

/-- An update that completes the call with a response. -/
theorem update_of_reaching {shared : CorrectableShared α}
    (undone : shared.corr.done = false) (value : α) :
    let corr := (shared.update ⟨some value, n, true, none⟩).corr
    corr.err = none ∧ corr.reply = some value ∧ corr.level = n := by
  refine ⟨?_, ?_, update_level undone⟩
  · simp [CorrectableShared.update, CorrectableShared.close, undone]
  · simp [CorrectableShared.update, CorrectableShared.close, undone]

/-- The three loops run in lockstep over responses of nodes that have not been
counted. -/
theorem same_end (total : ∀ acc result, (add acc result).2 = none)
    (rest : List (NodeResponse α))
    (single : (rest.map NodeResponse.nodeID).Nodup)
    {loop : Loop α} {tally : NodeTally} {corrector : Corrector α}
    (fresh : ∀ result ∈ rest, result.nodeID ∉ tally.counted)
    (lockstep : Lockstep loop tally corrector) (below : loop.count < n)
    (acc : β) {shared : CorrectableShared α}
    (undone : shared.corr.done = false) :
    SameEnd n rest (Loop.run n loop rest) (reduceLoop n add acc tally rest)
      (correctableLoop n corrector shared rest) := by
  induction rest generalizing loop tally corrector acc shared with
  | nil =>
      refine .incomplete loop.errs rfl rfl rfl rfl ?_ ?_ ?_
      · simp [reduceLoop, NodeTally.incomplete, lockstep.tallied]
      · simp [correctableLoop, CorrectableShared.update, undone,
          Corrector.finish, CorrectableShared.close, lockstep.errs]
      · exact update_done undone
  | cons result rest inductionHypothesis =>
      have unseen := fresh result (by simp)
      have later : ∀ other ∈ rest, other.nodeID ≠ result.nodeID := by
        intro other member same
        rw [List.map_cons, List.nodup_cons] at single
        exact single.1 (same ▸ List.mem_map_of_mem member)
      have singleRest : (rest.map NodeResponse.nodeID).Nodup :=
        (List.nodup_cons.mp single).2
      have freshRest : ∀ other ∈ rest, other.nodeID ∉ tally.counted :=
        fun other member => fresh other (by simp [member])
      cases error : result.err with
      | some err =>
          by_cases skipped : isErr errSkipNode err = true
          · have same := inductionHypothesis singleRest freshRest lockstep below
              acc undone
            simpa [Loop.run, Loop.reaches, Loop.next, reduceLoop, NodeTally.add,
              correctableLoop, Corrector.receive, error, skipped]
              using same.cons result
          · have recorded : Lockstep
                { loop with errs := loop.errs ++ [⟨result.nodeID, err⟩] }
                { tally with errs := tally.errs ++ [⟨result.nodeID, err⟩] }
                { corrector with
                  errs := corrector.errs ++ [⟨result.nodeID, err⟩] } :=
              ⟨lockstep.counted, lockstep.count,
                congrArg (· ++ _) lockstep.tallied,
                congrArg (· ++ _) lockstep.errs⟩
            have unrecorded : ∀ other ∈ rest, other.nodeID ∉ NodeTally.counted
                { tally with errs := tally.errs ++ [⟨result.nodeID, err⟩] } :=
              freshRest
            have same := inductionHypothesis singleRest unrecorded recorded
              below acc undone
            simpa [Loop.run, Loop.reaches, Loop.next, reduceLoop, NodeTally.add,
              correctableLoop, Corrector.receive, error, skipped]
              using same.cons result
      | none =>
          obtain ⟨folded, added⟩ : ∃ folded, add acc result = (folded, none) :=
            ⟨(add acc result).1, Prod.ext rfl (total acc result)⟩
          have more : (tally.counted ++ [result.nodeID]).length =
              loop.count + 1 := by
            rw [List.length_append, lockstep.counted]
            rfl
          by_cases reached : n ≤ loop.count + 1
          · have level : ((corrector.count + 1 : Nat) : Int) = n := by
              rw [lockstep.count]
              omega
            have updated := update_of_reaching (n := n) undone result.value
            have threshold : Loop.run n loop (result :: rest) =
                ((loop.next result).reached, rest) := by
              simp [Loop.run, Loop.reaches, error, reached]
            have reduce : reduceLoop n add acc tally (result :: rest) =
                ⟨folded, none, rest⟩ := by
              rw [reduceLoop, error, NodeTally.add, if_neg unseen]
              simp only [added]
              rw [if_pos (by omega)]
            have correctable : correctableLoop n corrector shared
                (result :: rest) =
                  (shared.update ⟨some result.value, n, true, none⟩, rest) := by
              rw [correctableLoop, corrector.receive_of_succeeded error]
              dsimp only
              rw [level, lockstep.count, decide_eq_true reached, if_pos rfl]
            rw [threshold, reduce, correctable]
            exact .succeeded [] result rfl rfl rfl rfl rfl updated.1 updated.2.1
              updated.2.2 (update_done undone)
          · have counted : Lockstep (loop.next result)
                { tally with counted := tally.counted ++ [result.nodeID] }
                ⟨some result.value, corrector.count + 1, corrector.errs⟩ := by
              refine ⟨?_, ?_, ?_, ?_⟩
              · rw [more, Loop.next, error]
              · rw [Loop.next, error, lockstep.count]
              · rw [Loop.next, error]
                exact lockstep.tallied
              · rw [Loop.next, error]
                exact lockstep.errs
            have freshLater : ∀ other ∈ rest,
                other.nodeID ∉ tally.counted ++ [result.nodeID] := by
              intro other member inside
              rcases List.mem_append.mp inside with before | last
              · exact freshRest other member before
              · exact later other member (List.mem_singleton.mp last)
            have stillBelow : (loop.next result).count < n := by
              rw [Loop.next, error]
              dsimp only
              omega
            have stillUndone : (shared.update ⟨some result.value,
                (corrector.count + 1 : Nat), false, none⟩).corr.done = false :=
              update_done undone
            have same := inductionHypothesis singleRest freshLater counted
              stillBelow folded stillUndone
            have threshold : Loop.run n loop (result :: rest) =
                Loop.run n (loop.next result) rest := by
              simp [Loop.run, Loop.reaches, reached]
            have reduce : reduceLoop n add acc tally (result :: rest) =
                reduceLoop n add folded
                  { tally with counted := tally.counted ++ [result.nodeID] }
                  rest := by
              rw [reduceLoop, error, NodeTally.add, if_neg unseen]
              simp only [added]
              rw [if_neg (by omega)]
            have correctable : correctableLoop n corrector shared
                (result :: rest) =
                  correctableLoop n
                    ⟨some result.value, corrector.count + 1, corrector.errs⟩
                    (shared.update ⟨some result.value,
                      (corrector.count + 1 : Nat), false, none⟩) rest := by
              rw [correctableLoop, corrector.receive_of_succeeded error]
              dsimp only
              rw [lockstep.count, decide_eq_false reached, if_neg (by simp)]
            rw [threshold, reduce, correctable]
            exact same.cons result

/-- The successes up to a response that reaches the threshold. -/
theorem take_successes {seq front rest : List (NodeResponse α)}
    {last : NodeResponse α} (split : seq = front ++ last :: rest)
    (succeeded : last.err = none) (count : (successes front).length + 1 = n) :
    (successes seq).take n = successes front ++ [last] := by
  have sole : successes (last :: rest) = last :: successes rest := by
    simp [successes, succeeded]
  rw [split, successes_append, sole, ← count, List.append_cons]
  exact List.take_left' (by simp)

/-- A split of a sequence at a response is given by what follows it. -/
theorem split_unique {front front' rest : List (NodeResponse α)}
    {last last' : NodeResponse α}
    (same : front ++ last :: rest = front' ++ last' :: rest) :
    front = front' ∧ last = last' := by
  rw [List.append_cons, List.append_cons front'] at same
  have ends := List.append_cancel_right same
  exact ⟨(List.append_inj' ends rfl).1,
    (List.cons.inj (List.append_inj' ends rfl).2).1⟩

/-- In a sequence of single replies, every success is the first of its node. -/
theorem firstSuccesses_eq_successes {seq : List (NodeResponse α)}
    (single : (seq.map NodeResponse.nodeID).Nodup) :
    firstSuccesses seq = successes seq := by
  induction seq with
  | nil => rfl
  | cons result rest inductionHypothesis =>
      obtain ⟨unseen, singleRest⟩ := List.nodup_cons.mp single
      have kept : (successes rest).filter (fun later =>
          later.nodeID ≠ result.nodeID) = successes rest := by
        apply List.filter_eq_self.mpr
        intro later member
        have inside : later.nodeID ∈ rest.map NodeResponse.nodeID :=
          List.mem_map_of_mem (List.mem_of_mem_filter member)
        apply decide_eq_true
        intro same
        rw [same] at inside
        exact unseen inside
      rw [firstSuccesses, inductionHypothesis singleRest, kept]
      cases error : result.err <;> simp [successes, error]

/-- `Threshold`, `Reduce` with a function that does not fail and `Correctable`
agree on sequences of single replies.  On any sequence, `Reduce` folds the first
successes of the nodes up to its threshold or the first step that fails. -/
theorem terminals_agree (seq : List (NodeResponse α)) (positive : 1 ≤ n)
    (initial : β) (add : β → NodeResponse α → β × Option Err) :
    let threshold := Responses.threshold { seq := seq } n
    let reduce := Responses.reduce { seq := seq } n initial add
    let correctable := Responses.correctable { seq := seq } n
    ((seq.map NodeResponse.nodeID).Nodup →
      (∀ acc result, (add acc result).2 = none) →
      (threshold.err = none ∧ reduce.err = none ∧ correctable.err = none ∧
          reduce.rest = threshold.rest ∧ correctable.rest = threshold.rest ∧
          ((successes seq).take n).length = n ∧
          reduce.result = ((successes seq).take n).foldl
            (fun acc result => (add acc result).1) initial ∧
          threshold.result =
            ((successes seq).take n).head?.map NodeResponse.value ∧
          correctable.result.reply =
            ((successes seq).take n).getLast?.map NodeResponse.value ∧
          correctable.result.level = n ∧ correctable.result.done = true) ∨
        (∃ err, err = CallError.quorum ⟨errIncomplete, nodeErrors seq⟩ ∧
          threshold.err = some err ∧ reduce.err = some err ∧
          correctable.err = some err ∧ correctable.result.done = true ∧
          threshold.rest = [] ∧ reduce.rest = [] ∧ correctable.rest = [])) ∧
      reduce.result =
        (foldSteps add initial ((firstSuccesses seq).take n)).1 ∧
      reduce.err = reduceErr n seq
        (foldSteps add initial ((firstSuccesses seq).take n)).2 := by
  dsimp only
  have folded := reduceLoop_after add [] seq initial positive
  simp only [List.nil_append, firstSuccesses, List.length_nil, List.drop_zero,
    Nat.sub_zero] at folded
  refine ⟨fun single total => ?_, folded⟩
  have lockstep : Lockstep ({} : Loop α) {} ({} : Corrector α) :=
    ⟨rfl, rfl, rfl, rfl⟩
  have undone : ({} : CorrectableShared α).corr.done = false := rfl
  have same := same_end (n := n) total seq single
    (fun result _ => List.not_mem_nil) lockstep positive initial undone
  have ran : Loop.run n (.after []) seq = Loop.run n {} seq := rfl
  have outcome := Loop.run_after [] seq positive
  simp only [ran, List.nil_append] at outcome
  cases same with
  | succeeded front last split reduceRest correctableRest thresholdErr reduceErr
      correctableErr reply level done =>
      rcases outcome with
        ⟨front', last', split', succeeded, count, stopped⟩ | ⟨_, ended⟩
      · obtain ⟨rfl, rfl⟩ := split_unique (split.symm.trans split')
        have taken := take_successes split' succeeded count
        have steps := firstSuccesses_eq_successes single
        refine .inl ⟨?_, reduceErr, correctableErr, reduceRest, correctableRest,
          ?_, ?_, ?_, ?_, level, done⟩
        · exact congrArg (Option.map CallError.quorum) thresholdErr
        · rw [taken, List.length_append, List.length_singleton, count]
        · refine folded.1.trans ?_
          rw [steps, foldSteps_of_total total]
        · refine (congrArg Result.resp stopped).trans ?_
          rw [taken, Loop.reached, Loop.after, successes_append]
          simp [successes, succeeded]
        · refine reply.trans ?_
          rw [taken, List.getLast?_concat, Option.map_some]
      · rw [ended] at thresholdErr
        cases thresholdErr
  | incomplete errs thresholdRest reduceRest correctableRest thresholdErr
      reduceErr correctableErr done =>
      rcases outcome with ⟨_, _, _, _, _, stopped⟩ | ⟨_, ended⟩
      · rw [stopped] at thresholdErr
        cases thresholdErr
      · have listed : errs = nodeErrors seq := by
          rw [ended] at thresholdErr
          cases thresholdErr
          rfl
        subst errs
        refine .inr ⟨_, rfl, ?_, reduceErr, correctableErr, done, thresholdRest,
          reduceRest, correctableRest⟩
        exact congrArg (Option.map CallError.quorum) thresholdErr

/-- Three single replies, of which one is an error. -/
def singleReplies : List (NodeResponse Nat) :=
  [⟨1, 5, none⟩, ⟨2, 0, some errIncomplete⟩, ⟨3, 7, none⟩]

/-- The sum of the values of responses. -/
def sumValues (acc : Nat) (result : NodeResponse Nat) : Nat × Option Err :=
  (acc + result.value, none)

theorem terminals_agree_two :
    (Responses.reduce { seq := singleReplies } 2 0 sumValues).rest =
        (Responses.threshold { seq := singleReplies } 2).rest ∧
      (Responses.reduce { seq := singleReplies } 2 0 sumValues).result = 12 := by
  obtain ⟨agree, result, _⟩ :=
    terminals_agree (n := 2) singleReplies (by decide) 0 sumValues
  refine ⟨?_, result.trans (by decide)⟩
  rcases agree (by decide) (fun _ _ => rfl) with
    ⟨_, _, _, same, _⟩ | ⟨_, _, _, _, _, _, none, none', _⟩
  · exact same
  · exact none'.trans none.symm

end Lockstep

end Quorum
end Gorums
