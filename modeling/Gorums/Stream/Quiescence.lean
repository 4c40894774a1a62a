import Gorums.Stream.ExactlyOnce

/-!
# A closed channel stays quiet

Once `Close` has returned on an outbound channel, the channel's run loop and the
goroutines of its streams have exited.  Whatever its users still do, it opens no
stream, queues no request, and sends nothing.
-/

namespace Gorums
namespace Stream

open Pool

variable {config : Config} {workload : Workload}
  {allowed : ChannelState → Step → Prop} {state later : ChannelState}

/-- Whoever opens a stream or sends is waited for by `Close`. -/
theorem unwaited_exec {shared : Shared} {op : Op} {choice : Choice}
    {outcome : Effect}
    (unwaited : .waited ∉ op.roles) (closed : shared.closeOnce = .done)
    (executed : exec config shared op choice = some outcome) :
    outcome.shared.closeOnce = .done ∧
      outcome.shared.opened = shared.opened ∧
      outcome.shared.history.sends = shared.history.sends := by
  have book : outcome.shared.closeOnce = .done ∧
      outcome.shared.opened = shared.opened := by
    cases book_exec executed with
    | opened backoff req running equal =>
        simp [running, Op.roles] at unwaited
    | closing running fresh equal => cases closed.symm.trans fresh
    | closed running equal =>
        exact ⟨congrArg Book.closeOnce equal, congrArg Book.opened equal⟩
    | _ =>
        rename_i equal
        exact ⟨(congrArg Book.closeOnce equal).trans closed,
          congrArg Book.opened equal⟩
  refine ⟨book.1, book.2, ?_⟩
  cases history_exec executed with
  | sending k back req running equal => simp [running, Op.roles] at unwaited
  | accepting running equal =>
      simp [running, Op.roles, InboundOp.roles] at unwaited
  | _ =>
      rename_i equal
      rw [equal]

/-- Once `Close` has returned, no goroutine of the channel is left, the queue
and the tables are closed and empty, and the channel never opens a stream or
sends again. -/
theorem closed_stays_quiet (outbound : config.kind = .outbound)
    (reached : config.Reaches workload allowed state)
    (closed : state.shared.closeOnce = .done)
    (continued : (channel config).Reach allowed state later) :
    (∀ op ∈ later.ops, .waited ∉ op.roles) ∧ later.shared.queue.Shut ∧
      (∀ k < later.shared.opened,
        (later.shared.session k).pending.reqs = []) ∧
      later.shared.opened = state.shared.opened ∧
      later.shared.history.sends = state.shared.history.sends := by
  have unwaited : ∀ {state : ChannelState},
      config.Reaches workload allowed state →
      state.shared.closeOnce = .done → ∀ op ∈ state.ops, .waited ∉ op.roles :=
    fun reached closed => not_mem_roles .waited (by simp) reached
      ((closedDown_reached reached).1.waited closed outbound)
  obtain ⟨still, opened, sends⟩ := continued.invariant
    (fun later => later.shared.closeOnce = .done ∧
      later.shared.opened = state.shared.opened ∧
      later.shared.history.sends = state.shared.history.sends)
    ⟨closed, rfl, rfl⟩ (by
      intro before label after continued ⟨closed, opened, sends⟩ _ stepped
      rcases Machine.step_cases stepped with
        ⟨thread, choice, _, ⟨runs⟩⟩ | ⟨event, shared, _, acted, rfl⟩
      · obtain ⟨still, same, quiet⟩ := unwaited_exec
          (unwaited (reached.trans continued) closed _ runs.op_mem) closed
          runs.exec_eq
        rw [runs.next_shared]
        exact ⟨still, same.trans opened, quiet.trans sends⟩
      · have book := (frame_environment acted).2.1
        obtain ⟨_, _, history⟩ := history_environment acted
        exact ⟨(congrArg Book.closeOnce book).trans closed,
          (congrArg Book.opened book).trans opened, by simp [history, sends]⟩)
  have after := reached.trans continued
  have idle := (closedDown_reached after).1.waited still outbound
  exact ⟨unwaited after still, (closedDown_reached after).1.queue still,
    (empty_of_idle after idle).2, opened, sends⟩

/-- A channel is closed before a call is made on it. -/
def lateCall : Workload where
  users := [[.close], [.enqueue soleCall]]
  calls := by decide
  distinct := by decide

/-- `Close` returns. -/
def lateClose : List Step :=
  Step.first 1 1 ++ Step.first 3 3 ++ [.env (.propagate 0)] ++ Step.first 0 4 ++
    Step.first 3 2

theorem lateClose_followed :
    (smallOutbound.follow lateCall lateClose).isSome = true := by
  decide +kernel

/-- The channel after `Close` has returned. -/
def lateClosed : ChannelState :=
  (smallOutbound.follow lateCall lateClose).get lateClose_followed

theorem lateEnqueue_followed :
    ((channel smallOutbound).follow (fun _ _ => true) lateClosed
      (Step.first 2 7)).isSome = true := by
  decide +kernel

/-- The call of `Enqueue` returns, and nothing is sent. -/
theorem closed_stays_quiet_late :
    ∃ later : ChannelState, soleCall ∈ later.shared.history.returned ∧
      later.shared.history.sends = lateClosed.shared.history.sends := by
  refine ⟨_, ?_, (closed_stays_quiet rfl (Config.reaches_of_follow lateClose_followed)
    (by decide +kernel) (Machine.reach_of_isSome (fun _ _ _ => trivial)
      lateEnqueue_followed)).2.2.2.2⟩
  decide +kernel

end Stream
end Gorums
