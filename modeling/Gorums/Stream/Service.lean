import Gorums.Stream.HandlerReplies

/-!
# Operations that serve

Most operations serve the goroutines that run a channel: pushes and deliveries,
expiry watches, the dispatcher, and closing down.  They leave only operations of
their kind, so what a send loop, a receive goroutine or the run loop relies on
has to be established only where one of these leaves an operation.
-/

namespace Gorums
namespace Stream

/-- Whether an operation belongs neither to the send loop or the receive
goroutine of a session, nor to the run loop or the send goroutine of an inbound
channel, and does not touch the last error. -/
def Op.service : Op → Bool
  | .send _ _ _ => false
  | .recv _ _ => false
  | .run _ => false
  | .inbound _ => false
  | .session _ .healthLoad => false
  | .session _ .healthClear => false
  | .session _ (.healthSet _) => false
  | _ => true

/-- Every operation that comes out of a step has a property. -/
def Fresh (property : Op → Prop) (outcome : Effect) : Prop :=
  (∀ op ∈ outcome.next, property op) ∧
    ∀ thread ∈ outcome.spawned, ∀ op ∈ thread, property op

theorem Fresh.mono {property other : Op → Prop} {outcome : Effect}
    (weaker : ∀ op, property op → other op) (fresh : Fresh property outcome) :
    Fresh other outcome :=
  ⟨fun op member => weaker op (fresh.1 op member),
    fun thread inside op member => weaker op (fresh.2 thread inside op member)⟩

/-- Every operation that comes out of a step is one of its next operations or
one of a goroutine that it starts. -/
theorem Fresh.of_mem {property : Op → Prop} {outcome : Effect} {op : Op}
    (fresh : Fresh property outcome)
    (member : op ∈ outcome.next ++ outcome.spawned.flatten) : property op := by
  rcases List.mem_append.mp member with following | spawned
  · exact fresh.1 op following
  · obtain ⟨thread, inside, held⟩ := List.mem_flatten.mp spawned
    exact fresh.2 thread inside op held

section Service

variable {config : Config} {shared : Shared} {outcome : Effect}

/-- Such operations leave only such operations. -/
theorem service_exec {op : Op} {choice : Choice} (service : op.service = true)
    (executed : exec config shared op choice = some outcome) :
    Fresh (fun op => op.service = true) outcome := by
  have does := exec_does executed
  clear executed
  cases does with
  | send | recv | run => cases service
  | acceptHeader | noHeader | acceptCtx | acceptFrame | left | inboundCancel =>
      cases service
  | session _ does =>
      cases does
      all_goals simp [Fresh, drainCalls]
      all_goals simp_all [Op.service]
  | queue does => cases does <;> simp +contextual [Fresh, Op.service]
  | _ =>
      simp [Fresh, liftDispatch, reply, exited, drainCalls, or_imp,
        forall_and] <;>
        simp [Op.service]

end Service

end Stream
end Gorums
