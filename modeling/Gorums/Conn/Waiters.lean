import Gorums.Conn.InboundManager
import Gorums.Pool.Ledger

/-!
# Waiting for a configuration

`waitForConfig` checks a condition on the views of an `InboundManager` under the
read lock and takes the broadcast channel there; it then blocks until the
channel is closed.  `rebuildConfig` replaces the views and the channel, and
closes the old channel, under the write lock.  So a waiter that blocks on a
channel that is still open has seen the views that are current.
-/

namespace Gorums
namespace Conn

open Gorums.Stream

/-! ## Views and rebuilds -/

/-- The views that a manager derives. -/
structure Views where
  /-- The known peers with an inbound stream. -/
  inboundPeers : Config
  /-- The clients. -/
  connectedClients : Config
  /-- The peers that can carry calls. -/
  connectedPeers : Config
  deriving DecidableEq

/-- The current views. -/
def InboundManager.views (manager : InboundManager) : Views :=
  ⟨manager.inboundPeers, manager.connectedClients, manager.connectedPeers⟩

/-- Whether accepting a stream rebuilds the views: the stream is attached to a
known peer or to a new client. -/
def InboundManager.acceptRebuilds (server : Server) (manager : InboundManager)
    (context : StreamContext) : Bool :=
  (server.refuses context).isNone &&
    (server.isKnown (nodeID context) ||
      nodeID context == 0 && hasPeerMetadata context &&
        manager.nextAvailableClientID.1.isSome)

/-- Whether the cleanup function of a stream rebuilds the views: it detaches the
last live channel of its node. -/
def InboundManager.cleanupRebuilds (manager : InboundManager) (channel : Nat) :
    Bool :=
  match (manager.accepted[channel]?).map Accepted.tracking with
  | some (.peer id) =>
      (manager.knownPeer id).any fun node => (node.detach channel).2
  | some (.client node) =>
      (manager.clientNodes.find? fun other => other.node.id = node.id).any
        fun node => (node.detach channel).2
  | _ => false

/-- Whether an event calls `rebuildConfig`. -/
def Event.rebuilds (server : Server) (manager : InboundManager) : Event → Bool
  | .accept context _ => manager.acceptRebuilds server context
  | .cleanup channel _ => manager.cleanupRebuilds channel
  | .setPeerConfig _ _ => true
  | .streamChange _ => false
  | .onStreamChange _ => true

section Views

variable {server : Server} {manager next : InboundManager}

theorem views_acceptPeer {context : StreamContext} {changes : List (List Nat)}
    (kept : manager.acceptRebuilds server context = false) :
    (manager.acceptPeer server changes context).1.views = manager.views := by
  unfold InboundManager.acceptRebuilds at kept
  unfold InboundManager.acceptPeer
  cases accepted : server.refuses context with
  | some err => rfl
  | none =>
      dsimp only
      split_ifs with known nonzero metadata
      · simp [accepted, known] at kept
      · rfl
      · have zero : nodeID context = 0 := not_not.mp nonzero
        have exhausted : manager.nextAvailableClientID.1 = none := by
          simp [accepted, zero, metadata] at kept
          exact kept.2
        unfold InboundManager.acceptClient
        split
        · rfl
        · rename_i found
          rw [found] at exhausted
          cases exhausted
      · rfl

theorem views_cleanup {channel : Nat} {changes : List (List Nat)}
    (kept : manager.cleanupRebuilds channel = false)
    (stepped : manager.cleanup server changes channel = some next) :
    next.views = manager.views := by
  unfold InboundManager.cleanupRebuilds at kept
  obtain ⟨accepted, found, rfl⟩ := Option.map_eq_some_iff.mp stepped
  rw [found, Option.map_some] at kept
  cases tracked : accepted.tracking with
  | peer id =>
      rw [tracked] at kept
      refine (congrArg InboundManager.views
        (if_neg (Bool.eq_false_iff.mp kept))).trans ?_
      rfl
  | client node =>
      rw [tracked] at kept
      refine (congrArg InboundManager.views
        (if_neg (Bool.eq_false_iff.mp kept))).trans ?_
      rfl
  | untracked => rfl

/-- Only a rebuild changes the views. -/
theorem views_step {event : Event} (kept : event.rebuilds server manager = false)
    (stepped : manager.step server event = some next) :
    next.views = manager.views := by
  cases event with
  | accept context changes =>
      cases stepped
      exact views_acceptPeer kept
  | cleanup channel changes => exact views_cleanup kept stepped
  | setPeerConfig config changes => cases kept
  | streamChange ref =>
      cases stepped
      rfl
  | onStreamChange changes => cases kept

end Views

/-! ## The machine of the waiters -/

/-- `ErrStopped`. -/
def errStopped : Err := .named "server stopped"

/-- A call to `waitForConfig`. -/
structure Wait where
  /-- The condition on the views. -/
  cond : Views → Bool
  /-- Which context the call has. -/
  ctx : Nat

/-- `WaitForPeers`. -/
def waitForPeers (ctx : Nat) (cond : Config → Bool) : Wait :=
  ⟨fun views => cond views.connectedPeers, ctx⟩

/-- `WaitForClients`. -/
def waitForClients (ctx : Nat) (cond : Config → Bool) : Wait :=
  ⟨fun views => cond views.connectedClients, ctx⟩

/-- `WaitForInbound`. -/
def waitForInbound (ctx : Nat) (cond : Config → Bool) : Wait :=
  ⟨fun views => cond views.inboundPeers, ctx⟩

/-- A call to `waitForConfig` that has returned. -/
structure WaitReturn where
  /-- The call. -/
  wait : Wait
  /-- The broadcast channel when it was called. -/
  since : Nat
  /-- The broadcast channel when it returned. -/
  until_ : Nat
  /-- What it returned. -/
  result : Except Err Unit

/-- The state that the waiters share.  Broadcast channels are numbered in the
order of their creation.  The fields from `versions` on record what has
happened. -/
structure WaitShared where
  /-- The manager. -/
  manager : InboundManager
  /-- The current broadcast channel. -/
  configCh : Nat
  /-- The broadcast channels that have been closed, in order. -/
  closedChs : List Nat
  /-- The number of times that `stopCh` has been closed. -/
  stopCloses : Nat := 0
  /-- Whether the once of `Close` is done. -/
  stopOnce : Bool := false
  /-- The errors of the contexts that have ended. -/
  ctxErr : Nat → Option Err := fun _ => none
  /-- The views that were current with each broadcast channel. -/
  versions : List Views
  /-- The calls that have returned. -/
  returns : List WaitReturn := []

namespace WaitShared

/-- The end of `rebuildConfig`: close the broadcast channel and replace it. -/
def broadcast (shared : WaitShared) (manager : InboundManager) : WaitShared :=
  { shared with
    manager := manager
    configCh := shared.configCh + 1
    closedChs := shared.closedChs ++ [shared.configCh]
    versions := shared.versions ++ [manager.views] }

/-- Return from a call. -/
def ret (shared : WaitShared) (wait : Wait) (since : Nat)
    (result : Except Err Unit) : WaitShared :=
  { shared with
    returns := shared.returns ++ [⟨wait, since, shared.configCh, result⟩] }

end WaitShared

/-- Operations of the goroutines that wait, and of `Close`. -/
inductive WaitOp
  /-- The call of `waitForConfig`. -/
  | wait (wait : Wait)
  /-- `checkConfig`. -/
  | check (wait : Wait) (since : Nat)
  /-- The select on the context, `stopCh` and the broadcast channel. -/
  | select (wait : Wait) (since : Nat) (channel : Nat)
  /-- `Close`. -/
  | close

/-- What the scheduler decides: which case of a select is taken. -/
inductive WaitChoice
  | go
  | done
  | stop
  | broadcast

/-- What happens to the manager and to the contexts. -/
inductive WaitEvent
  | manager (event : Event)
  | cancel (ctx : Nat) (err : Err)

/-- Execute one operation. -/
def waitExec (shared : WaitShared) :
    WaitOp → WaitChoice → Option (Pool.Outcome WaitShared WaitOp)
  | .wait wait, .go => some ⟨shared, [.check wait shared.configCh], []⟩
  | .check wait since, .go =>
      if wait.cond shared.manager.views then
        some ⟨shared.ret wait since (.ok ()), [], []⟩
      else some ⟨shared, [.select wait since shared.configCh], []⟩
  | .select wait since _, .done =>
      match shared.ctxErr wait.ctx with
      | some err => some ⟨shared.ret wait since (.error err), [], []⟩
      | none => none
  | .select wait since _, .stop =>
      if 0 < shared.stopCloses then
        some ⟨shared.ret wait since (.error errStopped), [], []⟩
      else none
  | .select wait since channel, .broadcast =>
      if channel ∈ shared.closedChs then
        some ⟨shared, [.check wait since], []⟩
      else none
  | .close, .go =>
      if shared.stopOnce then some ⟨shared, [], []⟩
      else some ⟨{ shared with
          stopOnce := true
          stopCloses := shared.stopCloses + 1 }, [], []⟩
  | _, _ => none

/-- An event of the manager, or the end of a context. -/
def waitEnv (server : Server) (shared : WaitShared) :
    WaitEvent → Option WaitShared
  | .manager event =>
      (shared.manager.step server event).map fun next =>
        if event.rebuilds server shared.manager then shared.broadcast next
        else { shared with manager := next }
  | .cancel ctx err =>
      match shared.ctxErr ctx with
      | none => some { shared with
          ctxErr := Function.update shared.ctxErr ctx (some err) }
      | some _ => none

/-- The machine of the waiters. -/
def waitMachine (server : Server) :
    Pool.Machine WaitShared WaitOp WaitChoice WaitEvent where
  exec := waitExec
  env := waitEnv server

/-- A call that waits, or one to `Close`. -/
inductive WaitCall
  | wait (wait : Wait)
  | close

/-- The first operation of a call. -/
def WaitCall.op : WaitCall → WaitOp
  | .wait waiting => .wait waiting
  | .close => .close

/-- A new manager, whose first views have been built, and calls on it. -/
def newWaiters (server : Server) (calls : List WaitCall) :
    Pool.State WaitShared WaitOp where
  shared :=
    { manager := .new server
      configCh := 1
      closedChs := [0]
      versions := [⟨[], [], []⟩, (InboundManager.new server).views] }
  threads := calls.map fun call => [call.op]

/-! ## Channels and views -/

/-- What holds of the broadcast channels and the views. -/
structure Broadcasts (shared : WaitShared) : Prop where
  /-- The channels before the current one are closed, each once. -/
  closed : shared.closedChs = List.range shared.configCh
  /-- There is one version of the views for each channel. -/
  length : shared.versions.length = shared.configCh + 1
  /-- The current views are those of the current channel. -/
  current : shared.versions[shared.configCh]? = some shared.manager.views
  /-- `stopCh` is closed by the once. -/
  stopped : shared.stopCloses = if shared.stopOnce then 1 else 0
  /-- A call that returned nil saw views that met its condition. -/
  returned : ∀ returned ∈ shared.returns, returned.result = .ok () →
    returned.since ≤ returned.until_ ∧
      ∃ views, shared.versions[returned.until_]? = some views ∧
        returned.wait.cond views = true

/-- What holds while an operation is still to be executed. -/
def Waits (shared : WaitShared) : WaitOp → Prop
  | .check _ since => since ≤ shared.configCh
  | .select wait since channel =>
      since ≤ channel ∧ channel ≤ shared.configCh ∧
        ∃ views, shared.versions[channel]? = some views ∧
          wait.cond views = false
  | .wait _ | .close => True

/-- Channels and versions are only added. -/
structure Advances (shared next : WaitShared) : Prop where
  /-- The channels. -/
  configCh : shared.configCh ≤ next.configCh
  /-- The versions. -/
  versions : ∀ (version : Nat) (views : Views),
    shared.versions[version]? = some views →
    next.versions[version]? = some views

section Steps

variable {server : Server} {shared next : WaitShared} {op : WaitOp}
  {choice : WaitChoice} {outcome : Pool.Outcome WaitShared WaitOp}
  {event : WaitEvent}

theorem Advances.refl (shared : WaitShared) : Advances shared shared :=
  ⟨Nat.le_refl _, fun _ _ found => found⟩

theorem Advances.returns {wait : Wait} {since : Nat}
    {result : Except Err Unit} : Advances shared (shared.ret wait since result) :=
  ⟨Nat.le_refl _, fun _ _ found => found⟩

theorem advances_broadcast (shared : WaitShared) (manager : InboundManager) :
    Advances shared (shared.broadcast manager) where
  configCh := Nat.le_succ _
  versions := by
    intro version views found
    obtain ⟨inside, _⟩ := List.getElem?_eq_some_iff.mp found
    exact (List.getElem?_append_left inside).trans found

theorem Waits.advances (advances : Advances shared next)
    (waits : Waits shared op) : Waits next op := by
  cases op with
  | wait wait => trivial
  | check wait since => exact Nat.le_trans waits advances.configCh
  | select wait since channel =>
      obtain ⟨began, taken, views, seen, unmet⟩ := waits
      exact ⟨began, Nat.le_trans taken advances.configCh, views,
        advances.versions channel views seen, unmet⟩
  | close => trivial

theorem Broadcasts.broadcast (broadcasts : Broadcasts shared)
    (manager : InboundManager) : Broadcasts (shared.broadcast manager) where
  closed := by
    rw [WaitShared.broadcast, broadcasts.closed]
    exact List.range_succ.symm
  length := by simp [WaitShared.broadcast, broadcasts.length]
  current := by
    simp [WaitShared.broadcast, broadcasts.length]
  stopped := broadcasts.stopped
  returned := by
    intro returned member succeeded
    obtain ⟨began, views, seen, met⟩ :=
      broadcasts.returned returned member succeeded
    exact ⟨began, views,
      (advances_broadcast shared manager).versions _ _ seen, met⟩

/-- The views only change when the channel does. -/
theorem broadcasts_env (broadcasts : Broadcasts shared)
    (acted : waitEnv server shared event = some next) :
    Broadcasts next ∧ Advances shared next := by
  cases event with
  | manager event =>
      obtain ⟨manager, stepped, rfl⟩ := Option.map_eq_some_iff.mp acted
      split
      · exact ⟨broadcasts.broadcast manager, advances_broadcast shared manager⟩
      · rename_i kept
        have same := views_step (Bool.eq_false_of_not_eq_true kept) stepped
        refine ⟨⟨broadcasts.closed, broadcasts.length, ?_, broadcasts.stopped,
          broadcasts.returned⟩, ⟨Nat.le_refl _, fun _ _ found => found⟩⟩
        rw [same]
        exact broadcasts.current
  | cancel ctx err =>
      simp only [waitEnv] at acted
      split at acted
      · cases acted
        exact ⟨⟨broadcasts.closed, broadcasts.length, broadcasts.current,
          broadcasts.stopped, broadcasts.returned⟩,
          ⟨Nat.le_refl _, fun _ _ found => found⟩⟩
      · cases acted

/-- A call returns; it returns nil only if the current views meet its
condition. -/
theorem Broadcasts.ret {wait : Wait} {since : Nat} {result : Except Err Unit}
    (broadcasts : Broadcasts shared)
    (met : result = .ok () → since ≤ shared.configCh ∧
      wait.cond shared.manager.views = true) :
    Broadcasts (shared.ret wait since result) where
  closed := broadcasts.closed
  length := broadcasts.length
  current := broadcasts.current
  stopped := broadcasts.stopped
  returned := by
    intro returned member succeeded
    rcases List.mem_append.mp member with earlier | last
    · exact broadcasts.returned returned earlier succeeded
    · rw [List.mem_singleton.mp last] at succeeded ⊢
      obtain ⟨began, holds⟩ := met succeeded
      exact ⟨began, _, broadcasts.current, holds⟩

theorem broadcasts_exec (broadcasts : Broadcasts shared)
    (executed : waitExec shared op choice = some outcome)
    (waits : Waits shared op) :
    Broadcasts outcome.shared ∧ Advances shared outcome.shared ∧
      outcome.spawned = [] ∧
      ∀ op ∈ outcome.next, Waits outcome.shared op := by
  cases op with
  | wait wait =>
      cases choice with
      | go =>
          cases executed
          refine ⟨broadcasts, .refl _, rfl, ?_⟩
          exact List.forall_mem_singleton.mpr (Nat.le_refl _)
      | _ => cases executed
  | check wait since =>
      cases choice with
      | go =>
          by_cases met : wait.cond shared.manager.views = true
          · cases (if_pos met).symm.trans executed
            exact ⟨broadcasts.ret fun _ => ⟨waits, met⟩, .returns, rfl,
              List.forall_mem_nil _⟩
          · cases (if_neg met).symm.trans executed
            refine ⟨broadcasts, .refl _, rfl, List.forall_mem_singleton.mpr ?_⟩
            exact ⟨waits, Nat.le_refl _, _, broadcasts.current,
              Bool.eq_false_of_not_eq_true met⟩
      | _ => cases executed
  | select wait since channel =>
      cases choice with
      | go => cases executed
      | done =>
          simp only [waitExec] at executed
          cases ended : shared.ctxErr wait.ctx <;> rw [ended] at executed <;>
            cases executed
          exact ⟨broadcasts.ret nofun, .returns, rfl, List.forall_mem_nil _⟩
      | stop =>
          obtain ⟨_, equal⟩ := Option.ite_none_right_eq_some.mp executed
          cases equal
          exact ⟨broadcasts.ret nofun, .returns, rfl, List.forall_mem_nil _⟩
      | broadcast =>
          obtain ⟨_, equal⟩ := Option.ite_none_right_eq_some.mp executed
          cases equal
          refine ⟨broadcasts, .refl _, rfl, List.forall_mem_singleton.mpr ?_⟩
          exact Nat.le_trans waits.1 waits.2.1
  | close =>
      cases choice with
      | go =>
          by_cases first : shared.stopOnce = true
          · cases (if_pos first).symm.trans executed
            exact ⟨broadcasts, .refl _, rfl, List.forall_mem_nil _⟩
          · cases (if_neg first).symm.trans executed
            refine ⟨⟨broadcasts.closed, broadcasts.length, broadcasts.current,
              ?_, broadcasts.returned⟩, ⟨Nat.le_refl _, fun _ _ => id⟩, rfl,
              List.forall_mem_nil _⟩
            simp [broadcasts.stopped, first]
      | _ => cases executed

end Steps

section Runs

variable {server : Server} {calls : List WaitCall}
  {allowed : Pool.State WaitShared WaitOp →
    Pool.Label WaitChoice WaitEvent → Prop}
  {state : Pool.State WaitShared WaitOp}

theorem broadcasts_newWaiters (server : Server) (calls : List WaitCall) :
    Broadcasts (newWaiters server calls).shared :=
  ⟨rfl, rfl, rfl, rfl, List.forall_mem_nil _⟩

theorem broadcasts_reached
    (reached : (waitMachine server).Reach allowed (newWaiters server calls)
      state) :
    Broadcasts state.shared ∧ ∀ op ∈ state.ops, Waits state.shared op := by
  refine reached.annotated Broadcasts Waits ⟨broadcasts_newWaiters _ _, ?_⟩
    ?_ ?_
  · intro op member
    obtain ⟨thread, inside, holds⟩ := List.mem_flatten.mp member
    obtain ⟨call, _, rfl⟩ := List.mem_map.mp inside
    rw [List.mem_singleton.mp holds]
    cases call <;> trivial
  · intro state thread choice next runs _ _ broadcasts waits
    obtain ⟨still, advances, spawned, follows⟩ :=
      broadcasts_exec broadcasts runs.exec_eq waits
    refine ⟨still, ?_, fun op _ waits => waits.advances advances⟩
    intro op member
    rw [Pool.Machine.Runs.fresh, spawned] at member
    exact follows op (by simpa using member)
  · intro shared event shared' acted broadcasts
    obtain ⟨still, advances⟩ := broadcasts_env broadcasts acted
    exact ⟨still, fun op waits => waits.advances advances⟩

/-- In every interleaving of rebuilds, `Close` and waiters, a waiter that blocks
on an open broadcast channel has seen its condition fail on the current views,
no channel is closed twice, and a wait returns nil only if the views met its
condition at some point between its call and its return. -/
theorem no_lost_wakeup (server : Server) (calls : List WaitCall)
    (state : Pool.State WaitShared WaitOp)
    (reached : (waitMachine server).Reach (fun _ _ => True)
      (newWaiters server calls) state) :
    (∀ wait since channel, .select wait since channel ∈ state.ops →
      channel ∉ state.shared.closedChs →
        wait.cond state.shared.manager.views = false) ∧
    state.shared.closedChs.Nodup ∧ state.shared.stopCloses ≤ 1 ∧
    state.shared.versions[state.shared.configCh]? =
      some state.shared.manager.views ∧
    ∀ returned ∈ state.shared.returns, returned.result = .ok () →
      ∃ (version : Nat) (views : Views), returned.since ≤ version ∧
        version ≤ returned.until_ ∧
        state.shared.versions[version]? = some views ∧
        returned.wait.cond views = true := by
  obtain ⟨broadcasts, waits⟩ := broadcasts_reached reached
  refine ⟨?_, ?_, ?_, broadcasts.current, ?_⟩
  · intro wait since channel member isOpen
    obtain ⟨_, taken, views, seen, unmet⟩ := waits _ member
    rw [broadcasts.closed, List.mem_range, Nat.not_lt] at isOpen
    rw [Nat.le_antisymm taken isOpen, broadcasts.current] at seen
    rw [Option.some.inj seen]
    exact unmet
  · rw [broadcasts.closed]
    exact List.nodup_range
  · rw [broadcasts.stopped]
    split <;> decide
  · intro returned member succeeded
    obtain ⟨began, views, seen, met⟩ :=
      broadcasts.returned returned member succeeded
    exact ⟨returned.until_, views, began, Nat.le_refl _, seen, met⟩

/-- A server with one peer. -/
def onePeer : Server where
  myID := 1
  known := [⟨0, 2, "b:1", .inbound⟩]
  distinct := by decide
  nonzero := by decide

/-- Wait until a peer is connected. -/
def untilOne : List WaitCall :=
  [.wait (waitForPeers 0 fun config => decide (config ≠ [])), .close]

/-- The waiter blocks, the peer connects, and the waiter returns. -/
def wokenRun : List (Pool.Label WaitChoice WaitEvent) :=
  [.run 0 .go, .run 0 .go, .env (.manager (.accept ⟨some ["2"], ""⟩)),
    .run 0 .broadcast, .run 0 .go, .run 1 .go]

theorem wokenRun_followed :
    ((waitMachine onePeer).follow (fun _ _ => true)
      (newWaiters onePeer untilOne) wokenRun).isSome = true := by
  decide +kernel

/-- The state after this run. -/
def woken : Pool.State WaitShared WaitOp :=
  ((waitMachine onePeer).follow (fun _ _ => true)
    (newWaiters onePeer untilOne) wokenRun).get wokenRun_followed

theorem no_lost_wakeup_woken :
    woken.shared.returns.map (fun returned => (returned.since, returned.until_)) =
        [(1, 2)] ∧
      woken.shared.closedChs = [0, 1] ∧ woken.shared.closedChs.Nodup := by
  refine ⟨by decide +kernel, by decide +kernel, ?_⟩
  exact (no_lost_wakeup onePeer untilOne woken
    (Pool.Machine.reach_of_isSome (fun _ _ _ => trivial) wokenRun_followed)).2.1

end Runs

end Conn
end Gorums
