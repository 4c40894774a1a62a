import Gorums.Conn.Attribution

/-!
# Connected peers

Every event either rebuilds the view of the connected peers, or leaves what the
view is derived from alone, or is a change of a stream whose callback is due.
So the view is up to date whenever no callback is due.
-/

namespace Gorums
namespace Conn

open Gorums.Stream

section Views

variable {server : Server} {state after : InboundManager}

/-- Without changes of streams, a rebuild finds the nodes that can carry calls
in the state before it. -/
theorem upPeers_eq_filter {peers : Config} {changes : List (List Nat)}
    (quiet : (changes.take peers.length).flatten = []) :
    state.upPeers server peers changes = peers.filter fun node =>
      node.id = server.myID || state.isUp node := by
  induction peers generalizing changes with
  | nil => rfl
  | cons node nodes inductionHypothesis =>
      obtain ⟨first, rest⟩ : changes.headD [] = [] ∧
          (changes.tail.take nodes.length).flatten = [] := by
        cases changes with
        | nil => simp
        | cons change changes =>
            rw [List.length_cons, List.take_succ_cons, List.flatten_cons] at quiet
            exact List.append_eq_nil_iff.mp quiet
      have unchanged : state.streamChanges [] = state := rfl
      rw [InboundManager.upPeers, first, unchanged, inductionHypothesis rest,
        List.filter_cons]

/-- A known peer has an active channel if it is the server itself or has a live
stream. -/
theorem Exact.channel_isSome (exact : Exact server state) (id : ID) :
    ((state.knownPeer id).bind InboundNode.channel).isSome =
      (server.known.find? fun node => node.id = id).any fun node =>
        node.id = server.myID ∧ server.handler = true ∨
          state.attached node.id ≠ [] := by
  rw [InboundManager.knownPeer, exact.known, List.find?_map]
  have nodes : ((fun node : InboundNode => decide (node.node.id = id)) ∘
      peerNode server state) = fun node => decide (node.id = id) := rfl
  rw [nodes]
  cases server.known.find? fun node => decide (node.id = id) with
  | none => rfl
  | some node =>
      by_cases own : node.id = server.myID ∧ server.handler = true
      · simp [peerNode, own]
      · by_cases empty : state.attached node.id = []
        · have notOwn := not_and.mp own
          simpa [peerNode, own, empty] using notOwn
        · simp [peerNode, own, empty]

/-- The same nodes are up if the same streams are. -/
theorem Exact.isUp_congr (exact : Exact server state)
    (exactAfter : Exact server after)
    (streamUp : after.streamUp = state.streamUp)
    (attached : ∀ id, after.attached id = [] ↔ state.attached id = [])
    (node : Node) : after.isUp node = state.isUp node := by
  unfold InboundManager.isUp
  split
  · rw [streamUp]
  · rfl
  all_goals
    rw [exact.channel_isSome, exactAfter.channel_isSome]
    simp only [ne_eq, attached]

/-! ## Events -/

/-- What an event does to the view of the connected peers. -/
inductive ViewStep (server : Server) (state after : InboundManager) : Prop
  | rebuilt (before : InboundManager) (changes : List (List Nat))
      (rebuilds : after =
        before.rebuildConfig server server.onConfigChange changes)
      (connectedPeers : before.connectedPeers = state.connectedPeers)
      (reports : before.reports = state.reports)
  | kept (peerConfig : after.peerConfig = state.peerConfig)
      (due : after.due = state.due)
      (isUp : ∀ node, after.isUp node = state.isUp node)
      (connectedPeers : after.connectedPeers = state.connectedPeers)
      (reports : after.reports = state.reports)
  | changed (peerConfig : after.peerConfig = state.peerConfig)
      (due : after.due ≠ 0)
      (connectedPeers : after.connectedPeers = state.connectedPeers)
      (reports : after.reports = state.reports)

theorem viewStep_acceptPeer (server : Server) (changes : List (List Nat))
    (state : InboundManager) (context : StreamContext) :
    ViewStep server state (state.acceptPeer server changes context).1 := by
  unfold InboundManager.acceptPeer
  split
  · exact .kept rfl rfl (fun _ => rfl) rfl rfl
  · dsimp only
    split
    · exact .rebuilt _ changes rfl rfl rfl
    · split
      · exact .kept rfl rfl (fun _ => rfl) rfl rfl
      · split
        · unfold InboundManager.acceptClient
          split
          · exact .kept rfl rfl (fun _ => rfl) rfl rfl
          · exact .rebuilt _ changes rfl rfl rfl
        · exact .kept rfl rfl (fun _ => rfl) rfl rfl

theorem viewStep_detachPeer {changes : List (List Nat)} {channel : Nat}
    {context : StreamContext} {id : ID} (exact : Exact server state)
    (found : state.accepted[channel]? = some ⟨context, .peer id⟩) :
    ViewStep server state (InboundManager.detachPeer server changes
      { state with cleaned := state.cleaned ++ [channel] } id channel) := by
  unfold InboundManager.detachPeer
  dsimp only
  split
  · exact .rebuilt _ changes rfl rfl rfl
  · rename_i notLast
    refine .kept rfl rfl ?_ rfl rfl
    refine exact.isUp_congr (exact.detachPeer found rfl rfl rfl rfl rfl) rfl ?_
    refine exact.attached_detachPeer found ?_ notLast
    exact live_cleanup rfl rfl

theorem viewStep_cleanup {changes : List (List Nat)} {channel : Nat}
    (exact : Exact server state)
    (cleaned : state.cleanup server changes channel = some after) :
    ViewStep server state after := by
  obtain ⟨⟨context, tracking⟩, found, equal⟩ :=
    Option.map_eq_some_iff.mp cleaned
  rw [← equal]
  cases tracking with
  | peer id => exact viewStep_detachPeer exact found
  | client node =>
      simp only [InboundManager.detachClient]
      split
      · exact .rebuilt _ changes rfl rfl rfl
      · exact .kept rfl rfl (fun _ => rfl) rfl rfl
  | untracked => exact .kept rfl rfl (fun _ => rfl) rfl rfl

theorem viewStep_step {event : Event} (exact : Exact server state)
    (stepped : state.step server event = some after) :
    ViewStep server state after := by
  cases event with
  | accept context changes =>
      rw [← Option.some.inj stepped]
      exact viewStep_acceptPeer server changes state context
  | cleanup channel changes => exact viewStep_cleanup exact stepped
  | setPeerConfig config changes =>
      exact .rebuilt _ changes (Option.some.inj stepped).symm rfl rfl
  | streamChange ref =>
      rw [← Option.some.inj stepped]
      exact .changed rfl (Nat.succ_ne_zero _) rfl rfl
  | onStreamChange changes =>
      have callback : state.onStreamChange server changes = some after := stepped
      unfold InboundManager.onStreamChange at callback
      split at callback
      · exact .rebuilt _ changes (Option.some.inj callback).symm rfl rfl
      · cases callback

/-! ## The view and its reports -/

/-- The connected peers are those of the peer configuration that can carry
calls, once no callback is due. -/
def Settled (server : Server) (state : InboundManager) : Prop :=
  ∀ peers, state.peerConfig = some peers → state.due = 0 →
    state.connectedPeers = sortByID (peers.filter fun node =>
      node.id = server.myID || state.isUp node)

/-- Every rebuild brings the view up to date, unless streams change during
it. -/
theorem settled_rebuild (server : Server) (state : InboundManager)
    (callback : Bool) (changes : List (List Nat)) :
    Settled server (state.rebuildConfig server callback changes) := by
  intro peers configured noneDue
  have isPeerConfig : state.peerConfig = some peers := configured
  have quiet : state.changed changes = [] := by
    have total : state.due + (state.changed changes).length = 0 := noneDue
    exact List.eq_nil_of_length_eq_zero (by omega)
  have sameUp : ∀ node,
      (state.rebuildConfig server callback changes).isUp node =
        state.isUp node := by
    intro node
    have streamUp : (state.rebuildConfig server callback changes).streamUp =
        state.streamUp := by
      simp only [InboundManager.rebuildConfig, quiet,
        InboundManager.streamChanges, List.foldl_nil]
    unfold InboundManager.isUp
    rw [streamUp]
    rfl
  have view : state.peerView server changes =
      sortByID (state.upPeers server peers changes) := by
    rw [InboundManager.peerView, isPeerConfig]
  have noneChanged : (changes.take peers.length).flatten = [] := by
    rw [InboundManager.changed, isPeerConfig] at quiet
    exact quiet
  simp only [sameUp]
  exact view.trans (congrArg sortByID (upPeers_eq_filter noneChanged))

/-- The reports to the callback: the last one is the view, each one differs from
the one before it, and there are none without a callback. -/
structure Reported (server : Server) (state : InboundManager) : Prop where
  /-- The last report is the view. -/
  last : ∀ config, state.reports.getLast? = some config →
    config = state.connectedPeers
  /-- Each report differs from the one before it. -/
  differ : state.reports.IsChain (· ≠ ·)
  /-- Nothing is reported without a callback. -/
  silent : server.onConfigChange = false → state.reports = []

theorem Reported.rebuild (reported : Reported server state)
    (changes : List (List Nat)) : Reported server
      (state.rebuildConfig server server.onConfigChange changes) := by
  by_cases reports : state.connectedPeers ≠ state.peerView server changes ∧
      server.onConfigChange = true
  · have appended : (state.rebuildConfig server server.onConfigChange
        changes).reports = state.reports ++ [state.peerView server changes] :=
      if_pos reports
    constructor
    · intro config isLast
      rw [appended, List.getLast?_concat] at isLast
      exact (Option.some.inj isLast).symm
    · rw [appended, List.isChain_append]
      refine ⟨reported.differ, List.isChain_singleton _, ?_⟩
      intro earlier isLast later isHead
      cases isHead
      rw [reported.last earlier isLast]
      exact reports.1
    · intro callback
      rw [callback] at reports
      cases reports.2
  · have kept : (state.rebuildConfig server server.onConfigChange
        changes).reports = state.reports := if_neg reports
    refine ⟨?_, kept ▸ reported.differ, fun callback =>
      kept.trans (reported.silent callback)⟩
    intro config isLast
    rw [kept] at isLast
    by_cases same : state.connectedPeers = state.peerView server changes
    · exact (reported.last config isLast).trans same
    · have callback : server.onConfigChange = false := by
        apply Bool.eq_false_of_not_eq_true
        intro callback
        exact reports ⟨same, callback⟩
      rw [reported.silent callback] at isLast
      cases isLast

/-- Only the reports and the view matter. -/
theorem Reported.congr (reported : Reported server state)
    (connectedPeers : after.connectedPeers = state.connectedPeers)
    (reports : after.reports = state.reports) : Reported server after := by
  constructor
  · rw [connectedPeers, reports]
    exact reported.last
  · rw [reports]
    exact reported.differ
  · rw [reports]
    exact reported.silent

theorem settled_step (settled : Settled server state)
    (viewed : ViewStep server state after) : Settled server after := by
  cases viewed with
  | rebuilt before changes rebuilds connectedPeers reports =>
      rw [rebuilds]
      exact settled_rebuild server before server.onConfigChange changes
  | kept peerConfig due isUp connectedPeers reports =>
      intro peers configured noneDue
      rw [peerConfig] at configured
      rw [due] at noneDue
      rw [connectedPeers, settled peers configured noneDue]
      simp only [isUp]
  | changed peerConfig due connectedPeers reports =>
      intro peers configured noneDue
      exact absurd noneDue due

theorem reported_step (reported : Reported server state)
    (viewed : ViewStep server state after) : Reported server after := by
  cases viewed with
  | rebuilt before changes rebuilds connectedPeers reports =>
      rw [rebuilds]
      exact (reported.congr connectedPeers reports).rebuild changes
  | kept peerConfig due isUp connectedPeers reports =>
      exact reported.congr connectedPeers reports
  | changed peerConfig due connectedPeers reports =>
      exact reported.congr connectedPeers reports

end Views

section Runs

variable {server : Server} {state : InboundManager} {events : List Event}

/-- After every sequence of events: once no callback of a stream change is due,
the connected peers are the nodes of the peer configuration that are the server
itself or are up, sorted by ID; and the last of the reports, each of which
differs from the one before it, is the view. -/
theorem connectedPeers_follow
    (ran : (InboundManager.new server).run server events = some state) :
    (∀ peers, state.peerConfig = some peers → state.due = 0 →
      (state.connectedPeers.Perm (peers.filter fun node =>
        node.id = server.myID || state.isUp node)) ∧
      state.connectedPeers.Pairwise fun first second =>
        first.id ≤ second.id) ∧
    state.reports.IsChain (· ≠ ·) ∧
    ∀ config, state.reports.getLast? = some config →
      config = state.connectedPeers := by
  have invariant : Tracks server state ∧ Settled server state ∧
      Reported server state := by
    refine InboundManager.run_invariant (fun state => Tracks server state ∧
      Settled server state ∧ Reported server state) ?_ ?_ ran
    · intro state event after holds stepped
      obtain ⟨tracks, settled, reported⟩ := holds
      have viewed := viewStep_step tracks.1 stepped
      exact ⟨tracks_step tracks stepped, settled_step settled viewed,
        reported_step reported viewed⟩
    · refine ⟨tracks_new server, settled_rebuild server _ false [], ?_⟩
      have noReports : (InboundManager.new server).reports = [] := by
        simp [InboundManager.new, InboundManager.rebuildConfig]
      constructor
      · intro config isLast
        rw [noReports] at isLast
        cases isLast
      · rw [noReports]
        exact List.IsChain.nil
      · intro _
        exact noReports
  obtain ⟨_, settled, reported⟩ := invariant
  refine ⟨?_, reported.differ, reported.last⟩
  intro peers configured noneDue
  rw [settled peers configured noneDue]
  exact ⟨List.perm_insertionSort _ _, pairwise_sortByID _⟩

/-- The outbound stream of a peer comes up while its first callback runs, after
the node was looked at. -/
def raced : List Event :=
  [.setPeerConfig [⟨3, 2, "b:1", .outbound⟩, ⟨4, 1, "a:1", .inProcess⟩],
    .streamChange 3, .onStreamChange [[], [3]], .onStreamChange,
    .streamChange 3, .onStreamChange]

theorem raced_run :
    ((InboundManager.new duo).run duo raced).isSome = true := by
  decide +kernel

theorem connectedPeers_follow_raced :
    let state := ((InboundManager.new duo).run duo raced).get raced_run
    state.connectedPeers.Perm
      [⟨3, 2, "b:1", .outbound⟩, ⟨4, 1, "a:1", .inProcess⟩] ∧
    state.reports.length = 4 ∧ state.reports.IsChain (· ≠ ·) :=
  have follow := connectedPeers_follow (Option.some_get raced_run).symm
  ⟨(follow.1 [⟨3, 2, "b:1", .outbound⟩, ⟨4, 1, "a:1", .inProcess⟩]
      (by decide +kernel) (by decide +kernel)).1,
    by decide +kernel, follow.2.1⟩

end Runs

end Conn
end Gorums
