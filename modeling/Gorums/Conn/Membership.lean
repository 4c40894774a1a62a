import Gorums.Conn.InboundManager
import Mathlib.Data.List.Nodup

/-!
# Membership views

The abstract state of an inbound manager is the list of the streams that have
been accepted and not been cleaned up.  The nodes of the manager are a function
of this list, and the views are derived from the nodes, so the views are exact.
-/

namespace Gorums
namespace Conn

open Gorums.Stream

/-! ## Live streams -/

namespace InboundManager

/-- The channels of the accepted streams that have not been cleaned up, in the
order in which they were accepted. -/
def live (state : InboundManager) : List (Nat × Tracking) :=
  (state.accepted.zipIdx.filter fun stream =>
    stream.2 ∉ state.cleaned).map fun stream => (stream.2, stream.1.tracking)

/-- The live channels of a known peer. -/
def attached (state : InboundManager) (id : ID) : List Nat :=
  (state.live.filter fun stream => stream.2 = .peer id).map Prod.fst

/-- The channel and the node of a client's stream. -/
def client? (stream : Nat × Tracking) : Option (Nat × Node) :=
  match stream.2 with
  | .client node => some (stream.1, node)
  | _ => none

/-- The live channels of clients, with their nodes. -/
def openClients (state : InboundManager) : List (Nat × Node) :=
  state.live.filterMap client?

end InboundManager

section Live

variable {state : InboundManager} {channel : Nat} {id : ID}

theorem mem_live {tracking : Tracking} :
    (channel, tracking) ∈ state.live ↔
      (∃ context, state.accepted[channel]? = some ⟨context, tracking⟩) ∧
        channel ∉ state.cleaned := by
  simp only [InboundManager.live, List.mem_map, List.mem_filter,
    List.mem_zipIdx_iff_getElem?, decide_not, Bool.not_eq_true',
    decide_eq_false_iff_not, Prod.mk.injEq, Prod.exists]
  constructor
  · rintro ⟨accepted, number, ⟨found, uncleaned⟩, rfl, rfl⟩
    exact ⟨⟨accepted.context, found⟩, uncleaned⟩
  · rintro ⟨⟨context, found⟩, uncleaned⟩
    exact ⟨_, channel, ⟨found, uncleaned⟩, rfl, rfl⟩

theorem mem_attached :
    channel ∈ state.attached id ↔ (channel, .peer id) ∈ state.live := by
  simp [InboundManager.attached]

theorem mem_openClients {node : Node} :
    (channel, node) ∈ state.openClients ↔
      (channel, .client node) ∈ state.live := by
  simp only [InboundManager.openClients, List.mem_filterMap, Prod.exists]
  constructor
  · rintro ⟨number, tracking, member, equal⟩
    cases tracking <;> simp_all [InboundManager.client?]
  · intro member
    exact ⟨channel, .client node, member, rfl⟩

theorem nodup_channels (state : InboundManager) :
    (state.live.map Prod.fst).Nodup := by
  have numbers : (state.accepted.zipIdx.map Prod.snd).Nodup := by
    rw [List.zipIdx_map_snd]
    exact List.nodup_range'
  refine List.Nodup.sublist ?_ numbers
  rw [InboundManager.live, List.map_map]
  exact List.filter_sublist.map _

theorem nodup_attached (state : InboundManager) (id : ID) :
    (state.attached id).Nodup := by
  refine List.Nodup.sublist ?_ (nodup_channels state)
  exact List.filter_sublist.map _

/-- Accepting a stream adds its channel. -/
theorem live_accept {after : InboundManager} {accepted : Accepted}
    (streams : after.accepted = state.accepted ++ [accepted])
    (cleaned : after.cleaned = state.cleaned)
    (bounded : ∀ channel ∈ state.cleaned, channel < state.accepted.length) :
    after.live =
      state.live ++ [(state.accepted.length, accepted.tracking)] := by
  have isNew : state.accepted.length ∉ state.cleaned := by
    intro member
    exact Nat.lt_irrefl _ (bounded _ member)
  simp [InboundManager.live, streams, cleaned, List.zipIdx_append, isNew]

/-- A cleanup removes its channel. -/
theorem live_cleanup {after : InboundManager}
    (streams : after.accepted = state.accepted)
    (cleaned : after.cleaned = state.cleaned ++ [channel]) :
    after.live = state.live.filter fun stream => stream.1 ≠ channel := by
  rw [InboundManager.live, InboundManager.live, streams, cleaned,
    List.filter_map, List.filter_filter]
  congr 1
  apply List.filter_congr
  intro stream _
  by_cases same : stream.2 = channel <;> simp [same]

theorem live_congr {after : InboundManager}
    (streams : after.accepted = state.accepted)
    (cleaned : after.cleaned = state.cleaned) : after.live = state.live := by
  rw [InboundManager.live, InboundManager.live, streams, cleaned]

theorem attached_append {after : InboundManager} {tracking : Tracking}
    (lives : after.live = state.live ++ [(channel, tracking)]) :
    after.attached id = state.attached id ++
      if tracking = .peer id then [channel] else [] := by
  rw [InboundManager.attached, lives, List.filter_append, List.map_append]
  congr 1
  by_cases same : tracking = .peer id <;> simp [same]

theorem attached_filter {after : InboundManager}
    (lives : after.live = state.live.filter fun stream => stream.1 ≠ channel) :
    after.attached id = (state.attached id).erase channel := by
  rw [(nodup_attached state id).erase_eq_filter, InboundManager.attached,
    lives, InboundManager.attached, List.filter_map, List.filter_filter,
    List.filter_filter]
  congr 1
  apply List.filter_congr
  intro stream _
  by_cases same : stream.1 = channel <;> simp [same]

end Live

/-! ## Nodes as a function of the live streams -/

/-- The node of a known peer with the channels of its live streams. -/
def peerNode (server : Server) (state : InboundManager) (node : Node) :
    InboundNode where
  node := node
  liveChannels := state.attached node.id
  channel :=
    if node.id = server.myID ∧ server.handler = true then some .inProcess
    else (state.attached node.id).getLast?.map .inbound

/-- The node of a client with its channel. -/
def clientEntry (client : Nat × Node) : InboundNode where
  node := client.2
  liveChannels := [client.1]
  channel := some (.inbound client.1)

/-- The nodes of the manager are those that the accepted streams call for. -/
structure Exact (server : Server) (state : InboundManager) : Prop where
  /-- Only accepted streams are cleaned up. -/
  bounded : ∀ channel ∈ state.cleaned, channel < state.accepted.length
  /-- Streams are attached to known peers other than the server itself. -/
  peers : ∀ accepted ∈ state.accepted, ∀ id, accepted.tracking = .peer id →
    server.isKnown id = true ∧ id ≠ server.myID
  /-- The nodes of the known peers. -/
  known : state.knownNodes = server.known.map (peerNode server state)
  /-- The nodes of the clients. -/
  clients : state.clientNodes = state.openClients.map clientEntry
  /-- Two clients have different IDs. -/
  apart : ∀ (first second : Nat) (firstNode secondNode : Node)
    (firstContext secondContext : StreamContext),
    state.accepted[first]? = some ⟨firstContext, .client firstNode⟩ →
    state.accepted[second]? = some ⟨secondContext, .client secondNode⟩ →
    firstNode.id = secondNode.id → first = second
  /-- The IDs of clients are large, used up, and not those of known peers. -/
  assigned : ∀ accepted ∈ state.accepted, ∀ node,
    accepted.tracking = .client node →
    2 ^ 20 ≤ node.id.toNat ∧ node.id.toNat < state.nextClientID ∧
      server.isKnown node.id = false
  /-- The candidates for client IDs are large. -/
  candidate : 2 ^ 20 ≤ state.nextClientID

/-- The views are up to date. -/
structure Current (server : Server) (state : InboundManager) : Prop where
  /-- The known peers with an inbound stream. -/
  inboundPeers : state.inboundPeers = state.inboundView server
  /-- The clients. -/
  connectedClients : state.connectedClients = state.clientView

section Steps

variable {server : Server} {state after : InboundManager} {channel : Nat}
  {id : ID} {context : StreamContext} {changes : List (List Nat)}

/-- Only the nodes, the streams and the candidate matter. -/
theorem Exact.congr (exact : Exact server state)
    (knownNodes : after.knownNodes = state.knownNodes)
    (clientNodes : after.clientNodes = state.clientNodes)
    (streams : after.accepted = state.accepted)
    (cleaned : after.cleaned = state.cleaned)
    (candidate : state.nextClientID ≤ after.nextClientID) :
    Exact server after := by
  have lives := live_congr streams cleaned
  constructor
  · rw [streams, cleaned]
    exact exact.bounded
  · rw [streams]
    exact exact.peers
  · rw [knownNodes, exact.known]
    simp [peerNode, InboundManager.attached, lives]
  · rw [clientNodes, exact.clients, InboundManager.openClients,
      InboundManager.openClients, lives]
  · rw [streams]
    exact exact.apart
  · rw [streams]
    intro accepted member node tracked
    obtain ⟨large, used, unknown⟩ := exact.assigned accepted member node tracked
    exact ⟨large, Nat.lt_of_lt_of_le used candidate, unknown⟩
  · exact Nat.le_trans exact.candidate candidate

theorem Exact.rebuild (exact : Exact server state) (callback : Bool) :
    Exact server (state.rebuildConfig server callback changes) :=
  exact.congr rfl rfl rfl rfl (Nat.le_refl _)

/-- Rebuilding brings the views up to date. -/
theorem current_rebuild (server : Server) (state : InboundManager)
    (callback : Bool) :
    Current server (state.rebuildConfig server callback changes) :=
  ⟨rfl, rfl⟩

theorem modifyNode_map {nodes : List Node} {view : Node → InboundNode}
    {change : InboundNode → InboundNode} :
    modifyNode id change (nodes.map view) = nodes.map fun node =>
      if (view node).node.id = id then change (view node) else view node := by
  simp [modifyNode]

theorem mem_getElem? {accepted : Accepted}
    (found : state.accepted[channel]? = some accepted) :
    accepted ∈ state.accepted :=
  List.mem_of_getElem? found

/-- A newly accepted stream keeps the manager exact if its node fits. -/
theorem Exact.accept {tracking : Tracking} (exact : Exact server state)
    (streams : after.accepted = state.accepted ++ [⟨context, tracking⟩])
    (cleaned : after.cleaned = state.cleaned)
    (isPeer : ∀ id, tracking = .peer id →
      server.isKnown id = true ∧ id ≠ server.myID)
    (isClient : ∀ node, tracking = .client node →
      state.nextClientID ≤ node.id.toNat ∧
        node.id.toNat < after.nextClientID ∧ server.isKnown node.id = false)
    (candidate : state.nextClientID ≤ after.nextClientID)
    (known : after.knownNodes = server.known.map (peerNode server after))
    (clients : after.clientNodes = after.openClients.map clientEntry) :
    Exact server after := by
  have earlier : ∀ {channel : Nat} {accepted : Accepted},
      after.accepted[channel]? = some accepted →
      state.accepted[channel]? = some accepted ∨
        channel = state.accepted.length ∧ accepted = ⟨context, tracking⟩ := by
    intro channel accepted found
    rw [streams, List.getElem?_append] at found
    split at found
    · exact .inl found
    · rename_i beyond
      have last : channel - state.accepted.length = 0 := by
        by_contra positive
        rw [List.getElem?_eq_none (by simp; omega)] at found
        cases found
      rw [last] at found
      exact .inr ⟨by omega, (Option.some.inj found).symm⟩
  constructor
  · intro channel member
    rw [cleaned] at member
    rw [streams, List.length_append]
    exact Nat.lt_add_right _ (exact.bounded channel member)
  · intro accepted member id tracked
    rw [streams, List.mem_append, List.mem_singleton] at member
    rcases member with before | equal
    · exact exact.peers accepted before id tracked
    · rw [equal] at tracked
      exact isPeer id tracked
  · exact known
  · exact clients
  · intro first second firstNode secondNode firstContext secondContext
      firstFound secondFound same
    rcases earlier firstFound with before | ⟨last, equal⟩
    · rcases earlier secondFound with alsoBefore | ⟨last, equal⟩
      · exact exact.apart _ _ _ _ _ _ before alsoBefore same
      · have used := (exact.assigned _ (mem_getElem? before) firstNode rfl).2.1
        have fresh := (isClient secondNode (congrArg Accepted.tracking equal).symm).1
        rw [same] at used
        omega
    · rcases earlier secondFound with before | ⟨alsoLast, _⟩
      · have used := (exact.assigned _ (mem_getElem? before) secondNode rfl).2.1
        have fresh := (isClient firstNode (congrArg Accepted.tracking equal).symm).1
        rw [same] at fresh
        omega
      · rw [last, alsoLast]
  · intro accepted member node tracked
    rw [streams, List.mem_append, List.mem_singleton] at member
    rcases member with before | equal
    · obtain ⟨large, used, unknown⟩ :=
        exact.assigned accepted before node tracked
      exact ⟨large, Nat.lt_of_lt_of_le used candidate, unknown⟩
    · rw [equal] at tracked
      obtain ⟨fresh, used, unknown⟩ := isClient node tracked
      exact ⟨Nat.le_trans exact.candidate fresh, used, unknown⟩
  · exact Nat.le_trans exact.candidate candidate

theorem openClients_append {tracking : Tracking}
    (lives : after.live = state.live ++ [(channel, tracking)]) :
    after.openClients = state.openClients ++
      (InboundManager.client? (channel, tracking)).toList := by
  rw [InboundManager.openClients, lives, List.filterMap_append]
  cases tracking <;> rfl

theorem peerNode_congr {node : Node}
    (same : after.attached node.id = state.attached node.id) :
    peerNode server after node = peerNode server state node := by
  simp [peerNode, same]

/-- A stream that is not tracked leaves the nodes alone. -/
theorem Exact.untracked (exact : Exact server state)
    (knownNodes : after.knownNodes = state.knownNodes)
    (clientNodes : after.clientNodes = state.clientNodes)
    (streams : after.accepted = state.accepted ++ [⟨context, .untracked⟩])
    (cleaned : after.cleaned = state.cleaned)
    (candidate : after.nextClientID = state.nextClientID) :
    Exact server after := by
  have lives := live_accept streams cleaned exact.bounded
  refine exact.accept streams cleaned ?_ ?_ candidate.ge ?_ ?_
  · intro id tracked
    cases tracked
  · intro node tracked
    cases tracked
  · rw [knownNodes, exact.known]
    apply List.map_congr_left
    intro node _
    apply Eq.symm
    apply peerNode_congr
    simp [attached_append lives]
  · rw [clientNodes, openClients_append lives]
    simpa [InboundManager.client?] using exact.clients

/-- The stream of a known peer is attached to its node. -/
theorem Exact.attachPeer (exact : Exact server state)
    (isKnown : server.isKnown id = true) (other : id ≠ server.myID)
    (knownNodes : after.knownNodes = modifyNode id
      (fun node => node.attachStream state.accepted.length) state.knownNodes)
    (clientNodes : after.clientNodes = state.clientNodes)
    (streams : after.accepted = state.accepted ++ [⟨context, .peer id⟩])
    (cleaned : after.cleaned = state.cleaned)
    (candidate : after.nextClientID = state.nextClientID) :
    Exact server after := by
  have lives := live_accept streams cleaned exact.bounded
  refine exact.accept streams cleaned ?_ ?_ candidate.ge ?_ ?_
  · intro claimed tracked
    cases tracked
    exact ⟨isKnown, other⟩
  · intro node tracked
    cases tracked
  · rw [knownNodes, exact.known, modifyNode_map]
    apply List.map_congr_left
    intro node _
    have appended : after.attached node.id = _ := attached_append lives
    by_cases same : node.id = id
    · subst same
      simp [peerNode, InboundNode.attachStream, appended, other]
    · have different : Tracking.peer id ≠ .peer node.id := by
        intro equal
        cases equal
        exact same rfl
      rw [if_neg different, List.append_nil] at appended
      rw [peerNode_congr appended]
      simp [peerNode, same]
  · rw [clientNodes, openClients_append lives]
    simpa [InboundManager.client?] using exact.clients

/-- A client gets a node of its own. -/
theorem Exact.addClient (exact : Exact server state) {node : Node}
    (fresh : state.nextClientID ≤ node.id.toNat)
    (used : node.id.toNat < after.nextClientID)
    (unknown : server.isKnown node.id = false)
    (knownNodes : after.knownNodes = state.knownNodes)
    (clientNodes : after.clientNodes = state.clientNodes ++
      [({ node := node } : InboundNode).attachStream state.accepted.length])
    (streams : after.accepted = state.accepted ++ [⟨context, .client node⟩])
    (cleaned : after.cleaned = state.cleaned) :
    Exact server after := by
  have lives := live_accept streams cleaned exact.bounded
  refine exact.accept streams cleaned ?_ ?_ (by omega) ?_ ?_
  · intro id tracked
    cases tracked
  · intro client tracked
    cases tracked
    exact ⟨fresh, used, unknown⟩
  · rw [knownNodes, exact.known]
    apply List.map_congr_left
    intro node _
    apply Eq.symm
    apply peerNode_congr
    simp [attached_append lives]
  · rw [clientNodes, openClients_append lives, exact.clients]
    simp [InboundManager.client?, clientEntry, InboundNode.attachStream]

/-- A cleanup keeps the manager exact if its node fits. -/
theorem Exact.cleaned (exact : Exact server state) {accepted : Accepted}
    (found : state.accepted[channel]? = some accepted)
    (streams : after.accepted = state.accepted)
    (cleaned : after.cleaned = state.cleaned ++ [channel])
    (candidate : after.nextClientID = state.nextClientID)
    (known : after.knownNodes = server.known.map (peerNode server after))
    (clients : after.clientNodes = after.openClients.map clientEntry) :
    Exact server after := by
  constructor
  · intro other member
    rw [cleaned, List.mem_append, List.mem_singleton] at member
    rw [streams]
    rcases member with before | equal
    · exact exact.bounded other before
    · rw [equal]
      exact (List.getElem?_eq_some_iff.mp found).1
  · rw [streams]
    exact exact.peers
  · exact known
  · exact clients
  · rw [streams]
    exact exact.apart
  · rw [streams, candidate]
    exact exact.assigned
  · rw [candidate]
    exact exact.candidate

/-- The channels of peers and of clients are different. -/
theorem tracking_eq {tracking : Tracking} {accepted : Accepted}
    (found : state.accepted[channel]? = some accepted)
    (member : (channel, tracking) ∈ state.live) :
    accepted.tracking = tracking := by
  obtain ⟨⟨context, equal⟩, _⟩ := mem_live.mp member
  rw [found] at equal
  exact congrArg Accepted.tracking (Option.some.inj equal)

/-- A cleanup of a channel that belongs to no live stream of a peer leaves the
channels of the peer alone. -/
theorem attached_of_not_mem
    (lives : after.live = state.live.filter fun stream => stream.1 ≠ channel)
    (other : channel ∉ state.attached id) :
    after.attached id = state.attached id := by
  rw [attached_filter lives, List.erase_of_not_mem other]

theorem openClients_filter
    (lives : after.live = state.live.filter fun stream => stream.1 ≠ channel) :
    after.openClients =
      state.openClients.filter fun client => client.1 ≠ channel := by
  rw [InboundManager.openClients, InboundManager.openClients, lives,
    List.filter_filterMap, List.filterMap_filter]
  apply List.filterMap_congr
  rintro ⟨number, tracking⟩ _
  cases tracking <;> by_cases same : number = channel <;>
    simp [InboundManager.client?, same, Option.filter]

/-- Detaching a channel from the node of a known peer. -/
theorem detach_peerNode {node : Node} (other : node.id ≠ server.myID)
    (attached : after.attached node.id =
      (state.attached node.id).erase channel) :
    ((peerNode server state node).detach channel).1 =
      peerNode server after node := by
  by_cases member : channel ∈ state.attached node.id
  · cases last : ((state.attached node.id).erase channel).getLast? with
    | none => simp [InboundNode.detach, peerNode, other, attached, member, last]
    | some channel =>
        simp [InboundNode.detach, peerNode, other, attached, member, last]
  · rw [List.erase_of_not_mem member] at attached
    simp [InboundNode.detach, peerNode, attached, member]

/-- The last live channel of a known peer is detached. -/
theorem detach_peerNode_last {node : Node} :
    ((peerNode server state node).detach channel).2 = true ↔
      channel ∈ state.attached node.id ∧
        (state.attached node.id).erase channel = [] := by
  by_cases member : channel ∈ state.attached node.id
  · cases last : ((state.attached node.id).erase channel).getLast? with
    | none =>
        have none := List.getLast?_eq_none_iff.mp last
        simp [InboundNode.detach, peerNode, member, none]
    | some next =>
        have nonempty : ¬ (state.attached node.id).erase channel = [] := by
          intro empty
          rw [empty] at last
          cases last
        simp [InboundNode.detach, peerNode, member, last, nonempty]
  · simp [InboundNode.detach, peerNode, member]

/-- A cleanup detaches the channel from the node of its peer. -/
theorem Exact.detachPeer (exact : Exact server state)
    (found : state.accepted[channel]? = some ⟨context, .peer id⟩)
    (knownNodes : after.knownNodes = modifyNode id
      (fun node => (node.detach channel).1) state.knownNodes)
    (clientNodes : after.clientNodes = state.clientNodes)
    (streams : after.accepted = state.accepted)
    (cleaned : after.cleaned = state.cleaned ++ [channel])
    (candidate : after.nextClientID = state.nextClientID) :
    Exact server after := by
  have lives := live_cleanup streams cleaned
  obtain ⟨_, other⟩ := exact.peers _ (mem_getElem? found) id rfl
  refine exact.cleaned found streams cleaned candidate ?_ ?_
  · rw [knownNodes, exact.known, modifyNode_map]
    apply List.map_congr_left
    intro node _
    by_cases same : node.id = id
    · subst same
      simp only [peerNode, if_true]
      exact detach_peerNode other (attached_filter lives)
    · have foreign : channel ∉ state.attached node.id := by
        intro member
        have tracked := tracking_eq found (mem_attached.mp member)
        cases tracked
        exact same rfl
      rw [peerNode_congr (attached_of_not_mem lives foreign)]
      simp [peerNode, same]
  · have kept : after.openClients = state.openClients := by
      rw [openClients_filter lives, List.filter_eq_self]
      intro client member
      have tracked : client.1 ≠ channel := by
        intro equal
        have member := mem_openClients.mp (equal ▸ member :
          (channel, client.2) ∈ state.openClients)
        cases tracking_eq found member
      simpa using tracked
    rw [clientNodes, kept]
    exact exact.clients

/-- The node of a client that is still open is the only one with its ID. -/
theorem Exact.eq_of_id (exact : Exact server state) {node : Node}
    (found : state.accepted[channel]? = some ⟨context, .client node⟩)
    {client : Nat × Node} (member : client ∈ state.openClients) :
    client.2.id = node.id ↔ client.1 = channel := by
  obtain ⟨⟨other, tracked⟩, _⟩ := mem_live.mp (mem_openClients.mp member)
  constructor
  · intro same
    exact exact.apart _ _ _ _ _ _ tracked found same
  · intro same
    rw [same, found] at tracked
    cases tracked
    rfl

/-- A cleanup removes the node of its client. -/
theorem Exact.removeClient (exact : Exact server state) {node : Node}
    (found : state.accepted[channel]? = some ⟨context, .client node⟩)
    (knownNodes : after.knownNodes = state.knownNodes)
    (clientNodes : after.clientNodes =
      state.clientNodes.filter fun client => client.node.id ≠ node.id)
    (streams : after.accepted = state.accepted)
    (cleaned : after.cleaned = state.cleaned ++ [channel])
    (candidate : after.nextClientID = state.nextClientID) :
    Exact server after := by
  have lives := live_cleanup streams cleaned
  refine exact.cleaned found streams cleaned candidate ?_ ?_
  · rw [knownNodes, exact.known]
    apply List.map_congr_left
    intro peer _
    have foreign : channel ∉ state.attached peer.id := by
      intro member
      cases tracking_eq found (mem_attached.mp member)
    exact (peerNode_congr (attached_of_not_mem lives foreign)).symm
  · rw [clientNodes, exact.clients, openClients_filter lives, List.filter_map]
    congr 1
    apply List.filter_congr
    intro client member
    have same := exact.eq_of_id found member
    simp [clientEntry, same]

/-! ## Views as a function of the live streams -/

theorem Exact.inboundView_eq (exact : Exact server state) :
    state.inboundView server = sortByID (server.known.filter fun node =>
      node.id = server.myID || state.attached node.id ≠ []) := by
  rw [InboundManager.inboundView, exact.known, List.filter_map, List.map_map]
  have nodes : InboundNode.node ∘ peerNode server state = id := rfl
  rw [nodes, List.map_id]
  congr 1
  apply List.filter_congr
  intro node _
  by_cases own : node.id = server.myID
  · simp [peerNode, own]
  · by_cases empty : state.attached node.id = [] <;>
      simp [peerNode, own, empty]

theorem Exact.clientView_eq (exact : Exact server state) :
    state.clientView = sortByID (state.openClients.map Prod.snd) := by
  rw [InboundManager.clientView, exact.clients, List.filter_map, List.map_map]
  congr 1
  rw [List.filter_eq_self.mpr (by simp [clientEntry])]
  rfl

/-- The views stay up to date if the same peers have live streams and the nodes
of the clients are the same. -/
theorem Current.congr (current : Current server state)
    (exact : Exact server state) (exactAfter : Exact server after)
    (inboundPeers : after.inboundPeers = state.inboundPeers)
    (connectedClients : after.connectedClients = state.connectedClients)
    (clientNodes : after.clientNodes = state.clientNodes)
    (attached : ∀ node ∈ server.known,
      after.attached node.id = [] ↔ state.attached node.id = []) :
    Current server after := by
  constructor
  · rw [inboundPeers, current.inboundPeers, exact.inboundView_eq,
      exactAfter.inboundView_eq]
    congr 1
    apply List.filter_congr
    intro node member
    simp [attached node member]
  · rw [connectedClients, current.connectedClients, InboundManager.clientView,
      InboundManager.clientView, clientNodes]

/-! ## Events -/

theorem isKnown_iff : server.isKnown id = true ↔
    id ≠ 0 ∧ ∃ node ∈ server.known, node.id = id := by
  simp [Server.isKnown]

theorem Exact.knownPeer_eq (exact : Exact server state)
    (isKnown : server.isKnown id = true) :
    ∃ node, node.id = id ∧
      state.knownPeer id = some (peerNode server state node) := by
  obtain ⟨_, node, member, equal⟩ := isKnown_iff.mp isKnown
  have found : (state.knownPeer id).isSome = true := by
    rw [InboundManager.knownPeer, List.find?_isSome, exact.known]
    exact ⟨_, List.mem_map_of_mem member, decide_eq_true equal⟩
  obtain ⟨entry, peer⟩ := Option.isSome_iff_exists.mp found
  have inside := List.mem_of_find?_eq_some peer
  have hasID := List.find?_some peer
  rw [exact.known] at inside
  obtain ⟨other, _, same⟩ := List.mem_map.mp inside
  refine ⟨other, ?_, ?_⟩
  · rw [← same] at hasID
    exact of_decide_eq_true hasID
  · rw [same]
    exact peer

/-- The candidates that `nextAvailable` goes through. -/
theorem nextAvailable_spec {occupied : ID → Bool} {fuel candidate next : Nat}
    {found : Option ID}
    (equal : InboundManager.nextAvailable occupied fuel candidate =
      (found, next))
    (bounded : fuel ≤ 2 ^ 32 - candidate) :
    candidate ≤ next ∧ ∀ id, found = some id →
      occupied id = false ∧ candidate ≤ id.toNat ∧ id.toNat < next := by
  induction fuel generalizing candidate with
  | zero =>
      cases equal
      exact ⟨Nat.le_refl _, fun id none => nomatch none⟩
  | succ fuel inductionHypothesis =>
      rw [InboundManager.nextAvailable] at equal
      split at equal
      · obtain ⟨later, spec⟩ := inductionHypothesis equal (by omega)
        refine ⟨by omega, fun id some => ?_⟩
        obtain ⟨free, least, below⟩ := spec id some
        exact ⟨free, by omega, below⟩
      · rename_i free
        cases equal
        refine ⟨by omega, fun id some => ?_⟩
        cases some
        have value : (UInt32.ofNat candidate).toNat = candidate := by
          rw [UInt32.toNat_ofNat']
          omega
        refine ⟨by simpa using free, ?_, ?_⟩ <;> omega

/-- The state is exact and its views are up to date. -/
def Tracks (server : Server) (state : InboundManager) : Prop :=
  Exact server state ∧ Current server state

theorem Exact.tracks (exact : Exact server state) (callback : Bool) :
    Tracks server (state.rebuildConfig server callback changes) :=
  ⟨exact.rebuild callback, current_rebuild server state callback⟩

theorem tracks_untrackedChannel (tracks : Tracks server state) :
    Tracks server (state.untrackedChannel context) := by
  obtain ⟨exact, current⟩ := tracks
  have exactAfter : Exact server (state.untrackedChannel context) :=
    exact.untracked rfl rfl rfl rfl rfl
  exact ⟨exactAfter, current.inboundPeers, current.connectedClients⟩

theorem tracks_registerPeer (tracks : Tracks server state)
    (isKnown : server.isKnown id = true) (other : id ≠ server.myID) :
    Tracks server (state.registerPeer server changes context id) := by
  apply Exact.tracks
  exact tracks.1.attachPeer isKnown other rfl rfl rfl rfl rfl

theorem tracks_acceptClient (tracks : Tracks server state) :
    Tracks server (state.acceptClient server changes context).1 := by
  unfold InboundManager.acceptClient
  split
  · rename_i next available
    obtain ⟨later, _⟩ := nextAvailable_spec available (Nat.le_refl _)
    have exact : Exact server { state with nextClientID := next } :=
      tracks.1.congr rfl rfl rfl rfl later
    exact ⟨exact, tracks.2.inboundPeers, tracks.2.connectedClients⟩
  · rename_i id next available
    obtain ⟨_, spec⟩ := nextAvailable_spec available (Nat.le_refl _)
    obtain ⟨free, fresh, used⟩ := spec id rfl
    have unknown : server.isKnown id = false := by
      by_contra isKnown
      obtain ⟨node, same, peer⟩ := tracks.1.knownPeer_eq
        (Bool.eq_true_of_not_eq_false isKnown)
      have inside := List.mem_of_find?_eq_some peer
      simp only [InboundManager.occupied, Bool.or_eq_false_iff,
        List.any_eq_false] at free
      exact free.1 _ inside (by simpa [peerNode] using same)
    apply Exact.tracks
    exact tracks.1.addClient fresh used unknown rfl rfl rfl rfl

theorem refuses_of_own (own : server.myID ≠ 0)
    (claims : nodeID context = server.myID) :
    server.refuses context = some errSelfNodeIDStream := by
  simp [Server.refuses, own, claims]

/-- A stream that is not refused does not claim the server's own ID. -/
theorem nodeID_ne_of_not_refused (accepted : server.refuses context = none)
    (isKnown : server.isKnown (nodeID context) = true) :
    nodeID context ≠ server.myID := by
  intro own
  obtain ⟨nonzero, _⟩ := isKnown_iff.mp isKnown
  rw [refuses_of_own (own ▸ nonzero) own] at accepted
  cases accepted

theorem tracks_acceptPeer (tracks : Tracks server state) :
    Tracks server (state.acceptPeer server changes context).1 := by
  unfold InboundManager.acceptPeer
  split
  · exact tracks
  · rename_i accepted
    dsimp only
    split
    · rename_i isKnown
      exact tracks_registerPeer tracks isKnown
        (nodeID_ne_of_not_refused accepted isKnown)
    · split
      · exact tracks_untrackedChannel tracks
      · split
        · exact tracks_acceptClient tracks
        · exact tracks_untrackedChannel tracks

/-- A peer has live streams after a cleanup as before, unless it was its last
one. -/
theorem attached_eq_nil_iff
    (lives : after.live = state.live.filter fun stream => stream.1 ≠ channel)
    (rest : channel ∈ state.attached id →
      (state.attached id).erase channel ≠ []) :
    after.attached id = [] ↔ state.attached id = [] := by
  rw [attached_filter lives]
  by_cases member : channel ∈ state.attached id
  · have nonempty : state.attached id ≠ [] := List.ne_nil_of_mem member
    exact ⟨fun empty => absurd empty (rest member),
      fun empty => absurd empty nonempty⟩
  · rw [List.erase_of_not_mem member]

/-- Detaching a channel that is not the last one of its peer leaves the same
peers with live streams. -/
theorem Exact.attached_detachPeer (exact : Exact server state)
    (found : state.accepted[channel]? = some ⟨context, .peer id⟩)
    (lives : after.live = state.live.filter fun stream => stream.1 ≠ channel)
    (notLast : ¬ (state.knownPeer id).any
      (fun node => (node.detach channel).2) = true) (other : ID) :
    after.attached other = [] ↔ state.attached other = [] := by
  apply attached_eq_nil_iff lives
  intro member empty
  have tracked := tracking_eq found (mem_attached.mp member)
  cases tracked
  obtain ⟨isKnown, _⟩ := exact.peers _ (mem_getElem? found) id rfl
  obtain ⟨peer, same, peerFound⟩ := exact.knownPeer_eq isKnown
  apply notLast
  rw [peerFound, Option.any_some, detach_peerNode_last, same]
  exact ⟨member, empty⟩

theorem tracks_detachPeer (tracks : Tracks server state)
    (found : state.accepted[channel]? = some ⟨context, .peer id⟩) :
    Tracks server (InboundManager.detachPeer server changes
      { state with cleaned := state.cleaned ++ [channel] } id channel) := by
  obtain ⟨exact, current⟩ := tracks
  have exactAfter : Exact server
      { state with
        cleaned := state.cleaned ++ [channel]
        knownNodes := modifyNode id (fun node => (node.detach channel).1)
          state.knownNodes } :=
    exact.detachPeer found rfl rfl rfl rfl rfl
  unfold InboundManager.detachPeer
  dsimp only
  split
  · exact exactAfter.tracks _
  · rename_i notLast
    refine ⟨exactAfter, current.congr exact exactAfter rfl rfl rfl ?_⟩
    intro node _
    refine exact.attached_detachPeer found ?_ notLast node.id
    exact live_cleanup rfl rfl

theorem tracks_detachClient (tracks : Tracks server state) {node : Node}
    (found : state.accepted[channel]? = some ⟨context, .client node⟩) :
    Tracks server (InboundManager.detachClient server changes
      { state with cleaned := state.cleaned ++ [channel] } node.id
        channel) := by
  obtain ⟨exact, current⟩ := tracks
  unfold InboundManager.detachClient
  dsimp only
  split
  · apply Exact.tracks
    exact exact.removeClient found rfl rfl rfl rfl rfl
  · rename_i kept
    -- No open client has this ID, so there is no node to change.
    have absent : ∀ entry ∈ state.clientNodes, entry.node.id ≠ node.id := by
      intro entry member same
      apply kept
      have present : (state.clientNodes.find? fun other =>
          other.node.id = node.id).isSome = true :=
        List.find?_isSome.mpr ⟨entry, member, decide_eq_true same⟩
      obtain ⟨other, first⟩ := Option.isSome_iff_exists.mp present
      have inside := List.mem_of_find?_eq_some first
      have hasID : other.node.id = node.id := by
        simpa using List.find?_some first
      rw [exact.clients] at inside
      obtain ⟨client, isOpen, equal⟩ := List.mem_map.mp inside
      rw [← equal] at hasID
      have own : client.1 = channel := (exact.eq_of_id found isOpen).mp hasID
      rw [first, ← equal, Option.any_some]
      simp [InboundNode.detach, clientEntry, own]
    have unmodified : ∀ change : InboundNode → InboundNode,
        modifyNode node.id change state.clientNodes = state.clientNodes := by
      intro change
      conv_rhs => rw [← List.map_id state.clientNodes]
      apply List.map_congr_left
      intro entry member
      simp [absent entry member]
    have unfiltered : (state.clientNodes.filter fun client =>
        client.node.id ≠ node.id) = state.clientNodes := by
      apply List.filter_eq_self.mpr
      intro entry member
      simpa using absent entry member
    rw [unmodified]
    have exactAfter : Exact server
        { state with cleaned := state.cleaned ++ [channel] } :=
      exact.removeClient found rfl unfiltered.symm rfl rfl rfl
    exact ⟨exactAfter, current.inboundPeers, current.connectedClients⟩

/-- A cleanup of a stream that is not tracked. -/
theorem tracks_cleanUntracked (tracks : Tracks server state)
    (found : state.accepted[channel]? = some ⟨context, .untracked⟩) :
    Tracks server { state with cleaned := state.cleaned ++ [channel] } := by
  obtain ⟨exact, current⟩ := tracks
  have lives : InboundManager.live
      { state with cleaned := state.cleaned ++ [channel] } =
      state.live.filter fun stream => stream.1 ≠ channel :=
    live_cleanup rfl rfl
  refine ⟨exact.cleaned found rfl rfl rfl ?_ ?_, current.inboundPeers,
    current.connectedClients⟩
  · refine exact.known.trans (List.map_congr_left fun node _ => ?_)
    have foreign : channel ∉ state.attached node.id := by
      intro member
      cases tracking_eq found (mem_attached.mp member)
    exact (peerNode_congr (attached_of_not_mem lives foreign)).symm
  · rw [openClients_filter lives, List.filter_eq_self.mpr]
    · exact exact.clients
    · intro client member
      have other : client.1 ≠ channel := by
        intro equal
        have member : (channel, client.2) ∈ state.openClients := equal ▸ member
        cases tracking_eq found (mem_openClients.mp member)
      simpa using other

theorem tracks_cleanup (tracks : Tracks server state)
    (cleaned : state.cleanup server changes channel = some after) :
    Tracks server after := by
  obtain ⟨accepted, found, equal⟩ := Option.map_eq_some_iff.mp cleaned
  obtain ⟨context, tracking⟩ := accepted
  rw [← equal]
  cases tracking with
  | peer id => exact tracks_detachPeer tracks found
  | client node => exact tracks_detachClient tracks found
  | untracked => exact tracks_cleanUntracked tracks found

theorem tracks_new (server : Server) : Tracks server (.new server) := by
  apply Exact.tracks
  constructor
  · intro channel member
    cases member
  · intro accepted member
    cases member
  · apply List.map_congr_left
    intro node _
    simp [peerNode, InboundManager.attached, InboundManager.live]
  · rfl
  · intro first second firstNode secondNode firstContext secondContext found
    cases found
  · intro accepted member
    cases member
  · exact Nat.le_refl _

/-- Every event keeps the nodes exact and the views up to date. -/
theorem tracks_step {event : Event} (tracks : Tracks server state)
    (stepped : state.step server event = some after) :
    Tracks server after := by
  cases event with
  | accept context changes =>
      rw [← Option.some.inj stepped]
      exact tracks_acceptPeer tracks
  | cleanup channel changes => exact tracks_cleanup tracks stepped
  | setPeerConfig config changes =>
      rw [← Option.some.inj stepped]
      apply Exact.tracks
      exact tracks.1.congr rfl rfl rfl rfl (Nat.le_refl _)
  | streamChange ref =>
      rw [← Option.some.inj stepped]
      exact ⟨tracks.1.congr rfl rfl rfl rfl (Nat.le_refl _),
        tracks.2.inboundPeers, tracks.2.connectedClients⟩
  | onStreamChange changes =>
      have callback : state.onStreamChange server changes = some after := stepped
      unfold InboundManager.onStreamChange at callback
      split at callback
      · rw [← Option.some.inj callback]
        apply Exact.tracks
        exact tracks.1.congr rfl rfl rfl rfl (Nat.le_refl _)
      · cases callback

end Steps

/-! ## Runs -/

/-- An invariant of every run: it holds at the start, and every event keeps
it. -/
theorem InboundManager.run_invariant {server : Server}
    (property : InboundManager → Prop)
    (preserved : ∀ state event after, property state →
      state.step server event = some after → property after)
    {state after : InboundManager} (initial : property state)
    {events : List Event} (ran : state.run server events = some after) :
    property after := by
  induction events generalizing state with
  | nil =>
      rw [← Option.some.inj ran]
      exact initial
  | cons event events inductionHypothesis =>
      obtain ⟨next, stepped, rest⟩ := Option.bind_eq_some_iff.mp ran
      exact inductionHypothesis (preserved state event next initial stepped)
        rest

section Runs

variable {server : Server} {state : InboundManager} {events : List Event}

theorem tracks_run
    (ran : (InboundManager.new server).run server events = some state) :
    Tracks server state :=
  InboundManager.run_invariant (Tracks server)
    (fun _ _ _ tracks stepped => tracks_step tracks stepped)
    (tracks_new server) ran

/-- The IDs of open clients are distinct. -/
theorem Exact.nodup_clients (exact : Exact server state) :
    ((state.openClients.map Prod.snd).map Node.id).Nodup := by
  have channels : state.openClients.Pairwise fun first second =>
      first.1 ≠ second.1 := by
    refine List.Pairwise.filterMap InboundManager.client? ?_
      (List.pairwise_map.mp (nodup_channels state))
    rintro ⟨first, firstTracking⟩ ⟨second, secondTracking⟩ different client
      isFirst other isSecond
    cases firstTracking <;> cases secondTracking <;>
      simp_all [InboundManager.client?]
    rw [← isFirst, ← isSecond]
    exact different
  rw [List.map_map]
  apply List.pairwise_map.mpr
  refine channels.imp_of_mem ?_
  rintro ⟨first, firstNode⟩ ⟨second, secondNode⟩ firstOpen secondOpen different
    same
  obtain ⟨⟨_, found⟩, _⟩ := mem_live.mp (mem_openClients.mp secondOpen)
  exact different ((exact.eq_of_id found firstOpen).mp same)

/-- After every sequence of events, the active channel of a known peer is the
one attached last among those that have not been detached; the inbound peers
are the known peers with such a channel and the server's own node; the connected
clients are those whose cleanup has not run; and both lists are sorted by ID. -/
theorem membership_exact
    (ran : (InboundManager.new server).run server events = some state) :
    (∀ node ∈ server.known, node.id ≠ server.myID →
      ∃ peer, state.knownPeer node.id = some peer ∧
        peer.channel = (state.attached node.id).getLast?.map .inbound) ∧
    (∀ node, node ∈ state.inboundPeers ↔ node ∈ server.known ∧
      (node.id = server.myID ∨ state.attached node.id ≠ [])) ∧
    (∀ node, node ∈ state.connectedClients ↔
      ∃ channel, (channel, Tracking.client node) ∈ state.live) ∧
    (state.inboundPeers.Pairwise fun first second => first.id < second.id) ∧
    state.connectedClients.Pairwise fun first second =>
      first.id < second.id := by
  obtain ⟨exact, current⟩ := tracks_run ran
  have inbound := current.inboundPeers.trans exact.inboundView_eq
  have clients := current.connectedClients.trans exact.clientView_eq
  refine ⟨?_, ?_, ?_, ?_, ?_⟩
  · intro node member other
    have isKnown : server.isKnown node.id = true :=
      isKnown_iff.mpr ⟨server.nonzero node member, node, member, rfl⟩
    obtain ⟨peer, same, found⟩ := exact.knownPeer_eq isKnown
    refine ⟨_, found, ?_⟩
    simp [peerNode, same, other]
  · intro node
    rw [inbound, mem_sortByID, List.mem_filter]
    simp
  · intro node
    rw [clients, mem_sortByID, List.mem_map]
    constructor
    · rintro ⟨⟨channel, client⟩, isOpen, equal⟩
      cases equal
      exact ⟨channel, mem_openClients.mp isOpen⟩
    · rintro ⟨channel, member⟩
      exact ⟨(channel, node), mem_openClients.mpr member, rfl⟩
  · rw [inbound]
    apply pairwise_lt_sortByID
    exact List.Nodup.sublist (List.filter_sublist.map _) server.distinct
  · rw [clients]
    exact pairwise_lt_sortByID exact.nodup_clients

/-- A server with one other peer. -/
def duo : Server where
  myID := 1
  known := [⟨0, 1, "a:1", .inProcess⟩, ⟨1, 2, "b:1", .inbound⟩]
  distinct := by decide
  nonzero := by decide

/-- The peer opens two streams, a client connects, and the peer's second stream
ends. -/
def overlapping : List Event :=
  [.accept ⟨some ["2"], ""⟩, .accept ⟨some ["2"], ""⟩, .accept ⟨some ["0"], ""⟩,
    .cleanup 1]

theorem overlapping_run :
    ((InboundManager.new duo).run duo overlapping).isSome = true := by
  decide +kernel

/-- The state after these events. -/
def overlapped : InboundManager :=
  ((InboundManager.new duo).run duo overlapping).get overlapping_run

theorem membership_exact_overlapped :
    (∃ peer, overlapped.knownPeer 2 = some peer ∧
        peer.channel = some (.inbound 0)) ∧
      ⟨1, 2, "b:1", .inbound⟩ ∈ overlapped.inboundPeers ∧
      ⟨2, 1048576, "client", .inbound⟩ ∈ overlapped.connectedClients :=
  have exact := membership_exact (Option.some_get overlapping_run).symm
  ⟨exact.1 ⟨1, 2, "b:1", .inbound⟩ (by decide) (by decide),
    (exact.2.1 _).mpr ⟨by decide, .inr (by decide +kernel)⟩,
    (exact.2.2.1 _).mpr ⟨2, by decide +kernel⟩⟩

end Runs

end Conn
end Gorums
