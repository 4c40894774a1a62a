import Gorums.Conn.NodeSource
import Mathlib.Data.Nat.Digits.Defs

/-!
# The inbound manager

`InboundManager`: the nodes of a server's known peers and clients, the streams
attached to them, and the views that it derives from them.  Every event is a
section under the manager's mutex; the table of known peers never changes after
construction.
-/

namespace Gorums
namespace Conn

open Gorums.Stream

/-! ## Claimed node IDs -/

/-- What a server sees of an inbound stream. -/
structure StreamContext where
  /-- The values of `gorums-node-id`, or `none` without incoming metadata. -/
  incoming : Option (List String)
  /-- The remote end, as a verifier sees it. -/
  peer : String := ""
  deriving DecidableEq

/-- The value of a decimal digit. -/
def digitValue (char : Char) : Option Nat :=
  if char.isDigit then some (char.toNat - '0'.toNat) else none

/-- The value of the digits so far, followed by one more digit. -/
def addDigit (value : Nat) (char : Char) : Option Nat :=
  (digitValue char).map (10 * value + ·)

/-- `strconv.ParseUint` with base 10. -/
def parseUint (text : String) (bits : Nat) : Option Nat :=
  match text.toList with
  | [] => none
  | chars => (chars.foldlM addDigit 0).filter (· < 2 ^ bits)

/-- `nodeID`: the ID that a stream claims, or 0. -/
def nodeID (context : StreamContext) : ID :=
  match context.incoming with
  | none => 0
  | some [] => 0
  | some (first :: _) =>
      match parseUint first 32 with
      | none => 0
      | some id => UInt32.ofNat id

/-- `hasPeerMetadata`. -/
def hasPeerMetadata (context : StreamContext) : Bool :=
  match context.incoming with
  | none => false
  | some values => !values.isEmpty

/-! ## Nodes and their channels -/

/-- The active channel of a node of the manager. -/
inductive Channel
  /-- The channel of an inbound stream. -/
  | inbound (channel : Nat)
  /-- A channel that runs calls in-process. -/
  | inProcess
  deriving DecidableEq

/-- A node of the manager with its channels. -/
structure InboundNode where
  /-- The node. -/
  node : Node
  /-- The channels of its live streams, in attach order. -/
  liveChannels : List Nat := []
  /-- Its active channel. -/
  channel : Option Channel := none
  deriving DecidableEq

/-- `attachStream`. -/
def InboundNode.attachStream (node : InboundNode) (channel : Nat) :
    InboundNode :=
  { node with
    liveChannels := node.liveChannels ++ [channel]
    channel := some (.inbound channel) }

/-- The detach function of a channel; it reports whether it removed the last
live channel. -/
def InboundNode.detach (node : InboundNode) (channel : Nat) :
    InboundNode × Bool :=
  if channel ∈ node.liveChannels then
    let live := node.liveChannels.erase channel
    match live.getLast? with
    | none => ({ node with liveChannels := live, channel := none }, true)
    | some last =>
        ({ node with liveChannels := live, channel := some (.inbound last) },
          false)
  else (node, false)

/-- A server's own ID, peers and options. -/
structure Server where
  /-- The server's own node ID. -/
  myID : ID := 0
  /-- The nodes of the known peers. -/
  known : List Node
  /-- Their IDs are distinct. -/
  distinct : (known.map Node.id).Nodup
  /-- Their IDs are not reserved. -/
  nonzero : ∀ node ∈ known, node.id ≠ 0
  /-- Whether there is a request handler. -/
  handler : Bool := true
  /-- The check of the peers' claims. -/
  verify : Option (StreamContext → ID → Option Err) := none
  /-- Whether changes of the connected peers are reported. -/
  onConfigChange : Bool := true

/-- Whether an ID is that of a known peer. -/
def Server.isKnown (server : Server) (id : ID) : Bool :=
  id != 0 && server.known.any (·.id == id)

/-- The configuration in which an accepted stream is tracked. -/
inductive Tracking
  /-- The stream is attached to the node of a known peer. -/
  | peer (id : ID)
  /-- The stream has a node of its own. -/
  | client (node : Node)
  /-- The stream is not tracked. -/
  | untracked
  deriving DecidableEq

/-- An accepted stream. -/
structure Accepted where
  /-- Its context. -/
  context : StreamContext
  /-- Where it is tracked. -/
  tracking : Tracking
  deriving DecidableEq

/-- The ID of the channel of an accepted stream, which is the sender ID with
which the channel's session hands requests to the handler. -/
def Accepted.senderID (accepted : Accepted) : ID :=
  match accepted.tracking with
  | .peer id => id
  | .client node => node.id
  | .untracked => 0

/-- The state of the manager.  `streamUp` and `due` belong to the outbound
channels of the peer configuration; the fields from `reports` on record what
has happened. -/
structure InboundManager where
  /-- The nodes of the known peers. -/
  knownNodes : List InboundNode
  /-- The nodes of the clients. -/
  clientNodes : List InboundNode := []
  /-- The server's peer configuration, once it is set. -/
  peerConfig : Option Config := none
  /-- The nodes of the peer configuration that can carry calls. -/
  connectedPeers : Config := []
  /-- The known peers with an inbound stream. -/
  inboundPeers : Config := []
  /-- The clients. -/
  connectedClients : Config := []
  /-- The next candidate for the ID of a client. -/
  nextClientID : Nat := 1 <<< 20
  /-- Whether the stream of an outbound channel is up. -/
  streamUp : Nat → Bool := fun _ => false
  /-- The stream changes whose callbacks have not run. -/
  due : Nat := 0
  /-- The configurations reported to the callback. -/
  reports : List Config := []
  /-- The accepted streams; the position is the number of the channel. -/
  accepted : List Accepted := []
  /-- The channels whose cleanup function has run. -/
  cleaned : List Nat := []

/-- Change the node with an ID. -/
def modifyNode (id : ID) (change : InboundNode → InboundNode)
    (nodes : List InboundNode) : List InboundNode :=
  nodes.map fun node => if node.node.id = id then change node else node

namespace InboundManager

/-- The node of a known peer. -/
def knownPeer (state : InboundManager) (id : ID) : Option InboundNode :=
  state.knownNodes.find? fun node => node.node.id = id

/-- `isUp` of a node of the peer configuration; a shared node has the channel of
the known peer with its ID. -/
def isUp (state : InboundManager) (node : Node) : Bool :=
  match node.kind with
  | .outbound => state.streamUp node.ref
  | .inProcess => true
  | .shared | .inbound =>
      ((state.knownPeer node.id).bind InboundNode.channel).isSome

/-- The known peers with an active channel, and the server's own node. -/
def inboundView (server : Server) (state : InboundManager) : Config :=
  sortByID ((state.knownNodes.filter fun node =>
    node.node.id = server.myID || node.channel.isSome).map InboundNode.node)

/-- The clients with an active channel. -/
def clientView (state : InboundManager) : Config :=
  sortByID ((state.clientNodes.filter fun node =>
    node.channel.isSome).map InboundNode.node)

/-- Streams of outbound channels come up or go down; a callback is due for each
change. -/
def streamChanges (state : InboundManager) (refs : List Nat) : InboundManager :=
  { state with
    streamUp := refs.foldl
      (fun streamUp ref => Function.update streamUp ref (!streamUp ref))
      state.streamUp
    due := state.due + refs.length }

/-- The nodes of a configuration that can carry calls.  The manager's mutex does
not stop the outbound streams: those given change before each node is looked
at. -/
def upPeers (server : Server) :
    InboundManager → Config → List (List Nat) → Config
  | _, [], _ => []
  | state, node :: nodes, changes =>
      let now := state.streamChanges (changes.headD [])
      let rest := upPeers server now nodes changes.tail
      if node.id = server.myID || now.isUp node then node :: rest else rest

/-- The nodes of the peer configuration that can carry calls, or the inbound
view before it is set. -/
def peerView (server : Server) (changes : List (List Nat))
    (state : InboundManager) : Config :=
  match state.peerConfig with
  | none => inboundView server state
  | some peers => sortByID (upPeers server state peers changes)

/-- The streams that change while the peer configuration is looked at. -/
def changed (state : InboundManager) (changes : List (List Nat)) : List Nat :=
  match state.peerConfig with
  | none => []
  | some peers => (changes.take peers.length).flatten

/-- `rebuildConfig`, with a callback or without one. -/
def rebuildConfig (server : Server) (callback : Bool)
    (changes : List (List Nat)) (state : InboundManager) : InboundManager :=
  { state.streamChanges (state.changed changes) with
    inboundPeers := inboundView server state
    connectedClients := clientView state
    connectedPeers := peerView server changes state
    reports :=
      if state.connectedPeers ≠ peerView server changes state ∧
          callback = true then
        state.reports ++ [peerView server changes state]
      else state.reports }

/-- `NewInboundManager`: the first view is not reported. -/
def new (server : Server) : InboundManager :=
  rebuildConfig server false []
    { knownNodes := server.known.map fun node =>
        { node := node
          channel := if node.id = server.myID ∧ server.handler = true
            then some .inProcess else none } }

/-- `SetPeerConfig`. -/
def setPeerConfig (server : Server) (changes : List (List Nat))
    (state : InboundManager)
    (config : Config) : InboundManager :=
  rebuildConfig server server.onConfigChange changes
    { state with peerConfig := some config }

/-- The loop of `nextAvailableClientID`: the ID, if there is one, and the next
candidate. -/
def nextAvailable (occupied : ID → Bool) : Nat → Nat → Option ID × Nat
  | 0, candidate => (none, candidate)
  | fuel + 1, candidate =>
      if occupied (UInt32.ofNat candidate) then
        nextAvailable occupied fuel (candidate + 1)
      else (some (UInt32.ofNat candidate), candidate + 1)

/-- Whether an ID belongs to a known peer or a client. -/
def occupied (state : InboundManager) (id : ID) : Bool :=
  state.knownNodes.any (·.node.id == id) ||
    state.clientNodes.any (·.node.id == id)

/-- `nextAvailableClientID`. -/
def nextAvailableClientID (state : InboundManager) : Option ID × Nat :=
  nextAvailable state.occupied (2 ^ 32 - state.nextClientID) state.nextClientID

/-- `registerPeer`. -/
def registerPeer (server : Server) (changes : List (List Nat))
    (state : InboundManager)
    (context : StreamContext) (id : ID) : InboundManager :=
  rebuildConfig server server.onConfigChange changes
    { state with
      knownNodes := modifyNode id
        (fun node => node.attachStream state.accepted.length) state.knownNodes
      accepted := state.accepted ++ [⟨context, .peer id⟩] }

/-- The node of a new client. -/
def clientNode (state : InboundManager) (id : ID) : Node :=
  ⟨state.accepted.length, id, "client", .inbound⟩

/-- `acceptClient`. -/
def acceptClient (server : Server) (changes : List (List Nat))
    (state : InboundManager)
    (context : StreamContext) : InboundManager × Option Err :=
  match state.nextAvailableClientID with
  | (none, next) => ({ state with nextClientID := next },
      some (.named "gorums: dynamic client ID space exhausted"))
  | (some id, next) =>
      (rebuildConfig server server.onConfigChange changes
        { state with
          nextClientID := next
          clientNodes := state.clientNodes ++
            [({ node := state.clientNode id } : InboundNode).attachStream
              state.accepted.length]
          accepted := state.accepted ++
            [⟨context, .client (state.clientNode id)⟩] }, none)

/-- `untrackedChannel`. -/
def untrackedChannel (state : InboundManager) (context : StreamContext) :
    InboundManager :=
  { state with accepted := state.accepted ++ [⟨context, .untracked⟩] }

end InboundManager

/-- `errSelfNodeIDStream`. -/
def errSelfNodeIDStream : Err := .status .invalidArgument
  "gorums: inbound stream claims the server's own node ID"

/-- `verificationError`. -/
def verificationError (id : ID) (err : Err) : Err :=
  let text := err.text
  .status .unauthenticated s!"gorums: node {id} failed verification: {text}"

/-- The check of the ID that a stream claims: why the stream is refused. -/
def Server.refuses (server : Server) (context : StreamContext) : Option Err :=
  let id := nodeID context
  if server.myID ≠ 0 ∧ id = server.myID then some errSelfNodeIDStream
  else
    match server.verify with
    | none => none
    | some verify =>
        if id = 0 then none
        else if server.isKnown id then
          (verify context id).map (verificationError id)
        else some (.status .unauthenticated
          s!"gorums: stream claims unknown node {id}")

namespace InboundManager

/-- `AcceptPeer`. -/
def acceptPeer (server : Server) (changes : List (List Nat))
    (state : InboundManager)
    (context : StreamContext) : InboundManager × Option Err :=
  match server.refuses context with
  | some err => (state, some err)
  | none =>
      let id := nodeID context
      if server.isKnown id then (registerPeer server changes state context id, none)
      else if id ≠ 0 then (untrackedChannel state context, none)
      else if hasPeerMetadata context then acceptClient server changes state context
      else (untrackedChannel state context, none)

/-- The part of a peer's cleanup function that changes the manager. -/
def detachPeer (server : Server) (changes : List (List Nat))
    (state : InboundManager) (id : ID)
    (channel : Nat) : InboundManager :=
  let after :=
    { state with
      knownNodes := modifyNode id (fun node => (node.detach channel).1)
        state.knownNodes }
  if (state.knownPeer id).any fun node => (node.detach channel).2 then
    rebuildConfig server server.onConfigChange changes after
  else after

/-- The part of a client's cleanup function that changes the manager. -/
def detachClient (server : Server) (changes : List (List Nat))
    (state : InboundManager) (id : ID)
    (channel : Nat) : InboundManager :=
  if (state.clientNodes.find? fun node => node.node.id = id).any
      fun node => (node.detach channel).2 then
    rebuildConfig server server.onConfigChange changes
      { state with
        clientNodes := state.clientNodes.filter fun node => node.node.id ≠ id }
  else
    { state with
      clientNodes := modifyNode id (fun node => (node.detach channel).1)
        state.clientNodes }

/-- The cleanup function of an accepted stream. -/
def cleanup (server : Server) (changes : List (List Nat))
    (state : InboundManager) (channel : Nat) :
    Option InboundManager :=
  (state.accepted[channel]?).map fun accepted =>
    let after := { state with cleaned := state.cleaned ++ [channel] }
    match accepted.tracking with
    | .peer id => detachPeer server changes after id channel
    | .client node => detachClient server changes after node.id channel
    | .untracked => after

/-- `onStreamChange`, for one of the changes whose callbacks are due. -/
def onStreamChange (server : Server) (changes : List (List Nat))
    (state : InboundManager) :
    Option InboundManager :=
  if 0 < state.due then
    some (rebuildConfig server server.onConfigChange changes
      { state with due := state.due - 1 })
  else none

end InboundManager

/-- What happens to the manager, with the changes of streams while it
happens. -/
inductive Event
  | accept (context : StreamContext) (changes : List (List Nat) := [])
  | cleanup (channel : Nat) (changes : List (List Nat) := [])
  | setPeerConfig (config : Config) (changes : List (List Nat) := [])
  | streamChange (ref : Nat)
  | onStreamChange (changes : List (List Nat) := [])

/-- One event. -/
def InboundManager.step (server : Server) (state : InboundManager) :
    Event → Option InboundManager
  | .accept context changes => some (acceptPeer server changes state context).1
  | .cleanup channel changes => cleanup server changes state channel
  | .setPeerConfig config changes =>
      some (setPeerConfig server changes state config)
  | .streamChange ref => some (state.streamChanges [ref])
  | .onStreamChange changes => onStreamChange server changes state

/-- The state after a sequence of events. -/
def InboundManager.run (server : Server) :
    InboundManager → List Event → Option InboundManager
  | state, [] => some state
  | state, event :: events =>
      (state.step server event).bind fun next =>
        InboundManager.run server next events

end Conn
end Gorums
