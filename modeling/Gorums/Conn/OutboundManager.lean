import Gorums.Conn.NodeSource
import Gorums.Pool.Ledger

/-!
# The connection pool

`outboundManager`: the pool of nodes that all configurations derived from one
`NewConfig` call share, with any number of concurrent `Extend`, `NewConfig` and
`Close` calls on it.  Every section that a mutex protects is one operation; so
is every access to an atomic variable.
-/

namespace Gorums
namespace Conn

open Gorums.Stream

/-- The part of an `InboundManager` that the pool reads. -/
structure Inbound where
  /-- The address of a known peer. -/
  knownPeer : ID → Option String
  /-- Whether there is a verifier. -/
  verify : Bool := false

/-- The dial options that decide how a node is created. -/
structure DialOptions where
  /-- The ID of this server's own node. -/
  localNodeID : ID := 0
  /-- Whether there is a request handler. -/
  handler : Bool := false
  /-- Whether there are transport credentials. -/
  credentials : Bool := false
  /-- Whether a node may borrow the stream of a peer. -/
  streamDedup : Bool := false
  /-- The inbound manager of the server, if there is one. -/
  inboundManager : Option Inbound := none

namespace DialOptions

/-- Whether calls to the node run in-process. -/
def inProcess (opts : DialOptions) (id : ID) : Bool :=
  id == opts.localNodeID && opts.handler

/-- Whether the node sends its calls on the stream of a peer. -/
def borrowsStream (opts : DialOptions) (id : ID) : Bool :=
  opts.streamDedup && opts.inboundManager.isSome &&
    decide (id < opts.localNodeID)

/-- The address of the known peer with an ID. -/
def knownPeer (opts : DialOptions) (id : ID) : Option String :=
  opts.inboundManager.bind fun inbound => inbound.knownPeer id

/-- Whether a node checks the server that it dials: a known peer is checked by
the server's verifier. -/
def verifies (opts : DialOptions) (id : ID) (verify : Bool) : Bool :=
  match opts.inboundManager with
  | none => verify
  | some inbound =>
      if (inbound.knownPeer id).isSome then inbound.verify else verify

/-- The channel of a new node, or why none is created. -/
def kind (opts : DialOptions) (net : Network) (id : ID) (addr : String) :
    Except Err Kind :=
  if opts.inProcess id then .ok .inProcess
  else if opts.borrowsStream id then
    match opts.knownPeer id with
    | none => .error (.named
        s!"gorums: stream dedup outbound node {id} ({addr}) is not a configured peer")
    | some peerAddr =>
        if net.comparableAddr peerAddr ≠ net.comparableAddr addr then
          .error (.named
            (s!"gorums: stream dedup outbound node {id} address {addr} " ++
              s!"does not match peer address {peerAddr}"))
        else .ok .shared
  else
    match net.newClient addr with
    | some err => .error (.wrap s!"node {id}" err)
    | none => .ok .outbound

end DialOptions

/-- A call that builds a configuration. -/
structure Call where
  /-- The configuration that `Extend` extends; `none` for `NewConfig`. -/
  config : Option Config
  /-- The source of the new nodes; `none` for a nil source. -/
  source : Option NodeSource

/-- A `newNode` call that has registered its node, or has tried to. -/
structure NewNode where
  /-- The node that it created. -/
  node : Node
  /-- Whether its registration came after the critical section of `Close`. -/
  late : Bool
  /-- The error that it returned. -/
  err : Option Err
  deriving DecidableEq

/-- A call that has returned. -/
structure Return where
  /-- The call. -/
  call : Call
  /-- What it returned. -/
  result : Except Err Config

/-- The state of the pool.  The fields from `calledClose` on record what has
happened; no call reads them. -/
structure Manager where
  /-- The nodes, in the order of their registration. -/
  nodes : List Node := []
  /-- The node with each ID. -/
  lookup : ID → Option Node := fun _ => none
  /-- Whether the critical section of `Close` has run. -/
  closed : Bool := false
  /-- The once that guards `Close`. -/
  closeOnce : Once := .fresh
  /-- Whether the pool holds a node that checks its server. -/
  verifies : Bool := false
  /-- The number of nodes created so far. -/
  created : Nat := 0
  /-- The nodes whose `close` has been called. -/
  calledClose : List Node := []
  /-- The nodes whose `close` has returned. -/
  closedNodes : List Node := []
  /-- The nodes that `Close` closes, once its critical section has run. -/
  closing : Option (List Node) := none
  /-- Whether some `Close` call has returned. -/
  closeReturned : Bool := false
  /-- The `newNode` calls that have returned after creating a node. -/
  newNodes : List NewNode := []
  /-- The calls that have returned. -/
  returns : List Return := []

/-- `errConfigClosed`. -/
def errConfigClosed : Err := .named "gorums: configuration is closed"

/-- Operations of the goroutines that call the pool. -/
inductive Op
  /-- `Config.Extend`. -/
  | extend (source : Option NodeSource)
  /-- `NewConfig`, from `newConfig` on. -/
  | newConfig (source : NodeSource)
  /-- `isClosed`. -/
  | checkClosed (call : Call)
  /-- The comparison of `verifies` with the identities of the source. -/
  | checkIdentity (call : Call) (source : NodeSource)
  /-- The choice of the error after this comparison. -/
  | refuseIdentity (call : Call)
  /-- `Nodes` in `newNodeBuilder`. -/
  | build (call : Call) (source : NodeSource)
  /-- `nodeBuilder.add` of the next entry. -/
  | add (call : Call) (builder : NodeBuilder) (entries : List Entry)
  /-- `outboundManager.Node` in `newNode`. -/
  | findNode (call : Call) (builder : NodeBuilder) (entry : Entry)
      (rest : List Entry)
  /-- The check of the credentials in `newNode`. -/
  | prepare (call : Call) (builder : NodeBuilder) (entry : Entry)
      (rest : List Entry)
  /-- The creation of the node in `newNode`. -/
  | construct (call : Call) (builder : NodeBuilder) (entry : Entry)
      (rest : List Entry)
  /-- The critical section of `addNode`. -/
  | addNode (call : Call) (builder : NodeBuilder) (node : Node)
      (rest : List Entry)
  /-- The call of the node's `close` in `addNode`, if the pool is closed. -/
  | rejectNode (call : Call) (builder : NodeBuilder) (node : Node)
      (late : Bool) (rest : List Entry)
  /-- The return of this `close`. -/
  | nodeRejected (node : Node)
  /-- The return of `newNode` after `addNode`. -/
  | newNodeReturn (call : Call) (builder : NodeBuilder) (node : Node)
      (late : Bool) (err : Option Err) (rest : List Entry)
  /-- `Config.Add` of the remaining IDs. -/
  | union (call : Call) (config : Config) (ids : List ID)
  /-- The return of the call. -/
  | ret (call : Call) (result : Except Err Config)
  /-- `Close`, up to the once. -/
  | close
  /-- The critical section of `Close`. -/
  | lockClose
  /-- The loop of `Close` over the remaining nodes, up to the call of a node's
  `close`. -/
  | closeNodes (nodes : List Node)
  /-- The return of a node's `close`. -/
  | nodeClosed (node : Node) (rest : List Node)
  /-- The return of `Close`. -/
  | closeReturn

/-- What the scheduler decides: which configuration of the pool is extended. -/
inductive Choice
  | go
  | config (config : Config)

/-- The network and the options with which a pool is used. -/
structure Context where
  /-- The network. -/
  net : Network
  /-- The dial options of the pool. -/
  opts : DialOptions := {}

/-- What a call does before it returns an error; `NewConfig` closes the pool. -/
def Call.fail (call : Call) (err : Err) : List Op :=
  match call.config with
  | some _ => [.ret call (.error err)]
  | none => [.close, .ret call (.error err)]

/-- What a call does with the new nodes of its configuration: `Extend` adds
their IDs to its configuration. -/
def Call.combine (call : Call) (newNodes : Config) : Op :=
  match call.config with
  | some config => .union call config (newNodes.map Node.id)
  | none => .ret call (.ok newNodes)

section Exec

variable (context : Context) (state : Manager)

/-- Begin to build a configuration. -/
def execStart : Op → Choice → Option (Pool.Outcome Manager Op)
  | .extend source, .config config =>
      if config.all (· ∈ state.nodes) then
        let call : Call := ⟨some config, source⟩
        if config = [] then some ⟨state, [.ret call (.error
          (.named "gorums: cannot extend empty configuration"))], []⟩
        else some ⟨state, [.checkClosed call], []⟩
      else none
  | .newConfig source, .go =>
      some ⟨state, [.build ⟨none, some source⟩ source], []⟩
  | .checkClosed call, .go =>
      if state.closed then some ⟨state, call.fail errConfigClosed, []⟩
      else
        match call.source with
        | none => some ⟨state, [.ret call (.ok (call.config.getD []))], []⟩
        | some source => some ⟨state, [.checkIdentity call source], []⟩
  | .checkIdentity call source, .go =>
      if state.verifies ≠ source.hasIdentity then
        some ⟨state, [.refuseIdentity call], []⟩
      else some ⟨state, [.build call source], []⟩
  | .refuseIdentity call, .go =>
      if state.verifies then some ⟨state, call.fail (.named
        "gorums: cannot extend this configuration with nodes without TLS identities"), []⟩
      else some ⟨state, call.fail (.named
        "gorums: cannot extend this configuration with nodes that have TLS identities"), []⟩
  | .build call source, .go =>
      match source.verifier context.net with
      | .error err => some ⟨state, call.fail err, []⟩
      | .ok verify =>
          let builder := newNodeBuilder context.net state.nodes verify
          some ⟨state, [.add call builder (source.entries builder)], []⟩
  | _, _ => none

/-- Add the entries of a source. -/
def execAdd : Op → Choice → Option (Pool.Outcome Manager Op)
  | .add call builder [], .go =>
      some ⟨state, [call.combine builder.configuration], []⟩
  | .add call builder (entry :: rest), .go =>
      match builder.add context.net entry with
      | .refused err => some ⟨state, call.fail err, []⟩
      | .reused builder => some ⟨state, [.add call builder rest], []⟩
      | .create builder => some ⟨state, [.findNode call builder entry rest], []⟩
  | .findNode call builder entry rest, .go =>
      let id := entry.id
      match state.lookup id with
      | some _ => some ⟨state, call.fail (.named
          s!"gorums: node {id} already exists"), []⟩
      | none => some ⟨state, [.prepare call builder entry rest], []⟩
  | .prepare call builder entry rest, .go =>
      let id := entry.id
      if context.opts.verifies id builder.verify then
        if context.opts.credentials then
          some ⟨{ state with verifies := true },
            [.construct call builder entry rest], []⟩
        else some ⟨state, call.fail (.named
          s!"gorums: node {id} has a TLS identity; set using WithTransportCredentials"), []⟩
      else some ⟨state, [.construct call builder entry rest], []⟩
  | .construct call builder entry rest, .go =>
      match context.opts.kind context.net entry.id entry.addr with
      | .error err => some ⟨state, call.fail err, []⟩
      | .ok kind =>
          some ⟨{ state with created := state.created + 1 },
            [.addNode call builder ⟨state.created, entry.id, entry.addr, kind⟩
              rest], []⟩
  | .addNode call builder node rest, .go =>
      if state.closed then
        some ⟨state,
          [.rejectNode call builder node state.closing.isSome rest], []⟩
      else
        some ⟨{ state with
            lookup := Function.update state.lookup node.id (some node)
            nodes := state.nodes ++ [node] },
          [.newNodeReturn call builder node state.closing.isSome none rest],
          []⟩
  | .rejectNode call builder node late rest, .go =>
      some ⟨{ state with calledClose := state.calledClose ++ [node] },
        [.nodeRejected node,
          .newNodeReturn call builder node late (some errConfigClosed) rest],
        []⟩
  | .nodeRejected node, .go =>
      some ⟨{ state with closedNodes := state.closedNodes ++ [node] }, [], []⟩
  | .newNodeReturn call _ node late (some err) _, .go =>
      some ⟨{ state with
          newNodes := state.newNodes ++ [⟨node, late, some err⟩] },
        call.fail err, []⟩
  | .newNodeReturn call builder node late none rest, .go =>
      some ⟨{ state with newNodes := state.newNodes ++ [⟨node, late, none⟩] },
        [.add call (builder.append node) rest], []⟩
  | _, _ => none

/-- Combine configurations and return. -/
def execReturn : Op → Choice → Option (Pool.Outcome Manager Op)
  | .union call config [], .go =>
      some ⟨state, [.ret call (.ok (sortByID config))], []⟩
  | .union call config (id :: ids), .go =>
      if config.any (·.id == id) then
        some ⟨state, [.union call config ids], []⟩
      else
        match state.lookup id with
        | none => some ⟨state, [.union call config ids], []⟩
        | some node => some ⟨state, [.union call (config ++ [node]) ids], []⟩
  | .ret call result, .go =>
      some ⟨{ state with returns := state.returns ++ [⟨call, result⟩] }, [], []⟩
  | _, _ => none

/-- Close the pool. -/
def execClose : Op → Choice → Option (Pool.Outcome Manager Op)
  | .close, .go =>
      match state.closeOnce with
      | .fresh => some ⟨{ state with closeOnce := .running }, [.lockClose], []⟩
      | .running => none
      | .done => some ⟨state, [.closeReturn], []⟩
  | .lockClose, .go =>
      some ⟨{ state with closed := true, closing := some state.nodes },
        [.closeNodes state.nodes], []⟩
  | .closeNodes [], .go =>
      some ⟨{ state with closeOnce := .done }, [.closeReturn], []⟩
  | .closeNodes (node :: rest), .go =>
      some ⟨{ state with calledClose := state.calledClose ++ [node] },
        [.nodeClosed node rest], []⟩
  | .nodeClosed node rest, .go =>
      some ⟨{ state with closedNodes := state.closedNodes ++ [node] },
        [.closeNodes rest], []⟩
  | .closeReturn, .go => some ⟨{ state with closeReturned := true }, [], []⟩
  | _, _ => none

/-- Execute one operation on the pool. -/
def exec (op : Op) (choice : Choice) : Option (Pool.Outcome Manager Op) :=
  match op with
  | .extend _ | .newConfig _ | .checkClosed _ | .checkIdentity _ _
  | .refuseIdentity _ | .build _ _ => execStart context state op choice
  | .add _ _ _ | .findNode _ _ _ _ | .prepare _ _ _ _ | .construct _ _ _ _
  | .addNode _ _ _ _ | .rejectNode _ _ _ _ _ | .nodeRejected _
  | .newNodeReturn _ _ _ _ _ _ =>
      execAdd context state op choice
  | .union _ _ _ | .ret _ _ => execReturn state op choice
  | .close | .lockClose | .closeNodes _ | .nodeClosed _ _
  | .closeReturn => execClose state op choice

end Exec

/-- The machine of a pool. -/
def machine (context : Context) : Pool.Machine Manager Op Choice Empty where
  exec := exec context
  env _ event := nomatch event

/-! ## What one operation changes -/

section Frames

open Pool

variable {context : Context} {state : Manager} {op : Op} {choice : Choice}
  {outcome : Outcome Manager Op}

/-- What one operation on the pool does. -/
inductive ExecStep (context : Context) (state : Manager) :
    Op → Outcome Manager Op → Prop
  | emptyConfig (source : Option NodeSource) (err : Err) :
      ExecStep context state (.extend source)
        ⟨state, [.ret ⟨some [], source⟩ (.error err)], []⟩
  | extending (source : Option NodeSource) (config : Config)
      (inPool : config ⊆ state.nodes) (nonempty : config ≠ []) :
      ExecStep context state (.extend source)
        ⟨state, [.checkClosed ⟨some config, source⟩], []⟩
  | creating (source : NodeSource) :
      ExecStep context state (.newConfig source)
        ⟨state, [.build ⟨none, some source⟩ source], []⟩
  | alreadyClosed (call : Call) (closed : state.closed = true) :
      ExecStep context state (.checkClosed call)
        ⟨state, call.fail errConfigClosed, []⟩
  | sourceless (call : Call) (unsourced : call.source = none) :
      ExecStep context state (.checkClosed call)
        ⟨state, [.ret call (.ok (call.config.getD []))], []⟩
  | sourced (call : Call) (source : NodeSource)
      (given : call.source = some source) :
      ExecStep context state (.checkClosed call)
        ⟨state, [.checkIdentity call source], []⟩
  | otherIdentity (call : Call) (source : NodeSource)
      (differs : state.verifies ≠ source.hasIdentity) :
      ExecStep context state (.checkIdentity call source)
        ⟨state, [.refuseIdentity call], []⟩
  | sameIdentity (call : Call) (source : NodeSource)
      (agrees : state.verifies = source.hasIdentity) :
      ExecStep context state (.checkIdentity call source)
        ⟨state, [.build call source], []⟩
  | identityRefused (call : Call) (err : Err) :
      ExecStep context state (.refuseIdentity call)
        ⟨state, call.fail err, []⟩
  | unverified (call : Call) (source : NodeSource) (err : Err)
      (fails : source.verifier context.net = .error err) :
      ExecStep context state (.build call source) ⟨state, call.fail err, []⟩
  | built (call : Call) (source : NodeSource) (verify : Bool)
      (verifier : source.verifier context.net = .ok verify) :
      ExecStep context state (.build call source)
        ⟨state, [.add call (newNodeBuilder context.net state.nodes verify)
          (source.entries (newNodeBuilder context.net state.nodes verify))], []⟩
  | combined (call : Call) (builder : NodeBuilder) :
      ExecStep context state (.add call builder [])
        ⟨state, [call.combine builder.configuration], []⟩
  | refused (call : Call) (builder : NodeBuilder) (entry : Entry)
      (rest : List Entry) (err : Err)
      (added : builder.add context.net entry = .refused err) :
      ExecStep context state (.add call builder (entry :: rest))
        ⟨state, call.fail err, []⟩
  | reused (call : Call) (builder after : NodeBuilder) (entry : Entry)
      (rest : List Entry)
      (added : builder.add context.net entry = .reused after) :
      ExecStep context state (.add call builder (entry :: rest))
        ⟨state, [.add call after rest], []⟩
  | create (call : Call) (builder after : NodeBuilder) (entry : Entry)
      (rest : List Entry)
      (added : builder.add context.net entry = .create after) :
      ExecStep context state (.add call builder (entry :: rest))
        ⟨state, [.findNode call after entry rest], []⟩
  | taken (call : Call) (builder : NodeBuilder) (entry : Entry)
      (rest : List Entry) (err : Err) (node : Node)
      (known : state.lookup entry.id = some node) :
      ExecStep context state (.findNode call builder entry rest)
        ⟨state, call.fail err, []⟩
  | free (call : Call) (builder : NodeBuilder) (entry : Entry)
      (rest : List Entry) (unknown : state.lookup entry.id = none) :
      ExecStep context state (.findNode call builder entry rest)
        ⟨state, [.prepare call builder entry rest], []⟩
  | verifying (call : Call) (builder : NodeBuilder) (entry : Entry)
      (rest : List Entry) (credentials : context.opts.credentials = true) :
      ExecStep context state (.prepare call builder entry rest)
        ⟨{ state with verifies := true },
          [.construct call builder entry rest], []⟩
  | withoutCredentials (call : Call) (builder : NodeBuilder) (entry : Entry)
      (rest : List Entry) (err : Err)
      (checks : context.opts.verifies entry.id builder.verify = true)
      (missing : ¬ context.opts.credentials = true) :
      ExecStep context state (.prepare call builder entry rest)
        ⟨state, call.fail err, []⟩
  | unchecked (call : Call) (builder : NodeBuilder) (entry : Entry)
      (rest : List Entry)
      (trusts : ¬ context.opts.verifies entry.id builder.verify = true) :
      ExecStep context state (.prepare call builder entry rest)
        ⟨state, [.construct call builder entry rest], []⟩
  | unconstructed (call : Call) (builder : NodeBuilder) (entry : Entry)
      (rest : List Entry) (err : Err)
      (fails : context.opts.kind context.net entry.id entry.addr = .error err) :
      ExecStep context state (.construct call builder entry rest)
        ⟨state, call.fail err, []⟩
  | constructed (call : Call) (builder : NodeBuilder) (entry : Entry)
      (rest : List Entry) (kind : Kind)
      (made : context.opts.kind context.net entry.id entry.addr = .ok kind) :
      ExecStep context state (.construct call builder entry rest)
        ⟨{ state with created := state.created + 1 },
          [.addNode call builder ⟨state.created, entry.id, entry.addr, kind⟩
            rest], []⟩
  | rejecting (call : Call) (builder : NodeBuilder) (node : Node)
      (rest : List Entry) (closed : state.closed = true) :
      ExecStep context state (.addNode call builder node rest)
        ⟨state, [.rejectNode call builder node state.closing.isSome rest], []⟩
  | registered (call : Call) (builder : NodeBuilder) (node : Node)
      (rest : List Entry) (isOpen : state.closed = false) :
      ExecStep context state (.addNode call builder node rest)
        ⟨{ state with
            lookup := Function.update state.lookup node.id (some node)
            nodes := state.nodes ++ [node] },
          [.newNodeReturn call builder node state.closing.isSome none rest], []⟩
  | rejected (call : Call) (builder : NodeBuilder) (node : Node)
      (late : Bool) (rest : List Entry) :
      ExecStep context state (.rejectNode call builder node late rest)
        ⟨{ state with calledClose := state.calledClose ++ [node] },
          [.nodeRejected node,
            .newNodeReturn call builder node late (some errConfigClosed) rest],
          []⟩
  | nodeRejected (node : Node) :
      ExecStep context state (.nodeRejected node)
        ⟨{ state with closedNodes := state.closedNodes ++ [node] }, [], []⟩
  | newNodeFailed (call : Call) (builder : NodeBuilder) (node : Node)
      (late : Bool) (err : Err) (rest : List Entry) :
      ExecStep context state
        (.newNodeReturn call builder node late (some err) rest)
        ⟨{ state with
            newNodes := state.newNodes ++ [⟨node, late, some err⟩] },
          call.fail err, []⟩
  | newNodeReturned (call : Call) (builder : NodeBuilder) (node : Node)
      (late : Bool) (rest : List Entry) :
      ExecStep context state (.newNodeReturn call builder node late none rest)
        ⟨{ state with newNodes := state.newNodes ++ [⟨node, late, none⟩] },
          [.add call (builder.append node) rest], []⟩
  | united (call : Call) (config : Config) :
      ExecStep context state (.union call config [])
        ⟨state, [.ret call (.ok (sortByID config))], []⟩
  | present (call : Call) (config : Config) (id : ID) (ids : List ID)
      (has : config.any (·.id == id) = true) :
      ExecStep context state (.union call config (id :: ids))
        ⟨state, [.union call config ids], []⟩
  | absent (call : Call) (config : Config) (id : ID) (ids : List ID)
      (unknown : state.lookup id = none) :
      ExecStep context state (.union call config (id :: ids))
        ⟨state, [.union call config ids], []⟩
  | found (call : Call) (config : Config) (id : ID) (ids : List ID)
      (node : Node) (lacks : ¬ config.any (·.id == id) = true)
      (known : state.lookup id = some node) :
      ExecStep context state (.union call config (id :: ids))
        ⟨state, [.union call (config ++ [node]) ids], []⟩
  | returned (call : Call) (result : Except Err Config) :
      ExecStep context state (.ret call result)
        ⟨{ state with returns := state.returns ++ [⟨call, result⟩] }, [], []⟩
  | closing (fresh : state.closeOnce = .fresh) :
      ExecStep context state .close
        ⟨{ state with closeOnce := .running }, [.lockClose], []⟩
  | closedBefore (done : state.closeOnce = .done) :
      ExecStep context state .close ⟨state, [.closeReturn], []⟩
  | locked :
      ExecStep context state .lockClose
        ⟨{ state with closed := true, closing := some state.nodes },
          [.closeNodes state.nodes], []⟩
  | closedAll :
      ExecStep context state (.closeNodes [])
        ⟨{ state with closeOnce := .done }, [.closeReturn], []⟩
  | closingNode (node : Node) (rest : List Node) :
      ExecStep context state (.closeNodes (node :: rest))
        ⟨{ state with calledClose := state.calledClose ++ [node] },
          [.nodeClosed node rest], []⟩
  | nodeClosed (node : Node) (rest : List Node) :
      ExecStep context state (.nodeClosed node rest)
        ⟨{ state with closedNodes := state.closedNodes ++ [node] },
          [.closeNodes rest], []⟩
  | closeReturned :
      ExecStep context state .closeReturn
        ⟨{ state with closeReturned := true }, [], []⟩

/-- An operation belongs to one of the groups. -/
theorem exec_elim {property : Outcome Manager Op → Prop}
    (executed : exec context state op choice = some outcome)
    (start : execStart context state op choice = some outcome →
      property outcome)
    (add : execAdd context state op choice = some outcome → property outcome)
    (ret : execReturn state op choice = some outcome → property outcome)
    (close : execClose state op choice = some outcome → property outcome) :
    property outcome := by
  unfold exec at executed
  split at executed
  all_goals
    first
    | exact start executed
    | exact add executed
    | exact ret executed
    | exact close executed

/-- Every operation does one of these things. -/
theorem exec_step (executed : exec context state op choice = some outcome) :
    ExecStep context state op outcome := by
  apply exec_elim executed
  · fun_cases execStart context state op choice <;> intro started <;>
      cases started
    all_goals constructor <;> simp_all [List.subset_def]
  · fun_cases execAdd context state op choice <;> intro added <;> cases added
    all_goals constructor <;> first | assumption | simp_all
  · fun_cases execReturn state op choice <;> intro returned <;> cases returned
    all_goals
      first
      | exact .absent _ _ _ _ ‹_›
      | constructor <;> assumption
  · fun_cases execClose state op choice <;> intro closed <;> cases closed
    all_goals constructor <;> assumption

/-- The only operation that changes the nodes of the pool is the registration
of a node in an open pool. -/
inductive NodesStep (state : Manager) (op : Op) (shared : Manager) : Prop
  | same (nodes : shared.nodes = state.nodes)
      (lookup : shared.lookup = state.lookup)
  | registered (call : Call) (builder : NodeBuilder) (node : Node)
      (rest : List Entry) (running : op = .addNode call builder node rest)
      (isOpen : state.closed = false)
      (nodes : shared.nodes = state.nodes ++ [node])
      (lookup :
        shared.lookup = Function.update state.lookup node.id (some node))

theorem nodes_exec (executed : exec context state op choice = some outcome) :
    NodesStep state op outcome.shared := by
  cases exec_step executed with
  | registered call builder node rest isOpen =>
      exact .registered call builder node rest rfl isOpen rfl rfl
  | _ => exact .same rfl rfl

/-- Only the critical section of `Close` closes the pool. -/
theorem closed_exec (executed : exec context state op choice = some outcome) :
    outcome.shared.closed = state.closed ∨ op = .lockClose := by
  cases exec_step executed with
  | locked => exact .inr rfl
  | _ => exact .inl rfl

/-- What never goes back. -/
structure Grows (state shared : Manager) : Prop where
  /-- Nodes stay in the pool. -/
  nodes : state.nodes ⊆ shared.nodes
  /-- The pool stays closed. -/
  closed : state.closed = true → shared.closed = true
  /-- A closed pool does not change. -/
  frozen : state.closed = true →
    shared.nodes = state.nodes ∧ shared.lookup = state.lookup
  /-- A node whose `close` has been called stays so. -/
  calledClose : state.calledClose ⊆ shared.calledClose
  /-- A closed node stays closed. -/
  closedNodes : state.closedNodes ⊆ shared.closedNodes
  /-- The once stays done. -/
  done : state.closeOnce = .done → shared.closeOnce = .done

theorem grows_exec (executed : exec context state op choice = some outcome) :
    Grows state outcome.shared := by
  have nodes : state.nodes ⊆ outcome.shared.nodes ∧
      (state.closed = true → outcome.shared.nodes = state.nodes ∧
        outcome.shared.lookup = state.lookup) := by
    cases nodes_exec executed with
    | same nodes lookup =>
        rw [nodes]
        exact ⟨List.Subset.refl _, fun _ => ⟨rfl, lookup⟩⟩
    | registered call builder node rest running isOpen nodes lookup =>
        rw [nodes, isOpen]
        exact ⟨List.subset_append_left _ _, fun closed => nomatch closed⟩
  suffices rest : (state.closed = true → outcome.shared.closed = true) ∧
      state.calledClose ⊆ outcome.shared.calledClose ∧
      state.closedNodes ⊆ outcome.shared.closedNodes ∧
      (state.closeOnce = .done → outcome.shared.closeOnce = .done) from
    ⟨nodes.1, rest.1, nodes.2, rest.2.1, rest.2.2.1, rest.2.2.2⟩
  cases exec_step executed <;> simp_all

end Frames

end Conn
end Gorums
