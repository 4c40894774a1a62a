import Gorums.Stream.Message
import Mathlib.Logic.Function.Basic
import Mathlib.Data.List.Sort

/-!
# Node sources

The sources of the nodes of a configuration and the builder that turns the
entries of a source into nodes.  The builder reads the nodes of its registry
once, when it is created; every entry is checked against what it read then and
against the entries that it has added itself.
-/

namespace Gorums
namespace Conn

open Gorums.Stream

/-- The channel that a node has. -/
inductive Kind
  /-- An outbound channel to a server that the node dials. -/
  | outbound
  /-- A channel that runs calls in-process. -/
  | inProcess
  /-- The channel of an inbound peer node. -/
  | shared
  /-- The channels of the streams that the peer opens. -/
  | inbound
  deriving DecidableEq

/-- A node. -/
structure Node where
  /-- Which node this is; two nodes with equal fields stay apart. -/
  ref : Nat
  /-- The ID of the node. -/
  id : ID
  /-- Its address as configured. -/
  addr : String
  /-- Its channel. -/
  kind : Kind := .outbound
  deriving DecidableEq

/-- A configuration. -/
abbrev Config := List Node

/-- Sort by the IDs of nodes. -/
def sortBy {α : Type} (id : α → Stream.ID) (nodes : List α) : List α :=
  nodes.insertionSort fun first second => id first ≤ id second

theorem perm_sortBy {α : Type} (id : α → Stream.ID) (nodes : List α) :
    (sortBy id nodes).Perm nodes :=
  List.perm_insertionSort _ nodes

/-- Sort nodes by ID. -/
def sortByID (nodes : List Node) : List Node := sortBy Node.id nodes

@[simp] theorem mem_sortByID {nodes : List Node} {node : Node} :
    node ∈ sortByID nodes ↔ node ∈ nodes :=
  (List.perm_insertionSort _ nodes).mem_iff

instance : IsTrans Node fun first second => first.id ≤ second.id where
  trans _ _ _ first second := UInt32.le_trans first second

instance : Std.Total fun first second : Node => first.id ≤ second.id where
  total first second := UInt32.le_total first.id second.id

theorem pairwise_sortByID (nodes : List Node) :
    (sortByID nodes).Pairwise fun first second => first.id ≤ second.id :=
  List.pairwise_insertionSort _ nodes

/-- Nodes with distinct IDs are sorted strictly. -/
theorem pairwise_lt_sortByID {nodes : List Node}
    (distinct : (nodes.map Node.id).Nodup) :
    (sortByID nodes).Pairwise fun first second => first.id < second.id := by
  have sorted := pairwise_sortByID nodes
  have apart : (sortByID nodes).Pairwise fun first second =>
      first.id ≠ second.id := by
    apply List.pairwise_map.mp
    exact ((List.perm_insertionSort _ nodes).map Node.id).nodup_iff.mpr distinct
  refine (sorted.and apart).imp ?_
  intro first second both
  exact UInt32.lt_of_le_of_ne both.1 both.2

/-- The name that a certificate must carry. -/
structure PeerIdentity where
  /-- The name. -/
  name : String
  /-- Whether it is a URI SAN and not a DNS SAN. -/
  uri : Bool
  deriving DecidableEq

/-- Whether one certificate matches both identities. -/
def PeerIdentity.same (first second : PeerIdentity) : Bool :=
  if first.uri != second.uri then false
  else if first.uri then first.name == second.name
  else first.name.toLower == second.name.toLower

/-- Functions of the network and of the text of a name; they give the same
answer at every call. -/
structure Network where
  /-- Resolve the host of an address. -/
  resolveAddr : String → Except Err String
  /-- The error of creating a gRPC client for an address. -/
  newClient : String → Option Err
  /-- The certificate name that an identity stands for. -/
  parseIdentity : String → Except Err PeerIdentity

/-- A network in which every address is resolved already. -/
def Network.plain : Network where
  resolveAddr := .ok
  newClient _ := none
  parseIdentity name := .ok ⟨name, false⟩

/-- The resolved form of an address, or the address if it does not resolve. -/
def Network.comparableAddr (net : Network) (addr : String) : String :=
  match net.resolveAddr addr with
  | .ok resolved => resolved
  | .error _ => addr

/-- A node's address and optional TLS identity. -/
structure NodeAddress where
  /-- The address. -/
  addr : String
  /-- The declared identity, if any. -/
  identity : Option String := none
  deriving DecidableEq

/-- A map from IDs to addresses, in the order of its IDs. -/
structure NodeMap where
  /-- The entries of the map. -/
  entries : List (ID × NodeAddress)
  /-- The IDs increase. -/
  sorted : (entries.map Prod.fst).Pairwise (· < ·)

/-- Whether any node declares an identity. -/
def NodeMap.hasIdentity (nodes : NodeMap) : Bool :=
  nodes.entries.any fun entry => entry.2.identity.isSome

/-- A source of nodes. -/
inductive NodeSource
  /-- `WithNodes`. -/
  | nodeMap (nodes : NodeMap)
  /-- `WithNodeList`. -/
  | nodeList (addrs : List String)

/-- The addresses that a source names. -/
def NodeSource.addrs : NodeSource → List String
  | .nodeMap nodes => nodes.entries.map fun entry => entry.2.addr
  | .nodeList addrs => addrs

/-- Whether any node of the source declares an identity. -/
def NodeSource.hasIdentity : NodeSource → Bool
  | .nodeMap nodes => nodes.hasIdentity
  | .nodeList _ => false

/-- The certificate name of one entry of a map with identities. -/
def wantedIdentity (net : Network) (entry : ID × NodeAddress) :
    Except Err PeerIdentity :=
  let id := entry.1
  match entry.2.identity with
  | none => .error (.named s!"gorums: node {id} does not implement TLSIdentity")
  | some identity =>
      if identity = "" then
        .error (.named s!"gorums: node {id} has an empty TLS identity")
      else
        match net.parseIdentity identity with
        | .error err => .error (.wrap
            s!"gorums: node {id} has an invalid TLS identity \"{identity}\""
            err)
        | .ok wanted => .ok wanted

/-- The error for the first identity that an earlier one equals. -/
def sameIdentity (wanted : List (ID × PeerIdentity)) :
    List (ID × PeerIdentity) → Option Err
  | [] => none
  | (id, identity) :: rest =>
      match wanted.find? fun lower => lower.2.same identity with
      | some (lower, first) =>
          let name := first.name
          some (.named
            s!"gorums: nodes {lower} and {id} have the same TLS identity \"{name}\"")
      | none => sameIdentity (wanted ++ [(id, identity)]) rest

/-- `NewPeerVerifier`: whether the nodes have a verifier. -/
def newPeerVerifier (net : Network) (nodes : NodeMap) : Except Err Bool :=
  if nodes.hasIdentity then
    match nodes.entries.mapM fun entry =>
        (wantedIdentity net entry).map fun wanted => (entry.1, wanted) with
    | .error err => .error err
    | .ok wanted =>
        match sameIdentity [] wanted with
        | some err => .error err
        | none => .ok true
  else .ok false

/-- An ID and the address of the node that is to have it. -/
structure Entry where
  /-- The ID. -/
  id : ID
  /-- The address. -/
  addr : String
  deriving DecidableEq

/-- The state of a builder. -/
structure NodeBuilder where
  /-- Whether the nodes check the servers that they dial. -/
  verify : Bool
  /-- The nodes of the registry when the builder was created. -/
  existing : List Node
  /-- The IDs of the nodes with a resolved address. -/
  addrToID : String → Option ID
  /-- The existing nodes by their IDs. -/
  idToNode : ID → Option Node
  /-- The largest ID of an existing node. -/
  maxID : ID
  /-- The nodes of the configuration so far. -/
  nodes : Config

/-- Take one existing node into account. -/
def NodeBuilder.know (net : Network) (builder : NodeBuilder) (node : Node) :
    NodeBuilder :=
  { builder with
    addrToID :=
      Function.update builder.addrToID (net.comparableAddr node.addr)
        (some node.id)
    idToNode := Function.update builder.idToNode node.id (some node)
    maxID := max builder.maxID node.id }

/-- `newNodeBuilder`. -/
def newNodeBuilder (net : Network) (existing : List Node) (verify : Bool) :
    NodeBuilder :=
  existing.foldl (NodeBuilder.know net)
    { verify := verify
      existing := existing
      addrToID := fun _ => none
      idToNode := fun _ => none
      maxID := 0
      nodes := [] }

/-- What becomes of one entry. -/
inductive Added
  /-- The entry is refused. -/
  | refused (err : Err)
  /-- The entry names an existing node. -/
  | reused (builder : NodeBuilder)
  /-- The registry is to create a node for the entry. -/
  | create (builder : NodeBuilder)

/-- `nodeBuilder.add`, up to the call of the registry's `newNode`. -/
def NodeBuilder.add (net : Network) (builder : NodeBuilder) (entry : Entry) :
    Added :=
  let id := entry.id
  let addr := entry.addr
  if id = 0 then .refused (.named "gorums: node 0 is reserved")
  else
    match net.resolveAddr addr with
    | .error err =>
        .refused (.wrap s!"gorums: invalid address \"{addr}\"" err)
    | .ok resolved =>
        match builder.idToNode id with
        | some existing =>
            let inUse := existing.addr
            if net.comparableAddr inUse ≠ resolved then
              .refused (.named
                s!"gorums: node {id} already in use by \"{inUse}\"")
            else .reused { builder with nodes := builder.nodes ++ [existing] }
        | none =>
            match builder.addrToID resolved with
            | some existingID => .refused (.named
                s!"gorums: address \"{resolved}\" already in use by node {existingID}")
            | none => .create { builder with
                addrToID := Function.update builder.addrToID resolved (some id) }

/-- The builder after the registry has created a node. -/
def NodeBuilder.append (builder : NodeBuilder) (node : Node) : NodeBuilder :=
  { builder with nodes := builder.nodes ++ [node] }

/-- The next available node ID. -/
def NodeBuilder.nextID (builder : NodeBuilder) : ID := builder.maxID + 1

/-- The entries that a source adds, in order. -/
def NodeSource.entries (builder : NodeBuilder) : NodeSource → List Entry
  | .nodeMap nodes => nodes.entries.map fun entry => ⟨entry.1, entry.2.addr⟩
  | .nodeList addrs => addrs.zipIdx.map fun named =>
      ⟨builder.nextID + UInt32.ofNat named.2, named.1⟩

/-- Whether the nodes of a source have a verifier, or why the source is refused
before any of its entries is added. -/
def NodeSource.verifier (net : Network) : NodeSource → Except Err Bool
  | .nodeMap nodes =>
      if nodes.entries = [] then
        .error (.named "gorums: missing required node map")
      else newPeerVerifier net nodes
  | .nodeList addrs =>
      if addrs = [] then
        .error (.named "gorums: missing required node addresses")
      else .ok false

/-- The builder's nodes, sorted by ID. -/
def NodeBuilder.configuration (builder : NodeBuilder) : Config :=
  sortByID builder.nodes

/-! ## What a builder knows -/

section Builder

variable {net : Network} {builder : NodeBuilder} {entry : Entry}

theorem addrs_entries (source : NodeSource) (builder : NodeBuilder) :
    (source.entries builder).map Entry.addr = source.addrs := by
  cases source with
  | nodeMap nodes => simp [NodeSource.entries, NodeSource.addrs]
  | nodeList addrs =>
      simp only [NodeSource.entries, NodeSource.addrs, List.map_map]
      exact List.zipIdx_map_fst 0 addrs

/-- The maps of a builder are about nodes that it has seen. -/
structure NodeBuilder.Knows (net : Network) (builder : NodeBuilder)
    (seen : List Node) : Prop where
  /-- The nodes that it has seen are in the map of addresses. -/
  addrs : ∀ node ∈ seen, builder.addrToID (net.comparableAddr node.addr) ≠ none
  /-- The nodes that it has seen are in the map of IDs. -/
  ids : ∀ node ∈ seen, builder.idToNode node.id ≠ none
  /-- The map of IDs holds nodes that it has seen. -/
  found : ∀ id node, builder.idToNode id = some node →
    node ∈ seen ∧ node.id = id

theorem NodeBuilder.Knows.know {seen : List Node}
    (knows : builder.Knows net seen) (node : Node) :
    (builder.know net node).Knows net (seen ++ [node]) := by
  constructor
  · intro other member
    by_cases same : net.comparableAddr other.addr = net.comparableAddr node.addr
    · simp [NodeBuilder.know, same]
    · rcases List.mem_append.mp member with earlier | last
      · simpa [NodeBuilder.know, same] using knows.addrs other earlier
      · rw [List.mem_singleton.mp last] at same
        exact absurd rfl same
  · intro other member
    by_cases same : other.id = node.id
    · simp [NodeBuilder.know, same]
    · rcases List.mem_append.mp member with earlier | last
      · simpa [NodeBuilder.know, same] using knows.ids other earlier
      · rw [List.mem_singleton.mp last] at same
        exact absurd rfl same
  · intro id other found
    by_cases same : id = node.id
    · subst same
      simp only [NodeBuilder.know, Function.update_self,
        Option.some.injEq] at found
      subst found
      exact ⟨by simp, rfl⟩
    · simp only [NodeBuilder.know, ne_eq, same, not_false_eq_true,
        Function.update_of_ne] at found
      obtain ⟨member, equal⟩ := knows.found id other found
      exact ⟨by simp [member], equal⟩

/-- A new builder knows the nodes of its registry. -/
theorem knows_newNodeBuilder (net : Network) (existing : List Node)
    (verify : Bool) :
    (newNodeBuilder net existing verify).Knows net existing := by
  have general : ∀ (rest seen : List Node) (builder : NodeBuilder),
      builder.Knows net seen →
      (rest.foldl (NodeBuilder.know net) builder).Knows net (seen ++ rest) := by
    intro rest
    induction rest with
    | nil =>
        intro seen builder knows
        simpa using knows
    | cons node rest inductionHypothesis =>
        intro seen builder knows
        simpa using inductionHypothesis (seen ++ [node]) _ (knows.know node)
  apply general existing []
  constructor <;> simp

/-- A new builder only knows addresses of the nodes of its registry. -/
theorem exists_of_addrToID {existing : List Node} {verify : Bool}
    {addr : String}
    (known : (newNodeBuilder net existing verify).addrToID addr ≠ none) :
    ∃ node ∈ existing, net.comparableAddr node.addr = addr := by
  have general : ∀ (rest : List Node) (builder : NodeBuilder),
      (rest.foldl (NodeBuilder.know net) builder).addrToID addr ≠ none →
      builder.addrToID addr ≠ none ∨
        ∃ node ∈ rest, net.comparableAddr node.addr = addr := by
    intro rest
    induction rest with
    | nil =>
        intro builder known
        exact .inl known
    | cons node rest inductionHypothesis =>
        intro builder known
        rcases inductionHypothesis _ known with before | ⟨other, later, same⟩
        · by_cases same : addr = net.comparableAddr node.addr
          · exact .inr ⟨node, by simp, same.symm⟩
          · simp only [NodeBuilder.know, ne_eq, same, not_false_eq_true,
              Function.update_of_ne] at before
            exact .inl before
        · exact .inr ⟨other, by simp [later], same⟩
  exact (general existing _ known).resolve_left (by simp)

/-- Reading the nodes of the registry leaves the other fields alone. -/
theorem fields_newNodeBuilder (net : Network) (existing : List Node)
    (verify : Bool) :
    (newNodeBuilder net existing verify).existing = existing ∧
      (newNodeBuilder net existing verify).nodes = [] ∧
      (newNodeBuilder net existing verify).verify = verify := by
  have general : ∀ (rest : List Node) (builder : NodeBuilder),
      (rest.foldl (NodeBuilder.know net) builder).existing = builder.existing ∧
        (rest.foldl (NodeBuilder.know net) builder).nodes = builder.nodes ∧
        (rest.foldl (NodeBuilder.know net) builder).verify =
          builder.verify := by
    intro rest
    induction rest with
    | nil =>
        intro builder
        exact ⟨rfl, rfl, rfl⟩
    | cons node rest inductionHypothesis =>
        intro builder
        exact inductionHypothesis (builder.know net node)
  exact general existing _

theorem NodeBuilder.Knows.append {seen : List Node}
    (knows : builder.Knows net seen) (node : Node) :
    (builder.append node).Knows net seen :=
  ⟨knows.addrs, knows.ids, knows.found⟩

theorem comparableAddr_of_resolveAddr {addr resolved : String}
    (resolves : net.resolveAddr addr = .ok resolved) :
    net.comparableAddr addr = resolved := by
  simp [Network.comparableAddr, resolves]

/-- A builder reuses the node with the ID of an entry if the address is the
same. -/
theorem NodeBuilder.add_eq_reused {after : NodeBuilder}
    (added : builder.add net entry = .reused after) :
    ∃ node, builder.idToNode entry.id = some node ∧
      net.resolveAddr entry.addr = .ok (net.comparableAddr node.addr) ∧
      after = builder.append node := by
  unfold NodeBuilder.add at added
  dsimp only at added
  split_ifs at added
  cases resolves : net.resolveAddr entry.addr with
  | error err => simp [resolves] at added
  | ok resolved =>
      cases found : builder.idToNode entry.id with
      | none =>
          cases known : builder.addrToID resolved <;>
            simp [resolves, found, known] at added
      | some existing =>
          simp only [resolves, found] at added
          split_ifs at added with same
          cases added
          exact ⟨existing, rfl, by rw [not_not.mp same], rfl⟩

/-- A builder asks for a new node if it knows neither the ID nor the address of
an entry. -/
theorem NodeBuilder.add_eq_create {after : NodeBuilder}
    (added : builder.add net entry = .create after) :
    net.resolveAddr entry.addr = .ok (net.comparableAddr entry.addr) ∧
      builder.idToNode entry.id = none ∧
      builder.addrToID (net.comparableAddr entry.addr) = none ∧
      after = { builder with
        addrToID := Function.update builder.addrToID
          (net.comparableAddr entry.addr) (some entry.id) } := by
  unfold NodeBuilder.add at added
  dsimp only at added
  split_ifs at added
  cases resolves : net.resolveAddr entry.addr with
  | error err => simp [resolves] at added
  | ok resolved =>
      rw [comparableAddr_of_resolveAddr resolves]
      cases found : builder.idToNode entry.id with
      | some existing =>
          simp only [resolves, found] at added
          split_ifs at added
      | none =>
          cases known : builder.addrToID resolved with
          | some existingID => simp [resolves, found, known] at added
          | none =>
              simp only [resolves, found, known] at added
              cases added
              exact ⟨rfl, rfl, rfl, rfl⟩

/-- An entry that a builder does not refuse has an ID that is not reserved. -/
theorem NodeBuilder.nonzero_of_add {result : Added}
    (added : builder.add net entry = result)
    (accepted : ∀ err, result ≠ .refused err) : entry.id ≠ 0 := by
  intro zero
  unfold NodeBuilder.add at added
  rw [if_pos zero] at added
  exact accepted _ added.symm

end Builder

end Conn
end Gorums
