import Gorums.Conn.Assignment
import Gorums.Conn.PeerVerifier

/-!
# Identities in a pool that grows

A node that a pool dials is checked by the verifier of the source from which it
was created.  Each source is only compared with itself, so the nodes of two
calls may be checked against one identity, and a call may return a node that is
checked against another identity than its source declares.  Neither happens if
the source of every call declares the identity of a node of the pool for the ID
of this node, and for no other ID.
-/

namespace Gorums
namespace Conn

open Pool

/-! ## Which verifier checks a node -/

/-- The nodes that a call has created, each with the source of its verifier. -/
def Completed.origins (completed : Completed) : List (Node × NodeSource) :=
  (completed.after.nodes.drop completed.before.nodes.length).map fun node =>
    (node, completed.call.source)

/-- The nodes of a pool, each with the source of its verifier. -/
def origins (past : List Completed) : List (Node × NodeSource) :=
  past.flatMap Completed.origins

/-- A context in which identities are parsed by `parseIdentity`. -/
def parsingContext {Url : Type} (text : TextFunctions Url) (net : Network)
    (opts : DialOptions) : Context :=
  ⟨net.parsing text, opts⟩

section Checks

variable {Url : Type} (text : TextFunctions Url) (net : Network)
  (opts : DialOptions)

/-- The dial check of a node accepts a verified certificate.  Without a server
that knows the node, the verifier of its source makes the check. -/
def DialAccepts (origin : Node × NodeSource) (cert : Certificate Url) : Prop :=
  ∃ nodes want, origin.2 = .nodeMap nodes ∧
    peerIdentities (net.parsing text) nodes = .ok (some want) ∧
    opts.knownPeer origin.1.id = none ∧
    verifyPeer text want (.verified cert [] []) origin.1.id = .ok ()

/-- The identity against which a node is checked. -/
def CheckedAs (origin : Node × NodeSource) (identity : PeerIdentity) : Prop :=
  ∃ nodes, origin.2 = .nodeMap nodes ∧
    nodes.Declares text origin.1.id identity

/-- A source agrees with the nodes of a pool: the identity that it declares for
an ID is that of a node exactly if the node has this ID. -/
def Agrees (past : List Completed) (source : NodeSource) : Prop :=
  ∀ nodes id identity, source = .nodeMap nodes →
    nodes.Declares text id identity →
    ∀ origin ∈ origins past, ∀ other, CheckedAs text origin other →
      (identity.same other = true ↔ id = origin.1.id)

/-- Every call of a sequence agrees with the calls before it. -/
def Agreeing (past : List Completed) : Prop :=
  ∀ earlier completed later, past = earlier ++ completed :: later →
    Agrees text earlier completed.call.source

/-- The source has a verifier that checks the node. -/
def Verified (origin : Node × NodeSource) : Prop :=
  ∃ nodes want, origin.2 = .nodeMap nodes ∧
    peerIdentities (net.parsing text) nodes = .ok (some want) ∧
    ∃ identity, nodes.Declares text origin.1.id identity

variable {text net opts}

/-- A SAN that names an identity names every identity that is the same. -/
theorem San.Names.of_same {san : San Url} {first second : PeerIdentity}
    (same : first.same second = true) (names : san.Names text first) :
    san.Names text second := by
  unfold PeerIdentity.same at same
  cases san with
  | uri url =>
      obtain ⟨uri, rendered⟩ := names
      rw [uri] at same
      cases other : second.uri with
      | false => simp [other] at same
      | true => exact ⟨other, rendered.trans (by simpa [other] using same)⟩
  | dns name =>
      obtain ⟨dns, folded⟩ := names
      rw [dns] at same
      cases other : second.uri with
      | false => exact ⟨other, folded.trans (by simpa [other] using same)⟩
      | true => simp [other] at same

/-- A dial check accepts the certificates that carry the identity of the
node. -/
theorem dialAccepts_iff {origin : Node × NodeSource} {identity : PeerIdentity}
    {cert : Certificate Url} (noServer : opts.inboundManager = none)
    (verified : Verified text net origin)
    (checked : CheckedAs text origin identity) :
    DialAccepts text net opts origin cert ↔
      ∃ san ∈ cert.sans, san.Names text identity := by
  obtain ⟨nodes, want, source, built, _⟩ := verified
  obtain ⟨_, sameSource, declares⟩ := checked
  cases source.symm.trans sameSource
  have found := (lookup_eq_some_iff_declares built).mpr declares
  have unknown : opts.knownPeer origin.1.id = none := by
    rw [DialOptions.knownPeer, noServer]
    rfl
  rw [← carriedBy_iff_exists_names]
  constructor
  · rintro ⟨_, _, again, builtAgain, _, accepted⟩
    cases source.symm.trans again
    cases built.symm.trans builtAgain
    obtain ⟨other, foundOther, carried⟩ := verifyPeer_verified.mp accepted
    cases found.symm.trans foundOther
    exact carried
  · intro carried
    exact ⟨nodes, want, source, built, unknown,
      verifyPeer_verified.mpr ⟨identity, found, carried⟩⟩

end Checks

/-! ## One call -/

section Call

variable {Url : Type} {text : TextFunctions Url} {net : Network}
  {opts : DialOptions} {past : List Completed} {pool : Manager}
  {build : BuildCall} {state : State Manager Op}

theorem origins_concat (past : List Completed) (completed : Completed) :
    origins (past ++ [completed]) = origins past ++ completed.origins := by
  simp [origins]

/-- What holds of the nodes of a pool and their verifiers. -/
structure Sealed (text : TextFunctions Url) (net : Network)
    (past : List Completed) (pool : Manager) : Prop where
  /-- Every node has a verifier. -/
  nodes : (origins past).map Prod.fst = pool.nodes
  /-- The verifier knows the node. -/
  verified : ∀ origin ∈ origins past, Verified text net origin
  /-- Nodes that are checked against the same identity have the same ID. -/
  exclusive : ∀ first ∈ origins past, ∀ second ∈ origins past,
    ∀ identity other, CheckedAs text first identity →
      CheckedAs text second other → identity.same other = true →
      first.1.id = second.1.id

/-- A map with identities has a verifier unless it is refused. -/
theorem peerIdentities_ne_none {nodes : NodeMap}
    (declared : nodes.hasIdentity = true) :
    peerIdentities net nodes ≠ .ok none := by
  intro equal
  rw [peerIdentities, if_pos declared] at equal
  cases named : wantedIdentities net nodes.entries with
  | error err => simp [named] at equal
  | ok wanted =>
      cases apart : sameIdentity [] wanted <;> simp [named, apart] at equal

/-- A source with identities that is not refused has a verifier. -/
theorem exists_peerIdentities {source : NodeSource} {verify : Bool}
    (declared : source.hasIdentity = true)
    (verifier : source.verifier net = .ok verify) :
    ∃ nodes want, source = .nodeMap nodes ∧
      peerIdentities net nodes = .ok (some want) := by
  cases source with
  | nodeList addrs => cases declared
  | nodeMap nodes =>
      have made : newPeerVerifier net nodes = .ok verify := by
        by_cases empty : nodes.entries = []
        · simp [NodeSource.verifier, empty] at verifier
        · simpa [NodeSource.verifier, empty] using verifier
      rw [newPeerVerifier_eq_map] at made
      cases built : peerIdentities net nodes with
      | error err =>
          rw [built] at made
          cases made
      | ok wanted =>
          cases wanted with
          | none => exact absurd built (peerIdentities_ne_none declared)
          | some want => exact ⟨nodes, want, rfl, built⟩

/-- A node that a call has created is checked by the verifier of its source. -/
theorem Assigned.verified {source : NodeSource} {node : Node}
    (declared : source.hasIdentity = true)
    (assigned : Assigned (net.parsing text) pool source node) :
    Verified text net (node, source) := by
  obtain ⟨verify, done, rest, verifier, split, _⟩ := assigned
  obtain ⟨nodes, want, rfl, built⟩ := exists_peerIdentities declared verifier
  refine ⟨nodes, want, rfl, built, ?_⟩
  have listed : (⟨node.id, node.addr⟩ : Entry) ∈
      nodes.entries.map fun entry => ⟨entry.1, entry.2.addr⟩ := by
    rw [NodeSource.entriesOn, NodeSource.entries] at split
    rw [split]
    exact List.mem_append_right _ List.mem_cons_self
  obtain ⟨entry, member, equal⟩ := List.mem_map.mp listed
  have sameID : entry.1 = node.id := congrArg Entry.id equal
  obtain ⟨identity, named⟩ :=
    exists_wantedIdentity (peerIdentities_eq_some built).1 member
  obtain ⟨text_, has, parsed⟩ := wantedIdentity_eq_ok named
  exact ⟨identity, entry.2, text_, by rw [← sameID]; exact member, has, parsed⟩

/-- The nodes that a call has created so far. -/
theorem Contract.origins_eq {shared : Manager} {ops : List Op}
    (contract : Contract net pool build shared ops) :
    ∃ added, shared.nodes = pool.nodes ++ added ∧
      (∀ node ∈ added, Assigned net pool build.source node) ∧
      Completed.origins ⟨pool, build, shared⟩ =
        added.map fun node => (node, build.source) := by
  obtain ⟨added, nodes, assigned⟩ := contract.grown
  refine ⟨added, nodes, assigned, ?_⟩
  simp [Completed.origins, nodes]

/-- A call whose source agrees with the pool keeps identities exclusive. -/
theorem Sealed.call {shared : Manager} {ops : List Op}
    (sealed_ : Sealed text net past pool)
    (declared : build.source.hasIdentity = true)
    (agrees : Agrees text past build.source)
    (contract : Contract (net.parsing text) pool build shared ops) :
    Sealed text net (past ++ [⟨pool, build, shared⟩]) shared := by
  obtain ⟨added, nodes, assigned, new⟩ := contract.origins_eq
  have isNew : ∀ origin ∈ Completed.origins ⟨pool, build, shared⟩,
      origin.2 = build.source ∧ Verified text net origin := by
    intro origin member
    rw [new] at member
    obtain ⟨node, inside, rfl⟩ := List.mem_map.mp member
    exact ⟨rfl, (assigned node inside).verified declared⟩
  refine ⟨?_, ?_, ?_⟩
  · rw [origins_concat, List.map_append, sealed_.nodes, new, nodes,
      List.map_map]
    exact congrArg _ (List.map_id added)
  · intro origin member
    rw [origins_concat] at member
    rcases List.mem_append.mp member with old | recent
    · exact sealed_.verified origin old
    · exact (isNew origin recent).2
  · intro first firstMember second secondMember identity other firstChecked
      secondChecked same
    rw [origins_concat] at firstMember secondMember
    rcases List.mem_append.mp firstMember with firstOld | firstNew <;>
      rcases List.mem_append.mp secondMember with secondOld | secondNew
    · exact sealed_.exclusive first firstOld second secondOld identity other
        firstChecked secondChecked same
    · -- The new node comes second: its source agrees with the old node.
      obtain ⟨declaring, source, declares⟩ := secondChecked
      rw [(isNew second secondNew).1] at source
      rw [PeerIdentity.same_comm] at same
      exact ((agrees declaring second.1.id other source declares first firstOld
        identity firstChecked).mp same).symm
    · obtain ⟨declaring, source, declares⟩ := firstChecked
      rw [(isNew first firstNew).1] at source
      exact (agrees declaring first.1.id identity source declares second
        secondOld other secondChecked).mp same
    · -- Both nodes are new: the source has been compared with itself.
      obtain ⟨source, declaring, want, here, built, _⟩ := isNew first firstNew
      obtain ⟨_, firstSource, firstDeclares⟩ := firstChecked
      obtain ⟨_, secondSource, secondDeclares⟩ := secondChecked
      cases here.symm.trans firstSource
      rw [(isNew second secondNew).1, ← source, here] at secondSource
      cases secondSource
      exact eq_of_declares_same built firstDeclares secondDeclares same

/-- In a call that succeeds, a node of its configuration with an ID of the
source is checked against the identity that the source declares. -/
theorem Sealed.checked {shared : Manager} {ops : List Op}
    (sealed_ : Sealed text net past pool)
    (agrees : Agrees text past build.source)
    (contract : Contract (net.parsing text) pool build shared ops)
    {node : Node} (member : node ∈ shared.nodes) {nodes : NodeMap}
    (source : build.source = .nodeMap nodes) {identity : PeerIdentity}
    (declares : nodes.Declares text node.id identity) :
    ∃ origin ∈ origins (past ++ [⟨pool, build, shared⟩]), origin.1 = node ∧
      ∃ other, CheckedAs text origin other ∧ identity.same other = true := by
  obtain ⟨added, grown, _, new⟩ := contract.origins_eq
  rw [origins_concat, new]
  rw [grown, ← sealed_.nodes] at member
  rcases List.mem_append.mp member with old | recent
  · obtain ⟨origin, inside, rfl⟩ := List.mem_map.mp old
    obtain ⟨declaring, want, here, _, other, declaresOther⟩ :=
      sealed_.verified origin inside
    have checked : CheckedAs text origin other := ⟨declaring, here, declaresOther⟩
    refine ⟨origin, List.mem_append_left _ inside, rfl, other, checked, ?_⟩
    exact (agrees nodes origin.1.id identity source declares origin inside other
      checked).mpr rfl
  · refine ⟨(node, build.source), ?_, rfl, identity, ⟨nodes, source, declares⟩,
      ?_⟩
    · exact List.mem_append_right _ (List.mem_map_of_mem recent)
    · simp [PeerIdentity.same]

end Call

/-! ## Sequences of calls -/

section Sequences

variable {Url : Type} {text : TextFunctions Url} {net : Network}
  {opts : DialOptions} {past : List Completed} {pool : Manager}

theorem Agreeing.init {rest : List Completed}
    (agreeing : Agreeing text (past ++ rest)) : Agreeing text past := by
  intro earlier completed later equal
  apply agreeing earlier completed (later ++ rest)
  rw [equal, List.append_assoc, List.cons_append]

theorem Agreeing.last {completed : Completed}
    (agreeing : Agreeing text (past ++ [completed])) :
    Agrees text past completed.call.source :=
  agreeing past completed [] rfl

/-- The pool stays sealed in every sequence of calls that agree. -/
theorem History.sealed_
    (history : History (parsingContext text net opts) past pool)
    (declared : ∀ completed ∈ past, completed.call.source.hasIdentity = true)
    (agreeing : Agreeing text past) : Sealed text net past pool := by
  induction history with
  | start => exact ⟨rfl, List.forall_mem_nil _, List.forall_mem_nil _⟩
  | call call earlier runs _ inductionHypothesis =>
      obtain ⟨_, _, contract⟩ := runs.contract earlier.wellFormed
      have before := inductionHypothesis
        (fun completed member => declared completed (by simp [member]))
        agreeing.init
      have here := declared _ (List.mem_append_right _ List.mem_cons_self)
      exact before.call here agreeing.last contract

/-- A call of a sequence came after some of the calls and has kept its
contract. -/
theorem History.exists_contract {completed : Completed}
    (history : History (parsingContext text net opts) past pool)
    (member : completed ∈ past) :
    ∃ earlier later, past = earlier ++ completed :: later ∧
      History (parsingContext text net opts) earlier completed.before ∧
      Contract (net.parsing text) completed.before completed.call
        completed.after [] := by
  induction history with
  | start => cases member
  | @call past pool state call earlier runs returned inductionHypothesis =>
      rcases List.mem_append.mp member with before | last
      · obtain ⟨front, later, equal, rest⟩ := inductionHypothesis before
        exact ⟨front, later ++ [⟨pool, call, state.shared⟩],
          by rw [equal, List.append_assoc, List.cons_append], rest⟩
      · rw [List.mem_singleton.mp last]
        obtain ⟨ops, alone, contract⟩ := runs.contract earlier.wellFormed
        rw [returned] at alone
        cases alone
        exact ⟨past, [], rfl, earlier, contract⟩

/-- What a call that has succeeded returned are nodes of the pool. -/
theorem Contract.subset_of_ok {shared : Manager} {build : BuildCall}
    {ops : List Op} {call : Call} {config : Config}
    (contract : Contract net pool build shared ops)
    (succeeded : shared.returns = pool.returns ++ [⟨call, .ok config⟩]) :
    config ⊆ shared.nodes := by
  rcases contract.stage.result with ⟨_, none⟩ | ⟨other, result, returns, stands⟩
  · rw [none] at succeeded
    exact absurd succeeded (by simp)
  · rw [returns] at succeeded
    have equal := List.append_cancel_left succeeded
    cases equal
    exact (stands.2 config rfl).1

/-- Two nodes of a sealed pool do not accept one name. -/
theorem Sealed.eq_of_accepts {first second : Node × NodeSource}
    {cert : Certificate Url} {san : San Url}
    (sealed_ : Sealed text net past pool)
    (distinct : (pool.nodes.map Node.id).Nodup)
    (noServer : opts.inboundManager = none)
    (firstMember : first ∈ origins past) (secondMember : second ∈ origins past)
    (single : cert.sans = [san])
    (firstAccepts : DialAccepts text net opts first cert)
    (secondAccepts : DialAccepts text net opts second cert) :
    first.1 = second.1 := by
  have names : ∀ origin ∈ origins past, DialAccepts text net opts origin cert →
      ∃ identity, CheckedAs text origin identity ∧ san.Names text identity := by
    intro origin member accepts
    have verified := sealed_.verified origin member
    obtain ⟨nodes, _, source, _, identity, declares⟩ := verified
    have checked : CheckedAs text origin identity := ⟨nodes, source, declares⟩
    obtain ⟨other, carried, named⟩ := (dialAccepts_iff noServer
      (sealed_.verified origin member) checked).mp accepts
    rw [single, List.mem_singleton] at carried
    exact ⟨identity, checked, carried ▸ named⟩
  obtain ⟨identity, firstChecked, firstNames⟩ :=
    names first firstMember firstAccepts
  obtain ⟨other, secondChecked, secondNames⟩ :=
    names second secondMember secondAccepts
  have sameID := sealed_.exclusive first firstMember second secondMember
    identity other firstChecked secondChecked (firstNames.same secondNames)
  rw [← sealed_.nodes] at distinct
  exact List.inj_on_of_nodup_map distinct (List.mem_map_of_mem firstMember)
    (List.mem_map_of_mem secondMember) sameID

/-- In a pool without a server whose sources all declare identities, if the
source of every call declares the identity of a node of the pool for the ID of
this node and for no other ID, then no certificate with a single SAN passes the
dial checks of two nodes, and every call that succeeds returns nodes that are
checked against the identities that its source declares. -/
theorem pool_identities_exclusive (text : TextFunctions Url) (net : Network)
    (opts : DialOptions) (noServer : opts.inboundManager = none)
    (past : List Completed) (pool : Manager)
    (history : History (parsingContext text net opts) past pool)
    (build : BuildCall) (state : State Manager Op)
    (runs : RunsTo (parsingContext text net opts) pool build state)
    (declared : ∀ completed ∈ past ++ [⟨pool, build, state.shared⟩],
      completed.call.source.hasIdentity = true)
    (agreeing : Agreeing text (past ++ [⟨pool, build, state.shared⟩])) :
    (origins (past ++ [⟨pool, build, state.shared⟩])).map Prod.fst =
      state.shared.nodes ∧
    (∀ first ∈ origins (past ++ [⟨pool, build, state.shared⟩]),
      ∀ second ∈ origins (past ++ [⟨pool, build, state.shared⟩]),
      first.1 ≠ second.1 → ∀ (cert : Certificate Url) (san : San Url),
      cert.sans = [san] →
      ¬ (DialAccepts text net opts first cert ∧
        DialAccepts text net opts second cert)) ∧
    ∀ completed ∈ past, ∀ call config, completed.after.returns =
        completed.before.returns ++ [⟨call, .ok config⟩] →
      ∀ node ∈ config, ∀ nodes, completed.call.source = .nodeMap nodes →
      ∀ identity, nodes.Declares text node.id identity →
      ∃ origin ∈ origins past, origin.1 = node ∧
        ∀ cert : Certificate Url, DialAccepts text net opts origin cert ↔
          ∃ san ∈ cert.sans, san.Names text identity := by
  have declaredBefore : ∀ completed ∈ past,
      completed.call.source.hasIdentity = true := by
    intro completed member
    exact declared completed (List.mem_append_left _ member)
  obtain ⟨ops, _, contract⟩ := runs.contract history.wellFormed
  have before := history.sealed_ declaredBefore agreeing.init
  have here := declared _ (List.mem_append_right _ List.mem_cons_self)
  have after := before.call here agreeing.last contract
  refine ⟨after.nodes, ?_, ?_⟩
  · rintro first firstMember second secondMember different cert san single
      ⟨firstAccepts, secondAccepts⟩
    exact different (after.eq_of_accepts contract.wellFormed.ids noServer
      firstMember secondMember single firstAccepts secondAccepts)
  · intro completed member call config succeeded node inConfig nodes source
      identity declares
    obtain ⟨earlier, later, equal, sooner, kept⟩ :=
      history.exists_contract member
    have agreed := agreeing.init earlier completed later equal
    have inPool := kept.subset_of_ok succeeded inConfig
    have sealedBefore : Sealed text net earlier completed.before := by
      rw [equal] at declaredBefore before agreeing
      refine sooner.sealed_ (fun other inside => ?_) agreeing.init.init
      exact declaredBefore other (List.mem_append_left _ inside)
    obtain ⟨origin, inside, rfl, other, checked, same⟩ :=
      sealedBefore.checked agreed kept inPool source declares
    have inOrigins : origin ∈ origins past := by
      rw [equal, List.append_cons, origins, List.flatMap_append]
      exact List.mem_append_left _ inside
    refine ⟨origin, inOrigins, rfl, fun cert => ?_⟩
    rw [dialAccepts_iff noServer (before.verified origin inOrigins) checked]
    have back : other.same identity = true := by
      rw [PeerIdentity.same_comm]
      exact same
    constructor
    · rintro ⟨san, carried, names⟩
      exact ⟨san, carried, names.of_same back⟩
    · rintro ⟨san, carried, names⟩
      exact ⟨san, carried, names.of_same same⟩

end Sequences

/-! ## Pools of two nodes -/

/-- A map of one node with an identity. -/
def identified (id : Stream.ID) (addr identity : String) : NodeMap where
  entries := [(id, ⟨addr, some identity⟩)]
  sorted := List.pairwise_singleton _ _

theorem declares_identified {Url : Type} {text : TextFunctions Url}
    {id other : Stream.ID} {addr name : String} {identity : PeerIdentity}
    (declares : (identified id addr name).Declares text other identity) :
    other = id ∧ parseIdentity text name = .ok identity := by
  obtain ⟨node, declared, member, has, parsed⟩ := declares
  cases List.mem_singleton.mp member
  cases has
  exact ⟨rfl, parsed⟩

/-- A pool with transport credentials and no server. -/
def secured : Context := parsingContext .plain .plain { credentials := true }

/-- A new pool with a node that is checked against `u:x`. -/
def newX : BuildCall := .newConfig (.nodeMap (identified 1 "a:1" "u:x"))

theorem newX_followed :
    (runAlone secured {} newX (.replicate 10 .go)).isSome = true := by
  decide +kernel

/-- The pool of this node. -/
def poolX : Manager :=
  ((runAlone secured {} newX (.replicate 10 .go)).get newX_followed).shared

/-- The call that has created it. -/
def createdX : Completed := ⟨{}, newX, poolX⟩

theorem history_poolX : History secured [createdX] poolX :=
  .call newX .start (runsTo_runAlone newX_followed) rfl

theorem origins_createdX :
    origins [createdX] =
      [(⟨0, 1, "a:1", .outbound⟩, .nodeMap (identified 1 "a:1" "u:x"))] := rfl

/-- Another node, checked against another identity. -/
def extendY : BuildCall := .extend (.nodeMap (identified 2 "b:1" "u:y"))

theorem extendY_followed :
    (runAlone secured poolX extendY
      (.config poolX.nodes :: .replicate 13 .go)).isSome = true := by
  decide +kernel

/-- The state in which this call has returned. -/
def withY : State Manager Op :=
  (runAlone secured poolX extendY
    (.config poolX.nodes :: .replicate 13 .go)).get extendY_followed

theorem agreeing_withY :
    Agreeing TextFunctions.plain ([createdX] ++ [⟨poolX, extendY, withY.shared⟩]) := by
  intro earlier completed later equal
  match earlier, equal with
  | [], _ => exact fun _ _ _ _ _ _ absent => nomatch absent
  | [first], equal =>
      obtain ⟨rfl, rest⟩ := List.cons.inj equal
      obtain ⟨rfl, _⟩ := List.cons.inj rest
      intro nodes id identity source declares origin member other checked
      cases source
      obtain ⟨rfl, parsed⟩ := declares_identified declares
      rw [origins_createdX, List.mem_singleton] at member
      subst member
      obtain ⟨_, here, declaresOther⟩ := checked
      cases here
      obtain ⟨_, parsedOther⟩ := declares_identified declaresOther
      have first : parseIdentity TextFunctions.plain "u:y" =
          .ok ⟨"u:y", true⟩ := by decide +kernel
      have second : parseIdentity TextFunctions.plain "u:x" =
          .ok ⟨"u:x", true⟩ := by decide +kernel
      cases first.symm.trans parsed
      cases second.symm.trans parsedOther
      decide
  | first :: second :: others, equal =>
      have length := congrArg List.length equal
      simp at length

theorem pool_identities_exclusive_withY :
    (origins ([createdX] ++ [⟨poolX, extendY, withY.shared⟩])).map Prod.fst =
      withY.shared.nodes ∧ withY.shared.nodes.map Node.id = [1, 2] := by
  refine ⟨?_, by decide +kernel⟩
  exact (pool_identities_exclusive TextFunctions.plain .plain
    { credentials := true } rfl [createdX] poolX history_poolX extendY withY
    (runsTo_runAlone extendY_followed)
    (List.forall_mem_append.mpr
      ⟨List.forall_mem_singleton.mpr rfl, List.forall_mem_singleton.mpr rfl⟩)
    agreeing_withY).1

/-- Another node, checked against the identity of the first. -/
def extendX : BuildCall := .extend (.nodeMap (identified 2 "b:1" "u:x"))

theorem extendX_followed :
    (runAlone secured poolX extendX
      (.config poolX.nodes :: .replicate 13 .go)).isSome = true := by
  decide +kernel

/-- The pool after this call. -/
def poolXX : Manager :=
  ((runAlone secured poolX extendX
    (.config poolX.nodes :: .replicate 13 .go)).get extendX_followed).shared

/-- The first node again, with another identity. -/
def reuseY : BuildCall := .extend (.nodeMap (identified 1 "a:1" "u:y"))

theorem reuseY_followed :
    (runAlone secured poolX reuseY
      (.config poolX.nodes :: .replicate 8 .go)).isSome = true := by
  decide +kernel

/-- The pool after this call. -/
def poolReused : Manager :=
  ((runAlone secured poolX reuseY
    (.config poolX.nodes :: .replicate 8 .go)).get reuseY_followed).shared

/-- The certificate that carries one URI. -/
def certificateX : Certificate String := ⟨["u:x"], []⟩

/-- One certificate with a single SAN passes the dial checks of two nodes that
two calls have created; and a call returns a node that accepts a certificate
without the identity that its source declares. -/
theorem calls_share_identity :
    (History secured [createdX, ⟨poolX, extendX, poolXX⟩] poolXX ∧
      ∃ first ∈ origins [createdX, ⟨poolX, extendX, poolXX⟩],
      ∃ second ∈ origins [createdX, ⟨poolX, extendX, poolXX⟩],
        first.1 ≠ second.1 ∧ certificateX.sans = [San.uri "u:x"] ∧
        DialAccepts TextFunctions.plain .plain { credentials := true } first
          certificateX ∧
        DialAccepts TextFunctions.plain .plain { credentials := true } second
          certificateX) ∧
    (History secured [createdX, ⟨poolX, reuseY, poolReused⟩] poolReused ∧
      ∃ call config node, poolReused.returns =
          poolX.returns ++ [⟨call, .ok config⟩] ∧ node ∈ config ∧
        (identified 1 "a:1" "u:y").Declares TextFunctions.plain node.id
          ⟨"u:y", true⟩ ∧
        ∃ origin ∈ origins [createdX, ⟨poolX, reuseY, poolReused⟩],
          origin.1 = node ∧
          DialAccepts TextFunctions.plain .plain { credentials := true } origin
            certificateX ∧
          ¬ ∃ san ∈ certificateX.sans,
            san.Names TextFunctions.plain ⟨"u:y", true⟩) := by
  have first : DialAccepts TextFunctions.plain .plain { credentials := true }
      (⟨0, 1, "a:1", .outbound⟩, .nodeMap (identified 1 "a:1" "u:x"))
      certificateX :=
    ⟨_, [(1, ⟨"u:x", true⟩)], rfl, by decide +kernel, rfl, by decide +kernel⟩
  have second : DialAccepts TextFunctions.plain .plain { credentials := true }
      (⟨1, 2, "b:1", .outbound⟩, .nodeMap (identified 2 "b:1" "u:x"))
      certificateX :=
    ⟨_, [(2, ⟨"u:x", true⟩)], rfl, by decide +kernel, rfl, by decide +kernel⟩
  refine ⟨⟨?_, ?_⟩, ?_, ?_⟩
  · exact .call extendX history_poolX (runsTo_runAlone extendX_followed) rfl
  · refine ⟨(⟨0, 1, "a:1", .outbound⟩, .nodeMap (identified 1 "a:1" "u:x")),
      List.mem_cons_self,
      (⟨1, 2, "b:1", .outbound⟩, .nodeMap (identified 2 "b:1" "u:x")),
      List.mem_cons_of_mem _ List.mem_cons_self, by decide, rfl, first, second⟩
  · exact .call reuseY history_poolX (runsTo_runAlone reuseY_followed) rfl
  · refine ⟨_, _, ⟨0, 1, "a:1", .outbound⟩, rfl, List.mem_cons_self, ?_,
      (⟨0, 1, "a:1", .outbound⟩, .nodeMap (identified 1 "a:1" "u:x")),
      List.mem_cons_self, rfl, first, ?_⟩
    · exact ⟨_, "u:y", List.mem_cons_self, rfl, by decide +kernel⟩
    · rintro ⟨san, member, names⟩
      rw [show certificateX.sans = [San.uri "u:x"] from rfl,
        List.mem_singleton] at member
      subst member
      exact absurd names.2 (by decide)

end Conn
end Gorums
