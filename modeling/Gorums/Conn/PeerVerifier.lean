import Gorums.Conn.NodeSource
import Mathlib.Data.List.Pairwise

/-!
# Peer verifiers

The identities that a node map declares and the verifier that
`NewPeerVerifier` builds from them.  A verifier accepts the remote end of a
connection as a node if its verified certificate carries the name of the node:
a URI SAN for an identity with a URI scheme, and a DNS SAN for any other.
-/

namespace Gorums
namespace Conn

open Gorums.Stream

/-! ## Identities -/

/-- The functions on text of the packages `net`, `net/url` and `strconv`. -/
structure TextFunctions (Url : Type) where
  /-- `url.Parse`. -/
  parseURL : String → Except Err Url
  /-- The scheme of a URL. -/
  scheme : Url → String
  /-- `URL.String`. -/
  string : Url → String
  /-- Whether `net.ParseIP` finds an IP address. -/
  parseIP : String → Bool
  /-- `net.SplitHostPort`: the host and the port. -/
  splitHostPort : String → Except Err (String × String)
  /-- `strconv.ParseUint`, in base 10 with 16 bits. -/
  parseUint : String → Except Err Nat

/-- Whether a character is printable ASCII other than a space. -/
def isPrintable (char : Char) : Bool :=
  !(decide (char.toNat ≤ ' '.toNat) || decide ('~'.toNat < char.toNat))

/-- Whether a character may stand in a label of a DNS name. -/
def isLabelChar (char : Char) : Bool :=
  decide ('a' ≤ char ∧ char ≤ 'z') || decide ('A' ≤ char ∧ char ≤ 'Z') ||
    decide ('0' ≤ char ∧ char ≤ '9') || char == '-' || char == '_'

/-- `isDNSName`: nonempty labels, separated by dots. -/
def isDNSName (name : String) : Bool :=
  (name.toList.splitOn '.').all fun label =>
    !label.isEmpty && label.all isLabelChar

/-- `strings.EqualFold` on ASCII text. -/
def equalFold (first second : String) : Bool :=
  first.toLower == second.toLower

section Parse

variable {Url : Type} (text : TextFunctions Url)

/-- `isNetworkAddress`. -/
def isNetworkAddress (name : String) : Bool :=
  if text.parseIP name then true
  else
    match text.splitHostPort name with
    | .error _ => false
    | .ok (_, port) => (text.parseUint port).isOk

/-- The part of `parseIdentity` for text that does not name a URI. -/
def parseDNSIdentity (name : String) : Except Err PeerIdentity :=
  if name.toList.contains '*' then
    .error (.named "wildcard DNS names never establish identity")
  else if !isDNSName name then
    .error (.named "it is neither a URI with a scheme nor a DNS name")
  else .ok ⟨name, false⟩

/-- `parseIdentity`: the SAN that a certificate must carry for an identity. -/
def parseIdentity (name : String) : Except Err PeerIdentity :=
  if !name.toList.all isPrintable then
    .error (.named "it must be printable ASCII without spaces")
  else if isNetworkAddress text name then
    .error (.named "it is a network address, not a certificate name")
  else
    match text.parseURL name with
    | .ok url =>
        if text.scheme url ≠ "" then .ok ⟨text.string url, true⟩
        else parseDNSIdentity name
    | .error _ => parseDNSIdentity name

/-- A DNS identity that is accepted is the text itself, without a wildcard. -/
theorem parseDNSIdentity_eq_ok {name : String} {identity : PeerIdentity}
    (parsed : parseDNSIdentity name = .ok identity) :
    '*' ∉ name.toList ∧ identity = ⟨name, false⟩ := by
  unfold parseDNSIdentity at parsed
  split_ifs at parsed with wildcard dns
  cases parsed
  exact ⟨by simpa using wildcard, rfl⟩

/-- A DNS identity holds no wildcard. -/
theorem not_mem_of_parseIdentity {name : String} {identity : PeerIdentity}
    (parsed : parseIdentity text name = .ok identity)
    (dns : identity.uri = false) : '*' ∉ identity.name.toList := by
  have plain : parseDNSIdentity name = .ok identity →
      '*' ∉ identity.name.toList := by
    intro parsed
    obtain ⟨plain, rfl⟩ := parseDNSIdentity_eq_ok parsed
    exact plain
  unfold parseIdentity at parsed
  split_ifs at parsed with printable network
  cases address : text.parseURL name with
  | error err =>
      rw [address] at parsed
      exact plain parsed
  | ok url =>
      rw [address] at parsed
      dsimp only at parsed
      split_ifs at parsed with scheme
      · cases parsed
        cases dns
      · exact plain parsed

end Parse

/-! ## Verifiers -/

/-- `kind`: the type of SAN that an identity names. -/
def PeerIdentity.kind (identity : PeerIdentity) : String :=
  if identity.uri then "URI" else "DNS"

/-- The names that a certificate carries. -/
structure Certificate (Url : Type) where
  /-- The URI SANs. -/
  uris : List Url
  /-- The DNS SANs. -/
  dnsNames : List String

/-- The remote end of a connection, as a context describes it. -/
inductive RemoteEnd (Url : Type)
  /-- The context carries no peer. -/
  | unknown
  /-- The connection does not use TLS. -/
  | plain
  /-- The chains of certificates that the TLS handshake has verified. -/
  | tls (verifiedChains : List (List (Certificate Url)))

/-- The remote end whose leaf certificate is verified. -/
def RemoteEnd.verified {Url : Type} (leaf : Certificate Url)
    (issuers : List (Certificate Url)) (chains : List (List (Certificate Url))) :
    RemoteEnd Url :=
  .tls ((leaf :: issuers) :: chains)

/-- The certificate names of the entries of a map, by their IDs. -/
def wantedIdentities (net : Network) (entries : List (ID × NodeAddress)) :
    Except Err (List (ID × PeerIdentity)) :=
  entries.mapM fun entry =>
    (wantedIdentity net entry).map fun wanted => (entry.1, wanted)

/-- The certificate names by which the verifier of `NewPeerVerifier` knows the
nodes; `none` if there is no verifier. -/
def peerIdentities (net : Network) (nodes : NodeMap) :
    Except Err (Option (List (ID × PeerIdentity))) :=
  if nodes.hasIdentity then
    match wantedIdentities net nodes.entries with
    | .error err => .error err
    | .ok wanted =>
        match sameIdentity [] wanted with
        | some err => .error err
        | none => .ok (some wanted)
  else .ok none

section Verify

variable {Url : Type} (text : TextFunctions Url)

/-- Whether a certificate carries the name of an identity. -/
def PeerIdentity.carriedBy (identity : PeerIdentity) (cert : Certificate Url) :
    Bool :=
  if identity.uri then cert.uris.any fun url => text.string url == identity.name
  else cert.dnsNames.any fun name => equalFold name identity.name

/-- The verifier of `NewPeerVerifier`: check that a remote end is the node with
an ID. -/
def verifyPeer (want : List (ID × PeerIdentity)) (remote : RemoteEnd Url)
    (id : ID) : Except Err Unit :=
  match remote with
  | .unknown =>
      .error (.named "no peer information in the stream context")
  | .plain => .error (.named "connection does not use TLS")
  | .tls [] | .tls ([] :: _) => .error (.named
      ("no verified certificate; the dialer must present its certificate, " ++
        "the server's ClientAuth must verify client certificates, and the " ++
        "dialer must not set InsecureSkipVerify"))
  | .tls ((cert :: _) :: _) =>
      match want.lookup id with
      | none => .error (.named s!"no identity configured for node {id}")
      | some identity =>
          if identity.carriedBy text cert then .ok ()
          else
            let kind := identity.kind
            let name := identity.name
            .error (.named s!"certificate has no {kind} SAN equal to \"{name}\"")

end Verify

/-- The pool asks only whether there is a verifier. -/
theorem newPeerVerifier_eq_map (net : Network) (nodes : NodeMap) :
    newPeerVerifier net nodes =
      (peerIdentities net nodes).map Option.isSome := by
  have named : (nodes.entries.mapM fun entry =>
      (wantedIdentity net entry).map fun wanted => (entry.1, wanted)) =
      wantedIdentities net nodes.entries := rfl
  rw [newPeerVerifier, peerIdentities, named]
  cases nodes.hasIdentity with
  | false => rfl
  | true =>
      cases wantedIdentities net nodes.entries with
      | error err => rfl
      | ok wanted =>
          cases same : sameIdentity [] wanted with
          | some err => simp [same, Except.map]
          | none => simp [same, Except.map]

/-! ## What a verifier knows -/

section Identities

variable {net : Network} {entries : List (ID × NodeAddress)}
  {want : List (ID × PeerIdentity)}

/-- One name stands beside each entry. -/
theorem forall₂_wantedIdentities
    (wanted : wantedIdentities net entries = .ok want) :
    List.Forall₂ (fun entry named => named.1 = entry.1 ∧
      wantedIdentity net entry = .ok named.2) entries want := by
  induction entries generalizing want with
  | nil =>
      cases wanted
      exact .nil
  | cons entry entries inductionHypothesis =>
      simp only [wantedIdentities, List.mapM_cons] at wanted
      cases first : wantedIdentity net entry with
      | error err =>
          rw [first] at wanted
          cases wanted
      | ok identity =>
          cases others : wantedIdentities net entries with
          | error err =>
              rw [wantedIdentities] at others
              rw [first, others] at wanted
              cases wanted
          | ok rest =>
              have tail := inductionHypothesis others
              rw [wantedIdentities] at others
              rw [first, others] at wanted
              cases wanted
              exact .cons ⟨rfl, first⟩ tail

/-- An identity that is accepted has no earlier one that is the same. -/
theorem pairwise_of_sameIdentity {wanted rest : List (ID × PeerIdentity)}
    (accepted : sameIdentity wanted rest = none) :
    rest.Pairwise (fun lower higher => lower.2.same higher.2 = false) ∧
      ∀ lower ∈ wanted, ∀ higher ∈ rest, lower.2.same higher.2 = false := by
  induction rest generalizing wanted with
  | nil => exact ⟨.nil, fun _ _ _ absent => nomatch absent⟩
  | cons named rest inductionHypothesis =>
      obtain ⟨id, identity⟩ := named
      rw [sameIdentity] at accepted
      split at accepted
      · cases accepted
      · rename_i unseen
        have apart := List.find?_eq_none.mp unseen
        obtain ⟨later, across⟩ := inductionHypothesis accepted
        refine ⟨.cons ?_ later, ?_⟩
        · intro higher member
          exact across (id, identity) (by simp) higher member
        · intro lower known higher member
          rcases List.mem_cons.mp member with rfl | after
          · exact Bool.eq_false_of_not_eq_true (apart lower known)
          · exact across lower (by simp [known]) higher after

/-- What `NewPeerVerifier` has checked when it returns a verifier. -/
theorem peerIdentities_eq_some {nodes : NodeMap}
    (built : peerIdentities net nodes = .ok (some want)) :
    wantedIdentities net nodes.entries = .ok want ∧
      sameIdentity [] want = none := by
  unfold peerIdentities at built
  split_ifs at built with declared
  · cases named : wantedIdentities net nodes.entries <;>
      rw [named] at built <;> dsimp only at built
    · cases built
    · rename_i wanted
      cases apart : sameIdentity [] wanted <;> rw [apart] at built <;>
        cases built
      exact ⟨rfl, apart⟩
  · cases built

/-- Being the same identity goes both ways. -/
theorem PeerIdentity.same_comm (first second : PeerIdentity) :
    first.same second = second.same first := by
  unfold PeerIdentity.same
  cases first.uri <;> cases second.uri <;> simp [Bool.beq_comm]

instance : Std.Symm fun first second : ID × PeerIdentity =>
    first.2.same second.2 = false where
  symm first second apart := by rw [PeerIdentity.same_comm, apart]

/-- The verifier has the IDs of the map. -/
theorem map_fst_wantedIdentities
    (wanted : wantedIdentities net entries = .ok want) :
    want.map Prod.fst = entries.map Prod.fst := by
  have pairs := forall₂_wantedIdentities wanted
  clear wanted
  induction pairs with
  | nil => rfl
  | cons named _ inductionHypothesis =>
      rw [List.map_cons, List.map_cons, named.1]
      exact congrArg _ inductionHypothesis

/-- The verifier knows the name of each entry. -/
theorem mem_wantedIdentities {id : ID} {identity : PeerIdentity}
    (wanted : wantedIdentities net entries = .ok want) :
    (id, identity) ∈ want ↔
      ∃ node, (id, node) ∈ entries ∧
        wantedIdentity net (id, node) = .ok identity := by
  have pairs := forall₂_wantedIdentities wanted
  clear wanted
  induction pairs with
  | nil => simp
  | @cons entry named entries want head tail inductionHypothesis =>
      obtain ⟨key, node⟩ := entry
      obtain ⟨_, name⟩ := named
      obtain ⟨rfl, parsed⟩ := head
      constructor
      · intro member
        rcases List.mem_cons.mp member with first | later
        · cases first
          exact ⟨node, by simp, parsed⟩
        · obtain ⟨other, known, named⟩ := inductionHypothesis.mp later
          exact ⟨other, List.mem_cons_of_mem _ known, named⟩
      · rintro ⟨other, member, named⟩
        rcases List.mem_cons.mp member with first | later
        · cases first
          cases parsed.symm.trans named
          exact List.mem_cons_self
        · exact List.mem_cons_of_mem _
            (inductionHypothesis.mpr ⟨other, later, named⟩)

/-- A name that an entry gives is its parsed identity. -/
theorem wantedIdentity_eq_ok {entry : ID × NodeAddress}
    {identity : PeerIdentity}
    (named : wantedIdentity net entry = .ok identity) :
    ∃ declared, entry.2.identity = some declared ∧
      net.parseIdentity declared = .ok identity := by
  unfold wantedIdentity at named
  cases has : entry.2.identity with
  | none =>
      rw [has] at named
      cases named
  | some declared =>
      rw [has] at named
      dsimp only at named
      split_ifs at named with empty
      cases parsed : net.parseIdentity declared <;> rw [parsed] at named <;>
        cases named
      exact ⟨declared, rfl, parsed⟩

/-- Every entry of a map with a verifier has a name. -/
theorem exists_wantedIdentity {entry : ID × NodeAddress}
    (wanted : wantedIdentities net entries = .ok want)
    (member : entry ∈ entries) :
    ∃ identity, wantedIdentity net entry = .ok identity := by
  have pairs := forall₂_wantedIdentities wanted
  clear wanted
  induction pairs with
  | nil => cases member
  | cons head _ inductionHypothesis =>
      rcases List.mem_cons.mp member with rfl | later
      · exact ⟨_, head.2⟩
      · exact inductionHypothesis later

/-- With distinct IDs, the map of names is its list of entries. -/
theorem lookup_eq_some_iff_mem {id : ID} {identity : PeerIdentity}
    (distinct : (want.map Prod.fst).Nodup) :
    want.lookup id = some identity ↔ (id, identity) ∈ want := by
  rw [List.lookup_eq_some_iff]
  constructor
  · rintro ⟨before, after, rfl, -⟩
    simp
  · intro member
    obtain ⟨before, after, rfl⟩ := List.append_of_mem member
    refine ⟨before, after, rfl, ?_⟩
    intro earlier seen
    rw [List.map_append, List.map_cons, List.nodup_append] at distinct
    have apart := distinct.2.2 earlier.1 (List.mem_map_of_mem seen) id (by simp)
    simpa using Ne.symm apart

end Identities

/-! ## Exclusive identities -/

/-- A name that a certificate carries. -/
inductive San (Url : Type)
  /-- A URI SAN. -/
  | uri (url : Url)
  /-- A DNS SAN. -/
  | dns (name : String)

/-- The SANs of a certificate. -/
def Certificate.sans {Url : Type} (cert : Certificate Url) : List (San Url) :=
  cert.uris.map San.uri ++ cert.dnsNames.map San.dns

/-- A network whose identities are parsed by `parseIdentity`. -/
def Network.parsing {Url : Type} (net : Network) (text : TextFunctions Url) :
    Network :=
  { net with parseIdentity := Conn.parseIdentity text }

section Exclusive

variable {Url : Type} (text : TextFunctions Url)

/-- A SAN names an identity: the rendered URI is its name, or the DNS name is
its name up to the case of ASCII letters. -/
def San.Names (san : San Url) (identity : PeerIdentity) : Prop :=
  match san with
  | .uri url => identity.uri = true ∧ text.string url = identity.name
  | .dns name =>
      identity.uri = false ∧ name.toLower = identity.name.toLower

/-- The map declares an identity for an ID. -/
def NodeMap.Declares (nodes : NodeMap) (id : ID) (identity : PeerIdentity) :
    Prop :=
  ∃ node declared, (id, node) ∈ nodes.entries ∧
    node.identity = some declared ∧ parseIdentity text declared = .ok identity

variable {text}

theorem carriedBy_iff_exists_names {identity : PeerIdentity}
    {cert : Certificate Url} :
    identity.carriedBy text cert = true ↔
      ∃ san ∈ cert.sans, san.Names text identity := by
  cases uri : identity.uri with
  | false => simp [PeerIdentity.carriedBy, Certificate.sans, San.Names, uri,
      equalFold, or_and_right, exists_or]
  | true => simp [PeerIdentity.carriedBy, Certificate.sans, San.Names, uri,
      or_and_right, exists_or]

/-- Two identities that one SAN names are the same. -/
theorem San.Names.same {san : San Url} {first second : PeerIdentity}
    (namesFirst : san.Names text first) (namesSecond : san.Names text second) :
    first.same second = true := by
  cases san with
  | uri url =>
      obtain ⟨uri, rendered⟩ := namesFirst
      obtain ⟨uri', rendered'⟩ := namesSecond
      simp [PeerIdentity.same, uri, uri', ← rendered, ← rendered']
  | dns name =>
      obtain ⟨dns, folded⟩ := namesFirst
      obtain ⟨dns', folded'⟩ := namesSecond
      simp [PeerIdentity.same, dns, dns', ← folded, ← folded']

/-- No letter is lowered to a wildcard. -/
theorem eq_of_toLower_eq {char : Char} (lower : char.toLower = '*') :
    char = '*' := by
  unfold Char.toLower at lower
  split at lower
  · rename_i upper
    have first : 65 ≤ char.val.toNat := UInt32.le_iff_toNat_le.mp upper.1
    have last : char.val.toNat ≤ 90 := UInt32.le_iff_toNat_le.mp upper.2
    have value := congrArg (fun lowered : Char => lowered.val.toNat) lower
    simp only [UInt32.toNat_add] at value
    have shift : ('a'.val - 'A'.val).toNat = 32 := rfl
    have star : '*'.val.toNat = 42 := rfl
    omega
  · exact lower

theorem toList_toLower (name : String) :
    name.toLower.toList = name.toList.map Char.toLower :=
  String.toList_map

/-- A DNS name with a wildcard only folds to names with a wildcard. -/
theorem mem_of_toLower_eq {name other : String}
    (wildcard : '*' ∈ name.toList) (folded : name.toLower = other.toLower) :
    '*' ∈ other.toList := by
  have lowered : '*' ∈ name.toLower.toList := by
    rw [toList_toLower]
    exact List.mem_map.mpr ⟨'*', wildcard, rfl⟩
  rw [folded, toList_toLower] at lowered
  obtain ⟨char, member, lower⟩ := List.mem_map.mp lowered
  rwa [← eq_of_toLower_eq lower]

/-- A verifier accepts a verified certificate that carries the name of the
node. -/
theorem verifyPeer_verified {want : List (ID × PeerIdentity)}
    {leaf : Certificate Url} {issuers : List (Certificate Url)}
    {chains : List (List (Certificate Url))} {id : ID} :
    verifyPeer text want (.verified leaf issuers chains) id = .ok () ↔
      ∃ identity, want.lookup id = some identity ∧
        identity.carriedBy text leaf = true := by
  unfold RemoteEnd.verified verifyPeer
  cases want.lookup id with
  | none => simp
  | some identity =>
      cases carried : identity.carriedBy text leaf <;> simp [carried]

/-- The names of a verifier are those that its map declares. -/
theorem lookup_eq_some_iff_declares {net : Network} {nodes : NodeMap}
    {want : List (ID × PeerIdentity)} {id : ID} {identity : PeerIdentity}
    (built : peerIdentities (net.parsing text) nodes = .ok (some want)) :
    want.lookup id = some identity ↔ nodes.Declares text id identity := by
  obtain ⟨wanted, -⟩ := peerIdentities_eq_some built
  have distinct : (want.map Prod.fst).Nodup := by
    rw [map_fst_wantedIdentities wanted]
    exact nodes.sorted.imp UInt32.ne_of_lt
  rw [lookup_eq_some_iff_mem distinct, mem_wantedIdentities wanted]
  constructor
  · rintro ⟨node, member, named⟩
    obtain ⟨declared, has, parsed⟩ := wantedIdentity_eq_ok named
    exact ⟨node, declared, member, has, parsed⟩
  · rintro ⟨node, declared, member, has, parsed⟩
    obtain ⟨other, named⟩ := exists_wantedIdentity wanted member
    obtain ⟨declared', has', parsed'⟩ := wantedIdentity_eq_ok named
    cases has.symm.trans has'
    cases parsed.symm.trans parsed'
    exact ⟨node, member, named⟩

/-- Two IDs of a map do not declare the same identity. -/
theorem eq_of_declares_same {net : Network} {nodes : NodeMap}
    {want : List (ID × PeerIdentity)} {first second : ID}
    {firstIdentity secondIdentity : PeerIdentity}
    (built : peerIdentities (net.parsing text) nodes = .ok (some want))
    (declaresFirst : nodes.Declares text first firstIdentity)
    (declaresSecond : nodes.Declares text second secondIdentity)
    (same : firstIdentity.same secondIdentity = true) : first = second := by
  obtain ⟨wanted, accepted⟩ := peerIdentities_eq_some built
  have member {id : ID} {identity : PeerIdentity}
      (declares : nodes.Declares text id identity) : (id, identity) ∈ want := by
    have found := (lookup_eq_some_iff_declares built).mpr declares
    obtain ⟨before, after, rfl, -⟩ := List.lookup_eq_some_iff.mp found
    simp
  have apart := (pairwise_of_sameIdentity accepted).1
  by_contra different
  have unlike := apart.forall (member declaresFirst) (member declaresSecond)
    (fun equal => different (congrArg Prod.fst equal))
  rw [same] at unlike
  cases unlike

/-- A verifier accepts a verified certificate as a node exactly if one of its
SANs names the identity that the map declares for the node.  No SAN names the
identities of two nodes, and no DNS name with a wildcard names any. -/
theorem verifier_exclusive (text : TextFunctions Url) (net : Network)
    (nodes : NodeMap) (want : List (ID × PeerIdentity))
    (built : peerIdentities (net.parsing text) nodes = .ok (some want)) :
    (∀ leaf issuers chains id,
      verifyPeer text want (.verified leaf issuers chains) id = .ok () ↔
        ∃ identity, nodes.Declares text id identity ∧
          ∃ san ∈ leaf.sans, san.Names text identity) ∧
    (∀ (san : San Url) (first second : ID)
      (firstIdentity secondIdentity : PeerIdentity),
      nodes.Declares text first firstIdentity →
      nodes.Declares text second secondIdentity →
      san.Names text firstIdentity → san.Names text secondIdentity →
      first = second) ∧
    (∀ (name : String), '*' ∈ name.toList →
      ∀ (id : ID) (identity : PeerIdentity), nodes.Declares text id identity →
        ¬ (San.dns name : San Url).Names text identity) := by
  refine ⟨?_, ?_, ?_⟩
  · intro leaf issuers chains id
    rw [verifyPeer_verified]
    constructor
    · rintro ⟨identity, found, carried⟩
      exact ⟨identity, (lookup_eq_some_iff_declares built).mp found,
        carriedBy_iff_exists_names.mp carried⟩
    · rintro ⟨identity, declares, named⟩
      exact ⟨identity, (lookup_eq_some_iff_declares built).mpr declares,
        carriedBy_iff_exists_names.mpr named⟩
  · intro san first second firstIdentity secondIdentity declaresFirst
      declaresSecond namesFirst namesSecond
    exact eq_of_declares_same built declaresFirst declaresSecond
      (namesFirst.same namesSecond)
  · intro name wildcard id identity declares names
    obtain ⟨node, declared, -, -, parsed⟩ := declares
    exact not_mem_of_parseIdentity text parsed names.1
      (mem_of_toLower_eq wildcard names.2)

end Exclusive

/-- Text functions for which a name with a colon is a URI. -/
def TextFunctions.plain : TextFunctions String where
  parseURL := .ok
  scheme name := if name.toList.contains ':' then "uri" else ""
  string := id
  parseIP _ := false
  splitHostPort _ := .error (.named "missing port in address")
  parseUint _ := .ok 0

/-- A node with a DNS identity and a node with a URI identity. -/
def twoIdentities : NodeMap where
  entries := [(1, ⟨"a:1", some "one.example"⟩), (2, ⟨"b:1", some "spiffe:two"⟩)]
  sorted := by decide

/-- The certificate that carries one DNS name. -/
def Certificate.ofName (name : String) : Certificate String := ⟨[], [name]⟩

theorem verifier_exclusive_twoIdentities :
    ∃ want,
      peerIdentities (Network.plain.parsing .plain) twoIdentities =
        .ok (some want) ∧
      verifyPeer TextFunctions.plain want
        (.verified (.ofName "ONE.example") [] []) 1 = .ok () ∧
      verifyPeer TextFunctions.plain want
        (.verified (.ofName "ONE.example") [] []) 2 ≠ .ok () := by
  have built : peerIdentities (Network.plain.parsing .plain) twoIdentities =
      .ok (some [(1, ⟨"one.example", false⟩), (2, ⟨"spiffe:two", true⟩)]) := by
    decide +kernel
  obtain ⟨accepts, exclusive, -⟩ := verifier_exclusive TextFunctions.plain
    Network.plain twoIdentities _ built
  have declares : twoIdentities.Declares TextFunctions.plain 1
      ⟨"one.example", false⟩ :=
    ⟨⟨"a:1", some "one.example"⟩, "one.example", List.mem_cons_self, rfl,
      by decide +kernel⟩
  have folded : "ONE.example".toLower = "one.example".toLower := by
    apply String.toList_inj.mp
    rw [toList_toLower, toList_toLower]
    decide
  have names : (San.dns "ONE.example").Names TextFunctions.plain
      ⟨"one.example", false⟩ := ⟨rfl, folded⟩
  have sans : (Certificate.ofName "ONE.example").sans =
      [San.dns "ONE.example"] := rfl
  refine ⟨_, built, (accepts _ _ _ 1).mpr ?_, fun accepted => ?_⟩
  · rw [sans]
    exact ⟨_, declares, _, List.mem_singleton_self _, names⟩
  · have other := (accepts _ _ _ 2).mp accepted
    rw [sans] at other
    obtain ⟨identity, declaresOther, san, member, namesOther⟩ := other
    rw [List.mem_singleton.mp member] at namesOther
    exact absurd (exclusive _ 1 2 _ _ declares declaresOther names namesOther)
      (by decide)

end Conn
end Gorums
