import Gorums.Conn.Membership
import Mathlib.Data.Nat.Digits.Lemmas

/-!
# Attribution of inbound requests

A request is handled with the ID of the channel on which it arrives.  This is
the ID of a known peer only if the stream claimed this ID and passed the checks
of the server; every other ID is zero or belongs to one stream alone.
-/

namespace Gorums
namespace Conn

open Gorums.Stream

/-! ## Decimal numbers -/

/-- The number that a text of decimal digits denotes. -/
def decimalValue (chars : List Char) : Nat :=
  Nat.ofDigits 10 (chars.reverse.map fun char => char.toNat - '0'.toNat)

/-- A text is a decimal number with a value of so many bits. -/
structure Decimal (text : String) (bits value : Nat) : Prop where
  /-- There is a digit. -/
  nonempty : text.toList ≠ []
  /-- There are only digits. -/
  digits : ∀ char ∈ text.toList, char.isDigit = true
  /-- They denote the value. -/
  denotes : value = decimalValue text.toList
  /-- The value fits. -/
  fits : value < 2 ^ bits

theorem decimalValue_cons (char : Char) (chars : List Char) :
    decimalValue (char :: chars) =
      (char.toNat - '0'.toNat) * 10 ^ chars.length + decimalValue chars := by
  rw [decimalValue, List.reverse_cons, List.map_append, Nat.ofDigits_append,
    decimalValue]
  simp only [List.map_singleton, Nat.ofDigits_singleton, List.length_map,
    List.length_reverse]
  ring

/-- The loop of `parseUint` computes the value of the digits. -/
theorem foldlM_addDigit {chars : List Char} {start value : Nat} :
    chars.foldlM addDigit start = some value ↔
      (∀ char ∈ chars, char.isDigit = true) ∧
        value = start * 10 ^ chars.length + decimalValue chars := by
  induction chars generalizing start with
  | nil =>
      simp only [List.foldlM_nil, Option.pure_def, Option.some.injEq,
        decimalValue, List.reverse_nil, List.map_nil, Nat.ofDigits_nil,
        List.length_nil, pow_zero, mul_one, add_zero, List.not_mem_nil,
        false_implies, implies_true, true_and]
      exact eq_comm
  | cons char chars inductionHypothesis =>
      rw [List.foldlM_cons]
      by_cases digit : char.isDigit = true
      · have added : addDigit start char =
            some (10 * start + (char.toNat - '0'.toNat)) := by
          simp [addDigit, digitValue, digit]
        rw [added, Option.bind_eq_bind, Option.bind_some, inductionHypothesis,
          List.forall_mem_cons, decimalValue_cons, List.length_cons]
        simp only [digit, true_and]
        refine and_congr_right fun _ => ?_
        have same : (10 * start + (char.toNat - '0'.toNat)) *
              10 ^ chars.length + decimalValue chars =
            start * 10 ^ (chars.length + 1) +
              ((char.toNat - '0'.toNat) * 10 ^ chars.length +
                decimalValue chars) := by
          ring
        rw [same]
      · have refused : addDigit start char = none := by
          simp [addDigit, digitValue, digit]
        rw [refused]
        simp [digit]

/-- What `parseUint` accepts is a decimal number. -/
theorem parseUint_eq_some {text : String} {bits value : Nat} :
    parseUint text bits = some value ↔ Decimal text bits value := by
  unfold parseUint
  split
  · rename_i empty
    constructor
    · intro none
      cases none
    · intro decimal
      exact absurd empty decimal.nonempty
  · rename_i nonempty
    rw [Option.filter_eq_some_iff, foldlM_addDigit]
    simp only [Nat.zero_mul, Nat.zero_add, decide_eq_true_eq]
    constructor
    · rintro ⟨⟨digits, equal⟩, fits⟩
      exact ⟨nonempty, digits, equal, fits⟩
    · intro decimal
      exact ⟨⟨decimal.digits, decimal.denotes⟩, decimal.fits⟩

/-- A stream that claims an ID other than zero has it as the first value of its
metadata. -/
theorem decimal_nodeID {context : StreamContext} (claims : nodeID context ≠ 0) :
    ∃ first rest, context.incoming = some (first :: rest) ∧
      Decimal first 32 (nodeID context).toNat := by
  unfold nodeID at claims ⊢
  split at claims
  · exact absurd rfl claims
  · exact absurd rfl claims
  · rename_i first rest incoming
    refine ⟨first, rest, incoming, ?_⟩
    split at claims
    · exact absurd rfl claims
    · rename_i value parsed
      have decimal := parseUint_eq_some.mp parsed
      rw [UInt32.toNat_ofNat', Nat.mod_eq_of_lt decimal.fits]
      exact decimal

/-! ## Accepted streams -/

section Accept

variable {server : Server} {state after : InboundManager}
  {context : StreamContext} {changes : List (List Nat)}

/-- How an event changes the list of accepted streams. -/
inductive AcceptStep (server : Server) (state after : InboundManager) : Prop
  | same (streams : after.accepted = state.accepted)
  | accepted (context : StreamContext) (tracking : Tracking)
      (unrefused : server.refuses context = none)
      (claimed : ∀ id, tracking = .peer id → nodeID context = id)
      (streams : after.accepted = state.accepted ++ [⟨context, tracking⟩])

theorem acceptStep_acceptPeer (server : Server) (changes : List (List Nat))
    (state : InboundManager) (context : StreamContext) :
    AcceptStep server state (state.acceptPeer server changes context).1 := by
  unfold InboundManager.acceptPeer
  split
  · exact .same rfl
  · rename_i unrefused
    dsimp only
    split
    · refine .accepted context (.peer (nodeID context)) unrefused ?_ rfl
      intro id equal
      exact Tracking.peer.inj equal
    · split
      · exact .accepted context .untracked unrefused (by simp) rfl
      · split
        · unfold InboundManager.acceptClient
          split
          · exact .same rfl
          · exact .accepted context (.client _) unrefused (by simp) rfl
        · exact .accepted context .untracked unrefused (by simp) rfl

theorem acceptStep_cleanup {channel : Nat}
    (cleaned : state.cleanup server changes channel = some after) :
    after.accepted = state.accepted := by
  obtain ⟨accepted, found, equal⟩ := Option.map_eq_some_iff.mp cleaned
  rw [← equal]
  cases accepted.tracking with
  | peer id =>
      simp only [InboundManager.detachPeer]
      split <;> rfl
  | client node =>
      simp only [InboundManager.detachClient]
      split <;> rfl
  | untracked => rfl

theorem acceptStep_step {event : Event}
    (stepped : state.step server event = some after) :
    AcceptStep server state after := by
  cases event with
  | accept context changes =>
      rw [← Option.some.inj stepped]
      exact acceptStep_acceptPeer server changes state context
  | cleanup channel changes => exact .same (acceptStep_cleanup stepped)
  | setPeerConfig config changes =>
      rw [← Option.some.inj stepped]
      exact .same rfl
  | streamChange ref =>
      rw [← Option.some.inj stepped]
      exact .same rfl
  | onStreamChange changes =>
      have callback : state.onStreamChange server changes = some after := stepped
      unfold InboundManager.onStreamChange at callback
      split at callback
      · rw [← Option.some.inj callback]
        exact .same rfl
      · cases callback

/-- The stream of a peer claimed the ID of the peer and was not refused. -/
def Claims (server : Server) (state : InboundManager) : Prop :=
  ∀ accepted ∈ state.accepted, ∀ id, accepted.tracking = .peer id →
    nodeID accepted.context = id ∧ server.refuses accepted.context = none

theorem claims_step {event : Event} (claims : Claims server state)
    (stepped : state.step server event = some after) : Claims server after := by
  intro accepted member id tracked
  cases acceptStep_step stepped with
  | same streams =>
      rw [streams] at member
      exact claims accepted member id tracked
  | accepted context tracking unrefused claimed streams =>
      rw [streams, List.mem_append, List.mem_singleton] at member
      rcases member with before | last
      · exact claims accepted before id tracked
      · rw [last] at tracked ⊢
        exact ⟨claimed id tracked, unrefused⟩

/-- A server with a verifier only accepts the claim of another known peer that
the verifier accepts. -/
theorem refuses_eq_none {verify : StreamContext → ID → Option Err}
    (verifier : server.verify = some verify)
    (unrefused : server.refuses context = none)
    (claims : nodeID context ≠ 0) :
    server.isKnown (nodeID context) = true ∧
      verify context (nodeID context) = none := by
  simp only [Server.refuses, verifier, if_neg claims] at unrefused
  split at unrefused
  · cases unrefused
  · split at unrefused
    · exact ⟨‹_›, Option.map_eq_none_iff.mp unrefused⟩
    · cases unrefused

/-- A stream that is refused leaves the nodes, the views and the accepted
streams alone. -/
theorem refused_unchanged {err : Err}
    (refused : (state.acceptPeer server changes context).2 = some err) :
    ∃ candidate, (state.acceptPeer server changes context).1 =
      { state with nextClientID := candidate } := by
  revert refused
  unfold InboundManager.acceptPeer
  split
  · intro _
    exact ⟨state.nextClientID, rfl⟩
  · dsimp only
    split
    · intro refused
      cases refused
    · split
      · intro refused
        cases refused
      · split
        · unfold InboundManager.acceptClient
          split
          · rename_i next _
            intro _
            exact ⟨next, rfl⟩
          · intro refused
            cases refused
        · intro refused
          cases refused

end Accept

/-! ## Attribution -/

/-- The stream of a sender claimed its ID, and the server's checks accepted the
claim. -/
structure Attributed (server : Server) (accepted : Accepted) (id : ID) :
    Prop where
  /-- The first value of the metadata is the ID. -/
  claimed : ∃ first rest, accepted.context.incoming = some (first :: rest) ∧
    Decimal first 32 id.toNat
  /-- It is not the server's own ID. -/
  other : id ≠ server.myID
  /-- The verifier, if any, accepted it. -/
  verified : ∀ verify, server.verify = some verify →
    verify accepted.context id = none

section Runs

variable {server : Server} {state : InboundManager} {events : List Event}

theorem claims_run
    (ran : (InboundManager.new server).run server events = some state) :
    Claims server state :=
  InboundManager.run_invariant (Claims server)
    (fun _ _ _ claims stepped => claims_step claims stepped)
    (fun _ member => absurd member List.not_mem_nil) ran

/-- The sender ID of a stream that is not attached to a known peer. -/
theorem Exact.senderID_cases (exact : Exact server state) {channel : Nat}
    {accepted : Accepted}
    (found : state.accepted[channel]? = some accepted)
    (unknown : server.isKnown accepted.senderID = false) :
    accepted.senderID = 0 ∨ ∃ node, accepted.tracking = .client node := by
  obtain ⟨context, tracking⟩ := accepted
  cases tracking with
  | peer id =>
      have isKnown := (exact.peers _ (mem_getElem? found) id rfl).1
      rw [show Accepted.senderID ⟨context, .peer id⟩ = id from rfl,
        isKnown] at unknown
      cases unknown
  | client node => exact .inr ⟨node, rfl⟩
  | untracked => exact .inl rfl

/-- Requests are handled with the ID of a known peer only if their stream
claimed it and passed the checks; every other sender ID is zero or belongs to
one stream alone; and a refused stream changes nothing. -/
theorem requests_attributed
    (ran : (InboundManager.new server).run server events = some state) :
    (∀ accepted ∈ state.accepted,
      server.isKnown accepted.senderID = true →
      Attributed server accepted accepted.senderID) ∧
    (∀ (channel : Nat) accepted, state.accepted[channel]? = some accepted →
      server.isKnown accepted.senderID = false →
      accepted.senderID = 0 ∨ 2 ^ 20 ≤ accepted.senderID.toNat ∧
        ∀ (other : Nat) stream, state.accepted[other]? = some stream →
          stream.senderID = accepted.senderID → other = channel) ∧
    (∀ changes context verify, server.verify = some verify →
      nodeID context ≠ 0 →
      ¬ (server.isKnown (nodeID context) = true ∧
        nodeID context ≠ server.myID ∧
        verify context (nodeID context) = none) →
      (state.acceptPeer server changes context).2 ≠ none) ∧
    ∀ changes context err, (state.acceptPeer server changes context).2 = some err →
      ∃ candidate, (state.acceptPeer server changes context).1 =
        { state with nextClientID := candidate } := by
  obtain ⟨exact, _⟩ := tracks_run ran
  have claims := claims_run ran
  refine ⟨?_, ?_, ?_, fun _ _ _ refused => refused_unchanged refused⟩
  · intro accepted member isKnown
    obtain ⟨context, tracking⟩ := accepted
    cases tracking with
    | peer id =>
        obtain ⟨equal, unrefused⟩ := claims _ member id rfl
        obtain ⟨nonzero, _⟩ := isKnown_iff.mp isKnown
        have claimsID : nodeID context ≠ 0 := equal ▸ nonzero
        refine ⟨equal ▸ decimal_nodeID claimsID,
          (exact.peers _ member id rfl).2, ?_⟩
        intro verify verifier
        exact equal ▸ (refuses_eq_none verifier unrefused claimsID).2
    | client node =>
        have unknown := (exact.assigned _ member node rfl).2.2
        rw [show Accepted.senderID ⟨context, .client node⟩ = node.id from rfl,
          unknown] at isKnown
        cases isKnown
    | untracked =>
        obtain ⟨nonzero, _⟩ := isKnown_iff.mp isKnown
        exact absurd rfl nonzero
  · intro channel accepted found unknown
    rcases exact.senderID_cases found unknown with zero | ⟨node, tracked⟩
    · exact .inl zero
    · obtain ⟨context, _⟩ := accepted
      cases tracked
      have large := (exact.assigned _ (mem_getElem? found) node rfl).1
      refine .inr ⟨large, fun other stream otherFound same => ?_⟩
      have stillUnknown : server.isKnown stream.senderID = false := by
        rw [same]
        exact unknown
      rcases exact.senderID_cases otherFound stillUnknown with
        zero | ⟨otherNode, tracked⟩
      · rw [same] at zero
        have value : node.id.toNat = 0 := congrArg UInt32.toNat zero
        omega
      · obtain ⟨otherContext, _⟩ := stream
        cases tracked
        exact exact.apart _ _ _ _ _ _ otherFound found same
  · intro changes context verify verifier claimsID unacceptable accepted
    have unrefused : server.refuses context = none := by
      cases refused : server.refuses context with
      | none => rfl
      | some err => simp [InboundManager.acceptPeer, refused] at accepted
    obtain ⟨isKnown, verified⟩ := refuses_eq_none verifier unrefused claimsID
    exact unacceptable ⟨isKnown, nodeID_ne_of_not_refused unrefused isKnown,
      verified⟩

theorem requests_attributed_overlapped :
    (Attributed duo ⟨⟨some ["2"], ""⟩, .peer 2⟩ 2) ∧
      ∀ (other : Nat) stream, overlapped.accepted[other]? = some stream →
        stream.senderID = 1048576 → other = 2 :=
  have attributed := requests_attributed (Option.some_get overlapping_run).symm
  ⟨attributed.1 ⟨⟨some ["2"], ""⟩, .peer 2⟩ (by decide +kernel) (by decide),
    ((attributed.2.1 2 ⟨⟨some ["0"], ""⟩,
      .client ⟨2, 1048576, "client", .inbound⟩⟩ (by decide +kernel)
      (by decide)).resolve_left (by decide)).2⟩

end Runs

end Conn
end Gorums
