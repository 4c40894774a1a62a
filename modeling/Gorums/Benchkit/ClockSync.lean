import Gorums.MachineInt
import Gorums.Stream.Message
import Mathlib.Algebra.Order.Group.Abs
import Mathlib.Data.Int.ConditionallyCompleteOrder
import Mathlib.Data.List.Dedup
import Mathlib.Data.List.MinMax
import Mathlib.Data.List.Perm.Subperm
import Mathlib.Order.ConditionallyCompleteLattice.Basic

/-!
# Clock offsets

A node estimates the offsets of its peers' clocks from exchanges with them, and
keeps for each peer the estimate of the exchange with the shortest delay.
-/

namespace Gorums
namespace Benchkit

open Gorums.Stream
open Gorums.MachineInt

/-- A reply of `EstimateOffsets`, with times in nanoseconds. -/
structure Exchange where
  /-- When its round began, on the node's own clock. -/
  t1 : Int
  /-- When the reply arrived, on the node's own clock. -/
  t4 : Int
  /-- The reply, with the time of the peer's clock. -/
  reply : NodeResponse Int

/-- The offset and the delay that an exchange shows. -/
def clockOffset (t1 serverTime t4 : Int) : Int × Int :=
  (int (serverTime - (int (t1 + t4)).tdiv 2), int (t4 - t1))

/-- The offset and the delay of an exchange with a peer. -/
def Exchange.estimate (exchange : Exchange) : Int × Int :=
  clockOffset exchange.t1 exchange.reply.value exchange.t4

/-- The offset and the best delay so far of each peer. -/
abbrev Estimates := ID → Option (Int × Int)

/-- What `EstimateOffsets` does with a reply. -/
def Estimates.add (estimates : Estimates) (exchange : Exchange) : Estimates :=
  if exchange.reply.err.isSome then estimates
  else if (estimates exchange.reply.nodeID).all (exchange.estimate.2 < ·.2) then
    Function.update estimates exchange.reply.nodeID (some exchange.estimate)
  else estimates

/-- The offsets from the replies of all rounds, unless there are fewer than
there are peers. -/
def estimateOffsets (size : Nat) (exchanges : List Exchange) :
    Except String (ID → Option Int) :=
  let estimates := exchanges.foldl Estimates.add fun _ => none
  let peers := (exchanges.map (·.reply.nodeID)).dedup
  let got := (peers.filter fun peer => (estimates peer).isSome).length
  if got < size then
    .error s!"clock sync incomplete: got offsets for {got} of {size} peers"
  else .ok fun peer => (estimates peer).map Prod.fst

/-- The peer has read its clock during the exchange, and its clock is off by its
skew. -/
structure Exchange.Timely (skew : ID → Int) (exchange : Exchange) : Prop where
  /-- The round began after the Unix epoch. -/
  positive : 0 ≤ exchange.t1
  /-- The sum of the node's times does not overflow. -/
  small : exchange.t4 < 2 ^ 62
  /-- The peer's time is as small. -/
  peer : |exchange.reply.value| < 2 ^ 62
  /-- The peer's reading is not before the round. -/
  after : exchange.t1 + skew exchange.reply.nodeID ≤ exchange.reply.value
  /-- The peer's reading is not after the arrival. -/
  before : exchange.reply.value ≤ exchange.t4 + skew exchange.reply.nodeID

/-- An offset is off by half of a delay at most, up to rounding. -/
def OffByHalf (skew delay theta : Int) : Prop := |2 * (theta - skew)| ≤ delay + 1

theorem Exchange.Timely.estimate {skew : ID → Int} {exchange : Exchange}
    (timely : exchange.Timely skew) :
    exchange.estimate.2 = exchange.t4 - exchange.t1 ∧
      OffByHalf (skew exchange.reply.nodeID) exchange.estimate.2
        exchange.estimate.1 := by
  obtain ⟨positive, small, peer, after, before⟩ := timely
  have bounds := abs_lt.mp peer
  have sum : int (exchange.t1 + exchange.t4) = exchange.t1 + exchange.t4 :=
    int_of_bounds (by omega) (by omega)
  unfold Exchange.estimate clockOffset
  rw [sum, Int.tdiv_eq_ediv_of_nonneg (by omega), int_of_bounds, int_of_bounds]
  · exact ⟨rfl, abs_le.mpr ⟨by omega, by omega⟩⟩
  all_goals omega

/-- The exchanges with a peer that have succeeded. -/
def exchangesWith (peer : ID) (exchanges : List Exchange) : List Exchange :=
  exchanges.filter fun exchange =>
    exchange.reply.err.isNone && exchange.reply.nodeID == peer

/-- The estimate of a peer is that of the first exchange with it whose delay is
the shortest. -/
theorem foldl_add (exchanges : List Exchange) (peer : ID) :
    exchanges.foldl Estimates.add (fun _ => none) peer =
      ((exchangesWith peer exchanges).map Exchange.estimate).argmin Prod.snd := by
  rw [List.argmin, List.foldl_map, exchangesWith, List.foldl_filter]
  refine (List.foldl_hom (fun estimates : Estimates => estimates peer) ?_).symm
  intro estimates exchange
  by_cases same : exchange.reply.nodeID = peer
  · subst same
    cases failed : exchange.reply.err <;>
      cases found : estimates exchange.reply.nodeID <;>
      simp [Estimates.add, List.argAux, failed, found]
    split_ifs with shorter <;> simp [found]
  · have kept : estimates.add exchange peer = estimates peer := by
      unfold Estimates.add
      split_ifs
      · rfl
      · exact Function.update_of_ne (Ne.symm same) ..
      · rfl
    simp [same, kept]

/-- If `EstimateOffsets` succeeds, it has an offset for every peer, and the
offset is off by at most half of the shortest delay of the peer's exchanges. -/
theorem offsets_near_skew (config : List ID) (exchanges : List Exchange)
    (skew : ID → Int) {offsets : ID → Option Int}
    (known : ∀ exchange ∈ exchanges, exchange.reply.nodeID ∈ config)
    (timely : ∀ exchange ∈ exchanges, exchange.reply.err = none →
      exchange.Timely skew)
    (estimated : estimateOffsets config.length exchanges = .ok offsets) :
    ∀ peer ∈ config, ∃ theta, offsets peer = some theta ∧
      ∀ exchange ∈ exchanges, exchange.reply.err = none →
        exchange.reply.nodeID = peer →
        OffByHalf (skew peer) (exchange.t4 - exchange.t1) theta := by
  unfold estimateOffsets at estimated
  dsimp only at estimated
  split at estimated
  case isTrue => cases estimated
  case isFalse enough =>
      cases estimated
      intro peer member
      -- There are as many estimates as peers, and all are of peers.
      have all := (List.subperm_of_subset ((List.nodup_dedup _).filter _)
        fun id found => by
          obtain ⟨exchange, heard, rfl⟩ := List.mem_map.mp
            (List.mem_dedup.mp (List.mem_filter.mp found).1)
          exact known exchange heard).perm_of_length_le (Nat.not_lt.mp enough)
      obtain ⟨best, found⟩ := Option.isSome_iff_exists.mp
        (List.mem_filter.mp (all.mem_iff.mpr member)).2
      refine ⟨best.1, by simp [found], ?_⟩
      rintro exchange heard succeeded rfl
      rw [foldl_add] at found
      have shortest := List.le_of_mem_argmin (List.mem_map_of_mem
        (List.mem_filter.mpr ⟨heard, by simp [succeeded]⟩)) found
      rw [(timely exchange heard succeeded).estimate.1] at shortest
      obtain ⟨other, chosen, rfl⟩ := List.mem_map.mp (List.argmin_mem found)
      simp only [exchangesWith, List.mem_filter, Bool.and_eq_true,
        Option.isNone_iff_eq_none, beq_iff_eq] at chosen
      have near := (timely other chosen.1 chosen.2.1).estimate.2
      rw [chosen.2.2] at near
      exact near.trans (by omega)

/-- Two exchanges with a peer whose clock is 7 ahead. -/
def twoExchanges : List Exchange :=
  [⟨10, 30, { nodeID := 1, value := 18 }⟩, ⟨40, 42, { nodeID := 1, value := 48 }⟩]

theorem offsets_near_skew_two :
    ∃ offsets theta, estimateOffsets 1 twoExchanges = .ok offsets ∧
      offsets 1 = some theta ∧ OffByHalf 7 2 theta := by
  obtain ⟨theta, found, near⟩ := offsets_near_skew [1] twoExchanges (fun _ => 7)
    (by simp [twoExchanges]) (by
      simp only [twoExchanges, List.forall_mem_cons]
      refine ⟨fun _ => ?_, fun _ => ?_, by simp⟩ <;> constructor <;> decide)
    rfl 1 (by decide)
  exact ⟨_, theta, rfl, found, near _ (.tail _ (.head _)) rfl rfl⟩

end Benchkit
end Gorums
