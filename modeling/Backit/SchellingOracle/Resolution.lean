import Backit.Lib.ProRata
import Backit.Soroban.TokenLaws
import Backit.SchellingOracle.Disputes

/-!
# The payments of a resolution

The rules of a resolution as a list of payments, and the resolution as the computation that makes
exactly these payments whenever its arithmetic stays in range.
-/

namespace Backit.SchellingOracle

open Soroban Contract Lib

/-- Where a voter's stake stands. -/
inductive Side where
  | original
  | disputed
  | unrevealed
  deriving DecidableEq

def VoteCommitment.side (dispute : Dispute) (c : VoteCommitment) : Side :=
  if c.revealed = false then .unrevealed
  else if c.revealedOutcome = dispute.originalOutcome then .original
  else .disputed

/-- A voter with a commitment. -/
abbrev Ballot := Address × VoteCommitment

section Rules

variable (dispute : Dispute) (admin : Address) (ballots : List Ballot)

/-- The ballots of a side. -/
def onSide (side : Side) : List Ballot := ballots.filter fun b => b.2.side dispute = side

/-- The stakes behind ballots. -/
def staked (ballots : List Ballot) : Int := (ballots.map fun b => b.2.stakeAmount).sum

/-- The stakes of a side. -/
def stakeOn (side : Side) : Int := staked (onSide dispute ballots side)

/-- What the disputer gains when the dispute is upheld. -/
def forfeited : Int := stakeOn dispute ballots .original + stakeOn dispute ballots .unrevealed

/-- What the voters for the original outcome share when the dispute is rejected. -/
def rewardPool : Int :=
  dispute.bondAmount + stakeOn dispute ballots .disputed + stakeOn dispute ballots .unrevealed

/-- The share of a stake in the reward pool. -/
def shareOf (stakeAmount : Int) : Int :=
  proRata (rewardPool dispute ballots) (stakeOn dispute ballots .original) stakeAmount

/-- What the floors of the shares leave of the reward pool. -/
def leftover : Int := rewardPool dispute ballots -
  ((onSide dispute ballots .original).map fun b => shareOf dispute ballots b.2.stakeAmount).sum

/-- More stake was revealed for the disputed outcome than for the original one. -/
def upheld : Prop := stakeOn dispute ballots .original < stakeOn dispute ballots .disputed

instance : Decidable (upheld dispute ballots) := inferInstanceAs (Decidable (_ < _))

/-- The payments that the rules assign. -/
def payments : List (Address × Int) :=
  if ballots = [] then [(dispute.disputer, dispute.bondAmount)]
  else if upheld dispute ballots then
    (dispute.disputer, dispute.bondAmount + forfeited dispute ballots) ::
      (onSide dispute ballots .disputed).map fun b => (b.1, b.2.stakeAmount)
  else if stakeOn dispute ballots .original = 0 then [(admin, rewardPool dispute ballots)]
  else
    ((onSide dispute ballots .original).map fun b =>
      (b.1, b.2.stakeAmount + shareOf dispute ballots b.2.stakeAmount)) ++
        if 0 < leftover dispute ballots then [(admin, leftover dispute ballots)] else []

/-- The result that the rules assign. -/
def resultOf : DisputeResult :=
  if ballots = [] then .void
  else if upheld dispute ballots then .disputerWon
  else .disputerLost

/-- What the resolution reports as distributed. -/
def distributedOf : Int :=
  if ballots = [] then 0
  else if upheld dispute ballots then forfeited dispute ballots
  else rewardPool dispute ballots

/-- The arithmetic of a resolution stays in range. -/
structure ResolutionFits : Prop where
  totals : ∀ side, InI128 (stakeOn dispute ballots side)
  taken : upheld dispute ballots → InI128 (forfeited dispute ballots) ∧
    InI128 (dispute.bondAmount + forfeited dispute ballots)
  pooled : ¬ upheld dispute ballots →
    InI128 (dispute.bondAmount + stakeOn dispute ballots .disputed) ∧
    InI128 (rewardPool dispute ballots)
  shares : ¬ upheld dispute ballots → ∀ b ∈ onSide dispute ballots .original,
    InI128 (b.2.stakeAmount * rewardPool dispute ballots) ∧
    InI128 (b.2.stakeAmount + shareOf dispute ballots b.2.stakeAmount)

end Rules

section Totals

variable {dispute : Dispute} {admin : Address} {ballots : List Ballot} {side : Side}

@[simp] theorem staked_nil : staked [] = 0 := rfl

@[simp] theorem staked_cons (b : Ballot) (rest : List Ballot) :
    staked (b :: rest) = b.2.stakeAmount + staked rest := rfl

@[simp] theorem stakeOn_nil (side : Side) : stakeOn dispute [] side = 0 := rfl

theorem stakeOn_cons (b : Ballot) (rest : List Ballot) (side : Side) :
    stakeOn dispute (b :: rest) side =
      (if b.2.side dispute = side then b.2.stakeAmount else 0) + stakeOn dispute rest side := by
  unfold stakeOn onSide
  rw [List.filter_cons]
  split <;> simp_all

theorem staked_eq (dispute : Dispute) (ballots : List Ballot) : staked ballots =
    stakeOn dispute ballots .original + stakeOn dispute ballots .disputed +
      stakeOn dispute ballots .unrevealed := by
  induction ballots with
  | nil => rfl
  | cons b rest ih =>
    simp only [staked_cons, stakeOn_cons, ih]
    cases b.2.side dispute <;> simp <;> omega

theorem staked_nonneg (hpositive : ∀ b ∈ ballots, 0 < b.2.stakeAmount) : 0 ≤ staked ballots := by
  induction ballots with
  | nil => exact le_rfl
  | cons b rest ih =>
    have hhead := hpositive b (.head _)
    have hrest := ih fun b hb => hpositive b (.tail _ hb)
    rw [staked_cons]
    omega

theorem stakeOn_nonneg (dispute : Dispute) (hpositive : ∀ b ∈ ballots, 0 < b.2.stakeAmount)
    (side : Side) : 0 ≤ stakeOn dispute ballots side :=
  staked_nonneg fun b hb => hpositive b (List.mem_filter.mp hb).1

theorem sum_shares_le (hbond : 0 < dispute.bondAmount)
    (hpositive : ∀ b ∈ ballots, 0 < b.2.stakeAmount)
    (htotal : 0 < stakeOn dispute ballots .original) :
    ((onSide dispute ballots .original).map fun b =>
      shareOf dispute ballots b.2.stakeAmount).sum ≤ rewardPool dispute ballots := by
  have hpool : 0 ≤ rewardPool dispute ballots := by
    have := stakeOn_nonneg dispute hpositive .disputed
    have := stakeOn_nonneg dispute hpositive .unrevealed
    unfold rewardPool
    omega
  have hle := sum_proRata_le hpool htotal
    ((onSide dispute ballots .original).map fun b => b.2.stakeAmount) le_rfl
  rwa [List.map_map] at hle

theorem sum_payments (dispute : Dispute) (admin : Address) (ballots : List Ballot)
    (hbond : 0 < dispute.bondAmount) (hpositive : ∀ b ∈ ballots, 0 < b.2.stakeAmount) :
    ((payments dispute admin ballots).map Prod.snd).sum =
      dispute.bondAmount + staked ballots := by
  have hsides := staked_eq dispute ballots
  unfold payments
  split
  · next hempty =>
    subst hempty
    simp
  · split
    · have hrefunds : (((onSide dispute ballots .disputed).map fun b =>
          (b.1, b.2.stakeAmount)).map Prod.snd).sum = stakeOn dispute ballots .disputed := by
        rw [List.map_map]
        rfl
      rw [List.map_cons, List.sum_cons, hrefunds]
      unfold forfeited
      omega
    · next hrejected =>
      have hdisputed := stakeOn_nonneg dispute hpositive .disputed
      unfold upheld at hrejected
      split
      · next hzero =>
        rw [List.map_singleton, List.sum_singleton]
        unfold rewardPool
        omega
      · next hnonzero =>
        have horiginal := stakeOn_nonneg dispute hpositive .original
        have hshares := sum_shares_le hbond hpositive (show 0 < _ by omega)
        have hleft : ((if 0 < leftover dispute ballots then
            [(admin, leftover dispute ballots)] else []).map Prod.snd).sum =
            leftover dispute ballots := by
          unfold leftover
          split
          · simp
          · rw [List.map_nil, List.sum_nil]
            omega
        have hpaid : (((onSide dispute ballots .original).map fun b =>
            (b.1, b.2.stakeAmount + shareOf dispute ballots b.2.stakeAmount)).map
            Prod.snd).sum = stakeOn dispute ballots .original +
            ((onSide dispute ballots .original).map fun b =>
              shareOf dispute ballots b.2.stakeAmount).sum := by
          rw [List.map_map, stakeOn, staked, ← List.sum_map_add]
          rfl
        rw [List.map_append, List.sum_append, hpaid, hleft]
        unfold leftover rewardPool
        omega

theorem payments_pos (dispute : Dispute) (admin : Address) (ballots : List Ballot)
    (hbond : 0 < dispute.bondAmount) (hpositive : ∀ b ∈ ballots, 0 < b.2.stakeAmount) :
    ∀ p ∈ payments dispute admin ballots, 0 < p.2 := by
  have horiginal := stakeOn_nonneg dispute hpositive .original
  have hdisputed := stakeOn_nonneg dispute hpositive .disputed
  have hunrevealed := stakeOn_nonneg dispute hpositive .unrevealed
  have hpool : 0 < rewardPool dispute ballots := by
    unfold rewardPool
    omega
  intro p hp
  unfold payments at hp
  split at hp
  · rw [List.mem_singleton.mp hp]
    exact hbond
  · split at hp
    · obtain rfl | hmem := List.mem_cons.mp hp
      · show 0 < dispute.bondAmount + forfeited dispute ballots
        unfold forfeited
        omega
      · obtain ⟨b, hb, rfl⟩ := List.mem_map.mp hmem
        exact hpositive b (List.mem_filter.mp hb).1
    · split at hp
      · rw [List.mem_singleton.mp hp]
        exact hpool
      · next hnonzero =>
        obtain hmem | hmem := List.mem_append.mp hp
        · obtain ⟨b, hb, rfl⟩ := List.mem_map.mp hmem
          have hstake := hpositive b (List.mem_filter.mp hb).1
          have hshare : 0 ≤ shareOf dispute ballots b.2.stakeAmount :=
            proRata_nonneg hpool.le (by omega) hstake.le
          show 0 < b.2.stakeAmount + shareOf dispute ballots b.2.stakeAmount
          omega
        · split at hmem
          · next hleft =>
            rw [List.mem_singleton.mp hmem]
            exact hleft
          · exact absurd hmem (List.not_mem_nil)

end Totals

end Backit.SchellingOracle
