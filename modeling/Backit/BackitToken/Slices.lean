import Backit.BackitToken.Holdings
import Mathlib.Algebra.Order.Group.Finset
import Mathlib.Data.Int.ConditionallyCompleteOrder
import Mathlib.Data.Int.Interval

/-!
# Slices of the fees

Number the units of the fees in the order of their deposits. A claim counts, with the holder's
weight, for every unit since the holder's last claim. As long as for every unit the weights that
have claimed it and the weights that still can stay within the supply, no more is paid out than was
collected.
-/

namespace Backit.BackitToken

open Soroban Contract Lib

namespace Storage

variable (s : Storage)

/-- The weight with which a holder can still claim a unit of the fees. -/
def claimable (slice : Int) (holder : Address) : Int :=
  if s.lastClaimFees holder ≤ slice then s.effectiveBalance holder else 0

end Storage

/-- The units of the fees were claimed with these weights, and for every unit the weights that
claimed it and those that still can are within the supply. -/
structure Sliced (s : Storage) (weight : Int → Int) : Prop where
  unclaimed : ∀ slice, s.totalFeesCollected ≤ slice → weight slice = 0
  within : ∀ slice, 0 ≤ slice → slice < s.totalFeesCollected →
    Within (s.claimable slice) (s.totalSupply - weight slice)
  paid : s.totalSupply * s.totalRevenueDistributed ≤
    ∑ slice ∈ Finset.Ico 0 s.totalFeesCollected, weight slice

section Weights

variable {s s' : Storage} {weight : Int → Int} {slice : Int} {holder : Address}

theorem Sound.totalSupply_nonneg (h : Sound s) : 0 ≤ s.totalSupply := h.conserved.bound_nonneg

theorem Sound.effectiveBalance_nonneg (h : Sound s) (holder : Address) :
    0 ≤ s.effectiveBalance holder := by
  have hbalance := h.balances holder
  unfold Storage.effectiveBalance
  split
  · next record hstake =>
    have hamount := (h.stakes holder record hstake).1
    have hweight : 0 ≤ record.amount * 2 * (record.boost : Int) := by positivity
    have := h.totalSupply_nonneg
    omega
  · exact hbalance

theorem Sound.claimable_nonneg (h : Sound s) (slice : Int) (holder : Address) :
    0 ≤ s.claimable slice holder := by
  unfold Storage.claimable
  split
  · exact h.effectiveBalance_nonneg holder
  · exact le_rfl

/-- A holder with less on the balance and the same stake weighs no more. -/
theorem effectiveBalance_mono (hbalance : s'.balance holder ≤ s.balance holder)
    (hstake : s'.stake holder = s.stake holder) (hsupply : s'.totalSupply = s.totalSupply) :
    s'.effectiveBalance holder ≤ s.effectiveBalance holder := by
  unfold Storage.effectiveBalance
  rw [hstake, hsupply]
  split
  · omega
  · exact hbalance

/-- A stake weighs no less than what it is returned as. -/
theorem unstaked_effectiveBalance_le (h : Sound s) {staker : Address} {record : StakeRecord}
    (hstake : s.stake staker = some record) (holder : Address) :
    (s.unstaked staker record.amount).effectiveBalance holder ≤ s.effectiveBalance holder := by
  by_cases hholder : holder = staker
  · subst hholder
    have hbounds := h.stakes holder record hstake
    have hall : s.balance holder + record.amount ≤ s.totalSupply := by
      have := h.conserved.apply_le holder
      rw [Storage.holdings, Storage.stakedAmount, hstake] at this
      exact this
    have hboosted : record.amount ≤ record.amount * 2 * (record.boost : Int) := by
      have hboost : (1 : Int) ≤ record.boost := by exact_mod_cast hbounds.2
      nlinarith
    have hnew : (s.unstaked holder record.amount).effectiveBalance holder =
        s.balance holder + record.amount := by
      simp [Storage.effectiveBalance, Storage.unstaked, Storage.removeStake, Storage.setBalance]
    rw [hnew, Storage.effectiveBalance, hstake]
    dsimp only
    omega
  · refine effectiveBalance_mono ?_ ?_ rfl <;>
      simp [Storage.unstaked, Storage.removeStake, Storage.setBalance, hholder]

theorem Sliced.distributed_le (h : Sliced s weight) (hs : Sound s) :
    s.totalRevenueDistributed ≤ s.totalFeesCollected := by
  have hfees : 0 ≤ s.totalFeesCollected := (hs.snapshots ⟨0⟩).1.trans (hs.snapshots ⟨0⟩).2
  cases hconfig : s.config with
  | none =>
    rw [hs.unfounded hconfig]
    exact le_rfl
  | some config =>
    have hsupply : s.totalSupply = totalSupply := hs.supply (by simp [hconfig])
    have hpositive : 0 < s.totalSupply := by
      rw [hsupply]
      decide
    have hweights : ∑ slice ∈ Finset.Ico 0 s.totalFeesCollected, weight slice ≤
        s.totalFeesCollected * s.totalSupply := by
      have hle := Finset.sum_le_card_nsmul (Finset.Ico 0 s.totalFeesCollected) weight
        s.totalSupply fun slice hslice => by
          obtain ⟨hlow, hhigh⟩ := Finset.mem_Ico.mp hslice
          have := (h.within slice hlow hhigh).bound_nonneg
          omega
      rw [Int.card_Ico, sub_zero, nsmul_eq_mul, Int.toNat_of_nonneg hfees] at hle
      exact hle
    refine le_of_mul_le_mul_left ?_ hpositive
    calc s.totalSupply * s.totalRevenueDistributed
        ≤ ∑ slice ∈ Finset.Ico 0 s.totalFeesCollected, weight slice := h.paid
      _ ≤ s.totalFeesCollected * s.totalSupply := hweights
      _ = s.totalSupply * s.totalFeesCollected := mul_comm _ _

end Weights

section Steps

variable {s s' : Storage} {weight : Int → Int}

theorem sliced_empty : Sliced Storage.empty fun _ => 0 where
  unclaimed _ _ := rfl
  within slice hlow hhigh := absurd hhigh (not_lt.mpr hlow)
  paid := by simp [Storage.empty]

theorem Sliced.mono (h : Sliced s weight) (hfees : s'.totalFeesCollected = s.totalFeesCollected)
    (hdistributed : s'.totalRevenueDistributed = s.totalRevenueDistributed)
    (hsupply : s'.totalSupply = s.totalSupply) (hle : ∀ slice holder, slice < s.totalFeesCollected →
      s'.claimable slice holder ≤ s.claimable slice holder) : Sliced s' weight where
  unclaimed slice hslice := h.unclaimed slice (hfees ▸ hslice)
  within slice hlow hhigh := by
    rw [hfees] at hhigh
    rw [hsupply]
    exact (h.within slice hlow hhigh).mono fun holder => hle slice holder hhigh
  paid := by
    rw [hfees, hdistributed, hsupply]
    exact h.paid

theorem Sliced.funded (h : Sliced s weight) (hs : Sound s) {amount : Int} (hamount : 0 < amount)
    (hweights : Within s.effectiveBalance s.totalSupply) : Sliced (s.funded amount) weight where
  unclaimed slice hslice := by
    refine h.unclaimed slice ?_
    have : (s.funded amount).totalFeesCollected = s.totalFeesCollected + amount := rfl
    omega
  within slice hlow hhigh := by
    by_cases hold : slice < s.totalFeesCollected
    · exact h.within slice hlow hold
    · rw [h.unclaimed slice (not_lt.mp hold), sub_zero]
      refine hweights.mono fun holder => ?_
      have hnonneg := hs.effectiveBalance_nonneg holder
      have hsame : (s.funded amount).effectiveBalance holder = s.effectiveBalance holder := rfl
      unfold Storage.claimable
      rw [hsame]
      split
      · exact le_rfl
      · exact hnonneg
  paid := by
    have hfees : 0 ≤ s.totalFeesCollected := (hs.snapshots ⟨0⟩).1.trans (hs.snapshots ⟨0⟩).2
    have hmore : Finset.Ico 0 s.totalFeesCollected ⊆
        Finset.Ico 0 (s.totalFeesCollected + amount) :=
      Finset.Ico_subset_Ico_right (by omega)
    have hsame : ∑ slice ∈ Finset.Ico 0 s.totalFeesCollected, weight slice =
        ∑ slice ∈ Finset.Ico 0 (s.totalFeesCollected + amount), weight slice :=
      Finset.sum_subset hmore fun slice hin hout => by
        obtain ⟨hlow, -⟩ := Finset.mem_Ico.mp hin
        refine h.unclaimed slice (not_lt.mp fun hlt => hout ?_)
        exact Finset.mem_Ico.mpr ⟨hlow, hlt⟩
    show s.totalSupply * s.totalRevenueDistributed ≤ _
    exact h.paid.trans hsame.le

/-- A claim moves the holder's weight on the units it covers from claimable to claimed. -/
theorem Sliced.claimed (h : Sliced s weight) (hs : Sound s) (holder : Address) :
    Sliced (s.claimed holder) fun slice => weight slice +
      if slice < s.totalFeesCollected then s.claimable slice holder else 0 where
  unclaimed slice hslice := by
    have hpast : ¬ slice < s.totalFeesCollected := not_lt.mpr hslice
    rw [h.unclaimed slice hslice, if_neg hpast, add_zero]
  within slice hlow hhigh := by
    have hcovered : slice < s.totalFeesCollected := hhigh
    have hothers : ∀ other, other ≠ holder →
        (s.claimed holder).claimable slice other = s.claimable slice other := by
      intro other hother
      unfold Storage.claimable
      have hlast : (s.claimed holder).lastClaimFees other = s.lastClaimFees other :=
        Function.update_of_ne hother ..
      rw [hlast]
      rfl
    have hholder : (s.claimed holder).claimable slice holder = 0 := by
      unfold Storage.claimable
      have hlast : (s.claimed holder).lastClaimFees holder = s.totalFeesCollected :=
        Function.update_self ..
      rw [hlast, if_neg (not_le.mpr hcovered)]
    have hchange : Within ((s.claimed holder).claimable slice)
        (s.totalSupply - weight slice + -s.claimable slice holder) := by
      refine (h.within slice hlow hcovered).change {holder} (fun other => ?_)
        (fun other hother => ?_) ?_
      · by_cases hother : other = holder
        · rw [hother, hholder]
        · rw [hothers other hother]
          exact hs.claimable_nonneg slice other
      · exact (hothers other (by simpa using hother)).le
      · rw [Finset.sum_singleton, Finset.sum_singleton, hholder]
        omega
    rw [if_pos hcovered]
    refine hchange.weaken ?_
    show _ ≤ s.totalSupply - _
    omega
  paid := by
    have hlast := hs.snapshots holder
    have hweight := hs.effectiveBalance_nonneg holder
    have hcovered : ∑ slice ∈ Finset.Ico 0 s.totalFeesCollected,
        (if slice < s.totalFeesCollected then s.claimable slice holder else 0) =
        (s.totalFeesCollected - s.lastClaimFees holder) * s.effectiveBalance holder := by
      calc ∑ slice ∈ Finset.Ico 0 s.totalFeesCollected,
            (if slice < s.totalFeesCollected then s.claimable slice holder else 0)
          = ∑ slice ∈ Finset.Ico 0 s.totalFeesCollected, s.claimable slice holder :=
            Finset.sum_congr rfl fun slice hslice => if_pos (Finset.mem_Ico.mp hslice).2
        _ = ∑ slice ∈ Finset.Ico (s.lastClaimFees holder) s.totalFeesCollected,
              s.effectiveBalance holder := by
            unfold Storage.claimable
            rw [← Finset.sum_filter, Finset.Ico_filter_le_of_left_le hlast.1]
        _ = (s.totalFeesCollected - s.lastClaimFees holder) * s.effectiveBalance holder := by
            rw [Finset.sum_const, Int.card_Ico, nsmul_eq_mul, Int.toNat_of_nonneg (by omega)]
    have hshare : s.totalSupply * s.shareOf holder ≤
        (s.totalFeesCollected - s.lastClaimFees holder) * s.effectiveBalance holder := by
      unfold Storage.shareOf
      rw [tdiv_eq_div (mul_nonneg (by omega) hweight)]
      by_cases hzero : s.totalSupply = 0
      · rw [hzero, zero_mul]
        exact mul_nonneg (by omega) hweight
      · exact Int.mul_ediv_self_le hzero
    show s.totalSupply * (s.totalRevenueDistributed + s.shareOf holder) ≤
      ∑ slice ∈ Finset.Ico 0 s.totalFeesCollected, _
    rw [Finset.sum_add_distrib, hcovered, mul_add]
    exact add_le_add h.paid hshare

end Steps

end Backit.BackitToken
