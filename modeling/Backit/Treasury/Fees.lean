import Mathlib.Tactic.LinearCombination
import Backit.Indexer.EventParser
import Backit.OutcomeManager.ClaimSteps

/-!
# Recorded and collected fees

The treasury reconstructs the fee of a claim as a percentage of the amount that was claimed. The
outcome manager takes it from the losing pool before the pool is divided, and the amount holds the
winner's own stake besides. Up to the remainders of the divisions the two agree when there is no fee
or when the fee on the losing pool is as large as the winning pool.
-/

namespace Backit.Treasury

open Soroban Shared OutcomeManager Indexer

/-- `Number(text)` of a text of digits. -/
def number (text : String) : ℚ := Nat.ofDigitChars 10 text.toList 0

/-- The fee as an exact number, before it is printed with seven decimals. -/
def calculatePercentFee (amount feePercent : ℚ) : ℚ := amount * feePercent / 100

/-- The fee that is recorded for the event of a claim, if the claim is recorded. -/
def recordFeeFromPayoutClaimed (feePercent : ℚ) (topics : List ScVal) : Option ℚ :=
  (parsePayoutClaimed topics).map fun parsed => calculatePercentFee (number parsed.amount) feePercent

/-- The topics of a claim as the indexer reads them. -/
def claimTopics (callId : Nat) (staker : String) (amount : Int) : List ScVal :=
  [.symbol "PayoutClaimed", .u64 callId, .string staker, .i128 amount]

theorem number_toString (n : Nat) : number (toString n) = n := by
  have htext : (toString n).toList = Nat.toDigits 10 n := by simp [ToString.toString, Nat.repr]
  rw [number, htext, Nat.ofDigitChars_ten_toDigits]

theorem record_claim (feePercent : ℚ) {callId : Nat} {staker : String} (hstaker : staker ≠ "")
    (amount : Int) :
    recordFeeFromPayoutClaimed feePercent (claimTopics callId staker amount) =
      some (calculatePercentFee ((amount % 2 ^ 64 : Int) : ℚ) feePercent) := by
  obtain ⟨low, hlow⟩ := Int.eq_ofNat_of_zero_le (Int.emod_nonneg amount (b := 2 ^ 64) (by decide))
  have hcall : toString callId ≠ "" := Nat.repr_ne_empty
  have hparsed : parsePayoutClaimed (claimTopics callId staker amount) =
      some ⟨toString callId, staker, toString low⟩ := by
    simp only [parsePayoutClaimed, claimTopics, List.getElem?_cons_succ, List.getElem?_cons_zero,
      asString, asU64, asI128Lo, Option.none_or, Option.some_or, Option.getD_some, hcall, hstaker,
      or_self, if_false, hlow]
    rfl
  rw [recordFeeFromPayoutClaimed, hparsed, hlow, Option.map_some, number_toString, Int.cast_natCast]

/-!
## When they agree
-/

/-- The remainders of the divisions make up for what the winning pool exceeds the fee by. -/
def FeesMatch (losing : Int) (feeBps : Nat) (winning stake : Int) : Prop :=
  feeBps * stake * (winning - totalFee losing feeBps) + stake * (losing * feeBps % 10000) +
      10000 * (stake * totalFee losing feeBps % winning) =
    feeBps * (stake * (losing - totalFee losing feeBps) % winning) +
      feeBps * winning *
        (payout losing feeBps winning stake - payout losing feeBps winning stake % 2 ^ 64)

instance (losing : Int) (feeBps : Nat) (winning stake : Int) :
    Decidable (FeesMatch losing feeBps winning stake) :=
  inferInstanceAs (Decidable (_ = _))

variable {losing winning stake : Int} {feeBps : Nat}

/-- The percentage of the low half of a payout is the share of the fee exactly when the remainders
make up for the difference. -/
theorem percent_eq_share_iff (hwinning : 0 < winning) :
    feeBps * (payout losing feeBps winning stake % 2 ^ 64) =
      10000 * feeShare losing feeBps winning stake ↔ FeesMatch losing feeBps winning stake := by
  have hfee : losing * feeBps % 10000 + 10000 * totalFee losing feeBps = losing * feeBps :=
    Int.emod_add_mul_ediv _ _
  have hshare : stake * totalFee losing feeBps % winning +
      winning * feeShare losing feeBps winning stake = stake * totalFee losing feeBps :=
    Int.emod_add_mul_ediv _ _
  have hpayout : stake * (losing - totalFee losing feeBps) % winning +
      winning * (payout losing feeBps winning stake - stake) =
        stake * (losing - totalFee losing feeBps) := by
    rw [payout, add_sub_cancel_left]
    exact Int.emod_add_mul_ediv _ _
  unfold FeesMatch
  constructor
  · intro h
    linear_combination winning * h + stake * hfee + 10000 * hshare - feeBps * hpayout
  · intro h
    refine mul_left_cancel₀ hwinning.ne' ?_
    linear_combination h - stake * hfee - 10000 * hshare + feeBps * hpayout

/-!
## The fees of a call
-/

/-- The treasury entries of the payments of a call are the shares of the fee that were collected with
them, and so is their sum. -/
structure FeesRecorded (strkey : Address → String) (feeBps callId : Nat) (payments : List Payment) :
    Prop where
  each : ∀ x ∈ payments,
    recordFeeFromPayoutClaimed (feeBps / 100) (claimTopics callId (strkey x.winner) x.amount) =
      some (x.feeShare : ℚ)
  total : (payments.filterMap fun x => recordFeeFromPayoutClaimed (feeBps / 100)
    (claimTopics callId (strkey x.winner) x.amount)).sum = ((payments.map (·.feeShare)).sum : ℚ)

/-- The fee of a quoted payment is recorded as it is collected exactly when the fees match. -/
theorem record_quoted_iff {settings : Settings} {share amount : Int} {callId : Nat}
    {staker : String} (hstaker : staker ≠ "") (hfeeBps : settings.feeBps ≤ maxFeeBps)
    (hlosing : 0 ≤ losing) (hquoted : Quoted settings stake winning losing share amount) :
    recordFeeFromPayoutClaimed (settings.feeBps / 100) (claimTopics callId staker amount) =
      some (share : ℚ) ↔ FeesMatch losing settings.feeBps winning stake := by
  obtain ⟨rfl, rfl⟩ := hquoted.exact hfeeBps hlosing
  rw [record_claim _ hstaker, Option.some.injEq, ← percent_eq_share_iff hquoted.winning_pos,
    calculatePercentFee, div_eq_iff (by norm_num), mul_div_assoc', div_eq_iff (by norm_num)]
  constructor
  · intro h
    have hcast : ((settings.feeBps * (payout losing settings.feeBps winning stake % 2 ^ 64) : Int) :
        ℚ) = ((10000 * feeShare losing settings.feeBps winning stake : Int) : ℚ) := by
      push_cast at h ⊢
      linear_combination h
    exact_mod_cast hcast
  · intro h
    have hcast := congrArg (Int.cast : Int → ℚ) h
    push_cast at hcast ⊢
    linear_combination hcast

/-- A manager with a fee. -/
def chargingFee (feeBps : Nat) : Settings :=
  { Storage.empty.settings with feeCollector := some ⟨9⟩, feeBps := feeBps }

/-- The address of an account. -/
def accountKey (who : Address) : String := "G" ++ toString who.id

theorem account_key_ne (who : Address) : accountKey who ≠ "" := by
  simp [accountKey, String.append_eq_empty_iff]

/-- A payment to a winner. -/
def wins (winner : Nat) (stake share amount : Int) : Payment := ⟨⟨winner⟩, ⟨winner⟩, stake, share, amount⟩

/-- The two winners of a pool of 300, against 30000 and a fee of one percent. -/
def evenPayments : List Payment := [wins 1 100 100 10000, wins 2 200 200 20000]

/-- A winner of a pool of 4000, against 10000 and a fee of 2.5 percent. -/
def ordinaryPayments : List Payment := [wins 1 1000 62 3437]

end Backit.Treasury
