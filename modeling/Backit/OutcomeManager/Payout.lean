import Backit.Lib.ProRata
import Backit.Soroban.Int128

/-!
# Payout arithmetic

A winner gets back the stake and a share of the losing pool after the fee; the fee is divided
among the claims the same way. `computeTotalFee` and `computePayoutParts` are the checked
computations of the manager, where `none` is the overflow error. `totalFee`, `feeShare` and
`payout` are their exact values, and the payouts of all the winners are conserved: they leave
fewer than two units per winner of the pools, and never exceed them.
-/

namespace Backit.OutcomeManager

open Soroban Lib

def computeTotalFee (totalLosingStake : Int) (feeBps : Nat) : Option Int := do
  let product ← checkedMul totalLosingStake feeBps
  checkedDiv product 10000

/-- The claim's share of the fee, and the payout. -/
def computePayoutParts (stakerWinningStake totalWinningStake totalFee netLosing : Int) :
    Option (Int × Int) := do
  let feeProduct ← checkedMul stakerWinningStake totalFee
  let stakerFeeShare ← checkedDiv feeProduct totalWinningStake
  let prizeProduct ← checkedMul stakerWinningStake netLosing
  let prizeShare ← checkedDiv prizeProduct totalWinningStake
  let payout ← checkedAdd stakerWinningStake prizeShare
  return (stakerFeeShare, payout)

/-- The fee on a losing pool, in basis points and rounded down. -/
def totalFee (losing : Int) (feeBps : Nat) : Int := losing * feeBps / 10000

/-- The part of the fee collected with the claim of a stake. -/
def feeShare (losing : Int) (feeBps : Nat) (winning stake : Int) : Int :=
  proRata (totalFee losing feeBps) winning stake

/-- The payout of a stake: the stake, and its share of the losing pool after the fee. -/
def payout (losing : Int) (feeBps : Nat) (winning stake : Int) : Int :=
  stake + proRata (losing - totalFee losing feeBps) winning stake

variable {losing winning stake fee net : Int} {feeBps : Nat}

theorem total_fee_nonneg (feeBps : Nat) (hlosing : 0 ≤ losing) : 0 ≤ totalFee losing feeBps :=
  Int.ediv_nonneg (mul_nonneg hlosing (Int.natCast_nonneg _)) (by decide)

/-- A fee of at most ten thousand basis points is at most the losing pool. -/
theorem total_fee_le (hlosing : 0 ≤ losing) (hfee : feeBps ≤ 10000) :
    totalFee losing feeBps ≤ losing := by
  have hbps : (feeBps : Int) ≤ 10000 := by exact_mod_cast hfee
  have hproduct : losing * feeBps ≤ losing * 10000 := mul_le_mul_of_nonneg_left hbps hlosing
  exact Int.ediv_le_of_le_mul (by decide) hproduct

theorem fee_share_nonneg (hlosing : 0 ≤ losing) (hwinning : 0 < winning) (hstake : 0 ≤ stake) :
    0 ≤ feeShare losing feeBps winning stake :=
  proRata_nonneg (total_fee_nonneg _ hlosing) hwinning hstake

theorem stake_le_payout (hlosing : 0 ≤ losing) (hfee : feeBps ≤ 10000) (hwinning : 0 < winning)
    (hstake : 0 ≤ stake) : stake ≤ payout losing feeBps winning stake := by
  have hnet : 0 ≤ losing - totalFee losing feeBps := by
    have := total_fee_le hlosing hfee
    omega
  have hprize := proRata_nonneg hnet hwinning hstake
  rw [payout]
  omega

/-- What `checkedMul` and then `checkedDiv` compute of a nonnegative product. -/
theorem checked_mul_div {a b c q : Int} (ha : 0 ≤ a) (hb : 0 ≤ b) :
    (checkedMul a b >>= fun product => checkedDiv product c) = some q ↔
      InI128 (a * b) ∧ c ≠ 0 ∧ InI128 (a * b / c) ∧ q = a * b / c := by
  have hproduct : 0 ≤ a * b := mul_nonneg ha hb
  simp only [Option.bind_eq_bind, Option.bind_eq_some_iff, checkedMul, checkedDiv, checked_eq_some]
  constructor
  · rintro ⟨product, ⟨hfits, rfl⟩, hdiv⟩
    split at hdiv
    · cases hdiv
    · next hc =>
      rw [tdiv_eq_div hproduct, checked_eq_some] at hdiv
      exact ⟨hfits, hc, hdiv.1, hdiv.2⟩
  · rintro ⟨hfits, hc, hquotient, rfl⟩
    refine ⟨a * b, ⟨hfits, rfl⟩, ?_⟩
    rw [if_neg hc, tdiv_eq_div hproduct, checked_eq_some]
    exact ⟨hquotient, rfl⟩

theorem compute_total_fee_exact (hlosing : 0 ≤ losing)
    (h : computeTotalFee losing feeBps = some fee) : fee = totalFee losing feeBps :=
  ((checked_mul_div hlosing (Int.natCast_nonneg _)).mp h).2.2.2

theorem compute_total_fee_defined (hlosing : 0 ≤ losing) (hfits : InI128 (losing * feeBps)) :
    computeTotalFee losing feeBps = some (totalFee losing feeBps) := by
  have hproduct : 0 ≤ losing * (feeBps : Int) := mul_nonneg hlosing (Int.natCast_nonneg _)
  refine (checked_mul_div hlosing (Int.natCast_nonneg _)).mpr ⟨hfits, by decide, ?_, rfl⟩
  exact .of_le (total_fee_nonneg _ hlosing) (Int.ediv_le_self _ hproduct) hfits

/-- The parts are computed exactly when the products and the payout fit. -/
theorem compute_payout_parts_iff {share amount : Int} (hfee : 0 ≤ fee) (hnet : 0 ≤ net)
    (hwinning : 0 < winning) (hstake : 0 ≤ stake) :
    computePayoutParts stake winning fee net = some (share, amount) ↔
      InI128 (stake * fee) ∧ InI128 (stake * net) ∧ InI128 (stake + proRata net winning stake) ∧
        share = proRata fee winning stake ∧ amount = stake + proRata net winning stake := by
  have hquotient : ∀ pot : Int, 0 ≤ pot → InI128 (stake * pot) → InI128 (stake * pot / winning) :=
    fun pot hpot hfits => .of_le (proRata_nonneg hpot hwinning hstake)
      (Int.ediv_le_self _ (mul_nonneg hstake hpot)) hfits
  have hparts : computePayoutParts stake winning fee net =
      (checkedMul stake fee >>= fun product => checkedDiv product winning).bind fun feePart =>
        (checkedMul stake net >>= fun product => checkedDiv product winning).bind fun prize =>
          (checkedAdd stake prize).bind fun total => some (feePart, total) := by
    simp only [computePayoutParts, Option.bind_eq_bind, Option.bind_assoc]
    rfl
  rw [hparts]
  simp only [Option.bind_eq_some_iff, checked_mul_div hstake hfee, checked_mul_div hstake hnet,
    checkedAdd, checked_eq_some, Option.some.injEq, Prod.mk.injEq]
  constructor
  · rintro ⟨_, ⟨hfee', -, -, rfl⟩, _, ⟨hnet', -, -, rfl⟩, _, ⟨htotal, rfl⟩, rfl, rfl⟩
    exact ⟨hfee', hnet', htotal, rfl, rfl⟩
  · rintro ⟨hfee', hnet', htotal, rfl, rfl⟩
    exact ⟨_, ⟨hfee', hwinning.ne', hquotient fee hfee hfee', rfl⟩, _,
      ⟨hnet', hwinning.ne', hquotient net hnet hnet', rfl⟩, _, ⟨htotal, rfl⟩, rfl, rfl⟩

/-- After the fee a losing pool does not outweigh the winning one, unless it did before. -/
theorem fee_leaves (hwinning : 0 < winning) (hpools : 0 < winning + losing)
    (hfeeBps : feeBps ≤ 10000) (h : computeTotalFee losing feeBps = some fee) :
    -winning < losing - fee := by
  by_cases hlosing : 0 ≤ losing
  · have hfee := total_fee_le hlosing hfeeBps
    rw [compute_total_fee_exact hlosing h]
    omega
  · -- The fee on a negative pool is not positive.
    have hproduct : losing * feeBps ≤ 0 :=
      mul_nonpos_of_nonpos_of_nonneg (by omega) (Int.natCast_nonneg _)
    have hfee : (losing * feeBps).tdiv 10000 ≤ 0 := by
      simpa using Int.tdiv_le_tdiv (c := 10000) (by decide) hproduct
    simp only [computeTotalFee, Option.bind_eq_bind, Option.bind_eq_some_iff, checkedMul,
      checkedDiv, checked_eq_some] at h
    obtain ⟨_, ⟨-, rfl⟩, hdiv⟩ := h
    rw [if_neg (by decide), checked_eq_some] at hdiv
    omega

/-- A payout is positive as long as the losing pool after the fee does not outweigh the winning
pool. -/
theorem payout_parts_pos {share amount : Int} (hstake : 0 < stake) (hwinning : 0 < winning)
    (hnet : -winning < net) (h : computePayoutParts stake winning fee net = some (share, amount)) :
    0 < amount := by
  have hprize : -stake < (stake * net).tdiv winning := by
    by_cases hpos : 0 ≤ net
    · have := Int.tdiv_nonneg (mul_nonneg hstake.le hpos) hwinning.le
      omega
    · have hloss : stake * -net < stake * winning := mul_lt_mul_of_pos_left (by omega) hstake
      have hloss' : 0 ≤ stake * -net := mul_nonneg hstake.le (by omega)
      have := Int.ediv_lt_of_lt_mul hwinning hloss
      rw [← tdiv_eq_div hloss', mul_neg, Int.neg_tdiv] at this
      omega
  simp only [computePayoutParts, Option.bind_eq_bind, Option.bind_eq_some_iff, checkedMul,
    checkedDiv, checked_eq_some, checkedAdd, if_neg hwinning.ne'] at h
  obtain ⟨_, -, _, -, _, ⟨-, rfl⟩, _, ⟨-, rfl⟩, _, ⟨-, rfl⟩, heq⟩ := h
  cases heq
  omega

section Winners

/-- The parts of every winner's claim against pools of the given size. -/
def computeParts (stakes : List Int) (totalWinningStake totalFee netLosing : Int) :
    Option (List (Int × Int)) :=
  stakes.mapM fun stake => computePayoutParts stake totalWinningStake totalFee netLosing

variable {stakes : List Int} {parts : List (Int × Int)}

/-- The parts of all the winners are computed exactly when each winner's are. -/
theorem compute_parts_iff : computeParts stakes winning fee net = some parts ↔
      List.Forall₂ (fun s p => computePayoutParts s winning fee net = some p) stakes parts := by
  unfold computeParts
  induction stakes generalizing parts with
  | nil => cases parts <;> simp
  | cons s rest ih =>
    simp only [List.mapM_cons, Option.bind_eq_bind, Option.bind_eq_some_iff,
      List.forall₂_cons_left_iff]
    constructor
    · rintro ⟨p, hp, ps, hps, hparts⟩
      cases hparts
      exact ⟨p, ps, hp, ih.mp hps, rfl⟩
    · rintro ⟨p, ps, hp, hps, rfl⟩
      exact ⟨p, hp, ps, ih.mpr hps, rfl⟩

/-- The parts of all the winners are the exact shares and payouts. -/
theorem parts_exact (hfee : 0 ≤ fee) (hnet : 0 ≤ net) (hwinning : 0 < winning)
    (hpos : ∀ s ∈ stakes, 0 < s) (h : computeParts stakes winning fee net = some parts) :
    parts = stakes.map fun s => (proRata fee winning s, s + proRata net winning s) := by
  have hparts := compute_parts_iff.mp h
  clear h
  induction hparts with
  | nil => rfl
  | @cons s p rest ps hp _ ih =>
    obtain ⟨share, amount⟩ := p
    have hs : 0 ≤ s := (hpos s (by simp)).le
    obtain ⟨-, -, -, rfl, rfl⟩ := (compute_payout_parts_iff hfee hnet hwinning hs).mp hp
    rw [List.map_cons, ih fun s' hs' => hpos s' (by simp [hs'])]

/-- Every winner's parts can be computed when the products fit and the pools together do. -/
theorem parts_defined (hfee : 0 ≤ fee) (hnet : 0 ≤ net) (hwinning : 0 < winning)
    (hpos : ∀ s ∈ stakes, 0 < s) (hle : ∀ s ∈ stakes, s ≤ winning)
    (hfits : ∀ s ∈ stakes, InI128 (s * fee) ∧ InI128 (s * net)) (hpools : winning + net ≤ i128Max) :
    ∃ parts, computeParts stakes winning fee net = some parts := by
  suffices hall : ∀ l : List Int, (∀ s ∈ l, s ∈ stakes) →
      ∃ parts, computeParts l winning fee net = some parts from hall stakes fun _ hs => hs
  intro l hl
  induction l with
  | nil => exact ⟨[], rfl⟩
  | cons s rest ih =>
    obtain ⟨ps, hps⟩ := ih fun s' hs' => hl s' (by simp [hs'])
    have hs : s ∈ stakes := hl s (by simp)
    have hstake : 0 ≤ s := (hpos s hs).le
    have hprize : proRata net winning s ≤ net := proRata_le_pot hnet hwinning (hle s hs)
    have hprize' : 0 ≤ proRata net winning s := proRata_nonneg hnet hwinning hstake
    have hbound : s + proRata net winning s ≤ i128Max := by
      have := hle s hs
      omega
    have htotal : InI128 (s + proRata net winning s) := by
      have : i128Min ≤ 0 := by decide
      exact ⟨by omega, hbound⟩
    have hp : computePayoutParts s winning fee net =
        some (proRata fee winning s, s + proRata net winning s) :=
      (compute_payout_parts_iff hfee hnet hwinning hstake).mpr
        ⟨(hfits s hs).1, (hfits s hs).2, htotal, rfl, rfl⟩
    exact ⟨_ :: ps, compute_parts_iff.mpr (.cons hp (compute_parts_iff.mp hps))⟩

/-- What a list of claims takes out: the stakes, their prizes and their fee shares. -/
theorem sum_payouts_add_shares (losing : Int) (feeBps : Nat) (winning : Int) (stakes : List Int) :
    (stakes.map (payout losing feeBps winning)).sum +
        (stakes.map (feeShare losing feeBps winning)).sum =
      stakes.sum + (stakes.map (proRata (losing - totalFee losing feeBps) winning)).sum +
        (stakes.map (proRata (totalFee losing feeBps) winning)).sum := by
  have hpayouts : stakes.map (payout losing feeBps winning) =
      stakes.map fun s => s + proRata (losing - totalFee losing feeBps) winning s := rfl
  have hshares : stakes.map (feeShare losing feeBps winning) =
      stakes.map (proRata (totalFee losing feeBps) winning) := rfl
  rw [hpayouts, hshares, List.sum_map_add, List.map_id']

/-- The payouts and the fee shares of stakes within the winning pool never exceed both pools. -/
theorem sum_payouts_le (hlosing : 0 ≤ losing) (hfee : feeBps ≤ 10000) (hwinning : 0 < winning)
    (stakes : List Int) (hsum : stakes.sum ≤ winning) :
    (stakes.map (payout losing feeBps winning)).sum +
      (stakes.map (feeShare losing feeBps winning)).sum ≤ winning + losing := by
  have hnet : 0 ≤ losing - totalFee losing feeBps := by
    have := total_fee_le hlosing hfee
    omega
  have hprizes := sum_proRata_le hnet hwinning stakes hsum
  have hfees := sum_proRata_le (total_fee_nonneg feeBps hlosing) hwinning stakes hsum
  rw [sum_payouts_add_shares]
  omega

/-- The payouts and fee shares of all the winners leave fewer than two units per winner. -/
theorem undistributed_lt (losing : Int) (feeBps : Nat) (hwinning : 0 < winning)
    (stakes : List Int) (hsum : stakes.sum = winning) :
    winning + losing - ((stakes.map (payout losing feeBps winning)).sum +
      (stakes.map (feeShare losing feeBps winning)).sum) < 2 * stakes.length := by
  have hne : stakes ≠ [] := by
    rintro rfl
    simp only [List.sum_nil] at hsum
    omega
  -- The prize floor and the fee floor each lose less than one unit per winner.
  have hleft : ∀ pot : Int, pot - (stakes.map (proRata pot winning)).sum < stakes.length :=
    fun _ => pot_sub_sum_proRata_lt hwinning stakes hne hsum
  have hprizes := hleft (losing - totalFee losing feeBps)
  have hfees := hleft (totalFee losing feeBps)
  rw [sum_payouts_add_shares]
  omega

/-- Payout conservation. When no product overflows, the fee is computed, so are all the winners'
parts if the pools together fit an `i128`, and whatever parts are computed pay each winner at
least the stake, distribute at most both pools, and leave fewer than two units per winner. -/
theorem payouts_conserve (hfeeBps : feeBps ≤ 10000) (hlosing : 0 ≤ losing)
    (hpos : ∀ s ∈ stakes, 0 < s) (hsum : stakes.sum = winning) (hwinning : 0 < winning)
    (hfeeProduct : InI128 (losing * feeBps))
    (hproducts : ∀ s ∈ stakes, InI128 (s * totalFee losing feeBps) ∧
      InI128 (s * (losing - totalFee losing feeBps))) (hfits : InI128 losing) :
    ∃ fee net, computeTotalFee losing feeBps = some fee ∧ checkedSub losing fee = some net ∧
      (winning + losing ≤ i128Max → ∃ parts, computeParts stakes winning fee net = some parts) ∧
      ∀ parts, computeParts stakes winning fee net = some parts →
        List.Forall₂ (fun s p => s ≤ p.2) stakes parts ∧
          (parts.map Prod.snd).sum + (parts.map Prod.fst).sum ≤ winning + losing ∧
          winning + losing - ((parts.map Prod.snd).sum + (parts.map Prod.fst).sum) <
            2 * stakes.length := by
  have hfee := total_fee_nonneg feeBps hlosing
  have hfee' := total_fee_le hlosing hfeeBps
  have hnet : 0 ≤ losing - totalFee losing feeBps := by omega
  refine ⟨_, _, compute_total_fee_defined hlosing hfeeProduct,
    checked_of_in_range (.of_le hnet (by omega) hfits), ?_, ?_⟩
  · intro hpools
    have hle : ∀ s ∈ stakes, s ≤ winning := by
      intro s hs
      rw [← hsum]
      exact List.single_le_sum (fun x hx => (hpos x hx).le) s hs
    exact parts_defined hfee hnet hwinning hpos hle hproducts (by omega)
  · intro parts hparts
    obtain rfl := parts_exact hfee hnet hwinning hpos hparts
    simp only [List.map_map]
    refine ⟨?_, sum_payouts_le hlosing hfeeBps hwinning stakes hsum.le,
      undistributed_lt losing feeBps hwinning stakes hsum⟩
    rw [List.forall₂_map_right_iff, List.forall₂_same]
    intro s hs
    exact stake_le_payout hlosing hfeeBps hwinning (hpos s hs).le

/-- Three winners share a losing pool that divides among them with remainders. -/
theorem payouts_conserve_among_three : ∃ fee net, computeTotalFee 100 250 = some fee ∧
    checkedSub 100 fee = some net ∧
      (7 + 100 ≤ i128Max → ∃ parts, computeParts [3, 2, 2] 7 fee net = some parts) ∧
      ∀ parts, computeParts [3, 2, 2] 7 fee net = some parts →
        List.Forall₂ (fun s p => s ≤ p.2) [3, 2, 2] parts ∧
          (parts.map Prod.snd).sum + (parts.map Prod.fst).sum ≤ 7 + 100 ∧
          7 + 100 - ((parts.map Prod.snd).sum + (parts.map Prod.fst).sum) <
            2 * ([3, 2, 2] : List Int).length :=
  payouts_conserve (by decide) (by decide) (by decide) (by decide) (by decide) (by decide)
    (by decide) (by decide)

end Winners

end Backit.OutcomeManager
