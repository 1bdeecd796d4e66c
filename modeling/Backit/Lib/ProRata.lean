import Mathlib.Algebra.BigOperators.Ring.List
import Mathlib.Algebra.Order.BigOperators.Group.List
import Mathlib.Tactic.Linarith
import Mathlib.Tactic.Ring

/-!
# Pro rata shares

## Dividing a pot pro rata

A pot is divided among weights by floor division. The shares never exceed the pot as long as the
weights sum to at most the divisor, and when they sum to exactly the divisor less than one unit
per share is left over.
-/

namespace Backit.Lib

/-- The share of weight `w` in `pot` when the weights sum to `whole`. -/
def proRata (pot whole w : Int) : Int := w * pot / whole

variable {pot whole w : Int}

theorem proRata_nonneg (hpot : 0 ≤ pot) (hwhole : 0 < whole) (hw : 0 ≤ w) :
    0 ≤ proRata pot whole w :=
  Int.ediv_nonneg (mul_nonneg hw hpot) hwhole.le

/-- A share is within the weight's part of the pot. -/
theorem proRata_mul_le (pot w : Int) (hwhole : 0 < whole) : proRata pot whole w * whole ≤ w * pot :=
  Int.ediv_mul_le _ hwhole.ne'

/-- A share is at most the whole pot. -/
theorem proRata_le_pot (hpot : 0 ≤ pot) (hwhole : 0 < whole) (hle : w ≤ whole) :
    proRata pot whole w ≤ pot := by
  have h : w * pot ≤ pot * whole := by
    rw [mul_comm pot]
    exact mul_le_mul_of_nonneg_right hle hpot
  exact Int.ediv_le_of_le_mul hwhole h

/-- A share is nothing when the weighted pot does not reach the divisor. -/
theorem proRata_eq_zero_iff (hpot : 0 ≤ pot) (hwhole : 0 < whole) (hw : 0 ≤ w) :
    proRata pot whole w = 0 ↔ w * pot < whole := by
  have hnonneg := proRata_nonneg hpot hwhole hw
  have hlt : proRata pot whole w < 1 ↔ w * pot < 1 * whole := Int.ediv_lt_iff_lt_mul hwhole
  rw [one_mul] at hlt
  rw [← hlt]
  omega

/-- A cut of the pot leaves a share as it is when it fits in what the floor drops. -/
theorem proRata_sub_eq_iff {cut : Int} (hwhole : 0 < whole) (hw : 0 ≤ w) (hcut : 0 ≤ cut) :
    proRata (pot - cut) whole w = proRata pot whole w ↔ w * cut ≤ w * pot % whole := by
  have hsplit : w * pot % whole + whole * (w * pot / whole) = w * pot := Int.emod_add_mul_ediv ..
  have hsmaller : proRata (pot - cut) whole w ≤ proRata pot whole w :=
    Int.ediv_le_ediv hwhole (mul_le_mul_of_nonneg_left (by omega) hw)
  have hreach : proRata pot whole w ≤ proRata (pot - cut) whole w ↔
      w * pot / whole * whole ≤ w * (pot - cut) := Int.le_ediv_iff_mul_le hwhole
  rw [le_antisymm_iff, and_iff_right hsmaller, hreach, mul_sub, mul_comm _ whole]
  omega

/-- What two parts get is within the share of both, also when the second is of a smaller pot. -/
theorem proRata_add_le {pot' w' : Int} (hwhole : 0 < whole) (hpot : pot' ≤ pot) (hw' : 0 ≤ w') :
    proRata pot whole w + proRata pot' whole w' ≤ proRata pot whole (w + w') := by
  refine (Int.le_ediv_iff_mul_le hwhole).mpr ?_
  have hw : w * pot / whole * whole ≤ w * pot := Int.ediv_mul_le _ hwhole.ne'
  have hfloor : w' * pot' / whole * whole ≤ w' * pot' := Int.ediv_mul_le _ hwhole.ne'
  have hscaled : w' * pot' ≤ w' * pot := mul_le_mul_of_nonneg_left hpot hw'
  calc (proRata pot whole w + proRata pot' whole w') * whole
      = w * pot / whole * whole + w' * pot' / whole * whole := by rw [proRata, proRata, add_mul]
    _ ≤ (w + w') * pot := by rw [add_mul]; omega

/-- The shares, scaled back by the divisor, stay under the scaled weights. -/
theorem whole_mul_sum_proRata_le (pot : Int) (hwhole : 0 < whole) (ws : List Int) :
    whole * (ws.map (proRata pot whole)).sum ≤ ws.sum * pot := by
  induction ws with
  | nil => simp
  | cons w rest ih =>
    have hfloor : whole * proRata pot whole w ≤ w * pot := Int.mul_ediv_self_le hwhole.ne'
    simp only [List.map_cons, List.sum_cons, mul_add, add_mul]
    exact add_le_add hfloor ih

/-- The shares of weights within the divisor never exceed the pot. -/
theorem sum_proRata_le (hpot : 0 ≤ pot) (hwhole : 0 < whole) (ws : List Int)
    (hsum : ws.sum ≤ whole) : (ws.map (proRata pot whole)).sum ≤ pot := by
  have hscaled := whole_mul_sum_proRata_le pot hwhole ws
  have hweights : ws.sum * pot ≤ whole * pot := mul_le_mul_of_nonneg_right hsum hpot
  exact le_of_mul_le_mul_left (hscaled.trans hweights) hwhole

/-- The shares, scaled back by the divisor, and what the floors drop are the weighted pot. -/
theorem whole_mul_sum_proRata_add (pot whole : Int) (ws : List Int) :
    whole * (ws.map (proRata pot whole)).sum + (ws.map fun w => w * pot % whole).sum =
      ws.sum * pot := by
  induction ws with
  | nil => simp
  | cons w rest ih =>
    have hsplit : whole * proRata pot whole w + w * pot % whole = w * pot :=
      Int.mul_ediv_add_emod ..
    simp only [List.map_cons, List.sum_cons, mul_add, add_mul]
    omega

/-- The shares of a pot exceed the share of all weights in a smaller pot by at most `k` when the
weighted cut fits in `k` divisors and what the floors drop. -/
theorem sum_proRata_sub_le_iff (cut k : Int) (hwhole : 0 < whole) (ws : List Int) :
    (ws.map (proRata pot whole)).sum - k ≤ proRata (pot - cut) whole ws.sum ↔
      ws.sum * cut ≤ k * whole + (ws.map fun w => w * pot % whole).sum := by
  have hsplit := whole_mul_sum_proRata_add pot whole ws
  have hscaled : ((ws.map (proRata pot whole)).sum - k) * whole =
      whole * (ws.map (proRata pot whole)).sum - k * whole := by ring
  rw [proRata, Int.le_ediv_iff_mul_le hwhole, hscaled, mul_sub]
  omega

/-- Each floor loses less than one unit: the scaled weights, and one more per share, stay under
the scaled shares plus one divisor per share. -/
theorem sum_mul_add_length_le (pot : Int) (hwhole : 0 < whole) (ws : List Int) :
    ws.sum * pot + ws.length ≤ whole * ((ws.map (proRata pot whole)).sum + ws.length) := by
  induction ws with
  | nil => simp
  | cons w rest ih =>
    have hfloor : w * pot + 1 ≤ whole * (proRata pot whole w + 1) := by
      have h := Int.lt_ediv_add_one_mul_self (w * pot) hwhole
      rw [mul_comm _ whole] at h
      exact h
    simp only [List.map_cons, List.sum_cons, List.length_cons, Nat.cast_add, Nat.cast_one]
    calc (w + rest.sum) * pot + (rest.length + 1)
        = (w * pot + 1) + (rest.sum * pot + rest.length) := by ring
      _ ≤ whole * (proRata pot whole w + 1) +
            whole * ((rest.map (proRata pot whole)).sum + rest.length) := add_le_add hfloor ih
      _ = whole * (proRata pot whole w + (rest.map (proRata pot whole)).sum +
            (rest.length + 1)) := by ring

/-- The share of all weights, also in a smaller pot, exceeds their shares by at most one unit
each. -/
theorem proRata_sum_le {cut : Int} (hwhole : 0 < whole) (ws : List Int) (hsum : 0 ≤ ws.sum)
    (hcut : 0 ≤ cut) :
    proRata (pot - cut) whole ws.sum ≤ (ws.map (proRata pot whole)).sum + ws.length := by
  have hscaled := sum_mul_add_length_le pot hwhole ws
  have hsmaller : ws.sum * (pot - cut) ≤ ws.sum * pot := mul_le_mul_of_nonneg_left (by omega) hsum
  refine Int.ediv_le_of_le_mul hwhole ?_
  rw [mul_comm _ whole]
  omega

/-- When the weights sum to the divisor, less than one unit per share is left in the pot. -/
theorem pot_sub_sum_proRata_lt (hwhole : 0 < whole) (ws : List Int) (hne : ws ≠ [])
    (hsum : ws.sum = whole) : pot - (ws.map (proRata pot whole)).sum < ws.length := by
  have hscaled := sum_mul_add_length_le pot hwhole ws
  have hlength : 0 < ws.length := List.length_pos_iff.mpr hne
  rw [hsum] at hscaled
  have hlt : whole * pot < whole * ((ws.map (proRata pot whole)).sum + ws.length) := by omega
  have := lt_of_mul_lt_mul_left hlt hwhole.le
  omega

/-- Amounts that are within their weights' shares of a pot are within the pot together. -/
theorem sum_le_pot {α : Type*} {weight amount : α → Int} {xs : List α} (hpot : 0 ≤ pot)
    (hwhole : 0 < whole) (hwithin : ∀ x ∈ xs, amount x * whole ≤ weight x * pot)
    (hsum : (xs.map weight).sum ≤ whole) : (xs.map amount).sum ≤ pot := by
  have hscaled : (xs.map amount).sum * whole ≤ (xs.map weight).sum * pot := by
    rw [← List.sum_map_mul_right, ← List.sum_map_mul_right]
    exact List.sum_le_sum hwithin
  have hweights : (xs.map weight).sum * pot ≤ pot * whole := by
    rw [mul_comm pot]
    exact mul_le_mul_of_nonneg_right hsum hpot
  exact le_of_mul_le_mul_right (hscaled.trans hweights) hwhole

end Backit.Lib

/-!
## Shares of a pot

A supply of shares divides a pot. Shares are minted and redeemed at the price of the pot per share,
both rounded down. No such trade lowers the price, and minting followed by redeeming returns what
was paid up to the price of one share. Shares that are minted one for one into an empty pot are
diluted by those already there.
-/

namespace Backit.Lib

/-- The price of one share, rounded up. -/
def priceCeil (pot supply : Int) : Int := (pot + supply - 1) / supply

/-- What a trade returns is at most what was paid, and short of it by at most the price of one
share. -/
def FairReturn (paid back pot supply : Int) : Prop :=
  back ≤ paid ∧ paid - back ≤ priceCeil pot supply

variable {pot pot' supply supply' shares paid : Int}

/-- Shares are worth no less when the price has not fallen. -/
theorem proRata_mono_of_price (hshares : 0 ≤ shares) (hsupply : 0 < supply) (hsupply' : 0 < supply')
    (hprice : pot * supply' ≤ pot' * supply) :
    proRata pot supply shares ≤ proRata pot' supply' shares := by
  refine (Int.le_ediv_iff_mul_le hsupply').mpr ?_
  have hfloor : proRata pot supply shares * supply ≤ shares * pot := Int.ediv_mul_le _ hsupply.ne'
  refine le_of_mul_le_mul_right ?_ hsupply
  calc proRata pot supply shares * supply' * supply
      = proRata pot supply shares * supply * supply' := by ring
    _ ≤ shares * pot * supply' := mul_le_mul_of_nonneg_right hfloor hsupply'.le
    _ = shares * (pot * supply') := by ring
    _ ≤ shares * (pot' * supply) := mul_le_mul_of_nonneg_left hprice hshares
    _ = shares * pot' * supply := by ring

/-- Minting shares does not lower the price. -/
theorem mint_price (hpot : 0 < pot) :
    pot * (supply + proRata supply pot paid) ≤ (pot + paid) * supply := by
  have hfloor : proRata supply pot paid * pot ≤ paid * supply := Int.ediv_mul_le _ hpot.ne'
  linarith [mul_comm pot (proRata supply pot paid), mul_add pot supply (proRata supply pot paid),
    add_mul pot paid supply]

/-- Redeeming shares does not lower the price. -/
theorem redeem_price (hsupply : 0 < supply) :
    pot * (supply - shares) ≤ (pot - proRata pot supply shares) * supply := by
  have hfloor : proRata pot supply shares * supply ≤ shares * pot := Int.ediv_mul_le _ hsupply.ne'
  linarith [mul_comm shares pot, mul_sub pot supply shares,
    sub_mul pot (proRata pot supply shares) supply]

/-- Redeeming the shares that were minted returns what was paid, up to the price of one share. -/
theorem round_trip_fair (hpot : 0 < pot) (hsupply : 0 < supply) (hpaid : 0 ≤ paid) :
    FairReturn paid (proRata (pot + paid) (supply + proRata supply pot paid)
      (proRata supply pot paid)) (pot + paid) (supply + proRata supply pot paid) := by
  have hminted : 0 ≤ proRata supply pot paid := proRata_nonneg hsupply.le hpot hpaid
  have hfloor : proRata supply pot paid * pot ≤ paid * supply := Int.ediv_mul_le _ hpot.ne'
  have hceil : paid * supply < (proRata supply pot paid + 1) * pot :=
    Int.lt_ediv_add_one_mul_self _ hpot
  generalize proRata supply pot paid = minted at *
  have hsupply' : 0 < supply + minted := by omega
  refine ⟨Int.ediv_le_of_le_mul hsupply' ?_, ?_⟩
  · linarith [mul_add paid supply minted, mul_add minted pot paid, mul_comm minted paid]
  · refine (Int.le_ediv_iff_mul_le hsupply').mpr ?_
    have hback : minted * (pot + paid) <
        (proRata (pot + paid) (supply + minted) minted + 1) * (supply + minted) :=
      Int.lt_ediv_add_one_mul_self _ hsupply'
    generalize proRata (pot + paid) (supply + minted) minted = back at *
    linarith [mul_add paid supply minted, mul_add minted pot paid, mul_comm minted paid,
      add_mul minted 1 pot, add_mul back 1 (supply + minted), sub_mul paid back (supply + minted)]

/-- Shares that are minted one for one into an empty pot return what was paid only when it or the
supply is almost nothing. -/
theorem empty_pot_fair_iff (hsupply : 0 < supply) (hpaid : 0 < paid) :
    FairReturn paid (proRata paid (supply + paid) paid) paid (supply + paid) ↔
      paid * supply ≤ paid + supply := by
  have hsupply' : 0 < supply + paid := by omega
  have hprice : priceCeil paid (supply + paid) = 1 := by
    unfold priceCeil
    refine Int.ediv_eq_iff_of_pos hsupply' |>.mpr ?_
    omega
  have hback : proRata paid (supply + paid) paid ≤ paid :=
    proRata_le_pot hpaid.le hsupply' (by omega)
  rw [FairReturn, hprice]
  constructor
  · rintro ⟨-, hloss⟩
    have hone : paid - 1 ≤ proRata paid (supply + paid) paid := by omega
    have hmul := (Int.le_ediv_iff_mul_le hsupply').mp hone
    linarith [sub_mul paid 1 (supply + paid), mul_add paid supply paid]
  · intro hsmall
    refine ⟨hback, ?_⟩
    have hone : paid - 1 ≤ proRata paid (supply + paid) paid := by
      refine (Int.le_ediv_iff_mul_le hsupply').mpr ?_
      linarith [sub_mul paid 1 (supply + paid), mul_add paid supply paid]
    omega

/-- Shares that are minted one for one into a pot without shares return the whole pot. -/
theorem whole_pot_back (hpaid : 0 < paid) : proRata (pot + paid) paid paid = pot + paid := by
  rw [proRata, mul_comm, Int.mul_ediv_cancel _ hpaid.ne']

end Backit.Lib
