import Mathlib.Tactic.Ring
import Backit.Soroban.Execution

/-!
# The Dutch auction

An auction of a call starts at a price and moves with time: down to nothing when the call's target
is above it, up to twice the start price when it is below. How long this takes is a parameter of
the contract, which the administrator may change at any time.
-/

namespace Backit.DutchAuction

open Soroban Contract

inductive DutchAuctionError where
  | alreadyInitialized
  | notInitialized
  | auctionNotStarted
  | auctionAlreadySettled
  | callNotEligible
  | oracleDeadlineNotMet
  | unauthorized
  | invalidParams
  | overflow
  | invalidPrice
  | unknownConditionType
  deriving DecidableEq

structure AuctionInfo where
  callId : Nat
  conditionType : Nat
  startPrice : Int
  startTs : Nat
  settled : Bool
  deriving DecidableEq

structure DutchAuctionConfig where
  admin : Address
  outcomeManager : Address
  auctionDurationSecs : Nat
  oracleDeadlineSecs : Nat
  settlerRewardBps : Nat
  deriving DecidableEq

inductive Event where
  | started (callId : Nat) (startPrice : Int) (conditionType startTs : Nat)
  | settled (callId : Nat) (price : Int) (settler : Address) (reward : Int)
  | paramsChanged (auctionDurationSecs oracleDeadlineSecs settlerRewardBps : Nat)
  deriving DecidableEq

structure Storage where
  config : Option DutchAuctionConfig
  auctionInfo : Map Nat AuctionInfo

namespace Storage

/-- The storage of a freshly deployed contract. -/
def empty : Storage := ⟨none, ∅⟩

variable (s : Storage)

def setConfig (config : DutchAuctionConfig) : Storage := { s with config := some config }

def setAuctionInfo (callId : Nat) (info : AuctionInfo) : Storage :=
  { s with auctionInfo := s.auctionInfo.insert callId info }

def getAuctionInfo (callId : Nat) : Option AuctionInfo := s.auctionInfo.lookup callId

end Storage

/-- A computation of an entry point. -/
abbrev Auction (P α : Type) := Contract (Frame Storage P Event) DutchAuctionError α

variable {P : Type}

def requireConfig : Auction P DutchAuctionConfig := do
  unwrap (← getStore).config (.error .notInitialized)

/-- Reject parameters out of range. -/
def requireParams (auctionDurationSecs settlerRewardBps : Nat) : Auction P Unit := do
  rejectIf (10000 < settlerRewardBps) (.error .invalidParams)
  rejectIf (auctionDurationSecs = 0) (.error .invalidParams)

/-- The entry point `initialize`. The administrator need not authorise it. -/
def initializeAuction (admin outcomeManager : Address)
    (auctionDurationSecs oracleDeadlineSecs settlerRewardBps : Nat) : Auction P Unit := do
  rejectIf ((← getStore).config.isSome = true) (.error .alreadyInitialized)
  requireParams auctionDurationSecs settlerRewardBps
  modifyStore (·.setConfig
    ⟨admin, outcomeManager, auctionDurationSecs, oracleDeadlineSecs, settlerRewardBps⟩)

def startDutchAuction (callId : Nat) (startPrice : Int) (conditionType : Nat) :
    Auction P Unit := do
  let _ ← requireConfig
  rejectIf (conditionType ≠ 1 ∧ conditionType ≠ 2) (.error .unknownConditionType)
  rejectIf (startPrice ≤ 0) (.error .invalidPrice)
  rejectIf (((← getStore).getAuctionInfo callId).isSome = true) (.error .auctionAlreadySettled)
  let environment ← env
  modifyStore (·.setAuctionInfo callId
    ⟨callId, conditionType, startPrice, environment.timestamp, false⟩)
  publish (.started callId startPrice conditionType environment.timestamp)

/-- The price once the duration has elapsed. -/
def endPrice (info : AuctionInfo) : Auction P Int :=
  if info.conditionType = 1 then pure 0
  else if info.conditionType = 2 then i128 (info.startPrice * 2)
  else fail (.error .unknownConditionType)

/-- The price after a time within the duration. -/
def runningPrice (info : AuctionInfo) (duration elapsed : Int) : Auction P Int :=
  if info.conditionType = 1 then do
    let doubled ← i128 (info.startPrice * 2)
    let left ← i128 (duration - elapsed)
    let scaled ← i128 (doubled * left)
    pure (scaled.tdiv duration)
  else if info.conditionType = 2 then do
    let tripled ← i128 (3 * elapsed)
    let reached ← i128 (duration + tripled)
    let numerator ← i128 (info.startPrice * reached)
    let doubled ← i128 (2 * duration)
    pure (numerator.tdiv doubled)
  else fail (.error .unknownConditionType)

/-- The price of an auction of a duration after an elapsed time. -/
def priceAfter (info : AuctionInfo) (duration elapsed : Nat) : Auction P Int :=
  if duration ≤ elapsed then endPrice info else runningPrice info duration elapsed

def getDutchAuctionPrice (callId : Nat) : Auction P Int := do
  let config ← requireConfig
  let info ← unwrap ((← getStore).getAuctionInfo callId) (.error .auctionNotStarted)
  let environment ← env
  priceAfter info config.auctionDurationSecs (environment.timestamp - info.startTs)

def settleDutchAuction (caller : Address) (callId : Nat) : Auction P Int := do
  requireAuth caller
  let config ← requireConfig
  let info ← unwrap ((← getStore).getAuctionInfo callId) (.error .auctionNotStarted)
  rejectIf (info.settled = true) (.error .auctionAlreadySettled)
  let price ← getDutchAuctionPrice callId
  let scaled ← i128 (price * config.settlerRewardBps)
  let reward := scaled.tdiv 10000
  modifyStore (·.setAuctionInfo callId { info with settled := true })
  publish (.settled callId price caller reward)
  pure price

def updateParams (auctionDurationSecs oracleDeadlineSecs settlerRewardBps : Nat) :
    Auction P Unit := do
  let config ← requireConfig
  requireAuth config.admin
  requireParams auctionDurationSecs settlerRewardBps
  modifyStore (·.setConfig
    { config with
      auctionDurationSecs := auctionDurationSecs
      oracleDeadlineSecs := oracleDeadlineSecs
      settlerRewardBps := settlerRewardBps })
  publish (.paramsChanged auctionDurationSecs oracleDeadlineSecs settlerRewardBps)

/-- The entry points. -/
inductive AuctionOp where
  | initializeAuction (admin outcomeManager : Address)
      (auctionDurationSecs oracleDeadlineSecs settlerRewardBps : Nat)
  | startDutchAuction (callId : Nat) (startPrice : Int) (conditionType : Nat)
  | settleDutchAuction (caller : Address) (callId : Nat)
  | getDutchAuctionPrice (callId : Nat)
  | updateParams (auctionDurationSecs oracleDeadlineSecs settlerRewardBps : Nat)
  deriving DecidableEq

/-- Run an entry point. -/
def AuctionOp.perform : AuctionOp → Auction P Unit
  | .initializeAuction admin outcomeManager duration deadline bps =>
    DutchAuction.initializeAuction admin outcomeManager duration deadline bps
  | .startDutchAuction callId startPrice conditionType =>
    DutchAuction.startDutchAuction callId startPrice conditionType
  | .settleDutchAuction caller callId => ignore (DutchAuction.settleDutchAuction caller callId)
  | .getDutchAuctionPrice callId => ignore (DutchAuction.getDutchAuctionPrice callId)
  | .updateParams duration deadline bps => DutchAuction.updateParams duration deadline bps

end Backit.DutchAuction

/-!
## The price of an auction as a function of time

The price is a floor of a fraction that is linear in the elapsed time. It moves in one direction as
time passes, and lengthening the duration moves it back. The products that it is computed from fit
an `i128` at every later time under a bound on the start price.
-/

namespace Backit.DutchAuction

open Soroban Contract

theorem ediv_le_ediv_of_mul_le {a b c d : Int} (hb : 0 < b) (hd : 0 < d) (h : a * d ≤ c * b) :
    a / b ≤ c / d := by
  refine (Int.le_ediv_iff_mul_le hd).mpr (le_of_mul_le_mul_right ?_ hb)
  calc a / b * d * b = a / b * b * d := by ring
    _ ≤ a * d := mul_le_mul_of_nonneg_right (Int.ediv_mul_le a hb.ne') hd.le
    _ ≤ c * b := h

/-- The price that falls from twice the start price to nothing. -/
def falling (s d e : Int) : Int := if d ≤ e then 0 else s * 2 * (d - e) / d

/-- The price that rises from half the start price to twice the start price. -/
def rising (s d e : Int) : Int := if d ≤ e then s * 2 else s * (d + 3 * e) / (2 * d)

section Curves

variable {s d d' e e' : Int}

theorem falling_nonneg (hs : 0 < s) (hd : 0 < d) : 0 ≤ falling s d e := by
  unfold falling
  split
  · exact le_rfl
  · exact Int.ediv_nonneg (mul_nonneg (by omega) (by omega)) hd.le

theorem falling_le (hs : 0 < s) (hd : 0 < d) (he : 0 ≤ e) : falling s d e ≤ s * 2 := by
  unfold falling
  split
  · omega
  · refine Int.ediv_le_of_le_mul hd ?_
    exact mul_le_mul_of_nonneg_left (by omega) (by omega)

theorem rising_nonneg (hs : 0 < s) (hd : 0 < d) (he : 0 ≤ e) : 0 ≤ rising s d e := by
  unfold rising
  split
  · omega
  · exact Int.ediv_nonneg (mul_nonneg hs.le (by omega)) (by omega)

theorem rising_le (hs : 0 < s) (hd : 0 < d) : rising s d e ≤ s * 2 := by
  unfold rising
  split
  · exact le_rfl
  · refine Int.ediv_le_of_le_mul (by omega) ?_
    rw [mul_assoc]
    exact mul_le_mul_of_nonneg_left (by omega) hs.le

/-- Time and a shorter duration lower the falling price. -/
theorem falling_antitone (hs : 0 < s) (hd' : 0 < d') (hd : d' ≤ d) (he : 0 ≤ e) (hle : e ≤ e') :
    falling s d' e' ≤ falling s d e := by
  by_cases hended : d' ≤ e'
  · rw [falling, if_pos hended]
    exact falling_nonneg hs (by omega)
  · rw [falling, if_neg hended, falling, if_neg (by omega)]
    refine ediv_le_ediv_of_mul_le hd' (by omega) ?_
    have hcross : e * d' ≤ e' * d := mul_le_mul hle hd hd'.le (by omega)
    have hleft : (d' - e') * d ≤ (d - e) * d' := by
      rw [sub_mul, sub_mul, mul_comm d' d]
      omega
    rw [mul_assoc, mul_assoc (s * 2)]
    exact mul_le_mul_of_nonneg_left hleft (by omega)

/-- Time and a shorter duration raise the rising price. -/
theorem rising_monotone (hs : 0 < s) (hd' : 0 < d') (hd : d' ≤ d) (he : 0 ≤ e) (hle : e ≤ e') :
    rising s d e ≤ rising s d' e' := by
  by_cases hended : d' ≤ e'
  · rw [rising.eq_def s d', if_pos hended]
    exact rising_le hs (by omega)
  · rw [rising, if_neg (by omega), rising, if_neg hended]
    refine ediv_le_ediv_of_mul_le (by omega) (by omega) ?_
    have hcross : e * d' ≤ e' * d := mul_le_mul hle hd hd'.le (by omega)
    have hright : (d + 3 * e) * (2 * d') ≤ (d' + 3 * e') * (2 * d) := by linarith [mul_comm d d']
    rw [mul_assoc, mul_assoc s]
    exact mul_le_mul_of_nonneg_left hright hs.le

theorem falling_zero (hd : 0 < d) : falling s d 0 = s * 2 := by
  rw [falling, if_neg (by omega), sub_zero]
  exact Int.mul_ediv_cancel _ hd.ne'

theorem rising_zero (hd : 0 < d) : rising s d 0 = s / 2 := by
  rw [rising, if_neg (by omega), mul_zero, add_zero]
  exact Int.mul_ediv_mul_of_pos_left s 2 hd

end Curves

namespace AuctionInfo

variable (info : AuctionInfo)

/-- The price of an auction of a duration after an elapsed time. -/
def quote (duration elapsed : Nat) : Int :=
  if info.conditionType = 1 then falling info.startPrice duration elapsed
  else rising info.startPrice duration elapsed

/-- An auction that has been started with accepted arguments. -/
structure Accepted : Prop where
  conditionType : info.conditionType = 1 ∨ info.conditionType = 2
  startPrice : 0 < info.startPrice

/-- What a price of an auction is computed from is in range from an elapsed time on. -/
def PriceFits (duration elapsed : Nat) : Prop :=
  if info.conditionType = 1 then
    elapsed < duration → info.startPrice * 2 * ((duration : Int) - elapsed) ≤ i128Max
  else
    (elapsed < duration → info.startPrice * (4 * duration - 3) ≤ i128Max) ∧
      info.startPrice * 2 ≤ i128Max

/-- The settler's reward for an auction is in range from an elapsed time on. -/
def RewardFits (duration bps elapsed : Nat) : Prop :=
  if info.conditionType = 1 then info.quote duration elapsed * bps ≤ i128Max
  else info.startPrice * 2 * bps ≤ i128Max

instance (duration elapsed : Nat) : Decidable (info.PriceFits duration elapsed) :=
  inferInstanceAs (Decidable (if info.conditionType = 1 then _ else _))

instance (duration bps elapsed : Nat) : Decidable (info.RewardFits duration bps elapsed) :=
  inferInstanceAs (Decidable (if info.conditionType = 1 then _ else _))

end AuctionInfo

namespace AuctionInfo.Accepted

variable {info : AuctionInfo} {duration elapsed elapsed' bps : Nat}

theorem quote_nonneg (h : info.Accepted) (hduration : 0 < duration) :
    0 ≤ info.quote duration elapsed := by
  unfold quote
  split
  · exact falling_nonneg h.startPrice (by omega)
  · exact rising_nonneg h.startPrice (by omega) (by omega)

theorem quote_le (h : info.Accepted) (hduration : 0 < duration) :
    info.quote duration elapsed ≤ info.startPrice * 2 := by
  unfold quote
  split
  · exact falling_le h.startPrice (by omega) (by omega)
  · exact rising_le h.startPrice (by omega)

theorem price_fits_mono (h : info.Accepted) (hle : elapsed ≤ elapsed')
    (hfits : info.PriceFits duration elapsed) : info.PriceFits duration elapsed' := by
  have hs := h.startPrice
  unfold PriceFits at hfits ⊢
  split
  · next hfalls =>
    rw [if_pos hfalls] at hfits
    intro hrunning
    refine le_trans ?_ (hfits (by omega))
    exact mul_le_mul_of_nonneg_left (by omega) (by omega)
  · next hrises =>
    rw [if_neg hrises] at hfits
    exact ⟨fun hrunning => hfits.1 (by omega), hfits.2⟩

theorem run_priceAfter {P : Type} {env : Env} {f : Frame Storage P Event} (h : info.Accepted)
    (hduration : 0 < duration) (hfits : info.PriceFits duration elapsed) :
    run (priceAfter info duration elapsed : Auction P Int) env f =
      .ok (info.quote duration elapsed, f) := by
  have hs := h.startPrice
  have hin : ∀ x : Int, 0 ≤ x → x ≤ i128Max → InI128 x := fun x hx hle =>
    ⟨le_trans (by decide) hx, hle⟩
  unfold PriceFits at hfits
  unfold priceAfter
  obtain hfalls | hrises := h.conditionType
  · rw [if_pos hfalls] at hfits
    unfold endPrice runningPrice quote falling
    simp only [hfalls, if_true]
    by_cases hended : duration ≤ elapsed
    · rw [if_pos hended, if_pos (by omega), run_pure]
    · have hproduct := hfits (by omega)
      have hnonneg : 0 ≤ info.startPrice * 2 * ((duration : Int) - elapsed) :=
        mul_nonneg (by omega) (by omega)
      have hdouble : info.startPrice * 2 ≤ info.startPrice * 2 * ((duration : Int) - elapsed) :=
        le_mul_of_one_le_right (by omega) (by omega)
      have hleft : (duration : Int) - elapsed ≤
          info.startPrice * 2 * ((duration : Int) - elapsed) :=
        le_mul_of_one_le_left (by omega) (by omega)
      rw [if_neg hended, if_neg (by omega), run_i128_of (hin _ (by omega) (by omega)),
        run_i128_of (hin _ (by omega) (by omega)), run_i128_of (hin _ hnonneg hproduct), run_pure,
        tdiv_eq_div hnonneg]
  · rw [if_neg (by omega)] at hfits
    unfold endPrice runningPrice quote rising
    simp only [hrises, if_true, show ¬ (2 : Nat) = 1 by omega, if_false]
    by_cases hended : duration ≤ elapsed
    · rw [if_pos hended, if_pos (by omega)]
      exact (run_unwrap _ _).mpr ⟨checked_of_in_range (hin _ (by omega) hfits.2), rfl⟩
    · have hproduct := hfits.1 (by omega)
      have hreach : (duration : Int) + 3 * elapsed ≤ 4 * duration - 3 := by omega
      have hnumerator : info.startPrice * ((duration : Int) + 3 * elapsed) ≤
          info.startPrice * (4 * duration - 3) := mul_le_mul_of_nonneg_left hreach hs.le
      have hnonneg : 0 ≤ info.startPrice * ((duration : Int) + 3 * elapsed) :=
        mul_nonneg hs.le (by omega)
      have hwhole : 4 * (duration : Int) - 3 ≤ info.startPrice * (4 * duration - 3) :=
        le_mul_of_one_le_left (by omega) (by omega)
      have hdouble : info.startPrice * 2 ≤ i128Max := hfits.2
      rw [if_neg hended, if_neg (by omega), run_i128_of (hin _ (by omega) (by omega)),
        run_i128_of (hin _ (by omega) (by omega)),
        run_i128_of (hin _ hnonneg (by omega)), run_i128_of (hin _ (by omega) (by omega)),
        run_pure, tdiv_eq_div hnonneg]

/-- The reward of an auction is in range at every later time exactly when its bound holds. -/
theorem reward_fits_iff (h : info.Accepted) (hduration : 0 < duration) :
    info.RewardFits duration bps elapsed ↔
      ∀ later ≥ elapsed, info.quote duration later * bps ≤ i128Max := by
  unfold RewardFits
  split
  · next hfalls =>
    constructor
    · intro hfits later hlater
      refine le_trans (mul_le_mul_of_nonneg_right ?_ (Int.natCast_nonneg bps)) hfits
      unfold quote
      rw [if_pos hfalls, if_pos hfalls]
      exact falling_antitone h.startPrice (by omega) le_rfl (by omega) (by omega)
    · exact fun hlater => hlater elapsed le_rfl
  · next hrises =>
    constructor
    · intro hfits later _
      exact le_trans (mul_le_mul_of_nonneg_right (h.quote_le hduration)
        (Int.natCast_nonneg bps)) hfits
    · intro hlater
      have hend := hlater (max duration elapsed) (by omega)
      unfold quote at hend
      rwa [if_neg hrises, rising, if_pos (by omega)] at hend

theorem reward_fits_mono (h : info.Accepted) (hduration : 0 < duration) (hle : elapsed ≤ elapsed')
    (hfits : info.RewardFits duration bps elapsed) : info.RewardFits duration bps elapsed' :=
  (h.reward_fits_iff hduration).mpr fun later hlater =>
    (h.reward_fits_iff hduration).mp hfits later (hle.trans hlater)

end AuctionInfo.Accepted

end Backit.DutchAuction
