import Backit.CallRegistry.StakeChecks

/-!
# The interface's stake limits

The interface accepts an amount between the registry's minimum and maximum that the wallet can
afford. The registry compares the stake that the amount adds up to with what the user has on the
position already, and its limit also depends on the user's reputation; the interface knows neither.
It is right when the largest amount that it accepts leaves room for the current stake.
-/

namespace Backit.Frontend

open Soroban Contract Lib CallRegistry

/-- The registry's limits as the interface has them; no maximum is an unlimited stake. -/
structure StakeLimits where
  minStroops : Int
  maxStroops : Option Int
  deriving DecidableEq

inductive StakeAmountProblem where
  | invalidAmount
  | belowMinimum
  | aboveMaximum
  | exceedsBalance
  | insufficientFee
  | marketClosed
  deriving DecidableEq

inductive StakeAmountValidation where
  | ok
  | error (problem : StakeAmountProblem)
  deriving DecidableEq

/-- An amount that could not be parsed and an unknown balance are missing. -/
structure ValidateStakeAmountParams where
  amountStroops : Option Int
  spendableStroops : Option Int
  limits : StakeLimits
  hasFeeBuffer : Bool
  marketActive : Bool
  deriving DecidableEq

/-- The first reason why the amount cannot be submitted. -/
def validateStakeAmount (p : ValidateStakeAmountParams) : StakeAmountValidation :=
  if p.marketActive = false then .error .marketClosed
  else
    match p.amountStroops with
    | none => .error .invalidAmount
    | some amount =>
      if amount ≤ 0 then .error .invalidAmount
      else if amount < p.limits.minStroops then .error .belowMinimum
      else if p.limits.maxStroops.any (· < amount) then .error .aboveMaximum
      else if p.spendableStroops.any (· < amount) then .error .exceedsBalance
      else if p.hasFeeBuffer = false then .error .insufficientFee
      else .ok

/-- The largest amount that is affordable and within the limits; zero when there is none. -/
def computeMaxStakeStroops (spendableStroops : Int) (limits : StakeLimits) : Int :=
  if spendableStroops ≤ 0 then 0
  else
    let capped :=
      match limits.maxStroops with
      | some max => if max < spendableStroops then max else spendableStroops
      | none => spendableStroops
    if limits.minStroops ≤ capped then capped else 0

/-- The interface's limits when they are the registry's. -/
def limitsOf (config : ContractConfig) : StakeLimits where
  minStroops := config.minStake
  maxStroops := if 0 < config.maxStakePerUser then some config.maxStakePerUser else none

/-- The interface's input for an amount on an open market. -/
def openMarket (config : ContractConfig) (spendable : Option Int) (hasFeeBuffer : Bool)
    (amount : Int) : ValidateStakeAmountParams where
  amountStroops := some amount
  spendableStroops := spendable
  limits := limitsOf config
  hasFeeBuffer := hasFeeBuffer
  marketActive := true

/-- Every amount that the interface accepts passes the registry's checks. -/
def AcceptedPasses (s : Storage) (config : ContractConfig) (call : Call) (staker : Address)
    (position : Nat) (spendable : Option Int) (hasFeeBuffer : Bool) : Prop :=
  ∀ amount, validateStakeAmount (openMarket config spendable hasFeeBuffer amount) = .ok →
    PassesStakeChecks s config call staker position amount

/-- The smaller of the spendable balance and the maximum, as far as they are known. -/
def largestAccepted (config : ContractConfig) (spendable : Option Int) : Option Int :=
  match spendable, (limitsOf config).maxStroops with
  | some balance, some maximum => some (min balance maximum)
  | some balance, none => some balance
  | none, maximum => maximum

/-- No amount is accepted, or the largest one leaves room for the current stake. -/
def LeavesRoom (s : Storage) (config : ContractConfig) (call : Call) (staker : Address)
    (position : Nat) (spendable : Option Int) (hasFeeBuffer : Bool) : Prop :=
  hasFeeBuffer = false ∨
    ∃ largest, largestAccepted config spendable = some largest ∧
      (largest ≤ 0 ∨ largest < config.minStake ∨
        ∃ limit, effectiveStakeLimit s.profiles.globalStats config (s.getCreatorStats staker)
            (s.getUserTotalStakeVolume staker) = some limit ∧
          valueAt (call.stakesOn position) staker + largest ≤ min limit i128Max)

variable {s : Storage} {config : ContractConfig} {call : Call} {staker : Address}
  {position : Nat} {spendable : Option Int} {hasFeeBuffer : Bool} {amount : Int}

/-- What the checks say together. -/
theorem validate_amount_ok {limits : StakeLimits} {marketActive : Bool} :
    validateStakeAmount ⟨some amount, spendable, limits, hasFeeBuffer, marketActive⟩ = .ok ↔
      marketActive = true ∧ 0 < amount ∧ limits.minStroops ≤ amount ∧
        (∀ maximum ∈ limits.maxStroops, amount ≤ maximum) ∧ (∀ balance ∈ spendable, amount ≤ balance) ∧
        hasFeeBuffer = true := by
  have hany : ∀ bound : Option Int, (bound.any (· < amount)) = true ↔
      ¬ ∀ b ∈ bound, amount ≤ b := by
    intro bound
    cases bound <;> simp
  simp only [validateStakeAmount, hany]
  grind

/-- An amount is accepted when it is positive, at least the minimum and at most every known bound,
and the fee can be paid. -/
theorem validate_ok_iff :
    validateStakeAmount (openMarket config spendable hasFeeBuffer amount) = .ok ↔
      0 < amount ∧ config.minStake ≤ amount ∧
        (∀ largest ∈ largestAccepted config spendable, amount ≤ largest) ∧
        hasFeeBuffer = true := by
  have hbounds : (∀ largest ∈ largestAccepted config spendable, amount ≤ largest) ↔
      (∀ maximum ∈ (limitsOf config).maxStroops, amount ≤ maximum) ∧
        ∀ balance ∈ spendable, amount ≤ balance := by
    unfold largestAccepted
    cases spendable <;> cases (limitsOf config).maxStroops <;> simp [and_comm]
  rw [hbounds, openMarket, validate_amount_ok, and_iff_right rfl, and_assoc]
  rfl

/-- The interface accepts exactly what the registry's checks let through when no amount is accepted,
or the largest one leaves room for the stake that the user has. -/
theorem accepted_passes_iff (hcurrent : i128Min ≤ valueAt (call.stakesOn position) staker) :
    AcceptedPasses s config call staker position spendable hasFeeBuffer ↔
      LeavesRoom s config call staker position spendable hasFeeBuffer := by
  constructor
  · intro h
    cases hfee : hasFeeBuffer with
    | false => exact .inl rfl
    | true =>
      subst hfee
      refine .inr ?_
      cases hlargest : largestAccepted config spendable with
      | none =>
        -- Without a bound an amount beyond the range of an `i128` is accepted.
        have hok : validateStakeAmount (openMarket config spendable true
            (max (max 1 config.minStake)
              (i128Max - valueAt (call.stakesOn position) staker + 1))) = .ok :=
          validate_ok_iff.mpr ⟨by omega, by omega, by simp [hlargest], rfl⟩
        have hfits := (h _ hok).fits.2
        omega
      | some largest =>
        refine ⟨largest, rfl, ?_⟩
        by_cases hsome : 0 < largest ∧ config.minStake ≤ largest
        · obtain ⟨-, hfits, limit, hlimit, hle⟩ := h largest
            (validate_ok_iff.mpr ⟨hsome.1, hsome.2, by simp [hlargest], rfl⟩)
          exact .inr (.inr ⟨limit, hlimit, le_min hle hfits.2⟩)
        · omega
  · rintro (rfl | ⟨largest, hlargest, hroom⟩) amount hok
    · cases (validate_ok_iff.mp hok).2.2.2
    · obtain ⟨hpos, hminimum, hle, -⟩ := validate_ok_iff.mp hok
      have hle := hle largest hlargest
      rcases hroom with hnone | hnone | ⟨limit, hlimit, hfits⟩
      · omega
      · omega
      · have hlimit_le := hfits.trans (min_le_left _ _)
        have hmax := hfits.trans (min_le_right _ _)
        exact ⟨hminimum, ⟨by omega, by omega⟩, limit, hlimit, by omega⟩

section Scenario

attribute [local instance] noCrypto

/-- With a maximum of 400 per user, Alice has staked 300 on the first position of call 1. -/
def stakedRun : Replayed (T := StandardLedger) home anything :=
  .of freshWorld fresh_world_empty
    (openingScript ++
      [at_ 4 [adminAddress] (.desk (.setMaxStakePerUser 400)),
        at_ 5 [alice] (.market (.stakeOnCall alice 1 300 1))]) (by decide +kernel)

def stakedConfig : ContractConfig := stakedRun.world.store.control.config.get (by decide +kernel)

def stakedCall : Call := (stakedRun.world.store.getCall 1).get (by decide +kernel)

/-- Whatever Bob can afford up to the maximum he can stake. -/
theorem accepted_of_bob_passes :
    AcceptedPasses stakedRun.world.store stakedConfig stakedCall bob 1 (some 10000) true :=
  (accepted_passes_iff (by decide +kernel)).mpr
    (.inr ⟨400, by decide +kernel, .inr (.inr ⟨400, by decide +kernel, by decide +kernel⟩)⟩)

/-- The interface accepts another 200 of Alice, which the registry refuses. -/
theorem accepted_stake_refused :
    (registry home fun _ _ => False).Run stakedRun.history stakedRun.world ∧
      validateStakeAmount (openMarket stakedConfig (some 9700) true 200) = .ok ∧
      (∀ env staked f', run (doStake alice alice 1 200 1) env
        ⟨stakedRun.world.store, stakedRun.world.tokens, []⟩ ≠ .ok (staked, f')) ∧
      ¬ AcceptedPasses stakedRun.world.store stakedConfig stakedCall alice 1 (some 9700) true := by
  have hconfig : stakedRun.world.store.control.config = some stakedConfig :=
    (Option.some_get _).symm
  have hcall : stakedRun.world.store.market.calls 1 = some stakedCall := (Option.some_get _).symm
  have hcurrent : valueAt (stakedCall.stakesOn 1) alice = 300 := by decide +kernel
  have hlimit : effectiveStakeLimit stakedRun.world.store.profiles.globalStats stakedConfig
      (stakedRun.world.store.getCreatorStats alice)
      (stakedRun.world.store.getUserTotalStakeVolume alice) = some 400 := by decide +kernel
  have hrefused :
      ¬ PassesStakeChecks stakedRun.world.store stakedConfig stakedCall alice 1 200 := by
    rintro ⟨-, -, limit, hlimit', hle⟩
    rw [hlimit] at hlimit'
    cases hlimit'
    omega
  have hok : validateStakeAmount (openMarket stakedConfig (some 9700) true 200) = .ok := by
    decide +kernel
  refine ⟨stakedRun.run anything_allowed, hok, fun env staked f' h => ?_, fun h =>
    hrefused (h 200 hok)⟩
  obtain ⟨config, call, hconfig', hcall', hpasses⟩ := do_stake_passes h
  obtain rfl := Option.some.inj (hconfig.symm.trans hconfig')
  obtain rfl := Option.some.inj (hcall.symm.trans hcall')
  exact hrefused hpasses

end Scenario

end Backit.Frontend
