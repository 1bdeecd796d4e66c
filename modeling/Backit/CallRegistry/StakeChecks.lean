import Backit.CallRegistry.Terms

/-!
# The amount checks of a stake

`doStake` compares the amount with the minimum stake, and the stake it adds up to with the staker's
effective limit. The two checks are functions of their own here, and so is what follows them.
-/

namespace Backit.CallRegistry

open Soroban Contract Lib

section Checks

variable {T : Type} [Tokens T]

/-- The check of the minimum in `doStake`. -/
def checkMinStake (config : ContractConfig) (amount : Int) : Registry T Unit :=
  rejectIf (amount < config.minStake) (.panic "stake below minimum")

/-- The check of the maximum and the reputation limit in `doStake`. -/
def checkStakeLimit (config : ContractConfig) (call : Call) (staker : Address) (position : Nat)
    (amount : Int) : Registry T Unit := do
  let requestedStake ← i128 (valueAt (call.stakesOn position) staker + amount)
  let store ← getStore
  let limit ← unwrap (effectiveStakeLimit store.profiles.globalStats config
    (store.getCreatorStats staker) (store.getUserTotalStakeVolume staker)) (.error .overflow)
  rejectIf (limit < requestedStake) (.panic "Stake exceeds reputation-weighted stake limit")

/-- What `doStake` does after its checks. -/
def creditStake (funder staker : Address) (callId : Nat) (call : Call) (amount : Int)
    (position : Nat) : Registry T Call := do
  let credited ← collectStake call.stakeToken funder amount
  let updatedStake ← i128 (valueAt (call.stakesOn position) staker + credited)
  mintStakeShares call callId staker position credited
  let pool ← i128 (valueAt call.outcomeStakes position + credited)
  let staked := call.withStake position staker pool updatedStake
  modifyStore (·.onMarket fun m =>
    ((m.addCallStaker callId staker).setUserStake callId staker position updatedStake).setCall
      staked)
  modifyStore (·.onMarket (·.addStakerCall staker callId))
  recordStake staker credited
  recordUserStakeVolume staker credited
  publishByToken call.stakeToken (.xlmStakeAdded callId staker credited position)
    (.stakeAdded callId staker credited position)
  releaseLock
  pure staked

theorem do_stake_eq (funder staker : Address) (callId : Nat) (amount : Int) (position : Nat) :
    (doStake funder staker callId amount position : Registry T Call) = (do
      requireAuth funder
      reentrancyGuard
      rejectIf (amount ≤ 0) (.error .invalidStakeAmount)
      let config ← expectConfig "not initialized"
      rejectIf (config.paused = true) (.panic "Contract is paused")
      checkMinStake config amount
      let call ← requireCall callId
      checkStakeable config call position
      trackFirstStake staker
      let qualifies ← checkUserQualifies staker callId
      rejectIf (qualifies = false) (.panic "User does not meet the staking gate requirements")
      checkStakeLimit config call staker position amount
      creditStake funder staker callId call amount position) := by
  simp only [doStake, checkMinStake, checkStakeLimit, creditStake, Contract.bind_assoc]

/-- The amount passes the minimum, and its limit check on top of the staker's current stake. -/
structure PassesStakeChecks (s : Storage) (config : ContractConfig) (call : Call)
    (staker : Address) (position : Nat) (amount : Int) : Prop where
  minimum : config.minStake ≤ amount
  fits : InI128 (valueAt (call.stakesOn position) staker + amount)
  limit : ∃ limit, effectiveStakeLimit s.profiles.globalStats config (s.getCreatorStats staker)
      (s.getUserTotalStakeVolume staker) = some limit ∧
    valueAt (call.stakesOn position) staker + amount ≤ limit

variable {env : Env} {f f' : Frame Storage T Event}

omit [Tokens T] in
/-- Recording a first interaction changes nothing that the limit depends on. -/
theorem track_first_stake_keeps {staker : Address} {u : Unit}
    (h : run (trackFirstStake staker) env f = .ok (u, f')) :
    f'.store.profiles.globalStats = f.store.profiles.globalStats ∧
      f'.store.getCreatorStats = f.store.getCreatorStats ∧
      f'.store.getUserTotalStakeVolume = f.store.getUserTotalStakeVolume := by
  simp only [trackFirstStake, run_steps] at h
  split at h
  · rw [run_modifyStore] at h
    subst h
    exact ⟨rfl, rfl, rfl⟩
  · rw [run_pure, Except.ok.injEq, Prod.mk.injEq] at h
    obtain ⟨-, rfl⟩ := h
    exact ⟨rfl, rfl, rfl⟩

/-- A stake that succeeds has passed the checks in the state it started from. -/
theorem do_stake_passes {funder staker : Address} {callId position : Nat} {amount : Int}
    {staked : Call}
    (h : run (doStake funder staker callId amount position) env f = .ok (staked, f')) :
    ∃ config call, f.store.control.config = some config ∧
      f.store.market.calls callId = some call ∧
      PassesStakeChecks f.store config call staker position amount := by
  simp only [do_stake_eq, run_steps, run_reentrancyGuard_bind, run_expectConfig_bind, checkMinStake,
    run_requireCall_bind] at h
  obtain ⟨-, -, -, config, hconfig, -, hminimum, call, hcall, h⟩ := h
  rw [run_bind] at h
  obtain ⟨_, f₁, hcheck, h⟩ := h
  obtain ⟨rfl, -, -⟩ := run_check_stakeable hcheck
  rw [run_bind] at h
  obtain ⟨_, f₂, hfirst, h⟩ := h
  rw [run_bind] at h
  obtain ⟨qualifies, f₃, hgate, h⟩ := h
  obtain rfl := check_user_qualifies_read_only _ _ _ _ _ _ hgate
  simp only [checkStakeLimit, Contract.bind_assoc, run_steps, not_lt] at h
  obtain ⟨-, hfits, limit, hlimit, hle, -⟩ := h
  obtain ⟨hglobal, hstats, hvolume⟩ := track_first_stake_keeps hfirst
  rw [hglobal, hstats, hvolume] at hlimit
  exact ⟨config, call, hconfig, hcall, by omega, hfits, limit, hlimit, hle⟩

end Checks

end Backit.CallRegistry
