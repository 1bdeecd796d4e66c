import Backit.CallRegistry.StakeChecks
import Backit.CallRegistry.Configuration
import Backit.CallRegistry.CallStatus

/-!
# Whom the reputation limits serve and whom they block

A proven user with a volume below the platform's mean can have a lower limit than a new account,
down to nothing. And the setter of the parameters accepts base limits whose products overflow:
then users with a good record can neither stake nor have their calls resolved. In runs in which
the accepted parameters leave room for the best record and twice the mean volume, only volumes that
do not fit in basis points overflow.
-/

namespace Backit.CallRegistry

open Soroban Contract Lib

section Sound

/-- The track record of a new account. -/
def newcomer : CreatorStats := ⟨0, 0, 0⟩

/-- The limit is no lower than a newcomer's, than the user's with fewer correct calls, and than the
user's with less volume; it keeps the ceiling and lets the user stake. -/
structure SoundLimit (g : GlobalStats) (config : ContractConfig) (stats : CreatorStats)
    (userVolume limit : Int) : Prop where
  newcomers : ∃ lower, effectiveStakeLimit g config newcomer 0 = some lower ∧ lower ≤ limit
  correct : ∀ fewer : CreatorStats, fewer.Fewer stats →
    ∃ lower, effectiveStakeLimit g config fewer userVolume = some lower ∧ lower ≤ limit
  volume : ∀ less ≤ userVolume,
    ∃ lower, effectiveStakeLimit g config stats less = some lower ∧ lower ≤ limit
  ceiling : 0 < config.maxStakePerUser → limit ≤ config.maxStakePerUser
  stakes : 0 < limit

/-- The user's share of the mean volume lifts the raised base to a newcomer's limit. Users without
a base limit, new accounts and platforms without a mean need no share. -/
def ContractConfig.VolumeSuffices (config : ContractConfig) (g : GlobalStats)
    (stats : CreatorStats) (userVolume : Int) : Prop :=
  config.baseStakeLimit ≤ 0 ∨ stats.totalResolved < newUserResolvedThreshold ∨ g.average ≤ 0 ∨
    config.capped config.baseStakeLimit * bpsScale ≤
      config.raisedBase stats * g.rawShare userVolume

instance (config : ContractConfig) (g : GlobalStats) (stats : CreatorStats) (userVolume : Int) :
    Decidable (config.VolumeSuffices g stats userVolume) :=
  inferInstanceAs (Decidable (_ ∨ _ ∨ _ ∨ _))

variable {config : ContractConfig} {g : GlobalStats} {stats : CreatorStats} {userVolume : Int}

theorem ContractConfig.capped_le_self (config : ContractConfig) (a : Int) :
    config.capped a ≤ a := by
  unfold ContractConfig.capped
  split <;> omega

theorem ContractConfig.capped_pos (config : ContractConfig) {a : Int} (h : 0 < a) :
    0 < config.capped a := by
  unfold ContractConfig.capped
  split <;> omega

/-- Below the ceiling, capping both sides changes no comparison. -/
theorem ContractConfig.capped_le_capped_iff (config : ContractConfig) (a b : Int) :
    config.capped a ≤ config.capped b ↔ config.capped a ≤ b := by
  unfold ContractConfig.capped
  split <;> omega

/-- A proven user's limit reaches a newcomer's exactly when the volume suffices. -/
theorem ContractConfig.newcomer_le_iff (hbase : 0 < config.baseStakeLimit)
    (hproven : newUserResolvedThreshold ≤ stats.totalResolved) :
    config.capped config.baseStakeLimit ≤
        config.capped (config.personalLimit g stats userVolume) ↔
      config.VolumeSuffices g stats userVolume := by
  have hraised := config.base_le_raisedBase hbase.le stats
  have hcapped := config.capped_le_self config.baseStakeLimit
  have hpositive := config.capped_pos hbase
  rw [config.capped_le_capped_iff, ContractConfig.VolumeSuffices, ContractConfig.personalLimit,
    if_neg (not_le.mpr hbase), if_neg (not_lt.mpr hproven), Int.le_ediv_iff_mul_le (by decide)]
  simp only [not_le.mpr hbase, not_lt.mpr hproven, false_or]
  unfold GlobalStats.volumeShare
  by_cases haverage : 0 < g.average
  · rw [if_pos haverage]
    simp only [not_le.mpr haverage, false_or]
    obtain hle | hlt := le_total (g.rawShare userVolume) maxVolumeFactorBps
    · rw [min_eq_left hle]
    · rw [min_eq_right hlt]
      have hcap : config.capped config.baseStakeLimit * bpsScale ≤
          config.raisedBase stats * maxVolumeFactorBps := by
        unfold bpsScale maxVolumeFactorBps
        omega
      exact iff_of_true hcap (hcap.trans (mul_le_mul_of_nonneg_left hlt (hbase.le.trans hraised)))
  · rw [if_neg haverage]
    refine iff_of_true ?_ (.inl (not_lt.mp haverage))
    unfold bpsScale
    omega

/-- The limit is computed and sound exactly when its products fit and the volume suffices. -/
theorem sound_limit_iff : (∃ limit, effectiveStakeLimit g config stats userVolume = some limit ∧
      SoundLimit g config stats userVolume limit) ↔
    config.LimitFits g stats userVolume ∧ config.VolumeSuffices g stats userVolume := by
  have hnewcomer : ∀ lower, effectiveStakeLimit g config newcomer 0 = some lower ↔
      lower = config.capped
        (if config.baseStakeLimit ≤ 0 then i128Max else config.baseStakeLimit) := by
    intro lower
    have hnew : newcomer.totalResolved < newUserResolvedThreshold := by decide
    rw [effective_stake_limit_eq_some, ContractConfig.LimitFits, ContractConfig.personalLimit]
    simp [hnew]
  constructor
  · rintro ⟨limit, hlimit, hsound⟩
    obtain ⟨hfits, rfl⟩ := effective_stake_limit_eq_some.mp hlimit
    refine ⟨hfits, ?_⟩
    obtain ⟨lower, hlower, hle⟩ := hsound.newcomers
    by_cases hbase : config.baseStakeLimit ≤ 0
    · exact .inl hbase
    by_cases hnew : stats.totalResolved < newUserResolvedThreshold
    · exact .inr (.inl hnew)
    rw [hnewcomer, if_neg hbase] at hlower
    subst hlower
    exact (ContractConfig.newcomer_le_iff (not_le.mp hbase) (not_lt.mp hnew)).mp hle
  · rintro ⟨hfits, hvolume⟩
    have hlower : config.capped (if config.baseStakeLimit ≤ 0 then i128Max
        else config.baseStakeLimit) ≤ config.capped (config.personalLimit g stats userVolume) := by
      by_cases hbase : config.baseStakeLimit ≤ 0
      · simp [ContractConfig.personalLimit, hbase]
      · by_cases hnew : stats.totalResolved < newUserResolvedThreshold
        · simp [ContractConfig.personalLimit, hbase, hnew]
        · rw [if_neg hbase]
          exact (ContractConfig.newcomer_le_iff (not_le.mp hbase) (not_lt.mp hnew)).mpr hvolume
    refine ⟨_, effective_stake_limit_eq_some.mpr ⟨hfits, rfl⟩,
      ⟨_, (hnewcomer _).mpr rfl, hlower⟩, ?_, ?_, ?_, ?_⟩
    · intro fewer hfewer
      obtain ⟨hfits, hle⟩ := hfits.of_fewer hfewer
      exact ⟨_, effective_stake_limit_eq_some.mpr ⟨hfits, rfl⟩, config.capped_mono hle⟩
    · intro less hless
      obtain ⟨hfits, hle⟩ := hfits.of_less hless
      exact ⟨_, effective_stake_limit_eq_some.mpr ⟨hfits, rfl⟩, config.capped_mono hle⟩
    · intro hceiling
      rw [ContractConfig.capped, if_pos hceiling]
      exact min_le_right _ _
    · refine lt_of_lt_of_le (config.capped_pos ?_) hlower
      split
      · decide
      · omega

end Sound

/-- The limit of a user in a state, under a configuration. -/
def Storage.getUserStakeLimit (s : Storage) (config : ContractConfig) (user : Address) :
    Option Int :=
  effectiveStakeLimit s.profiles.globalStats config (s.getCreatorStats user)
    (s.getUserTotalStakeVolume user)

section Overlooked

attribute [local instance] noCrypto

/-- Alice creates eleven calls and stakes one unit on each, Bob stakes on the first, and ten of
Alice's calls are resolved as she predicted. -/
def provenScript : List (Env × Action) :=
  [at_ 1 [adminAddress] (.desk (.initializeContract adminAddress managerAddress 0)),
    at_ 2 [adminAddress] (.desk (.whitelistToken usdc))] ++
  (List.range 11).map (fun _ => at_ 3 [alice] (.market (.createCall alice sampleCall))) ++
  (List.range 11).map (fun i => at_ 10 [alice] (.market (.stakeOnCall alice (i + 1) 1 1))) ++
  [at_ 10 [bob] (.market (.stakeOnCall bob 1 9000 2))] ++
  (List.range 10).map
    (fun i => at_ 1000 [managerAddress] (.market (.resolveCall (i + 1) 1 7)))

/-- Then the admin turns the reputation limits on. -/
def overlookedRun : Replayed (T := StandardLedger) home anything :=
  .of freshWorld fresh_world_empty
    (provenScript ++ [at_ 1001 [adminAddress] (.desk (.setReputationParams 200 10000))])
    (by decide +kernel)

/-- The configuration that the admin has left. -/
def overlookedConfig : ContractConfig :=
  overlookedRun.world.store.control.config.get (by decide +kernel)

/-- Alice has predicted ten calls of ten, and her limit is zero; a new account's is two hundred. -/
theorem proven_user_shut_out :
    (registry home fun _ _ => False).Run overlookedRun.history overlookedRun.world ∧
      overlookedRun.world.store.control.config = some overlookedConfig ∧
      overlookedRun.world.store.getCreatorStats alice = ⟨11, 10, 10⟩ ∧
      effectiveStakeLimit overlookedRun.world.store.profiles.globalStats overlookedConfig
        newcomer 0 = some 200 ∧
      overlookedRun.world.store.getUserStakeLimit overlookedConfig alice = some 0 ∧
      ¬ ∃ limit, overlookedRun.world.store.getUserStakeLimit overlookedConfig alice = some limit ∧
        SoundLimit overlookedRun.world.store.profiles.globalStats overlookedConfig
          (overlookedRun.world.store.getCreatorStats alice)
          (overlookedRun.world.store.getUserTotalStakeVolume alice) limit := by
  have hnothing : overlookedRun.world.store.getUserStakeLimit overlookedConfig alice = some 0 := by
    decide +kernel
  refine ⟨overlookedRun.run anything_allowed, (Option.some_get _).symm, by decide +kernel,
    by decide +kernel, hnothing, ?_⟩
  rintro ⟨limit, hlimit, hsound⟩
  obtain rfl : 0 = limit := Option.some.inj (hnothing.symm.trans hlimit)
  exact absurd hsound.stakes (by decide)

end Overlooked

section Parameters

/-- The parameters leave room for the best track record and twice the mean volume. -/
def SafeParams (baseLimit : Int) (multiplier : Nat) : Prop :=
  baseLimit * (bpsScale + multiplier) / bpsScale * maxVolumeFactorBps ≤ i128Max

instance (baseLimit : Int) (multiplier : Nat) : Decidable (SafeParams baseLimit multiplier) :=
  inferInstanceAs (Decidable (_ ≤ _))

/-- Track records that the counters can hold. -/
structure CreatorStats.Counts (stats : CreatorStats) : Prop where
  correct : stats.totalCorrect ≤ stats.totalResolved
  resolved : stats.totalResolved < 2 ^ 32

variable {config : ContractConfig} {g : GlobalStats} {stats : CreatorStats} {userVolume : Int}

theorem CreatorStats.Counts.accuracy_le (h : stats.Counts) : stats.accuracy ≤ bpsScale := by
  have hcorrect := h.correct
  refine Int.ediv_le_of_le_mul (by omega) ?_
  unfold bpsScale
  omega

/-- Under safe parameters, volumes that fit make the products fit. -/
theorem SafeParams.products_fit (hbase : 0 ≤ config.baseStakeLimit)
    (hmultiplier : config.reputationMultiplier < 2 ^ 32)
    (hsafe : SafeParams config.baseStakeLimit config.reputationMultiplier)
    (hcounts : stats.Counts) (hvolume : g.VolumeFits userVolume) :
    config.ProductsFit g stats userVolume := by
  have haccuracy := hcounts.accuracy_le
  have hcorrect := hcounts.correct
  have hresolved := hcounts.resolved
  have hweighted : stats.accuracy * config.reputationMultiplier ≤
      bpsScale * config.reputationMultiplier :=
    mul_le_mul_of_nonneg_right haccuracy (Int.natCast_nonneg _)
  have hfactor : config.accuracyFactor stats ≤ bpsScale + config.reputationMultiplier := by
    have hterm := Int.ediv_le_ediv (show (0 : Int) < bpsScale by decide) hweighted
    rw [Int.mul_ediv_cancel_left _ (by decide)] at hterm
    exact Int.add_le_add_left hterm _
  have hraised : config.baseStakeLimit * config.accuracyFactor stats ≤
      config.baseStakeLimit * (bpsScale + config.reputationMultiplier) :=
    mul_le_mul_of_nonneg_left hfactor hbase
  have hbest : config.raisedBase stats * g.volumeShare userVolume ≤
      config.baseStakeLimit * (bpsScale + config.reputationMultiplier) / bpsScale *
        maxVolumeFactorBps := by
    have hshare : g.volumeShare userVolume ≤ maxVolumeFactorBps := by
      unfold GlobalStats.volumeShare
      split
      · exact min_le_right _ _
      · decide
    refine mul_le_mul (Int.ediv_le_ediv (by decide) hraised) hshare
      (g.volumeShare_nonneg userVolume) (Int.ediv_nonneg (mul_nonneg hbase ?_) (by decide))
    unfold bpsScale
    omega
  refine ⟨?_, hweighted.trans ?_, hvolume, hraised.trans ?_, hbest.trans hsafe⟩
  · unfold bpsScale i128Max
    omega
  · unfold bpsScale i128Max
    omega
  · unfold SafeParams maxVolumeFactorBps at hsafe
    generalize config.baseStakeLimit * (bpsScale + config.reputationMultiplier) = best at *
    unfold bpsScale i128Max at *
    omega

end Parameters

section Runs

/-- The step sets no reputation parameters but safe ones. -/
def setsSafeParams : Label → Bool
  | .invoked ⟨_, .desk (.setReputationParams baseLimit multiplier), _⟩ =>
    decide (multiplier < 2 ^ 32 ∧ SafeParams baseLimit multiplier)
  | _ => true

/-- Every accepted pair of reputation parameters is safe. -/
abbrev safelyConfigured {T : Type} : System.Guard (World T) Label :=
  fun _ _ l => setsSafeParams l = true

/-- The configured parameters are safe. -/
def ContractConfig.Safe (config : ContractConfig) : Prop :=
  config.reputationMultiplier < 2 ^ 32 ∧
    SafeParams config.baseStakeLimit config.reputationMultiplier

/-- The reputation parameters stay as they are, or the step has set them. -/
theorem DeskOp.rewrite_params (op : DeskOp) (config : ContractConfig) :
    (∃ baseLimit multiplier, op = .setReputationParams baseLimit multiplier ∧
      (op.rewrite config).baseStakeLimit = baseLimit ∧
      (op.rewrite config).reputationMultiplier = multiplier) ∨
    (op.rewrite config).baseStakeLimit = config.baseStakeLimit ∧
      (op.rewrite config).reputationMultiplier = config.reputationMultiplier := by
  cases op with
  | setReputationParams baseLimit multiplier => exact .inl ⟨baseLimit, multiplier, rfl, rfl, rfl⟩
  | _ => exact .inr ⟨rfl, rfl⟩

theorem Operation.rewrite_params (operation : Operation) (config : ContractConfig) :
    (operation.rewrite config).baseStakeLimit = config.baseStakeLimit ∧
      (operation.rewrite config).reputationMultiplier = config.reputationMultiplier := by
  cases operation with
  | addAdmin =>
    simp only [Operation.rewrite]
    split <;> exact ⟨rfl, rfl⟩
  | _ => exact ⟨rfl, rfl⟩

theorem ContractConfig.Safe.congr {config config' : ContractConfig} (h : config.Safe)
    (hsame : config'.baseStakeLimit = config.baseStakeLimit ∧
      config'.reputationMultiplier = config.reputationMultiplier) : config'.Safe := by
  unfold ContractConfig.Safe
  rw [hsame.1, hsame.2]
  exact h

theorem DeskChange.keeps_safe {env : Env} {c c' : Configuration} {op : DeskOp}
    {effects : List (Effect Event)} (hchange : DeskChange env c op c')
    (hsafe : ∀ config, c.contract = some config → config.Safe)
    (hguard : setsSafeParams (.invoked ⟨env, .desk op, effects⟩) = true) :
    ∀ config, c'.contract = some config → config.Safe := by
  intro after hafter
  cases hchange with
  | kept | trustline | governance | xlmSac | maxDuration => exact hsafe after hafter
  | initialised =>
    cases hafter
    exact ⟨Nat.two_pow_pos 32, show SafeParams 0 0 by decide⟩
  | @rewritten op config hconfig _ _ =>
    cases hafter
    obtain ⟨baseLimit, multiplier, rfl, hbase, hmultiplier⟩ | hsame := op.rewrite_params config
    · unfold ContractConfig.Safe
      rw [hbase, hmultiplier]
      simpa [setsSafeParams] using hguard
    · exact (hsafe config hconfig).congr hsame

variable {T : Type} [Tokens T] [Crypto] {self : Address} {outside : T → T → Prop}
  {history : List Label} {w w' : World T} {l : Label} {env : Env} {f f' : Frame Storage T Event}

/-- In a run that sets only safe parameters, the configured ones are safe. -/
theorem config_safe (run : (registry self outside).RunWhere safelyConfigured history w) :
    ∀ config, w.store.control.config = some config → config.Safe := by
  refine run.invariant
    (I := fun _ w => ∀ config, w.store.control.config = some config → config.Safe) ?_ ?_
  · intro w hw config hconfig
    rw [show w.store = Storage.empty from hw] at hconfig
    cases hconfig
  · intro h w l w' _ ih hstep hguard
    cases hstep with
    | elsewhere => exact ih
    | @invoked env action f _ _ _ hrun =>
      cases action with
      | market op =>
        rw [(MarketOp.steps hrun).control]
        exact ih
      | desk op =>
        obtain ⟨desk, hdesk, rfl⟩ := run_onDesk.mp hrun
        exact (DeskOp.steps hdesk).change.keeps_safe ih hguard
      | executeAdminProposal caller proposalId =>
        obtain ⟨proposal, config, -, -, -, hconfig, -, -, -, hexec⟩ :=
          execute_admin_proposal_executes hrun
        intro after hafter
        rw [hexec.configured] at hafter
        cases hafter
        exact (ih config hconfig).congr (proposal.operation.rewrite_params config)

omit [Tokens T] [Crypto] in
/-- A resolution that succeeds has counted one more resolved call. -/
theorem count_resolved_fits {config : ContractConfig} {call : Call} {outcome : Nat} {u : Unit}
    (h : Contract.run (countResolved config call outcome) env f = .ok (u, f')) :
    (f.store.getCreatorStats call.creator).totalResolved + 1 < 2 ^ 32 := by
  simp only [countResolved, run_steps] at h
  exact h.1

omit [Tokens T] [Crypto] in
theorem resolve_call_fits {callId outcome : Nat} {endPrice : Int} {resolved call : Call}
    (h : Contract.run (resolveCall callId outcome endPrice) env f = .ok (resolved, f'))
    (hcall : f.store.market.calls callId = some call) :
    (f.store.getCreatorStats call.creator).totalResolved + 1 < 2 ^ 32 := by
  simp only [resolveCall, run_requireConfig_bind, run_steps, run_reentrancyGuard_bind,
    run_requireCall_bind, Storage.setLocked_market] at h
  obtain ⟨_, -, -, -, -, found, hfound, -, -, -, h⟩ := h
  rw [run_bind] at h
  obtain ⟨_, _, hcount, -⟩ := h
  obtain rfl : call = found := Option.some.inj (hcall.symm.trans hfound)
  have hfits := count_resolved_fits hcount
  exact hfits

omit [Tokens T] [Crypto] in
/-- Track records stay within the counters, if the resolutions do. -/
theorem MarketStep.counts {config : Option ContractConfig} {op : MarketOp} {m m' : Market}
    {effects : List (Effect Event)} (h : MarketStep env config op m effects m')
    (hcounts : ∀ user, (m.creatorStats user).Counts)
    (hfits : ∀ callId call, op.resolves = some callId → m.calls callId = some call →
      (m.creatorStats call.creator).totalResolved + 1 < 2 ^ 32) (user : Address) :
    (m'.creatorStats user).Counts := by
  cases h with
  | @created creator =>
    show (Function.update m.creatorStats creator _ user).Counts
    rw [Function.update_apply]
    split
    · exact ⟨(hcounts creator).correct, (hcounts creator).resolved⟩
    · exact hcounts user
  | @resolved callId outcome _ call _ _ _ _ _ _ hcall =>
    show (Function.update m.creatorStats call.creator (m.resolvedStats call outcome) user).Counts
    rw [Function.update_apply]
    split
    · have hcorrect := (hcounts call.creator).correct
      refine ⟨?_, hfits callId call rfl hcall⟩
      simp only [Market.resolvedStats]
      split <;> omega
    · exact hcounts user
  | _ => exact hcounts user

theorem stats_fit {guard : System.Guard (World T) Label}
    (run : (registry self outside).RunWhere guard history w) (user : Address) :
    (w.store.getCreatorStats user).Counts := by
  refine run.invariant (I := fun _ w => ∀ user, (w.store.getCreatorStats user).Counts) ?_ ?_ user
  · intro w hw user
    rw [show w.store = Storage.empty from hw]
    exact ⟨le_rfl, Nat.two_pow_pos 32⟩
  · intro h w l w' _ ih hstep _ user
    obtain ⟨r, rfl, -, -, -, -, -, hmarket⟩ | ⟨-, hmarket, -⟩ := hstep.cases
    · refine hmarket.counts ih (fun callId call hresolves hcall => ?_) user
      obtain ⟨env, op, effects⟩ := r
      cases op with
      | resolveCall =>
        cases hstep with
        | invoked _ _ _ hrun =>
          obtain ⟨_, hrun⟩ := run_ignore.mp hrun
          cases hresolves
          exact resolve_call_fits hrun hcall
      | _ => cases hresolves
    · show (w'.store.market.creatorStats user).Counts
      rw [hmarket]
      exact ih user

/-- The user's limit overflows nowhere: it is computed, a stake of the user gets past it, and so
does the resolution of a call of the user. -/
structure LimitsPass (w : World T) (config : ContractConfig) (user : Address) : Prop where
  computed : ∃ limit, w.store.getUserStakeLimit config user = some limit
  staking : ∀ (env : Env) (call : Call) (position : Nat) (amount : Int),
    InI128 (valueAt (call.stakesOn position) user + amount) →
    Contract.run (checkStakeLimit config call user position amount) env w.frame ≠
      .error (.error .overflow)
  resolving : ∀ (env : Env) (call : Call) (outcome : Nat), call.creator = user →
    (w.store.getCreatorStats user).totalResolved + 1 < 2 ^ 32 →
    ∃ f, Contract.run (countResolved config call outcome) env w.frame = .ok ((), f)

omit [Tokens T] [Crypto] in
/-- Counting a resolution succeeds when the counters fit, and the creator's limits before and
after. -/
theorem count_resolved_runs {config : ContractConfig} {call : Call} {outcome : Nat}
    (hcounts : (f.store.getCreatorStats call.creator).Counts)
    (hresolved : (f.store.getCreatorStats call.creator).totalResolved + 1 < 2 ^ 32)
    (hbefore : ∃ limit, f.store.getUserStakeLimit config call.creator = some limit)
    (hafter : ∃ limit, effectiveStakeLimit f.store.profiles.globalStats config
      (f.store.market.resolvedStats call outcome)
      (f.store.getUserTotalStakeVolume call.creator) = some limit) :
    ∃ f', Contract.run (countResolved config call outcome) env f = .ok ((), f') := by
  obtain ⟨before, hbefore⟩ := hbefore
  obtain ⟨after, hafter⟩ := hafter
  have hcorrect := hcounts.correct
  have hcorrect : (f.store.getCreatorStats call.creator).totalCorrect + 1 < 2 ^ 32 := by omega
  have hannounce : ∀ (g : Frame Storage T Event) (new : CreatorStats),
      g.store.profiles.globalStats = f.store.profiles.globalStats →
      effectiveStakeLimit f.store.profiles.globalStats config new
        (f.store.getUserTotalStakeVolume call.creator) = some after →
      ∃ f', Contract.run (maybeEmitStakeLimitUpdated call.creator config
        (f.store.getCreatorStats call.creator) new
        (f.store.getUserTotalStakeVolume call.creator)) env g = .ok ((), f') := by
    intro g new hglobal hnew
    simp only [maybeEmitStakeLimitUpdated, run_steps, hglobal]
    by_cases hmoved : before ≠ after
    · exact ⟨_, before, hbefore, after, hnew, by rw [if_pos hmoved, run_publish]⟩
    · exact ⟨_, before, hbefore, after, hnew, by rw [if_neg hmoved, run_pure]⟩
  simp only [countResolved, run_steps]
  split
  · next hwins =>
    simp only [Market.resolvedStats, if_pos hwins] at hafter
    simp only [run_steps, exists_and_left]
    exact ⟨hresolved, hcorrect, hannounce _ _ rfl hafter⟩
  · next hloses =>
    simp only [Market.resolvedStats, if_neg hloses] at hafter
    simp only [run_steps, exists_and_left]
    exact ⟨hresolved, hannounce _ _ rfl hafter⟩

omit [Tokens T] [Crypto] in
/-- A resolution that is counted has computed the creator's new limit. -/
theorem count_resolved_computes {config : ContractConfig} {call : Call} {outcome : Nat} {u : Unit}
    (h : Contract.run (countResolved config call outcome) env f = .ok (u, f')) :
    ∃ limit, effectiveStakeLimit f.store.profiles.globalStats config
      (f.store.market.resolvedStats call outcome)
      (f.store.getUserTotalStakeVolume call.creator) = some limit := by
  simp only [countResolved, run_steps] at h
  obtain ⟨-, h⟩ := h
  split at h
  · next hwins =>
    simp only [run_steps, maybeEmitStakeLimitUpdated] at h
    obtain ⟨-, _, -, limit, hlimit, -⟩ := h
    simp only [Market.resolvedStats, if_pos hwins]
    exact ⟨limit, hlimit⟩
  · next hloses =>
    simp only [run_steps, maybeEmitStakeLimitUpdated] at h
    obtain ⟨_, -, limit, hlimit, -⟩ := h
    simp only [Market.resolvedStats, if_neg hloses]
    exact ⟨limit, hlimit⟩

omit [Tokens T] [Crypto] in
/-- When the user's limit is computed, the check of a stake fails only by its own verdict. -/
theorem check_stake_limit_fails {config : ContractConfig} {call : Call} {user : Address}
    {position : Nat} {amount limit : Int} (env : Env)
    (hlimit : f.store.getUserStakeLimit config user = some limit)
    (hfits : InI128 (valueAt (call.stakesOn position) user + amount)) :
    Contract.run (checkStakeLimit config call user position amount) env f ≠
      .error (.error .overflow) := by
  have hverdict : Contract.run (checkStakeLimit config call user position amount) env f =
      Contract.run (rejectIf (limit < valueAt (call.stakesOn position) user + amount)
        (.panic "Stake exceeds reputation-weighted stake limit")) env f := by
    rw [checkStakeLimit, run_i128_of hfits]
    show Contract.run (unwrap (f.store.getUserStakeLimit config user)
      (.error CallRegistryError.overflow) >>= _) env f = _
    rw [hlimit, run_unwrap_some]
  rw [hverdict]
  unfold rejectIf Contract.run
  intro h
  split at h <;> cases h

omit [Tokens T] [Crypto] in
theorem ContractConfig.Safe.fits {config : ContractConfig} (hsafe : config.Safe)
    {g : GlobalStats} {stats : CreatorStats} {userVolume : Int} (hcounts : stats.Counts)
    (h : config.baseStakeLimit ≤ 0 ∨ stats.totalResolved < newUserResolvedThreshold ∨
      g.VolumeFits userVolume) :
    ∃ limit, effectiveStakeLimit g config stats userVolume = some limit := by
  refine ⟨_, effective_stake_limit_eq_some.mpr ⟨?_, rfl⟩⟩
  by_cases hbase : config.baseStakeLimit ≤ 0
  · exact .inl hbase
  · obtain hle | hnew | hvolume := h
    · exact .inl hle
    · exact .inr (.inl hnew)
    · exact .inr (.inr (hsafe.2.products_fit (not_le.mp hbase).le hsafe.1 hcounts hvolume))

/-- In a run that sets only safe parameters, the limits never block a user, unless the user is
proven, or is about to be, and the volumes do not fit. -/
theorem limits_pass_iff (run : (registry self outside).RunWhere safelyConfigured history w)
    {config : ContractConfig} (hconfig : w.store.control.config = some config) (user : Address) :
    LimitsPass w config user ↔
      config.baseStakeLimit ≤ 0 ∨
      (w.store.getCreatorStats user).totalResolved + 1 < newUserResolvedThreshold ∨
      w.store.profiles.globalStats.VolumeFits (w.store.getUserTotalStakeVolume user) := by
  have hsafe := config_safe run config hconfig
  have hcounts := stats_fit run user
  constructor
  · intro hpass
    by_cases hbase : config.baseStakeLimit ≤ 0
    · exact .inl hbase
    by_cases hnew : (w.store.getCreatorStats user).totalResolved + 1 < newUserResolvedThreshold
    · exact .inr (.inl hnew)
    have hproven : ∀ stats : CreatorStats, newUserResolvedThreshold ≤ stats.totalResolved →
        (∃ limit, effectiveStakeLimit w.store.profiles.globalStats config stats
          (w.store.getUserTotalStakeVolume user) = some limit) →
        w.store.profiles.globalStats.VolumeFits (w.store.getUserTotalStakeVolume user) := by
      rintro stats hresolved ⟨limit, hlimit⟩
      obtain ⟨hle | hlt | hfits, -⟩ := effective_stake_limit_eq_some.mp hlimit
      · exact absurd hle hbase
      · omega
      · exact hfits.volume
    refine .inr (.inr ?_)
    by_cases hten : newUserResolvedThreshold ≤ (w.store.getCreatorStats user).totalResolved
    · exact hproven _ hten hpass.computed
    · -- the tenth resolution is the one that makes the user proven
      have hfew : (w.store.getCreatorStats user).totalResolved + 1 < 2 ^ 32 := by
        unfold newUserResolvedThreshold at hten
        omega
      obtain ⟨call, rfl⟩ : ∃ call : Call, call.creator = user :=
        ⟨newCall 0 user sampleCall 0 ∅, rfl⟩
      obtain ⟨_, hcount⟩ := hpass.resolving ⟨self, 0, 0, []⟩ call 0 rfl hfew
      have hcomputes := count_resolved_computes hcount
      refine hproven (w.store.market.resolvedStats call 0) ?_ hcomputes
      show newUserResolvedThreshold ≤ (w.store.getCreatorStats call.creator).totalResolved + 1
      omega
  · intro h
    have hcomputed : ∃ limit, w.store.getUserStakeLimit config user = some limit :=
      hsafe.fits hcounts (h.imp_right (Or.imp_left (by omega)))
    refine ⟨hcomputed, ?_, ?_⟩
    · intro env call position amount hfits
      obtain ⟨limit, hlimit⟩ := hcomputed
      exact check_stake_limit_fails (f := w.frame) env hlimit hfits
    · rintro env call outcome rfl hresolved
      have hafter : (w.store.market.resolvedStats call outcome).Counts := by
        have hcorrect := hcounts.correct
        refine ⟨?_, hresolved⟩
        simp only [Market.resolvedStats]
        change (w.store.market.creatorStats call.creator).totalCorrect ≤
          (w.store.market.creatorStats call.creator).totalResolved at hcorrect
        split <;> omega
      exact count_resolved_runs (f := w.frame) hcounts hresolved hcomputed (hsafe.fits hafter h)

end Runs

section Blocked

attribute [local instance] noCrypto

/-- Alice's track record again, under parameters that are safe. -/
def safeRun : Replayed (T := StandardLedger) home fun _ _ l => setsSafeParams l :=
  .of freshWorld fresh_world_empty
    (provenScript ++ [at_ 1001 [adminAddress] (.desk (.setReputationParams 7000 20000))])
    (by decide +kernel)

/-- The configuration with the safe parameters. -/
def safeConfig : ContractConfig := safeRun.world.store.control.config.get (by decide +kernel)

/-- Under the safe parameters Alice is not blocked. -/
theorem limits_pass_for_alice : LimitsPass safeRun.world safeConfig alice :=
  have run : (registry home fun _ _ => False).RunWhere safelyConfigured safeRun.history
      safeRun.world := safeRun.run fun _ _ _ h => h
  have hfits : safeRun.world.store.profiles.globalStats.average ≤ i128Max ∧
      max (safeRun.world.store.getUserTotalStakeVolume alice) 0 * bpsScale ≤ i128Max := by
    decide +kernel
  (limits_pass_iff run (Option.some_get _).symm alice).mpr (.inr (.inr fun _ => hfits))

/-- Bob opens another call, and the admin sets a base limit of `10 ^ 36`. -/
def blockedRun : Replayed (T := StandardLedger) home anything :=
  .of freshWorld fresh_world_empty
    (provenScript ++
      [at_ 1000 [bob] (.market (.createCall bob { sampleCall with endTs := 9000 })),
        at_ 1001 [adminAddress]
          (.desk (.setReputationParams 1000000000000000000000000000000000000 10000))])
    (by decide +kernel)

/-- The configuration with the large base limit. -/
def blockedConfig : ContractConfig := blockedRun.world.store.control.config.get (by decide +kernel)

/-- The error that a run ends with. -/
def failureOf {α β : Type} :
    Except (Failure CallRegistryError) (α × β) → Option (Failure CallRegistryError)
  | .error e => some e
  | .ok _ => none

/-- The setter has accepted the base limit. Alice's eleventh call cannot be resolved, and she cannot
stake on Bob's. -/
theorem proven_user_blocked :
    (registry home fun _ _ => False).Run blockedRun.history blockedRun.world ∧
      blockedRun.world.store.control.config = some blockedConfig ∧
      failureOf (run (resolveCall 11 1 7) ⟨home, 1002, 1002, [managerAddress]⟩
        blockedRun.world.frame) = some (.error .overflow) ∧
      failureOf (run (stakeOnCall alice 12 1 1) ⟨home, 1002, 1002, [alice]⟩
        blockedRun.world.frame) = some (.error .overflow) ∧
      ¬ LimitsPass blockedRun.world blockedConfig alice := by
  refine ⟨blockedRun.run anything_allowed, (Option.some_get _).symm, by decide +kernel,
    by decide +kernel, fun hpass => ?_⟩
  obtain ⟨limit, hlimit⟩ := hpass.computed
  have hnone : blockedRun.world.store.getUserStakeLimit blockedConfig alice = none := by
    decide +kernel
  rw [hnone] at hlimit
  cases hlimit

end Blocked

end Backit.CallRegistry
