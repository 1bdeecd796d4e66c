import Backit.CallRegistry.Storage

/-!
# Reputation-weighted stake limits

A user's individual stake limit per call and position, from the accuracy of the calls they created
and their share of the platform's stake volume. Ratios are in basis points. The computations use
checked arithmetic; `none` is the overflow that the contract reports as `overflow`.
-/

namespace Backit.CallRegistry

open Soroban

/-- Basis-point scale: `10000` is one. -/
def bpsScale : Int := 10000

/-- Resolved calls a user needs before reputation scales their limit. -/
def newUserResolvedThreshold : Nat := 10

/-- Cap on the volume factor: twice the baseline. -/
def maxVolumeFactorBps : Int := 20000

/-- `total_correct / max(total_resolved, 1)` in basis points. -/
def accuracyBps (stats : CreatorStats) : Option Int := do
  let scaled ← checkedMul stats.totalCorrect bpsScale
  checkedDiv scaled (max stats.totalResolved 1)

/-- The user's volume relative to the platform average, capped at twice the average. A platform
without stake history is neutral. -/
def volumeFactorBps (stats : GlobalStats) (userVolume : Int) : Option Int :=
  if stats.totalUniqueStakers = 0 ∨ stats.totalStakeVolume ≤ 0 then some bpsScale
  else do
    let average ← checkedDiv stats.totalStakeVolume stats.totalUniqueStakers
    if average ≤ 0 then some bpsScale
    else do
      let scaled ← checkedMul (max userVolume 0) bpsScale
      let raw ← checkedDiv scaled average
      some (min raw maxVolumeFactorBps)

/-- The limit before the absolute ceiling. The inner option is `None` of the source: no limit is
configured. -/
def reputationLimit (globalStats : GlobalStats) (baseStakeLimit : Int)
    (reputationMultiplier : Nat) (stats : CreatorStats) (userVolume : Int) :
    Option (Option Int) :=
  if baseStakeLimit ≤ 0 then some none
  else if stats.totalResolved < newUserResolvedThreshold then some (some baseStakeLimit)
  else do
    let accuracy ← accuracyBps stats
    let weighted ← checkedMul accuracy reputationMultiplier
    let term ← checkedDiv weighted bpsScale
    let factor ← checkedAdd bpsScale term
    let volumeFactor ← volumeFactorBps globalStats userVolume
    let scaledBase ← checkedMul baseStakeLimit factor
    let afterAccuracy ← checkedDiv scaledBase bpsScale
    let scaledAccuracy ← checkedMul afterAccuracy volumeFactor
    let final ← checkedDiv scaledAccuracy bpsScale
    some (some final)

/-- The limit that staking enforces: the reputation limit, capped by the absolute ceiling when one
is configured, and `i128::MAX` when neither applies. -/
def effectiveStakeLimit (globalStats : GlobalStats) (config : ContractConfig)
    (stats : CreatorStats) (userVolume : Int) : Option Int := do
  let reputation ← reputationLimit globalStats config.baseStakeLimit
    config.reputationMultiplier stats userVolume
  let limit := reputation.getD i128Max
  some (if 0 < config.maxStakePerUser then min limit config.maxStakePerUser else limit)

/-- Emit `StakeLimitUpdated` when a change of the creator's track record moves their limit. -/
def maybeEmitStakeLimitUpdated {T : Type} (user : Address) (config : ContractConfig)
    (oldStats newStats : CreatorStats) (userVolume : Int) : Registry T Unit := do
  let globalStats := (← Contract.getStore).profiles.globalStats
  let oldLimit ← Contract.unwrap (effectiveStakeLimit globalStats config oldStats userVolume)
    (.error .overflow)
  let newLimit ← Contract.unwrap (effectiveStakeLimit globalStats config newStats userVolume)
    (.error .overflow)
  if oldLimit ≠ newLimit then Contract.publish (.stakeLimitUpdated user newLimit) else pure ()

/-!
## What the stake limit comes to

The limit is computed exactly when its products fit an `i128`, and then it is the base limit,
raised by the accuracy, and scaled by the user's share of the average volume. It grows with the
correct calls and with the volume. It is no lower than the limit of a new account exactly when the
user's share of the average makes up for what the truncation and the volume factor take.
-/

/-- The mean volume of the platform's stakers. -/
def GlobalStats.average (g : GlobalStats) : Int := g.totalStakeVolume / g.totalUniqueStakers

/-- The user's volume in basis points of the mean. -/
def GlobalStats.rawShare (g : GlobalStats) (userVolume : Int) : Int :=
  max userVolume 0 * bpsScale / g.average

/-- The user's share of the mean volume that counts. -/
def GlobalStats.volumeShare (g : GlobalStats) (userVolume : Int) : Int :=
  if 0 < g.average then min (g.rawShare userVolume) maxVolumeFactorBps else bpsScale

/-- The share of the resolved calls that were correct, in basis points. -/
def CreatorStats.accuracy (stats : CreatorStats) : Int :=
  stats.totalCorrect * bpsScale / max (stats.totalResolved : Int) 1

/-- What the accuracy multiplies the base limit by, in basis points. -/
def ContractConfig.accuracyFactor (config : ContractConfig) (stats : CreatorStats) : Int :=
  bpsScale + stats.accuracy * config.reputationMultiplier / bpsScale

/-- The base limit raised by the accuracy. -/
def ContractConfig.raisedBase (config : ContractConfig) (stats : CreatorStats) : Int :=
  config.baseStakeLimit * config.accuracyFactor stats / bpsScale

/-- The limit before the ceiling. -/
def ContractConfig.personalLimit (config : ContractConfig) (g : GlobalStats)
    (stats : CreatorStats) (userVolume : Int) : Int :=
  if config.baseStakeLimit ≤ 0 then i128Max
  else if stats.totalResolved < newUserResolvedThreshold then config.baseStakeLimit
  else config.raisedBase stats * g.volumeShare userVolume / bpsScale

/-- The ceiling, when one is configured. -/
def ContractConfig.capped (config : ContractConfig) (limit : Int) : Int :=
  if 0 < config.maxStakePerUser then min limit config.maxStakePerUser else limit

/-- The platform's mean and the user's volume in basis points are `i128` values. -/
def GlobalStats.VolumeFits (g : GlobalStats) (userVolume : Int) : Prop :=
  0 < g.average → g.average ≤ i128Max ∧ max userVolume 0 * bpsScale ≤ i128Max

/-- The products of the formula are `i128` values. -/
structure ContractConfig.ProductsFit (config : ContractConfig) (g : GlobalStats)
    (stats : CreatorStats) (userVolume : Int) : Prop where
  correct : stats.totalCorrect * bpsScale ≤ i128Max
  weighted : stats.accuracy * config.reputationMultiplier ≤ i128Max
  volume : g.VolumeFits userVolume
  raised : config.baseStakeLimit * config.accuracyFactor stats ≤ i128Max
  scaled : config.raisedBase stats * g.volumeShare userVolume ≤ i128Max

/-- Nothing in the computation of the limit overflows: there is no base limit, the account is new,
or the products fit. -/
def ContractConfig.LimitFits (config : ContractConfig) (g : GlobalStats) (stats : CreatorStats)
    (userVolume : Int) : Prop :=
  config.baseStakeLimit ≤ 0 ∨ stats.totalResolved < newUserResolvedThreshold ∨
    config.ProductsFit g stats userVolume

section Closed

variable {config : ContractConfig} {g : GlobalStats} {stats : CreatorStats} {userVolume : Int}

theorem in_i128_iff_of_nonneg {x : Int} (h : 0 ≤ x) : InI128 x ↔ x ≤ i128Max :=
  ⟨And.right, fun hle => ⟨(show i128Min ≤ 0 by decide).trans h, hle⟩⟩

/-- A checked product that is divided by a positive number: only the product can overflow. -/
theorem checkedMul_div_bind {α : Type} {a b d : Int} {y : α} {k : Int → Option α} (hab : 0 ≤ a * b)
    (hd : 0 < d) :
    ((checkedMul a b).bind fun p => (checkedDiv p d).bind k) = some y ↔
      a * b ≤ i128Max ∧ k (a * b / d) = some y := by
  rw [← in_i128_iff_of_nonneg hab, checkedMul, Option.bind_eq_some_iff]
  constructor
  · rintro ⟨p, hp, hk⟩
    obtain ⟨hfits, rfl⟩ := checked_eq_some.mp hp
    rw [checkedDiv_of_nonneg hab hd hfits] at hk
    exact ⟨hfits, hk⟩
  · rintro ⟨hfits, hk⟩
    refine ⟨_, checked_of_in_range hfits, ?_⟩
    rw [checkedDiv_of_nonneg hab hd hfits]
    exact hk

theorem checkedMul_div {a b d y : Int} (hab : 0 ≤ a * b) (hd : 0 < d) :
    ((checkedMul a b).bind fun p => checkedDiv p d) = some y ↔
      a * b ≤ i128Max ∧ y = a * b / d := by
  have h := checkedMul_div_bind (k := some) (y := y) hab hd
  simp only [Option.bind_fun_some, Option.some.injEq] at h
  rw [h]
  exact and_congr_right fun _ => eq_comm

theorem CreatorStats.accuracy_nonneg (stats : CreatorStats) : 0 ≤ stats.accuracy :=
  Int.ediv_nonneg (by unfold bpsScale; omega) (by omega)

theorem GlobalStats.rawShare_nonneg (g : GlobalStats) (h : 0 < g.average) (v : Int) :
    0 ≤ g.rawShare v :=
  Int.ediv_nonneg (by unfold bpsScale; omega) h.le

theorem GlobalStats.volumeShare_nonneg (g : GlobalStats) (v : Int) : 0 ≤ g.volumeShare v := by
  unfold GlobalStats.volumeShare
  split
  · next h => exact le_min (g.rawShare_nonneg h v) (by decide)
  · decide

theorem ContractConfig.accuracyFactor_ge (config : ContractConfig) (stats : CreatorStats) :
    bpsScale ≤ config.accuracyFactor stats := by
  have hterm : 0 ≤ stats.accuracy * config.reputationMultiplier :=
    mul_nonneg stats.accuracy_nonneg (Int.natCast_nonneg _)
  unfold ContractConfig.accuracyFactor bpsScale
  omega

theorem ContractConfig.base_le_raisedBase (h : 0 ≤ config.baseStakeLimit) (stats : CreatorStats) :
    config.baseStakeLimit ≤ config.raisedBase stats := by
  have hmul := mul_le_mul_of_nonneg_left (config.accuracyFactor_ge stats) h
  unfold ContractConfig.raisedBase
  exact (Int.le_ediv_iff_mul_le (by decide)).mpr hmul

theorem accuracy_bps_eq_some {x : Int} :
    accuracyBps stats = some x ↔ stats.totalCorrect * bpsScale ≤ i128Max ∧ x = stats.accuracy :=
  checkedMul_div (by unfold bpsScale; omega) (by omega)

theorem GlobalStats.average_nonpos (h : g.totalUniqueStakers = 0 ∨ g.totalStakeVolume ≤ 0) :
    g.average ≤ 0 := by
  unfold GlobalStats.average
  obtain hzero | hle := h
  · simp [hzero]
  · obtain hzero | hpos := Nat.eq_zero_or_pos g.totalUniqueStakers
    · simp [hzero]
    · simpa using Int.ediv_le_ediv (by omega : (0 : Int) < g.totalUniqueStakers) hle

theorem volume_factor_bps_eq_some {x : Int} : volumeFactorBps g userVolume = some x ↔
      g.VolumeFits userVolume ∧ x = g.volumeShare userVolume := by
  unfold volumeFactorBps GlobalStats.VolumeFits GlobalStats.volumeShare
  by_cases hhistory : g.totalUniqueStakers = 0 ∨ g.totalStakeVolume ≤ 0
  · simp [hhistory, not_lt.mpr (GlobalStats.average_nonpos hhistory), eq_comm]
  · obtain ⟨hstakers, htotal⟩ := not_or.mp hhistory
    have htotal : 0 < g.totalStakeVolume := not_le.mp htotal
    have hnonneg : 0 ≤ g.average := Int.ediv_nonneg htotal.le (Int.natCast_nonneg _)
    have hdiv : checkedDiv g.totalStakeVolume g.totalUniqueStakers = checked g.average := by
      rw [checkedDiv, if_neg (by exact_mod_cast hstakers), tdiv_eq_div htotal.le]
      rfl
    rw [if_neg hhistory, hdiv]
    by_cases haverage : 0 < g.average
    · have hshare : 0 ≤ max userVolume 0 * bpsScale := by unfold bpsScale; omega
      have hscaled := checkedMul_div_bind (k := fun raw => some (min raw maxVolumeFactorBps))
        (y := x) hshare haverage
      rw [if_pos haverage, Option.bind_eq_bind, Option.bind_eq_some_iff]
      constructor
      · rintro ⟨average, hchecked, h⟩
        obtain ⟨hfits, rfl⟩ := checked_eq_some.mp hchecked
        rw [if_neg (not_le.mpr haverage)] at h
        obtain ⟨hvolume, hx⟩ := hscaled.mp h
        exact ⟨fun _ => ⟨hfits.2, hvolume⟩, (Option.some.inj hx).symm⟩
      · rintro ⟨hfits, rfl⟩
        obtain ⟨hfits, hvolume⟩ := hfits haverage
        refine ⟨_, checked_of_in_range ((in_i128_iff_of_nonneg hnonneg).mpr hfits), ?_⟩
        rw [if_neg (not_le.mpr haverage)]
        exact hscaled.mpr ⟨hvolume, rfl⟩
    · obtain hzero : g.average = 0 := by omega
      simp [hzero, checked, InI128, i128Max, i128Min, eq_comm]

theorem reputation_limit_of_proven {x : Option Int} (hbase : 0 < config.baseStakeLimit)
    (hproven : newUserResolvedThreshold ≤ stats.totalResolved) :
    reputationLimit g config.baseStakeLimit config.reputationMultiplier stats userVolume = some x ↔
      config.ProductsFit g stats userVolume ∧
        x = some (config.raisedBase stats * g.volumeShare userVolume / bpsScale) := by
  have hbps : (0 : Int) < bpsScale := by decide
  have hfactor : 0 ≤ config.accuracyFactor stats := hbps.le.trans (config.accuracyFactor_ge stats)
  have hweighted : 0 ≤ stats.accuracy * config.reputationMultiplier :=
    mul_nonneg stats.accuracy_nonneg (Int.natCast_nonneg _)
  have hraised : 0 ≤ config.baseStakeLimit * config.accuracyFactor stats :=
    mul_nonneg hbase.le hfactor
  have hscaled : 0 ≤ config.raisedBase stats * g.volumeShare userVolume :=
    mul_nonneg (Int.ediv_nonneg hraised hbps.le) (g.volumeShare_nonneg userVolume)
  rw [reputationLimit, if_neg (not_le.mpr hbase), if_neg (not_lt.mpr hproven)]
  constructor
  · intro h
    obtain ⟨_, haccuracy, h⟩ := Option.bind_eq_some_iff.mp h
    obtain ⟨hcorrect, rfl⟩ := accuracy_bps_eq_some.mp haccuracy
    obtain ⟨hweightedFits, h⟩ := (checkedMul_div_bind hweighted hbps).mp h
    obtain ⟨_, hadd, h⟩ := Option.bind_eq_some_iff.mp h
    obtain ⟨-, rfl⟩ := checked_eq_some.mp hadd
    obtain ⟨_, hvolume, h⟩ := Option.bind_eq_some_iff.mp h
    obtain ⟨hvolumeFits, rfl⟩ := volume_factor_bps_eq_some.mp hvolume
    obtain ⟨hraisedFits, h⟩ := (checkedMul_div_bind hraised hbps).mp h
    obtain ⟨hscaledFits, h⟩ := (checkedMul_div_bind hscaled hbps).mp h
    exact ⟨⟨hcorrect, hweightedFits, hvolumeFits, hraisedFits, hscaledFits⟩,
      (Option.some.inj h).symm⟩
  · rintro ⟨hfits, rfl⟩
    have hterm : stats.accuracy * config.reputationMultiplier / bpsScale ≤ i128Max / bpsScale :=
      Int.ediv_le_ediv hbps hfits.weighted
    have hadd : config.accuracyFactor stats ≤ i128Max := by
      unfold ContractConfig.accuracyFactor bpsScale i128Max at *
      omega
    refine Option.bind_eq_some_iff.mpr
      ⟨_, accuracy_bps_eq_some.mpr ⟨hfits.correct, rfl⟩, ?_⟩
    refine (checkedMul_div_bind hweighted hbps).mpr ⟨hfits.weighted, ?_⟩
    refine Option.bind_eq_some_iff.mpr
      ⟨_, checked_of_in_range ((in_i128_iff_of_nonneg hfactor).mpr hadd), ?_⟩
    refine Option.bind_eq_some_iff.mpr
      ⟨_, volume_factor_bps_eq_some.mpr ⟨hfits.volume, rfl⟩, ?_⟩
    refine (checkedMul_div_bind hraised hbps).mpr ⟨hfits.raised, ?_⟩
    exact (checkedMul_div_bind hscaled hbps).mpr ⟨hfits.scaled, rfl⟩

/-- The limit that staking enforces, and when it can be computed. -/
theorem effective_stake_limit_eq_some {limit : Int} :
    effectiveStakeLimit g config stats userVolume = some limit ↔
      config.LimitFits g stats userVolume ∧
        limit = config.capped (config.personalLimit g stats userVolume) := by
  have hcapped : effectiveStakeLimit g config stats userVolume = some limit ↔
      ∃ x, reputationLimit g config.baseStakeLimit config.reputationMultiplier stats userVolume =
        some x ∧ limit = config.capped (x.getD i128Max) := by
    rw [effectiveStakeLimit, Option.bind_eq_bind, Option.bind_eq_some_iff]
    simp only [Option.some.injEq, ContractConfig.capped, eq_comm]
  rw [hcapped, ContractConfig.LimitFits, ContractConfig.personalLimit]
  by_cases hbase : config.baseStakeLimit ≤ 0
  · simp [reputationLimit, hbase]
  · by_cases hnew : stats.totalResolved < newUserResolvedThreshold
    · simp [reputationLimit, hbase, hnew]
    · simp only [reputation_limit_of_proven (not_le.mp hbase) (not_lt.mp hnew), hbase, hnew,
        if_false, false_or, and_assoc, exists_and_left, exists_eq_left, Option.getD_some]

end Closed

section Monotone

variable {config : ContractConfig} {g : GlobalStats} {stats fewer : CreatorStats}
  {userVolume less : Int}

theorem ContractConfig.capped_mono (config : ContractConfig) {a b : Int} (h : a ≤ b) :
    config.capped a ≤ config.capped b := by
  unfold ContractConfig.capped
  split <;> omega

theorem GlobalStats.volumeShare_mono (g : GlobalStats) (h : less ≤ userVolume) :
    g.volumeShare less ≤ g.volumeShare userVolume := by
  unfold GlobalStats.volumeShare
  split
  · next haverage =>
    have hraw : g.rawShare less ≤ g.rawShare userVolume :=
      Int.ediv_le_ediv haverage (by unfold bpsScale; omega)
    exact min_le_min_right _ hraw
  · exact le_rfl

/-- Fewer correct calls among as many resolved ones. -/
structure CreatorStats.Fewer (fewer stats : CreatorStats) : Prop where
  resolved : fewer.totalResolved = stats.totalResolved
  correct : fewer.totalCorrect ≤ stats.totalCorrect

theorem CreatorStats.Fewer.accuracy_le (h : fewer.Fewer stats) :
    fewer.accuracy ≤ stats.accuracy := by
  have hcorrect := h.correct
  unfold CreatorStats.accuracy
  rw [h.resolved]
  exact Int.ediv_le_ediv (by omega) (by unfold bpsScale; omega)

theorem CreatorStats.Fewer.weighted_le (h : fewer.Fewer stats) (config : ContractConfig) :
    fewer.accuracy * config.reputationMultiplier ≤ stats.accuracy * config.reputationMultiplier :=
  mul_le_mul_of_nonneg_right h.accuracy_le (Int.natCast_nonneg _)

theorem CreatorStats.Fewer.scaled_le (h : fewer.Fewer stats) (hbase : 0 ≤ config.baseStakeLimit) :
    config.baseStakeLimit * config.accuracyFactor fewer ≤
      config.baseStakeLimit * config.accuracyFactor stats := by
  have hterm := Int.ediv_le_ediv (show (0 : Int) < bpsScale by decide) (h.weighted_le config)
  exact mul_le_mul_of_nonneg_left (Int.add_le_add_left hterm _) hbase

theorem CreatorStats.Fewer.raisedBase_le (h : fewer.Fewer stats)
    (hbase : 0 ≤ config.baseStakeLimit) : config.raisedBase fewer ≤ config.raisedBase stats :=
  Int.ediv_le_ediv (by decide) (h.scaled_le hbase)

/-- The limit grows with the correct calls, and what fits for more of them fits for fewer. -/
theorem ContractConfig.LimitFits.of_fewer (hfits : config.LimitFits g stats userVolume)
    (h : fewer.Fewer stats) :
    config.LimitFits g fewer userVolume ∧
      config.personalLimit g fewer userVolume ≤ config.personalLimit g stats userVolume := by
  unfold ContractConfig.LimitFits ContractConfig.personalLimit at *
  rw [h.resolved]
  by_cases hbase : config.baseStakeLimit ≤ 0
  · simp [hbase]
  · by_cases hnew : stats.totalResolved < newUserResolvedThreshold
    · simp [hbase, hnew]
    · have hbase' : 0 ≤ config.baseStakeLimit := (not_le.mp hbase).le
      have hscaled : config.raisedBase fewer * g.volumeShare userVolume ≤
          config.raisedBase stats * g.volumeShare userVolume :=
        mul_le_mul_of_nonneg_right (h.raisedBase_le hbase') (g.volumeShare_nonneg userVolume)
      have hcorrect := h.correct
      obtain hle | hlt | hfits := hfits
      · exact absurd hle hbase
      · exact absurd hlt hnew
      · simp only [hbase, hnew, if_false, false_or]
        refine ⟨⟨?_, (h.weighted_le config).trans hfits.weighted, hfits.volume,
          (h.scaled_le hbase').trans hfits.raised, hscaled.trans hfits.scaled⟩,
          Int.ediv_le_ediv (by decide) hscaled⟩
        refine le_trans ?_ hfits.correct
        unfold bpsScale
        omega

/-- The limit grows with the volume, and what fits for more volume fits for less. -/
theorem ContractConfig.LimitFits.of_less (hfits : config.LimitFits g stats userVolume)
    (h : less ≤ userVolume) :
    config.LimitFits g stats less ∧
      config.personalLimit g stats less ≤ config.personalLimit g stats userVolume := by
  unfold ContractConfig.LimitFits ContractConfig.personalLimit at *
  by_cases hbase : config.baseStakeLimit ≤ 0
  · simp [hbase]
  · by_cases hnew : stats.totalResolved < newUserResolvedThreshold
    · simp [hbase, hnew]
    · have hbase' : 0 ≤ config.baseStakeLimit := (not_le.mp hbase).le
      have hraised : 0 ≤ config.raisedBase stats :=
        hbase'.trans (config.base_le_raisedBase hbase' stats)
      have hscaled : config.raisedBase stats * g.volumeShare less ≤
          config.raisedBase stats * g.volumeShare userVolume :=
        mul_le_mul_of_nonneg_left (g.volumeShare_mono h) hraised
      obtain hle | hlt | hfits := hfits
      · exact absurd hle hbase
      · exact absurd hlt hnew
      · simp only [hbase, hnew, if_false, false_or]
        refine ⟨⟨hfits.correct, hfits.weighted, fun haverage => ?_, hfits.raised,
          hscaled.trans hfits.scaled⟩, Int.ediv_le_ediv (by decide) hscaled⟩
        obtain ⟨hmean, hvolume⟩ := hfits.volume haverage
        refine ⟨hmean, le_trans ?_ hvolume⟩
        unfold bpsScale
        omega

end Monotone

end Backit.CallRegistry
