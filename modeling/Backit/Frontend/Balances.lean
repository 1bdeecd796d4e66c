import Backit.Frontend.Portfolio
import Backit.Frontend.StakeLimits
import Mathlib.Data.Rat.Floor

/-!
# What an account can stake

An account's reserve and its selling liabilities cannot be moved, and a native stake also leaves the
fee. From what remains the presets offer an amount: the whole of it up to the registry's maximum, or
a share.
-/

namespace Backit.Frontend

open Lib

/-- The limits as the deployment sets them. -/
structure StakeLimitsEnv where
  minStake : Option String
  maxStakePerUser : Option String

def defaultMinStakeStroops : Int := 1000000

/-- A missing text, a malformed and a negative amount are all nothing. -/
def parseDecimalEnv (value : Option String) : Option Int := do
  let trimmed := trimText (← value).toList
  if trimmed = [] then none
  else
    let stroops ← toStroops (.ofList trimmed)
    if 0 ≤ stroops then some stroops else none

def parseStakeLimits (env : StakeLimitsEnv) : StakeLimits where
  minStroops := (parseDecimalEnv env.minStake).getD defaultMinStakeStroops
  maxStroops := (parseDecimalEnv env.maxStakePerUser).filter (0 < ·)

structure HorizonBalanceLine where
  balance : String
  assetType : String
  assetCode : Option String
  assetIssuer : Option String
  sellingLiabilities : Option String
  isAuthorized : Option Bool

structure HorizonAccount where
  subentryCount : Option Int
  numSponsoring : Option Int
  numSponsored : Option Int
  balances : List HorizonBalanceLine

/-- The asset of a market, with its issuer if it is not the native one. -/
structure StakeAsset where
  isNative : Bool
  code : String
  issuer : Option String
  id : String

structure BalanceSnapshot where
  address : String
  assetId : String
  nativeStroops : Int
  reservedNativeStroops : Int
  spendableNativeStroops : Int
  stakeAssetStroops : Option Int
  spendableStakeStroops : Int
  hasTrustline : Bool
  trustlineUnauthorized : Bool
  feeBufferStroops : Int
  hasFeeBuffer : Bool
  fetchedAt : Int

def baseReserveStroops : Int := 5000000

def baseReserveEntries : Int := 2

def clampToZero (value : Int) : Int := if 0 < value then value else 0

/-- What is malformed is zero. -/
def parseStroops (value : Option String) : Int :=
  match value with
  | none => 0
  | some text => if text = "" then 0 else (toStroops text).getD 0

def balanceLineMatchesAsset (line : HorizonBalanceLine) (asset : StakeAsset) : Bool :=
  if asset.isNative then line.assetType = "native"
  else if line.assetType = "native" then false
  else line.assetCode = some asset.code && line.assetIssuer = asset.issuer

def findNativeLine (account : HorizonAccount) : Option HorizonBalanceLine :=
  account.balances.find? (·.assetType = "native")

def findStakeAssetLine (account : HorizonAccount) (asset : StakeAsset) :
    Option HorizonBalanceLine :=
  account.balances.find? (balanceLineMatchesAsset · asset)

def computeReservedNativeStroops (account : HorizonAccount) : Int :=
  let entries := baseReserveEntries + account.subentryCount.getD 0 + account.numSponsoring.getD 0 -
    account.numSponsored.getD 0
  clampToZero entries * baseReserveStroops

/-- The native selling liabilities. -/
def nativeLiabilities (account : HorizonAccount) : Int :=
  parseStroops ((findNativeLine account).bind (·.sellingLiabilities))

def deriveBalanceSnapshot (account : HorizonAccount) (asset : StakeAsset) (address : String)
    (fetchedAt feeBufferStroops : Int) : BalanceSnapshot :=
  let nativeStroops := parseStroops ((findNativeLine account).map (·.balance))
  let reservedNativeStroops := computeReservedNativeStroops account
  let spendableNativeStroops :=
    clampToZero (nativeStroops - reservedNativeStroops - nativeLiabilities account)
  let stakeLine := findStakeAssetLine account asset
  let authorized := stakeLine.any (·.isAuthorized ≠ some false)
  let stakeAssetStroops :=
    if asset.isNative then some nativeStroops
    else stakeLine.map fun line => parseStroops (some line.balance)
  let stakeLiabilities := parseStroops (stakeLine.bind (·.sellingLiabilities))
  { address
    assetId := asset.id
    nativeStroops
    reservedNativeStroops
    spendableNativeStroops
    stakeAssetStroops
    spendableStakeStroops :=
      if asset.isNative then clampToZero (spendableNativeStroops - feeBufferStroops)
      else if authorized then clampToZero (stakeAssetStroops.getD 0 - stakeLiabilities)
      else 0
    hasTrustline := asset.isNative || authorized
    trustlineUnauthorized := !asset.isNative && stakeLine.isSome && !authorized
    feeBufferStroops
    hasFeeBuffer := feeBufferStroops ≤ spendableNativeStroops
    fetchedAt }

/-- A share of the balance in percent, up to the maximum; the whole of it from 100 on. -/
def computePercentStakeStroops (spendableStroops : Int) (percent : ℚ) (limits : StakeLimits) : Int :=
  if spendableStroops ≤ 0 ∨ percent ≤ 0 then 0
  else if 100 ≤ percent then computeMaxStakeStroops spendableStroops limits
  else
    let raw := (spendableStroops * ⌊percent⌋).tdiv 100
    match limits.maxStroops with
    | some maximum => if maximum < raw then maximum else raw
    | none => raw

variable {limits : StakeLimits} {spendable : Int}

/-- The limits that a deployment can have. -/
structure StakeLimits.Valid (limits : StakeLimits) : Prop where
  min_nonneg : 0 ≤ limits.minStroops
  max_pos : ∀ maximum ∈ limits.maxStroops, 0 < maximum

theorem parseDecimalEnv_nonneg {value : Option String} {stroops : Int}
    (h : parseDecimalEnv value = some stroops) : 0 ≤ stroops := by
  unfold parseDecimalEnv at h
  simp only [Option.bind_eq_bind, Option.bind_eq_some_iff] at h
  obtain ⟨text, -, h⟩ := h
  split at h
  · cases h
  · obtain ⟨parsed, -, h⟩ := Option.bind_eq_some_iff.mp h
    split at h
    · next hle => exact Option.some.inj h ▸ hle
    · cases h

theorem parseStakeLimits_valid (env : StakeLimitsEnv) : (parseStakeLimits env).Valid where
  min_nonneg := by
    unfold parseStakeLimits
    cases h : parseDecimalEnv env.minStake with
    | none => exact (by decide : 0 ≤ defaultMinStakeStroops)
    | some stroops => exact parseDecimalEnv_nonneg h
  max_pos := by
    intro maximum hmax
    simpa using (Option.mem_filter_iff.mp hmax).2

/-- An amount that may be staked on an open market from this balance, when the fee is there. -/
def Accepted (limits : StakeLimits) (spendable amount : Int) : Prop :=
  validateStakeAmount ⟨some amount, some spendable, limits, true, true⟩ = .ok

theorem accepted_iff {amount : Int} : Accepted limits spendable amount ↔
    0 < amount ∧ limits.minStroops ≤ amount ∧ (∀ maximum ∈ limits.maxStroops, amount ≤ maximum) ∧
      amount ≤ spendable := by
  simp [Accepted, validate_amount_ok]

/-- The largest amount that is accepted, or zero when none is. -/
def IsLargestAccepted (limits : StakeLimits) (spendable largest : Int) : Prop :=
  (Accepted limits spendable largest ∧
      ∀ amount, Accepted limits spendable amount → amount ≤ largest) ∨
    largest = 0 ∧ ∀ amount, ¬ Accepted limits spendable amount

theorem max_is_largest (hvalid : limits.Valid) (spendable : Int) :
    IsLargestAccepted limits spendable (computeMaxStakeStroops spendable limits) := by
  by_cases hnone : spendable ≤ 0
  · refine .inr ⟨if_pos hnone, fun amount h => ?_⟩
    obtain ⟨hpos, -, -, hle⟩ := accepted_iff.mp h
    omega
  · obtain ⟨capped, hcapped, hpos, hbounds⟩ : ∃ capped : Int,
        computeMaxStakeStroops spendable limits = (if limits.minStroops ≤ capped then capped else 0) ∧
          0 < capped ∧ ∀ amount, amount ≤ capped ↔
            (∀ maximum ∈ limits.maxStroops, amount ≤ maximum) ∧ amount ≤ spendable := by
      have hmax := hvalid.max_pos
      rw [computeMaxStakeStroops, if_neg hnone]
      cases hmaximum : limits.maxStroops with
      | none => exact ⟨spendable, rfl, by omega, by simp⟩
      | some maximum =>
        have hpositive := hmax maximum hmaximum
        refine ⟨min maximum spendable, ?_, by omega, by simp⟩
        have heq : (if maximum < spendable then maximum else spendable) = min maximum spendable := by
          split <;> omega
        simp only [heq]
    rw [hcapped]
    split
    · next hmin =>
      have hle := (hbounds capped).mp le_rfl
      refine .inl ⟨accepted_iff.mpr ⟨hpos, hmin, hle⟩, fun amount h => ?_⟩
      exact (hbounds amount).mpr (accepted_iff.mp h).2.2
    · next hmin =>
      refine .inr ⟨rfl, fun amount h => hmin ?_⟩
      obtain ⟨-, hamount, hle⟩ := accepted_iff.mp h
      exact hamount.trans ((hbounds amount).mpr hle)

/-- What is accepted or zero stays below every bound. -/
theorem largest_le (hvalid : limits.Valid) {largest : Int} (hspendable : 0 ≤ spendable)
    (h : IsLargestAccepted limits spendable largest) :
    largest ≤ spendable ∧ ∀ maximum ∈ limits.maxStroops, largest ≤ maximum := by
  rcases h with ⟨h, -⟩ | ⟨rfl, -⟩
  · obtain ⟨-, -, hmax, hle⟩ := accepted_iff.mp h
    exact ⟨hle, hmax⟩
  · exact ⟨hspendable, fun maximum hmax => (hvalid.max_pos maximum hmax).le⟩

/-- A share below the whole, cut at the maximum. -/
theorem percent_of_share {percent : ℚ} (hspendable : 0 < spendable) (hpos : 0 < percent)
    (hlt : percent < 100) : computePercentStakeStroops spendable percent limits =
      (limits.maxStroops.elim id min) (spendable * ⌊percent⌋ / 100) := by
  have hfloor : 0 ≤ ⌊percent⌋ := Int.floor_nonneg.mpr hpos.le
  rw [computePercentStakeStroops, if_neg (by push Not; exact ⟨hspendable, hpos⟩),
    if_neg (not_le.mpr hlt), Int.tdiv_eq_ediv_of_nonneg (Int.mul_nonneg hspendable.le hfloor)]
  cases limits.maxStroops with
  | none => rfl
  | some maximum =>
    simp only [Option.elim_some]
    split <;> omega

theorem percent_of_none {percent : ℚ} (h : spendable ≤ 0 ∨ percent ≤ 0) :
    computePercentStakeStroops spendable percent limits = 0 := if_pos h

/-- A preset is nothing, the whole, or a share of the balance cut at the maximum. -/
theorem percent_bounds (hvalid : limits.Valid) (hspendable : 0 ≤ spendable) (percent : ℚ) :
    0 ≤ computePercentStakeStroops spendable percent limits ∧
      computePercentStakeStroops spendable percent limits ≤ spendable ∧
      ∀ maximum ∈ limits.maxStroops,
        computePercentStakeStroops spendable percent limits ≤ maximum := by
  by_cases hnone : spendable ≤ 0 ∨ percent ≤ 0
  · rw [percent_of_none hnone]
    exact ⟨le_rfl, hspendable, fun maximum hmax => (hvalid.max_pos maximum hmax).le⟩
  obtain ⟨hbalance, hpos⟩ := not_or.mp hnone
  rcases le_or_gt 100 percent with hwhole | hshare
  · have hlargest := max_is_largest hvalid spendable
    have hpercent : computePercentStakeStroops spendable percent limits =
        computeMaxStakeStroops spendable limits := by
      rw [computePercentStakeStroops, if_neg hnone, if_pos hwhole]
    rw [hpercent]
    refine ⟨?_, largest_le hvalid hspendable hlargest⟩
    rcases hlargest with ⟨h, -⟩ | ⟨hzero, -⟩
    · exact (accepted_iff.mp h).1.le
    · exact hzero.ge
  · have hfloor : 0 ≤ ⌊percent⌋ := Int.floor_nonneg.mpr (not_le.mp hpos).le
    have hbelow : ⌊percent⌋ ≤ 100 := by exact_mod_cast (Int.floor_le percent).trans hshare.le
    have hnonneg : 0 ≤ spendable * ⌊percent⌋ / 100 :=
      Int.ediv_nonneg (Int.mul_nonneg hspendable hfloor) (by decide)
    have hle : spendable * ⌊percent⌋ / 100 ≤ spendable := by
      have hmul := Int.mul_le_mul_of_nonneg_left hbelow hspendable
      omega
    rw [percent_of_share (not_le.mp hbalance) (not_le.mp hpos) hshare]
    cases hmaximum : limits.maxStroops with
    | none => exact ⟨hnonneg, hle, by simp⟩
    | some maximum =>
      have hmax := hvalid.max_pos maximum hmaximum
      simp only [Option.elim_some, Option.mem_some_iff, forall_eq']
      omega

theorem percent_mono (hvalid : limits.Valid) (hspendable : 0 ≤ spendable) {percent larger : ℚ}
    (hle : percent ≤ larger) (hlt : larger < 100) :
    computePercentStakeStroops spendable percent limits ≤
      computePercentStakeStroops spendable larger limits := by
  by_cases hnone : spendable ≤ 0 ∨ percent ≤ 0
  · rw [percent_of_none hnone]
    exact (percent_bounds hvalid hspendable larger).1
  obtain ⟨hbalance, hpos⟩ := not_or.mp hnone
  rw [percent_of_share (not_le.mp hbalance) (not_le.mp hpos) (hle.trans_lt hlt),
    percent_of_share (not_le.mp hbalance) ((not_le.mp hpos).trans_le hle) hlt]
  have hshare : spendable * ⌊percent⌋ / 100 ≤ spendable * ⌊larger⌋ / 100 :=
    Int.ediv_le_ediv (by decide) (Int.mul_le_mul_of_nonneg_left (Int.floor_mono hle) hspendable)
  cases limits.maxStroops with
  | none => exact hshare
  | some maximum => exact min_le_min le_rfl hshare

theorem clampToZero_nonneg (value : Int) : 0 ≤ clampToZero value := by
  unfold clampToZero
  split <;> omega

theorem spendable_nonneg (account : HorizonAccount) (asset : StakeAsset) (address : String)
    (fetchedAt fee : Int) :
    0 ≤ (deriveBalanceSnapshot account asset address fetchedAt fee).spendableStakeStroops := by
  simp only [deriveBalanceSnapshot]
  split
  · exact clampToZero_nonneg _
  · split
    · exact clampToZero_nonneg _
    · exact le_rfl

/-- The maximum is the largest amount that is accepted, no share exceeds the balance or the maximum,
a larger share is no smaller, and a native stake leaves the reserve, the selling liabilities and the
fee. -/
theorem presets_affordable (env : StakeLimitsEnv) (account : HorizonAccount) (asset : StakeAsset)
    (address : String) (fetchedAt : Int) {fee : Int} (hfee : 0 ≤ fee)
    (hbuffer : (deriveBalanceSnapshot account asset address fetchedAt fee).hasFeeBuffer = true) :
    let limits := parseStakeLimits env
    let snapshot := deriveBalanceSnapshot account asset address fetchedAt fee
    let accepted := fun amount => validateStakeAmount
      ⟨some amount, some snapshot.spendableStakeStroops, limits, snapshot.hasFeeBuffer, true⟩ = .ok
    let largest := computeMaxStakeStroops snapshot.spendableStakeStroops limits
    let preset := fun percent =>
      computePercentStakeStroops snapshot.spendableStakeStroops percent limits
    ((accepted largest ∧ ∀ amount, accepted amount → amount ≤ largest) ∨
        largest = 0 ∧ ∀ amount, ¬ accepted amount) ∧
      (∀ percent, preset percent ≤ snapshot.spendableStakeStroops ∧
        ∀ maximum ∈ limits.maxStroops, preset percent ≤ maximum) ∧
      (∀ percent larger, percent ≤ larger → larger < 100 → preset percent ≤ preset larger) ∧
      (asset.isNative = true → ∀ amount, accepted amount →
        snapshot.reservedNativeStroops + nativeLiabilities account + fee ≤
          snapshot.nativeStroops - amount) := by
  have hvalid := parseStakeLimits_valid env
  have hspendable := spendable_nonneg account asset address fetchedAt fee
  simp only [hbuffer]
  refine ⟨max_is_largest hvalid _, fun percent => (percent_bounds hvalid hspendable percent).2,
    fun percent larger => percent_mono hvalid hspendable, fun hnative amount haccepted => ?_⟩
  obtain ⟨hpos, -, -, hle⟩ := accepted_iff.mp haccepted
  simp only [deriveBalanceSnapshot, hnative, if_true, clampToZero] at hle ⊢
  split at hle <;> split at hle <;> omega

/-- An account with 10 XLM, of which one is the reserve and a tenth the fee. -/
def plainAccount : HorizonAccount :=
  ⟨some 0, none, none, [⟨"10.0000000", "native", none, none, none, none⟩]⟩

def nativeAsset : StakeAsset := ⟨true, "XLM", none, "native"⟩

theorem presets_affordable_of_plain :
    (deriveBalanceSnapshot plainAccount nativeAsset "G" 0 1000000).spendableStakeStroops = 89000000 ∧
      computePercentStakeStroops 89000000 50 (parseStakeLimits ⟨none, some "5"⟩) ≤ 89000000 := by
  have hbuffer : (deriveBalanceSnapshot plainAccount nativeAsset "G" 0 1000000).hasFeeBuffer =
      true := by decide +kernel
  have hspendable : (deriveBalanceSnapshot plainAccount nativeAsset "G" 0
      1000000).spendableStakeStroops = 89000000 := by decide +kernel
  have h := (presets_affordable ⟨none, some "5"⟩ plainAccount nativeAsset "G" 0 (by decide)
    hbuffer).2.1 50
  simp only [hspendable] at h
  exact ⟨hspendable, h.1⟩

end Backit.Frontend
