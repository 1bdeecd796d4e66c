import Backit.Soroban.Host

/-!
# The revenue-share token

A token of fixed supply whose holders claim shares of the fees that the admin deposits. A claim
covers the fees since the holder's last claim and is weighted by the holder's balance, in which a
stake counts twice its lock-period boost.
-/

namespace Backit.BackitToken

open Soroban Contract

/-- The contract's error codes that its entry points return. -/
inductive BackitError where
  | alreadyInitialized
  | notInitialized
  | zeroBalance
  | noFeesAvailable
  | alreadyStaked
  | notStaked
  | lockNotExpired
  | invalidAmount
  | insufficientBalance
  | invalidLockDuration
  deriving DecidableEq

inductive Event where
  | revenueClaimed (holder : Address) (amount : Int)
  | backitStaked (staker : Address) (amount : Int) (lockUntil : Nat)
  | backitUnstaked (staker : Address) (amount : Int)
  | feeDeposited (depositor : Address) (amount : Int)
  | initialized (admin : Address) (totalSupply : Int)
  deriving DecidableEq

structure TokenConfig where
  admin : Address
  usdcSac : Address
  initialized : Bool
  deriving DecidableEq

/-- Where the initial supply went. -/
structure InitialDistribution where
  communityRewards : Address
  communityRewardsAmount : Int
  team : Address
  teamAmount : Int
  treasury : Address
  treasuryAmount : Int
  liquidity : Address
  liquidityAmount : Int
  airdrop : Address
  airdropAmount : Int
  deriving DecidableEq

structure StakeRecord where
  amount : Int
  lockUntil : Nat
  boost : Nat
  feesAtStake : Int
  deriving DecidableEq

def totalSupply : Int := 1000000000000000

def allocCommunityRewardsBps : Nat := 4000

def allocTeamBps : Nat := 2000

def allocTreasuryBps : Nat := 1500

def allocLiquidityBps : Nat := 1500

def allocAirdropBps : Nat := 1000

def secs30Days : Nat := 30 * 24 * 3600

def secs90Days : Nat := 90 * 24 * 3600

def secs180Days : Nat := 180 * 24 * 3600

/-- The boost multiplier of a lock duration. -/
def boostMultiplier (lockDurationSecs : Nat) : Nat :=
  if lockDurationSecs < secs30Days then 1
  else if lockDurationSecs < secs90Days then 2
  else if lockDurationSecs < secs180Days then 3
  else 4

structure Storage where
  config : Option TokenConfig
  totalFeesCollected : Int
  totalRevenueDistributed : Int
  totalSupply : Int
  initialDistribution : Option InitialDistribution
  balance : Address → Int
  stake : Address → Option StakeRecord
  lastClaimFees : Address → Int

namespace Storage

/-- The storage of a freshly deployed contract. -/
def empty : Storage := ⟨none, 0, 0, 0, none, fun _ => 0, fun _ => none, fun _ => 0⟩

variable (s : Storage)

def setConfig (config : TokenConfig) : Storage := { s with config := some config }

def setTotalFeesCollected (amount : Int) : Storage := { s with totalFeesCollected := amount }

def setTotalRevenueDistributed (amount : Int) : Storage :=
  { s with totalRevenueDistributed := amount }

def setTotalSupply (supply : Int) : Storage := { s with totalSupply := supply }

def setInitialDistribution (dist : InitialDistribution) : Storage :=
  { s with initialDistribution := some dist }

def setBalance (addr : Address) (amount : Int) : Storage :=
  { s with balance := Function.update s.balance addr amount }

def setStake (addr : Address) (record : StakeRecord) : Storage :=
  { s with stake := Function.update s.stake addr (some record) }

def removeStake (addr : Address) : Storage :=
  { s with stake := Function.update s.stake addr none }

def setLastClaimFees (addr : Address) (fees : Int) : Storage :=
  { s with lastClaimFees := Function.update s.lastClaimFees addr fees }

end Storage

/-- A computation of an entry point. -/
abbrev Token (T α : Type) := Contract (Frame Storage T Event) BackitError α

variable {T : Type}

/-- `total * bps / 10_000`. -/
def bpsOf (total : Int) (bps : Nat) : Token T Int := do
  let scaled ← i128 (total * bps)
  pure (scaled.tdiv 10000)

/-- The entry point `initialize`. -/
def initializeToken (admin usdcSac communityRewards team treasury liquidity airdrop : Address) :
    Token T Unit := do
  rejectIf ((← getStore).config.isSome = true) (.error .alreadyInitialized)
  requireAuth admin
  let crAmount ← bpsOf totalSupply allocCommunityRewardsBps
  let teamAmount ← bpsOf totalSupply allocTeamBps
  let treasuryAmount ← bpsOf totalSupply allocTreasuryBps
  let liqAmount ← bpsOf totalSupply allocLiquidityBps
  let airdropAmount ← bpsOf totalSupply allocAirdropBps
  modifyStore (·.setBalance communityRewards crAmount)
  modifyStore (·.setBalance team teamAmount)
  modifyStore (·.setBalance treasury treasuryAmount)
  modifyStore (·.setBalance liquidity liqAmount)
  modifyStore (·.setBalance airdrop airdropAmount)
  modifyStore (·.setTotalSupply totalSupply)
  modifyStore (·.setInitialDistribution
    { communityRewards := communityRewards, communityRewardsAmount := crAmount
      team := team, teamAmount := teamAmount
      treasury := treasury, treasuryAmount := treasuryAmount
      liquidity := liquidity, liquidityAmount := liqAmount
      airdrop := airdrop, airdropAmount := airdropAmount })
  modifyStore (·.setConfig { admin := admin, usdcSac := usdcSac, initialized := true })
  publish (.initialized admin totalSupply)

/-- `transfer`: the token's own balances. -/
def transfer (sender recipient : Address) (amount : Int) : Token T Unit := do
  rejectIf (amount ≤ 0) (.error .invalidAmount)
  requireAuth sender
  let fromBal := (← getStore).balance sender
  rejectIf (fromBal < amount) (.error .insufficientBalance)
  let fromLeft ← i128 (fromBal - amount)
  modifyStore (·.setBalance sender fromLeft)
  let toBal := (← getStore).balance recipient
  let toHolds ← i128 (toBal + amount)
  modifyStore (·.setBalance recipient toHolds)

/-- The weight of a holder in the revenue share: stakes count twice their boost, and no holder
counts for more than the supply. -/
def computeEffectiveBalance (holder : Address) (liquidBalance : Int) : Token T Int := do
  let store ← getStore
  match store.stake holder with
  | some record =>
    let doubled ← i128 (record.amount * 2)
    let stakedWeight ← i128 (doubled * record.boost)
    let effective ← i128 (liquidBalance + stakedWeight)
    pure (if store.totalSupply < effective then store.totalSupply else effective)
  | none => pure liquidBalance

section Tokens

variable [Tokens T]

def feePoolDeposit (amount : Int) : Token T Unit := do
  rejectIf (amount ≤ 0) (.error .invalidAmount)
  let config ← unwrap (← getStore).config (.error .notInitialized)
  requireAuth config.admin
  let environment ← env
  tokenTransfer config.usdcSac config.admin environment.contract amount
  let newTotal ← i128 ((← getStore).totalFeesCollected + amount)
  modifyStore (·.setTotalFeesCollected newTotal)
  publish (.feeDeposited config.admin amount)

def claimRevenueShare (holder : Address) : Token T Int := do
  requireAuth holder
  let config ← unwrap (← getStore).config (.error .notInitialized)
  let supply := (← getStore).totalSupply
  rejectIf (supply = 0) (.error .notInitialized)
  let holderBalance := (← getStore).balance holder
  let effectiveBalance ← computeEffectiveBalance holder holderBalance
  rejectIf (effectiveBalance = 0) (.error .zeroBalance)
  let totalFees := (← getStore).totalFeesCollected
  let lastClaim := (← getStore).lastClaimFees holder
  let feesSinceLast ← i128 (totalFees - lastClaim)
  rejectIf (feesSinceLast ≤ 0) (.error .noFeesAvailable)
  let scaled ← i128 (feesSinceLast * effectiveBalance)
  let holderShare := scaled.tdiv supply
  rejectIf (holderShare ≤ 0) (.error .noFeesAvailable)
  modifyStore (·.setLastClaimFees holder totalFees)
  let newDistributed ← i128 ((← getStore).totalRevenueDistributed + holderShare)
  modifyStore (·.setTotalRevenueDistributed newDistributed)
  let environment ← env
  tokenTransfer config.usdcSac environment.contract holder holderShare
  publish (.revenueClaimed holder holderShare)
  pure holderShare

end Tokens

def stakeBackit (staker : Address) (amount : Int) (lockDurationSecs : Nat) : Token T Unit := do
  requireAuth staker
  rejectIf ((← getStore).config.isNone = true) (.error .notInitialized)
  rejectIf (amount ≤ 0) (.error .invalidAmount)
  rejectIf (lockDurationSecs = 0) (.error .invalidLockDuration)
  rejectIf (((← getStore).stake staker).isSome = true) (.error .alreadyStaked)
  let balance := (← getStore).balance staker
  rejectIf (balance < amount) (.error .insufficientBalance)
  let boost := boostMultiplier lockDurationSecs
  let environment ← env
  let lockUntil ← unsigned 64 (environment.timestamp + lockDurationSecs)
  let currentFees := (← getStore).totalFeesCollected
  let left ← i128 (balance - amount)
  modifyStore (·.setBalance staker left)
  modifyStore (·.setStake staker
    { amount := amount, lockUntil := lockUntil, boost := boost, feesAtStake := currentFees })
  modifyStore (·.setLastClaimFees staker currentFees)
  publish (.backitStaked staker amount lockUntil)

def unstakeBackit (staker : Address) : Token T Unit := do
  requireAuth staker
  rejectIf ((← getStore).config.isNone = true) (.error .notInitialized)
  let record ← unwrap ((← getStore).stake staker) (.error .notStaked)
  let environment ← env
  rejectIf (environment.timestamp < record.lockUntil) (.error .lockNotExpired)
  let returned ← i128 ((← getStore).balance staker + record.amount)
  modifyStore (·.setBalance staker returned)
  modifyStore (·.removeStake staker)
  publish (.backitUnstaked staker record.amount)

/-- The entry points that write. -/
inductive TokenOp where
  | initializeToken (admin usdcSac communityRewards team treasury liquidity airdrop : Address)
  | transfer (sender recipient : Address) (amount : Int)
  | feePoolDeposit (amount : Int)
  | claimRevenueShare (holder : Address)
  | stakeBackit (staker : Address) (amount : Int) (lockDurationSecs : Nat)
  | unstakeBackit (staker : Address)
  deriving DecidableEq

/-- Run an invocation of an entry point. -/
def TokenOp.perform [Tokens T] : TokenOp → Token T Unit
  | .initializeToken admin usdcSac communityRewards team treasury liquidity airdrop =>
    BackitToken.initializeToken admin usdcSac communityRewards team treasury liquidity airdrop
  | .transfer sender recipient amount => BackitToken.transfer sender recipient amount
  | .feePoolDeposit amount => BackitToken.feePoolDeposit amount
  | .claimRevenueShare holder => ignore (BackitToken.claimRevenueShare holder)
  | .stakeBackit staker amount lockDurationSecs =>
    BackitToken.stakeBackit staker amount lockDurationSecs
  | .unstakeBackit staker => BackitToken.unstakeBackit staker

end Backit.BackitToken

/-!
## What the entry points do

Every successful invocation makes one of the listed transitions. A transition carries the checks
that it passed, its effects, most recent first, and the storage it left.
-/

namespace Backit.BackitToken

open Soroban Contract

/-- A share of the initial supply. -/
def allocation (bps : Nat) : Int := (totalSupply * bps).tdiv 10000

namespace Storage

variable (s : Storage)

/-- The weight of a holder in the revenue share. -/
def effectiveBalance (holder : Address) : Int :=
  match s.stake holder with
  | some record => min (s.balance holder + record.amount * 2 * record.boost) s.totalSupply
  | none => s.balance holder

/-- What a holder's claim pays. -/
def shareOf (holder : Address) : Int :=
  ((s.totalFeesCollected - s.lastClaimFees holder) * s.effectiveBalance holder).tdiv s.totalSupply

/-- The balances after the initial supply is minted. -/
def minted (communityRewards team treasury liquidity airdrop : Address) : Storage :=
  ((((s.setBalance communityRewards (allocation allocCommunityRewardsBps)).setBalance team
    (allocation allocTeamBps)).setBalance treasury (allocation allocTreasuryBps)).setBalance
    liquidity (allocation allocLiquidityBps)).setBalance airdrop (allocation allocAirdropBps)

/-- The storage after the contract is initialised. -/
def founded (config : TokenConfig)
    (communityRewards team treasury liquidity airdrop : Address) : Storage :=
  (((s.minted communityRewards team treasury liquidity airdrop).setTotalSupply
    BackitToken.totalSupply).setInitialDistribution
      { communityRewards := communityRewards
        communityRewardsAmount := allocation allocCommunityRewardsBps
        team := team, teamAmount := allocation allocTeamBps
        treasury := treasury, treasuryAmount := allocation allocTreasuryBps
        liquidity := liquidity, liquidityAmount := allocation allocLiquidityBps
        airdrop := airdrop, airdropAmount := allocation allocAirdropBps }).setConfig config

/-- The storage after an amount of the token moved. -/
def moved (sender recipient : Address) (amount : Int) : Storage :=
  let debited := s.setBalance sender (s.balance sender - amount)
  debited.setBalance recipient (debited.balance recipient + amount)

/-- The storage after a deposit of fees. -/
def funded (amount : Int) : Storage := s.setTotalFeesCollected (s.totalFeesCollected + amount)

/-- The storage after a claim. -/
def claimed (holder : Address) : Storage :=
  (s.setLastClaimFees holder s.totalFeesCollected).setTotalRevenueDistributed
    (s.totalRevenueDistributed + s.shareOf holder)

/-- The storage after an amount is staked. -/
def staked (staker : Address) (amount : Int) (lockUntil boost : Nat) : Storage :=
  ((s.setBalance staker (s.balance staker - amount)).setStake staker
    { amount := amount, lockUntil := lockUntil, boost := boost
      feesAtStake := s.totalFeesCollected }).setLastClaimFees staker s.totalFeesCollected

/-- The storage after a stake is returned. -/
def unstaked (staker : Address) (amount : Int) : Storage :=
  (s.setBalance staker (s.balance staker + amount)).removeStake staker

end Storage

/-- A successful invocation: its checks, its effects and the storage it left. -/
inductive Transition (env : Env) : TokenOp → Storage → List (Effect Event) → Storage → Prop where
  | founded {admin usdcSac communityRewards team treasury liquidity airdrop s} :
      s.config = none → admin ∈ env.auths →
      Transition env
        (.initializeToken admin usdcSac communityRewards team treasury liquidity airdrop) s
        [.event (.initialized admin totalSupply)]
        (s.founded ⟨admin, usdcSac, true⟩ communityRewards team treasury liquidity airdrop)
  | moved {sender recipient amount s} :
      0 < amount → sender ∈ env.auths → amount ≤ s.balance sender →
      Transition env (.transfer sender recipient amount) s [] (s.moved sender recipient amount)
  | funded {amount config s} : 0 < amount → s.config = some config → config.admin ∈ env.auths →
      Transition env (.feePoolDeposit amount) s
        [.event (.feeDeposited config.admin amount),
          .transfer config.usdcSac config.admin env.contract amount] (s.funded amount)
  | claimed {holder config s} : holder ∈ env.auths → s.config = some config → s.totalSupply ≠ 0 →
      s.effectiveBalance holder ≠ 0 → s.lastClaimFees holder < s.totalFeesCollected →
      0 < s.shareOf holder →
      Transition env (.claimRevenueShare holder) s
        [.event (.revenueClaimed holder (s.shareOf holder)),
          .transfer config.usdcSac env.contract holder (s.shareOf holder)] (s.claimed holder)
  | staked {staker amount lockDurationSecs config s} :
      staker ∈ env.auths → s.config = some config → 0 < amount → s.stake staker = none →
      amount ≤ s.balance staker →
      Transition env (.stakeBackit staker amount lockDurationSecs) s
        [.event (.backitStaked staker amount (env.timestamp + lockDurationSecs))]
        (s.staked staker amount (env.timestamp + lockDurationSecs)
          (boostMultiplier lockDurationSecs))
  | unstaked {staker record config s} :
      staker ∈ env.auths → s.config = some config → s.stake staker = some record →
      record.lockUntil ≤ env.timestamp →
      Transition env (.unstakeBackit staker) s [.event (.backitUnstaked staker record.amount)]
        (s.unstaked staker record.amount)

section Specs

variable {T : Type} {env : Env} {f f' : Frame Storage T Event}

@[simp] theorem run_bpsOf_bind {α : Type} {b : α} (total : Int) (bps : Nat) (k : Int → Token T α) :
    run (bpsOf total bps >>= k) env f = .ok (b, f') ↔
      InI128 (total * bps) ∧ run (k ((total * bps).tdiv 10000)) env f = .ok (b, f') := by
  simp only [bpsOf, Contract.bind_assoc, run_steps]

/-- The weight is the effective balance, when nothing on the way to it overflows. -/
theorem run_computeEffectiveBalance {holder : Address} {weight : Int}
    (h : run (computeEffectiveBalance holder (f.store.balance holder) : Token T Int) env f =
      .ok (weight, f')) : weight = f.store.effectiveBalance holder ∧ f' = f := by
  simp only [computeEffectiveBalance, run_getStore_bind] at h
  unfold Storage.effectiveBalance
  cases hstake : f.store.stake holder with
  | some record =>
    simp only [hstake, run_steps] at h
    obtain ⟨-, -, -, rfl, rfl⟩ := h
    refine ⟨?_, rfl⟩
    dsimp only
    split <;> omega
  | none =>
    simp only [hstake, run_pure, Except.ok.injEq, Prod.mk.injEq] at h
    obtain ⟨rfl, rfl⟩ := h
    exact ⟨rfl, rfl⟩

variable [Tokens T]

/-- An invocation that succeeds makes a listed transition. -/
theorem TokenOp.transitions {op : TokenOp} (h : run op.perform env f = .ok ((), f')) :
    ∃ effects, f'.effects = effects ++ f.effects ∧ Replays env f.tokens effects f'.tokens ∧
      Transition env op f.store effects f'.store := by
  cases op with
  | initializeToken admin usdcSac communityRewards team treasury liquidity airdrop =>
    simp only [TokenOp.perform, BackitToken.initializeToken, run_steps, run_bpsOf_bind,
      Option.not_isSome_iff_eq_none] at h
    obtain ⟨hnone, hauth, -, -, -, -, -, rfl⟩ := h
    exact ⟨_, rfl, .event .nil, .founded (by simpa using hnone) hauth⟩
  | transfer sender recipient amount =>
    simp only [TokenOp.perform, BackitToken.transfer, run_steps, not_le, not_lt] at h
    obtain ⟨hamount, hauth, hbalance, -, -, rfl⟩ := h
    exact ⟨[], rfl, .nil, .moved hamount hauth hbalance⟩
  | feePoolDeposit amount =>
    simp only [TokenOp.perform, BackitToken.feePoolDeposit, run_steps, not_le] at h
    obtain ⟨hamount, config, hconfig, hauth, tokens, htransfer, -, rfl⟩ := h
    exact ⟨_, rfl, .event (Replays.nil.transfer htransfer), .funded hamount hconfig hauth⟩
  | claimRevenueShare holder =>
    simp only [TokenOp.perform, run_ignore, BackitToken.claimRevenueShare, run_steps,
      run_bind (x := computeEffectiveBalance _ _), not_le] at h
    obtain ⟨_, hauth, config, hconfig, hsupply, weight, _, hweight, hnonzero, -, hfees, -,
      hshare, -, tokens, htransfer, -, rfl⟩ := h
    obtain ⟨rfl, rfl⟩ := run_computeEffectiveBalance hweight
    exact ⟨_, rfl, .event (Replays.nil.transfer htransfer),
      .claimed hauth hconfig hsupply hnonzero (by omega) hshare⟩
  | stakeBackit staker amount lockDurationSecs =>
    simp only [TokenOp.perform, BackitToken.stakeBackit, run_steps, not_le, not_lt] at h
    obtain ⟨hauth, hconfig, hamount, -, hstake, hbalance, -, -, rfl⟩ := h
    obtain ⟨config, hconfig⟩ := Option.ne_none_iff_exists'.mp (by simpa using hconfig)
    exact ⟨_, rfl, .event .nil, .staked hauth hconfig hamount (by simpa using hstake) hbalance⟩
  | unstakeBackit staker =>
    simp only [TokenOp.perform, BackitToken.unstakeBackit, run_steps, not_lt] at h
    obtain ⟨hauth, hconfig, record, hrecord, hunlocked, -, rfl⟩ := h
    obtain ⟨config, hconfig⟩ := Option.ne_none_iff_exists'.mp (by simpa using hconfig)
    exact ⟨_, rfl, .event .nil, .unstaked hauth hconfig hrecord hunlocked⟩

end Specs

end Backit.BackitToken
