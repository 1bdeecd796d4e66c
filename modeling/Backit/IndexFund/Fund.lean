import Backit.Soroban.Host

/-!
# The index fund

Users deposit a stake token for shares of a pool and burn shares for a part of it. The admin stakes
capital of the pool in markets, where it is counted at cost until the market pays out.
-/

namespace Backit.IndexFund

open Soroban Contract

/-- The contract's error codes that its entry points return. -/
inductive IndexFundError where
  | alreadyInitialized
  | notInitialized
  | insufficientLiquidity
  | invalidAmount
  | rebalanceTooFrequent
  | marketNotFound
  | navCalculationError
  | zeroSupply
  | feeTooHigh
  | indexFull
  | duplicateMarket
  deriving DecidableEq

inductive Event where
  | indexDeposit (user : Address) (usdcAmount indexTokens : Int)
  | indexWithdraw (user : Address) (indexAmount usdcOut : Int)
  | indexRebalanced (keeper : Address) (marketsStaked marketsClaimed : Nat)
  | payoutClaimed (callId : Nat) (amount : Int)
  deriving DecidableEq

/-- A single market held by the fund. -/
structure IndexConstituent where
  callId : Nat
  weightBps : Nat
  stakeAmount : Int
  outcome : Nat
  marketAddress : Address
  deriving DecidableEq

structure IndexConfig where
  admin : Address
  stakeToken : Address
  predictionMarketFactory : Address
  rebalanceIntervalSecs : Nat
  depositFeeBps : Nat
  withdrawFeeBps : Nat
  topN : Nat
  keeperRewardBps : Nat
  deriving DecidableEq

def bpsScale : Int := 10000

/-- Shares are counted in units of 1e-7. -/
def navScale : Int := 10000000

def defaultTopN : Nat := 10

def defaultKeeperRewardBps : Nat := 100

structure Storage where
  config : Option IndexConfig
  initialized : Bool
  totalIndexSupply : Int
  totalUsdcInPool : Int
  constituents : List IndexConstituent
  userIndexBalance : Address → Int
  constituent : Nat → Option IndexConstituent
  lastRebalanceTimestamp : Nat

namespace Storage

/-- The storage of a freshly deployed contract. -/
def empty : Storage := ⟨none, false, 0, 0, [], fun _ => 0, fun _ => none, 0⟩

variable (s : Storage)

def setConfig (config : IndexConfig) : Storage := { s with config := some config }

def setInitialized : Storage := { s with initialized := true }

def setTotalIndexSupply (amount : Int) : Storage := { s with totalIndexSupply := amount }

def setTotalUsdcInPool (amount : Int) : Storage := { s with totalUsdcInPool := amount }

def setConstituents (constituents : List IndexConstituent) : Storage :=
  { s with constituents := constituents }

def setUserIndexBalance (user : Address) (amount : Int) : Storage :=
  { s with userIndexBalance := Function.update s.userIndexBalance user amount }

def setConstituent (c : IndexConstituent) : Storage :=
  { s with constituent := Function.update s.constituent c.callId (some c) }

def removeConstituent (callId : Nat) : Storage :=
  { s with constituent := Function.update s.constituent callId none }

def setLastRebalanceTimestamp (ts : Nat) : Storage := { s with lastRebalanceTimestamp := ts }

end Storage

/-- A computation of an entry point. -/
abbrev Fund (T α : Type) := Contract (Frame Storage T Event) IndexFundError α

variable {T : Type}

def calculateFee (amount : Int) (feeBps : Nat) : Fund T Int :=
  if feeBps = 0 ∨ amount ≤ 0 then pure 0
  else do
    let scaled ← i128 (amount * feeBps)
    pure (scaled.tdiv bpsScale)

/-- `total_usdc * NAV_SCALE / total_supply`. -/
def computeNav : Fund T Int := do
  let totalSupply := (← getStore).totalIndexSupply
  if totalSupply ≤ 0 then pure 0
  else do
    let scaled ← unwrap (checkedMul (← getStore).totalUsdcInPool navScale)
      (.error .navCalculationError)
    unwrap (checkedDiv scaled totalSupply) (.error .navCalculationError)

/-- What is staked in markets, at cost. -/
def investedTotal : Fund T Int := do
  sumI128 ((← getStore).constituents.map IndexConstituent.stakeAmount)

/-- The entry point `initialize`, which anybody may call once. -/
def initializeFund (admin stakeToken predictionMarketFactory : Address)
    (rebalanceIntervalSecs depositFeeBps withdrawFeeBps : Nat) : Fund T Unit := do
  rejectIf ((← getStore).initialized = true) (.error .alreadyInitialized)
  rejectIf (1000 < depositFeeBps ∨ 1000 < withdrawFeeBps) (.error .feeTooHigh)
  modifyStore (·.setConfig
    { admin := admin, stakeToken := stakeToken
      predictionMarketFactory := predictionMarketFactory
      rebalanceIntervalSecs := rebalanceIntervalSecs
      depositFeeBps := depositFeeBps, withdrawFeeBps := withdrawFeeBps
      topN := defaultTopN, keeperRewardBps := defaultKeeperRewardBps })
  modifyStore (·.setInitialized)

/-- The shares that a net deposit mints: one for one, scaled, into a fund without shares, and else
in proportion to the pool. -/
def indexTokensFor (netUsdc totalSupply totalUsdc : Int) : Fund T Int :=
  if totalSupply = 0 then i128 (netUsdc * navScale)
  else do
    let scaled ← unwrap (checkedMul netUsdc totalSupply) (.error .navCalculationError)
    unwrap (checkedDiv scaled totalUsdc) (.error .navCalculationError)

def setWeight (weightBps : Nat) (c : IndexConstituent) : IndexConstituent :=
  { c with weightBps := weightBps }

/-- What the last of `n` equal weights lacks to the whole. -/
def remainderWeight (n : Nat) : Nat := 10000 - n * (10000 / n)

/-- Equal weights, with what remains of the whole on the last constituent. -/
def equalWeights (constituents : List IndexConstituent) : List IndexConstituent :=
  let equalWeight := 10000 / constituents.length
  match constituents.getLast? with
  | none => []
  | some last =>
    constituents.dropLast.map (setWeight equalWeight) ++
      [setWeight (equalWeight + remainderWeight constituents.length) last]

section Tokens

variable [Tokens T]

def transferToken (token sender recipient : Address) (amount : Int) : Fund T Unit :=
  tokenTransfer token sender recipient amount

def deposit (user : Address) (usdcAmount : Int) : Fund T Int := do
  requireAuth user
  rejectIf (usdcAmount ≤ 0) (.error .invalidAmount)
  let config ← unwrap (← getStore).config (.error .notInitialized)
  let fee ← calculateFee usdcAmount config.depositFeeBps
  let netUsdc ← unwrap (checkedSub usdcAmount fee) (.error .invalidAmount)
  let environment ← env
  transferToken config.stakeToken user environment.contract usdcAmount
  let totalSupply := (← getStore).totalIndexSupply
  let totalUsdc := (← getStore).totalUsdcInPool
  let newTotalUsdc ← i128 (totalUsdc + netUsdc)
  let indexTokens ← indexTokensFor netUsdc totalSupply totalUsdc
  let newTotalSupply ← i128 (totalSupply + indexTokens)
  modifyStore (·.setTotalIndexSupply newTotalSupply)
  modifyStore (·.setTotalUsdcInPool newTotalUsdc)
  let newBalance ← i128 ((← getStore).userIndexBalance user + indexTokens)
  modifyStore (·.setUserIndexBalance user newBalance)
  publish (.indexDeposit user usdcAmount indexTokens)
  pure indexTokens

def withdraw (user : Address) (indexAmount : Int) : Fund T Int := do
  requireAuth user
  rejectIf (indexAmount ≤ 0) (.error .invalidAmount)
  let config ← unwrap (← getStore).config (.error .notInitialized)
  let userBalance := (← getStore).userIndexBalance user
  rejectIf (userBalance < indexAmount) (.error .insufficientLiquidity)
  let totalSupply := (← getStore).totalIndexSupply
  let totalUsdc := (← getStore).totalUsdcInPool
  rejectIf (totalSupply ≤ 0) (.error .zeroSupply)
  let scaled ← unwrap (checkedMul indexAmount totalUsdc) (.error .navCalculationError)
  let usdcOut ← unwrap (checkedDiv scaled totalSupply) (.error .navCalculationError)
  let invested ← investedTotal
  let liquid ← i128 (totalUsdc - invested)
  rejectIf (liquid < usdcOut) (.error .insufficientLiquidity)
  let fee ← calculateFee usdcOut config.withdrawFeeBps
  let netUsdc ← unwrap (checkedSub usdcOut fee) (.error .invalidAmount)
  let newTotalSupply ← i128 (totalSupply - indexAmount)
  modifyStore (·.setTotalIndexSupply newTotalSupply)
  let newTotalUsdc ← i128 (totalUsdc - usdcOut)
  modifyStore (·.setTotalUsdcInPool newTotalUsdc)
  let newBalance ← i128 (userBalance - indexAmount)
  modifyStore (·.setUserIndexBalance user newBalance)
  let environment ← env
  transferToken config.stakeToken environment.contract user netUsdc
  publish (.indexWithdraw user indexAmount netUsdc)
  pure netUsdc

/-- Set equal weights. No market is selected, staked on or claimed here. -/
def rebalance (keeper : Address) : Fund T Unit := do
  requireAuth keeper
  let config ← unwrap (← getStore).config (.error .notInitialized)
  let environment ← env
  let now := environment.timestamp
  let due ← unsigned 64 ((← getStore).lastRebalanceTimestamp + config.rebalanceIntervalSecs)
  rejectIf (now < due) (.error .rebalanceTooFrequent)
  let _ ← computeNav
  let weighted := equalWeights (← getStore).constituents
  modifyStore fun s => weighted.foldl Storage.setConstituent s
  modifyStore (·.setConstituents weighted)
  modifyStore (·.setLastRebalanceTimestamp now)
  publish (.indexRebalanced keeper weighted.length 0)

def invest (callId : Nat) (marketAddress : Address) (outcome : Nat) (amount : Int) :
    Fund T Unit := do
  let config ← unwrap (← getStore).config (.error .notInitialized)
  requireAuth config.admin
  rejectIf (amount ≤ 0) (.error .invalidAmount)
  let constituents := (← getStore).constituents
  rejectIf (config.topN ≤ constituents.length) (.error .indexFull)
  rejectIf (((← getStore).constituent callId).isSome = true) (.error .duplicateMarket)
  let invested ← investedTotal
  let liquid ← i128 ((← getStore).totalUsdcInPool - invested)
  rejectIf (liquid < amount) (.error .insufficientLiquidity)
  let environment ← env
  transferToken config.stakeToken environment.contract marketAddress amount
  let c : IndexConstituent := ⟨callId, 0, amount, outcome, marketAddress⟩
  modifyStore (·.setConstituent c)
  modifyStore (·.setConstituents (constituents ++ [c]))

/-- Pay a market's payout in, when there is one. -/
def receivePayout (token marketAddress : Address) (payout : Int) : Fund T Unit :=
  if 0 < payout then do
    let environment ← env
    transferToken token marketAddress environment.contract payout
  else pure ()

def claimPayout (callId : Nat) (payout : Int) : Fund T Int := do
  let config ← unwrap (← getStore).config (.error .notInitialized)
  let c ← unwrap ((← getStore).constituent callId) (.error .marketNotFound)
  requireAuth c.marketAddress
  rejectIf (payout < 0) (.error .invalidAmount)
  receivePayout config.stakeToken c.marketAddress payout
  let released ← i128 ((← getStore).totalUsdcInPool - c.stakeAmount)
  let totalUsdc ← i128 (released + payout)
  modifyStore (·.setTotalUsdcInPool totalUsdc)
  modifyStore (·.removeConstituent callId)
  let constituents := (← getStore).constituents
  modifyStore (·.setConstituents (constituents.filter (·.callId ≠ callId)))
  publish (.payoutClaimed callId payout)
  pure payout

def mintIndex (user : Address) (amount : Int) : Fund T Int := deposit user amount

def redeemIndex (user : Address) (shares : Int) : Fund T Int := withdraw user shares

end Tokens

/-- The entry points that write. -/
inductive FundOp where
  | initializeFund (admin stakeToken predictionMarketFactory : Address)
      (rebalanceIntervalSecs depositFeeBps withdrawFeeBps : Nat)
  | deposit (user : Address) (usdcAmount : Int)
  | withdraw (user : Address) (indexAmount : Int)
  | rebalance (keeper : Address)
  | invest (callId : Nat) (marketAddress : Address) (outcome : Nat) (amount : Int)
  | claimPayout (callId : Nat) (payout : Int)
  | mintIndex (user : Address) (amount : Int)
  | redeemIndex (user : Address) (shares : Int)
  deriving DecidableEq

/-- Run an invocation of an entry point. -/
def FundOp.perform [Tokens T] : FundOp → Fund T Unit
  | .initializeFund admin stakeToken factory interval depositFeeBps withdrawFeeBps =>
    IndexFund.initializeFund admin stakeToken factory interval depositFeeBps withdrawFeeBps
  | .deposit user usdcAmount => ignore (IndexFund.deposit user usdcAmount)
  | .withdraw user indexAmount => ignore (IndexFund.withdraw user indexAmount)
  | .rebalance keeper => IndexFund.rebalance keeper
  | .invest callId marketAddress outcome amount =>
    IndexFund.invest callId marketAddress outcome amount
  | .claimPayout callId payout => ignore (IndexFund.claimPayout callId payout)
  | .mintIndex user amount => ignore (IndexFund.mintIndex user amount)
  | .redeemIndex user shares => ignore (IndexFund.redeemIndex user shares)

end Backit.IndexFund

/-!
## What the entry points of the fund do

A deposit is described exactly: `run_deposit` says when it succeeds and what it leaves. For every
entry point `Transition` lists the checks that a successful invocation passed, its effects, most
recent first, and the storage it left.
-/

namespace Backit.IndexFund

open Soroban Contract

/-- The fee on an amount. -/
def feeOn (amount : Int) (feeBps : Nat) : Int :=
  if feeBps = 0 ∨ amount ≤ 0 then 0 else (amount * feeBps).tdiv bpsScale

namespace Storage

variable (s : Storage)

/-- What is staked in markets, at cost. -/
def invested : Int := (s.constituents.map IndexConstituent.stakeAmount).sum

/-- The shares that a net deposit mints. -/
def mintedFor (netUsdc : Int) : Int :=
  if s.totalIndexSupply = 0 then netUsdc * navScale
  else (netUsdc * s.totalIndexSupply).tdiv s.totalUsdcInPool

/-- The part of the pool that shares stand for. -/
def redeemable (shares : Int) : Int := (shares * s.totalUsdcInPool).tdiv s.totalIndexSupply

/-- The storage after a deposit. -/
def deposited (user : Address) (netUsdc shares : Int) : Storage :=
  ((s.setTotalIndexSupply (s.totalIndexSupply + shares)).setTotalUsdcInPool
    (s.totalUsdcInPool + netUsdc)).setUserIndexBalance user (s.userIndexBalance user + shares)

/-- The storage after a withdrawal. -/
def withdrawn (user : Address) (shares usdcOut : Int) : Storage :=
  ((s.setTotalIndexSupply (s.totalIndexSupply - shares)).setTotalUsdcInPool
    (s.totalUsdcInPool - usdcOut)).setUserIndexBalance user (s.userIndexBalance user - shares)

/-- The storage after new weights are set. -/
def reweighted (now : Nat) : Storage :=
  (((equalWeights s.constituents).foldl setConstituent s).setConstituents
    (equalWeights s.constituents)).setLastRebalanceTimestamp now

/-- The storage after a stake in a market. -/
def investedIn (c : IndexConstituent) : Storage :=
  (s.setConstituent c).setConstituents (s.constituents ++ [c])

/-- The storage after a market has paid out. -/
def paidOut (callId : Nat) (c : IndexConstituent) (payout : Int) : Storage :=
  ((s.setTotalUsdcInPool (s.totalUsdcInPool - c.stakeAmount + payout)).removeConstituent
    callId).setConstituents (s.constituents.filter (·.callId ≠ callId))

end Storage

/-- The arithmetic of a deposit stays in range. -/
structure DepositFits (s : Storage) (config : IndexConfig) (user : Address) (amount : Int) :
    Prop where
  fee : ¬(config.depositFeeBps = 0 ∨ amount ≤ 0) → InI128 (amount * config.depositFeeBps)
  net : InI128 (amount - feeOn amount config.depositFeeBps)
  pool : InI128 (s.totalUsdcInPool + (amount - feeOn amount config.depositFeeBps))
  scaled : s.totalIndexSupply ≠ 0 →
    InI128 ((amount - feeOn amount config.depositFeeBps) * s.totalIndexSupply)
  minted : InI128 (s.mintedFor (amount - feeOn amount config.depositFeeBps))
  supply : InI128 (s.totalIndexSupply + s.mintedFor (amount - feeOn amount config.depositFeeBps))
  balance : InI128 (s.userIndexBalance user +
    s.mintedFor (amount - feeOn amount config.depositFeeBps))

/-- The two names of the entry points for deposits and withdrawals. -/
inductive Names : FundOp → FundOp → Prop where
  | deposit {user usdcAmount} : Names (.deposit user usdcAmount) (.deposit user usdcAmount)
  | mintIndex {user amount} : Names (.mintIndex user amount) (.deposit user amount)
  | withdraw {user indexAmount} : Names (.withdraw user indexAmount) (.withdraw user indexAmount)
  | redeemIndex {user shares} : Names (.redeemIndex user shares) (.withdraw user shares)

/-- A successful invocation: its checks, its effects and the storage it left. -/
inductive Transition (env : Env) : FundOp → Storage → List (Effect Event) → Storage → Prop where
  | founded {admin stakeToken factory interval depositFeeBps withdrawFeeBps config s} :
      s.initialized = false → config.stakeToken = stakeToken → config.depositFeeBps ≤ 1000 →
      config.withdrawFeeBps ≤ 1000 →
      Transition env (.initializeFund admin stakeToken factory interval depositFeeBps
        withdrawFeeBps) s [] (s.setConfig config).setInitialized
  | deposited {op user amount config s} :
      Names op (.deposit user amount) → user ∈ env.auths → 0 < amount →
      s.config = some config → (s.totalIndexSupply = 0 ∨ s.totalUsdcInPool ≠ 0) →
      Transition env op s
        [.event (.indexDeposit user amount
            (s.mintedFor (amount - feeOn amount config.depositFeeBps))),
          .transfer config.stakeToken user env.contract amount]
        (s.deposited user (amount - feeOn amount config.depositFeeBps)
          (s.mintedFor (amount - feeOn amount config.depositFeeBps)))
  | withdrawn {op user shares config s} :
      Names op (.withdraw user shares) → user ∈ env.auths → 0 < shares →
      s.config = some config → shares ≤ s.userIndexBalance user → 0 < s.totalIndexSupply →
      s.redeemable shares ≤ s.totalUsdcInPool - s.invested →
      Transition env op s
        [.event (.indexWithdraw user shares
            (s.redeemable shares - feeOn (s.redeemable shares) config.withdrawFeeBps)),
          .transfer config.stakeToken env.contract user
            (s.redeemable shares - feeOn (s.redeemable shares) config.withdrawFeeBps)]
        (s.withdrawn user shares (s.redeemable shares))
  | rebalanced {keeper config s} : keeper ∈ env.auths → s.config = some config →
      Transition env (.rebalance keeper) s
        [.event (.indexRebalanced keeper (equalWeights s.constituents).length 0)]
        (s.reweighted env.timestamp)
  | invested {callId market outcome amount config s} :
      s.config = some config → config.admin ∈ env.auths → 0 < amount →
      s.constituent callId = none → amount ≤ s.totalUsdcInPool - s.invested →
      Transition env (.invest callId market outcome amount) s
        [.transfer config.stakeToken env.contract market amount]
        (s.investedIn ⟨callId, 0, amount, outcome, market⟩)
  | paidOut {callId payout config c s} :
      s.config = some config → s.constituent callId = some c → c.marketAddress ∈ env.auths →
      0 ≤ payout →
      Transition env (.claimPayout callId payout) s
        (.event (.payoutClaimed callId payout) :: if 0 < payout then
            [.transfer config.stakeToken c.marketAddress env.contract payout]
          else [])
        (s.paidOut callId c payout)

section Specs

variable {T α : Type} {env : Env} {f f' : Frame Storage T Event} {r : α}

theorem run_calculateFee_bind (amount : Int) (feeBps : Nat) (k : Int → Fund T α) :
    run (calculateFee amount feeBps >>= k) env f = .ok (r, f') ↔
      (¬(feeBps = 0 ∨ amount ≤ 0) → InI128 (amount * feeBps)) ∧
        run (k (feeOn amount feeBps)) env f = .ok (r, f') := by
  unfold calculateFee feeOn
  by_cases hfree : feeBps = 0 ∨ amount ≤ 0
  · simp only [hfree, if_true, not_true_eq_false, false_implies, true_and, run_pure_bind]
  · simp only [hfree, if_false, not_false_eq_true, true_implies, Contract.bind_assoc, run_steps]

theorem run_investedTotal_bind (k : Int → Fund T α) :
    run (investedTotal >>= k) env f = .ok (r, f') ↔
      SumFits 0 (f.store.constituents.map IndexConstituent.stakeAmount) ∧
        run (k f.store.invested) env f = .ok (r, f') := by
  simp only [investedTotal, Contract.bind_assoc, run_getStore_bind, run_sumI128_bind]
  rfl

/-- Shares are minted unless they would be a part of nothing. -/
theorem run_indexTokensFor_bind {s : Storage} (net : Int) (k : Int → Fund T α) :
    run (indexTokensFor net s.totalIndexSupply s.totalUsdcInPool >>= k) env f = .ok (r, f') ↔
      (s.totalIndexSupply = 0 ∨ s.totalUsdcInPool ≠ 0) ∧
        (s.totalIndexSupply ≠ 0 → InI128 (net * s.totalIndexSupply)) ∧
        InI128 (s.mintedFor net) ∧ run (k (s.mintedFor net)) env f = .ok (r, f') := by
  unfold indexTokensFor Storage.mintedFor
  by_cases hfirst : s.totalIndexSupply = 0
  · simp only [hfirst, if_true, run_i128_bind, true_or, ne_eq, not_true_eq_false, false_implies,
      true_and]
  · simp only [hfirst, if_false, Contract.bind_assoc, run_unwrap_bind, checkedMul, checkedDiv,
      checked_eq_some, false_or, ne_eq, not_false_eq_true, true_implies]
    constructor
    · rintro ⟨_, ⟨hscaled, rfl⟩, minted, hdiv, hrest⟩
      split at hdiv
      · cases hdiv
      · next hpool =>
        obtain ⟨hminted, rfl⟩ := checked_eq_some.mp hdiv
        exact ⟨hpool, hscaled, hminted, hrest⟩
    · rintro ⟨hpool, hscaled, hminted, hrest⟩
      exact ⟨_, ⟨hscaled, rfl⟩, _, by rw [if_neg hpool, checked_of_in_range hminted], hrest⟩

variable [Tokens T]

/-- A deposit succeeds exactly when it passes its checks and the token moves the amount. -/
theorem run_deposit {user : Address} {amount shares : Int} :
    run (deposit user amount) env f = .ok (shares, f') ↔
      ∃ config tokens, user ∈ env.auths ∧ 0 < amount ∧ f.store.config = some config ∧
        DepositFits f.store config user amount ∧
        (f.store.totalIndexSupply = 0 ∨ f.store.totalUsdcInPool ≠ 0) ∧
        Tokens.transfer env config.stakeToken user env.contract amount f.tokens = some tokens ∧
        shares = f.store.mintedFor (amount - feeOn amount config.depositFeeBps) ∧
        f' = ⟨f.store.deposited user (amount - feeOn amount config.depositFeeBps) shares, tokens,
          .event (.indexDeposit user amount shares) ::
            .transfer config.stakeToken user env.contract amount :: f.effects⟩ := by
  simp only [deposit, run_steps, run_calculateFee_bind, checkedSub, checked_eq_some, transferToken,
    not_le]
  constructor
  · rintro ⟨hauth, hamount, config, hconfig, hfee, _, ⟨hnet, rfl⟩, tokens, htransfer, hpool, h⟩
    rw [Frame.record_store, run_indexTokensFor_bind] at h
    obtain ⟨hsolvent, hscaled, hminted, h⟩ := h
    simp only [run_steps] at h
    obtain ⟨hsupply, hbalance, rfl, rfl⟩ := h
    exact ⟨config, tokens, hauth, hamount, hconfig,
      ⟨hfee, hnet, hpool, hscaled, hminted, hsupply, hbalance⟩, hsolvent, htransfer, rfl, rfl⟩
  · rintro ⟨config, tokens, hauth, hamount, hconfig,
      ⟨hfee, hnet, hpool, hscaled, hminted, hsupply, hbalance⟩, hsolvent, htransfer, rfl, rfl⟩
    refine ⟨hauth, hamount, config, hconfig, hfee, _, ⟨hnet, rfl⟩, tokens, htransfer, hpool, ?_⟩
    rw [Frame.record_store, run_indexTokensFor_bind]
    refine ⟨hsolvent, hscaled, hminted, ?_⟩
    simp only [run_steps]
    exact ⟨hsupply, hbalance, trivial, rfl⟩

theorem run_withdraw {user : Address} {shares amountOut : Int}
    (h : run (withdraw user shares) env f = .ok (amountOut, f')) :
    ∃ config tokens, user ∈ env.auths ∧ 0 < shares ∧ f.store.config = some config ∧
      shares ≤ f.store.userIndexBalance user ∧ 0 < f.store.totalIndexSupply ∧
      f.store.redeemable shares ≤ f.store.totalUsdcInPool - f.store.invested ∧
      amountOut = f.store.redeemable shares -
        feeOn (f.store.redeemable shares) config.withdrawFeeBps ∧
      Tokens.transfer env config.stakeToken env.contract user amountOut f.tokens = some tokens ∧
      f' = ⟨f.store.withdrawn user shares (f.store.redeemable shares), tokens,
        .event (.indexWithdraw user shares amountOut) ::
          .transfer config.stakeToken env.contract user amountOut :: f.effects⟩ := by
  simp only [withdraw, run_steps, run_investedTotal_bind, run_calculateFee_bind, checkedMul,
    checkedSub, checked_eq_some, transferToken, not_le, not_lt] at h
  obtain ⟨hauth, hshares, config, hconfig, hheld, hsupply, _, ⟨-, rfl⟩, usdcOut, hdiv, -, -,
    hliquid, -, _, ⟨-, rfl⟩, -, -, -, tokens, htransfer, rfl, rfl⟩ := h
  rw [checkedDiv, if_neg hsupply.ne'] at hdiv
  obtain ⟨-, rfl⟩ := checked_eq_some.mp hdiv
  exact ⟨config, tokens, hauth, hshares, hconfig, hheld, hsupply, hliquid, rfl, htransfer, rfl⟩

omit [Tokens T] in
theorem compute_nav_read_only : ReadOnly (computeNav : Fund T Int) := by
  refine ReadOnly.getStore.bind fun s => ReadOnly.ite (.pure _) ?_
  exact ReadOnly.getStore.bind fun s => (ReadOnly.unwrap _ _).bind fun _ => ReadOnly.unwrap _ _

/-- An invocation that succeeds makes a listed transition. -/
theorem FundOp.transitions {op : FundOp} (h : run op.perform env f = .ok ((), f')) :
    ∃ effects, f'.effects = effects ++ f.effects ∧ Replays env f.tokens effects f'.tokens ∧
      Transition env op f.store effects f'.store := by
  have hdeposits : ∀ {op user amount}, Names op (.deposit user amount) → ∀ {shares},
      run (IndexFund.deposit user amount) env f = .ok (shares, f') → ∃ effects,
        f'.effects = effects ++ f.effects ∧ Replays env f.tokens effects f'.tokens ∧
          Transition env op f.store effects f'.store := by
    intro op user amount hop shares h
    obtain ⟨config, tokens, hauth, hamount, hconfig, -, hsolvent, htransfer, rfl, rfl⟩ :=
      run_deposit.mp h
    exact ⟨_, rfl, .event (Replays.nil.transfer htransfer),
      .deposited hop hauth hamount hconfig hsolvent⟩
  have hwithdraws : ∀ {op user shares}, Names op (.withdraw user shares) → ∀ {amountOut},
      run (IndexFund.withdraw user shares) env f = .ok (amountOut, f') → ∃ effects,
        f'.effects = effects ++ f.effects ∧ Replays env f.tokens effects f'.tokens ∧
          Transition env op f.store effects f'.store := by
    intro op user shares hop amountOut h
    obtain ⟨config, tokens, hauth, hshares, hconfig, hheld, hsupply, hliquid, rfl, htransfer,
      rfl⟩ := run_withdraw h
    exact ⟨_, rfl, .event (Replays.nil.transfer htransfer),
      .withdrawn hop hauth hshares hconfig hheld hsupply hliquid⟩
  cases op with
  | initializeFund admin stakeToken factory interval depositFeeBps withdrawFeeBps =>
    simp only [FundOp.perform, IndexFund.initializeFund, run_steps, not_or, not_lt] at h
    obtain ⟨hnew, ⟨hdeposit, hwithdraw⟩, rfl⟩ := h
    exact ⟨[], rfl, .nil, .founded (by simpa using hnew) rfl hdeposit hwithdraw⟩
  | deposit user amount =>
    obtain ⟨shares, h⟩ := run_ignore.mp h
    exact hdeposits .deposit h
  | withdraw user shares =>
    obtain ⟨amountOut, h⟩ := run_ignore.mp h
    exact hwithdraws .withdraw h
  | mintIndex user amount =>
    obtain ⟨shares, h⟩ := run_ignore.mp h
    exact hdeposits .mintIndex h
  | redeemIndex user shares =>
    obtain ⟨amountOut, h⟩ := run_ignore.mp h
    exact hwithdraws .redeemIndex h
  | rebalance keeper =>
    simp only [FundOp.perform, IndexFund.rebalance, run_steps] at h
    obtain ⟨hauth, config, hconfig, -, -, h⟩ := h
    obtain ⟨nav, f₁, hnav, hrest⟩ := run_bind.mp h
    obtain rfl := compute_nav_read_only _ _ _ _ hnav
    simp only [run_steps] at hrest
    obtain rfl := hrest
    exact ⟨_, rfl, .event .nil, .rebalanced hauth hconfig⟩
  | invest callId market outcome amount =>
    simp only [FundOp.perform, IndexFund.invest, run_steps, run_investedTotal_bind, transferToken,
      not_le, not_lt] at h
    obtain ⟨config, hconfig, hauth, hamount, -, hnew, -, -, hliquid, tokens, htransfer, rfl⟩ := h
    exact ⟨_, rfl, Replays.nil.transfer htransfer,
      .invested hconfig hauth hamount (by simpa using hnew) hliquid⟩
  | claimPayout callId payout =>
    simp only [FundOp.perform, run_ignore, IndexFund.claimPayout, run_steps, not_lt] at h
    obtain ⟨_, config, hconfig, c, hc, hauth, hpayout, h⟩ := h
    obtain ⟨received, f₁, hreceive, hrest⟩ := run_bind.mp h
    simp only [run_steps] at hrest
    obtain ⟨-, -, -, rfl⟩ := hrest
    have hmade : Transition env (.claimPayout callId payout) f.store _ _ :=
      .paidOut hconfig hc hauth hpayout
    unfold receivePayout at hreceive
    split at hreceive
    · next hpositive =>
      simp only [run_env_bind, transferToken, run_tokenTransfer] at hreceive
      obtain ⟨tokens, htransfer, rfl⟩ := hreceive
      rw [if_pos hpositive] at hmade
      exact ⟨_, rfl, .event (Replays.nil.transfer htransfer), hmade⟩
    · next hnothing =>
      cases hreceive
      rw [if_neg hnothing] at hmade
      exact ⟨_, rfl, .event .nil, hmade⟩

end Specs

end Backit.IndexFund
