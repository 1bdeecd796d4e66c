import Backit.LendingPool.Markets
import Backit.Soroban.Execution

/-!
# A lending pool over prediction markets

Depositors hold shares of a pool, and anyone may have the pool stake a part of its capital on open
markets. The pool stakes as itself. Once a market has an outcome, anyone may have the pool claim
what it has won, and the share price follows.
-/

namespace Backit.LendingPool

open Soroban Contract Lib PredictionMarketFactory
open PredictionMarket (Call)

/-- The contract's error codes that its entry points return. -/
inductive LendingPoolError where
  | alreadyInitialized
  | notInitialized
  | invalidAmount
  | belowMinDeposit
  | poolFull
  | insufficientShares
  | zeroSupply
  | insufficientLiquidity
  | overflow
  | poolTooSmall
  | emptyInput
  | allocationNotFound
  | alreadyHarvested
  | marketNotResolved
  | marketCallFailed
  | invalidBps
  | invalidConfig
  deriving DecidableEq

structure PoolConfig where
  admin : Address
  treasury : Address
  stakeToken : Address
  predictionMarketFactory : Address
  outcomeManager : Address
  minDeposit : Int
  maxPoolSize : Int
  minAllocationPoolSize : Int
  maxAllocationBpsPerMarket : Nat
  protocolFeeBps : Nat
  edgeThresholdBps : Nat
  deriving DecidableEq

/-- A stake of the pool in a market. -/
structure Allocation where
  callId : Nat
  marketAddress : Address
  position : Nat
  amount : Int
  settled : Bool
  won : Bool
  payout : Int
  createdAt : Nat
  deriving DecidableEq

structure YieldEvent where
  timestamp : Nat
  netYield : Int
  deriving DecidableEq

structure MarketAllocationInput where
  callId : Nat
  oracleProbabilityBps : Nat
  deriving DecidableEq

/-- What came of a market that the pool considered. -/
inductive AllocationOutcome where
  | allocated (amount : Int) (position : Nat)
  | skippedEdgeTooSmall
  | skippedAlreadyOpen
  | skippedNotBinary
  | skippedMarketUnavailable
  | skippedTokenMismatch
  | skippedInvalidOracleProbability
  | skippedInsufficientLiquidity
  | skippedStakeRejected
  deriving DecidableEq

inductive Event where
  | deposited (user : Address) (amount lpSharesMinted : Int)
  | withdrawn (user : Address) (lpSharesBurned amountOut : Int)
  | capitalAllocated (callId : Nat) (marketAddress : Address) (position : Nat) (amount : Int)
  | yieldHarvested (callId : Nat) (won : Bool) (grossChange protocolFee netYield : Int)
  deriving DecidableEq

structure Storage where
  config : Option PoolConfig
  totalLpShares : Int
  totalDeposited : Int
  totalYieldEarned : Int
  totalFeesPaid : Int
  totalAllocatedLocked : Int
  lpShares : Map Address Int
  allocation : Nat → Option Allocation
  openCallIds : List Nat
  yieldEvents : List YieldEvent

namespace Storage

/-- The storage of a freshly deployed contract. -/
def empty : Storage := ⟨none, 0, 0, 0, 0, 0, ∅, fun _ => none, [], []⟩

variable (s : Storage)

def setConfig (config : PoolConfig) : Storage := { s with config := some config }

def setTotalLpShares (amount : Int) : Storage := { s with totalLpShares := amount }

def setTotalDeposited (amount : Int) : Storage := { s with totalDeposited := amount }

def setTotalYieldEarned (amount : Int) : Storage := { s with totalYieldEarned := amount }

def setTotalFeesPaid (amount : Int) : Storage := { s with totalFeesPaid := amount }

def setTotalAllocatedLocked (amount : Int) : Storage := { s with totalAllocatedLocked := amount }

def setLpShares (user : Address) (amount : Int) : Storage :=
  { s with lpShares := s.lpShares.insert user amount }

def setAllocation (allocation : Allocation) : Storage :=
  { s with allocation := Function.update s.allocation allocation.callId (some allocation) }

def addOpenCallId (callId : Nat) : Storage := { s with openCallIds := s.openCallIds ++ [callId] }

def removeOpenCallId (callId : Nat) : Storage :=
  { s with openCallIds := s.openCallIds.filter (· ≠ callId) }

def setYieldEvents (events : List YieldEvent) : Storage := { s with yieldEvents := events }

end Storage

def bpsScale : Int := 10000

/-- Seven days. -/
def apyWindowSecs : Nat := 7 * 86400

def defaultMaxAllocationBps : Nat := 500

def defaultProtocolFeeBps : Nat := 1000

def defaultEdgeThresholdBps : Nat := 100

def maxBps : Nat := 10000

/-- A computation of an entry point. -/
abbrev Pool (P α : Type) := Contract (Frame Storage P Event) LendingPoolError α

variable {P : Type} [Markets P]

/-- The result of a checked operation, or `Overflow`. -/
def orOverflow (result : Option Int) : Pool P Int := unwrap result (.error .overflow)

def getConfig : Pool P PoolConfig := do
  unwrap (← getStore).config (.error .notInitialized)

/-- The native asset's contract and any other token are called alike. -/
def transferToken (token sender recipient : Address) (amount : Int) : Pool P Unit :=
  tokenTransfer token sender recipient amount

/-- The pool's balance of a token. -/
def poolBalance (token : Address) : Pool P Int := do
  tokenBalance token (← env).contract

def otherPosition (position : Nat) : Nat := if position = 1 then 2 else 1

/-- The pool's liquid balance and what it has staked. -/
def computeTvl (config : PoolConfig) : Pool P Int := do
  let liquid ← poolBalance config.stakeToken
  orOverflow (checkedAdd liquid (← getStore).totalAllocatedLocked)

/-- The yield events with one more, without those that have left the window. -/
def recordYieldEvent (now : Nat) (netYield : Int) (s : Storage) : Storage :=
  s.setYieldEvents
    (s.yieldEvents.filter (fun e => now - e.timestamp ≤ apyWindowSecs) ++ [⟨now, netYield⟩])

/-- The factory is called without a catch: when it knows no market for the call, the invocation
traps. -/
def resolveMarketAddress (config : PoolConfig) (callId : Nat) : Pool P Address := fun _ f =>
  match MarketViews.getMarket f.tokens config.predictionMarketFactory callId with
  | some market => .ok (market, f)
  | none => .error .external

/-- `market.try_get_call(..)`. -/
def tryGetCall (market : Address) (callId : Nat) : Pool P (Option Call) :=
  fun _ f => .ok (MarketViews.getCall f.tokens market callId, f)

/-- `market.try_stake_on_call(..)`, by the pool itself: whether it succeeded. -/
def tryStakeOnCall (market : Address) (callId : Nat) (amount : Int) (position : Nat) :
    Pool P Bool := fun env f =>
  match Markets.stakeOnCall env market env.contract callId amount position f.tokens with
  | some peers => .ok (true, { f with tokens := peers })
  | none => .ok (false, f)

/-- The claim of the pool at the outcome manager. -/
def claimPayoutForMarket (config : PoolConfig) (callId : Nat)
    (stakerWinningStake totalWinningStake totalLosingStake : Int) : Pool P Unit := fun env f =>
  match Markets.claimPayoutForMarket env config.outcomeManager callId env.contract
      stakerWinningStake totalWinningStake totalLosingStake f.tokens with
  | some peers => .ok ((), { f with tokens := peers })
  | none => .error (.error .marketCallFailed)

/-- The entry point `initialize`. -/
def initializePool (admin treasury stakeToken predictionMarketFactory outcomeManager : Address)
    (minDeposit maxPoolSize minAllocationPoolSize : Int) : Pool P Unit := do
  rejectIf ((← getStore).config.isSome = true) (.error .alreadyInitialized)
  requireAuth admin
  rejectIf (minDeposit ≤ 0 ∨ maxPoolSize ≤ 0 ∨ minAllocationPoolSize ≤ 0) (.error .invalidConfig)
  rejectIf (maxPoolSize < minAllocationPoolSize) (.error .invalidConfig)
  modifyStore (·.setConfig
    { admin := admin, treasury := treasury, stakeToken := stakeToken
      predictionMarketFactory := predictionMarketFactory, outcomeManager := outcomeManager
      minDeposit := minDeposit, maxPoolSize := maxPoolSize
      minAllocationPoolSize := minAllocationPoolSize
      maxAllocationBpsPerMarket := defaultMaxAllocationBps
      protocolFeeBps := defaultProtocolFeeBps, edgeThresholdBps := defaultEdgeThresholdBps })

/-- The shares that a deposit mints. -/
def lpSharesFor (totalSupply tvlBefore amount : Int) : Pool P Int := do
  if totalSupply ≤ 0 ∨ tvlBefore ≤ 0 then pure amount
  else do
    let scaled ← orOverflow (checkedMul amount totalSupply)
    orOverflow (checkedDiv scaled tvlBefore)

def deposit (user : Address) (amount : Int) : Pool P Int := do
  requireAuth user
  let config ← getConfig
  rejectIf (amount ≤ 0) (.error .invalidAmount)
  rejectIf (amount < config.minDeposit) (.error .belowMinDeposit)
  let tvlBefore ← computeTvl config
  let newTvl ← orOverflow (checkedAdd tvlBefore amount)
  rejectIf (config.maxPoolSize < newTvl) (.error .poolFull)
  let totalSupply := (← getStore).totalLpShares
  let lpShares ← lpSharesFor totalSupply tvlBefore amount
  rejectIf (lpShares ≤ 0) (.error .invalidAmount)
  transferToken config.stakeToken user (← env).contract amount
  let newSupply ← orOverflow (checkedAdd totalSupply lpShares)
  modifyStore (·.setTotalLpShares newSupply)
  let newDeposited ← orOverflow (checkedAdd (← getStore).totalDeposited amount)
  modifyStore (·.setTotalDeposited newDeposited)
  let newShares ← orOverflow (checkedAdd (valueAt (← getStore).lpShares user) lpShares)
  modifyStore (·.setLpShares user newShares)
  publish (.deposited user amount lpShares)
  pure lpShares

def withdraw (user : Address) (lpAmount : Int) : Pool P Int := do
  requireAuth user
  let config ← getConfig
  rejectIf (lpAmount ≤ 0) (.error .invalidAmount)
  let userShares := valueAt (← getStore).lpShares user
  rejectIf (userShares < lpAmount) (.error .insufficientShares)
  let totalSupply := (← getStore).totalLpShares
  rejectIf (totalSupply ≤ 0) (.error .zeroSupply)
  let tvl ← computeTvl config
  let scaled ← orOverflow (checkedMul lpAmount tvl)
  let amountOut ← orOverflow (checkedDiv scaled totalSupply)
  let liquid ← poolBalance config.stakeToken
  rejectIf (liquid < amountOut) (.error .insufficientLiquidity)
  let newSupply ← orOverflow (checkedSub totalSupply lpAmount)
  modifyStore (·.setTotalLpShares newSupply)
  let newShares ← orOverflow (checkedSub userShares lpAmount)
  modifyStore (·.setLpShares user newShares)
  transferToken config.stakeToken (← env).contract user amountOut
  publish (.withdrawn user lpAmount amountOut)
  pure amountOut

/-- Why the pool does not stake on a call, if the call alone decides it. -/
def skipReason (config : PoolConfig) (now : Nat) (call : Call) : Option AllocationOutcome :=
  if call.stakeToken ≠ config.stakeToken then some .skippedTokenMismatch
  else if call.outcomeCount ≠ 2 then some .skippedNotBinary
  else if call.settled = true ∨ call.cancelled = true ∨ call.voided = true ∨ call.outcome ≠ 0 ∨
      call.endTs ≤ now then some .skippedMarketUnavailable
  else none

/-- The market's implied probability of the first outcome, converted to a `u32`. -/
def marketImpliedBps (call : Call) : Pool P Nat := do
  let totalStakes ← orOverflow
    (checkedAdd (valueAt call.outcomeStakes 1) (valueAt call.outcomeStakes 2))
  if totalStakes ≤ 0 then pure 5000
  else do
    let scaled ← orOverflow (checkedMul (valueAt call.outcomeStakes 1) bpsScale)
    let bps ← orOverflow (checkedDiv scaled totalStakes)
    pure (bps % 2 ^ 32).toNat

/-- How far the oracle's probability is from the market's. -/
def edgeBetween (oracleBps marketImpliedBps : Nat) : Nat :=
  if marketImpliedBps < oracleBps then oracleBps - marketImpliedBps
  else marketImpliedBps - oracleBps

/-- What the pool stakes on a market with an edge, at most its liquid balance. -/
def allocationAmount (config : PoolConfig) (tvl liquidRemaining : Int) (edgeBps : Nat) :
    Pool P Int := do
  let rawScaled ← orOverflow (checkedMul tvl edgeBps)
  let rawAlloc ← orOverflow (checkedDiv rawScaled bpsScale)
  let capScaled ← orOverflow (checkedMul tvl config.maxAllocationBpsPerMarket)
  let cap ← orOverflow (checkedDiv capScaled bpsScale)
  pure (min (min rawAlloc cap) liquidRemaining)

/-- Stake on a market whose call the pool has chosen. Returns what came of it and the liquid balance
that remains. -/
def stakeOnMarket (market : Address) (callId : Nat) (position : Nat)
    (amount liquidRemaining : Int) : Pool P (AllocationOutcome × Int) := do
  if (← tryStakeOnCall market callId amount position) = true then do
    let remaining ← orOverflow (checkedSub liquidRemaining amount)
    let locked ← orOverflow (checkedAdd (← getStore).totalAllocatedLocked amount)
    modifyStore (·.setTotalAllocatedLocked locked)
    modifyStore (·.setAllocation
      { callId := callId, marketAddress := market, position := position, amount := amount
        settled := false, won := false, payout := 0, createdAt := (← env).timestamp })
    modifyStore (·.addOpenCallId callId)
    publish (.capitalAllocated callId market position amount)
    pure (.allocated amount position, remaining)
  else pure (.skippedStakeRejected, liquidRemaining)

/-- Consider a call of a market: stake on it, or say why not. -/
def considerCall (config : PoolConfig) (tvl : Int) (market : Address) (call : Call)
    (input : MarketAllocationInput) (liquidRemaining : Int) :
    Pool P (AllocationOutcome × Int) := do
  match skipReason config (← env).timestamp call with
  | some reason => pure (reason, liquidRemaining)
  | none => do
      let marketBps ← marketImpliedBps call
      let oracleBps := input.oracleProbabilityBps
      let edgeBps := edgeBetween oracleBps marketBps
      if edgeBps < config.edgeThresholdBps then pure (.skippedEdgeTooSmall, liquidRemaining)
      else do
        let position := if marketBps < oracleBps then 1 else 2
        let amount ← allocationAmount config tvl liquidRemaining edgeBps
        if amount ≤ 0 then pure (.skippedInsufficientLiquidity, liquidRemaining)
        else stakeOnMarket market input.callId position amount liquidRemaining

/-- One turn of the loop of `allocate_capital`. -/
def allocateTo (config : PoolConfig) (tvl : Int) (input : MarketAllocationInput)
    (liquidRemaining : Int) : Pool P (AllocationOutcome × Int) := do
  if maxBps < input.oracleProbabilityBps then
    pure (.skippedInvalidOracleProbability, liquidRemaining)
  else if ((← getStore).allocation input.callId).any (fun a => !a.settled) = true then
    pure (.skippedAlreadyOpen, liquidRemaining)
  else do
    let market ← resolveMarketAddress config input.callId
    match ← tryGetCall market input.callId with
    | none => pure (.skippedMarketUnavailable, liquidRemaining)
    | some call => considerCall config tvl market call input liquidRemaining

/-- The loop of `allocate_capital`. -/
def allocateEach (config : PoolConfig) (tvl : Int) :
    List MarketAllocationInput → Int → Pool P (List AllocationOutcome)
  | [], _ => pure []
  | input :: rest, liquidRemaining => do
      let considered ← allocateTo config tvl input liquidRemaining
      let results ← allocateEach config tvl rest considered.2
      pure (considered.1 :: results)

def allocateCapital (markets : List MarketAllocationInput) : Pool P (List AllocationOutcome) := do
  let config ← getConfig
  rejectIf (markets = []) (.error .emptyInput)
  let tvl ← computeTvl config
  rejectIf (tvl < config.minAllocationPoolSize) (.error .poolTooSmall)
  let liquidRemaining ← poolBalance config.stakeToken
  allocateEach config tvl markets liquidRemaining

/-- Claim what the pool has won in a market, if it has. Returns by how much its balance grew. -/
def claimWinnings (config : PoolConfig) (callId : Nat) (allocation : Allocation) (call : Call) :
    Pool P Int := do
  if call.outcome = allocation.position then do
    let balanceBefore ← poolBalance config.stakeToken
    claimPayoutForMarket config callId allocation.amount
      (valueAt call.outcomeStakes allocation.position)
      (valueAt call.outcomeStakes (otherPosition allocation.position))
    let balanceAfter ← poolBalance config.stakeToken
    orOverflow (checkedSub balanceAfter balanceBefore)
  else pure 0

/-- Pay a fee to the treasury, when there is one. -/
def payProtocolFee (config : PoolConfig) (fee : Int) : Pool P Unit := do
  if 0 < fee then do
    transferToken config.stakeToken (← env).contract config.treasury fee
    let fees ← orOverflow (checkedAdd (← getStore).totalFeesPaid fee)
    modifyStore (·.setTotalFeesPaid fees)
  else pure ()

/-- Take the protocol's fee off a profit. Returns the fee and the net yield. -/
def takeProtocolFee (config : PoolConfig) (grossChange : Int) : Pool P (Int × Int) := do
  if 0 < grossChange then do
    let scaled ← orOverflow (checkedMul grossChange config.protocolFeeBps)
    let fee ← orOverflow (checkedDiv scaled bpsScale)
    let net ← orOverflow (checkedSub grossChange fee)
    payProtocolFee config fee
    pure (fee, net)
  else pure (0, grossChange)

def harvestYield (callId : Nat) : Pool P Int := do
  let config ← getConfig
  let allocation ← unwrap ((← getStore).allocation callId) (.error .allocationNotFound)
  rejectIf (allocation.settled = true) (.error .alreadyHarvested)
  let call ← unwrap (← tryGetCall allocation.marketAddress callId) (.error .marketCallFailed)
  rejectIf (call.outcome = 0) (.error .marketNotResolved)
  let payout ← claimWinnings config callId allocation call
  let grossChange ← orOverflow (checkedSub payout allocation.amount)
  let won : Bool := call.outcome = allocation.position
  modifyStore (·.setAllocation { allocation with settled := true, won := won, payout := payout })
  modifyStore (·.removeOpenCallId callId)
  let locked ← orOverflow (checkedSub (← getStore).totalAllocatedLocked allocation.amount)
  modifyStore (·.setTotalAllocatedLocked locked)
  let split ← takeProtocolFee config grossChange
  let yield ← orOverflow (checkedAdd (← getStore).totalYieldEarned split.2)
  modifyStore (·.setTotalYieldEarned yield)
  modifyStore (recordYieldEvent (← env).timestamp split.2)
  publish (.yieldHarvested callId won grossChange split.1 split.2)
  pure split.2

/-- An admin's change of the configuration to a value that passes a check. -/
def changeConfig (invalid : Prop) [Decidable invalid] (error : LendingPoolError)
    (change : PoolConfig → PoolConfig) : Pool P Unit := do
  let config ← getConfig
  requireAuth config.admin
  rejectIf invalid (.error error)
  modifyStore (·.setConfig (change config))

def setMaxAllocBpsPerMarket (newBps : Nat) : Pool P Unit :=
  changeConfig (newBps = 0 ∨ maxBps < newBps) .invalidBps
    ({ · with maxAllocationBpsPerMarket := newBps })

def setProtocolFeeBps (newBps : Nat) : Pool P Unit :=
  changeConfig (maxBps < newBps) .invalidBps ({ · with protocolFeeBps := newBps })

def setEdgeThresholdBps (newBps : Nat) : Pool P Unit :=
  changeConfig (maxBps < newBps) .invalidBps ({ · with edgeThresholdBps := newBps })

def setMinDeposit (newMin : Int) : Pool P Unit :=
  changeConfig (newMin ≤ 0) .invalidConfig ({ · with minDeposit := newMin })

def setMaxPoolSize (newMax : Int) : Pool P Unit :=
  changeConfig (newMax ≤ 0) .invalidConfig ({ · with maxPoolSize := newMax })

/-- The entry points that change something. -/
inductive PoolOp where
  | initializePool (admin treasury stakeToken predictionMarketFactory outcomeManager : Address)
      (minDeposit maxPoolSize minAllocationPoolSize : Int)
  | deposit (user : Address) (amount : Int)
  | withdraw (user : Address) (lpAmount : Int)
  | allocateCapital (markets : List MarketAllocationInput)
  | harvestYield (callId : Nat)
  | setMaxAllocBpsPerMarket (newBps : Nat)
  | setProtocolFeeBps (newBps : Nat)
  | setEdgeThresholdBps (newBps : Nat)
  | setMinDeposit (newMin : Int)
  | setMaxPoolSize (newMax : Int)
  deriving DecidableEq

/-- Run an entry point. -/
def PoolOp.perform : PoolOp → Pool P Unit
  | .initializePool admin treasury stakeToken factory manager minDeposit maxPool minAllocation =>
    LendingPool.initializePool admin treasury stakeToken factory manager minDeposit maxPool
      minAllocation
  | .deposit user amount => ignore (LendingPool.deposit user amount)
  | .withdraw user lpAmount => ignore (LendingPool.withdraw user lpAmount)
  | .allocateCapital markets => ignore (LendingPool.allocateCapital markets)
  | .harvestYield callId => ignore (LendingPool.harvestYield callId)
  | .setMaxAllocBpsPerMarket newBps => LendingPool.setMaxAllocBpsPerMarket newBps
  | .setProtocolFeeBps newBps => LendingPool.setProtocolFeeBps newBps
  | .setEdgeThresholdBps newBps => LendingPool.setEdgeThresholdBps newBps
  | .setMinDeposit newMin => LendingPool.setMinDeposit newMin
  | .setMaxPoolSize newMax => LendingPool.setMaxPoolSize newMax

end Backit.LendingPool
