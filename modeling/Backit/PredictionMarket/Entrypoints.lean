import Backit.PredictionMarket.Storage

/-!
# The entry points of a market

## Stakes and limit orders

A stake collects the tokens, records the stake and then fills the open orders whose price has been
reached, oldest first and at most twenty of them examined. An order holds its tokens in the
market from its creation until it is filled, cancelled by its owner, or refunded once expired.
-/

namespace Backit.PredictionMarket

open Soroban Contract Lib

def maxOrderTtlSecs : Nat := 7 * 24 * 3600

def defaultExpiredOrderRefundBps : Nat := 50

def maxOrdersMatchedPerStake : Nat := 20

/-- The sentinel address that stands for native XLM. -/
def nativeXlm : Address := ⟨0⟩

def isNativeXlm (token : Address) : Bool := token = nativeXlm

/-- A checked operation, or the overflow error. -/
def orOverflow (result : Option Int) : Except MarketError Int :=
  match result with
  | some value => .ok value
  | none => .error .overflow

/-- The sum of a list of amounts, every running total of which is checked. -/
def checkedSum (amounts : List Int) : Option Int :=
  if SumFits 0 amounts then some amounts.sum else none

namespace Call

variable (call : Call)

/-- The outcome positions. -/
def positions : List Nat := (List.range call.outcomeCount).map (· + 1)

/-- The stakes recorded on a position. -/
def stakesOn (position : Nat) : Map Address Int := (call.stakes.lookup position).getD ∅

/-- The call with a position's pool and a staker's entry replaced. -/
def withStake (position : Nat) (staker : Address) (pool stake : Int) : Call :=
  { call with
    outcomeStakes := call.outcomeStakes.insert position pool
    stakes := call.stakes.insert position ((call.stakesOn position).insert staker stake) }

end Call

def totalCallStake (call : Call) : Option Int :=
  checkedSum (call.positions.map (valueAt call.outcomeStakes))

def checkMaxStake (config : MarketConfig) (current amount : Int) : Except MarketError Int := do
  let updated ← orOverflow (checkedAdd current amount)
  if 0 < config.maxStakePerUser ∧ config.maxStakePerUser < updated then
    .error .invalidStakeAmount
  else .ok updated

/-- The staker's entry and the position's pool after a stake. -/
def stakeTotals (config : MarketConfig) (call : Call) (staker : Address) (amount : Int)
    (position : Nat) : Except MarketError (Int × Int) := do
  let stake ← checkMaxStake config (valueAt (call.stakesOn position) staker) amount
  let pool ← orOverflow (checkedAdd (valueAt call.outcomeStakes position) amount)
  .ok (stake, pool)

/-- The implied probability, in basis points, at which an order is filled now. There is none while
the order is expired, another call's, or waits for a lower one. -/
def fillPrice (call : Call) (callId now : Nat) (order : LimitOrder) : Option Int :=
  if order.callId ≠ callId ∨ order.expiresAt ≤ now then none
  else do
    let totalStake ← totalCallStake call
    if 0 < totalStake then do
      let product ← checkedMul (valueAt call.outcomeStakes order.outcome) 10000
      let impliedBps ← checkedDiv product totalStake
      if order.targetProbabilityBps < impliedBps then none else some impliedBps
    else none

variable {T : Type}

/-- Remember when a user first staked on a position, and count the user if that is early. -/
def trackEarlyStake (config : MarketConfig) (call : Call) (staker : Address) (position : Nat) :
    Market T Unit := do
  let environment ← env
  let s ← getStore
  if s.pool.userStakeTimestamp (staker, position) = 0 then do
    modifyStore (·.onPool (·.setUserStakeTimestamp staker position environment.timestamp))
    let bonusDeadline ← unsigned 64 (call.createdAt + config.earlyStakerBonusWindowSecs)
    if environment.timestamp < bonusDeadline then do
      let count ← unsigned 64 (s.pool.earlyStakerCount + 1)
      modifyStore (·.onPool (·.setEarlyStakerCount count))
    else pure ()
  else pure ()

/-- Record a stake whose tokens are in the market already. An error has changed nothing. -/
def applyStake (config : MarketConfig) (call : Call) (staker : Address) (amount : Int)
    (position : Nat) : Market T (Except MarketError Call) :=
  match stakeTotals config call staker amount position with
  | .error e => pure (.error e)
  | .ok (stake, pool) => do
      modifyStore (·.onPool (·.setUserStake staker position stake))
      trackEarlyStake config call staker position
      pure (.ok (call.withStake position staker pool stake))

/-- Examine one listed order: the call after it, and whether the order stays listed. -/
def matchOrder (config : MarketConfig) (callId orderId : Nat) (call : Call) :
    Market T (Call × Bool) := do
  let s ← getStore
  match s.book.limitOrders.lookup orderId with
  | none => pure (call, false)
  | some order => do
      let environment ← env
      match fillPrice call callId environment.timestamp order with
      | none => pure (call, true)
      | some impliedBps => do
          let applied ← applyStake config call order.user order.amount order.outcome
          match applied with
          | .error _ => pure (call, true)
          | .ok filled => do
              modifyStore (·.onBook (·.removeLimitOrder order.id))
              publish (.limitOrderFilled order.id callId order.user order.outcome order.amount
                impliedBps)
              modifyStore (·.onBook (·.removeIdFromUserOrders order.user order.id))
              pure (filled, false)

/-- The loop over the listed orders, with the number that may still be examined: the call after
it, the ids that stay listed, and whether any was dropped. -/
def matchFrom (config : MarketConfig) (callId : Nat) :
    Nat → List Nat → Call → List Nat → Bool → Market T (Call × List Nat × Bool)
  | _, [], call, remaining, changed => pure (call, remaining, changed)
  | 0, ids, call, remaining, changed => pure (call, remaining ++ ids, changed)
  | budget + 1, orderId :: rest, call, remaining, changed => do
      let (matched, kept) ← matchOrder config callId orderId call
      if kept then
        matchFrom config callId budget rest matched (remaining ++ [orderId]) changed
      else matchFrom config callId budget rest matched remaining true

def matchLimitOrders (config : MarketConfig) (call : Call) (callId : Nat) : Market T Call := do
  let openIds := (← getStore).book.openOrdersByCall callId
  let (matched, remaining, changed) ←
    matchFrom config callId maxOrdersMatchedPerStake openIds call [] false
  if changed then modifyStore (·.onBook (·.setOpenOrderIdsForCall callId remaining))
  else pure ()
  pure matched

/-- The checks that a stake and a new order share. -/
def checkOpen (config : MarketConfig) (call : Call) (position : Nat) : Market T Unit := do
  let environment ← env
  rejectIf (call.endTs ≤ environment.timestamp) (.error .callEnded)
  rejectIf (0 < config.stakingCutoffSecs ∧ config.stakingCutoffSecs < call.endTs ∧
    call.endTs - config.stakingCutoffSecs ≤ environment.timestamp) (.error .stakingCutoffActive)
  rejectIf (call.settled = true ∨ call.cancelled = true ∨ call.voided = true) (.error .callSettled)
  rejectIf (position < 1 ∨ call.outcomeCount < position) (.error .invalidPosition)

variable [Tokens T]

/-- The native asset and wrapped tokens have distinct clients with the same `transfer`. -/
def transferToken (stakeToken sender recipient : Address) (amount : Int) : Market T Unit :=
  if isNativeXlm stakeToken then tokenTransfer stakeToken sender recipient amount
  else tokenTransfer stakeToken sender recipient amount

def stakeOnCall (staker : Address) (callId : Nat) (amount : Int) (position : Nat) :
    Market T Call := do
  requireAuth staker
  withLock do
    let config ← requireConfig
    requireCallId config callId
    rejectIf (config.paused = true) (.error .contractPaused)
    rejectIf (amount ≤ 0 ∨ amount < config.minStake) (.error .invalidStakeAmount)
    let call ← requireCall
    checkOpen config call position
    let _ ← raise (checkMaxStake config (valueAt (call.stakesOn position) staker) amount)
    let environment ← env
    transferToken call.stakeToken staker environment.contract amount
    let applied ← applyStake config call staker amount position
    let staked ← raise applied
    modifyStore (·.setCall staked)
    publish (.stakeAdded callId staker amount position)
    let matched ← matchLimitOrders config staked callId
    modifyStore (·.setCall matched)
    pure matched

def createLimitOrder (user : Address) (callId outcome : Nat) (amount : Int)
    (targetImpliedProbabilityBps ttlSecs : Nat) : Market T Nat := do
  requireAuth user
  withLock do
    let config ← requireConfig
    requireCallId config callId
    rejectIf (config.paused = true) (.error .contractPaused)
    let call ← requireCall
    checkOpen config call outcome
    rejectIf (amount ≤ 0 ∨ amount < config.minStake) (.error .invalidStakeAmount)
    rejectIf (10000 < targetImpliedProbabilityBps) (.error .invalidTargetProbability)
    rejectIf (ttlSecs = 0 ∨ maxOrderTtlSecs < ttlSecs) (.error .invalidOrderTtl)
    let s ← getStore
    let _ ← raise (checkMaxStake config (s.pool.userStake (user, outcome)) amount)
    let environment ← env
    transferToken call.stakeToken user environment.contract amount
    let orderId ← nextOrderId
    let expiresAt ← unwrap (checkedAddU64 environment.timestamp ttlSecs) (.error .overflow)
    let order : LimitOrder :=
      ⟨orderId, user, callId, outcome, amount, targetImpliedProbabilityBps,
        environment.timestamp, expiresAt⟩
    modifyStore (·.onBook (·.enter order))
    publish (.limitOrderCreated orderId callId user outcome amount targetImpliedProbabilityBps
      expiresAt)
    pure orderId

def cancelLimitOrder (user : Address) (orderId : Nat) : Market T Unit := do
  requireAuth user
  withLock do
    let order ← requireLimitOrder orderId
    rejectIf (order.user ≠ user) (.error .notOrderOwner)
    let call ← requireCall
    let environment ← env
    transferToken call.stakeToken environment.contract user order.amount
    modifyStore (·.onBook (·.close order))
    publish (.limitOrderCancelled orderId order.callId user order.amount)

/-- A transfer out of the market, unless the amount is zero. -/
def payOut (stakeToken recipient : Address) (amount : Int) : Market T Unit := do
  let environment ← env
  if 0 < amount then transferToken stakeToken environment.contract recipient amount else pure ()

/-- The reward for refunding an expired order of an amount, and what is left for its owner. -/
def refundParts (config : MarketConfig) (amount : Int) : Except MarketError (Int × Int) := do
  let product ← orOverflow (checkedMul amount config.expiredOrderRefundBps)
  let reward ← orOverflow (checkedDiv product 10000)
  let refundToUser ← orOverflow (checkedSub amount reward)
  .ok (reward, refundToUser)

def refundExpiredOrder (caller : Address) (orderId : Nat) : Market T Unit := do
  requireAuth caller
  withLock do
    let order ← requireLimitOrder orderId
    let environment ← env
    rejectIf (environment.timestamp < order.expiresAt) (.error .orderNotExpired)
    let config ← requireConfig
    let call ← requireCall
    let (reward, refundToUser) ← raise (refundParts config order.amount)
    payOut call.stakeToken caller reward
    payOut call.stakeToken order.user refundToUser
    modifyStore (·.onBook (·.close order))
    publish (.limitOrderExpiredRefunded orderId order.callId order.user refundToUser reward caller)

end Backit.PredictionMarket

/-!
## Deployment, settlement and rollover

The constructor, the entry points of the outcome manager, and the rollover of a payout into a new
market. The other contracts that a rollover calls are seen through `Peers`.
-/

namespace Backit.PredictionMarket

open Soroban Contract Lib

/-- The manager, the factory and other markets, as seen through the calls that reach them. `none`
is a call that traps. -/
class Peers (P : Type) extends Tokens P where
  feeConfig : Env → Address → P → Option (Nat × Address)
  deployMarket : Env → Address → Address → MarketInitArgs → P → Option (Address × P)
  getCallId : Env → Address → P → Option Nat
  claimPayoutNoRelease : Env → Address → Nat → Address → Int → Int → Int → P → Option P
  stakeOnCall : Env → Address → Address → Nat → Int → Nat → P → Option P
  storeRolloverChain : Env → Address → Nat → List RolloverLink → P → Option P
  setParentCall : Env → Address → Nat → Nat → Int → P → Option P

variable {T : Type}

/-- `env.invoke_contract` of a call that returns a value and changes nothing. -/
def queryPeer {α : Type} (query : Env → T → Option α) : Market T α := fun env f =>
  match query env f.tokens with
  | some a => .ok (a, f)
  | none => .error .external

/-- `env.invoke_contract` of a call that returns a value. -/
def callPeerFor {α : Type} (call : Env → T → Option (α × T)) : Market T α := fun env f =>
  match call env f.tokens with
  | some (a, tokens) => .ok (a, { f with tokens := tokens })
  | none => .error .external

/-- `env.invoke_contract` of a call that returns nothing of interest. -/
def callPeer (call : Env → T → Option T) : Market T Unit := fun env f =>
  match call env f.tokens with
  | some tokens => .ok ((), { f with tokens := tokens })
  | none => .error .external

/-- A map with a value for each of the positions. -/
def forPositions {V : Type} (outcomeCount : Nat) (value : V) : Map Nat V :=
  (List.range outcomeCount).foldl (fun m i => m.insert (i + 1) value) ∅

/-- The call a market is deployed with. -/
def MarketInitArgs.call (args : MarketInitArgs) (callId : Nat) (creator : Address)
    (createdAt : Nat) : Call where
  id := callId
  creator := creator
  stakeToken := args.stakeToken
  stakeAmount := args.stakeAmount
  endTs := args.endTs
  tokenAddress := args.tokenAddress
  pairId := args.pairId
  metadataHash := args.metadataHash
  outcomeCount := args.outcomeCount
  outcomeStakes := forPositions args.outcomeCount 0
  stakes := forPositions args.outcomeCount ∅
  outcome := 0
  startPrice := args.startPrice
  endPrice := 0
  condition := args.condition
  settled := false
  voided := false
  createdAt := createdAt
  cancelled := false
  metadataVersion := 0
  shareTokens := ∅
  parentCallId := none
  rolledAmount := 0

/-- `__constructor`. -/
def construct (callId : Nat) (creator outcomeManager factory : Address)
    (minStake maxStakePerUser : Int) (stakingCutoffSecs : Nat) (args : MarketInitArgs) :
    Market T Unit := do
  rejectIf ((← getStore).config.isSome = true) (.error .alreadyInitialized)
  rejectIf (args.stakeAmount < minStake ∨ args.stakeAmount ≤ 0) (.error .invalidStakeAmount)
  rejectIf (args.startPrice ≤ 0) (.error .invalidStakeAmount)
  rejectIf (args.outcomeCount < 2) (.error .invalidOutcomeCount)
  let environment ← env
  rejectIf (args.endTs ≤ environment.timestamp) (.error .invalidEndTime)
  modifyStore (·.setConfig
    ⟨callId, creator, outcomeManager, factory, minStake, maxStakePerUser, stakingCutoffSecs, false,
      3600, 200, defaultExpiredOrderRefundBps⟩)
  modifyStore (·.setCall (args.call callId creator environment.timestamp))
  publish (.initialized callId creator args.stakeToken args.endTs)
  publish (.created callId creator args.stakeToken args.stakeAmount args.startPrice args.endTs
    args.tokenAddress args.pairId args.metadataHash args.outcomeCount)

def resolveCall (callId outcome : Nat) (endPrice : Int) : Market T Call := do
  let config ← requireConfig
  requireCallId config callId
  requireAuth config.outcomeManager
  withLock do
    let call ← requireCall
    rejectIf (outcome < 1 ∨ call.outcomeCount < outcome) (.error .invalidOutcome)
    let environment ← env
    rejectIf (environment.timestamp < call.endTs) (.error .callNotEnded)
    rejectIf (call.voided = true) (.error .unauthorized)
    let resolved := { call with outcome := outcome, endPrice := endPrice }
    modifyStore (·.setCall resolved)
    publish (.resolved callId outcome endPrice)
    pure resolved

def markSettled (callId : Nat) : Market T Unit := do
  let config ← requireConfig
  requireCallId config callId
  requireAuth config.outcomeManager
  let call ← requireCall
  rejectIf (call.settled = true) (.error .callSettled)
  modifyStore (·.setCall { call with settled := true })

/-- Anyone may link a market that has no parent yet. -/
def setParentCall (callId parentCallId : Nat) (rolledAmount : Int) : Market T Unit := do
  let config ← requireConfig
  requireCallId config callId
  let call ← requireCall
  rejectIf (call.parentCallId.isSome = true) (.error .unauthorized)
  modifyStore (·.setCall
    { call with parentCallId := some parentCallId, rolledAmount := rolledAmount })

def storeRolloverChain (callId : Nat) (chain : List RolloverLink) : Market T Unit := do
  let config ← requireConfig
  requireCallId config callId
  let s ← getStore
  rejectIf (s.rolloverChain callId ≠ []) (.error .unauthorized)
  modifyStore (·.setRolloverChain callId chain)

/-- The payout of a winning stake after the fee on the whole pool. -/
def rolloverPayout (winningStake totalWinning totalStake : Int) (feeBps : Nat) :
    Except MarketError Int := do
  let totalLosing ← orOverflow (checkedSub totalStake totalWinning)
  let feeProduct ← orOverflow (checkedMul totalStake feeBps)
  let totalFee ← orOverflow (checkedDiv feeProduct 10000)
  let netLosing ← orOverflow (checkedSub totalLosing totalFee)
  if 0 < netLosing ∧ 0 < totalWinning then do
    let prizeProduct ← orOverflow (checkedMul winningStake netLosing)
    let prizeShare ← orOverflow (checkedDiv prizeProduct totalWinning)
    orOverflow (checkedAdd winningStake prizeShare)
  else .ok winningStake

/-- How a payout is divided: the amount rolled over, the rest, the bonus, and the new stake. -/
structure RolloverSplit where
  rolled : Int
  paidOut : Int
  bonus : Int
  newStake : Int

def rolloverSplit (payout : Int) (percentageBps : Nat) : Except MarketError RolloverSplit := do
  let product ← orOverflow (checkedMul payout percentageBps)
  let rolled ← orOverflow (checkedDiv product 10000)
  let paidOut ← orOverflow (checkedSub payout rolled)
  let bonus ← orOverflow (checkedDiv rolled 100)
  let newStake ← orOverflow (checkedAdd rolled bonus)
  .ok ⟨rolled, paidOut, bonus, newStake⟩

section Tokens

variable [Tokens T]

def releaseEscrow (callId : Nat) (recipient : Address) (amount : Int) : Market T Unit := do
  let config ← requireConfig
  requireCallId config callId
  requireAuth config.outcomeManager
  let call ← requireCall
  let environment ← env
  transferToken call.stakeToken environment.contract recipient amount

end Tokens

variable [Peers T]

/-- Pay a winner out and stake a part of the payout on a new market. The manager records the claim
without releasing it, because the market has paid. -/
def claimAndRollover (user : Address) (callId : Nat) (rollover : RolloverConfig) :
    Market T Nat := do
  requireAuth user
  let config ← requireConfig
  requireCallId config callId
  let call ← requireCall
  rejectIf (call.settled = false ∨ call.outcome = 0) (.error .callNotSettled)
  rejectIf (call.voided = true ∨ call.cancelled = true) (.error .unauthorized)
  let winningStake := valueAt (call.stakesOn call.outcome) user
  rejectIf (winningStake ≤ 0) (.error .noWinningStake)
  rejectIf (10000 < rollover.rolloverPercentageBps) (.error .invalidRolloverPercentage)
  rejectIf ((← getStore).userClaimed (callId, user) = true) (.error .callSettled)
  let totalStake ← unwrap (totalCallStake call) (.error .overflow)
  let totalWinning := valueAt call.outcomeStakes call.outcome
  let totalLosing ← raise (orOverflow (checkedSub totalStake totalWinning))
  let (feeBps, _) ← queryPeer fun env p => Peers.feeConfig env config.outcomeManager p
  let payout ← raise (rolloverPayout winningStake totalWinning totalStake feeBps)
  let split ← raise (rolloverSplit payout rollover.rolloverPercentageBps)
  rejectIf (split.newStake < config.minStake) (.error .rolloverInsufficientAmount)
  let environment ← env
  let newEndTs ← unwrap (checkedAddU64 environment.timestamp rollover.newDurationSecs)
    (.error .overflow)
  let newArgs : MarketInitArgs :=
    ⟨call.stakeToken, split.newStake, call.endPrice, newEndTs, call.tokenAddress, call.pairId,
      call.metadataHash, rollover.newCondition, call.outcomeCount⟩
  let newMarket ← callPeerFor fun env p => Peers.deployMarket env config.factory user newArgs p
  let newCallId ← queryPeer fun env p => Peers.getCallId env newMarket p
  transferToken call.stakeToken environment.contract user payout
  callPeer fun env p => Peers.claimPayoutNoRelease env config.outcomeManager callId user
    winningStake totalWinning totalLosing p
  modifyStore (·.setUserClaimed callId user)
  if 0 < split.rolled then
    callPeer fun env p => Peers.stakeOnCall env newMarket user newCallId split.rolled 1 p
  else pure ()
  if 0 < split.bonus then
    transferToken call.stakeToken environment.contract newMarket split.bonus
  else pure ()
  callPeer fun env p => Peers.storeRolloverChain env newMarket newCallId
    [⟨callId, call.condition, split.rolled, environment.timestamp⟩] p
  callPeer fun env p => Peers.setParentCall env newMarket newCallId callId split.rolled p
  publish (.payoutRolledOver callId newCallId user split.rolled split.paidOut)
  pure newCallId

end Backit.PredictionMarket
