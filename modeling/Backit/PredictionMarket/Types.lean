import Backit.Soroban.Host

/-!
# Data of a prediction market

A market holds one call. The data types follow the source, with their fields in its order; the
`Call` mirrors the registry's, so that the outcome manager can read either.
-/

namespace Backit.PredictionMarket

open Soroban

/-- The price movement that decides the winning outcome. -/
inductive ConditionType where
  | targetAbove (target : Int)
  | targetBelow (target : Int)
  | percentUp (percent : Nat)
  | percentDown (percent : Nat)
  | range (low high : Int)
  deriving DecidableEq

/-- What the factory deploys a market with. -/
structure MarketInitArgs where
  stakeToken : Address
  stakeAmount : Int
  startPrice : Int
  endTs : Nat
  tokenAddress : Address
  pairId : Bytes
  metadataHash : BytesN 32
  condition : ConditionType
  outcomeCount : Nat
  deriving DecidableEq

/-- How a user rolls winnings over. -/
structure RolloverConfig where
  newCondition : ConditionType
  newDurationSecs : Nat
  rolloverPercentageBps : Nat
  deriving DecidableEq

/-- A step of a rollover chain. -/
structure RolloverLink where
  callId : Nat
  condition : ConditionType
  rolledAmount : Int
  timestamp : Nat
  deriving DecidableEq

/-- The market's call. `outcome` is zero while the call is unresolved. -/
structure Call where
  id : Nat
  creator : Address
  stakeToken : Address
  stakeAmount : Int
  endTs : Nat
  tokenAddress : Address
  pairId : Bytes
  metadataHash : BytesN 32
  outcomeCount : Nat
  outcomeStakes : Map Nat Int
  stakes : Map Nat (Map Address Int)
  outcome : Nat
  startPrice : Int
  endPrice : Int
  condition : ConditionType
  settled : Bool
  voided : Bool
  createdAt : Nat
  cancelled : Bool
  metadataVersion : Nat
  shareTokens : Map Nat Address
  parentCallId : Option Nat
  rolledAmount : Int

/-- The configuration set when the market is deployed. -/
structure MarketConfig where
  callId : Nat
  creator : Address
  outcomeManager : Address
  factory : Address
  minStake : Int
  maxStakePerUser : Int
  stakingCutoffSecs : Nat
  paused : Bool
  earlyStakerBonusWindowSecs : Nat
  earlyStakerBonusBps : Nat
  expiredOrderRefundBps : Nat
  deriving DecidableEq

/-- An order to stake once the implied probability of the outcome is low enough. -/
structure LimitOrder where
  id : Nat
  user : Address
  callId : Nat
  outcome : Nat
  amount : Int
  targetProbabilityBps : Nat
  createdAt : Nat
  expiresAt : Nat
  deriving DecidableEq

/-- The market's error codes. -/
inductive MarketError where
  | alreadyInitialized
  | notInitialized
  | invalidStakeAmount
  | invalidEndTime
  | callNotFound
  | callEnded
  | callSettled
  | invalidPosition
  | unauthorized
  | contractPaused
  | callNotEnded
  | invalidOutcome
  | invalidOutcomeCount
  | stakingCutoffActive
  | invalidCallId
  | reserveDiscrepancy
  | notEligibleForBonus
  | overflow
  | orderNotFound
  | notOrderOwner
  | invalidTargetProbability
  | invalidOrderTtl
  | orderNotExpired
  | invalidRolloverPercentage
  | noWinningStake
  | rolloverInsufficientAmount
  | callNotSettled
  deriving DecidableEq

/-- The events the market publishes. -/
inductive Event where
  | initialized (callId : Nat) (creator stakeToken : Address) (endTs : Nat)
  | created (callId : Nat) (creator stakeToken : Address) (stakeAmount startPrice : Int)
      (endTs : Nat) (tokenAddress : Address) (pairId : Bytes) (metadataHash : BytesN 32)
      (outcomeCount : Nat)
  | stakeAdded (callId : Nat) (staker : Address) (amount : Int) (position : Nat)
  | resolved (callId outcome : Nat) (endPrice : Int)
  | limitOrderCreated (orderId callId : Nat) (user : Address) (outcome : Nat) (amount : Int)
      (targetProbabilityBps expiresAt : Nat)
  | limitOrderFilled (orderId callId : Nat) (user : Address) (outcome : Nat) (amount : Int)
      (filledPrice : Int)
  | limitOrderCancelled (orderId callId : Nat) (user : Address) (refundedAmount : Int)
  | limitOrderExpiredRefunded (orderId callId : Nat) (user : Address)
      (refundedAmount rewardAmount : Int) (caller : Address)
  | payoutRolledOver (fromCallId toCallId : Nat) (user : Address)
      (amountRolled amountPaidOut : Int)
  | reserveVerification (callId : Nat) (balanceOnChain totalStaked : Int)
      (isFullyReserved : Bool)
  | reserveDiscrepancy (callId : Nat) (discrepancy : Int)
  deriving DecidableEq

end Backit.PredictionMarket
