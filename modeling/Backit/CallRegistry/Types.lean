import Backit.Soroban.Host

/-!
# Data of the call registry

The registry's data types, errors and events, with the fields of the source. Prices carry seven
decimals; amounts are in the smallest unit of the stake token.
-/

namespace Backit.CallRegistry

open Soroban

/-- The price movement that decides which outcome wins. -/
inductive ConditionType where
  | targetAbove (target : Int)
  | targetBelow (target : Int)
  | percentUp (percent : Nat)
  | percentDown (percent : Nat)
  | range (min max : Int)
  deriving DecidableEq

def gateNone : Nat := 0
def gateMinAccountAge : Nat := 1
def gateMinXlmBalance : Nat := 2
def gateMinTrustlines : Nat := 3
def gateHoldsBadge : Nat := 4

/-- The fields of a staking gate, carried by a call or by the configuration: a discriminant and
its parameters. Without a discriminant there is no gate. -/
structure GateFields where
  kind : Option Nat
  minAccountAge : Nat
  minXlmBalance : Int
  minTrustlines : Nat
  badge : Option Address
  deriving DecidableEq

/-- Arguments of `createCall`. -/
structure CallInitArgs where
  stakeToken : Address
  stakeAmount : Int
  startPrice : Int
  endTs : Nat
  tokenAddress : Address
  pairId : Bytes
  ipfsCid : Bytes
  metadataHash : BytesN 32
  condition : ConditionType
  outcomeCount : Nat
  gate : GateFields
  deriving DecidableEq

/-- A prediction call. `outcome` is zero while the call is unresolved. -/
structure Call where
  id : Nat
  creator : Address
  stakeToken : Address
  stakeAmount : Int
  endTs : Nat
  tokenAddress : Address
  pairId : Bytes
  metadataHash : BytesN 32
  outcomeCount : Nat
  outcomeStakes : Map Nat Int
  stakes : Map Nat (Map Address Int)
  outcome : Nat
  startPrice : Int
  endPrice : Int
  condition : ConditionType
  settled : Bool
  voided : Bool
  createdAt : Nat
  cancelled : Bool
  metadataVersion : Nat
  shareTokens : Map Nat Address
  gate : GateFields

/-- The contract's configuration. -/
structure ContractConfig where
  admin : Address
  outcomeManager : Address
  feeBps : Nat
  maxStakePerUser : Int
  whitelistedTokens : Map Address Bool
  minStake : Int
  metadataVersion : Nat
  paused : Bool
  stakingCutoffSecs : Nat
  shareWasmHash : Option (BytesN 32)
  resolutionGracePeriod : Nat
  adminSet : List Address
  adminThreshold : Nat
  baseStakeLimit : Int
  reputationMultiplier : Nat
  globalGate : GateFields

/-- The operations that the admin set can propose and execute. -/
inductive Operation where
  | setFee (newFee : Nat)
  | setMinStake (newMin : Int)
  | setAdminThreshold (threshold : Nat)
  | pause
  | unpause
  | upgrade (wasmHash : BytesN 32)
  | withdrawFees (token : Address) (amount : Int)
  | addAdmin (admin : Address)
  | removeAdmin (admin : Address)
  deriving DecidableEq

inductive ProposalStatus where
  | active
  | vetoed
  | executed
  | cancelled
  deriving DecidableEq

/-- A proposal of the admin set. -/
structure Proposal where
  id : Nat
  proposer : Address
  operation : Operation
  approvals : List Address
  createdAt : Nat
  timelockUntil : Nat
  status : ProposalStatus
  deriving DecidableEq

/-- Contract-wide statistics. -/
structure GlobalStats where
  totalCalls : Nat
  totalStakeVolume : Int
  totalUniqueStakers : Nat
  deriving DecidableEq

/-- A creator's track record. -/
structure CreatorStats where
  totalCreated : Nat
  totalResolved : Nat
  totalCorrect : Nat
  deriving DecidableEq

/-- A proposal to change a parameter, voted on by stake volume. -/
structure GovernanceProposal where
  id : Nat
  proposer : Address
  parameter : String
  newValueBytes : Bytes
  votingEndLedger : Nat
  votesFor : Int
  votesAgainst : Int
  executed : Bool
  deriving DecidableEq

structure GovernanceConfig where
  proposalThreshold : Int
  governanceQuorumBps : Nat
  votingPeriodLedgers : Nat
  deriving DecidableEq

/-- `GovernanceConfig::default`. -/
def GovernanceConfig.default : GovernanceConfig where
  proposalThreshold := 10000000000
  governanceQuorumBps := 100
  votingPeriodLedgers := 17280

/-- The registry's error codes. -/
inductive CallRegistryError where
  | alreadyInitialized
  | notInitialized
  | invalidStakeAmount
  | invalidEndTime
  | callNotFound
  | callEnded
  | callSettled
  | invalidPosition
  | unauthorized
  | notFound
  | invalidInput
  | notReady
  | contractPaused
  | callNotEnded
  | invalidOutcome
  | invalidOutcomeCount
  | feeTooHigh
  | stakingCutoffActive
  | sep10TokenExpired
  | reentrancyDetected
  | overflow
  deriving DecidableEq

/-- The value of a parameter in an `adminParamsChanged` event. -/
inductive ParamValue where
  | address (value : Address)
  | i128 (value : Int)
  | u32 (value : Nat)
  | u64 (value : Nat)
  deriving DecidableEq

/-- The events the registry publishes. -/
inductive Event where
  | initialized (admin outcomeManager : Address)
  | callCreated (callId : Nat) (creator stakeToken : Address) (stakeAmount startPrice : Int)
      (endTs : Nat) (tokenAddress : Address) (pairId : Bytes) (metadataHash : BytesN 32)
      (outcomeCount : Nat)
  | xlmCallCreated (callId : Nat) (creator : Address) (stakeAmount startPrice : Int)
      (endTs : Nat) (tokenAddress : Address) (pairId : Bytes) (metadataHash : BytesN 32)
      (outcomeCount : Nat)
  | stakeAdded (callId : Nat) (staker : Address) (amount : Int) (position : Nat)
  | xlmStakeAdded (callId : Nat) (staker : Address) (amount : Int) (position : Nat)
  | callResolved (callId outcome : Nat) (endPrice : Int)
  | adminParamsChanged (param : String) (changedBy : Address) (oldValue newValue : ParamValue)
  | callCancelled (callId : Nat) (creator : Address) (refundedAmount : Int)
  | xlmCallCancelled (callId : Nat) (creator : Address) (refundedAmount : Int)
  | tokenWhitelisted (token : Address)
  | tokenDelisted (token : Address)
  | contractPaused (admin : Address)
  | contractUnpaused (admin : Address)
  | callMetadataUpdated (callId : Nat) (creator : Address) (oldHash newHash : BytesN 32)
      (version : Nat)
  | operationProposed (proposalId : Nat) (proposer : Address)
  | proposalApproved (proposalId : Nat) (approver : Address)
  | proposalVetoed (proposalId : Nat) (vetoer : Address)
  | proposalExecuted (proposalId : Nat) (executor : Address)
  | adminAdded (added : Address)
  | adminRemoved (removed : Address)
  | adminSetUpdated (admins : List Address) (threshold : Nat)
  | sharesMinted (callId : Nat) (staker : Address) (outcome : Nat) (amount : Int)
  | sharesRedeemed (callId : Nat) (staker : Address) (outcome : Nat) (amount : Int)
  | sharesTransferred (callId : Nat) (sender recipient : Address) (outcome : Nat) (amount : Int)
  | callVoided (callId : Nat) (voidedBy : Address)
  | voidRefundClaimed (callId : Nat) (staker : Address) (amount : Int)
  | xlmVoidRefundClaimed (callId : Nat) (staker : Address) (amount : Int)
  | expiredRefundClaimed (callId : Nat) (staker : Address) (amount : Int)
  | xlmExpiredRefundClaimed (callId : Nat) (staker : Address) (amount : Int)
  | xlmEscrowReleased (callId : Nat) (recipient : Address) (amount : Int)
  | sep10Verified (user : Address) (homeDomain : Bytes)
  | stakeWithdrawn (callId : Nat) (staker : Address) (refundedAmount penalty : Int)
  | xlmStakeWithdrawn (callId : Nat) (staker : Address) (refundedAmount penalty : Int)
  | stakeLimitUpdated (user : Address) (newLimit : Int)
  | emergencyCallCancelled (callId : Nat) (cancelledBy : Address)
  | proposalCreated (id : Nat) (proposer : Address) (parameter : String) (votingEndLedger : Nat)
  | voteCast (proposalId : Nat) (voter : Address) (support : Bool) (stakeVolume : Int)
  | governanceProposalExecuted (proposalId : Nat) (parameter : String)
  | contractUpgraded (oldVersion newVersion : Nat) (admin : Address)
  deriving DecidableEq

end Backit.CallRegistry
