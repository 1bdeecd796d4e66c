import Backit.Soroban.Host
import Backit.Soroban.Bytes

/-!
# Data of the outcome manager

The manager's data types, errors and events, with the fields of the source, and the calls it makes
to a registry. An outcome is 1 for up and 2 for down; prices are in the oracles' fixed-point
representation.
-/

namespace Backit.OutcomeManager

open Soroban

/-- The manager's error codes. -/
inductive OutcomeError where
  | alreadyInitialized
  | invalidQuorum
  | unauthorizedOracle
  | alreadySettled
  | duplicateSubmission
  | invalidOutcome
  | callNotSettled
  | alreadyClaimed
  | nothingToClaim
  | invalidWinningStake
  | overflow
  | callNotFinalized
  | invalidFeeBps
  | contractPaused
  | maxOraclesReached
  | submissionWindowExpired
  | emptyBatch
  | lengthMismatch
  | notInitialized
  | feeCollectorNotSet
  | observationOutOfOrder
  | insufficientPriceObservations
  | noPriceObservations
  | zeroTimeWindow
  | registryNotSet
  | disputeWindowExpired
  | factoryNotSet
  | invalidMarket
  | observationOutsideWindow
  | notRecoveryAgent
  | recoveryGracePeriodNotElapsed
  | duplicateOracleObservation
  | replayedSubmission
  deriving DecidableEq

/-- An outcome of a call. -/
structure Outcome where
  callId : Nat
  outcome : Nat
  price : Int
  timestamp : Nat
  deriving DecidableEq

/-- An oracle's signed report of an outcome. Its numbers fit the fields of the signed message. -/
structure SignedOutcome where
  callId : Nat
  outcome : Nat
  price : Int
  timestamp : Nat
  oraclePubkey : BytesN 32
  signature : BytesN 64
  callId_lt : callId < 2 ^ 64
  price_mem : InI128 price
  timestamp_lt : timestamp < 2 ^ 64
  deriving DecidableEq

/-- The outcome that a report states. -/
def SignedOutcome.stated (signed : SignedOutcome) : Outcome :=
  ⟨signed.callId, signed.outcome, signed.price, signed.timestamp⟩

/-- An accepted report, as the manager keeps it with the call. -/
structure OracleVote where
  oracle : BytesN 32
  outcome : Nat
  price : Int
  timestamp : Nat
  deriving DecidableEq

structure PriceObservation where
  price : Int
  timestamp : Nat
  deriving DecidableEq

/-- An observation of a resolution that takes several blocks. -/
structure ResolutionObservation where
  oracle : BytesN 32
  price : Int
  timestamp : Nat
  ledgerSequence : Nat
  deriving DecidableEq

/-- The events the manager publishes. -/
inductive Event where
  | outcomeSubmitted (callId : Nat) (oracle : BytesN 32) (outcome : Nat)
  | outcomeFinalized (callId outcome : Nat) (price : Int)
  | payoutClaimed (callId : Nat) (staker : Address) (amount : Int)
  | feeCollected (callId : Nat) (amount : Int) (collector : Address)
  | batchPayoutStarted (callId stakerCount : Nat)
  | outcomeDisputed (callId newOutcome : Nat) (newPrice : Int)
  | adminParamsChanged (value : Nat)
  | priceObservationSubmitted (callId : Nat) (oracle : BytesN 32) (price : Int) (timestamp : Nat)
  | twapComputed (callId : Nat) (twapPrice : Int) (observationCount : Nat)
  | claimableBalanceCreated (callId : Nat) (staker : Address) (balanceId : BytesN 32)
      (amount : Int)
  | recoveryClaimed (recoveryAgent originalWinner : Address) (callId : Nat) (amount : Int)
  | recoveryAddressSet (user recoveryAddress : Address)
  | recoveryAddressRemoved (user : Address)
  deriving DecidableEq

/-- What an invocation of the manager does outside its own storage. -/
inductive Act where
  | event (event : Event)
  | resolveCall (registry : Address) (callId outcome : Nat) (endPrice : Int)
  | releaseEscrow (registry : Address) (callId : Nat) (recipient : Address) (amount : Int)
  | markSettled (registry : Address) (callId : Nat)
  deriving DecidableEq

end Backit.OutcomeManager
