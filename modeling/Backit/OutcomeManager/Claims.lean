import Backit.OutcomeManager.Payout
import Backit.OutcomeManager.Reports

/-!
# Claims

The five ways to claim a payout share the flag of the winner who is paid. They differ in who
authorises the claim, who receives it, and whether the registry releases it. The stake and the
pools of a claim are what the caller states.
-/

namespace Backit.OutcomeManager

open Soroban Contract Shared

variable {R : Type} [Registries R] [Crypto] [Network]

/-- What a claim is worth, and who collects its share of the fee. -/
structure Quote where
  feeCollector : Address
  feeShare : Int
  payout : Int
  deriving DecidableEq

namespace Payouts

/-- Mark a winner as paid for a call. -/
def markClaimed (p : Payouts) (callId : Nat) (winner : Address) : Payouts :=
  { p with claimed := Function.update p.claimed (callId, winner) true }

def setBalanceId (p : Payouts) (callId : Nat) (staker : Address) (id : BytesN 32) : Payouts :=
  { p with
    claimableBalanceId := Function.update p.claimableBalanceId (callId, staker) (some id) }

def setRecoveryAddress (p : Payouts) (user : Address) (recoveryAddress : Option Address) :
    Payouts :=
  { p with recoveryAddress := Function.update p.recoveryAddress user recoveryAddress }

end Payouts

/-- The id of a claimable balance of a call, from the bytes that tell its balances apart. -/
def balanceId (callId : Nat) (suffix : Bytes) : BytesN 32 :=
  Crypto.sha256 (ascii ['c', 'l', 'a', 'i', 'm', 'b', 'a', 'l', ':'] ++ beBytes 8 callId ++ suffix)

def getFeeConfig : Manager R (Nat × Address) := do
  let s := (← getStore).settings
  let feeCollector ← unwrap s.feeCollector (.error .feeCollectorNotSet)
  pure (s.feeBps, feeCollector)

/-- The fee on the losing pool, and what the pool is after it. -/
def netTerms (totalLosingStake : Int) (feeBps : Nat) : Manager R (Int × Int) := do
  let totalFee ← unwrap (computeTotalFee totalLosingStake feeBps) (.error .overflow)
  let netLosing ← unwrap (checkedSub totalLosingStake totalFee) (.error .overflow)
  pure (totalFee, netLosing)

/-- The parts of a claim of a stated stake against stated pools. -/
def quote (stakerWinningStake totalWinningStake totalLosingStake : Int) : Manager R Quote := do
  rejectIf (stakerWinningStake ≤ 0) (.error .nothingToClaim)
  rejectIf (totalWinningStake ≤ 0) (.error .invalidWinningStake)
  let (feeBps, feeCollector) ← getFeeConfig
  let (totalFee, netLosing) ← netTerms totalLosingStake feeBps
  let (feeShare, amount) ← unwrap
    (computePayoutParts stakerWinningStake totalWinningStake totalFee netLosing)
    (.error .overflow)
  pure ⟨feeCollector, feeShare, amount⟩

def rejectIfClaimed (callId : Nat) (winner : Address) : Manager R Unit := do
  rejectIf ((← getStore).payouts.claimed (callId, winner) = true) (.error .alreadyClaimed)

/-- Release a fee share to the fee collector, if there is any. -/
def releaseFee (registry : Address) (callId : Nat) (feeCollector : Address) (feeShare : Int) :
    Manager R Unit :=
  if 0 < feeShare then do
    registryReleaseEscrow registry callId feeCollector feeShare
    announce (.feeCollected callId feeShare feeCollector)
  else pure ()

def claimPayout (registry : Address) (callId : Nat) (staker : Address)
    (stakerWinningStake totalWinningStake totalLosingStake : Int) : Manager R Unit := do
  rejectIfPaused
  requireAuth staker
  requireCallSettled callId
  rejectIfClaimed callId staker
  let q ← quote stakerWinningStake totalWinningStake totalLosingStake
  let id := balanceId callId (Network.addressXdr staker)
  modifyStore (·.onPayouts fun p => (p.markClaimed callId staker).setBalanceId callId staker id)
  releaseFee registry callId q.feeCollector q.feeShare
  registryReleaseEscrow registry callId staker q.payout
  announce (.claimableBalanceCreated callId staker id q.payout)
  announce (.payoutClaimed callId staker q.payout)

def claimPayoutForMarket (callId : Nat) (staker : Address)
    (stakerWinningStake totalWinningStake totalLosingStake : Int) : Manager R Unit := do
  let registry ← resolveMarketAddress callId
  claimPayout registry callId staker stakerWinningStake totalWinningStake totalLosingStake

/-- The claim of a staker whom the market has paid already; nothing is released. -/
def claimPayoutNoRelease (callId : Nat) (staker : Address)
    (stakerWinningStake totalWinningStake totalLosingStake : Int) : Manager R Unit := do
  rejectIfPaused
  requireAuth staker
  requireCallSettled callId
  rejectIfClaimed callId staker
  let q ← quote stakerWinningStake totalWinningStake totalLosingStake
  let id := balanceId callId (Network.addressXdr staker)
  modifyStore (·.onPayouts fun p => (p.markClaimed callId staker).setBalanceId callId staker id)
  if 0 < q.feeShare then announce (.feeCollected callId q.feeShare q.feeCollector) else pure ()
  announce (.claimableBalanceCreated callId staker id q.payout)
  announce (.payoutClaimed callId staker q.payout)

def setRecoveryAddress (user recoveryAddress : Address) : Manager R Unit := do
  requireAuth user
  modifyStore (·.onPayouts (·.setRecoveryAddress user (some recoveryAddress)))
  announce (.recoveryAddressSet user recoveryAddress)

def removeRecoveryAddress (user : Address) : Manager R Unit := do
  requireAuth user
  modifyStore (·.onPayouts (·.setRecoveryAddress user none))
  announce (.recoveryAddressRemoved user)

/-- The winner's recovery agent claims once the grace period has elapsed since settlement. -/
def claimOnBehalf (registry : Address) (callId : Nat) (recoveryAgent originalWinner : Address)
    (stakerWinningStake totalWinningStake totalLosingStake : Int) : Manager R Unit := do
  rejectIfPaused
  requireAuth recoveryAgent
  let s ← getStore
  rejectIf (s.payouts.recoveryAddress originalWinner ≠ some recoveryAgent)
    (.error .notRecoveryAgent)
  requireCallSettled callId
  rejectIfClaimed callId originalWinner
  let environment ← env
  let settledAt := (s.tally.settledAt callId).getD environment.timestamp
  rejectIf (environment.timestamp - settledAt < s.settings.recoveryGracePeriodSecs)
    (.error .recoveryGracePeriodNotElapsed)
  let q ← quote stakerWinningStake totalWinningStake totalLosingStake
  modifyStore (·.onPayouts (·.markClaimed callId originalWinner))
  releaseFee registry callId q.feeCollector q.feeShare
  registryReleaseEscrow registry callId recoveryAgent q.payout
  announce (.recoveryClaimed recoveryAgent originalWinner callId q.payout)

/-- The loop of a batch, from the index of the first entry on: the fee shares of its entries. With
`balances` it also stores and announces a claimable balance for each. -/
def payBatch (balances : Bool) (registry : Address) (callId : Nat)
    (totalWinningStake totalFee netLosing : Int) :
    Nat → List (Address × Int) → Int → Manager R Int
  | _, [], aggregated => pure aggregated
  | i, (staker, stake) :: rest, aggregated => do
      rejectIf (stake ≤ 0) (.error .nothingToClaim)
      rejectIfClaimed callId staker
      let (feeShare, amount) ← unwrap
        (computePayoutParts stake totalWinningStake totalFee netLosing) (.error .overflow)
      let id := balanceId callId (beBytes 8 i)
      modifyStore (·.onPayouts fun p =>
        (if balances then p.setBalanceId callId staker id else p).markClaimed callId staker)
      let aggregated ← unwrap (checkedAdd aggregated feeShare) (.error .overflow)
      registryReleaseEscrow registry callId staker amount
      if balances then announce (.claimableBalanceCreated callId staker id amount) else pure ()
      announce (.payoutClaimed callId staker amount)
      payBatch balances registry callId totalWinningStake totalFee netLosing (i + 1) rest
        aggregated

/-- Pay several winners and then release the fee shares together. -/
def batch (balances : Bool) (registry : Address) (callId : Nat) (stakers : List Address)
    (stakes : List Int) (totalWinningStake totalLosingStake : Int) : Manager R Unit := do
  requireAdmin
  requireCallSettled callId
  rejectIf (stakers = []) (.error .emptyBatch)
  rejectIf (stakers.length ≠ stakes.length) (.error .lengthMismatch)
  rejectIf (totalWinningStake ≤ 0) (.error .invalidWinningStake)
  let (feeBps, feeCollector) ← getFeeConfig
  let (totalFee, netLosing) ← netTerms totalLosingStake feeBps
  announce (.batchPayoutStarted callId stakers.length)
  let aggregated ← payBatch balances registry callId totalWinningStake totalFee netLosing 0
    (stakers.zip stakes) 0
  releaseFee registry callId feeCollector aggregated

def batchCreateClaimableBalances (registry : Address) (callId : Nat) (stakers : List Address)
    (stakes : List Int) (totalWinningStake totalLosingStake : Int) : Manager R Unit :=
  batch true registry callId stakers stakes totalWinningStake totalLosingStake

def batchClaimPayouts (registry : Address) (callId : Nat) (stakers : List Address)
    (stakes : List Int) (totalWinningStake totalLosingStake : Int) : Manager R Unit :=
  batch false registry callId stakers stakes totalWinningStake totalLosingStake

def markSettled (registry : Address) (callId : Nat) : Manager R Unit := do
  requireAdmin
  rejectIf ((← getStore).tally.finalOutcome callId = none) (.error .callNotFinalized)
  registryMarkSettled registry callId

/-- The operations on payouts, and the settling of a call. -/
inductive PayoutOp where
  | claimPayout (registry : Address) (callId : Nat) (staker : Address)
      (stakerWinningStake totalWinningStake totalLosingStake : Int)
  | claimPayoutForMarket (callId : Nat) (staker : Address)
      (stakerWinningStake totalWinningStake totalLosingStake : Int)
  | claimPayoutNoRelease (callId : Nat) (staker : Address)
      (stakerWinningStake totalWinningStake totalLosingStake : Int)
  | setRecoveryAddress (user recoveryAddress : Address)
  | removeRecoveryAddress (user : Address)
  | claimOnBehalf (registry : Address) (callId : Nat) (recoveryAgent originalWinner : Address)
      (stakerWinningStake totalWinningStake totalLosingStake : Int)
  | batchCreateClaimableBalances (registry : Address) (callId : Nat) (stakers : List Address)
      (stakes : List Int) (totalWinningStake totalLosingStake : Int)
  | batchClaimPayouts (registry : Address) (callId : Nat) (stakers : List Address)
      (stakes : List Int) (totalWinningStake totalLosingStake : Int)
  | markSettled (registry : Address) (callId : Nat)
  deriving DecidableEq

/-- Run an operation on payouts. -/
def PayoutOp.perform : PayoutOp → Manager R Unit
  | .claimPayout registry callId staker stake winning losing =>
    OutcomeManager.claimPayout registry callId staker stake winning losing
  | .claimPayoutForMarket callId staker stake winning losing =>
    OutcomeManager.claimPayoutForMarket callId staker stake winning losing
  | .claimPayoutNoRelease callId staker stake winning losing =>
    OutcomeManager.claimPayoutNoRelease callId staker stake winning losing
  | .setRecoveryAddress user recoveryAddress =>
    OutcomeManager.setRecoveryAddress user recoveryAddress
  | .removeRecoveryAddress user => OutcomeManager.removeRecoveryAddress user
  | .claimOnBehalf registry callId agent winner stake winning losing =>
    OutcomeManager.claimOnBehalf registry callId agent winner stake winning losing
  | .batchCreateClaimableBalances registry callId stakers stakes winning losing =>
    OutcomeManager.batchCreateClaimableBalances registry callId stakers stakes winning losing
  | .batchClaimPayouts registry callId stakers stakes winning losing =>
    OutcomeManager.batchClaimPayouts registry callId stakers stakes winning losing
  | .markSettled registry callId => OutcomeManager.markSettled registry callId

end Backit.OutcomeManager
