import Backit.CallRegistry.Calls

/-!
# Resolution, settlement, cancellation and refunds

The entry points that end a call: resolution and settlement by the outcome manager, cancellation
by the creator or the admin, and the refunds that stakers claim afterwards.
-/

namespace Backit.CallRegistry

open Soroban Contract Lib

/-- How long after the end of an unstaked call its creator must wait to emergency-cancel it. -/
def emergencyCancelDelaySecs : Nat := 7 * 24 * 60 * 60

def outcomeUp : Nat := 1

def outcomeDown : Nat := 2

variable {T : Type} [Tokens T]

/-- The creator's stake on the winning position. Only the positions one and two are looked up. -/
def Market.creatorWinningStake (m : Market) (call : Call) (outcome : Nat) : Int :=
  if outcome = outcomeUp then m.userStake (call.id, call.creator, 1)
  else if outcome = outcomeDown then m.userStake (call.id, call.creator, 2)
  else 0

/-- Count a resolved call in its creator's track record. -/
def countResolved (config : ContractConfig) (call : Call) (outcome : Nat) : Registry T Unit := do
  let store ← getStore
  let old := store.getCreatorStats call.creator
  let totalResolved ← unsigned 32 (old.totalResolved + 1)
  let totalCorrect ← if 0 < store.market.creatorWinningStake call outcome then
      unsigned 32 (old.totalCorrect + 1)
    else pure old.totalCorrect
  let new := { old with totalResolved := totalResolved, totalCorrect := totalCorrect }
  modifyStore (·.onMarket (·.setCreatorStats call.creator new))
  maybeEmitStakeLimitUpdated call.creator config old new
    (store.getUserTotalStakeVolume call.creator)

def resolveCall (callId outcome : Nat) (endPrice : Int) : Registry T Call := do
  let config ← requireConfig
  rejectIf (config.paused = true) (.panic "Contract is paused")
  requireAuth config.outcomeManager
  reentrancyGuard
  let call ← requireCall callId
  rejectIf (outcome < 1 ∨ call.outcomeCount < outcome) (.error .invalidOutcome)
  let environment ← env
  rejectIf (environment.timestamp < call.endTs) (.error .callNotEnded)
  rejectIf (call.voided = true) (.panic "Call has been voided")
  countResolved config call outcome
  let resolved := { call with outcome := outcome, endPrice := endPrice }
  modifyStore (·.setCall resolved)
  publish (.callResolved callId outcome endPrice)
  releaseLock
  pure resolved

def markSettled (callId : Nat) : Registry T Unit := do
  let config ← requireConfig
  requireAuth config.outcomeManager
  let call ← requireCall callId
  rejectIf (call.settled = true) (.error .callSettled)
  modifyStore (·.setCall { call with settled := true })

def releaseEscrow (callId : Nat) (recipient : Address) (amount : Int) : Registry T Unit := do
  let config ← requireConfig
  requireAuth config.outcomeManager
  let call ← requireCall callId
  let environment ← env
  transferToken call.stakeToken environment.contract recipient amount
  if isNativeXlm call.stakeToken then publish (.xlmEscrowReleased callId recipient amount)
  else pure ()

def cancelCall (creator : Address) (callId : Nat) : Registry T Unit := do
  requireAuth creator
  reentrancyGuard
  let call ← requireCall callId
  rejectIf (call.creator ≠ creator) (.panic "not the call creator")
  rejectIf (call.settled = true) (.panic "call is already settled")
  rejectIf (call.cancelled = true) (.panic "call is already cancelled")
  let totalStaked ← sumI128 call.pools
  rejectIf (0 < totalStaked) (.panic "cannot cancel call with active stakes")
  modifyStore (·.setCall { call with cancelled := true })
  let environment ← env
  transferToken call.stakeToken environment.contract creator call.stakeAmount
  publishByToken call.stakeToken (.xlmCallCancelled callId creator call.stakeAmount)
    (.callCancelled callId creator call.stakeAmount)
  releaseLock

def voidCall (callId : Nat) : Registry T Unit := do
  let config ← expectConfig "Not initialized"
  requireAuth config.admin
  let call ← expectCall callId "Call not found"
  rejectIf (call.voided = true) (.panic "Call already voided")
  rejectIf (call.settled = true) (.panic "Call already settled")
  modifyStore (·.setCall { call with voided := true })
  publish (.callVoided callId config.admin)

def claimVoidRefund (staker : Address) (callId : Nat) : Registry T Unit := do
  requireAuth staker
  let call ← expectCall callId "Call not found"
  rejectIf (call.voided = false) (.panic "Call is not voided")
  let store ← getStore
  rejectIf (store.isVoidRefundClaimed callId staker = true) (.panic "Refund already claimed")
  let upStake := store.getUserStake callId staker 1
  let downStake := store.getUserStake callId staker 2
  let totalRefund ← i128 (upStake + downStake)
  rejectIf (totalRefund ≤ 0) (.panic "No stake to refund")
  modifyStore (·.onMarket (·.setVoidRefundClaimed callId staker))
  let environment ← env
  transferToken call.stakeToken environment.contract staker totalRefund
  publishByToken call.stakeToken (.xlmVoidRefundClaimed callId staker totalRefund)
    (.voidRefundClaimed callId staker totalRefund)

/-- The end of the delay that the creator of a dead call waits. -/
def Call.emergencyDeadline (call : Call) : Nat := call.endTs + emergencyCancelDelaySecs

/-- What the creator must meet to emergency-cancel: no stakes, and the delay has elapsed. The
admin is exempt. -/
def checkEmergencyCancel (config : ContractConfig) (caller : Address) (call : Call) :
    Registry T Unit :=
  if caller = config.admin then pure ()
  else do
    rejectIf (caller ≠ call.creator) (.panic "not authorized to emergency-cancel")
    let totalStaked ← sumI128 call.pools
    rejectIf (0 < totalStaked) (.panic "cannot cancel call with active stakes")
    let environment ← env
    let deadline ← unsigned 64 call.emergencyDeadline
    rejectIf (environment.timestamp ≤ deadline) (.panic "Emergency cancel delay has not elapsed")

def emergencyCancelCall (caller : Address) (callId : Nat) : Registry T Unit := do
  requireAuth caller
  let config ← expectConfig "Not initialized"
  let call ← expectCall callId "Call not found"
  rejectIf (call.settled = true) (.panic "Call already settled")
  rejectIf (call.cancelled = true ∨ call.voided = true) (.panic "Call already cancelled")
  checkEmergencyCancel config caller call
  modifyStore (·.setCall { call with cancelled := true, voided := true })
  let environment ← env
  transferToken call.stakeToken environment.contract call.creator call.stakeAmount
  publish (.emergencyCallCancelled callId caller)

def withdrawRefund (staker : Address) (callId : Nat) : Registry T Unit :=
  claimVoidRefund staker callId

def claimExpiredRefund (staker : Address) (callId : Nat) : Registry T Unit := do
  requireAuth staker
  let call ← expectCall callId "Call not found"
  let config ← expectConfig "not initialized"
  let environment ← env
  let graceDeadline ← unsigned 64 (call.endTs + config.resolutionGracePeriod)
  rejectIf (environment.timestamp ≤ graceDeadline) (.panic "Grace period has not elapsed")
  rejectIf (call.settled = true) (.panic "Call is already settled")
  rejectIf (call.voided = true) (.panic "Call is voided; use claim_void_refund")
  let store ← getStore
  rejectIf (store.isExpiredRefundClaimed callId staker = true) (.panic "Refund already claimed")
  let totalRefund ← sumI128
    ((positions call.outcomeCount).map (store.getUserStake callId staker))
  rejectIf (totalRefund ≤ 0) (.panic "No stake to refund")
  modifyStore (·.onMarket (·.setExpiredRefundClaimed callId staker))
  transferToken call.stakeToken environment.contract staker totalRefund
  publishByToken call.stakeToken (.xlmExpiredRefundClaimed callId staker totalRefund)
    (.expiredRefundClaimed callId staker totalRefund)

end Backit.CallRegistry
