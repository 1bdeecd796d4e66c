import Backit.CallRegistry.Reputation
import Backit.Soroban.Bytes

/-!
# Staking and early withdrawal

Staking checks the call, the staker's gate and the staker's limit, collects the tokens, mints the
position's shares when the call has share tokens, and records the stake in the call and in the
indexes. Withdrawing pays a position back less a penalty that stays in the pool.
-/

namespace Backit.CallRegistry

open Soroban Contract Lib

/-- The sentinel address that stands for native XLM. -/
def nativeXlm : Address := ⟨0⟩

def isNativeXlm (token : Address) : Bool := token = nativeXlm

/-- The native asset and wrapped tokens have distinct clients with the same `transfer`. -/
def transferToken {T : Type} [Tokens T] (stakeToken sender recipient : Address) (amount : Int) :
    Registry T Unit :=
  if isNativeXlm stakeToken then tokenTransfer stakeToken sender recipient amount
  else tokenTransfer stakeToken sender recipient amount

/-- The native or the wrapped-token variant of an event. -/
def byToken (stakeToken : Address) (xlm wrapped : Event) : Event :=
  if isNativeXlm stakeToken then xlm else wrapped

def publishByToken {T : Type} (stakeToken : Address) (xlm wrapped : Event) : Registry T Unit :=
  publish (byToken stakeToken xlm wrapped)

section Shares

variable {T : Type} [Tokens T]

/-- The salt a share token is deployed under. -/
def shareTokenSalt [Crypto] (callId outcome : Nat) : BytesN 32 :=
  Crypto.sha256 (ascii ['s', 'h', 'a', 'r', 'e', ':'] ++ beBytes 8 callId ++ beBytes 4 outcome)

def deployShareToken [Crypto] (shareWasmHash : BytesN 32) (callId outcome : Nat) :
    Registry T Address :=
  deployToken shareWasmHash (shareTokenSalt callId outcome)

def mintShares (token recipient : Address) (amount : Int) : Registry T Unit :=
  tokenMint token recipient amount

/-- Burning takes the shares back from their holder. -/
def burnShares (token holder : Address) (amount : Int) : Registry T Unit :=
  tokenClawback token holder amount

def shareBalance (token who : Address) : Registry T Int := tokenBalance token who

/-- The active gate of a call: its own, or else the global one. -/
def getCallGateFields (s : Storage) (callId : Nat) : Option GateFields := do
  let call ← s.getCall callId
  if call.gate.kind.isSome then some call.gate
  else do
    let config ← s.getConfig
    some config.globalGate

/-- Whether the user passes a gate of a given kind. An unknown kind rejects. -/
def passesGate (user : Address) (fields : GateFields) (kind : Nat) : Registry T Bool := do
  let store ← getStore
  let environment ← env
  if kind = gateNone then pure true
  else if kind = gateMinAccountAge then do
    let firstSeen := (store.getAccountFirstSeen user).getD environment.sequence
    let eligible ← unsigned 32 (firstSeen + fields.minAccountAge)
    pure (decide (eligible ≤ environment.sequence))
  else if kind = gateMinXlmBalance then do
    let xlmSac ← unwrap store.control.xlmSacAddr (.panic "XLM SAC not configured")
    let balance ← tokenBalance xlmSac user
    pure (decide (fields.minXlmBalance ≤ balance))
  else if kind = gateMinTrustlines then
    pure (decide (fields.minTrustlines ≤ store.profiles.userTrustlineCount user))
  else if kind = gateHoldsBadge then
    match fields.badge with
    | some badge => do
        let balance ← tokenBalance badge user
        pure (decide (0 < balance))
    | none => pure false
  else pure false

/-- Whether the user may stake on the call. Without an active gate everyone may. -/
def checkUserQualifies (user : Address) (callId : Nat) : Registry T Bool := do
  let store ← getStore
  match getCallGateFields store callId with
  | none => pure true
  | some fields =>
    match fields.kind with
    | none => pure true
    | some kind => passesGate user fields kind

/-- Record the deployment ledger as a new staker's first interaction. -/
def trackFirstStake (staker : Address) : Registry T Unit := do
  let store ← getStore
  let environment ← env
  if (store.getAccountFirstSeen staker).isNone then
    modifyStore (·.setAccountFirstSeen staker (store.control.deployedSeq.getD environment.sequence))
  else pure ()

/-- The checks of a stake that depend on the call, the configuration and the clock. -/
def checkStakeable (config : ContractConfig) (call : Call) (position : Nat) :
    Registry T Unit := do
  let environment ← env
  rejectIf (call.endTs ≤ environment.timestamp) (.error .callEnded)
  rejectIf (0 < config.stakingCutoffSecs ∧ config.stakingCutoffSecs < call.endTs ∧
    call.endTs - config.stakingCutoffSecs ≤ environment.timestamp) (.error .stakingCutoffActive)
  rejectIf (call.settled = true) (.error .callSettled)
  rejectIf (call.cancelled = true) (.panic "Call has been cancelled")
  rejectIf (call.voided = true) (.panic "Call has been voided")
  rejectIf (position < 1 ∨ call.outcomeCount < position) (.error .invalidPosition)

/-- Move the stake into the contract and return the amount to credit. For a wrapped token this is
what arrived, as measured by the contract's balance, but never more than the amount asked for. -/
def collectStake (stakeToken funder : Address) (amount : Int) : Registry T Int := do
  let environment ← env
  if isNativeXlm stakeToken then do
    transferToken stakeToken funder environment.contract amount
    pure amount
  else do
    let balanceBefore ← tokenBalance stakeToken environment.contract
    transferToken stakeToken funder environment.contract amount
    let balanceAfter ← tokenBalance stakeToken environment.contract
    let received ← unwrap (checkedSub balanceAfter balanceBefore) (.error .invalidStakeAmount)
    rejectIf (received ≤ 0) (.error .invalidStakeAmount)
    pure (min received amount)

/-- Mint the shares of a credited stake when the position has a share token. -/
def mintStakeShares (call : Call) (callId : Nat) (staker : Address) (position : Nat)
    (amount : Int) : Registry T Unit :=
  match call.shareTokens.lookup position with
  | some shareToken => do
      mintShares shareToken staker amount
      publish (.sharesMinted callId staker position amount)
  | none => pure ()

/-- The stakes recorded on a position of a call. -/
def Call.stakesOn (call : Call) (position : Nat) : Map Address Int :=
  (call.stakes.lookup position).getD ∅

/-- The call after a credited stake: the position's pool and the staker's entry. -/
def Call.withStake (call : Call) (position : Nat) (staker : Address) (pool stake : Int) : Call :=
  { call with
    outcomeStakes := call.outcomeStakes.insert position pool
    stakes := call.stakes.insert position ((call.stakesOn position).insert staker stake) }

/-- `do_stake`: the funder pays and the staker owns the position. -/
def doStake (funder staker : Address) (callId : Nat) (amount : Int) (position : Nat) :
    Registry T Call := do
  requireAuth funder
  reentrancyGuard
  rejectIf (amount ≤ 0) (.error .invalidStakeAmount)
  let config ← expectConfig "not initialized"
  rejectIf (config.paused = true) (.panic "Contract is paused")
  rejectIf (amount < config.minStake) (.panic "stake below minimum")
  let call ← requireCall callId
  checkStakeable config call position
  trackFirstStake staker
  let qualifies ← checkUserQualifies staker callId
  rejectIf (qualifies = false) (.panic "User does not meet the staking gate requirements")
  let currentStake := valueAt (call.stakesOn position) staker
  let requestedStake ← i128 (currentStake + amount)
  let store ← getStore
  let limit ← unwrap (effectiveStakeLimit store.profiles.globalStats config
    (store.getCreatorStats staker) (store.getUserTotalStakeVolume staker)) (.error .overflow)
  rejectIf (limit < requestedStake) (.panic "Stake exceeds reputation-weighted stake limit")
  let credited ← collectStake call.stakeToken funder amount
  let updatedStake ← i128 (currentStake + credited)
  mintStakeShares call callId staker position credited
  let pool ← i128 (valueAt call.outcomeStakes position + credited)
  let staked := call.withStake position staker pool updatedStake
  modifyStore (·.onMarket fun m =>
    ((m.addCallStaker callId staker).setUserStake callId staker position updatedStake).setCall
      staked)
  modifyStore (·.onMarket (·.addStakerCall staker callId))
  recordStake staker credited
  recordUserStakeVolume staker credited
  publishByToken call.stakeToken (.xlmStakeAdded callId staker credited position)
    (.stakeAdded callId staker credited position)
  releaseLock
  pure staked

def stakeOnCall (staker : Address) (callId : Nat) (amount : Int) (position : Nat) :
    Registry T Call :=
  doStake staker staker callId amount position

def stakeOnBehalf (funder beneficiary : Address) (callId : Nat) (amount : Int) (position : Nat) :
    Registry T Call :=
  doStake funder beneficiary callId amount position

/-- Basis points kept from an early withdrawal. -/
def defaultEarlyExitPenaltyBps : Int := 1000

/-- The part of a stake that an early withdrawal forfeits, before the overflow check. -/
def earlyExitPenalty (stake : Int) : Int := (stake * defaultEarlyExitPenaltyBps).tdiv 10000

/-- The call after an early withdrawal: the staker's entry is gone and the pool keeps the
penalty. -/
def Call.withoutStake (call : Call) (position : Nat) (staker : Address) (pool : Int) : Call :=
  { call with
    stakes := call.stakes.insert position ((call.stakesOn position).erase staker)
    outcomeStakes := call.outcomeStakes.insert position pool }

/-- `execute_withdrawal`: pay a position back before the call ends, less the penalty. -/
def executeWithdrawal (staker : Address) (callId position : Nat) : Registry T (Int × Int) := do
  requireAuth staker
  let call ← expectCall callId "call not found"
  let environment ← env
  rejectIf (call.endTs ≤ environment.timestamp) (.panic "call has ended")
  rejectIf (call.settled = true) (.panic "call already settled")
  rejectIf (call.cancelled = true) (.panic "call has been cancelled")
  rejectIf (call.voided = true) (.panic "call has been voided")
  rejectIf (position < 1 ∨ call.outcomeCount < position) (.panic "invalid position")
  let store ← getStore
  let stake := store.getUserStake callId staker position
  rejectIf (stake ≤ 0) (.panic "no stake to withdraw")
  let _ ← expectConfig "not initialized"
  let _ ← i128 (stake * defaultEarlyExitPenaltyBps)
  let penalty := earlyExitPenalty stake
  let refund ← i128 (stake - penalty)
  let pool ← i128 (valueAt call.outcomeStakes position - refund)
  modifyStore (·.onMarket fun m =>
    (m.setUserStake callId staker position 0).setCall
      (call.withoutStake position staker pool))
  transferToken call.stakeToken environment.contract staker refund
  publishByToken call.stakeToken (.xlmStakeWithdrawn callId staker refund penalty)
    (.stakeWithdrawn callId staker refund penalty)
  pure (refund, penalty)

def withdrawStake (staker : Address) (callId position : Nat) : Registry T (Int × Int) := do
  let config ← expectConfig "not initialized"
  rejectIf (config.paused = true) (.panic "Contract is paused")
  let store ← getStore
  rejectIf (store.control.locked = true) (.panic "reentrancy detected")
  modifyStore (·.setLocked true)
  let result ← executeWithdrawal staker callId position
  releaseLock
  pure result

end Shares

end Backit.CallRegistry
