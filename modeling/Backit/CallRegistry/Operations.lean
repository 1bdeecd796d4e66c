import Backit.CallRegistry.Admin
import Backit.CallRegistry.Lifecycle

/-!
# The registry's operations

Every entry point that writes, as data. `MarketOp` are the operations on calls and stakes, `DeskOp`
those that reach neither the market nor another contract. Executing an admin proposal stands
alone: it changes the configuration and can also move tokens.
-/

namespace Backit.CallRegistry

open Soroban Contract

/-- The operations on calls and the stakes on them. -/
inductive MarketOp where
  | createCall (creator : Address) (args : CallInitArgs)
  | updateCallMetadata (creator : Address) (callId : Nat) (newMetadataHash : BytesN 32)
  | stakeOnCall (staker : Address) (callId : Nat) (amount : Int) (position : Nat)
  | stakeOnBehalf (funder beneficiary : Address) (callId : Nat) (amount : Int) (position : Nat)
  | redeemShares (redeemer : Address) (callId : Nat)
  | transferShares (sender recipient : Address) (callId outcome : Nat) (amount : Int)
  | resolveCall (callId outcome : Nat) (endPrice : Int)
  | markSettled (callId : Nat)
  | releaseEscrow (callId : Nat) (recipient : Address) (amount : Int)
  | setStartPrice (callId : Nat) (price : Int) (oraclePubkey : BytesN 32) (signature : BytesN 64)
  | cancelCall (creator : Address) (callId : Nat)
  | voidCall (callId : Nat)
  | claimVoidRefund (staker : Address) (callId : Nat)
  | emergencyCancelCall (caller : Address) (callId : Nat)
  | withdrawRefund (staker : Address) (callId : Nat)
  | claimExpiredRefund (staker : Address) (callId : Nat)
  | withdrawStake (staker : Address) (callId position : Nat)
  deriving DecidableEq

/-- The operations on configuration, proposals and profiles. -/
inductive DeskOp where
  | initializeContract (admin outcomeManager : Address) (minStake : Int)
  | setXlmSacAddress (xlmSac : Address)
  | setShareWasmHash (shareWasmHash : BytesN 32)
  | whitelistToken (token : Address)
  | removeToken (token : Address)
  | setMaxStakePerUser (newMax : Int)
  | setReputationParams (baseLimit : Int) (multiplier : Nat)
  | setMinStake (newMinStake : Int)
  | pause
  | unpause
  | setStakingCutoff (newCutoff : Nat)
  | proposeAdminOperation (proposer : Address) (operation : Operation) (timelockSeconds : Nat)
  | approveAdminProposal (admin : Address) (proposalId : Nat)
  | vetoAdminProposal (admin : Address) (proposalId : Nat)
  | cancelAdminProposal (caller : Address) (proposalId : Nat)
  | setMaxDuration (admin : Address) (maxDurationSecs : Nat)
  | setAdmin (newAdmin : Address)
  | setAdminSet (newAdmins : List Address) (newThreshold : Nat)
  | proposeChange (proposer : Address) (parameter : String) (newValueBytes : Bytes)
      (votingEndLedger : Nat) (proposerStakeVolume : Int)
  | governanceVote (voter : Address) (proposalId : Nat) (support : Bool)
      (voterStakeVolume : Int)
  | executeProposal (proposalId : Nat) (totalPlatformStake : Int)
  | setGovernanceConfig (cfg : GovernanceConfig)
  | setOutcomeManager (newManager : Address)
  | setFee (newFeeBps : Nat)
  | linkSep10Domain (user : Address) (publicKey : BytesN 32) (token : BytesN 64)
      (validUntil : Nat) (homeDomain : Bytes)
  | setGlobalGate (gate : GateFields)
  | setUserTrustlineCount (user : Address) (count : Nat)
  | upgrade (newWasmHash : BytesN 32)
  deriving DecidableEq

inductive Action where
  | market (op : MarketOp)
  | desk (op : DeskOp)
  | executeAdminProposal (caller : Address) (proposalId : Nat)
  deriving DecidableEq

variable {T : Type} [Tokens T] [Crypto]

/-- Run an operation on the market. -/
def MarketOp.perform : MarketOp → Registry T Unit
  | .createCall creator args => ignore (CallRegistry.createCall creator args)
  | .updateCallMetadata creator callId hash => CallRegistry.updateCallMetadata creator callId hash
  | .stakeOnCall staker callId amount position =>
    ignore (CallRegistry.stakeOnCall staker callId amount position)
  | .stakeOnBehalf funder beneficiary callId amount position =>
    ignore (CallRegistry.stakeOnBehalf funder beneficiary callId amount position)
  | .redeemShares redeemer callId => ignore (CallRegistry.redeemShares redeemer callId)
  | .transferShares sender recipient callId outcome amount =>
    CallRegistry.transferShares sender recipient callId outcome amount
  | .resolveCall callId outcome endPrice =>
    ignore (CallRegistry.resolveCall callId outcome endPrice)
  | .markSettled callId => CallRegistry.markSettled callId
  | .releaseEscrow callId recipient amount => CallRegistry.releaseEscrow callId recipient amount
  | .setStartPrice callId price key signature =>
    ignore (CallRegistry.setStartPrice callId price key signature)
  | .cancelCall creator callId => CallRegistry.cancelCall creator callId
  | .voidCall callId => CallRegistry.voidCall callId
  | .claimVoidRefund staker callId => CallRegistry.claimVoidRefund staker callId
  | .emergencyCancelCall caller callId => CallRegistry.emergencyCancelCall caller callId
  | .withdrawRefund staker callId => CallRegistry.withdrawRefund staker callId
  | .claimExpiredRefund staker callId => CallRegistry.claimExpiredRefund staker callId
  | .withdrawStake staker callId position =>
    ignore (CallRegistry.withdrawStake staker callId position)

/-- Run an operation on the desk. -/
def DeskOp.perform : DeskOp → Office Unit
  | .initializeContract admin outcomeManager minStake =>
    CallRegistry.initializeContract admin outcomeManager minStake
  | .setXlmSacAddress xlmSac => CallRegistry.setXlmSacAddress xlmSac
  | .setShareWasmHash hash => CallRegistry.setShareWasmHash hash
  | .whitelistToken token => CallRegistry.whitelistToken token
  | .removeToken token => CallRegistry.removeToken token
  | .setMaxStakePerUser newMax => CallRegistry.setMaxStakePerUser newMax
  | .setReputationParams baseLimit multiplier =>
    CallRegistry.setReputationParams baseLimit multiplier
  | .setMinStake newMinStake => CallRegistry.setMinStake newMinStake
  | .pause => CallRegistry.pause
  | .unpause => CallRegistry.unpause
  | .setStakingCutoff newCutoff => CallRegistry.setStakingCutoff newCutoff
  | .proposeAdminOperation proposer operation timelockSeconds =>
    ignore (CallRegistry.proposeAdminOperation proposer operation timelockSeconds)
  | .approveAdminProposal admin proposalId => CallRegistry.approveAdminProposal admin proposalId
  | .vetoAdminProposal admin proposalId => CallRegistry.vetoAdminProposal admin proposalId
  | .cancelAdminProposal _ proposalId => CallRegistry.cancelAdminProposal proposalId
  | .setMaxDuration admin maxDurationSecs => CallRegistry.setMaxDuration admin maxDurationSecs
  | .setAdmin newAdmin => CallRegistry.setAdmin newAdmin
  | .setAdminSet newAdmins newThreshold => CallRegistry.setAdminSet newAdmins newThreshold
  | .proposeChange proposer parameter bytes votingEndLedger volume =>
    ignore (CallRegistry.proposeChange proposer parameter bytes votingEndLedger volume)
  | .governanceVote voter proposalId support volume =>
    CallRegistry.governanceVote voter proposalId support volume
  | .executeProposal proposalId totalPlatformStake =>
    ignore (CallRegistry.executeProposal proposalId totalPlatformStake)
  | .setGovernanceConfig cfg => CallRegistry.setGovernanceConfig cfg
  | .setOutcomeManager newManager => CallRegistry.setOutcomeManager newManager
  | .setFee newFeeBps => CallRegistry.setFee newFeeBps
  | .linkSep10Domain user key token validUntil homeDomain =>
    CallRegistry.linkSep10Domain user key token validUntil homeDomain
  | .setGlobalGate gate => CallRegistry.setGlobalGate gate
  | .setUserTrustlineCount user count => CallRegistry.setUserTrustlineCount user count
  | .upgrade _ => CallRegistry.upgrade

/-- Run an invocation of an entry point. -/
def Action.perform : Action → Registry T Unit
  | .market op => op.perform
  | .desk op => onDesk op.perform
  | .executeAdminProposal caller proposalId => CallRegistry.executeAdminProposal caller proposalId

end Backit.CallRegistry

/-!
## What an operation on the market does

`MarketStep` lists, for every operation on the market, the checks that a successful invocation
passed, the effects it had outside the storage (most recent first) and the market it left.
`MarketOp.step` reads this off the entry points; nothing after it looks inside them again.
-/

namespace Backit.CallRegistry

open Soroban Contract Lib

/-- A request to stake: who pays, who owns the position, and the amount asked for. -/
structure StakeRequest where
  funder : Address
  staker : Address
  callId : Nat
  amount : Int
  position : Nat

/-- The two entry points that stake. -/
def MarketOp.stakeRequest : MarketOp → Option StakeRequest
  | .stakeOnCall staker callId amount position => some ⟨staker, staker, callId, amount, position⟩
  | .stakeOnBehalf funder staker callId amount position =>
    some ⟨funder, staker, callId, amount, position⟩
  | _ => none

/-- The two entry points that refund a voided call, with the staker and the call. -/
def MarketOp.voidRefundRequest : MarketOp → Option (Address × Nat)
  | .claimVoidRefund staker callId | .withdrawRefund staker callId => some (staker, callId)
  | _ => none

/-- The effects of minting the shares of a stake. -/
def mintEffects (call : Call) (callId : Nat) (staker : Address) (position : Nat) (amount : Int) :
    List (Effect Event) :=
  match call.shareTokens.lookup position with
  | some token => [.event (.sharesMinted callId staker position amount), .mint token staker amount]
  | none => []

/-- The event of a credited stake. -/
def stakeAddedEvent (call : Call) (r : StakeRequest) (credited : Int) : Event :=
  byToken call.stakeToken (.xlmStakeAdded r.callId r.staker credited r.position)
    (.stakeAdded r.callId r.staker credited r.position)

/-- Only payouts in native XLM are announced. -/
def releaseEvents (call : Call) (callId : Nat) (recipient : Address) (amount : Int) :
    List (Effect Event) :=
  if isNativeXlm call.stakeToken then [.event (.xlmEscrowReleased callId recipient amount)] else []

/-- The share tokens of a new call, given the tokens deployed for its positions in order. -/
def shareTokenMap (tokens : List Address) : Map Nat Address :=
  ((positions tokens.length).zip tokens).foldl (fun m entry => m.insert entry.1 entry.2) ∅

/-- The call's state in which stakes move: not ended, settled, cancelled or voided. -/
structure Call.Open (call : Call) (now : Nat) : Prop where
  notEnded : now < call.endTs
  notSettled : call.settled = false
  notCancelled : call.cancelled = false
  notVoided : call.voided = false

/-- A position of a call. -/
def Call.HasPosition (call : Call) (position : Nat) : Prop :=
  1 ≤ position ∧ position ≤ call.outcomeCount

instance (call : Call) (position : Nat) : Decidable (call.HasPosition position) :=
  inferInstanceAs (Decidable (_ ∧ _))

/-- The creator's track record after the call resolved. -/
def Market.resolvedStats (m : Market) (call : Call) (outcome : Nat) : CreatorStats :=
  let old := m.creatorStats call.creator
  { old with
    totalResolved := old.totalResolved + 1
    totalCorrect :=
      if 0 < m.creatorWinningStake call outcome then old.totalCorrect + 1 else old.totalCorrect }

/-- The market after a credited stake. -/
def Market.withStake (m : Market) (call : Call) (r : StakeRequest) (credited : Int) : Market :=
  let stake := valueAt (call.stakesOn r.position) r.staker + credited
  let staked :=
    call.withStake r.position r.staker (valueAt call.outcomeStakes r.position + credited) stake
  (((m.addCallStaker r.callId r.staker).setUserStake r.callId r.staker r.position stake).setCall
    staked).addStakerCall r.staker r.callId

/-- The market after an early withdrawal that refunded an amount. -/
def Market.withoutStake (m : Market) (call : Call) (callId : Nat) (staker : Address)
    (position : Nat) (refund : Int) : Market :=
  (m.setUserStake callId staker position 0).setCall
    (call.withoutStake position staker (valueAt call.outcomeStakes position - refund))

/-- The market after a call is created. -/
def Market.withNewCall (m : Market) (creator : Address) (args : CallInitArgs) (createdAt : Nat)
    (shareTokens : Map Nat Address) : Market :=
  let stats := m.creatorStats creator
  ((m.setCallCounter (m.callCounter + 1)).setCall
    (newCall (m.callCounter + 1) creator args createdAt shareTokens)).setCreatorStats creator
      { stats with totalCreated := stats.totalCreated + 1 }

variable (env : Env) (config : Option ContractConfig)

/-- A successful operation on the market: its checks, its effects and the market it leaves. -/
inductive MarketStep : MarketOp → Market → List (Effect Event) → Market → Prop where
  | created {creator args tokens m} :
      creator ∈ env.auths → 0 < args.stakeAmount → 0 < args.startPrice → 2 ≤ args.outcomeCount →
      env.timestamp < args.endTs → (tokens = [] ∨ tokens.length = args.outcomeCount) →
      MarketStep (.createCall creator args) m
        (.event (callCreatedEvent (m.callCounter + 1) creator args) :: tokens.reverse.map .deploy)
        (m.withNewCall creator args env.timestamp (shareTokenMap tokens))
  | metadataUpdated {creator callId hash call m} :
      creator ∈ env.auths → m.calls callId = some call → call.creator = creator →
      call.settled = false → call.cancelled = false → env.timestamp < call.endTs →
      MarketStep (.updateCallMetadata creator callId hash) m
        [.event (.callMetadataUpdated callId creator call.metadataHash hash
          (call.metadataVersion + 1))]
        (m.setCall { call with metadataHash := hash, metadataVersion := call.metadataVersion + 1 })
  | staked {op r call credited m} :
      op.stakeRequest = some r → r.funder ∈ env.auths → m.calls r.callId = some call →
      call.Open env.timestamp → call.HasPosition r.position → 0 < credited → credited ≤ r.amount →
      MarketStep op m
        (.event (stakeAddedEvent call r credited) :: (mintEffects call r.callId r.staker r.position credited ++
          [.transfer call.stakeToken r.funder env.contract r.amount]))
        (m.withStake call r credited)
  | withdrawn {staker callId position call m} {refund penalty : Int} :
      staker ∈ env.auths → m.calls callId = some call → call.Open env.timestamp →
      call.HasPosition position → 0 < m.userStake (callId, staker, position) →
      penalty = earlyExitPenalty (m.userStake (callId, staker, position)) →
      refund = m.userStake (callId, staker, position) - penalty →
      MarketStep (.withdrawStake staker callId position) m
        [.event (byToken call.stakeToken (.xlmStakeWithdrawn callId staker refund penalty)
            (.stakeWithdrawn callId staker refund penalty)),
          .transfer call.stakeToken env.contract staker refund]
        (m.withoutStake call callId staker position refund)
  | redeemed {redeemer callId call token m} {balance payout : Int} :
      redeemer ∈ env.auths → m.calls callId = some call → call.outcome ≠ 0 →
      call.settled = true → call.shareTokens.lookup call.outcome = some token → 0 < balance →
      0 < payout → 0 < valueAt call.outcomeStakes call.outcome →
      payout = (balance * call.pools.sum).tdiv (valueAt call.outcomeStakes call.outcome) →
      MarketStep (.redeemShares redeemer callId) m
        [.event (.sharesRedeemed callId redeemer call.outcome balance),
          .transfer call.stakeToken env.contract redeemer payout,
          .clawback token redeemer balance] m
  | sharesTransferred {sender recipient callId outcome amount call token m} :
      sender ∈ env.auths → m.calls callId = some call → call.HasPosition outcome →
      call.shareTokens.lookup outcome = some token →
      MarketStep (.transferShares sender recipient callId outcome amount) m
        [.event (.sharesTransferred callId sender recipient outcome amount),
          .transfer token sender recipient amount] m
  | resolved {callId outcome endPrice call c m} {limits : List Event} :
      config = some c → c.paused = false → c.outcomeManager ∈ env.auths →
      m.calls callId = some call → call.HasPosition outcome → call.endTs ≤ env.timestamp →
      call.voided = false →
      MarketStep (.resolveCall callId outcome endPrice) m
        (.event (.callResolved callId outcome endPrice) :: limits.map .event)
        ((m.setCreatorStats call.creator (m.resolvedStats call outcome)).setCall
          { call with outcome := outcome, endPrice := endPrice })
  | settled {callId call c m} :
      config = some c → c.outcomeManager ∈ env.auths → m.calls callId = some call →
      call.settled = false →
      MarketStep (.markSettled callId) m [] (m.setCall { call with settled := true })
  | released {callId recipient amount call c m} :
      config = some c → c.outcomeManager ∈ env.auths → m.calls callId = some call →
      MarketStep (.releaseEscrow callId recipient amount) m
        (releaseEvents call callId recipient amount ++
          [.transfer call.stakeToken env.contract recipient amount]) m
  | priced {callId price key signature call c m} :
      config = some c → c.outcomeManager ∈ env.auths → m.calls callId = some call →
      0 < price → call.settled = false → call.cancelled = false → call.voided = false →
      MarketStep (.setStartPrice callId price key signature) m []
        (m.setCall { call with startPrice := price })
  | cancelled {creator callId call m} :
      creator ∈ env.auths → m.calls callId = some call → call.creator = creator →
      call.settled = false → call.cancelled = false → call.pools.sum ≤ 0 →
      MarketStep (.cancelCall creator callId) m
        [.event (byToken call.stakeToken (.xlmCallCancelled callId creator call.stakeAmount)
            (.callCancelled callId creator call.stakeAmount)),
          .transfer call.stakeToken env.contract creator call.stakeAmount]
        (m.setCall { call with cancelled := true })
  | voided {callId call c m} : config = some c → c.admin ∈ env.auths → m.calls callId = some call →
      call.voided = false → call.settled = false →
      MarketStep (.voidCall callId) m [.event (.callVoided callId c.admin)]
        (m.setCall { call with voided := true })
  | voidRefunded {op staker callId call m} {refund : Int} :
      op.voidRefundRequest = some (staker, callId) → staker ∈ env.auths →
      m.calls callId = some call → call.voided = true →
      m.voidRefundClaimed (callId, staker) = false →
      refund = m.userStake (callId, staker, 1) + m.userStake (callId, staker, 2) → 0 < refund →
      MarketStep op m
        [.event (byToken call.stakeToken (.xlmVoidRefundClaimed callId staker refund)
            (.voidRefundClaimed callId staker refund)),
          .transfer call.stakeToken env.contract staker refund]
        (m.setVoidRefundClaimed callId staker)
  | emergencyCancelled {caller callId call c m} :
      caller ∈ env.auths → config = some c → m.calls callId = some call →
      call.settled = false → call.cancelled = false → call.voided = false →
      (caller = c.admin ∨ caller = call.creator ∧ call.pools.sum ≤ 0 ∧
        call.emergencyDeadline < env.timestamp) →
      MarketStep (.emergencyCancelCall caller callId) m
        [.event (.emergencyCallCancelled callId caller),
          .transfer call.stakeToken env.contract call.creator call.stakeAmount]
        (m.setCall { call with cancelled := true, voided := true })
  | expiredRefunded {staker callId call c m} {refund : Int} :
      staker ∈ env.auths → config = some c → m.calls callId = some call →
      call.endTs + c.resolutionGracePeriod < env.timestamp → call.settled = false →
      call.voided = false → m.expiredRefundClaimed (callId, staker) = false →
      refund = ((positions call.outcomeCount).map fun p => m.userStake (callId, staker, p)).sum →
      0 < refund →
      MarketStep (.claimExpiredRefund staker callId) m
        [.event (byToken call.stakeToken (.xlmExpiredRefundClaimed callId staker refund)
            (.expiredRefundClaimed callId staker refund)),
          .transfer call.stakeToken env.contract staker refund]
        (m.setExpiredRefundClaimed callId staker)

end Backit.CallRegistry
