import Backit.CallRegistry.Calls
import Backit.Shared

/-!
# Administration

Initialisation, the parameters that the admin sets, and the proposals of the admin set. Setting a
parameter is one scheme, `changeConfig`: read the configuration, require the admin, write the
changed configuration and publish what changed.
-/

namespace Backit.CallRegistry

open Soroban Contract Shared

namespace Desk

def setConfig (desk : Desk) (config : ContractConfig) : Desk :=
  { desk with control := { desk.control with config := some config } }

def publish (desk : Desk) (event : Event) : Desk := { desk with events := event :: desk.events }

def setProposal (desk : Desk) (proposal : Proposal) : Desk :=
  { desk with control := { desk.control with
      proposals := Function.update desk.control.proposals proposal.id (some proposal) } }

def removeProposal (desk : Desk) (proposalId : Nat) : Desk :=
  { desk with control := { desk.control with
      proposals := Function.update desk.control.proposals proposalId none } }

end Desk

/-- Publish an event from an operation on the desk. -/
def announce (event : Event) : Office Unit := modify (·.publish event)

/-- Publish events in order from an operation on the desk. -/
def announceAll (events : List Event) : Office Unit :=
  modify fun desk => { desk with events := events.reverse ++ desk.events }

/-- The configuration, or the given failure when the contract is not initialised. -/
def officeConfig (missing : Failure CallRegistryError) : Office ContractConfig := do
  unwrap (← get).control.config missing

/-- No staking gate. -/
def noGate : GateFields := ⟨none, 0, 0, 0, none⟩

/-- The configuration that `initialize` writes. -/
def initialConfig (admin outcomeManager : Address) (minStake : Int) : ContractConfig where
  admin := admin
  outcomeManager := outcomeManager
  feeBps := 0
  maxStakePerUser := 0
  whitelistedTokens := ∅
  minStake := minStake
  metadataVersion := 0
  paused := false
  stakingCutoffSecs := 300
  shareWasmHash := none
  resolutionGracePeriod := 604800
  adminSet := []
  adminThreshold := 1
  baseStakeLimit := 0
  reputationMultiplier := 0
  globalGate := noGate

def contractVersion : Nat := 1

/-- The entry point `initialize`. -/
def initializeContract (admin outcomeManager : Address) (minStake : Int) : Office Unit := do
  let desk ← get
  rejectIf (desk.control.config.isSome = true) (.error .alreadyInitialized)
  requireAuth admin
  let environment ← env
  modify fun desk => { desk with control := { desk.control with
    config := some (initialConfig admin outcomeManager minStake)
    version := some contractVersion
    deployedSeq := some environment.sequence } }
  announce (.initialized admin outcomeManager)

/-- Anyone may record the address of the native asset's contract. -/
def setXlmSacAddress (xlmSac : Address) : Office Unit :=
  modify fun desk => { desk with control := { desk.control with xlmSacAddr := some xlmSac } }

/-- Change the configuration on the admin's authority and publish the change. -/
def changeConfig (missing : Failure CallRegistryError)
    (change : ContractConfig → ContractConfig) (events : ContractConfig → List Event) :
    Office Unit := do
  let config ← officeConfig missing
  requireAuth config.admin
  modify (·.setConfig (change config))
  announceAll (events config)

def notInitialized : Failure CallRegistryError := .error .notInitialized

def expectInitialized : Failure CallRegistryError := .panic "not initialized"

def setAdmin (newAdmin : Address) : Office Unit :=
  changeConfig notInitialized (fun c => { c with admin := newAdmin })
    fun c => [.adminParamsChanged "admin" newAdmin (.address c.admin) (.address newAdmin)]

def setOutcomeManager (newManager : Address) : Office Unit :=
  changeConfig notInitialized (fun c => { c with outcomeManager := newManager })
    fun c => [.adminParamsChanged "outcome_manager" c.admin (.address c.outcomeManager)
      (.address newManager)]

def setFee (newFeeBps : Nat) : Office Unit := do
  rejectIf (isValidFeeBps newFeeBps = false) (.error .feeTooHigh)
  changeConfig notInitialized (fun c => { c with feeBps := newFeeBps })
    fun c => [.adminParamsChanged "fee_bps" c.admin (.u32 c.feeBps) (.u32 newFeeBps)]

def setMaxStakePerUser (newMax : Int) : Office Unit := do
  rejectIf (newMax < 0) (.panic "max_stake_per_user cannot be negative")
  changeConfig (.panic "Contract not initialized") (fun c => { c with maxStakePerUser := newMax })
    fun c => [.adminParamsChanged "max_stake_per_user" c.admin (.i128 c.maxStakePerUser)
      (.i128 newMax)]

def whitelistToken (token : Address) : Office Unit :=
  changeConfig expectInitialized
    (fun c => { c with whitelistedTokens := c.whitelistedTokens.insert token true })
    fun _ => [.tokenWhitelisted token]

def removeToken (token : Address) : Office Unit :=
  changeConfig expectInitialized
    (fun c => { c with whitelistedTokens := c.whitelistedTokens.erase token })
    fun _ => [.tokenDelisted token]

def setMinStake (newMinStake : Int) : Office Unit := do
  rejectIf (newMinStake < 0) (.panic "min_stake cannot be negative")
  changeConfig expectInitialized (fun c => { c with minStake := newMinStake })
    fun c => [.adminParamsChanged "min_stake" c.admin (.i128 c.minStake) (.i128 newMinStake)]

def pause : Office Unit :=
  changeConfig expectInitialized (fun c => { c with paused := true })
    fun c => [.contractPaused c.admin]

def unpause : Office Unit :=
  changeConfig expectInitialized (fun c => { c with paused := false })
    fun c => [.contractUnpaused c.admin]

def setStakingCutoff (newCutoff : Nat) : Office Unit :=
  changeConfig expectInitialized (fun c => { c with stakingCutoffSecs := newCutoff })
    fun c => [.adminParamsChanged "staking_cutoff_secs" c.admin (.u64 c.stakingCutoffSecs)
      (.u64 newCutoff)]

def setReputationParams (baseLimit : Int) (multiplier : Nat) : Office Unit := do
  rejectIf (baseLimit < 0) (.panic "base_stake_limit cannot be negative")
  changeConfig expectInitialized
    (fun c => { c with baseStakeLimit := baseLimit, reputationMultiplier := multiplier })
    fun c =>
      [.adminParamsChanged "base_stake_limit" c.admin (.i128 c.baseStakeLimit) (.i128 baseLimit),
        .adminParamsChanged "reputation_multiplier" c.admin (.u32 c.reputationMultiplier)
          (.u32 multiplier)]

def setShareWasmHash (shareWasmHash : BytesN 32) : Office Unit :=
  changeConfig notInitialized (fun c => { c with shareWasmHash := some shareWasmHash })
    fun _ => []

def setGlobalGate (gate : GateFields) : Office Unit :=
  changeConfig expectInitialized (fun c => { c with globalGate := gate }) fun _ => []

/-- The admin set is replaced on the admin's authority alone. -/
def setAdminSet (newAdmins : List Address) (newThreshold : Nat) : Office Unit := do
  let config ← officeConfig notInitialized
  requireAuth config.admin
  rejectIf (newThreshold = 0 ∨ newAdmins.length < newThreshold)
    (.panic "threshold must be >= 1 and <= admin_set length")
  modify (·.setConfig { config with adminSet := newAdmins, adminThreshold := newThreshold })
  announce (.adminSetUpdated newAdmins newThreshold)

def setUserTrustlineCount (user : Address) (count : Nat) : Office Unit := do
  let config ← officeConfig expectInitialized
  requireAuth config.admin
  modify fun desk => { desk with profiles := { desk.profiles with
    userTrustlineCount := Function.update desk.profiles.userTrustlineCount user count } }

/-- The duration limit is set on the authority of the address passed in. -/
def setMaxDuration (admin : Address) (maxDurationSecs : Nat) : Office Unit := do
  requireAuth admin
  rejectIf (maxDurationSecs = 0) (.panic "max_duration_secs must be positive")
  let old := (← get).control.maxDuration.getD defaultMaxDurationSecs
  modify fun desk => { desk with control := { desk.control with
    maxDuration := some maxDurationSecs } }
  announce (.adminParamsChanged "max_duration_secs" admin (.u64 old) (.u64 maxDurationSecs))

/-- Replace the contract's code on the admin's authority. The executions modelled here go on with
the same code. -/
def upgrade : Office Unit := do
  let config ← officeConfig notInitialized
  requireAuth config.admin
  let oldVersion := (← get).control.version.getD contractVersion
  let newVersion ← unsigned 32 (oldVersion + 1)
  modify fun desk => { desk with control := { desk.control with version := some newVersion } }
  announce (.contractUpgraded oldVersion newVersion config.admin)

section Proposals

/-- Anyone may propose; the proposal starts active and without approvals. -/
def proposeAdminOperation (proposer : Address) (operation : Operation) (timelockSeconds : Nat) :
    Office Nat := do
  requireAuth proposer
  let _ ← officeConfig notInitialized
  let id ← unsigned 64 ((← get).control.proposalCounter + 1)
  modify fun desk => { desk with control := { desk.control with proposalCounter := id } }
  let environment ← env
  let timelockUntil ← unsigned 64 (environment.timestamp + timelockSeconds)
  modify (·.setProposal
    { id := id
      proposer := proposer
      operation := operation
      approvals := []
      createdAt := environment.timestamp
      timelockUntil := timelockUntil
      status := .active })
  announce (.operationProposed id proposer)
  pure id

/-- An active proposal. -/
def officeProposal (proposalId : Nat) : Office Proposal := do
  let proposal ← unwrap ((← get).control.proposals proposalId) (.error .notFound)
  rejectIf (proposal.status ≠ .active) (.error .invalidInput)
  pure proposal

/-- Record an approval, once per address. -/
def recordApproval (admin : Address) (proposalId : Nat) (proposal : Proposal) : Office Unit :=
  if admin ∈ proposal.approvals then pure ()
  else do
    modify (·.setProposal { proposal with approvals := proposal.approvals ++ [admin] })
    announce (.proposalApproved proposalId admin)

def approveAdminProposal (admin : Address) (proposalId : Nat) : Office Unit := do
  requireAuth admin
  let proposal ← officeProposal proposalId
  recordApproval admin proposalId proposal

def vetoAdminProposal (admin : Address) (proposalId : Nat) : Office Unit := do
  requireAuth admin
  let proposal ← officeProposal proposalId
  modify (·.setProposal { proposal with status := .vetoed })
  announce (.proposalVetoed proposalId admin)

def cancelAdminProposal (proposalId : Nat) : Office Unit := do
  let proposal ← officeProposal proposalId
  let environment ← env
  rejectIf (environment.timestamp < proposal.timelockUntil) (.error .notReady)
  let config ← officeConfig notInitialized
  rejectIf (config.adminSet ≠ [] ∧ config.adminThreshold ≤ proposal.approvals.length)
    (.error .invalidInput)
  modify (·.removeProposal proposalId)

variable {T : Type} [Tokens T]

/-- The approvals that execution requires: with an admin set, as many as the threshold; without
one, the admin's own authorisation. -/
def checkApprovals (config : ContractConfig) (proposal : Proposal) : Registry T Unit :=
  if config.adminSet ≠ [] then
    rejectIf (proposal.approvals.length < config.adminThreshold) (.error .unauthorized)
  else requireAuth config.admin

/-- Write the configuration and publish an event. -/
def applyConfig (config : ContractConfig) (events : List Event) : Registry T Unit := do
  modifyStore (·.setConfig config)
  publishAll events

/-- The effect of an executed operation. -/
def performOperation (config : ContractConfig) : Operation → Registry T Unit
  | .setFee newFee => do
      rejectIf (isValidFeeBps newFee = false) (.error .feeTooHigh)
      applyConfig { config with feeBps := newFee }
        [.adminParamsChanged "fee_bps" config.admin (.u32 config.feeBps) (.u32 newFee)]
  | .setMinStake newMin => do
      rejectIf (newMin < 0) (.error .invalidInput)
      applyConfig { config with minStake := newMin }
        [.adminParamsChanged "min_stake" config.admin (.i128 config.minStake) (.i128 newMin)]
  | .setAdminThreshold threshold => applyConfig { config with adminThreshold := threshold } []
  | .pause => applyConfig { config with paused := true } [.contractPaused config.admin]
  | .unpause => applyConfig { config with paused := false } [.contractUnpaused config.admin]
  | .upgrade _ => pure ()
  | .withdrawFees token amount => do
      rejectIf (amount ≤ 0) (.error .invalidInput)
      let environment ← env
      transferToken token environment.contract config.admin amount
  | .addAdmin admin =>
    if admin ∈ config.adminSet then pure ()
    else applyConfig { config with adminSet := config.adminSet ++ [admin] } [.adminAdded admin]
  | .removeAdmin admin =>
    applyConfig { config with adminSet := config.adminSet.filter (· ≠ admin) }
      [.adminRemoved admin]

/-- Anyone may execute a proposal whose timelock has elapsed and that has enough approvals. -/
def executeAdminProposal (caller : Address) (proposalId : Nat) : Registry T Unit := do
  let store ← getStore
  let proposal ← unwrap (store.control.proposals proposalId) (.error .notFound)
  rejectIf (proposal.status ≠ .active) (.error .invalidInput)
  let environment ← env
  rejectIf (environment.timestamp < proposal.timelockUntil) (.error .notReady)
  let config ← requireConfig
  checkApprovals config proposal
  performOperation config proposal.operation
  modifyStore (·.setProposal { proposal with status := .executed })
  publish (.proposalExecuted proposalId caller)

end Proposals

/-!
## Governance votes and linked domains

Proposals to change a parameter, voted on with stake volumes that the callers state, and the home
domains that users link with a signed token.
-/

/-- Write a governance proposal under its id. -/
def Governance.setProposal (governance : Governance) (proposal : GovernanceProposal) :
    Governance :=
  { governance with
    proposals := Function.update governance.proposals proposal.id (some proposal) }

/-- Apply a write to the governance records. -/
def Desk.onGovernance (desk : Desk) (write : Governance → Governance) : Desk :=
  { desk with control := { desk.control with governance := write desk.control.governance } }

def proposeChange (proposer : Address) (parameter : String) (newValueBytes : Bytes)
    (votingEndLedger : Nat) (proposerStakeVolume : Int) : Office Nat := do
  requireAuth proposer
  let governance := (← get).control.governance
  let cfg := governance.config.getD .default
  rejectIf (proposerStakeVolume < cfg.proposalThreshold)
    (.panic "insufficient stake volume to propose")
  let environment ← env
  rejectIf (votingEndLedger ≤ environment.sequence)
    (.panic "voting_end_ledger must be in the future")
  let id ← unsigned 64 (governance.proposalCounter + 1)
  modify (·.onGovernance fun g =>
    ({ g with proposalCounter := id } : Governance).setProposal
      { id := id
        proposer := proposer
        parameter := parameter
        newValueBytes := newValueBytes
        votingEndLedger := votingEndLedger
        votesFor := 0
        votesAgainst := 0
        executed := false })
  announce (.proposalCreated id proposer parameter votingEndLedger)
  pure id

/-- Cast a vote of the volume the voter states, once per voter and proposal. -/
def governanceVote (voter : Address) (proposalId : Nat) (support : Bool)
    (voterStakeVolume : Int) : Office Unit := do
  requireAuth voter
  let governance := (← get).control.governance
  rejectIf (governance.voted (proposalId, voter) = true) (.panic "already voted")
  let proposal ← unwrap (governance.proposals proposalId) (.panic "proposal not found")
  let environment ← env
  rejectIf (proposal.votingEndLedger < environment.sequence) (.panic "voting period ended")
  let tally ← i128
    ((if support then proposal.votesFor else proposal.votesAgainst) + voterStakeVolume)
  let counted :=
    if support then { proposal with votesFor := tally }
    else { proposal with votesAgainst := tally }
  modify (·.onGovernance fun g =>
    { g.setProposal counted with voted := Function.update g.voted (proposalId, voter) true })
  announce (.voteCast proposalId voter support voterStakeVolume)

/-- The votes that execution asks for, given the platform stake the caller states. -/
def governanceQuorum (totalPlatformStake : Int) (cfg : GovernanceConfig) : Int :=
  ((checkedMul totalPlatformStake cfg.governanceQuorumBps).getD i128Max).tdiv 10000

def executeProposal (proposalId : Nat) (totalPlatformStake : Int) : Office GovernanceProposal := do
  let governance := (← get).control.governance
  let proposal ← unwrap (governance.proposals proposalId) (.panic "proposal not found")
  rejectIf (proposal.executed = true) (.panic "already executed")
  let environment ← env
  rejectIf (environment.sequence ≤ proposal.votingEndLedger) (.panic "voting period not ended")
  let cfg := governance.config.getD .default
  rejectIf (proposal.votesFor ≤ governanceQuorum totalPlatformStake cfg) (.panic "quorum not met")
  let executed := { proposal with executed := true }
  modify (·.onGovernance (·.setProposal executed))
  announce (.governanceProposalExecuted proposalId proposal.parameter)
  pure executed

def setGovernanceConfig (cfg : GovernanceConfig) : Office Unit := do
  let config ← officeConfig notInitialized
  requireAuth config.admin
  modify (·.onGovernance fun g => { g with config := some cfg })

/-- The message a wallet signs to prove its home domain. -/
def buildSep10Message (validUntil : Nat) (homeDomain : Bytes) : Bytes :=
  ascii ['B', 'A', 'C', 'K', 'i', 't', ':', 'S', 'E', 'P', '1', '0', ':'] ++
    beBytes 4 validUntil ++ ascii [':'] ++ homeDomain

/-- An expired token is refused; a bad signature aborts. -/
def verifySep10Token [Crypto] (publicKey : BytesN 32) (token : BytesN 64) (validUntil : Nat)
    (homeDomain : Bytes) : Office Bool := do
  let environment ← env
  if validUntil < environment.sequence then pure false
  else do
    ed25519Verify publicKey (buildSep10Message validUntil homeDomain) token
    pure true

def linkSep10Domain [Crypto] (user : Address) (publicKey : BytesN 32) (token : BytesN 64)
    (validUntil : Nat) (homeDomain : Bytes) : Office Unit := do
  requireAuth user
  let valid ← verifySep10Token publicKey token validUntil homeDomain
  rejectIf (valid = false) (.error .sep10TokenExpired)
  modify fun desk => { desk with profiles := { desk.profiles with
    sep10Domain := Function.update desk.profiles.sep10Domain user (some homeDomain) } }
  announce (.sep10Verified user homeDomain)

end Backit.CallRegistry
