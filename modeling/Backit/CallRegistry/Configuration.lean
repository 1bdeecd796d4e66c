import Backit.CallRegistry.Proposals

/-!
# Authority over the configuration

The configuration that operations consult is stored under several keys. `DeskChange` lists what
the operations on the desk do to it, and on whose authority. Every setter requires the stored admin
but two: anyone may record the address of the native asset's contract, and the duration limit is
set by whichever address the caller passes as the admin.
-/

namespace Backit.CallRegistry

open Soroban Contract Lib

/-- The configuration that operations consult. -/
structure Configuration where
  contract : Option ContractConfig
  xlmSacAddr : Option Address
  maxDuration : Option Nat
  trustlines : Address → Nat
  governance : Option GovernanceConfig

/-- The configuration in the records. -/
def configurationOf (profiles : Profiles) (control : Control) : Configuration where
  contract := control.config
  xlmSacAddr := control.xlmSacAddr
  maxDuration := control.maxDuration
  trustlines := profiles.userTrustlineCount
  governance := control.governance.config

def Desk.configuration (d : Desk) : Configuration := configurationOf d.profiles d.control

def Storage.configuration (s : Storage) : Configuration := configurationOf s.profiles s.control

/-- The stored admin authorised the invocation. -/
def Configuration.AdminAuthorises (c : Configuration) (env : Env) : Prop :=
  ∃ config, c.contract = some config ∧ config.admin ∈ env.auths

/-- What a setter of the contract's configuration writes. -/
def DeskOp.rewrite : DeskOp → ContractConfig → ContractConfig
  | .setShareWasmHash hash, c => { c with shareWasmHash := some hash }
  | .whitelistToken token, c =>
    { c with whitelistedTokens := c.whitelistedTokens.insert token true }
  | .removeToken token, c => { c with whitelistedTokens := c.whitelistedTokens.erase token }
  | .setMaxStakePerUser newMax, c => { c with maxStakePerUser := newMax }
  | .setReputationParams baseLimit multiplier, c =>
    { c with baseStakeLimit := baseLimit, reputationMultiplier := multiplier }
  | .setMinStake newMinStake, c => { c with minStake := newMinStake }
  | .pause, c => { c with paused := true }
  | .unpause, c => { c with paused := false }
  | .setStakingCutoff newCutoff, c => { c with stakingCutoffSecs := newCutoff }
  | .setAdmin newAdmin, c => { c with admin := newAdmin }
  | .setAdminSet newAdmins newThreshold, c =>
    { c with adminSet := newAdmins, adminThreshold := newThreshold }
  | .setOutcomeManager newManager, c => { c with outcomeManager := newManager }
  | .setFee newFeeBps, c => { c with feeBps := newFeeBps }
  | .setGlobalGate gate, c => { c with globalGate := gate }
  | _, c => c

/-- The operation writes none of the configuration. -/
def DeskOp.leavesConfiguration : DeskOp → Bool
  | .proposeAdminOperation .. | .approveAdminProposal .. | .vetoAdminProposal ..
  | .cancelAdminProposal .. | .proposeChange .. | .governanceVote .. | .executeProposal ..
  | .linkSep10Domain .. | .upgrade .. => true
  | _ => false

/-- What a successful operation on the desk did to the configuration. -/
inductive DeskChange (env : Env) (c : Configuration) : DeskOp → Configuration → Prop where
  | kept {op} : op.leavesConfiguration = true → DeskChange env c op c
  | initialised {admin outcomeManager minStake} : c.contract = none → admin ∈ env.auths →
      DeskChange env c (.initializeContract admin outcomeManager minStake)
        { c with contract := some (initialConfig admin outcomeManager minStake) }
  | rewritten {op config} : c.contract = some config → config.admin ∈ env.auths →
      (∀ newAdmins newThreshold, op = .setAdminSet newAdmins newThreshold →
        1 ≤ newThreshold ∧ newThreshold ≤ newAdmins.length) →
      DeskChange env c op { c with contract := some (op.rewrite config) }
  | trustline {user count} : c.AdminAuthorises env →
      DeskChange env c (.setUserTrustlineCount user count)
        { c with trustlines := Function.update c.trustlines user count }
  | governance {cfg} : c.AdminAuthorises env →
      DeskChange env c (.setGovernanceConfig cfg) { c with governance := some cfg }
  | xlmSac {xlmSac} :
      DeskChange env c (.setXlmSacAddress xlmSac) { c with xlmSacAddr := some xlmSac }
  | maxDuration {admin maxDurationSecs} : admin ∈ env.auths → 0 < maxDurationSecs →
      DeskChange env c (.setMaxDuration admin maxDurationSecs)
        { c with maxDuration := some maxDurationSecs }

/-- The operation is one on the governance proposals. -/
def DeskOp.governs : DeskOp → Bool
  | .proposeChange .. | .governanceVote .. | .executeProposal .. => true
  | _ => false

/-- The governance proposals and the votes on them are the same. -/
structure Governance.SameVotes (g g' : Governance) : Prop where
  counter : g'.proposalCounter = g.proposalCounter
  proposals : g'.proposals = g.proposals
  voted : g'.voted = g.voted

/-- What a successful operation on the desk did: a listed change of the configuration, none of the
recorded volumes, and none of the governance votes unless it is an operation on them. -/
structure DeskStep (env : Env) (d : Desk) (op : DeskOp) (d' : Desk) : Prop where
  change : DeskChange env d.configuration op d'.configuration
  volumes : d'.profiles.userTotalStakeVolume = d.profiles.userTotalStakeVolume
  stats : d'.profiles.globalStats = d.profiles.globalStats
  votes : op.governs = false → d.control.governance.SameVotes d'.control.governance

section Specs

variable {env : Env} {d d' : Desk} {u : Unit}

/-- An operation that leaves the configuration as it is. -/
theorem DeskStep.of_kept {op : DeskOp} (hop : op.leavesConfiguration = true)
    (hconfiguration : d'.configuration = d.configuration)
    (hvolumes : d'.profiles.userTotalStakeVolume = d.profiles.userTotalStakeVolume)
    (hstats : d'.profiles.globalStats = d.profiles.globalStats)
    (hvotes : op.governs = false → d.control.governance.SameVotes d'.control.governance) :
    DeskStep env d op d' :=
  ⟨by rw [hconfiguration]; exact .kept hop, hvolumes, hstats, hvotes⟩

theorem change_config_step {op : DeskOp} {missing : Failure CallRegistryError}
    {change : ContractConfig → ContractConfig} {events : ContractConfig → List Event}
    (hchange : change = op.rewrite)
    (hset : ∀ newAdmins newThreshold, op ≠ .setAdminSet newAdmins newThreshold)
    (h : run (changeConfig missing change events) env d = .ok (u, d')) :
    DeskStep env d op d' := by
  simp only [changeConfig, run_officeConfig_bind, run_requireAuth_bind, run_modify_bind,
    announceAll, run_modify] at h
  obtain ⟨config, hconfig, hauth, rfl⟩ := h
  subst hchange
  exact ⟨.rewritten hconfig hauth fun _ _ hop => absurd hop (hset _ _), rfl, rfl,
    fun _ => ⟨rfl, rfl, rfl⟩⟩

theorem initialize_contract_step {admin outcomeManager : Address} {minStake : Int}
    (h : run (initializeContract admin outcomeManager minStake) env d = .ok (u, d')) :
    DeskStep env d (.initializeContract admin outcomeManager minStake) d' := by
  simp only [initializeContract, run_get_bind, run_steps, run_modify_bind, announce,
    run_modify] at h
  obtain ⟨hnone, hauth, rfl⟩ := h
  exact ⟨.initialised (Option.not_isSome_iff_eq_none.mp hnone) hauth, rfl, rfl, fun _ => ⟨rfl, rfl, rfl⟩⟩

theorem set_admin_set_step {newAdmins : List Address} {newThreshold : Nat}
    (h : run (setAdminSet newAdmins newThreshold) env d = .ok (u, d')) :
    DeskStep env d (.setAdminSet newAdmins newThreshold) d' := by
  simp only [setAdminSet, run_officeConfig_bind, run_steps, run_modify_bind, announce,
    run_modify] at h
  obtain ⟨config, hconfig, hauth, hthreshold, rfl⟩ := h
  refine ⟨.rewritten hconfig hauth ?_, rfl, rfl, fun _ => ⟨rfl, rfl, rfl⟩⟩
  rintro _ _ ⟨⟩
  omega

theorem set_user_trustline_count_step {user : Address} {count : Nat}
    (h : run (setUserTrustlineCount user count) env d = .ok (u, d')) :
    DeskStep env d (.setUserTrustlineCount user count) d' := by
  simp only [setUserTrustlineCount, run_officeConfig_bind, run_requireAuth_bind, run_modify] at h
  obtain ⟨config, hconfig, hauth, rfl⟩ := h
  exact ⟨.trustline ⟨config, hconfig, hauth⟩, rfl, rfl, fun _ => ⟨rfl, rfl, rfl⟩⟩

theorem set_governance_config_step {cfg : GovernanceConfig}
    (h : run (setGovernanceConfig cfg) env d = .ok (u, d')) :
    DeskStep env d (.setGovernanceConfig cfg) d' := by
  simp only [setGovernanceConfig, run_officeConfig_bind, run_requireAuth_bind, run_modify] at h
  obtain ⟨config, hconfig, hauth, rfl⟩ := h
  exact ⟨.governance ⟨config, hconfig, hauth⟩, rfl, rfl, fun _ => ⟨rfl, rfl, rfl⟩⟩

theorem set_max_duration_step {admin : Address} {maxDurationSecs : Nat}
    (h : run (setMaxDuration admin maxDurationSecs) env d = .ok (u, d')) :
    DeskStep env d (.setMaxDuration admin maxDurationSecs) d' := by
  simp only [setMaxDuration, run_steps, run_get_bind, run_modify_bind, announce, run_modify] at h
  obtain ⟨hauth, hpositive, rfl⟩ := h
  exact ⟨.maxDuration hauth (Nat.pos_of_ne_zero hpositive), rfl, rfl, fun _ => ⟨rfl, rfl, rfl⟩⟩

theorem propose_admin_operation_step {proposer : Address} {operation : Operation}
    {timelock id : Nat}
    (h : run (proposeAdminOperation proposer operation timelock) env d = .ok (id, d')) :
    DeskStep env d (.proposeAdminOperation proposer operation timelock) d' := by
  simp only [proposeAdminOperation, run_steps, run_officeConfig_bind, run_get_bind, run_modify_bind,
    announce] at h
  obtain ⟨-, _, -, -, -, -, rfl⟩ := h
  exact .of_kept rfl rfl rfl rfl fun _ => ⟨rfl, rfl, rfl⟩

theorem approve_admin_proposal_step {admin : Address} {id : Nat}
    (h : run (approveAdminProposal admin id) env d = .ok (u, d')) :
    DeskStep env d (.approveAdminProposal admin id) d' := by
  simp only [approveAdminProposal, recordApproval, run_requireAuth_bind,
    run_officeProposal_bind] at h
  obtain ⟨-, proposal, -, -, h⟩ := h
  split at h
  · cases h
    exact .of_kept rfl rfl rfl rfl fun _ => ⟨rfl, rfl, rfl⟩
  · simp only [run_modify_bind, announce, run_modify] at h
    subst h
    exact .of_kept rfl rfl rfl rfl fun _ => ⟨rfl, rfl, rfl⟩

theorem veto_admin_proposal_step {admin : Address} {id : Nat}
    (h : run (vetoAdminProposal admin id) env d = .ok (u, d')) :
    DeskStep env d (.vetoAdminProposal admin id) d' := by
  simp only [vetoAdminProposal, run_requireAuth_bind, run_officeProposal_bind, run_modify_bind,
    announce, run_modify] at h
  obtain ⟨-, proposal, -, -, rfl⟩ := h
  exact .of_kept rfl rfl rfl rfl fun _ => ⟨rfl, rfl, rfl⟩

theorem cancel_admin_proposal_step {caller : Address} {id : Nat}
    (h : run (cancelAdminProposal id) env d = .ok (u, d')) :
    DeskStep env d (.cancelAdminProposal caller id) d' := by
  simp only [cancelAdminProposal, run_officeProposal_bind, run_steps, run_officeConfig_bind,
    run_modify] at h
  obtain ⟨proposal, -, -, -, _, -, -, rfl⟩ := h
  exact .of_kept rfl rfl rfl rfl fun _ => ⟨rfl, rfl, rfl⟩

theorem propose_change_step {proposer : Address} {parameter : String} {bytes : Bytes}
    {votingEndLedger : Nat} {volume : Int} {id : Nat}
    (h : run (proposeChange proposer parameter bytes votingEndLedger volume) env d = .ok (id, d')) :
    DeskStep env d (.proposeChange proposer parameter bytes votingEndLedger volume) d' := by
  simp only [proposeChange, run_steps, run_get_bind, run_modify_bind, announce] at h
  obtain ⟨-, -, -, -, -, rfl⟩ := h
  exact .of_kept rfl rfl rfl rfl (by simp [DeskOp.governs])

theorem governance_vote_step {voter : Address} {proposalId : Nat} {support : Bool}
    {volume : Int} (h : run (governanceVote voter proposalId support volume) env d = .ok (u, d')) :
    DeskStep env d (.governanceVote voter proposalId support volume) d' := by
  simp only [governanceVote, run_steps, run_get_bind, run_modify_bind, announce, run_modify] at h
  obtain ⟨-, -, proposal, -, -, -, rfl⟩ := h
  exact .of_kept rfl rfl rfl rfl (by simp [DeskOp.governs])

theorem execute_proposal_step {proposalId : Nat} {stake : Int} {proposal : GovernanceProposal}
    (h : run (executeProposal proposalId stake) env d = .ok (proposal, d')) :
    DeskStep env d (.executeProposal proposalId stake) d' := by
  simp only [executeProposal, run_get_bind, run_steps, run_modify_bind, announce] at h
  obtain ⟨_, -, -, -, -, -, rfl⟩ := h
  exact .of_kept rfl rfl rfl rfl (by simp [DeskOp.governs])

theorem link_sep10_domain_step [Crypto] {user : Address} {key : BytesN 32}
    {token : BytesN 64} {validUntil : Nat} {homeDomain : Bytes}
    (h : run (linkSep10Domain user key token validUntil homeDomain) env d = .ok (u, d')) :
    DeskStep env d (.linkSep10Domain user key token validUntil homeDomain) d' := by
  simp only [linkSep10Domain, verifySep10Token, run_steps, Contract.bind_assoc] at h
  obtain ⟨-, h⟩ := h
  split at h
  · simp only [run_steps, not_true_eq_false, false_and] at h
  · simp only [Contract.bind_assoc, run_ed25519Verify_bind, run_steps, run_modify_bind, announce,
      run_modify] at h
    obtain ⟨-, -, rfl⟩ := h
    exact .of_kept rfl rfl rfl rfl fun _ => ⟨rfl, rfl, rfl⟩

theorem upgrade_step {hash : BytesN 32} (h : run upgrade env d = .ok (u, d')) :
    DeskStep env d (.upgrade hash) d' := by
  simp only [upgrade, run_officeConfig_bind, run_steps, run_get_bind, run_modify_bind, announce,
    run_modify] at h
  obtain ⟨config, -, -, -, rfl⟩ := h
  exact .of_kept rfl rfl rfl rfl fun _ => ⟨rfl, rfl, rfl⟩

theorem DeskOp.steps [Crypto] {op : DeskOp} (h : run op.perform env d = .ok (u, d')) :
    DeskStep env d op d' := by
  cases op with
  | proposeAdminOperation =>
    obtain ⟨_, h⟩ := run_ignore.mp h
    exact propose_admin_operation_step h
  | approveAdminProposal => exact approve_admin_proposal_step h
  | vetoAdminProposal => exact veto_admin_proposal_step h
  | cancelAdminProposal => exact cancel_admin_proposal_step h
  | proposeChange =>
    obtain ⟨_, h⟩ := run_ignore.mp h
    exact propose_change_step h
  | governanceVote => exact governance_vote_step h
  | executeProposal =>
    obtain ⟨_, h⟩ := run_ignore.mp h
    exact execute_proposal_step h
  | linkSep10Domain => exact link_sep10_domain_step h
  | upgrade => exact upgrade_step h
  | initializeContract => exact initialize_contract_step h
  | setXlmSacAddress xlmSac =>
    simp only [DeskOp.perform, CallRegistry.setXlmSacAddress, run_modify] at h
    subst h
    exact ⟨.xlmSac, rfl, rfl, fun _ => ⟨rfl, rfl, rfl⟩⟩
  | setMaxStakePerUser | setReputationParams | setMinStake | setFee =>
    exact change_config_step rfl (by simp) ((run_rejectIf_bind ..).mp h).2
  | setAdminSet => exact set_admin_set_step h
  | setMaxDuration => exact set_max_duration_step h
  | setUserTrustlineCount => exact set_user_trustline_count_step h
  | setGovernanceConfig => exact set_governance_config_step h
  | _ => exact change_config_step rfl (by simp) h

end Specs

/-- The proposal has passed: its timelock has elapsed, and as many different members of the admin
set as the threshold asks for have approved it. -/
def PassedMultisig (c : Control) (env : Env) (proposalId : Nat) : Prop :=
  ∃ proposal config, c.proposals proposalId = some proposal ∧ proposal.status = .active ∧
    proposal.timelockUntil ≤ env.timestamp ∧ c.config = some config ∧ config.adminSet ≠ [] ∧
    ∃ approvers : List Address, approvers.Nodup ∧ config.adminThreshold ≤ approvers.length ∧
      ∀ a ∈ approvers, a ∈ config.adminSet ∧ a ∈ proposal.approvals

/-- The authority for a change of the configuration: the stored admin's, that of the first admin
who initialises the contract, or that of a proposal that has passed. -/
inductive Authorised (s : Storage) : Receipt → Prop where
  | admin {r} : s.configuration.AdminAuthorises r.env → Authorised s r
  | initial {env admin outcomeManager minStake effects} : s.control.config = none →
      admin ∈ env.auths →
      Authorised s ⟨env, .desk (.initializeContract admin outcomeManager minStake), effects⟩
  | multisig {env caller proposalId effects} : PassedMultisig s.control env proposalId →
      Authorised s ⟨env, .executeAdminProposal caller proposalId, effects⟩

section Law

variable {T : Type}

/-- If the step changes the configuration, it is an invocation with the authority to. -/
def ConfigurationLaw (w : World T) (l : Label) (w' : World T) : Prop :=
  w'.store.configuration ≠ w.store.configuration → ∃ r, l = .invoked r ∧ Authorised w.store r

/-- The two unguarded setters are used with the stored admin's authorisation or change nothing, and
so is the execution of a proposal that has not passed. -/
def GuardedChange (s : Storage) : Label → Prop
  | .invoked ⟨env, .desk (.setXlmSacAddress xlmSac), _⟩ =>
    s.configuration.AdminAuthorises env ∨ s.control.xlmSacAddr = some xlmSac
  | .invoked ⟨env, .desk (.setMaxDuration _ maxDurationSecs), _⟩ =>
    s.configuration.AdminAuthorises env ∨ s.control.maxDuration = some maxDurationSecs
  | .invoked ⟨env, .executeAdminProposal _ proposalId, _⟩ =>
    s.configuration.AdminAuthorises env ∨ PassedMultisig s.control env proposalId ∨
      ∀ proposal config, s.control.proposals proposalId = some proposal →
        s.control.config = some config → proposal.operation.rewrite config = config
  | _ => True

variable [Tokens T] [Crypto] {self : Address} {outside : T → T → Prop} {w w' : World T}
  {l : Label}

omit [Tokens T] [Crypto] in
/-- An operation on the desk keeps the law exactly if it is guarded. -/
theorem DeskChange.law_iff {env : Env} {op : DeskOp} {effects : List (Effect Event)}
    (h : DeskChange env w.store.configuration op w'.store.configuration) :
    ConfigurationLaw w (.invoked ⟨env, .desk op, effects⟩) w' ↔
      GuardedChange w.store (.invoked ⟨env, .desk op, effects⟩) := by
  unfold ConfigurationLaw
  generalize hafter : w'.store.configuration = after at h
  cases h with
  | kept hop =>
    refine iff_of_true (fun hne => absurd rfl hne) ?_
    cases op <;> trivial
  | initialised hnone hauth => exact iff_of_true (fun _ => ⟨_, rfl, .initial hnone hauth⟩) trivial
  | rewritten hconfig hauth _ =>
    have hadmin : w.store.configuration.AdminAuthorises env := ⟨_, hconfig, hauth⟩
    refine iff_of_true (fun _ => ⟨_, rfl, .admin hadmin⟩) ?_
    cases op <;> first | trivial | exact .inl hadmin
  | trustline hadmin => exact iff_of_true (fun _ => ⟨_, rfl, .admin hadmin⟩) trivial
  | governance hadmin => exact iff_of_true (fun _ => ⟨_, rfl, .admin hadmin⟩) trivial
  | @xlmSac xlmSac =>
    constructor
    · intro hlaw
      by_cases hsame : w.store.control.xlmSacAddr = some xlmSac
      · exact .inr hsame
      · obtain ⟨r, hr, hauthorised⟩ := hlaw fun heq =>
          hsame (congrArg Configuration.xlmSacAddr heq).symm
        cases hr
        cases hauthorised with
        | admin hadmin => exact .inl hadmin
    · rintro (hadmin | hsame) hne
      · exact ⟨_, rfl, .admin hadmin⟩
      · exact absurd (congrArg (fun a => { w.store.configuration with xlmSacAddr := a })
          hsame.symm) hne
  | @maxDuration admin maxDurationSecs hauth _ =>
    constructor
    · intro hlaw
      by_cases hsame : w.store.control.maxDuration = some maxDurationSecs
      · exact .inr hsame
      · obtain ⟨r, hr, hauthorised⟩ := hlaw fun heq =>
          hsame (congrArg Configuration.maxDuration heq).symm
        cases hr
        cases hauthorised with
        | admin hadmin => exact .inl hadmin
    · rintro (hadmin | hsame) hne
      · exact ⟨_, rfl, .admin hadmin⟩
      · exact absurd (congrArg (fun a => { w.store.configuration with maxDuration := a })
          hsame.symm) hne

/-- In every state, a step keeps the law exactly if it is guarded. -/
theorem configuration_law_iff_guarded (hstep : (registry self outside).step w l w') :
    ConfigurationLaw w l w' ↔ GuardedChange w.store l := by
  cases hstep with
  | elsewhere => exact iff_of_true (fun hne => absurd rfl hne) trivial
  | @invoked env action f _ _ _ hrun =>
    cases action with
    | market op =>
      have hsteps := MarketOp.steps hrun
      refine iff_of_true (fun hne => absurd ?_ hne) trivial
      show configurationOf f.store.profiles f.store.control = _
      unfold Storage.configuration configurationOf
      rw [hsteps.control, hsteps.tracked.trustlines]
      rfl
    | desk op =>
      obtain ⟨desk, hdesk, rfl⟩ := run_onDesk.mp hrun
      exact DeskChange.law_iff ((DeskOp.steps hdesk).change)
    | executeAdminProposal caller proposalId =>
      obtain ⟨proposal, config, hproposal, hactive, htimelock, hconfig, hthreshold, hadmin, -,
        hexec⟩ := execute_admin_proposal_executes hrun
      change w.store.control.proposals proposalId = some proposal at hproposal
      change w.store.control.config = some config at hconfig
      have hafter : configurationOf f.store.profiles f.store.control =
          { w.store.configuration with
            contract := some (proposal.operation.rewrite config) } := by
        unfold configurationOf
        rw [hexec.configured, hexec.profiles]
        rfl
      constructor
      · intro hlaw
        by_cases hsame : proposal.operation.rewrite config = config
        · refine .inr (.inr fun p c hp hc => ?_)
          obtain rfl : proposal = p := Option.some.inj (hproposal.symm.trans hp)
          obtain rfl : config = c := Option.some.inj (hconfig.symm.trans hc)
          exact hsame
        · obtain ⟨r, hr, hauthorised⟩ := hlaw fun heq => hsame <| Option.some.inj <|
            (congrArg Configuration.contract (hafter.symm.trans heq)).trans hconfig
          cases hr
          cases hauthorised with
          | admin hadmin => exact .inl hadmin
          | multisig hpassed => exact .inr (.inl hpassed)
      · rintro (hadmin | hpassed | hsame) hne
        · exact ⟨_, rfl, .admin hadmin⟩
        · exact ⟨_, rfl, .multisig hpassed⟩
        · refine absurd (hafter.trans ?_) hne
          rw [hsame proposal config hproposal hconfig, ← hconfig]
          rfl

end Law

section Scenario

attribute [local instance] noCrypto

/-- The admin initialises the registry. -/
def initialisedRun : Replayed (T := StandardLedger) home anything :=
  .of freshWorld fresh_world_empty
    [at_ 1 [adminAddress] (.desk (.initializeContract adminAddress managerAddress 0))]
    (by decide +kernel)

/-- Bob calls the setter of the duration limit and passes himself as the admin. -/
def bobsLimit : Receipt × World StandardLedger :=
  (initialisedRun.world.invoke ⟨home, 2, 2, [bob]⟩ (.desk (.setMaxDuration bob 1))).get
    (by decide +kernel)

/-- The admin sets the duration limit. -/
def adminsLimit : Receipt × World StandardLedger :=
  (initialisedRun.world.invoke ⟨home, 2, 2, [adminAddress]⟩
    (.desk (.setMaxDuration adminAddress 1))).get (by decide +kernel)

/-- The admin's own change keeps the law. -/
theorem configuration_law_for_admin :
    ConfigurationLaw initialisedRun.world (.invoked adminsLimit.1) adminsLimit.2 :=
  have hinvoke : initialisedRun.world.invoke ⟨home, 2, 2, [adminAddress]⟩
      (.desk (.setMaxDuration adminAddress 1)) = some adminsLimit := (Option.some_get _).symm
  have hstep : (registry home fun _ _ => False).step initialisedRun.world
      (.invoked adminsLimit.1) adminsLimit.2 :=
    World.invoke_step hinvoke rfl (by decide +kernel) (by decide +kernel)
  have hguarded : GuardedChange initialisedRun.world.store (.invoked adminsLimit.1) :=
    .inl ⟨initialConfig adminAddress managerAddress 0, rfl, .head _⟩
  (configuration_law_iff_guarded hstep).mpr hguarded

/-- Bob, who is not the admin, has cut the duration of every later call to a second. -/
theorem stranger_sets_max_duration :
    (registry home fun _ _ => False).Run (.invoked bobsLimit.1 :: initialisedRun.history)
        bobsLimit.2 ∧
      bobsLimit.2.store.control.maxDuration = some 1 ∧
      ¬ ConfigurationLaw initialisedRun.world (.invoked bobsLimit.1) bobsLimit.2 := by
  have hrun : (registry home fun _ _ => False).Run initialisedRun.history initialisedRun.world :=
    initialisedRun.run anything_allowed
  have hinvoke : initialisedRun.world.invoke ⟨home, 2, 2, [bob]⟩ (.desk (.setMaxDuration bob 1)) =
      some bobsLimit := (Option.some_get _).symm
  have hstep : (registry home fun _ _ => False).step initialisedRun.world
      (.invoked bobsLimit.1) bobsLimit.2 :=
    World.invoke_step hinvoke rfl (by decide +kernel) (by decide +kernel)
  refine ⟨hrun.tail hstep trivial, by decide +kernel, fun hlaw => ?_⟩
  have hchanged : bobsLimit.2.store.configuration ≠ initialisedRun.world.store.configuration := by
    intro heq
    exact absurd (congrArg Configuration.maxDuration heq) (by decide +kernel)
  obtain ⟨r, hr, hauthorised⟩ := hlaw hchanged
  cases hr
  cases hauthorised with
  | admin hadmin =>
    obtain ⟨config, hconfig, hauth⟩ := hadmin
    have hnone : ∀ c ∈ initialisedRun.world.store.control.config, c.admin ∉ [bob] := by
      decide +kernel
    exact hnone config hconfig hauth

end Scenario

end Backit.CallRegistry
