import Backit.CallRegistry.Executions

/-!
# What an operation does to the admin proposals

`ProposalChange` lists what the operations on the desk do to the proposals of the admin set. Only
four of them touch a proposal, and the rest leave the proposals and their counter as they are.
-/

namespace Backit.CallRegistry

open Soroban Contract Lib

/-- The proposal that an operation on the desk names. -/
def DeskOp.names : DeskOp → Option Nat
  | .approveAdminProposal _ proposalId | .vetoAdminProposal _ proposalId
  | .cancelAdminProposal _ proposalId => some proposalId
  | _ => none

/-- A proposal as it is when it is proposed. -/
def newProposal (id : Nat) (proposer : Address) (operation : Operation) (now timelock : Nat) :
    Proposal where
  id := id
  proposer := proposer
  operation := operation
  approvals := []
  createdAt := now
  timelockUntil := now + timelock
  status := .active

/-- What a successful operation on the desk did to the proposals, and the events it published. -/
inductive ProposalChange (env : Env) (c : Control) : DeskOp → List Event → Control → Prop where
  | kept {op events c'} : op.names = none → c'.proposals = c.proposals →
      c'.proposalCounter = c.proposalCounter → ProposalChange env c op events c'
  | proposed {proposer operation timelock c'} : proposer ∈ env.auths →
      c'.proposals = Function.update c.proposals (c.proposalCounter + 1)
        (some (newProposal (c.proposalCounter + 1) proposer operation env.timestamp timelock)) →
      c'.proposalCounter = c.proposalCounter + 1 →
      ProposalChange env c (.proposeAdminOperation proposer operation timelock)
        [.operationProposed (c.proposalCounter + 1) proposer] c'
  | approved {admin id proposal events c'} : admin ∈ env.auths → c.proposals id = some proposal →
      proposal.status = .active → admin ∉ proposal.approvals →
      c'.proposals = Function.update c.proposals proposal.id
        (some { proposal with approvals := proposal.approvals ++ [admin] }) →
      c'.proposalCounter = c.proposalCounter →
      ProposalChange env c (.approveAdminProposal admin id) events c'
  | approvedBefore {admin id proposal events c'} : admin ∈ env.auths →
      c.proposals id = some proposal → proposal.status = .active → admin ∈ proposal.approvals →
      c'.proposals = c.proposals → c'.proposalCounter = c.proposalCounter →
      ProposalChange env c (.approveAdminProposal admin id) events c'
  | vetoed {admin id proposal events c'} : admin ∈ env.auths → c.proposals id = some proposal →
      proposal.status = .active →
      c'.proposals = Function.update c.proposals proposal.id
        (some { proposal with status := .vetoed }) →
      c'.proposalCounter = c.proposalCounter →
      ProposalChange env c (.vetoAdminProposal admin id) events c'
  | cancelled {caller id proposal events c'} : c.proposals id = some proposal →
      proposal.status = .active → c'.proposals = Function.update c.proposals id none →
      c'.proposalCounter = c.proposalCounter →
      ProposalChange env c (.cancelAdminProposal caller id) events c'

section Specs

variable {env : Env} {d d' : Desk} {u : Unit}

/-- The proposals and their counter stay as they are. -/
def Desk.SameProposals (d d' : Desk) : Prop :=
  d'.control.proposals = d.control.proposals ∧
    d'.control.proposalCounter = d.control.proposalCounter

@[simp] theorem run_officeConfig_bind {β : Type} (missing : Failure CallRegistryError)
    (k : ContractConfig → Office β) {b : β} :
    run (officeConfig missing >>= k) env d = .ok (b, d') ↔
      ∃ config, d.control.config = some config ∧ run (k config) env d = .ok (b, d') := by
  simp only [officeConfig, Contract.bind_assoc, run_get_bind, run_unwrap_bind]

theorem change_config_same_proposals {missing : Failure CallRegistryError}
    {change : ContractConfig → ContractConfig} {events : ContractConfig → List Event}
    (h : run (changeConfig missing change events) env d = .ok (u, d')) : d.SameProposals d' := by
  simp only [changeConfig, run_officeConfig_bind, run_requireAuth_bind, run_modify_bind,
    announceAll, run_modify] at h
  obtain ⟨config, -, -, rfl⟩ := h
  exact ⟨rfl, rfl⟩

theorem initialize_contract_same_proposals {admin outcomeManager : Address} {minStake : Int}
    (h : run (initializeContract admin outcomeManager minStake) env d = .ok (u, d')) :
    d.SameProposals d' := by
  simp only [initializeContract, run_get_bind, run_steps, run_modify_bind, announce,
    run_modify] at h
  obtain ⟨-, -, rfl⟩ := h
  exact ⟨rfl, rfl⟩

theorem set_admin_set_same_proposals {admins : List Address} {threshold : Nat}
    (h : run (setAdminSet admins threshold) env d = .ok (u, d')) : d.SameProposals d' := by
  simp only [setAdminSet, run_officeConfig_bind, run_steps, run_modify_bind, announce,
    run_modify] at h
  obtain ⟨config, -, -, -, rfl⟩ := h
  exact ⟨rfl, rfl⟩

theorem set_max_duration_same_proposals {admin : Address} {maxDurationSecs : Nat}
    (h : run (setMaxDuration admin maxDurationSecs) env d = .ok (u, d')) : d.SameProposals d' := by
  simp only [setMaxDuration, run_steps, run_get_bind, run_modify_bind, announce, run_modify] at h
  obtain ⟨-, -, rfl⟩ := h
  exact ⟨rfl, rfl⟩

theorem set_user_trustline_count_same_proposals {user : Address} {count : Nat}
    (h : run (setUserTrustlineCount user count) env d = .ok (u, d')) : d.SameProposals d' := by
  simp only [setUserTrustlineCount, run_officeConfig_bind, run_requireAuth_bind, run_modify] at h
  obtain ⟨config, -, -, rfl⟩ := h
  exact ⟨rfl, rfl⟩

theorem upgrade_same_proposals (h : run upgrade env d = .ok (u, d')) : d.SameProposals d' := by
  simp only [upgrade, run_officeConfig_bind, run_steps, run_get_bind, run_modify_bind, announce,
    run_modify] at h
  obtain ⟨config, -, -, -, rfl⟩ := h
  exact ⟨rfl, rfl⟩

theorem propose_change_same_proposals {proposer : Address} {parameter : String} {bytes : Bytes}
    {votingEndLedger : Nat} {volume : Int} {id : Nat}
    (h : run (proposeChange proposer parameter bytes votingEndLedger volume) env d = .ok (id, d')) :
    d.SameProposals d' := by
  simp only [proposeChange, run_steps, run_get_bind, run_modify_bind, announce] at h
  obtain ⟨-, -, -, -, -, rfl⟩ := h
  exact ⟨rfl, rfl⟩

theorem governance_vote_same_proposals {voter : Address} {proposalId : Nat} {support : Bool}
    {volume : Int} (h : run (governanceVote voter proposalId support volume) env d = .ok (u, d')) :
    d.SameProposals d' := by
  simp only [governanceVote, run_steps, run_get_bind, run_modify_bind, announce, run_modify] at h
  obtain ⟨-, -, proposal, -, -, -, rfl⟩ := h
  exact ⟨rfl, rfl⟩

theorem execute_proposal_same_proposals {proposalId : Nat} {stake : Int}
    {proposal : GovernanceProposal}
    (h : run (executeProposal proposalId stake) env d = .ok (proposal, d')) :
    d.SameProposals d' := by
  simp only [executeProposal, run_get_bind, run_steps, run_modify_bind, announce] at h
  obtain ⟨_, -, -, -, -, -, rfl⟩ := h
  exact ⟨rfl, rfl⟩

theorem set_governance_config_same_proposals {cfg : GovernanceConfig}
    (h : run (setGovernanceConfig cfg) env d = .ok (u, d')) : d.SameProposals d' := by
  simp only [setGovernanceConfig, run_officeConfig_bind, run_requireAuth_bind, run_modify] at h
  obtain ⟨config, -, -, rfl⟩ := h
  exact ⟨rfl, rfl⟩

theorem link_sep10_domain_same_proposals [Crypto] {user : Address} {key : BytesN 32}
    {token : BytesN 64} {validUntil : Nat} {homeDomain : Bytes}
    (h : run (linkSep10Domain user key token validUntil homeDomain) env d = .ok (u, d')) :
    d.SameProposals d' := by
  simp only [linkSep10Domain, verifySep10Token, run_steps, Contract.bind_assoc] at h
  obtain ⟨-, h⟩ := h
  split at h
  · simp only [run_steps, not_true_eq_false, false_and] at h
  · simp only [Contract.bind_assoc, run_ed25519Verify_bind, run_steps, run_modify_bind, announce,
      run_modify] at h
    obtain ⟨-, -, rfl⟩ := h
    exact ⟨rfl, rfl⟩

@[simp] theorem run_officeProposal_bind {β : Type} (proposalId : Nat) (k : Proposal → Office β)
    {b : β} :
    run (officeProposal proposalId >>= k) env d = .ok (b, d') ↔
      ∃ proposal, d.control.proposals proposalId = some proposal ∧ proposal.status = .active ∧
        run (k proposal) env d = .ok (b, d') := by
  simp only [officeProposal, Contract.bind_assoc, run_get_bind, run_steps, Decidable.not_not]

theorem propose_admin_operation_change {proposer : Address} {operation : Operation}
    {timelock id : Nat} (hevents : d.events = [])
    (h : run (proposeAdminOperation proposer operation timelock) env d = .ok (id, d')) :
    ProposalChange env d.control (.proposeAdminOperation proposer operation timelock) d'.events
      d'.control := by
  simp only [proposeAdminOperation, run_steps, run_officeConfig_bind, run_get_bind, run_modify_bind,
    announce] at h
  obtain ⟨hauth, _, -, -, -, -, hd'⟩ := h
  have hannounced : d'.events =
      [.operationProposed (d.control.proposalCounter + 1) proposer] := by
    rw [← hd']
    exact congrArg _ hevents
  rw [hannounced]
  subst hd'
  exact .proposed hauth rfl rfl

theorem approve_admin_proposal_change {admin : Address} {id : Nat}
    (h : run (approveAdminProposal admin id) env d = .ok (u, d')) :
    ProposalChange env d.control (.approveAdminProposal admin id) d'.events d'.control := by
  simp only [approveAdminProposal, run_requireAuth_bind, run_officeProposal_bind] at h
  obtain ⟨hauth, proposal, hproposal, hactive, h⟩ := h
  unfold recordApproval at h
  split at h
  · next hbefore =>
    cases h
    exact .approvedBefore hauth hproposal hactive hbefore rfl rfl
  · next hnew =>
    simp only [run_modify_bind, announce, run_modify] at h
    subst h
    exact .approved hauth hproposal hactive hnew rfl rfl

theorem veto_admin_proposal_change {admin : Address} {id : Nat}
    (h : run (vetoAdminProposal admin id) env d = .ok (u, d')) :
    ProposalChange env d.control (.vetoAdminProposal admin id) d'.events d'.control := by
  simp only [vetoAdminProposal, run_requireAuth_bind, run_officeProposal_bind, run_modify_bind,
    announce, run_modify] at h
  obtain ⟨hauth, proposal, hproposal, hactive, rfl⟩ := h
  exact .vetoed hauth hproposal hactive rfl rfl

theorem cancel_admin_proposal_change {caller : Address} {id : Nat}
    (h : run (cancelAdminProposal id) env d = .ok (u, d')) :
    ProposalChange env d.control (.cancelAdminProposal caller id) d'.events d'.control := by
  simp only [cancelAdminProposal, run_officeProposal_bind, run_steps, run_officeConfig_bind,
    run_modify] at h
  obtain ⟨proposal, hproposal, hactive, -, _, -, -, rfl⟩ := h
  exact .cancelled hproposal hactive rfl rfl

theorem ProposalChange.of_same {op : DeskOp} (hop : op.names = none) (h : d.SameProposals d') :
    ProposalChange env d.control op d'.events d'.control :=
  .kept hop h.1 h.2

/-- What a successful operation on the desk did to the proposals. -/
theorem DeskOp.proposal_change [Crypto] {op : DeskOp} (hevents : d.events = [])
    (h : run op.perform env d = .ok (u, d')) :
    ProposalChange env d.control op d'.events d'.control := by
  cases op with
  | proposeAdminOperation =>
    obtain ⟨_, h⟩ := run_ignore.mp h
    exact propose_admin_operation_change hevents h
  | approveAdminProposal => exact approve_admin_proposal_change h
  | vetoAdminProposal => exact veto_admin_proposal_change h
  | cancelAdminProposal => exact cancel_admin_proposal_change h
  | initializeContract => exact .of_same rfl (initialize_contract_same_proposals h)
  | setXlmSacAddress =>
    simp only [DeskOp.perform, CallRegistry.setXlmSacAddress, run_modify] at h
    subst h
    exact .of_same rfl ⟨rfl, rfl⟩
  | setMaxStakePerUser | setReputationParams | setMinStake | setFee =>
    exact .of_same rfl (change_config_same_proposals ((run_rejectIf_bind ..).mp h).2)
  | setAdminSet => exact .of_same rfl (set_admin_set_same_proposals h)
  | setMaxDuration => exact .of_same rfl (set_max_duration_same_proposals h)
  | setUserTrustlineCount => exact .of_same rfl (set_user_trustline_count_same_proposals h)
  | upgrade => exact .of_same rfl (upgrade_same_proposals h)
  | proposeChange =>
    obtain ⟨_, h⟩ := run_ignore.mp h
    exact .of_same rfl (propose_change_same_proposals h)
  | governanceVote => exact .of_same rfl (governance_vote_same_proposals h)
  | executeProposal =>
    obtain ⟨_, h⟩ := run_ignore.mp h
    exact .of_same rfl (execute_proposal_same_proposals h)
  | setGovernanceConfig => exact .of_same rfl (set_governance_config_same_proposals h)
  | linkSep10Domain => exact .of_same rfl (link_sep10_domain_same_proposals h)
  | _ => exact .of_same rfl (change_config_same_proposals h)

end Specs

/-!
## The admin set's proposals

A stored proposal is traced back to the invocations that made it: who proposed it, and who
authorised each approval. Approving does not check that the approver belongs to the admin set, and
execution counts every approval, so the threshold protects the contract only when all recorded
approvals are by current members.
-/

/-- The proposal whose fate an invocation decides. -/
def Action.closes : Action → Option Nat
  | .desk (.vetoAdminProposal _ proposalId) | .desk (.cancelAdminProposal _ proposalId)
  | .executeAdminProposal _ proposalId => some proposalId
  | _ => none

def Label.closes : Label → Option Nat
  | .invoked r => r.action.closes
  | .elsewhere => none

/-- Whether a step is an approval of a proposal that the address authorised. -/
def Label.approves (proposalId : Nat) (admin : Address) : Label → Bool
  | .invoked ⟨env, .desk (.approveAdminProposal a id), _⟩ =>
    decide (a = admin) && decide (id = proposalId) && decide (admin ∈ env.auths)
  | _ => false

/-- Whether the address authorised an approval of the proposal. -/
def approvedBy (history : List Label) (proposalId : Nat) (admin : Address) : Bool :=
  history.any (Label.approves proposalId admin)

/-- The proposal was made by an invocation that its proposer authorised, and its timelock counts
from then. -/
def ProposedAs (history : List Label) (p : Proposal) : Prop :=
  ∃ r timelock, Label.invoked r ∈ history ∧
    r.action = .desk (.proposeAdminOperation p.proposer p.operation timelock) ∧
    p.proposer ∈ r.env.auths ∧ r.effects = [.event (.operationProposed p.id p.proposer)] ∧
    p.timelockUntil = r.env.timestamp + timelock

/-- The stored proposals are traced back to the history. -/
structure Control.ProposalsTraced (history : List Label) (c : Control) : Prop where
  keyed : ∀ id p, c.proposals id = some p → p.id = id ∧ id ≤ c.proposalCounter
  proposed : ∀ id p, c.proposals id = some p → ProposedAs history p
  approvals_nodup : ∀ id p, c.proposals id = some p → p.approvals.Nodup
  approved : ∀ id p, c.proposals id = some p → ∀ a ∈ p.approvals, approvedBy history id a = true
  active : ∀ id p, c.proposals id = some p → p.status = .active →
    ∀ l ∈ history, l.closes ≠ some id
  closed : ∀ l ∈ history, ∀ id, l.closes = some id → id ≤ c.proposalCounter

theorem ProposedAs.mono {history : List Label} {p : Proposal} (h : ProposedAs history p)
    (l : Label) : ProposedAs (l :: history) p := by
  obtain ⟨r, timelock, hr, h⟩ := h
  exact ⟨r, timelock, List.mem_cons_of_mem _ hr, h⟩

theorem approvedBy_mono {history : List Label} {id : Nat} {a : Address}
    (h : approvedBy history id a = true) (l : Label) : approvedBy (l :: history) id a = true := by
  simp only [approvedBy, List.any_cons, Bool.or_eq_true]
  exact .inr h

namespace Control.ProposalsTraced

variable {history : List Label} {c c' : Control} {l : Label} {id : Nat} {p p' : Proposal}

theorem empty : Storage.empty.control.ProposalsTraced [] := by
  constructor <;> simp [Storage.empty]

theorem kept (h : c.ProposalsTraced history) (hproposals : c'.proposals = c.proposals)
    (hcounter : c'.proposalCounter = c.proposalCounter) (hl : l.closes = none) :
    c'.ProposalsTraced (l :: history) := by
  refine ⟨?_, ?_, ?_, ?_, ?_, ?_⟩
  · rw [hproposals, hcounter]
    exact h.keyed
  · rw [hproposals]
    exact fun id p hp => (h.proposed id p hp).mono l
  · rw [hproposals]
    exact h.approvals_nodup
  · rw [hproposals]
    exact fun id p hp a ha => approvedBy_mono (h.approved id p hp a ha) l
  · rw [hproposals]
    intro id p hp hactive l' hl'
    obtain rfl | hl' := List.mem_cons.mp hl'
    · simp [hl]
    · exact h.active id p hp hactive l' hl'
  · rw [hcounter]
    intro l' hl' id hcloses
    obtain rfl | hl' := List.mem_cons.mp hl'
    · simp [hl] at hcloses
    · exact h.closed l' hl' id hcloses

/-- A step that replaces a stored proposal, and decides the fate of no other. -/
theorem replaced (h : c.ProposalsTraced history) (hp : c.proposals id = some p)
    (hproposals : c'.proposals = Function.update c.proposals p.id (some p'))
    (hcounter : c'.proposalCounter = c.proposalCounter) (hid : p'.id = p.id)
    (hproposed : ∀ history, ProposedAs history p → ProposedAs history p')
    (hnodup : p'.approvals.Nodup)
    (happroved : ∀ a ∈ p'.approvals, approvedBy (l :: history) id a = true)
    (hcloses : l.closes = none ∨ l.closes = some id)
    (hactive : p'.status = .active → p.status = .active ∧ l.closes = none) :
    c'.ProposalsTraced (l :: history) := by
  obtain ⟨hpid, hnumber⟩ := h.keyed id p hp
  have hcases : ∀ i q, c'.proposals i = some q →
      (i = id ∧ q = p') ∨ (i ≠ id ∧ c.proposals i = some q) := by
    intro i q hq
    rw [hproposals, hpid, Function.update_apply] at hq
    split at hq
    · next hi => exact .inl ⟨hi, by simpa using hq.symm⟩
    · next hi => exact .inr ⟨hi, hq⟩
  refine ⟨?_, ?_, ?_, ?_, ?_, ?_⟩
  · intro i q hq
    rw [hcounter]
    obtain ⟨rfl, rfl⟩ | ⟨-, hq⟩ := hcases i q hq
    · exact ⟨hid.trans hpid, hnumber⟩
    · exact h.keyed i q hq
  · intro i q hq
    obtain ⟨rfl, rfl⟩ | ⟨-, hq⟩ := hcases i q hq
    · exact hproposed _ ((h.proposed i p hp).mono l)
    · exact (h.proposed i q hq).mono l
  · intro i q hq
    obtain ⟨rfl, rfl⟩ | ⟨-, hq⟩ := hcases i q hq
    · exact hnodup
    · exact h.approvals_nodup i q hq
  · intro i q hq a ha
    obtain ⟨rfl, rfl⟩ | ⟨-, hq⟩ := hcases i q hq
    · exact happroved a ha
    · exact approvedBy_mono (h.approved i q hq a ha) l
  · intro i q hq hstatus l' hl'
    obtain ⟨rfl, rfl⟩ | ⟨hi, hq⟩ := hcases i q hq
    · obtain ⟨hbefore, hopen⟩ := hactive hstatus
      obtain rfl | hl' := List.mem_cons.mp hl'
      · simp [hopen]
      · exact h.active i p hp hbefore l' hl'
    · obtain rfl | hl' := List.mem_cons.mp hl'
      · obtain hnone | hsome := hcloses
        · simp [hnone]
        · simpa [hsome] using Ne.symm hi
      · exact h.active i q hq hstatus l' hl'
  · intro l' hl' i hi
    rw [hcounter]
    obtain rfl | hl' := List.mem_cons.mp hl'
    · obtain hnone | hsome := hcloses
      · simp [hnone] at hi
      · obtain rfl : id = i := by simpa [hsome] using hi
        exact hnumber
    · exact h.closed l' hl' i hi

theorem removed (h : c.ProposalsTraced history) (hp : c.proposals id = some p)
    (hproposals : c'.proposals = Function.update c.proposals id none)
    (hcounter : c'.proposalCounter = c.proposalCounter) (hcloses : l.closes = some id) :
    c'.ProposalsTraced (l :: history) := by
  have hcases : ∀ i q, c'.proposals i = some q → i ≠ id ∧ c.proposals i = some q := by
    intro i q hq
    rw [hproposals, Function.update_apply] at hq
    split at hq
    · cases hq
    · next hi => exact ⟨hi, hq⟩
  refine ⟨?_, ?_, ?_, ?_, ?_, ?_⟩
  · intro i q hq
    rw [hcounter]
    exact h.keyed i q (hcases i q hq).2
  · exact fun i q hq => (h.proposed i q (hcases i q hq).2).mono l
  · exact fun i q hq => h.approvals_nodup i q (hcases i q hq).2
  · exact fun i q hq a ha => approvedBy_mono (h.approved i q (hcases i q hq).2 a ha) l
  · intro i q hq hstatus l' hl'
    obtain ⟨hi, hq⟩ := hcases i q hq
    obtain rfl | hl' := List.mem_cons.mp hl'
    · simpa [hcloses] using Ne.symm hi
    · exact h.active i q hq hstatus l' hl'
  · intro l' hl' i hi
    rw [hcounter]
    obtain rfl | hl' := List.mem_cons.mp hl'
    · obtain rfl : id = i := by simpa [hcloses] using hi
      exact (h.keyed id p hp).2
    · exact h.closed l' hl' i hi

theorem added (h : c.ProposalsTraced history) (hproposals : c'.proposals =
      Function.update c.proposals (c.proposalCounter + 1) (some p))
    (hcounter : c'.proposalCounter = c.proposalCounter + 1) (hid : p.id = c.proposalCounter + 1)
    (hproposed : ProposedAs (l :: history) p) (happrovals : p.approvals = [])
    (hcloses : l.closes = none) : c'.ProposalsTraced (l :: history) := by
  have hcases : ∀ i q, c'.proposals i = some q →
      (i = c.proposalCounter + 1 ∧ q = p) ∨ c.proposals i = some q := by
    intro i q hq
    rw [hproposals, Function.update_apply] at hq
    split at hq
    · next hi => exact .inl ⟨hi, by simpa using hq.symm⟩
    · exact .inr hq
  refine ⟨?_, ?_, ?_, ?_, ?_, ?_⟩
  · intro i q hq
    rw [hcounter]
    obtain ⟨rfl, rfl⟩ | hq := hcases i q hq
    · exact ⟨hid, le_rfl⟩
    · have hkeyed := h.keyed i q hq
      exact ⟨hkeyed.1, by omega⟩
  · intro i q hq
    obtain ⟨rfl, rfl⟩ | hq := hcases i q hq
    · exact hproposed
    · exact (h.proposed i q hq).mono l
  · intro i q hq
    obtain ⟨rfl, rfl⟩ | hq := hcases i q hq
    · simp [happrovals]
    · exact h.approvals_nodup i q hq
  · intro i q hq a ha
    obtain ⟨rfl, rfl⟩ | hq := hcases i q hq
    · simp [happrovals] at ha
    · exact approvedBy_mono (h.approved i q hq a ha) l
  · intro i q hq hstatus l' hl' hi
    obtain rfl | hl' := List.mem_cons.mp hl'
    · simp [hcloses] at hi
    · obtain ⟨rfl, rfl⟩ | hq := hcases i q hq
      · have := h.closed l' hl' _ hi
        omega
      · exact h.active i q hq hstatus l' hl' hi
  · intro l' hl' i hi
    rw [hcounter]
    obtain rfl | hl' := List.mem_cons.mp hl'
    · simp [hcloses] at hi
    · exact (h.closed l' hl' i hi).trans (Nat.le_succ _)

end Control.ProposalsTraced

section Steps

variable {env : Env} {c c' : Control} {op : DeskOp} {events : List Event} {history : List Label}

/-- The step of the invariant, for an operation on the desk. -/
theorem ProposalChange.traced (hchange : ProposalChange env c op events c')
    (h : c.ProposalsTraced history) :
    c'.ProposalsTraced (.invoked ⟨env, .desk op, events.map .event⟩ :: history) := by
  cases hchange with
  | kept hop hproposals hcounter =>
    refine h.kept hproposals hcounter ?_
    cases op <;> simp_all [DeskOp.names, Label.closes, Action.closes]
  | @proposed proposer operation timelock _ hauth hproposals hcounter =>
    refine h.added hproposals hcounter rfl ?_ rfl rfl
    exact ⟨_, timelock, List.mem_cons_self, rfl, hauth, rfl, rfl⟩
  | @approved admin id proposal _ _ hauth hproposal hactive hnew hproposals hcounter =>
    refine h.replaced hproposal hproposals hcounter rfl (fun _ hmade => hmade) ?_ ?_ (.inl rfl)
      fun hstatus => ⟨hstatus, rfl⟩
    · exact (h.approvals_nodup id proposal hproposal).append (List.nodup_singleton admin)
        (List.disjoint_singleton.mpr hnew)
    · intro a ha
      obtain ha | rfl := by simpa using ha
      · exact approvedBy_mono (h.approved id proposal hproposal a ha) _
      · simp [approvedBy, Label.approves, hauth]
  | approvedBefore _ _ _ _ hproposals hcounter => exact h.kept hproposals hcounter rfl
  | @vetoed admin id proposal _ _ _ hproposal hactive hproposals hcounter =>
    refine h.replaced hproposal hproposals hcounter rfl (fun _ hmade => hmade)
      (h.approvals_nodup id proposal hproposal) ?_ (.inr rfl) fun hstatus => by cases hstatus
    exact fun a ha => approvedBy_mono (h.approved id proposal hproposal a ha) _
  | cancelled hproposal _ hproposals hcounter => exact h.removed hproposal hproposals hcounter rfl

variable {T : Type} [Tokens T] [Crypto] {self : Address} {outside : T → T → Prop} {w w' : World T}
  {l : Label}

theorem WorldStep.proposals_traced (hs : WorldStep self outside w l w')
    (h : w.store.control.ProposalsTraced history) :
    w'.store.control.ProposalsTraced (l :: history) := by
  cases hs with
  | elsewhere => exact h.kept rfl rfl rfl
  | @invoked env action f _ _ _ hrun =>
    cases action with
    | market op =>
      have hcontrol : f.store.control = w.store.control := (MarketOp.steps hrun).control
      exact h.kept (congrArg _ hcontrol) (congrArg _ hcontrol) rfl
    | desk op =>
      obtain ⟨desk, hdesk, rfl⟩ := run_onDesk.mp hrun
      have hchange := (DeskOp.proposal_change rfl hdesk).traced h
      simpa [World.frame] using hchange
    | executeAdminProposal caller id =>
      obtain ⟨p, _, hp, -, -, -, -, -, hproposals, hexec⟩ := execute_admin_proposal_executes hrun
      refine h.replaced hp hproposals hexec.counter rfl (fun _ hmade => hmade)
        (h.approvals_nodup id p hp) ?_ (.inr rfl) fun hstatus => by cases hstatus
      exact fun a ha => approvedBy_mono (h.approved id p hp a ha) _

end Steps

/-- Whether a step, if it executes a proposal under a nonempty admin set, finds only approvals by
members of the set. -/
def executesOnMembersApprovals {T : Type} (w : World T) : Label → Bool
  | .invoked ⟨_, .executeAdminProposal _ proposalId, _⟩ =>
    w.store.control.config.all fun config =>
      (w.store.control.proposals proposalId).all fun p =>
        config.adminSet.isEmpty || p.approvals.all fun a => decide (a ∈ config.adminSet)
  | _ => true

/-- Every proposal that is executed under a nonempty admin set has been approved by members of the
set only. -/
def membersApprove {T : Type} : System.Guard (World T) Label :=
  fun _ w l => executesOnMembersApprovals w l = true

section Run

variable {T : Type} [Tokens T] [Crypto] {self : Address} {outside : T → T → Prop}
  {guard : System.Guard (World T) Label} {history : List Label} {w w' : World T}

theorem proposals_traced (run : (registry self outside).RunWhere guard history w) :
    w.store.control.ProposalsTraced history := by
  refine run.invariant (I := fun h w => w.store.control.ProposalsTraced h) ?_ ?_
  · intro s hs
    rw [show s.store = Storage.empty from hs]
    exact .empty
  · intro h s l s' _ ih hs _
    exact hs.proposals_traced ih

end Run

section Scenario

attribute [local instance] noCrypto

def carol : Address := ⟨3⟩

def dave : Address := ⟨4⟩

/-- Alice and Bob are the admin set and both must approve. Carol, who is not in it, proposes to
raise the fee to all of the payout. -/
def proposalScript : List (Env × Action) :=
  [at_ 1 [adminAddress] (.desk (.initializeContract adminAddress managerAddress 0)),
    at_ 2 [adminAddress] (.desk (.setAdminSet [alice, bob] 2)),
    at_ 3 [carol] (.desk (.proposeAdminOperation carol (.setFee 10000) 5))]

/-- Alice and Bob approve. -/
def membersScript : List (Env × Action) :=
  proposalScript ++
    [at_ 4 [alice] (.desk (.approveAdminProposal alice 1)),
      at_ 5 [bob] (.desk (.approveAdminProposal bob 1))]

/-- Carol and Dave approve, and Carol executes. -/
def outsidersScript : List (Env × Action) :=
  proposalScript ++
    [at_ 4 [carol] (.desk (.approveAdminProposal carol 1)),
      at_ 5 [dave] (.desk (.approveAdminProposal dave 1)),
      at_ 8 [] (.executeAdminProposal carol 1)]

def membersRun : Replayed (T := StandardLedger) home fun _ => executesOnMembersApprovals :=
  .of freshWorld fresh_world_empty membersScript (by decide +kernel)

def outsidersRun : Replayed (T := StandardLedger) home anything :=
  .of freshWorld fresh_world_empty outsidersScript (by decide +kernel)

/-- Bob's invocation after the timelock. -/
def bobsEnv : Env := ⟨home, 8, 8, [bob]⟩

/-- Bob executes the proposal that he and Alice approved. -/
def membersExecution : Receipt × World StandardLedger :=
  (membersRun.world.invoke bobsEnv (.executeAdminProposal bob 1)).get (by decide +kernel)

/-- The configuration under which Bob executes the proposal. -/
def membersConfig : ContractConfig := membersRun.world.store.getConfig.get (by decide +kernel)

end Scenario

end Backit.CallRegistry
