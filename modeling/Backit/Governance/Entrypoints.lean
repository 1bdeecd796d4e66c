import Backit.Governance.Treasury

/-!
# The entry points of the governance contract

Users propose calls of other contracts, vote on them with a power drawn from their reputation, and
anyone executes what has passed. A user may delegate: its votes are then recorded for the delegate.
Fees are paid in, split, and withdrawn with the approval of the treasury's signers.
-/

namespace Backit.Governance

open Soroban Contract

def votingPowerDenom : Int := 1000000

def possibleVotingPower : Int := 100000000000

variable {P : Type}

/-- The entry point `initialize`. -/
def initializeGovernance (admin : Address) (proposalThresholdCalls thresholdAccuracyBps
    votingPeriodLedgers quorumBps passThresholdBps : Nat) : Gov P Unit := do
  rejectIf ((← getStore).config.isSome = true) (.error .alreadyInitialized)
  requireAuth admin
  modifyStore (·.setConfig
    { admin := admin
      proposalThresholdCalls := proposalThresholdCalls
      thresholdAccuracyBps := thresholdAccuracyBps
      votingPeriodLedgers := votingPeriodLedgers
      quorumBps := quorumBps
      passThresholdBps := passThresholdBps })

def nextProposalId : Gov P Nat := do
  let id ← unsigned 64 ((← getStore).proposalCounter + 1)
  modifyStore (·.setProposalCounter id)
  pure id

def proposeChange (proposer targetContract : Address) (functionName : String) : Gov P Nat := do
  requireAuth proposer
  let config ← unwrap (← getStore).config (.error .notInitialized)
  let accuracy := ((← getStore).userReputation proposer).1
  rejectIf (accuracy < config.proposalThresholdCalls ∨ accuracy = 0)
    (.error .insufficientReputation)
  let id ← nextProposalId
  let environment ← env
  modifyStore (·.setProposal id
    { id := id
      proposer := proposer
      targetContract := targetContract
      functionName := functionName
      forVotes := 0
      againstVotes := 0
      createdLedger := environment.sequence
      executed := false })
  publish (.proposalCreated id proposer targetContract functionName)
  pure id

/-- The votes with the support of the voter's first one changed, and that one's power, if the voter
has one. -/
def changeSupport (voter : Address) (support : Bool) : List Vote → Option (List Vote × Int)
  | [] => none
  | v :: rest =>
    if v.voter = voter then some ({ v with support := support } :: rest, v.power)
    else (changeSupport voter support rest).map fun (votes, power) => (v :: votes, power)

/-- Record the first vote of a voter and add its power to the tally. -/
def recordVote (proposalId : Nat) (proposal : Proposal) (voter : Address) (support : Bool) :
    Gov P Unit := do
  let (accuracyBps, totalStaked) := (← getStore).userReputation voter
  let power ← i128 (accuracyBps * votingPowerDenom + totalStaked.tdiv 1000000)
  modifyStore fun s => s.setVotes proposalId (s.votes proposalId ++ [⟨voter, support, power⟩])
  let counted ← unwrap
    (checkedAdd (if support then proposal.forVotes else proposal.againstVotes) power)
    (.error .proposalInactive)
  modifyStore (·.setProposal proposalId
    (if support then { proposal with forVotes := counted }
      else { proposal with againstVotes := counted }))
  publish (.voteCast proposalId voter support power)

/-- Vote for the voter's delegate, or for the voter when it has none. The support of a vote already
recorded is changed, and the tally is left as it is. -/
def vote (voter : Address) (proposalId : Nat) (support : Bool) : Gov P Unit := do
  requireAuth voter
  let config ← unwrap (← getStore).config (.error .notInitialized)
  let proposal ← unwrap ((← getStore).proposal proposalId) (.error .proposalNotFound)
  rejectIf (proposal.executed = true) (.error .alreadyExecuted)
  let environment ← env
  let deadline ← unsigned 32 (proposal.createdLedger + config.votingPeriodLedgers)
  rejectIf (deadline < environment.sequence) (.error .votingPeriodEnded)
  let effectiveVoter := ((← getStore).delegation voter).getD voter
  match changeSupport effectiveVoter support ((← getStore).votes proposalId) with
  | some (votes, power) => do
      modifyStore (·.setVotes proposalId votes)
      publish (.voteCast proposalId effectiveVoter support power)
  | none => recordVote proposalId proposal effectiveVoter support

def delegateVotes (delegator delegate : Address) : Gov P Unit := do
  requireAuth delegator
  rejectIf (delegator = delegate) (.error .selfDelegation)
  modifyStore (·.setDelegate delegator delegate)
  publish (.delegationChanged delegator delegate)

def setReputation (admin user : Address) (resolvedCalls : Nat) (totalStaked : Int) :
    Gov P Unit := do
  requireAuth admin
  let config ← unwrap (← getStore).config (.error .notInitialized)
  rejectIf (admin ≠ config.admin) (.error .unauthorized)
  modifyStore (·.setUserReputation user resolvedCalls totalStaked)

/-- Set the treasury up, once, with the default split. -/
def initTreasury (admin : Address) (signers : List Address) (threshold : Nat) : Gov P Unit := do
  let config ← unwrap (← getStore).config (.error .notInitialized)
  rejectIf (admin ≠ config.admin) (.error .unauthorized)
  requireAuth admin
  rejectIf ((← getStore).treasurySettings.isSome = true) (.error .alreadyInitialized)
  rejectIf (threshold = 0 ∨ signers.length < threshold) (.error .invalidTreasuryConfig)
  modifyStore (·.setTreasury ⟨signers, threshold, defaultSplit⟩)

/-- Replace the split. Needs the approval of the threshold of signers. -/
def setFeeSplit (approvers : List Address) (bps : List Nat) : Gov P Unit := do
  let config ← unwrap (← getStore).treasurySettings (.error .notInitialized)
  requireSigners config approvers
  validateSplit bps
  publish (.feeSplitUpdated bps)
  modifyStore (·.setTreasury { config with splitBps := bps })

section Peers

variable [Targets P]

def executeProposal (caller : Address) (proposalId : Nat) : Gov P Unit := do
  requireAuth caller
  let config ← unwrap (← getStore).config (.error .notInitialized)
  let proposal ← unwrap ((← getStore).proposal proposalId) (.error .proposalNotFound)
  rejectIf (proposal.executed = true) (.error .alreadyExecuted)
  let environment ← env
  let deadline ← unsigned 32 (proposal.createdLedger + config.votingPeriodLedgers)
  rejectIf (environment.sequence ≤ deadline) (.error .proposalInactive)
  let totalPower ← i128 (proposal.forVotes + proposal.againstVotes)
  let scaled ← i128 (possibleVotingPower * config.quorumBps)
  rejectIf (totalPower < scaled.tdiv 10000) (.error .quorumNotMet)
  let scaled ← i128 (totalPower * config.passThresholdBps)
  rejectIf (proposal.forVotes ≤ scaled.tdiv 10000) (.error .proposalNotPassed)
  modifyStore (·.setProposal proposalId { proposal with executed := true })
  invokeContract proposal.targetContract proposal.functionName
  publish (.proposalExecuted proposalId)

/-- Burn a part of a fee, when there is one. -/
def burnPart (token holder : Address) (amount : Int) : Gov P Unit :=
  if 0 < amount then do
    tokenBurn token holder amount
    addBurned token amount
  else pure ()

/-- Take an amount of a token from the payer and split it over the buckets. -/
def ingestFee (payer token : Address) (amount : Int) : Gov P Parts := do
  requireAuth payer
  let config ← unwrap (← getStore).treasurySettings (.error .notInitialized)
  rejectIf (amount ≤ 0) (.error .invalidAmount)
  let parts ← splitAmount amount config.splitBps
  let environment ← env
  tokenTransfer token payer environment.contract amount
  addToBuckets token
    [(.treasury, parts.treasury), (.creatorIncentives, parts.creators), (.buyback, parts.buyback)]
  burnPart token environment.contract parts.burn
  publish (.feeSplit token amount parts.treasury parts.creators parts.buyback parts.burn)
  pure parts

/-- Pay an amount out of a held bucket. Needs the approval of the threshold of signers. -/
def withdrawBucket (approvers : List Address) (token : Address) (bucket : Bucket) (recipient : Address)
    (amount : Int) : Gov P Unit := do
  let config ← unwrap (← getStore).treasurySettings (.error .notInitialized)
  requireSigners config approvers
  rejectIf (amount ≤ 0 ∨ bucket = .burn) (.error .invalidAmount)
  let held := (← getStore).balance token bucket
  rejectIf (held < amount) (.error .insufficientBucket)
  let rest ← i128 (held - amount)
  modifyStore (·.setBalance token bucket rest)
  let environment ← env
  tokenTransfer token environment.contract recipient amount

end Peers

/-- The entry points that write. -/
inductive GovOp where
  | initializeGovernance (admin : Address) (proposalThresholdCalls thresholdAccuracyBps
      votingPeriodLedgers quorumBps passThresholdBps : Nat)
  | proposeChange (proposer targetContract : Address) (functionName : String)
  | vote (voter : Address) (proposalId : Nat) (support : Bool)
  | executeProposal (caller : Address) (proposalId : Nat)
  | initTreasury (admin : Address) (signers : List Address) (threshold : Nat)
  | setFeeSplit (approvers : List Address) (bps : List Nat)
  | ingestFee (payer token : Address) (amount : Int)
  | withdrawBucket (approvers : List Address) (token : Address) (bucket : Bucket)
      (recipient : Address) (amount : Int)
  | delegateVotes (delegator delegate : Address)
  | setReputation (admin user : Address) (resolvedCalls : Nat) (totalStaked : Int)
  deriving DecidableEq

/-- Run an invocation of an entry point. -/
def GovOp.perform [Targets P] : GovOp → Gov P Unit
  | .initializeGovernance admin calls accuracy period quorum pass =>
    Governance.initializeGovernance admin calls accuracy period quorum pass
  | .proposeChange proposer target name => ignore (Governance.proposeChange proposer target name)
  | .vote voter proposalId support => Governance.vote voter proposalId support
  | .executeProposal caller proposalId => Governance.executeProposal caller proposalId
  | .initTreasury admin signers threshold => Governance.initTreasury admin signers threshold
  | .setFeeSplit approvers bps => Governance.setFeeSplit approvers bps
  | .ingestFee payer token amount => ignore (Governance.ingestFee payer token amount)
  | .withdrawBucket approvers token bucket recipient amount =>
    Governance.withdrawBucket approvers token bucket recipient amount
  | .delegateVotes delegator delegate => Governance.delegateVotes delegator delegate
  | .setReputation admin user calls staked => Governance.setReputation admin user calls staked

/-- The executions of a governance contract, given what its peers may be at first. -/
def governance [Targets P] (self : Address) (outside : P → P → Prop) (start : P → Prop) :
    Lib.System (Deployment Storage P) (Happening GovOp Event) :=
  contractSystem GovOp.perform self outside fun d => d.store = .empty ∧ start d.peers

end Backit.Governance

/-!
## What the entry points of the governance contract do

Every successful invocation makes one of the listed transitions.
-/

namespace Backit.Governance

open Soroban Contract

/-- The approval of the treasury's signers: all approvers are signers and have authorised the call,
and the distinct ones among them reach the threshold. -/
structure Approved (env : Env) (config : TreasuryConfig) (approvers : List Address) : Prop where
  signers : ∀ a ∈ approvers, a ∈ config.signers
  enough : config.threshold ≤ (distinct approvers).length
  authorised : ∀ a ∈ approvers, a ∈ env.auths

/-- The parts of an amount. -/
def partsOf (amount : Int) (bps : List Nat) : Parts :=
  let share (i : Nat) : Int := (amount * (bps[i]?.getD 0 : Nat)).tdiv bpsDenom
  ⟨amount - share 1 - share 2 - share 3, share 1, share 2, share 3⟩

/-- A list of basis points that a fee can be split by. -/
def ValidSplit (bps : List Nat) : Prop := bps.length = 4 ∧ (bps.sum : Int) = bpsDenom

/-- The address whose vote a voter casts. -/
def Storage.effectiveVoter (s : Storage) (voter : Address) : Address :=
  (s.delegation voter).getD voter

/-- The power of a voter. -/
def Storage.power (s : Storage) (voter : Address) : Int :=
  (s.userReputation voter).1 * votingPowerDenom + (s.userReputation voter).2.tdiv 1000000

/-- The proposal with a vote counted. -/
def Proposal.counted (p : Proposal) (support : Bool) (power : Int) : Proposal :=
  if support then { p with forVotes := p.forVotes + power }
  else { p with againstVotes := p.againstVotes + power }

namespace Storage

variable (s : Storage)

/-- The storage after the first vote of a voter. -/
def voted (id : Nat) (proposal : Proposal) (voter : Address) (support : Bool) : Storage :=
  (s.setVotes id (s.votes id ++ [⟨voter, support, s.power voter⟩])).setProposal id
    (proposal.counted support (s.power voter))

/-- The storage after a fee's parts are added to the held buckets. -/
def ingested (token : Address) (parts : Parts) : Storage :=
  ((s.setBalance token .treasury (s.balance token .treasury + parts.treasury)).setBalance token
    .creatorIncentives (s.balance token .creatorIncentives + parts.creators)).setBalance token
    .buyback (s.balance token .buyback + parts.buyback)

/-- The storage after a burn is counted. -/
def burnedPart (token : Address) (amount : Int) : Storage :=
  if 0 < amount then s.setBurned token (s.burned token + amount) else s

end Storage

section Relations

variable {P : Type} [Targets P]

/-- The burn of a part, when there is one. -/
inductive Burns (env : Env) (token holder : Address) (amount : Int) (p : P) : P → Prop where
  | burned {peers} : 0 < amount → Targets.burn env token holder amount p = some peers →
      Burns env token holder amount p peers
  | nothing : ¬ 0 < amount → Burns env token holder amount p p

/-- A successful invocation. -/
inductive Transition (env : Env) (f : Frame Storage P Event) :
    GovOp → Frame Storage P Event → Prop where
  | configured {admin calls accuracy period quorum pass config} :
      f.store.config = none → admin ∈ env.auths →
      Transition env f (.initializeGovernance admin calls accuracy period quorum pass)
        { f with store := f.store.setConfig config }
  | proposed {proposer target name proposal} :
      proposer ∈ env.auths → proposal.forVotes = 0 → proposal.againstVotes = 0 →
      Transition env f (.proposeChange proposer target name)
        ⟨(f.store.setProposalCounter (f.store.proposalCounter + 1)).setProposal
            (f.store.proposalCounter + 1) proposal, f.tokens,
          .event (.proposalCreated (f.store.proposalCounter + 1) proposer target name) ::
            f.effects⟩
  | revoted {voter id support proposal votes power} :
      voter ∈ env.auths → f.store.proposal id = some proposal →
      changeSupport (f.store.effectiveVoter voter) support (f.store.votes id) =
        some (votes, power) →
      Transition env f (.vote voter id support)
        ⟨f.store.setVotes id votes, f.tokens,
          .event (.voteCast id (f.store.effectiveVoter voter) support power) :: f.effects⟩
  | voted {voter id support proposal} : voter ∈ env.auths → f.store.proposal id = some proposal →
      changeSupport (f.store.effectiveVoter voter) support (f.store.votes id) = none →
      Transition env f (.vote voter id support)
        ⟨f.store.voted id proposal (f.store.effectiveVoter voter) support, f.tokens,
          .event (.voteCast id (f.store.effectiveVoter voter) support
            (f.store.power (f.store.effectiveVoter voter))) :: f.effects⟩
  | executed {caller id proposal peers} : f.store.proposal id = some proposal →
      Targets.invoke env proposal.targetContract proposal.functionName f.tokens = some peers →
      Transition env f (.executeProposal caller id)
        ⟨f.store.setProposal id { proposal with executed := true }, peers,
          .event (.proposalExecuted id) :: f.effects⟩
  | treasuryConfigured {admin signers threshold} : f.store.treasurySettings = none →
      Transition env f (.initTreasury admin signers threshold)
        { f with store := f.store.setTreasury ⟨signers, threshold, defaultSplit⟩ }
  | splitChanged {approvers bps config} :
      f.store.treasurySettings = some config → Approved env config approvers → ValidSplit bps →
      Transition env f (.setFeeSplit approvers bps)
        ⟨f.store.setTreasury { config with splitBps := bps }, f.tokens,
          .event (.feeSplitUpdated bps) :: f.effects⟩
  | ingested {payer token amount config parts peers peers'} :
      payer ∈ env.auths → f.store.treasurySettings = some config → 0 < amount →
      parts = partsOf amount config.splitBps →
      Tokens.transfer env token payer env.contract amount f.tokens = some peers →
      Burns env token env.contract parts.burn peers peers' →
      Transition env f (.ingestFee payer token amount)
        ⟨(f.store.ingested token parts).burnedPart token parts.burn, peers',
          .event (.feeSplit token amount parts.treasury parts.creators parts.buyback parts.burn) ::
            .transfer token payer env.contract amount :: f.effects⟩
  | withdrawn {approvers token bucket recipient amount config peers} :
      f.store.treasurySettings = some config → Approved env config approvers → 0 < amount →
      bucket ≠ .burn → amount ≤ f.store.balance token bucket →
      Tokens.transfer env token env.contract recipient amount f.tokens = some peers →
      Transition env f (.withdrawBucket approvers token bucket recipient amount)
        ⟨f.store.setBalance token bucket (f.store.balance token bucket - amount), peers,
          .transfer token env.contract recipient amount :: f.effects⟩
  | delegated {delegator delegate} : delegator ∈ env.auths →
      Transition env f (.delegateVotes delegator delegate)
        ⟨f.store.setDelegate delegator delegate, f.tokens,
          .event (.delegationChanged delegator delegate) :: f.effects⟩
  | reputed {admin user calls staked} : Transition env f (.setReputation admin user calls staked)
        { f with store := f.store.setUserReputation user calls staked }

end Relations

section Specs

variable {P : Type} {env : Env} {f f' : Frame Storage P Event} {α : Type} {r : α}

theorem distinct_spec (approvers seen : List Address) (hseen : seen.Nodup) :
    (approvers.foldl (fun seen a => if a ∈ seen then seen else seen ++ [a]) seen).Nodup ∧
      ∀ a, a ∈ approvers.foldl (fun seen a => if a ∈ seen then seen else seen ++ [a]) seen ↔
        a ∈ seen ∨ a ∈ approvers := by
  induction approvers generalizing seen with
  | nil => simpa using hseen
  | cons b rest ih =>
    rw [List.foldl_cons]
    by_cases hb : b ∈ seen
    · rw [if_pos hb]
      obtain ⟨hnodup, hmem⟩ := ih seen hseen
      refine ⟨hnodup, fun a => ?_⟩
      rw [hmem, List.mem_cons]
      constructor
      · exact Or.imp_right .inr
      · rintro (ha | rfl | ha)
        · exact .inl ha
        · exact .inl hb
        · exact .inr ha
    · rw [if_neg hb]
      obtain ⟨hnodup, hmem⟩ := ih (seen ++ [b])
        (List.nodup_append.mpr ⟨hseen, List.nodup_singleton b, by
          intro x hx y hy hxy
          rw [List.mem_singleton] at hy
          exact hb (hy ▸ hxy ▸ hx)⟩)
      refine ⟨hnodup, fun a => ?_⟩
      rw [hmem, List.mem_append, List.mem_singleton, List.mem_cons, or_assoc]

theorem distinct_nodup (approvers : List Address) : (distinct approvers).Nodup :=
  (distinct_spec approvers [] List.nodup_nil).1

@[simp] theorem mem_distinct {approvers : List Address} {a : Address} :
    a ∈ distinct approvers ↔ a ∈ approvers := by
  simpa [distinct] using (distinct_spec approvers [] List.nodup_nil).2 a

theorem run_requireEach_bind (addresses : List Address) (k : Unit → Gov P α) :
    run (requireEach addresses >>= k) env f = .ok (r, f') ↔
      (∀ a ∈ addresses, a ∈ env.auths) ∧ run (k ()) env f = .ok (r, f') := by
  induction addresses with
  | nil => simp [requireEach]
  | cons a rest ih =>
    simp only [requireEach, Contract.bind_assoc, run_requireAuth_bind, ih, List.forall_mem_cons,
      and_assoc]

/-- The signers' check passes if and only if they have approved. -/
theorem run_requireSigners_bind (config : TreasuryConfig) (approvers : List Address)
    (k : Unit → Gov P α) :
    run (requireSigners config approvers >>= k) env f = .ok (r, f') ↔
      Approved env config approvers ∧ run (k ()) env f = .ok (r, f') := by
  simp only [requireSigners, Contract.bind_assoc, run_rejectIf_bind, run_requireEach_bind,
    mem_distinct, not_exists, not_and, not_not, not_lt]
  constructor
  · rintro ⟨hsigners, henough, hauth, h⟩
    exact ⟨⟨hsigners, henough, hauth⟩, h⟩
  · rintro ⟨⟨hsigners, henough, hauth⟩, h⟩
    exact ⟨hsigners, henough, hauth, h⟩

theorem splitSum_eq_some {sum total : Nat} {bps : List Nat} (h : splitSum sum bps = some total) :
    total = sum + bps.sum := by
  induction bps generalizing sum with
  | nil =>
    cases h
    rfl
  | cons b rest ih =>
    rw [splitSum] at h
    split at h
    · rw [ih h, List.sum_cons]
      omega
    · cases h

theorem run_validateSplit_bind {bps : List Nat} (k : Unit → Gov P α)
    (h : run (validateSplit bps >>= k) env f = .ok (r, f')) :
    ValidSplit bps ∧ run (k ()) env f = .ok (r, f') := by
  simp only [validateSplit, Contract.bind_assoc, run_steps, not_not] at h
  obtain ⟨hlength, sum, hsum, hwhole, h⟩ := h
  obtain rfl := splitSum_eq_some hsum
  rw [Nat.zero_add] at hwhole
  exact ⟨⟨hlength, hwhole⟩, h⟩

theorem run_splitAmount_bind {amount : Int} {bps : List Nat} (k : Parts → Gov P α)
    (h : run (splitAmount amount bps >>= k) env f = .ok (r, f')) :
    run (k (partsOf amount bps)) env f = .ok (r, f') := by
  simp only [splitAmount, part, Contract.bind_assoc, run_steps, checkedMul, checked_eq_some] at h
  obtain ⟨_, ⟨-, rfl⟩, _, ⟨-, rfl⟩, _, ⟨-, rfl⟩, -, -, -, h⟩ := h
  exact h

theorem run_addToBuckets_bind {token : Address} {parts : Parts} (k : Unit → Gov P α)
    (h : run (addToBuckets token [(.treasury, parts.treasury), (.creatorIncentives, parts.creators),
      (.buyback, parts.buyback)] >>= k) env f = .ok (r, f')) :
    run (k ()) env { f with store := f.store.ingested token parts } = .ok (r, f') := by
  simp only [addToBuckets, Contract.bind_assoc, run_steps] at h
  obtain ⟨-, -, -, h⟩ := h
  simpa [Storage.ingested, Storage.setBalance] using h

variable [Targets P]

theorem run_tokenBurn_bind (token holder : Address) (amount : Int) (k : Unit → Gov P α) :
    run (tokenBurn token holder amount >>= k) env f = .ok (r, f') ↔
      ∃ peers, Targets.burn env token holder amount f.tokens = some peers ∧
        run (k ()) env { f with tokens := peers } = .ok (r, f') := by
  cases h : Targets.burn env token holder amount f.tokens <;> simp [run, bind, tokenBurn, h]

theorem run_invokeContract_bind (target : Address) (name : String) (k : Unit → Gov P α) :
    run (invokeContract target name >>= k) env f = .ok (r, f') ↔
      ∃ peers, Targets.invoke env target name f.tokens = some peers ∧
        run (k ()) env { f with tokens := peers } = .ok (r, f') := by
  cases h : Targets.invoke env target name f.tokens <;> simp [run, bind, invokeContract, h]

theorem run_burnPart_bind {token holder : Address} {amount : Int} (k : Unit → Gov P α)
    (h : run (burnPart token holder amount >>= k) env f = .ok (r, f')) :
    ∃ peers, Burns env token holder amount f.tokens peers ∧
      run (k ()) env ⟨f.store.burnedPart token amount, peers, f.effects⟩ = .ok (r, f') := by
  unfold burnPart at h
  unfold Storage.burnedPart
  by_cases hpositive : 0 < amount
  · simp only [if_pos hpositive, Contract.bind_assoc, run_tokenBurn_bind, addBurned, run_steps] at h
    obtain ⟨peers, hburn, -, h⟩ := h
    rw [if_pos hpositive]
    exact ⟨peers, .burned hpositive hburn, h⟩
  · rw [if_neg hpositive, run_pure_bind] at h
    rw [if_neg hpositive]
    exact ⟨f.tokens, .nothing hpositive, h⟩

omit [Targets P] in
theorem run_recordVote {id : Nat} {proposal : Proposal} {voter : Address} {support : Bool} {u : Unit}
    (h : run (recordVote id proposal voter support) env f = .ok (u, f')) :
    f' = ⟨f.store.voted id proposal voter support, f.tokens,
      .event (.voteCast id voter support (f.store.power voter)) :: f.effects⟩ := by
  simp only [recordVote, run_steps, checkedAdd, checked_eq_some] at h
  obtain ⟨-, _, ⟨-, rfl⟩, rfl⟩ := h
  cases support <;> rfl

/-- An invocation that succeeds makes a listed transition. -/
theorem GovOp.transitions {op : GovOp} (h : run op.perform env f = .ok ((), f')) :
    Transition env f op f' := by
  cases op with
  | initializeGovernance admin calls accuracy period quorum pass =>
    simp only [GovOp.perform, Governance.initializeGovernance, run_steps] at h
    obtain ⟨hnone, hauth, rfl⟩ := h
    exact .configured (by simpa using hnone) hauth
  | proposeChange proposer target name =>
    simp only [GovOp.perform, run_ignore, Governance.proposeChange, nextProposalId,
      Contract.bind_assoc, run_steps] at h
    obtain ⟨_, hauth, _, -, -, -, -, rfl⟩ := h
    exact .proposed hauth rfl rfl
  | vote voter id support =>
    simp only [GovOp.perform, Governance.vote, run_steps] at h
    obtain ⟨hauth, _, -, proposal, hproposal, -, -, -, h⟩ := h
    cases hchange : changeSupport (f.store.effectiveVoter voter) support (f.store.votes id) with
    | none =>
      rw [Storage.effectiveVoter] at hchange
      simp only [hchange] at h
      rw [run_recordVote h]
      exact .voted hauth hproposal hchange
    | some changed =>
      obtain ⟨votes, power⟩ := changed
      rw [Storage.effectiveVoter] at hchange
      simp only [hchange, run_steps] at h
      rw [h]
      exact .revoted hauth hproposal hchange
  | executeProposal caller id =>
    simp only [GovOp.perform, Governance.executeProposal, run_steps, run_invokeContract_bind] at h
    obtain ⟨-, _, -, proposal, hproposal, -, -, -, -, -, -, -, -, peers, hinvoke, rfl⟩ := h
    exact .executed hproposal hinvoke
  | initTreasury admin signers threshold =>
    simp only [GovOp.perform, Governance.initTreasury, run_steps] at h
    obtain ⟨_, -, -, -, hnone, -, rfl⟩ := h
    exact .treasuryConfigured (by simpa using hnone)
  | setFeeSplit approvers bps =>
    simp only [GovOp.perform, Governance.setFeeSplit, run_steps, run_requireSigners_bind] at h
    obtain ⟨config, hconfig, happroved, h⟩ := h
    obtain ⟨hvalid, h⟩ := run_validateSplit_bind _ h
    simp only [run_steps] at h
    rw [h]
    exact .splitChanged hconfig happroved hvalid
  | ingestFee payer token amount =>
    simp only [GovOp.perform, run_ignore, Governance.ingestFee, run_steps, not_le] at h
    obtain ⟨_, hauth, config, hconfig, hamount, h⟩ := h
    have hsplit := run_splitAmount_bind _ h
    simp only [run_steps] at hsplit
    obtain ⟨peers, htransfer, hsplit⟩ := hsplit
    obtain ⟨peers', hburns, hrest⟩ := run_burnPart_bind _ (run_addToBuckets_bind _ hsplit)
    simp only [run_steps] at hrest
    obtain ⟨-, rfl⟩ := hrest
    exact .ingested hauth hconfig hamount rfl htransfer hburns
  | withdrawBucket approvers token bucket recipient amount =>
    simp only [GovOp.perform, Governance.withdrawBucket, run_steps, run_requireSigners_bind,
      run_tokenTransfer, not_or, not_le, not_lt] at h
    obtain ⟨config, hconfig, happroved, ⟨hamount, hbucket⟩, hheld, -, peers, htransfer, rfl⟩ := h
    exact .withdrawn hconfig happroved hamount hbucket hheld htransfer
  | delegateVotes delegator delegate =>
    simp only [GovOp.perform, Governance.delegateVotes, run_steps] at h
    obtain ⟨hauth, -, rfl⟩ := h
    exact .delegated hauth
  | setReputation admin user calls staked =>
    simp only [GovOp.perform, Governance.setReputation, run_steps] at h
    obtain ⟨-, _, -, -, rfl⟩ := h
    exact .reputed

end Specs

end Backit.Governance
