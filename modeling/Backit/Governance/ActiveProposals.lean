import Backit.Governance.Tally

/-!
# The listing of active proposals

The contract keeps a list of proposal ids beside the proposals, and every write of a proposal adds
its id again. The first vote of a voter writes the proposal to add to the tally. A proposal is
therefore listed once more for every vote recorded on it.
-/

namespace Backit.Governance

open Soroban Contract Lib

section Listing

variable {P : Type}

/-- Whether a proposal is listed: it is not executed and its voting period has not ended. -/
def isActive (config : GovernanceConfig) (p : Proposal) : Gov P Bool :=
  if p.executed then pure false
  else do
    let environment ← env
    let deadline ← unsigned 32 (p.createdLedger + config.votingPeriodLedgers)
    pure (environment.sequence ≤ deadline)

/-- A proposal in front of others, if it is active. -/
def listProposal (config : GovernanceConfig) (proposal : Option Proposal)
    (others : List Proposal) : Gov P (List Proposal) :=
  match proposal with
  | none => pure others
  | some p => do
      let active ← isActive config p
      pure (if active then p :: others else others)

/-- The active proposals among those with the given ids. -/
def activeAmong (config : GovernanceConfig) : List Nat → Gov P (List Proposal)
  | [] => pure []
  | id :: rest => do
      let others ← activeAmong config rest
      let s ← getStore
      listProposal config (s.proposal id) others

def getActiveProposals : Gov P (List Proposal) := do
  let s ← getStore
  match s.config with
  | none => pure []
  | some config => activeAmong config s.proposalIds

/-- The voting period of a proposal ends at a ledger number. -/
def Proposal.HasDeadline (p : Proposal) (config : GovernanceConfig) : Prop :=
  p.createdLedger + config.votingPeriodLedgers < 2 ^ 32

/-- Votes on a proposal are accepted. -/
structure OpenForVoting (s : Storage) (env : Env) (config : GovernanceConfig) (p : Proposal) :
    Prop where
  configured : s.config = some config
  stored : s.proposal p.id = some p
  pending : p.executed = false
  inTime : env.sequence ≤ p.createdLedger + config.votingPeriodLedgers

/-- The listing returns every proposal that is open for voting once, and no other. -/
def ListsOpenOnce (d : Deployment Storage P) (env : Env) : Prop :=
  ∃ result, run getActiveProposals env d.frame = .ok (result, d.frame) ∧
    (∀ p ∈ result, ∃ config, OpenForVoting d.store env config p) ∧
    ∀ p config, OpenForVoting d.store env config p → result.count p = 1

/-- Every proposal that is not executed has a deadline, and no vote is recorded on one that is open
for voting. -/
def NoVotesRecorded (s : Storage) (env : Env) : Prop :=
  (∀ config id p, s.config = some config → s.proposal id = some p → p.executed = false →
    p.HasDeadline config) ∧
  ∀ config p, OpenForVoting s env config p → s.votes p.id = []

end Listing

/-- Every proposal is stored under its number. A proposal that is not executed is indexed when it is
made and again with every vote recorded on it, and nothing else is indexed. -/
structure Indexed (s : Storage) : Prop where
  named : ∀ id p, s.proposal id = some p → p.id = id
  known : ∀ id ∈ s.proposalIds, s.proposal id ≠ none
  writes : ∀ id p, s.proposal id = some p → p.executed = false →
    s.proposalIds.count id = 1 + (s.votes id).length

namespace Indexed

variable {s s' : Storage} {id : Nat} {p' : Proposal}

/-- Writing a proposal that is then open indexes it once more. -/
theorem rewritten (h : Indexed s) {votes : List Vote} (hid : p'.id = id)
    (hwrites : p'.executed = false → s.proposalIds.count id = votes.length) :
    Indexed ((s.setVotes id votes).setProposal id p') where
  named j q hq := by
    by_cases hj : j = id
    · subst hj
      obtain rfl : p' = q := by simpa [Storage.setProposal] using hq
      exact hid
    · exact h.named j q (by simpa [Storage.setProposal, Storage.setVotes, hj] using hq)
  known j hj := by
    by_cases hid : j = id
    · subst hid
      simp [Storage.setProposal]
    · have hmem : j ∈ s.proposalIds := by
        simpa [Storage.setProposal, Storage.setVotes, hid] using hj
      simpa [Storage.setProposal, Storage.setVotes, hid] using h.known j hmem
  writes j q hq hpending := by
    by_cases hj : j = id
    · subst hj
      obtain rfl : p' = q := by simpa [Storage.setProposal] using hq
      have hcount := hwrites hpending
      simp only [Storage.setProposal, Storage.setVotes, List.count_append,
        List.count_singleton_self, Function.update_self]
      omega
    · have hcount := h.writes j q
        (by simpa [Storage.setProposal, Storage.setVotes, hj] using hq) hpending
      simpa [Storage.setProposal, Storage.setVotes, hj, List.count_singleton, Ne.symm hj]
        using hcount

/-- Steps that write no proposal and no vote leave the index as it is. -/
theorem of_same (h : Indexed s) (hproposal : s'.proposal = s.proposal)
    (hids : s'.proposalIds = s.proposalIds) (hvotes : s'.votes = s.votes) : Indexed s' := by
  refine ⟨?_, ?_, ?_⟩
  · rw [hproposal]
    exact h.named
  · rw [hproposal, hids]
    exact h.known
  · rw [hproposal, hids, hvotes]
    exact h.writes

end Indexed

section Steps

variable {P : Type} [Targets P] {env : Env} {f f' : Frame Storage P Event} {op : GovOp}

@[simp] theorem Storage.burnedPart_ids (s : Storage) (token : Address) (amount : Int) :
    (s.burnedPart token amount).proposalIds = s.proposalIds := by
  unfold burnedPart
  split <;> rfl

theorem propose_change_stores {proposer target : Address} {name : String}
    (h : run (GovOp.proposeChange proposer target name).perform env f = .ok ((), f')) :
    ∃ p, p.id = f.store.proposalCounter + 1 ∧
      f'.store = (f.store.setProposalCounter (f.store.proposalCounter + 1)).setProposal
        (f.store.proposalCounter + 1) p := by
  simp only [GovOp.perform, run_ignore, Governance.proposeChange, nextProposalId,
    Contract.bind_assoc, run_steps] at h
  obtain ⟨_, -, _, -, -, -, -, rfl⟩ := h
  exact ⟨_, rfl, rfl⟩

theorem indexed_step (h : run op.perform env f = .ok ((), f')) (hr : Recorded f.store)
    (hi : Indexed f.store) : Indexed f'.store := by
  have htransition := GovOp.transitions h
  cases htransition with
  | proposed =>
    obtain ⟨p, hp, hstore⟩ := propose_change_stores h
    rw [hstore]
    have hnone : f.store.proposal (f.store.proposalCounter + 1) = none := by
      by_contra hsome
      have := hr.numbered _ hsome
      omega
    have hunlisted : f.store.proposalCounter + 1 ∉ f.store.proposalIds := fun hlisted =>
      hi.known _ hlisted hnone
    have hcount : p.executed = false →
        f.store.proposalIds.count (f.store.proposalCounter + 1) = ([] : List Vote).length :=
      fun _ => List.count_eq_zero.mpr hunlisted
    have hwritten := hi.rewritten hp hcount
    rw [← hr.next_free, Storage.setVotes_self] at hwritten
    exact hwritten.of_same rfl rfl rfl
  | @revoted voter id support proposal votes power _ hproposal hchange =>
    refine ⟨hi.named, hi.known, fun j q hq hpending => ?_⟩
    have hcount := hi.writes j q hq hpending
    by_cases hj : j = id
    · subst hj
      have hlength : votes.length = (f.store.votes j).length := by
        rw [← List.length_map Vote.voter, changeSupport_voters hchange, List.length_map]
      simpa [Storage.setVotes, hlength] using hcount
    · simpa [Storage.setVotes, hj] using hcount
  | @voted voter id support proposal _ hproposal _ =>
    refine hi.rewritten ?_ fun hpending => ?_
    · unfold Proposal.counted
      split <;> exact hi.named id proposal hproposal
    · have hbefore : proposal.executed = false := by
        unfold Proposal.counted at hpending
        split at hpending <;> exact hpending
      rw [hi.writes id proposal hproposal hbefore, List.length_append, List.length_singleton]
      exact Nat.add_comm _ _
  | @executed caller id proposal peers hproposal =>
    have hwritten : Indexed ((f.store.setVotes id (f.store.votes id)).setProposal id
        { proposal with executed := true }) :=
      hi.rewritten (hi.named id proposal hproposal) fun hpending => by cases hpending
    rwa [Storage.setVotes_self] at hwritten
  | ingested =>
    refine hi.of_same ?_ ?_ ?_
    · rw [Storage.burnedPart_proposal]
      rfl
    · rw [Storage.burnedPart_ids]
      rfl
    · rw [Storage.burnedPart_votes]
      rfl
  | configured => exact hi.of_same rfl rfl rfl
  | treasuryConfigured => exact hi.of_same rfl rfl rfl
  | splitChanged => exact hi.of_same rfl rfl rfl
  | withdrawn => exact hi.of_same rfl rfl rfl
  | delegated => exact hi.of_same rfl rfl rfl
  | reputed => exact hi.of_same rfl rfl rfl

end Steps

section Result

variable {P : Type} {env : Env} {f f' : Frame Storage P Event} {config : GovernanceConfig}

/-- A stored proposal is listed. -/
def Proposal.Listed (p : Proposal) (config : GovernanceConfig) (env : Env) : Prop :=
  p.executed = false ∧ env.sequence ≤ p.createdLedger + config.votingPeriodLedgers

instance (p : Proposal) (config : GovernanceConfig) (env : Env) :
    Decidable (p.Listed config env) := inferInstanceAs (Decidable (_ ∧ _))

/-- The stored proposal with an id, if it is listed. -/
def Storage.listed (s : Storage) (config : GovernanceConfig) (env : Env) (id : Nat) :
    Option Proposal :=
  (s.proposal id).filter (·.Listed config env)

theorem run_isActive_bind {α : Type} {p : Proposal} {k : Bool → Gov P α} {a : α} :
    run (isActive config p >>= k) env f = .ok (a, f') ↔
      (p.executed = false → p.HasDeadline config) ∧
        run (k (decide (p.Listed config env))) env f = .ok (a, f') := by
  unfold isActive Proposal.HasDeadline
  by_cases hexecuted : p.executed = true
  · have hnot : ¬ p.Listed config env := fun hlisted => by
      rw [hlisted.1] at hexecuted
      cases hexecuted
    simp [hexecuted, hnot]
  · have hlisted : p.Listed config env ↔
        env.sequence ≤ p.createdLedger + config.votingPeriodLedgers :=
      and_iff_right (by simpa using hexecuted)
    simp [hexecuted, hlisted, Contract.bind_assoc]

theorem run_listProposal {id : Nat} {others result : List Proposal} :
    run (listProposal config (f.store.proposal id) others : Gov P _) env f = .ok (result, f') ↔
      (∀ p, f.store.proposal id = some p → p.executed = false → p.HasDeadline config) ∧
        result = (f.store.listed config env id).toList ++ others ∧ f' = f := by
  unfold listProposal Storage.listed
  cases hproposal : f.store.proposal id with
  | none => simp [eq_comm (a := others), eq_comm (a := f)]
  | some p =>
    simp only [run_isActive_bind, run_pure, Except.ok.injEq, Prod.mk.injEq, Option.some.injEq,
      forall_eq', Option.filter_some, decide_eq_true_eq, eq_comm (a := f)]
    split <;> simp [eq_comm (b := result)]

/-- The listing succeeds when every proposal that is not executed has a deadline, and returns the
listed proposals in the order of the index. -/
theorem run_activeAmong {ids : List Nat} {result : List Proposal} :
    run (activeAmong config ids : Gov P _) env f = .ok (result, f') ↔
      (∀ id ∈ ids, ∀ p, f.store.proposal id = some p → p.executed = false →
        p.HasDeadline config) ∧
        result = ids.filterMap (f.store.listed config env) ∧ f' = f := by
  induction ids generalizing result f' with
  | nil => simp [activeAmong, eq_comm (b := result), eq_comm (a := f)]
  | cons id rest ih =>
    rw [activeAmong, run_bind]
    simp only [ih, run_getStore_bind]
    have hcons : (id :: rest).filterMap (f.store.listed config env) =
        (f.store.listed config env id).toList ++
          rest.filterMap (f.store.listed config env) := by
      cases hlisted : f.store.listed config env id <;> simp [hlisted]
    rw [hcons, List.forall_mem_cons]
    constructor
    · rintro ⟨others, _, ⟨hrest, rfl, rfl⟩, h⟩
      obtain ⟨hfirst, rfl, rfl⟩ := run_listProposal.mp h
      exact ⟨⟨hfirst, hrest⟩, rfl, rfl⟩
    · rintro ⟨⟨hfirst, hrest⟩, rfl, rfl⟩
      exact ⟨_, _, ⟨hrest, rfl, rfl⟩, run_listProposal.mpr ⟨hfirst, rfl, rfl⟩⟩

theorem Storage.listed_eq_some {s : Storage} {id : Nat} {p : Proposal} :
    s.listed config env id = some p ↔ s.proposal id = some p ∧ p.Listed config env := by
  simp [Storage.listed, Option.filter_eq_some_iff]

/-- A listed proposal appears as often as its number is indexed. -/
theorem Indexed.count_listed {s : Storage} (h : Indexed s) {p : Proposal}
    (hp : s.listed config env p.id = some p) (ids : List Nat) :
    (ids.filterMap (s.listed config env)).count p = ids.count p.id := by
  rw [List.count_filterMap, List.count_eq_countP]
  refine List.countP_congr fun id _ => ?_
  simp only [beq_iff_eq]
  constructor
  · intro hid
    exact (h.named id p (Storage.listed_eq_some.mp hid).1).symm
  · rintro rfl
    exact hp

end Result

section Run

variable {P : Type} [Targets P] {self : Address} {outside : P → P → Prop} {start : P → Prop}
  {history : List (Happening GovOp Event)} {d : Deployment Storage P}

theorem indexed_of_run {guard} (run : (governance self outside start).RunWhere guard history d) :
    Indexed d.store := by
  refine store_invariant (I := Indexed) ?_ ?_ run
  · rintro d ⟨hstore, -⟩
    rw [hstore]
    refine ⟨fun _ _ h => ?_, fun _ h => (List.not_mem_nil h).elim, fun _ _ h _ => ?_⟩
    · cases h
    · cases h
  · intro h d env op f hrun hi _ hinvoke _
    exact indexed_step hinvoke (recorded_of_run hrun) hi

omit [Targets P] in
/-- A listing that lists nothing twice shows that no vote is recorded on what is open. -/
theorem no_votes_of_listed_once (hi : Indexed d.store) {env : Env} (h : ListsOpenOnce d env) :
    NoVotesRecorded d.store env := by
  obtain ⟨result, hrun, -, honce⟩ := h
  rw [getActiveProposals, run_getStore_bind] at hrun
  cases hconfig : d.store.config with
  | none =>
    refine ⟨fun config _ _ hsome => ?_, fun config _ hopen => ?_⟩
    · cases hconfig.symm.trans hsome
    · cases hconfig.symm.trans hopen.configured
  | some config =>
    have hsame : ∀ config', d.store.config = some config' → config' = config :=
      fun config' h => Option.some.inj (h.symm.trans hconfig)
    have hstore : (d.frame : Frame Storage P Event).store.config = some config := hconfig
    simp only [hstore] at hrun
    obtain ⟨hdeadlines, rfl, -⟩ := run_activeAmong.mp hrun
    refine ⟨fun config' id p hconfig' hp hpending => ?_, fun config' p hopen => ?_⟩
    · rw [hsame config' hconfig']
      have hwrites := hi.writes id p hp hpending
      have hindexed : id ∈ d.store.proposalIds := List.count_pos_iff.mp (by omega)
      exact hdeadlines id hindexed p hp hpending
    · obtain rfl := hsame config' hopen.configured
      have hlisted : d.store.listed config' env p.id = some p :=
        Storage.listed_eq_some.mpr ⟨hopen.stored, hopen.pending, hopen.inTime⟩
      have hcount := honce p config' hopen
      rw [show (d.frame : Frame Storage P Event).store = d.store from rfl,
        hi.count_listed hlisted, hi.writes _ _ hopen.stored hopen.pending] at hcount
      exact List.eq_nil_of_length_eq_zero (by omega)

omit [Targets P] in
theorem listed_once_of_no_votes (hi : Indexed d.store) {env : Env}
    (h : NoVotesRecorded d.store env) : ListsOpenOnce d env := by
  obtain ⟨hdeadlines, hvotes⟩ := h
  cases hconfig : d.store.config with
  | none =>
    refine ⟨[], ?_, fun p hp => (List.not_mem_nil hp).elim, fun p config hopen => ?_⟩
    · have hstore : (d.frame : Frame Storage P Event).store.config = none := hconfig
      rw [getActiveProposals, run_getStore_bind]
      simp only [hstore, run_pure]
    · cases hconfig.symm.trans hopen.configured
  | some config =>
    refine ⟨d.store.proposalIds.filterMap (d.store.listed config env), ?_, fun p hp => ?_,
      fun p config' hopen => ?_⟩
    · have hstore : (d.frame : Frame Storage P Event).store.config = some config := hconfig
      rw [getActiveProposals, run_getStore_bind]
      simp only [hstore]
      exact run_activeAmong.mpr
        ⟨fun id _ p hp hpending => hdeadlines config id p hconfig hp hpending, rfl, rfl⟩
    · obtain ⟨id, -, hlisted⟩ := List.mem_filterMap.mp hp
      obtain ⟨hstored, hpending, htime⟩ := Storage.listed_eq_some.mp hlisted
      obtain rfl := hi.named id p hstored
      exact ⟨config, hconfig, hstored, hpending, htime⟩
    · obtain rfl : config' = config := Option.some.inj (hopen.configured.symm.trans hconfig)
      have hlisted : d.store.listed config' env p.id = some p :=
        Storage.listed_eq_some.mpr ⟨hopen.stored, hopen.pending, hopen.inTime⟩
      rw [hi.count_listed hlisted, hi.writes _ _ hopen.stored hopen.pending, hvotes config' p hopen]
      rfl

/-- In every reachable state the listing returns each open proposal once, and no other, exactly when
no vote is recorded on an open proposal and every deadline is a ledger number. -/
theorem listed_once_iff (run : (governance self outside start).Run history d) (env : Env) :
    ListsOpenOnce d env ↔ NoVotesRecorded d.store env :=
  ⟨no_votes_of_listed_once (indexed_of_run run), listed_once_of_no_votes (indexed_of_run run)⟩

end Run

/-- Alice, who has a reputation, proposes a call. -/
def unvotedRun : System.Replayed alone invoke System.anything :=
  .of votersDeployment voters_deployment_initial
    [at_ 1 [admin] (.initializeGovernance admin 1 0 100 1 5000),
      at_ 2 [admin] (.setReputation admin alice 7 3000000),
      at_ 3 [alice] (.proposeChange alice registry "pause")] (by decide +kernel)

/-- Alice proposes a call and votes for it. -/
def supportedRun : System.Replayed alone invoke System.anything :=
  .of votersDeployment voters_deployment_initial supportedScript (by decide +kernel)

/-- An onlooker at ledger 5. -/
def onlooker : Env := ⟨home, 5, 5, []⟩

theorem unvoted_proposal_listed_once : ListsOpenOnce unvotedRun.state onlooker := by
  have run : alone.Run unvotedRun.history unvotedRun.state :=
    unvotedRun.run Deployment.next_step System.anything_allowed
  have hconfig : unvotedRun.state.store.config = some ⟨admin, 1, 0, 100, 1, 5000⟩ := by
    decide +kernel
  have hids : unvotedRun.state.store.proposalIds = [1] := by decide +kernel
  have hcreated : (unvotedRun.state.store.proposal 1).map Proposal.createdLedger = some 3 := by
    decide +kernel
  have hvotes : unvotedRun.state.store.votes 1 = [] := by decide +kernel
  have hindexed := indexed_of_run run
  have honly : ∀ id p, unvotedRun.state.store.proposal id = some p → p.executed = false →
      id = 1 := fun id p hp hpending => by
    have hwrites := hindexed.writes id p hp hpending
    have hmem : id ∈ unvotedRun.state.store.proposalIds := List.count_pos_iff.mp (by omega)
    simpa [hids] using hmem
  refine (listed_once_iff run onlooker).mpr ⟨fun config id p hsome hp hpending => ?_,
    fun config p hopen => ?_⟩
  · obtain rfl := honly id p hp hpending
    rw [hconfig, Option.some.injEq] at hsome
    rw [hp, Option.map_some, Option.some.injEq] at hcreated
    rw [Proposal.HasDeadline, hcreated, ← hsome]
    decide
  · rw [honly p.id p hopen.stored hopen.pending]
    exact hvotes

/-- The proposal that Alice voted for is listed twice. -/
theorem voted_proposal_listed_twice : alone.Run supportedRun.history supportedRun.state ∧
      (Contract.run (getActiveProposals (P := StandardLedger)) onlooker
        supportedRun.state.frame).toOption.map (fun r => r.1.map Proposal.id) = some [1, 1] ∧
      ¬ ListsOpenOnce supportedRun.state onlooker := by
  have run : alone.Run supportedRun.history supportedRun.state :=
    supportedRun.run Deployment.next_step System.anything_allowed
  have hlisted : (Contract.run (getActiveProposals (P := StandardLedger)) onlooker
      supportedRun.state.frame).toOption.map (fun r => r.1.map Proposal.id) = some [1, 1] := by
    decide +kernel
  have hconfig : supportedRun.state.store.config = some ⟨admin, 1, 0, 100, 1, 5000⟩ := by
    decide +kernel
  have hproposal : (supportedRun.state.store.proposal 1).map
      (fun p => (p.id, p.executed, p.createdLedger)) = some (1, false, 3) := by decide +kernel
  have hvotes : (supportedRun.state.store.votes 1).length = 1 := by decide +kernel
  refine ⟨run, hlisted, fun honce => ?_⟩
  obtain ⟨p, hp, hfields⟩ := Option.map_eq_some_iff.mp hproposal
  obtain ⟨hid, hpending, hcreated⟩ : p.id = 1 ∧ p.executed = false ∧ p.createdLedger = 3 := by
    simpa using hfields
  have hopen : OpenForVoting supportedRun.state.store onlooker ⟨admin, 1, 0, 100, 1, 5000⟩ p :=
    ⟨hconfig, by rw [hid]; exact hp, hpending, by rw [hcreated]; decide⟩
  have hnone := (no_votes_of_listed_once (indexed_of_run run) honce).2 _ p hopen
  rw [hid] at hnone
  rw [hnone] at hvotes
  cases hvotes

end Backit.Governance
