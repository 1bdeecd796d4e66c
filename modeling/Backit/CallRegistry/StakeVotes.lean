import Backit.CallRegistry.Configuration

/-!
# Governance by recorded stake

A governance vote counts the volume that the voter states, and execution compares the tally with a
share of the platform volume that the caller states. The contract records both volumes itself and
consults neither. When no statement exceeds the record, a proposal that is executed has the
support of recorded stake, and in any case each supporter is counted once.
-/

namespace Backit.CallRegistry

open Soroban Contract Lib

/-- The votes for a proposal in a history, with the volumes stated, most recent first. -/
def supporters (proposalId : Nat) : List Label → List (Address × Int)
  | [] => []
  | .invoked ⟨_, .desk (.governanceVote voter id true volume), _⟩ :: history =>
    if id = proposalId then (voter, volume) :: supporters proposalId history
    else supporters proposalId history
  | _ :: history => supporters proposalId history

/-- The address authorised a vote for the proposal. -/
def SupportedBy (history : List Label) (proposalId : Nat) (voter : Address) : Prop :=
  ∃ env volume effects, voter ∈ env.auths ∧
    Label.invoked ⟨env, .desk (.governanceVote voter proposalId true volume), effects⟩ ∈ history

/-- Distinct supporters of the proposal hold, by the contract's own records, the required share of
the recorded platform volume. -/
def HasStakeQuorum (history : List Label) (s : Storage) (proposalId : Nat) : Prop :=
  ∃ voters : List Address, voters.Nodup ∧ (∀ a ∈ voters, SupportedBy history proposalId a) ∧
    s.profiles.globalStats.totalStakeVolume *
        (s.control.governance.config.getD .default).governanceQuorumBps ≤
      10000 * (voters.map s.profiles.userTotalStakeVolume).sum

/-- No supporter states more than its recorded volume, and no execution states less than the
recorded platform volume, whose share in basis points fits an `i128`. -/
def Storage.statesRecorded (s : Storage) : Label → Bool
  | .invoked ⟨_, .desk (.governanceVote voter _ true volume), _⟩ =>
    decide (volume ≤ s.profiles.userTotalStakeVolume voter)
  | .invoked ⟨_, .desk (.executeProposal _ totalPlatformStake), _⟩ =>
    decide (s.profiles.globalStats.totalStakeVolume ≤ totalPlatformStake ∧
      s.profiles.globalStats.totalStakeVolume *
        (s.control.governance.config.getD .default).governanceQuorumBps ≤ i128Max)
  | _ => true

abbrev statesRecorded {T : Type} : System.Guard (World T) Label :=
  fun _ w l => w.store.statesRecorded l = true

/-- What a successful operation on the governance proposals did to them. -/
inductive GovernanceChange (env : Env) (g : Governance) : DeskOp → Governance → Prop where
  | proposed {proposer parameter bytes votingEndLedger volume g'} :
      g'.proposalCounter = g.proposalCounter + 1 → g'.voted = g.voted →
      g'.proposals = Function.update g.proposals (g.proposalCounter + 1)
        (some ⟨g.proposalCounter + 1, proposer, parameter, bytes, votingEndLedger, 0, 0, false⟩) →
      GovernanceChange env g (.proposeChange proposer parameter bytes votingEndLedger volume) g'
  | voted {voter id support volume proposal counted g'} : voter ∈ env.auths →
      g.voted (id, voter) = false → g.proposals id = some proposal →
      counted.id = proposal.id →
      counted.votesFor = proposal.votesFor + (if support then volume else 0) →
      g'.proposalCounter = g.proposalCounter →
      g'.voted = Function.update g.voted (id, voter) true →
      g'.proposals = Function.update g.proposals counted.id (some counted) →
      GovernanceChange env g (.governanceVote voter id support volume) g'
  | executed {id total proposal g'} : g.proposals id = some proposal →
      governanceQuorum total (g.config.getD .default) < proposal.votesFor →
      g'.proposalCounter = g.proposalCounter → g'.voted = g.voted →
      g'.proposals = Function.update g.proposals proposal.id
        (some { proposal with executed := true }) →
      GovernanceChange env g (.executeProposal id total) g'

section Specs

variable {env : Env} {d d' : Desk} {u : Unit}

theorem governance_vote_changes {voter : Address} {id : Nat} {support : Bool} {volume : Int}
    (h : run (governanceVote voter id support volume) env d = .ok (u, d')) :
    GovernanceChange env d.control.governance (.governanceVote voter id support volume)
      d'.control.governance := by
  simp only [governanceVote, run_steps, run_get_bind, run_modify_bind, announce, run_modify,
    Bool.not_eq_true] at h
  obtain ⟨hauth, hnew, proposal, hproposal, -, -, rfl⟩ := h
  refine .voted hauth hnew hproposal ?_ ?_ rfl rfl rfl
  · cases support <;> rfl
  · cases support with
    | true => rfl
    | false => exact (Int.add_zero _).symm

theorem DeskOp.governance_change [Crypto] {op : DeskOp} (hop : op.governs = true)
    (h : run op.perform env d = .ok (u, d')) :
    GovernanceChange env d.control.governance op d'.control.governance := by
  cases op with
  | proposeChange =>
    obtain ⟨_, h⟩ := run_ignore.mp h
    simp only [CallRegistry.proposeChange, run_steps, run_get_bind, run_modify_bind, announce] at h
    obtain ⟨-, -, -, -, -, rfl⟩ := h
    exact .proposed rfl rfl rfl
  | governanceVote => exact governance_vote_changes h
  | executeProposal =>
    obtain ⟨_, h⟩ := run_ignore.mp h
    simp only [CallRegistry.executeProposal, run_get_bind, run_steps, run_modify_bind, announce,
      not_le] at h
    obtain ⟨proposal, hproposal, -, -, hquorum, -, rfl⟩ := h
    exact .executed hproposal hquorum rfl rfl rfl
  | _ => cases hop

end Specs

/-- The tallies of the governance proposals are those of the supporters in the history. -/
structure VotesTallied (history : List Label) (s : Storage) : Prop where
  keyed : ∀ id p, s.control.governance.proposals id = some p →
    p.id = id ∧ id ≤ s.control.governance.proposalCounter
  fresh : ∀ id, s.control.governance.proposalCounter < id → supporters id history = []
  tallied : ∀ id p, s.control.governance.proposals id = some p →
    p.votesFor = ((supporters id history).map Prod.snd).sum
  voted : ∀ id, ∀ v ∈ supporters id history, s.control.governance.voted (id, v.1) = true
  distinct : ∀ id, ((supporters id history).map Prod.fst).Nodup
  authorised : ∀ id, ∀ v ∈ supporters id history, SupportedBy history id v.1

/-- The supporters of a proposal state no more than their recorded volumes. -/
def StatedWithin (history : List Label) (s : Storage) : Prop :=
  ∀ id, ∀ v ∈ supporters id history, v.2 ≤ s.profiles.userTotalStakeVolume v.1

section Invariant

variable {history : List Label} {s s' : Storage} {l : Label}

theorem SupportedBy.mono {id : Nat} {a : Address} (h : SupportedBy history id a) (l : Label) :
    SupportedBy (l :: history) id a := by
  obtain ⟨env, volume, effects, hauth, hmem⟩ := h
  exact ⟨env, volume, effects, hauth, .tail _ hmem⟩

theorem SupportedBy.mem_supporters {id : Nat} {a : Address} (h : SupportedBy history id a) :
    a ∈ (supporters id history).map Prod.fst := by
  obtain ⟨env, volume, effects, -, hmem⟩ := h
  induction history with
  | nil => cases hmem
  | cons l history ih =>
    rcases List.mem_cons.mp hmem with rfl | hearlier
    · simp [supporters]
    · have hbefore := ih hearlier
      unfold supporters
      split
      · next hnil => cases hnil
      · next hlabel =>
        cases hlabel
        split
        · exact List.mem_cons_of_mem _ hbefore
        · exact hbefore
      · next hlabel =>
        cases hlabel
        exact hbefore

/-- A step that adds no supporter keeps the tallies: the counter does not go down, no vote is
forgotten, and every proposal has the tally it had, or is new and has none. -/
theorem VotesTallied.keep (h : VotesTallied history s)
    (hsupporters : ∀ id, supporters id (l :: history) = supporters id history)
    (hcounter : s.control.governance.proposalCounter ≤ s'.control.governance.proposalCounter)
    (hvoted : ∀ key, s.control.governance.voted key = true →
      s'.control.governance.voted key = true)
    (hproposals : ∀ id p, s'.control.governance.proposals id = some p →
      (∃ old, s.control.governance.proposals id = some old ∧ p.id = old.id ∧
        p.votesFor = old.votesFor) ∨
      (p.id = id ∧ s.control.governance.proposalCounter < id ∧
        id ≤ s'.control.governance.proposalCounter ∧ p.votesFor = 0)) :
    VotesTallied (l :: history) s' := by
  refine ⟨fun id p hp => ?_, fun id hid => ?_, fun id p hp => ?_, fun id v hv => ?_, fun id => ?_,
    fun id v hv => ?_⟩
  · rcases hproposals id p hp with ⟨old, hold, hid, -⟩ | ⟨hid, -, hle, -⟩
    · have hkeyed := h.keyed id old hold
      exact ⟨hid.trans hkeyed.1, hkeyed.2.trans hcounter⟩
    · exact ⟨hid, hle⟩
  · rw [hsupporters]
    exact h.fresh id (hcounter.trans_lt hid)
  · rw [hsupporters]
    rcases hproposals id p hp with ⟨old, hold, -, hfor⟩ | ⟨-, hlt, -, hfor⟩
    · rw [hfor]
      exact h.tallied id old hold
    · rw [hfor, h.fresh id hlt]
      rfl
  · rw [hsupporters] at hv
    exact hvoted _ (h.voted id v hv)
  · rw [hsupporters]
    exact h.distinct id
  · rw [hsupporters] at hv
    exact (h.authorised id v hv).mono l

/-- A step that leaves the governance proposals alone keeps the tallies. -/
theorem VotesTallied.same (h : VotesTallied history s)
    (hsupporters : ∀ id, supporters id (l :: history) = supporters id history)
    (hsame : s.control.governance.SameVotes s'.control.governance) :
    VotesTallied (l :: history) s' := by
  refine h.keep hsupporters hsame.counter.ge (fun key hkey => ?_) fun id p hp => ?_
  · rw [hsame.voted]
    exact hkey
  · rw [hsame.proposals] at hp
    exact .inl ⟨p, hp, rfl, rfl⟩

/-- A supporting vote adds its volume to the tally of its proposal. -/
theorem VotesTallied.support (h : VotesTallied history s) {env : Env} {voter : Address} {id : Nat}
    {volume : Int} {effects : List (Effect Event)} {proposal counted : GovernanceProposal}
    (hauth : voter ∈ env.auths) (hnew : s.control.governance.voted (id, voter) = false)
    (hproposal : s.control.governance.proposals id = some proposal)
    (hid : counted.id = proposal.id) (hfor : counted.votesFor = proposal.votesFor + volume)
    (hcounter : s'.control.governance.proposalCounter = s.control.governance.proposalCounter)
    (hvoted : s'.control.governance.voted =
      Function.update s.control.governance.voted (id, voter) true)
    (hproposals : s'.control.governance.proposals =
      Function.update s.control.governance.proposals counted.id (some counted)) :
    VotesTallied
      (.invoked ⟨env, .desk (.governanceVote voter id true volume), effects⟩ :: history) s' := by
  obtain ⟨hown, hnumber⟩ := h.keyed id proposal hproposal
  rw [hid, hown] at hproposals
  have hstill : ∀ key, s.control.governance.voted key = true →
      s'.control.governance.voted key = true := by
    intro key hkey
    rw [hvoted, Function.update_apply]
    split
    · rfl
    · exact hkey
  refine ⟨fun i p hp => ?_, fun i hi => ?_, fun i p hp => ?_, fun i v hv => ?_, fun i => ?_,
    fun i v hv => ?_⟩
  · rw [hproposals, Function.update_apply] at hp
    rw [hcounter]
    split at hp
    · next heq =>
      cases hp
      exact ⟨(hid.trans hown).trans heq.symm, heq.symm ▸ hnumber⟩
    · exact h.keyed i p hp
  · rw [hcounter] at hi
    rw [supporters, if_neg (by omega)]
    exact h.fresh i hi
  · rw [hproposals, Function.update_apply] at hp
    split at hp
    · next heq =>
      cases hp
      rw [supporters, if_pos heq.symm, heq, List.map_cons, List.sum_cons, hfor,
        h.tallied id proposal hproposal, Int.add_comm]
    · next hne =>
      rw [supporters, if_neg (Ne.symm hne)]
      exact h.tallied i p hp
  · rw [supporters] at hv
    split at hv
    · next heq =>
      subst heq
      rcases List.mem_cons.mp hv with rfl | hv
      · rw [hvoted]
        exact Function.update_self ..
      · exact hstill _ (h.voted id v hv)
    · exact hstill _ (h.voted i v hv)
  · rw [supporters]
    split
    · next heq =>
      subst heq
      refine List.nodup_cons.mpr ⟨fun hmem => ?_, h.distinct id⟩
      -- An earlier vote of the same voter would have been recorded.
      obtain ⟨v, hv, heq⟩ := List.mem_map.mp hmem
      have hbefore := h.voted id v hv
      dsimp only at heq
      rw [heq, hnew] at hbefore
      cases hbefore
    · exact h.distinct i
  · rw [supporters] at hv
    split at hv
    · next heq =>
      subst heq
      rcases List.mem_cons.mp hv with rfl | hv
      · exact ⟨env, volume, effects, hauth, .head _⟩
      · exact (h.authorised id v hv).mono _
    · exact (h.authorised i v hv).mono _

/-- An operation on the governance proposals keeps the tallies. -/
theorem GovernanceChange.keeps_tallies {env : Env} {op : DeskOp} {effects : List (Effect Event)}
    (hchange : GovernanceChange env s.control.governance op s'.control.governance)
    (h : VotesTallied history s) :
    VotesTallied (.invoked ⟨env, .desk op, effects⟩ :: history) s' := by
  cases hchange with
  | proposed hcounter hvoted hproposals =>
    refine h.keep (fun _ => rfl) (by omega) (fun _ hkey => hvoted ▸ hkey) fun id p hp => ?_
    rw [hproposals, Function.update_apply] at hp
    split at hp
    · next heq =>
      cases hp
      exact .inr ⟨heq.symm, by omega, by omega, rfl⟩
    · exact .inl ⟨p, hp, rfl, rfl⟩
  | executed hproposal _ hcounter hvoted hproposals =>
    refine h.keep (fun _ => rfl) hcounter.ge (fun _ hkey => hvoted ▸ hkey) fun id p hp => ?_
    have hown := (h.keyed _ _ hproposal).1
    rw [hproposals, Function.update_apply] at hp
    split at hp
    · next heq =>
      cases hp
      rw [hown] at heq
      subst heq
      exact .inl ⟨_, hproposal, rfl, rfl⟩
    · exact .inl ⟨p, hp, rfl, rfl⟩
  | @voted voter id support volume proposal counted _ hauth hnew hproposal hid hfor hcounter
      hvoted hproposals =>
    cases support with
    | true => exact h.support hauth hnew hproposal hid hfor hcounter hvoted hproposals
    | false =>
      have hown := (h.keyed _ _ hproposal).1
      refine h.keep (fun _ => rfl) hcounter.ge (fun key hkey => ?_) fun i p hp => ?_
      · rw [hvoted, Function.update_apply]
        split
        · rfl
        · exact hkey
      · rw [hproposals, Function.update_apply, hid, hown] at hp
        split at hp
        · next heq =>
          cases hp
          exact .inl ⟨proposal, heq ▸ hproposal, hid, hfor.trans (Int.add_zero _)⟩
        · exact .inl ⟨p, hp, rfl, rfl⟩

end Invariant

section Runs

variable {T : Type} [Tokens T] [Crypto] {self : Address} {outside : T → T → Prop}
  {guard : System.Guard (World T) Label} {history : List Label} {w w' : World T} {l : Label}

/-- What a step did to the governance proposals and to the recorded volumes. -/
theorem WorldStep.governs (h : WorldStep self outside w l w') :
    (∀ user, w.store.profiles.userTotalStakeVolume user ≤
        w'.store.profiles.userTotalStakeVolume user) ∧
      ((∃ env op effects, l = .invoked ⟨env, .desk op, effects⟩ ∧ op.governs = true ∧
          GovernanceChange env w.store.control.governance op w'.store.control.governance) ∨
        ((∀ env op effects, l = .invoked ⟨env, .desk op, effects⟩ → op.governs = false) ∧
          (∀ history id, supporters id (l :: history) = supporters id history) ∧
          w.store.control.governance.SameVotes w'.store.control.governance)) := by
  cases h with
  | elsewhere => exact ⟨fun _ => le_rfl, .inr ⟨nofun, fun _ _ => rfl, rfl, rfl, rfl⟩⟩
  | @invoked env action f _ _ _ hrun =>
    cases action with
    | market op =>
      have hsteps := MarketOp.steps hrun
      refine ⟨hsteps.tracked.volumes, .inr ⟨nofun, fun _ _ => rfl, ?_⟩⟩
      show w.store.control.governance.SameVotes f.store.control.governance
      rw [hsteps.control]
      exact ⟨rfl, rfl, rfl⟩
    | desk op =>
      obtain ⟨desk, hdesk, rfl⟩ := run_onDesk.mp hrun
      have hsteps := DeskOp.steps hdesk
      refine ⟨fun user => (congrFun hsteps.volumes user).ge, ?_⟩
      cases hgoverns : op.governs with
      | true => exact .inl ⟨_, _, _, rfl, hgoverns, DeskOp.governance_change hgoverns hdesk⟩
      | false =>
        refine .inr ⟨?_, fun history id => ?_, hsteps.votes hgoverns⟩
        · rintro _ _ _ ⟨⟩
          exact hgoverns
        cases op with
        | governanceVote => cases hgoverns
        | _ => rfl
    | executeAdminProposal caller proposalId =>
      obtain ⟨_, _, -, -, -, -, -, -, -, hexec⟩ := execute_admin_proposal_executes hrun
      refine ⟨fun user => ?_, .inr ⟨nofun, fun _ _ => rfl, ?_⟩⟩
      · show _ ≤ f.store.profiles.userTotalStakeVolume user
        rw [hexec.profiles]
        rfl
      · show w.store.control.governance.SameVotes f.store.control.governance
        rw [hexec.configured]
        exact ⟨rfl, rfl, rfl⟩

/-- In every run the tallies are those of the supporters. -/
theorem votes_tallied (run : (registry self outside).RunWhere guard history w) :
    VotesTallied history w.store := by
  refine run.invariant (I := fun h w => VotesTallied h w.store) ?_ ?_
  · intro s hs
    rw [show s.store = Storage.empty from hs]
    exact ⟨nofun, fun _ _ => rfl, nofun, nofun, fun _ => .nil, nofun⟩
  · intro h s l s' _ ih hstep _
    obtain ⟨-, ⟨_, _, _, rfl, -, hchange⟩ | ⟨-, hsupporters, hsame⟩⟩ := WorldStep.governs hstep
    · exact hchange.keeps_tallies ih
    · exact ih.same (hsupporters h) hsame

/-- Recorded volumes do not go down, so what was stated within the record stays within it. -/
theorem stated_within (run : (registry self outside).RunWhere statesRecorded history w) :
    StatedWithin history w.store := by
  refine run.invariant (I := fun h w => StatedWithin h w.store) (fun _ _ _ _ hv => nomatch hv) ?_
  intro h s l s' _ ih hstep hguard id v hv
  obtain ⟨hgrows, ⟨env, op, effects, rfl, -, -⟩ | ⟨-, hsupporters, -⟩⟩ := WorldStep.governs hstep
  · cases op with
    | governanceVote voter proposalId support volume =>
      cases support with
      | false => exact (ih id v hv).trans (hgrows v.1)
      | true =>
        have hstated : volume ≤ s.store.profiles.userTotalStakeVolume voter :=
          of_decide_eq_true hguard
        rw [supporters] at hv
        split at hv
        · rcases List.mem_cons.mp hv with rfl | hv
          · exact hstated.trans (hgrows voter)
          · exact (ih id v hv).trans (hgrows v.1)
        · exact (ih id v hv).trans (hgrows v.1)
    | _ => exact (ih id v hv).trans (hgrows v.1)
  · rw [hsupporters] at hv
    exact (ih id v hv).trans (hgrows v.1)

omit [Crypto] in
/-- Votes above the quorum for a stated total are above it for a recorded total that is no larger
and whose share does not overflow. -/
theorem quorum_of_recorded {recorded total votes : Int} {cfg : GovernanceConfig}
    (hquorum : governanceQuorum total cfg < votes) (htotal : recorded ≤ total)
    (hfits : recorded * cfg.governanceQuorumBps ≤ i128Max) :
    recorded * cfg.governanceQuorumBps ≤ 10000 * votes := by
  have hscaled : recorded * cfg.governanceQuorumBps ≤ total * cfg.governanceQuorumBps :=
    Int.mul_le_mul_of_nonneg_right htotal (Int.natCast_nonneg _)
  have hfloor : ∀ x : Int, x.tdiv 10000 < votes → x < 10000 * votes := by
    intro x hx
    have hle : x / 10000 ≤ x.tdiv 10000 := by
      rw [Int.tdiv_eq_ediv]
      split <;> simp
    omega
  unfold governanceQuorum at hquorum
  cases hmul : checkedMul total cfg.governanceQuorumBps with
  | some product =>
    obtain ⟨-, hproduct⟩ := checked_eq_some.mp hmul
    rw [hmul, Option.getD_some, hproduct] at hquorum
    exact hscaled.trans (hfloor _ hquorum).le
  | none =>
    rw [hmul, Option.getD_none] at hquorum
    exact hfits.trans (hfloor _ hquorum).le

end Runs

section Scenario

attribute [local instance] noCrypto

/-- The parameters of governance in the scenarios: proposals are free, and one percent decides. -/
def onePercent : GovernanceConfig := ⟨0, 100, 10⟩

/-- Alice has staked 300 on her call and proposes a change of the fee. -/
def governanceScript : List (Env × Action) :=
  openingScript ++
    [at_ 4 [adminAddress] (.desk (.setGovernanceConfig onePercent)),
      at_ 5 [alice] (.market (.stakeOnCall alice 1 300 1)),
      at_ 6 [alice] (.desk (.proposeChange alice "fee_bps" [1] 10 0))]

/-- Alice votes with the 300 she has staked. -/
def stakerScript : List (Env × Action) :=
  governanceScript ++ [at_ 7 [alice] (.desk (.governanceVote alice 1 true 300))]

/-- Bob, who has staked nothing, votes with a million, and the proposal is executed. -/
def strangerScript : List (Env × Action) :=
  governanceScript ++
    [at_ 7 [bob] (.desk (.governanceVote bob 1 true 1000000)),
      at_ 11 [] (.desk (.executeProposal 1 1))]

def stakerRun :
    Replayed (T := StandardLedger) home fun _ w l => w.store.statesRecorded l :=
  .of freshWorld fresh_world_empty stakerScript (by decide +kernel)

def strangerRun : Replayed (T := StandardLedger) home anything :=
  .of freshWorld fresh_world_empty strangerScript (by decide +kernel)

/-- The proposal is executed against the platform's 300. -/
def stakerExecution : Receipt × World StandardLedger :=
  (stakerRun.world.invoke ⟨home, 11, 11, []⟩ (.desk (.executeProposal 1 300))).get
    (by decide +kernel)

end Scenario

end Backit.CallRegistry
