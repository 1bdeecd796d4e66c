import Backit.Governance.Entrypoints

/-!
# The tally of a proposal

A proposal counts the power of the votes for and against it as they are recorded. A vote that changes
its support is recorded with the new one, but the tally keeps it where it was. The tally is that of
the recorded votes as long as no vote with power changes its support.
-/

namespace Backit.Governance

open Soroban Contract Lib

/-- The power of the votes with a support. -/
def weight (support : Bool) (votes : List Vote) : Int :=
  ((votes.filter (·.support = support)).map Vote.power).sum

/-- What the records of votes satisfy in every state: proposals are numbered, only proposals have
votes, and nobody has two on one. -/
structure Recorded (s : Storage) : Prop where
  numbered : ∀ id, s.proposal id ≠ none → id ≤ s.proposalCounter
  proposed : ∀ id, s.proposal id = none → s.votes id = []
  once : ∀ id, ((s.votes id).map Vote.voter).Nodup

/-- Every proposal's tally is that of the votes recorded on it. -/
def Counted (s : Storage) : Prop :=
  ∀ id proposal, s.proposal id = some proposal →
    proposal.forVotes = weight true (s.votes id) ∧
      proposal.againstVotes = weight false (s.votes id)

/-- Every proposal's tally is that of the votes recorded on it, one for each voter. -/
structure Tallied (s : Storage) : Prop where
  counted : Counted s
  once : ∀ id, ((s.votes id).map Vote.voter).Nodup

/-- The entry point does not change the support of a recorded vote that has power. -/
def SameSupport (s : Storage) : GovOp → Prop
  | .vote voter id support =>
    ∀ v ∈ s.votes id, v.voter = s.effectiveVoter voter → v.support = support ∨ v.power = 0
  | _ => True

instance (s : Storage) (op : GovOp) : Decidable (SameSupport s op) :=
  match op with
  | .vote voter id support =>
    inferInstanceAs (Decidable (∀ v ∈ s.votes id, v.voter = s.effectiveVoter voter →
      v.support = support ∨ v.power = 0))
  | .initializeGovernance .. => .isTrue trivial
  | .proposeChange .. => .isTrue trivial
  | .executeProposal .. => .isTrue trivial
  | .initTreasury .. => .isTrue trivial
  | .setFeeSplit .. => .isTrue trivial
  | .ingestFee .. => .isTrue trivial
  | .withdrawBucket .. => .isTrue trivial
  | .delegateVotes .. => .isTrue trivial
  | .setReputation .. => .isTrue trivial

section Votes

variable {voter : Address} {support : Bool} {votes votes' : List Vote} {power : Int}

@[simp] theorem weight_nil (support : Bool) : weight support [] = 0 := rfl

@[simp] theorem weight_cons (support : Bool) (v : Vote) (rest : List Vote) :
    weight support (v :: rest) = (if v.support = support then v.power else 0) +
      weight support rest := by
  unfold weight
  by_cases h : v.support = support <;> simp [h]

@[simp] theorem weight_append (support : Bool) (first later : List Vote) :
    weight support (first ++ later) = weight support first + weight support later := by
  simp [weight]

theorem changeSupport_eq_none :
    changeSupport voter support votes = none ↔ ∀ v ∈ votes, v.voter ≠ voter := by
  induction votes with
  | nil => simp [changeSupport]
  | cons v rest ih =>
    rw [changeSupport, List.forall_mem_cons]
    by_cases hv : v.voter = voter
    · simp [hv]
    · simp [hv, ih]

/-- The voter's first vote has the new support, and the others are as they were. -/
theorem changeSupport_eq_some (h : changeSupport voter support votes = some (votes', power)) :
    ∃ first v later, votes = first ++ v :: later ∧ (∀ w ∈ first, w.voter ≠ voter) ∧
      v.voter = voter ∧ v.power = power ∧ votes' = first ++ { v with support := support } :: later := by
  induction votes generalizing votes' with
  | nil => cases h
  | cons v rest ih =>
    rw [changeSupport] at h
    split at h
    · next hv =>
      cases h
      exact ⟨[], v, rest, rfl, by simp, hv, rfl, rfl⟩
    · next hv =>
      obtain ⟨⟨changed, p⟩, hchanged, hresult⟩ := Option.map_eq_some_iff.mp h
      cases hresult
      obtain ⟨first, w, later, rfl, hfirst, hw, hpower, rfl⟩ := ih hchanged
      exact ⟨v :: first, w, later, rfl, List.forall_mem_cons.mpr ⟨hv, hfirst⟩, hw, hpower, rfl⟩

theorem changeSupport_voters (h : changeSupport voter support votes = some (votes', power)) :
    votes'.map Vote.voter = votes.map Vote.voter := by
  obtain ⟨first, v, later, rfl, -, -, -, rfl⟩ := changeSupport_eq_some h
  simp

/-- The changed votes weigh the same for and against if and only if the voter's vote kept its
support or has no power. -/
theorem changeSupport_weight (h : changeSupport voter support votes = some (votes', power))
    (honce : (votes.map Vote.voter).Nodup) :
    (∀ b, weight b votes' = weight b votes) ↔
      ∀ v ∈ votes, v.voter = voter → v.support = support ∨ v.power = 0 := by
  obtain ⟨first, v, later, rfl, hfirst, hv, -, rfl⟩ := changeSupport_eq_some h
  have hlater : ∀ w ∈ later, w.voter ≠ voter := by
    intro w hw hwv
    rw [List.map_append, List.map_cons] at honce
    have hnodup := (List.nodup_append.mp honce).2.1
    exact (List.nodup_cons.mp hnodup).1 (List.mem_map.mpr ⟨w, hw, hwv.trans hv.symm⟩)
  have honly : (∀ w ∈ first ++ v :: later, w.voter = voter → w.support = support ∨ w.power = 0) ↔
      (v.support = support ∨ v.power = 0) := by
    constructor
    · intro hall
      exact hall v (by simp) hv
    · intro hsame w hw hwv
      rcases List.mem_append.mp hw with hw | hw
      · exact absurd hwv (hfirst w hw)
      · rcases List.mem_cons.mp hw with rfl | hw
        · exact hsame
        · exact absurd hwv (hlater w hw)
  rw [honly]
  simp only [weight_append, weight_cons]
  constructor
  · intro hweights
    have hsupport := hweights support
    by_cases hsame : v.support = support
    · exact .inl hsame
    · rw [if_pos rfl, if_neg hsame] at hsupport
      exact .inr (by omega)
  · rintro (hsame | hpower) b
    · rw [hsame]
    · rw [hpower, ite_self, ite_self]

end Votes

section Steps

variable {P : Type} [Targets P] {env : Env} {f f' : Frame Storage P Event} {op : GovOp}

@[simp] theorem Storage.burnedPart_proposal (s : Storage) (token : Address) (amount : Int) :
    (s.burnedPart token amount).proposal = s.proposal := by
  unfold burnedPart
  split <;> rfl

@[simp] theorem Storage.burnedPart_votes (s : Storage) (token : Address) (amount : Int) :
    (s.burnedPart token amount).votes = s.votes := by
  unfold burnedPart
  split <;> rfl

@[simp] theorem Storage.burnedPart_counter (s : Storage) (token : Address) (amount : Int) :
    (s.burnedPart token amount).proposalCounter = s.proposalCounter := by
  unfold burnedPart
  split <;> rfl

/-- Proposals and votes that are as they were are recorded and counted as they were. -/
theorem Recorded.of_same {s s' : Storage} (h : Recorded s) (hproposal : s'.proposal = s.proposal)
    (hvotes : s'.votes = s.votes) (hcounter : s'.proposalCounter = s.proposalCounter) :
    Recorded s' := by
  refine ⟨?_, ?_, ?_⟩
  · rw [hproposal, hcounter]
    exact h.numbered
  · rw [hproposal, hvotes]
    exact h.proposed
  · rw [hvotes]
    exact h.once

theorem Recorded.next_free {s : Storage} (h : Recorded s) :
    s.votes (s.proposalCounter + 1) = [] := by
  refine h.proposed _ ?_
  by_contra hproposal
  have := h.numbered _ hproposal
  omega

/-- A proposal's number stays known when it is written again. -/
theorem Recorded.rewritten {s : Storage} (h : Recorded s) {id : Nat} {proposal proposal' : Proposal}
    (hproposal : s.proposal id = some proposal) {votes : List Vote}
    (honce : (votes.map Vote.voter).Nodup) :
    Recorded ((s.setVotes id votes).setProposal id proposal') := by
  refine ⟨fun id' hid => ?_, fun id' hid => ?_, fun id' => ?_⟩
  · by_cases heq : id' = id
    · subst heq
      exact h.numbered id' (by rw [hproposal]; exact Option.some_ne_none _)
    · exact h.numbered id' (by simpa [Storage.setProposal, Storage.setVotes, heq] using hid)
  · by_cases heq : id' = id
    · subst heq
      simp [Storage.setProposal] at hid
    · simpa [Storage.setProposal, Storage.setVotes, heq] using
        h.proposed id' (by simpa [Storage.setProposal, Storage.setVotes, heq] using hid)
  · by_cases heq : id' = id
    · subst heq
      simpa [Storage.setProposal, Storage.setVotes] using honce
    · simpa [Storage.setProposal, Storage.setVotes, heq] using h.once id'

theorem Transition.recorded (h : Transition env f op f') (hr : Recorded f.store) :
    Recorded f'.store := by
  cases h with
  | proposed =>
    refine ⟨fun id hid => ?_, fun id hid => ?_, hr.once⟩
    · by_cases heq : id = f.store.proposalCounter + 1
      · exact heq.le
      · have := hr.numbered id
          (by simpa [Storage.setProposal, Storage.setProposalCounter, heq] using hid)
        show id ≤ f.store.proposalCounter + 1
        omega
    · refine hr.proposed id ?_
      by_cases heq : id = f.store.proposalCounter + 1
      · subst heq
        simp [Storage.setProposal] at hid
      · simpa [Storage.setProposal, Storage.setProposalCounter, heq] using hid
  | @revoted voter id support proposal votes power _ hproposal hchange =>
    refine ⟨hr.numbered, fun id' hid => ?_, fun id' => ?_⟩
    · have hne : id' ≠ id := by
        rintro rfl
        exact absurd (hproposal.symm.trans hid) (Option.some_ne_none _)
      simpa [Storage.setVotes, hne] using hr.proposed id' hid
    · by_cases heq : id' = id
      · subst heq
        simpa [Storage.setVotes, changeSupport_voters hchange] using hr.once id'
      · simpa [Storage.setVotes, heq] using hr.once id'
  | @voted voter id support proposal _ hproposal hnone =>
    refine hr.rewritten hproposal ?_
    rw [List.map_append, List.nodup_append]
    refine ⟨hr.once id, List.nodup_singleton _, fun a ha b hb => ?_⟩
    obtain ⟨v, hv, rfl⟩ := List.mem_map.mp ha
    obtain rfl : b = f.store.effectiveVoter voter := by simpa using hb
    exact changeSupport_eq_none.mp hnone v hv
  | @executed caller id proposal peers hproposal =>
    have hvotes : f.store.setVotes id (f.store.votes id) = f.store := by simp [Storage.setVotes]
    have h : Recorded ((f.store.setVotes id (f.store.votes id)).setProposal id
        { proposal with executed := true }) := hr.rewritten hproposal (hr.once id)
    rwa [hvotes] at h
  | ingested =>
    refine hr.of_same ?_ ?_ ?_
    · rw [Storage.burnedPart_proposal]
      rfl
    · rw [Storage.burnedPart_votes]
      rfl
    · rw [Storage.burnedPart_counter]
      rfl
  | configured => exact hr.of_same rfl rfl rfl
  | treasuryConfigured => exact hr.of_same rfl rfl rfl
  | splitChanged => exact hr.of_same rfl rfl rfl
  | withdrawn => exact hr.of_same rfl rfl rfl
  | delegated => exact hr.of_same rfl rfl rfl
  | reputed => exact hr.of_same rfl rfl rfl

/-- A proposal that is written with votes is counted when its tally is theirs. -/
theorem Counted.rewritten {s : Storage} (h : Counted s) (id : Nat) (votes : List Vote)
    (proposal : Proposal) :
    Counted ((s.setVotes id votes).setProposal id proposal) ↔
      proposal.forVotes = weight true votes ∧ proposal.againstVotes = weight false votes := by
  constructor
  · intro hcounted
    simpa [Storage.setVotes, Storage.setProposal] using hcounted id proposal
      (by simp [Storage.setProposal])
  · intro htally id' proposal' hid
    by_cases heq : id' = id
    · subst heq
      obtain rfl : proposal = proposal' := by simpa [Storage.setProposal] using hid
      simpa [Storage.setVotes, Storage.setProposal] using htally
    · simpa [Storage.setVotes, Storage.setProposal, heq] using
        h id' proposal' (by simpa [Storage.setVotes, Storage.setProposal, heq] using hid)

theorem Storage.setVotes_self (s : Storage) (id : Nat) : s.setVotes id (s.votes id) = s := by
  simp [setVotes]

/-- A step keeps the tallies if and only if it changes no support of a recorded vote with power. -/
theorem Transition.counted_iff (h : Transition env f op f') (hr : Recorded f.store)
    (hc : Counted f.store) : Counted f'.store ↔ SameSupport f.store op := by
  cases h with
  | @proposed proposer target name proposal _ hfor hagainst =>
    refine iff_of_true ?_ trivial
    have hrewritten := hc.rewritten (f.store.proposalCounter + 1) [] proposal
    rw [← hr.next_free, Storage.setVotes_self] at hrewritten
    refine hrewritten.mpr ?_
    rw [hr.next_free]
    exact ⟨hfor, hagainst⟩
  | @revoted voter id support proposal votes power _ hproposal hchange =>
    refine Iff.trans ?_ (changeSupport_weight hchange (hr.once id))
    obtain ⟨hfor, hagainst⟩ := hc id proposal hproposal
    constructor
    · intro hcounted b
      have hid := hcounted id proposal hproposal
      simp only [Storage.setVotes, Function.update_self] at hid
      cases b with
      | true => exact hid.1.symm.trans hfor
      | false => exact hid.2.symm.trans hagainst
    · intro hweights id' proposal' hid
      by_cases heq : id' = id
      · subst heq
        obtain rfl : proposal = proposal' := Option.some.inj (hproposal.symm.trans hid)
        simp only [Storage.setVotes, Function.update_self]
        rw [hweights, hweights]
        exact ⟨hfor, hagainst⟩
      · simpa [Storage.setVotes, heq] using hc id' proposal' hid
  | @voted voter id support proposal _ hproposal hnone =>
    refine iff_of_true ((hc.rewritten _ _ _).mpr ?_)
      (fun v hv hvoter => absurd hvoter (changeSupport_eq_none.mp hnone v hv))
    obtain ⟨hfor, hagainst⟩ := hc id proposal hproposal
    simp only [weight_append, weight_cons, weight_nil, ← hfor, ← hagainst, Proposal.counted]
    cases support <;> simp
  | @executed caller id proposal peers hproposal =>
    refine iff_of_true ?_ trivial
    have hrewritten := hc.rewritten id (f.store.votes id) { proposal with executed := true }
    rw [Storage.setVotes_self] at hrewritten
    exact hrewritten.mpr (hc id proposal hproposal)
  | ingested =>
    refine iff_of_true ?_ trivial
    unfold Counted
    rw [Storage.burnedPart_proposal, Storage.burnedPart_votes]
    exact hc
  | configured => exact iff_of_true hc trivial
  | treasuryConfigured => exact iff_of_true hc trivial
  | splitChanged => exact iff_of_true hc trivial
  | withdrawn => exact iff_of_true hc trivial
  | delegated => exact iff_of_true hc trivial
  | reputed => exact iff_of_true hc trivial

end Steps

section Run

variable {P : Type} [Targets P] {self : Address} {outside : P → P → Prop} {start : P → Prop}
  {history : List (Happening GovOp Event)} {d : Deployment Storage P}

/-- The guard of the runs in which no recorded vote with power changes its support. -/
def supportKept : System.Guard (Deployment Storage P) (Happening GovOp Event) :=
  fun _ d l => ∀ i, l.invocation = some i → SameSupport d.store i.op

theorem recorded_of_run {guard} (run : (governance self outside start).RunWhere guard history d) :
    Recorded d.store := by
  refine store_invariant (I := Recorded) ?_ ?_ run
  · rintro d ⟨hstore, -⟩
    rw [hstore]
    exact ⟨fun id hid => absurd rfl hid, fun id _ => rfl, fun id => List.nodup_nil⟩
  · intro h d env op f _ hr _ hrun _
    exact (GovOp.transitions hrun).recorded hr

/-- In a run in which no recorded vote with power changes its support, every proposal's tally is
that of the votes recorded on it, one for each voter. Any further invocation leaves it so if and
only if it changes no such support either. -/
theorem tally_kept_iff (run : (governance self outside start).RunWhere supportKept history d) :
    Tallied d.store ∧ ∀ i d', (governance self outside start).step d (.invoked i) d' →
      (Tallied d'.store ↔ SameSupport d.store i.op) := by
  have hcounted : Counted d.store := by
    refine store_invariant (I := Counted) ?_ ?_ run
    · rintro d ⟨hstore, -⟩ id proposal hid
      rw [hstore] at hid
      cases hid
    · intro h d env op f hrun hc _ hinvoke hguard
      exact ((GovOp.transitions hinvoke).counted_iff (recorded_of_run hrun) hc).mpr
        (hguard _ rfl)
  have hrecorded := recorded_of_run run
  refine ⟨⟨hcounted, hrecorded.once⟩, fun i d' hstep => ?_⟩
  cases hstep with
  | invoked _ hinvoke =>
    have htransition := GovOp.transitions hinvoke
    refine Iff.trans ?_ (htransition.counted_iff hrecorded hcounted)
    exact ⟨Tallied.counted, fun hc => ⟨hc, (htransition.recorded hrecorded).once⟩⟩

end Run

def alice : Address := ⟨1⟩

def bob : Address := ⟨2⟩

def carol : Address := ⟨3⟩

def admin : Address := ⟨10⟩

/-- The target of the proposals. -/
def registry : Address := ⟨60⟩

/-- The contract's address in the scenarios. -/
def home : Address := ⟨900⟩

/-- An invocation of the contract at a time, with the addresses that authorise it. -/
def at_ (timestamp : Nat) (auths : List Address) (op : GovOp) : Env × GovOp :=
  (⟨home, timestamp, timestamp, auths⟩, op)

/-- Nothing happens to the contracts around this one. -/
def nowhere : StandardLedger → StandardLedger → Prop := fun _ _ => False

/-- The contract holds no tokens at first. -/
def withoutTokens (l : StandardLedger) : Prop := ∀ token, Tokens.balance l token home = some 0

/-- The contract in a world where nothing else happens. -/
abbrev alone : System (Deployment Storage StandardLedger) (Happening GovOp Event) :=
  governance home nowhere withoutTokens

/-- Invoke the contract. -/
abbrev invoke (d : Deployment Storage StandardLedger) (input : Env × GovOp) :
    Option (Happening GovOp Event × Deployment Storage StandardLedger) :=
  d.next GovOp.perform home input

/-- Nobody holds a token. -/
def votersDeployment : Deployment Storage StandardLedger :=
  ⟨.empty, .ofHoldings fun _ => .empty, 0, 0⟩

theorem voters_deployment_initial : alone.initial votersDeployment := ⟨rfl, fun _ => rfl⟩

/-- Alice, who has a reputation, proposes a call and votes for it. -/
def supportedScript : List (Env × GovOp) :=
  [at_ 1 [admin] (.initializeGovernance admin 1 0 100 1 5000),
    at_ 2 [admin] (.setReputation admin alice 7 3000000),
    at_ 3 [alice] (.proposeChange alice registry "pause"),
    at_ 4 [alice] (.vote alice 1 true)]

/-- Bob, who has none, votes for it and against it. -/
def undecidedScript : List (Env × GovOp) :=
  supportedScript ++ [at_ 5 [bob] (.vote bob 1 true), at_ 6 [bob] (.vote bob 1 false)]

/-- Alice changes her mind. -/
def reconsideredScript : List (Env × GovOp) :=
  supportedScript ++ [at_ 5 [alice] (.vote alice 1 false)]

/-- Allows the invocations that change no support of a recorded vote with power. -/
def keepsSupport : List (Happening GovOp Event) → Deployment Storage StandardLedger →
    Happening GovOp Event → Bool
  | _, d, .invoked i => decide (SameSupport d.store i.op)
  | _, _, .elsewhere => true

theorem keepsSupport_allowed (h : List (Happening GovOp Event))
    (d : Deployment Storage StandardLedger) (l : Happening GovOp Event)
    (hallowed : keepsSupport h d l = true) : supportKept h d l := by
  intro i hi
  cases l with
  | invoked j =>
    cases hi
    exact of_decide_eq_true hallowed
  | elsewhere => cases hi

def undecidedRun : System.Replayed alone invoke keepsSupport :=
  .of votersDeployment voters_deployment_initial undecidedScript (by decide +kernel)

def reconsideredRun : System.Replayed alone invoke System.anything :=
  .of votersDeployment voters_deployment_initial reconsideredScript (by decide +kernel)

theorem undecided_run : alone.RunWhere supportKept undecidedRun.history undecidedRun.state :=
  undecidedRun.run Deployment.next_step keepsSupport_allowed

theorem reconsidered_run : alone.Run reconsideredRun.history reconsideredRun.state :=
  reconsideredRun.run Deployment.next_step System.anything_allowed

theorem tally_kept_while_undecided : Tallied undecidedRun.state.store :=
  (tally_kept_iff undecided_run).1

/-- Alice's vote is recorded against the proposal and counted for it. -/
theorem reconsidered_vote_counts_for : alone.Run reconsideredRun.history reconsideredRun.state ∧
      reconsideredRun.state.store.votes 1 = [⟨alice, false, 7000003⟩] ∧
      (reconsideredRun.state.store.proposal 1).map (fun p => (p.forVotes, p.againstVotes)) =
        some (7000003, 0) ∧
      ¬ Tallied reconsideredRun.state.store := by
  have hvotes : reconsideredRun.state.store.votes 1 = [⟨alice, false, 7000003⟩] := by decide +kernel
  have htally : (reconsideredRun.state.store.proposal 1).map
      (fun p => (p.forVotes, p.againstVotes)) = some (7000003, 0) := by decide +kernel
  refine ⟨reconsidered_run, hvotes, htally, fun hall => ?_⟩
  obtain ⟨proposal, hproposal, hpair⟩ := Option.map_eq_some_iff.mp htally
  have hfor := (hall.counted 1 proposal hproposal).1
  rw [hvotes, (Prod.mk.inj hpair).1] at hfor
  exact absurd hfor (by decide)

end Backit.Governance
