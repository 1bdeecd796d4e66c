import Backit.Governance.Tally

/-!
# Who casts whose vote

A vote is cast for the voter's delegate, so it is the delegate's record that a voter writes, whether
the delegate knows of the delegation or not. Recorded votes are authorised as long as nobody votes
whose delegate has not agreed.
-/

namespace Backit.Governance

open Soroban Contract Lib

namespace Storage

variable (s : Storage)

/-- The vote recorded for an address on a proposal. -/
def voteOf (id : Nat) (a : Address) : Option Vote := (s.votes id).find? (·.voter = a)

/-- The invocation is authorised by an address or by the one it has delegated to. -/
def MayVoteFor (env : Env) (a : Address) : Prop :=
  a ∈ env.auths ∨ ∃ delegate ∈ env.auths, s.delegation a = some delegate

instance (env : Env) (a : Address) : Decidable (s.MayVoteFor env a) :=
  inferInstanceAs (Decidable (_ ∨ _))

/-- The votes that an invocation has changed are those of addresses that may be voted for. -/
def VotesAuthorised (s' : Storage) (env : Env) : Prop :=
  ∀ id a, s'.voteOf id a ≠ s.voteOf id a → s.MayVoteFor env a

/-- A voter's delegate has voted alike, or may be voted for. -/
def DelegateAgrees (env : Env) : GovOp → Prop
  | .vote voter id support => ∀ delegate, s.delegation voter = some delegate →
      (s.voteOf id delegate).map Vote.support = some support ∨ s.MayVoteFor env delegate
  | _ => True

end Storage

section Records

variable {voter : Address} {support : Bool} {votes votes' : List Vote} {power : Int}

/-- Only the voter's record changes, and only in its support. -/
theorem changeSupport_find (h : changeSupport voter support votes = some (votes', power))
    (a : Address) : votes'.find? (·.voter = a) = (votes.find? (·.voter = a)).map fun v =>
      if a = voter then { v with support := support } else v := by
  obtain ⟨first, v, later, rfl, hfirst, hv, -, rfl⟩ := changeSupport_eq_some h
  by_cases ha : a = voter
  · subst ha
    have hnone : first.find? (·.voter = a) = none := by
      rw [List.find?_eq_none]
      intro w hw
      simpa using hfirst w hw
    simp [hnone, hv]
  · have hne : ¬ v.voter = a := fun hva => ha (hva.symm.trans hv)
    simp [hne, ha]

theorem find_ne_none_of_changeSupport (h : changeSupport voter support votes = some (votes', power)) :
    votes.find? (·.voter = voter) ≠ none := by
  obtain ⟨first, v, later, rfl, -, hv, -, -⟩ := changeSupport_eq_some h
  rw [Ne, List.find?_eq_none]
  exact fun hnone => hnone v (by simp) (by simpa using hv)

theorem find_of_changeSupport_none (h : changeSupport voter support votes = none) :
    votes.find? (·.voter = voter) = none := by
  rw [List.find?_eq_none]
  intro v hv
  simpa using changeSupport_eq_none.mp h v hv

/-- When nobody has two votes, a vote is its voter's record. -/
theorem find_of_mem {v : Vote} (honce : (votes.map Vote.voter).Nodup) (hv : v ∈ votes) :
    votes.find? (·.voter = v.voter) = some v := by
  induction votes with
  | nil => cases hv
  | cons w rest ih =>
    rw [List.map_cons, List.nodup_cons] at honce
    rcases List.mem_cons.mp hv with rfl | hv
    · simp
    · have hne : ¬ w.voter = v.voter := by
        intro heq
        exact honce.1 (heq ▸ List.mem_map_of_mem hv)
      rw [List.find?_cons_of_neg (by simpa using hne)]
      exact ih honce.2 hv

end Records

section Steps

variable {P : Type} [Targets P] {env : Env} {f f' : Frame Storage P Event} {op : GovOp}
  {s s' : Storage} {id : Nat} {who : Address} {support : Bool} {v : Vote}

theorem Storage.effectiveVoter_cases (s : Storage) (voter : Address) :
    (s.delegation voter = none ∧ s.effectiveVoter voter = voter) ∨
      s.delegation voter = some (s.effectiveVoter voter) := by
  unfold effectiveVoter
  cases s.delegation voter with
  | none => exact .inl ⟨rfl, rfl⟩
  | some delegate => exact .inr rfl

/-- One record is written with a support, and no other. -/
structure WritesVote (s s' : Storage) (id : Nat) (who : Address) (support : Bool) : Prop where
  written : ∃ power, s'.voteOf id who = some ⟨who, support, power⟩
  unchanged_iff : s'.voteOf id who = s.voteOf id who ↔
    (s.voteOf id who).map Vote.support = some support
  others : ∀ id' a, ¬ (id' = id ∧ a = who) → s'.voteOf id' a = s.voteOf id' a

/-- Writing the votes of one proposal leaves the records on others. -/
theorem Storage.voteOf_other {votes : List Vote} {id' : Nat} (h : id' ≠ id) (a : Address) :
    (s.setVotes id votes).voteOf id' a = s.voteOf id' a := by
  simp [voteOf, setVotes, h]

theorem writes_changed {votes : List Vote} {power : Int}
    (h : changeSupport who support (s.votes id) = some (votes, power)) :
    WritesVote s (s.setVotes id votes) id who support := by
  have hfind : ∀ a, (s.setVotes id votes).voteOf id a = (s.voteOf id a).map fun v =>
      if a = who then { v with support := support } else v := by
    intro a
    simpa [Storage.voteOf, Storage.setVotes] using changeSupport_find h a
  obtain ⟨old, hold⟩ := Option.ne_none_iff_exists'.mp (find_ne_none_of_changeSupport h)
  have hwho : old.voter = who := by simpa using List.find?_some hold
  have hrecord : s.voteOf id who = some old := hold
  refine ⟨⟨old.power, ?_⟩, ?_, fun id' a hother => ?_⟩
  · rw [hfind, hrecord, ← hwho]
    simp
  · obtain ⟨oldWho, oldSupport, oldPower⟩ := old
    rw [hfind, hrecord]
    simp [eq_comm]
  · by_cases hid : id' = id
    · subst hid
      have ha : a ≠ who := fun ha => hother ⟨rfl, ha⟩
      rw [hfind]
      simp [ha]
    · exact Storage.voteOf_other hid a

theorem writes_first {proposal : Proposal} (h : changeSupport who support (s.votes id) = none) :
    WritesVote s (s.voted id proposal who support) id who support := by
  have hnone : s.voteOf id who = none := find_of_changeSupport_none h
  have hfind : ∀ a, (s.voted id proposal who support).voteOf id a =
      (s.voteOf id a).or (if who = a then some ⟨who, support, s.power who⟩ else none) := by
    intro a
    by_cases ha : who = a <;>
      simp [Storage.voteOf, Storage.voted, Storage.setVotes, Storage.setProposal,
        List.find?_append, ha]
  refine ⟨⟨s.power who, ?_⟩, ?_, fun id' a hother => ?_⟩
  · rw [hfind, hnone]
    simp
  · rw [hfind, hnone]
    simp
  · by_cases hid : id' = id
    · subst hid
      have ha : who ≠ a := fun ha => hother ⟨rfl, ha.symm⟩
      rw [hfind, if_neg ha, Option.or_none]
    · exact Storage.voteOf_other hid a

/-- A step writes no votes, or one: that of the address for which an authorised voter votes. -/
theorem Transition.writes (h : Transition env f op f') :
    (f.store.DelegateAgrees env op ∧ f'.store.votes = f.store.votes) ∨
      ∃ voter id support, op = .vote voter id support ∧ voter ∈ env.auths ∧
        WritesVote f.store f'.store id (f.store.effectiveVoter voter) support := by
  cases h with
  | revoted hauth _ hchange => exact .inr ⟨_, _, _, rfl, hauth, writes_changed hchange⟩
  | voted hauth _ hnone => exact .inr ⟨_, _, _, rfl, hauth, writes_first hnone⟩
  | ingested =>
    refine .inl ⟨trivial, ?_⟩
    rw [Storage.burnedPart_votes]
    rfl
  | proposed => exact .inl ⟨trivial, rfl⟩
  | executed => exact .inl ⟨trivial, rfl⟩
  | configured => exact .inl ⟨trivial, rfl⟩
  | treasuryConfigured => exact .inl ⟨trivial, rfl⟩
  | splitChanged => exact .inl ⟨trivial, rfl⟩
  | withdrawn => exact .inl ⟨trivial, rfl⟩
  | delegated => exact .inl ⟨trivial, rfl⟩
  | reputed => exact .inl ⟨trivial, rfl⟩

theorem Storage.voteOf_congr (h : s'.votes = s.votes) (id : Nat) (a : Address) :
    s'.voteOf id a = s.voteOf id a := by
  rw [voteOf, voteOf, h]

theorem Transition.delegates (h : Transition env f op f') (a : Address) :
    f'.store.delegation a = f.store.delegation a ∨ a ∈ env.auths := by
  cases h with
  | @delegated delegator delegate hauth =>
    by_cases ha : a = delegator
    · subst ha
      exact .inr hauth
    · exact .inl (Function.update_of_ne ha ..)
  | ingested =>
    refine .inl ?_
    unfold Storage.burnedPart
    split <;> rfl
  | revoted => exact .inl rfl
  | voted => exact .inl rfl
  | proposed => exact .inl rfl
  | executed => exact .inl rfl
  | configured => exact .inl rfl
  | treasuryConfigured => exact .inl rfl
  | splitChanged => exact .inl rfl
  | withdrawn => exact .inl rfl
  | reputed => exact .inl rfl

/-- A step changes only votes of addresses that may be voted for if and only if the delegate of the
one who votes agrees. -/
theorem Transition.changes_authorised_iff (h : Transition env f op f') :
    f.store.VotesAuthorised f'.store env ↔ f.store.DelegateAgrees env op := by
  rcases h.writes with ⟨hagrees, hvotes⟩ | ⟨voter, id, support, rfl, hauth, hwrites⟩
  · exact iff_of_true (fun id a hchanged => absurd (Storage.voteOf_congr hvotes id a) hchanged)
      hagrees
  · constructor
    · intro hall delegate hdelegate
      have heffective : f.store.effectiveVoter voter = delegate := by
        rw [Storage.effectiveVoter, hdelegate]
        rfl
      rw [heffective] at hwrites
      by_cases hsame : (f.store.voteOf id delegate).map Vote.support = some support
      · exact .inl hsame
      · exact .inr (hall id delegate (mt hwrites.unchanged_iff.mp hsame))
    · intro hagrees id' a hchanged
      by_cases hwritten : id' = id ∧ a = f.store.effectiveVoter voter
      · obtain ⟨rfl, rfl⟩ := hwritten
        rcases f.store.effectiveVoter_cases voter with ⟨-, hself⟩ | hdelegate
        · rw [hself]
          exact .inl hauth
        · exact (hagrees _ hdelegate).resolve_left (mt hwrites.unchanged_iff.mpr hchanged)
      · exact absurd (hwrites.others id' a hwritten) hchanged

end Steps

section Run

variable {P : Type} [Targets P] {self : Address} {outside : P → P → Prop} {start : P → Prop}
  {guard : System.Guard (Deployment Storage P) (Happening GovOp Event)}
  {history : List (Happening GovOp Event)} {d : Deployment Storage P} {id : Nat} {v : Vote}

/-- The guard of the runs in which nobody votes whose delegate has not agreed. -/
def delegatesAgree : System.Guard (Deployment Storage P) (Happening GovOp Event) :=
  fun _ d l => ∀ i, l.invocation = some i → d.store.DelegateAgrees i.env i.op

/-- The run took a vote for the recorded address, with the recorded support, and it was authorised
by the address or by the one it had delegated to at that time. -/
def CastWithAuthority (self : Address) (outside : P → P → Prop) (start : P → Prop)
    (guard : System.Guard (Deployment Storage P) (Happening GovOp Event))
    (history : List (Happening GovOp Event)) (d : Deployment Storage P) (id : Nat) (v : Vote) :
    Prop :=
  ∃ env voter effects s, System.Took (governance self outside start) guard history d
      (.invoked ⟨env, .vote voter id v.support, effects⟩) s ∧
    s.store.effectiveVoter voter = v.voter ∧ s.store.MayVoteFor env v.voter

theorem CastWithAuthority.tail {l : Happening GovOp Event} {d' : Deployment Storage P}
    (h : CastWithAuthority self outside start guard history d id v)
    (hstep : (governance self outside start).step d l d') (hguard : guard history d l) :
    CastWithAuthority self outside start guard (l :: history) d' id v := by
  obtain ⟨env, voter, effects, s, htook, hvoter, hmay⟩ := h
  exact ⟨env, voter, effects, s, htook.tail hstep hguard, hvoter, hmay⟩

/-- When delegates agree, the vote recorded for an address was cast with its authority. -/
theorem cast_of_run
    (run : (governance self outside start).RunWhere delegatesAgree history d) :
    ∀ id a v, d.store.voteOf id a = some v →
      CastWithAuthority self outside start delegatesAgree history d id v := by
  refine run.invariant (I := fun history d => ∀ id a v, d.store.voteOf id a = some v →
    CastWithAuthority self outside start delegatesAgree history d id v) ?_ ?_
  · rintro d ⟨hstore, -⟩ id a v hv
    rw [hstore] at hv
    cases hv
  · intro h d l d' hrun ih hstep hguard id a v hv
    by_cases hchanged : d'.store.voteOf id a = d.store.voteOf id a
    · exact (ih id a v (hchanged.symm.trans hv)).tail hstep hguard
    · cases hstep with
      | elsewhere => exact absurd rfl hchanged
      | @invoked env op f hadmissible hinvoke =>
        have htransition := GovOp.transitions hinvoke
        have hmay : d.store.MayVoteFor env a :=
          htransition.changes_authorised_iff.mpr (hguard _ rfl) id a hchanged
        rcases htransition.writes with ⟨-, hvotes⟩ | ⟨voter, id', support, rfl, -, hwrites⟩
        · exact absurd (Storage.voteOf_congr hvotes id a) hchanged
        · by_cases hwritten : id = id' ∧ a = d.store.effectiveVoter voter
          · obtain ⟨rfl, rfl⟩ := hwritten
            obtain ⟨power, hpower⟩ := hwrites.written
            obtain rfl : v = ⟨d.store.effectiveVoter voter, support, power⟩ :=
              Option.some.inj (hv.symm.trans hpower)
            exact ⟨env, voter, f.effects, d,
              hrun.took (.invoked hadmissible hinvoke) hguard, rfl, hmay⟩
          · exact absurd (hwrites.others id a hwritten) hchanged

/-- An invocation changes only votes of addresses that may be voted for if and only if the voter has
no delegate, or one that has agreed. In a run all of whose votes are such, every recorded vote was
cast with authority. -/
theorem votes_authorised_iff (run : (governance self outside start).Run history d) :
    (∀ i d', (governance self outside start).step d (.invoked i) d' →
      (d.store.VotesAuthorised d'.store i.env ↔ d.store.DelegateAgrees i.env i.op)) ∧
    ((governance self outside start).RunWhere delegatesAgree history d →
      ∀ id, ∀ v ∈ d.store.votes id,
        CastWithAuthority self outside start delegatesAgree history d id v) := by
  constructor
  · intro i d' hstep
    cases hstep with
    | invoked _ hinvoke => exact (GovOp.transitions hinvoke).changes_authorised_iff
  · intro hagree id v hv
    exact cast_of_run hagree id v.voter v (find_of_mem ((recorded_of_run run).once id) hv)

/-- Whoever has a delegate has authorised an invocation. -/
theorem delegation_authorised (run : (governance self outside start).RunWhere guard history d)
    {a : Address} (hdelegate : d.store.delegation a ≠ none) :
    ∃ i ∈ invocations history, a ∈ i.env.auths := by
  refine contract_invariant (I := fun history d => d.store.delegation a ≠ none →
    ∃ i ∈ invocations history, a ∈ i.env.auths) ?_ ?_ ?_ run hdelegate
  · rintro d ⟨hstore, -⟩ hdelegate
    rw [hstore] at hdelegate
    exact absurd rfl hdelegate
  · intro h d env op f _ ih _ hinvoke _ hdelegate
    rcases (GovOp.transitions hinvoke).delegates a with hkept | hauth
    · obtain ⟨i, hi, hauth⟩ := ih fun hnone => hdelegate (hkept.trans hnone)
      exact ⟨i, .tail _ hi, hauth⟩
    · exact ⟨_, .head _, hauth⟩
  · intro h d peers _ ih _ hdelegate
    exact ih hdelegate

/-- A vote that was cast with authority is that of an address that has authorised an invocation. -/
theorem CastWithAuthority.voter_authorised
    (h : CastWithAuthority self outside start guard history d id v) :
    ∃ i ∈ invocations history, v.voter ∈ i.env.auths := by
  obtain ⟨env, voter, effects, s, htook, -, hmay⟩ := h
  rcases hmay with hauth | ⟨delegate, -, hdelegate⟩
  · exact ⟨_, List.mem_filterMap.mpr ⟨_, htook.mem, rfl⟩, hauth⟩
  · obtain ⟨older, _, hrun, -, -, hpath⟩ := htook
    obtain ⟨i, hi, hauth⟩ := delegation_authorised hrun
      (a := v.voter) (by rw [hdelegate]; exact Option.some_ne_none _)
    have holder : older ⊆ history := fun l hl => hpath.suffix.subset (.tail _ hl)
    exact ⟨i, List.filterMap_subset _ holder hi, hauth⟩

end Run

/-- Alice, who has a reputation, proposes a call. Bob has a reputation too. -/
def proposedScript : List (Env × GovOp) :=
  [at_ 1 [admin] (.initializeGovernance admin 1 0 100 1 5000),
    at_ 2 [admin] (.setReputation admin alice 7 0),
    at_ 3 [admin] (.setReputation admin bob 5 0),
    at_ 4 [alice] (.proposeChange alice registry "pause")]

/-- Carol names Bob as her delegate and votes. Bob has no part in it. -/
def hijackedScript : List (Env × GovOp) :=
  proposedScript ++ [at_ 5 [carol] (.delegateVotes carol bob), at_ 6 [carol] (.vote carol 1 true)]

/-- Carol names Alice as her delegate, and they vote together. Bob votes for himself. -/
def agreedScript : List (Env × GovOp) :=
  proposedScript ++ [at_ 5 [carol] (.delegateVotes carol alice),
    at_ 6 [carol, alice] (.vote carol 1 true), at_ 7 [bob] (.vote bob 1 false)]

instance (s : Storage) (env : Env) (op : GovOp) : Decidable (s.DelegateAgrees env op) :=
  match op with
  | .vote voter id support =>
    decidable_of_iff
      (∀ delegate ∈ s.delegation voter, (s.voteOf id delegate).map Vote.support = some support ∨
        s.MayVoteFor env delegate) Iff.rfl
  | .initializeGovernance .. => .isTrue trivial
  | .proposeChange .. => .isTrue trivial
  | .executeProposal .. => .isTrue trivial
  | .initTreasury .. => .isTrue trivial
  | .setFeeSplit .. => .isTrue trivial
  | .ingestFee .. => .isTrue trivial
  | .withdrawBucket .. => .isTrue trivial
  | .delegateVotes .. => .isTrue trivial
  | .setReputation .. => .isTrue trivial

/-- Allows the votes of those whose delegates have agreed. -/
def respectsDelegates : List (Happening GovOp Event) → Deployment Storage StandardLedger →
    Happening GovOp Event → Bool
  | _, d, .invoked i => decide (d.store.DelegateAgrees i.env i.op)
  | _, _, .elsewhere => true

theorem respectsDelegates_allowed (h : List (Happening GovOp Event))
    (d : Deployment Storage StandardLedger) (l : Happening GovOp Event)
    (hallowed : respectsDelegates h d l = true) : delegatesAgree h d l := by
  intro i hi
  cases l with
  | invoked j =>
    cases hi
    exact of_decide_eq_true hallowed
  | elsewhere => cases hi

def agreedRun : System.Replayed alone invoke respectsDelegates :=
  .of votersDeployment voters_deployment_initial agreedScript (by decide +kernel)

def hijackedRun : System.Replayed alone invoke System.anything :=
  .of votersDeployment voters_deployment_initial hijackedScript (by decide +kernel)

theorem agreed_run : alone.RunWhere delegatesAgree agreedRun.history agreedRun.state :=
  agreedRun.run Deployment.next_step respectsDelegates_allowed

theorem hijacked_run : alone.Run hijackedRun.history hijackedRun.state :=
  hijackedRun.run Deployment.next_step System.anything_allowed

theorem votes_authorised_when_agreed :
    agreedRun.state.store.votes 1 = [⟨alice, true, 7000000⟩, ⟨bob, false, 5000000⟩] ∧
      ∀ id, ∀ v ∈ agreedRun.state.store.votes id, CastWithAuthority home nowhere withoutTokens
        delegatesAgree agreedRun.history agreedRun.state id v := by
  have hvotes : agreedRun.state.store.votes 1 =
      [⟨alice, true, 7000000⟩, ⟨bob, false, 5000000⟩] := by decide +kernel
  exact ⟨hvotes, (votes_authorised_iff agreed_run.run).2 agreed_run⟩

/-- Bob's vote is recorded, although he has authorised nothing and delegated to nobody. -/
theorem delegate_votes_unasked : alone.Run hijackedRun.history hijackedRun.state ∧
      hijackedRun.state.store.votes 1 = [⟨bob, true, 5000000⟩] ∧
      (∀ i ∈ invocations hijackedRun.history, bob ∉ i.env.auths) ∧
      ¬ ∀ id, ∀ v ∈ hijackedRun.state.store.votes id, CastWithAuthority home nowhere withoutTokens
        System.anyStep hijackedRun.history hijackedRun.state id v := by
  have hvotes : hijackedRun.state.store.votes 1 = [⟨bob, true, 5000000⟩] := by decide +kernel
  have hauths : ∀ i ∈ invocations hijackedRun.history, bob ∉ i.env.auths := by decide +kernel
  refine ⟨hijacked_run, hvotes, hauths, fun hall => ?_⟩
  obtain ⟨i, hi, hauth⟩ := (hall 1 _ (by rw [hvotes]; exact .head _)).voter_authorised
  exact hauths i hi hauth

end Backit.Governance
