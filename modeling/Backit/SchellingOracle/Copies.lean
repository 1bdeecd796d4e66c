import Backit.SchellingOracle.Conservation

/-!
# Copied commitments

A commitment names neither its voter nor its dispute. Whoever copies it can open it once the voter
who made it has, so a voter's reveal is only his own when nobody holds a copy that can still be
opened, and nobody commits to a copy of what has been opened.
-/

namespace Backit.SchellingOracle

open Soroban Contract Lib

/-- The voter, the dispute, the outcome and the salt of a reveal. -/
def OracleOp.reveal : OracleOp → Option (Address × Nat × Nat × BytesN 32)
  | .revealVote voter disputeId voteOutcome salt => some (voter, disputeId, voteOutcome, salt)
  | _ => none

/-- The reveals of a voter for a dispute. -/
def revealsOf (voter : Address) (disputeId : Nat) (history : List (Invocation OracleOp Event)) :
    List (Invocation OracleOp Event) :=
  history.filter fun i =>
    i.op.reveal.any fun r => r.1 = voter ∧ r.2.1 = disputeId

theorem OracleOp.reveal_any {op : OracleOp} {voter : Address} {disputeId : Nat} :
    (op.reveal.any fun r => r.1 = voter ∧ r.2.1 = disputeId) = true ↔
      ∃ voteOutcome salt, op = .revealVote voter disputeId voteOutcome salt := by
  constructor
  · intro h
    cases op with
    | revealVote who id voteOutcome salt =>
      obtain ⟨rfl, rfl⟩ : who = voter ∧ id = disputeId := of_decide_eq_true h
      exact ⟨voteOutcome, salt, rfl⟩
    | _ => cases h
  · rintro ⟨voteOutcome, salt, rfl⟩
    simp [OracleOp.reveal]

section Definitions

variable [Crypto]

/-- A reveal opens the commitment that another voter's reveal has opened before. -/
def Repeats (later earlier : Invocation OracleOp Event) : Prop :=
  ∃ copier disputeId voteOutcome salt voter disputeId' voteOutcome' salt',
    later.op = .revealVote copier disputeId voteOutcome salt ∧
    earlier.op = .revealVote voter disputeId' voteOutcome' salt' ∧ copier ≠ voter ∧
    commitmentHash voteOutcome salt = commitmentHash voteOutcome' salt'

/-- Another voter than `voter` holds an unopened commitment with a hash, which can still be opened
at a time. -/
def CopyOpen (s : Storage) (timestamp : Nat) (voter : Address) (hash : BytesN 32) : Prop :=
  ∃ who disputeId dispute c, who ≠ voter ∧ s.commitment (disputeId, who) = some c ∧
    c.commitmentHash = hash ∧ c.revealed = false ∧ s.dispute disputeId = some dispute ∧
    dispute.result = .pending ∧ timestamp < dispute.revealDeadline

/-- Another voter than `voter` has opened a commitment with a hash. -/
def Opened (s : Storage) (voter : Address) (hash : BytesN 32) : Prop :=
  ∃ who disputeId c, who ≠ voter ∧ s.commitment (disputeId, who) = some c ∧
    c.commitmentHash = hash ∧ c.revealed = true

/-- A reveal is made when no copy of its commitment can still be opened, and a vote commits to
nothing that another voter has opened. -/
def OracleOp.Discreet (s : Storage) (timestamp : Nat) : OracleOp → Prop
  | .revealVote voter _ voteOutcome salt =>
    ¬ CopyOpen s timestamp voter (commitmentHash voteOutcome salt)
  | .voteOnDispute voter _ hash _ => ¬ Opened s voter hash
  | _ => True

/-- Every invocation is discreet. -/
def discreetly {T : Type} : System.Guard (Deployment Storage T) (Happening OracleOp Event) :=
  fun _ d l => ∀ i, l.invocation = some i → i.op.Discreet d.store i.env.timestamp

end Definitions

section Steps

variable [Crypto] {env : Env} {op : OracleOp} {s s' : Storage} {effects : List (Effect Event)}
  {disputeId : Nat} {who : Address} {c : VoteCommitment} {dispute : Dispute}

/-- What a transition does to a commitment that is there: it keeps its hash, and only its voter's
reveal opens it. -/
theorem Transition.commitment_kept (h : Transition env op s effects s')
    (hc : s.commitment (disputeId, who) = some c) :
    ∃ c', s'.commitment (disputeId, who) = some c' ∧ c'.commitmentHash = c.commitmentHash ∧
      (c'.revealed = c.revealed ∨ c.revealed = false ∧ c'.revealed = true ∧
        ∃ voteOutcome salt, op = .revealVote who disputeId voteOutcome salt) := by
  cases h with
  | @voted voter id hash stakeAmount dispute _ _ _ _ _ _ hfresh =>
    have hne : (disputeId, who) ≠ (id, voter) := by
      rintro heq
      rw [heq, hfresh] at hc
      cases hc
    exact ⟨c, (Function.update_of_ne hne ..).trans hc, rfl, .inl rfl⟩
  | @revealed voter id voteOutcome salt dispute old _ _ _ _ _ _ _ hold hhidden =>
    by_cases hmine : (disputeId, who) = (id, voter)
    · cases hmine
      obtain rfl := Option.some.inj (hold.symm.trans hc)
      exact ⟨_, Function.update_self .., rfl, .inr ⟨hhidden, rfl, voteOutcome, salt, rfl⟩⟩
    · exact ⟨c, (Function.update_of_ne hmine ..).trans hc, rfl, .inl rfl⟩
  | _ => exact ⟨c, hc, rfl, .inl rfl⟩

/-- Where a commitment comes from that was not there: its voter's vote. -/
theorem Transition.commitment_new (h : Transition env op s effects s')
    (hc : s'.commitment (disputeId, who) = some c) (hnone : s.commitment (disputeId, who) = none) :
    c.revealed = false ∧ op = .voteOnDispute who disputeId c.commitmentHash c.stakeAmount := by
  cases h with
  | @voted voter id hash stakeAmount =>
    by_cases hmine : (disputeId, who) = (id, voter)
    · cases hmine
      have hnew : (s.voted disputeId who ⟨hash, stakeAmount, false, 0⟩).commitment
          (disputeId, who) = some ⟨hash, stakeAmount, false, 0⟩ :=
        Function.update_self ..
      obtain rfl := Option.some.inj (hnew.symm.trans hc)
      exact ⟨rfl, rfl⟩
    · rw [show (s.voted id voter _).commitment (disputeId, who) = s.commitment (disputeId, who)
        from Function.update_of_ne hmine .., hnone] at hc
      cases hc
  | @revealed voter id voteOutcome salt dispute old _ _ _ _ _ _ _ hold =>
    have hne : (disputeId, who) ≠ (id, voter) := by
      rintro heq
      rw [← heq, hnone] at hold
      cases hold
    rw [show (s.setCommitment id voter _).commitment (disputeId, who) =
      s.commitment (disputeId, who) from Function.update_of_ne hne .., hnone] at hc
    cases hc
  | _ => exact absurd (hnone.symm.trans hc) (by simp)

/-- A dispute keeps its deadline, and once resolved it is never pending again. -/
theorem Transition.dispute_kept (h : Transition env op s effects s') (hs : Sound s)
    (hdispute : s.dispute disputeId = some dispute) :
    ∃ dispute', s'.dispute disputeId = some dispute' ∧
      dispute'.revealDeadline = dispute.revealDeadline ∧
      (dispute'.result = .pending → dispute.result = .pending) := by
  cases h with
  | @opened disputer callId original disputed pool stakeToken bond config =>
    have hid := hs.numbered disputeId dispute hdispute
    refine ⟨dispute, ?_, rfl, fun h => h⟩
    rw [← hdispute]
    refine Function.update_of_ne ?_ ..
    simp only [newDispute]
    omega
  | @resolved id old config _ hold _ hpending =>
    obtain ⟨hid, -⟩ := hs.numbered id old hold
    by_cases hmine : disputeId = id
    · subst hmine
      obtain rfl := Option.some.inj (hold.symm.trans hdispute)
      refine ⟨{ old with result := resultOf old (s.ballots disputeId) }, ?_, rfl,
        fun _ => hpending⟩
      rw [← hid]
      exact Function.update_self ..
    · refine ⟨dispute, ?_, rfl, fun h => h⟩
      rw [← hdispute]
      exact Function.update_of_ne (by rw [hid]; exact hmine) ..
  | _ => exact ⟨dispute, hdispute, rfl, fun h => h⟩

/-- What a reveal finds: its voter's commitment, unopened, in a dispute that takes reveals. -/
theorem Transition.finds_own {voteOutcome : Nat} {salt : BytesN 32}
    (h : Transition env (.revealVote who disputeId voteOutcome salt) s effects s') :
    ∃ dispute c, s.dispute disputeId = some dispute ∧ dispute.result = .pending ∧
      env.timestamp < dispute.revealDeadline ∧ s.commitment (disputeId, who) = some c ∧
      c.revealed = false ∧ c.commitmentHash = commitmentHash voteOutcome salt := by
  cases h with
  | revealed _ hdispute hpending _ hopen _ hc hhidden hhash =>
    exact ⟨_, _, hdispute, hpending, hopen, hc, hhidden, hhash.symm⟩

/-- What a reveal leaves: its voter's commitment, opened. -/
theorem Transition.opens_own {voteOutcome : Nat} {salt : BytesN 32}
    (h : Transition env (.revealVote who disputeId voteOutcome salt) s effects s') :
    ∃ c, s'.commitment (disputeId, who) = some c ∧ c.revealed = true ∧
      c.commitmentHash = commitmentHash voteOutcome salt := by
  cases h with
  | revealed _ _ _ _ _ _ _ _ hhash => exact ⟨_, Function.update_self .., rfl, hhash.symm⟩

/-- A copy that can be opened after a discreet transition could be opened before it, unless the
transition committed to it. -/
theorem Transition.copyOpen (h : Transition env op s effects s') (hs : Sound s) {time : Nat}
    {hash : BytesN 32} (hcopy : CopyOpen s' time who hash) :
    CopyOpen s time who hash ∨
      ∃ copier disputeId stakeAmount, copier ≠ who ∧
        op = .voteOnDispute copier disputeId hash stakeAmount := by
  obtain ⟨copier, id, dispute', c', hcopier, hc', rfl, hhidden', hdispute', hpending', htime⟩ :=
    hcopy
  cases hold : s.commitment (id, copier) with
  | none =>
    obtain ⟨-, hop⟩ := h.commitment_new hc' hold
    exact .inr ⟨copier, id, _, hcopier, hop⟩
  | some c =>
    obtain ⟨_, hkept, hhash, hrevealed⟩ := h.commitment_kept hold
    obtain rfl := Option.some.inj (hkept.symm.trans hc')
    obtain ⟨dispute, hdispute, -⟩ := hs.cast id copier c hold
    obtain ⟨_, hstays, hdeadline, hpending⟩ := h.dispute_kept hs hdispute
    obtain rfl := Option.some.inj (hstays.symm.trans hdispute')
    have hhidden : c.revealed = false := by
      obtain hsame | ⟨hhidden, -⟩ := hrevealed
      · rw [← hsame, hhidden']
      · exact hhidden
    exact .inl ⟨copier, id, dispute, c, hcopier, hold, hhash.symm, hhidden, hdispute,
      hpending hpending', by rwa [← hdeadline]⟩

omit [Crypto] in
theorem CopyOpen.earlier {time time' : Nat} {hash : BytesN 32} (h : CopyOpen s time' who hash)
    (htime : time ≤ time') : CopyOpen s time who hash := by
  obtain ⟨copier, id, dispute, c, hcopier, hc, hhash, hhidden, hdispute, hpending, hopen⟩ := h
  exact ⟨copier, id, dispute, c, hcopier, hc, hhash, hhidden, hdispute, hpending,
    htime.trans_lt hopen⟩

end Steps

section Run

variable {T : Type} [Tokens T] [Crypto] {self : Address} {outside : T → T → Prop}
  {d : Deployment Storage T} {history : List (Happening OracleOp Event)}
  {guard : System.Guard (Deployment Storage T) (Happening OracleOp Event)}

/-- What has been revealed stays opened, under the hash it was revealed with. -/
theorem reveal_remembered (run : (oracle self outside).RunWhere guard history d)
    {i : Invocation OracleOp Event} (hi : i ∈ invocations history) {voter : Address}
    {disputeId voteOutcome : Nat} {salt : BytesN 32}
    (hop : i.op = .revealVote voter disputeId voteOutcome salt) :
    ∃ c, d.store.commitment (disputeId, voter) = some c ∧ c.revealed = true ∧
      c.commitmentHash = commitmentHash voteOutcome salt := by
  suffices H : ∀ i ∈ invocations history, i.op = .revealVote voter disputeId voteOutcome salt →
      ∃ c, d.store.commitment (disputeId, voter) = some c ∧ c.revealed = true ∧
        c.commitmentHash = commitmentHash voteOutcome salt from H i hi hop
  clear hi hop
  refine contract_invariant (I := fun h d => ∀ i ∈ invocations h,
    i.op = .revealVote voter disputeId voteOutcome salt →
      ∃ c, d.store.commitment (disputeId, voter) = some c ∧ c.revealed = true ∧
        c.commitmentHash = commitmentHash voteOutcome salt) ?_ ?_ ?_ run
  · intro d _ i hi
    exact absurd hi (List.not_mem_nil)
  · intro h d env op f hrun ih _ hinvoke _ i hi hop
    obtain ⟨effects, -, -, htransition⟩ := OracleOp.transitions (sound_of_run hrun) hinvoke
    rw [invocations_invoked, List.mem_cons] at hi
    obtain rfl | hi := hi
    · obtain rfl : op = _ := hop
      exact htransition.opens_own
    · obtain ⟨c, hc, hopened, hhash⟩ := ih i hi hop
      obtain ⟨c', hc', hhash', hrevealed⟩ := htransition.commitment_kept hc
      refine ⟨c', hc', ?_, hhash'.trans hhash⟩
      obtain hsame | ⟨hhidden, -⟩ := hrevealed
      · rw [hsame, hopened]
      · rw [hopened] at hhidden
        cases hhidden
  · intro h d peers _ ih _
    exact ih

/-- A voter reveals at most once for a dispute, whatever others do. -/
theorem reveals_once (run : (oracle self outside).RunWhere guard history d) (voter : Address)
    (disputeId : Nat) : (revealsOf voter disputeId (invocations history)).length ≤ 1 := by
  refine contract_invariant
    (I := fun h _ => (revealsOf voter disputeId (invocations h)).length ≤ 1) ?_ ?_ ?_ run
  · intro d _
    exact Nat.zero_le 1
  · intro h d env op f hrun ih _ hinvoke _
    obtain ⟨effects, -, -, htransition⟩ := OracleOp.transitions (sound_of_run hrun) hinvoke
    rw [invocations_invoked, revealsOf, List.filter_cons]
    split
    · next hmine =>
      obtain ⟨voteOutcome, salt, hop⟩ := OracleOp.reveal_any.mp hmine
      obtain rfl : op = _ := hop
      -- This reveal found the commitment unopened, so it is the first.
      have hfirst : revealsOf voter disputeId (invocations h) = [] := by
        refine List.filter_eq_nil_iff.mpr fun i hi hreveal => ?_
        obtain ⟨voteOutcome', salt', hop'⟩ := OracleOp.reveal_any.mp hreveal
        obtain ⟨c, hc, hopened, -⟩ := reveal_remembered hrun hi hop'
        obtain ⟨-, c', -, -, -, hc', hhidden, -⟩ := htransition.finds_own
        obtain rfl : c = c' := Option.some.inj (hc.symm.trans hc')
        rw [hopened] at hhidden
        cases hhidden
      rw [List.length_cons, ← revealsOf, hfirst]
      exact Nat.le_refl 1
    · exact ih
  · intro h d peers _ ih _
    exact ih

/-- In a discreet run, no copy of what a voter has revealed can still be opened. -/
theorem no_copy_open (run : (oracle self outside).RunWhere discreetly history d)
    {i : Invocation OracleOp Event} (hi : i ∈ invocations history) {voter : Address}
    {disputeId voteOutcome : Nat} {salt : BytesN 32}
    (hop : i.op = .revealVote voter disputeId voteOutcome salt) :
    ¬ CopyOpen d.store d.timestamp voter (commitmentHash voteOutcome salt) := by
  suffices H : ∀ i ∈ invocations history, i.op = .revealVote voter disputeId voteOutcome salt →
      ¬ CopyOpen d.store d.timestamp voter (commitmentHash voteOutcome salt) from H i hi hop
  clear hi hop
  refine contract_invariant (I := fun h d => ∀ i ∈ invocations h,
    i.op = .revealVote voter disputeId voteOutcome salt →
      ¬ CopyOpen d.store d.timestamp voter (commitmentHash voteOutcome salt)) ?_ ?_ ?_ run
  · intro d _ i hi
    exact absurd hi List.not_mem_nil
  · intro h d env op f hrun ih hadmissible hinvoke hguard i hi hop hcopy
    have hs := sound_of_run hrun
    obtain ⟨effects, -, -, htransition⟩ := OracleOp.transitions hs hinvoke
    have hdiscreet : op.Discreet d.store env.timestamp := hguard _ rfl
    rw [invocations_invoked, List.mem_cons] at hi
    obtain hbefore | ⟨copier, id, stakeAmount, hcopier, hvote⟩ := htransition.copyOpen hs hcopy
    · -- The copy was there before, and could be opened.
      obtain rfl | hi := hi
      · obtain rfl : op = _ := hop
        exact hdiscreet hbefore
      · exact ih i hi hop (hbefore.earlier hadmissible.timestamp)
    · -- The copy was made now.
      subst hvote
      obtain rfl | hi := hi
      · cases hop
      · obtain ⟨c, hc, hopened, hhash⟩ := reveal_remembered hrun hi hop
        exact hdiscreet ⟨voter, disputeId, c, hcopier.symm, hc, hhash, hopened⟩
  · intro h d peers _ ih _
    exact ih

/-- In a discreet run, a voter reveals at most once for a dispute, and no reveal opens a commitment
that another voter's reveal has opened before. -/
theorem reveals_independent (run : (oracle self outside).RunWhere discreetly history d) :
    (∀ voter disputeId, (revealsOf voter disputeId (invocations history)).length ≤ 1) ∧
      (invocations history).Pairwise fun later earlier => ¬ Repeats later earlier := by
  refine ⟨reveals_once run, ?_⟩
  refine contract_invariant (I := fun h _ =>
    (invocations h).Pairwise fun later earlier => ¬ Repeats later earlier) ?_ ?_ ?_ run
  · intro d _
    exact .nil
  · intro h d env op f hrun ih hadmissible hinvoke _
    refine .cons ?_ ih
    rintro i hi ⟨copier, disputeId, voteOutcome, salt, voter, disputeId', voteOutcome', salt',
      hop, hop', hcopier, hhash⟩
    obtain ⟨effects, -, -, htransition⟩ := OracleOp.transitions (sound_of_run hrun) hinvoke
    obtain rfl : op = _ := hop
    obtain ⟨dispute, c, hdispute, hpending, hopen, hc, hhidden, hc'⟩ := htransition.finds_own
    refine no_copy_open hrun hi hop' ⟨copier, disputeId, dispute, c, hcopier, hc,
      hc'.trans hhash, hhidden, hdispute, hpending, ?_⟩
    exact hadmissible.timestamp.trans_lt hopen
  · intro h d peers _ ih _
    exact ih

end Run

section Original

/-- The voter and the hash of a vote. -/
def OracleOp.vote : OracleOp → Option (Address × BytesN 32)
  | .voteOnDispute voter _ hash _ => some (voter, hash)
  | _ => none

/-- A vote is not copied from another voter's. -/
def originally {T : Type} (history : List (Happening OracleOp Event)) (_ : Deployment Storage T)
    (l : Happening OracleOp Event) : Bool :=
  l.invocation.all fun i => i.op.vote.all fun v =>
    (invocations history).all fun j => j.op.vote.all fun w => w.2 = v.2 → w.1 = v.1

variable {T : Type} [Tokens T] [Crypto] {self : Address} {outside : T → T → Prop}
  {d : Deployment Storage T} {history : List (Happening OracleOp Event)}
  {guard : System.Guard (Deployment Storage T) (Happening OracleOp Event)}

theorem commitment_voted (run : (oracle self outside).RunWhere guard history d) {disputeId : Nat}
    {who : Address} {c : VoteCommitment} (hc : d.store.commitment (disputeId, who) = some c) :
    ∃ i ∈ invocations history, i.op.vote = some (who, c.commitmentHash) := by
  revert disputeId who c
  refine contract_invariant (I := fun h d => ∀ {disputeId who c},
    d.store.commitment (disputeId, who) = some c →
      ∃ i ∈ invocations h, i.op.vote = some (who, c.commitmentHash)) ?_ ?_ ?_ run
  · rintro d ⟨hempty, -⟩ disputeId who c hc
    rw [hempty] at hc
    cases hc
  · intro h d env op f hrun ih _ hinvoke _ disputeId who c' hc'
    obtain ⟨effects, -, -, htransition⟩ := OracleOp.transitions (sound_of_run hrun) hinvoke
    cases hc : d.store.commitment (disputeId, who) with
    | none =>
      obtain ⟨-, hop⟩ := htransition.commitment_new hc' hc
      obtain rfl : op = _ := hop
      exact ⟨_, .head _, rfl⟩
    | some c =>
      obtain ⟨_, hkept, hhash, -⟩ := htransition.commitment_kept hc
      obtain rfl := Option.some.inj (hkept.symm.trans hc')
      obtain ⟨i, hi, hvote⟩ := ih hc
      exact ⟨i, .tail _ hi, by rw [hhash]; exact hvote⟩
  · intro h d peers _ ih _
    exact ih

/-- Where no vote is copied, votes for the same hash are of the same voter. -/
theorem original_votes
    (run : (oracle self outside).RunWhere (fun h d l => originally h d l = true) history d)
    {i j : Invocation OracleOp Event} (hi : i ∈ invocations history)
    (hj : j ∈ invocations history) {voter other : Address} {hash : BytesN 32}
    (hvote : i.op.vote = some (voter, hash)) (hother : j.op.vote = some (other, hash)) :
    other = voter := by
  revert i j voter other
  refine contract_invariant (I := fun h _ => ∀ {i j}, i ∈ invocations h → j ∈ invocations h →
    ∀ {voter other : Address}, i.op.vote = some (voter, hash) → j.op.vote = some (other, hash) →
      other = voter) ?_ ?_ ?_ run
  · intro d _ i j hi
    exact absurd hi List.not_mem_nil
  · intro h d env op f _ ih _ _ hguard i j hi hj voter other hvote hother
    have hnew : ∀ j ∈ invocations h, ∀ {voter other : Address},
        op.vote = some (voter, hash) → j.op.vote = some (other, hash) → other = voter := by
      intro j hj voter other hvote hother
      have hall := hguard
      simp only [originally, Happening.invocation, Option.all_some, hvote, List.all_eq_true] at hall
      simpa [hother] using hall j hj
    rw [invocations_invoked, List.mem_cons] at hi hj
    obtain rfl | hi := hi
    · obtain rfl | hj := hj
      · exact (Prod.mk.inj (Option.some.inj (hother.symm.trans hvote))).1
      · exact hnew j hj hvote hother
    · obtain rfl | hj := hj
      · exact (hnew i hi hother hvote).symm
      · exact ih hi hj hvote hother
  · intro h d peers _ ih _
    exact ih

theorem discreet_of_original
    (run : (oracle self outside).RunWhere (fun h d l => originally h d l = true) history d) :
    (oracle self outside).RunWhere discreetly history d := by
  refine run.strengthen ?_
  intro h d l d' hrun hstep hguard i hi
  cases hstep with
  | elsewhere => cases hi
  | @invoked env op f hadmissible hinvoke =>
    obtain rfl := Option.some.inj hi
    have hrun' := hrun.tail (.invoked hadmissible hinvoke) hguard
    obtain ⟨effects, -, -, htransition⟩ := OracleOp.transitions (sound_of_run hrun) hinvoke
    cases op with
    | revealVote voter disputeId voteOutcome salt =>
      rintro ⟨copier, id, dispute, c, hcopier, hc, hhash, -⟩
      obtain ⟨_, mine, -, -, -, hmine, -, hmyhash⟩ := htransition.finds_own
      obtain ⟨j, hj, hvote⟩ := commitment_voted hrun hc
      obtain ⟨k, hk, hmyvote⟩ := commitment_voted hrun hmine
      rw [hhash] at hvote
      rw [hmyhash] at hmyvote
      exact hcopier (original_votes hrun hk hj hmyvote hvote)
    | voteOnDispute voter disputeId hash stakeAmount =>
      rintro ⟨who, id, c, hwho, hc, rfl, -⟩
      obtain ⟨j, hj, hvote⟩ := commitment_voted hrun hc
      exact hwho (original_votes hrun' (.head _) (.tail _ hj) rfl hvote)
    | _ => trivial

/-- The contract holds the bonds and stakes of all unresolved disputes. Every commitment is to a
dispute and from a vote of its voter, and every reveal opened its own voter's commitment. -/
theorem votes_held_and_opened (hexact : ExactTransfers T) (hundrained : Undrained self outside)
    (run : (oracle self outside).RunWhere guard history d) :
    (∀ token held, Tokens.balance d.peers token self = some held →
      d.store.obligation token ≤ held) ∧
    (∀ id who c, d.store.commitment (id, who) = some c → (∃ dispute, d.store.dispute id = some dispute)
      ∧ ∃ i ∈ invocations history, i.op.vote = some (who, c.commitmentHash)) ∧
    ∀ i ∈ invocations history, ∀ who id choice salt, i.op = .revealVote who id choice salt →
      ∃ c, d.store.commitment (id, who) = some c ∧ c.revealed = true ∧
        c.commitmentHash = commitmentHash choice salt := by
  refine ⟨fun token _ => obligation_le_held hexact hundrained run token, fun id who c hc => ?_,
    fun i hi who id choice salt => reveal_remembered run hi⟩
  obtain ⟨dispute, hdispute, -⟩ := (sound_of_run run).cast id who c hc
  exact ⟨⟨dispute, hdispute⟩, commitment_voted run hc⟩

end Original

section Scenario

attribute [local instance] voteCrypto

/-- Carol copies Bob's commitment, and opens the copy once Bob has opened his. -/
def copiedScript : List (Env × OracleOp) :=
  openedScript 200 ++
    [at_ 20 [bob] (.voteOnDispute bob 1 (commitmentHash 1 saltA) 300),
      at_ 21 [carol] (.voteOnDispute carol 1 (commitmentHash 1 saltA) 200),
      at_ 110 [bob] (.revealVote bob 1 1 saltA),
      at_ 111 [carol] (.revealVote carol 1 1 saltA)]

def originalRun : System.Replayed alone invoke originally :=
  .of freshDeployment fresh_deployment_initial revealedScript (by decide +kernel)

def copiedRun : System.Replayed alone invoke System.anything :=
  .of freshDeployment fresh_deployment_initial copiedScript (by decide +kernel)

theorem original_run : alone.RunWhere discreetly originalRun.history originalRun.state :=
  discreet_of_original (originalRun.run Deployment.next_step fun _ _ _ h => h)

theorem copied_run : alone.Run copiedRun.history copiedRun.state :=
  copiedRun.run Deployment.next_step System.anything_allowed

/-- Bob, Carol and Dave vote each for themselves, and all three votes count. -/
theorem reveals_independent_three_votes :
    (invocations originalRun.history).Pairwise (fun later earlier => ¬ Repeats later earlier) ∧
      (originalRun.state.store.ballots 1).map (fun b => (b.1, b.2.revealed)) =
        [(bob, true), (carol, true), (dave, true)] :=
  ⟨(reveals_independent original_run).2, by decide +kernel⟩

theorem original_votes_held : originalRun.state.store.obligation usdc ≤
      valueAt (originalRun.state.peers.holdings usdc).amounts home :=
  (votes_held_and_opened StandardLedger.exact_transfers nowhere_undrained original_run).1 _ _ rfl

/-- Carol's reveal of the outcome and the salt that Bob revealed counts. -/
theorem copied_vote_counts : alone.Run copiedRun.history copiedRun.state ∧
      (invocations copiedRun.history).map Invocation.op = (copiedScript.map Prod.snd).reverse ∧
      (copiedRun.state.store.ballots 1).map (fun b => (b.1, b.2.revealed)) =
        [(bob, true), (carol, true)] ∧
      resultOf (sampleDispute 200) (copiedRun.state.store.ballots 1) = .disputerLost :=
  ⟨copied_run, by decide +kernel, by decide +kernel, by decide +kernel⟩

end Scenario

end Backit.SchellingOracle
