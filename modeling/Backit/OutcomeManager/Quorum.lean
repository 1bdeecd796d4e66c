import Backit.OutcomeManager.Finality

/-!
# Votes and the quorum

## Votes

A submitted report is entered three times: in the list of votes of its call, which stays, in the
count of its message, which is temporary, and among the processed digests. `Counts` says what an
accepted report does, and `WorldStep.uncounted` that nothing else touches these entries but the
lapse of a count.
-/

namespace Backit.OutcomeManager

open Soroban Lib Shared

/-- The report that a label submits, if it submits one. -/
def Label.reported : Label → Option SignedOutcome
  | .invoked ⟨_, .report (.submitOutcome _ signed _), _⟩ => some signed
  | .invoked ⟨_, .report (.submitOutcomeForMarket signed _), _⟩ => some signed
  | _ => none

/-- The count that a label lets lapse, by its message hash and its call. -/
def Label.lapsedCount : Label → Option (BytesN 32 × Nat)
  | .lapsed (.voteCount hash callId) => some (hash, callId)
  | _ => none

/-- The reports that a run submitted, most recent first. -/
def reports (history : List Label) : List SignedOutcome := history.filterMap Label.reported

variable {R : Type} [Crypto] [Network]

/-- What an accepted report found and what it did at the manager's address. -/
structure Counts (address : Address) (w : World R) (signed : SignedOutcome) (w' : World R) :
    Prop where
  authorised : w.store.settings.authorises signed.oraclePubkey
  verified : Crypto.ed25519Verify signed.oraclePubkey signed.message signed.signature = true
  valid : isValidOutcome signed.outcome = true
  undecided : w.store.tally.finalOutcome signed.callId = none
  unseen : w.store.tally.processedDigest (signed.digest address) = false
  digests : w'.store.tally.processedDigest =
    Function.update w.store.tally.processedDigest (signed.digest address) true
  votes : w'.store.tally.votes = Function.update w.store.tally.votes signed.callId
    (w.store.tally.votes signed.callId ++ [signed.vote])
  counted : w'.store.tally.voteCount =
    Function.update w.store.tally.voteCount (signed.hash, signed.callId)
      (some (w.store.tally.votesFor signed.hash signed.callId + 1))
  settings : w'.store.settings = w.store.settings
  outcome : ∃ quorum, w.store.settings.quorum = some quorum ∧
    ((w.store.tally.votesFor signed.hash signed.callId + 1 < quorum ∧
        w'.store.tally.finalOutcome = w.store.tally.finalOutcome) ∨
      (quorum ≤ w.store.tally.votesFor signed.hash signed.callId + 1 ∧
        w'.store.tally.finalOutcome =
          Function.update w.store.tally.finalOutcome signed.callId (some signed.stated)))

namespace Tally

omit [Crypto] [Network] in
/-- Writing one count changes the votes for its message alone. -/
theorem votesFor_of_update {t t' : Tally} {hash : BytesN 32} {c : Nat} {count : Option Nat}
    (h : t'.voteCount = Function.update t.voteCount (hash, c) count) (hash' : BytesN 32)
    (c' : Nat) :
    t'.votesFor hash' c' =
      if hash' = hash ∧ c' = c then count.getD 0 else t.votesFor hash' c' := by
  unfold votesFor
  rw [h]
  by_cases hkey : hash' = hash ∧ c' = c
  · obtain ⟨rfl, rfl⟩ := hkey
    simp
  · rw [if_neg hkey, Function.update_of_ne]
    rintro ⟨⟩
    exact hkey ⟨rfl, rfl⟩

end Tally

section Steps

variable [Registries R] {self : Address} {outside : R → R → Prop} {w w' : World R} {l : Label}
  {signed : SignedOutcome}

theorem WorldStep.counts (h : WorldStep self outside w l w') (hl : l.reported = some signed) :
    Counts self w signed w' := by
  cases h.moves with
  | settings => cases hl
  | payout => cases hl
  | lapsed => cases hl
  | elsewhere => cases hl
  | report hself _ _ hreport =>
    subst hself
    cases hreport with
    | vote hsubmits haccepted hquorum hshort =>
      cases hsubmits
      all_goals
        cases hl
        exact ⟨haccepted.authorised, haccepted.verified, haccepted.valid,
          haccepted.undecided, haccepted.unseen, rfl, rfl, rfl, rfl, _, hquorum, .inl ⟨hshort, rfl⟩⟩
    | decide hsubmits haccepted hquorum hreached _ =>
      cases hsubmits
      all_goals
        cases hl
        exact ⟨haccepted.authorised, haccepted.verified, haccepted.valid,
          haccepted.undecided, haccepted.unseen, rfl, rfl, rfl, rfl,
          _, hquorum, .inr ⟨hreached, rfl⟩⟩
    | price => cases hl
    | observe => cases hl
    | confirm => cases hl
    | finalizeOutcome => cases hl
    | disputeOutcome => cases hl

/-- A step that submits no report keeps the votes and the digests, and the counts but for one that
lapses. -/
theorem WorldStep.uncounted (h : WorldStep self outside w l w') (hl : l.reported = none) :
    w'.store.tally.votes = w.store.tally.votes ∧
      w'.store.tally.processedDigest = w.store.tally.processedDigest ∧
      ∀ hash c, w'.store.tally.votesFor hash c =
        if l.lapsedCount = some (hash, c) then 0 else w.store.tally.votesFor hash c := by
  cases h.moves with
  | settings => exact ⟨rfl, rfl, fun _ _ => rfl⟩
  | payout => exact ⟨rfl, rfl, fun _ _ => rfl⟩
  | elsewhere => exact ⟨rfl, rfl, fun _ _ => rfl⟩
  | @lapsed _ _ _ _ _ _ key =>
    cases key with
    | voteCount hash callId =>
      refine ⟨rfl, rfl, fun hash' c => ?_⟩
      show Tally.votesFor _ hash' c = _
      rw [Tally.votesFor_of_update rfl]
      simp [Label.lapsedCount, eq_comm]
    | _ => exact ⟨rfl, rfl, fun _ _ => rfl⟩
  | report _ _ _ hreport =>
    cases hreport with
    | vote hsubmits => cases hsubmits <;> cases hl
    | decide hsubmits => cases hsubmits <;> cases hl
    | price => exact ⟨rfl, rfl, fun _ _ => rfl⟩
    | observe => exact ⟨rfl, rfl, fun _ _ => rfl⟩
    | confirm => exact ⟨rfl, rfl, fun _ _ => rfl⟩
    | finalizeOutcome => exact ⟨rfl, rfl, fun _ _ => rfl⟩
    | disputeOutcome => exact ⟨rfl, rfl, fun _ _ => rfl⟩

omit [Registries R] in
/-- What the counted report adds to the count of each message. -/
theorem Counts.votesFor (h : Counts self w signed w') (hash : BytesN 32) (c : Nat) :
    w'.store.tally.votesFor hash c =
      if hash = signed.hash ∧ c = signed.callId then
        w.store.tally.votesFor signed.hash signed.callId + 1
      else w.store.tally.votesFor hash c :=
  Tally.votesFor_of_update h.counted hash c

end Steps

end Backit.OutcomeManager

/-!
## Safety of the quorum

A vote makes its call final when the count of its message reaches the quorum. The count does not
know who voted. What keeps an oracle from being counted twice is its temporary submission entry;
once that has lapsed, a second signature over the same message is a new digest and counts again.
As long as no oracle votes twice into one count, the quorum is one of distinct oracles.
-/

namespace Backit.OutcomeManager

open Soroban Lib Shared

section Votes

variable {R : Type} [Registries R] [Crypto] [Network]

omit [Registries R] [Network] in
/-- The reports counted for a message on a call since the count last lapsed, most recent first. -/
def counted (hash : BytesN 32) (c : Nat) : List Label → List SignedOutcome
  | [] => []
  | l :: history =>
    match l.reported with
    | some signed =>
      if signed.hash = hash ∧ signed.callId = c then signed :: counted hash c history
      else counted hash c history
    | none => if l.lapsedCount = some (hash, c) then [] else counted hash c history

/-- No oracle votes into a count that holds its vote already. -/
abbrev oneVoteEach : System.Guard (World R) Label := fun history _ l =>
  ∀ signed ∈ l.reported,
    signed.oraclePubkey ∉ (counted signed.hash signed.callId history).map (·.oraclePubkey)

/-- The messages that a run hashed do not collide. -/
def CollisionFree (history : List Label) : Prop :=
  ∀ first ∈ reports history, ∀ second ∈ reports history,
    first.hash = second.hash → first.message = second.message

instance CollisionFree.decidable (history : List Label) : Decidable (CollisionFree history) :=
  inferInstanceAs (Decidable (∀ first ∈ reports history, ∀ second ∈ reports history,
    first.hash = second.hash → first.message = second.message))

/-- What a report counts as: its oracle's signature over its message. -/
def SignedOutcome.submission (signed : SignedOutcome) : BytesN 32 × Bytes × BytesN 64 :=
  (signed.oraclePubkey, signed.message, signed.signature)

/-- The run submitted the report, with a valid signature of an oracle authorised at that time. -/
def Voted (address : Address) (outside : R → R → Prop) (guard : System.Guard (World R) Label)
    (history : List Label) (w : World R) (signed : SignedOutcome) : Prop :=
  ∃ l s, System.Took (manager address outside) guard history w l s ∧
    l.reported = some signed ∧ s.store.settings.authorises signed.oraclePubkey ∧
    Crypto.ed25519Verify signed.oraclePubkey signed.message signed.signature = true

/-- Distinct oracles, as many as the quorum, voted for exactly this outcome. -/
def HasQuorum (address : Address) (outside : R → R → Prop)
    (guard : System.Guard (World R) Label) (history : List Label) (w : World R)
    (outcome : Outcome) (quorum : Nat) : Prop :=
  ∃ votes : List SignedOutcome, quorum ≤ votes.length ∧
    (votes.map (·.oraclePubkey)).Nodup ∧
    ∀ signed ∈ votes, signed.stated = outcome ∧ Voted address outside guard history w signed

/-- The counts of a run, and the digests that it processed. -/
structure VotesKept (address : Address) (outside : R → R → Prop)
    (guard : System.Guard (World R) Label) (history : List Label) (w : World R) : Prop where
  count : ∀ hash c, (counted hash c history).length = w.store.tally.votesFor hash c
  voted : ∀ signed ∈ reports history, Voted address outside guard history w signed
  valid : ∀ signed ∈ reports history, isValidOutcome signed.outcome = true
  processed : ∀ signed ∈ reports history,
    w.store.tally.processedDigest (signed.digest address) = true
  once : ((reports history).map (·.submission)).Nodup

section Counting

variable {hash : BytesN 32} {c : Nat} {history : List Label} {signed : SignedOutcome}

omit [Registries R] [Network] in
theorem mem_counted (h : signed ∈ counted hash c history) :
    signed.hash = hash ∧ signed.callId = c ∧ signed ∈ reports history := by
  induction history with
  | nil => cases h
  | cons l history ih =>
    unfold counted at h
    cases hl : l.reported with
    | none =>
      simp only [hl] at h
      rw [reports, List.filterMap_cons_none hl]
      split at h
      · cases h
      · exact ih h
    | some next =>
      simp only [hl] at h
      rw [reports, List.filterMap_cons_some hl]
      split at h
      · next hmatch =>
        rcases List.mem_cons.mp h with rfl | h
        · exact ⟨hmatch.1, hmatch.2, .head _⟩
        · exact ⟨(ih h).1, (ih h).2.1, .tail _ (ih h).2.2⟩
      · exact ⟨(ih h).1, (ih h).2.1, .tail _ (ih h).2.2⟩

omit [Network] in
/-- Two reports in one count state the same outcome, unless their messages collide. -/
theorem counted_agree (hfree : CollisionFree history) {first second : SignedOutcome}
    (hfirst : first ∈ counted hash c history) (hsecond : second ∈ counted hash c history)
    (hvalid : ∀ signed ∈ reports history, isValidOutcome signed.outcome = true) :
    first.stated = second.stated := by
  obtain ⟨hhash, -, hmem⟩ := mem_counted hfirst
  obtain ⟨hhash', -, hmem'⟩ := mem_counted hsecond
  have hmessage := hfree first hmem second hmem' (hhash.trans hhash'.symm)
  obtain ⟨hcall, hout, hprice, htime⟩ := build_message_injective first.callId_lt second.callId_lt
    (hvalid first hmem) (hvalid second hmem') first.price_mem second.price_mem
    first.timestamp_lt second.timestamp_lt hmessage
  unfold SignedOutcome.stated
  rw [hcall, hout, hprice, htime]

/-- What an oracle signed determines the digest of its report. -/
theorem digest_eq {first second : SignedOutcome} (h : first.submission = second.submission)
    (address : Address) : first.digest address = second.digest address := by
  simp only [SignedOutcome.submission, Prod.mk.injEq] at h
  obtain ⟨horacle, hmessage, hsignature⟩ := h
  unfold SignedOutcome.digest
  rw [horacle, hmessage, hsignature]

end Counting

section Runs

variable {self : Address} {outside : R → R → Prop} {guard : System.Guard (World R) Label}
  {history : List Label} {w w' : World R} {l : Label} {signed : SignedOutcome}

theorem Voted.tail (h : Voted self outside guard history w signed)
    (hstep : (manager self outside).step w l w') (hguard : guard history w l) :
    Voted self outside guard (l :: history) w' signed := by
  obtain ⟨l₀, s, htook, hl₀, hauth, hsigned⟩ := h
  exact ⟨l₀, s, htook.tail hstep hguard, hl₀, hauth, hsigned⟩

theorem Voted.mem_reports (h : Voted self outside guard history w signed) :
    signed ∈ reports history := by
  obtain ⟨l₀, _, htook, hl₀, -⟩ := h
  exact List.mem_filterMap.mpr ⟨l₀, htook.mem, hl₀⟩

/-- A report enters the count of its message, and its digest is processed for good. -/
theorem VotesKept.vote (h : VotesKept self outside guard history w)
    (run : (manager self outside).RunWhere guard history w)
    (hstep : (manager self outside).step w l w') (hguard : guard history w l)
    (hl : l.reported = some signed) : VotesKept self outside guard (l :: history) w' := by
  have hcounts := WorldStep.counts hstep hl
  have hreports : reports (l :: history) = signed :: reports history := List.filterMap_cons_some hl
  refine ⟨fun hash c => ?_, fun next hnext => ?_, fun next hnext => ?_, fun next hnext => ?_, ?_⟩
  · rw [hcounts.votesFor hash c]
    unfold counted
    simp only [hl]
    by_cases hmatch : signed.hash = hash ∧ signed.callId = c
    · obtain ⟨rfl, rfl⟩ := hmatch
      simp [h.count]
    · have hother : ¬ (hash = signed.hash ∧ c = signed.callId) :=
        fun heq => hmatch ⟨heq.1.symm, heq.2.symm⟩
      rw [if_neg hmatch, if_neg hother]
      exact h.count hash c
  · rw [hreports] at hnext
    rcases List.mem_cons.mp hnext with rfl | hnext
    · exact ⟨l, w, run.took hstep hguard, hl, hcounts.authorised, hcounts.verified⟩
    · exact (h.voted next hnext).tail hstep hguard
  · rw [hreports] at hnext
    rcases List.mem_cons.mp hnext with rfl | hnext
    · exact hcounts.valid
    · exact h.valid next hnext
  · rw [hreports] at hnext
    rw [hcounts.digests]
    rcases List.mem_cons.mp hnext with rfl | hnext
    · exact Function.update_self ..
    · rw [Function.update_apply]
      split
      · rfl
      · exact h.processed next hnext
  · rw [hreports, List.map_cons, List.nodup_cons]
    refine ⟨fun hmem => ?_, h.once⟩
    -- An earlier report of the same signature would have processed this digest.
    obtain ⟨earlier, hearlier, heq⟩ := List.mem_map.mp hmem
    have hseen := h.processed earlier hearlier
    rw [digest_eq heq self, hcounts.unseen] at hseen
    cases hseen

/-- In every run the counts are those of the reports since they last lapsed. -/
theorem votes_kept (run : (manager self outside).RunWhere guard history w) :
    VotesKept self outside guard history w := by
  refine run.invariant (I := fun h w => VotesKept self outside guard h w) ?_ ?_
  · intro s hs
    refine ⟨fun hash c => ?_, fun _ h => (List.not_mem_nil h).elim,
      fun _ h => (List.not_mem_nil h).elim, fun _ h => (List.not_mem_nil h).elim, .nil⟩
    rw [show s.store = Storage.empty from hs]
    rfl
  · intro h s l s' hrun ih hstep hguard
    cases hl : l.reported with
    | some signed => exact ih.vote hrun hstep hguard hl
    | none =>
      obtain ⟨-, hdigests, hcount⟩ := WorldStep.uncounted hstep hl
      have hreports : reports (l :: h) = reports h := List.filterMap_cons_none hl
      refine ⟨fun hash c => ?_, fun next hnext => ?_, fun next hnext => ?_,
        fun next hnext => ?_, ?_⟩
      · rw [hcount]
        unfold counted
        simp only [hl]
        split
        · rfl
        · exact ih.count hash c
      · rw [hreports] at hnext
        exact (ih.voted next hnext).tail hstep hguard
      · rw [hreports] at hnext
        exact ih.valid next hnext
      · rw [hreports] at hnext
        rw [hdigests]
        exact ih.processed next hnext
      · rw [hreports]
        exact ih.once

/-- Under the guard every count is of distinct oracles. -/
theorem counted_distinct (run : (manager self outside).RunWhere oneVoteEach history w) :
    ∀ hash c, ((counted hash c history).map (·.oraclePubkey)).Nodup := by
  refine run.invariant
    (I := fun h _ => ∀ hash c, ((counted hash c h).map (·.oraclePubkey)).Nodup)
    (fun _ _ _ _ => .nil) ?_
  intro h s l s' _ ih _ hguard hash c
  unfold counted
  cases hl : l.reported with
  | none =>
    dsimp only
    split
    · exact .nil
    · exact ih hash c
  | some signed =>
    dsimp only
    split
    · next hmatch =>
      obtain ⟨rfl, rfl⟩ := hmatch
      rw [List.map_cons, List.nodup_cons]
      exact ⟨hguard signed hl, ih _ _⟩
    · exact ih hash c

/-- When no oracle votes twice into one count: a vote that makes its call final has a quorum of
distinct oracles, each authorised when it voted, behind exactly the outcome it states; no vote
changes a final outcome; and no signature is accepted twice. -/
theorem quorum_safe (run : (manager self outside).RunWhere oneVoteEach history w)
    (hstep : (manager self outside).step w l w') (hguard : oneVoteEach history w l)
    (hfree : CollisionFree (l :: history)) (hl : l.reported = some signed) :
    (∀ c outcome, w.store.tally.finalOutcome c = none →
        w'.store.tally.finalOutcome c = some outcome →
          ∃ quorum, w.store.settings.quorum = some quorum ∧
            HasQuorum self outside oneVoteEach (l :: history) w' outcome quorum) ∧
      (∀ c outcome, w.store.tally.finalOutcome c = some outcome →
        w'.store.tally.finalOutcome c = some outcome) ∧
      ((reports (l :: history)).map (·.submission)).Nodup := by
  have hrun := run.tail hstep hguard
  have hkept := votes_kept hrun
  refine ⟨fun c outcome hundecided hfinal => ?_,
    fun c outcome hfinal => step_final_kept run hstep hfinal, hkept.once⟩
  have hcounts := WorldStep.counts hstep hl
  obtain ⟨quorum, hquorum, ⟨-, hsame⟩ | ⟨hreached, hdecided⟩⟩ := hcounts.outcome
  · rw [hsame, hundecided] at hfinal
    cases hfinal
  · have hcall : c = signed.callId := by
      by_contra hne
      rw [hdecided, Function.update_of_ne hne, hundecided] at hfinal
      cases hfinal
    subst hcall
    rw [hdecided, Function.update_self, Option.some.injEq] at hfinal
    subst hfinal
    -- The last report is in the count, so everything in the count agrees with it.
    have hlast : signed ∈ counted signed.hash signed.callId (l :: history) := by
      unfold counted
      simp [hl]
    have hlength := hkept.count signed.hash signed.callId
    rw [hcounts.votesFor, if_pos ⟨rfl, rfl⟩] at hlength
    refine ⟨quorum, hquorum, counted signed.hash signed.callId (l :: history), ?_,
      counted_distinct hrun _ _, fun next hnext => ⟨?_, ?_⟩⟩
    · rw [hlength]
      exact hreached
    · exact counted_agree hfree hnext hlast hkept.valid
    · exact hkept.voted next (mem_counted hnext).2.2

end Runs

end Votes

section Scenario

attribute [local instance] scenarioCrypto testNetwork

/-- The first oracle reports call 1. -/
def firstVoteScript : List Input := [opening, submits 1001 oracleA signatureA]

/-- The first oracle reports call 1, its submission entry lapses, and it signs the same report
once more. -/
def twoSignaturesScript : List Input :=
  [opening, submits 1001 oracleA signatureA, .lapse (.submission oracleA 1),
    submits 90000 oracleA secondSignatureA]

def firstVoteRun : Replayed (fun history w l => decide (oneVoteEach history w l)) :=
  .of freshWorld fresh_world_initial firstVoteScript (by decide +kernel)

/-- The second oracle reports call 1. -/
def secondVote : Label × World WillingRegistries :=
  (World.next home firstVoteRun.state (submits 1002 oracleB signatureB)).get (by decide +kernel)

def twoSignaturesRun : Replayed System.anything :=
  .of freshWorld fresh_world_initial twoSignaturesScript (by decide +kernel)

/-- Two oracles decide call 1. -/
theorem quorum_safe_with_two_oracles :
    secondVote.2.store.tally.finalOutcome 1 = some ⟨1, 1, 7, 1000⟩ ∧
      ∃ quorum, firstVoteRun.state.store.settings.quorum = some quorum ∧
        HasQuorum home (fun _ (_ : WillingRegistries) => False) oneVoteEach
          (secondVote.1 :: firstVoteRun.history) secondVote.2 ⟨1, 1, 7, 1000⟩ quorum :=
  have run : (manager home fun _ (_ : WillingRegistries) => False).RunWhere oneVoteEach
      firstVoteRun.history firstVoteRun.state :=
    firstVoteRun.run World.next_step fun _ _ _ h => of_decide_eq_true h
  have hstep : (manager home fun _ (_ : WillingRegistries) => False).step firstVoteRun.state
      secondVote.1 secondVote.2 :=
    World.next_get (by decide +kernel)
  have hl : secondVote.1.reported = some (report oracleB signatureB) := by decide +kernel
  have hfinal : secondVote.2.store.tally.finalOutcome 1 = some ⟨1, 1, 7, 1000⟩ := by decide +kernel
  ⟨hfinal, (quorum_safe run hstep (by decide +kernel) (by decide +kernel) hl).1 1 _
    (by decide +kernel) hfinal⟩

/-- One oracle makes call 1 final against a quorum of two. -/
theorem one_oracle_reaches_quorum :
    (manager home fun _ (_ : WillingRegistries) => False).Run twoSignaturesRun.history
        twoSignaturesRun.state ∧
      twoSignaturesRun.state.store.settings.quorum = some 2 ∧
      CollisionFree twoSignaturesRun.history ∧
      twoSignaturesRun.state.store.tally.finalOutcome 1 = some ⟨1, 1, 7, 1000⟩ ∧
      ¬ HasQuorum home (fun _ (_ : WillingRegistries) => False) System.anyStep
        twoSignaturesRun.history twoSignaturesRun.state ⟨1, 1, 7, 1000⟩ 2 := by
  refine ⟨twoSignaturesRun.run World.next_step System.anything_allowed, by decide +kernel,
    by decide +kernel, by decide +kernel, ?_⟩
  rintro ⟨votes, hlength, hdistinct, hvotes⟩
  have hone : ∀ signed ∈ reports twoSignaturesRun.history, signed.oraclePubkey = oracleA := by
    decide +kernel
  have hsame : ∀ key ∈ votes.map (·.oraclePubkey), key = oracleA := by
    intro key hkey
    obtain ⟨signed, hsigned, rfl⟩ := List.mem_map.mp hkey
    exact hone signed (hvotes signed hsigned).2.mem_reports
  have hfew : (votes.map (·.oraclePubkey)).Subperm [oracleA] :=
    List.subperm_of_subset hdistinct fun key hkey => List.mem_singleton.mpr (hsame key hkey)
  have hle := hfew.length_le
  rw [List.length_map, List.length_singleton] at hle
  omega

end Scenario

end Backit.OutcomeManager
