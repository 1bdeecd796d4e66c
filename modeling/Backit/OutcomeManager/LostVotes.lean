import Backit.OutcomeManager.Quorum

/-!
# Lost votes

The list of a call's votes outlives the counts that decide. While the oracles and the quorum stay
as they are, an undecided call has fewer votes for any one outcome than the quorum, provided that no
count with votes in it lapses. When one does, its votes stay in the list and are never counted
again.
-/

namespace Backit.OutcomeManager

open Soroban Lib Shared

/-- The operation changes neither the set of oracles nor the quorum of an initialised manager. -/
def SettingsOp.keepsOracles : SettingsOp → Bool
  | .addOracle _ | .removeOracle _ | .setQuorum _ | .executeOracleRemoval _ => false
  | _ => true

/-- The vote is for the outcome, at its price and its time. -/
def OracleVote.supports (vote : OracleVote) (outcome : Outcome) : Bool :=
  decide (vote.outcome = outcome.outcome ∧ vote.price = outcome.price ∧
    vote.timestamp = outcome.timestamp)

section Law

variable {R : Type} [Registries R] [Crypto] [Network]

omit [Registries R] [Network] in
/-- The hash under which the votes for an outcome are counted. -/
def Outcome.hash (outcome : Outcome) : BytesN 32 :=
  Crypto.sha256 (buildMessage outcome.callId outcome.outcome outcome.price outcome.timestamp)

omit [Registries R] [Network] in
/-- The oracles and the quorum are fixed, and no count that holds votes on an undecided call
lapses. -/
abbrev countsSurvive : System.Guard (World R) Label := fun _ w l =>
  (∀ r ∈ l.onSettings, r.2.keepsOracles = true) ∧
    ∀ key ∈ l.lapsedCount, w.store.tally.finalOutcome key.2 = none →
      w.store.tally.votesFor key.1 key.2 = 0

/-- When the votes of authorised oracles for one outcome of a call make a quorum, the call is
final. -/
def NoVoteLost (s : Storage) : Prop :=
  ∀ (outcome : Outcome) (voters : List (BytesN 32)) (quorum : Nat), voters.Nodup →
    (∀ oracle ∈ voters, s.settings.authorises oracle ∧
      ⟨oracle, outcome.outcome, outcome.price, outcome.timestamp⟩ ∈
        s.tally.votes outcome.callId) →
    s.settings.quorum = some quorum → quorum ≤ voters.length →
    s.tally.finalOutcome outcome.callId ≠ none

/-- The count of a message covers the votes in the list and stays below the quorum while the call
is undecided. -/
structure CountsCover (s : Storage) : Prop where
  silent : s.settings.admin = none → s.settings.quorum = none
  empty : s.settings.quorum = none → ∀ hash c, s.tally.votesFor hash c = 0
  short : ∀ quorum, s.settings.quorum = some quorum → ∀ hash c,
    s.tally.finalOutcome c = none → s.tally.votesFor hash c < quorum
  covers : ∀ outcome : Outcome, s.tally.finalOutcome outcome.callId = none →
    ((s.tally.votes outcome.callId).filter (·.supports outcome)).length ≤
      s.tally.votesFor outcome.hash outcome.callId

omit [Network] in
theorem CountsCover.none_lost {s : Storage} (h : CountsCover s) : NoVoteLost s := by
  intro outcome voters quorum hdistinct hvoters hquorum hreached hundecided
  let vote (oracle : BytesN 32) : OracleVote :=
    ⟨oracle, outcome.outcome, outcome.price, outcome.timestamp⟩
  have hnodup : (voters.map vote).Nodup :=
    hdistinct.map fun a b heq => congrArg OracleVote.oracle heq
  have hsubset : voters.map vote ⊆
      (s.tally.votes outcome.callId).filter (·.supports outcome) := by
    intro v hv
    obtain ⟨oracle, horacle, rfl⟩ := List.mem_map.mp hv
    exact List.mem_filter.mpr ⟨(hvoters oracle horacle).2, by simp [OracleVote.supports, vote]⟩
  have hle := (List.subperm_of_subset hnodup hsubset).length_le
  have hcovered := h.covers outcome hundecided
  have hshort := h.short quorum hquorum outcome.hash outcome.callId hundecided
  rw [List.length_map] at hle
  omega

end Law

section Steps

variable {R : Type} [Registries R] [Crypto] [Network] {self : Address} {w w' : World R}
  {signed : SignedOutcome}

omit [Registries R] in
/-- An accepted report is counted along with the vote that it adds to the list. -/
theorem CountsCover.vote (h : CountsCover w.store) (hcounts : Counts self w signed w') :
    CountsCover w'.store := by
  obtain ⟨quorum, hquorum, hcases⟩ := hcounts.outcome
  -- The report's call is the only one whose votes change, and the only one that can be decided.
  have hbefore : ∀ c, w'.store.tally.finalOutcome c = none →
      w.store.tally.finalOutcome c = none := by
    intro c hundecided
    rcases hcases with ⟨-, hsame⟩ | ⟨-, hdecided⟩
    · rw [← hsame]
      exact hundecided
    · rw [hdecided, Function.update_apply] at hundecided
      split at hundecided
      · cases hundecided
      · exact hundecided
  have hbelow : w'.store.tally.finalOutcome signed.callId = none →
      w.store.tally.votesFor signed.hash signed.callId + 1 < quorum := by
    intro hundecided
    rcases hcases with ⟨hshort, -⟩ | ⟨-, hdecided⟩
    · exact hshort
    · rw [hdecided, Function.update_self] at hundecided
      cases hundecided
  refine ⟨?_, ?_, ?_, ?_⟩
  · rw [hcounts.settings]
    exact h.silent
  · rw [hcounts.settings, hquorum]
    intro hnone
    cases hnone
  · intro q hq hash c hundecided
    rw [hcounts.settings, hquorum, Option.some.injEq] at hq
    subst hq
    rw [hcounts.votesFor]
    split
    · next hmatch =>
      rw [hmatch.2] at hundecided
      exact hbelow hundecided
    · exact h.short quorum hquorum hash c (hbefore c hundecided)
  · intro outcome hundecided
    have hcovered := h.covers outcome (hbefore _ hundecided)
    rw [hcounts.votes, hcounts.votesFor]
    by_cases hc : outcome.callId = signed.callId
    · rw [hc] at hcovered ⊢
      rw [Function.update_self, List.filter_append, List.length_append]
      by_cases hsupports : signed.vote.supports outcome = true
      · have hhash : outcome.hash = signed.hash := by
          simp only [OracleVote.supports, decide_eq_true_eq] at hsupports
          obtain ⟨hout, hprice, htime⟩ := hsupports
          unfold Outcome.hash SignedOutcome.hash SignedOutcome.message
          rw [hc, ← hout, ← hprice, ← htime]
          rfl
        rw [if_pos ⟨hhash, rfl⟩, List.filter_singleton, hsupports]
        rw [hhash] at hcovered
        exact Nat.succ_le_succ hcovered
      · rw [List.filter_singleton, Bool.eq_false_iff.mpr hsupports]
        split
        · next hmatch =>
          rw [hmatch.1] at hcovered
          exact hcovered.trans (Nat.le_succ _)
        · exact hcovered
    · rw [Function.update_of_ne hc, if_neg fun hmatch => hc hmatch.2]
      exact hcovered

omit [Crypto] [Network] in
theorem SettingsChange.quorum_kept {env : Env} {op : SettingsOp} {s s' : Settings}
    (h : SettingsChange env op s s') (hop : op.keepsOracles = true) :
    (s.admin = none ∧ ∃ quorum, 0 < quorum ∧ s'.quorum = some quorum ∧ s'.admin ≠ none) ∨
      (s'.quorum = s.quorum ∧ s'.admin ≠ none ∧ s.admin ≠ none) := by
  cases h with
  | initializeManager hnone _ hpos => exact .inl ⟨hnone, _, hpos, rfl, Option.some_ne_none _⟩
  | addOracle | keepOracle | removeOracle | setQuorum | executeOracleRemoval => cases hop
  | scheduleOracleRemoval hadmin => exact .inr ⟨rfl, by simp [hadmin], by simp [hadmin]⟩
  | @setParameter _ _ parameter hadmin =>
    refine .inr ⟨?_, ?_, by simp [hadmin]⟩
    · cases parameter <;> rfl
    · cases parameter <;> simp [Parameter.write, hadmin]

omit [Registries R] [Network] in
/-- A step that changes neither the quorum nor the votes, lets no votes on an undecided call lapse
and undoes no decision keeps the cover. -/
theorem CountsCover.keep (h : CountsCover w.store)
    (hadmin : w'.store.settings.admin = none → w.store.settings.admin = none)
    (hquorum : w'.store.settings.quorum = w.store.settings.quorum)
    (hvotes : w'.store.tally.votes = w.store.tally.votes)
    (hcount : ∀ hash c, w.store.tally.finalOutcome c = none →
      w'.store.tally.votesFor hash c = w.store.tally.votesFor hash c)
    (hempty : ∀ hash c, w.store.tally.votesFor hash c = 0 → w'.store.tally.votesFor hash c = 0)
    (hfinal : ∀ c, w'.store.tally.finalOutcome c = none → w.store.tally.finalOutcome c = none) :
    CountsCover w'.store := by
  refine ⟨?_, ?_, ?_, ?_⟩
  · rw [hquorum]
    exact fun hnone => h.silent (hadmin hnone)
  · rw [hquorum]
    exact fun hnone hash c => hempty hash c (h.empty hnone hash c)
  · rw [hquorum]
    intro quorum hquorum hash c hundecided
    rw [hcount hash c (hfinal c hundecided)]
    exact h.short quorum hquorum hash c (hfinal c hundecided)
  · intro outcome hundecided
    have hopen := hfinal outcome.callId hundecided
    rw [hvotes, hcount _ _ hopen]
    exact h.covers outcome hopen

end Steps

section Runs

variable {R : Type} [Registries R] [Crypto] [Network] {self : Address} {outside : R → R → Prop}
  {history : List Label} {w : World R}

/-- The counts cover the votes as long as they survive. -/
theorem counts_cover (run : (manager self outside).RunWhere countsSurvive history w) :
    CountsCover w.store := by
  refine run.invariant (I := fun _ w => CountsCover w.store) ?_ ?_
  · intro s hs
    rw [show s.store = Storage.empty from hs]
    exact ⟨fun _ => rfl, fun _ _ _ => rfl, fun _ h => (Option.some_ne_none _ h.symm).elim,
      fun _ _ => Nat.le_refl 0⟩
  · rintro h s l s' hrun ih hstep ⟨hfixed, hsurvive⟩
    cases hreported : l.reported with
    | some signed => exact ih.vote (WorldStep.counts hstep hreported)
    | none =>
      obtain ⟨hvotes, -, hcount⟩ := WorldStep.uncounted hstep hreported
      have hfinal : ∀ c, s'.store.tally.finalOutcome c = none →
          s.store.tally.finalOutcome c = none := by
        intro c hundecided
        cases hc : s.store.tally.finalOutcome c with
        | none => rfl
        | some outcome =>
          rw [step_final_kept hrun hstep hc] at hundecided
          cases hundecided
      have hcounts : ∀ hash c, s.store.tally.finalOutcome c = none →
          s'.store.tally.votesFor hash c = s.store.tally.votesFor hash c := by
        intro hash c hundecided
        rw [hcount]
        split
        · next hlapsed => exact (hsurvive _ hlapsed hundecided).symm
        · rfl
      have hempty : ∀ hash c, s.store.tally.votesFor hash c = 0 →
          s'.store.tally.votesFor hash c = 0 := by
        intro hash c hzero
        rw [hcount, hzero, ite_self]
      cases hsettings : l.onSettings with
      | none =>
        have hsame := WorldStep.settings_kept hstep hsettings
        exact ih.keep (fun hnone => hsame ▸ hnone) (by rw [hsame]) hvotes hcounts hempty
          hfinal
      | some r =>
        obtain ⟨hchange, htally⟩ := WorldStep.on_settings hstep hsettings
        rcases hchange.quorum_kept (hfixed r hsettings) with
          ⟨hnone, quorum, hpos, hquorum, hadmin⟩ | ⟨hquorum, hadmin, -⟩
        · -- Nothing has been counted before the manager is initialised.
          have hzero := ih.empty (ih.silent hnone)
          refine ⟨fun hnone' => absurd hnone' hadmin, fun hnone' => ?_, ?_, ?_⟩
          · rw [hquorum] at hnone'
            cases hnone'
          · rw [hquorum, htally]
            rintro _ ⟨⟩ hash c _
            rw [hzero]
            exact hpos
          · rw [htally]
            exact ih.covers
        · exact ih.keep (fun hnone => absurd hnone hadmin) hquorum hvotes hcounts hempty
            hfinal

/-- With the oracles and the quorum fixed, no vote is lost as long as no count with votes on an
undecided call lapses. -/
theorem no_vote_lost (run : (manager self outside).RunWhere countsSurvive history w) :
    NoVoteLost w.store :=
  (counts_cover run).none_lost

end Runs

section Scenario

attribute [local instance] scenarioCrypto testNetwork

/-- The first oracle reports call 1 and its submission entry lapses. -/
def survivingScript : List Input :=
  [opening, submits 1001 oracleA signatureA, .lapse (.submission oracleA 1)]

/-- The first oracle reports call 1, the count lapses, and the second oracle reports call 1. -/
def lapsedCountScript : List Input :=
  [opening, submits 1001 oracleA signatureA,
    .lapse (.voteCount (report oracleA signatureA).hash 1), submits 90000 oracleB signatureB]

def survivingRun : Replayed (fun history w l => decide (countsSurvive history w l)) :=
  .of freshWorld fresh_world_initial survivingScript (by decide +kernel)

def lapsedCountRun : Replayed System.anything :=
  .of freshWorld fresh_world_initial lapsedCountScript (by decide +kernel)

/-- No vote is lost with the count intact. -/
theorem no_vote_lost_with_count : NoVoteLost survivingRun.state.store :=
  no_vote_lost (survivingRun.run World.next_step fun _ _ _ h => of_decide_eq_true h)

/-- Both oracles have voted for the same outcome of call 1, with a quorum of two, and the call is
not final. -/
theorem lapsed_count_loses_vote :
    (manager home fun _ (_ : WillingRegistries) => False).Run lapsedCountRun.history
        lapsedCountRun.state ∧
      lapsedCountRun.state.store.tally.votes 1 = [⟨oracleA, 1, 7, 1000⟩, ⟨oracleB, 1, 7, 1000⟩] ∧
      lapsedCountRun.state.store.tally.finalOutcome 1 = none ∧
      ¬ NoVoteLost lapsedCountRun.state.store := by
  have hfacts : lapsedCountRun.state.store.tally.votes 1 =
        [⟨oracleA, 1, 7, 1000⟩, ⟨oracleB, 1, 7, 1000⟩] ∧
      lapsedCountRun.state.store.tally.finalOutcome 1 = none ∧
      lapsedCountRun.state.store.settings.quorum = some 2 ∧
      ∀ oracle ∈ [oracleA, oracleB],
        oracle ∈ lapsedCountRun.state.store.settings.oracles.getD ∅ := by decide +kernel
  obtain ⟨hvotes, hundecided, hquorum, horacles⟩ := hfacts
  refine ⟨lapsedCountRun.run World.next_step System.anything_allowed, hvotes, hundecided,
    fun hlost => ?_⟩
  have hdecided := hlost ⟨1, 1, 7, 1000⟩ [oracleA, oracleB] 2 (by decide +kernel)
  dsimp only at hdecided
  refine hdecided (fun oracle horacle => ⟨?_, ?_⟩) hquorum le_rfl hundecided
  · have hmem := horacles oracle horacle
    unfold Settings.authorises
    cases hset : lapsedCountRun.state.store.settings.oracles with
    | none => simp [hset] at hmem
    | some oracles => exact ⟨oracles, rfl, by simpa [hset] using hmem⟩
  · rw [hvotes]
    rcases List.mem_pair.mp horacle with rfl | rfl
    · exact .head _
    · exact .tail _ (.head _)

end Scenario

end Backit.OutcomeManager
