import Backit.Tournaments.Finalisation

/-!
# Scores are bounded

A score is a weighted mean of three parts of at most 10000 points, when the weights sum to 10000 and
no more predictions are correct than are resolved. The contract checks the first in numbers that
wrap around, and the second not at all.
-/

namespace Backit.Tournaments

open Soroban Contract Lib

/-- The weights without wrapping around. -/
def ScoringWeights.sum (weights : ScoringWeights) : Nat :=
  weights.volumeWeightBps.toNat + weights.uniquenessWeightBps.toNat +
    weights.accuracyWeightBps.toNat

/-- No more predictions are correct than are resolved, unless the accuracy does not count. -/
def Measured (weights : ScoringWeights) (resolvedCorrect resolvedTotal : UInt32) : Prop :=
  resolvedTotal = 0 ∨ resolvedCorrect ≤ resolvedTotal ∨ weights.accuracyWeightBps = 0

instance (weights : ScoringWeights) (resolvedCorrect resolvedTotal : UInt32) :
    Decidable (Measured weights resolvedCorrect resolvedTotal) :=
  inferInstanceAs (Decidable (_ ∨ _ ∨ _))

namespace MarketEntry

variable {entry : MarketEntry} {weights : ScoringWeights}

theorem points_nonneg : 0 ≤ entry.points weights :=
  Int.tdiv_nonneg (entry.weighted_sum_nonneg weights) (by decide)

theorem accuracy_part_le (h : Measured weights entry.resolvedCorrect entry.resolvedTotal) :
    entry.accuracy * weights.accuracyWeightBps.toNat ≤
      10000 * weights.accuracyWeightBps.toNat := by
  rcases h with hnone | hle | hweight
  · have hzero : entry.accuracy = 0 := by
      rw [accuracy, hnone]
      rfl
    rw [hzero]
    omega
  · exact mul_le_mul_of_nonneg_right (entry.accuracy_le hle) (by omega)
  · rw [hweight]
    simp

theorem points_le (hsum : weights.sum = 10000)
    (h : Measured weights entry.resolvedCorrect entry.resolvedTotal) :
    entry.points weights ≤ 10000 := by
  have hvolume : entry.volumeScore * weights.volumeWeightBps.toNat ≤
      10000 * weights.volumeWeightBps.toNat :=
    mul_le_mul_of_nonneg_right entry.volume_score_bounds.2 (by omega)
  have huniqueness : entry.uniqueness * weights.uniquenessWeightBps.toNat ≤
      10000 * weights.uniquenessWeightBps.toNat :=
    mul_le_mul_of_nonneg_right entry.uniqueness_bounds.2 (by omega)
  have haccuracy := accuracy_part_le h
  unfold ScoringWeights.sum at hsum
  rw [points, tdiv_eq_div (entry.weighted_sum_nonneg weights), weightedSum, bpsDenominator]
  omega

/-- A further correct prediction does not lower the score. -/
theorem points_mono {correct : UInt32} (h : entry.resolvedCorrect ≤ correct) :
    entry.points weights ≤ { entry with resolvedCorrect := correct }.points weights := by
  have hle : entry.resolvedCorrect.toNat ≤ correct.toNat := h
  have haccuracy : entry.accuracy ≤ { entry with resolvedCorrect := correct }.accuracy := by
    unfold accuracy maxScore
    split
    · next hpos =>
      have hpos' : 0 < entry.resolvedTotal.toNat := hpos
      rw [tdiv_eq_div (by omega), tdiv_eq_div (by omega)]
      have hscaled : (entry.resolvedCorrect.toNat : Int) * 10000 ≤ correct.toNat * 10000 := by omega
      exact Int.ediv_le_ediv (by omega) hscaled
    · exact le_rfl
  have hpart := mul_le_mul_of_nonneg_right haccuracy
    (show (0 : Int) ≤ weights.accuracyWeightBps.toNat by omega)
  have hsum : entry.weightedSum weights ≤
      { entry with resolvedCorrect := correct }.weightedSum weights :=
    add_le_add_right hpart _
  rw [points, points, tdiv_eq_div (weighted_sum_nonneg _ _), tdiv_eq_div (weighted_sum_nonneg _ _)]
  exact Int.ediv_le_ediv (by decide) hsum

end MarketEntry

/-- The weights and statistics that bound the scores. -/
structure Bounded (s : Storage) : Prop where
  weights : ∀ id t, s.tournament id = some t → t.scoringWeights.sum = 10000
  stats : ∀ id t entries p entry, s.tournament id = some t →
    s.marketEntries id = some entries → entries.lookup p = some entry →
      Measured t.scoringWeights entry.resolvedCorrect entry.resolvedTotal

/-- The weights of a creation sum to the whole without wrapping around, and an update reports at
most as many correct predictions as resolved ones. -/
def Sound (s : Storage) : TournamentOp → Prop
  | .createTournament _ _ _ _ _ scoringWeights _ => scoringWeights.sum = 10000
  | .updateMarketStats id _ _ _ resolvedCorrect resolvedTotal => ∀ t ∈ s.tournament id,
      Measured t.scoringWeights resolvedCorrect resolvedTotal
  | _ => True

instance (s : Storage) : (op : TournamentOp) → Decidable (Sound s op)
  | .createTournament .. => inferInstanceAs (Decidable (_ = _))
  | .updateMarketStats id .. => inferInstanceAs (Decidable (∀ t ∈ s.tournament id, _))
  | .initializeTournaments .. | .enterMarket .. | .finalizeTournament _ | .initBracket ..
  | .submitBracket .. | .resolveRound .. | .finalizeBracket _ => inferInstanceAs (Decidable True)

section Steps

variable {T : Type} [Tokens T] {env : Env} {f f' : Frame Storage T Event}

theorem Bounded.insert {s : Storage} (h : Bounded s) (id : Nat) (creator : Address)
    (entry : MarketEntry) (hentry : ∀ t, s.tournament id = some t →
      Measured t.scoringWeights entry.resolvedCorrect entry.resolvedTotal) :
    Bounded (s.setMarketEntries id (((s.marketEntries id).getD ∅).insert creator entry)) := by
  refine ⟨h.weights, ?_⟩
  intro other t found p stored ht hfound hstored
  simp only [Storage.setMarketEntries, Function.update_apply] at hfound
  split at hfound
  · next heq =>
    subst heq
    cases hfound
    by_cases hp : p = creator
    · subst hp
      rw [AList.lookup_insert] at hstored
      cases hstored
      exact hentry t ht
    · rw [AList.lookup_insert_ne hp] at hstored
      cases hentries : s.marketEntries other with
      | none => simp [hentries] at hstored
      | some entries =>
        rw [hentries] at hstored
        exact h.stats other t entries p stored ht hentries hstored
  · exact h.stats other t found p stored ht hfound hstored

theorem Bounded.step {op : TournamentOp} (h : Bounded f.store) (hstored : Stored f.store)
    (hsound : Sound f.store op) (hstep : TournamentStep env f op f') : Bounded f'.store := by
  cases hstep with
  | initialized | bracketOpened | submitted | resolved | bracketFinalized =>
    exact ⟨h.weights, h.stats⟩
  | created =>
    refine ⟨?_, ?_⟩
    · intro id t ht
      simp only [Storage.setMarketEntries, Storage.setTournament, Storage.setTournamentCount,
        Function.update_apply, createdTournament] at ht
      split at ht
      · cases ht
        exact hsound
      · exact h.weights id t ht
    · intro id t entries p entry ht hentries hentry
      simp only [Storage.setMarketEntries, Storage.setTournament, Storage.setTournamentCount,
        Function.update_apply, createdTournament] at ht hentries
      split at hentries
      · cases hentries
        cases hentry
      · next hne =>
        rw [if_neg hne] at ht
        exact h.stats id t entries p entry ht hentries hentry
  | @entered _ id creator callId _ _ _ _ _ _ _ _ _ hentries =>
    have hkept := h.insert id creator ⟨callId, 0, 0, 0, 0⟩ fun _ _ => .inl rfl
    rw [hentries]
    exact ⟨hkept.weights, hkept.stats⟩
  | @updated _ id creator totalStake uniqueStakers resolvedCorrect resolvedTotal _ entry _ _
      hentries =>
    have hkept := h.insert id creator
      ⟨entry.callId, totalStake, uniqueStakers, resolvedCorrect, resolvedTotal⟩ hsound
    rwa [hentries] at hkept
  | @finalized id t entries _ hfinalizes =>
    obtain ⟨hid, -, -⟩ := hstored.tournament id t hfinalizes.stored
    have hsame : ∀ other u, (f.store.finalize id t entries).tournament other = some u →
        ∃ v, f.store.tournament other = some v ∧ v.scoringWeights = u.scoringWeights := by
      intro other u hu
      rw [Storage.finalize_tournament, Function.update_apply] at hu
      split at hu
      · next heq =>
        cases hu
        exact ⟨t, by rw [heq, hid]; exact hfinalizes.stored, rfl⟩
      · exact ⟨u, hu, rfl⟩
    refine ⟨?_, ?_⟩
    · intro other u hu
      obtain ⟨v, hv, hweights⟩ := hsame other u hu
      rw [← hweights]
      exact h.weights other v hv
    · intro other u found p entry hu hfound hentry
      obtain ⟨v, hv, hweights⟩ := hsame other u hu
      rw [← hweights]
      exact h.stats other v found p entry hv (by simpa using hfound) hentry

end Steps

section Run

variable {T : Type} [Tokens T] {self : Address} {outside : T → T → Prop}
  {history : List (Happening TournamentOp Event)} {d : Deployment Storage T}

/-- Every invocation is sound. -/
def SoundInputs (T : Type) : System.Guard (Deployment Storage T) (Happening TournamentOp Event) :=
  fun _ d l => ∀ i, l.invocation = some i → Sound d.store i.op

theorem bounded_of_run (run : (tournaments self outside).RunWhere (SoundInputs T) history d) :
    Bounded d.store := by
  refine store_invariant (I := Bounded) ?_ ?_ run
  · intro d hd
    rw [show d.store = Storage.empty from hd.1]
    constructor <;> simp [Storage.empty]
  · intro h d env op f hrun ih _ hinvoke hsound
    have hstored := stored_of_run hrun
    exact ih.step hstored (hsound _ rfl) (TournamentOp.steps hstored hinvoke)

/-- In a run of sound invocations the score of every participant is computed, lies between 0 and
10000, and does not fall when more of its predictions are correct. -/
theorem scores_bounded (hrun : (tournaments self outside).RunWhere (SoundInputs T) history d)
    {id : Nat} {t : Tournament} {entries : Map Address MarketEntry} {p : Address}
    {entry : MarketEntry} (ht : d.store.tournament id = some t)
    (hentries : d.store.marketEntries id = some entries) (hentry : entries.lookup p = some entry)
    (env : Env) :
    ∃ points : Int, run (calculateScore id p : Contest T Int) env d.frame =
        .ok (points, d.frame) ∧
      0 ≤ points ∧ points ≤ 10000 ∧
      ∀ correct, entry.resolvedCorrect ≤ correct →
        ∃ more : Int, run ({ entry with resolvedCorrect := correct }.weighted
            t.scoringWeights : Contest T Int) env d.frame = .ok (more, d.frame) ∧
          points ≤ more := by
  have hbounded := bounded_of_run hrun
  refine ⟨entry.points t.scoringWeights, run_calculateScore ht hentries hentry,
    MarketEntry.points_nonneg, ?_, ?_⟩
  · exact MarketEntry.points_le (hbounded.weights id t ht)
      (hbounded.stats id t entries p entry ht hentries hentry)
  · intro correct hle
    exact ⟨_, MarketEntry.run_weighted _ _, MarketEntry.points_mono hle⟩

end Run

/-- A tournament in which only the accuracy counts. -/
def accuracyCup : List (Env × TournamentOp) :=
  [at_ 1 [] (.initializeTournaments admin factory),
    at_ 2 [admin] (.createTournament admin "accuracy" 10 20 1009 ⟨0, 0, 10000⟩ 3),
    at_ 11 [factory] (.enterMarket 1 alice 7)]

/-- The invocation is sound. -/
def soundly (_ : List (Happening TournamentOp Event)) (d : Deployment Storage StandardLedger)
    (l : Happening TournamentOp Event) : Bool :=
  l.invocation.all fun i => Sound d.store i.op

theorem soundly_sound (h : List (Happening TournamentOp Event))
    (d : Deployment Storage StandardLedger) (l : Happening TournamentOp Event)
    (hsound : soundly h d l = true) : SoundInputs StandardLedger h d l := by
  intro i hi
  rw [soundly, hi] at hsound
  exact of_decide_eq_true hsound

/-- Three of Alice's four predictions are correct. -/
def soundScores : System.Replayed closed (Deployment.next TournamentOp.perform cup) soundly :=
  .of (deployed fun _ => .empty) penniless_initial
    (accuracyCup ++ [at_ 12 [factory] (.updateMarketStats 1 alice 0 0 3 4)]) (by decide +kernel)

/-- Alice's entry and the tournament it is in. -/
def entryOf (d : Deployment Storage StandardLedger) : Option (MarketEntry × ScoringWeights) := do
  let t ← d.store.tournament 1
  let entries ← d.store.marketEntries 1
  let entry ← entries.lookup alice
  some (entry, t.scoringWeights)

theorem sound_score_bounded :
    ∃ points : Int, run (calculateScore 1 alice : Contest StandardLedger Int) closing
        soundScores.state.frame = .ok (points, soundScores.state.frame) ∧
      0 ≤ points ∧ points ≤ 10000 := by
  have hentry : (entryOf soundScores.state).isSome = true := by decide +kernel
  obtain ⟨_, hentry⟩ := Option.isSome_iff_exists.mp hentry
  simp only [entryOf, bind, Option.bind_eq_some_iff] at hentry
  obtain ⟨t, ht, entries, hentries, entry, hentry, -⟩ := hentry
  obtain ⟨points, hpoints, hnonneg, hle, -⟩ := scores_bounded
    (soundScores.run Deployment.next_step soundly_sound) ht hentries hentry closing
  exact ⟨points, hpoints, hnonneg, hle⟩

/-- Two of Alice's one prediction are correct. -/
def overcountedScores : Cup :=
  .of (deployed fun _ => .empty) penniless_initial
    (accuracyCup ++ [at_ 12 [factory] (.updateMarketStats 1 alice 0 0 2 1)]) (by decide +kernel)

/-- Weights that sum to more than `2 ^ 32`. -/
def wrappedWeights : Cup :=
  .of (deployed fun _ => .empty) penniless_initial
    [at_ 1 [] (.initializeTournaments admin factory),
      at_ 2 [admin] (.createTournament admin "wrapped" 10 20 1009 ⟨4294967295, 10001, 0⟩ 3),
      at_ 11 [factory] (.enterMarket 1 alice 7),
      at_ 12 [factory] (.updateMarketStats 1 alice 5000000 0 0 0)] (by decide +kernel)

/-- The accepted scores of 20000 and 2147483. -/
theorem scores_unbounded : closed.Run overcountedScores.history overcountedScores.state ∧
      closed.Run wrappedWeights.history wrappedWeights.state ∧
      (run (calculateScore 1 alice) closing overcountedScores.state.frame).toOption.map Prod.fst =
        some 20000 ∧
      (run (calculateScore 1 alice) closing wrappedWeights.state.frame).toOption.map Prod.fst =
        some 2147483 := by
  have hovercounted : (run (calculateScore 1 alice) closing
      overcountedScores.state.frame).toOption.map Prod.fst = some 20000 := by decide +kernel
  have hwrapped : (run (calculateScore 1 alice) closing
      wrappedWeights.state.frame).toOption.map Prod.fst = some 2147483 := by decide +kernel
  exact ⟨overcountedScores.run Deployment.next_step System.anything_allowed,
    wrappedWeights.run Deployment.next_step System.anything_allowed, hovercounted, hwrapped⟩

end Backit.Tournaments
