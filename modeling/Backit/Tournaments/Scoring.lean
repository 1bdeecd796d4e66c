import Backit.Lib.ProRata
import Backit.Tournaments.Standings

/-!
# Scores and standings in closed form

A score never traps, so what a finalisation computes of its participants is a function of the
tournament and its entries. Only the prizes can overflow.
-/

namespace Backit.Tournaments

open Soroban Contract Lib

variable {T β : Type} {env : Env} {f f' : Frame Storage T Event} {b : β}

theorem run_bind_pure (x : Contest T β) : run (x >>= pure) env f = run x env f := by
  simp only [run, bind, pure]
  cases x env f <;> rfl

namespace MarketEntry

variable (entry : MarketEntry)

def accuracy : Int :=
  if 0 < entry.resolvedTotal then
    (entry.resolvedCorrect.toNat * maxScore).tdiv entry.resolvedTotal.toNat
  else 0

def uniqueness : Int := min (entry.uniqueStakers.toNat * 100) maxScore

/-- The parts of a score, weighted. -/
def weightedSum (weights : ScoringWeights) : Int :=
  entry.volumeScore * weights.volumeWeightBps.toNat +
    entry.uniqueness * weights.uniquenessWeightBps.toNat +
    entry.accuracy * weights.accuracyWeightBps.toNat

/-- The score of an entry. -/
def points (weights : ScoringWeights) : Int := (entry.weightedSum weights).tdiv bpsDenominator

theorem volume_score_bounds : 0 ≤ entry.volumeScore ∧ entry.volumeScore ≤ 10000 := by
  unfold volumeScore
  split
  · next hpos =>
    have := Int.tdiv_nonneg hpos.le (show (0 : Int) ≤ 1000000 by decide)
    unfold maxScore
    omega
  · decide

theorem uniqueness_bounds : 0 ≤ entry.uniqueness ∧ entry.uniqueness ≤ 10000 := by
  unfold uniqueness maxScore
  omega

/-- Without a bound on the correct predictions the accuracy is only bounded by their number. -/
theorem accuracy_bounds :
    0 ≤ entry.accuracy ∧ entry.accuracy ≤ entry.resolvedCorrect.toNat * 10000 := by
  unfold accuracy maxScore
  split
  · rw [tdiv_eq_div (by omega)]
    exact ⟨Int.ediv_nonneg (by omega) (Int.natCast_nonneg _), Int.ediv_le_self _ (by omega)⟩
  · omega

/-- At most all predictions are correct: the accuracy is at most the whole. -/
theorem accuracy_le (h : entry.resolvedCorrect ≤ entry.resolvedTotal) : entry.accuracy ≤ 10000 := by
  have hle : entry.resolvedCorrect.toNat ≤ entry.resolvedTotal.toNat := h
  unfold accuracy maxScore
  split
  · next hpos =>
    have hpos' : 0 < entry.resolvedTotal.toNat := hpos
    rw [tdiv_eq_div (by omega)]
    exact Int.ediv_le_of_le_mul (by omega) (by omega)
  · decide

theorem part_bounds {x : Int} {w : UInt32} {bound : Int} (hx : 0 ≤ x) (hle : x ≤ bound) :
    0 ≤ x * w.toNat ∧ x * w.toNat ≤ bound * 4294967296 := by
  have hw := w.toNat_lt
  refine ⟨mul_nonneg hx (by omega), ?_⟩
  exact mul_le_mul hle (by omega) (by omega) (hx.trans hle)

theorem weighted_sum_nonneg (weights : ScoringWeights) : 0 ≤ entry.weightedSum weights := by
  have hvolume := (part_bounds (w := weights.volumeWeightBps) entry.volume_score_bounds.1
    entry.volume_score_bounds.2).1
  have huniqueness := (part_bounds (w := weights.uniquenessWeightBps) entry.uniqueness_bounds.1
    entry.uniqueness_bounds.2).1
  have haccuracy := (part_bounds (w := weights.accuracyWeightBps) entry.accuracy_bounds.1
    entry.accuracy_bounds.2).1
  unfold weightedSum
  omega

/-- What a score is computed from is far from the limits. -/
theorem inI128_of_small {x : Int} (hnonneg : 0 ≤ x) (hle : x ≤ 2 ^ 126) : InI128 x := by
  have hmax : i128Max = 2 ^ 127 - 1 := rfl
  have hmin : i128Min = -(2 ^ 127) := rfl
  constructor <;> omega

theorem run_uniquenessScore_bind (k : Int → Contest T β) :
    run (entry.uniquenessScore >>= k) env f = run (k entry.uniqueness) env f := by
  have hstakers := entry.uniqueStakers.toNat_lt
  simp only [uniquenessScore, Contract.bind_assoc]
  rw [run_i128_of (inI128_of_small (by omega) (by omega)), run_pure_bind]
  rfl

theorem run_accuracyScore_bind (k : Int → Contest T β) :
    run (entry.accuracyScore >>= k) env f = run (k entry.accuracy) env f := by
  have hcorrect := entry.resolvedCorrect.toNat_lt
  have hscaled : InI128 (entry.resolvedCorrect.toNat * maxScore) := by
    unfold maxScore
    exact inI128_of_small (by omega) (by omega)
  unfold accuracyScore accuracy
  split
  · rw [Contract.bind_assoc, run_i128_of hscaled, run_pure_bind]
  · rw [run_pure_bind]

theorem run_weighted_bind (weights : ScoringWeights) (k : Int → Contest T β) :
    run (entry.weighted weights >>= k) env f = run (k (entry.points weights)) env f := by
  have hcorrect := entry.resolvedCorrect.toNat_lt
  have hvolume := part_bounds (w := weights.volumeWeightBps) entry.volume_score_bounds.1
    entry.volume_score_bounds.2
  have huniqueness := part_bounds (w := weights.uniquenessWeightBps) entry.uniqueness_bounds.1
    entry.uniqueness_bounds.2
  have haccuracy := part_bounds (w := weights.accuracyWeightBps) entry.accuracy_bounds.1
    (show entry.accuracy ≤ 42949672960000 by have := entry.accuracy_bounds; omega)
  simp only [weighted, Contract.bind_assoc]
  rw [run_uniquenessScore_bind, run_accuracyScore_bind,
    run_i128_of (inI128_of_small hvolume.1 (by omega)),
    run_i128_of (inI128_of_small huniqueness.1 (by omega)),
    run_i128_of (inI128_of_small (by omega) (by omega)),
    run_i128_of (inI128_of_small haccuracy.1 (by omega)),
    run_i128_of (inI128_of_small (by omega) (by omega)), run_pure_bind]
  rfl

theorem run_weighted (weights : ScoringWeights) :
    run (entry.weighted weights) env f = .ok (entry.points weights, f) := by
  rw [← run_bind_pure, run_weighted_bind, run_pure]

end MarketEntry

section Scores

variable {id : Nat} {t : Tournament} {entries : Map Address MarketEntry}

/-- The score of a participant. -/
def scoreOf (weights : ScoringWeights) (entries : Map Address MarketEntry) (p : Address) : Int :=
  ((entries.lookup p).map (·.points weights)).getD 0

/-- The participants with their scores. -/
def scoredOf (weights : ScoringWeights) (entries : Map Address MarketEntry) (ps : List Address) :
    List (Address × Int) :=
  ps.map fun p => (p, scoreOf weights entries p)

theorem score_of_lookup {weights : ScoringWeights} {p : Address} {entry : MarketEntry}
    (h : entries.lookup p = some entry) : scoreOf weights entries p = entry.points weights := by
  simp [scoreOf, h]

/-- The score of a participant is computed without a trap. -/
theorem run_calculateScore_bind {p : Address} {entry : MarketEntry}
    (ht : f.store.tournament id = some t) (hentries : f.store.marketEntries id = some entries)
    (hentry : entries.lookup p = some entry) (k : Int → Contest T β) :
    run (calculateScore id p >>= k) env f =
      run (k (entry.points t.scoringWeights)) env f := by
  simp only [calculateScore, Contract.bind_assoc, run_getStore_bind]
  rw [ht, run_unwrap_some, run_getStore_bind, hentries, run_unwrap_some, hentry, run_unwrap_some,
    entry.run_weighted_bind]

theorem run_calculateScore {p : Address} {entry : MarketEntry}
    (ht : f.store.tournament id = some t) (hentries : f.store.marketEntries id = some entries)
    (hentry : entries.lookup p = some entry) :
    run (calculateScore id p) env f = .ok (entry.points t.scoringWeights, f) := by
  rw [← run_bind_pure, run_calculateScore_bind ht hentries hentry, run_pure]

/-- Store the scores of some participants. -/
def Storage.setScores (s : Storage) (id : Nat) (scored : List (Address × Int)) : Storage :=
  scored.foldl (fun s p => s.setParticipantScore id p.1 p.2) s

/-- The scores of all participants, by induction on the participants. -/
theorem run_scoreEach_bind {ps : List Address} (ht : f.store.tournament id = some t)
    (hentries : f.store.marketEntries id = some entries) (hps : ∀ p ∈ ps, p ∈ entries)
    (k : List (Address × Int) → Contest T β) :
    run (scoreEach id ps >>= k) env f =
      run (k (scoredOf t.scoringWeights entries ps)) env
        { f with store := f.store.setScores id (scoredOf t.scoringWeights entries ps) } := by
  induction ps generalizing f k with
  | nil => rw [scoreEach, run_pure_bind]; rfl
  | cons p rest ih =>
    obtain ⟨entry, hentry⟩ := Option.isSome_iff_exists.mp
      (AList.lookup_isSome.mpr (hps p (.head _)))
    simp only [scoreEach, Contract.bind_assoc]
    rw [run_calculateScore_bind ht hentries hentry, run_modifyStore_bind,
      ih (f := { f with store := f.store.setParticipantScore id p _ }) ht hentries
        fun q hq => hps q (.tail _ hq), run_pure_bind]
    simp only [scoredOf, List.map_cons, score_of_lookup hentry]
    rfl

end Scores

section Prizes

variable {total : Int} {topN : Nat}

/-- The shares of the first `topN` together. -/
def totalShares (topN : Nat) : Nat := topN * (topN + 1) / 2

/-- The prize of the participant with index `i`. -/
def prizeAt (total : Int) (topN i : Nat) : Int :=
  if i < topN then proRata total (totalShares topN) (topN - i : Nat) else 0

/-- The prize of the participant with index `i` can be computed. -/
def PrizeFits (total : Int) (topN i : Nat) : Prop :=
  topN = 1 ∨ topN * (topN + 1) < 2 ^ 32 ∧ InI128 (total * (topN - i : Nat))

/-- All prizes can be computed. -/
def PrizesFit (total : Int) (topN : Nat) : Prop :=
  topN = 1 ∨ topN * (topN + 1) < 2 ^ 32 ∧ total * topN ≤ i128Max

instance (total : Int) (topN : Nat) : Decidable (PrizesFit total topN) :=
  inferInstanceAs (Decidable (_ ∨ _ ∧ _))

/-- The prize of the first is the largest, so the others can be computed when it can. -/
theorem prizes_fit_iff (htotal : 0 < total) (htop : 0 < topN) :
    PrizesFit total topN ↔ ∀ i < topN, PrizeFits total topN i := by
  unfold PrizesFit PrizeFits
  constructor
  · rintro (hone | ⟨hshares, hprize⟩) i hi
    · exact .inl hone
    · refine .inr ⟨hshares, ?_⟩
      have hle : total * (topN - i : Nat) ≤ total * topN :=
        mul_le_mul_of_nonneg_left (by omega) htotal.le
      exact ⟨(show i128Min ≤ 0 by decide).trans (mul_nonneg htotal.le (by omega)), hle.trans hprize⟩
  · intro h
    obtain hone | ⟨hshares, hprize⟩ := h 0 htop
    · exact .inl hone
    · exact .inr ⟨hshares, hprize.2⟩

theorem run_prizeOf_bind {i : Nat} (htotal : 0 < total) (hi : i < topN) (k : Int → Contest T β) :
    run (prizeOf total topN i >>= k) env f = .ok (b, f') ↔
      PrizeFits total topN i ∧ run (k (prizeAt total topN i)) env f = .ok (b, f') := by
  unfold prizeOf PrizeFits prizeAt
  split
  · next hone =>
    subst hone
    obtain rfl : i = 0 := by omega
    simp [totalShares, proRata]
  · next hmany =>
    have hnext : topN * (topN + 1) < 2 ^ 32 → topN + 1 < 2 ^ 32 := fun h =>
      (Nat.le_mul_of_pos_left _ (by omega)).trans_lt h
    have hdiv : (total * (topN - i : Nat)).tdiv (topN * (topN + 1) / 2 : Nat) =
        proRata total (totalShares topN) (topN - i : Nat) := by
      rw [tdiv_eq_div (mul_nonneg htotal.le (by omega)), proRata, mul_comm, totalShares]
    simp only [Contract.bind_assoc, run_steps, hdiv, hmany, false_or]
    grind

/-- The standing of the participant with an index. -/
def standingAt (total : Int) (topN : Nat) (p : (Address × Int) × Nat) : TournamentStanding :=
  ⟨p.1.1, p.1.2, p.2 + 1, prizeAt total topN p.2⟩

/-- The standings of ranked participants, the first of which has the index `i`. -/
def standingsAt (total : Int) (topN i : Nat) (ranked : List (Address × Int)) :
    List TournamentStanding :=
  (ranked.zipIdx i).map (standingAt total topN)

/-- The standings are computed exactly when the prizes are, by induction on the participants. -/
theorem run_standingsFrom_bind {i : Nat} {ranked : List (Address × Int)} (htotal : 0 < total)
    (hlength : i + ranked.length < 2 ^ 32) (k : List TournamentStanding → Contest T β) :
    run (standingsFrom total topN i ranked >>= k) env f = .ok (b, f') ↔
      (∀ j, i ≤ j → j < i + ranked.length → j < topN → PrizeFits total topN j) ∧
        run (k (standingsAt total topN i ranked)) env f = .ok (b, f') := by
  induction ranked generalizing i k with
  | nil =>
    rw [standingsFrom, run_pure_bind]
    exact (and_iff_right fun j _ _ _ => by simp only [List.length_nil] at *; omega).symm
  | cons p rest ih =>
    rw [List.length_cons] at hlength
    have hrank : i + 1 < 2 ^ 32 := by omega
    have hfirst : (∀ j, i ≤ j → j < i + (rest.length + 1) → j < topN → PrizeFits total topN j) ↔
        (i < topN → PrizeFits total topN i) ∧
          ∀ j, i + 1 ≤ j → j < i + 1 + rest.length → j < topN → PrizeFits total topN j := by
      constructor
      · intro h
        exact ⟨h i le_rfl (by omega), fun j hi hj => h j (by omega) (by omega)⟩
      · rintro ⟨hi, hrest⟩ j hle hj
        obtain rfl | hlt := hle.eq_or_lt
        · exact hi
        · exact hrest j hlt (by omega)
    rw [List.length_cons, hfirst]
    simp only [standingsFrom]
    split
    · next hi =>
      simp only [Contract.bind_assoc, run_prizeOf_bind htotal hi, run_steps, hrank,
        ih (i := i + 1) (by omega), true_and, hi, forall_const, and_assoc]
      rfl
    · next hi =>
      simp only [Contract.bind_assoc, run_steps, hrank, ih (i := i + 1) (by omega), true_and,
        hi, false_imp_iff]
      simp only [standingsAt, List.zipIdx_cons, List.map_cons, standingAt, prizeAt, if_neg hi]

end Prizes

section Finalisation

/-- The participants in the order of their scores. -/
def ranking (weights : ScoringWeights) (entries : Map Address MarketEntry) :
    List (Address × Int) :=
  exchangeSort RanksBefore (scoredOf weights entries (sortedKeys entries))

/-- How many participants get a prize. -/
def prizePlaces (t : Tournament) (entries : Map Address MarketEntry) : Nat :=
  min t.topN.toNat (ranking t.scoringWeights entries).length

/-- The standings that a finalisation stores. -/
def finalStandings (t : Tournament) (entries : Map Address MarketEntry) :
    List TournamentStanding :=
  standingsAt t.prizePool (prizePlaces t entries) 0 (ranking t.scoringWeights entries)

variable {id : Nat} {t : Tournament} {entries : Map Address MarketEntry}

theorem sorted_keys_perm (entries : Map Address MarketEntry) :
    (sortedKeys entries).Perm entries.keys :=
  List.perm_insertionSort _ _

theorem ranking_perm (weights : ScoringWeights) (entries : Map Address MarketEntry) :
    (ranking weights entries).Perm (scoredOf weights entries entries.keys) :=
  (exchangeSort_perm _).trans ((sorted_keys_perm entries).map _)

theorem ranking_length (weights : ScoringWeights) (entries : Map Address MarketEntry) :
    (ranking weights entries).length = entries.keys.length :=
  (ranking_perm weights entries).length_eq.trans (List.length_map _)

theorem mem_sorted_keys (entries : Map Address MarketEntry) (p : Address) :
    p ∈ sortedKeys entries ↔ p ∈ entries := by
  rw [(sorted_keys_perm entries).mem_iff, AList.mem_keys]

theorem prize_places_eq (t : Tournament) (entries : Map Address MarketEntry) :
    prizePlaces t entries = min t.topN.toNat entries.keys.length := by
  rw [prizePlaces, ranking_length]

/-- What a finalisation leaves in the storage. -/
def Storage.finalize (s : Storage) (id : Nat) (t : Tournament)
    (entries : Map Address MarketEntry) : Storage :=
  ((s.setScores id (scoredOf t.scoringWeights entries (sortedKeys entries))).setStandings id
    (finalStandings t entries)).setTournament { t with status := .finalized }

/-- A finalisation that succeeds. -/
structure Finalizes (env : Env) (s : Storage) (id : Nat) (t : Tournament)
    (entries : Map Address MarketEntry) (winner : Address × Int) : Prop where
  admin : ∃ admin, s.admin = some admin ∧ admin ∈ env.auths
  stored : s.tournament id = some t
  active : t.status = .active
  ended : t.endTs ≤ env.timestamp
  entered : s.marketEntries id = some entries
  winner : (ranking t.scoringWeights entries).head? = some winner
  prizes : PrizesFit t.prizePool (prizePlaces t entries)

variable {winner : Address × Int}

theorem places_fit_iff (hpool : 0 < t.prizePool) (htop : 0 < t.topN.toNat)
    (hwinner : (ranking t.scoringWeights entries).head? = some winner) :
    (∀ j, 0 ≤ j → j < 0 + (ranking t.scoringWeights entries).length →
        j < prizePlaces t entries → PrizeFits t.prizePool (prizePlaces t entries) j) ↔
      PrizesFit t.prizePool (prizePlaces t entries) := by
  have hlength : 0 < (ranking t.scoringWeights entries).length := by
    refine List.length_pos_iff.mpr fun hnil => ?_
    rw [hnil] at hwinner
    cases hwinner
  have hle : prizePlaces t entries ≤ (ranking t.scoringWeights entries).length :=
    Nat.min_le_right ..
  have hplaces : 0 < prizePlaces t entries := Nat.lt_min.mpr ⟨htop, hlength⟩
  rw [prizes_fit_iff hpool hplaces]
  constructor
  · intro h j hj
    exact h j j.zero_le (by omega) hj
  · intro h j _ _ hj
    exact h j hj

/-- A finalisation succeeds when somebody has entered and the prizes can be computed. -/
theorem run_finalizeTournament
    (hstored : ∀ t, f.store.tournament id = some t → 0 < t.prizePool ∧ 0 < t.topN.toNat)
    (hentered : ∀ entries, f.store.marketEntries id = some entries →
      entries.keys.length < 2 ^ 32) :
    run (finalizeTournament id) env f = .ok ((), f') ↔
      ∃ t entries winner, Finalizes env f.store id t entries winner ∧
        f' = ⟨f.store.finalize id t entries, f.tokens, .event (.tournamentFinalized id winner.1
            (((finalStandings t entries).head?.map (·.prize)).getD 0) entries.keys.length) ::
            f.effects⟩ := by
  simp only [finalizeTournament, run_steps]
  constructor
  · rintro ⟨admin, hadmin, hauth, t, ht, hactive, hended, entries, hentries, h⟩
    obtain ⟨hpool, htop⟩ := hstored t ht
    have hlength := (ranking_length t.scoringWeights entries).trans_lt (hentered entries hentries)
    rw [run_scoreEach_bind ht hentries fun p => (mem_sorted_keys entries p).mp, ← ranking,
      run_unwrap_bind] at h
    obtain ⟨winner, hwinner, h⟩ := h
    rw [← prizePlaces, run_standingsFrom_bind hpool (by omega),
      places_fit_iff hpool htop hwinner] at h
    obtain ⟨hprizes, h⟩ := h
    simp only [run_steps] at h
    refine ⟨t, entries, winner, ⟨⟨admin, hadmin, hauth⟩, ht, ?_, not_lt.mp hended, hentries,
      hwinner, hprizes⟩, ?_⟩
    · cases hstatus : t.status with
      | active => rfl
      | finalized => exact absurd hstatus hactive
    · rw [h, (sorted_keys_perm entries).length_eq]
      rfl
  · rintro ⟨t, entries, winner, ⟨⟨admin, hadmin, hauth⟩, ht, hactive, hended, hentries, hwinner,
      hprizes⟩, rfl⟩
    obtain ⟨hpool, htop⟩ := hstored t ht
    have hlength := (ranking_length t.scoringWeights entries).trans_lt (hentered entries hentries)
    refine ⟨admin, hadmin, hauth, t, ht, by simp [hactive], not_lt.mpr hended, entries, hentries,
      ?_⟩
    rw [run_scoreEach_bind ht hentries fun p => (mem_sorted_keys entries p).mp, ← ranking,
      run_unwrap_bind]
    refine ⟨winner, hwinner, ?_⟩
    rw [← prizePlaces, run_standingsFrom_bind hpool (by omega), places_fit_iff hpool htop hwinner]
    refine ⟨hprizes, ?_⟩
    simp only [run_steps]
    rw [(sorted_keys_perm entries).length_eq]
    rfl

end Finalisation

end Backit.Tournaments
