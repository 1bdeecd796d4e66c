import Backit.Tournaments.Transitions

/-!
# The standings of a finalised tournament

The ranking is total, since no two participants have the same address, and the prizes are the shares
of the pool in proportion to the places from the last prize up. A finalisation fails without
participants, and when a product that the prizes are computed from overflows.
-/

namespace Backit.Tournaments

open Soroban Contract Lib

/-- The standings that a tournament should have. -/
structure FairStandings (t : Tournament) (entries : Map Address MarketEntry)
    (standings : List TournamentStanding) : Prop where
  participants : (standings.map (·.participant)).Perm entries.keys
  scores : ∀ s ∈ standings, ∃ entry, entries.lookup s.participant = some entry ∧
    s.score = entry.points t.scoringWeights
  sorted : standings.Pairwise fun a b =>
    b.score < a.score ∨ a.score = b.score ∧ a.participant.id < b.participant.id
  ranks : standings.map (·.rank) = List.range' 1 standings.length
  nonneg : ∀ s ∈ standings, 0 ≤ s.prize
  decreasing : standings.Pairwise fun a b => b.prize ≤ a.prize
  beyond : ∀ s ∈ standings, t.topN.toNat < s.rank → s.prize = 0
  within : (standings.map (·.prize)).sum ≤ t.prizePool
  dust : standings ≠ [] → t.prizePool - (standings.map (·.prize)).sum < t.topN.toNat

section Shares

theorem sum_places (k : Nat) :
    2 * ((List.range k).map fun i => ((k - i : Nat) : Int)).sum = (k * (k + 1) : Nat) := by
  induction k with
  | zero => rfl
  | succ k ih =>
    have hrest : ((List.range k).map Nat.succ).map (fun i => ((k + 1 - i : Nat) : Int)) =
        (List.range k).map fun i => ((k - i : Nat) : Int) := by
      simp
    rw [List.range_succ_eq_map, List.map_cons, List.sum_cons, hrest, mul_add, ih]
    push_cast
    ring

theorem sum_places_eq (k : Nat) :
    ((List.range k).map fun i => ((k - i : Nat) : Int)).sum = totalShares k := by
  have := sum_places k
  unfold totalShares
  omega

variable {total : Int} {topN : Nat}

theorem total_shares_pos (h : 0 < topN) : 0 < totalShares topN := by
  have : 2 * 1 ≤ topN * (topN + 1) := by nlinarith
  unfold totalShares
  omega

theorem prize_at_nonneg (htotal : 0 ≤ total) (i : Nat) : 0 ≤ prizeAt total topN i := by
  unfold prizeAt
  split
  · next hi =>
    have hshares := total_shares_pos (Nat.zero_lt_of_lt hi)
    exact proRata_nonneg htotal (by omega) (by omega)
  · exact le_rfl

theorem prize_at_antitone (htotal : 0 ≤ total) {i j : Nat} (h : i ≤ j) :
    prizeAt total topN j ≤ prizeAt total topN i := by
  by_cases hj : j < topN
  · have hshares := total_shares_pos (Nat.zero_lt_of_lt hj)
    rw [prizeAt, prizeAt, if_pos hj, if_pos (h.trans_lt hj)]
    refine Int.ediv_le_ediv (by omega) (mul_le_mul_of_nonneg_right ?_ htotal)
    omega
  · rw [prizeAt, if_neg hj]
    exact prize_at_nonneg htotal i

theorem sum_prizes (n : Nat) (h : topN ≤ n) : ((List.range n).map (prizeAt total topN)).sum =
      (((List.range topN).map fun i => ((topN - i : Nat) : Int)).map
        (proRata total (totalShares topN))).sum := by
  obtain ⟨more, rfl⟩ := Nat.exists_eq_add_of_le h
  have hfirst : (List.range topN).map (prizeAt total topN) =
      ((List.range topN).map fun i => ((topN - i : Nat) : Int)).map
        (proRata total (totalShares topN)) := by
    rw [List.map_map]
    refine List.map_congr_left fun i hi => ?_
    rw [prizeAt, if_pos (List.mem_range.mp hi)]
    rfl
  have hrest : ((List.range more).map (topN + ·)).map (prizeAt total topN) =
      List.replicate more 0 := by
    refine List.eq_replicate_iff.mpr ⟨by simp, fun x hx => ?_⟩
    simp only [List.map_map, List.mem_map, Function.comp_apply] at hx
    obtain ⟨i, -, rfl⟩ := hx
    rw [prizeAt, if_neg (by omega)]
  rw [List.range_add, List.map_append, List.sum_append, hfirst, hrest]
  simp

theorem sum_prizes_le (htotal : 0 ≤ total) {n : Nat} (h : topN ≤ n) :
    ((List.range n).map (prizeAt total topN)).sum ≤ total := by
  rw [sum_prizes n h]
  obtain rfl | htop := topN.eq_zero_or_pos
  · simpa using htotal
  · have hshares := total_shares_pos htop
    exact sum_proRata_le htotal (by omega) _ (sum_places_eq topN).le

theorem sub_sum_prizes_lt (total : Int) (htop : 0 < topN) {n : Nat} (h : topN ≤ n) :
    total - ((List.range n).map (prizeAt total topN)).sum < topN := by
  have hshares := total_shares_pos htop
  have hne : (List.range topN).map (fun i => ((topN - i : Nat) : Int)) ≠ [] := by
    simp only [ne_eq, List.map_eq_nil_iff, List.range_eq_nil]
    omega
  have hdust : total - (((List.range topN).map fun i => ((topN - i : Nat) : Int)).map
        (proRata total (totalShares topN))).sum <
      ((List.range topN).map fun i => ((topN - i : Nat) : Int)).length :=
    pot_sub_sum_proRata_lt (by omega) _ hne (sum_places_eq topN)
  rw [sum_prizes n h]
  simpa using hdust

end Shares

section Ranking

theorem ranks_before_asymm (a b : Address × Int) (h : RanksBefore a b) : ¬ RanksBefore b a := by
  unfold RanksBefore at *
  omega

theorem not_ranks_before_trans (a b c : Address × Int) (hab : ¬ RanksBefore b a)
    (hbc : ¬ RanksBefore c b) : ¬ RanksBefore c a := by
  unfold RanksBefore at *
  omega

variable (weights : ScoringWeights) (entries : Map Address MarketEntry)

theorem ranking_participants : ((ranking weights entries).map Prod.fst).Perm entries.keys := by
  have h := (ranking_perm weights entries).map Prod.fst
  rwa [scoredOf, List.map_map, show Prod.fst ∘ (fun p => (p, scoreOf weights entries p)) = id
    from rfl, List.map_id] at h

/-- Of two participants the first has more points, or as many and the smaller address. -/
theorem ranking_sorted : (ranking weights entries).Pairwise fun a b =>
      b.2 < a.2 ∨ a.2 = b.2 ∧ a.1.id < b.1.id := by
  have hsorted : (ranking weights entries).Pairwise fun a b => ¬ RanksBefore b a :=
    exchangeSort_pairwise ranks_before_asymm not_ranks_before_trans _
  have hnodup : ((ranking weights entries).map Prod.fst).Nodup :=
    (ranking_participants weights entries).nodup_iff.mpr entries.nodupKeys
  refine (hsorted.and (List.pairwise_map.mp hnodup)).imp fun {a b} h => ?_
  obtain ⟨hbefore, hne⟩ := h
  have hid : a.1.id ≠ b.1.id := fun heq => hne (congrArg Address.mk heq)
  unfold RanksBefore at hbefore
  omega

theorem ranking_score {p : Address × Int} (h : p ∈ ranking weights entries) :
    ∃ entry, entries.lookup p.1 = some entry ∧ p.2 = entry.points weights := by
  obtain ⟨who, hwho, rfl⟩ := List.mem_map.mp ((ranking_perm weights entries).mem_iff.mp h)
  obtain ⟨entry, hentry⟩ := Option.isSome_iff_exists.mp
    (AList.lookup_isSome.mpr (AList.mem_keys.mpr hwho))
  exact ⟨entry, hentry, score_of_lookup hentry⟩

end Ranking

section Standings

variable {t : Tournament} {entries : Map Address MarketEntry}

theorem standings_indices (total : Int) (topN : Nat) (ranked : List (Address × Int))
    {α : Type} (g : Nat → α) (column : TournamentStanding → α)
    (h : ∀ p, column (standingAt total topN p) = g p.2) :
    (standingsAt total topN 0 ranked).map column = (List.range ranked.length).map g := by
  rw [standingsAt, List.map_map, show column ∘ standingAt total topN = g ∘ Prod.snd from funext h,
    ← List.map_map, List.zipIdx_map_snd, List.range_eq_range']

theorem standings_ranked (total : Int) (topN : Nat) (ranked : List (Address × Int)) :
    (standingsAt total topN 0 ranked).map (fun s => (s.participant, s.score)) = ranked := by
  rw [standingsAt, List.map_map]
  exact List.zipIdx_map_fst 0 ranked

theorem final_standings_fair (hpool : 0 < t.prizePool) (htop : 0 < t.topN.toNat) :
    FairStandings t entries (finalStandings t entries) := by
  have hranked := standings_ranked t.prizePool (prizePlaces t entries)
    (ranking t.scoringWeights entries)
  have hprizes := standings_indices t.prizePool (prizePlaces t entries)
    (ranking t.scoringWeights entries) (prizeAt t.prizePool (prizePlaces t entries)) (·.prize)
    fun _ => rfl
  have hranks := standings_indices t.prizePool (prizePlaces t entries)
    (ranking t.scoringWeights entries) (· + 1) (·.rank) fun _ => rfl
  have hlength := ranking_length t.scoringWeights entries
  have hall : ∀ s ∈ finalStandings t entries, (s.participant, s.score) ∈
      ranking t.scoringWeights entries := fun s hs => hranked ▸ List.mem_map_of_mem hs
  have hmem : ∀ s ∈ finalStandings t entries, ∃ i, s.rank = i + 1 ∧
      s.prize = prizeAt t.prizePool (prizePlaces t entries) i := by
    intro s hs
    obtain ⟨p, -, rfl⟩ := List.mem_map.mp hs
    exact ⟨p.2, rfl, rfl⟩
  have hplaces : prizePlaces t entries ≤ (ranking t.scoringWeights entries).length :=
    Nat.min_le_right ..
  change (finalStandings t entries).map _ = _ at hranked hprizes hranks
  constructor
  · have h := ranking_participants t.scoringWeights entries
    rwa [← hranked, List.map_map] at h
  · intro s hs
    exact ranking_score _ _ (hall s hs)
  · have h := ranking_sorted t.scoringWeights entries
    rw [← hranked] at h
    exact List.pairwise_map.mp h
  · rw [hranks, final_standings_length, ← hlength, List.range'_eq_map_range]
    exact List.map_congr_left fun i _ => Nat.add_comm i 1
  · intro s hs
    obtain ⟨i, -, hprize⟩ := hmem s hs
    rw [hprize]
    exact prize_at_nonneg hpool.le i
  · have h : ((List.range (ranking t.scoringWeights entries).length).map
        (prizeAt t.prizePool (prizePlaces t entries))).Pairwise fun a b => b ≤ a :=
      List.pairwise_map.mpr
        (List.pairwise_lt_range.imp fun hlt => prize_at_antitone hpool.le hlt.le)
    rw [← hprizes] at h
    exact List.pairwise_map.mp h
  · intro s hs hrank
    obtain ⟨i, hi, hprize⟩ := hmem s hs
    have hlast : prizePlaces t entries ≤ i := (Nat.min_le_left ..).trans (by omega)
    rw [hprize, prizeAt, if_neg (by omega)]
  · rw [hprizes]
    exact sum_prizes_le hpool.le hplaces
  · intro hne
    have hlast : 0 < (ranking t.scoringWeights entries).length := by
      rw [hlength, ← final_standings_length t]
      exact List.length_pos_iff.mpr hne
    have hplaced : 0 < prizePlaces t entries := Nat.lt_min.mpr ⟨htop, hlast⟩
    have hdust := sub_sum_prizes_lt t.prizePool hplaced hplaces
    have hle : prizePlaces t entries ≤ t.topN.toNat := Nat.min_le_left ..
    rw [hprizes]
    omega

end Standings

section Run

variable {T : Type} [Tokens T] {self : Address} {outside : T → T → Prop}
  {history : List (Happening TournamentOp Event)} {d : Deployment Storage T}

/-- A finalisation that stores fair standings of its tournament. -/
def FinalizesFairly (env : Env) (d : Deployment Storage T) (id : Nat) (t : Tournament)
    (entries : Map Address MarketEntry) : Prop :=
  ∃ f : Frame Storage T Event, run (finalizeTournament id) env d.frame = .ok ((), f) ∧
    f.store.tournament id = some { t with status := .finalized } ∧
    ∃ standings, f.store.tournamentStandings id = some standings ∧
      FairStandings t entries standings

/-- An active tournament past its end is finalised fairly exactly when somebody has entered it and
the products that its prizes are computed from fit: of the number of places with its successor in a
`u32`, and of the pool with the number of places in an `i128`. -/
theorem finalizes_fairly_iff (hrun : (tournaments self outside).Run history d) (env : Env)
    {id : Nat} {t : Tournament} {admin : Address} (ht : d.store.tournament id = some t)
    (hactive : t.status = .active) (hended : t.endTs ≤ env.timestamp)
    (hadmin : d.store.admin = some admin) (hauth : admin ∈ env.auths) :
    ∃ entries, d.store.marketEntries id = some entries ∧
      (FinalizesFairly env d id t entries ↔ 0 < entries.keys.length ∧
        PrizesFit t.prizePool (min t.topN.toNat entries.keys.length)) := by
  have hstored := stored_of_run hrun
  obtain ⟨hid, hpool, htop⟩ := hstored.tournament id t ht
  obtain ⟨entries, hentries⟩ := Option.ne_none_iff_exists'.mp (hstored.entered id t ht)
  have hchecks := fun u hu => (hstored.tournament id u hu).2
  refine ⟨entries, hentries, ?_⟩
  rw [← prize_places_eq]
  constructor
  · rintro ⟨f, hf, -, -⟩
    obtain ⟨u, found, winner, hfinalizes, -⟩ :=
      (run_finalizeTournament hchecks (hstored.entries id)).mp hf
    obtain rfl := Option.some.inj (ht.symm.trans hfinalizes.stored)
    obtain rfl := Option.some.inj (hentries.symm.trans hfinalizes.entered)
    refine ⟨?_, hfinalizes.prizes⟩
    rw [← ranking_length t.scoringWeights]
    exact List.length_pos_iff.mpr (List.ne_nil_of_mem (List.mem_of_head? hfinalizes.winner))
  · rintro ⟨hlength, hprizes⟩
    rw [← ranking_length t.scoringWeights] at hlength
    obtain ⟨winner, hwinner⟩ := Option.isSome_iff_exists.mp (List.isSome_head?.mpr
      (List.length_pos_iff.mp hlength))
    refine ⟨_, (run_finalizeTournament hchecks (hstored.entries id)).mpr ⟨t, entries, winner,
      ⟨⟨admin, hadmin, hauth⟩, ht, hactive, hended, hentries, hwinner, hprizes⟩, rfl⟩, ?_,
      finalStandings t entries, ?_, final_standings_fair hpool htop⟩
    · simp [hid]
    · simp

end Run

/-- A tournament for three prizes opens at 10 and ends at 20. -/
def opening : List (Env × TournamentOp) :=
  [at_ 1 [] (.initializeTournaments admin factory),
    at_ 2 [admin] (.createTournament admin "cup" 10 20 1007 ⟨5000, 3000, 2000⟩ 3)]

/-- The tournament that the opening creates. -/
def openedCup : Tournament := createdTournament 1 "cup" 10 20 1007 ⟨5000, 3000, 2000⟩ 3 2

/-- Alice and Bob enter, and Bob's market does better. -/
def contestedCup : Cup :=
  .of (deployed fun _ => .empty) penniless_initial (opening ++
    [at_ 11 [factory] (.enterMarket 1 alice 7), at_ 12 [factory] (.enterMarket 1 bob 8),
      at_ 13 [factory] (.updateMarketStats 1 bob 90000000 12 3 4)]) (by decide +kernel)

/-- Nobody enters. -/
def emptyCup : Cup := .of (deployed fun _ => .empty) penniless_initial opening (by decide +kernel)

/-- When the tournament is over the admin finalises it. -/
def closing : Env := (at_ 21 [admin] (.finalizeTournament 1)).1

theorem contested_cup_finalizes :
    ∃ entries, contestedCup.state.store.marketEntries 1 = some entries ∧
      FinalizesFairly closing contestedCup.state 1 openedCup entries := by
  have hstored : contestedCup.state.store.tournament 1 = some openedCup := by decide +kernel
  have hadmin : contestedCup.state.store.admin = some admin := by decide +kernel
  have hkeys : (contestedCup.state.store.marketEntries 1).map (·.keys.length) = some 2 := by
    decide +kernel
  obtain ⟨entries, hentries, hiff⟩ := finalizes_fairly_iff
    (contestedCup.run Deployment.next_step System.anything_allowed) closing hstored rfl
    (by decide) hadmin (by decide)
  rw [hentries, Option.map_some, Option.some.injEq] at hkeys
  refine ⟨entries, hentries, hiff.mpr ?_⟩
  rw [hkeys]
  decide

/-- Nobody can be declared the winner of a tournament without participants. -/
theorem empty_cup_panics : closed.Run emptyCup.history emptyCup.state ∧
      emptyCup.state.store.tournament 1 = some openedCup ∧ openedCup.status = .active ∧
      openedCup.endTs ≤ closing.timestamp ∧ emptyCup.state.store.admin = some admin ∧
      admin ∈ closing.auths ∧
      ∀ entries, ¬ FinalizesFairly closing emptyCup.state 1 openedCup entries := by
  have hstored : emptyCup.state.store.tournament 1 = some openedCup := by decide +kernel
  have hadmin : emptyCup.state.store.admin = some admin := by decide +kernel
  have hpanics : (run (finalizeTournament 1) closing emptyCup.state.frame).toOption.isNone =
      true := by decide +kernel
  refine ⟨emptyCup.run Deployment.next_step System.anything_allowed, hstored, rfl, by decide,
    hadmin, by decide, ?_⟩
  rintro entries ⟨f, hf, -⟩
  rw [hf] at hpanics
  cases hpanics

/-!
## Pages of standings

The index of the first standing of a page is computed in a `u32`. The pages up to the first one
that is empty are the standings in order, but far behind the end the pages begin again.
-/

/-- What the page with a number contains. -/
def pageOf (standings : List TournamentStanding) (page : UInt32) : List TournamentStanding :=
  let start := (page * 10).toNat
  let stop := (start + 10) % 2 ^ 32
  (standings.drop start).take (min stop standings.length - start)

/-- What the page with a number should contain. -/
def pageSlice (standings : List TournamentStanding) (page : Nat) : List TournamentStanding :=
  (standings.drop (10 * page)).take 10

section Slices

variable {standings : List TournamentStanding}

theorem take_drop_min (start : Nat) :
    (standings.drop start).take (min (start + 10) standings.length - start) =
      (standings.drop start).take 10 := by
  rw [List.take_eq_take_iff, List.length_drop]
  omega

/-- The page begins at its index modulo `2 ^ 32`, and is empty when its end wraps around. -/
theorem page_of_eq (page : UInt32) : pageOf standings page =
      if 10 * page.toNat % 2 ^ 32 + 10 < 2 ^ 32 then
        (standings.drop (10 * page.toNat % 2 ^ 32)).take 10
      else [] := by
  have hstart : (page * 10).toNat = 10 * page.toNat % 2 ^ 32 := by
    rw [UInt32.toNat_mul, mul_comm]
    rfl
  simp only [pageOf, hstart]
  split
  · next h => rw [Nat.mod_eq_of_lt h, take_drop_min]
  · next h =>
    have hstop : min ((10 * page.toNat % 2 ^ 32 + 10) % 2 ^ 32) standings.length -
        10 * page.toNat % 2 ^ 32 = 0 := by omega
    rw [hstop, List.take_zero]

/-- When a page is as it should be. -/
def PageFits (length page : Nat) : Prop :=
  10 * page + 10 < 2 ^ 32 ∨ length ≤ 10 * page % 2 ^ 32 ∨
    2 ^ 32 ≤ 10 * page ∧ 2 ^ 32 ≤ 10 * page % 2 ^ 32 + 10

instance (length page : Nat) : Decidable (PageFits length page) :=
  inferInstanceAs (Decidable (_ ∨ _ ∨ _ ∧ _))

theorem page_of_eq_slice_iff (hlength : standings.length < 2 ^ 32) (page : UInt32) :
    pageOf standings page = pageSlice standings page.toNat ↔
      PageFits standings.length page.toNat := by
  have hpage := page.toNat_lt
  have hempty : ∀ start, (standings.drop start).take 10 = [] ↔ standings.length ≤ start := by simp
  rw [page_of_eq, pageSlice, PageFits]
  rcases Nat.lt_or_ge (10 * page.toNat) (2 ^ 32) with hsmall | hlarge
  · rw [Nat.mod_eq_of_lt hsmall]
    split
    · next h => exact iff_of_true rfl (.inl h)
    · next h =>
      rw [eq_comm, hempty]
      omega
  · have hbehind : (standings.drop (10 * page.toNat)).take 10 = [] :=
      (hempty _).mpr (by omega)
    rw [hbehind]
    split
    · next h =>
      rw [hempty]
      omega
    · next h => exact iff_of_true rfl (.inr (.inr ⟨hlarge, not_lt.mp h⟩))

theorem flatten_slices (n : Nat) :
    ((List.range n).map (pageSlice standings)).flatten = standings.take (10 * n) := by
  induction n with
  | zero => rfl
  | succ n ih =>
    rw [List.range_succ, List.map_append, List.flatten_append, ih, mul_add, mul_one, List.take_add]
    simp [pageSlice]

/-- The pages up to the first empty one are the standings, unless there are almost `2 ^ 32` of
them. -/
theorem pages_flatten (hlength : standings.length + 6 ≤ 2 ^ 32) :
    ∃ n < 2 ^ 32, pageOf standings (.ofNat n) = [] ∧
      (∀ p < n, pageOf standings (.ofNat p) ≠ []) ∧
      ((List.range n).map fun p => pageOf standings (.ofNat p)).flatten = standings := by
  have hnat : ∀ p, p < 2 ^ 32 → (UInt32.ofNat p).toNat = p := fun p hp =>
    UInt32.toNat_ofNat_of_lt' hp
  have hslice : ∀ p < (standings.length + 9) / 10,
      pageOf standings (.ofNat p) = pageSlice standings p := by
    intro p hp
    have hfits : PageFits standings.length (UInt32.ofNat p).toNat := by
      rw [hnat p (by omega)]
      exact .inl (by omega)
    have h := (page_of_eq_slice_iff (by omega) (.ofNat p)).mpr hfits
    rwa [hnat p (by omega)] at h
  refine ⟨(standings.length + 9) / 10, by omega, ?_, ?_, ?_⟩
  · rw [page_of_eq, hnat _ (by omega)]
    split
    · rw [List.take_eq_nil_iff, List.drop_eq_nil_iff]
      omega
    · rfl
  · intro p hp hnil
    rw [hslice p hp, pageSlice, List.take_eq_nil_iff, List.drop_eq_nil_iff] at hnil
    omega
  · rw [List.map_congr_left fun p hp => hslice p (List.mem_range.mp hp), flatten_slices]
    exact List.take_of_length_le (by omega)

end Slices

section Run

variable {T : Type} [Tokens T] {self : Address} {outside : T → T → Prop}
  {history : List (Happening TournamentOp Event)} {d : Deployment Storage T}

omit [Tokens T] in
theorem run_getTournamentStandings {env : Env} {f : Frame Storage T Event} {id : Nat}
    {standings : List TournamentStanding}
    (h : f.store.tournamentStandings id = some standings) (page : UInt32) :
    run (getTournamentStandings id page) env f = .ok (pageOf standings page, f) := by
  simp only [getTournamentStandings, run_getStore_bind]
  rw [h, run_unwrap_some, run_pure]
  rfl

/-- No page of a finalised tournament traps, a page has the standings it should have exactly under
the named condition, and the pages up to the first empty one are all standings in order. -/
theorem standings_pages (hrun : (tournaments self outside).Run history d) {id : Nat}
    {t : Tournament} (ht : d.store.tournament id = some t) (hfinal : t.status = .finalized) :
    ∃ standings, d.store.tournamentStandings id = some standings ∧
      (∀ env page, run (getTournamentStandings id page : Contest T _) env d.frame =
        .ok (pageOf standings page, d.frame)) ∧
      (∀ page, pageOf standings page = pageSlice standings page.toNat ↔
        PageFits standings.length page.toNat) ∧
      (standings.length + 6 ≤ 2 ^ 32 → ∃ n < 2 ^ 32, pageOf standings (.ofNat n) = [] ∧
        (∀ p < n, pageOf standings (.ofNat p) ≠ []) ∧
        ((List.range n).map fun p => pageOf standings (.ofNat p)).flatten = standings) := by
  have hstored := stored_of_run hrun
  obtain ⟨standings, hstandings⟩ := Option.ne_none_iff_exists'.mp (hstored.finalized id t ht hfinal)
  have hlength := hstored.standings id standings hstandings
  exact ⟨standings, hstandings, fun _ page => run_getTournamentStandings hstandings page,
    page_of_eq_slice_iff hlength, pages_flatten⟩

end Run

/-- The tournament of Alice and Bob is finalised. -/
def closedCup : Cup :=
  .of (deployed fun _ => .empty) penniless_initial (opening ++
    [at_ 11 [factory] (.enterMarket 1 alice 7), at_ 12 [factory] (.enterMarket 1 bob 8),
      at_ 21 [admin] (.finalizeTournament 1)]) (by decide +kernel)

theorem closed_cup_pages :
    ∃ standings, closedCup.state.store.tournamentStandings 1 = some standings ∧
      standings.length = 2 ∧ pageOf standings 0 = pageSlice standings 0 := by
  have hstatus : (closedCup.state.store.tournament 1).map (·.status) = some .finalized := by
    decide +kernel
  have hcount : (closedCup.state.store.tournamentStandings 1).map (·.length) = some 2 := by
    decide +kernel
  obtain ⟨t, ht, hfinal⟩ := Option.map_eq_some_iff.mp hstatus
  obtain ⟨standings, hstandings, -, hpages, -⟩ := standings_pages
    (closedCup.run Deployment.next_step System.anything_allowed) ht hfinal
  rw [hstandings, Option.map_some, Option.some.injEq] at hcount
  exact ⟨standings, hstandings, hcount, (hpages 0).mpr (.inl (by decide))⟩

/-- The page with the number `2 ^ 31`, far behind the end, is the first one again. -/
theorem first_page_repeats : closed.Run closedCup.history closedCup.state ∧
      (closedCup.state.store.tournament 1).map (·.status) = some .finalized ∧
      (run (getTournamentStandings 1 0) closing closedCup.state.frame).toOption.map
        (·.1.length) = some 2 ∧
      (run (getTournamentStandings 1 2147483648) closing closedCup.state.frame).toOption.map
          Prod.fst =
        (run (getTournamentStandings 1 0) closing closedCup.state.frame).toOption.map
          Prod.fst := by
  have hstatus : (closedCup.state.store.tournament 1).map (·.status) = some .finalized := by
    decide +kernel
  have hfirst : (run (getTournamentStandings 1 0) closing closedCup.state.frame).toOption.map
      (·.1.length) = some 2 := by decide +kernel
  have hrepeats : (run (getTournamentStandings 1 2147483648) closing
        closedCup.state.frame).toOption.map Prod.fst =
      (run (getTournamentStandings 1 0) closing closedCup.state.frame).toOption.map Prod.fst := by
    decide +kernel
  exact ⟨closedCup.run Deployment.next_step System.anything_allowed, hstatus, hfirst, hrepeats⟩

end Backit.Tournaments
