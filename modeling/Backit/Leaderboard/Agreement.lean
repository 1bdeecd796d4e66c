import Backit.Leaderboard.Boards
import Mathlib.Data.List.Pairwise

/-!
# The two computations of a board

After a board is overwritten with the scores of the rows of its period, Redis serves them by score,
and PostgreSQL by total profit. Whether they agree depends on the rows alone.
-/

namespace Backit.Leaderboard

open Lib

variable {f : Floats} {calls : List PredictionCall} {now : Int} {period : LeaderboardPeriod}

/-- The entries of a page with their ranks, and the total. -/
def RedisBoardResponse.contents (board : RedisBoardResponse) : List RedisBoardEntry × Nat :=
  (board.data, board.total)

/-- Two boards have the same entries on every page. -/
def SameEntries (served fromDb : Nat → Nat → Option RedisBoardResponse) : Prop :=
  ∀ page limit, 1 ≤ page → 1 ≤ limit → limit ≤ 100 →
    (served page limit).map (·.contents.1) = (fromDb page limit).map (·.contents.1)

/-- Two boards have the same entries and total on every page. -/
def Agree (served fromDb : Nat → Nat → Option RedisBoardResponse) : Prop :=
  ∀ page limit, 1 ≤ page → 1 ≤ limit → limit ≤ 100 →
    (served page limit).map (·.contents) = (fromDb page limit).map (·.contents)

theorem Agree.sameEntries {served fromDb : Nat → Nat → Option RedisBoardResponse}
    (h : Agree served fromDb) : SameEntries served fromDb := by
  intro page limit hpage hlimit hmax
  have hpages := congrArg (Option.map Prod.fst) (h page limit hpage hlimit hmax)
  rwa [Option.map_map, Option.map_map] at hpages

theorem parseZrevrange_injective {raw raw' : List (String × Int)} {offset : Nat}
    (h : parseZrevrange raw offset = parseZrevrange raw' offset) : raw = raw' := by
  refine List.ext_getElem? fun i => ?_
  have hi := congrArg (fun entries => entries[i]?.map fun e => (e.address, e.score)) h
  simpa [parseZrevrange, Function.comp_def] using hi

theorem eq_of_pages {α : Type*} {l l' : List α}
    (h : ∀ offset, (l.drop offset).take 1 = (l'.drop offset).take 1) : l = l' := by
  refine List.ext_getElem? fun i => ?_
  have hhead := congrArg List.head? (h i)
  simpa [List.head?_take, List.head?_drop] using hhead

/-- The rows rank by score as they do by total profit. -/
def RankedByProfit (f : Floats) (rows : List Row) : Prop :=
  ∀ row ∈ rows, ∀ row' ∈ rows, row ≠ row' → row'.totalProfitUsdc ≤ row.totalProfitUsdc →
    RanksBefore (row.entry f) (row'.entry f)

theorem entries_nodup (since : Option Int) (calls : List PredictionCall) :
    (((groupByUser since calls).map (Row.entry f)).map Prod.fst).Nodup := by
  rw [List.map_map]
  exact groupByUser_nodup since calls

theorem groupByUser_rows_nodup (since : Option Int) (calls : List PredictionCall) :
    (groupByUser since calls).Nodup :=
  .of_map _ (groupByUser_nodup since calls)

theorem bulkSet_perm (board : Board) {since : Option Int} (hrows : groupByUser since calls ≠ []) :
    (bulkSet board ((groupByUser since calls).map (Row.entry f))).entries.Perm
      ((groupByUser since calls).map (Row.entry f)) := by
  rw [bulkSet, if_neg (by simpa using hrows)]
  simpa [SortedSet.empty] using SortedSet.empty.zaddAll_perm (entries_nodup since calls)
    (by simp [SortedSet.empty])

theorem bulkSet_nil (board : Board) {since : Option Int} (hrows : groupByUser since calls = []) :
    bulkSet board ((groupByUser since calls).map (Row.entry f)) = board := by
  rw [bulkSet, if_pos (by simpa using hrows)]

/-- With rows that rank by score as by profit, every database lists them as Redis does. -/
theorem ranked_eq_arrange (db : Database) (board : Board) {since : Option Int}
    (hrows : groupByUser since calls ≠ [])
    (hranked : RankedByProfit f (groupByUser since calls)) (offset limit : Nat) :
    (bulkSet board ((groupByUser since calls).map (Row.entry f))).ranked =
      (db.arrange offset limit (groupByUser since calls)).map (Row.entry f) := by
  have hperm := db.arrange_perm offset limit (groupByUser since calls)
  refine SortedSet.ranked_eq ((hperm.map _).trans (bulkSet_perm board hrows).symm) ?_
  rw [List.pairwise_map]
  refine ((db.arrange_sorted offset limit _).and
    (hperm.nodup_iff.mpr (groupByUser_rows_nodup since calls))).imp_of_mem ?_
  rintro row row' hrow hrow' ⟨hprofit, hne⟩
  exact hranked row (hperm.mem_iff.mp hrow) row' (hperm.mem_iff.mp hrow') hne hprofit

/-- The order by total profit that puts a given row first among those of its profit. -/
def ProfitBefore (first a b : Row) : Prop :=
  b.totalProfitUsdc < a.totalProfitUsdc ∨
    a.totalProfitUsdc = b.totalProfitUsdc ∧ (b = first → a = first)

instance (first : Row) : DecidableRel (ProfitBefore first) := fun a b =>
  inferInstanceAs (Decidable (b.totalProfitUsdc < a.totalProfitUsdc ∨
    a.totalProfitUsdc = b.totalProfitUsdc ∧ (b = first → a = first)))

instance (first : Row) : Std.Total (ProfitBefore first) where
  total a b := by
    rcases lt_trichotomy a.totalProfitUsdc b.totalProfitUsdc with h | h | h
    · exact .inr (.inl h)
    · by_cases ha : a = first
      · exact .inl (.inr ⟨h, fun _ => ha⟩)
      · exact .inr (.inr ⟨h.symm, fun hfirst => absurd hfirst ha⟩)
    · exact .inl (.inl h)

instance (first : Row) : IsTrans Row (ProfitBefore first) where
  trans a b c hab hbc := by
    rcases hab with hab | ⟨hab, hfirst⟩
    · rcases hbc with hbc | ⟨hbc, -⟩
      · exact .inl (hbc.trans hab)
      · exact .inl (hbc ▸ hab)
    · rcases hbc with hbc | ⟨hbc, hfirst'⟩
      · exact .inl (hab ▸ hbc)
      · exact .inr ⟨hab.trans hbc, fun h => hfirst (hfirst' h)⟩

/-- A database that puts a given row first among those of its profit. -/
def Database.preferring (first : Row) : Database where
  arrange _ _ rows := rows.insertionSort (ProfitBefore first)
  arrange_perm _ _ rows := List.perm_insertionSort _ rows
  arrange_sorted _ _ rows :=
    (List.pairwise_insertionSort (ProfitBefore first) rows).imp fun h =>
      h.elim le_of_lt fun h => h.1.ge
  ordersByUnselected := true

/-- If every database lists the rows as they rank by score, they rank by score as by profit. -/
theorem rankedByProfit_of_arrange {rows : List Row}
    (h : ∀ first, (((Database.preferring first).arrange 0 0 rows).map (Row.entry f)).Pairwise
      RanksBefore) : RankedByProfit f rows := by
  intro row hrow row' hrow' hne hprofit
  have hperm := (Database.preferring row).arrange_perm 0 0 rows
  have hpairwise := (List.pairwise_insertionSort (ProfitBefore row) rows).and
    (List.pairwise_map.mp (h row))
  let Ordered (a b : Row) : Prop :=
    ProfitBefore row a b ∧ RanksBefore (a.entry f) (b.entry f) ∨
      ProfitBefore row b a ∧ RanksBefore (b.entry f) (a.entry f)
  have hsymm : Std.Symm Ordered := ⟨fun _ _ => Or.symm⟩
  have hall : ((Database.preferring row).arrange 0 0 rows).Pairwise Ordered := hpairwise.imp Or.inl
  have hordered : Ordered row row' :=
    hall.forall (hperm.mem_iff.mpr hrow) (hperm.mem_iff.mpr hrow') hne
  rcases hordered with ⟨-, hbefore⟩ | ⟨hafter | ⟨-, hfirst⟩, -⟩
  · exact hbefore
  · omega
  · exact absurd (hfirst rfl).symm hne

section Synced

variable {db : Database} {boards : LeaderboardPeriod → Board}

theorem zrevrange_page (board : Board) (offset : Nat) {limit : Nat} (hlimit : 1 ≤ limit) :
    board.zrevrange offset (offset + limit - 1) = (board.ranked.drop offset).take limit := by
  rw [SortedSet.zrevrange]
  congr 1
  omega

/-- A page of a list of entries, with the ranks. -/
def pageOf (entries : List (String × Int)) (page limit : Nat) : List RedisBoardEntry :=
  parseZrevrange ((entries.drop ((page - 1) * limit)).take limit) ((page - 1) * limit)

theorem getPeriodLeaderboard_of_ne (f : Floats) (db : Database) (calls : List PredictionCall)
    (now : Int) (page : Nat) {limit : Nat} (hboard : (boards period).entries ≠ [])
    (hlimit : 1 ≤ limit) :
    ∃ served, getPeriodLeaderboard f db calls now period page limit true boards = some served ∧
      served.contents = (pageOf (boards period).ranked page limit, (boards period).zcard) := by
  have htotal : 0 < (boards period).zcard := List.length_pos_iff.mpr hboard
  rw [getPeriodLeaderboard, if_pos (by simp [htotal]), getTopEntries, zrevrange_page _ _ hlimit]
  exact ⟨_, rfl, rfl⟩

theorem getPeriodLeaderboard_of_nil {page limit : Nat} (hboard : (boards period).entries = []) :
    getPeriodLeaderboard f db calls now period page limit true boards =
      getPeriodLeaderboardFromDb f db calls now period page limit := by
  have hempty : getTopEntries (boards period) ((page - 1) * limit) limit = [] := by
    simp [getTopEntries, SortedSet.zrevrange, SortedSet.ranked, hboard, parseZrevrange]
  rw [getPeriodLeaderboard, if_neg (by simp [hempty, SortedSet.zcard_eq_zero.mpr hboard])]

/-- What the database computes, if it can order by a name that a query does not select. -/
theorem getPeriodLeaderboardFromDb_of (f : Floats) (db : Database) (calls : List PredictionCall)
    (now : Int) (period : LeaderboardPeriod) (page limit : Nat)
    (hdb : db.ordersByUnselected = true) :
    ∃ fromDb, getPeriodLeaderboardFromDb f db calls now period page limit = some fromDb ∧
      fromDb.contents =
        (pageOf ((db.arrange ((page - 1) * limit) limit
            (groupByUser (getSinceForPeriod now period) calls)).map (Row.entry f)) page limit,
          min 1 (groupByUser (getSinceForPeriod now period) calls).length) := by
  rw [getPeriodLeaderboardFromDb, Database.countQuery, if_pos hdb]
  refine ⟨_, rfl, Prod.ext ?_ ?_⟩
  · refine List.ext_getElem? fun i => ?_
    simp [RedisBoardResponse.contents, pageOf, parseZrevrange, Row.entry, Function.comp_def,
      ← List.map_drop, ← List.map_take]
  · cases h : groupByUser (getSinceForPeriod now period) calls with
    | nil => simp [RedisBoardResponse.contents]
    | cons row rows => simp [RedisBoardResponse.contents]

theorem getPeriodLeaderboardFromDb_rejected (page limit : Nat)
    (hdb : db.ordersByUnselected = false) :
    getPeriodLeaderboardFromDb f db calls now period page limit = none := by
  simp [getPeriodLeaderboardFromDb, Database.countQuery, hdb]

variable {board : Board}
  (hsynced : boards period = bulkSet board
    ((groupByUser (getSinceForPeriod now period) calls).map (Row.entry f)))

include hsynced

theorem getPeriodLeaderboard_of_synced (db : Database) (page : Nat) {limit : Nat}
    (hrows : groupByUser (getSinceForPeriod now period) calls ≠ []) (hlimit : 1 ≤ limit) :
    ∃ served, getPeriodLeaderboard f db calls now period page limit true boards = some served ∧
      served.contents = (pageOf (boards period).ranked page limit,
        (groupByUser (getSinceForPeriod now period) calls).length) := by
  have hperm := bulkSet_perm (f := f) board hrows
  rw [← hsynced] at hperm
  have hlength := hperm.length_eq
  rw [List.length_map] at hlength
  have hboard : (boards period).entries ≠ [] := by
    intro hnil
    rw [hnil] at hlength
    exact hrows (List.length_eq_zero_iff.mp hlength.symm)
  obtain ⟨served, hserved, hcontents⟩ :=
    getPeriodLeaderboard_of_ne f db calls now page hboard hlimit
  exact ⟨served, hserved, by rw [hcontents, SortedSet.zcard, hlength]⟩

/-- The pages of rows that rank by score as they do by profit. -/
theorem pages_of_ranked (db : Database) (page : Nat) {limit : Nat}
    (hrows : groupByUser (getSinceForPeriod now period) calls ≠ [])
    (hranked : RankedByProfit f (groupByUser (getSinceForPeriod now period) calls))
    (hdb : db.ordersByUnselected = true) (hlimit : 1 ≤ limit) :
    ∃ served fromDb,
      getPeriodLeaderboard f db calls now period page limit true boards = some served ∧
      getPeriodLeaderboardFromDb f db calls now period page limit = some fromDb ∧
      served.data = fromDb.data ∧
      served.total = (groupByUser (getSinceForPeriod now period) calls).length ∧
      fromDb.total = min 1 (groupByUser (getSinceForPeriod now period) calls).length := by
  obtain ⟨served, hserved, hcontents⟩ := getPeriodLeaderboard_of_synced hsynced db page hrows hlimit
  obtain ⟨fromDb, hfromDb, hcomputed⟩ :=
    getPeriodLeaderboardFromDb_of f db calls now period page limit hdb
  have harranged := ranked_eq_arrange db board hrows hranked ((page - 1) * limit) limit
  rw [← hsynced] at harranged
  obtain ⟨hdata, htotal⟩ := Prod.ext_iff.mp hcontents
  obtain ⟨hrowsData, hcount⟩ := Prod.ext_iff.mp hcomputed
  have hpages := congrArg (pageOf · page limit) harranged
  exact ⟨served, fromDb, hserved, hfromDb, hdata.trans (hpages.trans hrowsData.symm), htotal,
    hcount⟩

/-- Without rows, what Redis serves agrees with the database only if the board was empty. -/
theorem entries_eq_nil_of_sameEntries (db : Database)
    (hrows : groupByUser (getSinceForPeriod now period) calls = []) (h : SameEntries
      (fun page limit => getPeriodLeaderboard f db calls now period page limit true boards)
      (getPeriodLeaderboardFromDb f db calls now period)) :
    board.entries = [] := by
  rw [bulkSet_nil board hrows] at hsynced
  rw [← hsynced]
  by_contra hboard
  have hfirst := h 1 1 le_rfl le_rfl (by omega)
  obtain ⟨served, hserved, hcontents⟩ := getPeriodLeaderboard_of_ne f db calls now 1 hboard le_rfl
  have hpage : pageOf (boards period).ranked 1 1 ≠ [] := by
    have hranked : (boards period).ranked ≠ [] := fun hnil =>
      hboard (hnil ▸ (boards period).ranked_perm).nil_eq.symm
    simp [pageOf, parseZrevrange, hranked]
  cases hdb : db.ordersByUnselected with
  | false => simp [hserved, getPeriodLeaderboardFromDb_rejected _ _ hdb] at hfirst
  | true =>
    obtain ⟨fromDb, hfromDb, hcomputed⟩ :=
      getPeriodLeaderboardFromDb_of f db calls now period 1 1 hdb
    have hnone : db.arrange ((1 - 1) * 1) 1 [] = [] := (db.arrange_perm _ _ []).eq_nil
    rw [hrows, hnone] at hcomputed
    simp only [hserved, hfromDb, Option.map_some, hcontents, hcomputed, Option.some.injEq]
      at hfirst
    exact hpage (by simpa [pageOf, parseZrevrange] using hfirst)

/-- After a board is overwritten, Redis and a database agree on it if its period has a single row
and the database answers the query for the total, or if it has none and the board was empty. -/
theorem agree_iff (db : Database) :
    Agree (fun page limit => getPeriodLeaderboard f db calls now period page limit true boards)
        (getPeriodLeaderboardFromDb f db calls now period) ↔
      (groupByUser (getSinceForPeriod now period) calls = [] → board.entries = []) ∧
        (groupByUser (getSinceForPeriod now period) calls ≠ [] →
          (groupByUser (getSinceForPeriod now period) calls).length = 1 ∧
            db.ordersByUnselected = true) := by
  constructor
  · intro h
    refine ⟨fun hrows => entries_eq_nil_of_sameEntries hsynced db hrows h.sameEntries,
      fun hrows => ?_⟩
    have hfirst := h 1 1 le_rfl le_rfl (by omega)
    obtain ⟨served, hserved, hcontents⟩ := getPeriodLeaderboard_of_synced hsynced db 1 hrows le_rfl
    cases hdb : db.ordersByUnselected with
    | false => simp [hserved, getPeriodLeaderboardFromDb_rejected _ _ hdb] at hfirst
    | true =>
      obtain ⟨fromDb, hfromDb, hcomputed⟩ :=
        getPeriodLeaderboardFromDb_of f db calls now period 1 1 hdb
      simp only [hserved, hfromDb, Option.map_some, hcontents, hcomputed, Option.some.injEq,
        Prod.mk.injEq] at hfirst
      have hpos := List.length_pos_iff.mpr hrows
      exact ⟨by omega, rfl⟩
  · rintro ⟨hnone, hsome⟩ page limit - hlimit -
    by_cases hrows : groupByUser (getSinceForPeriod now period) calls = []
    · rw [bulkSet_nil board hrows] at hsynced
      simp only [getPeriodLeaderboard_of_nil (hsynced ▸ hnone hrows)]
    · obtain ⟨hone, hdb⟩ := hsome hrows
      obtain ⟨row, hrow⟩ := List.length_eq_one_iff.mp hone
      have hranked : RankedByProfit f (groupByUser (getSinceForPeriod now period) calls) := by
        rw [hrow]
        rintro a ha b hb hne -
        rw [List.mem_singleton] at ha hb
        exact absurd (ha.trans hb.symm) hne
      obtain ⟨served, fromDb, hserved, hfromDb, hdata, htotal, hcount⟩ :=
        pages_of_ranked hsynced db page hrows hranked hdb hlimit
      simp only [hserved, hfromDb, Option.map_some, RedisBoardResponse.contents, hdata, htotal,
        hcount, hone, min_self]

/-- Redis lists the entries as every database does if the rows rank by score as they do by profit,
and the board was empty if there is no row. -/
theorem same_entries_iff : (∀ db : Database, db.ordersByUnselected = true →
        SameEntries
          (fun page limit => getPeriodLeaderboard f db calls now period page limit true boards)
          (getPeriodLeaderboardFromDb f db calls now period)) ↔
      (groupByUser (getSinceForPeriod now period) calls = [] → board.entries = []) ∧
        RankedByProfit f (groupByUser (getSinceForPeriod now period) calls) := by
  constructor
  · intro h
    refine ⟨fun hrows => entries_eq_nil_of_sameEntries hsynced (.preferring ⟨⟨0, 0, 0⟩, ""⟩) hrows
      (h _ rfl), rankedByProfit_of_arrange fun first => ?_⟩
    by_cases hrows : groupByUser (getSinceForPeriod now period) calls = []
    · rw [hrows, ((Database.preferring first).arrange_perm 0 0 []).eq_nil]
      exact .nil
    have hlists : (boards period).ranked = ((Database.preferring first).arrange 0 0
        (groupByUser (getSinceForPeriod now period) calls)).map (Row.entry f) := by
      refine eq_of_pages fun offset => ?_
      obtain ⟨served, hserved, hcontents⟩ := getPeriodLeaderboard_of_synced hsynced
        (.preferring first) (offset + 1) hrows le_rfl
      obtain ⟨fromDb, hfromDb, hcomputed⟩ := getPeriodLeaderboardFromDb_of f
        (.preferring first) calls now period (offset + 1) 1 rfl
      have hpage := h (.preferring first) rfl (offset + 1) 1 (by omega) le_rfl (by omega)
      simp only [hserved, hfromDb, Option.map_some, hcontents, hcomputed, Option.some.injEq]
        at hpage
      have hraw := parseZrevrange_injective hpage
      rwa [Nat.add_sub_cancel, Nat.mul_one] at hraw
    rw [← hlists]
    exact (boards period).ranked_pairwise
  · rintro ⟨hnone, hranked⟩ db hdb page limit - hlimit -
    by_cases hrows : groupByUser (getSinceForPeriod now period) calls = []
    · rw [bulkSet_nil board hrows] at hsynced
      simp only [getPeriodLeaderboard_of_nil (hsynced ▸ hnone hrows)]
    · obtain ⟨served, fromDb, hserved, hfromDb, hdata, -, -⟩ :=
        pages_of_ranked hsynced db page hrows hranked hdb hlimit
      simp only [hserved, hfromDb, Option.map_some, RedisBoardResponse.contents, hdata]

end Synced

end Backit.Leaderboard
