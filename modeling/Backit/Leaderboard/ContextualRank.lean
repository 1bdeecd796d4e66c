import Backit.Leaderboard.Agreement

/-!
# The neighbours of a user

Redis and the database both give the five places on each side of a user. The database path never
counts the places above from less than 1, so above a user at the places 2 to 6 every rank is one too
high.
-/

namespace Backit.Leaderboard

open Lib

structure ContextualRank where
  user : RedisBoardEntry
  above : List RedisBoardEntry
  below : List RedisBoardEntry
  deriving DecidableEq

section Redis

variable (board : Board) (address : String)

/-- The place of a member, from 0. -/
def zrevrank : Option Nat := board.ranked.findIdx? (·.1 = address)

def zscore : Option Int := (board.entries.find? (·.1 = address)).map (·.2)

def getContextualRanking : Option ContextualRank :=
  (zrevrank board address).map fun zeroBasedRank =>
    let aboveStart := zeroBasedRank - 5
    let aboveRaw := if 0 < zeroBasedRank then board.zrevrange aboveStart (zeroBasedRank - 1) else []
    let belowStart := zeroBasedRank + 1
    { user := ⟨address, (zscore board address).getD 0, zeroBasedRank + 1⟩
      above := parseZrevrange aboveRaw aboveStart
      below := parseZrevrange (board.zrevrange belowStart (zeroBasedRank + 5)) belowStart }

end Redis

section Database

/-- All rows of a period, in the order of the database. -/
def allRows (db : Database) (calls : List PredictionCall) (now : Int) (period : LeaderboardPeriod) :
    List Row :=
  let rows := groupByUser (getSinceForPeriod now period) calls
  db.arrange 0 rows.length rows

variable (f : Floats)

def toEntry (row : Row) (rank : Nat) : RedisBoardEntry := ⟨row.userId, row.score f, rank⟩

/-- The neighbours among the rows; nothing when the user is not there. -/
def contextualRankOf (rows : List Row) (address : String) : Option ContextualRank := do
  let userIndex ← rows.findIdx? (·.userId = address)
  let row ← rows[userIndex]?
  some
    { user := toEntry f row (userIndex + 1)
      above := ((rows.take userIndex).drop (userIndex - 5)).mapIdx fun i r =>
        toEntry f r (max 1 (userIndex - 5) + i + 1)
      below := ((rows.take (userIndex + 6)).drop (userIndex + 1)).mapIdx fun i r =>
        toEntry f r (userIndex + 2 + i) }

def getContextualRankFromDb (db : Database) (calls : List PredictionCall) (now : Int)
    (period : LeaderboardPeriod) (address : String) : Option ContextualRank :=
  contextualRankOf f (allRows db calls now period) address

/-- From Redis if it answers and lists the user. -/
def getContextualRank (db : Database) (calls : List PredictionCall) (now : Int)
    (period : LeaderboardPeriod) (redisHealthy : Bool) (boards : LeaderboardPeriod → Board)
    (address : String) : Option ContextualRank :=
  match if redisHealthy then getContextualRanking (boards period) address else none with
  | some ranking => some ranking
  | none => getContextualRankFromDb f db calls now period address

end Database

/-- The neighbours and the user between them. -/
def ContextualRank.places (rank : ContextualRank) : List RedisBoardEntry :=
  rank.above ++ [rank.user] ++ rank.below

/-- The part of a board up to five places from an index. -/
def window (board : List (String × Int)) (index : Nat) : List RedisBoardEntry :=
  ((parseZrevrange board 0).take (index + 6)).drop (index - 5)

variable {board : List (String × Int)} {index : Nat} {address : String} {score : Int}

theorem parse_slice (board : List (String × Int)) (start stop : Nat) :
    parseZrevrange ((board.take stop).drop start) start =
      ((parseZrevrange board 0).take stop).drop start := by
  refine List.ext_getElem? fun i => ?_
  simp only [parseZrevrange, List.getElem?_mapIdx, List.getElem?_drop, List.getElem?_take]
  split
  · simp
  · rfl

theorem take_split {α : Type*} {l : List α} {x : α} (h : l[index]? = some x) {start stop : Nat}
    (hstart : start ≤ index) (hstop : index < stop) :
    (l.take index).drop start ++ [x] ++ (l.take stop).drop (index + 1) =
      (l.take stop).drop start := by
  obtain ⟨hlt, rfl⟩ := List.getElem?_eq_some_iff.mp h
  have hsplit : l.take stop = l.take index ++ [l[index]] ++ (l.take stop).drop (index + 1) := by
    rw [← List.take_succ_eq_append_getElem hlt]
    conv_lhs => rw [← List.take_append_drop (index + 1) (l.take stop)]
    rw [List.take_take, min_eq_left hstop]
  conv_rhs => rw [hsplit]
  rw [List.append_assoc, List.append_assoc, List.drop_append_of_le_length (by simp; omega)]

/-- The window, put together from its parts. -/
theorem window_eq (h : board[index]? = some (address, score)) :
    parseZrevrange ((board.take index).drop (index - 5)) (index - 5) ++
        [⟨address, score, index + 1⟩] ++
        parseZrevrange ((board.take (index + 6)).drop (index + 1)) (index + 1) =
      window board index := by
  have huser : (parseZrevrange board 0)[index]? = some ⟨address, score, index + 1⟩ := by
    simp [parseZrevrange, h]
  rw [parse_slice, parse_slice]
  exact take_split huser (Nat.sub_le _ _) (by omega)

theorem getElem_of_findIdx {α : Type*} {p : α → Bool} {l : List α} (h : l.findIdx? p = some index) :
    ∃ x, l[index]? = some x ∧ p x = true := by
  obtain ⟨hlt, hp, -⟩ := List.findIdx?_eq_some_iff_getElem.mp h
  exact ⟨l[index], List.getElem?_eq_getElem hlt, hp⟩

/-- Redis always gives the window. -/
theorem redis_window {board : Board} (h : zrevrank board address = some index) :
    ∃ ranking, getContextualRanking board address = some ranking ∧
      ranking.places = window board.ranked index := by
  obtain ⟨⟨member, score⟩, hplace, hmember⟩ := getElem_of_findIdx h
  obtain rfl : member = address := of_decide_eq_true hmember
  have hentry : (member, score) ∈ board.entries :=
    board.ranked_perm.mem_iff.mp (List.mem_of_getElem? hplace)
  have hscore : zscore board member = some score := by
    cases hfind : board.entries.find? (·.1 = member) with
    | none => exact absurd (List.find?_eq_none.mp hfind _ hentry) (by simp)
    | some entry =>
      have hsame : entry = (member, score) :=
        List.inj_on_of_nodup_map board.nodup (List.mem_of_find?_eq_some hfind) hentry
          (by simpa using List.find?_some hfind)
      rw [zscore, hfind, hsame]
      rfl
  have habove : (if 0 < index then board.zrevrange (index - 5) (index - 1) else []) =
      (board.ranked.take index).drop (index - 5) := by
    split
    · rw [SortedSet.zrevrange, List.drop_take]
      congr 1
      omega
    · next hzero => simp [Nat.eq_zero_of_not_pos hzero]
  have hbelow : board.zrevrange (index + 1) (index + 5) =
      (board.ranked.take (index + 6)).drop (index + 1) := by
    rw [SortedSet.zrevrange, List.drop_take]
  refine ⟨_, congrArg (Option.map _) h, ?_⟩
  simp only [ContextualRank.places, habove, hbelow, hscore]
  exact window_eq hplace

variable (f : Floats)

/-- The board of the rows. -/
def entriesOf (rows : List Row) : List (String × Int) := rows.map (·.entry f)

/-- The database gives the window of the first user, and of those from the seventh on. -/
theorem database_window_iff {rows : List Row} (h : rows.findIdx? (·.userId = address) = some index) :
    ∃ ranking, contextualRankOf f rows address = some ranking ∧
      (ranking.places = window (entriesOf f rows) index ↔ index = 0 ∨ 6 ≤ index) := by
  obtain ⟨row, hplace, hrow⟩ := getElem_of_findIdx h
  have hentry : (entriesOf f rows)[index]? = some (row.userId, row.score f) := by
    simp [entriesOf, hplace, Row.entry]
  have hparse : ∀ (slice : List Row) (offset : Nat),
      (slice.mapIdx fun i r => toEntry f r (offset + i + 1)) =
        parseZrevrange (entriesOf f slice) offset := by
    intro slice offset
    refine List.ext_getElem? fun i => ?_
    simp only [parseZrevrange, entriesOf, List.getElem?_mapIdx, List.getElem?_map, Option.map_map]
    rfl
  have hslice : ∀ start stop, entriesOf f ((rows.take stop).drop start) =
      ((entriesOf f rows).take stop).drop start := by
    intro start stop
    rw [entriesOf, List.map_drop, List.map_take]
    rfl
  have hbelow : ∀ i, index + 2 + i = index + 1 + i + 1 := by omega
  refine ⟨_, by rw [contextualRankOf, h]; exact congrArg (Option.bind · _) hplace, ?_⟩
  have huser : toEntry f row (index + 1) = ⟨row.userId, row.score f, index + 1⟩ := rfl
  simp only [ContextualRank.places, hbelow, hparse, hslice]
  rw [← window_eq hentry, huser, List.append_cancel_right_eq, List.append_cancel_right_eq]
  constructor
  · intro heq
    by_contra hnear
    have hstart : index - 5 = 0 := by omega
    have hfirst : ∃ e, ((entriesOf f rows).take index)[0]? = some e := by
      obtain ⟨hlt, -⟩ := List.getElem?_eq_some_iff.mp hentry
      rw [List.getElem?_take_of_lt (by omega)]
      exact ⟨_, List.getElem?_eq_getElem (by omega)⟩
    obtain ⟨e, he⟩ := hfirst
    have hrank := congrArg (fun l => l[0]?.map (·.rank)) heq
    simp [parseZrevrange, hstart, he] at hrank
  · rintro (rfl | hfar)
    · rfl
    · rw [max_eq_right (by omega)]

/-- The board from which a user is served: of Redis if it lists the user. -/
def servedBoard (db : Database) (calls : List PredictionCall) (now : Int)
    (period : LeaderboardPeriod) (redisHealthy : Bool) (boards : LeaderboardPeriod → Board)
    (address : String) : Bool × List (String × Int) :=
  if redisHealthy && (zrevrank (boards period) address).isSome then (true, (boards period).ranked)
  else (false, entriesOf f (allRows db calls now period))

/-- A listed user gets the window of the board exactly when it is served by Redis, or the user is
first or at least seventh. -/
theorem contextual_rank_iff (db : Database) (calls : List PredictionCall) (now : Int)
    (period : LeaderboardPeriod) (redisHealthy : Bool) (boards : LeaderboardPeriod → Board)
    (hlisted : (servedBoard f db calls now period redisHealthy boards address).2.findIdx?
      (·.1 = address) = some index) :
    ∃ ranking, getContextualRank f db calls now period redisHealthy boards address = some ranking ∧
        (ranking.places =
            window (servedBoard f db calls now period redisHealthy boards address).2 index ↔
          (servedBoard f db calls now period redisHealthy boards address).1 = true ∨
            index = 0 ∨ 6 ≤ index) := by
  by_cases hredis : (redisHealthy && (zrevrank (boards period) address).isSome) = true
  · simp only [servedBoard, hredis, if_true] at hlisted ⊢
    obtain ⟨ranking, hranking, hplaces⟩ := redis_window hlisted
    rw [Bool.and_eq_true] at hredis
    refine ⟨ranking, by rw [getContextualRank, if_pos hredis.1, hranking], ?_⟩
    exact iff_of_true hplaces (.inl trivial)
  · simp only [servedBoard, hredis, Bool.false_eq_true, if_false, false_or] at hlisted ⊢
    have hrows : (allRows db calls now period).findIdx? (·.userId = address) = some index := by
      rw [entriesOf, List.findIdx?_map] at hlisted
      exact hlisted
    obtain ⟨ranking, hranking, hiff⟩ := database_window_iff f hrows
    refine ⟨ranking, ?_, hiff⟩
    have hnone : (if redisHealthy then getContextualRanking (boards period) address else none) =
        none := by
      split
      · next hhealthy =>
        rw [getContextualRanking, Option.map_eq_none_iff]
        simpa [hhealthy] using hredis
      · rfl
    rw [getContextualRank, hnone]
    exact hranking

/-- A settled call with a profit. -/
def settledCall (userId : String) (profitUsdc : Int) : PredictionCall :=
  ⟨userId, userId, .settled, some .won, profitUsdc, some 0⟩

def twoCalls : List PredictionCall := [settledCall "a" 20, settledCall "b" 10]

def plainDatabase : Database := .preferring ⟨⟨0, 0, 0⟩, ""⟩

/-- What the users of two calls are shown when Redis does not answer. -/
def rankOf (address : String) : Option ContextualRank :=
  getContextualRank exact plainDatabase twoCalls 0 .allTime false (fun _ => .empty) address

def boardOf (address : String) : List (String × Int) :=
  (servedBoard exact plainDatabase twoCalls 0 .allTime false (fun _ => .empty) address).2

theorem first_user_window :
    ∃ ranking, rankOf "a" = some ranking ∧ ranking.places = window (boardOf "a") 0 := by
  obtain ⟨ranking, hranking, hiff⟩ := contextual_rank_iff exact plainDatabase twoCalls 0 .allTime
    false (fun _ => .empty) (show (boardOf "a").findIdx? (·.1 = "a") = some 0 by decide +kernel)
  exact ⟨ranking, hranking, hiff.mpr (.inr (.inl rfl))⟩

/-- To the second of two users the first is shown at the second place. -/
theorem first_place_shown_second :
    ∃ ranking, rankOf "b" = some ranking ∧ ranking.above = [⟨"a", 10000000, 2⟩] ∧
      ranking.places ≠ window (boardOf "b") 1 :=
  ⟨⟨⟨"b", 10000000, 2⟩, [⟨"a", 10000000, 2⟩], []⟩, by decide +kernel, rfl, by decide +kernel⟩

end Backit.Leaderboard
