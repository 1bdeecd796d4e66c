import Backit.Lib.Sorting
import Mathlib.Algebra.BigOperators.Group.List.Basic
import Mathlib.Algebra.Order.BigOperators.Group.List
import Mathlib.Algebra.Order.Ring.Int
import Mathlib.Data.List.Dedup
import Mathlib.Data.String.Basic

/-!
# Leaderboards

A leaderboard ranks the users by the calls they have settled in a period. In Redis it is a sorted
set of the users by score. In PostgreSQL it is the settled calls grouped by user, in the order of
their total profit.
-/

namespace Backit.Leaderboard

open Lib

inductive CallStatus where
  | pending
  | settled
  | cancelled
  deriving DecidableEq

inductive CallOutcome where
  | won
  | lost
  deriving DecidableEq

/-- A call: its profit in millionths of a USDC, the time of its settlement in milliseconds. -/
structure PredictionCall where
  id : String
  userId : String
  status : CallStatus
  outcome : Option CallOutcome
  profitUsdc : Int
  settledAt : Option Int
  deriving DecidableEq

inductive LeaderboardPeriod where
  | weekly
  | monthly
  | allTime
  deriving DecidableEq

def msPerDay : Int := 86400000

/-- The day of the week, from Sunday, of a day counted from 1 January 1970. -/
def getUTCDay (day : Int) : Int := (day + 4) % 7

/-- The day of the month of a day counted from 1 January 1970: the days are counted within an era of
400 years that begins on 1 March, and within a year of that era. -/
def getUTCDate (day : Int) : Int :=
  let dayOfEra := (day + 719468) % 146097
  let year := (dayOfEra - dayOfEra / 1460 + dayOfEra / 36524 - dayOfEra / 146096) / 365
  let dayOfYear := dayOfEra - (365 * year + year / 4 - year / 100)
  let month := (5 * dayOfYear + 2) / 153
  dayOfYear - (153 * month + 2) / 5 + 1

example : getUTCDate 0 = 1 ∧ getUTCDate 58 = 28 ∧ getUTCDate 59 = 1 ∧ getUTCDate 11016 = 29 := by
  decide

/-- The start of the last Monday. -/
def getLastMonday (now : Int) : Int :=
  (now / msPerDay - (getUTCDay (now / msPerDay) + 6) % 7) * msPerDay

def getFirstOfMonth (now : Int) : Int :=
  (now / msPerDay - (getUTCDate (now / msPerDay) - 1)) * msPerDay

def getSinceForPeriod (now : Int) : LeaderboardPeriod → Option Int
  | .weekly => some (getLastMonday now)
  | .monthly => some (getFirstOfMonth now)
  | .allTime => none

theorem getLastMonday_le (now : Int) : getLastMonday now ≤ now := by
  unfold getLastMonday getUTCDay msPerDay
  omega

theorem one_le_getUTCDate (day : Int) : 1 ≤ getUTCDate day := by
  have hmonth : ∀ d : Int, 1 ≤ d - (153 * ((5 * d + 2) / 153) + 2) / 5 + 1 := by
    intro d
    omega
  exact hmonth _

theorem getFirstOfMonth_le (now : Int) : getFirstOfMonth now ≤ now := by
  have hdate := one_le_getUTCDate (now / msPerDay)
  unfold getFirstOfMonth msPerDay at *
  omega

theorem since_le {now since : Int} {period : LeaderboardPeriod}
    (h : getSinceForPeriod now period = some since) : since ≤ now := by
  cases period with
  | weekly =>
    cases h
    exact getLastMonday_le now
  | monthly =>
    cases h
    exact getFirstOfMonth_le now
  | allTime => cases h

/-- What the queries select: the settled calls, with a start of the period those settled since. -/
def inPeriod (since : Option Int) (call : PredictionCall) : Bool :=
  call.status = .settled &&
    match since, call.settledAt with
    | none, _ => true
    | some since, some settledAt => since ≤ settledAt
    | some _, none => false

/-- The aggregates of the queries. -/
structure Stats where
  totalCalls : Nat
  wonCalls : Nat
  totalProfitUsdc : Int
  deriving DecidableEq

def aggregate (calls : List PredictionCall) : Stats where
  totalCalls := calls.length
  wonCalls := calls.countP fun call => call.outcome = some .won
  totalProfitUsdc := (calls.map (·.profitUsdc)).sum

structure Row extends Stats where
  userId : String
  deriving DecidableEq

/-- The calls of a user that a query selects. -/
def callsOf (since : Option Int) (calls : List PredictionCall) (userId : String) :
    List PredictionCall :=
  calls.filter fun call => call.userId = userId && inPeriod since call

/-- The selected calls grouped by user. -/
def groupByUser (since : Option Int) (calls : List PredictionCall) : List Row :=
  ((calls.filter (inPeriod since)).map (·.userId)).dedup.map fun userId =>
    { aggregate (callsOf since calls userId) with userId }

theorem mem_groupByUser {since : Option Int} {calls : List PredictionCall} {row : Row} :
    row ∈ groupByUser since calls ↔ callsOf since calls row.userId ≠ [] ∧
      row.toStats = aggregate (callsOf since calls row.userId) := by
  have hgroup : ∀ userId, userId ∈ ((calls.filter (inPeriod since)).map (·.userId)).dedup ↔
      callsOf since calls userId ≠ [] := by
    intro userId
    simp only [List.mem_dedup, List.mem_map, List.mem_filter, callsOf, ne_eq,
      List.filter_eq_nil_iff, Bool.and_eq_true, decide_eq_true_eq]
    constructor
    · rintro ⟨call, ⟨hcall, hin⟩, rfl⟩ hnone
      exact hnone call hcall ⟨rfl, hin⟩
    · intro h
      by_contra hnone
      exact h fun call hcall ⟨huser, hin⟩ => hnone ⟨call, ⟨hcall, hin⟩, huser⟩
  rw [groupByUser, List.mem_map]
  constructor
  · rintro ⟨userId, huser, rfl⟩
    exact ⟨(hgroup userId).mp huser, rfl⟩
  · rintro ⟨hcalls, hstats⟩
    refine ⟨row.userId, (hgroup _).mpr hcalls, ?_⟩
    cases row
    rw [← hstats]

theorem callsOf_of_no_rows {since : Option Int} {calls : List PredictionCall}
    (h : groupByUser since calls = []) (userId : String) : callsOf since calls userId = [] := by
  by_contra hcalls
  have hrow : (⟨aggregate (callsOf since calls userId), userId⟩ : Row) ∈
      groupByUser since calls := mem_groupByUser.mpr ⟨hcalls, rfl⟩
  rw [h] at hrow
  cases hrow

theorem groupByUser_nodup (since : Option Int) (calls : List PredictionCall) :
    ((groupByUser since calls).map (·.userId)).Nodup := by
  rw [groupByUser, List.map_map]
  exact (List.map_id _).symm ▸ List.nodup_dedup _

section Scores

/-- The floating-point arithmetic of the scores. -/
structure Floats where
  /-- `Math.round((wonCalls / totalCalls) * 10_000)` -/
  winRateBps : Nat → Nat → Int
  /-- `Math.round(Number(totalProfitUsdc) * 1_000_000)`, of an amount in millionths -/
  stroops : Int → Int
  /-- `Math.floor(totalProfitXlmStroops / 1_000_000)` -/
  profitComponent : Int → Int

/-- The arithmetic without rounding errors. -/
def exact : Floats where
  winRateBps wonCalls totalCalls := ((20000 * wonCalls + totalCalls) / (2 * totalCalls) : Nat)
  stroops amount := amount
  profitComponent amount := amount / 1000000

variable (f : Floats)

def computeScore (wonCalls totalCalls : Nat) (totalProfitXlmStroops : Int) : Int :=
  let winRateBps := if 0 < totalCalls then f.winRateBps wonCalls totalCalls else 0
  winRateBps * 1000 + f.profitComponent totalProfitXlmStroops

def Stats.score (stats : Stats) : Int :=
  computeScore f stats.wonCalls stats.totalCalls (f.stroops stats.totalProfitUsdc)

/-- The score of the calls of a user that a query selects. -/
def scoreOf (since : Option Int) (calls : List PredictionCall) (userId : String) : Int :=
  (aggregate (callsOf since calls userId)).score f

/-- What the sorted set holds for a row. -/
def Row.entry (row : Row) : String × Int := (row.userId, row.score f)

end Scores

abbrev Board := SortedSet String Int

/-- A board is overwritten, but not by an empty one. -/
def bulkSet (board : Board) (entries : List (String × Int)) : Board :=
  if entries = [] then board else SortedSet.empty.zaddAll entries

/-- A user gets one score on the boards of all periods. -/
def updateScore (f : Floats) (boards : LeaderboardPeriod → Board) (address : String)
    (stats : Stats) : LeaderboardPeriod → Board :=
  fun period => (boards period).zadd (address, stats.score f)

structure RedisBoardEntry where
  address : String
  score : Int
  rank : Nat
  deriving DecidableEq

def parseZrevrange (raw : List (String × Int)) (offsetRank : Nat) : List RedisBoardEntry :=
  raw.mapIdx fun i e => ⟨e.1, e.2, offsetRank + i + 1⟩

def getTopEntries (board : Board) (offset count : Nat) : List RedisBoardEntry :=
  parseZrevrange (board.zrevrange offset (offset + count - 1)) offset

section Service

structure RedisBoardResponse where
  data : List RedisBoardEntry
  total : Nat
  page : Nat
  limit : Nat
  pages : Nat
  period : LeaderboardPeriod
  fromCache : Bool
  deriving DecidableEq

/-- What a database is free in: in each query the order of the rows of one total profit, and whether
it can order by a name that the query does not select. -/
structure Database where
  arrange : Nat → Nat → List Row → List Row
  arrange_perm : ∀ offset limit rows, (arrange offset limit rows).Perm rows
  arrange_sorted : ∀ offset limit rows, (arrange offset limit rows).Pairwise fun row row' =>
    row'.totalProfitUsdc ≤ row.totalProfitUsdc
  ordersByUnselected : Bool

/-- The counts of the distinct users in each group of the calls. The query keeps the grouping of the
first one, and its order by the total profit. -/
def Database.countQuery (db : Database) (rows : List Row) : Option (List Nat) :=
  if db.ordersByUnselected then some (rows.map fun _ => 1) else none

variable (f : Floats) (db : Database) (calls : List PredictionCall) (now : Int)
  (period : LeaderboardPeriod) (page limit : Nat)

/-- The board as computed from the database, if its queries succeed. -/
def getPeriodLeaderboardFromDb : Option RedisBoardResponse :=
  let offset := (page - 1) * limit
  let rows := groupByUser (getSinceForPeriod now period) calls
  (db.countQuery rows).map fun counts =>
    let total := counts.head?.getD 0
    { data :=
        (((db.arrange offset limit rows).drop offset).take limit).mapIdx fun i row =>
          ⟨row.userId, row.score f, offset + i + 1⟩
      total
      page
      limit
      pages := (total + limit - 1) / limit
      period
      fromCache := false }

/-- The board as served: from Redis if it answers and has data. -/
def getPeriodLeaderboard (redisHealthy : Bool) (boards : LeaderboardPeriod → Board) :
    Option RedisBoardResponse :=
  let offset := (page - 1) * limit
  let entries := getTopEntries (boards period) offset limit
  let total := (boards period).zcard
  if redisHealthy && (0 < total || entries ≠ []) then
    some
      { data := entries
        total
        page
        limit
        pages := (total + limit - 1) / limit
        period
        fromCache := true }
  else getPeriodLeaderboardFromDb f db calls now period page limit

end Service

end Backit.Leaderboard
