import Backit.Leaderboard.Boards

/-!
# Time series without gaps

The series of a range is filled by a walk in steps of a day or a week from the start of the range.
A point is found when the walk comes to its day: a week's point only when the walk is on Mondays,
and the point of the last day only when the walk is there before the range ends. Days are those of
UTC, also for the process.
-/

namespace Backit.Analytics

open Leaderboard (msPerDay)

inductive Interval where
  | day
  | week
  deriving DecidableEq

def Interval.days : Interval → Int
  | .day => 1
  | .week => 7

theorem Interval.days_pos (interval : Interval) : 0 < interval.days := by
  cases interval <;> decide

/-- A value at a day, counted from 1 January 1970. -/
structure DataPoint (V : Type) where
  date : Int
  value : V
  deriving DecidableEq

/-- The day of a moment in milliseconds. -/
def dayOf (moment : Int) : Int := moment / msPerDay

variable {V : Type}

/-- The point of a day; the last one counts when there are several. -/
def pointAt (dataPoints : List (DataPoint V)) (date : Int) : Option (DataPoint V) :=
  dataPoints.reverse.find? (·.date = date)

/-- The walk from `currentDate` on, with the last value so far. -/
def fillFrom (dataPoints : List (DataPoint V)) (endDate : Int) (interval : Interval)
    (maintainLastValue : Bool) (currentDate : Int) (lastValue : V) : List (DataPoint V) :=
  if currentDate ≤ endDate then
    let next := currentDate + interval.days * msPerDay
    match pointAt dataPoints (dayOf currentDate) with
    | some dataPoint =>
      dataPoint :: fillFrom dataPoints endDate interval maintainLastValue next dataPoint.value
    | none =>
      let rest := fillFrom dataPoints endDate interval maintainLastValue next lastValue
      if maintainLastValue then ⟨dayOf currentDate, lastValue⟩ :: rest else rest
  else []
termination_by (endDate + 1 - currentDate).toNat
decreasing_by
  all_goals
    have hpos := interval.days_pos
    have hstep : 0 < interval.days * msPerDay := Int.mul_pos hpos (by decide)
    omega

/-- `maintainLastValue` is set in every call. -/
def fillMissingDates [Zero V] (dataPoints : List (DataPoint V)) (startDate endDate : Int)
    (interval : Interval) (maintainLastValue : Bool) : List (DataPoint V) :=
  if dataPoints = [] then []
  else fillFrom dataPoints endDate interval maintainLastValue startDate 0

/-- The value of the latest point before a day; nothing is zero. -/
def IsLatest [Zero V] (points : List (DataPoint V)) (date : Int) (value : V) : Prop :=
  (∃ p ∈ points, p.date < date ∧ p.value = value ∧ ∀ q ∈ points, q.date < date → q.date ≤ p.date) ∨
    (∀ p ∈ points, date ≤ p.date) ∧ value = 0

/-- The days follow each other by an interval, every point is there, and every other day has the
value of the latest point before it. -/
structure KeepsPoints [Zero V] (points : List (DataPoint V)) (interval : Interval)
    (filled : List (DataPoint V)) : Prop where
  spaced : filled.IsChain fun a b => b.date = a.date + interval.days
  kept : ∀ p ∈ points, p ∈ filled
  held : ∀ q ∈ filled, q ∈ points ∨ (∀ p ∈ points, p.date ≠ q.date) ∧ IsLatest points q.date q.value

/-- A walk from a moment comes to a day before the range ends. -/
def ComesTo (startDate endDate : Int) (interval : Interval) (date : Int) : Prop :=
  ∃ k : Nat, date = dayOf startDate + k * interval.days ∧
    startDate + k * (interval.days * msPerDay) ≤ endDate

variable {points : List (DataPoint V)} {startDate endDate : Int} {interval : Interval} {date : Int}

theorem dayOf_add (moment days : Int) : dayOf (moment + days * msPerDay) = dayOf moment + days :=
  Int.add_mul_ediv_right _ _ (by decide)

/-- The walk comes to its first day, and to those of the walk from the next one. -/
theorem comesTo_iff : ComesTo startDate endDate interval date ↔ startDate ≤ endDate ∧
    (date = dayOf startDate ∨
      ComesTo (startDate + interval.days * msPerDay) endDate interval date) := by
  have hstep : 0 < interval.days * msPerDay := Int.mul_pos interval.days_pos (by decide)
  constructor
  · rintro ⟨k, hdate, hend⟩
    have hnonneg : 0 ≤ (k : Int) * (interval.days * msPerDay) :=
      Int.mul_nonneg (Int.natCast_nonneg k) hstep.le
    refine ⟨by omega, ?_⟩
    cases k with
    | zero => exact .inl (by simpa using hdate)
    | succ k =>
      rw [Int.natCast_succ, Int.add_mul, Int.one_mul] at hdate hend
      exact .inr ⟨k, by rw [dayOf_add]; omega, by omega⟩
  · rintro ⟨hle, rfl | ⟨k, hdate, hend⟩⟩
    · exact ⟨0, by simp, by simpa using hle⟩
    · rw [dayOf_add] at hdate
      refine ⟨k + 1, ?_, ?_⟩ <;> rw [Int.natCast_succ, Int.add_mul, Int.one_mul] <;> omega

theorem pointAt_mem {p : DataPoint V} (h : pointAt points date = some p) :
    p ∈ points ∧ p.date = date :=
  ⟨List.mem_reverse.mp (List.mem_of_find?_eq_some h), by simpa using List.find?_some h⟩

theorem pointAt_none (h : pointAt points date = none) : ∀ p ∈ points, p.date ≠ date := fun p hp =>
  by simpa using List.find?_eq_none.mp h p (List.mem_reverse.mpr hp)

/-- The points are of different days. -/
theorem pointAt_of_mem (hpoints : points.Pairwise (·.date < ·.date)) {p : DataPoint V}
    (hp : p ∈ points) : pointAt points p.date = some p := by
  cases hat : pointAt points p.date with
  | none => exact absurd rfl (pointAt_none hat p hp)
  | some q =>
    obtain ⟨hq, hdate⟩ := pointAt_mem hat
    have hdistinct : (points.map (·.date)).Nodup :=
      List.pairwise_map.mpr (hpoints.imp fun h => h.ne)
    rw [List.inj_on_of_nodup_map hdistinct hq hp hdate]

/-- What a walk leaves: a day of its own for each of its steps, and the points that it comes to. -/
structure Walked (points : List (DataPoint V)) (startDate endDate : Int) (interval : Interval)
    (filled : List (DataPoint V)) : Prop where
  head : ∀ q ∈ filled.head?, q.date = dayOf startDate
  spaced : filled.IsChain fun a b => b.date = a.date + interval.days
  days : ∀ q ∈ filled, ComesTo startDate endDate interval q.date
  kept : ∀ p ∈ points, ComesTo startDate endDate interval p.date → p ∈ filled

theorem Walked.cons {rest : List (DataPoint V)} {q : DataPoint V} (hle : startDate ≤ endDate)
    (h : Walked points (startDate + interval.days * msPerDay) endDate interval rest)
    (hq : q.date = dayOf startDate) (hpoint : ∀ p ∈ points, p.date = dayOf startDate → p = q) :
    Walked points startDate endDate interval (q :: rest) where
  head := by
    rintro _ ⟨⟩
    exact hq
  spaced := by
    cases rest with
    | nil => exact .singleton _
    | cons b rest =>
      exact List.isChain_cons_cons.mpr ⟨by rw [h.head b rfl, dayOf_add, hq], h.spaced⟩
  days := by
    intro p hp
    rcases List.mem_cons.mp hp with rfl | hp
    · exact comesTo_iff.mpr ⟨hle, .inl hq⟩
    · exact comesTo_iff.mpr ⟨hle, .inr (h.days p hp)⟩
  kept := by
    intro p hp hcomes
    rcases (comesTo_iff.mp hcomes).2 with hday | hlater
    · exact List.mem_cons.mpr (.inl (hpoint p hp hday))
    · exact .tail _ (h.kept p hp hlater)

theorem fillFrom_walked (hpoints : points.Pairwise (·.date < ·.date)) (startDate : Int) (last : V) :
    Walked points startDate endDate interval
      (fillFrom points endDate interval true startDate last) := by
  fun_induction fillFrom points endDate interval true startDate last with
  | case1 current last hle next p hat ih =>
    refine ih.cons hle (pointAt_mem hat).2 fun q hq hdate => ?_
    rw [← hdate, pointAt_of_mem hpoints hq] at hat
    exact Option.some.inj hat
  | case2 current last hle next hat rest _ ih =>
    exact ih.cons hle rfl fun p hp hdate => absurd hdate (pointAt_none hat p hp)
  | case3 current last hle next hat rest hnot => exact absurd rfl hnot
  | case4 current last hgt =>
    have hnone : ∀ {date}, ¬ ComesTo current endDate interval date := fun h =>
      hgt (comesTo_iff.mp h).1
    exact ⟨by simp, .nil, by simp, fun p _ h => absurd h hnone⟩

variable [Zero V]

/-- When the walk comes to every point from its start on, each day has the latest value. -/
theorem fillFrom_held (startDate : Int) (last : V) (hlast : IsLatest points (dayOf startDate) last)
    (hcomes : ∀ p ∈ points, dayOf startDate ≤ p.date → ComesTo startDate endDate interval p.date) :
    ∀ q ∈ fillFrom points endDate interval true startDate last,
      q ∈ points ∨ (∀ p ∈ points, p.date ≠ q.date) ∧ IsLatest points q.date q.value := by
  have hpos := interval.days_pos
  -- No point is between two days of the walk.
  have hnext : ∀ {current}, (∀ p ∈ points, dayOf current ≤ p.date →
      ComesTo current endDate interval p.date) → ∀ p ∈ points,
        p.date < dayOf (current + interval.days * msPerDay) → p.date ≤ dayOf current := by
    intro current hcomes p hp hlt
    by_contra hgt
    obtain ⟨k, hdate, -⟩ := hcomes p hp (by omega)
    rw [dayOf_add] at hlt
    have hk : (k : Int) * interval.days < 1 * interval.days := by omega
    have hk' : 0 < (k : Int) * interval.days := by omega
    have hone := Int.lt_of_mul_lt_mul_right hk hpos.le
    have hzero := Int.pos_of_mul_pos_left hk' hpos
    omega
  have hlater : ∀ {current}, (∀ p ∈ points, dayOf current ≤ p.date →
      ComesTo current endDate interval p.date) → ∀ p ∈ points,
        dayOf (current + interval.days * msPerDay) ≤ p.date →
          ComesTo (current + interval.days * msPerDay) endDate interval p.date := by
    intro current hcomes p hp hle
    rw [dayOf_add] at hle
    rcases (comesTo_iff.mp (hcomes p hp (by omega))).2 with hday | h
    · omega
    · exact h
  fun_induction fillFrom points endDate interval true startDate last with
  | case1 current last hle next p hat ih =>
    obtain ⟨hp, hdate⟩ := pointAt_mem hat
    intro q hq
    rcases List.mem_cons.mp hq with rfl | hq
    · exact .inl hp
    · refine ih (.inl ⟨p, hp, ?_, rfl, fun q hq hlt => ?_⟩) (hlater hcomes) q hq
      · rw [dayOf_add]
        omega
      · exact (hnext hcomes q hq hlt).trans hdate.ge
  | case2 current last hle next hat rest _ ih =>
    have hnone := pointAt_none hat
    have hbefore : ∀ p ∈ points, p.date < dayOf next → p.date < dayOf current := fun p hp hlt =>
      lt_of_le_of_ne (hnext hcomes p hp hlt) (hnone p hp)
    intro q hq
    rcases List.mem_cons.mp hq with rfl | hq
    · exact .inr ⟨hnone, hlast⟩
    · refine ih ?_ (hlater hcomes) q hq
      rcases hlast with ⟨p, hp, hlt, hvalue, hlatest⟩ | ⟨hafter, hzero⟩
      · refine .inl ⟨p, hp, ?_, hvalue, fun q hq hlt => hlatest q hq (hbefore q hq hlt)⟩
        rw [dayOf_add]
        omega
      · refine .inr ⟨fun p hp => ?_, hzero⟩
        by_contra hlt
        exact absurd (hafter p hp) (not_le.mpr (hbefore p hp (not_le.mp hlt)))
  | case3 current last hle next hat rest hnot => exact absurd rfl hnot
  | case4 => simp

/-- The filled series keeps every point exactly when the walk comes to the day of each. -/
theorem fill_keeps_iff (hpoints : points.Pairwise (·.date < ·.date)) :
    KeepsPoints points interval (fillMissingDates points startDate endDate interval true) ↔
      ∀ p ∈ points, ComesTo startDate endDate interval p.date := by
  have hwalked : Walked points startDate endDate interval
      (fillFrom points endDate interval true startDate 0) := fillFrom_walked hpoints startDate 0
  by_cases hempty : points = []
  · rw [fillMissingDates, if_pos hempty]
    exact iff_of_true ⟨.nil, by simp [hempty], by simp⟩ (by simp [hempty])
  · rw [fillMissingDates, if_neg hempty]
    constructor
    · exact fun h p hp => hwalked.days p (h.kept p hp)
    · intro hcomes
      have hafter : ∀ p ∈ points, dayOf startDate ≤ p.date := by
        intro p hp
        obtain ⟨k, hdate, -⟩ := hcomes p hp
        have hnonneg := Int.mul_nonneg (Int.natCast_nonneg k) interval.days_pos.le
        omega
      exact ⟨hwalked.spaced, fun p hp => hwalked.kept p hp (hcomes p hp),
        fillFrom_held startDate 0 (.inr ⟨hafter, rfl⟩) fun p hp _ => hcomes p hp⟩

/-- The day to which the query truncates a moment: its own, or the Monday of its week. -/
def dateTrunc (interval : Interval) (moment : Int) : Int :=
  match interval with
  | .day => dayOf moment
  | .week => dayOf moment - (dayOf moment + 3) % 7

/-- A stake on 6 January 1970 is in the week from the 5th, which the walk from the 1st passes by. -/
def firstWeek : List (DataPoint Int) := [⟨dateTrunc .week (5 * msPerDay), 25⟩]

theorem first_week_filled : KeepsPoints firstWeek .week
      (fillMissingDates firstWeek (4 * msPerDay) (9 * msPerDay) .week true) :=
  (fill_keeps_iff (List.pairwise_singleton _ _)).mpr fun p hp =>
    ⟨0, by rw [List.mem_singleton.mp hp]; decide, by decide⟩

/-- From the first day that there is, the series has nothing of the week's profit. -/
theorem first_week_lost :
    fillMissingDates firstWeek 0 (9 * msPerDay) .week true = [⟨0, 0⟩, ⟨7, 0⟩] ∧
      ¬ KeepsPoints firstWeek .week
        (fillMissingDates firstWeek 0 (9 * msPerDay) .week true) := by
  have hfilled : fillMissingDates firstWeek 0 (9 * msPerDay) .week true = [⟨0, 0⟩, ⟨7, 0⟩] := by
    have hfirst : pointAt firstWeek (dayOf 0) = none := by decide
    have hsecond : pointAt firstWeek (dayOf 604800000) = none := by decide
    simp +decide [fillMissingDates, fillFrom, hfirst, hsecond, Interval.days, msPerDay]
  refine ⟨hfilled, fun h => ?_⟩
  have hmem := h.kept _ List.mem_cons_self
  rw [hfilled] at hmem
  revert hmem
  decide

end Backit.Analytics
