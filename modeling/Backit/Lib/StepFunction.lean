import Mathlib.Algebra.BigOperators.Intervals
import Mathlib.Algebra.Order.BigOperators.Group.Finset
import Mathlib.Algebra.Order.Ring.Int
import Mathlib.Data.Int.Cast.Lemmas

/-!
# Averages of step functions

Samples taken at increasing times are read as a step function: between two samples the value of
the earlier one is in force, and after the last sample its value is. `area` weighs each sample by
the time until the next one, and `sum_inForce` shows that it is the sum of the step function over
the seconds. A truncated average lies between bounds of the samples.
-/

namespace Backit.Lib

variable {α : Type*} (time : α → ℕ) (value : α → ℤ)

/-- The value in force at a time: that of the last sample taken by then. -/
def inForce (samples : List α) (t : ℕ) : ℤ :=
  (samples.filter fun sample => time sample ≤ t).getLast?.elim 0 value

/-- The samples weighed by the time until the next one, and the last one by the time until
`stop`. -/
def area (stop : ℕ) : List α → ℤ
  | [] => 0
  | [sample] => value sample * (stop - time sample)
  | sample :: next :: rest => value sample * (time next - time sample) + area stop (next :: rest)

variable {time value} {samples : List α} {sample next : α} {t stop : ℕ}

/-- Until the next sample is taken the first one is in force. -/
theorem inForce_first (hfrom : time sample ≤ t) (hlater : ∀ later ∈ samples, t < time later) :
    inForce time value (sample :: samples) t = value sample := by
  have hnone : samples.filter (fun later => time later ≤ t) = [] :=
    List.filter_eq_nil_iff.mpr fun later hmem => by simpa using hlater later hmem
  have hkept : (sample :: samples).filter (fun later => time later ≤ t) = [sample] := by
    rw [List.filter_cons_of_pos (by simpa using hfrom), hnone]
  rw [inForce, hkept]
  rfl

/-- Once the next sample is taken the first one is no longer in force. -/
theorem inForce_later (hnext : time next ≤ t) :
    inForce time value (sample :: next :: samples) t = inForce time value (next :: samples) t := by
  have hkept : (next :: samples).filter (fun later => time later ≤ t) ≠ [] := by
    rw [List.filter_cons_of_pos (by simpa using hnext)]
    exact List.cons_ne_nil _ _
  unfold inForce
  by_cases hfrom : time sample ≤ t
  · rw [List.filter_cons_of_pos (by simpa using hfrom), List.getLast?_cons_of_ne_nil hkept]
  · rw [List.filter_cons_of_neg (by simpa using hfrom)]

/-- From the first sample on, the value in force is that of some sample. -/
theorem inForce_mem (value : α → ℤ) (samples : List α) (hfrom : time sample ≤ t) :
    ∃ found ∈ sample :: samples, inForce time value (sample :: samples) t = value found := by
  have hkept : (sample :: samples).filter (fun later => time later ≤ t) ≠ [] := by
    rw [List.filter_cons_of_pos (by simpa using hfrom)]
    exact List.cons_ne_nil _ _
  refine ⟨_, (List.mem_filter.mp (List.getLast_mem hkept)).1, ?_⟩
  rw [inForce, List.getLast?_eq_some_getLast hkept]
  rfl

/-- The area under increasing samples is the sum of the step function over the seconds. -/
theorem sum_inForce (samples : List α) :
    ∀ sample : α, (sample :: samples).Pairwise (fun a b => time a < time b) →
      (∀ later ∈ sample :: samples, time later ≤ stop) →
      ∑ t ∈ Finset.Ico (time sample) stop, inForce time value (sample :: samples) t =
        area time value stop (sample :: samples) := by
  induction samples with
  | nil =>
    intro sample _ hstop
    have hconst : ∀ t ∈ Finset.Ico (time sample) stop,
        inForce time value [sample] t = value sample := by
      intro t ht
      exact inForce_first (Finset.mem_Ico.mp ht).1 (by simp)
    rw [Finset.sum_congr rfl hconst, Finset.sum_const, Nat.card_Ico, area, nsmul_eq_mul,
      Nat.cast_sub (hstop sample (.head _)), mul_comm]
  | cons next samples ih =>
    intro sample hsorted hstop
    obtain ⟨hfirst, hrest⟩ := List.pairwise_cons.mp hsorted
    have hnext : time sample < time next := hfirst next (.head _)
    have hbefore : ∀ t ∈ Finset.Ico (time sample) (time next),
        inForce time value (sample :: next :: samples) t = value sample := by
      intro t ht
      obtain ⟨hfrom, hto⟩ := Finset.mem_Ico.mp ht
      refine inForce_first hfrom fun later hlater => ?_
      rcases List.mem_cons.mp hlater with rfl | hlater
      · exact hto
      · exact hto.trans ((List.pairwise_cons.mp hrest).1 later hlater)
    have hafter : ∀ t ∈ Finset.Ico (time next) stop,
        inForce time value (sample :: next :: samples) t =
          inForce time value (next :: samples) t :=
      fun t ht => inForce_later (Finset.mem_Ico.mp ht).1
    rw [← Finset.sum_Ico_consecutive _ hnext.le (hstop next (.tail _ (.head _))),
      Finset.sum_congr rfl hbefore, Finset.sum_congr rfl hafter,
      ih next hrest fun later hlater => hstop later (.tail _ hlater),
      Finset.sum_const, Nat.card_Ico, area, nsmul_eq_mul, Nat.cast_sub hnext.le, mul_comm]

/-- The area between two bounds of the samples. -/
theorem area_between {low high : ℤ} (hsorted : (sample :: samples).Pairwise
      (fun a b => time a < time b))
    (hstop : ∀ later ∈ sample :: samples, time later ≤ stop)
    (hlow : ∀ later ∈ sample :: samples, low ≤ value later)
    (hhigh : ∀ later ∈ sample :: samples, value later ≤ high) :
    low * (stop - time sample) ≤ area time value stop (sample :: samples) ∧
      area time value stop (sample :: samples) ≤ high * (stop - time sample) := by
  have hlength : ((Finset.Ico (time sample) stop).card : ℤ) = stop - time sample := by
    rw [Nat.card_Ico, Nat.cast_sub (hstop sample (.head _))]
  rw [← sum_inForce samples sample hsorted hstop, ← hlength, mul_comm, mul_comm high,
    ← nsmul_eq_mul, ← nsmul_eq_mul]
  constructor
  · refine Finset.card_nsmul_le_sum _ _ _ fun t ht => ?_
    obtain ⟨found, hmem, hvalue⟩ := inForce_mem value samples (Finset.mem_Ico.mp ht).1
    rw [hvalue]
    exact hlow found hmem
  · refine Finset.sum_le_card_nsmul _ _ _ fun t ht => ?_
    obtain ⟨found, hmem, hvalue⟩ := inForce_mem value samples (Finset.mem_Ico.mp ht).1
    rw [hvalue]
    exact hhigh found hmem

/-- A truncated average of values between two bounds is between them. -/
theorem tdiv_between {low high sum total : ℤ} (htotal : 0 < total) (hlow : low * total ≤ sum)
    (hhigh : sum ≤ high * total) : low ≤ sum.tdiv total ∧ sum.tdiv total ≤ high := by
  constructor
  · calc low = (low * total).tdiv total := (Int.mul_tdiv_cancel low htotal.ne').symm
      _ ≤ sum.tdiv total := Int.tdiv_le_tdiv htotal hlow
  · calc sum.tdiv total ≤ (high * total).tdiv total := Int.tdiv_le_tdiv htotal hhigh
      _ = high := Int.mul_tdiv_cancel high htotal.ne'

end Backit.Lib
