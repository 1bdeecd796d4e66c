import Backit.Soroban.Contract
import Mathlib.Algebra.BigOperators.Group.List.Basic
import Mathlib.Algebra.Order.BigOperators.Group.List
import Mathlib.Algebra.Order.Ring.Int
import Mathlib.Tactic.Linarith

/-!
# Fixed-width arithmetic

The contracts are built with overflow checks, so an operator whose exact result does not fit its
type aborts the invocation. `i128` and `unsigned` take the exact result and abort when it is out of
range; the `checked_*` methods return an option instead. Division truncates toward zero.
-/

namespace Backit.Soroban

def i128Max : Int := 2 ^ 127 - 1

def i128Min : Int := -(2 ^ 127)

/-- The integer is a value of type `i128`. -/
def InI128 (x : Int) : Prop := i128Min ≤ x ∧ x ≤ i128Max

instance (x : Int) : Decidable (InI128 x) := inferInstanceAs (Decidable (_ ∧ _))

/-- The exact result of an `i128` operation, if it is one. -/
def checked (x : Int) : Option Int := if InI128 x then some x else none

def checkedAdd (a b : Int) : Option Int := checked (a + b)

def checkedSub (a b : Int) : Option Int := checked (a - b)

def checkedMul (a b : Int) : Option Int := checked (a * b)

/-- `i128::checked_div`: no result for a zero divisor or for `i128::MIN / -1`. -/
def checkedDiv (a b : Int) : Option Int := if b = 0 then none else checked (a.tdiv b)

/-- `u64::checked_add`. -/
def checkedAddU64 (a b : Nat) : Option Nat := if a + b < 2 ^ 64 then some (a + b) else none

theorem checkedAddU64_eq_some {a b c : Nat} :
    checkedAddU64 a b = some c ↔ a + b < 2 ^ 64 ∧ c = a + b := by
  unfold checkedAddU64
  split <;> simp_all [eq_comm]

theorem checked_eq_some {x y : Int} : checked x = some y ↔ InI128 x ∧ y = x := by
  unfold checked
  split <;> simp_all [eq_comm]

theorem checked_of_in_range {x : Int} (h : InI128 x) : checked x = some x :=
  checked_eq_some.mpr ⟨h, rfl⟩

/-- Anything between zero and an `i128` is an `i128`. -/
theorem InI128.of_le {x y : Int} (hx : 0 ≤ x) (hxy : x ≤ y) (hy : InI128 y) : InI128 x := by
  refine ⟨?_, hxy.trans hy.2⟩
  have : i128Min ≤ 0 := by decide
  exact this.trans hx

/-- Truncating division of a nonnegative numerator is floor division. -/
theorem tdiv_eq_div {a b : Int} (ha : 0 ≤ a) : a.tdiv b = a / b := Int.tdiv_eq_ediv_of_nonneg ha

/-- A quotient of a nonnegative number by a positive one is in range when the number is. -/
theorem checkedDiv_of_nonneg {a b : Int} (ha : 0 ≤ a) (hb : 0 < b) (hr : InI128 a) :
    checkedDiv a b = some (a / b) := by
  have hle : a / b ≤ a := Int.ediv_le_self b ha
  have hnonneg : 0 ≤ a / b := Int.ediv_nonneg ha hb.le
  rw [checkedDiv, if_neg hb.ne', tdiv_eq_div ha, checked_of_in_range (.of_le hnonneg hle hr)]

namespace Contract

variable {σ ε α β : Type} {environment : Env} {s s' : σ} {b : β}

/-- The exact result of an `i128` operator, which traps out of range. -/
def i128 (x : Int) : Contract σ ε Int := unwrap (checked x) .arithmetic

/-- The exact result of an unsigned operator of the given width, which traps out of range. -/
def unsigned (width : Nat) (x : Nat) : Contract σ ε Nat :=
  unwrap (if x < 2 ^ width then some x else none) .arithmetic

/-- Whether every running total of a sum is an `i128`. -/
def SumFits : Int → List Int → Prop
  | _, [] => True
  | acc, x :: rest => InI128 (acc + x) ∧ SumFits (acc + x) rest

instance SumFits.decidable : (acc : Int) → (xs : List Int) → Decidable (SumFits acc xs)
  | _, [] => inferInstanceAs (Decidable True)
  | acc, x :: rest =>
    have := SumFits.decidable (acc + x) rest
    inferInstanceAs (Decidable (_ ∧ _))

/-- The running totals of nonnegative summands are in range when the last one is. -/
theorem sum_fits_iff {xs : List Int} {acc : Int} (hacc : 0 ≤ acc) (hnonneg : ∀ x ∈ xs, 0 ≤ x) :
    SumFits acc xs ↔ (xs ≠ [] → acc + xs.sum ≤ i128Max) := by
  induction xs generalizing acc with
  | nil => exact iff_of_true trivial fun hne => absurd rfl hne
  | cons x rest ih =>
    have hx := hnonneg x (.head _)
    have hothers : ∀ y ∈ rest, 0 ≤ y := fun y hy => hnonneg y (.tail _ hy)
    have hrest : 0 ≤ rest.sum := List.sum_nonneg hothers
    have hmin : i128Min ≤ 0 := by decide
    rw [SumFits, ih (by omega) hothers, InI128, List.sum_cons]
    constructor
    · rintro ⟨⟨-, hfirst⟩, hlast⟩ -
      by_cases hempty : rest = []
      · rw [hempty, List.sum_nil]
        omega
      · have := hlast hempty
        omega
    · intro hfits
      have := hfits (List.cons_ne_nil _ _)
      exact ⟨⟨by omega, by omega⟩, fun _ => by omega⟩

/-- `iter.sum()` over `i128` values: every running total is checked. -/
def sumI128 (xs : List Int) : Contract σ ε Int :=
  unwrap (if SumFits 0 xs then some xs.sum else none) .arithmetic

@[simp] theorem run_i128_bind (x : Int) (f : Int → Contract σ ε β) :
    run (i128 x >>= f) environment s = .ok (b, s') ↔
      InI128 x ∧ run (f x) environment s = .ok (b, s') := by
  simp only [i128, run_unwrap_bind, checked_eq_some]
  constructor
  · rintro ⟨_, ⟨hx, rfl⟩, hrun⟩
    exact ⟨hx, hrun⟩
  · rintro ⟨hx, hrun⟩
    exact ⟨x, ⟨hx, rfl⟩, hrun⟩

theorem run_i128_of {x : Int} (h : InI128 x) (f : Int → Contract σ ε β) :
    run (i128 x >>= f) environment s = run (f x) environment s := by
  rw [i128, checked_of_in_range h, run_unwrap_some]

theorem run_i128_error {x : Int} (h : ¬ InI128 x) (f : Int → Contract σ ε β) :
    run (i128 x >>= f) environment s = .error .arithmetic := by
  rw [i128, checked, if_neg h, run_unwrap_none]

@[simp] theorem run_unsigned_bind (width x : Nat) (f : Nat → Contract σ ε β) :
    run (unsigned width x >>= f) environment s = .ok (b, s') ↔
      x < 2 ^ width ∧ run (f x) environment s = .ok (b, s') := by
  by_cases h : x < 2 ^ width <;> simp [unsigned, h]

@[simp] theorem run_sumI128_bind (xs : List Int) (f : Int → Contract σ ε β) :
    run (sumI128 xs >>= f) environment s = .ok (b, s') ↔
      SumFits 0 xs ∧ run (f xs.sum) environment s = .ok (b, s') := by
  by_cases h : SumFits 0 xs <;> simp [sumI128, h]

end Contract

end Backit.Soroban
