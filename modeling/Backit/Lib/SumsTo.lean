import Mathlib.Algebra.BigOperators.Group.Finset.Basic
import Mathlib.Algebra.Order.BigOperators.Group.Finset
import Mathlib.Algebra.Order.Ring.Int

/-!
# Totals of a function on an unbounded domain

A function is within a bound when no finite set of its arguments sums to more. Changing a
nonnegative function on finitely many arguments moves the bound by what the change adds there.
-/

namespace Backit.Lib

variable {α : Type*} {g g' : α → Int} {bound delta : Int}

/-- No finite set of arguments sums to more than the bound. -/
def Within (g : α → Int) (bound : Int) : Prop := ∀ S : Finset α, ∑ x ∈ S, g x ≤ bound

theorem Within.zero : Within (fun _ : α => 0) 0 := by
  intro S
  simp

/-- A bound is not negative. -/
theorem Within.bound_nonneg (h : Within g bound) : 0 ≤ bound := by
  simpa using h ∅

theorem Within.apply_le (h : Within g bound) (x : α) : g x ≤ bound := by
  simpa using h {x}

theorem Within.mono (h : Within g bound) (hle : ∀ x, g' x ≤ g x) : Within g' bound :=
  fun S => (Finset.sum_le_sum fun x _ => hle x).trans (h S)

theorem Within.weaken (h : Within g bound) (hle : bound ≤ delta) : Within g delta :=
  fun S => (h S).trans hle

/-- A change on finitely many arguments moves the bound by what it adds there. -/
theorem Within.change [DecidableEq α] (h : Within g bound) (T : Finset α)
    (hnonneg : ∀ x, 0 ≤ g' x) (hout : ∀ x, x ∉ T → g' x ≤ g x)
    (hin : ∑ x ∈ T, g' x ≤ ∑ x ∈ T, g x + delta) : Within g' (bound + delta) := by
  intro S
  have hsplit : ∀ w : α → Int, ∑ x ∈ S ∪ T, w x = ∑ x ∈ S \ T, w x + ∑ x ∈ T, w x := by
    intro w
    rw [← Finset.sdiff_union_self_eq_union, Finset.sum_union Finset.sdiff_disjoint]
  have hrest : ∑ x ∈ S \ T, g' x ≤ ∑ x ∈ S \ T, g x :=
    Finset.sum_le_sum fun x hx => hout x (Finset.mem_sdiff.mp hx).2
  have hmore : ∑ x ∈ S, g' x ≤ ∑ x ∈ S ∪ T, g' x :=
    Finset.sum_le_sum_of_subset_of_nonneg Finset.subset_union_left fun x _ _ => hnonneg x
  calc ∑ x ∈ S, g' x
      ≤ ∑ x ∈ S ∪ T, g' x := hmore
    _ = ∑ x ∈ S \ T, g' x + ∑ x ∈ T, g' x := hsplit g'
    _ ≤ ∑ x ∈ S \ T, g x + (∑ x ∈ T, g x + delta) := add_le_add hrest hin
    _ = ∑ x ∈ S ∪ T, g x + delta := by rw [hsplit g, add_assoc]
    _ ≤ bound + delta := by
        have := h (S ∪ T)
        omega

end Backit.Lib

/-!
## Exact totals of a function on an unbounded domain

A function sums to a total when it is zero outside finitely many arguments and adds up to the total
on them. Writing a value at an argument changes the total by as much; writing several positive
values adds up to their sum exactly when no argument is written twice.
-/

namespace Backit.Lib

variable {α : Type*} {g g' : α → Int} {total total' : Int}

/-- The function is zero outside finitely many arguments, and adds up to the total. -/
def SumsTo (g : α → Int) (total : Int) : Prop :=
  ∃ S : Finset α, (∀ x, x ∉ S → g x = 0) ∧ ∑ x ∈ S, g x = total

theorem SumsTo.zero : SumsTo (fun _ : α => 0) 0 := ⟨∅, fun _ _ => rfl, rfl⟩

/-- More arguments add nothing. -/
theorem sum_of_support {S T : Finset α} (hsub : S ⊆ T) (hzero : ∀ x, x ∉ S → g x = 0) :
    ∑ x ∈ T, g x = ∑ x ∈ S, g x :=
  (Finset.sum_subset hsub fun x _ hx => hzero x hx).symm

/-- A function has one total. -/
theorem SumsTo.unique [DecidableEq α] (h : SumsTo g total) (h' : SumsTo g total') :
    total = total' := by
  obtain ⟨S, hzero, rfl⟩ := h
  obtain ⟨S', hzero', rfl⟩ := h'
  rw [← sum_of_support Finset.subset_union_left hzero,
    ← sum_of_support Finset.subset_union_right hzero']

/-- A change on finitely many arguments moves the total by what it adds there. -/
theorem SumsTo.change [DecidableEq α] (h : SumsTo g total) (T : Finset α) {delta : Int}
    (hout : ∀ x, x ∉ T → g' x = g x) (hin : ∑ x ∈ T, g' x = ∑ x ∈ T, g x + delta) :
    SumsTo g' (total + delta) := by
  obtain ⟨S, hzero, rfl⟩ := h
  refine ⟨S ∪ T, fun x hx => ?_, ?_⟩
  · rw [Finset.notMem_union] at hx
    rw [hout x hx.2, hzero x hx.1]
  · have hsplit : ∀ w : α → Int, ∑ x ∈ S ∪ T, w x = ∑ x ∈ S \ T, w x + ∑ x ∈ T, w x := by
      intro w
      rw [← Finset.sdiff_union_self_eq_union, Finset.sum_union Finset.sdiff_disjoint]
    have hrest : ∑ x ∈ S \ T, g' x = ∑ x ∈ S \ T, g x :=
      Finset.sum_congr rfl fun x hx => hout x (Finset.mem_sdiff.mp hx).2
    calc ∑ x ∈ S ∪ T, g' x
        = ∑ x ∈ S \ T, g x + (∑ x ∈ T, g x + delta) := by rw [hsplit g', hrest, hin]
      _ = ∑ x ∈ S ∪ T, g x + delta := by rw [hsplit g, add_assoc]
      _ = ∑ x ∈ S, g x + delta := by rw [sum_of_support Finset.subset_union_left hzero]

/-- Writing one value. -/
theorem SumsTo.update [DecidableEq α] (h : SumsTo g total) (x : α) (value : Int) :
    SumsTo (Function.update g x value) (total - g x + value) := by
  have hchange : SumsTo (Function.update g x value) (total + (value - g x)) :=
    h.change {x} (fun y hy => Function.update_of_ne (by simpa using hy) ..) (by simp)
  rwa [show total - g x + value = total + (value - g x) by omega]

/-- A nonnegative function is within its total. -/
theorem SumsTo.within [DecidableEq α] (h : SumsTo g total) (hnonneg : ∀ x, 0 ≤ g x) :
    Within g total := by
  obtain ⟨S, hzero, rfl⟩ := h
  intro T
  rw [← sum_of_support (T := S ∪ T) Finset.subset_union_left hzero]
  exact Finset.sum_le_sum_of_subset_of_nonneg Finset.subset_union_right fun x _ _ => hnonneg x

section Writes

variable [DecidableEq α]

/-- Write the entries of a list, one after the other. -/
def writeAll (g : α → Int) : List (α × Int) → α → Int
  | [] => g
  | (x, value) :: rest => writeAll (Function.update g x value) rest

theorem update_nonneg {x : α} {value : Int} (hnonneg : ∀ y, 0 ≤ g y) (hvalue : 0 ≤ value) (y : α) :
    0 ≤ Function.update g x value y := by
  rw [Function.update_apply]
  split
  · exact hvalue
  · exact hnonneg y

/-- Written values add up to at most their sum. -/
theorem SumsTo.writeAll_le {writes : List (α × Int)} (h : SumsTo g total)
    (hnonneg : ∀ x, 0 ≤ g x) (hpositive : ∀ w ∈ writes, 0 < w.2) :
    ∃ t, SumsTo (writeAll g writes) t ∧ t ≤ total + (writes.map Prod.snd).sum := by
  induction writes generalizing g total with
  | nil => exact ⟨total, h, by simp⟩
  | cons w rest ih =>
    obtain ⟨x, value⟩ := w
    have hvalue : 0 < value := hpositive (x, value) (.head _)
    obtain ⟨t, ht, hle⟩ := ih (h.update x value) (update_nonneg hnonneg hvalue.le)
      fun w hw => hpositive w (.tail _ hw)
    have := hnonneg x
    refine ⟨t, ht, ?_⟩
    simp only [List.map_cons, List.sum_cons]
    omega

/-- They add up to it exactly when each is written where nothing was. -/
theorem SumsTo.writeAll_iff {writes : List (α × Int)} (h : SumsTo g total)
    (hnonneg : ∀ x, 0 ≤ g x) (hpositive : ∀ w ∈ writes, 0 < w.2) :
    SumsTo (writeAll g writes) (total + (writes.map Prod.snd).sum) ↔
      (writes.map Prod.fst).Nodup ∧ ∀ x ∈ writes.map Prod.fst, g x = 0 := by
  induction writes generalizing g total with
  | nil => simpa [writeAll] using h
  | cons w rest ih =>
    obtain ⟨x, value⟩ := w
    have hvalue : 0 < value := hpositive (x, value) (.head _)
    have hrest : ∀ w ∈ rest, 0 < w.2 := fun w hw => hpositive w (.tail _ hw)
    have hnonneg' := update_nonneg (x := x) hnonneg hvalue.le
    simp only [writeAll, List.map_cons, List.sum_cons, List.nodup_cons, List.forall_mem_cons]
    by_cases hfree : g x = 0
    · have hstep := ih (h.update x value) hnonneg' hrest
      rw [hfree, sub_zero, add_assoc] at hstep
      rw [hstep]
      constructor
      · rintro ⟨hnodup, hzero⟩
        have hx : x ∉ rest.map Prod.fst := by
          intro hmem
          have := hzero x hmem
          rw [Function.update_self] at this
          omega
        refine ⟨⟨hx, hnodup⟩, hfree, fun y hy => ?_⟩
        have hne : y ≠ x := fun heq => hx (heq ▸ hy)
        rw [← hzero y hy, Function.update_of_ne hne]
      · rintro ⟨⟨hx, hnodup⟩, -, hzero⟩
        refine ⟨hnodup, fun y hy => ?_⟩
        have hne : y ≠ x := fun heq => hx (heq ▸ hy)
        rw [Function.update_of_ne hne, hzero y hy]
    · -- What was written at `x` before is lost.
      obtain ⟨t, ht, hle⟩ := (h.update x value).writeAll_le hnonneg' hrest
      refine iff_of_false (fun hsums => ?_) fun hall => hfree hall.2.1
      have := hsums.unique ht
      have := hnonneg x
      omega

end Writes

end Backit.Lib
