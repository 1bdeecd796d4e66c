import Mathlib.Data.List.Induction

/-!
# The first of the best

A pass over a list keeps an element until it meets a better one. Among the elements that are
accepted it ends with the first of those that none is better than.
-/

namespace Backit.Lib

section FirstBest

variable {α : Type*} (accepts : α → Prop) [DecidablePred accepts] (better : α → α → Prop)
  [DecidableRel better]

/-- The best element so far, after a look at another one. -/
def keepBetter (best : Option α) (a : α) : Option α :=
  if accepts a ∧ ∀ b ∈ best, better a b then some a else best

/-- The best of the accepted elements; the first wins ties. -/
def firstBest (l : List α) : Option α := l.foldl (keepBetter accepts better) none

/-- The element splits the list: it is better than what is accepted before it, and nothing that is
accepted after it is better. -/
structure IsFirstBest (l : List α) (b : α) : Prop where
  accepted : accepts b
  splits : ∃ earlier later, l = earlier ++ b :: later ∧
    (∀ a ∈ earlier, accepts a → better b a) ∧ ∀ a ∈ later, accepts a → ¬ better a b

variable {accepts better}

theorem firstBest_concat (l : List α) (a : α) : firstBest accepts better (l ++ [a]) =
      keepBetter accepts better (firstBest accepts better l) a := by
  rw [firstBest, List.foldl_append]
  rfl

/-- Nothing is chosen exactly when nothing is accepted. -/
theorem firstBest_eq_none {l : List α} :
    firstBest accepts better l = none ↔ ∀ a ∈ l, ¬ accepts a := by
  induction l using List.reverseRecOn with
  | nil => simp [firstBest]
  | append_singleton l a ih =>
    rw [firstBest_concat, keepBetter]
    constructor
    · intro h
      split at h
      · cases h
      · next hskip =>
        rw [h] at hskip
        intro x hx
        obtain hx | hx := List.mem_append.mp hx
        · exact ih.mp h x hx
        · obtain rfl := List.mem_singleton.mp hx
          exact fun haccepts => hskip ⟨haccepts, by simp⟩
    · intro h
      rw [if_neg fun haccepts => h a (by simp) haccepts.1]
      exact ih.mpr fun x hx => h x (by simp [hx])

/-- What is chosen is the first of the best. The comparison is a strict weak order. -/
theorem firstBest_is_first_best (htrans : ∀ a b c, better a b → better b c → better a c)
    (hweak : ∀ a b c, better a c → better a b ∨ better b c) {l : List α} {b : α}
    (h : firstBest accepts better l = some b) : IsFirstBest accepts better l b := by
  induction l using List.reverseRecOn generalizing b with
  | nil => simp [firstBest] at h
  | append_singleton l a ih =>
    rw [firstBest_concat, keepBetter] at h
    split at h
    · next hbetter =>
      obtain rfl := Option.some.inj h
      refine ⟨hbetter.1, l, [], by simp, fun x hx haccepts => ?_, by simp⟩
      cases hbest : firstBest accepts better l with
      | none => exact absurd haccepts (firstBest_eq_none.mp hbest x hx)
      | some best =>
        have hbeats := hbetter.2 best hbest
        obtain ⟨-, earlier, later, rfl, hearlier, hlater⟩ := ih hbest
        obtain hx | hx := List.mem_append.mp hx
        · exact htrans _ _ _ hbeats (hearlier x hx haccepts)
        · obtain rfl | hx := List.mem_cons.mp hx
          · exact hbeats
          · exact (hweak _ x _ hbeats).resolve_right (hlater x hx haccepts)
    · next hkept =>
      obtain ⟨haccepted, earlier, later, rfl, hearlier, hlater⟩ := ih h
      refine ⟨haccepted, earlier, later ++ [a], by simp, hearlier, fun x hx haccepts => ?_⟩
      obtain hx | hx := List.mem_append.mp hx
      · exact hlater x hx haccepts
      · obtain rfl := List.mem_singleton.mp hx
        intro hbeats
        exact hkept ⟨haccepts, fun c hc => Option.some.inj (h.symm.trans hc) ▸ hbeats⟩

end FirstBest

end Backit.Lib
