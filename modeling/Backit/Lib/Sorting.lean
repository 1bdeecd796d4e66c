import Mathlib.Data.List.Sort

/-!
# Sorting and sorted sets

## Sorting in place

Two sorts of a list by what is better. The exchange sort exchanges each element with every better
one behind it. The sinking sort moves each element up past the worse ones before it, so that
elements of which neither is better keep their order. What is better is a strict weak order: being
at least as good is transitive.
-/

namespace Backit.Lib

variable {α : Type*} (better : α → α → Prop) [DecidableRel better]

/-- Go through the elements behind `x` and exchange it with every better one: what is then in its
place, and what is behind. -/
def exchangePass (x : α) : List α → α × List α
  | [] => (x, [])
  | y :: ys =>
    if better y x then
      let passed := exchangePass y ys
      (passed.1, x :: passed.2)
    else
      let passed := exchangePass x ys
      (passed.1, y :: passed.2)

/-- The outer loop of an exchange sort, with the places that are left. -/
def exchangeFrom : Nat → List α → List α
  | places + 1, x :: xs =>
    let passed := exchangePass better x xs
    passed.1 :: exchangeFrom places passed.2
  | _, xs => xs

def exchangeSort (xs : List α) : List α := exchangeFrom better xs.length xs

/-- Move an element up past the worse ones. The elements before it are listed from the last. -/
def sink (x : α) : List α → List α
  | [] => [x]
  | y :: ys => if better x y then y :: sink x ys else x :: y :: ys

def sinkingSort (xs : List α) : List α :=
  (xs.foldl (fun placed x => sink better x placed) []).reverse

section Exchange

variable {better}

theorem exchangePass_perm (x : α) (xs : List α) :
    ((exchangePass better x xs).1 :: (exchangePass better x xs).2).Perm (x :: xs) := by
  induction xs generalizing x with
  | nil => exact .refl _
  | cons y ys ih =>
    rw [exchangePass]
    split
    · exact (List.Perm.swap ..).trans ((ih y).cons x)
    · exact (List.Perm.swap ..).trans (((ih x).cons y).trans (.swap ..))

theorem exchangePass_length (x : α) (xs : List α) :
    (exchangePass better x xs).2.length = xs.length :=
  Nat.succ.inj (exchangePass_perm x xs).length_eq

theorem exchangeFrom_perm (places : Nat) (xs : List α) :
    (exchangeFrom better places xs).Perm xs := by
  induction places generalizing xs with
  | zero => exact .refl _
  | succ places ih =>
    cases xs with
    | nil => exact .refl _
    | cons x xs => exact ((ih _).cons _).trans (exchangePass_perm x xs)

theorem exchangeSort_perm (xs : List α) : (exchangeSort better xs).Perm xs := exchangeFrom_perm _ xs

variable (hasymm : ∀ a b, better a b → ¬ better b a)
  (htrans : ∀ a b c, ¬ better b a → ¬ better c b → ¬ better c a)

include hasymm htrans

/-- What a pass puts in a place is at least as good as everything behind. -/
theorem exchangePass_best (x : α) (xs : List α) :
    ∀ y ∈ x :: xs, ¬ better y (exchangePass better x xs).1 := by
  induction xs generalizing x with
  | nil =>
    intro y hy hbetter
    obtain rfl := List.mem_singleton.mp hy
    exact hasymm _ _ hbetter hbetter
  | cons z zs ih =>
    intro y hy
    rw [exchangePass]
    split
    · next hz =>
      rcases List.mem_cons.mp hy with rfl | hy
      · exact htrans _ _ _ (ih z z (.head _)) (hasymm _ _ hz)
      · exact ih z y hy
    · next hz =>
      rcases List.mem_cons.mp hy with rfl | hy
      · exact ih y y (.head _)
      · rcases List.mem_cons.mp hy with rfl | hy
        · exact htrans _ _ _ (ih x x (.head _)) hz
        · exact ih x y (.tail _ hy)

theorem exchangeFrom_pairwise (places : Nat) (xs : List α) (h : xs.length ≤ places) :
    (exchangeFrom better places xs).Pairwise fun a b => ¬ better b a := by
  induction places generalizing xs with
  | zero =>
    obtain rfl := List.length_eq_zero_iff.mp (Nat.le_zero.mp h)
    exact .nil
  | succ places ih =>
    cases xs with
    | nil => exact .nil
    | cons x xs =>
      rw [exchangeFrom, List.pairwise_cons]
      refine ⟨fun y hy => ?_, ih _ ?_⟩
      · have hmem := (exchangeFrom_perm places _).mem_iff.mp hy
        exact exchangePass_best hasymm htrans x xs y
          ((exchangePass_perm x xs).mem_iff.mp (.tail _ hmem))
      · rw [exchangePass_length]
        exact Nat.le_of_succ_le_succ h

/-- An exchange sort leaves nothing behind what it is better than. -/
theorem exchangeSort_pairwise (xs : List α) :
    (exchangeSort better xs).Pairwise fun a b => ¬ better b a :=
  exchangeFrom_pairwise hasymm htrans _ xs (Nat.le_refl _)

end Exchange

section Sinking

variable {better}

theorem sink_perm (x : α) (placed : List α) : (sink better x placed).Perm (x :: placed) := by
  induction placed with
  | nil => exact .refl _
  | cons y ys ih =>
    rw [sink]
    split
    · exact (ih.cons y).trans (.swap ..)
    · exact .refl _

theorem foldl_sink_perm (xs placed : List α) :
    (xs.foldl (fun placed x => sink better x placed) placed).Perm (xs ++ placed) := by
  induction xs generalizing placed with
  | nil => exact .refl _
  | cons x xs ih =>
    exact (ih _).trans (((sink_perm x placed).append_left xs).trans List.perm_middle)

theorem sinkingSort_perm (xs : List α) : (sinkingSort better xs).Perm xs := by
  have h : (xs.foldl (fun placed x => sink better x placed) []).Perm (xs ++ []) :=
    foldl_sink_perm xs []
  rw [List.append_nil] at h
  exact (List.reverse_perm _).trans h

/-- In the order of a stable sort: better, or as good and earlier. -/
def Ahead (better earlier : α → α → Prop) (a b : α) : Prop :=
  better a b ∨ ¬ better b a ∧ earlier a b

variable {earlier : α → α → Prop} (hasymm : ∀ a b, better a b → ¬ better b a)
  (htrans : ∀ a b c, ¬ better b a → ¬ better c b → ¬ better c a)

include hasymm htrans

/-- An element sinks to its place behind those that are ahead of it. -/
theorem sink_pairwise {x : α} {placed : List α}
    (hplaced : placed.Pairwise fun b a => Ahead better earlier a b)
    (hearlier : ∀ y ∈ placed, earlier y x) :
    (sink better x placed).Pairwise fun b a => Ahead better earlier a b := by
  induction placed with
  | nil => exact List.pairwise_singleton _ _
  | cons y ys ih =>
    obtain ⟨hy, hys⟩ := List.pairwise_cons.mp hplaced
    rw [sink]
    split
    · next hbetter =>
      refine List.pairwise_cons.mpr
        ⟨fun z hz => ?_, ih hys fun z hz => hearlier z (.tail _ hz)⟩
      rcases List.mem_cons.mp ((sink_perm x ys).mem_iff.mp hz) with rfl | hz
      · exact .inl hbetter
      · exact hy z hz
    · next hnot =>
      refine List.pairwise_cons.mpr ⟨fun z hz => .inr ⟨?_, hearlier z hz⟩, hplaced⟩
      rcases List.mem_cons.mp hz with rfl | hz
      · exact hnot
      · refine htrans _ _ _ ?_ hnot
        rcases hy z hz with hbetter | ⟨hgood, -⟩
        · exact hasymm _ _ hbetter
        · exact hgood

theorem foldl_sink_pairwise {xs placed : List α} (hxs : xs.Pairwise earlier)
    (hplaced : placed.Pairwise fun b a => Ahead better earlier a b)
    (hearlier : ∀ y ∈ placed, ∀ x ∈ xs, earlier y x) :
    (xs.foldl (fun placed x => sink better x placed) placed).Pairwise
      fun b a => Ahead better earlier a b := by
  induction xs generalizing placed with
  | nil => exact hplaced
  | cons x xs ih =>
    obtain ⟨hx, hxs⟩ := List.pairwise_cons.mp hxs
    refine ih hxs (sink_pairwise hasymm htrans hplaced fun y hy => hearlier y hy x (.head _)) ?_
    intro y hy z hz
    rcases List.mem_cons.mp ((sink_perm x placed).mem_iff.mp hy) with rfl | hy
    · exact hx z hz
    · exact hearlier y hy z (.tail _ hz)

/-- A sinking sort is stable. -/
theorem sinkingSort_pairwise {xs : List α} (hxs : xs.Pairwise earlier) :
    (sinkingSort better xs).Pairwise (Ahead better earlier) :=
  List.pairwise_reverse.mpr
    (foldl_sink_pairwise hasymm htrans hxs .nil fun _ hy => absurd hy List.not_mem_nil)

end Sinking

end Backit.Lib

/-!
## Sorted sets

A sorted set holds members, each with a score. A range of it is read from the greatest score down,
equal scores by member from the greatest down. Any list that holds the same entries in that order is
what the range over the whole set reads.
-/

namespace Backit.Lib

variable {μ σ : Type*}

section Order

variable [LinearOrder μ] [LinearOrder σ]

/-- The order in which a range is read. -/
def RanksBefore (a b : μ × σ) : Prop := b.2 < a.2 ∨ a.2 = b.2 ∧ b.1 ≤ a.1

instance : DecidableRel (RanksBefore (μ := μ) (σ := σ)) := fun a b =>
  inferInstanceAs (Decidable (b.2 < a.2 ∨ a.2 = b.2 ∧ b.1 ≤ a.1))

instance : Std.Total (RanksBefore (μ := μ) (σ := σ)) where
  total a b := by
    rcases lt_trichotomy a.2 b.2 with h | h | h
    · exact .inr (.inl h)
    · rcases le_total a.1 b.1 with hle | hle
      · exact .inr (.inr ⟨h.symm, hle⟩)
      · exact .inl (.inr ⟨h, hle⟩)
    · exact .inl (.inl h)

instance : IsTrans (μ × σ) RanksBefore where
  trans a b c hab hbc := by
    rcases hab with hab | ⟨hab, hle⟩
    · rcases hbc with hbc | ⟨hbc, -⟩
      · exact .inl (hbc.trans hab)
      · exact .inl (hbc ▸ hab)
    · rcases hbc with hbc | ⟨hbc, hle'⟩
      · exact .inl (hab ▸ hbc)
      · exact .inr ⟨hab.trans hbc, hle'.trans hle⟩

instance : Std.Antisymm (RanksBefore (μ := μ) (σ := σ)) where
  antisymm a b hab hba := by
    rcases hab with hab | ⟨hscore, hle⟩
    · rcases hba with hba | ⟨hba, -⟩
      · exact absurd hba hab.asymm
      · exact absurd hba hab.ne
    · rcases hba with hba | ⟨-, hle'⟩
      · exact absurd hscore hba.ne
      · exact Prod.ext (le_antisymm hle' hle) hscore

end Order

/-- Members with their scores. -/
structure SortedSet (μ σ : Type*) where
  entries : List (μ × σ)
  nodup : (entries.map Prod.fst).Nodup

namespace SortedSet

def empty : SortedSet μ σ := ⟨[], List.nodup_nil⟩

def zcard (b : SortedSet μ σ) : Nat := b.entries.length

theorem zcard_eq_zero {b : SortedSet μ σ} : b.zcard = 0 ↔ b.entries = [] := List.length_eq_zero_iff

section Members

variable [LinearOrder μ]

/-- Adding a member, or giving it a new score. -/
def zadd (b : SortedSet μ σ) (entry : μ × σ) : SortedSet μ σ where
  entries := entry :: b.entries.filter (·.1 ≠ entry.1)
  nodup := by
    rw [List.map_cons, List.nodup_cons]
    refine ⟨fun hmem => ?_, b.nodup.sublist (List.filter_sublist.map _)⟩
    obtain ⟨e, he, heq⟩ := List.mem_map.mp hmem
    exact of_decide_eq_true (List.mem_filter.mp he).2 heq

def zaddAll (b : SortedSet μ σ) (entries : List (μ × σ)) : SortedSet μ σ := entries.foldl zadd b

theorem mem_zadd {b : SortedSet μ σ} {entry e : μ × σ} :
    e ∈ (b.zadd entry).entries ↔ e = entry ∨ e ∈ b.entries ∧ e.1 ≠ entry.1 := by
  simp [zadd]

/-- Adding entries of distinct members that the set does not have. -/
theorem zaddAll_perm (b : SortedSet μ σ) {entries : List (μ × σ)}
    (hnodup : (entries.map Prod.fst).Nodup) (hnew : ∀ e ∈ entries, ∀ e' ∈ b.entries, e.1 ≠ e'.1) :
    (b.zaddAll entries).entries.Perm (entries ++ b.entries) := by
  induction entries generalizing b with
  | nil => exact .refl _
  | cons entry entries ih =>
    rw [List.map_cons, List.nodup_cons] at hnodup
    have hkept : (b.zadd entry).entries = entry :: b.entries := by
      simp only [zadd, List.cons.injEq, true_and, List.filter_eq_self]
      intro e he
      exact decide_eq_true (hnew entry List.mem_cons_self e he).symm
    refine (ih (b.zadd entry) hnodup.2 fun e he e' he' => ?_).trans ?_
    · rw [hkept] at he'
      rcases List.mem_cons.mp he' with rfl | he'
      · exact fun heq => hnodup.1 (heq ▸ List.mem_map_of_mem he)
      · exact hnew e (.tail _ he) e' he'
    · rw [hkept]
      exact List.perm_middle

end Members

section Ranks

variable [LinearOrder μ] [LinearOrder σ]

def ranked (b : SortedSet μ σ) : List (μ × σ) := b.entries.insertionSort RanksBefore

/-- The entries from the rank `start` to the rank `stop`, counted from 0. -/
def zrevrange (b : SortedSet μ σ) (start stop : Nat) : List (μ × σ) :=
  (b.ranked.drop start).take (stop + 1 - start)

theorem ranked_perm (b : SortedSet μ σ) : b.ranked.Perm b.entries := List.perm_insertionSort _ _

theorem ranked_pairwise (b : SortedSet μ σ) : b.ranked.Pairwise RanksBefore :=
  List.pairwise_insertionSort _ _

/-- The order of a range is determined by the entries. -/
theorem ranked_eq {b : SortedSet μ σ} {entries : List (μ × σ)} (hperm : entries.Perm b.entries)
    (hpairwise : entries.Pairwise RanksBefore) : b.ranked = entries :=
  (b.ranked_perm.trans hperm.symm).eq_of_pairwise' b.ranked_pairwise hpairwise

end Ranks

end SortedSet

end Backit.Lib
