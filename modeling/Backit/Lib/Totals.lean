import Mathlib.Algebra.BigOperators.Group.List.Basic
import Mathlib.Algebra.Order.BigOperators.Group.List
import Mathlib.Algebra.Order.Ring.Int
import Mathlib.Data.List.AList
import Mathlib.Tactic.Linarith

/-!
# Totals over lists and association lists

## Sums of a function over a list

How a sum over a list without repetitions changes when the function changes at one element.
-/

namespace Backit.Lib

variable {α : Type*} {xs : List α} {f g : α → Int}

theorem sum_map_nonneg (xs : List α) (h : ∀ x, 0 ≤ f x) : 0 ≤ (xs.map f).sum := by
  refine List.sum_nonneg fun y hy => ?_
  obtain ⟨x, -, rfl⟩ := List.mem_map.mp hy
  exact h x

/-- Functions that agree on the list have the same sum. -/
theorem sum_map_congr (h : ∀ x ∈ xs, g x = f x) : (xs.map g).sum = (xs.map f).sum :=
  congrArg List.sum (List.map_congr_left h)

/-- Changing a function at one element of a list changes the sum by as much. -/
theorem sum_map_change [DecidableEq α] (hnodup : xs.Nodup) {x : α} (hx : x ∈ xs)
    (h : ∀ y ∈ xs, y ≠ x → g y = f y) : (xs.map g).sum = (xs.map f).sum - f x + g x := by
  have hrest : ((xs.erase x).map g).sum = ((xs.erase x).map f).sum := by
    refine sum_map_congr fun y hy => ?_
    obtain ⟨hne, hmem⟩ := hnodup.mem_erase_iff.mp hy
    exact h y hmem hne
  have hf := List.sum_map_erase f hx
  have hg := List.sum_map_erase g hx
  omega

/-- Removing the one element with a key takes its value off the sum. -/
theorem sum_filter_key {κ : Type*} [DecidableEq κ] {key : α → κ} (hnodup : (xs.map key).Nodup)
    {x : α} (hx : x ∈ xs) :
    ((xs.filter (key · ≠ key x)).map f).sum = (xs.map f).sum - f x := by
  induction xs with
  | nil => cases hx
  | cons y rest ih =>
    rw [List.map_cons, List.nodup_cons] at hnodup
    obtain rfl | hx := List.mem_cons.mp hx
    · have hkept : rest.filter (key · ≠ key x) = rest := by
        refine List.filter_eq_self.mpr fun z hz => decide_eq_true fun heq => hnodup.1 ?_
        exact heq ▸ List.mem_map_of_mem hz
      rw [List.filter_cons_of_neg (by simp), hkept]
      simp
    · have hne : key y ≠ key x := fun heq => hnodup.1 (heq ▸ List.mem_map_of_mem hx)
      rw [List.filter_cons_of_pos (by simpa using hne)]
      simp only [List.map_cons, List.sum_cons, ih hnodup.2 hx]
      omega

/-- A list without repetitions sums to at most any list that has its elements. -/
theorem sum_map_le_of_subset {ys : List α} (hnodup : xs.Nodup) (hsubset : xs ⊆ ys)
    (hnonneg : ∀ y ∈ ys, 0 ≤ f y) : (xs.map f).sum ≤ (ys.map f).sum := by
  obtain ⟨zs, hperm, hsublist⟩ := List.subperm_of_subset hnodup hsubset
  rw [← (hperm.map f).sum_eq]
  refine (hsublist.map f).sum_le_sum fun y hy => ?_
  obtain ⟨z, hz, rfl⟩ := List.mem_map.mp hy
  exact hnonneg z hz

end Backit.Lib

/-!
## Totals of association lists

An association list with integer values has a total. Inserting or erasing a key changes the total
by exactly what the key contributed before and after, and with nonnegative values no selection of
distinct keys exceeds the total.
-/

namespace Backit.Lib

variable {K : Type*} [DecidableEq K]

/-- The value at a key, zero when the key is absent. -/
def valueAt (m : AList fun _ : K => Int) (k : K) : Int := (m.lookup k).getD 0

omit [DecidableEq K] in
/-- The sum of all values. -/
def total (m : AList fun _ : K => Int) : Int := (m.entries.map Sigma.snd).sum

omit [DecidableEq K] in
@[simp] theorem total_empty : total (∅ : AList fun _ : K => Int) = 0 := rfl

@[simp] theorem valueAt_empty (k : K) : valueAt ∅ k = 0 := by
  simp [valueAt]

theorem valueAt_insert (m : AList fun _ : K => Int) (k k' : K) (v : Int) :
    valueAt (m.insert k v) k' = if k' = k then v else valueAt m k' := by
  split
  · next h => subst h; simp [valueAt]
  · next h => simp [valueAt, AList.lookup_insert_ne h]

theorem valueAt_erase (m : AList fun _ : K => Int) (k k' : K) :
    valueAt (m.erase k) k' = if k' = k then 0 else valueAt m k' := by
  split
  · next h => subst h; simp [valueAt]
  · next h => simp [valueAt, AList.lookup_erase_ne h]

/-- Erasing a key from an entry list removes exactly what a lookup of the key finds. -/
theorem sum_kerase (k : K) (l : List (Sigma fun _ : K => Int)) :
    ((l.kerase k).map Sigma.snd).sum = (l.map Sigma.snd).sum - (l.dlookup k).getD 0 := by
  induction l with
  | nil => simp
  | cons entry rest ih =>
    obtain ⟨key, v⟩ := entry
    by_cases h : k = key
    · subst h
      simp
    · have hrest : (⟨key, v⟩ :: rest : List (Sigma fun _ : K => Int)).kerase k =
          ⟨key, v⟩ :: rest.kerase k := List.kerase_cons_ne h
      have hlookup : (⟨key, v⟩ :: rest : List (Sigma fun _ : K => Int)).dlookup k =
          rest.dlookup k := List.dlookup_cons_ne _ _ h
      rw [hrest, hlookup, List.map_cons, List.map_cons, List.sum_cons, List.sum_cons, ih]
      omega

theorem total_erase (m : AList fun _ : K => Int) (k : K) :
    total (m.erase k) = total m - valueAt m k :=
  sum_kerase k m.entries

theorem total_insert (m : AList fun _ : K => Int) (k : K) (v : Int) :
    total (m.insert k v) = total m - valueAt m k + v := by
  have hrest : ((m.entries.kerase k).map Sigma.snd).sum = total m - valueAt m k := total_erase m k
  rw [total, AList.entries_insert, List.map_cons, List.sum_cons, hrest]
  exact add_comm _ _

/-- A total of nonnegative values is nonnegative. -/
theorem total_nonneg (m : AList fun _ : K => Int) (hnonneg : ∀ k, 0 ≤ valueAt m k) :
    0 ≤ total m := by
  refine List.sum_nonneg fun v hv => ?_
  obtain ⟨⟨k, v⟩, hentry, rfl⟩ := List.mem_map.mp hv
  have hlookup : m.lookup k = some v := AList.mem_lookup_iff.mpr hentry
  simpa [valueAt, hlookup] using hnonneg k

theorem total_eq_zero (m : AList fun _ : K => Int) (hzero : ∀ k, valueAt m k = 0) :
    total m = 0 := by
  refine List.sum_eq_zero fun v hv => ?_
  obtain ⟨⟨k, v⟩, hentry, rfl⟩ := List.mem_map.mp hv
  have hlookup : m.lookup k = some v := AList.mem_lookup_iff.mpr hentry
  simpa [valueAt, hlookup] using hzero k

/-- Distinct keys hold the total together, when no other key has a value. -/
theorem sum_valueAt_eq_total (keys : List K) (hnodup : keys.Nodup) (m : AList fun _ : K => Int)
    (hother : ∀ k, k ∉ keys → valueAt m k = 0) : (keys.map (valueAt m)).sum = total m := by
  induction keys generalizing m with
  | nil => exact (total_eq_zero m fun k => hother k List.not_mem_nil).symm
  | cons k rest ih =>
    obtain ⟨hk, hrest⟩ := List.nodup_cons.mp hnodup
    have herase : ∀ k', k' ∉ rest → valueAt (m.erase k) k' = 0 := by
      intro k' hk'
      rw [valueAt_erase]
      split
      · rfl
      · next hne => exact hother k' (by simp [hne, hk'])
    have hsum : rest.map (valueAt (m.erase k)) = rest.map (valueAt m) := by
      refine List.map_congr_left fun k' hk' => ?_
      rw [valueAt_erase, if_neg (by rintro rfl; exact hk hk')]
    have hall := ih hrest (m.erase k) herase
    rw [hsum, total_erase] at hall
    rw [List.map_cons, List.sum_cons]
    omega

/-- Distinct keys together hold at most the total, when no value is negative. -/
theorem sum_valueAt_le_total (keys : List K) (hnodup : keys.Nodup) (m : AList fun _ : K => Int)
    (hnonneg : ∀ k, 0 ≤ valueAt m k) : (keys.map (valueAt m)).sum ≤ total m := by
  induction keys generalizing m with
  | nil => simpa using total_nonneg m hnonneg
  | cons k rest ih =>
    obtain ⟨hk, hrest⟩ := List.nodup_cons.mp hnodup
    have herase : ∀ k', 0 ≤ valueAt (m.erase k) k' := by
      intro k'
      rw [valueAt_erase]
      split
      · exact le_rfl
      · exact hnonneg k'
    have hsum : rest.map (valueAt (m.erase k)) = rest.map (valueAt m) := by
      refine List.map_congr_left fun k' hk' => ?_
      rw [valueAt_erase, if_neg (by rintro rfl; exact hk hk')]
    have hle := ih hrest (m.erase k) herase
    rw [hsum, total_erase] at hle
    simp only [List.map_cons, List.sum_cons]
    omega

/-- One key holds at most the total, when no value is negative. -/
theorem valueAt_le_total (m : AList fun _ : K => Int) (hnonneg : ∀ k, 0 ≤ valueAt m k) (k : K) :
    valueAt m k ≤ total m := by
  simpa using sum_valueAt_le_total [k] (List.nodup_singleton k) m hnonneg

end Backit.Lib
