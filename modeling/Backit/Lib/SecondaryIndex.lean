import Mathlib.Algebra.Order.BigOperators.Group.List
import Mathlib.Data.List.AList
import Mathlib.Data.List.Nodup
import Mathlib.Logic.Function.Basic
import Mathlib.Tactic.Linarith

/-!
# Indexes beside a map

## Lists with a membership flag

A list that is extended at its end, together with a flag per element that tells whether the
element is already there. The flag agrees with membership and the list has no duplicates; both
are fields, so a list that violates them cannot be built.
-/

namespace Backit.Lib

/-- A duplicate-free list with a flag per element. -/
structure SeenList (α : Type*) where
  items : List α
  seen : α → Bool
  seen_iff : ∀ a, seen a = true ↔ a ∈ items
  nodup : items.Nodup

namespace SeenList

variable {α : Type*}

/-- The list without elements. -/
def empty : SeenList α where
  items := []
  seen _ := false
  seen_iff := by simp
  nodup := List.nodup_nil

variable [DecidableEq α]

/-- Append an element unless its flag is set. -/
def add (l : SeenList α) (a : α) : SeenList α :=
  if h : l.seen a then l
  else
    { items := l.items ++ [a]
      seen := Function.update l.seen a true
      seen_iff := by
        intro b
        by_cases hb : b = a
        · simp [hb]
        · simp [hb, l.seen_iff b]
      nodup := by
        have ha : a ∉ l.items := fun hmem => h ((l.seen_iff a).mpr hmem)
        exact List.nodup_append.mpr ⟨l.nodup, List.nodup_singleton a, by
          intro x hx y hy
          simp only [List.mem_singleton] at hy
          rintro rfl
          exact ha (hy ▸ hx)⟩ }

omit [DecidableEq α] in
@[simp] theorem items_empty : (empty : SeenList α).items = [] := rfl

@[simp] theorem mem_items_add (l : SeenList α) (a b : α) :
    b ∈ (l.add a).items ↔ b ∈ l.items ∨ b = a := by
  unfold add
  split
  · next h =>
    have ha : a ∈ l.items := (l.seen_iff a).mp h
    constructor
    · exact .inl
    · rintro (hb | rfl)
      · exact hb
      · exact ha
  · simp

end SeenList

/-!
## Secondary indexes

Rows are stored under an id, and an index lists, for every key, the ids of the rows with that key.
`Indexes` says that the index lists each of these exactly once and lists nothing else. It is kept
by entering a fresh row at the end of its key's list and by removing a row from store and list.
`sumRows` totals a quantity over the stored rows.
-/

variable {I K V : Type*} [DecidableEq I]

omit [DecidableEq I] in
/-- The sum of a quantity over the stored rows. -/
def sumRows (quantity : V → Int) (store : AList fun _ : I => V) : Int :=
  (store.entries.map fun row => quantity row.2).sum

omit [DecidableEq I] in
@[simp] theorem sumRows_empty (quantity : V → Int) :
    sumRows quantity (∅ : AList fun _ : I => V) = 0 := rfl

/-- A fresh row adds its own quantity. -/
theorem sumRows_insert (quantity : V → Int) {store : AList fun _ : I => V} {i : I} {v : V}
    (hfresh : store.lookup i = none) :
    sumRows quantity (store.insert i v) = sumRows quantity store + quantity v := by
  have hmem : i ∉ store := AList.lookup_eq_none.mp hfresh
  rw [sumRows, AList.entries_insert_of_notMem hmem, List.map_cons, List.sum_cons]
  exact add_comm _ _

/-- Erasing from an entry list removes what a lookup finds. -/
theorem sum_rows_kerase (quantity : V → Int) {i : I} {v : V} (l : List (Sigma fun _ : I => V))
    (hlookup : l.dlookup i = some v) :
    ((l.kerase i).map fun row => quantity row.2).sum =
      (l.map fun row => quantity row.2).sum - quantity v := by
  induction l with
  | nil => cases hlookup
  | cons entry rest ih =>
    obtain ⟨j, w⟩ := entry
    by_cases h : i = j
    · subst h
      rw [List.dlookup_cons_eq, Option.some.injEq] at hlookup
      subst hlookup
      have hrest : (⟨i, w⟩ :: rest : List (Sigma fun _ : I => V)).kerase i = rest :=
        List.kerase_cons_eq rfl
      rw [hrest, List.map_cons, List.sum_cons]
      exact (add_sub_cancel_left _ _).symm
    · have hrest : (⟨j, w⟩ :: rest : List (Sigma fun _ : I => V)).kerase i =
          ⟨j, w⟩ :: rest.kerase i := List.kerase_cons_ne h
      rw [List.dlookup_cons_ne _ _ h] at hlookup
      rw [hrest, List.map_cons, List.map_cons, List.sum_cons, List.sum_cons, ih hlookup,
        add_sub_assoc]

/-- An erased row takes its quantity with it. -/
theorem sumRows_erase (quantity : V → Int) {store : AList fun _ : I => V} {i : I} {v : V}
    (hlookup : store.lookup i = some v) :
    sumRows quantity (store.erase i) = sumRows quantity store - quantity v :=
  sum_rows_kerase quantity store.entries hlookup

/-- A replaced row changes the sum by the difference of the quantities. -/
theorem sumRows_replace (quantity : V → Int) {store : AList fun _ : I => V} {i : I} {v : V}
    (hlookup : store.lookup i = some v) (w : V) :
    sumRows quantity (store.insert i w) = sumRows quantity store - quantity v + quantity w := by
  rw [sumRows, AList.entries_insert, List.map_cons, List.sum_cons,
    sum_rows_kerase quantity store.entries hlookup]
  exact add_comm _ _

/-- A row is within the sum of rows that are not negative. -/
theorem quantity_le_sumRows (quantity : V → Int) {store : AList fun _ : I => V} {i : I} {v : V}
    (hnonneg : ∀ v, 0 ≤ quantity v) (hlookup : store.lookup i = some v) :
    quantity v ≤ sumRows quantity store := by
  have hrest : 0 ≤ sumRows quantity (store.erase i) := by
    refine List.sum_nonneg fun x hx => ?_
    obtain ⟨row, -, rfl⟩ := List.mem_map.mp hx
    exact hnonneg row.2
  rw [sumRows_erase quantity hlookup] at hrest
  omega

/-- Rows with positive quantities have a positive sum, and only no rows have none. -/
theorem sumRows_eq_zero_iff (quantity : V → Int) {store : AList fun _ : I => V}
    (hpositive : ∀ i v, store.lookup i = some v → 0 < quantity v) :
    0 ≤ sumRows quantity store ∧ (sumRows quantity store = 0 ↔ store = ∅) := by
  have hrows : ∀ x ∈ store.entries.map fun row => quantity row.2, 0 < x := by
    intro x hx
    obtain ⟨⟨i, v⟩, hrow, rfl⟩ := List.mem_map.mp hx
    exact hpositive i v (AList.mem_lookup_iff.mpr hrow)
  have hnonneg : 0 ≤ sumRows quantity store := List.sum_nonneg fun x hx => (hrows x hx).le
  refine ⟨hnonneg, fun hzero => ?_, fun hempty => by rw [hempty, sumRows_empty]⟩
  refine AList.ext ?_
  by_contra hentries
  obtain ⟨row, rest, hcons⟩ := List.exists_cons_of_ne_nil hentries
  unfold sumRows at hzero
  rw [hcons, List.map_cons] at hrows hzero
  have hrest : 0 ≤ (rest.map fun row => quantity row.2).sum :=
    List.sum_nonneg fun x hx => (hrows x (.tail _ hx)).le
  have hfirst := hrows _ (.head _)
  rw [List.sum_cons] at hzero
  omega

/-- The index lists the id of every row under the row's key, once, and nothing else. -/
structure Indexes (key : V → K) (store : AList fun _ : I => V) (index : K → List I) : Prop where
  nodup : ∀ k, (index k).Nodup
  mem_iff : ∀ k i, i ∈ index k ↔ ∃ v, store.lookup i = some v ∧ key v = k

namespace Indexes

variable {key : V → K} {store : AList fun _ : I => V} {index : K → List I} {i : I} {v : V}

theorem empty : Indexes key (∅ : AList fun _ : I => V) fun _ => [] where
  nodup _ := .nil
  mem_iff := by simp

variable [DecidableEq K]

/-- A fresh row is entered at the end of its key's list. -/
theorem insert (h : Indexes key store index) (hfresh : store.lookup i = none) :
    Indexes key (store.insert i v)
      (Function.update index (key v) (index (key v) ++ [i])) where
  nodup k := by
    by_cases hk : k = key v
    · subst hk
      have hunlisted : i ∉ index (key v) := fun hlisted => by
        obtain ⟨_, hstored, -⟩ := (h.mem_iff _ _).mp hlisted
        rw [hfresh] at hstored
        cases hstored
      rw [Function.update_self]
      exact (h.nodup _).append (List.nodup_singleton i) (by simpa using hunlisted)
    · rw [Function.update_of_ne hk]
      exact h.nodup k
  mem_iff k j := by
    have hother : ∀ k', j ≠ i → (j ∈ index k' ↔
        ∃ w, (store.insert i v).lookup j = some w ∧ key w = k') := fun k' hj => by
      rw [AList.lookup_insert_ne hj, h.mem_iff]
    by_cases hj : j = i
    · subst hj
      have hunlisted : ∀ k', j ∉ index k' := fun k' hlisted => by
        obtain ⟨_, hstored, -⟩ := (h.mem_iff _ _).mp hlisted
        rw [hfresh] at hstored
        cases hstored
      by_cases hk : k = key v
      · subst hk
        simp
      · simp [Function.update_of_ne hk, hunlisted k, Ne.symm hk]
    · by_cases hk : k = key v
      · subst hk
        simpa [hj] using hother (key v) hj
      · rw [Function.update_of_ne hk]
        exact hother k hj

/-- A row is erased together with its entry in its key's list. -/
theorem erase_with (h : Indexes key store index) (hstored : store.lookup i = some v)
    {remaining : List I} (hnodup : remaining.Nodup)
    (hremaining : ∀ j, j ∈ remaining ↔ j ∈ index (key v) ∧ j ≠ i) :
    Indexes key (store.erase i) (Function.update index (key v) remaining) where
  nodup k := by
    by_cases hk : k = key v
    · subst hk
      rwa [Function.update_self]
    · rw [Function.update_of_ne hk]
      exact h.nodup k
  mem_iff k j := by
    by_cases hj : j = i
    · subst hj
      by_cases hk : k = key v
      · subst hk
        simp [hremaining]
      · have hunlisted : j ∉ index k := fun hlisted => by
          obtain ⟨w, hw, rfl⟩ := (h.mem_iff _ _).mp hlisted
          rw [hstored, Option.some.injEq] at hw
          exact hk (hw ▸ rfl)
        simp [Function.update_of_ne hk, hunlisted]
    · rw [AList.lookup_erase_ne hj]
      by_cases hk : k = key v
      · subst hk
        rw [Function.update_self, hremaining, h.mem_iff]
        exact and_iff_left hj
      · rw [Function.update_of_ne hk, h.mem_iff]

/-- Removing an erased row's id from its key's list by a filter. -/
theorem erase (h : Indexes key store index) (hstored : store.lookup i = some v) :
    Indexes key (store.erase i)
      (Function.update index (key v) ((index (key v)).filter (· ≠ i))) :=
  h.erase_with hstored ((h.nodup _).filter _) (by simp)

end Indexes

end Backit.Lib
