import Mathlib.Data.List.Sort

/-!
# Rows and pages in order

## Rows in sequence order

A table that is read in the order of a sequence number splits, at any number, into the rows up to it
and the rows beyond it.
-/

namespace Backit.Lib

variable {α : Type*} {sequence : α → Nat} {rows part : List α} {n : Nat}

/-- The rows are in sequence order. -/
def Sequenced (sequence : α → Nat) (rows : List α) : Prop :=
  rows.Pairwise fun a b => sequence a ≤ sequence b

def insertRow (sequence : α → Nat) (row : α) (rows : List α) : List α :=
  rows.orderedInsert (fun a b => sequence a ≤ sequence b) row

def rowsUpTo (sequence : α → Nat) (n : Nat) (rows : List α) : List α :=
  rows.filter fun row => decide (sequence row ≤ n)

def rowsBeyond (sequence : α → Nat) (n : Nat) (rows : List α) : List α :=
  rows.filter fun row => decide (n < sequence row)

/-- The rows from a number on and below another. -/
def rowsBetween (sequence : α → Nat) (low high : Nat) (rows : List α) : List α :=
  rows.filter fun row => decide (low ≤ sequence row ∧ sequence row < high)

theorem mem_insertRow {row other : α} :
    other ∈ insertRow sequence row rows ↔ other = row ∨ other ∈ rows :=
  List.mem_orderedInsert _

theorem sublist_insertRow (row : α) : rows.Sublist (insertRow sequence row rows) :=
  List.sublist_orderedInsert _ _

theorem Sequenced.insertRow (h : Sequenced sequence rows) (row : α) :
    Sequenced sequence (insertRow sequence row rows) := by
  have : Std.Total fun a b : α => sequence a ≤ sequence b := ⟨fun a b => Nat.le_total _ _⟩
  have : IsTrans α fun a b => sequence a ≤ sequence b := ⟨fun _ _ _ => Nat.le_trans⟩
  exact List.Pairwise.orderedInsert row rows h

/-- The rows up to a number come first. -/
theorem rowsUpTo_append_rowsBeyond (h : Sequenced sequence rows) (n : Nat) :
    rowsUpTo sequence n rows ++ rowsBeyond sequence n rows = rows := by
  induction rows with
  | nil => rfl
  | cons row rows ih =>
    obtain ⟨hrow, hrows⟩ := List.pairwise_cons.mp h
    have ih := ih hrows
    unfold rowsUpTo rowsBeyond at ih ⊢
    by_cases hle : sequence row ≤ n
    · simp [hle, Nat.not_lt.mpr hle, ih]
    · have hnone : rows.filter (fun row => decide (sequence row ≤ n)) = [] := by
        rw [List.filter_eq_nil_iff]
        intro other hother
        have := hrow other hother
        simp only [decide_eq_true_eq]
        omega
      rw [hnone, List.nil_append] at ih
      simp [hle, Nat.lt_of_not_le hle, hnone, ih]

theorem length_rowsUpTo_add (h : Sequenced sequence rows) (n : Nat) :
    (rowsUpTo sequence n rows).length + (rowsBeyond sequence n rows).length = rows.length := by
  rw [← List.length_append, rowsUpTo_append_rowsBeyond h]

/-- A part of the rows up to a number, followed by the rows beyond it, is a part of all rows. -/
theorem append_rowsBeyond_sublist (h : Sequenced sequence rows)
    (hpart : part.Sublist (rowsUpTo sequence n rows)) :
    (part ++ rowsBeyond sequence n rows).Sublist rows := by
  calc (part ++ rowsBeyond sequence n rows).Sublist
        (rowsUpTo sequence n rows ++ rowsBeyond sequence n rows) := hpart.append_right _
    _ = rows := rowsUpTo_append_rowsBeyond h n

theorem rowsUpTo_sublist_insertRow (row : α) :
    (rowsUpTo sequence n rows).Sublist (rowsUpTo sequence n (insertRow sequence row rows)) :=
  (sublist_insertRow row).filter _

/-- A row beyond a number is not among the rows up to it. -/
theorem rowsUpTo_insertRow {row : α} (hrow : n < sequence row) :
    rowsUpTo sequence n (insertRow sequence row rows) = rowsUpTo sequence n rows := by
  unfold insertRow rowsUpTo
  induction rows with
  | nil => simp [hrow]
  | cons other rows ih =>
    rw [List.orderedInsert_cons]
    split
    · rw [List.filter_cons_of_neg (by simpa using hrow)]
    · simp only [List.filter_cons, ih]

/-- Up to the sequence number of the last row there is everything. -/
theorem rowsUpTo_last (h : Sequenced sequence rows) {last : α} (hlast : rows.getLast? = some last) :
    rowsUpTo sequence (sequence last) rows = rows := by
  obtain ⟨front, rfl⟩ := List.getLast?_eq_some_iff.mp hlast
  have hfront := (List.pairwise_append.mp h).2.2
  unfold rowsUpTo
  rw [List.filter_eq_self]
  intro row hrow
  simp only [decide_eq_true_eq]
  rcases List.mem_append.mp hrow with hrow | hrow
  · exact hfront row hrow last (by simp)
  · rw [List.mem_singleton.mp hrow]

/-- Neighbouring stretches of rows join. -/
theorem rowsBetween_append (h : Sequenced sequence rows) {low middle high : Nat}
    (hlow : low ≤ middle) (hhigh : middle ≤ high) :
    rowsBetween sequence low middle rows ++ rowsBetween sequence middle high rows =
      rowsBetween sequence low high rows := by
  induction rows with
  | nil => rfl
  | cons row rows ih =>
    obtain ⟨hrow, hrows⟩ := List.pairwise_cons.mp h
    have ih := ih hrows
    unfold rowsBetween at ih ⊢
    by_cases hbefore : sequence row < middle
    · have hmiddle : ¬ (middle ≤ sequence row ∧ sequence row < high) := by omega
      have hsame : (low ≤ sequence row ∧ sequence row < middle) ↔
          (low ≤ sequence row ∧ sequence row < high) := by omega
      simp only [List.filter_cons, hmiddle, hsame, decide_false, Bool.false_eq_true, if_false]
      split
      · rw [List.cons_append, ih]
      · exact ih
    · have hnone : (row :: rows).filter
          (fun row => decide (low ≤ sequence row ∧ sequence row < middle)) = [] := by
        rw [List.filter_eq_nil_iff]
        intro other hother
        simp only [decide_eq_true_eq]
        rcases List.mem_cons.mp hother with rfl | hother
        · omega
        · have := hrow other hother
          omega
      have hnone' : rows.filter
          (fun row => decide (low ≤ sequence row ∧ sequence row < middle)) = [] := by
        rw [List.filter_cons_of_neg (by simp; omega)] at hnone
        exact hnone
      have hsame : (middle ≤ sequence row ∧ sequence row < high) ↔
          (low ≤ sequence row ∧ sequence row < high) := by omega
      rw [hnone', List.nil_append] at ih
      rw [hnone, List.nil_append, List.filter_cons, List.filter_cons, ih]
      simp only [hsame]

end Backit.Lib

/-!
## Reading a listing page by page

A client asks for a page from a position on, continues after the last entry that it got, and stops
at an empty page. If each page is the first entries of a sorted listing from its position on, the
client sees every entry once, in order, and stops.
-/

namespace Backit.Lib

variable {α : Type} {key : α → Nat} {bound size start : Nat} {page : Nat → Option (List α)}

/-- Asking for page after page from a position on ends with an empty page and yields these entries.
Only positions below `bound` can be asked for. -/
inductive Enumerates (key : α → Nat) (bound : Nat) (page : Nat → Option (List α)) :
    Nat → List α → Prop
  | finished {start : Nat} :
      start < bound → page start = some [] → Enumerates key bound page start []
  | continued {start : Nat} {front rest : List α} {last : α} :
      start < bound → page start = some (front ++ [last]) →
      Enumerates key bound page (key last + 1) rest →
      Enumerates key bound page start (front ++ last :: rest)

/-- In a sorted listing, what is past an entry is what stands behind it. -/
theorem filter_past_entry {front back : List α} {last : α}
    (hsorted : (front ++ last :: back).Pairwise (key · < key ·)) :
    (front ++ last :: back).filter (key last + 1 ≤ key ·) = back := by
  obtain ⟨-, hback, hfront⟩ := List.pairwise_append.mp hsorted
  have hbefore : front.filter (key last + 1 ≤ key ·) = [] := by
    refine List.filter_eq_nil_iff.mpr fun a ha => ?_
    have := hfront a ha last List.mem_cons_self
    simp only [decide_eq_true_eq]
    omega
  have hbehind : back.filter (key last + 1 ≤ key ·) = back := by
    refine List.filter_eq_self.mpr fun a ha => ?_
    have := List.rel_of_pairwise_cons hback ha
    simp only [decide_eq_true_eq]
    omega
  rw [List.filter_append, hbefore, List.filter_cons_of_neg (by simp), hbehind, List.nil_append]

/-- Pages that are the first entries of a sorted listing enumerate what the listing has from the
position on. -/
theorem enumerates_sorted {items : List α} (hsize : 0 < size)
    (hsorted : items.Pairwise (key · < key ·)) (hkeys : ∀ a ∈ items, key a + 1 < bound)
    (hpage : ∀ start < bound, page start = some ((items.filter (start ≤ key ·)).take size))
    (hstart : start < bound) :
    Enumerates key bound page start (items.filter (start ≤ key ·)) := by
  -- The rest of the listing gets shorter with every page.
  induction hlength : (items.filter (start ≤ key ·)).length using Nat.strongRecOn
    generalizing start with
  | ind length ih =>
    obtain hempty | ⟨front, last, htaken⟩ :=
      ((items.filter (start ≤ key ·)).take size).eq_nil_or_concat
    · have hnil : items.filter (start ≤ key ·) = [] := by
        rcases List.take_eq_nil_iff.mp hempty with hzero | hnil
        · omega
        · exact hnil
      rw [hnil]
      exact .finished hstart (by rw [hpage start hstart, hnil, List.take_nil])
    · have hsplit : items.filter (start ≤ key ·) =
          front ++ last :: (items.filter (start ≤ key ·)).drop size := by
        have happend := List.take_append_drop size (items.filter (start ≤ key ·))
        rw [htaken, List.concat_eq_append, List.append_assoc, List.singleton_append] at happend
        exact happend.symm
      generalize (items.filter (start ≤ key ·)).drop size = back at hsplit
      have hlast : last ∈ items.filter (start ≤ key ·) := by simp [hsplit]
      obtain ⟨hmem, hfrom⟩ := List.mem_filter.mp hlast
      have hrest : items.filter (key last + 1 ≤ key ·) = back := by
        have hpast : (front ++ last :: back).filter (key last + 1 ≤ key ·) = back :=
          filter_past_entry (hsplit ▸ hsorted.filter _)
        rw [← hsplit, List.filter_filter] at hpast
        refine (List.filter_congr fun a _ => ?_).trans hpast
        simp only [decide_eq_true_eq] at hfrom
        simp only [← Bool.decide_and, decide_eq_decide]
        omega
      have hbehind := ih back.length (by simp [← hlength, hsplit]; omega)
        (hkeys last hmem) (by rw [hrest])
      rw [hrest] at hbehind
      rw [hsplit]
      exact .continued hstart (by rw [hpage start hstart, htaken, List.concat_eq_append]) hbehind

end Backit.Lib
