import Mathlib.Data.List.TakeDrop

/-!
# Pages over windows

A list is scanned in windows of a width. A page keeps what a filter makes of the items until a limit
is reached, or a number of windows has been scanned, or the items are used up, and the next page
starts after the last window that was read. What is kept of that window counts, not what is in it:
the pages are complete exactly when no window has more to keep than its page has room for.
-/

namespace Backit.Lib.WindowScan

variable {α β : Type*} (f : α → Option β) (limit width cap : Nat) (items : List α)

/-- What is kept of a window, after what was kept before, up to the limit. -/
def collect : List α → List β → List β
  | [], kept => kept
  | item :: rest, kept =>
    match f item with
    | none => collect rest kept
    | some b => if limit ≤ (kept ++ [b]).length then kept ++ [b] else collect rest (kept ++ [b])

/-- The window at an offset. -/
def window (offset : Nat) : List α := (items.drop offset).take width

/-- What a page keeps, where the next one starts, and whether the last window was full. -/
structure Scanned (β : Type*) where
  kept : List β
  offset : Nat
  full : Bool

/-- Scan so many windows from an offset on. -/
def scan : Nat → Nat → List β → Bool → Scanned β
  | 0, offset, kept, full => ⟨kept, offset, full⟩
  | windows + 1, offset, kept, _ =>
    let read := window width items offset
    let kept := collect f limit read kept
    let full := read.length == width
    if limit ≤ kept.length ∨ read = [] then ⟨kept, offset + read.length, full⟩
    else scan windows (offset + read.length) kept full

/-- A page, and where the next one starts if there is one. -/
def page (offset : Nat) : List β × Option Nat :=
  let s := scan f limit width items cap offset [] false
  (s.kept, if s.full = true ∨ limit ≤ s.kept.length then some s.offset else none)

/-- The pages from an offset on, as long as there is a next one. -/
def follow : Nat → Nat → Option (List (List β))
  | 0, _ => none
  | fuel + 1, offset =>
    match page f limit width cap items offset with
    | (kept, none) => some [kept]
    | (kept, some next) => (follow fuel next).map (kept :: ·)

/-- How much there is to keep in each window of the items. -/
def windowCounts : List Nat :=
  (List.range ((items.length + width - 1) / width)).map fun k =>
    ((window width items (width * k)).filterMap f).length

/-- No page runs over its limit: from so many windows left of a page and so much kept on it, the
counts of the windows never add up to more than the limit. A page ends when they add up to the
limit, and when no window is left. -/
def pagesFit : Nat → Nat → List Nat → Bool
  | _, _, [] => true
  | left, total, count :: counts =>
    let windows := if left = 0 then cap else left
    let sum := (if left = 0 then 0 else total) + count
    if sum < limit then pagesFit (windows - 1) sum counts
    else sum == limit && pagesFit 0 0 counts

section Windows

variable {f limit width cap items} {offset : Nat} {kept : List β}

/-- Room is left for the first of what there is to keep. -/
theorem collect_eq (read : List α) (hkept : kept.length < limit) :
    collect f limit read kept = kept ++ (read.filterMap f).take (limit - kept.length) := by
  induction read generalizing kept with
  | nil => simp [collect]
  | cons item rest ih =>
    unfold collect
    cases hitem : f item with
    | none => simp only [List.filterMap_cons, hitem, ih hkept]
    | some b =>
      have hroom : limit - kept.length = (limit - (kept ++ [b]).length) + 1 := by
        rw [List.length_append, List.length_singleton]
        omega
      simp only [List.filterMap_cons, hitem]
      rw [hroom, List.take_succ_cons]
      split
      · next hfull => rw [Nat.sub_eq_zero_of_le hfull, List.take_zero]
      · next hroom' => rw [ih (by omega), List.append_assoc, List.singleton_append]

theorem drop_window (items : List α) (width offset : Nat) :
    items.drop offset = window width items offset ++
      items.drop (offset + (window width items offset).length) := by
  rw [window, ← List.drop_drop, List.length_take]
  conv_lhs => rw [← List.take_append_drop width (items.drop offset)]
  congr 1
  by_cases hlong : width ≤ (items.drop offset).length
  · rw [Nat.min_eq_left hlong]
  · rw [Nat.min_eq_right (by omega), List.drop_length, List.drop_eq_nil_of_le (by omega)]

theorem offset_add_window_le (width : Nat) (hoffset : offset ≤ items.length) :
    offset + (window width items offset).length ≤ items.length := by
  rw [window, List.length_take, List.length_drop]
  omega

/-- A window that is not full reaches the end. -/
theorem offset_add_window_eq (hoffset : offset ≤ items.length)
    (hpart : (window width items offset).length ≠ width) :
    offset + (window width items offset).length = items.length := by
  rw [window, List.length_take, List.length_drop] at hpart ⊢
  omega

theorem windowCounts_nil : windowCounts f width [] = [] := by
  cases width with
  | zero => simp [windowCounts]
  | succ width => simp [windowCounts]

/-- The first window is counted, and then those of the items after it. -/
theorem windowCounts_drop (hwidth : 0 < width) (hoffset : offset < items.length) :
    windowCounts f width (items.drop offset) =
      ((window width items offset).filterMap f).length ::
        windowCounts f width (items.drop (offset + (window width items offset).length)) := by
  have hrest : 0 < (items.drop offset).length := by
    rw [List.length_drop]
    omega
  have hwindows : ((items.drop offset).length + width - 1) / width =
      ((items.drop (offset + (window width items offset).length)).length + width - 1) / width
        + 1 := by
    rw [window, List.length_take, ← List.drop_drop, List.length_drop (l := items.drop offset)]
    by_cases hlong : width ≤ (items.drop offset).length
    · rw [Nat.min_eq_left hlong, ← Nat.add_div_right _ hwidth]
      congr 1
      omega
    · rw [Nat.min_eq_right (by omega), Nat.sub_self, Nat.zero_add,
        Nat.div_eq_of_lt (show width - 1 < width by omega), Nat.zero_add]
      refine Nat.div_eq_of_lt_le ?_ ?_ <;> omega
  rw [windowCounts, hwindows, List.range_succ_eq_map, List.map_cons, List.map_map]
  have hhead : window width (items.drop offset) (width * 0) = window width items offset := by
    rw [window, Nat.mul_zero, List.drop_zero, window]
  have htail : ∀ k, window width (items.drop offset) (width * (k + 1)) =
      window width (items.drop (offset + (window width items offset).length)) (width * k) := by
    intro k
    rw [window, window, window, List.drop_drop, List.drop_drop, List.length_take]
    by_cases hlong : width ≤ (items.drop offset).length
    · have hoffsets : offset + width * (k + 1) = offset + width + width * k := by
        rw [Nat.mul_add_one]
        omega
      rw [Nat.min_eq_left hlong, hoffsets]
    · have hbeyond : width ≤ width * (k + 1) := Nat.le_mul_of_pos_right _ (Nat.succ_pos k)
      rw [List.length_drop] at hlong ⊢
      rw [List.drop_eq_nil_of_le (by omega), List.drop_eq_nil_of_le (by omega)]
  rw [hhead]
  exact congrArg _ (List.map_congr_left fun k _ => by
    rw [Function.comp_apply, Nat.succ_eq_add_one, htail])

/-- After the last window of a page the next one begins, whatever was kept. -/
theorem pagesFit_zero (total : Nat) (counts : List Nat) :
    pagesFit limit cap 0 total counts = pagesFit limit cap 0 0 counts := by
  cases counts <;> simp [pagesFit]

theorem pagesFit_succ (windows total count : Nat) (counts : List Nat) :
    pagesFit limit cap (windows + 1) total (count :: counts) =
      if total + count < limit then pagesFit limit cap windows (total + count) counts
      else total + count == limit && pagesFit limit cap 0 0 counts := by
  simp [pagesFit]

theorem window_eq_nil (hwidth : 0 < width) (h : window width items offset = []) :
    items.length ≤ offset := by
  have hlength := congrArg List.length h
  rw [window, List.length_take, List.length_drop, List.length_nil] at hlength
  omega

end Windows

section Pages

variable {f limit width cap items} {offset windows : Nat} {kept : List β} {full : Bool}

/-- What a scan has read, what it has kept of it, and what that says of the pages. -/
structure Reads (f : α → Option β) (limit width cap : Nat) (items : List α) (windows offset : Nat)
    (kept : List β) (s : Scanned β) (read : List α) : Prop where
  split : items.drop offset = read ++ items.drop s.offset
  offset_eq : s.offset = offset + read.length
  offset_le : s.offset ≤ items.length
  kept_eq : s.kept = kept ++ (read.filterMap f).take (limit - kept.length)
  fits : pagesFit limit cap windows kept.length (windowCounts f width (items.drop offset)) = true ↔
    kept.length + (read.filterMap f).length ≤ limit ∧
      pagesFit limit cap 0 0 (windowCounts f width (items.drop s.offset)) = true

theorem scan_reads (hwidth : 0 < width) (hkept : kept.length < limit)
    (hoffset : offset ≤ items.length) :
    ∃ read, Reads f limit width cap items windows offset kept
      (scan f limit width items windows offset kept full) read := by
  induction windows generalizing offset kept full with
  | zero =>
    refine ⟨[], rfl, rfl, hoffset, by simp [scan], ?_⟩
    rw [pagesFit_zero]
    simp [scan, Nat.le_of_lt hkept]
  | succ windows ih =>
    have hcollect := collect_eq (f := f) (window width items offset) hkept
    have hend := offset_add_window_le width hoffset
    have hlength : (collect f limit (window width items offset) kept).length =
        kept.length + min (limit - kept.length)
          ((window width items offset).filterMap f).length := by
      rw [hcollect, List.length_append, List.length_take]
    rw [scan]
    by_cases hstop : limit ≤ (collect f limit (window width items offset) kept).length ∨
      window width items offset = []
    · rw [if_pos hstop]
      refine ⟨window width items offset, drop_window .., rfl, hend, hcollect, ?_⟩
      obtain hlast | hmore := Nat.eq_or_lt_of_le hoffset
      · have hnone : window width items offset = [] := by
          rw [window, List.drop_eq_nil_of_le (by omega), List.take_nil]
        have hcounts : ∀ n, windowCounts f width (items.drop (offset + n)) = [] := fun n => by
          rw [List.drop_eq_nil_of_le (by omega), windowCounts_nil]
        have hnow := hcounts 0
        rw [Nat.add_zero] at hnow
        rw [hnow, hcounts, hnone]
        simp [pagesFit, Nat.le_of_lt hkept]
      · have hfull := hstop.resolve_right fun hnone =>
          absurd (window_eq_nil hwidth hnone) (by omega)
        rw [windowCounts_drop hwidth hmore, pagesFit_succ, if_neg (by omega), Bool.and_eq_true,
          beq_iff_eq]
        refine and_congr_left' ?_
        omega
    · rw [if_neg hstop]
      have hmore : offset < items.length := by
        refine Nat.lt_of_le_of_ne hoffset fun hlast => hstop (.inr ?_)
        rw [window, List.drop_eq_nil_of_le (by omega), List.take_nil]
      have hroom : ((window width items offset).filterMap f).length < limit - kept.length := by
        omega
      rw [List.take_of_length_le (by omega)] at hcollect
      obtain ⟨read, hread⟩ := @ih _ (collect f limit (window width items offset) kept)
        ((window width items offset).length == width) (by omega) hend
      refine ⟨window width items offset ++ read, ?_, ?_, hread.offset_le, ?_, ?_⟩
      · rw [List.append_assoc, ← hread.split]
        exact drop_window ..
      · rw [hread.offset_eq, List.length_append, Nat.add_assoc]
      · rw [hread.kept_eq, hcollect, List.filterMap_append, List.append_assoc, List.take_append,
          List.take_of_length_le (Nat.le_of_lt hroom), List.length_append, Nat.sub_sub]
      · rw [windowCounts_drop hwidth hmore, pagesFit_succ, if_pos (by omega),
          List.filterMap_append, List.length_append, ← Nat.add_assoc]
        have hfits := hread.fits
        rw [hlength, Nat.min_eq_right (Nat.le_of_lt hroom)] at hfits
        exact hfits

/-- A scan that stops after a window that is not full, with room left, is at the end. -/
theorem scan_done (hoffset : offset ≤ items.length)
    (hbefore : windows = 0 → full = false → offset = items.length)
    (hfull : (scan f limit width items windows offset kept full).full = false)
    (hroom : (scan f limit width items windows offset kept full).kept.length < limit) :
    (scan f limit width items windows offset kept full).offset = items.length := by
  induction windows generalizing offset kept full with
  | zero => exact hbefore rfl hfull
  | succ windows ih =>
    have hend := offset_add_window_le width hoffset
    have hpart : ((window width items offset).length == width) = false →
        offset + (window width items offset).length = items.length := fun h =>
      offset_add_window_eq hoffset (by simpa using h)
    rw [scan] at hfull hroom ⊢
    split at hfull
    · next hstop =>
      rw [if_pos hstop]
      exact hpart hfull
    · next hstop =>
      rw [if_neg hstop] at hroom ⊢
      exact ih hend (fun _ => hpart) hfull hroom

/-- A scan that stops after a full window has moved on by one. -/
theorem scan_full {start : Nat} (hstart : start ≤ offset)
    (hbefore : windows = 0 → full = true → start + width ≤ offset)
    (hfull : (scan f limit width items windows offset kept full).full = true) :
    start + width ≤ (scan f limit width items windows offset kept full).offset := by
  induction windows generalizing offset kept full with
  | zero => exact hbefore rfl hfull
  | succ windows ih =>
    have hwhole : ((window width items offset).length == width) = true →
        start + width ≤ offset + (window width items offset).length := by
      intro h
      rw [beq_iff_eq] at h
      omega
    rw [scan] at hfull ⊢
    split at hfull
    · next hstop =>
      rw [if_pos hstop]
      exact hwhole hfull
    · next hstop =>
      rw [if_neg hstop]
      exact ih (by omega) (fun _ => hwhole) hfull

end Pages

section Following

variable {f limit width cap items} {offset fuel : Nat} {pages : List (List β)}

/-- A new page has all its windows left. -/
theorem pagesFit_new (hcap : 0 < cap) (counts : List Nat) :
    pagesFit limit cap cap 0 counts = pagesFit limit cap 0 0 counts := by
  cases counts <;> simp [pagesFit, Nat.ne_of_gt hcap]

/-- What a page has read, and what is left after it: nothing without a next page, and else what the
next one starts with, further on. -/
structure PageReads (f : α → Option β) (limit width cap : Nat) (items : List α) (offset : Nat)
    (read rest : List α) : Prop where
  split : items.drop offset = read ++ rest
  kept_eq : (page f limit width cap items offset).1 = (read.filterMap f).take limit
  fits : pagesFit limit cap 0 0 (windowCounts f width (items.drop offset)) = true ↔
    (read.filterMap f).length ≤ limit ∧ pagesFit limit cap 0 0 (windowCounts f width rest) = true
  last : (page f limit width cap items offset).2 = none → rest = []
  next : ∀ next, (page f limit width cap items offset).2 = some next →
    offset < next ∧ next ≤ items.length ∧ rest = items.drop next

theorem page_reads (hwidth : 0 < width) (hlimit : 0 < limit) (hcap : 0 < cap)
    (hoffset : offset ≤ items.length) :
    ∃ read rest, PageReads f limit width cap items offset read rest := by
  obtain ⟨read, hread⟩ : ∃ read, Reads f limit width cap items cap offset []
      (scan f limit width items cap offset [] false) read := scan_reads hwidth hlimit hoffset
  have hkept := hread.kept_eq
  rw [List.nil_append, List.length_nil, Nat.sub_zero] at hkept
  have hfits := hread.fits
  rw [List.length_nil, pagesFit_new hcap, Nat.zero_add] at hfits
  refine ⟨read, _, hread.split, hkept, hfits, fun hlast => ?_, fun next hnext => ?_⟩
  · simp only [page, ite_eq_right_iff, reduceCtorEq, imp_false, not_or, Bool.not_eq_true,
      Nat.not_le] at hlast
    have hend := scan_done hoffset (fun hzero => absurd hzero (Nat.ne_of_gt hcap)) hlast.1 hlast.2
    rw [hend, List.drop_length]
  · simp only [page, Option.ite_none_right_eq_some, Option.some.injEq] at hnext
    obtain ⟨hmore, rfl⟩ := hnext
    refine ⟨?_, hread.offset_le, rfl⟩
    obtain hfull | hreached := hmore
    · have hmoved := scan_full (Nat.le_refl offset) (fun hzero => absurd hzero (Nat.ne_of_gt hcap)) hfull
      omega
    · -- What fills the page was read.
      rw [hread.offset_eq]
      rw [hkept, List.length_take] at hreached
      have hread' := List.length_filterMap_le f read
      omega

/-- Following the pages ends. -/
theorem follow_terminates (hwidth : 0 < width) (hlimit : 0 < limit) (hcap : 0 < cap)
    (hoffset : offset ≤ items.length) (hfuel : items.length - offset < fuel) :
    ∃ pages, follow f limit width cap items fuel offset = some pages := by
  induction fuel generalizing offset with
  | zero => omega
  | succ fuel ih =>
    obtain ⟨read, rest, hreads⟩ := page_reads (f := f) hwidth hlimit hcap hoffset
    cases hpage : page f limit width cap items offset with
    | mk kept following =>
      cases following with
      | none => exact ⟨[kept], by rw [follow, hpage]⟩
      | some next =>
        obtain ⟨hlater, hwithin, -⟩ := hreads.next next (by rw [hpage])
        obtain ⟨pages, hpages⟩ := ih hwithin (by omega)
        exact ⟨kept :: pages, by rw [follow, hpage]; simp [hpages]⟩

/-- The first page, and the pages after it. -/
theorem follow_pages (hwidth : 0 < width) (hlimit : 0 < limit) (hcap : 0 < cap)
    (hoffset : offset ≤ items.length)
    (hfollow : follow f limit width cap items (fuel + 1) offset = some pages) :
    ∃ read rest later, PageReads f limit width cap items offset read rest ∧
      pages = (read.filterMap f).take limit :: later ∧
      (rest = [] ∧ later = [] ∨ ∃ next, next ≤ items.length ∧ rest = items.drop next ∧
        follow f limit width cap items fuel next = some later) := by
  obtain ⟨read, rest, hreads⟩ := page_reads (f := f) hwidth hlimit hcap hoffset
  have hkept := hreads.kept_eq
  rw [follow] at hfollow
  split at hfollow
  · next kept hpage =>
    cases hfollow
    rw [hpage] at hkept
    exact ⟨read, rest, [], hreads, by rw [← hkept], .inl ⟨hreads.last (by rw [hpage]), rfl⟩⟩
  · next kept next hpage =>
    obtain ⟨later, hlater, rfl⟩ := Option.map_eq_some_iff.mp hfollow
    obtain ⟨-, hwithin, hrest⟩ := hreads.next next (by rw [hpage])
    rw [hpage] at hkept
    exact ⟨read, rest, later, hreads, by rw [← hkept], .inr ⟨next, hwithin, hrest, hlater⟩⟩

/-- No page runs over its limit. -/
theorem follow_page_le (hwidth : 0 < width) (hlimit : 0 < limit) (hcap : 0 < cap)
    (hoffset : offset ≤ items.length)
    (hfollow : follow f limit width cap items fuel offset = some pages) :
    ∀ page ∈ pages, page.length ≤ limit := by
  induction fuel generalizing offset pages with
  | zero => cases hfollow
  | succ fuel ih =>
    obtain ⟨read, rest, later, -, rfl, hrest⟩ := follow_pages hwidth hlimit hcap hoffset hfollow
    intro page hpage
    obtain rfl | hpage := List.mem_cons.mp hpage
    · exact List.length_take_le ..
    · obtain ⟨-, rfl⟩ | ⟨next, hwithin, -, hlater⟩ := hrest
      · cases hpage
      · exact ih hwithin hlater page hpage

/-- The pages hold no more than there is to keep. -/
theorem length_flatten_follow_le (hwidth : 0 < width) (hlimit : 0 < limit) (hcap : 0 < cap)
    (hoffset : offset ≤ items.length)
    (hfollow : follow f limit width cap items fuel offset = some pages) :
    pages.flatten.length ≤ ((items.drop offset).filterMap f).length := by
  induction fuel generalizing offset pages with
  | zero => cases hfollow
  | succ fuel ih =>
    obtain ⟨read, rest, later, hreads, rfl, hrest⟩ :=
      follow_pages hwidth hlimit hcap hoffset hfollow
    have hlater : later.flatten.length ≤ (rest.filterMap f).length := by
      obtain ⟨-, rfl⟩ | ⟨next, hwithin, rfl, hlater⟩ := hrest
      · exact Nat.zero_le _
      · exact ih hwithin hlater
    rw [hreads.split, List.filterMap_append, List.flatten_cons, List.length_append,
      List.length_append, List.length_take]
    omega

/-- The pages hold all there is to keep, in order, exactly when none has more than it has room
for. -/
theorem follow_complete_iff (hwidth : 0 < width) (hlimit : 0 < limit) (hcap : 0 < cap)
    (hoffset : offset ≤ items.length)
    (hfollow : follow f limit width cap items fuel offset = some pages) :
    pages.flatten = (items.drop offset).filterMap f ↔
      pagesFit limit cap 0 0 (windowCounts f width (items.drop offset)) = true := by
  induction fuel generalizing offset pages with
  | zero => cases hfollow
  | succ fuel ih =>
    obtain ⟨read, rest, later, hreads, rfl, hrest⟩ :=
      follow_pages hwidth hlimit hcap hoffset hfollow
    have hlater : later.flatten.length ≤ (rest.filterMap f).length ∧
        (later.flatten = rest.filterMap f ↔
          pagesFit limit cap 0 0 (windowCounts f width rest) = true) := by
      obtain ⟨rfl, rfl⟩ | ⟨next, hwithin, rfl, hlater⟩ := hrest
      · rw [windowCounts_nil]
        exact ⟨Nat.zero_le _, by simp [pagesFit]⟩
      · exact ⟨length_flatten_follow_le hwidth hlimit hcap hwithin hlater, ih hwithin hlater⟩
    rw [hreads.fits, hreads.split, List.filterMap_append, List.flatten_cons]
    by_cases hroom : (read.filterMap f).length ≤ limit
    · rw [List.take_of_length_le hroom, List.append_cancel_left_eq, hlater.2]
      exact ⟨fun hfits => ⟨hroom, hfits⟩, And.right⟩
    · refine ⟨fun heq => ?_, fun hfits => absurd hfits.1 hroom⟩
      have hlengths := congrArg List.length heq
      rw [List.length_append, List.length_append, List.length_take] at hlengths
      omega

end Following

end Backit.Lib.WindowScan
