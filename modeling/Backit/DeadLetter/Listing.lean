import Backit.DeadLetter.Entries
import Backit.Lib.Base64Url
import Backit.Lib.WindowScan

/-!
# Listing dead-letter entries

A page of the list is filled from windows of the queue, and its cursor is the number of jobs that
were read so far. A page that is full in the middle of a window leaves the rest of the window to
nobody.
-/

namespace Backit.DeadLetter

open Lib

structure Job where
  id : String
  payload : DeadLetterPayload

structure ListDeadLetterEntriesQuery where
  cursor : Option String
  limit : Option Int
  sourceQueue : Option QueueName
  classification : Option DeadLetterClassification
  replayStatus : Option ReplayStatus
  since : Option String
  until_ : Option String

structure ListDeadLetterEntriesResult where
  entries : List DeadLetterEntry
  nextCursor : Option String

def listScanWindow : Nat := 200

/-- The digits as bytes, and these in base64. -/
def encodeCursor (offset : Nat) : String :=
  String.ofList (Base64Url.encode ((toString offset).toList.map fun c => UInt8.ofNat c.toNat))

section Listing

-- What `Number` makes of a text that has other characters than digits, in a cursor, and
-- `Date.parse`, with nothing for a text that is no date.
variable (other : List Char → Nat) (dateParse : String → Option Int)

def decodeCursor (cursor : String) : Nat :=
  let text := (Base64Url.decode cursor.toList).map fun b => Char.ofNat b.toNat
  if text.all isAsciiDigit then Nat.ofDigitChars 10 text 0 else other text

/-- A date that is compared with: none for a text that is missing or empty. -/
def bound (text : Option String) : Option (Option Int) := (text.filter (· ≠ "")).map dateParse

/-- A comparison with a date that is none does not hold. -/
def isBefore : Option Int → Option Int → Bool
  | some a, some b => a < b
  | _, _ => false

namespace ListDeadLetterEntriesQuery

variable (query : ListDeadLetterEntriesQuery)

def pageLimit : Nat := (min (max (query.limit.getD 20) 1) 100).toNat

/-- The entry passes the filters. -/
def keeps (entry : DeadLetterEntry) : Bool :=
  query.sourceQueue.all (· = entry.sourceQueue) &&
    query.classification.all (· = entry.classification) &&
    query.replayStatus.all (· = entry.replayStatus) &&
    (bound dateParse query.since).all (fun fromMs => !isBefore (dateParse entry.movedAt) fromMs) &&
    (bound dateParse query.until_).all fun toMs => !isBefore toMs (dateParse entry.movedAt)

/-- The entry of a job, if it passes the filters. -/
def entryOf (job : Job) : Option DeadLetterEntry :=
  let entry := normalizeEntry job.id job.payload
  if query.keeps dateParse entry then some entry else none

def startOffset : Nat :=
  match query.cursor with
  | some cursor => if cursor = "" then 0 else decodeCursor other cursor
  | none => 0

end ListDeadLetterEntriesQuery

/-- A page of at most twenty windows of the waiting jobs. -/
def listEntries (jobs : List Job) (query : ListDeadLetterEntriesQuery) :
    ListDeadLetterEntriesResult :=
  let (entries, next) := WindowScan.page (query.entryOf dateParse) query.pageLimit listScanWindow 20
    jobs (query.startOffset other)
  ⟨entries, next.map encodeCursor⟩

/-- The pages from a query on, as long as there is a next cursor. -/
def followCursors (jobs : List Job) : Nat → ListDeadLetterEntriesQuery →
    Option (List (List DeadLetterEntry))
  | 0, _ => none
  | fuel + 1, query =>
    let result := listEntries other dateParse jobs query
    match result.nextCursor with
    | none => some [result.entries]
    | some cursor =>
      (followCursors jobs fuel { query with cursor := some cursor }).map (result.entries :: ·)

/-- Following the cursors from the first page ends, and the pages are the entries that pass the
filters, each once and in the order of the queue, and no page has more than were asked for. -/
def ListsAll (jobs : List Job) (query : ListDeadLetterEntriesQuery) : Prop :=
  ∃ fuel pages, followCursors other dateParse jobs fuel { query with cursor := none } = some pages ∧
    pages.flatten = jobs.filterMap (query.entryOf dateParse) ∧
    ∀ page ∈ pages, ∀ limit, query.limit = some limit → 1 ≤ limit → (page.length : Int) ≤ limit

/-- No window has more matching entries than its page has room for: a page ends with the window that
fills it, and after twenty windows. -/
def PagesFit (jobs : List Job) (query : ListDeadLetterEntriesQuery) : Prop :=
  WindowScan.pagesFit query.pageLimit 20 0 0
    (WindowScan.windowCounts (query.entryOf dateParse) listScanWindow jobs) = true

instance (jobs : List Job) (query : ListDeadLetterEntriesQuery) :
    Decidable (PagesFit dateParse jobs query) :=
  inferInstanceAs (Decidable (_ = true))

end Listing

section Cursors

variable {other : List Char → Nat} {dateParse : String → Option Int} {jobs : List Job}
  {query : ListDeadLetterEntriesQuery}

theorem ascii_digit {c : Char} (h : c.isDigit = true) :
    Char.ofNat (UInt8.ofNat c.toNat).toNat = c ∧ isAsciiDigit c = true := by
  have hbounds : 48 ≤ c.toNat ∧ c.toNat ≤ 57 := by
    simpa [Char.isDigit, Char.le_def, UInt32.le_iff_toNat_le] using h
  have hbyte : (UInt8.ofNat c.toNat).toNat = c.toNat := by
    rw [UInt8.toNat_ofNat']
    omega
  refine ⟨by rw [hbyte, Char.ofNat_toNat], ?_⟩
  simpa [isAsciiDigit, Char.le_def, UInt32.le_iff_toNat_le] using hbounds

theorem decodeCursor_encodeCursor (offset : Nat) :
    decodeCursor other (encodeCursor offset) = offset := by
  have htext : (toString offset).toList = Nat.toDigits 10 offset := by
    simp [ToString.toString, Nat.repr]
  have hdigit : ∀ c ∈ Nat.toDigits 10 offset, c.isDigit = true := fun c hc =>
    Nat.isDigit_of_mem_toDigits (by decide) (by decide) hc
  have hread : ((Nat.toDigits 10 offset).map fun c => UInt8.ofNat c.toNat).map
      (fun b => Char.ofNat b.toNat) = Nat.toDigits 10 offset := by
    rw [List.map_map]
    exact (List.map_congr_left fun c hc => (ascii_digit (hdigit c hc)).1).trans (List.map_id _)
  have hall : (Nat.toDigits 10 offset).all isAsciiDigit = true :=
    List.all_eq_true.mpr fun c hc => (ascii_digit (hdigit c hc)).2
  rw [decodeCursor, encodeCursor, String.toList_ofList, Base64Url.decode_encode, htext, hread]
  exact (if_pos hall).trans Nat.ofDigitChars_ten_toDigits

theorem encodeCursor_ne (offset : Nat) : encodeCursor offset ≠ "" := by
  intro hempty
  have htext := congrArg String.toList hempty
  rw [encodeCursor, String.toList_ofList] at htext
  have hbytes := congrArg Base64Url.decode htext
  rw [Base64Url.decode_encode] at hbytes
  exact Nat.repr_ne_empty (String.toList_eq_nil_iff.mp (List.map_eq_nil_iff.mp hbytes))

theorem followCursors_eq (fuel : Nat) : followCursors other dateParse jobs fuel query =
      WindowScan.follow (query.entryOf dateParse) query.pageLimit listScanWindow 20 jobs fuel
        (query.startOffset other) := by
  induction fuel generalizing query with
  | zero => rfl
  | succ fuel ih =>
    rw [followCursors, WindowScan.follow, listEntries]
    cases hpage : WindowScan.page (query.entryOf dateParse) query.pageLimit listScanWindow 20 jobs
      (query.startOffset other) with
    | mk kept following =>
      cases following with
      | none => rfl
      | some next =>
        have hstart : ListDeadLetterEntriesQuery.startOffset other
            { query with cursor := some (encodeCursor next) } = next := by
          exact (if_neg (encodeCursor_ne next)).trans (decodeCursor_encodeCursor next)
        simp only [Option.map_some, ih, hstart]
        rfl

theorem pageLimit_pos (query : ListDeadLetterEntriesQuery) : 0 < query.pageLimit := by
  unfold ListDeadLetterEntriesQuery.pageLimit
  omega

/-- A page is as long as was asked for, if that is positive. -/
theorem pageLimit_le {limit : Int} (hlimit : query.limit = some limit) (hpos : 1 ≤ limit) :
    (query.pageLimit : Int) ≤ limit := by
  rw [ListDeadLetterEntriesQuery.pageLimit, hlimit, Option.getD_some]
  omega

/-- The pages that were followed hold everything exactly when they fit their windows. -/
theorem followed_pages {fuel : Nat} {pages : List (List DeadLetterEntry)}
    (hfollow : followCursors other dateParse jobs fuel { query with cursor := none } = some pages) :
    (pages.flatten = jobs.filterMap (query.entryOf dateParse) ↔ PagesFit dateParse jobs query) ∧
      ∀ page ∈ pages, page.length ≤ query.pageLimit := by
  have hlimit := pageLimit_pos query
  rw [followCursors_eq] at hfollow
  exact ⟨WindowScan.follow_complete_iff (by decide) hlimit (by decide) (Nat.zero_le _) hfollow,
    WindowScan.follow_page_le (by decide) hlimit (by decide) (Nat.zero_le _) hfollow⟩

theorem followCursors_terminates (other : List Char → Nat) (dateParse : String → Option Int)
    (jobs : List Job) (query : ListDeadLetterEntriesQuery) :
    ∃ pages, followCursors other dateParse jobs (jobs.length + 1)
      { query with cursor := none } = some pages := by
  obtain ⟨pages, hscan⟩ : ∃ pages, WindowScan.follow (query.entryOf dateParse) query.pageLimit
      listScanWindow 20 jobs (jobs.length + 1) 0 = some pages :=
    WindowScan.follow_terminates (by decide) (pageLimit_pos query) (by decide) (Nat.zero_le _)
      (by omega)
  exact ⟨pages, by rw [followCursors_eq]; exact hscan⟩

/-- The list enumerates everything exactly when its pages fit their windows. -/
theorem lists_all_iff (other : List Char → Nat) (dateParse : String → Option Int)
    (jobs : List Job) (query : ListDeadLetterEntriesQuery) :
    ListsAll other dateParse jobs query ↔ PagesFit dateParse jobs query := by
  constructor
  · rintro ⟨fuel, pages, hfollow, hflatten, -⟩
    exact (followed_pages hfollow).1.mp hflatten
  · intro hfit
    obtain ⟨pages, hfollow⟩ := followCursors_terminates other dateParse jobs query
    obtain ⟨hcomplete, hlength⟩ := followed_pages hfollow
    refine ⟨jobs.length + 1, pages, hfollow, hcomplete.mpr hfit, ?_⟩
    intro page hpage limit hasked hpos
    exact le_trans (by exact_mod_cast hlength page hpage) (pageLimit_le hasked hpos)

end Cursors

/-- A payload of a queue. -/
def payloadOf (sourceQueue : QueueName) : DeadLetterPayload where
  version := none
  correlationId := none
  sourceQueue := sourceQueue
  jobName := "sign"
  jobId := .number 1
  attemptsMade := 3
  attempts := 3
  classification := none
  failedReason := none
  stacktrace := none
  data := .obj []
  redactionFailed := none
  sourceTimestamp := none
  movedAt := "2026-01-01T00:00:00.000Z"
  replayStatus := none
  replayedAt := none
  replayedBy := none
  replayReason := none
  dismissedAt := none
  dismissedBy := none
  dismissReason := none
  lastReplayError := none
  lastReplayAttemptAt := none

def threeJobs : List Job :=
  [⟨"1", payloadOf .oracleSigning⟩, ⟨"2", payloadOf .ipfsPinning⟩, ⟨"3", payloadOf .oracleSigning⟩]

/-- Entries of the oracle's queue, so many on a page. -/
def oracleEntries (limit : Int) : ListDeadLetterEntriesQuery :=
  ⟨none, some limit, some .oracleSigning, none, none, none, none⟩

/-- `Date.parse` of the one date. -/
def newYear : String → Option Int := fun _ => some 1767225600000

/-- With one entry on a page, the second one of the window is on none. -/
theorem second_entry_skipped :
    ((followCursors (fun _ => 0) newYear threeJobs 4 (oracleEntries 1)).map fun pages =>
      pages.map fun page => page.map (·.dlqJobId)) = some [["1"], []] ∧
      ¬ ListsAll (fun _ => 0) newYear threeJobs (oracleEntries 1) := by
  refine ⟨by decide, ?_⟩
  rintro ⟨fuel, pages, hfollow, hflatten, -⟩
  have hfits : PagesFit newYear threeJobs (oracleEntries 1) :=
    (followed_pages hfollow).1.mp hflatten
  exact absurd hfits (by decide)

end Backit.DeadLetter
