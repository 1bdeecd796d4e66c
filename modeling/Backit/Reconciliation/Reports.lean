import Backit.Reconciliation.Locking

/-!
# What a run reports

A run records a row of each discrepancy and saves its counts when it is through. A dry run records
every discrepancy as detected, but counts it with the status that it was found with; and a run in
which the database throws is saved with the counts of a new run, whatever it has recorded.
-/

namespace Backit.Reconciliation

/-- What an event does with the database: it compares itself with a table, repairs it, and records
a discrepancy. -/
inductive Operation where
  | compare
  | repair
  | record
  deriving DecidableEq

/-- An event, and the operations that the database throws at. -/
structure Attempt where
  event : ParsedOnChainEvent
  throws : Operation → Bool

structure ReconciliationDiscrepancy where
  runId : String
  contractId : String
  ledger : Nat
  txHash : String
  eventType : String
  discrepancyType : DiscrepancyType
  status : DiscrepancyStatus
  repairNotes : Option String

/-- The row of a run, as it is saved at the end. -/
structure RunRow where
  status : ReconciliationRunStatus
  scannedEventsCount : Nat
  discrepancyCount : Nat
  repairedCount : Nat
  quarantinedCount : Nat
  discrepancyBreakdown : Option (DiscrepancyType → Nat)

namespace ParsedOnChainEvent

variable (event : ParsedOnChainEvent)

/-- The event has what it takes to look for its row. -/
def compares : Bool :=
  match event.kind with
  | some .created => true
  | some .staked => event.callId ≠ "" ∧ event.userAddress ≠ ""
  | some .resolved => event.callId ≠ ""
  | some .settled => event.callId ≠ ""
  | some .claimed => event.claimCallId ≠ "" ∧ event.stakerAddress ≠ ""
  | none => false

/-- The event is of a contract that is not configured. -/
def unknown (contractIds : List String) : Bool := contractIds ≠ [] ∧ event.contractId ∉ contractIds

/-- The event is a stake without its call or its user. -/
def unrecoverable : Bool := event.kind = some .staked ∧ (event.callId = "" ∨ event.userAddress = "")

/-- The event is quarantined whatever the tables say. -/
def regardless (contractIds : List String) : Bool :=
  event.unknown contractIds || event.unrecoverable

end ParsedOnChainEvent

section Runs

variable (number : String → Int) (now : Nat) (contractIds : List String) (runId : String)
  (isDryRun : Bool)

def recordDiscrepancy (event : ParsedOnChainEvent) (discrepancy : Discrepancy) :
    ReconciliationDiscrepancy where
  runId := runId
  contractId := event.contractId
  ledger := event.ledger
  txHash := event.txHash
  eventType := event.eventName
  discrepancyType := discrepancy.type
  status := if isDryRun then .detected else discrepancy.status
  repairNotes := discrepancy.notes

/-- What a run has counted and recorded, and the tables. -/
structure Progress where
  totals : ReconciliationRun
  rows : List ReconciliationDiscrepancy
  db : Database

/-- Record a discrepancy, unless the database throws. -/
def Progress.report (p : Progress) (attempt : Attempt) (discrepancy : Discrepancy) :
    Progress × Bool :=
  if attempt.throws .record then (p, true)
  else
    (⟨p.totals.record discrepancy,
      p.rows ++ [recordDiscrepancy runId isDryRun attempt.event discrepancy], p.db⟩, false)

/-- An event of the run, and whether the database threw. -/
def reconcileOne (attempt : Attempt) (p : Progress) : Progress × Bool :=
  if attempt.event.unknown contractIds then
    p.report runId isDryRun attempt ⟨.unknownContract, .quarantined, none⟩
  else if attempt.event.compares && attempt.throws .compare then (p, true)
  else
    match reconcileEvent number now isDryRun attempt.event p.db with
    | (none, db) => ({ p with db := db }, false)
    | (some discrepancy, db) =>
      if discrepancy.status = .repaired ∧ attempt.throws .repair then (p, true)
      else { p with db := db }.report runId isDryRun attempt discrepancy

/-- The events of the run up to the first one at which the database throws. -/
def reconcileAll : List Attempt → Progress → Progress × Bool
  | [], p => (p, false)
  | attempt :: attempts, p =>
    match reconcileOne number now contractIds runId isDryRun attempt p with
    | (p, true) => (p, true)
    | (p, false) => reconcileAll attempts p

/-- What a new run leaves: its row, what it has recorded and the tables. -/
def executeRecordedRun (attempts : List Attempt) (db : Database) :
    RunRow × List ReconciliationDiscrepancy × Database :=
  let scanned := attempts.length
  match reconcileAll number now contractIds runId isDryRun attempts
      ⟨⟨scanned, 0, 0, 0, fun _ => 0⟩, [], db⟩ with
  | (p, true) => (⟨.failed, scanned, 0, 0, 0, none⟩, p.rows, p.db)
  | (p, false) =>
    (⟨.completed, scanned, p.totals.discrepancyCount, p.totals.repairedCount,
      p.totals.quarantinedCount, some p.totals.discrepancyBreakdown⟩, p.rows, p.db)

end Runs

/-- The sum of a breakdown. -/
def breakdownTotal (breakdown : DiscrepancyType → Nat) : Nat :=
  breakdown .missingOffchain + breakdown .valueMismatch + breakdown .unknownContract +
    breakdown .unrecoverable

/-- The row of the run says what was recorded. -/
structure Reported (run : RunRow) (rows : List ReconciliationDiscrepancy) : Prop where
  discrepancies : run.discrepancyCount = rows.length
  breakdown : (run.discrepancyBreakdown.map breakdownTotal).getD 0 = run.discrepancyCount
  repaired : run.repairedCount = rows.countP (·.status = .repaired)
  quarantined : run.quarantinedCount = rows.countP (·.status = .quarantined)

/-- The run reports what it recorded, and a dry run leaves the tables as they were. -/
def ReportsAndFrames (isDryRun : Bool) (db : Database) :
    RunRow × List ReconciliationDiscrepancy × Database → Prop
  | (run, rows, db') => (isDryRun = true → db' = db) ∧ Reported run rows

section Condition

variable (number : String → Int) (now : Nat) (contractIds : List String) (isDryRun : Bool)

/-- The discrepancy between an event and the tables. -/
def discrepancyOf (event : ParsedOnChainEvent) (db : Database) : Option Discrepancy :=
  if event.unknown contractIds then some ⟨.unknownContract, .quarantined, none⟩
  else (reconcileEvent number now isDryRun event db).1

/-- The database throws at something that the event does with these tables. -/
def Throws (attempt : Attempt) (db : Database) : Prop :=
  (attempt.event.unknown contractIds = false ∧ attempt.event.compares = true ∧
      attempt.throws .compare = true) ∨
    ∃ discrepancy, discrepancyOf number now contractIds isDryRun attempt.event db =
        some discrepancy ∧
      (discrepancy.status = .repaired ∧ attempt.throws .repair = true ∨
        attempt.throws .record = true)

/-- The tables after an event. -/
def tablesAfterOne (event : ParsedOnChainEvent) (db : Database) : Database :=
  if event.unknown contractIds then db else (reconcileEvent number now isDryRun event db).2

/-- The tables after events that the database does not throw at. -/
def tablesAfter (attempts : List Attempt) (db : Database) : Database :=
  attempts.foldl (fun db attempt => tablesAfterOne number now contractIds isDryRun attempt.event db)
    db

/-- The database throws at no event. -/
def NoneThrown (attempts : List Attempt) (db : Database) : Prop :=
  ∀ before attempt after, attempts = before ++ attempt :: after →
    ¬ Throws number now contractIds isDryRun attempt
      (tablesAfter number now contractIds isDryRun before db)

/-- The database throws at no event, and in a dry run none is quarantined regardless. -/
def CompletesPlainly (attempts : List Attempt) (db : Database) : Prop :=
  NoneThrown number now contractIds isDryRun attempts db ∧
    (isDryRun = true → ∀ attempt ∈ attempts, attempt.event.regardless contractIds = false)

/-- The database throws at an event, and the ones before it agree with the tables. -/
def FailsAtFirst (attempts : List Attempt) (db : Database) : Prop :=
  ∃ before attempt after, attempts = before ++ attempt :: after ∧
    Throws number now contractIds isDryRun attempt db ∧
    ∀ other ∈ before, discrepancyOf number now contractIds isDryRun other.event db = none ∧
      ¬ Throws number now contractIds isDryRun other db

end Condition

section Handlers

variable {number : String → Int} {now : Nat} {isDryRun : Bool} {event : ParsedOnChainEvent}
  {db : Database}

/-- What a handler may do: it writes only what it reports, and a dry one writes nothing and detects
everything, but for what cannot be recovered. -/
structure Handled (isDryRun unrecoverable : Bool) (db : Database)
    (result : Option Discrepancy × Database) : Prop where
  quiet : result.1 = none → result.2 = db
  dry : isDryRun = true → result.2 = db
  status : isDryRun = true → ∀ discrepancy, result.1 = some discrepancy →
    discrepancy.status = if unrecoverable then .quarantined else .detected

theorem Handled.nothing {unrecoverable : Bool} : Handled isDryRun unrecoverable db (none, db) :=
  ⟨fun _ => rfl, fun _ => rfl, fun _ _ h => by cases h⟩

/-- A discrepancy of a dry run is detected, and nothing is written for it. -/
theorem Handled.found {discrepancy : Discrepancy} {db' : Database}
    (hdry : isDryRun = true → discrepancy.status = .detected) :
    Handled isDryRun false db (some discrepancy, if isDryRun then db else db') := by
  refine ⟨nofun, fun h => by rw [h]; rfl, fun h other hother => ?_⟩
  obtain rfl := Option.some.inj hother
  exact hdry h

theorem found_detected {type : DiscrepancyType} {status : DiscrepancyStatus} {notes : Option String}
    (hdry : isDryRun = true) : (found isDryRun type status notes).status = .detected := by
  rw [found, if_pos hdry]

theorem created_handled : Handled isDryRun false db (reconcileCallCreated isDryRun event db) := by
  unfold reconcileCallCreated
  dsimp only
  split
  · exact .found found_detected
  · split
    · have hmismatch := @Handled.found isDryRun db
        ⟨.valueMismatch, if isDryRun then .detected else .quarantined,
          "Creator address value mismatch"⟩ db fun hdry => if_pos hdry
      rwa [ite_self] at hmismatch
    · exact .nothing

theorem staked_handled : Handled isDryRun
    (decide (event.callId = "" ∨ event.userAddress = "")) db
      (reconcileStakeAdded number isDryRun event db) := by
  unfold reconcileStakeAdded
  split
  · next hids =>
    refine ⟨nofun, fun _ => rfl, fun _ other hother => ?_⟩
    obtain rfl := Option.some.inj hother
    simp [hids]
  · next hids =>
    rw [decide_eq_false hids]
    split
    · exact .found found_detected
    · exact .nothing

theorem resolved_handled : Handled isDryRun false db
    (reconcileCallResolved now isDryRun event db) := by
  unfold reconcileCallResolved
  split
  · exact .nothing
  · split
    · have hmissing := @Handled.found isDryRun db
        (found isDryRun .missingOffchain .quarantined none) db found_detected
      rwa [ite_self] at hmissing
    · split
      · exact .found found_detected
      · exact .nothing

theorem claimed_handled : Handled isDryRun false db
    (reconcilePayoutClaimed now isDryRun event db) := by
  unfold reconcilePayoutClaimed
  dsimp only
  split
  · exact .nothing
  · split
    · exact .found found_detected
    · split
      · exact .found found_detected
      · exact .nothing

theorem reconcileEvent_handled : Handled isDryRun event.unrecoverable db
    (reconcileEvent number now isDryRun event db) := by
  have hother : event.kind ≠ some .staked → event.unrecoverable = false := by
    intro hkind
    simp [ParsedOnChainEvent.unrecoverable, hkind]
  unfold reconcileEvent
  cases hkind : event.kind with
  | none => exact .nothing
  | some kind =>
    cases kind with
    | created =>
      rw [hother (by simp [hkind])]
      exact created_handled
    | staked =>
      have hstaked : event.unrecoverable =
          decide (event.callId = "" ∨ event.userAddress = "") := by
        simp [ParsedOnChainEvent.unrecoverable, hkind]
      rw [hstaked]
      exact staked_handled
    | resolved | settled =>
      rw [hother (by simp [hkind])]
      exact resolved_handled
    | claimed =>
      rw [hother (by simp [hkind])]
      exact claimed_handled

/-- A stake without its call or its user is quarantined in every run. -/
theorem unrecoverable_quarantined (h : event.unrecoverable = true) :
    (reconcileEvent number now isDryRun event db).1 =
      some ⟨.unrecoverable, .quarantined, none⟩ := by
  simp only [ParsedOnChainEvent.unrecoverable, decide_eq_true_eq] at h
  obtain ⟨hkind, hids⟩ := h
  simp [reconcileEvent, hkind, reconcileStakeAdded, hids]

end Handlers

section Steps

variable {number : String → Int} {now : Nat} {contractIds : List String} {runId : String}
  {isDryRun : Bool} {attempt : Attempt} {attempts : List Attempt} {db : Database} {p p' : Progress}

/-- The progress after an event that the database does not throw at. -/
def advance (number : String → Int) (now : Nat) (contractIds : List String) (runId : String)
    (isDryRun : Bool) (event : ParsedOnChainEvent) (p : Progress) : Progress :=
  let db := tablesAfterOne number now contractIds isDryRun event p.db
  match discrepancyOf number now contractIds isDryRun event p.db with
  | none => ⟨p.totals, p.rows, db⟩
  | some discrepancy =>
    ⟨p.totals.record discrepancy,
      p.rows ++ [recordDiscrepancy runId isDryRun event discrepancy], db⟩

theorem quiet_tablesAfterOne
    (h : discrepancyOf number now contractIds isDryRun attempt.event db = none) :
    tablesAfterOne number now contractIds isDryRun attempt.event db = db := by
  unfold discrepancyOf at h
  unfold tablesAfterOne
  split at h
  · cases h
  · next hknown =>
    rw [if_neg hknown]
    exact reconcileEvent_handled.quiet h

theorem dry_tablesAfterOne : tablesAfterOne number now contractIds true attempt.event db = db := by
  unfold tablesAfterOne
  split
  · rfl
  · exact reconcileEvent_handled.dry rfl

theorem quiet_advance
    (h : discrepancyOf number now contractIds isDryRun attempt.event p.db = none) :
    advance number now contractIds runId isDryRun attempt.event p = p := by
  simp only [advance, h]
  rw [quiet_tablesAfterOne h]

theorem reconcileOne_advances (h : ¬ Throws number now contractIds isDryRun attempt p.db) :
    reconcileOne number now contractIds runId isDryRun attempt p =
      (advance number now contractIds runId isDryRun attempt.event p, false) := by
  unfold Throws discrepancyOf at h
  unfold reconcileOne advance discrepancyOf tablesAfterOne Progress.report
  obtain ⟨hcompare, hreport⟩ := not_or.mp h
  by_cases hunknown : attempt.event.unknown contractIds = true
  · simp only [hunknown, if_true] at hreport ⊢
    rw [if_neg]
    intro hrecord
    exact hreport ⟨_, rfl, .inr hrecord⟩
  · simp only [hunknown, if_false, Bool.false_eq_true] at hcompare hreport ⊢
    rw [if_neg (by simpa [hunknown] using hcompare)]
    rcases hresult : reconcileEvent number now isDryRun attempt.event p.db with ⟨found, db⟩
    rw [hresult] at hreport
    cases found with
    | none => rfl
    | some discrepancy =>
      have hrepair : ¬ (discrepancy.status = .repaired ∧ attempt.throws .repair = true) :=
        fun hrepair => hreport ⟨discrepancy, rfl, .inl hrepair⟩
      have hrecord : ¬ attempt.throws .record = true :=
        fun hrecord => hreport ⟨discrepancy, rfl, .inr hrecord⟩
      simp only [if_neg hrepair, if_neg hrecord]

theorem reconcileOne_throws (h : Throws number now contractIds isDryRun attempt p.db) :
    ∃ p', reconcileOne number now contractIds runId isDryRun attempt p = (p', true) ∧
      p'.rows = p.rows ∧ (isDryRun = true → p'.db = p.db) := by
  unfold Throws discrepancyOf at h
  unfold reconcileOne Progress.report
  by_cases hunknown : attempt.event.unknown contractIds = true
  · obtain hrecord : attempt.throws .record = true := by simpa [hunknown] using h
    exact ⟨p, by simp [hunknown, hrecord], rfl, fun _ => rfl⟩
  · by_cases hcompare : (attempt.event.compares && attempt.throws .compare) = true
    · exact ⟨p, by simp [hunknown, hcompare], rfl, fun _ => rfl⟩
    · have hno : ¬ (attempt.event.compares = true ∧ attempt.throws .compare = true) := by
        simpa using hcompare
      obtain ⟨discrepancy, hfound, hthrown⟩ := h.resolve_left fun hcompare => hno hcompare.2
      simp only [hunknown, if_false, Bool.false_eq_true] at hfound ⊢
      simp only [if_neg hcompare]
      have hdry := @reconcileEvent_handled number now isDryRun attempt.event p.db
      rcases hresult : reconcileEvent number now isDryRun attempt.event p.db with ⟨found, db⟩
      rw [hresult] at hfound hdry
      obtain rfl : found = some discrepancy := hfound
      by_cases hrepair : discrepancy.status = .repaired ∧ attempt.throws .repair = true
      · exact ⟨p, by simp [hrepair], rfl, fun _ => rfl⟩
      · have hrecord : attempt.throws .record = true := hthrown.resolve_left hrepair
        exact ⟨{ p with db := db }, by simp [hrepair, hrecord], rfl, fun h => hdry.dry h⟩

theorem none_thrown_cons : NoneThrown number now contractIds isDryRun (attempt :: attempts) db ↔
      ¬ Throws number now contractIds isDryRun attempt db ∧
        NoneThrown number now contractIds isDryRun attempts
          (tablesAfterOne number now contractIds isDryRun attempt.event db) := by
  constructor
  · intro h
    refine ⟨h [] attempt attempts rfl, fun before other after hsplit => ?_⟩
    exact h (attempt :: before) other after (by rw [hsplit]; rfl)
  · rintro ⟨hfirst, hrest⟩ before other after hsplit
    cases before with
    | nil =>
      obtain ⟨rfl, -⟩ := List.cons.inj hsplit
      exact hfirst
    | cons first before =>
      obtain ⟨rfl, htail⟩ := List.cons.inj hsplit
      exact hrest before other after htail

theorem fails_at_first_cons (hthrows : ¬ Throws number now contractIds isDryRun attempt db) :
    FailsAtFirst number now contractIds isDryRun (attempt :: attempts) db ↔
      discrepancyOf number now contractIds isDryRun attempt.event db = none ∧
        FailsAtFirst number now contractIds isDryRun attempts db := by
  constructor
  · rintro ⟨before, other, after, hsplit, hother, hbefore⟩
    cases before with
    | nil =>
      obtain ⟨rfl, -⟩ := List.cons.inj hsplit
      exact absurd hother hthrows
    | cons first before =>
      obtain ⟨rfl, htail⟩ := List.cons.inj hsplit
      obtain ⟨hfirst, hrest⟩ := List.forall_mem_cons.mp hbefore
      exact ⟨hfirst.1, before, other, after, htail, hother, hrest⟩
  · rintro ⟨hquiet, before, other, after, rfl, hother, hbefore⟩
    refine ⟨attempt :: before, other, after, rfl, hother, ?_⟩
    exact List.forall_mem_cons.mpr ⟨⟨hquiet, hthrows⟩, hbefore⟩

/-- The progress after events that the database does not throw at. -/
def advanceAll (number : String → Int) (now : Nat) (contractIds : List String) (runId : String)
    (isDryRun : Bool) (attempts : List Attempt) (p : Progress) : Progress :=
  attempts.foldl (fun p attempt =>
    advance number now contractIds runId isDryRun attempt.event p) p

theorem advance_db : (advance number now contractIds runId isDryRun attempt.event p).db =
    tablesAfterOne number now contractIds isDryRun attempt.event p.db := by
  unfold advance
  dsimp only
  split <;> rfl

theorem reconcileAll_completes (h : NoneThrown number now contractIds isDryRun attempts p.db) :
    reconcileAll number now contractIds runId isDryRun attempts p =
      (advanceAll number now contractIds runId isDryRun attempts p, false) := by
  induction attempts generalizing p with
  | nil => rfl
  | cons attempt attempts ih =>
    obtain ⟨hfirst, hrest⟩ := none_thrown_cons.mp h
    rw [reconcileAll, reconcileOne_advances hfirst]
    exact ih (by rw [advance_db]; exact hrest)

theorem advance_rows : p.rows.length ≤
    (advance number now contractIds runId isDryRun attempt.event p).rows.length := by
  unfold advance
  dsimp only
  split
  · exact Nat.le_refl _
  · simp

/-- A run that the database throws in, and whether it has recorded anything before. -/
theorem reconcileAll_fails (h : ¬ NoneThrown number now contractIds isDryRun attempts p.db) :
    ∃ p', reconcileAll number now contractIds runId isDryRun attempts p = (p', true) ∧
      p.rows.length ≤ p'.rows.length ∧
      (p'.rows.length = p.rows.length ↔
        FailsAtFirst number now contractIds isDryRun attempts p.db) := by
  induction attempts generalizing p with
  | nil => exact absurd (fun before attempt after hsplit => by simp at hsplit) h
  | cons attempt attempts ih =>
    by_cases hthrows : Throws number now contractIds isDryRun attempt p.db
    · obtain ⟨p', hone, hrows, -⟩ := @reconcileOne_throws number now contractIds runId _ _ _ hthrows
      refine ⟨p', by rw [reconcileAll, hone], hrows ▸ Nat.le_refl _, iff_of_true (by rw [hrows]) ?_⟩
      exact ⟨[], attempt, attempts, rfl, hthrows, fun other hother => by cases hother⟩
    · rw [none_thrown_cons, not_and] at h
      obtain ⟨p', hall, hrows, hiff⟩ := @ih
        (advance number now contractIds runId isDryRun attempt.event p)
        (by rw [advance_db]; exact h hthrows)
      refine ⟨p', by rw [reconcileAll, reconcileOne_advances hthrows]; exact hall,
        Nat.le_trans advance_rows hrows, ?_⟩
      rw [fails_at_first_cons hthrows]
      cases hfound : discrepancyOf number now contractIds isDryRun attempt.event p.db with
      | none =>
        rw [quiet_advance hfound] at hiff
        simpa using hiff
      | some discrepancy =>
        have hmore : p.rows.length <
            (advance number now contractIds runId isDryRun attempt.event p).rows.length := by
          simp [advance, hfound]
        exact iff_of_false (by omega) (by simp)

theorem FailsAtFirst.thrown (h : FailsAtFirst number now contractIds isDryRun attempts db) :
    ¬ NoneThrown number now contractIds isDryRun attempts db := by
  induction attempts with
  | nil =>
    obtain ⟨before, attempt, after, hsplit, -⟩ := h
    simp at hsplit
  | cons attempt attempts ih =>
    rw [none_thrown_cons]
    rintro ⟨hfirst, hrest⟩
    obtain ⟨hquiet, hfails⟩ := (fails_at_first_cons hfirst).mp h
    rw [quiet_tablesAfterOne hquiet] at hrest
    exact ih hfails hrest

end Steps

section Totals

variable {number : String → Int} {now : Nat} {contractIds : List String} {runId : String}
  {isDryRun : Bool} {event : ParsedOnChainEvent} {attempts : List Attempt} {db : Database}
  {p : Progress} {surplus : Nat}

/-- The totals are those of the rows, but for a surplus of quarantined ones. -/
structure Tally (surplus : Nat) (p : Progress) : Prop where
  discrepancies : p.totals.discrepancyCount = p.rows.length
  breakdown : breakdownTotal p.totals.discrepancyBreakdown = p.totals.discrepancyCount
  repaired : p.totals.repairedCount = p.rows.countP (·.status = .repaired)
  quarantined : p.totals.quarantinedCount = p.rows.countP (·.status = .quarantined) + surplus

theorem breakdown_update (breakdown : DiscrepancyType → Nat) (type : DiscrepancyType) :
    breakdownTotal (Function.update breakdown type (breakdown type + 1)) =
      breakdownTotal breakdown + 1 := by
  cases type <;> simp [breakdownTotal] <;> omega

/-- In a dry run a discrepancy is quarantined if its event is quarantined regardless, and is
detected otherwise. -/
theorem dry_discrepancy {discrepancy : Discrepancy}
    (h : discrepancyOf number now contractIds true event db = some discrepancy) :
    discrepancy.status =
      if event.regardless contractIds then .quarantined else .detected := by
  unfold discrepancyOf at h
  unfold ParsedOnChainEvent.regardless
  split at h
  · next hunknown =>
    obtain rfl := Option.some.inj h
    simp [hunknown]
  · next hunknown =>
    rw [Bool.not_eq_true] at hunknown
    rw [hunknown, Bool.false_or]
    exact reconcileEvent_handled.status rfl discrepancy h

theorem regardless_discrepancy (h : event.regardless contractIds = true) :
    discrepancyOf number now contractIds isDryRun event db ≠ none := by
  unfold discrepancyOf
  split
  · simp
  · next hunknown =>
    rw [ParsedOnChainEvent.regardless, Bool.or_eq_true] at h
    rw [unrecoverable_quarantined (h.resolve_left hunknown)]
    simp

/-- An event that is quarantined in a dry run regardless is counted, but not recorded as such. -/
theorem Tally.advance (h : Tally surplus p) :
    Tally (surplus + if isDryRun && event.regardless contractIds then 1 else 0)
      (advance number now contractIds runId isDryRun event p) := by
  unfold Reconciliation.advance
  cases hfound : discrepancyOf number now contractIds isDryRun event p.db with
  | none =>
    have hcalm : event.regardless contractIds = false := by
      by_contra hregardless
      rw [Bool.not_eq_false] at hregardless
      exact regardless_discrepancy hregardless hfound
    rw [hcalm, Bool.and_false]
    exact ⟨h.discrepancies, h.breakdown, h.repaired, h.quarantined⟩
  | some discrepancy =>
    refine ⟨?_, ?_, ?_, ?_⟩
    · simp [ReconciliationRun.record, h.discrepancies]
    · simp [ReconciliationRun.record, breakdown_update, h.breakdown]
    · cases isDryRun with
      | false =>
        simp [ReconciliationRun.record, recordDiscrepancy, List.countP_append,
          List.countP_singleton, h.repaired]
      | true =>
        have hstatus := dry_discrepancy hfound
        have hunrepaired : discrepancy.status ≠ .repaired := by
          rw [hstatus]
          split <;> simp
        simp [ReconciliationRun.record, recordDiscrepancy, List.countP_append, h.repaired,
          hunrepaired]
    · cases isDryRun with
      | false =>
        simp [ReconciliationRun.record, recordDiscrepancy, List.countP_append,
          List.countP_singleton, h.quarantined]
        omega
      | true =>
        have hstatus := dry_discrepancy hfound
        have hcount : (if discrepancy.status = .quarantined then 1 else 0) =
            if event.regardless contractIds then 1 else 0 := by
          rw [hstatus]
          split <;> rfl
        simp only [ReconciliationRun.record, recordDiscrepancy, List.countP_append,
          List.countP_singleton, h.quarantined, hcount, Bool.true_and, if_true]
        exact Nat.add_assoc _ _ _

theorem Tally.advanceAll (h : Tally surplus p) :
    Tally (surplus + if isDryRun then attempts.countP (·.event.regardless contractIds) else 0)
      (advanceAll number now contractIds runId isDryRun attempts p) := by
  induction attempts generalizing p surplus with
  | nil => simpa [Reconciliation.advanceAll] using h
  | cons attempt attempts ih =>
    have hone := @Tally.advance number now contractIds runId isDryRun attempt.event p surplus h
    have hsum : surplus + (if isDryRun && attempt.event.regardless contractIds then 1 else 0) +
        (if isDryRun then attempts.countP (·.event.regardless contractIds) else 0) =
          surplus + if isDryRun then
            (attempt :: attempts).countP (·.event.regardless contractIds) else 0 := by
      cases isDryRun <;> simp [List.countP_cons]
      omega
    rw [← hsum]
    exact ih hone

/-- A dry run leaves the tables as they were, however far it gets. -/
theorem reconcileAll_dry :
    (reconcileAll number now contractIds runId true attempts p).1.db = p.db := by
  induction attempts generalizing p with
  | nil => rfl
  | cons attempt attempts ih =>
    rw [reconcileAll]
    by_cases hthrows : Throws number now contractIds true attempt p.db
    · obtain ⟨p', hone, -, hdb⟩ := @reconcileOne_throws number now contractIds runId _ _ _ hthrows
      rw [hone]
      exact hdb rfl
    · rw [reconcileOne_advances hthrows]
      refine ih.trans ?_
      rw [advance_db, dry_tablesAfterOne]

end Totals

def noTables : Database := ⟨fun _ => none, [], fun _ => none⟩

def emptyData : EventData :=
  ⟨none, none, none, none, none, none, none, none, none, none, none, none⟩

/-- The creation of a call by one of two contracts, in a transaction. -/
def createdBy (contractId txHash : String) : ParsedOnChainEvent :=
  ⟨contractId, 1, txHash, "call_created", emptyData⟩

/-- Nothing throws at an event. -/
def undisturbed (event : ParsedOnChainEvent) : Attempt := ⟨event, fun _ => false⟩

end Backit.Reconciliation
