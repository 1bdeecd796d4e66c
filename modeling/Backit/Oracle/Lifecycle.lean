import Backit.Oracle.Calls
import Backit.Lib.Transition

/-!
# Concurrent operations on an oracle call

An operation reads the row of the call, and writes its changed copy of the whole row later. A
resolution by the oracle stores an outcome before it writes the row. Any number of operations
proceed in any order, and each can stop at any point.
-/

namespace Backit.Oracle

open Lib

variable {Key Signature : Type*}

inductive Operation where
  | resolveMarket (observedPrice : String)
  | recordReport
  | unpauseCall
  | adminResolveCall (resolution : Outcome) (finalPrice : Option String)

/-- Why a row is written. -/
inductive Write where
  | halt
  | resolve (outcome : Outcome)
  | report
  | unpause
  | adminResolve (resolution : Outcome)
  deriving DecidableEq

/-- Where an operation is after it has read `call`: it checks the price, it is about to store an
outcome, or it is about to write the row. -/
inductive Phase (Signature : Type*) where
  | checking (call : OracleCall) (observedPrice : String)
  | recording (call : OracleCall) (observedPrice : String) (outcome : Outcome)
      (signature : Signature)
  | saving (write : Write) (call copy : OracleCall)

/-- The row as the operation has read it. -/
def Phase.call : Phase Signature → OracleCall
  | .checking call _ => call
  | .recording call _ _ _ => call
  | .saving _ call _ => call

/-- The row of a call, its stored outcomes and the operations under way. -/
structure Desk (Signature : Type*) where
  row : OracleCall
  outcomes : List (OracleOutcome Signature)
  phase : Nat → Option (Phase Signature)

def Desk.setPhase (s : Desk Signature) (id : Nat) (phase : Option (Phase Signature)) :
    Desk Signature :=
  { s with phase := Function.update s.phase id phase }

inductive Action where
  | begin (id : Nat) (operation : Operation) (now : Nat)
  | crossCheck (id : Nat) (deviates : Bool) (now : Nat)
  | store (id : Nat) (evidenceCid : Option String) (now : Nat)
  | save (id : Nat)
  | vanish (id : Nat)

inductive Event where
  | began (id : Nat)
  | checked (id : Nat)
  | stored (id : Nat) (outcome : Outcome)
  | saved (id : Nat) (write : Write) (found : OracleCallStatus)
  | vanished (id : Nat)
  deriving DecidableEq

/-- The operation that stores an outcome or writes the row. -/
def Event.writer : Event → Option Nat
  | .stored id _ => some id
  | .saved id _ _ => some id
  | _ => none

/-- What an operation does once it has read the row. An operation that refuses is over. -/
def begin (now : Nat) (call : OracleCall) : Operation → Option (Phase Signature)
  | .resolveMarket observedPrice =>
    if call.status = .paused then some (.saving .halt call (failedCall now call))
    else if call.status.terminal then none
    else if call.status ∉ [.opened, .settling] then none
    else some (.checking call observedPrice)
  | .recordReport => some (.saving .report call (reportedCall call))
  | .unpauseCall => (unpausedCall call).map (.saving .unpause call)
  | .adminResolveCall resolution finalPrice =>
    (adminResolvedCall now call resolution finalPrice).map
      (.saving (.adminResolve resolution) call)

/-- What a resolution does once it has compared the price with the order book. -/
def crossChecked (service : OracleService Key Signature) (deviates : Bool) (now : Nat)
    (call : OracleCall) (observedPrice : String) : Option (Phase Signature) :=
  if deviates then some (.saving .halt call (deviatingCall now call))
  else
    let outcome := evaluateOutcome service call observedPrice
    match signedOutcome service now call observedPrice outcome with
    | .ok signature => some (.recording call observedPrice outcome signature)
    | .error _ => none

/-- One step of the operations on a call. -/
def Desk.next (service : OracleService Key Signature) (s : Desk Signature) :
    Action → Option (Event × Desk Signature)
  | .begin id operation now =>
    match s.phase id with
    | none => some (.began id, s.setPhase id (begin now s.row operation))
    | some _ => none
  | .crossCheck id deviates now =>
    match s.phase id with
    | some (.checking call observedPrice) =>
      some (.checked id, s.setPhase id (crossChecked service deviates now call observedPrice))
    | _ => none
  | .store id evidenceCid now =>
    match s.phase id with
    | some (.recording call observedPrice outcome signature) =>
      let stored := ⟨observedPrice, outcome, signature, evidenceCid⟩
      let copy := resolvedCall now call outcome observedPrice
      some (.stored id outcome, { s with outcomes := stored :: s.outcomes }.setPhase id
        (some (.saving (.resolve outcome) call copy)))
    | _ => none
  | .save id =>
    match s.phase id with
    | some (.saving write _ copy) =>
      some (.saved id write s.row.status, { s with row := copy }.setPhase id none)
    | _ => none
  | .vanish id =>
    match s.phase id with
    | some _ => some (.vanished id, s.setPhase id none)
    | none => none

/-- The operations on a call without reports and outcomes. -/
def oracleCall (service : OracleService Key Signature) : System (Desk Signature) Event where
  initial s := s.row.reportCount = 0 ∧ s.outcomes = [] ∧ ∀ id, s.phase id = none
  step s l s' := ∃ action, s.next service action = some (l, s')

/-- The operation `id` has stored an outcome that it has yet to write into the row. -/
def Desk.Awaits (s : Desk Signature) (id : Nat) (outcome : Outcome) : Prop :=
  ∃ call copy, s.phase id = some (.saving (.resolve outcome) call copy)

/-- A write finds the status and the report count as the operation has read them. An operation that
has stored an outcome is the next to write, and does not stop before. -/
structure InTurn (s : Desk Signature) (l : Event) : Prop where
  unchanged : ∀ id phase, l.writer = some id → s.phase id = some phase →
    s.row.status = phase.call.status ∧ s.row.reportCount = phase.call.reportCount
  alone : ∀ id outcome, s.Awaits id outcome →
    l ≠ .vanished id ∧ ∀ j, l.writer = some j → j = id

/-- The completed reports of a history. -/
def reports (history : List Event) : Nat :=
  history.countP fun
    | .saved _ .report _ => true
    | _ => false

/-- What the operations promise of a call: a resolution is final, at most one outcome is stored and
it is the one of the final status, every report is counted, and the oracle resolves no paused
call. -/
structure Lifecycle (service : OracleService Key Signature)
    (guard : System.Guard (Desk Signature) Event) (history : List Event) (s : Desk Signature) :
    Prop where
  settled : s.row.status.terminal = true → ∀ history' s',
    System.Path (oracleCall service) guard history s history' s' → s'.row.status = s.row.status
  one : s.outcomes.length ≤ 1
  agrees : s.row.status.terminal = true → ∀ o ∈ s.outcomes, o.outcome.status = s.row.status
  counted : s.row.reportCount = reports history
  unblocked : ∀ id outcome found, .saved id (.resolve outcome) found ∈ history → found ≠ .paused

/-- What a copy keeps of the row it was made of. -/
structure Write.Keeps (write : Write) (call copy : OracleCall) : Prop where
  settled : call.status.terminal = true → copy.status = call.status
  counted : copy.reportCount = call.reportCount + if write = .report then 1 else 0
  resolves : ∀ outcome, write = .resolve outcome →
    copy.status = outcome.status ∧ call.status ∈ [OracleCallStatus.opened, .settling]

/-- What is known of an operation under way. -/
def Phase.Sound : Phase Signature → Prop
  | .checking call _ => call.status ∈ [OracleCallStatus.opened, .settling]
  | .recording call _ _ _ => call.status ∈ [OracleCallStatus.opened, .settling]
  | .saving write call copy => write.Keeps call copy

/-- What a step of the operations can do. -/
inductive Changes (s : Desk Signature) : Event → Desk Signature → Prop where
  | quiet {l id phase} : l.writer = none → (∀ outcome, s.Awaits id outcome → l = .vanished id) →
      (∀ p, phase = some p → p.Sound) →
      (∀ outcome call copy, phase ≠ some (.saving (.resolve outcome) call copy)) →
      Changes s l (s.setPhase id phase)
  | stored {id outcome stored call copy price signature} :
      s.phase id = some (.recording call price outcome signature) → stored.outcome = outcome →
      (Write.resolve outcome).Keeps call copy →
      Changes s (.stored id outcome) ({ s with outcomes := stored :: s.outcomes }.setPhase id
        (some (.saving (.resolve outcome) call copy)))
  | saved {id write call copy} : s.phase id = some (.saving write call copy) →
      Changes s (.saved id write s.row.status) ({ s with row := copy }.setPhase id none)

section Operations

variable {service : OracleService Key Signature} {s s' : Desk Signature} {l : Event} {now : Nat}
  {call : OracleCall} {phase : Phase Signature}

/-- An operation that has read the row knows what it needs of it. -/
theorem begin_sound {operation : Operation} (h : begin now call operation = some phase) :
    phase.Sound ∧ ∀ outcome read copy, phase ≠ .saving (.resolve outcome) read copy := by
  cases operation with
  | resolveMarket observedPrice =>
    simp only [begin] at h
    split at h
    · cases h
      exact ⟨⟨fun _ => rfl, rfl, fun _ hwrite => by cases hwrite⟩, by simp⟩
    · split at h
      · cases h
      · split at h
        · cases h
        · next hopen =>
          cases h
          exact ⟨not_not.mp hopen, by simp⟩
  | recordReport =>
    cases h
    refine ⟨⟨fun hterminal => reported_status ?_, rfl, fun _ hwrite => by cases hwrite⟩, by simp⟩
    intro hopen
    rw [hopen] at hterminal
    cases hterminal
  | unpauseCall =>
    obtain ⟨copy, hcopy, rfl⟩ := Option.map_eq_some_iff.mp h
    obtain ⟨hpaused, hcount⟩ := unpaused_call hcopy
    refine ⟨⟨fun hterminal => ?_, by simpa using hcount, fun _ hwrite => by cases hwrite⟩, by simp⟩
    rw [hpaused] at hterminal
    cases hterminal
  | adminResolveCall resolution finalPrice =>
    obtain ⟨copy, hcopy, rfl⟩ := Option.map_eq_some_iff.mp h
    obtain ⟨hlive, hcount⟩ := admin_resolved_call hcopy
    refine ⟨⟨fun hterminal => ?_, by simpa using hcount, fun _ hwrite => by cases hwrite⟩, by simp⟩
    rw [hlive] at hterminal
    cases hterminal

theorem cross_checked_sound {deviates : Bool} {observedPrice : String}
    (h : crossChecked service deviates now call observedPrice = some phase)
    (hopen : call.status ∈ [OracleCallStatus.opened, .settling]) :
    phase.Sound ∧ ∀ outcome read copy, phase ≠ .saving (.resolve outcome) read copy := by
  unfold crossChecked at h
  split at h
  · cases h
    exact ⟨⟨fun _ => rfl, rfl, fun _ hwrite => by cases hwrite⟩, by simp⟩
  · dsimp only at h
    split at h
    · cases h
      exact ⟨hopen, by simp⟩
    · cases h

theorem resolved_keeps {outcome : Outcome} {observedPrice : String}
    (hopen : call.status ∈ [OracleCallStatus.opened, .settling]) :
    (Write.resolve outcome).Keeps call (resolvedCall now call outcome observedPrice) := by
  refine ⟨fun hterminal => ?_, rfl, fun other hother => ?_⟩
  · revert hterminal hopen
    cases call.status <;> simp [OracleCallStatus.terminal]
  · cases hother
    exact ⟨rfl, hopen⟩

theorem next_changes {action : Action} (h : s.next service action = some (l, s'))
    (hsound : ∀ id phase, s.phase id = some phase → phase.Sound) : Changes s l s' := by
  cases action with
  | begin id operation now =>
    simp only [Desk.next] at h
    split at h
    · next hid =>
      cases h
      refine .quiet rfl ?_ (fun p hp => (begin_sound hp).1)
        fun outcome read copy hp => (begin_sound hp).2 _ _ _ rfl
      rintro outcome ⟨read, copy, hread⟩
      simp [hid] at hread
    · cases h
  | crossCheck id deviates now =>
    simp only [Desk.next] at h
    split at h
    · next hid =>
      cases h
      refine .quiet rfl ?_ (fun p hp => (cross_checked_sound hp (hsound _ _ hid)).1)
        fun outcome read copy hp => (cross_checked_sound hp (hsound _ _ hid)).2 _ _ _ rfl
      rintro outcome ⟨read, copy, hread⟩
      simp [hid] at hread
    · cases h
  | store id evidenceCid now =>
    simp only [Desk.next] at h
    split at h
    · next hid =>
      cases h
      exact .stored hid rfl (resolved_keeps (hsound _ _ hid))
    · cases h
  | save id =>
    simp only [Desk.next] at h
    split at h
    · next hid =>
      cases h
      exact .saved hid
    · cases h
  | vanish id =>
    simp only [Desk.next] at h
    split at h
    · cases h
      exact .quiet rfl (fun _ _ => rfl) (by simp) (by simp)
    · cases h

end Operations

/-- What holds of a call whose operations take turns. -/
structure Orderly (history : List Event) (s : Desk Signature) : Prop where
  sound : ∀ id phase, s.phase id = some phase → phase.Sound
  pending : ∀ id outcome, s.Awaits id outcome →
    s.outcomes.map (·.outcome) = [outcome] ∧ s.row.status.terminal = false
  stored : s.outcomes = [] ∨ (∃ id outcome, s.Awaits id outcome) ∨
    ∃ outcome, s.outcomes.map (·.outcome) = [outcome] ∧ outcome.status = s.row.status
  counted : s.row.reportCount = reports history
  unblocked : ∀ id outcome found, .saved id (.resolve outcome) found ∈ history → found ≠ .paused

section Invariant

variable {history : List Event} {s s' : Desk Signature} {l : Event}
  {phase : Option (Phase Signature)}

theorem awaits_setPhase_ne {id j : Nat} {outcome : Outcome}
    (hne : j ≠ id) : (s.setPhase id phase).Awaits j outcome ↔ s.Awaits j outcome := by
  simp [Desk.Awaits, Desk.setPhase, Function.update_of_ne hne]

theorem awaits_setPhase_self {id : Nat} {outcome : Outcome} :
    (s.setPhase id phase).Awaits id outcome ↔
      ∃ call copy, phase = some (.saving (.resolve outcome) call copy) := by
  simp [Desk.Awaits, Desk.setPhase]

theorem sound_setPhase {id : Nat} (hsound : ∀ id phase, s.phase id = some phase → phase.Sound)
    (hphase : ∀ p, phase = some p → p.Sound) (j : Nat) (p : Phase Signature)
    (h : (s.setPhase id phase).phase j = some p) : p.Sound := by
  simp only [Desk.setPhase, Function.update_apply] at h
  split at h
  · exact hphase p h
  · exact hsound j p h

/-- A step that writes nothing keeps the call in order. -/
theorem Orderly.quiet (h : Orderly history s) {id : Nat}
    (hwriter : l.writer = none) (hfree : ∀ outcome, ¬ s.Awaits id outcome)
    (hsound : ∀ p, phase = some p → p.Sound)
    (hphase : ∀ outcome call copy, phase ≠ some (.saving (.resolve outcome) call copy)) :
    Orderly (l :: history) (s.setPhase id phase) := by
  have hawaits : ∀ j outcome, (s.setPhase id phase).Awaits j outcome ↔ s.Awaits j outcome := by
    intro j outcome
    by_cases hj : j = id
    · subst hj
      rw [awaits_setPhase_self]
      exact ⟨fun ⟨call, copy, hcopy⟩ => absurd hcopy (hphase _ _ _), fun hj => absurd hj (hfree _)⟩
    · exact awaits_setPhase_ne hj
  refine ⟨sound_setPhase h.sound hsound, fun j outcome hj => h.pending j outcome ?_, ?_, ?_, ?_⟩
  · exact (hawaits j outcome).mp hj
  · simp only [hawaits]
    exact h.stored
  · have hreports : reports (l :: history) = reports history := by
      cases l <;> first | rfl | cases hwriter
    exact h.counted.trans hreports.symm
  · intro j outcome found hmem
    rcases List.mem_cons.mp hmem with rfl | hmem
    · cases hwriter
    · exact h.unblocked j outcome found hmem

theorem Orderly.store (h : Orderly history s) {id : Nat} {call copy : OracleCall} {price : String}
    {outcome : Outcome} {signature : Signature} {stored : OracleOutcome Signature}
    (hid : s.phase id = some (.recording call price outcome signature))
    (hstored : stored.outcome = outcome) (hkeeps : (Write.resolve outcome).Keeps call copy)
    (hturn : InTurn s (.stored id outcome)) :
    Orderly (.stored id outcome :: history)
      ({ s with outcomes := stored :: s.outcomes }.setPhase id
        (some (.saving (.resolve outcome) call copy))) := by
  have hfree : ∀ j other, ¬ s.Awaits j other := by
    rintro j other hj
    obtain rfl := (hturn.alone j other hj).2 id rfl
    obtain ⟨read, write, hread⟩ := hj
    simp [hid] at hread
  have hlive : s.row.status.terminal = false := by
    have hopen := h.sound id _ hid
    rw [(hturn.unchanged id _ rfl hid).1]
    change call.status ∈ [OracleCallStatus.opened, .settling] at hopen
    revert hopen
    show _ ∈ _ → call.status.terminal = false
    cases call.status <;> simp [OracleCallStatus.terminal]
  have hnone : s.outcomes = [] := by
    obtain hnone | ⟨j, other, hj⟩ | ⟨other, -, hstatus⟩ := h.stored
    · exact hnone
    · exact absurd hj (hfree j other)
    · rw [← hstatus, terminal_status] at hlive
      cases hlive
  have hself : ({ s with outcomes := stored :: s.outcomes }.setPhase id
      (some (.saving (.resolve outcome) call copy))).Awaits id outcome :=
    awaits_setPhase_self.mpr ⟨call, copy, rfl⟩
  refine ⟨sound_setPhase h.sound ?_, fun j other hj => ?_, .inr (.inl ⟨id, outcome, hself⟩),
    h.counted, fun j other found hmem => ?_⟩
  · rintro p hp
    obtain rfl := Option.some.inj hp
    exact hkeeps
  · by_cases hne : j = id
    · subst hne
      obtain ⟨read, write, hread⟩ := awaits_setPhase_self.mp hj
      cases hread
      refine ⟨?_, hlive⟩
      change (stored :: s.outcomes).map (·.outcome) = [outcome]
      rw [hnone, ← hstored]
      rfl
    · exact absurd ((awaits_setPhase_ne hne).mp hj) (hfree j other)
  · rcases List.mem_cons.mp hmem with hmem | hmem
    · cases hmem
    · exact h.unblocked j other found hmem

/-- A row is written by the operation that has read it last. -/
theorem Orderly.save (h : Orderly history s) {id : Nat} {write : Write} {call copy : OracleCall}
    (hid : s.phase id = some (.saving write call copy))
    (hturn : InTurn s (.saved id write s.row.status)) :
    Orderly (.saved id write s.row.status :: history)
      ({ s with row := copy }.setPhase id none) := by
  have hkeeps : write.Keeps call copy := h.sound id _ hid
  obtain ⟨hstatus, hcount⟩ : s.row.status = call.status ∧ s.row.reportCount = call.reportCount :=
    hturn.unchanged id _ rfl hid
  have hself : ∀ j outcome, s.Awaits j outcome → j = id ∧ write = .resolve outcome := by
    rintro j outcome hj
    obtain rfl := (hturn.alone j outcome hj).2 id rfl
    obtain ⟨read, other, hread⟩ := hj
    rw [hid] at hread
    cases hread
    exact ⟨rfl, rfl⟩
  have hfree : ∀ j outcome, ¬ ({ s with row := copy }.setPhase id none).Awaits j outcome := by
    rintro j outcome hj
    by_cases hne : j = id
    · subst hne
      obtain ⟨read, other, hread⟩ := awaits_setPhase_self.mp hj
      cases hread
    · exact hne (hself j outcome ((awaits_setPhase_ne hne).mp hj)).1
  refine ⟨sound_setPhase h.sound (by simp), fun j outcome hj => absurd hj (hfree j outcome), ?_, ?_,
    fun j outcome found hmem => ?_⟩
  · obtain hnone | ⟨j, outcome, hj⟩ | ⟨outcome, hone, hfinal⟩ := h.stored
    · exact .inl hnone
    · refine .inr (.inr ⟨outcome, (h.pending j outcome hj).1, ?_⟩)
      exact (hkeeps.resolves outcome (hself j outcome hj).2).1.symm
    · refine .inr (.inr ⟨outcome, hone, ?_⟩)
      have hterminal : call.status.terminal = true := by
        rw [← hstatus, ← hfinal]
        exact terminal_status outcome
      exact (hfinal.trans hstatus).trans (hkeeps.settled hterminal).symm
  · change copy.reportCount = _
    rw [hkeeps.counted, ← hcount, h.counted]
    cases write <;> simp [reports]
  · rcases List.mem_cons.mp hmem with hmem | hmem
    · cases hmem
      intro hpaused
      have hopen := (hkeeps.resolves outcome rfl).2
      rw [← hstatus, hpaused] at hopen
      simp at hopen
    · exact h.unblocked j outcome found hmem

theorem Orderly.step (h : Orderly history s) (hchange : Changes s l s') (hturn : InTurn s l) :
    Orderly (l :: history) s' := by
  cases hchange with
  | quiet hwriter hvanish hsound hphase =>
    refine h.quiet hwriter (fun outcome hid => ?_) hsound hphase
    exact (hturn.alone _ outcome hid).1 (hvanish outcome hid)
  | stored hid hstored hkeeps => exact h.store hid hstored hkeeps hturn
  | saved hid => exact h.save hid hturn

/-- Operations that take turns leave a resolved call resolved. -/
theorem Orderly.final (h : Orderly history s) (hchange : Changes s l s') (hturn : InTurn s l)
    (hterminal : s.row.status.terminal = true) : s'.row.status = s.row.status := by
  cases hchange with
  | quiet => rfl
  | stored => rfl
  | saved hid =>
    have hkeeps := h.sound _ _ hid
    have hstatus := (hturn.unchanged _ _ rfl hid).1
    rw [hstatus] at hterminal
    exact (hkeeps.settled hterminal).trans hstatus.symm

end Invariant

section Run

variable {service : OracleService Key Signature} {history : List Event} {s : Desk Signature}

theorem orderly_of_run (run : (oracleCall service).RunWhere (fun _ => InTurn) history s) :
    Orderly history s := by
  refine run.invariant (I := fun h s => Orderly h s) ?_ ?_
  · rintro s ⟨hcount, hnone, hfree⟩
    refine ⟨fun id phase hid => ?_, fun id outcome hid => ?_, .inl hnone, hcount, by simp⟩
    · simp [hfree] at hid
    · simp [Desk.Awaits, hfree] at hid
  · rintro h s l s' - ih ⟨action, hnext⟩ hturn
    exact ih.step (next_changes hnext ih.sound) hturn

end Run

/-- Whole prices, and signatures that are the messages. -/
def wholePrice (text : String) : Nat := text.toList.foldl (fun n c => 10 * n + (c.toNat - 48)) 0

def wholePrices : OracleService Unit Soroban.Bytes where
  atLeast observed strike := decide (wholePrice strike ≤ wholePrice observed)
  scaledPrice text := wholePrice text * 10 ^ 7
  oracleKeypair := ⟨(), id⟩

/-- An open call with a strike price of 100. -/
def openDesk : Desk Soroban.Bytes where
  row := ⟨7, "100", .opened, 0, false, false, none, none, none, none⟩
  outcomes := []
  phase _ := none

theorem openDesk_initial : (oracleCall wholePrices).initial openDesk := ⟨rfl, rfl, fun _ => rfl⟩

/-- An operation that is alone with the row it has read is in turn. -/
theorem in_turn_of_lone {s : Desk Signature} {l : Event} (id : Nat)
    (hlone : ∀ j, j ≠ id → s.phase j = none)
    (hread : (s.phase id).all (fun p => decide (p.call = s.row)) = true) (hstays : l ≠ .vanished id)
    (hwriter : l.writer.all (fun j => decide (j = id)) = true) : InTurn s l := by
  have hwrites : ∀ j, l.writer = some j → j = id := fun j hj => by simpa [hj] using hwriter
  refine ⟨fun j p hj hp => ?_, fun j outcome hj => ?_⟩
  · obtain rfl := hwrites j hj
    have hcall : p.call = s.row := by simpa [hp] using hread
    rw [hcall]
    exact ⟨rfl, rfl⟩
  · have hid : j = id := by
      by_contra hne
      obtain ⟨call, copy, hcall⟩ := hj
      simp [hlone j hne] at hcall
    subst hid
    exact ⟨hstays, hwrites⟩

/-- A report reads the open call and is saved after the oracle has resolved the call. The oracle
then resolves the call again, at another price. -/
def staleReportRun :
    System.Replayed (oracleCall wholePrices) (Desk.next wholePrices) System.anything :=
  .of openDesk openDesk_initial
    [.begin 1 .recordReport 0, .begin 2 (.resolveMarket "120") 1, .crossCheck 2 false 2,
      .store 2 none 3, .save 2, .save 1, .begin 3 (.resolveMarket "80") 4, .crossCheck 3 false 5,
      .store 3 none 6, .save 3]
    (by decide +kernel)

end Backit.Oracle
