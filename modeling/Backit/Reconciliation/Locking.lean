import Backit.Reconciliation.Repairs
import Backit.Lib.Transition

/-!
# One reconciliation run at a time

A start reads the lock of its network, and sets it for fifteen minutes if it is free; the run is
saved and queued, and executed once its job is delivered. A job can be delivered again, and when the
queue is not available the run is executed without one. The end of an execution deletes the lock of
its network, whoever set it. Starts, deliveries and executions proceed in any order, each step can
fail, and each can stop at any point.
-/

namespace Backit.Reconciliation

open Lib

structure StartReconciliationDto where
  network : Option String
  contractIds : Option (List String)
  fromLedger : Nat
  toLedger : Nat
  isDryRun : Option Bool
  deriving DecidableEq

inductive ReconciliationRunStatus where
  | pending
  | running
  | completed
  | failed
  deriving DecidableEq

/-- The row of a run, with what it has counted. -/
structure RunEntity where
  network : String
  contractIds : List String
  fromLedger : Nat
  toLedger : Nat
  isDryRun : Bool
  status : ReconciliationRunStatus
  counts : ReconciliationRun
  durationMs : Option Nat
  failureReason : Option String

/-- The row that a start saves. -/
def createRun (defaultContractId : String) (dto : StartReconciliationDto) : RunEntity where
  network := dto.network.getD "testnet"
  contractIds :=
    match dto.contractIds with
    | some (id :: rest) => id :: rest
    | _ => [defaultContractId].filter (· ≠ "")
  fromLedger := dto.fromLedger
  toLedger := dto.toLedger
  isDryRun := dto.isDryRun.getD true
  status := .pending
  counts := ⟨0, 0, 0, 0, fun _ => 0⟩
  durationMs := none
  failureReason := none

/-- The lifetime of a lock in milliseconds. -/
def lockLifetime : Nat := 900000

/-- A lock in the cache until it expires. Its value is the same for all runs; `run` only records
who has set it. -/
structure Lock where
  run : Nat
  expiresAt : Nat
  deriving DecidableEq

/-- Where a start is after it has found the lock free: it is about to set the lock, to save the row,
to queue the job, or to execute the run itself. -/
inductive StartPhase where
  | setting (entity : RunEntity)
  | saving (entity : RunEntity)
  | queueing
  | inlining

/-- The row is not saved yet. -/
def StartPhase.Unsaved : StartPhase → Prop
  | .setting _ => True
  | .saving _ => True
  | _ => False

/-- Where an execution is: it is about to find the row, to save it as running, to reconcile the
events, to save the row again, or to delete the lock. -/
inductive Phase where
  | finding
  | found (copy : RunEntity)
  | working (copy : RunEntity) (startTime : Nat)
  | storing (copy : RunEntity) (startTime : Nat)
  | releasing (network : String)

/-- The network of the row that the execution has found. -/
def Phase.network : Phase → Option String
  | .finding => none
  | .found copy => some copy.network
  | .working copy _ => some copy.network
  | .storing copy _ => some copy.network
  | .releasing network => some network

structure Execution where
  run : Nat
  phase : Phase

/-- The clock, the locks of the networks, the rows of the runs, the queued jobs, and the starts and
the executions under way. A start has the number that its run will have. -/
structure Reconciler where
  now : Nat
  lock : String → Option Lock
  rows : Nat → Option RunEntity
  jobs : List Nat
  start : Nat → Option StartPhase
  exec : Nat → Option Execution

namespace Reconciler

def setStart (s : Reconciler) (id : Nat) (phase : Option StartPhase) : Reconciler :=
  { s with start := Function.update s.start id phase }

def setExec (s : Reconciler) (e : Nat) (execution : Option Execution) : Reconciler :=
  { s with exec := Function.update s.exec e execution }

def setLock (s : Reconciler) (network : String) (lock : Option Lock) : Reconciler :=
  { s with lock := Function.update s.lock network lock }

def setRow (s : Reconciler) (id : Nat) (row : RunEntity) : Reconciler :=
  { s with rows := Function.update s.rows id (some row) }

/-- The run that has set the lock of a network, while the lock is in force. -/
def holder (s : Reconciler) (network : String) : Option Nat :=
  ((s.lock network).filter fun lock => s.now < lock.expiresAt).map (·.run)

/-- The execution is of the run on the network. -/
def Executes (s : Reconciler) (e id : Nat) (network : String) : Prop :=
  ∃ execution row, s.exec e = some execution ∧ execution.run = id ∧ s.rows id = some row ∧
    row.network = network

end Reconciler

inductive Action where
  | start (id : Nat) (dto : StartReconciliationDto)
  | set (id : Nat)
  | save (id : Nat)
  | add (id : Nat) (available : Bool)
  | inline (id e : Nat)
  | abandon (id : Nat)
  | deliver (id e : Nat)
  | find (e : Nat)
  | run (e : Nat)
  | work (e : Nat) (outcome : Except (String × Option Nat) ReconciliationRun)
  | store (e : Nat)
  | release (e : Nat)
  | fail (e : Nat) (message : String)
  | crash (e : Nat)
  | tick (elapsed : Nat)

inductive Event where
  | quiet
  | set (id : Nat) (network : String)
  | began (e id : Nat)
  | released (id : Nat) (found : Option Nat)
  | ticked (elapsed : Nat)
  deriving DecidableEq

/-- The row at the end of the reconciliation of its events; a failure comes with the number of the
events if they were fetched. -/
def RunEntity.ended (copy : RunEntity) (duration : Nat) :
    Except (String × Option Nat) ReconciliationRun → RunEntity
  | .ok counts => { copy with counts := counts, durationMs := some duration, status := .completed }
  | .error (message, scanned) =>
    { copy with
      counts :=
        { copy.counts with
          scannedEventsCount := scanned.getD copy.counts.scannedEventsCount }
      durationMs := some duration
      status := .failed
      failureReason := some message }

@[simp] theorem ended_network (copy : RunEntity) (duration : Nat)
    (outcome : Except (String × Option Nat) ReconciliationRun) :
    (copy.ended duration outcome).network = copy.network := by
  cases outcome <;> rfl

/-- What an execution does when a step fails: an error before the reconciliation ends it, one of
the reconciliation or of saving its result is saved, and one of saving a failure is not. -/
def failed (now : Nat) (message : String) : Phase → Option Phase
  | .working copy startTime =>
    some (.storing (copy.ended (now - startTime) (.error (message, none))) startTime)
  | .storing copy startTime =>
    if copy.status = .completed then
      some (.storing (copy.ended (now - startTime) (.error (message, none))) startTime)
    else some (.releasing copy.network)
  | _ => none

/-- One step of the starts, of the executions, or of the clock. -/
def Reconciler.next (defaultContractId : String) (s : Reconciler) :
    Action → Option (Event × Reconciler)
  | .start id dto =>
    match s.start id, s.rows id with
    | none, none =>
      let entity := createRun defaultContractId dto
      if dto.toLedger < dto.fromLedger then some (.quiet, s)
      else if (s.holder entity.network).isSome then some (.quiet, s)
      else some (.quiet, s.setStart id (some (.setting entity)))
    | _, _ => none
  | .set id =>
    match s.start id with
    | some (.setting entity) =>
      some (.set id entity.network,
        (s.setLock entity.network (some ⟨id, s.now + lockLifetime⟩)).setStart id
          (some (.saving entity)))
    | _ => none
  | .save id =>
    match s.start id with
    | some (.saving entity) => some (.quiet, (s.setRow id entity).setStart id (some .queueing))
    | _ => none
  | .add id available =>
    match s.start id with
    | some .queueing =>
      if available then some (.quiet, { s with jobs := id :: s.jobs }.setStart id none)
      else some (.quiet, s.setStart id (some .inlining))
    | _ => none
  | .inline id e =>
    match s.start id, s.exec e with
    | some .inlining, none =>
      some (.began e id, (s.setStart id none).setExec e (some ⟨id, .finding⟩))
    | _, _ => none
  | .abandon id =>
    match s.start id with
    | some _ => some (.quiet, s.setStart id none)
    | none => none
  | .deliver id e =>
    match s.exec e with
    | none => if id ∈ s.jobs then some (.began e id, s.setExec e (some ⟨id, .finding⟩)) else none
    | some _ => none
  | .find e =>
    match s.exec e with
    | some ⟨id, .finding⟩ =>
      some (.quiet, s.setExec e ((s.rows id).map fun row => ⟨id, .found row⟩))
    | _ => none
  | .run e =>
    match s.exec e with
    | some ⟨id, .found copy⟩ =>
      let running := { copy with status := .running }
      some (.quiet, (s.setRow id running).setExec e (some ⟨id, .working running s.now⟩))
    | _ => none
  | .work e outcome =>
    match s.exec e with
    | some ⟨id, .working copy startTime⟩ =>
      some (.quiet, s.setExec e
        (some ⟨id, .storing (copy.ended (s.now - startTime) outcome) startTime⟩))
    | _ => none
  | .store e =>
    match s.exec e with
    | some ⟨id, .storing copy _⟩ =>
      some (.quiet, (s.setRow id copy).setExec e (some ⟨id, .releasing copy.network⟩))
    | _ => none
  | .release e =>
    match s.exec e with
    | some ⟨id, .releasing network⟩ =>
      some (.released id (s.holder network), (s.setLock network none).setExec e none)
    | _ => none
  | .fail e message =>
    match s.exec e with
    | some ⟨id, phase⟩ =>
      some (.quiet, s.setExec e ((failed s.now message phase).map fun p => ⟨id, p⟩))
    | none => none
  | .crash e =>
    match s.exec e with
    | some _ => some (.quiet, s.setExec e none)
    | none => none
  | .tick elapsed => some (.ticked elapsed, { s with now := s.now + elapsed })

/-- The reconciliation service before its first run. -/
def reconciliation (defaultContractId : String) : System Reconciler Event where
  initial s := (∀ network, s.lock network = none) ∧ (∀ id, s.rows id = none) ∧ s.jobs = [] ∧
    (∀ id, s.start id = none) ∧ ∀ e, s.exec e = none
  step s l s' := ∃ action, s.next defaultContractId action = some (l, s')

/-- A start that sets a lock finds it free; an execution starts while the lock that its own run has
set is in force, and while its run is not executed already; and no lock expires while its network
is reconciled. -/
structure InTime (_ : List Event) (s : Reconciler) (l : Event) : Prop where
  free : ∀ id network, l = .set id network → s.holder network = none
  held : ∀ e id, l = .began e id →
    (∃ row, s.rows id = some row ∧ s.holder row.network = some id) ∧
      ∀ e' execution, s.exec e' = some execution → execution.run ≠ id
  lasting : ∀ elapsed, l = .ticked elapsed → ∀ e id network lock, s.Executes e id network →
    s.lock network = some lock → s.now + elapsed < lock.expiresAt

/-- A network has one execution at a time, and an execution deletes no lock in force but that of its
own run. -/
structure OneAtATime (history : List Event) (s : Reconciler) : Prop where
  exclusive : ∀ e e' id id' network, s.Executes e id network → s.Executes e' id' network →
    e = e' ∧ id = id'
  own : ∀ id found, .released id found ∈ history → found = none ∨ found = some id

/-- What holds while executions keep to their locks. -/
structure Held (s : Reconciler) : Prop where
  held : ∀ e id network, s.Executes e id network → s.holder network = some id
  single : ∀ e e' x x', s.exec e = some x → s.exec e' = some x' → x.run = x'.run → e = e'
  known : ∀ e x, s.exec e = some x → ∃ row, s.rows x.run = some row ∧
    ∀ network, x.phase.network = some network → network = row.network
  fresh : ∀ id phase, s.start id = some phase → phase.Unsaved → s.rows id = none

/-- A step that leaves the locks as they are, keeps the networks of the rows, and begins no
execution. -/
structure Keeps (s s' : Reconciler) : Prop where
  now : s'.now = s.now
  lock : s'.lock = s.lock
  rows : ∀ id row, s.rows id = some row → ∃ row', s'.rows id = some row' ∧
    row'.network = row.network
  exec : ∀ e x', s'.exec e = some x' → ∃ x, s.exec e = some x ∧ x.run = x'.run ∧
    ∀ network, x'.phase.network = some network → x.phase.network = some network ∨
      ∃ row, s.rows x.run = some row ∧ row.network = network
  fresh : ∀ id phase, s'.start id = some phase → phase.Unsaved → s'.rows id = none

/-- What a step can do. -/
inductive Changes (s : Reconciler) : Event → Reconciler → Prop where
  | quiet {s'} : Keeps s s' → Changes s .quiet s'
  | set {id entity s'} : s.start id = some (.setting entity) →
      s' = (s.setLock entity.network (some ⟨id, s.now + lockLifetime⟩)).setStart id
        (some (.saving entity)) →
      Changes s (.set id entity.network) s'
  | began {e id s'} : s.exec e = none → s'.now = s.now → s'.lock = s.lock → s'.rows = s.rows →
      s'.exec = Function.update s.exec e (some ⟨id, .finding⟩) →
      (∀ j phase, s'.start j = some phase → s.start j = some phase) →
      Changes s (.began e id) s'
  | released {e id network} : s.exec e = some ⟨id, .releasing network⟩ →
      Changes s (.released id (s.holder network)) ((s.setLock network none).setExec e none)
  | ticked {elapsed} : Changes s (.ticked elapsed) { s with now := s.now + elapsed }

section Steps

variable {defaultContractId : String} {s s' : Reconciler} {l : Event}

theorem Keeps.setStart (hfresh : ∀ id phase, s.start id = some phase → phase.Unsaved →
      s.rows id = none) {id : Nat} {phase : Option StartPhase}
    (hphase : ∀ p, phase = some p → p.Unsaved → s.rows id = none) :
    Keeps s (s.setStart id phase) where
  now := rfl
  lock := rfl
  rows _ row h := ⟨row, h, rfl⟩
  exec _ x h := ⟨x, h, rfl, fun _ h => .inl h⟩
  fresh j p hp hunsaved := by
    simp only [Reconciler.setStart, Function.update_apply] at hp
    split at hp
    · next hj =>
      subst hj
      exact hphase p hp hunsaved
    · exact hfresh j p hp hunsaved

theorem Keeps.setExec (hfresh : ∀ id phase, s.start id = some phase → phase.Unsaved →
      s.rows id = none) {e : Nat} {x : Execution} (phase : Option Phase) (he : s.exec e = some x)
    (hnetwork : ∀ p network, phase = some p → p.network = some network →
      x.phase.network = some network ∨ ∃ row, s.rows x.run = some row ∧ row.network = network) :
    Keeps s (s.setExec e (phase.map fun p => ⟨x.run, p⟩)) where
  now := rfl
  lock := rfl
  rows _ row h := ⟨row, h, rfl⟩
  exec e' x' h := by
    simp only [Reconciler.setExec, Function.update_apply] at h
    split at h
    · next heq =>
      subst heq
      obtain ⟨p, rfl, rfl⟩ := Option.map_eq_some_iff.mp h
      exact ⟨x, he, rfl, fun network hp => hnetwork p network rfl hp⟩
    · exact ⟨x', h, rfl, fun _ h => .inl h⟩
  fresh := hfresh

/-- Saving a copy of a row of the same network, and moving on. -/
theorem Keeps.setRow (hfresh : ∀ id phase, s.start id = some phase → phase.Unsaved →
      s.rows id = none) {e : Nat} {x : Execution} {phase : Phase} {row copy : RunEntity}
    (he : s.exec e = some x) (hrow : s.rows x.run = some row)
    (hcopy : copy.network = row.network) (hnetwork : phase.network = some row.network) :
    Keeps s ((s.setRow x.run copy).setExec e (some ⟨x.run, phase⟩)) where
  now := rfl
  lock := rfl
  rows id old h := by
    simp only [Reconciler.setExec, Reconciler.setRow, Function.update_apply]
    split
    · next heq =>
      subst heq
      obtain rfl := Option.some.inj (hrow.symm.trans h)
      exact ⟨copy, rfl, hcopy⟩
    · exact ⟨old, h, rfl⟩
  exec e' x' h := by
    simp only [Reconciler.setExec, Reconciler.setRow, Function.update_apply] at h
    split at h
    · next heq =>
      subst heq
      obtain rfl := Option.some.inj h
      refine ⟨x, he, rfl, fun network hp => .inr ⟨row, hrow, ?_⟩⟩
      exact Option.some.inj (hnetwork.symm.trans hp)
    · exact ⟨x', h, rfl, fun _ h => .inl h⟩
  fresh id p hp hunsaved := by
    have hnone := hfresh id p hp hunsaved
    have hne : id ≠ x.run := by
      rintro rfl
      rw [hrow] at hnone
      cases hnone
    simpa [Reconciler.setExec, Reconciler.setRow, Function.update_of_ne hne] using hnone

theorem Keeps.save (hfresh : ∀ id phase, s.start id = some phase → phase.Unsaved →
      s.rows id = none) {id : Nat} {entity : RunEntity}
    (hstart : s.start id = some (.saving entity)) :
    Keeps s ((s.setRow id entity).setStart id (some .queueing)) where
  now := rfl
  lock := rfl
  rows j row h := by
    have hnone := hfresh id _ hstart trivial
    have hne : j ≠ id := by
      rintro rfl
      rw [hnone] at h
      cases h
    exact ⟨row, by simpa [Reconciler.setStart, Reconciler.setRow, Function.update_of_ne hne] using h,
      rfl⟩
  exec _ x h := ⟨x, h, rfl, fun _ h => .inl h⟩
  fresh j p hp hunsaved := by
    simp only [Reconciler.setStart, Reconciler.setRow, Function.update_apply] at hp ⊢
    split at hp
    · cases hp
      cases hunsaved
    · next hj =>
      rw [if_neg hj]
      exact hfresh j p hp hunsaved

theorem Keeps.refl (hfresh : ∀ id phase, s.start id = some phase → phase.Unsaved →
      s.rows id = none) : Keeps s s where
  now := rfl
  lock := rfl
  rows _ row h := ⟨row, h, rfl⟩
  exec _ x h := ⟨x, h, rfl, fun _ h => .inl h⟩
  fresh := hfresh

theorem failed_network {now : Nat} {message : String} {phase p : Phase}
    (h : failed now message phase = some p) : p.network = phase.network := by
  cases phase with
  | working copy startTime =>
    cases h
    exact congrArg some (ended_network _ _ _)
  | storing copy startTime =>
    simp only [failed] at h
    split at h
    · cases h
      exact congrArg some (ended_network _ _ _)
    · cases h
      rfl
  | _ => cases h

theorem next_changes {action : Action} (h : s.next defaultContractId action = some (l, s'))
    (hheld : Held s) : Changes s l s' := by
  have hfresh := hheld.fresh
  cases action with
  | start id dto =>
    simp only [Reconciler.next] at h
    split at h
    · next hstart hrow =>
      split at h
      · cases h
        exact .quiet (.refl hfresh)
      · split at h
        · cases h
          exact .quiet (.refl hfresh)
        · cases h
          exact .quiet (.setStart hfresh fun _ _ _ => hrow)
    · cases h
  | set id =>
    simp only [Reconciler.next] at h
    split at h
    · next hstart =>
      cases h
      exact .set hstart rfl
    · cases h
  | save id =>
    simp only [Reconciler.next] at h
    split at h
    · next hstart =>
      cases h
      exact .quiet (.save hfresh hstart)
    · cases h
  | add id available =>
    simp only [Reconciler.next] at h
    split at h
    · split at h
      · cases h
        obtain ⟨hnow, hlock, hrows, hexec, hrest⟩ : Keeps s (s.setStart id none) :=
          .setStart hfresh fun p hp => by cases hp
        exact .quiet ⟨hnow, hlock, hrows, hexec, hrest⟩
      · cases h
        exact .quiet (.setStart hfresh fun p hp hunsaved => by cases hp; cases hunsaved)
    · cases h
  | inline id e =>
    simp only [Reconciler.next] at h
    split at h
    · next hstart hexec =>
      cases h
      refine .began hexec rfl rfl rfl rfl fun j phase hj => ?_
      simp only [Reconciler.setExec, Reconciler.setStart, Function.update_apply] at hj
      split at hj
      · cases hj
      · exact hj
    · cases h
  | abandon id =>
    simp only [Reconciler.next] at h
    split at h
    · cases h
      exact .quiet (.setStart hfresh fun p hp => by cases hp)
    · cases h
  | deliver id e =>
    simp only [Reconciler.next] at h
    split at h
    · next hexec =>
      split at h
      · cases h
        exact .began hexec rfl rfl rfl rfl fun j phase hj => hj
      · cases h
    · cases h
  | find e =>
    simp only [Reconciler.next] at h
    split at h
    · next id he =>
      cases h
      have hphase : (s.rows id).map (fun row => (⟨id, .found row⟩ : Execution)) =
          ((s.rows id).map Phase.found).map fun p => ⟨id, p⟩ := by
        rw [Option.map_map]
        rfl
      rw [hphase]
      refine .quiet (.setExec hfresh _ he fun p network hp hnetwork => .inr ?_)
      obtain ⟨row, hrow, rfl⟩ := Option.map_eq_some_iff.mp hp
      exact ⟨row, hrow, Option.some.inj hnetwork⟩
    · cases h
  | run e =>
    simp only [Reconciler.next] at h
    split at h
    · next id copy he =>
      cases h
      obtain ⟨row, hrow, hknown⟩ := hheld.known e _ he
      have hcopy : copy.network = row.network := hknown _ rfl
      exact .quiet (.setRow hfresh he hrow hcopy (congrArg some hcopy))
    · cases h
  | work e outcome =>
    simp only [Reconciler.next] at h
    split at h
    · next id copy startTime he =>
      cases h
      refine .quiet (.setExec hfresh (some _) he fun p network hp hnetwork => .inl ?_)
      obtain rfl := Option.some.inj hp
      simpa [Phase.network] using hnetwork
    · cases h
  | store e =>
    simp only [Reconciler.next] at h
    split at h
    · next id copy startTime he =>
      cases h
      obtain ⟨row, hrow, hknown⟩ := hheld.known e _ he
      have hcopy : copy.network = row.network := hknown _ rfl
      exact .quiet (.setRow hfresh he hrow hcopy (congrArg some hcopy))
    · cases h
  | release e =>
    simp only [Reconciler.next] at h
    split at h
    · next he =>
      cases h
      exact .released he
    · cases h
  | fail e message =>
    simp only [Reconciler.next] at h
    split at h
    · next id phase he =>
      cases h
      refine .quiet (.setExec hfresh _ he fun p network hp hnetwork => .inl ?_)
      rwa [← failed_network hp]
    · cases h
  | crash e =>
    simp only [Reconciler.next] at h
    split at h
    · next x he =>
      cases h
      exact .quiet (.setExec hfresh none he fun p network hp => by cases hp)
    · cases h
  | tick elapsed =>
    cases h
    exact .ticked

end Steps

section Invariant

variable {defaultContractId : String} {history : List Event} {s s' : Reconciler} {l : Event}

theorem Keeps.held (h : Keeps s s') (hheld : Held s) : Held s' where
  held e id network := by
    rintro ⟨x', row', hx', rfl, hrow', rfl⟩
    obtain ⟨x, hx, hrun, -⟩ := h.exec e x' hx'
    obtain ⟨row, hrow, -⟩ := hheld.known e x hx
    obtain ⟨kept, hkept, hnetwork⟩ := h.rows _ row hrow
    rw [hrun] at hrow hkept
    obtain rfl := Option.some.inj (hrow'.symm.trans hkept)
    have hexecutes : s.Executes e x'.run row'.network := ⟨x, row, hx, hrun, hrow, hnetwork.symm⟩
    have hholder : s'.holder row'.network = s.holder row'.network := by
      rw [Reconciler.holder, Reconciler.holder, h.now, h.lock]
    exact hholder.trans (hheld.held _ _ _ hexecutes)
  single e e' x₁ x₂ hx₁ hx₂ hrun := by
    obtain ⟨y₁, hy₁, hrun₁, -⟩ := h.exec e x₁ hx₁
    obtain ⟨y₂, hy₂, hrun₂, -⟩ := h.exec e' x₂ hx₂
    exact hheld.single e e' y₁ y₂ hy₁ hy₂ (hrun₁.trans (hrun.trans hrun₂.symm))
  known e x' hx' := by
    obtain ⟨x, hx, hrun, hnetwork⟩ := h.exec e x' hx'
    obtain ⟨row, hrow, hknown⟩ := hheld.known e x hx
    obtain ⟨row', hrow', hsame⟩ := h.rows _ row hrow
    refine ⟨row', hrun ▸ hrow', fun network hp => ?_⟩
    rw [hsame]
    rcases hnetwork network hp with hp | ⟨found, hfound, rfl⟩
    · exact hknown network hp
    · rw [Option.some.inj (hfound.symm.trans hrow)]
  fresh := h.fresh

/-- An execution keeps its lock, and its row, when another lock is set. -/
theorem Held.setLock {network : String} (lock : Option Lock) (hheld : Held s)
    (hother : ∀ e id network', s.Executes e id network' → network' ≠ network) :
    Held (s.setLock network lock) where
  held e id network' h := by
    have hne := hother e id network' h
    have hlock : (s.setLock network lock).lock network' = s.lock network' :=
      Function.update_of_ne hne _ _
    have hholder : (s.setLock network lock).holder network' = s.holder network' := by
      rw [Reconciler.holder, Reconciler.holder, hlock]
      rfl
    exact hholder.trans (hheld.held e id network' h)
  single := hheld.single
  known := hheld.known
  fresh := hheld.fresh

/-- An execution is known by its network while the locks are held. -/
theorem Held.executes (h : Held s) {e id : Nat} {phase : Phase} {network : String}
    (he : s.exec e = some ⟨id, phase⟩) (hnetwork : phase.network = some network) :
    s.Executes e id network := by
  obtain ⟨row, hrow, hknown⟩ := h.known e _ he
  exact ⟨_, row, he, rfl, hrow, (hknown network hnetwork).symm⟩

theorem Held.unique (h : Held s) {e e' id id' : Nat} {network : String}
    (he : s.Executes e id network) (he' : s.Executes e' id' network) : e = e' ∧ id = id' := by
  have hid : id = id' :=
    Option.some.inj ((h.held e id network he).symm.trans (h.held e' id' network he'))
  obtain ⟨x, -, hx, hrun, -⟩ := he
  obtain ⟨x', -, hx', hrun', -⟩ := he'
  exact ⟨h.single e e' x x' hx hx' (hrun.trans (hid.trans hrun'.symm)), hid⟩

theorem Held.began (h : Held s) {e id : Nat} (hnow : s'.now = s.now) (hlock : s'.lock = s.lock)
    (hrows : s'.rows = s.rows) (hexec : s'.exec = Function.update s.exec e (some ⟨id, .finding⟩))
    (hstart : ∀ j phase, s'.start j = some phase → s.start j = some phase)
    (hown : ∃ row, s.rows id = some row ∧ s.holder row.network = some id)
    (halone : ∀ e' x, s.exec e' = some x → x.run ≠ id) : Held s' := by
  have hholder : ∀ network, s'.holder network = s.holder network := fun network => by
    rw [Reconciler.holder, Reconciler.holder, hnow, hlock]
  have hcases : ∀ e' x, s'.exec e' = some x →
      e' = e ∧ x = ⟨id, .finding⟩ ∨ s.exec e' = some x := by
    intro e' x hx
    rw [hexec, Function.update_apply] at hx
    split at hx
    · next heq => exact .inl ⟨heq, (Option.some.inj hx).symm⟩
    · exact .inr hx
  refine ⟨?_, ?_, ?_, fun j phase hj hunsaved => ?_⟩
  · rintro e' id' network ⟨x, row, hx, rfl, hrow, rfl⟩
    rw [hrows] at hrow
    rw [hholder]
    rcases hcases e' x hx with ⟨-, rfl⟩ | hold
    · obtain ⟨own, hrow', hheld⟩ := hown
      obtain rfl := Option.some.inj (hrow.symm.trans hrow')
      exact hheld
    · exact h.held e' _ _ ⟨x, row, hold, rfl, hrow, rfl⟩
  · intro e₁ e₂ x₁ x₂ hx₁ hx₂ hrun
    rcases hcases e₁ x₁ hx₁ with ⟨rfl, rfl⟩ | hold₁ <;>
      rcases hcases e₂ x₂ hx₂ with ⟨rfl, rfl⟩ | hold₂
    · rfl
    · exact absurd hrun.symm (halone e₂ x₂ hold₂)
    · exact absurd hrun (halone e₁ x₁ hold₁)
    · exact h.single e₁ e₂ x₁ x₂ hold₁ hold₂ hrun
  · intro e' x hx
    rw [hrows]
    rcases hcases e' x hx with ⟨-, rfl⟩ | hold
    · obtain ⟨own, hrow, -⟩ := hown
      exact ⟨own, hrow, fun network hnone => by cases hnone⟩
    · exact h.known e' x hold
  · rw [hrows]
    exact h.fresh j phase (hstart j phase hj) hunsaved

/-- The locks in force stay so when the clock does not pass them. -/
theorem Held.ticked (h : Held s) {elapsed : Nat}
    (hlasting : ∀ e id network lock, s.Executes e id network → s.lock network = some lock →
      s.now + elapsed < lock.expiresAt) :
    Held { s with now := s.now + elapsed } where
  held e id network hexecutes := by
    have hexecutes : s.Executes e id network := hexecutes
    obtain ⟨lock, hlock, hrun⟩ := Option.map_eq_some_iff.mp (h.held e id network hexecutes)
    obtain ⟨hlock, -⟩ := Option.filter_eq_some_iff.mp hlock
    have hbefore := hlasting e id network lock hexecutes hlock
    exact Option.map_eq_some_iff.mpr
      ⟨lock, Option.filter_eq_some_iff.mpr ⟨hlock, decide_eq_true hbefore⟩, hrun⟩
  single := h.single
  known := h.known
  fresh := h.fresh

theorem Held.step (h : Held s) (hchanges : Changes s l s') (htime : InTime history s l) :
    Held s' := by
  cases hchanges with
  | quiet hkeeps => exact hkeeps.held h
  | @set id entity _ hstart heq =>
    subst heq
    have hfree := htime.free id entity.network rfl
    have hother : ∀ e id' network', s.Executes e id' network' → network' ≠ entity.network := by
      rintro e id' network' hexecutes rfl
      rw [h.held e id' _ hexecutes] at hfree
      cases hfree
    have hset := h.setLock (some ⟨id, s.now + lockLifetime⟩) hother
    exact (Keeps.setStart hset.fresh fun _ _ _ => h.fresh id _ hstart trivial).held hset
  | began hexec hnow hlock hrows hbegins hstart =>
    obtain ⟨hown, halone⟩ := htime.held _ _ rfl
    exact h.began hnow hlock hrows hbegins hstart hown halone
  | @released e id network he =>
    have hended : Held (s.setExec e none) :=
      (Keeps.setExec h.fresh none he fun p _ hp => by cases hp).held h
    have hother : ∀ e' id' network', (s.setExec e none).Executes e' id' network' →
        network' ≠ network := by
      rintro e' id' network' ⟨x, row, hx, hrun, hrow, hnetwork⟩ rfl
      simp only [Reconciler.setExec, Function.update_apply] at hx
      split at hx
      · cases hx
      · next hne => exact hne (h.unique ⟨x, row, hx, hrun, hrow, hnetwork⟩ (h.executes he rfl)).1
    exact hended.setLock none hother
  | ticked => exact h.ticked fun e id network lock => htime.lasting _ rfl e id network lock

/-- A network has one execution at a time, and an execution deletes its own lock, in every run in
which locks are set and executions begin in time. -/
theorem one_at_a_time_of_run
    (run : (reconciliation defaultContractId).RunWhere InTime history s) :
    OneAtATime history s := by
  suffices H : Held s ∧ ∀ id found, .released id found ∈ history → found = none ∨ found = some id by
    exact ⟨fun e e' id id' network he he' => H.1.unique he he', H.2⟩
  refine run.invariant
    (I := fun history s => Held s ∧
      ∀ id found, .released id found ∈ history → found = none ∨ found = some id) ?_ ?_
  · rintro s ⟨hlock, hrows, hjobs, hstart, hexec⟩
    refine ⟨⟨?_, ?_, ?_, fun id phase h => ?_⟩, by simp⟩
    · rintro e id network ⟨x, row, hx, -⟩
      rw [hexec] at hx
      cases hx
    · intro e e' x x' hx
      rw [hexec] at hx
      cases hx
    · intro e x hx
      rw [hexec] at hx
      cases hx
    · rw [hstart] at h
      cases h
  · rintro h s l s' - ⟨hheld, hown⟩ ⟨action, haction⟩ htime
    have hchanges := next_changes haction hheld
    refine ⟨hheld.step hchanges htime, fun id found hmem => ?_⟩
    rcases List.mem_cons.mp hmem with rfl | hmem
    · cases hchanges with
      | released he => exact .inr (hheld.held _ _ _ (hheld.executes he rfl))
    · exact hown id found hmem

end Invariant

def noneBegan (history : List Event) : Bool :=
  history.all fun
    | .began _ _ => false
    | _ => true

/-- A single execution, under the lock of its run, before which time passes. -/
def lone (history : List Event) (s : Reconciler) : Event → Bool
  | .set _ network => s.holder network = none
  | .began _ id => ((s.rows id).bind fun row => s.holder row.network) = some id && noneBegan history
  | .ticked _ => noneBegan history
  | _ => true

theorem in_time_of_lone {history : List Event} {s : Reconciler} {l : Event}
    (hbegan : ∀ e, s.exec e ≠ none → ∃ id, .began e id ∈ history)
    (h : lone history s l = true) : InTime history s l := by
  have hnone : noneBegan history = true → ∀ e, s.exec e = none := by
    intro hnone e
    by_contra hsome
    obtain ⟨id, hmem⟩ := hbegan e hsome
    have hfalse := List.all_eq_true.mp hnone _ hmem
    cases hfalse
  refine ⟨?_, ?_, ?_⟩
  · rintro id network rfl
    exact of_decide_eq_true h
  · rintro e id rfl
    simp only [lone, Bool.and_eq_true, decide_eq_true_eq, Option.bind_eq_some_iff] at h
    refine ⟨h.1, fun e' x hx => ?_⟩
    rw [hnone h.2] at hx
    cases hx
  · rintro elapsed rfl e id network lock ⟨x, row, hx, -⟩
    rw [hnone h] at hx
    cases hx

theorem run_of_lone {defaultContractId : String} {history : List Event} {s : Reconciler}
    (run : (reconciliation defaultContractId).RunWhere (fun h s l => lone h s l = true)
      history s) : (reconciliation defaultContractId).RunWhere InTime history s := by
  have hinvariant : ∀ {history s}, (reconciliation defaultContractId).RunWhere
      (fun h s l => lone h s l = true) history s →
        Held s ∧ ∀ e, s.exec e ≠ none → ∃ id, .began e id ∈ history := by
    intro history s run
    refine run.invariant
      (I := fun history s => Held s ∧ ∀ e, s.exec e ≠ none → ∃ id, .began e id ∈ history) ?_ ?_
    · rintro s ⟨-, -, -, hstart, hexec⟩
      refine ⟨⟨?_, by simp [hexec], by simp [hexec], by simp [hstart]⟩, by simp [hexec]⟩
      rintro e id network ⟨x, row, hx, -⟩
      rw [hexec] at hx
      cases hx
    · rintro h s l s' - ⟨hheld, hbegan⟩ ⟨action, haction⟩ hlone
      have hchanges := next_changes haction hheld
      refine ⟨hheld.step hchanges (in_time_of_lone hbegan hlone), fun e he => ?_⟩
      have hcases : s.exec e ≠ none ∨ ∃ id, l = .began e id := by
        cases hchanges with
        | quiet hkeeps =>
          obtain ⟨x', hx'⟩ := Option.ne_none_iff_exists'.mp he
          obtain ⟨x, hx, -⟩ := hkeeps.exec e x' hx'
          exact .inl (Option.ne_none_iff_exists'.mpr ⟨x, hx⟩)
        | set _ heq =>
          subst heq
          exact .inl he
        | @began e' id _ _ _ _ _ hexec _ =>
          rw [hexec, Function.update_apply] at he
          split at he
          · next heq => exact .inr ⟨id, by rw [heq]⟩
          · exact .inl he
        | released _ =>
          simp only [Reconciler.setExec, Reconciler.setLock, Function.update_apply] at he
          split at he
          · exact absurd rfl he
          · exact .inl he
        | ticked => exact .inl he
      rcases hcases with hold | ⟨id, rfl⟩
      · obtain ⟨id, hmem⟩ := hbegan e hold
        exact ⟨id, .tail _ hmem⟩
      · exact ⟨id, .head _⟩
  exact run.strengthen fun h s l s' hrun _ hlone => in_time_of_lone (hinvariant hrun).2 hlone

def idle : Reconciler := ⟨0, fun _ => none, fun _ => none, [], fun _ => none, fun _ => none⟩

theorem idle_initial : (reconciliation "CREGISTRY").initial idle :=
  ⟨fun _ => rfl, fun _ => rfl, rfl, fun _ => rfl, fun _ => rfl⟩

def ledgers : StartReconciliationDto := ⟨none, none, 1000, 2000, none⟩

/-- A start up to the queueing of its job. -/
def queued (id : Nat) : List Action := [.set id, .save id, .add id true]

/-- An execution of a queued run that finds nothing. -/
def executed (id e : Nat) : List Action :=
  [.deliver id e, .find e, .run e, .work e (.ok ⟨0, 0, 0, 0, fun _ => 0⟩), .store e, .release e]

def oneRun :
    System.Replayed (reconciliation "CREGISTRY") (Reconciler.next "CREGISTRY") lone :=
  .of idle idle_initial
    (.start 1 ledgers :: queued 1 ++ .tick 1000 :: executed 1 0 ++ .start 2 ledgers :: queued 2)
    (by decide +kernel)

/-- A run that is executed within the lifetime of its lock, and the start of another one. -/
theorem one_run_at_a_time :
    OneAtATime oneRun.history oneRun.state ∧ oneRun.state.holder "testnet" = some 2 :=
  ⟨one_at_a_time_of_run
      (run_of_lone (oneRun.run (fun _ action _ _ h => ⟨action, h⟩) fun _ _ _ h => h)),
    by decide +kernel⟩

/-- Two starts read the lock before either sets it; the end of the first run deletes the second's
lock. -/
def racingRun :
    System.Replayed (reconciliation "CREGISTRY") (Reconciler.next "CREGISTRY") System.anything :=
  .of idle idle_initial
    (.start 1 ledgers :: .start 2 ledgers :: queued 1 ++ queued 2 ++ [.deliver 2 1] ++ executed 1 0)
    (by decide +kernel)

/-- The lock of a run expires while it is executed, and another run starts. -/
def expiredRun :
    System.Replayed (reconciliation "CREGISTRY") (Reconciler.next "CREGISTRY") System.anything :=
  .of idle idle_initial
    (.start 1 ledgers :: queued 1 ++ [.deliver 1 0, .tick 900000, .start 2 ledgers] ++ queued 2 ++
      [.deliver 2 1])
    (by decide +kernel)

/-- A run deletes the lock of another one, and two runs are executed at once. -/
theorem runs_overlap : (reconciliation "CREGISTRY").Run racingRun.history racingRun.state ∧
      .released 1 (some 2) ∈ racingRun.history ∧
      (reconciliation "CREGISTRY").Run expiredRun.history expiredRun.state ∧
      expiredRun.state.Executes 0 1 "testnet" ∧ expiredRun.state.Executes 1 2 "testnet" ∧
      ¬ OneAtATime racingRun.history racingRun.state ∧
      ¬ OneAtATime expiredRun.history expiredRun.state := by
  have hreleased : .released 1 (some 2) ∈ racingRun.history := by decide +kernel
  have hrow : ∀ id ∈ [1, 2], (expiredRun.state.rows id).map (·.network) = some "testnet" := by
    decide +kernel
  have hexecutes : ∀ id ∈ [1, 2], expiredRun.state.Executes (id - 1) id "testnet" := by
    intro id hid
    obtain ⟨row, hrow, hnetwork⟩ := Option.map_eq_some_iff.mp (hrow id hid)
    have hrun : ∀ id ∈ [1, 2], (expiredRun.state.exec (id - 1)).map (·.run) = some id := by
      decide +kernel
    obtain ⟨x, hx, hxid⟩ := Option.map_eq_some_iff.mp (hrun id hid)
    exact ⟨x, row, hx, hxid, hrow, hnetwork⟩
  have hfirst := hexecutes 1 (by decide)
  have hsecond := hexecutes 2 (by decide)
  refine ⟨racingRun.run (fun _ action _ _ h => ⟨action, h⟩) System.anything_allowed, hreleased,
    expiredRun.run (fun _ action _ _ h => ⟨action, h⟩) System.anything_allowed, hfirst, hsecond,
    fun h => ?_, fun h => ?_⟩
  · have hown := h.own 1 (some 2) hreleased
    simp at hown
  · have hone := (h.exclusive _ _ _ _ _ hfirst hsecond).2
    omega

end Backit.Reconciliation
