import Backit.OutcomeManager.Storage
import Backit.Shared

/-!
# Settings and the set of oracles

Initialisation, the oracle set with its scheduled removals, and the parameters that the admin
sets. These operations reach neither the tally, nor the payouts, nor another contract: they work
on the settings and the events they publish, which `onSettings` embeds into the manager.
-/

namespace Backit.OutcomeManager

open Soroban Contract Shared

/-- What an operation on the settings works on, its events most recent first. -/
structure Console where
  settings : Settings
  events : List Event

/-- A computation of an operation on the settings. -/
abbrev Setter (α : Type) := Contract Console OutcomeError α

def maxOracles : Nat := 20

namespace Console

/-- Apply a write to the settings. -/
def write (c : Console) (change : Settings → Settings) : Console :=
  { c with settings := change c.settings }

/-- Publish events, the first of them first. -/
def publish (c : Console) (events : List Event) : Console :=
  { c with events := events.reverse ++ c.events }

end Console

/-- `require_admin` of an operation on the settings. -/
def requireConsoleAdmin : Setter Unit := do
  let admin ← unwrap (← get).settings.admin (.panic "admin not set")
  requireAuth admin

/-- `get_oracles` of an operation on the settings. -/
def consoleOracles : Setter (Map (BytesN 32) Bool) := do
  unwrap (← get).settings.oracles (.error .notInitialized)

/-- The oracle map that a list of keys makes. -/
def oracleMap (oracles : List (BytesN 32)) : Map (BytesN 32) Bool :=
  oracles.foldl (fun m oracle => m.insert oracle true) ∅

/-- The entry point `initialize`. -/
def initializeManager (admin : Address) (oracles : List (BytesN 32)) (quorum : Nat)
    (feeCollector : Address) (feeBps disputeWindowSecs : Nat) : Setter Unit := do
  rejectIf ((← get).settings.admin.isSome = true) (.error .alreadyInitialized)
  requireAuth admin
  rejectIf (quorum = 0 ∨ oracles.length < quorum) (.error .invalidQuorum)
  rejectIf (maxOracles < oracles.length) (.error .maxOraclesReached)
  rejectIf (isValidFeeBps feeBps = false) (.error .invalidFeeBps)
  modify (·.write fun s => { s with
    admin := some admin
    oracles := some (oracleMap oracles)
    oracleList := oracles
    quorum := some quorum
    feeCollector := some feeCollector
    feeBps := feeBps
    disputeWindow := disputeWindowSecs
    maxSubmissionDelay := 86400 })

def addOracle (oracle : BytesN 32) : Setter Unit := do
  requireConsoleAdmin
  let oracles ← consoleOracles
  let oracleList := (← get).settings.oracleList
  if oracle ∈ oracles then
    pure ()
  else do
    rejectIf (maxOracles ≤ oracleList.length) (.error .maxOraclesReached)
    modify (·.write fun s => { s with
      oracles := some (oracles.insert oracle true)
      oracleList := oracleList ++ [oracle] })

def removeOracle (oracle : BytesN 32) : Setter Unit := do
  requireConsoleAdmin
  let oracles ← consoleOracles
  modify (·.write fun s => { s with
    oracles := some (oracles.erase oracle)
    oracleList := s.oracleList.filter (· ≠ oracle) })

def setQuorum (quorum : Nat) : Setter Unit := do
  requireConsoleAdmin
  let oracles ← consoleOracles
  rejectIf (quorum = 0 ∨ oracles.entries.length < quorum) (.error .invalidQuorum)
  modify (·.write fun s => { s with quorum := some quorum })

/-- The oracle stays valid until the ledger reaches `effectiveLedger`. -/
def scheduleOracleRemoval (oraclePubkey : BytesN 32) (effectiveLedger : Nat) : Setter Unit := do
  requireConsoleAdmin
  let environment ← env
  rejectIf (effectiveLedger ≤ environment.sequence)
    (.panic "effective_ledger must be in the future")
  modify (·.write fun s => { s with
    pendingOracleRemoval :=
      Function.update s.pendingOracleRemoval oraclePubkey (some effectiveLedger) })

/-- The oracle leaves the map; the list of oracles stays as it is. -/
def executeOracleRemoval (oraclePubkey : BytesN 32) : Setter Unit := do
  requireConsoleAdmin
  let settings := (← get).settings
  let effectiveLedger ← unwrap (settings.pendingOracleRemoval oraclePubkey)
    (.panic "no removal scheduled for this oracle")
  let environment ← env
  rejectIf (environment.sequence < effectiveLedger) (.panic "grace period has not elapsed")
  modify (·.write fun s => { s with
    oracles := some ((settings.oracles.getD ∅).erase oraclePubkey)
    pendingOracleRemoval := Function.update s.pendingOracleRemoval oraclePubkey none })

/-- `is_oracle`; `none` is the error of a contract that is not initialised. -/
def isOracle (settings : Settings) (oracle : BytesN 32) : Option Bool :=
  settings.oracles.map fun oracles => decide (oracle ∈ oracles)

/-- `is_oracle_active` at a ledger. -/
def isOracleActive (settings : Settings) (ledger : Nat) (oraclePubkey : BytesN 32) : Bool :=
  if ((settings.oracles.getD ∅).lookup oraclePubkey).getD false = false then false
  else
    match settings.pendingOracleRemoval oraclePubkey with
    | some effectiveLedger => decide (ledger < effectiveLedger)
    | none => true

/-- A parameter that the admin sets on the admin's own authority. -/
inductive Parameter where
  | admin (newAdmin : Address)
  | maxSubmissionDelay (newDelay : Nat)
  | sdexThreshold (newThreshold : Nat)
  | paused (value : Bool)
  | registry (address : Address)
  | factory (address : Address)
  | recoveryGracePeriod (newPeriodSecs : Nat)
  | twapConfig (windowSecs minObservations : Nat)
  | resolutionConfig (confirmations minBlocks : Nat)
  deriving DecidableEq

namespace Parameter

/-- The settings with the parameter set. -/
def write (s : Settings) : Parameter → Settings
  | .admin newAdmin => { s with admin := some newAdmin }
  | .maxSubmissionDelay newDelay => { s with maxSubmissionDelay := newDelay }
  | .sdexThreshold newThreshold => { s with sdexThresholdBps := newThreshold }
  | .paused value => { s with paused := value }
  | .registry address => { s with registry := some address }
  | .factory address => { s with factory := some address }
  | .recoveryGracePeriod newPeriodSecs => { s with recoveryGracePeriodSecs := newPeriodSecs }
  | .twapConfig windowSecs minObservations =>
    { s with twapWindowSecs := windowSecs, twapMinObservations := minObservations }
  | .resolutionConfig confirmations minBlocks =>
    { s with resolutionConfirmations := confirmations, resolutionMinBlocks := minBlocks }

/-- The event that setting the parameter publishes, if it publishes one. -/
def events : Parameter → List Event
  | .maxSubmissionDelay newDelay => [.adminParamsChanged newDelay]
  | .sdexThreshold newThreshold => [.adminParamsChanged newThreshold]
  | .recoveryGracePeriod newPeriodSecs => [.adminParamsChanged newPeriodSecs]
  | .twapConfig windowSecs _ => [.adminParamsChanged windowSecs]
  | _ => []

end Parameter

/-- Set a parameter. -/
def setParameter (parameter : Parameter) : Setter Unit := do
  requireConsoleAdmin
  modify fun c => (c.write fun s => parameter.write s).publish parameter.events

def setAdmin (newAdmin : Address) : Setter Unit := setParameter (.admin newAdmin)

def setMaxSubmissionDelay (newDelay : Nat) : Setter Unit :=
  setParameter (.maxSubmissionDelay newDelay)

def setSdexThreshold (newThreshold : Nat) : Setter Unit :=
  setParameter (.sdexThreshold newThreshold)

def pause : Setter Unit := setParameter (.paused true)

def unpause : Setter Unit := setParameter (.paused false)

def setRegistry (registry : Address) : Setter Unit := setParameter (.registry registry)

def setFactory (factory : Address) : Setter Unit := setParameter (.factory factory)

def setRecoveryGracePeriod (newPeriodSecs : Nat) : Setter Unit :=
  setParameter (.recoveryGracePeriod newPeriodSecs)

def setTwapConfig (windowSecs minObservations : Nat) : Setter Unit :=
  setParameter (.twapConfig windowSecs minObservations)

def setResolutionConfig (confirmations minBlocks : Nat) : Setter Unit :=
  setParameter (.resolutionConfig confirmations minBlocks)

/-- The operations on the settings. -/
inductive SettingsOp where
  | initializeManager (admin : Address) (oracles : List (BytesN 32)) (quorum : Nat)
      (feeCollector : Address) (feeBps disputeWindowSecs : Nat)
  | addOracle (oracle : BytesN 32)
  | removeOracle (oracle : BytesN 32)
  | setQuorum (quorum : Nat)
  | scheduleOracleRemoval (oraclePubkey : BytesN 32) (effectiveLedger : Nat)
  | executeOracleRemoval (oraclePubkey : BytesN 32)
  | setParameter (parameter : Parameter)
  deriving DecidableEq

/-- Run an operation on the settings. -/
def SettingsOp.perform : SettingsOp → Setter Unit
  | .initializeManager admin oracles quorum feeCollector feeBps disputeWindowSecs =>
    OutcomeManager.initializeManager admin oracles quorum feeCollector feeBps
      disputeWindowSecs
  | .addOracle oracle => OutcomeManager.addOracle oracle
  | .removeOracle oracle => OutcomeManager.removeOracle oracle
  | .setQuorum quorum => OutcomeManager.setQuorum quorum
  | .scheduleOracleRemoval oraclePubkey effectiveLedger =>
    OutcomeManager.scheduleOracleRemoval oraclePubkey effectiveLedger
  | .executeOracleRemoval oraclePubkey => OutcomeManager.executeOracleRemoval oraclePubkey
  | .setParameter (.admin newAdmin) => setAdmin newAdmin
  | .setParameter (.maxSubmissionDelay newDelay) => setMaxSubmissionDelay newDelay
  | .setParameter (.sdexThreshold newThreshold) => setSdexThreshold newThreshold
  | .setParameter (.paused true) => pause
  | .setParameter (.paused false) => unpause
  | .setParameter (.registry registry) => setRegistry registry
  | .setParameter (.factory factory) => setFactory factory
  | .setParameter (.recoveryGracePeriod newPeriodSecs) => setRecoveryGracePeriod newPeriodSecs
  | .setParameter (.twapConfig windowSecs minObservations) =>
    setTwapConfig windowSecs minObservations
  | .setParameter (.resolutionConfig confirmations minBlocks) =>
    setResolutionConfig confirmations minBlocks

/-- `SettingsChange env op s s'` says when an operation on the settings succeeds and what it
changes. -/
inductive SettingsChange (env : Env) : SettingsOp → Settings → Settings → Prop where
  | initializeManager {s admin oracles quorum feeCollector feeBps disputeWindowSecs} :
      s.admin = none → admin ∈ env.auths → 0 < quorum → quorum ≤ oracles.length →
      oracles.length ≤ maxOracles → feeBps ≤ maxFeeBps →
      SettingsChange env
        (.initializeManager admin oracles quorum feeCollector feeBps disputeWindowSecs) s
        { s with
          admin := some admin
          oracles := some (oracleMap oracles)
          oracleList := oracles
          quorum := some quorum
          feeCollector := some feeCollector
          feeBps := feeBps
          disputeWindow := disputeWindowSecs
          maxSubmissionDelay := 86400 }
  | addOracle {s admin oracles oracle} :
      s.admin = some admin → admin ∈ env.auths → s.oracles = some oracles →
      oracle ∉ oracles → s.oracleList.length < maxOracles →
      SettingsChange env (.addOracle oracle) s
        { s with
          oracles := some (oracles.insert oracle true)
          oracleList := s.oracleList ++ [oracle] }
  | keepOracle {s admin oracles oracle} :
      s.admin = some admin → admin ∈ env.auths → s.oracles = some oracles → oracle ∈ oracles →
      SettingsChange env (.addOracle oracle) s s
  | removeOracle {s admin oracles oracle} :
      s.admin = some admin → admin ∈ env.auths → s.oracles = some oracles →
      SettingsChange env (.removeOracle oracle) s
        { s with
          oracles := some (oracles.erase oracle)
          oracleList := s.oracleList.filter (· ≠ oracle) }
  | setQuorum {s admin oracles quorum} :
      s.admin = some admin → admin ∈ env.auths → s.oracles = some oracles → 0 < quorum →
      quorum ≤ oracles.entries.length →
      SettingsChange env (.setQuorum quorum) s { s with quorum := some quorum }
  | scheduleOracleRemoval {s admin oraclePubkey effectiveLedger} :
      s.admin = some admin → admin ∈ env.auths → env.sequence < effectiveLedger →
      SettingsChange env (.scheduleOracleRemoval oraclePubkey effectiveLedger) s
        { s with
          pendingOracleRemoval :=
            Function.update s.pendingOracleRemoval oraclePubkey (some effectiveLedger) }
  | executeOracleRemoval {s admin oraclePubkey effectiveLedger} :
      s.admin = some admin → admin ∈ env.auths →
      s.pendingOracleRemoval oraclePubkey = some effectiveLedger →
      effectiveLedger ≤ env.sequence →
      SettingsChange env (.executeOracleRemoval oraclePubkey) s
        { s with
          oracles := some ((s.oracles.getD ∅).erase oraclePubkey)
          pendingOracleRemoval := Function.update s.pendingOracleRemoval oraclePubkey none }
  | setParameter {s admin parameter} : s.admin = some admin → admin ∈ env.auths →
      SettingsChange env (.setParameter parameter) s (parameter.write s)

theorem SettingsChange.fee_valid {env : Env} {op : SettingsOp} {s s' : Settings}
    (h : SettingsChange env op s s') (hfee : s.feeBps ≤ maxFeeBps) : s'.feeBps ≤ maxFeeBps := by
  cases h with
  | initializeManager _ _ _ _ _ hvalid => exact hvalid
  | @setParameter _ _ parameter => cases parameter <;> exact hfee
  | _ => exact hfee

section Specs

variable {β : Type} {env : Env} {c c' : Console} {b : β}

@[simp] theorem run_requireConsoleAdmin_bind (k : Unit → Setter β) :
    run (requireConsoleAdmin >>= k) env c = .ok (b, c') ↔
      ∃ admin, c.settings.admin = some admin ∧ admin ∈ env.auths ∧
        run (k ()) env c = .ok (b, c') := by
  simp only [requireConsoleAdmin, Contract.bind_assoc, run_get_bind, run_steps]

@[simp] theorem run_consoleOracles_bind (k : Map (BytesN 32) Bool → Setter β) :
    run (consoleOracles >>= k) env c = .ok (b, c') ↔
      ∃ oracles, c.settings.oracles = some oracles ∧ run (k oracles) env c = .ok (b, c') := by
  simp only [consoleOracles, Contract.bind_assoc, run_get_bind, run_unwrap_bind]

theorem set_parameter_changes {parameter : Parameter} {u : Unit}
    (h : run (setParameter parameter) env c = .ok (u, c')) :
    SettingsChange env (.setParameter parameter) c.settings c'.settings := by
  simp only [setParameter, run_requireConsoleAdmin_bind, run_modify] at h
  obtain ⟨admin, hadmin, hauth, rfl⟩ := h
  exact .setParameter hadmin hauth

/-- A successful operation on the settings is one of the listed changes. -/
theorem SettingsOp.changes {op : SettingsOp} {u : Unit} (h : run op.perform env c = .ok (u, c')) :
    SettingsChange env op c.settings c'.settings := by
  cases op with
  | initializeManager admin oracles quorum feeCollector feeBps disputeWindowSecs =>
    simp only [SettingsOp.perform, OutcomeManager.initializeManager, run_get_bind, run_steps,
      run_modify, not_or, not_lt, Bool.not_eq_false] at h
    obtain ⟨hnone, hauth, ⟨hpos, hlength⟩, hmax, hfee, rfl⟩ := h
    refine .initializeManager (by simpa using hnone) hauth (Nat.pos_of_ne_zero hpos) hlength hmax ?_
    simpa [isValidFeeBps] using hfee
  | addOracle oracle =>
    simp only [SettingsOp.perform, OutcomeManager.addOracle, run_requireConsoleAdmin_bind,
      run_consoleOracles_bind, run_get_bind] at h
    obtain ⟨admin, hadmin, hauth, oracles, horacles, h⟩ := h
    split at h
    · next hmem =>
      cases h
      exact .keepOracle hadmin hauth horacles hmem
    · next hmem =>
      simp only [run_rejectIf_bind, run_modify, not_le] at h
      obtain ⟨hmax, rfl⟩ := h
      exact .addOracle hadmin hauth horacles hmem hmax
  | removeOracle oracle =>
    simp only [SettingsOp.perform, OutcomeManager.removeOracle, run_requireConsoleAdmin_bind,
      run_consoleOracles_bind, run_modify] at h
    obtain ⟨admin, hadmin, hauth, oracles, horacles, rfl⟩ := h
    exact .removeOracle hadmin hauth horacles
  | setQuorum quorum =>
    simp only [SettingsOp.perform, OutcomeManager.setQuorum, run_requireConsoleAdmin_bind,
      run_consoleOracles_bind, run_rejectIf_bind, run_modify, not_or, not_lt] at h
    obtain ⟨admin, hadmin, hauth, oracles, horacles, ⟨hpos, hle⟩, rfl⟩ := h
    exact .setQuorum hadmin hauth horacles (Nat.pos_of_ne_zero hpos) hle
  | scheduleOracleRemoval oraclePubkey effectiveLedger =>
    simp only [SettingsOp.perform, OutcomeManager.scheduleOracleRemoval,
      run_requireConsoleAdmin_bind, run_steps, run_modify, not_le] at h
    obtain ⟨admin, hadmin, hauth, hfuture, rfl⟩ := h
    exact .scheduleOracleRemoval hadmin hauth hfuture
  | executeOracleRemoval oraclePubkey =>
    simp only [SettingsOp.perform, OutcomeManager.executeOracleRemoval,
      run_requireConsoleAdmin_bind, run_get_bind, run_steps, run_modify, not_lt] at h
    obtain ⟨admin, hadmin, hauth, effectiveLedger, hpending, hdue, rfl⟩ := h
    exact .executeOracleRemoval hadmin hauth hpending hdue
  | setParameter parameter =>
    cases parameter with
    | paused value => cases value <;> exact set_parameter_changes h
    | _ => exact set_parameter_changes h

end Specs

section Embedding

variable {R α : Type} {env : Env} {f f' : Frame Storage R Act}

/-- Run an operation on the settings. -/
def onSettings (x : Setter α) : Manager R α := fun env f =>
  match x env ⟨f.store.settings, []⟩ with
  | .ok (a, c) =>
    .ok (a, { f with
      store := f.store.onSettings fun _ => c.settings
      effects := c.events.map (.event ∘ .event) ++ f.effects })
  | .error e => .error e

/-- An operation on the settings changes nothing else and calls no other contract. -/
theorem run_onSettings {x : Setter α} {a : α} : run (onSettings x) env f = .ok (a, f') ↔
    ∃ c, run x env ⟨f.store.settings, []⟩ = .ok (a, c) ∧
      f' = { f with
        store := f.store.onSettings fun _ => c.settings
        effects := c.events.map (.event ∘ .event) ++ f.effects } := by
  simp only [run, onSettings]
  cases x env ⟨f.store.settings, []⟩ with
  | error e => simp
  | ok result =>
    obtain ⟨a', c⟩ := result
    simp only [Except.ok.injEq, Prod.mk.injEq]
    constructor
    · rintro ⟨rfl, rfl⟩
      exact ⟨c, ⟨rfl, rfl⟩, rfl⟩
    · rintro ⟨_, ⟨rfl, rfl⟩, rfl⟩
      exact ⟨rfl, rfl⟩

end Embedding

end Backit.OutcomeManager
