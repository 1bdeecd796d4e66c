import Backit.OutcomeManager.Types

/-!
# The outcome manager's storage

Storage is grouped by what changes it together: the settings, the tally of the oracles' reports,
and the record of payouts. Submissions, vote counts and observations are temporary entries, which
may lapse between invocations; every other entry stays. The registries and the factory are other
contracts, and `Registries` are the calls the manager makes to them.
-/

namespace Backit.OutcomeManager

open Soroban Contract

/-- The contracts that the manager calls. `none` is a call that traps; the environment is the
manager's, which is the caller. -/
class Registries (R : Type) where
  resolveCall : Env → Address → Nat → Nat → Int → R → Option R
  releaseEscrow : Env → Address → Nat → Address → Int → R → Option R
  markSettled : Env → Address → Nat → R → Option R
  getMarket : R → Address → Nat → Option Address

/-- The configuration and the set of oracles. -/
structure Settings where
  admin : Option Address
  oracles : Option (Map (BytesN 32) Bool)
  oracleList : List (BytesN 32)
  pendingOracleRemoval : BytesN 32 → Option Nat
  quorum : Option Nat
  feeCollector : Option Address
  feeBps : Nat
  registry : Option Address
  factory : Option Address
  disputeWindow : Nat
  paused : Bool
  maxSubmissionDelay : Nat
  sdexThresholdBps : Nat
  twapWindowSecs : Nat
  twapMinObservations : Nat
  resolutionConfirmations : Nat
  resolutionMinBlocks : Nat
  recoveryGracePeriodSecs : Nat

/-- The reports on each call and what they decided. -/
structure Tally where
  finalOutcome : Nat → Option Outcome
  settledAt : Nat → Option Nat
  pendingOutcome : Nat → Option Outcome
  disputeWindowStart : Nat → Option Nat
  votes : Nat → List OracleVote
  processedDigest : BytesN 32 → Bool
  submission : BytesN 32 × Nat → Option (BytesN 32)
  voteCount : BytesN 32 × Nat → Option Nat
  priceObservations : Nat → List PriceObservation
  resolutionObservations : Nat → List ResolutionObservation

/-- Who has been paid, and who may claim for whom. -/
structure Payouts where
  claimed : Nat × Address → Bool
  claimableBalanceId : Nat × Address → Option (BytesN 32)
  recoveryAddress : Address → Option Address

structure Storage where
  settings : Settings
  tally : Tally
  payouts : Payouts

/-- The storage of a freshly deployed contract, with the defaults that the readers of absent
entries use. -/
def Storage.empty : Storage where
  settings :=
    { admin := none
      oracles := none
      oracleList := []
      pendingOracleRemoval := fun _ => none
      quorum := none
      feeCollector := none
      feeBps := 0
      registry := none
      factory := none
      disputeWindow := 3600
      paused := false
      maxSubmissionDelay := 86400
      sdexThresholdBps := 500
      twapWindowSecs := 600
      twapMinObservations := 3
      resolutionConfirmations := 5
      resolutionMinBlocks := 3
      recoveryGracePeriodSecs := 30 * 24 * 60 * 60 }
  tally :=
    { finalOutcome := fun _ => none
      settledAt := fun _ => none
      pendingOutcome := fun _ => none
      disputeWindowStart := fun _ => none
      votes := fun _ => []
      processedDigest := fun _ => false
      submission := fun _ => none
      voteCount := fun _ => none
      priceObservations := fun _ => []
      resolutionObservations := fun _ => [] }
  payouts :=
    { claimed := fun _ => false
      claimableBalanceId := fun _ => none
      recoveryAddress := fun _ => none }

namespace Storage

variable (s : Storage)

/-- Apply a write to the settings. -/
def onSettings (write : Settings → Settings) : Storage := { s with settings := write s.settings }

/-- Apply a write to the tally. -/
def onTally (write : Tally → Tally) : Storage := { s with tally := write s.tally }

/-- Apply a write to the record of payouts. -/
def onPayouts (write : Payouts → Payouts) : Storage := { s with payouts := write s.payouts }

@[simp] theorem onPayouts_payouts (write : Payouts → Payouts) :
    (s.onPayouts write).payouts = write s.payouts := rfl

end Storage

/-- A temporary entry. -/
inductive TempKey where
  | submission (oracle : BytesN 32) (callId : Nat)
  | voteCount (outcomeHash : BytesN 32) (callId : Nat)
  | priceObservations (callId : Nat)
  | resolutionObservations (callId : Nat)
  deriving DecidableEq

/-- The tally after a temporary entry has lapsed. -/
def Tally.lapse (t : Tally) : TempKey → Tally
  | .submission oracle callId =>
    { t with submission := Function.update t.submission (oracle, callId) none }
  | .voteCount hash callId =>
    { t with voteCount := Function.update t.voteCount (hash, callId) none }
  | .priceObservations callId =>
    { t with priceObservations := Function.update t.priceObservations callId [] }
  | .resolutionObservations callId =>
    { t with resolutionObservations := Function.update t.resolutionObservations callId [] }

/-- A computation of a manager entry point. Its frame carries the state of the registries where
a registry's carries the state of the token contracts. -/
abbrev Manager (R α : Type) := Contract (Frame Storage R Act) OutcomeError α

variable {R : Type} [Registries R]

/-- Publish an event. -/
def announce (event : Event) : Manager R Unit := publish (.event event)

/-- Record a call to another contract that may trap. -/
def callOut (call : Env → R → Option R) (act : Act) : Manager R Unit := fun env f =>
  match call env f.tokens with
  | some others => .ok ((), f.record others (.event act))
  | none => .error .external

def registryResolveCall (registry : Address) (callId outcome : Nat) (endPrice : Int) :
    Manager R Unit :=
  callOut (fun env => Registries.resolveCall env registry callId outcome endPrice)
    (.resolveCall registry callId outcome endPrice)

def registryReleaseEscrow (registry : Address) (callId : Nat) (recipient : Address)
    (amount : Int) : Manager R Unit :=
  callOut (fun env => Registries.releaseEscrow env registry callId recipient amount)
    (.releaseEscrow registry callId recipient amount)

def registryMarkSettled (registry : Address) (callId : Nat) : Manager R Unit :=
  callOut (fun env => Registries.markSettled env registry callId) (.markSettled registry callId)

/-- The market that the factory deployed for a call. -/
def factoryGetMarket (factory : Address) (callId : Nat) : Manager R Address := fun _ f =>
  match Registries.getMarket f.tokens factory callId with
  | some market => .ok (market, f)
  | none => .error .external

/-- When a factory is configured, the registry must be the factory's market for the call. -/
def validateMarketRegistry (registry : Address) (callId : Nat) : Manager R Unit := do
  match (← getStore).settings.factory with
  | none => pure ()
  | some factory => do
      let expected ← factoryGetMarket factory callId
      rejectIf (expected ≠ registry) (.error .invalidMarket)

def requireAdmin : Manager R Unit := do
  let admin ← unwrap (← getStore).settings.admin (.panic "admin not set")
  requireAuth admin

def getOracles : Manager R (Map (BytesN 32) Bool) := do
  unwrap (← getStore).settings.oracles (.error .notInitialized)

def getQuorum : Manager R Nat := do
  unwrap (← getStore).settings.quorum (.error .notInitialized)

def rejectIfPaused : Manager R Unit := do
  rejectIf ((← getStore).settings.paused = true) (.error .contractPaused)

def requireCallSettled (callId : Nat) : Manager R Unit := do
  rejectIf ((← getStore).tally.finalOutcome callId = none) (.error .callNotSettled)

section Specs

variable {α β : Type} {env : Env} {f f' : Frame Storage R Act} {b : β}

omit [Registries R] in
@[simp] theorem run_announce_bind (event : Event) (k : Unit → Manager R β) :
    run (announce event >>= k) env f =
      run (k ()) env (f.record f.tokens (.event (.event event))) := by
  simp only [announce, run_publish_bind]

omit [Registries R] in
@[simp] theorem run_announce (event : Event) (u : Unit) :
    run (announce event : Manager R Unit) env f = .ok (u, f') ↔
      f' = f.record f.tokens (.event (.event event)) := by
  simp only [announce, run_publish]

omit [Registries R] in
@[simp] theorem run_callOut_bind (call : Env → R → Option R) (act : Act) (k : Unit → Manager R β) :
    run (callOut call act >>= k) env f = .ok (b, f') ↔
      ∃ others, call env f.tokens = some others ∧
        run (k ()) env (f.record others (.event act)) = .ok (b, f') := by
  cases h : call env f.tokens <;> simp [run, bind, callOut, h]

omit [Registries R] in
@[simp] theorem run_callOut (call : Env → R → Option R) (act : Act) (u : Unit) :
    run (callOut call act : Manager R Unit) env f = .ok (u, f') ↔
      ∃ others, call env f.tokens = some others ∧ f' = f.record others (.event act) := by
  cases h : call env f.tokens <;> simp [run, callOut, h, eq_comm]

omit [Registries R] in
@[simp] theorem run_requireAdmin_bind (k : Unit → Manager R β) :
    run (requireAdmin >>= k) env f = .ok (b, f') ↔
      ∃ admin, f.store.settings.admin = some admin ∧ admin ∈ env.auths ∧
        run (k ()) env f = .ok (b, f') := by
  simp only [requireAdmin, Contract.bind_assoc, run_steps]

omit [Registries R] in
@[simp] theorem run_getOracles_bind (k : Map (BytesN 32) Bool → Manager R β) :
    run (getOracles >>= k) env f = .ok (b, f') ↔
      ∃ oracles, f.store.settings.oracles = some oracles ∧
        run (k oracles) env f = .ok (b, f') := by
  simp only [getOracles, Contract.bind_assoc, run_steps]

omit [Registries R] in
@[simp] theorem run_getQuorum_bind (k : Nat → Manager R β) :
    run (getQuorum >>= k) env f = .ok (b, f') ↔
      ∃ quorum, f.store.settings.quorum = some quorum ∧ run (k quorum) env f = .ok (b, f') := by
  simp only [getQuorum, Contract.bind_assoc, run_steps]

omit [Registries R] in
@[simp] theorem run_rejectIfPaused_bind (k : Unit → Manager R β) :
    run (rejectIfPaused >>= k) env f = .ok (b, f') ↔
      f.store.settings.paused = false ∧ run (k ()) env f = .ok (b, f') := by
  simp only [rejectIfPaused, Contract.bind_assoc, run_steps, Bool.not_eq_true]

omit [Registries R] in
@[simp] theorem run_requireCallSettled_bind (callId : Nat) (k : Unit → Manager R β) :
    run (requireCallSettled callId >>= k) env f = .ok (b, f') ↔
      f.store.tally.finalOutcome callId ≠ none ∧ run (k ()) env f = .ok (b, f') := by
  simp only [requireCallSettled, Contract.bind_assoc, run_steps, ne_eq]

/-- Checking the registry against the factory changes nothing. -/
theorem validate_market_registry_read_only (registry : Address) (callId : Nat) :
    ReadOnly (validateMarketRegistry registry callId : Manager R Unit) := by
  intro env f u f' h
  rw [validateMarketRegistry, run_getStore_bind] at h
  split at h
  · cases h
    rfl
  · next factory _ =>
    rw [run_bind] at h
    obtain ⟨market, f₁, hmarket, h⟩ := h
    rw [run_rejectIf] at h
    cases hlookup : Registries.getMarket f.tokens factory callId with
    | none => simp [run, factoryGetMarket, hlookup] at hmarket
    | some found =>
      simp only [run, factoryGetMarket, hlookup, Except.ok.injEq, Prod.mk.injEq] at hmarket
      exact h.2.trans hmarket.2.symm

end Specs

end Backit.OutcomeManager
