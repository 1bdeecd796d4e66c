import Backit.Oracle.Signing

/-!
# Oracle calls

The row of an oracle call, and what each operation of the service makes of the row that it has read.
Prices are the texts that the service is given, and times are in milliseconds.
-/

namespace Backit.Oracle

inductive OracleCallStatus where
  | draft
  | opened
  | paused
  | settling
  | resolvedYes
  | resolvedNo
  deriving DecidableEq

/-- The statuses that end a call. -/
def OracleCallStatus.terminal : OracleCallStatus → Bool
  | .resolvedYes | .resolvedNo => true
  | .draft | .opened | .paused | .settling => false

/-- The status of a call that is resolved so. -/
def Outcome.status : Outcome → OracleCallStatus
  | .yes => .resolvedYes
  | .no => .resolvedNo

/-- The columns of a call that the operations read or write. -/
structure OracleCall where
  id : Nat
  strikePrice : String
  status : OracleCallStatus
  reportCount : Nat
  isHidden : Bool
  needsAdminReview : Bool
  processedAt : Option Nat
  failedAt : Option Nat
  finalPrice : Option String
  resolvedAt : Option Nat
  deriving DecidableEq

/-- A stored outcome of a call. -/
structure OracleOutcome (Signature : Type*) where
  price : String
  outcome : Outcome
  signature : Signature
  evidenceCid : Option String

/-- The reports that pause a call. -/
def reportThreshold : Nat := 5

/-- What the service computes with prices, which are floating-point numbers, and its key pair. -/
structure OracleService (Key Signature : Type*) where
  atLeast : String → String → Bool
  scaledPrice : String → Int
  oracleKeypair : Keypair Key Signature

section Operations

variable {Key Signature : Type*} (service : OracleService Key Signature) (now : Nat)
  (call : OracleCall)

def evaluateOutcome (observedPrice : String) : Outcome :=
  if service.atLeast observedPrice call.strikePrice then .yes else .no

/-- The signature of a call's outcome, if the message can be written. -/
def signedOutcome (observedPrice : String) (outcome : Outcome) : Except RangeError Signature :=
  (signOutcome service.oracleKeypair
    ⟨call.id, service.scaledPrice observedPrice, now / 1000, outcome⟩).2

/-- A paused call that the oracle does not retry. -/
def failedCall : OracleCall := { call with failedAt := some now }

/-- A call whose price deviates too much. -/
def deviatingCall : OracleCall := { call with needsAdminReview := true, failedAt := some now }

/-- A call that the oracle has resolved. -/
def resolvedCall (outcome : Outcome) (observedPrice : String) : OracleCall :=
  { call with
    status := outcome.status
    finalPrice := some observedPrice
    resolvedAt := some now
    processedAt := some now }

/-- A call after one more report. -/
def reportedCall : OracleCall :=
  let reportCount := call.reportCount + 1
  { call with
    reportCount := reportCount
    isHidden := decide (reportThreshold ≤ reportCount)
    status := if reportThreshold ≤ reportCount ∧ call.status = .opened then .paused
      else call.status }

/-- A call that an admin unpauses. -/
def unpausedCall : Option OracleCall :=
  if call.status ≠ .paused then none
  else some { call with status := .opened, failedAt := none }

/-- A call that an admin resolves. -/
def adminResolvedCall (resolution : Outcome) (finalPrice : Option String) : Option OracleCall :=
  if call.status ∉ [.opened, .paused, .settling] then none
  else some { call with
    status := resolution.status
    resolvedAt := some now
    processedAt := some now
    failedAt := none
    finalPrice := finalPrice.orElse fun _ => call.finalPrice }

end Operations

section Facts

variable {call call' : OracleCall} {now : Nat}

@[simp] theorem terminal_status (outcome : Outcome) : outcome.status.terminal = true := by
  cases outcome <;> rfl

theorem reported_status (hopen : call.status ≠ .opened) :
    (reportedCall call).status = call.status := by
  simp [reportedCall, hopen]

theorem unpaused_call (h : unpausedCall call = some call') :
    call.status = .paused ∧ call'.reportCount = call.reportCount := by
  unfold unpausedCall at h
  split at h
  · cases h
  · next hpaused =>
    cases h
    exact ⟨not_not.mp hpaused, rfl⟩

theorem admin_resolved_call {resolution : Outcome} {finalPrice : Option String}
    (h : adminResolvedCall now call resolution finalPrice = some call') :
    call.status.terminal = false ∧ call'.reportCount = call.reportCount := by
  unfold adminResolvedCall at h
  split at h
  · cases h
  · next hresolvable =>
    cases h
    refine ⟨?_, rfl⟩
    revert hresolvable
    cases call.status <;> simp [OracleCallStatus.terminal]

end Facts

end Backit.Oracle
