import Backit.Lib.Json

/-!
# Idempotency records

A request with an idempotency key claims the record of the key, its route and its principal, runs
its handler, and stores the outcome for later requests. The functions here are what the service
does to the one record of such a triple.
-/

namespace Backit.Idempotency

open Lib

inductive IdempotencyState where
  | inProgress
  | success
  | failed
  | retryable
  deriving DecidableEq

/-- The states that end a key: its response is stored for good. -/
def IdempotencyState.terminal : IdempotencyState → Bool
  | .success => true
  | .failed => true
  | .inProgress => false
  | .retryable => false

/-- The record of a key, a route and a principal. The fingerprints are of type `F`. -/
structure IdempotencyRecord (F : Type) where
  fingerprint : F
  state : IdempotencyState
  httpStatus : Option Nat
  responseBody : Option Json
  note : Option String
  expiresAt : Nat

/-- 24 hours, in milliseconds. -/
def defaultRetentionMs : Nat := 24 * 60 * 60 * 1000

def maxKeyLength : Nat := 128

def retryableHttpStatuses : List Nat := [408, 429, 502, 503, 504]

def sensitiveKeys : List String :=
  ["xdr", "signature", "secret", "privateKey", "token", "password", "mnemonic", "seed"]

inductive ClaimResult where
  | claimed
  | replayed (httpStatus : Nat) (body : Json)
  | inProgress
  | conflict

/-- A new claim of a record. -/
def claimedRecord {F : Type} (now : Nat) (fp : F) : IdempotencyRecord F where
  fingerprint := fp
  state := .inProgress
  httpStatus := none
  responseBody := none
  note := none
  expiresAt := now + defaultRetentionMs

/-- The transaction of a claim, on the record that it finds: its result and the record it leaves. -/
def claimOrReplay {F : Type} [DecidableEq F] (now : Nat) (fp : F) :
    Option (IdempotencyRecord F) → ClaimResult × Option (IdempotencyRecord F)
  | none => (.claimed, some (claimedRecord now fp))
  | some existing =>
    if existing.fingerprint ≠ fp then (.conflict, some existing)
    else
      match existing.state with
      | .inProgress => (.inProgress, some existing)
      | .retryable => (.claimed, some { existing with
          state := .inProgress
          httpStatus := none
          responseBody := none
          note := none
          expiresAt := now + defaultRetentionMs })
      | .success | .failed =>
        (.replayed (existing.httpStatus.getD 200) (existing.responseBody.getD (.obj [])),
          some existing)

/-- What `sanitise` keeps of a member. The assignment to a key `__proto__` sets no member. -/
def sanitiseMember (nested : Json → Json) : String × Json → Option (String × Json)
  | (k, v) =>
    if k ∈ sensitiveKeys then some (k, .str "[REDACTED]")
    else if k = "__proto__" then none
    else some (k, if v.isComposite then nested v else v)

/-- `sanitise` with so many levels left. -/
def sanitiseWithin : Nat → Json → Json
  | 0, _ => .obj []
  | levels + 1, value => .obj (value.entries.filterMap (sanitiseMember (sanitiseWithin levels)))

/-- The stored form of a response body. Below a depth of four nothing is kept. -/
def sanitise (value : Json) : Json := sanitiseWithin 5 value

/-- A success is stored with its sanitised response. -/
def complete {F : Type} (now httpStatus : Nat) (responseBody : Json)
    (record : IdempotencyRecord F) : IdempotencyRecord F :=
  { record with
    state := .success
    httpStatus := some httpStatus
    responseBody := some (sanitise responseBody)
    note := none
    expiresAt := now + defaultRetentionMs }

/-- The state of a failed key. -/
def failureState (httpStatus : Nat) : IdempotencyState :=
  if httpStatus ∈ retryableHttpStatuses then .retryable else .failed

/-- A failure is stored with its status and its reason. -/
def fail {F : Type} (now httpStatus : Nat) (reason : String) (record : IdempotencyRecord F) :
    IdempotencyRecord F :=
  { record with
    state := failureState httpStatus
    httpStatus := some httpStatus
    note := some (String.ofList (reason.toList.take 1024))
    expiresAt := now + defaultRetentionMs }

/-- The scheduled deletion of an expired record that is not in progress. -/
def cleanupExpired {F : Type} (now : Nat) :
    Option (IdempotencyRecord F) → Option (IdempotencyRecord F)
  | none => none
  | some record => if record.expiresAt < now ∧ record.state ≠ .inProgress then none else some record

/-- What a handler throws: an HTTP exception with the body that answers it, or another error. -/
inductive Thrown where
  | http (status : Nat) (response : Json) (message : String)
  | other (status : Option Nat) (message : Option String)

/-- The status and the message that are stored of an error. -/
def extractErrorInfo : Thrown → Nat × String
  | .http status _ message => (status, message)
  | .other status message => (status.getD 500, message.getD "Unknown error")

section Claims

variable {F : Type} [DecidableEq F] {now : Nat} {fp : F}
  {record record' : Option (IdempotencyRecord F)} {result : ClaimResult}

/-- A claim succeeds on no record or on one that may be retried, and leaves it in progress. -/
theorem claim_claimed (h : claimOrReplay now fp record = (.claimed, record')) :
    (∀ r, record = some r → r.state = .retryable) ∧
      ∃ r', record' = some r' ∧ r'.state = .inProgress := by
  cases record with
  | none =>
    cases h
    exact ⟨by simp, _, rfl, rfl⟩
  | some existing =>
    simp only [claimOrReplay] at h
    split at h
    · cases h
    · split at h
      · cases h
      · next hstate =>
        cases h
        exact ⟨fun r hr => Option.some.inj hr ▸ hstate, _, rfl, rfl⟩
      · cases h
      · cases h

theorem claim_refused (h : claimOrReplay now fp record = (result, record'))
    (hresult : result ≠ .claimed) : record' = record := by
  cases record with
  | none =>
    cases h
    exact absurd rfl hresult
  | some existing =>
    simp only [claimOrReplay] at h
    split at h
    · cases h
      rfl
    · split at h
      · cases h
        rfl
      · cases h
        exact absurd rfl hresult
      · cases h
        rfl
      · cases h
        rfl

omit [DecidableEq F] in
theorem cleanup_unexpired (h : ∀ r, record = some r → now ≤ r.expiresAt) :
    cleanupExpired now record = record := by
  cases record with
  | none => rfl
  | some r =>
    have hle := h r rfl
    simp only [cleanupExpired]
    rw [if_neg]
    omega

end Claims

end Backit.Idempotency
