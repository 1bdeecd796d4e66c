import Backit.Lib.Json
import Backit.Lib.JsText

/-!
# Dead-letter entries

A job that failed for good has an entry: the data of a job on the dead-letter queue, which nothing
processes. Entries from before some of the fields existed lack them, and are read with defaults.
The operations write a changed copy of the whole payload that they have read.
-/

namespace Backit.DeadLetter

open Lib

inductive QueueName where
  | ipfsPinning
  | notifications
  | oracleSigning
  | deadLetter
  | reconciliation
  deriving DecidableEq

def QueueName.toText : QueueName → String
  | .ipfsPinning => "ipfs-pinning"
  | .notifications => "notifications"
  | .oracleSigning => "oracle-signing"
  | .deadLetter => "dead-letter"
  | .reconciliation => "reconciliation"

inductive ReplayStatus where
  | opened
  | replayed
  | dismissed
  deriving DecidableEq

def ReplayStatus.lowerCase : ReplayStatus → String
  | .opened => "open"
  | .replayed => "replayed"
  | .dismissed => "dismissed"

inductive DeadLetterClassification where
  | retryableInfrastructure
  | permanentValidation
  | permanentConfiguration
  | unknown
  deriving DecidableEq

inductive JobId where
  | text (id : String)
  | number (id : Int)
  deriving DecidableEq

def JobId.toText : JobId → String
  | .text id => id
  | .number id => toString id

structure DeadLetterPayload where
  version : Option Nat
  correlationId : Option String
  sourceQueue : QueueName
  jobName : String
  jobId : JobId
  attemptsMade : Nat
  attempts : Nat
  classification : Option DeadLetterClassification
  failedReason : Option String
  stacktrace : Option (List String)
  data : Json
  redactionFailed : Option Bool
  sourceTimestamp : Option String
  movedAt : String
  replayStatus : Option ReplayStatus
  replayedAt : Option String
  replayedBy : Option String
  replayReason : Option String
  dismissedAt : Option String
  dismissedBy : Option String
  dismissReason : Option String
  lastReplayError : Option String
  lastReplayAttemptAt : Option String

structure DeadLetterEntry where
  dlqJobId : String
  version : Nat
  correlationId : String
  sourceQueue : QueueName
  jobName : String
  jobId : JobId
  attemptsMade : Nat
  attempts : Nat
  classification : DeadLetterClassification
  data : Json
  redactionFailed : Bool
  sourceTimestamp : String
  movedAt : String
  replayStatus : ReplayStatus
  failedReason : Option String
  stacktrace : Option (List String)
  replayedAt : Option String
  replayedBy : Option String
  replayReason : Option String
  dismissedAt : Option String
  dismissedBy : Option String
  dismissReason : Option String
  lastReplayError : Option String
  lastReplayAttemptAt : Option String

/-- The entry of a payload, with defaults for what it lacks. -/
def normalizeEntry (dlqJobId : String) (payload : DeadLetterPayload) : DeadLetterEntry where
  dlqJobId := dlqJobId
  version := payload.version.getD 0
  correlationId := payload.correlationId.getD ("legacy-" ++ dlqJobId)
  sourceQueue := payload.sourceQueue
  jobName := payload.jobName
  jobId := payload.jobId
  attemptsMade := payload.attemptsMade
  attempts := payload.attempts
  classification := payload.classification.getD .unknown
  failedReason := payload.failedReason
  stacktrace := payload.stacktrace
  data := payload.data
  redactionFailed := payload.redactionFailed.getD false
  sourceTimestamp := payload.sourceTimestamp.getD payload.movedAt
  movedAt := payload.movedAt
  replayStatus := payload.replayStatus.getD .opened
  replayedAt := payload.replayedAt
  replayedBy := payload.replayedBy
  replayReason := payload.replayReason
  dismissedAt := payload.dismissedAt
  dismissedBy := payload.dismissedBy
  dismissReason := payload.dismissReason
  lastReplayError := payload.lastReplayError
  lastReplayAttemptAt := payload.lastReplayAttemptAt

def DeadLetterPayload.status (payload : DeadLetterPayload) : ReplayStatus :=
  payload.replayStatus.getD .opened

@[simp] theorem normalize_status (dlqJobId : String) (payload : DeadLetterPayload) :
    (normalizeEntry dlqJobId payload).replayStatus = payload.status := rfl

/-- The copy that a replay writes. -/
def replayedPayload (now actorId reason : String) (payload : DeadLetterPayload) :
    DeadLetterPayload :=
  { payload with
    replayStatus := some .replayed
    replayedAt := some now
    replayedBy := some actorId
    replayReason := some reason
    lastReplayError := none
    lastReplayAttemptAt := some now }

/-- The copy that `recordReplayFailure` writes. -/
def failedPayload (now failure : String) (payload : DeadLetterPayload) : DeadLetterPayload :=
  { payload with lastReplayError := some failure, lastReplayAttemptAt := some now }

/-- The copy that a dismissal writes. -/
def dismissedPayload (now actorId reason : String) (payload : DeadLetterPayload) :
    DeadLetterPayload :=
  { payload with
    replayStatus := some .dismissed
    dismissedAt := some now
    dismissedBy := some actorId
    dismissReason := some reason }

/-- A member of an object; nothing else has members. -/
def member (name : String) : Json → Option Json
  | .obj members => (members.find? (·.1 = name)).map (·.2)
  | _ => none

def isPlainObject : Option Json → Bool
  | some (.obj _) => true
  | _ => false

def isNonEmptyString : Option Json → Bool
  | some (.str s) => s ≠ ""
  | _ => false

def isNumericString : Option Json → Bool
  | some (.str s) => s ≠ "" && isNumeric s
  | _ => false

/-- A number of a JSON text is finite. -/
def isFiniteNumber : Option Json → Bool
  | some (.num _) => true
  | _ => false

def isPositiveNumber : Option Json → Bool
  | some (.num n) => n.text.head? != some '-' && n.text != ['0']
  | _ => false

/-- The reason of the first check that fails. -/
def firstFailure (checks : List (Bool × String)) : Option String := (checks.find? (!·.1)).map (·.2)

def validateOracleSigningJobData (data : Json) : Option String :=
  if !isPlainObject (some data) then some "data is not an object"
  else
    let payload := member "payload" data
    let asset := payload.bind (member "asset")
    let price := payload.bind (member "price")
    let timestamp := payload.bind (member "timestamp")
    firstFailure
      [(isPlainObject payload, "data.payload is missing or not an object"),
        (isNonEmptyString asset, "payload.asset must be a non-empty string"),
        (isNumericString price, "payload.price must be a numeric string"),
        (isPositiveNumber timestamp, "payload.timestamp must be a positive number")]

/-- `String(value)` of a type; the texts of arrays and objects are the host's. -/
def typeText (composite : Json → String) : Option Json → String
  | none => "undefined"
  | some .null => "null"
  | some (.bool b) => if b then "true" else "false"
  | some (.num n) => String.ofList n.text
  | some (.str s) => s
  | some value => composite value

def validateIpfsPinningJobData (composite : Json → String) (data : Json) : Option String :=
  if !isPlainObject (some data) then some "data is not an object"
  else
    match member "type" data with
    | some (.str "call-content") =>
      let content := member "content" data
      firstFailure
        [(isPlainObject content, "content is missing or not an object"),
          (isNonEmptyString (content.bind (member "title")),
            "content.title must be a non-empty string"),
          (isNonEmptyString (content.bind (member "thesis")),
            "content.thesis must be a non-empty string"),
          (isNonEmptyString (content.bind (member "createdAt")),
            "content.createdAt must be a non-empty string")]
    | some (.str "oracle-evidence") =>
      let evidence := member "evidence" data
      firstFailure
        [(isPlainObject evidence, "evidence is missing or not an object"),
          (isFiniteNumber (evidence.bind (member "callId")), "evidence.callId must be a number"),
          (isNonEmptyString (evidence.bind (member "timestamp")),
            "evidence.timestamp must be a non-empty string"),
          (isNonEmptyString (evidence.bind (member "source")),
            "evidence.source must be a non-empty string")]
    | type => some ("unrecognized ipfs-pinning job type \"" ++ typeText composite type ++ "\"")

def validateNotificationsJobData (data : Json) : Option String :=
  if !isPlainObject (some data) then some "data is not an object"
  else
    firstFailure
      [(isFiniteNumber (member "notificationId" data), "notificationId must be a number")]

/-- Why the source job's data does not have the shape that its queue expects; nothing if it has. -/
def validateSourceJobData (composite : Json → String) (sourceQueue : QueueName) (data : Json) :
    Option String :=
  match sourceQueue with
  | .oracleSigning => validateOracleSigningJobData data
  | .ipfsPinning => validateIpfsPinningJobData composite data
  | .notifications => validateNotificationsJobData data
  | other => some ("replay is not supported for source queue \"" ++ other.toText ++ "\"")

/-- The queues that entries are replayed into. -/
def isReplayable : QueueName → Bool
  | .oracleSigning => true
  | .ipfsPinning => true
  | .notifications => true
  | _ => false

end Backit.DeadLetter
