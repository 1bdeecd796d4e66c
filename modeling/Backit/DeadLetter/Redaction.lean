import Backit.DeadLetter.Entries

/-!
# Redacting job data

What an operator is shown of a job's data is built field by field from an allowlist of its queue.
The fields are read a second time before a replay, by the schema that the queue expects.
-/

namespace Backit.DeadLetter

open Lib

def maxTextFieldLength : Nat := 500

/-- The text, or as much of it as there is room for and a mark. -/
def truncate (value : String) (max : Nat) : List UInt16 :=
  if max < (utf16 value).length then (utf16 value).take max ++ utf16 "...[truncated]"
  else utf16 value

/-- The objects that the redactors build. -/
inductive RedactedData where
  | empty
  | oracleSigning (asset price : String) (timestamp : Numeral)
  | callContent (title thesis : List UInt16) (createdAt : String) (conditionJsonOmitted : Bool)
  | oracleEvidence (callId : Numeral) (timestamp source : String) (priceDataOmitted : Bool)
  | notification (notificationId : Numeral)
  deriving DecidableEq

structure RedactedPayload where
  data : RedactedData
  redactionFailed : Bool
  deriving DecidableEq

/-- The allowlisted data, or a stub where the shape is not the expected one. -/
def RedactedPayload.of : Option RedactedData → RedactedPayload
  | some data => ⟨data, false⟩
  | none => ⟨.empty, true⟩

def plainObject (value : Option Json) : Option Json := value.filter (isPlainObject ∘ some)

/-- The text, if the value is one. -/
def asString : Option Json → Option String
  | some (.str s) => some s
  | _ => none

def asNumber : Option Json → Option Numeral
  | some (.num n) => some n
  | _ => none

def pickString (obj : Json) (key : String) : Option String := asString (member key obj)

def pickNumber (obj : Json) (key : String) : Option Numeral := asNumber (member key obj)

def redactOracleSigning (data : Json) : Option RedactedData := do
  let data ← plainObject (some data)
  let payload ← plainObject (member "payload" data)
  let asset ← pickString payload "asset"
  let price ← pickString payload "price"
  let timestamp ← pickNumber payload "timestamp"
  return .oracleSigning asset price timestamp

def redactCallContent (data : Json) : Option RedactedData := do
  let content ← plainObject (member "content" data)
  let title ← pickString content "title"
  let thesis ← pickString content "thesis"
  let createdAt ← pickString content "createdAt"
  return .callContent (truncate title maxTextFieldLength) (truncate thesis maxTextFieldLength)
    createdAt (member "conditionJson" content).isSome

def redactOracleEvidence (data : Json) : Option RedactedData := do
  let evidence ← plainObject (member "evidence" data)
  let callId ← pickNumber evidence "callId"
  let timestamp ← pickString evidence "timestamp"
  let source ← pickString evidence "source"
  return .oracleEvidence callId timestamp source (member "priceData" evidence).isSome

def redactIpfsPinning (data : Json) : Option RedactedData := do
  let data ← plainObject (some data)
  let type ← pickString data "type"
  if type = "call-content" then redactCallContent data
  else if type = "oracle-evidence" then redactOracleEvidence data
  else none

def redactNotifications (data : Json) : Option RedactedData := do
  let data ← plainObject (some data)
  let notificationId ← pickNumber data "notificationId"
  return .notification notificationId

def redactJobData (sourceQueue : QueueName) (data : Json) : RedactedPayload :=
  match sourceQueue with
  | .oracleSigning => .of (redactOracleSigning data)
  | .ipfsPinning => .of (redactIpfsPinning data)
  | .notifications => .of (redactNotifications data)
  | _ => .of none

/-- The value at a path of members. -/
def valueAt : List String → Json → Option Json
  | [], value => some value
  | name :: path, value => (member name value).bind (valueAt path)

/-- The fields that an operator may see. -/
def allowlist : QueueName → List (List String)
  | .oracleSigning => [["payload", "asset"], ["payload", "price"], ["payload", "timestamp"]]
  | .ipfsPinning =>
    [["type"], ["content", "title"], ["content", "thesis"], ["content", "createdAt"],
      ["evidence", "callId"], ["evidence", "timestamp"], ["evidence", "source"]]
  | .notifications => [["notificationId"]]
  | _ => []

/-- The fields of which only the presence may be seen. -/
def omittedFields : QueueName → List (List String)
  | .ipfsPinning => [["content", "conditionJson"], ["evidence", "priceData"]]
  | _ => []

/-- The payloads are the same to somebody who sees the allowlisted fields and which of the omitted
ones there are. -/
structure Agree (sourceQueue : QueueName) (data data' : Json) : Prop where
  allowed : ∀ path ∈ allowlist sourceQueue, valueAt path data = valueAt path data'
  present : ∀ path ∈ omittedFields sourceQueue,
    (valueAt path data).isSome = (valueAt path data').isSome

/-- The redacted data has what identifies the job. -/
def Identifies (data : Json) : RedactedData → Prop
  | .empty => False
  | .oracleSigning asset price timestamp =>
    valueAt ["payload", "asset"] data = some (.str asset) ∧
      valueAt ["payload", "price"] data = some (.str price) ∧
      valueAt ["payload", "timestamp"] data = some (.num timestamp)
  | .callContent title thesis createdAt _ =>
    valueAt ["type"] data = some (.str "call-content") ∧
      (∃ text, valueAt ["content", "title"] data = some (.str text) ∧
        title = truncate text maxTextFieldLength) ∧
      (∃ text, valueAt ["content", "thesis"] data = some (.str text) ∧
        thesis = truncate text maxTextFieldLength) ∧
      valueAt ["content", "createdAt"] data = some (.str createdAt)
  | .oracleEvidence callId timestamp source _ =>
    valueAt ["type"] data = some (.str "oracle-evidence") ∧
      valueAt ["evidence", "callId"] data = some (.num callId) ∧
      valueAt ["evidence", "timestamp"] data = some (.str timestamp) ∧
      valueAt ["evidence", "source"] data = some (.str source)
  | .notification notificationId => valueAt ["notificationId"] data = some (.num notificationId)

/-- Nothing but the allowlist shows in the redacted data of a queue's jobs, and what the schema of
the queue accepts is redacted to what identifies it. -/
structure RevealsAllowlist (composite : Json → String) (sourceQueue : QueueName) : Prop where
  determined : ∀ data data', Agree sourceQueue data data' →
    redactJobData sourceQueue data = redactJobData sourceQueue data'
  accepted : ∀ data, validateSourceJobData composite sourceQueue data = none →
    (redactJobData sourceQueue data).redactionFailed = false ∧
      Identifies data (redactJobData sourceQueue data).data

section Paths

variable {data : Json} {name key : String}

theorem member_none (hplain : isPlainObject (some data) = false) : member key data = none := by
  cases data with
  | obj members => cases hplain
  | _ => rfl

@[simp] theorem value_at_one : valueAt [name] data = member name data := by
  rw [valueAt]
  cases member name data <;> rfl

@[simp] theorem value_at_two :
    valueAt [name, key] data = (member name data).bind (member key) := by
  rw [valueAt]
  cases member name data with
  | none => rfl
  | some value => exact value_at_one

end Paths

section Readings

variable {data : Json}

/-- A value is a plain object, or the members that it would have are none. -/
theorem plain_or_none (value : Option Json) :
    (∃ obj, value = some obj ∧ plainObject (some obj) = some obj) ∨
      plainObject value = none ∧ ∀ key, value.bind (member key) = none := by
  cases value with
  | none => exact .inr ⟨rfl, fun _ => rfl⟩
  | some obj =>
    cases hplain : isPlainObject (some obj) with
    | true => exact .inl ⟨obj, rfl, by simp [plainObject, hplain]⟩
    | false =>
      refine .inr ⟨by simp [plainObject, hplain], fun key => ?_⟩
      exact member_none hplain

theorem oracle_signing_eq (data : Json) : redactOracleSigning data = (do
      let asset ← asString (valueAt ["payload", "asset"] data)
      let price ← asString (valueAt ["payload", "price"] data)
      let timestamp ← asNumber (valueAt ["payload", "timestamp"] data)
      return .oracleSigning asset price timestamp) := by
  unfold redactOracleSigning pickString pickNumber
  simp only [value_at_two]
  obtain ⟨obj, hobj, hplain⟩ | ⟨hnone, hmember⟩ := plain_or_none (some data)
  · cases hobj
    rw [hplain]
    obtain ⟨payload, hpayload, hplain⟩ | ⟨hnone, hmember⟩ := plain_or_none (member "payload" data)
    · simp [hplain, hpayload]
    · simp [hnone, hmember, asString]
  · have hpayload : member "payload" data = none := hmember "payload"
    simp [hnone, hpayload, asString]

theorem call_content_eq (data : Json) : redactCallContent data = (do
      let title ← asString (valueAt ["content", "title"] data)
      let thesis ← asString (valueAt ["content", "thesis"] data)
      let createdAt ← asString (valueAt ["content", "createdAt"] data)
      return .callContent (truncate title maxTextFieldLength) (truncate thesis maxTextFieldLength)
        createdAt (valueAt ["content", "conditionJson"] data).isSome) := by
  unfold redactCallContent pickString
  simp only [value_at_two]
  obtain ⟨content, hcontent, hplain⟩ | ⟨hnone, hmember⟩ := plain_or_none (member "content" data)
  · simp [hplain, hcontent]
  · simp [hnone, hmember, asString]

theorem oracle_evidence_eq (data : Json) : redactOracleEvidence data = (do
      let callId ← asNumber (valueAt ["evidence", "callId"] data)
      let timestamp ← asString (valueAt ["evidence", "timestamp"] data)
      let source ← asString (valueAt ["evidence", "source"] data)
      return .oracleEvidence callId timestamp source
        (valueAt ["evidence", "priceData"] data).isSome) := by
  unfold redactOracleEvidence pickString pickNumber
  simp only [value_at_two]
  obtain ⟨evidence, hevidence, hplain⟩ | ⟨hnone, hmember⟩ := plain_or_none (member "evidence" data)
  · simp [hplain, hevidence]
  · simp [hnone, hmember, asNumber]

theorem ipfs_pinning_eq (data : Json) : redactIpfsPinning data = (do
      let type ← asString (valueAt ["type"] data)
      if type = "call-content" then redactCallContent data
      else if type = "oracle-evidence" then redactOracleEvidence data
      else none) := by
  unfold redactIpfsPinning pickString
  rw [value_at_one]
  obtain ⟨obj, hobj, hplain⟩ | ⟨hnone, hmember⟩ := plain_or_none (some data)
  · cases hobj
    rw [hplain]
    rfl
  · have htype : member "type" data = none := hmember "type"
    simp [hnone, htype, asString]

theorem notifications_eq (data : Json) : redactNotifications data =
      (asNumber (valueAt ["notificationId"] data)).map .notification := by
  unfold redactNotifications pickNumber
  rw [value_at_one]
  obtain ⟨obj, hobj, hplain⟩ | ⟨hnone, hmember⟩ := plain_or_none (some data)
  · cases hobj
    rw [hplain, Option.map_eq_bind]
    rfl
  · have hid : member "notificationId" data = none := hmember "notificationId"
    simp [hnone, hid, asNumber]

end Readings

/-- The redacted data is a function of what may be seen. -/
theorem redact_determined {sourceQueue : QueueName} {data data' : Json}
    (hagree : Agree sourceQueue data data') :
    redactJobData sourceQueue data = redactJobData sourceQueue data' := by
  obtain ⟨hallowed, hpresent⟩ := hagree
  cases sourceQueue with
  | oracleSigning =>
    simp only [allowlist, List.forall_mem_cons] at hallowed
    obtain ⟨hasset, hprice, htimestamp, -⟩ := hallowed
    simp only [redactJobData, oracle_signing_eq, hasset, hprice, htimestamp]
  | ipfsPinning =>
    simp only [allowlist, omittedFields, List.forall_mem_cons] at hallowed hpresent
    obtain ⟨htype, htitle, hthesis, hcreated, hcall, htimestamp, hsource, -⟩ := hallowed
    obtain ⟨hcondition, hprices, -⟩ := hpresent
    have hcontent : redactCallContent data = redactCallContent data' := by
      simp only [call_content_eq, htitle, hthesis, hcreated, hcondition]
    have hevidence : redactOracleEvidence data = redactOracleEvidence data' := by
      simp only [oracle_evidence_eq, hcall, htimestamp, hsource, hprices]
    simp only [redactJobData, ipfs_pinning_eq, htype, hcontent, hevidence]
  | notifications =>
    simp only [allowlist, List.forall_mem_cons] at hallowed
    simp only [redactJobData, notifications_eq, hallowed.1]
  | deadLetter | reconciliation => rfl

section Accepted

variable {composite : Json → String} {data : Json} {value : Option Json}

theorem first_failure_none {checks : List (Bool × String)} (h : firstFailure checks = none) :
    ∀ check ∈ checks, check.1 = true := by
  rw [firstFailure, Option.map_eq_none_iff, List.find?_eq_none] at h
  intro check hmem
  simpa using h check hmem

theorem string_of_nonempty (h : isNonEmptyString value = true) : ∃ s, value = some (.str s) := by
  match value with
  | some (.str s) => exact ⟨s, rfl⟩

theorem string_of_numeric (h : isNumericString value = true) : ∃ s, value = some (.str s) := by
  match value with
  | some (.str s) => exact ⟨s, rfl⟩

theorem number_of_finite (h : isFiniteNumber value = true) : ∃ n, value = some (.num n) := by
  match value with
  | some (.num n) => exact ⟨n, rfl⟩

theorem number_of_positive (h : isPositiveNumber value = true) : ∃ n, value = some (.num n) := by
  match value with
  | some (.num n) => exact ⟨n, rfl⟩


theorem oracle_signing_accepted (hvalid : validateOracleSigningJobData data = none) :
    ∃ redacted, redactOracleSigning data = some redacted ∧ Identifies data redacted := by
  unfold validateOracleSigningJobData at hvalid
  split at hvalid
  · cases hvalid
  have hcheck := first_failure_none hvalid
  simp only [List.forall_mem_cons] at hcheck
  obtain ⟨-, hasset, hprice, htimestamp, -⟩ := hcheck
  rw [← value_at_two] at hasset hprice htimestamp
  obtain ⟨asset, hasset⟩ := string_of_nonempty hasset
  obtain ⟨price, hprice⟩ := string_of_numeric hprice
  obtain ⟨timestamp, htimestamp⟩ := number_of_positive htimestamp
  refine ⟨.oracleSigning asset price timestamp, ?_, hasset, hprice, htimestamp⟩
  rw [oracle_signing_eq, hasset, hprice, htimestamp]
  rfl

theorem call_content_accepted (htype : valueAt ["type"] data = some (.str "call-content"))
    (hvalid : validateIpfsPinningJobData composite data = none) :
    ∃ redacted, redactIpfsPinning data = some redacted ∧ Identifies data redacted := by
  unfold validateIpfsPinningJobData at hvalid
  split at hvalid
  · cases hvalid
  have hmember : member "type" data = some (.str "call-content") := by rw [← value_at_one, htype]
  rw [hmember] at hvalid
  have hcheck := first_failure_none hvalid
  simp only [List.forall_mem_cons] at hcheck
  obtain ⟨-, htitle, hthesis, hcreated, -⟩ := hcheck
  rw [← value_at_two] at htitle hthesis hcreated
  obtain ⟨title, htitle⟩ := string_of_nonempty htitle
  obtain ⟨thesis, hthesis⟩ := string_of_nonempty hthesis
  obtain ⟨createdAt, hcreated⟩ := string_of_nonempty hcreated
  refine ⟨.callContent (truncate title maxTextFieldLength) (truncate thesis maxTextFieldLength)
    createdAt (valueAt ["content", "conditionJson"] data).isSome, ?_, htype, ⟨title, htitle, rfl⟩,
    ⟨thesis, hthesis, rfl⟩, hcreated⟩
  rw [ipfs_pinning_eq, htype, call_content_eq, htitle, hthesis, hcreated]
  rfl

theorem oracle_evidence_accepted (htype : valueAt ["type"] data = some (.str "oracle-evidence"))
    (hvalid : validateIpfsPinningJobData composite data = none) :
    ∃ redacted, redactIpfsPinning data = some redacted ∧ Identifies data redacted := by
  unfold validateIpfsPinningJobData at hvalid
  split at hvalid
  · cases hvalid
  have hmember : member "type" data = some (.str "oracle-evidence") := by
    rw [← value_at_one, htype]
  rw [hmember] at hvalid
  have hcheck := first_failure_none hvalid
  simp only [List.forall_mem_cons] at hcheck
  obtain ⟨-, hcall, htimestamp, hsource, -⟩ := hcheck
  rw [← value_at_two] at hcall htimestamp hsource
  obtain ⟨callId, hcall⟩ := number_of_finite hcall
  obtain ⟨timestamp, htimestamp⟩ := string_of_nonempty htimestamp
  obtain ⟨source, hsource⟩ := string_of_nonempty hsource
  refine ⟨.oracleEvidence callId timestamp source (valueAt ["evidence", "priceData"] data).isSome,
    ?_, htype, hcall, htimestamp, hsource⟩
  rw [ipfs_pinning_eq, htype, oracle_evidence_eq, hcall, htimestamp, hsource]
  rfl

theorem ipfs_type_accepted (hvalid : validateIpfsPinningJobData composite data = none) :
    valueAt ["type"] data = some (.str "call-content") ∨
      valueAt ["type"] data = some (.str "oracle-evidence") := by
  unfold validateIpfsPinningJobData at hvalid
  rw [value_at_one]
  split at hvalid
  · cases hvalid
  · split at hvalid
    · next htype => exact .inl htype
    · next htype => exact .inr htype
    · cases hvalid

theorem notifications_accepted (hvalid : validateNotificationsJobData data = none) :
    ∃ redacted, redactNotifications data = some redacted ∧ Identifies data redacted := by
  unfold validateNotificationsJobData at hvalid
  split at hvalid
  · cases hvalid
  have hcheck := first_failure_none hvalid _ List.mem_cons_self
  rw [← value_at_one] at hcheck
  obtain ⟨notificationId, hid⟩ := number_of_finite hcheck
  refine ⟨.notification notificationId, ?_, hid⟩
  rw [notifications_eq, hid]
  rfl

/-- What is accepted is redacted to what identifies it. -/
theorem redact_accepted {sourceQueue : QueueName}
    (hvalid : validateSourceJobData composite sourceQueue data = none) :
    (redactJobData sourceQueue data).redactionFailed = false ∧
      Identifies data (redactJobData sourceQueue data).data := by
  have hof : ∀ redact : Json → Option RedactedData,
      (∃ redacted, redact data = some redacted ∧ Identifies data redacted) →
        (RedactedPayload.of (redact data)).redactionFailed = false ∧
          Identifies data (RedactedPayload.of (redact data)).data := by
    rintro redact ⟨redacted, hredacted, hidentifies⟩
    rw [hredacted]
    exact ⟨rfl, hidentifies⟩
  cases sourceQueue with
  | oracleSigning => exact hof redactOracleSigning (oracle_signing_accepted hvalid)
  | ipfsPinning =>
    refine hof redactIpfsPinning ?_
    rcases ipfs_type_accepted hvalid with htype | htype
    · exact call_content_accepted htype hvalid
    · exact oracle_evidence_accepted htype hvalid
  | notifications => exact hof redactNotifications (notifications_accepted hvalid)
  | deadLetter | reconciliation => cases hvalid

end Accepted

/-- The redaction reveals only the allowlist, and fails for nothing that the schema accepts. -/
theorem redaction_reveals_allowlist (composite : Json → String) (sourceQueue : QueueName) :
    RevealsAllowlist composite sourceQueue :=
  ⟨fun _ _ hagree => redact_determined hagree, fun _ hvalid => redact_accepted hvalid⟩

end Backit.DeadLetter
