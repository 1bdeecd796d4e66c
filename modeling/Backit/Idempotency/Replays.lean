import Mathlib.Algebra.Order.Ring.Int
import Backit.Idempotency.Records
import Backit.Lib.JsonText

/-!
# Fingerprints and replays

## Fingerprints

The fingerprint of a request covers its principal, its route and its body with sorted keys. The
comparison `localeCompare` is `collate`.
-/

namespace Backit.Idempotency

open Lib Json

/-- The index that a key is. An object lists its indices before its other keys. -/
def arrayIndex (key : String) : Option Nat :=
  let n := Nat.ofDigitChars 10 key.toList 0
  if toString n = key ∧ n < 2 ^ 32 - 1 then some n else none

/-- `Object.fromEntries(entries)`, with the members as the object lists them. -/
def fromEntries (entries : List (String × Json)) : Json :=
  let indices := entries.filter fun m => (arrayIndex m.1).isSome
  let others := entries.filter fun m => !(arrayIndex m.1).isSome
  .obj (indices.insertionSort (fun a b => (arrayIndex a.1).getD 0 ≤ (arrayIndex b.1).getD 0) ++
    others)

/-- An array is read as the object of its indices. The values are canonical before the entries are
sorted, which is by their keys alone. -/
def sortedKeys (collate : String → String → Ordering) : Json → Json :=
  fold id (fun elements => fromEntries (sortByKey collate (indexed elements)))
    fun members => fromEntries (sortByKey collate members)

/-- The text that is hashed. -/
def message (collate : String → String → Ordering) (principal route : String) (body : Json) :
    String :=
  principal ++ ":" ++ route ++ ":" ++ (sortedKeys collate body).stringify

def fingerprint {F : Type} (sha256 : String → F) (collate : String → String → Ordering)
    (principal route : String) (body : Json) : F :=
  sha256 (message collate principal route body)

section Canonical

variable {collate : String → String → Ordering} {value a b : Json}

theorem fromEntries_perm (entries : List (String × Json)) :
    ∃ members, fromEntries entries = .obj members ∧ members.Perm entries :=
  ⟨_, rfl, ((List.perm_insertionSort _ _).append_right _).trans (List.filter_append_perm _ _)⟩

theorem sortedKeys_scalar (h : value.isComposite = false) : sortedKeys collate value = value :=
  fold_scalar _ _ _ h

theorem sortedKeys_arr (elements : List Json) : sortedKeys collate (.arr elements) =
    fromEntries (sortByKey collate (indexed (elements.map (sortedKeys collate)))) :=
  fold_arr _ _ _ elements

theorem sortedKeys_obj (members : List (String × Json)) : sortedKeys collate (.obj members) =
    fromEntries (sortByKey collate (members.map (onValue (sortedKeys collate)))) :=
  fold_obj _ _ _ members

/-- Sorted entries are the same object as the members that they are entries of. -/
theorem normal_fromEntries {entries members : List (String × Json)}
    (hperm : (members.map (onValue normal)).Perm (entries.map (onValue normal)))
    (hdistinct : Distinct compare members) :
    (fromEntries (sortByKey collate entries)).normal = (Json.obj members).normal := by
  obtain ⟨listed, hlisted, hsame⟩ := fromEntries_perm (sortByKey collate entries)
  have hentries : listed.Perm entries := hsame.trans (sortByKey_perm collate entries)
  rw [hlisted, normal_obj, normal_obj,
    sortByKey_eq (hperm.trans (hentries.map _).symm) ((distinct_onValue normal).mpr hdistinct)]

/-- Sorting keeps a value, up to the order of keys and up to arrays being read as objects. -/
theorem normal_sortedKeys (h : value.distinctKeys compare = true) :
    (sortedKeys collate value).normal = value.arraysAsObjects.normal := by
  induction value using Json.induct with
  | scalar value hscalar => rw [sortedKeys_scalar hscalar, arraysAsObjects, fold_scalar _ _ _ hscalar, id]
  | arr elements ih =>
    have hvalues : (elements.map arraysAsObjects).map normal =
        (elements.map (sortedKeys collate)).map normal := by
      rw [List.map_map, List.map_map]
      exact List.map_congr_left fun x hx => (ih x hx (distinctKeys_arr.mp h x hx)).symm
    rw [sortedKeys_arr, arraysAsObjects, fold_arr]
    refine normal_fromEntries (List.Perm.of_eq ?_) (distinct_indexed _)
    rw [indexed_onValue, indexed_onValue]
    exact congrArg indexed hvalues
  | obj members ih =>
    obtain ⟨hdistinct, hall⟩ := distinctKeys_obj.mp h
    rw [sortedKeys_obj, arraysAsObjects, fold_obj]
    refine normal_fromEntries (List.Perm.of_eq ?_) ((distinct_onValue _).mpr hdistinct)
    rw [List.map_map, List.map_map]
    refine List.map_congr_left fun m hm => Prod.ext rfl ?_
    exact (ih m hm (hall m hm)).symm

/-- What is sorted of a value depends on it up to the order of keys only. -/
theorem sortedKeys_normal [Std.TransCmp collate] (h : value.distinctKeys collate = true) :
    sortedKeys collate value.normal = sortedKeys collate value := by
  induction value using Json.induct with
  | scalar value hscalar => rw [normal_scalar hscalar]
  | arr elements ih =>
    have hvalues : (elements.map normal).map (sortedKeys collate) =
        elements.map (sortedKeys collate) := by
      rw [List.map_map]
      exact List.map_congr_left fun x hx => ih x hx (distinctKeys_arr.mp h x hx)
    rw [normal_arr, sortedKeys_arr, sortedKeys_arr, hvalues]
  | obj members ih =>
    obtain ⟨hdistinct, hall⟩ := distinctKeys_obj.mp h
    have hvalues : (members.map (onValue normal)).map (onValue (sortedKeys collate)) =
        members.map (onValue (sortedKeys collate)) := by
      rw [List.map_map]
      exact List.map_congr_left fun m hm => Prod.ext rfl (ih m hm (hall m hm))
    have hperm : (members.map (onValue (sortedKeys collate))).Perm
        ((sortByKey compare (members.map (onValue normal))).map
          (onValue (sortedKeys collate))) := by
      rw [← hvalues]
      exact ((sortByKey_perm compare _).map _).symm
    rw [normal_obj, sortedKeys_obj, sortedKeys_obj,
      sortByKey_eq hperm ((distinct_onValue _).mpr hdistinct)]

/-- Bodies that are the same up to the order of keys have one canonical text. -/
theorem canonical_same [Std.TransCmp collate] (hsame : Same a b)
    (ha : a.distinctKeys collate = true) (hb : b.distinctKeys collate = true) :
    (sortedKeys collate a).stringify = (sortedKeys collate b).stringify := by
  rw [← sortedKeys_normal ha, hsame, sortedKeys_normal hb]

/-- Bodies with one canonical text are the same up to the order of keys and up to arrays being read
as objects. -/
theorem same_of_canonical (ha : a.distinctKeys compare = true) (hb : b.distinctKeys compare = true)
    (htext : (sortedKeys collate a).stringify = (sortedKeys collate b).stringify) :
    Same a.arraysAsObjects b.arraysAsObjects := by
  unfold Same
  rw [← @normal_sortedKeys collate a ha, ← @normal_sortedKeys collate b hb,
    stringify_injective htext]

/-- Messages of one principal and route differ in their bodies. -/
theorem message_inj {principal route : String}
    (h : message collate principal route a = message collate principal route b) :
    (sortedKeys collate a).stringify = (sortedKeys collate b).stringify := by
  have hchars := congrArg String.toList h
  simp only [message, String.toList_append] at hchars
  exact String.toList_inj.mp (List.append_cancel_left hchars)

end Canonical

/-!
## Replays

What the interceptor answers to a request with an idempotency key, before and after the outcome of
the first request under the key is stored.
-/

/-- A request on an idempotent route: its route pattern, the path and the whole URL that were
asked for, the authenticated address, the header of the key and the body. -/
structure Request where
  method : String
  routePath : Option String
  path : String
  originalUrl : String
  address : Option String
  idempotencyKey : Option String
  body : Option Json

namespace Request

variable (request : Request)

def principal : String := request.address.getD "anonymous"

def route : String := request.method ++ " " ++ request.routePath.getD request.path

/-- The body, or an object without members for none. -/
def payload : Json :=
  match request.body with
  | none => .obj []
  | some .null => .obj []
  | some body => body

/-- The key of the request's record. -/
def slot : String × String × String :=
  (request.idempotencyKey.getD "", request.route, request.principal)

/-- Why a key is refused. -/
def invalidKey : Option String :=
  let key := request.idempotencyKey.getD ""
  if key = "" then some "Idempotency-Key header is required for this endpoint."
  else if maxKeyLength < key.length then
    some "Idempotency-Key must be a string of 1–128 characters."
  else none

end Request

/-- The records by key, route and principal. -/
abbrev Table (F : Type) := String × String × String → Option (IdempotencyRecord F)

inductive Reply where
  | badRequest (message : String)
  | conflict (message : String)
  | inProgress (message : String)
  | replayed (httpStatus : Nat) (body : Json)
  | run

/-- The reply to a claim. After `run` the handler answers. -/
def reply (request : Request) : ClaimResult → Reply
  | .claimed => .run
  | .replayed httpStatus body => .replayed httpStatus body
  | .conflict => .conflict ("Idempotency-Key \"" ++ request.idempotencyKey.getD "" ++
      "\" was already used with a different request payload on route \"" ++ request.route ++
      "\". Use a new key or ensure the request body matches the original.")
  | .inProgress => .inProgress ("An identical request with Idempotency-Key \"" ++
      request.idempotencyKey.getD "" ++
      "\" is currently in progress. Wait for it to complete before retrying.")

section Requests

variable {F : Type} [DecidableEq F] (sha256 : String → F)
  (collate : String → String → Ordering)

def Request.fingerprint (request : Request) : F :=
  Idempotency.fingerprint sha256 collate request.principal request.route request.payload

/-- The interceptor up to the handler: the reply and the records that it leaves. -/
def intercept (now : Nat) (request : Request) (table : Table F) : Reply × Table F :=
  match request.invalidKey with
  | some message => (.badRequest message, table)
  | none =>
    let claim := claimOrReplay now (request.fingerprint sha256 collate) (table request.slot)
    (reply request claim.1, Function.update table request.slot claim.2)

end Requests

/-- How the handler of a request ends. -/
inductive Outcome where
  | returned (httpStatus : Nat) (responseBody : Json)
  | threw (error : Thrown)

/-- What the record becomes for an outcome. -/
def Outcome.store {F : Type} (now : Nat) (record : IdempotencyRecord F) :
    Outcome → IdempotencyRecord F
  | .returned httpStatus responseBody => complete now httpStatus responseBody record
  | .threw error => fail now (extractErrorInfo error).1 (extractErrorInfo error).2 record

/-- The outcome of a request is stored in its record, if there still is one. -/
def settle {F : Type} (now : Nat) (request : Request) (outcome : Outcome) (table : Table F) :
    Table F :=
  Function.update table request.slot ((table request.slot).map fun record =>
    outcome.store now record)

/-- What the client is answered. An error that is no HTTP exception is answered by the framework. -/
def Outcome.answer (unhandled : Option Nat → Option String → Nat × Json) : Outcome → Nat × Json
  | .returned httpStatus responseBody => (httpStatus, responseBody)
  | .threw (.http status response _) => (status, response)
  | .threw (.other status message) => unhandled status message

/-- A value with the values of sensitive keys redacted. -/
def redact : Json → Json :=
  fold id .arr fun members => .obj (members.map fun m =>
    (m.1, if m.1 ∈ sensitiveKeys then .str "[REDACTED]" else m.2))

/-- A value with the arrays and objects below so many levels emptied. -/
def emptiedBelow : Nat → Json → Json
  | 0, value => if value.isComposite then .obj [] else value
  | levels + 1, .arr elements => .arr (elements.map (emptiedBelow levels))
  | levels + 1, .obj members => .obj (members.map (onValue (emptiedBelow levels)))
  | _ + 1, value => value

/-- What is kept of a response: of an object, five levels; nothing of any other value. -/
def kept (value : Json) : Json :=
  match value with
  | .obj members => emptiedBelow 5 (.obj members)
  | _ => .obj []

/-- A value without arrays and without members of the key `__proto__`, the values of sensitive keys
apart. -/
def plain : Json → Bool :=
  fold (fun _ => true) (fun _ => false) fun members => members.all fun m =>
    sensitiveKeys.contains m.1 || (m.1 != "__proto__" && m.2)

theorem redact_obj (members : List (String × Json)) : redact (.obj members) =
    .obj (members.map fun m =>
      (m.1, if m.1 ∈ sensitiveKeys then .str "[REDACTED]" else redact m.2)) := by
  simp only [redact, fold_obj, List.map_map]
  rfl

theorem redact_scalar {value : Json} (h : value.isComposite = false) : redact value = value :=
  fold_scalar _ _ _ h

theorem plain_obj {members : List (String × Json)} : plain (.obj members) = true ↔
    ∀ m ∈ members, m.1 ∈ sensitiveKeys ∨ m.1 ≠ "__proto__" ∧ plain m.2 = true := by
  simp only [plain, fold_obj, List.all_map, List.all_eq_true, Function.comp_apply, onValue_fst,
    onValue_snd, Bool.or_eq_true, Bool.and_eq_true, List.contains_iff_mem, bne_iff_ne]

theorem emptiedBelow_scalar {value : Json} (levels : Nat) (h : value.isComposite = false) :
    emptiedBelow levels value = value := by
  cases value with
  | arr | obj => cases h
  | null | bool | num | str => cases levels <;> rfl

/-- The stored form of a plain object is its redaction, emptied below its levels. -/
theorem sanitiseWithin_plain (levels : Nat) (members : List (String × Json))
    (hplain : plain (.obj members) = true) :
    sanitiseWithin levels (.obj members) = redact (emptiedBelow levels (.obj members)) := by
  induction levels generalizing members with
  | zero => simp [sanitiseWithin, emptiedBelow, isComposite, redact_obj]
  | succ levels ih =>
    rw [sanitiseWithin, emptiedBelow, redact_obj, List.map_map]
    refine congrArg Json.obj ?_
    change members.filterMap _ = members.map _
    rw [List.filterMap_eq_map_iff_forall_eq_some]
    rintro ⟨k, v⟩ hm
    simp only [Function.comp_apply, onValue]
    by_cases hsensitive : k ∈ sensitiveKeys
    · simp [sanitiseMember, hsensitive]
    · obtain ⟨hproto, hvalue⟩ := (plain_obj.mp hplain (k, v) hm).resolve_left hsensitive
      have hkept : (if v.isComposite then sanitiseWithin levels v else v) =
          redact (emptiedBelow levels v) := by
        cases v with
        | obj nested => exact ih nested hvalue
        | arr elements => simp [plain] at hvalue
        | null | bool | num | str => 
            rw [emptiedBelow_scalar levels rfl, redact_scalar rfl]
            rfl
      simp [sanitiseMember, hsensitive, hproto, hkept]

/-- The stored form of a plain response is the redaction of what is kept of it. -/
theorem sanitise_plain {value : Json} (hplain : plain value = true) :
    sanitise value = redact (kept value) := by
  cases value with
  | obj members => exact sanitiseWithin_plain 5 members hplain
  | arr elements => simp [plain] at hplain
  | null | bool | num | str => simp [sanitise, sanitiseWithin, entries, kept, redact_obj]

section Steps

variable {F : Type} [DecidableEq F] {sha256 : String → F} {collate : String → String → Ordering}
  {now : Nat} {request : Request} {table : Table F}

/-- A claim leaves a record of its fingerprint without a response. -/
theorem claim_record {fp : F} {record record' : Option (IdempotencyRecord F)}
    (h : claimOrReplay now fp record = (.claimed, record')) :
    ∃ r, record' = some r ∧ r.fingerprint = fp ∧ r.responseBody = none := by
  cases record with
  | none =>
    cases h
    exact ⟨_, rfl, rfl, rfl⟩
  | some existing =>
    simp only [claimOrReplay] at h
    split at h
    · cases h
    · next hfp =>
      split at h
      · cases h
      · cases h
        exact ⟨_, rfl, not_not.mp hfp, rfl⟩
      · cases h
      · cases h

/-- A request that is run has a valid key and leaves a record of its fingerprint. -/
theorem intercept_run (h : (intercept sha256 collate now request table).1 = .run) :
    request.invalidKey = none ∧
      ∃ r, (intercept sha256 collate now request table).2 request.slot = some r ∧
        r.fingerprint = request.fingerprint sha256 collate ∧ r.responseBody = none := by
  unfold intercept at h ⊢
  split at h
  · cases h
  · next hvalid =>
    refine ⟨hvalid, ?_⟩
    dsimp only at h ⊢
    rw [Function.update_self]
    cases hclaim : claimOrReplay now (request.fingerprint sha256 collate)
        (table request.slot) with
    | mk result record' =>
      rw [hclaim] at h
      cases result with
      | claimed => exact claim_record hclaim
      | replayed | inProgress | conflict => cases h

theorem intercept_reply (hvalid : request.invalidKey = none) :
    (intercept sha256 collate now request table).1 =
      reply request (claimOrReplay now (request.fingerprint sha256 collate)
        (table request.slot)).1 := by
  unfold intercept
  rw [hvalid]

omit [DecidableEq F] in
theorem settle_slot (outcome : Outcome) : settle now request outcome table request.slot =
    (table request.slot).map fun record => outcome.store now record := by
  rw [settle, Function.update_self]

omit [DecidableEq F] in
theorem store_fingerprint (outcome : Outcome) (r : IdempotencyRecord F) :
    (outcome.store now r).fingerprint = r.fingerprint := by
  cases outcome <;> rfl

theorem claim_returned {fp : F} (later httpStatus : Nat) (responseBody : Json)
    {r : IdempotencyRecord F} (hfp : r.fingerprint = fp) :
    (claimOrReplay later fp (some ((Outcome.returned httpStatus responseBody).store now r))).1 =
      .replayed httpStatus (sanitise responseBody) := by
  simp [claimOrReplay, Outcome.store, complete, hfp]

/-- A stored failure is replayed without a body, or may be retried. -/
theorem claim_threw {fp : F} (later : Nat) (error : Thrown) {r : IdempotencyRecord F}
    (hfp : r.fingerprint = fp) (hbody : r.responseBody = none) :
    (claimOrReplay later fp (some ((Outcome.threw error).store now r))).1 =
      if (extractErrorInfo error).1 ∈ retryableHttpStatuses then .claimed
      else .replayed (extractErrorInfo error).1 (.obj []) := by
  by_cases hretry : (extractErrorInfo error).1 ∈ retryableHttpStatuses
  · simp [claimOrReplay, Outcome.store, fail, failureState, hfp, hretry]
  · simp [claimOrReplay, Outcome.store, fail, failureState, hfp, hretry, hbody]

end Steps

section Replay

variable {F : Type} [DecidableEq F] {sha256 : String → F} {collate : String → String → Ordering}

/-- A later request under the key, route and principal of the first is answered from the outcome of
the first, if their bodies are the same up to the order of keys: a plain response is replayed with
its status and redacted, as far as it is kept; a terminal error is replayed with its status and no
body; after a retryable error the handler runs again. If the bodies differ, also where arrays are
read as objects, the later request is a conflict. -/
theorem replay_of_outcome [Std.TransCmp collate] {outcome : Outcome} {first later : Request}
    {table₀ table₁ table₂ : Table F} {t₀ t₁ t₂ : Nat}
    (hkeys : first.payload.distinctKeys compare = true)
    (hkeys' : later.payload.distinctKeys compare = true)
    (hrun : (intercept sha256 collate t₀ first table₀).1 = .run)
    (hbetween : table₁ first.slot = (intercept sha256 collate t₀ first table₀).2 first.slot)
    (hsettled : table₂ first.slot = settle t₁ first outcome table₁ first.slot)
    (hlater : later.slot = first.slot)
    (hcollision : first.fingerprint sha256 collate = later.fingerprint sha256 collate →
      message collate first.principal first.route first.payload =
        message collate later.principal later.route later.payload) :
    (Same first.payload later.payload → first.payload.distinctKeys collate = true →
      later.payload.distinctKeys collate = true →
        (∀ httpStatus responseBody, outcome = .returned httpStatus responseBody →
          plain responseBody = true →
            (intercept sha256 collate t₂ later table₂).1 =
              .replayed httpStatus (redact (kept responseBody))) ∧
        ∀ error, outcome = .threw error →
          (intercept sha256 collate t₂ later table₂).1 =
            if (extractErrorInfo error).1 ∈ retryableHttpStatuses then .run
            else .replayed (extractErrorInfo error).1 (.obj [])) ∧
    (¬ Same first.payload.arraysAsObjects later.payload.arraysAsObjects →
      ∃ message, (intercept sha256 collate t₂ later table₂).1 = .conflict message) := by
  obtain ⟨hvalid, r, hr, hfp, hbody⟩ := intercept_run hrun
  obtain ⟨hkey, hroute, hprincipal⟩ : later.idempotencyKey.getD "" = first.idempotencyKey.getD "" ∧
      later.route = first.route ∧ later.principal = first.principal := by
    simpa [Request.slot] using hlater
  have hvalid' : later.invalidKey = none := by
    unfold Request.invalidKey
    rw [hkey]
    exact hvalid
  have hstored : table₂ later.slot = some (outcome.store t₁ r) := by
    rw [hlater, hsettled, settle_slot, hbetween, hr]
    rfl
  rw [intercept_reply hvalid', hstored]
  constructor
  · intro hsame hdistinct hdistinct'
    have hsent : r.fingerprint = later.fingerprint sha256 collate := by
      rw [hfp]
      unfold Request.fingerprint fingerprint message
      rw [hroute, hprincipal, canonical_same hsame hdistinct hdistinct']
    refine ⟨?_, ?_⟩
    · rintro httpStatus responseBody rfl hplain
      rw [claim_returned t₂ httpStatus responseBody hsent, sanitise_plain hplain]
      rfl
    · rintro error rfl
      rw [claim_threw t₂ error hsent hbody]
      split <;> rfl
  · intro hdiffer
    have hother : r.fingerprint ≠ later.fingerprint sha256 collate := by
      intro heq
      have hmessage := hcollision (hfp.symm.trans heq)
      rw [hroute, hprincipal] at hmessage
      exact hdiffer (same_of_canonical hkeys hkeys' (message_inj hmessage))
    have hconflict : (claimOrReplay t₂ (later.fingerprint sha256 collate)
        (some (outcome.store t₁ r))).1 = .conflict := by
      simp [claimOrReplay, store_fingerprint, hother]
    rw [hconflict]
    exact ⟨_, rfl⟩

end Replay

def noRecords : Table String := fun _ => none

/-- A request to relay a transaction. -/
def relayTx (originalUrl : String) (members : List (String × Json)) : Request where
  method := "POST"
  routePath := some "/relay/tx"
  path := "/relay/tx"
  originalUrl := originalUrl
  address := some "GALICE"
  idempotencyKey := some "key-1"
  body := some (.obj members)

def relayed : Request := relayTx "/relay/tx" [("xdr", .str "AAAA"), ("wait", .bool true)]

def relayedReordered : Request := relayTx "/relay/tx" [("wait", .bool true), ("xdr", .str "AAAA")]

def relayedOther : Request := relayTx "/relay/tx" [("xdr", .str "AAAB"), ("wait", .bool true)]

/-- The records once the relayed request has ended. -/
def ended (outcome : Outcome) : Table String :=
  settle 10 relayed outcome (intercept id compare 0 relayed noRecords).2

/-- The reply to a later request. -/
def laterReply (outcome : Outcome) (later : Request) : Reply :=
  (intercept id compare 20 later (ended outcome)).1

def submitted : Outcome := .returned 201 (.obj [("hash", .str "c0ffee"), ("xdr", .str "AAAA")])

/-- The response to a relayed transaction is replayed to the same request with its members in
another order, and a request with another body is a conflict. -/
theorem submitted_replayed : laterReply submitted relayedReordered =
        .replayed 201 (.obj [("hash", .str "c0ffee"), ("xdr", .str "[REDACTED]")]) ∧
      ∃ message, laterReply submitted relayedOther = .conflict message := by
  have hrun : (intercept id compare 0 relayed noRecords).1 = .run := rfl
  have hsame : Same relayed.payload relayedReordered.payload :=
    (same_obj_iff (by decide +kernel)).mpr (List.Perm.swap _ _ _)
  have hdiffer : ¬ Same relayed.payload.arraysAsObjects relayedOther.payload.arraysAsObjects :=
    fun h => absurd (congrArg Json.text h) (by decide +kernel)
  have hkeys : relayed.payload.distinctKeys compare = true := by decide +kernel
  have hkeys' : relayedReordered.payload.distinctKeys compare = true := by decide +kernel
  have hkeys'' : relayedOther.payload.distinctKeys compare = true := by decide +kernel
  constructor
  · exact ((replay_of_outcome hkeys hkeys' hrun rfl rfl rfl id).1 hsame hkeys hkeys').1 201 _ rfl rfl
  · exact (replay_of_outcome hkeys hkeys'' hrun rfl rfl rfl id).2 hdiffer

/-- Requests are the same: they have one principal, method and URL, and their bodies are the same
up to the order of keys. -/
structure SameRequest (first later : Request) : Prop where
  principal : later.principal = first.principal
  method : later.method = first.method
  originalUrl : later.originalUrl = first.originalUrl
  payload : Same first.payload later.payload

/-- A reply is faithful: the same request is answered as the first was, with sensitive values
redacted, and any other is a conflict. -/
def FaithfulReply (unhandled : Option Nat → Option String → Nat × Json) (first later : Request)
    (outcome : Outcome) (reply : Reply) : Prop :=
  (SameRequest first later → reply =
    .replayed (outcome.answer unhandled).1 (redact (outcome.answer unhandled).2)) ∧
  (¬ SameRequest first later → ∃ message, reply = .conflict message)

def internalServerError : Option Nat → Option String → Nat × Json :=
  fun _ _ => (500, .obj [("message", .str "Internal server error")])

/-- An object nested so many times. -/
def nested : Nat → Json
  | 0 => .obj [("leaf", .bool true)]
  | levels + 1 => .obj [("node", nested levels)]

def unavailable : Outcome :=
  .threw (.http 503 (.obj [("message", .str "Relay unavailable")]) "Relay unavailable")

def relayedElsewhere : Request :=
  relayTx "/relay/tx?network=public" [("xdr", .str "AAAA"), ("wait", .bool true)]

/-- Replies that are not faithful: after a retryable error the handler runs again, of a response
that is nested six times only five levels are replayed, and a request with another query is
answered with the first one's response. -/
theorem unfaithful_replies : ¬ FaithfulReply internalServerError relayed relayed unavailable
        (laterReply unavailable relayed) ∧
      ¬ FaithfulReply internalServerError relayed relayed (.returned 201 (nested 5))
        (laterReply (.returned 201 (nested 5)) relayed) ∧
      ¬ FaithfulReply internalServerError relayed relayedElsewhere submitted
        (laterReply submitted relayedElsewhere) := by
  have hself : SameRequest relayed relayed := ⟨rfl, rfl, rfl, rfl⟩
  refine ⟨fun h => ?_, fun h => ?_, fun h => ?_⟩
  · have hrun : laterReply unavailable relayed = .run := rfl
    have hreplayed := h.1 hself
    rw [hrun] at hreplayed
    cases hreplayed
  · have hcut : laterReply (.returned 201 (nested 5)) relayed =
        .replayed 201 (redact (kept (nested 5))) := rfl
    have hreplayed := h.1 hself
    rw [hcut] at hreplayed
    exact absurd (congrArg Json.text (Reply.replayed.inj hreplayed).2) (by decide +kernel)
  · have hanswered : laterReply submitted relayedElsewhere =
        .replayed 201 (.obj [("hash", .str "c0ffee"), ("xdr", .str "[REDACTED]")]) := rfl
    have hother : ¬ SameRequest relayed relayedElsewhere := by
      rintro ⟨-, -, hurl, -⟩
      exact absurd hurl (by decide +kernel)
    obtain ⟨message, hconflict⟩ := h.2 hother
    rw [hanswered] at hconflict
    cases hconflict

end Backit.Idempotency
