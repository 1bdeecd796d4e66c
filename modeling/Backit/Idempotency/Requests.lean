import Backit.Idempotency.Records
import Backit.Lib.Transition

/-!
# Concurrent requests under one key

Requests with the same key, route and principal share one record. A claim is one transaction; the
outcome of a handler is stored by reading the record and saving a changed copy of it later. A
request can vanish at any point, and its record then stays in progress.
-/

namespace Backit.Idempotency

open Lib

variable {F : Type}

/-- Where a request that has claimed the record is: its handler runs, its outcome is about to be
stored, or a changed copy of the record is about to be saved. -/
inductive Phase (F : Type) where
  | running
  | completing (httpStatus : Nat) (responseBody : Json)
  | failing (httpStatus : Nat) (reason : String)
  | saving (record : IdempotencyRecord F)

/-- The record, and the requests that have claimed it. -/
structure Keyed (F : Type) where
  record : Option (IdempotencyRecord F)
  phase : Nat → Option (Phase F)

namespace Keyed

variable (s : Keyed F)

def setPhase (id : Nat) (phase : Option (Phase F)) : Keyed F :=
  { s with phase := Function.update s.phase id phase }

/-- No record and no requests. -/
def fresh : Keyed F := ⟨none, fun _ => none⟩

end Keyed

/-- What a request or the clean-up does next. -/
inductive Action (F : Type) where
  | claim (id now : Nat) (fp : F)
  | returns (id httpStatus : Nat) (responseBody : Json)
  | throws (id : Nat) (error : Thrown)
  | find (id now : Nat)
  | save (id : Nat)
  | vanish (id : Nat)
  | cleanup (now : Nat)

/-- What happened: a handler run started, a request was answered without one, a handler run ended,
a record was read, an outcome was stored, a request vanished, or expired records were deleted. -/
inductive Event where
  | started (id : Nat)
  | answered (id : Nat) (result : ClaimResult)
  | ended (id : Nat)
  | found (id : Nat)
  | saved (id : Nat) (state : IdempotencyState)
  | vanished (id : Nat)
  | cleaned (now : Nat)

/-- The copy that is saved for an outcome. -/
def Phase.outcome (now : Nat) (record : IdempotencyRecord F) :
    Phase F → Option (IdempotencyRecord F)
  | .completing httpStatus responseBody => some (complete now httpStatus responseBody record)
  | .failing httpStatus reason => some (fail now httpStatus reason record)
  | .running => none
  | .saving _ => none

/-- A request that has not claimed the record claims it. -/
def Keyed.claim [DecidableEq F] (s : Keyed F) (id now : Nat) (fp : F) : Event × Keyed F :=
  match claimOrReplay now fp s.record with
  | (.claimed, record) => (.started id, { s with record := record }.setPhase id (some .running))
  | (result, record) => (.answered id result, { s with record := record })

/-- One step of the requests under a key. -/
def Keyed.next [DecidableEq F] (s : Keyed F) : Action F → Option (Event × Keyed F)
  | .claim id now fp =>
    match s.phase id with
    | none => some (s.claim id now fp)
    | some _ => none
  | .returns id httpStatus responseBody =>
    match s.phase id with
    | some .running => some (.ended id, s.setPhase id (some (.completing httpStatus responseBody)))
    | _ => none
  | .throws id error =>
    match s.phase id with
    | some .running =>
      let (httpStatus, message) := extractErrorInfo error
      some (.ended id, s.setPhase id (some (.failing httpStatus message)))
    | _ => none
  | .find id now =>
    match s.phase id, s.record with
    | some phase, some record =>
      (phase.outcome now record).map fun copy => (.found id, s.setPhase id (some (.saving copy)))
    | some (.completing _ _), none => some (.found id, s.setPhase id none)
    | some (.failing _ _), none => some (.found id, s.setPhase id none)
    | _, _ => none
  | .save id =>
    match s.phase id with
    | some (.saving copy) =>
      some (.saved id copy.state, { s with record := some copy }.setPhase id none)
    | _ => none
  | .vanish id =>
    match s.phase id with
    | some _ => some (.vanished id, s.setPhase id none)
    | none => none
  | .cleanup now => some (.cleaned now, { s with record := cleanupExpired now s.record })

/-- The requests under a key, from the first one on. -/
def requests (F : Type) [DecidableEq F] : System (Keyed F) Event where
  initial s := s = .fresh
  step s l s' := ∃ action, s.next action = some (l, s')

/-- The clean-up does not run after the record has expired. -/
def unexpired : System.Guard (Keyed F) Event := fun _ s l =>
  ∀ now, l = .cleaned now → ∀ r, s.record = some r → now ≤ r.expiresAt

/-- What a step of the requests can do to the record and to the phases. -/
inductive Changes (s : Keyed F) : Event → Keyed F → Prop where
  | started {id record} : s.phase id = none → (∀ r, s.record = some r → r.state = .retryable) →
      record.state = .inProgress →
      Changes s (.started id) ({ s with record := some record }.setPhase id (some .running))
  | answered {id result} : Changes s (.answered id result) s
  | ended {id phase} :
      s.phase id = some .running → phase ≠ .running → (∀ copy, phase ≠ .saving copy) →
      Changes s (.ended id) (s.setPhase id (some phase))
  | found {id copy} : s.phase id ≠ none → copy.state ≠ .inProgress →
      Changes s (.found id) (s.setPhase id (some (.saving copy)))
  | lost {id} : s.phase id ≠ none → Changes s (.found id) (s.setPhase id none)
  | saved {id copy} : s.phase id = some (.saving copy) →
      Changes s (.saved id copy.state) ({ s with record := some copy }.setPhase id none)
  | vanished {id} : s.phase id ≠ none → Changes s (.vanished id) (s.setPhase id none)
  | cleaned {now} : Changes s (.cleaned now) { s with record := cleanupExpired now s.record }

section Steps

variable {s s' : Keyed F} {l : Event}

theorem outcome_state {phase : Phase F} {now : Nat} {record copy : IdempotencyRecord F}
    (h : phase.outcome now record = some copy) : copy.state ≠ .inProgress := by
  cases phase with
  | running => cases h
  | saving => cases h
  | completing httpStatus responseBody =>
    cases h
    simp [complete]
  | failing httpStatus reason =>
    cases h
    simp only [fail, failureState]
    split <;> decide

/-- A claim starts a handler run or answers the request. -/
theorem claim_changes [DecidableEq F] (id now : Nat) (fp : F) (hid : s.phase id = none) :
    Changes s (s.claim id now fp).1 (s.claim id now fp).2 := by
  unfold Keyed.claim
  split
  · next record hclaim =>
    obtain ⟨hretry, r, rfl, hstate⟩ := claim_claimed hclaim
    exact .started hid hretry hstate
  · next result record hother hclaim =>
    rw [claim_refused hclaim hother]
    exact .answered

theorem next_changes [DecidableEq F] {action : Action F} (h : s.next action = some (l, s')) :
    Changes s l s' := by
  cases action with
  | claim id now fp =>
    simp only [Keyed.next] at h
    split at h
    · next hid =>
      obtain ⟨rfl, rfl⟩ := Prod.mk.inj (Option.some.inj h)
      exact claim_changes id now fp hid
    · cases h
  | returns id httpStatus responseBody =>
    simp only [Keyed.next] at h
    split at h
    · next hid =>
      cases h
      exact .ended hid (by simp) (by simp)
    · cases h
  | throws id error =>
    simp only [Keyed.next] at h
    split at h
    · next hid =>
      cases h
      exact .ended hid (by simp) (by simp)
    · cases h
  | find id now =>
    simp only [Keyed.next] at h
    split at h
    · next phase record hid hrecord =>
      obtain ⟨copy, hcopy, heq⟩ := Option.map_eq_some_iff.mp h
      cases heq
      exact .found (by simp [hid]) (outcome_state hcopy)
    · next hid hrecord =>
      cases h
      exact .lost (by simp [hid])
    · next hid hrecord =>
      cases h
      exact .lost (by simp [hid])
    · cases h
  | save id =>
    simp only [Keyed.next] at h
    split at h
    · next copy hid =>
      cases h
      exact .saved hid
    · cases h
  | vanish id =>
    simp only [Keyed.next] at h
    split at h
    · next phase hid =>
      cases h
      exact .vanished (by simp [hid])
    · cases h
  | cleanup now =>
    cases h
    exact .cleaned

end Steps

/-- The outcomes that were stored for good. -/
def finalOutcomes (history : List Event) : List Event :=
  history.filter fun
    | .saved _ state => state.terminal
    | _ => false

/-- A request that has claimed the record is the only one, and the record is in progress. Once an
outcome is stored for good the record says so. -/
structure Exclusive (history : List Event) (s : Keyed F) : Prop where
  alone : ∀ i j, s.phase i ≠ none → s.phase j ≠ none → i = j
  claimed : ∀ i, s.phase i ≠ none → ∃ r, s.record = some r ∧ r.state = .inProgress
  saving : ∀ i copy, s.phase i = some (.saving copy) → copy.state ≠ .inProgress
  final : (finalOutcomes history).length ≤ 1
  recorded : finalOutcomes history ≠ [] → ∃ r, s.record = some r ∧ r.state.terminal = true

section Invariant

variable {history : List Event} {s s' : Keyed F} {l : Event}

theorem setPhase_ne_none {id i : Nat} {phase : Option (Phase F)}
    (h : (s.setPhase id phase).phase i ≠ none) :
    i = id ∧ phase ≠ none ∨ i ≠ id ∧ s.phase i ≠ none := by
  simp only [Keyed.setPhase, Function.update_apply] at h
  split at h
  · next heq => exact .inl ⟨heq, h⟩
  · next hne => exact .inr ⟨hne, h⟩

/-- A request that has claimed the record keeps others out until its outcome is stored. -/
theorem Exclusive.occupied (h : Exclusive history s) {i : Nat} (hi : s.phase i ≠ none) :
    finalOutcomes history = [] := by
  by_contra hfinal
  obtain ⟨r, hr, hterminal⟩ := h.recorded hfinal
  obtain ⟨r', hr', hstate⟩ := h.claimed i hi
  obtain rfl := Option.some.inj (hr.symm.trans hr')
  rw [hstate] at hterminal
  cases hterminal

/-- A change of one request's phase that stores nothing. -/
theorem Exclusive.rephase (h : Exclusive history s) {id : Nat} (hid : s.phase id ≠ none)
    (phase : Option (Phase F)) (hl : finalOutcomes (l :: history) = finalOutcomes history)
    (hsaving : ∀ copy, phase = some (.saving copy) → copy.state ≠ .inProgress) :
    Exclusive (l :: history) (s.setPhase id phase) := by
  have hlive : ∀ i, (s.setPhase id phase).phase i ≠ none → s.phase i ≠ none := fun i hi => by
    obtain ⟨rfl, -⟩ | ⟨-, hi⟩ := setPhase_ne_none hi
    · exact hid
    · exact hi
  refine ⟨fun i j hi hj => h.alone i j (hlive i hi) (hlive j hj),
    fun i hi => h.claimed i (hlive i hi), fun i copy hi => ?_, by rw [hl]; exact h.final,
    by rw [hl]; exact h.recorded⟩
  simp only [Keyed.setPhase, Function.update_apply] at hi
  split at hi
  · exact hsaving copy hi
  · exact h.saving i copy hi

theorem Exclusive.step (h : Exclusive history s) (hchange : Changes s l s')
    (hguard : ∀ now, l = .cleaned now → ∀ r, s.record = some r → now ≤ r.expiresAt) :
    Exclusive (l :: history) s' := by
  cases hchange with
  | @started id record hid hretry hstate =>
    have hfree : ∀ i, s.phase i = none := fun i => by
      by_contra hi
      obtain ⟨r, hr, hprogress⟩ := h.claimed i hi
      rw [hretry r hr] at hprogress
      cases hprogress
    have hnone : finalOutcomes history = [] := by
      by_contra hfinal
      obtain ⟨r, hr, hterminal⟩ := h.recorded hfinal
      rw [hretry r hr] at hterminal
      cases hterminal
    have hlive : ∀ i, ({ s with record := some record }.setPhase id
        (some .running)).phase i ≠ none → i = id := fun i hi => by
      obtain ⟨rfl, -⟩ | ⟨-, hi⟩ := setPhase_ne_none hi
      · rfl
      · exact absurd (hfree i) hi
    refine ⟨fun i j hi hj => (hlive i hi).trans (hlive j hj).symm,
      fun i _ => ⟨record, rfl, hstate⟩, fun i copy hi => ?_, h.final,
      fun hfinal => absurd hnone hfinal⟩
    simp only [Keyed.setPhase, Function.update_apply, hfree] at hi
    split at hi <;> cases hi
  | answered => exact ⟨h.alone, h.claimed, h.saving, h.final, h.recorded⟩
  | @ended id phase hid _ hsaving =>
    refine h.rephase (by simp [hid]) _ rfl fun copy hcopy => ?_
    exact absurd (Option.some.inj hcopy) (hsaving copy)
  | @found id copy hid hstate =>
    refine h.rephase hid _ rfl fun copy' hcopy => ?_
    obtain rfl : copy = copy' := by simpa using hcopy
    exact hstate
  | lost hid => exact h.rephase hid _ rfl fun copy hcopy => by cases hcopy
  | vanished hid => exact h.rephase hid _ rfl fun copy hcopy => by cases hcopy
  | @saved id copy hid =>
    have hlive : s.phase id ≠ none := by simp [hid]
    have hnone := h.occupied hlive
    have hgone : ∀ i, ({ s with record := some copy }.setPhase id none).phase i = none :=
      fun i => by
        by_contra hi
        obtain ⟨-, hnone⟩ | ⟨hne, hi⟩ := setPhase_ne_none hi
        · exact hnone rfl
        · exact hne (h.alone i id hi hlive)
    refine ⟨fun i _ hi => absurd (hgone i) hi, fun i hi => absurd (hgone i) hi,
      fun i copy' hi => by simp [hgone] at hi, ?_, fun hfinal => ?_⟩
    · simp only [finalOutcomes, List.filter_cons] at hnone ⊢
      split <;> simp [hnone]
    · refine ⟨copy, rfl, ?_⟩
      by_contra hterminal
      simp only [finalOutcomes, List.filter_cons, if_neg hterminal] at hfinal hnone
      exact hfinal hnone
  | @cleaned now =>
    have hkept := cleanup_unexpired (hguard now rfl)
    rw [hkept]
    exact ⟨h.alone, h.claimed, h.saving, h.final, h.recorded⟩

/-- Once an outcome is stored for good, nothing changes the record and no handler run starts. -/
theorem Exclusive.settled (h : Exclusive history s) {r : IdempotencyRecord F}
    (hr : s.record = some r) (hterminal : r.state.terminal = true) (hchange : Changes s l s')
    (hguard : ∀ now, l = .cleaned now → ∀ r, s.record = some r → now ≤ r.expiresAt) :
    s'.record = some r ∧ ∀ id, l ≠ .started id := by
  have hfree : ∀ i, s.phase i = none := fun i => by
    by_contra hi
    obtain ⟨r', hr', hprogress⟩ := h.claimed i hi
    obtain rfl := Option.some.inj (hr.symm.trans hr')
    rw [hprogress] at hterminal
    cases hterminal
  cases hchange with
  | started _ hretry =>
    rw [hretry r hr] at hterminal
    cases hterminal
  | answered => exact ⟨hr, by simp⟩
  | ended hid => simp [hfree] at hid
  | found hid | lost hid | vanished hid => exact absurd (hfree _) hid
  | saved hid => simp [hfree] at hid
  | cleaned =>
    rw [cleanup_unexpired (hguard _ rfl)]
    exact ⟨hr, by simp⟩

end Invariant

section Run

variable [DecidableEq F] {history : List Event} {s : Keyed F}

theorem exclusive_of_run (run : (requests F).RunWhere unexpired history s) :
    Exclusive history s := by
  refine run.invariant (I := fun h s => Exclusive h s) ?_ ?_
  · rintro s rfl
    exact ⟨fun _ _ hi => absurd rfl hi, fun _ hi => absurd rfl hi,
      fun _ _ hi => by simp [Keyed.fresh] at hi, Nat.zero_le _, fun hfinal => absurd rfl hfinal⟩
  · rintro h s l s' - ih ⟨action, hnext⟩ hguard
    exact ih.step (next_changes hnext) hguard

/-- The requests under a key never run two handlers at a time and store at most one outcome for
good. From then on the record stays as it is, and no handler run starts. -/
theorem runs_at_most_once (run : (requests F).RunWhere unexpired history s) :
    (∀ i j, s.phase i = some .running → s.phase j = some .running → i = j) ∧
      (finalOutcomes history).length ≤ 1 ∧
      ∀ r, s.record = some r → r.state.terminal = true →
        ∀ history' s', System.Path (requests F) unexpired history s history' s' →
          s'.record = some r ∧
            ∃ later, history' = later ++ history ∧ ∀ l ∈ later, ∀ id, l ≠ .started id := by
  have h := exclusive_of_run run
  refine ⟨fun i j hi hj => h.alone i j (by simp [hi]) (by simp [hj]), h.final, ?_⟩
  intro r hr hterminal history' s' path
  refine path.stable (P := fun h' s' => s'.record = some r ∧
    ∃ later, h' = later ++ history ∧ ∀ l ∈ later, ∀ id, l ≠ .started id) run ?_
    ⟨hr, [], rfl, by simp⟩
  rintro h' s l s' hrun ⟨hrecord, later, rfl, hquiet⟩ ⟨action, hnext⟩ hguard
  obtain ⟨hkept, hstart⟩ :=
    (exclusive_of_run hrun).settled hrecord hterminal (next_changes hnext) hguard
  exact ⟨hkept, l :: later, rfl, List.forall_mem_cons.mpr ⟨hstart, hquiet⟩⟩

end Run

/-- The guard of `unexpired` as a test. -/
def stillKept : List Event → Keyed Nat → Event → Bool
  | _, s, .cleaned now => s.record.all fun r => decide (now ≤ r.expiresAt)
  | _, _, _ => true

theorem stillKept_unexpired (h : List Event) (s : Keyed Nat) (l : Event)
    (hkept : stillKept h s l = true) : unexpired h s l := by
  rintro now rfl r hr
  simpa [stillKept, hr] using hkept

/-- Request 1 fails with the status 503, request 2 retries the key and succeeds, the records are
cleaned up, and request 3 is answered with the stored response. -/
def retriedRun : System.Replayed (requests Nat) Keyed.next stillKept :=
  .of .fresh rfl [.claim 1 0 5, .throws 1 (.other (some 503) none), .find 1 10, .save 1,
    .claim 2 20 5, .returns 2 201 (.obj [("ok", .bool true)]), .find 2 30, .save 2,
    .cleanup 40, .claim 3 50 5] (by decide +kernel)

theorem retried_runs_at_most_once :
    (∀ i j, retriedRun.state.phase i = some .running → retriedRun.state.phase j = some .running →
        i = j) ∧
      (finalOutcomes retriedRun.history).length = 1 ∧
      ∀ history' s', System.Path (requests Nat) unexpired retriedRun.history retriedRun.state
        history' s' → s'.record = retriedRun.state.record := by
  have hrun := retriedRun.run (fun s action l s' h => ⟨action, h⟩) stillKept_unexpired
  obtain ⟨halone, -, hstable⟩ := runs_at_most_once hrun
  have hone : (finalOutcomes retriedRun.history).length = 1 := by decide +kernel
  obtain ⟨r, hr, hterminal⟩ :
      ∃ r, retriedRun.state.record = some r ∧ r.state.terminal = true := ⟨_, rfl, rfl⟩
  refine ⟨halone, hone, fun history' s' path => ?_⟩
  rw [hr]
  exact (hstable r hr hterminal history' s' path).1

end Backit.Idempotency
