import Backit.DeadLetter.Entries
import Backit.Lib.Transition

/-!
# Replays and dismissals of a dead-letter entry

A replay works under a lock that can expire, a dismissal without one. Both read the entry, and
write a changed copy of what they have read later; a replay retries the source job before. Any
number of them proceed in any order, each step of theirs can fail, and each can stop at any point.
-/

namespace Backit.DeadLetter

open Lib

inductive JobState where
  | completed
  | failed
  | delayed
  | active
  | waiting
  | waitingChildren
  | prioritized
  | unknown
  deriving DecidableEq

def JobState.toText : JobState → String
  | .completed => "completed"
  | .failed => "failed"
  | .delayed => "delayed"
  | .active => "active"
  | .waiting => "waiting"
  | .waitingChildren => "waiting-children"
  | .prioritized => "prioritized"
  | .unknown => "unknown"

structure SourceJob where
  data : Json
  state : JobState

/-- What a caller is told. -/
inductive Result where
  | replayed (entry : DeadLetterEntry)
  | dismissed (entry : DeadLetterEntry)
  | rejected (reason : String)
  | threw

/-- Nobody is told of a success. -/
def Result.Fails : Result → Prop
  | .replayed _ => False
  | .dismissed _ => False
  | _ => True

/-- A success is the stored entry. -/
def Result.Holds (dlqJobId : String) (entry : Option DeadLetterPayload) : Result → Prop
  | .replayed told => entry.map (normalizeEntry dlqJobId) = some told ∧ told.replayStatus = .replayed
  | .dismissed told =>
    entry.map (normalizeEntry dlqJobId) = some told ∧ told.replayStatus = .dismissed
  | _ => True

/-- A request of an operator. -/
structure Request where
  actorId : String
  reason : String
  deriving DecidableEq

/-- Where an operation is: a replay holds the lock and is about to read the entry, to look for the
source job, to read its state, to retry it, to record a failure, or to write the entry; a dismissal
is about to write the entry; or the caller is about to be told. -/
inductive Phase where
  | locked (request : Request)
  | sourcing (request : Request) (payload : DeadLetterPayload)
  | stating (request : Request) (payload : DeadLetterPayload)
  | retrying (request : Request) (payload : DeadLetterPayload)
  | failing (payload : DeadLetterPayload) (failure : String)
  | marking (request : Request) (payload : DeadLetterPayload)
  | dismissing (request : Request) (payload : DeadLetterPayload)
  | releasing (result : Result)
  | returning (result : Result)

/-- The payload of the entry, the value of the replay lock, the jobs of the source queues and the
operations under way. -/
structure Store where
  entry : Option DeadLetterPayload
  lock : Option Nat
  source : QueueName → String → Option SourceJob
  phase : Nat → Option Phase

namespace Store

def setPhase (s : Store) (id : Nat) (phase : Option Phase) : Store :=
  { s with phase := Function.update s.phase id phase }

def setEntry (s : Store) (payload : DeadLetterPayload) : Store := { s with entry := some payload }

def setLock (s : Store) (lock : Option Nat) : Store := { s with lock := lock }

/-- The source job of an entry. -/
def sourceJob (s : Store) (payload : DeadLetterPayload) : Option SourceJob :=
  s.source payload.sourceQueue payload.jobId.toText

/-- The source job of an entry waits again. -/
def requeue (s : Store) (payload : DeadLetterPayload) (job : SourceJob) : Store :=
  { s with
    source := Function.update s.source payload.sourceQueue
      (Function.update (s.source payload.sourceQueue) payload.jobId.toText
        (some { job with state := .waiting })) }

def status (s : Store) : Option ReplayStatus := s.entry.map (·.status)

end Store

inductive Action where
  | replay (id : Nat) (request : Request)
  | dismiss (id : Nat) (request : Request)
  | read (id : Nat)
  | getJob (id : Nat)
  | getState (id : Nat)
  | retry (id : Nat) (message : String)
  | write (id : Nat) (now : String)
  | finish (id : Nat) (released : Bool)
  | fail (id : Nat) (message : String)
  | stop (id : Nat)
  | expire
  | outside (source : QueueName → String → Option SourceJob)

/-- Why the entry is written. -/
inductive Write where
  | failure
  | replayed
  | dismissed
  deriving DecidableEq

/-- The status of the copy that is written. -/
def Write.status : Write → ReplayStatus
  | .failure => .opened
  | .replayed => .replayed
  | .dismissed => .dismissed

inductive Event where
  | quiet
  | retried (id : Nat)
  | wrote (id : Nat) (write : Write)
  | told (id : Nat) (result : Result)

/-- What an operation that has the entry does if the entry is open, and what it tells otherwise. -/
def checked (entry : Option DeadLetterPayload) (proceed : DeadLetterPayload → Phase)
    (refuse : String → Phase) : Phase :=
  match entry with
  | none => refuse "dead-letter entry not found"
  | some payload =>
    if payload.status ≠ .opened then
      refuse ("entry is already " ++ payload.status.lowerCase)
    else proceed payload

/-- What a replay does with an open entry. -/
def supported (request : Request) (payload : DeadLetterPayload) : Phase :=
  if isReplayable payload.sourceQueue then .sourcing request payload
  else .releasing (.rejected ("replay is not supported for source queue \"" ++
    payload.sourceQueue.toText ++ "\""))

/-- What a replay does with what it finds in the source queue. -/
def sourced (composite : Json → String) (request : Request) (payload : DeadLetterPayload) :
    Option SourceJob → Phase
  | none => .failing payload "source job no longer exists in its source queue"
  | some job =>
    match validateSourceJobData composite payload.sourceQueue job.data with
    | some reason => .failing payload ("source job failed schema validation: " ++ reason)
    | none => .stating request payload

/-- What a replay does with the state of the source job. -/
def stated (request : Request) (payload : DeadLetterPayload) (state : JobState) : Phase :=
  if state ≠ .failed then
    .failing payload ("source job is in state \"" ++ state.toText ++
      "\", not \"failed\" - not replayable")
  else .retrying request payload

/-- The state of a job that may not exist. -/
def stateOf (job : Option SourceJob) : JobState := (job.map (·.state)).getD .unknown

/-- One step of the operations on the entry, of its lock or of the source queues. -/
def Store.next (composite : Json → String) (dlqJobId : String) (s : Store) :
    Action → Option (Event × Store)
  | .replay id request =>
    match s.phase id with
    | some _ => none
    | none =>
      if s.lock = none then
        some (.quiet, (s.setLock (some id)).setPhase id (some (.locked request)))
      else
        some (.quiet, s.setPhase id (some (.returning
          (.rejected "another replay for this entry is already in progress"))))
  | .dismiss id request =>
    match s.phase id with
    | some _ => none
    | none =>
      some (.quiet, s.setPhase id (some (checked s.entry (.dismissing request)
        fun reason => .returning (.rejected reason))))
  | .read id =>
    match s.phase id with
    | some (.locked request) =>
      some (.quiet, s.setPhase id (some (checked s.entry (supported request)
        fun reason => .releasing (.rejected reason))))
    | _ => none
  | .getJob id =>
    match s.phase id with
    | some (.sourcing request payload) =>
      some (.quiet, s.setPhase id (some (sourced composite request payload (s.sourceJob payload))))
    | _ => none
  | .getState id =>
    match s.phase id with
    | some (.stating request payload) =>
      some (.quiet, s.setPhase id (some (stated request payload (stateOf (s.sourceJob payload)))))
    | _ => none
  | .retry id message =>
    match s.phase id with
    | some (.retrying request payload) =>
      match s.sourceJob payload with
      | some job =>
        if job.state = .failed then
          some (.retried id, (s.requeue payload job).setPhase id (some (.marking request payload)))
        else
          some (.quiet, s.setPhase id (some (.failing payload ("retry() rejected: " ++ message))))
      | none =>
        some (.quiet, s.setPhase id (some (.failing payload ("retry() rejected: " ++ message))))
    | _ => none
  | .write id now =>
    match s.phase id with
    | some (.failing payload failure) =>
      some (.wrote id .failure, (s.setEntry (failedPayload now failure payload)).setPhase id
        (some (.releasing (.rejected failure))))
    | some (.marking request payload) =>
      let updated := replayedPayload now request.actorId request.reason payload
      some (.wrote id .replayed, (s.setEntry updated).setPhase id
        (some (.releasing (.replayed (normalizeEntry dlqJobId updated)))))
    | some (.dismissing request payload) =>
      let updated := dismissedPayload now request.actorId request.reason payload
      some (.wrote id .dismissed, (s.setEntry updated).setPhase id
        (some (.returning (.dismissed (normalizeEntry dlqJobId updated)))))
    | _ => none
  | .finish id released =>
    match s.phase id with
    | some (.releasing result) =>
      some (.told id result,
        (s.setLock (if released ∧ s.lock = some id then none else s.lock)).setPhase id none)
    | some (.returning result) => some (.told id result, s.setPhase id none)
    | _ => none
  | .fail id message =>
    match s.phase id with
    | some (.retrying _ payload) =>
      some (.quiet, s.setPhase id (some (.failing payload ("retry() rejected: " ++ message))))
    | some (.dismissing _ _) => some (.quiet, s.setPhase id (some (.returning .threw)))
    | some (.returning _) => some (.quiet, s.setPhase id (some (.returning .threw)))
    | some _ => some (.quiet, s.setPhase id (some (.releasing .threw)))
    | none => none
  | .stop id =>
    match s.phase id with
    | some _ => some (.quiet, s.setPhase id none)
    | none => none
  | .expire => some (.quiet, s.setLock none)
  | .outside source => some (.quiet, { s with source := source })

/-- The operations on an entry that is open, or that does not exist. -/
def deadLetter (composite : Json → String) (dlqJobId : String) : System Store Event where
  initial s := (∀ payload, s.entry = some payload → payload.status = .opened) ∧
    ∀ id, s.phase id = none
  step s l s' := ∃ action, s.next composite dlqJobId action = some (l, s')

/-- The retries of the source job by replays of the entry. -/
def retries (history : List Event) : Nat :=
  history.countP fun
    | .retried _ => true
    | _ => false

/-- A write and a retry find the entry open, and a retry and a dismissal find the source job not
retried. -/
structure InTurn (history : List Event) (s : Store) (l : Event) : Prop where
  wrote : ∀ id write, l = .wrote id write → s.status = some .opened
  dismissed : ∀ id, l = .wrote id .dismissed → retries history = 0
  retried : ∀ id, l = .retried id → s.status = some .opened ∧ retries history = 0

/-- What the operations promise of the entry: a status other than open is final, the source job was
retried once if the entry is replayed and never if it is dismissed, and a caller who was told of a
success finds the entry that it was told of. -/
structure Settles (composite : Json → String) (dlqJobId : String)
    (guard : System.Guard Store Event) (history : List Event) (s : Store) : Prop where
  final : ∀ status, s.status = some status → status ≠ .opened → ∀ history' s',
    System.Path (deadLetter composite dlqJobId) guard history s history' s' →
      s'.status = some status
  replayed : s.status = some .replayed → retries history = 1
  dismissed : s.status = some .dismissed → retries history = 0
  told : ∀ id result, .told id result ∈ history → result.Holds dlqJobId s.entry

/-- The phases that a step of no consequence leads to. -/
def Phase.Idle : Phase → Prop
  | .locked _ => True
  | .sourcing _ payload => payload.status = .opened
  | .stating _ payload => payload.status = .opened
  | .retrying _ payload => payload.status = .opened
  | .failing payload _ => payload.status = .opened
  | .marking _ _ => False
  | .dismissing _ payload => payload.status = .opened
  | .releasing result => result.Fails
  | .returning result => result.Fails

/-- What is known of an operation under way. -/
def Phase.Sound (dlqJobId : String) (retried : Nat) (entry : Option DeadLetterPayload) :
    Phase → Prop
  | .marking _ _ => 1 ≤ retried
  | .releasing result => result.Holds dlqJobId entry
  | .returning result => result.Holds dlqJobId entry
  | other => other.Idle

/-- What a step can do. -/
inductive Changes (dlqJobId : String) (s : Store) : Event → Store → Prop where
  | quiet {s'} : s'.entry = s.entry → (∀ j p, s'.phase j = some p → s.phase j = some p ∨ p.Idle) →
      Changes dlqJobId s .quiet s'
  | retried {id s'} : s'.entry = s.entry →
      (∀ j p, s'.phase j = some p →
        s.phase j = some p ∨ ∃ request payload, p = .marking request payload) →
      Changes dlqJobId s (.retried id) s'
  | wrote {id write payload s'} (result) : s'.entry = some payload → payload.status = write.status →
      (write = .replayed → ∃ request read, s.phase id = some (.marking request read)) →
      result.Holds dlqJobId (some payload) →
      (∀ j p, s'.phase j = some p →
        s.phase j = some p ∨ p = .releasing result ∨ p = .returning result) →
      Changes dlqJobId s (.wrote id write) s'
  | told {id result s'} :
      s.phase id = some (.releasing result) ∨ s.phase id = some (.returning result) →
      s'.entry = s.entry → (∀ j p, s'.phase j = some p → s.phase j = some p) →
      Changes dlqJobId s (.told id result) s'

section Steps

variable {composite : Json → String} {dlqJobId : String} {s s' : Store} {l : Event}

theorem phase_setPhase {s : Store} {id j : Nat} {phase : Option Phase} {p : Phase}
    (h : (s.setPhase id phase).phase j = some p) :
    s.phase j = some p ∨ phase = some p := by
  simp only [Store.setPhase, Function.update_apply] at h
  split at h
  · exact .inr h
  · exact .inl h

theorem checked_idle {entry : Option DeadLetterPayload} {proceed : DeadLetterPayload → Phase}
    {refuse : String → Phase} (hproceed : ∀ payload, payload.status = .opened →
      (proceed payload).Idle) (hrefuse : ∀ reason, (refuse reason).Idle) :
    (checked entry proceed refuse).Idle := by
  unfold checked
  split
  · exact hrefuse _
  · split
    · exact hrefuse _
    · next hopen => exact hproceed _ (not_not.mp hopen)

variable {payload : DeadLetterPayload}

theorem supported_idle {request : Request}
    (hopen : payload.status = .opened) : (supported request payload).Idle := by
  unfold supported
  split
  · exact hopen
  · trivial

theorem sourced_idle {request : Request} {job : Option SourceJob}
    (hopen : payload.status = .opened) : (sourced composite request payload job).Idle := by
  unfold sourced
  split
  · exact hopen
  · split <;> exact hopen

theorem stated_idle {request : Request} {state : JobState}
    (hopen : payload.status = .opened) : (stated request payload state).Idle := by
  unfold stated
  split <;> exact hopen

theorem Changes.move {s₁ : Store} {id : Nat} {phase : Option Phase} (hentry : s₁.entry = s.entry)
    (hphase : s₁.phase = s.phase) (hidle : ∀ p, phase = some p → p.Idle) :
    Changes dlqJobId s .quiet (s₁.setPhase id phase) := by
  refine .quiet hentry fun j p hp => ?_
  rw [← hphase]
  exact (phase_setPhase hp).imp_right (hidle p)

theorem next_changes {action : Action} {retried : Nat}
    (h : s.next composite dlqJobId action = some (l, s'))
    (hsound : ∀ id p, s.phase id = some p → p.Sound dlqJobId retried s.entry) :
    Changes dlqJobId s l s' := by
  cases action with
  | replay id request =>
    simp only [Store.next] at h
    split at h
    · cases h
    · split at h
      · cases h
        exact .move rfl rfl fun p hp => by cases hp; trivial
      · cases h
        exact .move rfl rfl fun p hp => by cases hp; trivial
  | dismiss id request =>
    simp only [Store.next] at h
    split at h
    · cases h
    · cases h
      exact .move rfl rfl fun p hp => by
        cases hp
        exact checked_idle (fun _ hopen => hopen) fun _ => trivial
  | read id =>
    simp only [Store.next] at h
    split at h
    · cases h
      exact .move rfl rfl fun p hp => by
        cases hp
        exact checked_idle (fun _ hopen => supported_idle hopen) fun _ => trivial
    · cases h
  | getJob id =>
    simp only [Store.next] at h
    split at h
    · next hid =>
      cases h
      exact .move rfl rfl fun p hp => by
        cases hp
        exact sourced_idle (hsound _ _ hid)
    · cases h
  | getState id =>
    simp only [Store.next] at h
    split at h
    · next hid =>
      cases h
      exact .move rfl rfl fun p hp => by
        cases hp
        exact stated_idle (hsound _ _ hid)
    · cases h
  | retry id message =>
    simp only [Store.next] at h
    split at h
    · next request payload hid =>
      have hfailing : (Phase.failing payload ("retry() rejected: " ++ message)).Idle :=
        hsound _ _ hid
      split at h
      · split at h
        · cases h
          exact .retried rfl fun j p hp =>
            (phase_setPhase hp).imp_right fun hp => ⟨_, _, (Option.some.inj hp).symm⟩
        · cases h
          exact .move rfl rfl fun p hp => by cases hp; exact hfailing
      · cases h
        exact .move rfl rfl fun p hp => by cases hp; exact hfailing
    · cases h
  | write id now =>
    simp only [Store.next] at h
    split at h
    · next payload failure hid =>
      cases h
      refine .wrote (.rejected failure) rfl (hsound _ _ hid) (by simp) trivial ?_
      exact fun j p hp => (phase_setPhase hp).imp_right fun hp =>
        .inl (Option.some.inj hp).symm
    · next request payload hid =>
      cases h
      refine .wrote (.replayed _) rfl rfl (fun _ => ⟨_, _, hid⟩) ⟨rfl, rfl⟩ ?_
      exact fun j p hp => (phase_setPhase hp).imp_right fun hp =>
        .inl (Option.some.inj hp).symm
    · next request payload hid =>
      cases h
      refine .wrote (.dismissed _) rfl rfl (by simp) ⟨rfl, rfl⟩ ?_
      exact fun j p hp => (phase_setPhase hp).imp_right fun hp =>
        .inr (Option.some.inj hp).symm
    · cases h
  | finish id released =>
    simp only [Store.next] at h
    split at h
    · next hid =>
      cases h
      exact .told (.inl hid) rfl fun j p hp =>
        (phase_setPhase hp).resolve_right (by simp)
    · next hid =>
      cases h
      exact .told (.inr hid) rfl fun j p hp =>
        (phase_setPhase hp).resolve_right (by simp)
    · cases h
  | fail id message =>
    simp only [Store.next] at h
    split at h
    · next hid =>
      cases h
      exact .move rfl rfl fun p hp => by
        cases hp
        exact hsound _ _ hid
    · cases h
      exact .move rfl rfl fun p hp => by cases hp; trivial
    · cases h
      exact .move rfl rfl fun p hp => by cases hp; trivial
    · cases h
      exact .move rfl rfl fun p hp => by cases hp; trivial
    · cases h
  | stop id =>
    simp only [Store.next] at h
    split at h
    · cases h
      exact .move rfl rfl fun p hp => by cases hp
    · cases h
  | expire =>
    cases h
    exact .quiet rfl fun j p hp => .inl hp
  | outside source =>
    cases h
    exact .quiet rfl fun j p hp => .inl hp

end Steps

/-- What holds of an entry whose writes and retries take turns. -/
structure Orderly (dlqJobId : String) (history : List Event) (s : Store) : Prop where
  sound : ∀ id p, s.phase id = some p → p.Sound dlqJobId (retries history) s.entry
  opened : s.status = some .opened → retries history ≤ 1
  replayed : s.status = some .replayed → retries history = 1
  dismissed : s.status = some .dismissed → retries history = 0
  told : ∀ id result, .told id result ∈ history → result.Holds dlqJobId s.entry

section Invariant

variable {composite : Json → String} {dlqJobId : String} {history : List Event} {s s' : Store}
  {l : Event}

theorem Result.Fails.holds {result : Result} {entry : Option DeadLetterPayload}
    (h : result.Fails) : result.Holds dlqJobId entry := by
  cases result with
  | replayed told => cases h
  | dismissed told => cases h
  | rejected reason => trivial
  | threw => trivial

theorem Phase.Idle.sound {p : Phase} (h : p.Idle) (retried : Nat)
    (entry : Option DeadLetterPayload) : p.Sound dlqJobId retried entry := by
  cases p with
  | marking => cases h
  | releasing result => exact Result.Fails.holds h
  | returning result => exact Result.Fails.holds h
  | _ => exact h

theorem Phase.Sound.mono {p : Phase} {n m : Nat} {entry : Option DeadLetterPayload}
    (h : p.Sound dlqJobId n entry) (hle : n ≤ m) : p.Sound dlqJobId m entry := by
  cases p with
  | marking => exact Nat.le_trans h hle
  | _ => exact h

theorem Result.Holds.of_open {result : Result} {entry entry' : Option DeadLetterPayload}
    (h : result.Holds dlqJobId entry) (hopen : entry.map (·.status) = some .opened) :
    result.Holds dlqJobId entry' := by
  obtain ⟨payload, rfl, hstatus⟩ := Option.map_eq_some_iff.mp hopen
  cases result with
  | replayed told =>
    obtain ⟨htold, hreplayed⟩ := h
    obtain rfl := Option.some.inj htold
    rw [normalize_status, hstatus] at hreplayed
    cases hreplayed
  | dismissed told =>
    obtain ⟨htold, hdismissed⟩ := h
    obtain rfl := Option.some.inj htold
    rw [normalize_status, hstatus] at hdismissed
    cases hdismissed
  | rejected reason => trivial
  | threw => trivial

theorem Phase.Sound.of_open {p : Phase} {n : Nat} {entry entry' : Option DeadLetterPayload}
    (h : p.Sound dlqJobId n entry) (hopen : entry.map (·.status) = some .opened) :
    p.Sound dlqJobId n entry' := by
  cases p with
  | releasing result => exact Result.Holds.of_open h hopen
  | returning result => exact Result.Holds.of_open h hopen
  | _ => exact h

theorem status_congr (h : s'.entry = s.entry) : s'.status = s.status := by
  rw [Store.status, Store.status, h]

/-- A step that neither retries nor writes keeps the entry in order. -/
theorem Orderly.keep (h : Orderly dlqJobId history s) (hentry : s'.entry = s.entry)
    (hphases : ∀ j p, s'.phase j = some p → s.phase j = some p ∨ p.Idle)
    (hcount : retries (l :: history) = retries history)
    (htold : ∀ id result, l = .told id result → result.Holds dlqJobId s.entry) :
    Orderly dlqJobId (l :: history) s' := by
  have hstatus := status_congr hentry
  refine ⟨fun j p hp => ?_, ?_, ?_, ?_, fun id result hmem => ?_⟩
  · rw [hentry, hcount]
    rcases hphases j p hp with hold | hidle
    · exact h.sound j p hold
    · exact hidle.sound _ _
  · rw [hstatus, hcount]
    exact h.opened
  · rw [hstatus, hcount]
    exact h.replayed
  · rw [hstatus, hcount]
    exact h.dismissed
  · rw [hentry]
    rcases List.mem_cons.mp hmem with rfl | hmem
    · exact htold id result rfl
    · exact h.told id result hmem

theorem Orderly.retry (h : Orderly dlqJobId history s) {id : Nat} (hentry : s'.entry = s.entry)
    (hphases : ∀ j p, s'.phase j = some p →
      s.phase j = some p ∨ ∃ request payload, p = .marking request payload)
    (hopen : s.status = some .opened) (hnone : retries history = 0) :
    Orderly dlqJobId (.retried id :: history) s' := by
  have hstatus := status_congr hentry
  have hcount : retries (.retried id :: history) = 1 := by
    rw [retries, List.countP_cons_of_pos rfl, ← retries, hnone]
  refine ⟨fun j p hp => ?_, fun _ => by omega, fun _ => hcount, fun hdismissed => ?_,
    fun j result hmem => ?_⟩
  · rw [hentry]
    rcases hphases j p hp with hold | ⟨request, payload, rfl⟩
    · exact (h.sound j p hold).mono (by omega)
    · exact Nat.le_of_eq hcount.symm
  · rw [hstatus, hopen] at hdismissed
    cases hdismissed
  · rw [hentry]
    exact h.told j result ((List.mem_cons.mp hmem).resolve_left (by simp))

/-- A write to an open entry; the job was retried before if it is now replayed, and was not if it is
now dismissed. -/
theorem Orderly.write (h : Orderly dlqJobId history s) {id : Nat} {write : Write}
    {payload : DeadLetterPayload} {result : Result} (hentry : s'.entry = some payload)
    (hstatus : payload.status = write.status)
    (hmarking : write = .replayed → ∃ request read, s.phase id = some (.marking request read))
    (hholds : result.Holds dlqJobId (some payload)) (hphases : ∀ j p, s'.phase j = some p →
      s.phase j = some p ∨ p = .releasing result ∨ p = .returning result)
    (hopen : s.status = some .opened) (hnone : write = .dismissed → retries history = 0) :
    Orderly dlqJobId (.wrote id write :: history) s' := by
  have hwritten : s'.status = some write.status := by
    rw [Store.status, hentry, Option.map_some, hstatus]
  have hcount : retries (.wrote id write :: history) = retries history :=
    List.countP_cons_of_neg (by simp)
  refine ⟨fun j p hp => ?_, ?_, fun hreplayed => ?_, fun hdismissed => ?_, fun j told hmem => ?_⟩
  · rw [hcount, hentry]
    rcases hphases j p hp with hold | rfl | rfl
    · exact (h.sound j p hold).of_open hopen
    · exact hholds
    · exact hholds
  · rw [hcount]
    exact fun _ => h.opened hopen
  · rw [hwritten] at hreplayed
    have hwrite : write = .replayed := by cases write <;> first | rfl | cases hreplayed
    obtain ⟨request, read, hid⟩ := hmarking hwrite
    have hretried : 1 ≤ retries history := h.sound id _ hid
    have hopened := h.opened hopen
    omega
  · rw [hwritten] at hdismissed
    have hwrite : write = .dismissed := by cases write <;> first | rfl | cases hdismissed
    rw [hcount]
    exact hnone hwrite
  · exact (h.told j told ((List.mem_cons.mp hmem).resolve_left (by simp))).of_open hopen

theorem Orderly.step (h : Orderly dlqJobId history s) (hchanges : Changes dlqJobId s l s')
    (hturn : InTurn history s l) : Orderly dlqJobId (l :: history) s' := by
  cases hchanges with
  | quiet hentry hphases =>
    exact h.keep hentry hphases (List.countP_cons_of_neg (by simp)) (by simp)
  | retried hentry hphases =>
    obtain ⟨hopen, hnone⟩ := hturn.retried _ rfl
    exact h.retry hentry hphases hopen hnone
  | @wrote id write _ _ _ hentry hstatus hmarking hholds hphases =>
    refine h.write hentry hstatus hmarking hholds hphases (hturn.wrote id write rfl) ?_
    rintro rfl
    exact hturn.dismissed id rfl
  | @told id result _ hid hentry hphases =>
    have hholds : result.Holds dlqJobId s.entry := by
      rcases hid with hid | hid <;> exact h.sound id _ hid
    refine h.keep hentry (fun j p hp => .inl (hphases j p hp))
      (List.countP_cons_of_neg (by simp)) fun j other heq => ?_
    cases heq
    exact hholds

/-- The entry is in order in every run whose steps are in turn. -/
theorem orderly (run : (deadLetter composite dlqJobId).RunWhere InTurn history s) :
    Orderly dlqJobId history s := by
  refine run.invariant (I := fun history s => Orderly dlqJobId history s) ?_ ?_
  · rintro s ⟨hopen, hphase⟩
    refine ⟨fun id p hp => ?_, fun _ => Nat.zero_le _, fun hreplayed => ?_, fun _ => rfl, ?_⟩
    · rw [hphase id] at hp
      cases hp
    · obtain ⟨payload, hentry, hstatus⟩ := Option.map_eq_some_iff.mp hreplayed
      rw [hopen payload hentry] at hstatus
      cases hstatus
    · simp
  · rintro h s l s' - horderly ⟨action, haction⟩ hturn
    exact horderly.step (next_changes haction horderly.sound) hturn

/-- A status other than open is kept by a step in turn. -/
theorem status_kept {status : ReplayStatus} (hchanges : Changes dlqJobId s l s')
    (hturn : InTurn history s l) (hstatus : s.status = some status) (hne : status ≠ .opened) :
    s'.status = some status := by
  cases hchanges with
  | quiet hentry _ => exact (status_congr hentry).trans hstatus
  | retried hentry _ => exact (status_congr hentry).trans hstatus
  | told _ hentry _ => exact (status_congr hentry).trans hstatus
  | @wrote id write _ _ _ _ _ _ _ _ =>
    have hopen := hturn.wrote id write rfl
    rw [hstatus] at hopen
    exact absurd (Option.some.inj hopen) hne

/-- Replays and dismissals settle the entry in every run in which the writes and the retries find
it open, and the retries and the dismissals find the source job not retried. -/
theorem settles_of_run (run : (deadLetter composite dlqJobId).RunWhere InTurn history s) :
    Settles composite dlqJobId InTurn history s := by
  have horderly := orderly run
  refine ⟨?_, horderly.replayed, horderly.dismissed, horderly.told⟩
  intro status hstatus hne history' s' hpath
  refine hpath.stable (P := fun _ s => s.status = some status) run ?_ hstatus
  rintro h s l s' hrun hkept ⟨action, haction⟩ hturn
  exact status_kept (next_changes haction (orderly hrun).sound) hturn hkept hne

end Invariant

/-- The entry of a signing that failed three times. -/
def openPayload : DeadLetterPayload where
  version := some 1
  correlationId := some "c1"
  sourceQueue := .oracleSigning
  jobName := "sign"
  jobId := .text "100"
  attemptsMade := 3
  attempts := 3
  classification := some .retryableInfrastructure
  failedReason := none
  stacktrace := none
  data := .obj []
  redactionFailed := some false
  sourceTimestamp := some "2026-01-01T00:00:00.000Z"
  movedAt := "2026-01-01T00:00:01.000Z"
  replayStatus := some .opened
  replayedAt := none
  replayedBy := none
  replayReason := none
  dismissedAt := none
  dismissedBy := none
  dismissReason := none
  lastReplayError := none
  lastReplayAttemptAt := none

/-- The signing in its source queue. -/
def failedJob : SourceJob where
  data := .obj
    [("payload", .obj [("asset", .str "XLM"), ("price", .str "0.12"),
      ("timestamp", .num ⟨"1700000000000".toList, by simp, by simp [numeralChars]⟩)])]
  state := .failed

/-- The source queues when the oracle's has one job. -/
def signings (job : Option SourceJob) : QueueName → String → Option SourceJob :=
  fun queue id => if queue = .oracleSigning ∧ id = "100" then job else none

def openStore : Store := ⟨some openPayload, none, signings (some failedJob), fun _ => none⟩

def composite (_ : Json) : String := "[object Object]"

def operator : Request := ⟨"operator-1", "infra recovered"⟩

def colleague : Request := ⟨"operator-2", "obsolete"⟩

theorem openStore_initial : (deadLetter composite "1").initial openStore := by
  refine ⟨fun payload h => ?_, fun _ => rfl⟩
  cases h
  rfl

/-- The steps of a replay up to its retry. -/
def upToRetry (id : Nat) : List Action := [.read id, .getJob id, .getState id, .retry id ""]

def inTurn (history : List Event) (s : Store) : Event → Bool
  | .wrote _ write => s.status = some .opened && (write ≠ .dismissed || retries history = 0)
  | .retried _ => s.status = some .opened && retries history = 0
  | _ => true

theorem in_turn_of (history : List Event) (s : Store) (l : Event) (h : inTurn history s l = true) :
    InTurn history s l := by
  cases l with
  | quiet => exact ⟨by simp, by simp, by simp⟩
  | told => exact ⟨by simp, by simp, by simp⟩
  | retried id =>
    simp only [inTurn, Bool.and_eq_true, decide_eq_true_eq] at h
    exact ⟨by simp, by simp, fun _ _ => h⟩
  | wrote id write =>
    simp only [inTurn, Bool.and_eq_true, Bool.or_eq_true, decide_eq_true_eq] at h
    refine ⟨fun _ _ _ => h.1, fun _ heq => ?_, by simp⟩
    cases heq
    exact h.2.resolve_left (by simp)

/-- One replay, and a dismissal afterwards. -/
def replayRun : System.Replayed (deadLetter composite "1") (Store.next composite "1") inTurn :=
  .of openStore openStore_initial
    (.replay 1 operator :: upToRetry 1 ++
      [.write 1 "2026-01-02T00:00:00.000Z", .finish 1 true, .dismiss 2 colleague, .finish 2 true])
    (by decide +kernel)

theorem replay_settles : Settles composite "1" InTurn replayRun.history replayRun.state ∧
      replayRun.state.status = some .replayed :=
  ⟨settles_of_run (replayRun.run (fun _ action _ _ h => ⟨action, h⟩) in_turn_of), by decide +kernel⟩

/-- A dismissal reads the entry before a replay, and writes it afterwards. -/
def dismissedRun :
    System.Replayed (deadLetter composite "1") (Store.next composite "1") System.anything :=
  .of openStore openStore_initial
    (.dismiss 2 colleague :: .replay 1 operator :: upToRetry 1 ++
      [.write 1 "2026-01-02T00:00:00.000Z", .finish 1 true,
        .write 2 "2026-01-02T00:00:01.000Z", .finish 2 true])
    (by decide +kernel)

/-- Two replays read the entry, the second after the lock of the first has expired; the source job
fails again in between. -/
def twiceRun :
    System.Replayed (deadLetter composite "1") (Store.next composite "1") System.anything :=
  .of openStore openStore_initial
    ([.replay 1 operator, .read 1, .expire, .replay 2 colleague, .read 2, .getJob 1, .getState 1,
      .retry 1 "", .outside (signings (some failedJob)), .getJob 2, .getState 2, .retry 2 "",
      .write 1 "2026-01-02T00:00:00.000Z", .write 2 "2026-01-02T00:00:01.000Z"])
    (by decide +kernel)

/-- The dismissed entry's job was retried, and the replayed entry's twice. -/
theorem stale_writes_unsettle :
    (deadLetter composite "1").Run dismissedRun.history dismissedRun.state ∧
      dismissedRun.state.status = some .dismissed ∧ retries dismissedRun.history = 1 ∧
      (deadLetter composite "1").Run twiceRun.history twiceRun.state ∧
      twiceRun.state.status = some .replayed ∧ retries twiceRun.history = 2 ∧
      ¬ Settles composite "1" System.anyStep dismissedRun.history dismissedRun.state ∧
      ¬ Settles composite "1" System.anyStep twiceRun.history twiceRun.state := by
  have hdismissed : dismissedRun.state.status = some .dismissed := by decide +kernel
  have honce : retries dismissedRun.history = 1 := by decide +kernel
  have hreplayed : twiceRun.state.status = some .replayed := by decide +kernel
  have htwice : retries twiceRun.history = 2 := by decide +kernel
  refine ⟨dismissedRun.run (fun _ action _ _ h => ⟨action, h⟩) System.anything_allowed, hdismissed,
    honce, twiceRun.run (fun _ action _ _ h => ⟨action, h⟩) System.anything_allowed, hreplayed,
    htwice, fun h => ?_, fun h => ?_⟩
  · have hnone := h.dismissed hdismissed
    omega
  · have hone := h.replayed hreplayed
    omega

end Backit.DeadLetter
