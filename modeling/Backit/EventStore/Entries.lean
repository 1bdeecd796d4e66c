import Backit.Lib.SequencedRows

/-!
# The event store of an aggregate

The rows of one aggregate, its snapshots, and the replay of its state. The members of a JSON object
are a partial function of their keys.
-/

namespace Backit.EventStore

open Lib

inductive DomainEventType where
  | callCreated
  | callResolved
  | stakePlaced
  | stakeWithdrawn
  | payoutClaimed
  | userRegistered
  | userFollowed
  | adminAction
  | oracleSubmitted
  deriving DecidableEq

/-- A JSON object with values in `V`. -/
abbrev Members (V : Type*) := String → Option V

/-- `{ ...state, ...payload }` -/
def spread {V : Type*} (state payload : Members V) : Members V :=
  fun key => (payload key).or (state key)

structure EventStoreEntry (V : Type*) where
  sequence : Nat
  eventType : DomainEventType
  payload : Members V
  createdAt : Nat

structure AggregateSnapshot (V : Type*) where
  sequence : Nat
  version : Nat
  state : Members V

@[ext] structure AggregateState (V : Type*) where
  version : Nat
  lastSequence : Option Nat
  lastEventType : Option DomainEventType
  lastEventAt : Option Nat
  state : Members V

variable {V : Type*}

/-- The state before any event. -/
def AggregateState.empty : AggregateState V := ⟨0, none, none, none, fun _ => none⟩

/-- The state that a replay takes from a snapshot. -/
def AggregateSnapshot.resumed (snapshot : AggregateSnapshot V) : AggregateState V :=
  ⟨snapshot.version, some snapshot.sequence, none, none, snapshot.state⟩

/-- One event of the replay. -/
def applyEvent (s : AggregateState V) (event : EventStoreEntry V) : AggregateState V where
  version := s.version + 1
  lastSequence := some event.sequence
  lastEventType := some event.eventType
  lastEventAt := some event.createdAt
  state := spread s.state event.payload

def foldEvents (s : AggregateState V) (events : List (EventStoreEntry V)) : AggregateState V :=
  events.foldl applyEvent s

/-- The events that a replay from a snapshot reads. -/
def eventsSince (snapshot : Option (AggregateSnapshot V)) (rows : List (EventStoreEntry V)) :
    List (EventStoreEntry V) :=
  match snapshot with
  | some snapshot => rowsBeyond (·.sequence) snapshot.sequence rows
  | none => rows

/-- A replay that has found the snapshot and now reads the events. -/
def replayFrom (snapshot : Option (AggregateSnapshot V)) (rows : List (EventStoreEntry V)) :
    AggregateState V :=
  let start := match snapshot with
    | some snapshot => snapshot.resumed
    | none => .empty
  foldEvents start (eventsSince snapshot rows)

/-- All events, folded from the empty state. -/
def fullFold (rows : List (EventStoreEntry V)) : AggregateState V := foldEvents .empty rows

/-- A snapshot of the greatest sequence, at `choice` where there are several. -/
def findLatestSnapshot (choice : Nat) (snapshots : List (AggregateSnapshot V)) :
    Option (AggregateSnapshot V) :=
  let latest := snapshots.filter fun snapshot =>
    snapshots.all fun other => decide (other.sequence ≤ snapshot.sequence)
  latest[choice]?.or latest.head?

/-- Events since the last snapshot that a new one is taken for. -/
def snapshotInterval : Nat := 20

/-- The snapshot of a replayed state. -/
def snapshotOf (replayed : AggregateState V) : Option (AggregateSnapshot V) :=
  replayed.lastSequence.map fun sequence => ⟨sequence, replayed.version, replayed.state⟩

section Folds

variable {s s' : AggregateState V} {events rest : List (EventStoreEntry V)}

theorem foldEvents_append (s : AggregateState V) (events rest : List (EventStoreEntry V)) :
    foldEvents s (events ++ rest) = foldEvents (foldEvents s events) rest :=
  List.foldl_append

@[simp] theorem foldEvents_version (s : AggregateState V) (events : List (EventStoreEntry V)) :
    (foldEvents s events).version = s.version + events.length := by
  induction events generalizing s with
  | nil => rfl
  | cons event events ih =>
    have hstep := ih (applyEvent s event)
    show (foldEvents (applyEvent s event) events).version = _
    rw [hstep]
    simp only [applyEvent, List.length_cons]
    omega

/-- The members of a fold depend only on the members it starts from. -/
theorem foldEvents_state (h : s.state = s'.state) :
    (foldEvents s events).state = (foldEvents s' events).state := by
  induction events generalizing s s' with
  | nil => exact h
  | cons event events ih => exact ih (by simp [applyEvent, h])

/-- A fold over some events ends as its last event does. -/
theorem foldEvents_last {last : EventStoreEntry V} (h : events.getLast? = some last) :
    (foldEvents s events).lastSequence = some last.sequence ∧
      (foldEvents s events).lastEventType = some last.eventType ∧
        (foldEvents s events).lastEventAt = some last.createdAt := by
  obtain ⟨front, rfl⟩ := List.getLast?_eq_some_iff.mp h
  rw [foldEvents_append]
  exact ⟨rfl, rfl, rfl⟩

/-- Over some events, a fold depends only on the version and the members it starts from. -/
theorem foldEvents_congr (hevents : events ≠ []) (hversion : s.version = s'.version)
    (hstate : s.state = s'.state) : foldEvents s events = foldEvents s' events := by
  obtain ⟨last, hlast⟩ := List.getLast?_isSome.mpr hevents |> Option.isSome_iff_exists.mp
  obtain ⟨hsequence, htype, hat⟩ := foldEvents_last (s := s) hlast
  obtain ⟨hsequence', htype', hat'⟩ := foldEvents_last (s := s') hlast
  ext1
  · simp [hversion]
  · rw [hsequence, hsequence']
  · rw [htype, htype']
  · rw [hat, hat']
  · exact foldEvents_state hstate

theorem findLatest_mem {choice : Nat} {snapshots : List (AggregateSnapshot V)}
    {snapshot : AggregateSnapshot V} (h : findLatestSnapshot choice snapshots = some snapshot) :
    snapshot ∈ snapshots := by
  unfold findLatestSnapshot at h
  dsimp only at h
  rcases Option.or_eq_some_iff.mp h with h | ⟨-, h⟩
  · exact List.mem_of_mem_filter (List.mem_of_getElem? h)
  · exact List.mem_of_mem_filter (List.mem_of_mem_head? h)

end Folds

end Backit.EventStore
