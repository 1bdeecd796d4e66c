import Backit.EventStore.Entries
import Backit.Lib.Transition

/-!
# Replays from snapshots

An append takes a sequence number, its row becomes visible later, and a snapshot may follow. Each
query of an append is a step of its own, so appends interleave, and rows can become visible in an
order that is not the one of their numbers. Numbers are also taken by other aggregates.
-/

namespace Backit.EventStore

open Lib

variable {V : Type*}

/-- Where an append is: its row is not visible yet, or it is at a query of `maybeSnapshot`. -/
inductive Phase (V : Type*) where
  | inserting (entry : EventStoreEntry V)
  | checking
  | counting (snapshot : Option (AggregateSnapshot V))
  | replaying
  | reading (snapshot : Option (AggregateSnapshot V))
  | saving (snapshot : AggregateSnapshot V)

/-- The visible rows and the snapshots of an aggregate, and the appends under way. -/
structure Store (V : Type*) where
  nextSequence : Nat
  rows : List (EventStoreEntry V)
  snapshots : List (AggregateSnapshot V)
  phase : Nat → Option (Phase V)

def Store.setPhase (s : Store V) (id : Nat) (phase : Option (Phase V)) : Store V :=
  { s with phase := Function.update s.phase id phase }

inductive Action (V : Type*) where
  | append (id skipped : Nat) (eventType : DomainEventType) (payload : Members V) (createdAt : Nat)
  | commit (id : Nat)
  | find (id choice : Nat)
  | count (id : Nat)
  | read (id : Nat)
  | save (id : Nat)
  | vanish (id : Nat)

inductive Event where
  | inserted (id : Nat)
  | visible (sequence : Nat)
  | queried (id : Nat)
  | snapshotted (sequence : Nat)
  | vanished (id : Nat)
  deriving DecidableEq

/-- One step of the appends to an aggregate. -/
def Store.next (s : Store V) : Action V → Option (Event × Store V)
  | .append id skipped eventType payload createdAt =>
    match s.phase id with
    | none =>
      let sequence := s.nextSequence + skipped
      some (.inserted id, { s with nextSequence := sequence + 1 }.setPhase id
        (some (.inserting ⟨sequence, eventType, payload, createdAt⟩)))
    | some _ => none
  | .commit id =>
    match s.phase id with
    | some (.inserting entry) =>
      some (.visible entry.sequence,
        { s with rows := insertRow (·.sequence) entry s.rows }.setPhase id (some .checking))
    | _ => none
  | .find id choice =>
    let snapshot := findLatestSnapshot choice s.snapshots
    match s.phase id with
    | some .checking => some (.queried id, s.setPhase id (some (.counting snapshot)))
    | some .replaying => some (.queried id, s.setPhase id (some (.reading snapshot)))
    | _ => none
  | .count id =>
    match s.phase id with
    | some (.counting snapshot) =>
      let unsnapshotted := (eventsSince snapshot s.rows).length
      some (.queried id, s.setPhase id
        (if unsnapshotted < snapshotInterval then none else some .replaying))
    | _ => none
  | .read id =>
    match s.phase id with
    | some (.reading snapshot) =>
      some (.queried id, s.setPhase id ((snapshotOf (replayFrom snapshot s.rows)).map .saving))
    | _ => none
  | .save id =>
    match s.phase id with
    | some (.saving snapshot) =>
      some (.snapshotted snapshot.sequence,
        { s with snapshots := snapshot :: s.snapshots }.setPhase id none)
    | _ => none
  | .vanish id =>
    match s.phase id with
    | some _ => some (.vanished id, s.setPhase id none)
    | none => none

/-- The appends to an aggregate without events. -/
def eventStore (V : Type*) : System (Store V) Event where
  initial s := s.rows = [] ∧ s.snapshots = [] ∧ ∀ id, s.phase id = none
  step s l s' := ∃ action, s.next action = some (l, s')

/-- What a step of the appends can do. -/
inductive Changes (s : Store V) : Event → Store V → Prop where
  | appended {id entry nextSequence} : Changes s (.inserted id)
        ({ s with nextSequence := nextSequence }.setPhase id (some (.inserting entry)))
  | visible {id entry} : Changes s (.visible entry.sequence)
        ({ s with rows := insertRow (·.sequence) entry s.rows }.setPhase id (some .checking))
  | checked {id phase} :
      (∀ snapshot, phase = some (.reading (some snapshot)) → snapshot ∈ s.snapshots) →
      (∀ snapshot, phase ≠ some (.saving snapshot)) →
      Changes s (.queried id) (s.setPhase id phase)
  | read {id snapshot} : s.phase id = some (.reading snapshot) →
      Changes s (.queried id)
        (s.setPhase id ((snapshotOf (replayFrom snapshot s.rows)).map .saving))
  | saved {id snapshot} : s.phase id = some (.saving snapshot) →
      Changes s (.snapshotted snapshot.sequence)
        ({ s with snapshots := snapshot :: s.snapshots }.setPhase id none)
  | vanished {id} : Changes s (.vanished id) (s.setPhase id none)

section Steps

variable {s s' : Store V} {l : Event}

theorem next_changes {action : Action V} (h : s.next action = some (l, s')) : Changes s l s' := by
  cases action with
  | append id skipped eventType payload createdAt =>
    simp only [Store.next] at h
    split at h
    · cases h
      exact .appended
    · cases h
  | commit id =>
    simp only [Store.next] at h
    split at h
    · cases h
      exact .visible
    · cases h
  | find id choice =>
    simp only [Store.next] at h
    split at h
    · cases h
      exact .checked (by simp) (by simp)
    · cases h
      refine .checked (fun snapshot hsnapshot => ?_) (by simp)
      simp only [Option.some.injEq, Phase.reading.injEq] at hsnapshot
      exact findLatest_mem hsnapshot
    · cases h
  | count id =>
    simp only [Store.next] at h
    split at h
    · cases h
      refine .checked (fun snapshot hsnapshot => ?_) (fun snapshot hsnapshot => ?_)
      · split at hsnapshot <;> cases hsnapshot
      · split at hsnapshot <;> cases hsnapshot
    · cases h
  | read id =>
    simp only [Store.next] at h
    split at h
    · next hid =>
      cases h
      exact .read hid
    · cases h
  | save id =>
    simp only [Store.next] at h
    split at h
    · next hid =>
      cases h
      exact .saved hid
    · cases h
  | vanish id =>
    simp only [Store.next] at h
    split at h
    · cases h
      exact .vanished
    · cases h

end Steps

/-- A snapshot is the fold of some of the rows up to its sequence number, the last one included. -/
structure Folded (rows : List (EventStoreEntry V)) (snapshot : AggregateSnapshot V)
    (folded : List (EventStoreEntry V)) : Prop where
  part : folded.Sublist (rowsUpTo (·.sequence) snapshot.sequence rows)
  ends : ∃ last, folded.getLast? = some last ∧ last.sequence = snapshot.sequence
  version : snapshot.version = folded.length
  state : snapshot.state = (foldEvents .empty folded).state

/-- As many rows are visible up to the snapshot's sequence number as it has folded. -/
def Covers (rows : List (EventStoreEntry V)) (snapshot : AggregateSnapshot V) : Prop :=
  snapshot.version = (rowsUpTo (·.sequence) snapshot.sequence rows).length

section Snapshots

variable {rows folded : List (EventStoreEntry V)} {snapshot snapshot' : AggregateSnapshot V}
  {found : Option (AggregateSnapshot V)}

theorem Folded.insert (h : Folded rows snapshot folded) (row : EventStoreEntry V) :
    Folded (insertRow (·.sequence) row rows) snapshot folded :=
  ⟨h.part.trans (rowsUpTo_sublist_insertRow row), h.ends, h.version, h.state⟩

theorem Folded.mem (h : Folded rows snapshot folded) :
    ∃ row ∈ rows, row.sequence = snapshot.sequence := by
  obtain ⟨last, hlast, hsequence⟩ := h.ends
  have hmem := h.part.subset (List.mem_of_getLast? hlast)
  exact ⟨last, List.mem_of_mem_filter hmem, hsequence⟩

/-- A replay that starts from a snapshot is the fold of its rows and of the rows beyond it. -/
theorem Folded.replay (h : Folded rows snapshot folded)
    (hbeyond : rowsBeyond (·.sequence) snapshot.sequence rows ≠ []) :
    replayFrom (some snapshot) rows =
      foldEvents .empty (folded ++ rowsBeyond (·.sequence) snapshot.sequence rows) := by
  rw [foldEvents_append]
  refine foldEvents_congr hbeyond ?_ h.state
  simp [AggregateSnapshot.resumed, AggregateState.empty, h.version]

/-- The replay from a snapshot is the fold of all rows if the snapshot has folded all rows up to its
sequence number and some row is beyond it, and only then. -/
theorem Folded.replay_eq_iff (hrows : Sequenced (·.sequence) rows)
    (h : Folded rows snapshot folded) :
    replayFrom (some snapshot) rows = fullFold rows ↔
      Covers rows snapshot ∧ rowsBeyond (·.sequence) snapshot.sequence rows ≠ [] := by
  have hlength := length_rowsUpTo_add hrows snapshot.sequence
  constructor
  · intro heq
    have hversion := congrArg AggregateState.version heq
    refine ⟨?_, fun hnone => ?_⟩
    · simp only [replayFrom, fullFold, eventsSince, foldEvents_version,
        AggregateSnapshot.resumed, AggregateState.empty] at hversion
      unfold Covers
      omega
    · obtain ⟨last, hlast⟩ : ∃ last, rows.getLast? = some last := by
        obtain ⟨row, hrow, -⟩ := h.mem
        exact Option.isSome_iff_exists.mp (List.getLast?_isSome.mpr (List.ne_nil_of_mem hrow))
      have htype := congrArg AggregateState.lastEventType heq
      rw [fullFold, (foldEvents_last hlast).2.1] at htype
      simp [replayFrom, eventsSince, hnone, foldEvents, AggregateSnapshot.resumed] at htype
  · rintro ⟨hcovers, hbeyond⟩
    have hall : folded = rowsUpTo (·.sequence) snapshot.sequence rows :=
      h.part.eq_of_length (h.version.symm.trans hcovers)
    rw [h.replay hbeyond, hall, rowsUpTo_append_rowsBeyond hrows]
    rfl

/-- The snapshot of a fold of some rows, the last one included. -/
theorem folded_of_last {part : List (EventStoreEntry V)} {last : EventStoreEntry V}
    (hrows : Sequenced (·.sequence) rows) (hpart : part.Sublist rows)
    (hlast : part.getLast? = some last) (hrowsLast : rows.getLast? = some last)
    (h : snapshotOf (foldEvents .empty part) = some snapshot') : Folded rows snapshot' part := by
  unfold snapshotOf at h
  rw [(foldEvents_last hlast).1] at h
  cases h
  refine ⟨?_, ⟨last, hlast, rfl⟩, by simp [AggregateState.empty], rfl⟩
  rwa [rowsUpTo_last hrows hrowsLast]

/-- The snapshot of a replay has folded what the snapshot it starts from has, and the rows beyond
it. -/
theorem replay_snapshot (hrows : Sequenced (·.sequence) rows)
    (hfound : ∀ snapshot, found = some snapshot → Folded rows snapshot folded)
    (hnone : found = none → folded = []) (h : snapshotOf (replayFrom found rows) = some snapshot') :
    Folded rows snapshot' (folded ++ eventsSince found rows) := by
  cases found with
  | none =>
    rw [hnone rfl, List.nil_append]
    cases hlast : rows.getLast? with
    | none =>
      rw [List.getLast?_eq_none_iff] at hlast
      subst hlast
      cases h
    | some last => exact folded_of_last hrows (.refl _) hlast hlast h
  | some snapshot =>
    have hfolded := hfound snapshot rfl
    by_cases hbeyond : rowsBeyond (·.sequence) snapshot.sequence rows = []
    · simp only [replayFrom, eventsSince, hbeyond] at h
      cases h
      simp only [eventsSince, hbeyond, List.append_nil]
      exact hfolded
    · rw [hfolded.replay hbeyond] at h
      obtain ⟨last, hlast⟩ := Option.isSome_iff_exists.mp (List.getLast?_isSome.mpr hbeyond)
      refine folded_of_last hrows (append_rowsBeyond_sublist hrows hfolded.part)
        (List.mem_getLast?_append_of_mem_getLast? hlast) ?_ h
      rw [← rowsUpTo_append_rowsBeyond hrows snapshot.sequence]
      exact List.mem_getLast?_append_of_mem_getLast? hlast

/-- A replay that starts from a snapshot of all rows so far leads to a snapshot of all rows. -/
theorem replay_snapshot_covers (hrows : Sequenced (·.sequence) rows)
    (hfound : ∀ snapshot, found = some snapshot → Folded rows snapshot folded)
    (hnone : found = none → folded = [])
    (hcovers : ∀ snapshot, found = some snapshot → Covers rows snapshot)
    (h : snapshotOf (replayFrom found rows) = some snapshot') : Covers rows snapshot' := by
  have hfolded := replay_snapshot hrows hfound hnone h
  have hlength : (folded ++ eventsSince found rows).length = rows.length := by
    cases found with
    | none => simp [hnone rfl, eventsSince]
    | some snapshot =>
      have hadd := length_rowsUpTo_add hrows snapshot.sequence
      have hcover : snapshot.version = _ := hcovers snapshot rfl
      rw [List.length_append, ← (hfound snapshot rfl).version, hcover]
      exact hadd
  have hle := hfolded.part.length_le
  have hge : (rowsUpTo (·.sequence) snapshot'.sequence rows).length ≤ rows.length :=
    List.length_filter_le _ _
  unfold Covers
  rw [hfolded.version]
  omega

end Snapshots

/-- What holds of a store: every snapshot, saved or about to be, is a fold of rows. -/
structure Consistent (s : Store V) : Prop where
  sequenced : Sequenced (·.sequence) s.rows
  saved : ∀ snapshot ∈ s.snapshots, ∃ folded, Folded s.rows snapshot folded
  reading : ∀ id snapshot, s.phase id = some (.reading (some snapshot)) → snapshot ∈ s.snapshots
  saving : ∀ id snapshot, s.phase id = some (.saving snapshot) →
    ∃ folded, Folded s.rows snapshot folded

/-- The sequence numbers in the order in which the rows became visible, the last one first. -/
def visibleSequences (history : List Event) : List Nat :=
  history.filterMap fun
    | .visible sequence => some sequence
    | _ => none

/-- The rows have become visible in the order of their sequence numbers. -/
def InOrder (history : List Event) : Prop := (visibleSequences history).Pairwise (· > ·)

/-- While rows become visible in order, every snapshot has folded all rows up to its number. -/
structure Ordered (history : List Event) (s : Store V) : Prop where
  seen : ∀ row ∈ s.rows, row.sequence ∈ visibleSequences history
  saved : InOrder history → ∀ snapshot ∈ s.snapshots, Covers s.rows snapshot
  saving : InOrder history → ∀ id snapshot, s.phase id = some (.saving snapshot) →
    Covers s.rows snapshot

section Invariant

variable {history : List Event} {s s' : Store V} {l : Event} {phase : Option (Phase V)}

theorem setPhase_eq {id j : Nat} {p : Phase V}
    (h : (s.setPhase id phase).phase j = some p) : phase = some p ∨ s.phase j = some p := by
  simp only [Store.setPhase, Function.update_apply] at h
  split at h
  · exact .inl h
  · exact .inr h

theorem Consistent.found (h : Consistent s) {id : Nat} {found : Option (AggregateSnapshot V)}
    (hid : s.phase id = some (.reading found)) :
    ∃ folded, (∀ snapshot, found = some snapshot → Folded s.rows snapshot folded) ∧
      (found = none → folded = []) := by
  cases found with
  | none => exact ⟨[], by simp, fun _ => rfl⟩
  | some snapshot =>
    obtain ⟨folded, hfolded⟩ := h.saved snapshot (h.reading id snapshot hid)
    refine ⟨folded, fun other hother => ?_, by simp⟩
    exact Option.some.inj hother ▸ hfolded

theorem Consistent.rephase (h : Consistent s) {id : Nat}
    (hreading : ∀ snapshot, phase = some (.reading (some snapshot)) → snapshot ∈ s.snapshots)
    (hsaving : ∀ snapshot, phase = some (.saving snapshot) →
      ∃ folded, Folded s.rows snapshot folded) : Consistent (s.setPhase id phase) := by
  refine ⟨h.sequenced, h.saved, fun j snapshot hj => ?_, fun j snapshot hj => ?_⟩
  · rcases setPhase_eq hj with hnew | hold
    · exact hreading snapshot hnew
    · exact h.reading j snapshot hold
  · rcases setPhase_eq hj with hnew | hold
    · exact hsaving snapshot hnew
    · exact h.saving j snapshot hold

theorem Consistent.insert (h : Consistent s) (entry : EventStoreEntry V) :
    Consistent { s with rows := insertRow (·.sequence) entry s.rows } := by
  refine ⟨h.sequenced.insertRow entry, fun snapshot hsnapshot => ?_, h.reading,
    fun j snapshot hj => ?_⟩
  · obtain ⟨folded, hfolded⟩ := h.saved snapshot hsnapshot
    exact ⟨folded, hfolded.insert entry⟩
  · obtain ⟨folded, hfolded⟩ := h.saving j snapshot hj
    exact ⟨folded, hfolded.insert entry⟩

theorem Consistent.save (h : Consistent s) {id : Nat} {snapshot : AggregateSnapshot V}
    (hid : s.phase id = some (.saving snapshot)) :
    Consistent { s with snapshots := snapshot :: s.snapshots } := by
  refine ⟨h.sequenced, fun other hother => ?_, fun j other hj => .tail _ (h.reading j other hj),
    h.saving⟩
  rcases List.mem_cons.mp hother with rfl | hother
  · exact h.saving id other hid
  · exact h.saved other hother

theorem Consistent.step (h : Consistent s) (hchange : Changes s l s') : Consistent s' := by
  cases hchange with
  | @appended id entry nextSequence =>
    have hs : Consistent { s with nextSequence := nextSequence } :=
      ⟨h.sequenced, h.saved, h.reading, h.saving⟩
    refine hs.rephase (fun snapshot hnew => ?_) fun snapshot hnew => ?_
    · cases hnew
    · cases hnew
  | visible => exact (h.insert _).rephase (by simp) (by simp)
  | checked hreading hsaving =>
    exact h.rephase hreading fun snapshot hnew => absurd hnew (hsaving snapshot)
  | read hid =>
    refine h.rephase (fun snapshot hnew => ?_) fun snapshot hnew => ?_
    · obtain ⟨_, -, heq⟩ := Option.map_eq_some_iff.mp hnew
      cases heq
    · obtain ⟨_, hreplay, heq⟩ := Option.map_eq_some_iff.mp hnew
      cases heq
      obtain ⟨folded, hfound, hnone⟩ := h.found hid
      exact ⟨_, replay_snapshot h.sequenced hfound hnone hreplay⟩
  | saved hid => exact (h.save hid).rephase (by simp) (by simp)
  | vanished => exact h.rephase (by simp) (by simp)

/-- A row that becomes visible in order is beyond every snapshot. -/
theorem Ordered.beyond (h : Ordered history s) {entry : EventStoreEntry V}
    (horder : InOrder (.visible entry.sequence :: history)) {snapshot : AggregateSnapshot V}
    {folded : List (EventStoreEntry V)} (hfolded : Folded s.rows snapshot folded) :
    snapshot.sequence < entry.sequence := by
  obtain ⟨row, hrow, hsequence⟩ := hfolded.mem
  rw [← hsequence]
  exact (List.pairwise_cons.mp horder).1 _ (h.seen row hrow)

/-- A step that makes no row visible and saves no snapshot. -/
theorem Ordered.quiet (h : Ordered history s) {id : Nat}
    (hvisible : visibleSequences (l :: history) = visibleSequences history)
    (hsaving : InOrder history → ∀ snapshot, phase = some (.saving snapshot) →
      Covers s.rows snapshot) : Ordered (l :: history) (s.setPhase id phase) := by
  have horder : InOrder (l :: history) → InOrder history := fun h => by
    unfold InOrder at h ⊢
    rwa [hvisible] at h
  refine ⟨fun row hrow => by rw [hvisible]; exact h.seen row hrow,
    fun hnew => h.saved (horder hnew), fun hnew j snapshot hj => ?_⟩
  rcases setPhase_eq hj with hphase | hold
  · exact hsaving (horder hnew) snapshot hphase
  · exact h.saving (horder hnew) j snapshot hold

theorem Ordered.step (h : Ordered history s) (hs : Consistent s) (hchange : Changes s l s') :
    Ordered (l :: history) s' := by
  cases hchange with
  | @appended id entry =>
    have hquiet : Ordered (.inserted id :: history) (s.setPhase id (some (.inserting entry))) :=
      h.quiet rfl fun _ snapshot hnew => by cases hnew
    exact ⟨hquiet.seen, hquiet.saved, hquiet.saving⟩
  | @visible id entry =>
    have hcovers : InOrder (.visible entry.sequence :: history) → ∀ snapshot folded,
        Folded s.rows snapshot folded → Covers s.rows snapshot →
          Covers (insertRow (·.sequence) entry s.rows) snapshot := by
      intro horder snapshot folded hfolded hcovers
      unfold Covers
      rwa [rowsUpTo_insertRow (h.beyond horder hfolded)]
    have hold : InOrder (.visible entry.sequence :: history) → InOrder history :=
      fun horder => (List.pairwise_cons.mp horder).2
    refine ⟨fun row hrow => ?_, fun horder snapshot hsnapshot => ?_, fun horder j snapshot hj => ?_⟩
    · rcases mem_insertRow.mp hrow with rfl | hrow
      · exact .head _
      · exact .tail _ (h.seen row hrow)
    · obtain ⟨folded, hfolded⟩ := hs.saved snapshot hsnapshot
      exact hcovers horder snapshot folded hfolded (h.saved (hold horder) snapshot hsnapshot)
    · rcases setPhase_eq hj with hnew | hbefore
      · cases hnew
      · obtain ⟨folded, hfolded⟩ := hs.saving j snapshot hbefore
        exact hcovers horder snapshot folded hfolded (h.saving (hold horder) j snapshot hbefore)
  | checked _ hsaving => exact h.quiet rfl fun _ snapshot hnew => absurd hnew (hsaving snapshot)
  | @read id found hid =>
    refine h.quiet rfl fun horder snapshot hnew => ?_
    obtain ⟨_, hreplay, heq⟩ := Option.map_eq_some_iff.mp hnew
    cases heq
    obtain ⟨folded, hfound, hnone⟩ := hs.found hid
    refine replay_snapshot_covers hs.sequenced hfound hnone (fun other hother => ?_) hreplay
    subst hother
    exact h.saved horder other (hs.reading id other hid)
  | @saved id snapshot hid =>
    refine ⟨h.seen, fun horder other hother => ?_, fun horder j other hj => ?_⟩
    · rcases List.mem_cons.mp hother with rfl | hother
      · exact h.saving horder id other hid
      · exact h.saved horder other hother
    · rcases setPhase_eq hj with hnew | hold
      · cases hnew
      · exact h.saving horder j other hold
  | vanished => exact h.quiet rfl fun _ snapshot hnew => by cases hnew

end Invariant

section Run

variable {history : List Event} {s : Store V}

theorem consistent_of_run (run : (eventStore V).Run history s) : Consistent s := by
  refine run.invariant (I := fun _ s => Consistent s) ?_ ?_
  · rintro s ⟨hrows, hsnapshots, hphase⟩
    refine ⟨?_, ?_, fun id snapshot hid => ?_, fun id snapshot hid => ?_⟩
    · rw [hrows]
      exact .nil
    · simp [hsnapshots]
    · simp [hphase] at hid
    · simp [hphase] at hid
  · rintro h s l s' - ih ⟨action, hnext⟩ -
    exact ih.step (next_changes hnext)

theorem ordered_of_run (run : (eventStore V).Run history s) : Ordered history s := by
  refine run.invariant (I := fun h s => Ordered h s) ?_ ?_
  · rintro s ⟨hrows, hsnapshots, hphase⟩
    refine ⟨by simp [hrows], by simp [hsnapshots], fun _ id snapshot hid => ?_⟩
    simp [hphase] at hid
  · rintro h s l s' hrun ih ⟨action, hnext⟩ -
    exact ih.step (consistent_of_run hrun) (next_changes hnext)

/-- A replay finds a snapshot first and reads the rows later, so it can start from any snapshot
saved so far. It is the fold of all visible rows if it starts from no snapshot, or if its snapshot
has folded as many rows as are visible up to its number and some row is beyond it, and only then.
While rows become visible in order, no snapshot has missed a row. -/
theorem replay_eq_fold_iff (run : (eventStore V).Run history s)
    (found : Option (AggregateSnapshot V))
    (hfound : ∀ snapshot, found = some snapshot → snapshot ∈ s.snapshots) :
    (replayFrom found s.rows = fullFold s.rows ↔ ∀ snapshot, found = some snapshot →
      Covers s.rows snapshot ∧ rowsBeyond (·.sequence) snapshot.sequence s.rows ≠ []) ∧
    (InOrder history → ∀ snapshot ∈ s.snapshots, Covers s.rows snapshot) := by
  have hs := consistent_of_run run
  refine ⟨?_, (ordered_of_run run).saved⟩
  cases found with
  | none => exact ⟨by simp, fun _ => rfl⟩
  | some snapshot =>
    obtain ⟨folded, hfolded⟩ := hs.saved snapshot (hfound snapshot rfl)
    rw [hfolded.replay_eq_iff hs.sequenced]
    simp

end Run

/-- Twenty appends of one key, the last of which takes a snapshot. -/
def twentyAppends : List (Action Nat) :=
  (List.range 20).flatMap (fun i =>
    [.append i 0 .stakePlaced (fun key => if key = "amount" then some i else none) (1000 + i),
      .commit i]) ++
  [.find 19 0, .count 19, .find 19 0, .read 19, .save 19]

def emptyStore : Store Nat := ⟨1, [], [], fun _ => none⟩

/-- The twenty appends. -/
def snapshotRun : System.Replayed (eventStore Nat) Store.next System.anything :=
  .of emptyStore ⟨rfl, rfl, fun _ => rfl⟩ twentyAppends (by decide +kernel)

/-- The twenty appends and another one. -/
def resumedRun : System.Replayed (eventStore Nat) Store.next System.anything :=
  .of emptyStore ⟨rfl, rfl, fun _ => rfl⟩
    (twentyAppends ++ [.append 20 3 .stakeWithdrawn (fun _ => none) 2000, .commit 20])
    (by decide +kernel)

/-- With an event after the snapshot, the replay is the fold. -/
theorem resumed_replay_eq_fold : ∃ snapshot ∈ resumedRun.state.snapshots,
    replayFrom (some snapshot) resumedRun.state.rows = fullFold resumedRun.state.rows := by
  have hrun := resumedRun.run (fun s action l s' h => ⟨action, h⟩) System.anything_allowed
  have hone : resumedRun.state.snapshots.length = 1 := by decide +kernel
  obtain ⟨snapshot, hsnapshot⟩ := List.length_eq_one_iff.mp hone
  have hmem : snapshot ∈ resumedRun.state.snapshots := by simp [hsnapshot]
  have hcounts : ∀ other ∈ resumedRun.state.snapshots,
      other.version = (rowsUpTo (·.sequence) other.sequence resumedRun.state.rows).length ∧
        (rowsBeyond (·.sequence) other.sequence resumedRun.state.rows).length = 1 := by
    decide +kernel
  refine ⟨snapshot, hmem, (replay_eq_fold_iff hrun (some snapshot) ?_).1.mpr ?_⟩
  · intro other hother
    cases hother
    exact hmem
  · intro other hother
    cases hother
    obtain ⟨hversion, hbeyond⟩ := hcounts snapshot hmem
    refine ⟨hversion, fun hnone => ?_⟩
    rw [hnone] at hbeyond
    cases hbeyond

/-- Without one, the replay forgets the last event's type. -/
theorem snapshot_forgets_last_event : ¬ ∀ history s (found : Option (AggregateSnapshot Nat)),
    (eventStore Nat).Run history s →
      (∀ snapshot, found = some snapshot → snapshot ∈ s.snapshots) →
        replayFrom found s.rows = fullFold s.rows := by
  intro hall
  have hrun := snapshotRun.run (fun s action l s' h => ⟨action, h⟩) System.anything_allowed
  have hfull : (fullFold snapshotRun.state.rows).lastEventType = some .stakePlaced := by
    decide +kernel
  have hforgets : (replayFrom (findLatestSnapshot 0 snapshotRun.state.snapshots)
      snapshotRun.state.rows).lastEventType = none := by decide +kernel
  have heq := hall _ _ (findLatestSnapshot 0 snapshotRun.state.snapshots) hrun
    fun snapshot hsnapshot => findLatest_mem hsnapshot
  rw [heq, hfull] at hforgets
  cases hforgets

end Backit.EventStore
