import Backit.DeadLetter.Listing

/-!
# Cleaning up dead-letter entries

The cleanup reads the first batch of the queue over and over, and removes what has expired from it,
until a batch is not full. A full batch with nothing to remove is read again for ever.
-/

namespace Backit.DeadLetter

open Lib

def batchSize : Nat := 200

/-- Days in milliseconds. -/
def days (n : Int) : Int := n * 24 * 60 * 60 * 1000

/-- What the scan of the depth metrics counts: the entries of each queue, those of each
classification and the open ones, and when the oldest open one was moved. -/
structure DepthMetrics where
  depthBySourceQueue : QueueName → Nat
  depthByClassification : DeadLetterClassification → Nat
  openCount : Nat
  oldestOpenMs : Option (Option Int)

section Cleanup

variable (dateParse : String → Option Int) (now : Int)

/-- The date that the retention of an entry starts at. -/
def retentionStart (entry : DeadLetterEntry) : Option Int :=
  dateParse (match entry.replayStatus with
    | .replayed => entry.replayedAt.getD entry.movedAt
    | .dismissed => entry.dismissedAt.getD entry.movedAt
    | .opened => entry.movedAt)

/-- A replayed entry is removed after seven days, a dismissed one after thirty. -/
def shouldRemove (job : Job) : Bool :=
  let entry := normalizeEntry job.id job.payload
  let timestampMs := retentionStart dateParse entry
  (entry.replayStatus == .replayed && isBefore timestampMs (some (now - days 7))) ||
    (entry.replayStatus == .dismissed && isBefore timestampMs (some (now - days 30)))

/-- The batches, as long as they are full. The jobs that are left, and how many were removed. -/
def cleanupFrom : Nat → List Job → Nat → Option (List Job × Nat)
  | 0, _, _ => none
  | fuel + 1, jobs, removed =>
    let batch := jobs.take batchSize
    if batch = [] then some (jobs, removed)
    else
      let jobs := batch.filter (!shouldRemove dateParse now ·) ++ jobs.drop batchSize
      let removed := removed + batch.countP (shouldRemove dateParse now)
      if batch.length < batchSize then some (jobs, removed) else cleanupFrom fuel jobs removed

namespace DepthMetrics

def none_ : DepthMetrics := ⟨fun _ => 0, fun _ => 0, 0, none⟩

/-- Count a job. -/
def count (m : DepthMetrics) (job : Job) : DepthMetrics :=
  let entry := normalizeEntry job.id job.payload
  { depthBySourceQueue := Function.update m.depthBySourceQueue entry.sourceQueue
      (m.depthBySourceQueue entry.sourceQueue + 1)
    depthByClassification := Function.update m.depthByClassification entry.classification
      (m.depthByClassification entry.classification + 1)
    openCount := m.openCount + if entry.replayStatus = .opened then 1 else 0
    oldestOpenMs :=
      if entry.replayStatus = .opened then
        let movedAtMs := dateParse entry.movedAt
        match m.oldestOpenMs with
        | none => some movedAtMs
        | some oldest => if isBefore movedAtMs oldest then some movedAtMs else some oldest
      else m.oldestOpenMs }

end DepthMetrics

/-- The windows of the queue from an offset on, counted as long as they are full. -/
def depthMetricsFrom (jobs : List Job) : Nat → Nat → DepthMetrics → Option DepthMetrics
  | 0, _, _ => none
  | fuel + 1, offset, m =>
    let read := WindowScan.window listScanWindow jobs offset
    if read = [] then some m
    else
      let m := read.foldl (DepthMetrics.count dateParse) m
      if read.length < listScanWindow then some m
      else depthMetricsFrom jobs fuel (offset + read.length) m

/-- The cleanup: what is left of the queue, how many jobs were removed, and the metrics of what is
left. -/
def cleanupExpiredEntries (fuel : Nat) (jobs : List Job) :
    Option (List Job × Nat × DepthMetrics) := do
  let (left, removed) ← cleanupFrom dateParse now fuel jobs 0
  let metrics ← depthMetricsFrom dateParse left fuel 0 .none_
  return (left, removed, metrics)

/-- The entry of a job was replayed more than seven days ago, or dismissed more than thirty. -/
def Expired (job : Job) : Prop :=
  ∃ status retention since, job.payload.status = status ∧
    (status = .replayed ∧ retention = days 7 ∧
        dateParse (job.payload.replayedAt.getD job.payload.movedAt) = some since ∨
      status = .dismissed ∧ retention = days 30 ∧
        dateParse (job.payload.dismissedAt.getD job.payload.movedAt) = some since) ∧
    since < now - retention

/-- The cleanup ends, and has then removed the expired jobs from anywhere in the queue and no
others. -/
def CleansUp (jobs : List Job) : Prop :=
  ∃ fuel left removed metrics,
    cleanupExpiredEntries dateParse now fuel jobs = some (left, removed, metrics) ∧
      left.Sublist jobs ∧ removed + left.length = jobs.length ∧
      ∀ job ∈ jobs, job ∈ left ↔ ¬ Expired dateParse now job

end Cleanup

section Batches

variable {dateParse : String → Option Int} {now : Int} {jobs left : List Job}
  {fuel removed : Nat}

theorem shouldRemove_iff {job : Job} :
    shouldRemove dateParse now job = true ↔ Expired dateParse now job := by
  have hbefore : ∀ (at_ : Option Int) (cutoff : Int), isBefore at_ (some cutoff) = true ↔
      ∃ since, at_ = some since ∧ since < cutoff := by
    intro at_ cutoff
    cases at_ <;> simp [isBefore]
  simp only [shouldRemove, retentionStart, normalize_status, Bool.or_eq_true, Bool.and_eq_true,
    beq_iff_eq, hbefore]
  cases hstatus : job.payload.status <;>
    simp [Expired, hstatus, normalizeEntry]

/-- The jobs that stay. -/
def staying (dateParse : String → Option Int) (now : Int) (jobs : List Job) : List Job :=
  jobs.filter (!shouldRemove dateParse now ·)

theorem staying_batch (jobs : List Job) :
    staying dateParse now ((jobs.take batchSize).filter (!shouldRemove dateParse now ·) ++
      jobs.drop batchSize) = staying dateParse now jobs := by
  unfold staying
  rw [List.filter_append, List.filter_filter]
  simp only [Bool.and_self]
  rw [← List.filter_append, List.take_append_drop]

/-- With a full batch of jobs that stay, the cleanup does not end. -/
theorem cleanup_diverges (hstay : batchSize ≤ (staying dateParse now jobs).length) :
    cleanupFrom dateParse now fuel jobs removed = none := by
  induction fuel generalizing jobs removed with
  | zero => rfl
  | succ fuel ih =>
    have hlong : batchSize ≤ jobs.length := hstay.trans (List.length_filter_le _ _)
    have hbatch : (jobs.take batchSize).length = batchSize := List.length_take_of_le hlong
    have hne : jobs.take batchSize ≠ [] := by
      intro hnil
      rw [hnil] at hbatch
      exact absurd hbatch (by decide)
    rw [cleanupFrom, if_neg hne, if_neg (by omega)]
    exact ih (by rw [staying_batch]; exact hstay)

theorem cleanup_exact (hstay : (staying dateParse now jobs).length < batchSize)
    (hfuel : jobs.length < fuel) :
    cleanupFrom dateParse now fuel jobs removed = some (staying dateParse now jobs,
      removed + jobs.countP (shouldRemove dateParse now)) := by
  induction fuel generalizing jobs removed with
  | zero => omega
  | succ fuel ih =>
    have hcount : (jobs.take batchSize).countP (shouldRemove dateParse now) +
        (jobs.drop batchSize).countP (shouldRemove dateParse now) =
          jobs.countP (shouldRemove dateParse now) := by
      rw [← List.countP_append, List.take_append_drop]
    rw [cleanupFrom]
    by_cases hnil : jobs.take batchSize = []
    · obtain rfl : jobs = [] := by
        rw [List.take_eq_nil_iff] at hnil
        exact hnil.resolve_left (by decide)
      rfl
    rw [if_neg hnil]
    by_cases hpart : (jobs.take batchSize).length < batchSize
    · have hshort : jobs.length ≤ batchSize := by
        rw [List.length_take] at hpart
        omega
      rw [if_pos hpart, List.take_of_length_le hshort, List.drop_eq_nil_of_le hshort,
        List.append_nil]
      rfl
    · -- A full batch has more jobs than stay, so one of them is removed.
      have hkept : ((jobs.take batchSize).filter (!shouldRemove dateParse now ·)).length <
          batchSize := by
        refine Nat.lt_of_le_of_lt (List.Sublist.length_le ?_) hstay
        exact (List.take_sublist _ _).filter _
      have hnone : ((jobs.take batchSize).filter (!shouldRemove dateParse now ·)).countP
          (shouldRemove dateParse now) = 0 := by
        simp [List.countP_eq_zero]
      rw [if_neg hpart, ih (by rw [staying_batch]; exact hstay) ?_, staying_batch,
        List.countP_append, hnone, Nat.zero_add, Nat.add_assoc, hcount]
      · rw [List.length_append, List.length_drop]
        rw [List.length_take] at hpart
        omega

theorem depthMetrics_terminates (offset : Nat) (m : DepthMetrics)
    (hfuel : jobs.length - offset < fuel) :
    ∃ metrics, depthMetricsFrom dateParse jobs fuel offset m = some metrics := by
  induction fuel generalizing offset m with
  | zero => omega
  | succ fuel ih =>
    rw [depthMetricsFrom]
    dsimp only
    split
    · exact ⟨m, rfl⟩
    · split
      · exact ⟨_, rfl⟩
      · next hnil hfull =>
        refine ih _ _ ?_
        rw [WindowScan.window, List.length_take, List.length_drop] at hfull ⊢
        have hwindow : 0 < listScanWindow := by decide
        omega

theorem removed_add_staying (jobs : List Job) :
    jobs.countP (shouldRemove dateParse now) + (staying dateParse now jobs).length =
      jobs.length := by
  rw [staying, ← List.countP_eq_length_filter,
    List.length_eq_countP_add_countP (shouldRemove dateParse now)]
  simp only [Bool.not_eq_true, Bool.decide_eq_false]

/-- The cleanup cleans up exactly when fewer jobs stay than a batch has. -/
theorem cleans_up_iff (dateParse : String → Option Int) (now : Int) (jobs : List Job) :
    CleansUp dateParse now jobs ↔ (staying dateParse now jobs).length < batchSize := by
  constructor
  · rintro ⟨fuel, left, removed, metrics, hcleanup, -⟩
    by_contra hstay
    rw [cleanupExpiredEntries, cleanup_diverges (Nat.le_of_not_lt hstay)] at hcleanup
    cases hcleanup
  · intro hstay
    have hcleanup : cleanupFrom dateParse now (jobs.length + 1) jobs 0 = some _ :=
      cleanup_exact hstay (by omega)
    have hlength : (staying dateParse now jobs).length ≤ jobs.length := List.length_filter_le _ _
    obtain ⟨metrics, hmetrics⟩ : ∃ metrics, depthMetricsFrom dateParse
        (staying dateParse now jobs) (jobs.length + 1) 0 .none_ = some metrics :=
      depthMetrics_terminates 0 .none_ (by omega)
    refine ⟨jobs.length + 1, staying dateParse now jobs,
      0 + jobs.countP (shouldRemove dateParse now), metrics, ?_, List.filter_sublist, ?_, ?_⟩
    · rw [cleanupExpiredEntries, hcleanup]
      simp only [Option.bind_eq_bind, Option.bind_some, hmetrics]
      rfl
    · rw [Nat.zero_add]
      exact removed_add_staying jobs
    · intro job hjob
      rw [staying, List.mem_filter, Bool.not_eq_true', ← Bool.not_eq_true, shouldRemove_iff]
      exact and_iff_right hjob

end Batches

/-- So many open entries. -/
def openJobs (n : Nat) : List Job := List.replicate n ⟨"1", payloadOf .notifications⟩

/-- An entry that was replayed eight days before the time below. -/
def replayedJob : Job :=
  ⟨"2", { payloadOf .notifications with
    replayStatus := some .replayed
    replayedAt := some "2026-01-01T00:00:00.000Z" }⟩

/-- Eight days after the one date. -/
def nextWeek : Int := 1767225600000 + days 8

/-- After two hundred open entries, an expired one is not removed, for the cleanup does not end. -/
theorem cleanup_stuck_on_open : Expired newYear nextWeek replayedJob ∧
      (∀ fuel, cleanupExpiredEntries newYear nextWeek fuel (openJobs 200 ++ [replayedJob]) = none) ∧
      ¬ CleansUp newYear nextWeek (openJobs 200 ++ [replayedJob]) := by
  have hopen : (staying newYear nextWeek (openJobs 200)).length = 200 := by decide +kernel
  have hstay : batchSize ≤ (staying newYear nextWeek (openJobs 200 ++ [replayedJob])).length := by
    rw [staying, List.filter_append, List.length_append, ← staying, hopen]
    exact Nat.le_add_right _ _
  have hnone : ∀ fuel,
      cleanupExpiredEntries newYear nextWeek fuel (openJobs 200 ++ [replayedJob]) = none := by
    intro fuel
    rw [cleanupExpiredEntries, cleanup_diverges hstay]
    rfl
  refine ⟨shouldRemove_iff.mp (by decide), hnone, ?_⟩
  rintro ⟨fuel, left, removed, metrics, hcleanup, -⟩
  rw [hnone] at hcleanup
  cases hcleanup

end Backit.DeadLetter
