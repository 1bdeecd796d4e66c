import Mathlib.Data.List.Induction
import Mathlib.Data.List.Nodup

/-!
# The delivery jobs of an event

A job is known to the queue by its subscription, its event type and the millisecond. A second event
of the type in the same millisecond has the same jobs for the queue, which ignores them, so every
call adds its jobs exactly when no held job is of a subscription to be served, the event type and
the millisecond.
-/

namespace Backit.Webhooks

inductive WebhookEventType where
  | callCreated
  | callResolved
  | stakePlaced
  | stakeWithdrawn
  | payoutReady
  | priceAlertTriggered
  | leaderboardUpdated
  deriving DecidableEq

def WebhookEventType.value : WebhookEventType → String
  | .callCreated => "call.created"
  | .callResolved => "call.resolved"
  | .stakePlaced => "stake.placed"
  | .stakeWithdrawn => "stake.withdrawn"
  | .payoutReady => "payout.ready"
  | .priceAlertTriggered => "price.alert.triggered"
  | .leaderboardUpdated => "leaderboard.updated"

structure WebhookSubscription where
  id : String
  isActive : Bool
  events : List WebhookEventType
  deriving DecidableEq

/-- A job, with the millisecond at which it is made. -/
structure DispatchWebhookJob (D : Type) where
  subscriptionId : String
  event : WebhookEventType
  data : D
  now : Nat
  deriving DecidableEq

/-- The job's name in the queue. -/
def DispatchWebhookJob.jobId {D : Type} (job : DispatchWebhookJob D) : List Char :=
  job.subscriptionId.toList ++ '-' :: (job.event.value.toList ++ '-' :: Nat.toDigits 10 job.now)

/-- A call of `dispatchEvent`, with the table of subscriptions that it finds and the millisecond at
which it comes to each of them. -/
structure Dispatch (D : Type) where
  event : WebhookEventType
  data : D
  subscriptions : List WebhookSubscription
  distinct : (subscriptions.map (·.id)).Nodup
  now : String → Nat

namespace Dispatch

variable {D : Type} (call : Dispatch D)

def matching : List WebhookSubscription :=
  call.subscriptions.filter fun s => s.isActive && s.events.contains call.event

def job (subscription : WebhookSubscription) : DispatchWebhookJob D where
  subscriptionId := subscription.id
  event := call.event
  data := call.data
  now := call.now subscription.id

end Dispatch

variable {D : Type}

/-- The queue ignores a job whose name it holds. -/
def add (queue : List (DispatchWebhookJob D)) (job : DispatchWebhookJob D) :
    List (DispatchWebhookJob D) :=
  if queue.any (·.jobId = job.jobId) then queue else queue ++ [job]

def dispatchEvent (queue : List (DispatchWebhookJob D)) (call : Dispatch D) :
    List (DispatchWebhookJob D) :=
  (call.matching.map call.job).foldl add queue

/-- What happens to the queue: a call, or the removal of jobs that are done. -/
inductive QueueAction (D : Type) where
  | dispatch (call : Dispatch D)
  | remove (gone : DispatchWebhookJob D → Bool)

def QueueAction.apply (queue : List (DispatchWebhookJob D)) :
    QueueAction D → List (DispatchWebhookJob D)
  | .dispatch call => dispatchEvent queue call
  | .remove gone => queue.filter fun job => !gone job

/-- The queue after some actions. -/
def queueAfter (actions : List (QueueAction D)) : List (DispatchWebhookJob D) :=
  actions.foldl QueueAction.apply []

/-- The queue has one more job for each active subscription that lists the event, with the call's
data. -/
def AddsEach (queue : List (DispatchWebhookJob D)) (call : Dispatch D) : Prop :=
  dispatchEvent queue call = queue ++ call.matching.map call.job

/-- No held job is of a subscription to be served, the event type and the millisecond. -/
def NoneHeld (queue : List (DispatchWebhookJob D)) (call : Dispatch D) : Prop :=
  ∀ s ∈ call.matching, ∀ job ∈ queue,
    ¬ (job.subscriptionId = s.id ∧ job.event = call.event ∧ job.now = call.now s.id)

theorem separator_not_mem_digits (n : Nat) : '-' ∉ Nat.toDigits 10 n := fun h =>
  absurd (Nat.isDigit_of_mem_toDigits (by decide) (by decide) h) (by decide)

theorem separator_not_mem_value (event : WebhookEventType) : '-' ∉ event.value.toList := by
  cases event <;> decide

theorem value_injective {event event' : WebhookEventType}
    (h : event.value.toList = event'.value.toList) : event = event' := by
  revert h
  cases event <;> cases event' <;> decide

/-- A list is cut at the first separator in one way. -/
theorem cut_unique {x y z w : List Char} (hx : '-' ∉ x) (hy : '-' ∉ y)
    (h : x ++ '-' :: z = y ++ '-' :: w) : x = y ∧ z = w := by
  have hfirst : ∀ {x z : List Char}, '-' ∉ x → (x ++ '-' :: z).takeWhile (· ≠ '-') = x := by
    intro x z hx
    have hall : ∀ c ∈ x, decide (c ≠ '-') = true := fun c hc =>
      decide_eq_true fun heq => hx (heq ▸ hc)
    rw [List.takeWhile_append_of_pos hall]
    exact List.append_nil x
  have hsame := congrArg (List.takeWhile (· ≠ '-')) h
  rw [hfirst hx, hfirst hy] at hsame
  subst hsame
  exact ⟨rfl, List.tail_eq_of_cons_eq (List.append_cancel_left h)⟩

/-- The name tells the subscription, the event type and the millisecond. -/
theorem job_id_eq_iff {job job' : DispatchWebhookJob D} :
    job.jobId = job'.jobId ↔ job.subscriptionId = job'.subscriptionId ∧ job.event = job'.event ∧
      job.now = job'.now := by
  constructor
  · intro h
    -- From the back, the digits end at the first separator and the event type at the second.
    have hreverse := congrArg List.reverse h
    simp only [DispatchWebhookJob.jobId, List.reverse_append, List.reverse_cons, List.append_assoc,
      List.cons_append] at hreverse
    obtain ⟨hnow, hrest⟩ := cut_unique (by simpa using separator_not_mem_digits job.now)
      (by simpa using separator_not_mem_digits job'.now) hreverse
    obtain ⟨hevent, hid⟩ := cut_unique (by simpa using separator_not_mem_value job.event)
      (by simpa using separator_not_mem_value job'.event) hrest
    have hnow := congrArg (Nat.ofDigitChars 10 · 0) (List.reverse_inj.mp hnow)
    simp only [Nat.ofDigitChars_ten_toDigits] at hnow
    exact ⟨String.toList_inj.mp (List.reverse_inj.mp hid),
      value_injective (List.reverse_inj.mp hevent), hnow⟩
  · rintro ⟨hid, hevent, hnow⟩
    rw [DispatchWebhookJob.jobId, DispatchWebhookJob.jobId, hid, hevent, hnow]

/-- The jobs with new names are added. -/
theorem foldl_add {jobs : List (DispatchWebhookJob D)} (hdistinct : (jobs.map (·.jobId)).Nodup)
    (queue : List (DispatchWebhookJob D)) :
    jobs.foldl add queue = queue ++ jobs.filter fun job => !queue.any (·.jobId = job.jobId) := by
  induction jobs generalizing queue with
  | nil => simp
  | cons job jobs ih =>
    obtain ⟨hnew, hdistinct⟩ := List.nodup_cons.mp hdistinct
    rw [List.foldl_cons, ih hdistinct, add]
    by_cases hheld : queue.any (·.jobId = job.jobId) = true
    · rw [if_pos hheld, List.filter_cons_of_neg (by simp [hheld])]
    · have hsame : jobs.filter (fun j => !(queue ++ [job]).any (·.jobId = j.jobId)) =
          jobs.filter fun j => !queue.any (·.jobId = j.jobId) := by
        refine List.filter_congr fun j hj => ?_
        have hne : ¬ job.jobId = j.jobId := fun heq =>
          hnew (List.mem_map.mpr ⟨j, hj, heq.symm⟩)
        simp [hne]
      rw [if_neg hheld, List.filter_cons_of_pos (by simpa using hheld), hsame, List.append_assoc]
      rfl

theorem dispatchEvent_eq (queue : List (DispatchWebhookJob D)) (call : Dispatch D) :
    dispatchEvent queue call = queue ++ (call.matching.map call.job).filter fun job =>
      !queue.any (·.jobId = job.jobId) := by
  refine foldl_add ?_ queue
  have hids : (call.matching.map (·.id)).Nodup := call.distinct.sublist (List.filter_sublist.map _)
  rw [List.map_map]
  exact List.pairwise_map.mpr ((List.pairwise_map.mp hids).imp fun hne heq =>
    hne (job_id_eq_iff.mp heq).1)

/-- A call adds its jobs when none is held already. -/
theorem adds_each_iff (queue : List (DispatchWebhookJob D)) (call : Dispatch D) :
    AddsEach queue call ↔ NoneHeld queue call := by
  rw [AddsEach, dispatchEvent_eq, List.append_cancel_left_eq, List.filter_eq_self]
  simp only [NoneHeld, List.forall_mem_map, Bool.not_eq_true', List.any_eq_false,
    decide_eq_true_eq, job_id_eq_iff]
  rfl

/-- A job stays until it is removed. -/
theorem mem_foldl_apply {job : DispatchWebhookJob D} {actions : List (QueueAction D)}
    (hkept : ∀ gone, .remove gone ∈ actions → gone job = false)
    {queue : List (DispatchWebhookJob D)} (h : job ∈ queue) :
    job ∈ actions.foldl QueueAction.apply queue := by
  induction actions generalizing queue with
  | nil => exact h
  | cons action actions ih =>
    refine ih (fun gone hmem => hkept gone (.tail _ hmem)) ?_
    cases action with
    | dispatch call =>
      rw [QueueAction.apply, dispatchEvent_eq]
      exact List.mem_append_left _ h
    | remove gone => exact List.mem_filter.mpr ⟨h, by simp [hkept gone (.head _)]⟩

/-- A held job is of an earlier call and has not been removed since. -/
theorem call_of_held {job : DispatchWebhookJob D} {actions : List (QueueAction D)}
    (h : job ∈ queueAfter actions) : ∃ before call since, actions = before ++ .dispatch call :: since ∧
      (∃ s ∈ call.matching, call.job s = job) ∧ ∀ gone, .remove gone ∈ since → gone job = false := by
  induction actions using List.reverseRecOn with
  | nil => cases h
  | append_singleton actions action ih =>
    rw [queueAfter, List.foldl_append, List.foldl_cons, List.foldl_nil] at h
    cases action with
    | dispatch call =>
      rw [QueueAction.apply, dispatchEvent_eq] at h
      rcases List.mem_append.mp h with hheld | hnew
      · obtain ⟨before, earlier, since, rfl, hjob, hkept⟩ := ih hheld
        refine ⟨before, earlier, since ++ [.dispatch call], by simp, hjob, fun gone hmem => ?_⟩
        exact hkept gone (by simpa using hmem)
      · obtain ⟨s, hs, hjob⟩ := List.mem_map.mp (List.mem_filter.mp hnew).1
        exact ⟨actions, call, [], rfl, ⟨s, hs, hjob⟩, by simp⟩
    | remove gone =>
      obtain ⟨hheld, hgone⟩ := List.mem_filter.mp h
      obtain ⟨before, earlier, since, rfl, hjob, hkept⟩ := ih hheld
      refine ⟨before, earlier, since ++ [.remove gone], by simp, hjob, fun other hmem => ?_⟩
      rcases List.mem_append.mp hmem with hmem | hmem
      · exact hkept other hmem
      · cases List.mem_singleton.mp hmem
        simpa using hgone

/-- When two calls of one event type reach a subscription in the same millisecond, the first one's
job is removed in between. -/
def Spaced (actions : List (QueueAction D)) : Prop :=
  ∀ before earlier middle later after,
    actions = before ++ .dispatch earlier :: (middle ++ .dispatch later :: after) →
      earlier.event = later.event → ∀ s ∈ earlier.matching, ∀ s' ∈ later.matching, s.id = s'.id →
        earlier.now s.id = later.now s'.id →
          ∃ gone, .remove gone ∈ middle ∧ gone (earlier.job s) = true

/-- In every run each call adds its jobs, exactly when none comes to a subscription in the
millisecond of another call of the event type whose job is still held. -/
theorem queued_once_iff (actions : List (QueueAction D)) :
    (∀ before call after, actions = before ++ .dispatch call :: after →
      AddsEach (queueAfter before) call) ↔ Spaced actions := by
  constructor
  · intro h before earlier middle later after heq hevent s hs s' hs' hid hnow
    by_contra hkept
    have hadded := h before earlier _ heq
    have hnone := (adds_each_iff _ _).mp (h (before ++ .dispatch earlier :: middle) later after
      (by simp [heq]))
    refine hnone s' hs' (earlier.job s) ?_ ⟨hid, hevent, hnow⟩
    rw [queueAfter, List.foldl_append, List.foldl_cons]
    refine mem_foldl_apply (fun gone hmem => ?_) ?_
    · by_contra hgone
      exact hkept ⟨gone, hmem, by simpa using hgone⟩
    · rw [QueueAction.apply]
      exact hadded ▸ List.mem_append_right _ (List.mem_map_of_mem hs)
  · intro h before call after heq
    refine (adds_each_iff _ _).mpr fun s' hs' job hjob ⟨hid, hevent, hnow⟩ => ?_
    obtain ⟨start, earlier, since, rfl, ⟨s, hs, rfl⟩, hkept⟩ := call_of_held hjob
    obtain ⟨gone, hmem, hgone⟩ := h start earlier since call after (by simp [heq]) hevent s hs s' hs'
      hid hnow
    rw [hkept gone hmem] at hgone
    cases hgone

def subscriber : WebhookSubscription := ⟨"3f8a", true, [.stakePlaced]⟩

/-- A stake is placed, with an amount, in the millisecond 5. -/
def stakeOf (amount : Nat) : Dispatch Nat where
  event := .stakePlaced
  data := amount
  subscriptions := [subscriber]
  distinct := List.nodup_singleton _
  now := fun _ => 5

/-- The second of two stakes in a millisecond is not delivered. -/
theorem second_stake_dropped : queueAfter [.dispatch (stakeOf 10), .dispatch (stakeOf 20)] =
        [⟨"3f8a", .stakePlaced, 10, 5⟩] ∧
      ¬ AddsEach (queueAfter [.dispatch (stakeOf 10)]) (stakeOf 20) := by
  have hfirst : queueAfter [.dispatch (stakeOf 10)] = [⟨"3f8a", .stakePlaced, 10, 5⟩] := by
    decide +kernel
  refine ⟨by decide +kernel, fun h => ?_⟩
  rw [adds_each_iff, hfirst] at h
  exact h subscriber (by decide) _ List.mem_cons_self ⟨rfl, rfl, rfl⟩

end Backit.Webhooks
