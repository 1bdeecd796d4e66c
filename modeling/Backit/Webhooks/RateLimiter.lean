import Mathlib.Algebra.Order.Ring.Int
import Mathlib.Data.List.Induction

/-!
# The rate limit of a URL

The limiter keeps the moments at which it allowed a call for a URL, without those that were a second
old when it last allowed one. For every later moment these are all that count, so what it refuses
has a full second behind it, and no second gets more than the maximum.
-/

namespace Backit.Webhooks

variable {U : Type} [DecidableEq U]

structure UrlRateLimiter (U : Type) where
  maxPerSecond : Nat
  windows : U → List Int

/-- The moments that are less than a second before `now`. -/
def recent (now : Int) (moments : List Int) : List Int := moments.filter (now - · < 1000)

/-- A refusal writes nothing back. -/
def UrlRateLimiter.isAllowed (limiter : UrlRateLimiter U) (url : U) (now : Int) :
    Bool × UrlRateLimiter U :=
  let existing := recent now (limiter.windows url)
  if limiter.maxPerSecond ≤ existing.length then (false, limiter)
  else (true, { limiter with windows := Function.update limiter.windows url (existing ++ [now]) })

structure Call (U : Type) where
  url : U
  now : Int

/-- A limiter, and the calls so far with their answers. -/
structure Service (U : Type) where
  limiter : UrlRateLimiter U
  log : List (Call U × Bool)

def Service.next (service : Service U) (call : Call U) : Service U :=
  let answer := service.limiter.isAllowed call.url call.now
  ⟨answer.2, service.log ++ [(call, answer.1)]⟩

/-- The calls are answered in turn by a new limiter. -/
def serve (maxPerSecond : Nat) (calls : List (Call U)) : Service U :=
  calls.foldl .next ⟨⟨maxPerSecond, fun _ => []⟩, []⟩

/-- The moments at which calls for a URL were allowed. -/
def allowedAt (url : U) (log : List (Call U × Bool)) : List Int :=
  (log.filter fun entry => entry.1.url = url && entry.2).map (·.1.now)

/-- The moments from `start` on and before `finish`. -/
def between (start finish : Int) (moments : List Int) : List Int :=
  moments.filter fun moment => start ≤ moment && moment < finish

variable {maxPerSecond : Nat} {calls before after : List (Call U)} {call : Call U} {url : U}

theorem serve_concat (calls : List (Call U)) (call : Call U) :
    serve maxPerSecond (calls ++ [call]) = (serve maxPerSecond calls).next call := by
  rw [serve, List.foldl_append]
  rfl

theorem max_kept (calls : List (Call U)) :
    (serve maxPerSecond calls).limiter.maxPerSecond = maxPerSecond := by
  induction calls using List.reverseRecOn with
  | nil => rfl
  | append_singleton calls call ih =>
    rw [serve_concat, Service.next, UrlRateLimiter.isAllowed]
    split <;> exact ih

theorem allowedAt_concat (url : U) (log : List (Call U × Bool)) (call : Call U) (allowed : Bool) :
    allowedAt url (log ++ [(call, allowed)]) =
      allowedAt url log ++ if call.url = url ∧ allowed = true then [call.now] else [] := by
  by_cases h : call.url = url ∧ allowed = true
  · simp [allowedAt, h]
  · rw [allowedAt, List.filter_append]
    have hnone : [(call, allowed)].filter (fun entry => entry.1.url = url && entry.2) = [] := by
      simpa using h
    rw [hnone, List.append_nil, if_neg h, List.append_nil, allowedAt]

theorem recent_recent {now later : Int} (h : now ≤ later) (moments : List Int) :
    recent later (recent now moments) = recent later moments := by
  rw [recent, recent, List.filter_filter]
  refine List.filter_congr fun moment _ => ?_
  simp only [← Bool.decide_and, decide_eq_decide]
  omega

/-- For later calls the limiter has kept all that counts. -/
def Remembers (service : Service U) (now : Int) : Prop :=
  ∀ url, ∀ later ≥ now,
    recent later (service.limiter.windows url) = recent later (allowedAt url service.log)

theorem Remembers.next {service : Service U} {now : Int} (h : Remembers service now)
    {call : Call U} (hlater : now ≤ call.now) : Remembers (service.next call) call.now := by
  intro url later hge
  have hbefore := h url later (hlater.trans hge)
  rw [Service.next, allowedAt_concat, UrlRateLimiter.isAllowed]
  split
  · simpa using hbefore
  · by_cases hurl : call.url = url
    · subst hurl
      simp only [Function.update_self, recent, List.filter_append, and_self, if_true] at hbefore ⊢
      rw [← hbefore]
      exact congrArg (· ++ _) (recent_recent hge _)
    · simpa [Function.update_of_ne (Ne.symm hurl), hurl] using hbefore

/-- A call is refused when as many as there may be were allowed in the second before it. -/
theorem answer_eq {service : Service U} (h : Remembers service call.now) :
    (service.limiter.isAllowed call.url call.now).1 =
      decide ((recent call.now (allowedAt call.url service.log)).length <
        service.limiter.maxPerSecond) := by
  rw [← h call.url call.now (Int.le_refl _), UrlRateLimiter.isAllowed]
  split
  · next hfull => exact (decide_eq_false (Nat.not_lt.mpr hfull)).symm
  · next hroom => exact (decide_eq_true (Nat.not_le.mp hroom)).symm

/-- No later than a moment. -/
def UpTo (calls : List (Call U)) (now : Int) : Prop := ∀ call ∈ calls, call.now ≤ now

theorem remembers_of_ordered (h : calls.Pairwise (·.now ≤ ·.now)) {now : Int} (hup : UpTo calls now) :
    Remembers (serve maxPerSecond calls) now := by
  induction calls using List.reverseRecOn generalizing now with
  | nil => exact fun _ _ _ => rfl
  | append_singleton calls call ih =>
    obtain ⟨hcalls, -, hlast⟩ := List.pairwise_append.mp h
    have hbefore : UpTo calls call.now := fun c hc => hlast c hc call List.mem_cons_self
    intro url later hge
    rw [serve_concat]
    exact (ih hcalls hbefore).next (Int.le_refl _) url later
      ((hup call (List.mem_append_right _ List.mem_cons_self)).trans hge)

theorem between_le (h : calls.Pairwise (·.now ≤ ·.now)) (url : U) (start : Int) :
    (between start (start + 1000) (allowedAt url (serve maxPerSecond calls).log)).length ≤
      maxPerSecond := by
  induction calls using List.reverseRecOn with
  | nil => exact Nat.zero_le _
  | append_singleton calls call ih =>
    obtain ⟨hcalls, -, hlast⟩ := List.pairwise_append.mp h
    have hbefore : UpTo calls call.now := fun c hc => hlast c hc call List.mem_cons_self
    have hle := ih hcalls
    have hremembers : Remembers (serve maxPerSecond calls) call.now :=
      remembers_of_ordered hcalls hbefore
    have hanswer := answer_eq hremembers
    rw [max_kept] at hanswer
    rw [between] at hle
    rw [serve_concat, Service.next, allowedAt_concat, between, List.filter_append,
      List.length_append]
    by_cases hallowed : call.url = url ∧
        ((serve maxPerSecond calls).limiter.isAllowed call.url call.now).1 = true
    · obtain ⟨rfl, hallowed⟩ := hallowed
      rw [if_pos ⟨rfl, hallowed⟩]
      rw [hanswer, decide_eq_true_eq] at hallowed
      by_cases hin : start ≤ call.now ∧ call.now < start + 1000
      · -- What is in the second before is among what the limiter counted.
        have hcounted : (between start (start + 1000)
            (allowedAt call.url (serve maxPerSecond calls).log)).length ≤
              (recent call.now (allowedAt call.url (serve maxPerSecond calls).log)).length := by
          rw [between, recent, ← List.countP_eq_length_filter, ← List.countP_eq_length_filter]
          refine List.countP_mono_left fun moment _ hmoment => ?_
          simp only [Bool.and_eq_true, decide_eq_true_eq] at hmoment ⊢
          omega
        rw [between] at hcounted
        simp [hin]
        omega
      · simpa [hin] using hle
    · simpa [hallowed] using hle

/-- The answers for a URL are those of a limiter that has no other calls. -/
theorem alone_eq (url : U) (calls : List (Call U)) :
    let alone := serve maxPerSecond (calls.filter (·.url = url))
    (serve maxPerSecond calls).log.filter (·.1.url = url) = alone.log ∧
      (serve maxPerSecond calls).limiter.windows url = alone.limiter.windows url := by
  induction calls using List.reverseRecOn with
  | nil => exact ⟨rfl, rfl⟩
  | append_singleton calls call ih =>
    obtain ⟨hlog, hwindow⟩ := ih
    by_cases hurl : call.url = url
    · subst hurl
      have hanswer : ((serve maxPerSecond calls).limiter.isAllowed call.url call.now).1 =
          ((serve maxPerSecond (calls.filter (·.url = call.url))).limiter.isAllowed call.url
            call.now).1 := by
        simp only [UrlRateLimiter.isAllowed, hwindow, max_kept]
        split <;> rfl
      simp only [List.filter_append, List.filter_cons, decide_true, if_true, List.filter_nil,
        serve_concat, Service.next, hlog, hanswer, true_and]
      simp only [UrlRateLimiter.isAllowed, hwindow, max_kept]
      split <;> simp [hwindow]
    · simp only [List.filter_append, List.filter_cons, hurl, decide_false, Bool.false_eq_true,
        if_false, List.filter_nil, List.append_nil, serve_concat, Service.next, hlog, true_and]
      simp only [UrlRateLimiter.isAllowed]
      split
      · exact hwindow
      · exact (Function.update_of_ne (Ne.symm hurl) _ _).trans hwindow

/-- No second has more than the maximum of allowed calls for a URL, a refused call has as many in
the second before it, and the answers for a URL depend on the calls for it alone. -/
theorem rate_limit_holds (h : calls.Pairwise (·.now ≤ ·.now)) :
    (∀ url start, (between start (start + 1000)
        (allowedAt url (serve maxPerSecond calls).log)).length ≤ maxPerSecond) ∧
      (∀ before call after, calls = before ++ call :: after →
        ((serve maxPerSecond before).limiter.isAllowed call.url call.now).1 = false →
          maxPerSecond ≤
            (recent call.now (allowedAt call.url (serve maxPerSecond before).log)).length) ∧
      ∀ url, (serve maxPerSecond calls).log.filter (·.1.url = url) =
        (serve maxPerSecond (calls.filter (·.url = url))).log := by
  refine ⟨between_le h, fun before call after hcalls hrefused => ?_, fun url => (alone_eq url calls).1⟩
  rw [hcalls] at h
  obtain ⟨hbefore, -, hlast⟩ := List.pairwise_append.mp h
  have hup : UpTo before call.now := fun c hc => hlast c hc call List.mem_cons_self
  rw [answer_eq (remembers_of_ordered hbefore hup), max_kept, decide_eq_false_iff_not] at hrefused
  exact Nat.not_lt.mp hrefused

/-- Of three calls at once to one of two addresses, two are allowed in the second. -/
theorem rate_limit_of_two :
    (between 0 1000 (allowedAt 7 (serve 2 [⟨7, 0⟩, ⟨8, 0⟩, ⟨7, 0⟩, ⟨7, 0⟩]).log)).length ≤ 2 :=
  (rate_limit_holds (by decide)).1 7 0

end Backit.Webhooks
