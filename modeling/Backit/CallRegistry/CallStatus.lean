import Backit.CallRegistry.Terms

/-!
# The status of a call

A call is unresolved, resolved or settled, and it may be cancelled or voided. Resolution does not
check that the call is unresolved and not cancelled, and settlement checks neither the outcome nor
whether the call was cancelled or voided. In a run in which the outcome manager keeps to these
conditions, a call is resolved at most once, nothing is resolved or settled after it was cancelled
or voided, and the creators' track records count what happened.
-/

namespace Backit.CallRegistry

open Soroban Lib

/-- The call that an operation resolves. -/
def MarketOp.resolves : MarketOp → Option Nat
  | .resolveCall callId _ _ => some callId
  | _ => none

/-- The call that an operation settles. -/
def MarketOp.settles : MarketOp → Option Nat
  | .markSettled callId => some callId
  | _ => none

/-- How often a call has been resolved. -/
def resolutions (history : List MarketReceipt) (callId : Nat) : Nat :=
  history.countP fun r => r.op.resolves = some callId

/-- How often a call has been settled. -/
def settlements (history : List MarketReceipt) (callId : Nat) : Nat :=
  history.countP fun r => r.op.settles = some callId

/-- Whether a staker of the call may claim a refund: the call is voided, or it is unsettled and its
grace period has elapsed. -/
def Call.refundable (call : Call) (config : ContractConfig) (now : Nat) : Bool :=
  call.voided || (!call.settled && decide (call.endTs + config.resolutionGracePeriod < now))

/-- Whether shares of the winning outcome may be redeemed. -/
def Call.redeemable (call : Call) : Bool := call.settled && decide (call.outcome ≠ 0)

/-- The conditions that resolution and settlement leave unchecked. -/
def Market.admits (m : Market) : MarketOp → Bool
  | .resolveCall callId _ _ =>
    (m.calls callId).all fun call => decide (call.outcome = 0) && !call.cancelled
  | .markSettled callId =>
    (m.calls callId).all fun call =>
      decide (call.outcome ≠ 0) && !call.cancelled && !call.voided
  | _ => true

/-- Whether a step keeps to the conditions that resolution and settlement leave unchecked. -/
def orderlyStep {T : Type} (w : World T) (l : Label) : Bool :=
  l.onMarket.all fun r => w.store.market.admits r.op

/-- Only unresolved calls that are not cancelled are resolved, and only resolved calls that are
neither cancelled nor voided are settled. -/
def orderly {T : Type} : System.Guard (World T) Label := fun _ w l => orderlyStep w l = true

/-- What an operation does to the status of a call. -/
inductive StatusChange (op : MarketOp) (callId : Nat) (call : Call) : Call → Prop where
  | unchanged {call'} : op.resolves ≠ some callId → op.settles ≠ some callId →
      call'.outcome = call.outcome → call'.endPrice = call.endPrice →
      call'.settled = call.settled → call'.cancelled = call.cancelled →
      call'.voided = call.voided → StatusChange op callId call call'
  | resolved {outcome endPrice} : op.resolves = some callId → op.settles ≠ some callId →
      outcome ≠ 0 → call.voided = false →
      StatusChange op callId call { call with outcome := outcome, endPrice := endPrice }
  | settled : op.settles = some callId → op.resolves ≠ some callId →
      StatusChange op callId call { call with settled := true }
  | ended {cancelled voided} : op.resolves ≠ some callId → op.settles ≠ some callId →
      call.settled = false → (call.cancelled = true → cancelled = true) →
      (call.voided = true → voided = true) →
      StatusChange op callId call { call with cancelled := cancelled, voided := voided }

section Steps

variable {env : Env} {config : Option ContractConfig} {op : MarketOp} {m m' : Market}
  {effects : List (Effect Event)} {retained : Nat → Nat → Int} {callId : Nat} {call call' : Call}

theorem Market.admits_resolves (h : m.admits op = true) (hop : op.resolves = some callId)
    (hcall : m.calls callId = some call) : call.outcome = 0 ∧ call.cancelled = false := by
  cases op <;> simp_all [Market.admits, MarketOp.resolves]

theorem Market.admits_settles (h : m.admits op = true) (hop : op.settles = some callId)
    (hcall : m.calls callId = some call) :
    call.outcome ≠ 0 ∧ call.cancelled = false ∧ call.voided = false := by
  cases op <;> simp_all [Market.admits, MarketOp.settles]

theorem Market.setCall_cases {target : Nat} {old new : Call} (hold : m.calls target = some old)
    (hid : new.id = old.id) (hcall : m.calls callId = some call)
    (hcall' : (m.setCall new).calls callId = some call') :
    (target = callId ∧ old = call ∧ call' = new) ∨ (target ≠ callId ∧ call' = call) := by
  have htarget : new.id = target := hid.trans (m.keyed _ _ hold)
  rw [Market.setCall_calls, htarget] at hcall'
  split at hcall'
  · next h =>
    subst h
    refine .inl ⟨rfl, ?_, ?_⟩
    · simpa [hold] using hcall
    · simpa using hcall'.symm
  · next h =>
    refine .inr ⟨Ne.symm h, ?_⟩
    simpa [hcall] using hcall'.symm

theorem StatusChange.same (hresolves : op.resolves ≠ some callId)
    (hsettles : op.settles ≠ some callId) : StatusChange op callId call call :=
  .unchanged hresolves hsettles rfl rfl rfl rfl rfl

/-- What a transition does to the status of a call that exists. -/
theorem MarketStep.status_change (h : MarketStep env config op m effects m')
    (hbooks : m.BooksAgree retained) (hcall : m.calls callId = some call)
    (hcall' : m'.calls callId = some call') : StatusChange op callId call call' := by
  cases h with
  | created =>
    have hnumber := hbooks.numbered _ _ hcall
    rw [Market.withNewCall_calls, if_neg (by omega), hcall] at hcall'
    cases hcall'
    exact .same (by simp [MarketOp.resolves]) (by simp [MarketOp.settles])
  | @staked _ r staked credited _ hr _ hstaked =>
    have hresolves : op.resolves = none ∧ op.settles = none := by
      cases op <;> simp_all [MarketOp.stakeRequest, MarketOp.resolves, MarketOp.settles]
    rw [Market.withStake_calls r credited (m.keyed _ _ hstaked)] at hcall'
    split at hcall'
    · next hid =>
      obtain rfl : staked = call := by simpa [hid, hstaked] using hcall
      cases hcall'
      exact .unchanged (by simp [hresolves]) (by simp [hresolves]) rfl rfl rfl rfl rfl
    · obtain rfl : call = call' := by simpa [hcall] using hcall'
      exact .same (by simp [hresolves]) (by simp [hresolves])
  | @withdrawn staker _ position withdrawn _ refund _ _ hwithdrawn =>
    rw [Market.withoutStake_calls staker position refund (m.keyed _ _ hwithdrawn)] at hcall'
    split at hcall'
    · next hid =>
      obtain rfl : withdrawn = call := by simpa [hid, hwithdrawn] using hcall
      cases hcall'
      exact .unchanged (by simp [MarketOp.resolves]) (by simp [MarketOp.settles]) rfl rfl rfl
        rfl rfl
    · obtain rfl : call = call' := by simpa [hcall] using hcall'
      exact .same (by simp [MarketOp.resolves]) (by simp [MarketOp.settles])
  | voidRefunded hr =>
    obtain rfl : call = call' := by simpa [Market.setVoidRefundClaimed, hcall] using hcall'
    have hresolves : op.resolves = none ∧ op.settles = none := by
      cases op <;> simp_all [MarketOp.voidRefundRequest, MarketOp.resolves, MarketOp.settles]
    exact .same (by simp [hresolves]) (by simp [hresolves])
  | expiredRefunded =>
    obtain rfl : call = call' := by simpa [Market.setExpiredRefundClaimed, hcall] using hcall'
    exact .same (by simp [MarketOp.resolves]) (by simp [MarketOp.settles])
  | redeemed | sharesTransferred | released =>
    obtain rfl : call = call' := by simpa [hcall] using hcall'
    exact .same (by simp [MarketOp.resolves]) (by simp [MarketOp.settles])
  | metadataUpdated _ hupdated =>
    obtain ⟨rfl, rfl, rfl⟩ | ⟨-, rfl⟩ := Market.setCall_cases hupdated (by rfl) hcall hcall'
    · exact .unchanged (by simp [MarketOp.resolves]) (by simp [MarketOp.settles]) rfl rfl rfl rfl
        rfl
    · exact .same (by simp [MarketOp.resolves]) (by simp [MarketOp.settles])
  | resolved _ _ _ hresolved hposition _ hvoided =>
    obtain ⟨rfl, rfl, rfl⟩ | ⟨hne, rfl⟩ := Market.setCall_cases
      (m := m.setCreatorStats _ _) hresolved (by rfl) hcall hcall'
    · exact .resolved rfl (by simp [MarketOp.settles]) (by have := hposition.1; omega) hvoided
    · exact .same (by simpa [MarketOp.resolves] using hne) (by simp [MarketOp.settles])
  | settled _ _ hsettled =>
    obtain ⟨rfl, rfl, rfl⟩ | ⟨hne, rfl⟩ := Market.setCall_cases hsettled (by rfl) hcall hcall'
    · exact .settled rfl (by simp [MarketOp.resolves])
    · exact .same (by simp [MarketOp.resolves]) (by simpa [MarketOp.settles] using hne)
  | priced _ _ hpriced =>
    obtain ⟨rfl, rfl, rfl⟩ | ⟨-, rfl⟩ := Market.setCall_cases hpriced (by rfl) hcall hcall'
    · exact .unchanged (by simp [MarketOp.resolves]) (by simp [MarketOp.settles]) rfl rfl rfl rfl
        rfl
    · exact .same (by simp [MarketOp.resolves]) (by simp [MarketOp.settles])
  | cancelled _ hcancelled _ hsettled =>
    obtain ⟨rfl, rfl, rfl⟩ | ⟨-, rfl⟩ := Market.setCall_cases hcancelled (by rfl) hcall hcall'
    · exact .ended (by simp [MarketOp.resolves]) (by simp [MarketOp.settles]) hsettled
        (fun _ => rfl) id
    · exact .same (by simp [MarketOp.resolves]) (by simp [MarketOp.settles])
  | voided _ _ hvoided _ hsettled =>
    obtain ⟨rfl, rfl, rfl⟩ | ⟨-, rfl⟩ := Market.setCall_cases hvoided (by rfl) hcall hcall'
    · exact .ended (by simp [MarketOp.resolves]) (by simp [MarketOp.settles]) hsettled id
        (fun _ => rfl)
    · exact .same (by simp [MarketOp.resolves]) (by simp [MarketOp.settles])
  | emergencyCancelled _ _ hcancelled hsettled =>
    obtain ⟨rfl, rfl, rfl⟩ | ⟨-, rfl⟩ := Market.setCall_cases hcancelled (by rfl) hcall hcall'
    · exact .ended (by simp [MarketOp.resolves]) (by simp [MarketOp.settles]) hsettled
        (fun _ => rfl) (fun _ => rfl)
    · exact .same (by simp [MarketOp.resolves]) (by simp [MarketOp.settles])

/-- A transition that does not resolve a call keeps how it was resolved. -/
theorem MarketStep.resolution_kept (h : MarketStep env config op m effects m')
    (hbooks : m.BooksAgree retained) (hop : op.resolves ≠ some callId)
    (hcall : m.calls callId = some call) : ∃ call', m'.calls callId = some call' ∧
      call'.outcome = call.outcome ∧ call'.endPrice = call.endPrice := by
  obtain ⟨call', hcall', -⟩ := h.call_kept hbooks hcall
  refine ⟨call', hcall', ?_⟩
  cases h.status_change hbooks hcall hcall' with
  | unchanged _ _ houtcome hprice => exact ⟨houtcome, hprice⟩
  | resolved hresolves => exact absurd hresolves hop
  | settled => exact ⟨rfl, rfl⟩
  | ended => exact ⟨rfl, rfl⟩

/-- Whatever happens, the books agree on some retained penalties. -/
theorem MarketStep.books_kept (h : MarketStep env config op m effects m')
    (hbooks : m.BooksAgree retained) : ∃ retained', m'.BooksAgree retained' := by
  obtain ⟨-, hsame⟩ | ⟨creator, args, tokens, -, rfl⟩ |
    ⟨r, call, credited, -, hcall, -, hcredited, -, rfl⟩ |
    ⟨staker, callId, position, call, _, -, hcall, -, hstake, rfl, -, rfl⟩ := h.books_cases
  · exact ⟨_, hbooks.same_books hsame⟩
  · exact ⟨_, hbooks.created creator args _ _⟩
  · exact ⟨_, hbooks.staked hcall hcredited⟩
  · exact ⟨_, hbooks.withdrawn hcall (earlyExitPenalty_bounds hstake).1 fun _ _ => rfl⟩

theorem MarketStep.resolves_known (h : MarketStep env config op m effects m')
    (hop : op.resolves = some callId) : ∃ call, m.calls callId = some call := by
  cases h with
  | resolved _ _ _ hcall =>
    obtain rfl : _ = callId := by simpa [MarketOp.resolves] using hop
    exact ⟨_, hcall⟩
  | staked hr => cases op <;> simp [MarketOp.stakeRequest, MarketOp.resolves] at hr hop
  | voidRefunded hr => cases op <;> simp [MarketOp.voidRefundRequest, MarketOp.resolves] at hr hop
  | _ => simp [MarketOp.resolves] at hop

/-- A call is resolved after its end, to one of its positions. -/
theorem MarketStep.resolves_in_time (h : MarketStep env config op m effects m')
    (hop : op.resolves = some callId) (hcall' : m'.calls callId = some call') :
    call'.endTs ≤ env.timestamp ∧ call'.HasPosition call'.outcome := by
  cases h with
  | @resolved resolvedId outcome endPrice call _ _ _ _ _ _ hcall hposition hended =>
    obtain rfl : resolvedId = callId := by simpa [MarketOp.resolves] using hop
    have hid := m.keyed _ _ hcall
    rw [Market.setCall_calls, if_pos hid.symm] at hcall'
    obtain rfl := Option.some.inj hcall'
    exact ⟨hended, hposition⟩
  | staked hr => cases op <;> simp [MarketOp.stakeRequest, MarketOp.resolves] at hr hop
  | voidRefunded hr => cases op <;> simp [MarketOp.voidRefundRequest, MarketOp.resolves] at hr hop
  | _ => simp [MarketOp.resolves] at hop

end Steps

/-- A call has been resolved once if its outcome is set and never otherwise, and only a resolved
call that is not voided is settled. -/
structure Market.ResolvedOnce (history : List MarketReceipt) (m : Market) : Prop where
  known : ∀ r ∈ history, ∀ callId, r.op.resolves = some callId →
    ∃ call, m.calls callId = some call
  count : ∀ callId call, m.calls callId = some call →
    resolutions history callId = if call.outcome = 0 then 0 else 1
  settled : ∀ callId call, m.calls callId = some call → call.settled = true →
    call.outcome ≠ 0 ∧ call.voided = false

namespace Market.ResolvedOnce

variable {m : Market} {history : List MarketReceipt}

theorem empty : Storage.empty.market.ResolvedOnce [] := by
  constructor <;> simp [Storage.empty]

theorem unknown (h : m.ResolvedOnce history) {callId : Nat} (hnone : m.calls callId = none) :
    resolutions history callId = 0 := by
  refine List.countP_eq_zero.mpr fun r hr => ?_
  simp only [decide_eq_true_eq]
  intro hresolves
  obtain ⟨call, hcall⟩ := h.known r hr callId hresolves
  simp [hnone] at hcall

theorem at_most_once (h : m.ResolvedOnce history) (callId : Nat) :
    resolutions history callId ≤ 1 := by
  cases hcall : m.calls callId with
  | none => simp [h.unknown hcall]
  | some call =>
    rw [h.count callId call hcall]
    split <;> omega

end Market.ResolvedOnce

section Steps

variable {env : Env} {config : Option ContractConfig} {op : MarketOp} {m m' : Market}
  {effects : List (Effect Event)} {history : List MarketReceipt} {retained : Nat → Nat → Int}

theorem MarketStep.resolved_once (hstep : MarketStep env config op m effects m')
    (hbooks : m.BooksAgree retained) (hadmits : m.admits op = true) (h : m.ResolvedOnce history) :
    m'.ResolvedOnce (⟨env, op, effects⟩ :: history) := by
  have hcount : ∀ callId, resolutions (⟨env, op, effects⟩ :: history) callId =
      resolutions history callId + if op.resolves = some callId then 1 else 0 := by
    intro callId
    simp [resolutions, List.countP_cons]
  have hstatus : ∀ callId call', m'.calls callId = some call' →
      resolutions (⟨env, op, effects⟩ :: history) callId =
          (if call'.outcome = 0 then 0 else 1) ∧
        (call'.settled = true → call'.outcome ≠ 0 ∧ call'.voided = false) := by
    intro callId call' hcall'
    obtain ⟨call, hcall, -⟩ | ⟨creator, args, tokens, rfl, rfl, -, -, -, -, rfl⟩ :=
      hstep.call_origin hcall'
    · rw [hcount, h.count callId call hcall]
      have hsettled := h.settled callId call hcall
      cases hstep.status_change hbooks hcall hcall' with
      | unchanged hresolves _ houtcome _ hflag _ hvoided =>
        rw [if_neg hresolves, houtcome, hflag, hvoided]
        exact ⟨rfl, hsettled⟩
      | resolved hresolves _ hnonzero hvoided =>
        have hunresolved := (Market.admits_resolves hadmits hresolves hcall).1
        simp [hresolves, hunresolved, hnonzero, hvoided]
      | settled hsettles hresolves =>
        obtain ⟨hresolved, -, hvoided⟩ := Market.admits_settles hadmits hsettles hcall
        simp [hresolves, hresolved, hvoided]
      | ended hresolves _ hunsettled => simp [hresolves, hunsettled]
    · rw [hcount, h.unknown hbooks.fresh]
      simp [MarketOp.resolves, newCall]
  refine ⟨?_, fun callId call' hcall' => (hstatus callId call' hcall').1,
    fun callId call' hcall' => (hstatus callId call' hcall').2⟩
  intro r hr callId hresolves
  have hbefore : ∃ call, m.calls callId = some call := by
    obtain rfl | hr := List.mem_cons.mp hr
    · exact hstep.resolves_known hresolves
    · exact h.known r hr callId hresolves
  obtain ⟨call, hcall⟩ := hbefore
  obtain ⟨call', hcall', -⟩ := hstep.call_kept hbooks hcall
  exact ⟨call', hcall'⟩

end Steps

section TrackRecords

/-- The number of calls with a property. -/
def Market.countCalls (m : Market) (p : Call → Bool) : Int :=
  ((List.range (m.callCounter + 1)).map fun id =>
    if (m.calls id).any p then (1 : Int) else 0).sum

/-- The calls that an address created. -/
def createdBy (creator : Address) (call : Call) : Bool := decide (call.creator = creator)

/-- The resolved calls that an address created. -/
def resolvedFor (creator : Address) (call : Call) : Bool :=
  decide (call.creator = creator) && decide (call.outcome ≠ 0)

variable {m m' : Market} {p q : Call → Bool}

theorem Market.countCalls_congr (hcounter : m'.callCounter = m.callCounter)
    (h : ∀ id, (m'.calls id).any p = (m.calls id).any p) : m'.countCalls p = m.countCalls p := by
  unfold Market.countCalls
  rw [hcounter]
  exact sum_map_congr fun id _ => by rw [h]

theorem Market.countCalls_mono (h : ∀ call, p call = true → q call = true) :
    m.countCalls p ≤ m.countCalls q := by
  refine List.sum_le_sum fun id _ => ?_
  cases m.calls id with
  | none => simp
  | some call =>
    have := h call
    simp only [Option.any_some]
    split <;> split <;> simp_all

theorem Market.countCalls_setCall {id : Nat} {old new : Call} (hold : m.calls id = some old)
    (hnumber : id ≤ m.callCounter) (hid : new.id = old.id) :
    (m.setCall new).countCalls p =
      m.countCalls p - (if p old then 1 else 0) + (if p new then 1 else 0) := by
  have htarget : new.id = id := hid.trans (m.keyed _ _ hold)
  unfold Market.countCalls
  change ((List.range (m.callCounter + 1)).map _).sum = _
  rw [sum_map_change (f := fun id => if (m.calls id).any p then (1 : Int) else 0)
    List.nodup_range (List.mem_range.mpr (Nat.lt_succ_of_le hnumber))]
  · simp [hold, htarget]
  · intro other _ hother
    rw [Market.setCall_calls, htarget, if_neg hother]

theorem Market.countCalls_withNewCall (creator : Address) (args : CallInitArgs) (createdAt : Nat)
    (shareTokens : Map Nat Address) :
    (m.withNewCall creator args createdAt shareTokens).countCalls p = m.countCalls p +
      if p (newCall (m.callCounter + 1) creator args createdAt shareTokens) then 1 else 0 := by
  unfold Market.countCalls
  change ((List.range (m.callCounter + 1 + 1)).map _).sum = _
  rw [List.range_succ, List.map_append, List.sum_append]
  congr 1
  · refine sum_map_congr fun id hid => ?_
    have hne : id ≠ m.callCounter + 1 := Nat.ne_of_lt (List.mem_range.mp hid)
    rw [Market.withNewCall_calls, if_neg hne]
  · simp [Market.withNewCall_calls]

end TrackRecords

/-- The track records count the calls created and the calls resolved. -/
structure Market.StatsCount (m : Market) : Prop where
  created : ∀ a, ((m.creatorStats a).totalCreated : Int) = m.countCalls (createdBy a)
  resolved : ∀ a, ((m.creatorStats a).totalResolved : Int) = m.countCalls (resolvedFor a)
  correct : ∀ a, (m.creatorStats a).totalCorrect ≤ (m.creatorStats a).totalResolved

theorem Market.StatsCount.ordered {m : Market} (h : m.StatsCount) (a : Address) :
    (m.creatorStats a).totalCorrect ≤ (m.creatorStats a).totalResolved ∧
      (m.creatorStats a).totalResolved ≤ (m.creatorStats a).totalCreated := by
  refine ⟨h.correct a, ?_⟩
  have hcreated := h.created a
  have hresolved := h.resolved a
  have hsubset : m.countCalls (resolvedFor a) ≤ m.countCalls (createdBy a) :=
    Market.countCalls_mono fun call hcall => by simp_all [resolvedFor, createdBy]
  omega

section Steps

variable {env : Env} {config : Option ContractConfig} {op : MarketOp} {m m' : Market}
  {effects : List (Effect Event)} {retained : Nat → Nat → Int}

/-- A transition that neither creates nor resolves changes no count of creators and outcomes. -/
theorem MarketStep.countCalls_eq (h : MarketStep env config op m effects m')
    (hbooks : m.BooksAgree retained) (hcreate : ∀ creator args, op ≠ .createCall creator args)
    (hresolve : op.resolves = none) (hcounter : m'.callCounter = m.callCounter) {p : Call → Bool}
    (hp : ∀ c c' : Call, c'.creator = c.creator → c'.outcome = c.outcome → p c' = p c) :
    m'.countCalls p = m.countCalls p := by
  refine Market.countCalls_congr hcounter fun id => ?_
  cases hcall' : m'.calls id with
  | none =>
    cases hcall : m.calls id with
    | none => rfl
    | some call =>
      obtain ⟨_, hkept, -⟩ := h.call_kept hbooks hcall
      simp [hcall'] at hkept
  | some call' =>
    obtain ⟨call, hcall, hdeal⟩ | ⟨creator, args, _, hop, -⟩ := h.call_origin hcall'
    · have houtcome : call'.outcome = call.outcome := by
        cases h.status_change hbooks hcall hcall' with
        | unchanged _ _ houtcome => exact houtcome
        | resolved hresolves => simp [hresolve] at hresolves
        | settled | ended => rfl
      simp [hcall, hp call call' hdeal.creator houtcome]
    · exact absurd hop (hcreate creator args)

theorem createdBy_congr (a : Address) (c c' : Call) (hcreator : c'.creator = c.creator)
    (_ : c'.outcome = c.outcome) : createdBy a c' = createdBy a c := by
  rw [createdBy, createdBy, hcreator]

theorem resolvedFor_congr (a : Address) (c c' : Call) (hcreator : c'.creator = c.creator)
    (houtcome : c'.outcome = c.outcome) : resolvedFor a c' = resolvedFor a c := by
  rw [resolvedFor, resolvedFor, hcreator, houtcome]

theorem MarketStep.stats_count (hstep : MarketStep env config op m effects m')
    (hbooks : m.BooksAgree retained) (hadmits : m.admits op = true) (h : m.StatsCount) :
    m'.StatsCount := by
  have hcounts := hstep.countCalls_eq hbooks
  have hsame : m'.creatorStats = m.creatorStats →
      (∀ a, m'.countCalls (createdBy a) = m.countCalls (createdBy a)) →
      (∀ a, m'.countCalls (resolvedFor a) = m.countCalls (resolvedFor a)) → m'.StatsCount := by
    intro hstats hcreated hresolved
    refine ⟨fun a => ?_, fun a => ?_, fun a => ?_⟩
    · rw [hstats, hcreated, h.created]
    · rw [hstats, hresolved, h.resolved]
    · rw [hstats]
      exact h.correct a
  cases hstep with
  | @created creator args tokens =>
    have hstats : ∀ a, (m.withNewCall creator args env.timestamp
        (shareTokenMap tokens)).creatorStats a =
        if a = creator then
          { m.creatorStats creator with
            totalCreated := (m.creatorStats creator).totalCreated + 1 }
        else m.creatorStats a := fun a => Function.update_apply ..
    refine ⟨fun a => ?_, fun a => ?_, fun a => ?_⟩
    · rw [hstats, Market.countCalls_withNewCall, ← h.created]
      by_cases ha : a = creator
      · subst ha; simp [createdBy, newCall]
      · simp [createdBy, newCall, ha, Ne.symm ha]
    · rw [hstats, Market.countCalls_withNewCall, ← h.resolved]
      by_cases ha : a = creator
      · subst ha; simp [resolvedFor, newCall]
      · simp [resolvedFor, newCall, ha]
    · rw [hstats]
      by_cases ha : a = creator
      · subst ha; simpa using h.correct a
      · simpa [ha] using h.correct a
  | @resolved callId outcome endPrice call _ _ _ _ _ _ hcall hposition =>
    have hunresolved := (Market.admits_resolves hadmits rfl hcall).1
    have hnonzero : outcome ≠ 0 := by have := hposition.1; omega
    have hnumber := hbooks.numbered _ _ hcall
    have hstats : ∀ a, ((m.setCreatorStats call.creator (m.resolvedStats call outcome)).setCall
        { call with outcome := outcome, endPrice := endPrice }).creatorStats a =
        if a = call.creator then m.resolvedStats call outcome else m.creatorStats a :=
      fun a => Function.update_apply ..
    have hcount : ∀ p : Call → Bool,
        ((m.setCreatorStats call.creator (m.resolvedStats call outcome)).setCall
          { call with outcome := outcome, endPrice := endPrice }).countCalls p =
        m.countCalls p - (if p call then 1 else 0) +
          if p { call with outcome := outcome, endPrice := endPrice } then 1 else 0 :=
      fun p => Market.countCalls_setCall (m := m.setCreatorStats _ _) hcall hnumber rfl
    refine ⟨fun a => ?_, fun a => ?_, fun a => ?_⟩
    · rw [hstats, hcount, ← h.created]
      by_cases ha : a = call.creator
      · subst ha; simp [createdBy, Market.resolvedStats]
      · simp [createdBy, ha, Ne.symm ha]
    · rw [hstats, hcount, ← h.resolved]
      by_cases ha : a = call.creator
      · subst ha; simp [resolvedFor, Market.resolvedStats, hunresolved, hnonzero]
      · simp [resolvedFor, ha, Ne.symm ha]
    · rw [hstats]
      have hcorrect := h.correct a
      by_cases ha : a = call.creator
      · subst ha
        simp only [Market.resolvedStats, if_true]
        split <;> omega
      · simpa [ha] using hcorrect
  | staked hr =>
    have hop : (∀ creator args, op ≠ .createCall creator args) ∧ op.resolves = none := by
      cases op <;> simp_all [MarketOp.stakeRequest, MarketOp.resolves]
    exact hsame rfl (fun a => hcounts hop.1 hop.2 rfl (createdBy_congr a))
      fun a => hcounts hop.1 hop.2 rfl (resolvedFor_congr a)
  | voidRefunded hr =>
    have hop : (∀ creator args, op ≠ .createCall creator args) ∧ op.resolves = none := by
      cases op <;> simp_all [MarketOp.voidRefundRequest, MarketOp.resolves]
    exact hsame rfl (fun a => hcounts hop.1 hop.2 rfl (createdBy_congr a))
      fun a => hcounts hop.1 hop.2 rfl (resolvedFor_congr a)
  | _ =>
    exact hsame rfl (fun a => hcounts (by simp) rfl rfl (createdBy_congr a))
      fun a => hcounts (by simp) rfl rfl (resolvedFor_congr a)

end Steps

section Run

variable {T : Type} [Tokens T] [Crypto] {self : Address} {outside : T → T → Prop}
  {history later : List Label} {w w' : World T} {callId : Nat} {call call' : Call}

omit [Tokens T] [Crypto] in
theorem orderly_admits {r : MarketReceipt} {history : List Label}
    (h : orderly history w r.label) : w.store.market.admits r.op = true := by
  simpa [orderly, orderlyStep, MarketReceipt.label, Label.onMarket] using h

theorem resolved_once (run : (registry self outside).RunWhere orderly history w) :
    w.store.market.ResolvedOnce (marketHistory history) := by
  refine market_invariant (I := fun h m => m.ResolvedOnce h) .empty ?_ run
  intro h w r m' hrun horderly ih hstep
  exact hstep.resolved_once (books_agree hrun) (orderly_admits horderly) ih

theorem stats_count (run : (registry self outside).RunWhere orderly history w) :
    w.store.market.StatsCount := by
  refine market_invariant (I := fun _ m => m.StatsCount) ?_ ?_ run
  · constructor <;> simp [Storage.empty, Market.countCalls]
  · intro h w r m' hrun horderly ih hstep
    exact hstep.stats_count (books_agree hrun) (orderly_admits horderly) ih

/-- Once a call is resolved, its outcome and end price stay. -/
theorem outcome_stable (run : (registry self outside).RunWhere orderly history w)
    (path : System.Path (registry self outside) orderly history w later w')
    (hcall : w.store.market.calls callId = some call) (hresolved : call.outcome ≠ 0) :
    ∃ call', w'.store.market.calls callId = some call' ∧ call'.outcome = call.outcome ∧
      call'.endPrice = call.endPrice := by
  refine market_stable (P := fun _ m => ∃ call', m.calls callId = some call' ∧
    call'.outcome = call.outcome ∧ call'.endPrice = call.endPrice) run path ?_
    ⟨call, hcall, rfl, rfl⟩
  rintro h w r m' hrun horderly ⟨c, hc, houtcome, hprice⟩ hstep
  obtain ⟨c', hc', -⟩ := hstep.call_kept (books_agree hrun) hc
  refine ⟨c', hc', ?_⟩
  cases hstep.status_change (books_agree hrun) hc hc' with
  | unchanged _ _ houtcome' hprice' => exact ⟨houtcome'.trans houtcome, hprice'.trans hprice⟩
  | resolved hresolves =>
    have := (Market.admits_resolves (orderly_admits horderly) hresolves hc).1
    exact absurd (houtcome.symm.trans this) hresolved
  | settled | ended => exact ⟨houtcome, hprice⟩

/-- Once a call is cancelled or voided, it is neither resolved nor settled. -/
theorem closed_stable (run : (registry self outside).RunWhere orderly history w)
    (path : System.Path (registry self outside) orderly history w later w')
    (hcall : w.store.market.calls callId = some call)
    (hclosed : call.cancelled = true ∨ call.voided = true) :
    resolutions (marketHistory later) callId = resolutions (marketHistory history) callId ∧
      settlements (marketHistory later) callId = settlements (marketHistory history) callId := by
  refine (market_stable (P := fun h m =>
    (∃ c, m.calls callId = some c ∧ (c.cancelled = true ∨ c.voided = true)) ∧
    resolutions h callId = resolutions (marketHistory history) callId ∧
    settlements h callId = settlements (marketHistory history) callId) run path ?_
    ⟨⟨call, hcall, hclosed⟩, rfl, rfl⟩).2
  rintro h w r m' hrun horderly ⟨⟨c, hc, hclosed⟩, hresolutions, hsettlements⟩ hstep
  obtain ⟨c', hc', -⟩ := hstep.call_kept (books_agree hrun) hc
  have hadmits := orderly_admits horderly
  have hkept : r.op.resolves ≠ some callId ∧ r.op.settles ≠ some callId ∧
      (c'.cancelled = true ∨ c'.voided = true) := by
    cases hstep.status_change (books_agree hrun) hc hc' with
    | unchanged hresolves hsettles _ _ _ hcancelled hvoided =>
      rw [hcancelled, hvoided]
      exact ⟨hresolves, hsettles, hclosed⟩
    | resolved hresolves _ _ hvoided =>
      have hcancelled := (Market.admits_resolves hadmits hresolves hc).2
      simp [hcancelled, hvoided] at hclosed
    | settled hsettles =>
      obtain ⟨-, hcancelled, hvoided⟩ := Market.admits_settles hadmits hsettles hc
      simp [hcancelled, hvoided] at hclosed
    | ended hresolves hsettles _ hcancelled hvoided =>
      exact ⟨hresolves, hsettles, hclosed.imp hcancelled hvoided⟩
  obtain ⟨hresolves, hsettles, hclosed'⟩ := hkept
  refine ⟨⟨c', hc', hclosed'⟩, ?_, ?_⟩
  · rw [← hresolutions]
    simp [resolutions, hresolves]
  · rw [← hsettlements]
    simp [settlements, hsettles]

/-- In an orderly run every call is resolved at most once and keeps what it was resolved to,
nothing is resolved or settled after it was cancelled or voided, a settled call is resolved, no
call is refundable and redeemable at once, and the track records are in order. -/
theorem orderly_lifecycle (run : (registry self outside).RunWhere orderly history w) :
    (∀ callId, resolutions (marketHistory history) callId ≤ 1) ∧
    (∀ callId call, w.store.getCall callId = some call →
      (call.settled = true → call.outcome ≠ 0) ∧
      ∀ config now, ¬ (call.refundable config now = true ∧ call.redeemable = true)) ∧
    (∀ later w' callId call call',
      System.Path (registry self outside) orderly history w later w' →
      w.store.getCall callId = some call → w'.store.getCall callId = some call' →
      (call.outcome ≠ 0 → call'.outcome = call.outcome ∧ call'.endPrice = call.endPrice) ∧
      (call.cancelled = true ∨ call.voided = true →
        resolutions (marketHistory later) callId = resolutions (marketHistory history) callId ∧
        settlements (marketHistory later) callId =
          settlements (marketHistory history) callId)) ∧
    (∀ creator, (w.store.getCreatorStats creator).totalCorrect ≤
        (w.store.getCreatorStats creator).totalResolved ∧
      (w.store.getCreatorStats creator).totalResolved ≤
        (w.store.getCreatorStats creator).totalCreated) := by
  have honce := resolved_once run
  refine ⟨honce.at_most_once, ?_, ?_, (stats_count run).ordered⟩
  · intro callId call hcall
    have hsettled := honce.settled callId call hcall
    refine ⟨fun h => (hsettled h).1, fun config now => ?_⟩
    rintro ⟨hrefundable, hredeemable⟩
    obtain ⟨hflag, -⟩ : call.settled = true ∧ call.outcome ≠ 0 := by
      simpa [Call.redeemable] using hredeemable
    simp [Call.refundable, hflag, (hsettled hflag).2] at hrefundable
  · intro later w' callId call call' path hcall hcall'
    refine ⟨fun hresolved => ?_, closed_stable run path hcall⟩
    obtain ⟨kept, hkept, houtcome, hprice⟩ := outcome_stable run path hcall hresolved
    obtain rfl : kept = call' := Option.some.inj (hkept.symm.trans hcall')
    exact ⟨houtcome, hprice⟩

end Run

section Scenario

attribute [local instance] noCrypto

/-- Alice stakes on her call, which ends, is resolved and is settled. -/
def settledScript : List (Env × Action) :=
  openingScript ++
    [at_ 10 [alice] (.market (.stakeOnCall alice 1 1000 1)),
      at_ 1000 [managerAddress] (.market (.resolveCall 1 1 7)),
      at_ 1001 [managerAddress] (.market (.markSettled 1))]

/-- The outcome manager resolves the settled call again. -/
def resolvedTwiceScript : List (Env × Action) :=
  settledScript ++ [at_ 1002 [managerAddress] (.market (.resolveCall 1 2 3))]

def settledRun : Replayed (T := StandardLedger) home fun _ => orderlyStep :=
  .of freshWorld fresh_world_empty settledScript (by decide +kernel)

def resolvedTwiceRun : Replayed (T := StandardLedger) home anything :=
  .of freshWorld fresh_world_empty resolvedTwiceScript (by decide +kernel)

/-- The call as the last step of the scenario leaves it. -/
def resolvedTwiceCall : Call := (resolvedTwiceRun.world.store.getCall 1).get (by decide +kernel)

/-- Alice's track record after an orderly settlement. -/
theorem orderly_lifecycle_of_settled_call :
    (settledRun.world.store.getCreatorStats alice).totalResolved ≤
        (settledRun.world.store.getCreatorStats alice).totalCreated ∧
      (settledRun.world.store.getCreatorStats alice).totalResolved = 1 :=
  have run : (registry home fun _ _ => False).RunWhere orderly settledRun.history
      settledRun.world := settledRun.run fun _ _ _ h => h
  ⟨((orderly_lifecycle run).2.2.2 alice).2, by decide +kernel⟩

/-- Alice's only call has been resolved twice, to the first outcome and then, after it was settled,
to the second, and her track record shows more calls resolved than created. -/
theorem settled_call_resolved_again :
    (registry home fun _ _ => False).Run resolvedTwiceRun.history resolvedTwiceRun.world ∧
      resolutions (marketHistory resolvedTwiceRun.history) 1 = 2 ∧
      (∃ call, settledRun.world.store.getCall 1 = some call ∧ call.outcome = 1 ∧
        call.settled = true) ∧
      resolvedTwiceRun.world.store.getCall 1 = some resolvedTwiceCall ∧
      resolvedTwiceCall.outcome = 2 ∧
      (resolvedTwiceRun.world.store.getCreatorStats alice).totalCreated = 1 ∧
      (resolvedTwiceRun.world.store.getCreatorStats alice).totalResolved = 2 :=
  ⟨resolvedTwiceRun.run anything_allowed, by decide +kernel,
    ⟨(settledRun.world.store.getCall 1).get (by decide +kernel), (Option.some_get _).symm,
      by decide +kernel, by decide +kernel⟩,
    (Option.some_get _).symm, by decide +kernel, by decide +kernel, by decide +kernel⟩

end Scenario

end Backit.CallRegistry
