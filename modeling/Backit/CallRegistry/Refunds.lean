import Backit.CallRegistry.Terms

/-!
# Refunds

Three entry points pay a staker's principal back: an early withdrawal, the refund of a voided call
and the refund of an expired one. The two refunds keep separate records of who has claimed, so an
expired call that is voided afterwards refunds the same stake twice. Apart from that, no staker is
ever paid back more than was credited.
-/

namespace Backit.CallRegistry

open Soroban Lib

/-- The staker and the call of an operation that pays principal back. -/
def MarketOp.refundRequest : MarketOp → Option (Address × Nat)
  | .withdrawStake staker callId _ => some (staker, callId)
  | .claimExpiredRefund staker callId => some (staker, callId)
  | op => op.voidRefundRequest

/-- The amount that an operation credited to a staker on a call. -/
def creditedBy (callId : Nat) (staker : Address) (r : MarketReceipt) : Int :=
  if r.op.stakeRequest.isSome then
    effectTotal (Effect.onEvent (Event.credited callId staker)) r.effects
  else 0

/-- The principal that an operation paid back to a staker of a call. -/
def refundedBy (callId : Nat) (staker : Address) (r : MarketReceipt) : Int :=
  if r.op.refundRequest = some (staker, callId) then
    effectTotal (Effect.paidTo staker) r.effects
  else 0

def credited (history : List MarketReceipt) (callId : Nat) (staker : Address) : Int :=
  tally (creditedBy callId staker) history

def refunded (history : List MarketReceipt) (callId : Nat) (staker : Address) : Int :=
  tally (refundedBy callId staker) history

/-- The stake that the staker's own records show on all positions of a call. -/
def Market.recordedStake (m : Market) (callId : Nat) (staker : Address) : Int :=
  match m.calls callId with
  | some call => ((positions call.outcomeCount).map fun p => m.userStake (callId, staker, p)).sum
  | none => 0

/-- Whether an operation that refunds a voided call asks for a refund that the staker has not had
already as the refund of an expired call. -/
def refundDue {T : Type} (w : World T) (l : Label) : Bool :=
  match l.onMarket.bind fun r => r.op.voidRefundRequest with
  | some (staker, callId) => !w.store.isExpiredRefundClaimed callId staker
  | none => true

/-- Nobody claims the refund of a voided call whose refund as an expired call they have had. -/
def refundsOnce {T : Type} : System.Guard (World T) Label := fun _ w l => refundDue w l = true

/-- The positions of a call that a position belongs to. -/
theorem mem_positions {call : Call} {p : Nat} :
    p ∈ positions call.outcomeCount ↔ call.HasPosition p := by
  simp only [positions, List.mem_range'_1, Call.HasPosition]
  omega

theorem positions_nodup (outcomeCount : Nat) : (positions outcomeCount).Nodup := List.nodup_range'

/-- The first two positions are among those of a call with two outcomes or more. -/
theorem first_two_le_sum {outcomeCount : Nat} (h : 2 ≤ outcomeCount) {f : Nat → Int}
    (hf : ∀ p, 0 ≤ f p) : f 1 + f 2 ≤ ((positions outcomeCount).map f).sum := by
  obtain ⟨k, rfl⟩ : ∃ k, outcomeCount = k + 2 := ⟨outcomeCount - 2, by omega⟩
  have hrest := sum_map_nonneg (List.range' 3 k) hf
  change f 1 + f 2 ≤ f 1 + (f 2 + ((List.range' 3 k).map f).sum)
  omega

section Recorded

variable {m m' : Market} {call : Call} {callId : Nat} {staker : Address}

theorem Market.recordedStake_some (hcall : m.calls callId = some call) :
    m.recordedStake callId staker =
      ((positions call.outcomeCount).map fun p => m.userStake (callId, staker, p)).sum := by
  rw [Market.recordedStake, hcall]

theorem Market.recordedStake_nonneg (h : ∀ key, 0 ≤ m.userStake key) :
    0 ≤ m.recordedStake callId staker := by
  unfold Market.recordedStake
  split
  · exact sum_map_nonneg _ fun p => h _
  · exact le_rfl

/-- The recorded stake depends on the staker's records and the number of outcomes alone. -/
theorem Market.SameBooks.recordedStake (h : m.SameBooks m') :
    m'.recordedStake callId staker = m.recordedStake callId staker := by
  cases hcall : m'.calls callId with
  | none => simp only [Market.recordedStake, hcall, h.none_of hcall]
  | some call' =>
    obtain ⟨call, hbefore, hterms⟩ := h.call_of hcall
    simp only [Market.recordedStake, hcall, hbefore, hterms.outcomeCount, h.userStake]

/-- Writing one of the staker's records changes the recorded stake by as much. -/
theorem Market.recordedStake_change {c : Nat} {a : Address} {p : Nat} {stake : Int}
    (hcounts : ∀ id, (m'.calls id).map Call.outcomeCount = (m.calls id).map Call.outcomeCount)
    (hstake : m'.userStake = Function.update m.userStake (c, a, p) stake)
    (hcall : m.calls c = some call) (hposition : call.HasPosition p) :
    m'.recordedStake callId staker = m.recordedStake callId staker +
      if c = callId ∧ a = staker then stake - m.userStake (c, a, p) else 0 := by
  have hcount := hcounts callId
  cases hbefore : m.calls callId with
  | none =>
    have hafter : m'.calls callId = none := by simpa [hbefore] using hcount
    rw [if_neg fun h => by simp [← h.1, hcall] at hbefore]
    simp only [Market.recordedStake, hbefore, hafter, add_zero]
  | some old =>
    obtain ⟨new, hafter, houtcomes⟩ : ∃ new, m'.calls callId = some new ∧
        new.outcomeCount = old.outcomeCount := by simpa [hbefore] using hcount
    rw [recordedStake_some hafter, recordedStake_some hbefore, houtcomes]
    split
    · next h =>
      obtain ⟨rfl, rfl⟩ := h
      obtain rfl : old = call := by simpa [hbefore] using hcall
      rw [sum_map_change (positions_nodup _) (mem_positions.mpr hposition)
        (f := fun q => m.userStake (c, a, q)) fun q _ hq => ?_]
      · simp only [hstake, Function.update_self]
        omega
      · rw [hstake, Function.update_of_ne (by simp [hq])]
    · next h =>
      rw [add_zero, hstake]
      refine sum_map_congr fun q _ => ?_
      exact Function.update_of_ne (fun heq => h (by simp_all)) ..

theorem Market.BooksAgree.staked_recordedStake {retained : Nat → Nat → Int} {r : StakeRequest}
    {credited : Int} (h : m.BooksAgree retained) (hcall : m.calls r.callId = some call)
    (hposition : call.HasPosition r.position) :
    (m.withStake call r credited).recordedStake callId staker =
      m.recordedStake callId staker +
        if r.callId = callId ∧ r.staker = staker then credited else 0 := by
  rw [recordedStake_change (fun id => ?_) rfl hcall hposition, h.entries _ _ hcall]
  · congr 2
    omega
  · rw [m.withStake_calls r credited (m.keyed _ _ hcall)]
    split
    · next heq => rw [heq, hcall]; rfl
    · rfl

theorem Market.withoutStake_recordedStake {c position : Nat} {a : Address} {refund : Int}
    (hcall : m.calls c = some call) (hposition : call.HasPosition position) :
    (m.withoutStake call c a position refund).recordedStake callId staker =
      m.recordedStake callId staker -
        if c = callId ∧ a = staker then m.userStake (c, a, position) else 0 := by
  rw [recordedStake_change (fun id => ?_) rfl hcall hposition]
  · split <;> omega
  · rw [Market.withoutStake_calls a position refund (m.keyed _ _ hcall)]
    split
    · next heq => rw [heq, hcall]; rfl
    · rfl

end Recorded

/-- What a staker has been refunded on a call is covered by what was credited, and as long as no
refund has been claimed, so is the stake still recorded. -/
structure Market.RefundsCovered (callId : Nat) (staker : Address) (now : Nat) (credit paid : Int)
    (m : Market) : Prop where
  voidClaimed : m.voidRefundClaimed (callId, staker) = true →
    ∃ call, m.calls callId = some call ∧ call.voided = true
  expiredClaimed : m.expiredRefundClaimed (callId, staker) = true →
    ∃ call, m.calls callId = some call ∧ call.endTs ≤ now
  covered : paid ≤ credit
  outstanding : m.voidRefundClaimed (callId, staker) = false →
    m.expiredRefundClaimed (callId, staker) = false →
    paid + m.recordedStake callId staker ≤ credit

namespace Market.RefundsCovered

variable {m m' : Market} {callId : Nat} {staker : Address} {now later : Nat}
  {credit paid credit' paid' : Int}

theorem empty : Storage.empty.market.RefundsCovered callId staker now 0 0 := by
  constructor <;> simp [Storage.empty, Market.recordedStake]

theorem mono (h : m.RefundsCovered callId staker now credit paid) (hlater : now ≤ later) :
    m.RefundsCovered callId staker later credit paid := by
  refine ⟨h.voidClaimed, fun hclaimed => ?_, h.covered, h.outstanding⟩
  obtain ⟨call, hcall, hended⟩ := h.expiredClaimed hclaimed
  exact ⟨call, hcall, hended.trans hlater⟩

/-- Nobody has claimed the void refund of a call that is not voided. -/
theorem void_unclaimed (h : m.RefundsCovered callId staker now credit paid) {call : Call}
    (hcall : m.calls callId = some call) (hvoided : call.voided = false) :
    m.voidRefundClaimed (callId, staker) = false := by
  cases hclaimed : m.voidRefundClaimed (callId, staker) with
  | false => rfl
  | true =>
    obtain ⟨voided, hvoidedCall, hflag⟩ := h.voidClaimed hclaimed
    obtain rfl : voided = call := by simpa [hvoidedCall] using hcall
    simp [hvoided] at hflag

/-- Nobody has claimed the expired refund of a call that has not ended. -/
theorem expired_unclaimed (h : m.RefundsCovered callId staker now credit paid) {call : Call}
    (hcall : m.calls callId = some call) (hopen : now < call.endTs) :
    m.expiredRefundClaimed (callId, staker) = false := by
  cases hclaimed : m.expiredRefundClaimed (callId, staker) with
  | false => rfl
  | true =>
    obtain ⟨ended, hendedCall, hend⟩ := h.expiredClaimed hclaimed
    obtain rfl : ended = call := by simpa [hendedCall] using hcall
    omega

/-- A transition that claims nothing preserves the property when the two totals still cover. -/
theorem unclaimed (h : m.RefundsCovered callId staker now credit paid)
    (hkept : ∀ call, m.calls callId = some call →
      ∃ call', m'.calls callId = some call' ∧ call.SameDeal call')
    (hvoid : m'.voidRefundClaimed = m.voidRefundClaimed)
    (hexpired : m'.expiredRefundClaimed = m.expiredRefundClaimed) (hcovered : paid' ≤ credit')
    (houtstanding : paid + m.recordedStake callId staker ≤ credit →
      paid' + m'.recordedStake callId staker ≤ credit') :
    m'.RefundsCovered callId staker now credit' paid' := by
  refine ⟨?_, ?_, hcovered, ?_⟩
  · intro hclaimed
    obtain ⟨call, hcall, hvoided⟩ := h.voidClaimed (hvoid ▸ hclaimed)
    obtain ⟨call', hcall', hdeal⟩ := hkept call hcall
    exact ⟨call', hcall', hdeal.voided hvoided⟩
  · intro hclaimed
    obtain ⟨call, hcall, hended⟩ := h.expiredClaimed (hexpired ▸ hclaimed)
    obtain ⟨call', hcall', hdeal⟩ := hkept call hcall
    exact ⟨call', hcall', hdeal.endTs ▸ hended⟩
  · rw [hvoid, hexpired]
    exact fun hv he => houtstanding (h.outstanding hv he)

end Market.RefundsCovered

theorem Market.BooksAgree.created_recordedStake {m : Market} {retained : Nat → Nat → Int}
    (h : m.BooksAgree retained) (creator : Address) (args : CallInitArgs) (createdAt : Nat)
    (shareTokens : Map Nat Address) (callId : Nat) (staker : Address) :
    (m.withNewCall creator args createdAt shareTokens).recordedStake callId staker =
      m.recordedStake callId staker := by
  have hcalls := m.withNewCall_calls creator args createdAt shareTokens callId
  split at hcalls
  · next hid =>
    subst hid
    have hnone : m.recordedStake (m.callCounter + 1) staker = 0 := by
      simp only [Market.recordedStake, h.fresh]
    rw [Market.recordedStake_some hcalls, hnone]
    refine List.sum_eq_zero fun x hx => ?_
    obtain ⟨p, -, rfl⟩ := List.mem_map.mp hx
    exact (h.unopened _ h.fresh p).2 staker
  · simp only [Market.recordedStake, hcalls]
    rfl

section Steps

variable {env : Env} {config : Option ContractConfig} {op : MarketOp} {m m' : Market}
  {effects : List (Effect Event)} {callId : Nat} {staker : Address} {credit paid : Int}
  {retained : Nat → Nat → Int}

/-- A stake credits its staker with the amount it announces. -/
theorem creditedBy_stake {r : StakeRequest} (h : op.stakeRequest = some r) (call : Call)
    (amount : Int) :
    creditedBy callId staker ⟨env, op, .event (stakeAddedEvent call r amount) ::
      (mintEffects call r.callId r.staker r.position amount ++
        [.transfer call.stakeToken r.funder env.contract r.amount])⟩ =
      if r.callId = callId ∧ r.staker = staker then amount else 0 := by
  have hminted : effectTotal (Effect.onEvent (Event.credited callId staker))
      (mintEffects call r.callId r.staker r.position amount) = 0 := by
    unfold mintEffects
    split <;> simp [Effect.onEvent, Event.credited]
  have hadded : (stakeAddedEvent call r amount).credited callId staker =
      if r.callId = callId ∧ r.staker = staker then amount else 0 := by
    simp only [stakeAddedEvent, byToken]
    split <;> rfl
  simp [creditedBy, h, hminted, hadded, Effect.onEvent]

theorem refundedBy_stake {r : StakeRequest} (h : op.stakeRequest = some r) :
    refundedBy callId staker ⟨env, op, effects⟩ = 0 := by
  cases op <;> simp_all [refundedBy, MarketOp.stakeRequest, MarketOp.refundRequest,
    MarketOp.voidRefundRequest]

theorem creditedBy_refund {request : Address × Nat} (h : op.refundRequest = some request) :
    creditedBy callId staker ⟨env, op, effects⟩ = 0 := by
  cases op <;> simp_all [creditedBy, MarketOp.stakeRequest, MarketOp.refundRequest,
    MarketOp.voidRefundRequest]

theorem refundedBy_refund {a : Address} {c : Nat} (h : op.refundRequest = some (a, c))
    (event : Event) (token : Address) (amount : Int) :
    refundedBy callId staker
      ⟨env, op, [.event event, .transfer token env.contract a amount]⟩ =
      if c = callId ∧ a = staker then amount else 0 := by
  by_cases hmatch : c = callId ∧ a = staker
  · obtain ⟨rfl, rfl⟩ := hmatch
    simp [refundedBy, h, Effect.paidTo]
  · have hother : op.refundRequest ≠ some (staker, callId) := by
      rw [h]
      simpa [and_comm] using hmatch
    rw [refundedBy, if_neg hother, if_neg hmatch]

theorem MarketOp.refund_of_void {request : Address × Nat}
    (h : op.voidRefundRequest = some request) : op.refundRequest = some request := by
  cases op <;> simp_all [MarketOp.voidRefundRequest, MarketOp.refundRequest]

/-- The step of the invariant: a transition keeps the refunds covered when it does not refund a
voided call to somebody who has had the refund of the expired one. -/
theorem MarketStep.refunds_covered (hstep : MarketStep env config op m effects m')
    (hbooks : m.BooksAgree retained) (hvalid : ∀ id call, m.calls id = some call → call.Valid)
    (honce : ∀ a c, op.voidRefundRequest = some (a, c) → m.expiredRefundClaimed (c, a) = false)
    (h : m.RefundsCovered callId staker env.timestamp credit paid) :
    m'.RefundsCovered callId staker env.timestamp
      (creditedBy callId staker ⟨env, op, effects⟩ + credit)
      (refundedBy callId staker ⟨env, op, effects⟩ + paid) := by
  have hkept : ∀ call, m.calls callId = some call →
      ∃ call', m'.calls callId = some call' ∧ call.SameDeal call' :=
    fun call => hstep.call_kept hbooks
  have hcovered := h.covered
  have hrecorded : 0 ≤ m.recordedStake callId staker := Market.recordedStake_nonneg hbooks.nonneg
  have hsame := hstep.same_books
  cases hstep with
  | created =>
    refine h.unclaimed hkept rfl rfl ?_ fun houtstanding => ?_
    · simpa [creditedBy, refundedBy, MarketOp.stakeRequest, MarketOp.refundRequest,
        MarketOp.voidRefundRequest] using hcovered
    · rw [hbooks.created_recordedStake]
      simpa [creditedBy, refundedBy, MarketOp.stakeRequest, MarketOp.refundRequest,
        MarketOp.voidRefundRequest] using houtstanding
  | staked hr _ hcall _ hposition hcredited =>
    rw [creditedBy_stake hr, refundedBy_stake hr]
    refine h.unclaimed hkept rfl rfl ?_ fun houtstanding => ?_
    · split <;> omega
    · rw [hbooks.staked_recordedStake hcall hposition]
      omega
  | @withdrawn a c position call _ refund penalty _ hcall hopen hposition hstake hpenalty
      hrefund =>
    rw [creditedBy_refund rfl, refundedBy_refund rfl, zero_add]
    have hbounds := earlyExitPenalty_bounds hstake
    by_cases hmatch : c = callId ∧ a = staker
    · obtain ⟨rfl, rfl⟩ := hmatch
      have houtstanding := h.outstanding (h.void_unclaimed hcall hopen.notVoided)
        (h.expired_unclaimed hcall hopen.notEnded)
      have hleft : (m.withoutStake call c a position refund).recordedStake c a =
          m.recordedStake c a - m.userStake (c, a, position) := by
        rw [Market.withoutStake_recordedStake hcall hposition, if_pos ⟨rfl, rfl⟩]
      have hleft_nonneg : 0 ≤ m.recordedStake c a - m.userStake (c, a, position) := by
        rw [← hleft]
        refine Market.recordedStake_nonneg fun key => ?_
        rw [Market.withoutStake_userStake]
        split
        · exact le_rfl
        · exact hbooks.nonneg key
      rw [if_pos ⟨rfl, rfl⟩]
      refine h.unclaimed hkept rfl rfl ?_ fun _ => ?_ <;> omega
    · rw [if_neg hmatch, zero_add]
      refine h.unclaimed hkept rfl rfl hcovered fun houtstanding => ?_
      rw [Market.withoutStake_recordedStake hcall hposition, if_neg hmatch, sub_zero]
      exact houtstanding
  | @voidRefunded _ a c call _ refund hr _ hcall hvoided hunclaimed hrefund hpositive =>
    rw [creditedBy_refund (op.refund_of_void hr), refundedBy_refund (op.refund_of_void hr),
      zero_add]
    by_cases hmatch : c = callId ∧ a = staker
    · obtain ⟨rfl, rfl⟩ := hmatch
      have houtstanding := h.outstanding hunclaimed (honce a c hr)
      have hfirst := first_two_le_sum (hvalid c call hcall).outcomeCount
        fun p => hbooks.nonneg (c, a, p)
      rw [Market.recordedStake_some hcall] at houtstanding
      rw [if_pos ⟨rfl, rfl⟩]
      refine ⟨fun _ => ⟨call, hcall, hvoided⟩, h.expiredClaimed, by omega, fun hflag => ?_⟩
      simp [Market.setVoidRefundClaimed] at hflag
    · rw [if_neg hmatch, zero_add]
      have hflag : (m.setVoidRefundClaimed c a).voidRefundClaimed (callId, staker) =
          m.voidRefundClaimed (callId, staker) :=
        Function.update_of_ne (fun heq => hmatch (by simp_all)) ..
      refine ⟨?_, h.expiredClaimed, hcovered, ?_⟩
      · rw [hflag]
        exact h.voidClaimed
      · rw [hflag]
        exact h.outstanding
  | @expiredRefunded a c call _ _ refund _ _ hcall hended _ hvoided hunclaimed hrefund
      hpositive =>
    rw [creditedBy_refund rfl, refundedBy_refund rfl, zero_add]
    by_cases hmatch : c = callId ∧ a = staker
    · obtain ⟨rfl, rfl⟩ := hmatch
      have houtstanding := h.outstanding (h.void_unclaimed hcall hvoided) hunclaimed
      rw [Market.recordedStake_some hcall, ← hrefund] at houtstanding
      rw [if_pos ⟨rfl, rfl⟩]
      refine ⟨h.voidClaimed, fun _ => ⟨call, hcall, by omega⟩, by omega, fun _ hflag => ?_⟩
      simp [Market.setExpiredRefundClaimed] at hflag
    · rw [if_neg hmatch, zero_add]
      have hflag : (m.setExpiredRefundClaimed c a).expiredRefundClaimed (callId, staker) =
          m.expiredRefundClaimed (callId, staker) :=
        Function.update_of_ne (fun heq => hmatch (by simp_all)) ..
      refine ⟨h.voidClaimed, ?_, hcovered, ?_⟩
      · rw [hflag]
        exact h.expiredClaimed
      · rw [hflag]
        exact h.outstanding
  | _ =>
    refine h.unclaimed hkept rfl rfl ?_ fun houtstanding => ?_
    · simpa [creditedBy, refundedBy, MarketOp.stakeRequest, MarketOp.refundRequest,
        MarketOp.voidRefundRequest] using hcovered
    · rw [(hsame rfl).recordedStake]
      simpa [creditedBy, refundedBy, MarketOp.stakeRequest, MarketOp.refundRequest,
        MarketOp.voidRefundRequest] using houtstanding

end Steps

section Run

variable {T : Type} [Tokens T] [Crypto] {self : Address} {outside : T → T → Prop}
  {history : List Label} {w : World T}

/-- As long as nobody claims both refunds of a call, no staker is paid back more than was
credited. -/
theorem refunded_le_credited (run : (registry self outside).RunWhere refundsOnce history w)
    (callId : Nat) (staker : Address) :
    refunded (marketHistory history) callId staker ≤
      credited (marketHistory history) callId staker := by
  refine (market_invariant_at (I := fun now h m => m.RefundsCovered callId staker now
    (credited h callId staker) (refunded h callId staker)) (fun _ => .empty)
    (fun _ _ _ _ hlater h => h.mono hlater) ?_ run).covered
  intro h w r m' hrun hdue _ ih hstep
  have honce : ∀ a c, r.op.voidRefundRequest = some (a, c) →
      w.store.market.expiredRefundClaimed (c, a) = false := by
    intro a c hrequest
    simpa [refundsOnce, refundDue, MarketReceipt.label, Label.onMarket, hrequest,
      Storage.isExpiredRefundClaimed] using hdue
  exact hstep.refunds_covered (books_agree hrun) (calls_valid hrun) honce ih

end Run

section Scenario

attribute [local instance] noCrypto

/-- Alice stakes a thousand and claims it when the call has expired. -/
def expiryScript : List (Env × Action) :=
  openingScript ++
    [at_ 10 [alice] (.market (.stakeOnCall alice 1 1000 1)),
      at_ 11 [bob] (.market (.stakeOnCall bob 1 3000 2)),
      at_ 605801 [alice] (.market (.claimExpiredRefund alice 1))]

/-- The admin voids the expired call, and Alice claims again. -/
def doubleRefundScript : List (Env × Action) :=
  expiryScript ++
    [at_ 605802 [adminAddress] (.market (.voidCall 1)),
      at_ 605803 [alice] (.market (.claimVoidRefund alice 1))]

def expiryRun : Replayed (T := StandardLedger) home fun _ => refundDue :=
  .of freshWorld fresh_world_empty expiryScript (by decide +kernel)

def doubleRefundRun : Replayed (T := StandardLedger) home anything :=
  .of freshWorld fresh_world_empty doubleRefundScript (by decide +kernel)

/-- Alice has had her whole stake back. -/
theorem refunded_le_credited_after_expiry : refunded (marketHistory expiryRun.history) 1 alice ≤
        credited (marketHistory expiryRun.history) 1 alice ∧
      refunded (marketHistory expiryRun.history) 1 alice = 1000 :=
  have run : (registry home fun _ _ => False).RunWhere refundsOnce expiryRun.history
      expiryRun.world := expiryRun.run fun _ _ _ h => h
  ⟨refunded_le_credited run 1 alice, by decide +kernel⟩

/-- Alice has had her stake back twice. -/
theorem refunded_exceeds_credited :
    (registry home fun _ _ => False).Run doubleRefundRun.history doubleRefundRun.world ∧
      credited (marketHistory doubleRefundRun.history) 1 alice = 1000 ∧
      refunded (marketHistory doubleRefundRun.history) 1 alice = 2000 :=
  ⟨doubleRefundRun.run anything_allowed, by decide +kernel, by decide +kernel⟩

end Scenario

end Backit.CallRegistry
