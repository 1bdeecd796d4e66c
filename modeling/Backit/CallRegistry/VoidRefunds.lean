import Backit.CallRegistry.Refunds

/-!
# Refunds of voided calls

A voided call refunds each staker once. The refund reads the staker's records on the first two
positions, whatever the number of outcomes, so it is the recorded stake exactly when nobody holds a
stake beyond them.
-/

namespace Backit.CallRegistry

open Soroban Contract Lib

/-- The stakes that the refund of a voided call reads. -/
def Market.refundOf (m : Market) (callId : Nat) (staker : Address) : Int :=
  m.userStake (callId, staker, 1) + m.userStake (callId, staker, 2)

/-- The effects of paying the refund of a voided call. -/
def voidRefundEffects (env : Env) (call : Call) (callId : Nat) (staker : Address) (refund : Int) :
    List (Effect Event) :=
  [.event (byToken call.stakeToken (.xlmVoidRefundClaimed callId staker refund)
      (.voidRefundClaimed callId staker refund)),
    .transfer call.stakeToken env.contract staker refund]

/-- A refund that is left to the stake token: it pays the amount and records the claim, or fails
with the transfer. -/
def refundResult {T : Type} [Tokens T] (env : Env) (f : Frame Storage T Event) (call : Call)
    (callId : Nat) (staker : Address) (amount : Int) :
    Except (Failure CallRegistryError) (Unit × Frame Storage T Event) :=
  match Tokens.transfer env call.stakeToken env.contract staker amount f.tokens with
  | some tokens => .ok ((), ⟨f.store.onMarket (·.setVoidRefundClaimed callId staker), tokens,
      voidRefundEffects env call callId staker amount ++ f.effects⟩)
  | none => .error .external

section Claim

variable {T : Type} [Tokens T] {env : Env} {f : Frame Storage T Event} {staker : Address}
  {callId : Nat} {call : Call} {a b : Int}

/-- What a claim of a staker does who has not claimed yet. -/
theorem run_claimVoidRefund (hauth : staker ∈ env.auths)
    (hcall : f.store.getCall callId = some call) (hvoided : call.voided = true)
    (hunclaimed : f.store.isVoidRefundClaimed callId staker = false) :
    run (claimVoidRefund staker callId) env f =
      if InI128 (f.store.market.refundOf callId staker) then
        if f.store.market.refundOf callId staker ≤ 0 then .error (.panic "No stake to refund")
        else refundResult env f call callId staker (f.store.market.refundOf callId staker)
      else .error .arithmetic := by
  have hstored : f.store.getUserStake callId staker 1 + f.store.getUserStake callId staker 2 =
      f.store.market.refundOf callId staker := rfl
  rw [claimVoidRefund, run_requireAuth_of hauth, expectCall, Contract.bind_assoc,
    run_getStore_bind, hcall, run_unwrap_some, run_rejectIf_of (by simp [hvoided]),
    run_getStore_bind, run_rejectIf_of (by simp [hunclaimed])]
  dsimp only
  rw [hstored]
  split
  · next hrange =>
    rw [run_i128_of hrange]
    split
    · next hnone => rw [run_rejectIf_error hnone]
    · next hsome =>
      rw [run_rejectIf_of hsome, run_modifyStore_bind, run_env_bind, transfer_token_eq,
        refundResult]
      simp only [run, bind, tokenTransfer]
      cases Tokens.transfer env call.stakeToken env.contract staker
        (f.store.market.refundOf callId staker) f.tokens <;> rfl
  · next hrange => rw [run_i128_error hrange]

theorem run_claimVoidRefund_again (hclaimed : f.store.isVoidRefundClaimed callId staker = true)
    (f' : Frame Storage T Event) : run (claimVoidRefund staker callId) env f ≠ .ok ((), f') := by
  intro h
  simp only [claimVoidRefund, run_steps, run_expectCall_bind] at h
  exact h.2.choose_spec.2.2.1 hclaimed

theorem refundResult_injective {tokens : T}
    (hpays : Tokens.transfer env call.stakeToken env.contract staker a f.tokens = some tokens)
    (h : refundResult env f call callId staker a = refundResult env f call callId staker b) :
    a = b := by
  simp only [refundResult, hpays] at h
  split at h
  · simp only [Except.ok.injEq, Prod.mk.injEq, Frame.mk.injEq, voidRefundEffects,
      List.cons_append, List.cons.injEq, Effect.transfer.injEq] at h
    exact h.2.2.2.2.1.2.2.2
  · cases h

end Claim

/-- What an operation paid to a staker as the refund of a voided call. -/
def voidRefundedBy (callId : Nat) (staker : Address) (r : MarketReceipt) : Int :=
  if r.op.voidRefundRequest = some (staker, callId) then
    effectTotal (Effect.paidTo staker) r.effects
  else 0

/-- What an operation paid out in refunds of a voided call. -/
def voidPaidBy (callId : Nat) (r : MarketReceipt) : Int :=
  match r.op.voidRefundRequest with
  | some (staker, _) => voidRefundedBy callId staker r
  | none => 0

def voidRefunded (history : List MarketReceipt) (callId : Nat) (staker : Address) : Int :=
  tally (voidRefundedBy callId staker) history

def voidPaidOut (history : List MarketReceipt) (callId : Nat) : Int :=
  tally (voidPaidBy callId) history

/-- What the claims of a staker have taken out: nothing, or the refund. -/
def Market.refundTaken (m : Market) (callId : Nat) (staker : Address) : Int :=
  if m.voidRefundClaimed (callId, staker) then m.refundOf callId staker else 0

/-- The refunds of a call agree with the records of who has claimed one. -/
structure Market.VoidRefundsPaid (callId : Nat) (history : List MarketReceipt) (m : Market) :
    Prop where
  voided : ∀ a, m.voidRefundClaimed (callId, a) = true →
    ∃ call, m.calls callId = some call ∧ call.voided = true
  positive : ∀ a, m.voidRefundClaimed (callId, a) = true → 0 < m.refundOf callId a
  paid : ∀ a, voidRefunded history callId a = m.refundTaken callId a
  total : voidPaidOut history callId =
    ((m.callStakers callId).items.map (m.refundTaken callId)).sum

namespace Market.VoidRefundsPaid

variable {m m' : Market} {callId : Nat} {history : List MarketReceipt} {r : MarketReceipt}

theorem empty : Storage.empty.market.VoidRefundsPaid callId [] := by
  constructor <;>
    simp [Storage.empty, voidRefunded, voidPaidOut, Market.refundTaken]

theorem unclaimed (h : m.VoidRefundsPaid callId history)
    (hopen : ∀ call, m.calls callId = some call → call.voided = false) (a : Address) :
    m.voidRefundClaimed (callId, a) = false := by
  cases hclaimed : m.voidRefundClaimed (callId, a) with
  | false => rfl
  | true =>
    obtain ⟨call, hcall, hvoided⟩ := h.voided a hclaimed
    simp [hopen call hcall] at hvoided

/-- An operation that refunds nothing on a call nobody has claimed on. -/
theorem untouched (h : m.VoidRefundsPaid callId history)
    (hunclaimed : ∀ a, m.voidRefundClaimed (callId, a) = false)
    (hclaimed : m'.voidRefundClaimed = m.voidRefundClaimed) (hop : r.op.voidRefundRequest = none) :
    m'.VoidRefundsPaid callId (r :: history) := by
  have hnone : ∀ a, m'.voidRefundClaimed (callId, a) = false := by
    rw [hclaimed]
    exact hunclaimed
  have htaken : m.refundTaken callId = fun _ => 0 := funext fun a => by
    simp [Market.refundTaken, hunclaimed a]
  have htaken' : m'.refundTaken callId = fun _ => 0 := funext fun a => by
    simp [Market.refundTaken, hnone a]
  refine ⟨fun a ha => ?_, fun a ha => ?_, fun a => ?_, ?_⟩
  · simp [hnone a] at ha
  · simp [hnone a] at ha
  · rw [voidRefunded, tally_cons, ← voidRefunded, h.paid, htaken, htaken']
    simp [voidRefundedBy, hop]
  · rw [voidPaidOut, tally_cons, ← voidPaidOut, h.total, htaken, htaken']
    simp [voidPaidBy, hop]

/-- An operation that refunds nothing and moves no stake. -/
theorem kept (h : m.VoidRefundsPaid callId history) (hkept : ∀ call, m.calls callId = some call →
      ∃ call', m'.calls callId = some call' ∧ call.SameDeal call')
    (hclaimed : m'.voidRefundClaimed = m.voidRefundClaimed)
    (hstake : ∀ a p, m'.userStake (callId, a, p) = m.userStake (callId, a, p))
    (hstakers : m'.callStakers callId = m.callStakers callId)
    (hop : r.op.voidRefundRequest = none) : m'.VoidRefundsPaid callId (r :: history) := by
  have hrefund : ∀ a, m'.refundOf callId a = m.refundOf callId a := fun a => by
    simp only [Market.refundOf, hstake]
  have htaken : m'.refundTaken callId = m.refundTaken callId := by
    funext a
    rw [Market.refundTaken, Market.refundTaken, hclaimed, hrefund]
  refine ⟨fun a ha => ?_, fun a ha => ?_, fun a => ?_, ?_⟩
  · obtain ⟨call, hcall, hvoided⟩ := h.voided a (hclaimed ▸ ha)
    obtain ⟨call', hcall', hdeal⟩ := hkept call hcall
    exact ⟨call', hcall', hdeal.voided hvoided⟩
  · rw [hrefund]
    exact h.positive a (hclaimed ▸ ha)
  · rw [voidRefunded, tally_cons, ← voidRefunded, h.paid, htaken]
    simp [voidRefundedBy, hop]
  · rw [voidPaidOut, tally_cons, ← voidPaidOut, h.total, htaken, hstakers]
    simp [voidPaidBy, hop]

end Market.VoidRefundsPaid

section Steps

variable {env : Env} {config : Option ContractConfig} {op : MarketOp} {m m' : Market}
  {effects : List (Effect Event)} {callId : Nat} {history : List MarketReceipt}
  {retained : Nat → Nat → Int}

theorem no_void_refund_of_stake {r : StakeRequest} (h : op.stakeRequest = some r) :
    op.voidRefundRequest = none := by
  cases op <;> simp_all [MarketOp.stakeRequest, MarketOp.voidRefundRequest]

theorem voidRefundedBy_refund {a : Address} {c : Nat} (h : op.voidRefundRequest = some (a, c))
    (staker : Address) (event : Event) (token : Address) (amount : Int) :
    voidRefundedBy callId staker
      ⟨env, op, [.event event, .transfer token env.contract a amount]⟩ =
      if c = callId ∧ a = staker then amount else 0 := by
  by_cases hmatch : c = callId ∧ a = staker
  · obtain ⟨rfl, rfl⟩ := hmatch
    simp [voidRefundedBy, h, Effect.paidTo]
  · have hother : op.voidRefundRequest ≠ some (staker, callId) := by
      rw [h]
      simpa [and_comm] using hmatch
    rw [voidRefundedBy, if_neg hother, if_neg hmatch]

theorem Market.setVoidRefundClaimed_apply (c : Nat) (a : Address) (key : Nat × Address) :
    (m.setVoidRefundClaimed c a).voidRefundClaimed key =
      if key = (c, a) then true else m.voidRefundClaimed key :=
  Function.update_apply ..

/-- A claim on the call takes the refund of its claimant, and of nobody else. -/
theorem Market.refundTaken_claim {a : Address}
    (hunclaimed : m.voidRefundClaimed (callId, a) = false) (staker : Address) :
    (m.setVoidRefundClaimed callId a).refundTaken callId staker =
      m.refundTaken callId staker + if a = staker then m.refundOf callId a else 0 := by
  by_cases ha : staker = a
  · subst ha
    simp [Market.refundTaken, Market.refundOf, Market.setVoidRefundClaimed, hunclaimed]
  · have hflag : (m.setVoidRefundClaimed callId a).voidRefundClaimed (callId, staker) =
        m.voidRefundClaimed (callId, staker) :=
      Function.update_of_ne (by simp [ha]) ..
    rw [Market.refundTaken, hflag, if_neg (Ne.symm ha), add_zero]
    rfl

/-- A claim on another call takes nothing out of this one. -/
theorem Market.refundTaken_other {a : Address} {c : Nat} (hc : c ≠ callId) :
    (m.setVoidRefundClaimed c a).refundTaken callId = m.refundTaken callId := by
  funext staker
  have hflag : (m.setVoidRefundClaimed c a).voidRefundClaimed (callId, staker) =
      m.voidRefundClaimed (callId, staker) := by
    rw [Market.setVoidRefundClaimed_apply, if_neg (by simp [Ne.symm hc])]
  rw [Market.refundTaken, hflag]
  rfl

theorem Market.VoidRefundsPaid.claimed {a : Address} {c : Nat} {call : Call} {event : Event}
    {token : Address} (hbooks : m.BooksAgree retained) (h : m.VoidRefundsPaid callId history)
    (hop : op.voidRefundRequest = some (a, c)) (hcall : m.calls c = some call)
    (hvoided : call.voided = true) (hunclaimed : m.voidRefundClaimed (c, a) = false)
    (hpositive : 0 < m.refundOf c a) :
    (m.setVoidRefundClaimed c a).VoidRefundsPaid callId
      (⟨env, op, [.event event, .transfer token env.contract a (m.refundOf c a)]⟩ :: history) := by
  have hpays : ∀ staker, voidRefundedBy callId staker
      ⟨env, op, [.event event, .transfer token env.contract a (m.refundOf c a)]⟩ =
      if c = callId ∧ a = staker then m.refundOf c a else 0 :=
    fun staker => voidRefundedBy_refund hop staker event token _
  by_cases hc : c = callId
  · subst hc
    have hmem : a ∈ (m.callStakers c).items := by
      obtain hfirst | hsecond : m.userStake (c, a, 1) ≠ 0 ∨ m.userStake (c, a, 2) ≠ 0 := by
        unfold Market.refundOf at hpositive
        omega
      · exact (hbooks.indexed _ _ _ hfirst).1
      · exact (hbooks.indexed _ _ _ hsecond).1
    have hclaims : ∀ b, (m.setVoidRefundClaimed c a).voidRefundClaimed (c, b) = true →
        b = a ∨ m.voidRefundClaimed (c, b) = true := by
      intro b hb
      by_cases hab : b = a
      · exact .inl hab
      · rw [Market.setVoidRefundClaimed_apply, if_neg (by simp [hab])] at hb
        exact .inr hb
    refine ⟨fun b _ => ⟨call, hcall, hvoided⟩, fun b hb => ?_, fun staker => ?_, ?_⟩
    · obtain rfl | hb := hclaims b hb
      · exact hpositive
      · exact h.positive b hb
    · rw [voidRefunded, tally_cons, ← voidRefunded, h.paid, hpays,
        Market.refundTaken_claim hunclaimed]
      simp [add_comm]
    · have hpaid : voidPaidBy c ⟨env, op,
          [.event event, .transfer token env.contract a (m.refundOf c a)]⟩ = m.refundOf c a := by
        simp [voidPaidBy, hop, hpays]
      have htaken : m.refundTaken c a = 0 := by simp [Market.refundTaken, hunclaimed]
      rw [voidPaidOut, tally_cons, ← voidPaidOut, h.total, hpaid]
      show _ = ((m.callStakers c).items.map ((m.setVoidRefundClaimed c a).refundTaken c)).sum
      rw [sum_map_change (m.callStakers c).nodup hmem (f := m.refundTaken c)
          (g := (m.setVoidRefundClaimed c a).refundTaken c) fun b _ hb => ?_]
      · rw [Market.refundTaken_claim hunclaimed, if_pos rfl]
        omega
      · rw [Market.refundTaken_claim hunclaimed, if_neg (Ne.symm hb), add_zero]
  · have hnothing : ∀ staker, voidRefundedBy callId staker ⟨env, op,
        [.event event, .transfer token env.contract a (m.refundOf c a)]⟩ = 0 := fun staker => by
      rw [hpays, if_neg fun hmatch => hc hmatch.1]
    have hflag : ∀ b, (m.setVoidRefundClaimed c a).voidRefundClaimed (callId, b) =
        m.voidRefundClaimed (callId, b) := fun b => by
      rw [Market.setVoidRefundClaimed_apply, if_neg (by simp [Ne.symm hc])]
    refine ⟨fun b hb => h.voided b (hflag b ▸ hb), fun b hb => h.positive b (hflag b ▸ hb),
      fun staker => ?_, ?_⟩
    · rw [voidRefunded, tally_cons, ← voidRefunded, h.paid, hnothing, zero_add,
        Market.refundTaken_other hc]
    · rw [voidPaidOut, tally_cons, ← voidPaidOut, h.total, Market.refundTaken_other hc]
      simp only [voidPaidBy, hop, hnothing, zero_add]
      rfl

theorem MarketStep.void_refunds_paid (hstep : MarketStep env config op m effects m')
    (hbooks : m.BooksAgree retained) (h : m.VoidRefundsPaid callId history) :
    m'.VoidRefundsPaid callId (⟨env, op, effects⟩ :: history) := by
  have hkept : ∀ call, m.calls callId = some call →
      ∃ call', m'.calls callId = some call' ∧ call.SameDeal call' :=
    fun call => hstep.call_kept hbooks
  have hsame := hstep.same_books
  cases hstep with
  | voidRefunded hop _ hcall hvoided hunclaimed hrefund hpositive =>
    subst hrefund
    exact h.claimed hbooks hop hcall hvoided hunclaimed hpositive
  | @created creator args tokens => exact h.kept hkept rfl (fun _ _ => rfl) rfl rfl
  | @staked _ r call credited _ hr _ hcall hopen =>
    by_cases hid : r.callId = callId
    · refine h.untouched (h.unclaimed fun c hc => ?_) rfl (no_void_refund_of_stake hr)
      obtain rfl : call = c := by simpa [hid, hc] using hcall.symm
      exact hopen.notVoided
    · refine h.kept hkept rfl (fun a p => ?_) ?_ (no_void_refund_of_stake hr)
      · rw [m.withStake_userStake, if_neg (by simp [Ne.symm hid])]
      · rw [m.withStake_callStakers, if_neg (Ne.symm hid)]
  | @withdrawn staker c position call _ refund penalty _ hcall hopen =>
    by_cases hid : c = callId
    · refine h.untouched (h.unclaimed fun c' hc' => ?_) rfl rfl
      obtain rfl : call = c' := by simpa [hid, hc'] using hcall.symm
      exact hopen.notVoided
    · refine h.kept hkept rfl (fun a p => ?_) rfl rfl
      rw [m.withoutStake_userStake, if_neg (by simp [Ne.symm hid])]
  | _ =>
    have hbooks' := hsame rfl
    exact h.kept hkept rfl (fun a p => by rw [hbooks'.userStake])
      (by rw [hbooks'.callStakers]) rfl

end Steps

/-- The refunds of a voided call are exact: a staker with a recorded stake who has not claimed yet
is refused by nothing but the stake token and gets the whole recorded stake, nobody claims twice,
every claim has paid the recorded stake, and when everybody with a recorded stake has claimed, the
registry has paid out the recorded stakes of the call. -/
structure ExactRefunds (T : Type) [Tokens T] [Crypto] (contract : Address) (callId : Nat)
    (call : Call) (history : List MarketReceipt) (s : Storage) : Prop where
  claimable : ∀ staker, s.isVoidRefundClaimed callId staker = false →
    0 < s.market.recordedStake callId staker →
    ∀ op : MarketOp, op.voidRefundRequest = some (staker, callId) →
      ∀ (env : Env) (tokens : T), env.contract = contract → staker ∈ env.auths →
        run op.perform env ⟨s, tokens, []⟩ =
          refundResult env ⟨s, tokens, []⟩ call callId staker
            (s.market.recordedStake callId staker)
  once : ∀ staker, s.isVoidRefundClaimed callId staker = true →
    ∀ op : MarketOp, op.voidRefundRequest = some (staker, callId) →
      ∀ (env : Env) (tokens : T) (f : Frame Storage T Event),
        run op.perform env ⟨s, tokens, []⟩ ≠ .ok ((), f)
  paid : ∀ staker, voidRefunded history callId staker =
    if s.isVoidRefundClaimed callId staker then s.market.recordedStake callId staker else 0
  total : (∀ staker, 0 < s.market.recordedStake callId staker →
      s.isVoidRefundClaimed callId staker = true) →
    voidPaidOut history callId =
      ((s.market.callStakers callId).items.map (s.market.recordedStake callId)).sum

/-- The stake token can pay any positive amount from the contract to anybody, in some state. -/
def CanPay (T : Type) [Tokens T] (self token : Address) : Prop :=
  ∀ (recipient : Address) (amount : Int), 0 < amount → InI128 amount →
    ∃ (env : Env) (tokens : T), env.contract = self ∧ recipient ∈ env.auths ∧
      (Tokens.transfer env token self recipient amount tokens).isSome = true

theorem perform_void_refund {T : Type} [Tokens T] [Crypto] {op : MarketOp} {staker : Address}
    {callId : Nat} (h : op.voidRefundRequest = some (staker, callId)) :
    op.perform (T := T) = claimVoidRefund staker callId := by
  cases op <;> simp only [MarketOp.voidRefundRequest, Option.some.injEq, Prod.mk.injEq,
    reduceCtorEq] at h
  all_goals
    obtain ⟨rfl, rfl⟩ := h
    rfl

/-- The recorded stake is what the refund reads and the stakes on the later positions. -/
theorem recordedStake_eq_refundOf_add {m : Market} {callId : Nat} {call : Call} {staker : Address}
    (hcall : m.calls callId = some call) (hcount : 2 ≤ call.outcomeCount) :
    m.recordedStake callId staker = m.refundOf callId staker +
      ((List.range' 3 (call.outcomeCount - 2)).map fun p => m.userStake (callId, staker, p)).sum := by
  rw [Market.recordedStake_some hcall]
  obtain ⟨k, hk⟩ : ∃ k, call.outcomeCount = k + 2 := ⟨call.outcomeCount - 2, by omega⟩
  rw [hk]
  show m.userStake (callId, staker, 1) + (m.userStake (callId, staker, 2) +
    ((List.range' 3 k).map fun p => m.userStake (callId, staker, p)).sum) = _
  rw [Market.refundOf, ← add_assoc]
  rfl

/-- Only the stake token makes a refund fail that is left to it. -/
theorem refundResult_error {T : Type} [Tokens T] {env : Env} {f : Frame Storage T Event}
    {call : Call} {callId : Nat} {staker : Address} {amount : Int} {e : Failure CallRegistryError}
    (h : refundResult env f call callId staker amount = .error e) : e = .external := by
  unfold refundResult at h
  split at h
  · cases h
  · cases h
    rfl

/-- A claim that is left to the stake token with an amount reads that amount, and it is in range. -/
theorem refund_of_claim {T : Type} [Tokens T] {self : Address} {s : Storage} {callId : Nat}
    {call : Call} {staker : Address} {amount : Int} (hcall : s.getCall callId = some call)
    (hvoided : call.voided = true) (hunclaimed : s.isVoidRefundClaimed callId staker = false)
    (hpay : CanPay T self call.stakeToken)
    (hclaim : ∀ (env : Env) (tokens : T), env.contract = self → staker ∈ env.auths →
      run (claimVoidRefund staker callId) env ⟨s, tokens, []⟩ =
        refundResult env ⟨s, tokens, []⟩ call callId staker amount) :
    s.market.refundOf callId staker = amount ∧ InI128 amount := by
  have hreads : InI128 (s.market.refundOf callId staker) ∧
      ¬ s.market.refundOf callId staker ≤ 0 := by
    obtain ⟨env, tokens, hself, hauth, -⟩ := hpay staker 1 (by decide) (by decide)
    have hresult := hclaim env tokens hself hauth
    rw [run_claimVoidRefund hauth hcall hvoided hunclaimed] at hresult
    split at hresult
    · next hrange =>
      split at hresult
      · cases refundResult_error hresult.symm
      · next hpositive => exact ⟨hrange, hpositive⟩
    · cases refundResult_error hresult.symm
  obtain ⟨hrange, hpositive⟩ := hreads
  obtain ⟨env, tokens, rfl, hauth, htransfer⟩ := hpay staker _ (lt_of_not_ge hpositive) hrange
  have hresult := hclaim env tokens rfl hauth
  rw [run_claimVoidRefund hauth hcall hvoided hunclaimed, if_pos hrange, if_neg hpositive]
    at hresult
  obtain ⟨paid, hpaid⟩ := Option.isSome_iff_exists.mp htransfer
  have heq := refundResult_injective hpaid hresult
  exact ⟨heq, heq ▸ hrange⟩

section Run

variable {T : Type} [Tokens T] [Crypto] {self : Address} {outside : T → T → Prop}
  {guard : System.Guard (World T) Label} {history : List Label} {w : World T} {callId : Nat}
  {call : Call}

theorem void_refunds_paid (run : (registry self outside).RunWhere guard history w) :
    w.store.market.VoidRefundsPaid callId (marketHistory history) := by
  refine market_invariant (I := fun h m => m.VoidRefundsPaid callId h) .empty ?_ run
  intro h w r m' hrun _ ih hstep
  exact hstep.void_refunds_paid (books_agree hrun) ih

/-- The refunds of a voided call are exact when nobody holds a stake beyond the second position and
the two stakes of everybody who has not claimed add up in range. -/
theorem refunds_exact (run : (registry self outside).RunWhere guard history w)
    (hcall : w.store.getCall callId = some call) (hvoided : call.voided = true)
    (htwo : ∀ staker position, call.HasPosition position → 2 < position →
      w.store.getUserStake callId staker position = 0)
    (hrange : ∀ staker, w.store.isVoidRefundClaimed callId staker = false →
      InI128 (w.store.market.recordedStake callId staker)) :
    ExactRefunds T self callId call (marketHistory history) w.store := by
  have hpaid : w.store.market.VoidRefundsPaid callId (marketHistory history) :=
    void_refunds_paid run
  have hcount := (calls_valid run callId call hcall).outcomeCount
  have hrecorded : ∀ staker, w.store.market.refundOf callId staker =
      w.store.market.recordedStake callId staker := by
    intro staker
    rw [recordedStake_eq_refundOf_add hcall hcount, List.sum_eq_zero, add_zero]
    intro x hx
    obtain ⟨p, hp, rfl⟩ := List.mem_map.mp hx
    rw [List.mem_range'_1] at hp
    exact htwo staker p ⟨by omega, by omega⟩ (by omega)
  constructor
  · intro staker hunclaimed hpositive op hop env tokens _ hauth
    rw [perform_void_refund hop, run_claimVoidRefund hauth hcall hvoided hunclaimed, hrecorded,
      if_pos (hrange staker hunclaimed), if_neg hpositive.not_ge]
  · intro staker hclaimed op hop env tokens f
    rw [perform_void_refund hop]
    exact run_claimVoidRefund_again hclaimed f
  · intro staker
    rw [hpaid.paid, Market.refundTaken, hrecorded]
    rfl
  · intro hall
    rw [hpaid.total]
    refine sum_map_congr fun staker _ => ?_
    rw [Market.refundTaken, hrecorded]
    split
    · rfl
    · next hunclaimed =>
      have hnone : ¬ 0 < w.store.market.recordedStake callId staker := fun hpositive =>
        hunclaimed (hall staker hpositive)
      have hnonneg : 0 ≤ w.store.market.recordedStake callId staker :=
        Market.recordedStake_nonneg (books_agree run).nonneg
      omega

/-- The refunds of a voided call are exact if and only if nobody holds a stake beyond the second
position and the recorded stake of everybody who has not claimed is in range. -/
theorem refunds_exact_iff (run : (registry self outside).Run history w)
    (hcall : w.store.getCall callId = some call) (hvoided : call.voided = true)
    (hpay : CanPay T self call.stakeToken) :
    ExactRefunds T self callId call (marketHistory history) w.store ↔
      (∀ staker position, call.HasPosition position → 2 < position →
        w.store.getUserStake callId staker position = 0) ∧
      ∀ staker, w.store.isVoidRefundClaimed callId staker = false →
        InI128 (w.store.market.recordedStake callId staker) := by
  refine ⟨fun hexact => ?_, fun h => refunds_exact run hcall hvoided h.1 h.2⟩
  have hbooks := books_agree run
  have hpaid : w.store.market.VoidRefundsPaid callId (marketHistory history) :=
    void_refunds_paid run
  have hcount := (calls_valid run callId call hcall).outcomeCount
  -- Whoever has a recorded stake finds it equal to what the refund reads, and in range.
  have hread : ∀ staker, 0 < w.store.market.recordedStake callId staker →
      w.store.market.refundOf callId staker = w.store.market.recordedStake callId staker ∧
      (w.store.isVoidRefundClaimed callId staker = false →
        InI128 (w.store.market.recordedStake callId staker)) := by
    intro staker hpositive
    cases hclaimed : w.store.isVoidRefundClaimed callId staker with
    | true =>
      have hledger := hexact.paid staker
      have hflag : w.store.market.voidRefundClaimed (callId, staker) = true := hclaimed
      rw [hpaid.paid, Market.refundTaken, hclaimed, hflag, if_pos rfl, if_pos rfl] at hledger
      exact ⟨hledger, by simp⟩
    | false =>
      have hclaim := hexact.claimable staker hclaimed hpositive (.claimVoidRefund staker callId) rfl
      obtain ⟨heq, hrange⟩ := refund_of_claim hcall hvoided hclaimed hpay hclaim
      exact ⟨heq, fun _ => hrange⟩
  have hrest : ∀ staker, w.store.market.recordedStake callId staker =
      w.store.market.refundOf callId staker + _ := fun staker =>
    recordedStake_eq_refundOf_add hcall hcount
  have hfirst : ∀ staker, 0 ≤ w.store.market.refundOf callId staker := fun staker =>
    add_nonneg (hbooks.nonneg _) (hbooks.nonneg _)
  have hlater : ∀ staker, 0 ≤ ((List.range' 3 (call.outcomeCount - 2)).map fun p =>
      w.store.market.userStake (callId, staker, p)).sum := fun staker =>
    sum_map_nonneg _ fun p => hbooks.nonneg _
  constructor
  · intro staker position hposition htwo
    have hmem : position ∈ List.range' 3 (call.outcomeCount - 2) := by
      rw [List.mem_range'_1]
      exact ⟨by omega, by have := hposition.2; omega⟩
    have hle : w.store.getUserStake callId staker position ≤
        ((List.range' 3 (call.outcomeCount - 2)).map fun p =>
          w.store.market.userStake (callId, staker, p)).sum :=
      List.single_le_sum (fun x hx => by
        obtain ⟨p, -, rfl⟩ := List.mem_map.mp hx
        exact hbooks.nonneg _) _ (List.mem_map_of_mem hmem)
    have hstake : 0 ≤ w.store.getUserStake callId staker position := hbooks.nonneg _
    have hsum := hrest staker
    by_contra hne
    have hpositive : 0 < w.store.market.recordedStake callId staker := by
      have := hfirst staker
      omega
    have := (hread staker hpositive).1
    omega
  · intro staker hunclaimed
    by_cases hpositive : 0 < w.store.market.recordedStake callId staker
    · exact (hread staker hpositive).2 hunclaimed
    · have hzero : w.store.market.recordedStake callId staker = 0 := by
        have := hrest staker
        have := hfirst staker
        have := hlater staker
        omega
      rw [hzero]
      decide

/-- Whoever is not among the stakers of a call has no stake on it. -/
theorem no_stake_of_not_staker (run : (registry self outside).RunWhere guard history w)
    {staker : Address} (h : staker ∉ (w.store.market.callStakers callId).items) (position : Nat) :
    w.store.getUserStake callId staker position = 0 := by
  by_contra hne
  exact h ((books_agree run).indexed _ _ _ hne).1

theorem recordedStake_of_not_staker (run : (registry self outside).RunWhere guard history w)
    {staker : Address} (h : staker ∉ (w.store.market.callStakers callId).items) :
    w.store.market.recordedStake callId staker = 0 := by
  unfold Market.recordedStake
  split
  · refine List.sum_eq_zero fun x hx => ?_
    obtain ⟨p, -, rfl⟩ := List.mem_map.mp hx
    exact no_stake_of_not_staker run h p
  · rfl

end Run

section Scenario

attribute [local instance] noCrypto

/-- A standard token pays anything to anybody once the contract holds it. -/
theorem standard_token_can_pay (self token : Address) : CanPay StandardLedger self token := by
  intro recipient amount hpositive _
  refine ⟨⟨self, 0, 0, [recipient]⟩,
    .ofHoldings fun _ => Holdings.empty.set self amount hpositive.le, rfl, by simp, ?_⟩
  have hheld := Holdings.empty.nonneg recipient
  simp only [Tokens.transfer, hpositive.le, List.mem_cons, List.not_mem_nil, or_false, or_true,
    and_self, ↓reduceIte, StandardLedger.credit, StandardLedger.ofHoldings, Holdings.set,
    valueAt_insert, add_neg_cancel, Std.le_refl, ↓reduceDIte, StandardLedger.setHoldings,
    AList.insert_insert, Option.bind_eq_bind, Option.bind_some, Function.update_self,
    Function.update_idem, Option.isSome_dite, ge_iff_le]
  split <;> omega

/-- Alice creates a call with three outcomes. -/
def threeOutcomesScript : List (Env × Action) :=
  [at_ 1 [adminAddress] (.desk (.initializeContract adminAddress managerAddress 0)),
    at_ 2 [adminAddress] (.desk (.whitelistToken usdc)),
    at_ 3 [alice] (.market (.createCall alice { sampleCall with outcomeCount := 3 }))]

/-- Both stake on the first two positions, the call is voided, and Alice claims. -/
def twoPositionsScript : List (Env × Action) :=
  threeOutcomesScript ++
    [at_ 10 [alice] (.market (.stakeOnCall alice 1 1000 1)),
      at_ 11 [bob] (.market (.stakeOnCall bob 1 3000 2)),
      at_ 12 [adminAddress] (.market (.voidCall 1)),
      at_ 13 [alice] (.market (.claimVoidRefund alice 1))]

/-- Bob stakes on the first and the third position, the call is voided, and he claims. -/
def thirdPositionScript : List (Env × Action) :=
  threeOutcomesScript ++
    [at_ 10 [bob] (.market (.stakeOnCall bob 1 100 1)),
      at_ 11 [bob] (.market (.stakeOnCall bob 1 700 3)),
      at_ 12 [adminAddress] (.market (.voidCall 1)),
      at_ 13 [bob] (.market (.claimVoidRefund bob 1))]

def twoPositionsRun : Replayed (T := StandardLedger) home anything :=
  .of freshWorld fresh_world_empty twoPositionsScript (by decide +kernel)

def thirdPositionRun : Replayed (T := StandardLedger) home anything :=
  .of freshWorld fresh_world_empty thirdPositionScript (by decide +kernel)

/-- The voided call on the first two positions of which both have staked. -/
def twoPositionsCall : Call := (twoPositionsRun.world.store.getCall 1).get (by decide +kernel)

/-- The voided call on the third position of which Bob has staked. -/
def thirdPositionCall : Call := (thirdPositionRun.world.store.getCall 1).get (by decide +kernel)

/-- With stakes on the first two positions alone every refund is exact. -/
theorem refunds_exact_on_two_positions :
    ExactRefunds StandardLedger home 1 twoPositionsCall (marketHistory twoPositionsRun.history)
      twoPositionsRun.world.store := by
  have run : (registry home fun _ _ => False).Run twoPositionsRun.history
      twoPositionsRun.world := twoPositionsRun.run anything_allowed
  have hcall : twoPositionsRun.world.store.getCall 1 = some twoPositionsCall :=
    (Option.some_get _).symm
  have hcount : twoPositionsCall.outcomeCount = 3 := by decide +kernel
  have hstakers : (twoPositionsRun.world.store.market.callStakers 1).items = [alice, bob] := by
    decide +kernel
  have hknown : ∀ staker, staker = alice ∨ staker = bob ∨
      staker ∉ (twoPositionsRun.world.store.market.callStakers 1).items := by
    intro staker
    rw [hstakers]
    grind
  refine (refunds_exact_iff run hcall (by decide +kernel) (standard_token_can_pay _ _)).mpr ⟨?_, ?_⟩
  · intro staker position hposition hlater
    obtain rfl : position = 3 := by
      have := hposition.2
      omega
    obtain rfl | rfl | hunknown := hknown staker
    · decide +kernel
    · decide +kernel
    · exact no_stake_of_not_staker run hunknown 3
  · intro staker _
    obtain rfl | rfl | hunknown := hknown staker
    · decide +kernel
    · decide +kernel
    · rw [recordedStake_of_not_staker run hunknown]
      decide

/-- Bob never withdrew, has recorded stakes of eight hundred on the voided call, and his claim has
paid him one hundred of them; he can claim no more. -/
theorem third_position_not_refunded :
    (registry home fun _ _ => False).Run thirdPositionRun.history thirdPositionRun.world ∧
      thirdPositionRun.world.store.getCall 1 = some thirdPositionCall ∧
      thirdPositionCall.voided = true ∧
      thirdPositionRun.world.store.market.recordedStake 1 bob = 800 ∧
      thirdPositionRun.world.store.isVoidRefundClaimed 1 bob = true ∧
      voidRefunded (marketHistory thirdPositionRun.history) 1 bob = 100 ∧
      ¬ ExactRefunds StandardLedger home 1 thirdPositionCall
        (marketHistory thirdPositionRun.history) thirdPositionRun.world.store :=
  ⟨thirdPositionRun.run anything_allowed, (Option.some_get _).symm, by decide +kernel,
    by decide +kernel, by decide +kernel, by decide +kernel,
    fun h => absurd (h.paid bob) (by decide +kernel)⟩

end Scenario

end Backit.CallRegistry
