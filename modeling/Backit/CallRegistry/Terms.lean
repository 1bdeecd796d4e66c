import Backit.CallRegistry.Books

/-!
# The terms of a call

What was agreed when a call was created is kept for good: no transition removes a call or changes
its creator, its escrowed amount, its end, its outcomes or its share tokens.
-/

namespace Backit.CallRegistry

open Soroban Lib

section Steps

variable {env : Env} {config : Option ContractConfig} {op : MarketOp} {m m' : Market}
  {effects : List (Effect Event)} {id : Nat} {call call' : Call}

theorem Call.SameDeal.trans {call'' : Call} (h : call.SameDeal call') (h' : call'.SameDeal call'') :
    call.SameDeal call'' :=
  ⟨h'.id.trans h.id, h'.creator.trans h.creator, h'.stakeToken.trans h.stakeToken,
    h'.stakeAmount.trans h.stakeAmount, h'.endTs.trans h.endTs,
    h'.outcomeCount.trans h.outcomeCount, h'.shareTokens.trans h.shareTokens,
    fun hvoided => h'.voided (h.voided hvoided)⟩

theorem Call.withStake_deal (call : Call) (position : Nat) (staker : Address) (pool stake : Int) :
    call.SameDeal (call.withStake position staker pool stake) := by
  constructor <;> simp [Call.withStake]

theorem Call.withoutStake_deal (call : Call) (position : Nat) (staker : Address) (pool : Int) :
    call.SameDeal (call.withoutStake position staker pool) := by
  constructor <;> simp [Call.withoutStake]

theorem Market.withNewCall_calls (m : Market) (creator : Address) (args : CallInitArgs)
    (createdAt : Nat) (shareTokens : Map Nat Address) (id : Nat) :
    (m.withNewCall creator args createdAt shareTokens).calls id =
      if id = m.callCounter + 1 then
        some (newCall (m.callCounter + 1) creator args createdAt shareTokens)
      else m.calls id :=
  Function.update_apply ..

/-- A call after a transition stems from one before it, or has just been created. -/
theorem MarketStep.call_origin (h : MarketStep env config op m effects m')
    (hcall' : m'.calls id = some call') :
    (∃ call, m.calls id = some call ∧ call.SameDeal call') ∨
    (∃ creator args tokens, op = .createCall creator args ∧ id = m.callCounter + 1 ∧
      0 < args.stakeAmount ∧ 2 ≤ args.outcomeCount ∧
      (tokens = [] ∨ tokens.length = args.outcomeCount) ∧
      effects = .event (callCreatedEvent id creator args) :: tokens.reverse.map .deploy ∧
      call' = newCall id creator args env.timestamp (shareTokenMap tokens)) := by
  cases hop : op.movesStakes with
  | false =>
    obtain ⟨call, hcall, hterms⟩ := (h.same_books hop).call_of hcall'
    exact .inl ⟨call, hcall, hterms.toSameDeal⟩
  | true =>
    cases h with
    | @created creator args tokens _ _ hamount _ hcount _ htokens =>
      rw [Market.withNewCall_calls] at hcall'
      split at hcall'
      · next hid =>
        subst hid
        cases hcall'
        exact .inr ⟨creator, args, tokens, rfl, rfl, hamount, hcount, htokens, rfl, rfl⟩
      · exact .inl ⟨call', hcall', .refl call'⟩
    | @staked _ r call credited _ _ _ hcall =>
      rw [Market.withStake_calls r credited (m.keyed _ _ hcall)] at hcall'
      split at hcall'
      · next hid =>
        cases hcall'
        exact .inl ⟨call, hid ▸ hcall, call.withStake_deal ..⟩
      · exact .inl ⟨call', hcall', .refl call'⟩
    | @withdrawn staker callId position call _ refund _ _ hcall =>
      rw [Market.withoutStake_calls staker position refund (m.keyed _ _ hcall)] at hcall'
      split at hcall'
      · next hid =>
        cases hcall'
        exact .inl ⟨call, hid ▸ hcall, call.withoutStake_deal ..⟩
      · exact .inl ⟨call', hcall', .refl call'⟩
    | voidRefunded hr =>
      cases op <;> simp [MarketOp.voidRefundRequest, MarketOp.movesStakes] at hr hop
    | _ => simp [MarketOp.movesStakes] at hop

/-- A transition keeps every call and what was agreed about it. -/
theorem MarketStep.call_kept (h : MarketStep env config op m effects m')
    {retained : Nat → Nat → Int} (hbooks : m.BooksAgree retained) (hcall : m.calls id = some call) :
    ∃ call', m'.calls id = some call' ∧ call.SameDeal call' := by
  obtain ⟨-, hsame⟩ | ⟨creator, args, tokens, -, rfl⟩ |
    ⟨r, staked, credited, -, hstaked, -, -, -, rfl⟩ |
    ⟨staker, callId, position, staked, penalty, -, hstaked, -, -, -, -, rfl⟩ := h.books_cases
  · obtain ⟨call', hcall', hterms⟩ := hsame.kept hcall
    exact ⟨call', hcall', hterms.toSameDeal⟩
  · refine ⟨call, ?_, .refl call⟩
    have hnumber := hbooks.numbered _ _ hcall
    rw [Market.withNewCall_calls, if_neg (by omega), hcall]
  · rw [Market.withStake_calls r credited (m.keyed _ _ hstaked)]
    split
    · next hid =>
      obtain rfl : staked = call := by simpa [hid, hstaked] using hcall
      exact ⟨_, rfl, staked.withStake_deal ..⟩
    · exact ⟨call, hcall, .refl call⟩
  · rw [Market.withoutStake_calls staker position _ (m.keyed _ _ hstaked)]
    split
    · next hid =>
      obtain rfl : staked = call := by simpa [hid, hstaked] using hcall
      exact ⟨_, rfl, staked.withoutStake_deal ..⟩
    · exact ⟨call, hcall, .refl call⟩

/-- After its end a call keeps its pools and its stakes. -/
theorem MarketStep.ended_kept (h : MarketStep env config op m effects m')
    {retained : Nat → Nat → Int} (hbooks : m.BooksAgree retained)
    (hcall : m.calls id = some call) (hended : call.endTs ≤ env.timestamp) :
    ∃ call', m'.calls id = some call' ∧ call.SameTerms call' ∧
      ∀ staker position, m'.userStake (id, staker, position) = m.userStake (id, staker, position) := by
  have hother : ∀ {callId : Nat} {other : Call}, m.calls callId = some other →
      other.Open env.timestamp → id ≠ callId := by
    rintro callId other hstored hopen rfl
    obtain rfl := Option.some.inj (hcall.symm.trans hstored)
    have := hopen.notEnded
    omega
  cases hop : op.movesStakes with
  | false =>
    have hsame := h.same_books hop
    obtain ⟨call', hcall', hterms⟩ := hsame.kept hcall
    exact ⟨call', hcall', hterms, fun staker position => by rw [hsame.userStake]⟩
  | true =>
    cases h with
    | created =>
      have hnumber := hbooks.numbered _ _ hcall
      refine ⟨call, ?_, .refl call, fun _ _ => rfl⟩
      rw [Market.withNewCall_calls, if_neg (by omega), hcall]
    | @staked _ r _ credited _ _ _ hstaked hopen =>
      have hne := hother hstaked hopen
      refine ⟨call, ?_, .refl call, fun staker position => ?_⟩
      · rw [Market.withStake_calls r credited (m.keyed _ _ hstaked), if_neg hne, hcall]
      · rw [Market.withStake_userStake, if_neg (by simp [hne])]
    | @withdrawn withdrawer callId position _ _ refund _ _ hstaked hopen =>
      have hne := hother hstaked hopen
      refine ⟨call, ?_, .refl call, fun staker position => ?_⟩
      · rw [Market.withoutStake_calls withdrawer _ refund (m.keyed _ _ hstaked), if_neg hne, hcall]
      · rw [Market.withoutStake_userStake, if_neg (by simp [hne])]
    | voidRefunded hr =>
      cases op <;> simp [MarketOp.voidRefundRequest, MarketOp.movesStakes] at hr hop
    | _ => simp [MarketOp.movesStakes] at hop

end Steps

/-- The bounds that creation checked. -/
structure Call.Valid (call : Call) : Prop where
  stakeAmount : 0 < call.stakeAmount
  outcomeCount : 2 ≤ call.outcomeCount

section Run

variable {T : Type} [Tokens T] [Crypto] {self : Address} {outside : T → T → Prop}
  {guard : System.Guard (World T) Label} {history : List Label} {w : World T}

/-- In every execution all calls are within the bounds that creation checked. -/
theorem calls_valid (run : (registry self outside).RunWhere guard history w) :
    ∀ id call, w.store.market.calls id = some call → call.Valid := by
  refine market_invariant (I := fun _ m => ∀ id call, m.calls id = some call → call.Valid)
    (by simp [Storage.empty]) ?_ run
  intro h w r m' _ _ ih hstep id call' hcall'
  obtain ⟨call, hcall, hdeal⟩ | ⟨creator, args, tokens, -, -, hamount, hcount, -, -, rfl⟩ :=
    hstep.call_origin hcall'
  · have hvalid := ih id call hcall
    exact ⟨hdeal.stakeAmount ▸ hvalid.stakeAmount, hdeal.outcomeCount ▸ hvalid.outcomeCount⟩
  · exact ⟨hamount, hcount⟩

end Run

/-!
## The creator's escrow

Cancelling a call pays its creator the stake amount that the call was created with. Creation never
collects that amount, so the payments are covered in exactly those runs that make none.
-/

/-- The call that an operation cancels. -/
def MarketOp.cancels : MarketOp → Option Nat
  | .cancelCall _ callId | .emergencyCancelCall _ callId => some callId
  | _ => none

/-- Whether an operation created the call with this id. -/
def MarketReceipt.created (r : MarketReceipt) (callId : Nat) : Bool :=
  match r.op with
  | .createCall creator args => decide (.event (callCreatedEvent callId creator args) ∈ r.effects)
  | _ => false

/-- What the creation of a call collected from its creator. -/
def escrowReceivedBy (self : Address) (call : Call) (r : MarketReceipt) : Int :=
  if r.created call.id then
    effectTotal (Effect.paidFrom call.stakeToken call.creator self) r.effects
  else 0

/-- What a cancellation of a call paid to its creator. -/
def escrowPaidBy (self : Address) (call : Call) (r : MarketReceipt) : Int :=
  if r.op.cancels = some call.id then
    effectTotal (Effect.paidFrom call.stakeToken self call.creator) r.effects
  else 0

/-- No call's creator has been paid more escrow than was collected when the call was created. -/
def EscrowLaw (self : Address) (history : List MarketReceipt) (m : Market) : Prop :=
  ∀ callId call, m.calls callId = some call →
    tally (escrowPaidBy self call) history ≤ tally (escrowReceivedBy self call) history

/-- How often a call has been cancelled. -/
def cancellations (history : List MarketReceipt) (callId : Nat) : Nat :=
  history.countP fun r => r.op.cancels = some callId

section Steps

variable {env : Env} {config : Option ContractConfig} {op : MarketOp} {m m' : Market}
  {effects : List (Effect Event)} {self : Address} {callId : Nat} {call call' : Call}

theorem Call.SameDeal.escrowPaidBy_eq (h : call.SameDeal call') :
    escrowPaidBy self call' = escrowPaidBy self call := by
  funext r
  rw [escrowPaidBy, escrowPaidBy, h.id, h.stakeToken, h.creator]

/-- A cancellation pays the stake amount to the call's creator. -/
theorem MarketStep.cancel_pays (h : MarketStep env config op m effects m')
    (hop : op.cancels = some callId) :
    ∃ call event, m.calls callId = some call ∧
      effects = [.event event,
        .transfer call.stakeToken env.contract call.creator call.stakeAmount] := by
  cases h with
  | cancelled _ hcall hcreator =>
    obtain rfl : _ = callId := by simpa [MarketOp.cancels] using hop
    exact ⟨_, _, hcall, by rw [hcreator]⟩
  | emergencyCancelled _ _ hcall =>
    obtain rfl : _ = callId := by simpa [MarketOp.cancels] using hop
    exact ⟨_, _, hcall, rfl⟩
  | staked hr => cases op <;> simp [MarketOp.stakeRequest, MarketOp.cancels] at hr hop
  | voidRefunded hr => cases op <;> simp [MarketOp.voidRefundRequest, MarketOp.cancels] at hr hop
  | _ => simp [MarketOp.cancels] at hop

theorem MarketStep.creation_collects_nothing (h : MarketStep env config op m effects m')
    (call : Call) : escrowReceivedBy self call ⟨env, op, effects⟩ = 0 := by
  cases h with
  | @created creator args tokens =>
    unfold escrowReceivedBy
    split
    · refine effectTotal_eq_zero _ fun e he => ?_
      obtain rfl | ⟨token, -, rfl⟩ : e = .event (callCreatedEvent (m.callCounter + 1) creator args) ∨
          ∃ token ∈ tokens, .deploy token = e := by simpa using he
      · rfl
      · rfl
    · rfl
  | staked hr =>
    cases op <;> simp [MarketOp.stakeRequest, escrowReceivedBy, MarketReceipt.created] at hr ⊢
  | voidRefunded hr =>
    cases op <;> simp [MarketOp.voidRefundRequest, escrowReceivedBy, MarketReceipt.created] at hr ⊢
  | _ => simp [escrowReceivedBy, MarketReceipt.created]

end Steps

/-- Only calls that exist have been cancelled, and each cancellation paid the stake amount. -/
structure Market.EscrowPaid (contract : Address) (history : List MarketReceipt) (m : Market) :
    Prop where
  exists_call : ∀ r ∈ history, ∀ callId, r.op.cancels = some callId →
    ∃ call, m.calls callId = some call
  paid : ∀ callId call, m.calls callId = some call →
    tally (escrowPaidBy contract call) history =
      cancellations history callId * call.stakeAmount

section Steps

variable {env : Env} {config : Option ContractConfig} {op : MarketOp} {m m' : Market}
  {effects : List (Effect Event)} {history : List MarketReceipt} {retained : Nat → Nat → Int}

theorem Market.EscrowPaid.empty {self : Address} : Storage.empty.market.EscrowPaid self [] := by
  constructor <;> simp [Storage.empty]

theorem MarketStep.escrow_paid (hstep : MarketStep env config op m effects m')
    (hbooks : m.BooksAgree retained) (h : m.EscrowPaid env.contract history) :
    m'.EscrowPaid env.contract (⟨env, op, effects⟩ :: history) := by
  constructor
  · intro r hr callId hcancels
    have hbefore : ∃ call, m.calls callId = some call := by
      obtain rfl | hr := List.mem_cons.mp hr
      · obtain ⟨call, -, hcall, -⟩ := hstep.cancel_pays hcancels
        exact ⟨call, hcall⟩
      · exact h.exists_call r hr callId hcancels
    obtain ⟨call, hcall⟩ := hbefore
    obtain ⟨call', hcall', -⟩ := hstep.call_kept hbooks hcall
    exact ⟨call', hcall'⟩
  · intro callId call' hcall'
    rw [tally_cons, cancellations, List.countP_cons]
    obtain ⟨call, hcall, hdeal⟩ | ⟨creator, args, tokens, rfl, rfl, -, -, -, -, rfl⟩ :=
      hstep.call_origin hcall'
    · have hid : call'.id = callId := hdeal.id.trans (m.keyed _ _ hcall)
      rw [hdeal.escrowPaidBy_eq, h.paid callId call hcall, hdeal.stakeAmount, escrowPaidBy,
        ← hdeal.id, hid]
      by_cases hop : op.cancels = some callId
      · obtain ⟨cancelled, event, hcancelled, rfl⟩ := hstep.cancel_pays hop
        obtain rfl : cancelled = call := by simpa [hcancelled] using hcall
        simp [hop, cancellations, Effect.paidFrom, add_mul, add_comm]
      · simp [hop, cancellations]
    · have hnever : ∀ r ∈ history, r.op.cancels ≠ some (m.callCounter + 1) := by
        intro r hr hcancels
        obtain ⟨call, hcall⟩ := h.exists_call r hr _ hcancels
        simp [hbooks.fresh] at hcall
      have hcount : history.countP (fun r => r.op.cancels = some (m.callCounter + 1)) = 0 := by
        simpa [List.countP_eq_zero] using hnever
      rw [tally_eq_zero, hcount]
      · simp [escrowPaidBy, MarketOp.cancels]
      · intro r hr
        exact if_neg (hnever r hr)

end Steps

section Run

variable {T : Type} [Tokens T] [Crypto] {self : Address} {outside : T → T → Prop}
  {history : List Label} {w : World T}

theorem escrow_received (run : (registry self outside).Run history w) (call : Call) :
    tally (escrowReceivedBy self call) (marketHistory history) = 0 := by
  refine market_invariant (I := fun h _ => tally (escrowReceivedBy self call) h = 0) rfl ?_ run
  intro h w r m' _ _ ih hstep
  rw [tally_cons, ih, hstep.creation_collects_nothing]
  rfl

theorem escrow_paid (run : (registry self outside).Run history w) :
    w.store.market.EscrowPaid self (marketHistory history) := by
  refine market_invariant_at (I := fun _ h m => m.EscrowPaid self h) (fun _ => .empty)
    (fun _ _ _ _ _ h => h) ?_ run
  intro h w r m' hrun _ hself ih hstep
  subst hself
  exact hstep.escrow_paid (books_agree hrun) ih

/-- The escrow paid back is covered exactly as long as no call is cancelled. -/
theorem escrow_law_iff_never_cancelled (run : (registry self outside).Run history w) :
    EscrowLaw self (marketHistory history) w.store.market ↔
      ∀ r ∈ marketHistory history, r.op.cancels = none := by
  have hpaid := escrow_paid run
  constructor
  · intro hlaw r hr
    cases hcancels : r.op.cancels with
    | none => rfl
    | some callId =>
      obtain ⟨call, hcall⟩ := hpaid.exists_call r hr callId hcancels
      have hcovered := hlaw callId call hcall
      rw [escrow_received run, hpaid.paid callId call hcall] at hcovered
      have hcount : 0 < cancellations (marketHistory history) callId :=
        List.countP_pos_iff.mpr ⟨r, hr, by simp [hcancels]⟩
      have hamount := (calls_valid run callId call hcall).stakeAmount
      have hpositive : 0 < (cancellations (marketHistory history) callId : Int) *
          call.stakeAmount := by positivity
      omega
  · intro hnever callId call hcall
    have hcount : cancellations (marketHistory history) callId = 0 :=
      List.countP_eq_zero.mpr fun r hr => by simp [hnever r hr]
    rw [hpaid.paid callId call hcall, escrow_received run, hcount]
    simp

end Run

section Scenario

attribute [local instance] noCrypto

/-- Bob stakes a thousand on a call of his own while Alice's call has no stakes. -/
def bystanderScript : List (Env × Action) :=
  openingScript ++
    [at_ 4 [bob] (.market (.createCall bob sampleCall)),
      at_ 10 [bob] (.market (.stakeOnCall bob 2 1000 1))]

/-- Alice cancels her call. -/
def cancelScript : List (Env × Action) :=
  bystanderScript ++ [at_ 11 [alice] (.market (.cancelCall alice 1))]

def bystanderRun : Replayed (T := StandardLedger) home anything :=
  .of freshWorld fresh_world_empty bystanderScript (by decide +kernel)

def cancelRun : Replayed (T := StandardLedger) home anything :=
  .of freshWorld fresh_world_empty cancelScript (by decide +kernel)

/-- The call that Alice cancelled. -/
def cancelledCall : Call := (cancelRun.world.store.getCall 1).get (by decide +kernel)

/-- Before the cancellation the law holds. -/
theorem escrow_law_before_cancellation :
    EscrowLaw home (marketHistory bystanderRun.history) bystanderRun.world.store.market :=
  have run : (registry home fun _ _ => False).Run bystanderRun.history bystanderRun.world :=
    bystanderRun.run anything_allowed
  (escrow_law_iff_never_cancelled run).mpr (by decide +kernel)

/-- Nothing was collected from Alice, and the contract, which held Bob's stake alone, has paid her
three hundred out of it. -/
theorem cancellation_spends_another_stake :
    (registry home fun _ _ => False).Run cancelRun.history cancelRun.world ∧
      cancelRun.world.store.market.calls 1 = some cancelledCall ∧
      tally (escrowReceivedBy home cancelledCall) (marketHistory cancelRun.history) = 0 ∧
      tally (escrowPaidBy home cancelledCall) (marketHistory cancelRun.history) = 300 ∧
      Tokens.balance bystanderRun.world.tokens usdc home = some 1000 ∧
      Tokens.balance cancelRun.world.tokens usdc home = some 700 :=
  ⟨cancelRun.run anything_allowed, (Option.some_get _).symm, by decide +kernel, by decide +kernel,
    by decide +kernel, by decide +kernel⟩

end Scenario

end Backit.CallRegistry
