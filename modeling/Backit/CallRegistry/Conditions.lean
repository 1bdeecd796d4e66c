import Backit.CallRegistry.CallStatus

/-!
# Conditions and outcomes

A call carries the price condition that its first outcome stands for. Resolution takes the outcome
and the end price from the outcome manager and never evaluates the condition, and the start price
can be set after the resolution, so the two descriptions of who won agree exactly as long as the
manager's inputs keep them in agreement.
-/

namespace Backit.CallRegistry

open Soroban Contract Lib

/-- The condition is met by the prices of the call. -/
def Call.conditionMet (call : Call) (startPrice endPrice : Int) : Bool :=
  evaluateCondition call.condition startPrice endPrice = some true

/-- Every resolved call with two outcomes is resolved to the first one if and only if the prices it
records meet its condition. -/
def Market.OutcomesAgree (m : Market) : Prop :=
  ∀ callId call, m.calls callId = some call → call.outcomeCount = 2 → call.outcome ≠ 0 →
    (call.outcome = outcomeUp ↔ call.conditionMet call.startPrice call.endPrice = true)

/-- The inputs of the outcome manager agree with the condition of a call with two outcomes: a
resolution names the first outcome if and only if the end price it states meets the condition, and
a start price set after the resolution leaves the condition met or unmet as the outcome says. -/
def MarketOp.agrees (op : MarketOp) (m : Market) : Bool :=
  match op with
  | .resolveCall callId outcome endPrice =>
    (m.calls callId).all fun call => call.outcomeCount ≠ 2 ||
      decide (outcome = outcomeUp) == call.conditionMet call.startPrice endPrice
  | .setStartPrice callId price _ _ =>
    (m.calls callId).all fun call => call.outcomeCount ≠ 2 || call.outcome = 0 ||
      decide (call.outcome = outcomeUp) == call.conditionMet price call.endPrice
  | _ => true

def agreeingStep {T : Type} (w : World T) (l : Label) : Bool :=
  l.onMarket.all fun r => r.op.agrees w.store.market

/-- The outcome manager's inputs agree with the conditions. -/
def agreeing {T : Type} : System.Guard (World T) Label := fun _ w l => agreeingStep w l = true

/-- Two states of a call with the same condition, prices and outcome. -/
structure Call.SameVerdict (c c' : Call) : Prop where
  condition : c'.condition = c.condition
  outcomeCount : c'.outcomeCount = c.outcomeCount
  outcome : c'.outcome = c.outcome
  startPrice : c'.startPrice = c.startPrice
  endPrice : c'.endPrice = c.endPrice

theorem Call.SameVerdict.refl (c : Call) : c.SameVerdict c := ⟨rfl, rfl, rfl, rfl, rfl⟩

/-- Where the condition, the prices and the outcome of a call stem from. -/
inductive VerdictChange (op : MarketOp) (m : Market) (callId : Nat) : Call → Prop where
  | opened {call'} : call'.outcome = 0 → VerdictChange op m callId call'
  | kept {call call'} : m.calls callId = some call → call.SameVerdict call' →
      VerdictChange op m callId call'
  | resolved {call outcome endPrice} : op = .resolveCall callId outcome endPrice →
      m.calls callId = some call →
      VerdictChange op m callId { call with outcome := outcome, endPrice := endPrice }
  | priced {call price key signature} : op = .setStartPrice callId price key signature →
      m.calls callId = some call → VerdictChange op m callId { call with startPrice := price }

section Steps

variable {env : Env} {config : Option ContractConfig} {op : MarketOp} {m m' : Market}
  {effects : List (Effect Event)} {callId : Nat} {call call' : Call}

/-- A call after another was written is the written one or stands as it was. -/
theorem Market.setCall_origin {target : Nat} {old new : Call} (hold : m.calls target = some old)
    (hid : new.id = old.id) (hcall' : (m.setCall new).calls callId = some call') :
    (target = callId ∧ call' = new) ∨ m.calls callId = some call' := by
  rw [Market.setCall_calls, hid, m.keyed _ _ hold] at hcall'
  split at hcall'
  · next h => exact .inl ⟨h.symm, by simpa using hcall'.symm⟩
  · exact .inr hcall'

theorem MarketStep.verdict_change (h : MarketStep env config op m effects m')
    (hcall' : m'.calls callId = some call') : VerdictChange op m callId call' := by
  have hwritten : ∀ {target : Nat} {old new : Call}, m.calls target = some old →
      (m.setCall new).calls callId = some call' → new.id = old.id → old.SameVerdict new →
      VerdictChange op m callId call' := by
    intro target old new hold hafter hid hsame
    obtain ⟨rfl, rfl⟩ | hcall := Market.setCall_origin hold hid hafter
    · exact .kept hold hsame
    · exact .kept hcall (.refl call')
  cases h with
  | created =>
    rw [Market.withNewCall_calls] at hcall'
    split at hcall'
    · cases hcall'
      exact .opened rfl
    · exact .kept hcall' (.refl call')
  | @staked _ r staked credited _ _ _ hstaked =>
    rw [Market.withStake_calls r credited (m.keyed _ _ hstaked)] at hcall'
    split at hcall'
    · next hid =>
      cases hcall'
      have hbefore : m.calls callId = some staked := hid ▸ hstaked
      exact .kept hbefore ⟨rfl, rfl, rfl, rfl, rfl⟩
    · exact .kept hcall' (.refl call')
  | @withdrawn staker _ position withdrawn _ refund _ _ hwithdrawn =>
    rw [Market.withoutStake_calls staker position refund (m.keyed _ _ hwithdrawn)] at hcall'
    split at hcall'
    · next hid =>
      cases hcall'
      have hbefore : m.calls callId = some withdrawn := hid ▸ hwithdrawn
      exact .kept hbefore ⟨rfl, rfl, rfl, rfl, rfl⟩
    · exact .kept hcall' (.refl call')
  | voidRefunded | expiredRefunded => exact .kept hcall' (.refl call')
  | redeemed | sharesTransferred | released => exact .kept hcall' (.refl call')
  | resolved _ _ _ hresolved =>
    obtain ⟨rfl, rfl⟩ | hcall := Market.setCall_origin (m := m.setCreatorStats _ _) hresolved
      (by rfl) hcall'
    · exact .resolved rfl hresolved
    · exact .kept hcall (.refl call')
  | priced _ _ hpriced =>
    obtain ⟨rfl, rfl⟩ | hcall := Market.setCall_origin hpriced (by rfl) hcall'
    · exact .priced rfl hpriced
    · exact .kept hcall (.refl call')
  | metadataUpdated _ hold => exact hwritten hold hcall' rfl ⟨rfl, rfl, rfl, rfl, rfl⟩
  | settled _ _ hold => exact hwritten hold hcall' rfl ⟨rfl, rfl, rfl, rfl, rfl⟩
  | cancelled _ hold => exact hwritten hold hcall' rfl ⟨rfl, rfl, rfl, rfl, rfl⟩
  | voided _ _ hold => exact hwritten hold hcall' rfl ⟨rfl, rfl, rfl, rfl, rfl⟩
  | emergencyCancelled _ _ hold => exact hwritten hold hcall' rfl ⟨rfl, rfl, rfl, rfl, rfl⟩

/-- An operation whose inputs agree with the conditions keeps the outcomes in agreement. -/
theorem MarketStep.outcomes_agree (hstep : MarketStep env config op m effects m')
    (hagrees : op.agrees m = true) (h : m.OutcomesAgree) : m'.OutcomesAgree := by
  intro callId call' hcall' hcount hresolved
  cases hstep.verdict_change hcall' with
  | opened hopen => exact absurd hopen hresolved
  | kept hcall hsame =>
    rw [Call.conditionMet, hsame.condition, hsame.outcome, hsame.startPrice, hsame.endPrice]
    exact h callId _ hcall (hsame.outcomeCount ▸ hcount) (hsame.outcome ▸ hresolved)
  | @resolved call outcome endPrice hop hcall =>
    subst hop
    have hbinary : call.outcomeCount = 2 := hcount
    simpa [MarketOp.agrees, hcall, hbinary, Call.conditionMet] using hagrees
  | @priced call price _ _ hop hcall =>
    subst hop
    have hbinary : call.outcomeCount = 2 := hcount
    have hbefore : call.outcome ≠ 0 := hresolved
    simpa [MarketOp.agrees, hcall, hbinary, hbefore, Call.conditionMet] using hagrees

/-- An operation that leaves the outcomes in agreement had inputs that agree with the conditions. -/
theorem MarketStep.agrees_of_outcomes (hstep : MarketStep env config op m effects m')
    (h : m'.OutcomesAgree) : op.agrees m = true := by
  cases hstep with
  | @resolved callId outcome endPrice call _ _ _ _ _ _ hcall hposition =>
    have hafter : ((m.setCreatorStats call.creator (m.resolvedStats call outcome)).setCall
        { call with outcome := outcome, endPrice := endPrice }).calls callId =
        some { call with outcome := outcome, endPrice := endPrice } := by
      rw [Market.setCall_calls, if_pos (m.keyed _ _ hcall).symm]
    have hoffered : outcome ≠ 0 := by
      have := hposition.1
      omega
    by_cases hcount : call.outcomeCount = 2
    · have hverdict := h callId _ hafter hcount hoffered
      simpa [MarketOp.agrees, hcall, hcount, Call.conditionMet] using hverdict
    · simp [MarketOp.agrees, hcall, hcount]
  | @priced callId price _ _ call _ _ _ _ hcall =>
    have hafter : (m.setCall { call with startPrice := price }).calls callId =
        some { call with startPrice := price } := by
      rw [Market.setCall_calls, if_pos (m.keyed _ _ hcall).symm]
    by_cases hcount : call.outcomeCount = 2 ∧ call.outcome ≠ 0
    · have hverdict := h callId _ hafter hcount.1 hcount.2
      simpa [MarketOp.agrees, hcall, hcount.1, hcount.2, Call.conditionMet] using hverdict
    · rw [MarketOp.agrees, hcall]
      grind
  | staked hr => cases op <;> simp_all [MarketOp.stakeRequest, MarketOp.agrees]
  | voidRefunded hr => cases op <;> simp_all [MarketOp.voidRefundRequest, MarketOp.agrees]
  | _ => rfl

end Steps

section Run

variable {T : Type} [Tokens T] [Crypto] {self : Address} {outside : T → T → Prop}
  {history : List Label} {w w' : World T} {l : Label}

theorem outcomes_agree (run : (registry self outside).RunWhere agreeing history w) :
    w.store.market.OutcomesAgree := by
  refine market_invariant (I := fun _ m => m.OutcomesAgree) ?_ ?_ run
  · simp [Market.OutcomesAgree, Storage.empty]
  · intro h w r m' _ hagreeing ih hstep
    refine hstep.outcomes_agree ?_ ih
    simpa [agreeing, agreeingStep, MarketReceipt.label, Label.onMarket] using hagreeing

/-- As long as the outcome manager's inputs agree with the conditions, every resolved call with two
outcomes is resolved as its condition and its prices say; and the first step whose inputs do not
agree ends this. -/
theorem outcomes_follow_conditions
    (run : (registry self outside).RunWhere agreeing history w) :
    w.store.market.OutcomesAgree ∧
      ∀ l w', (registry self outside).step w l w' →
        (w'.store.market.OutcomesAgree ↔ agreeingStep w l = true) := by
  have hagree := outcomes_agree run
  refine ⟨hagree, fun l w' hstep => ⟨fun h => ?_, fun h => outcomes_agree (run.tail hstep h)⟩⟩
  obtain ⟨r, rfl, -, -, -, -, -, hmarket⟩ | ⟨hoff, -, -⟩ := WorldStep.cases hstep
  · have := hmarket.agrees_of_outcomes h
    simpa [agreeingStep, MarketReceipt.label, Label.onMarket] using this
  · simp [agreeingStep, hoff]

end Run

section Scenario

attribute [local instance] noCrypto

/-- The outcome manager resolves Alice's call, which stands for a price above five, with an end
price of seven. -/
def resolutionScript (outcome : Nat) : List (Env × Action) :=
  openingScript ++ [at_ 1000 [managerAddress] (.market (.resolveCall 1 outcome 7))]

def agreedRun : Replayed (T := StandardLedger) home fun _ => agreeingStep :=
  .of freshWorld fresh_world_empty (resolutionScript 1) (by decide +kernel)

def contradictedRun : Replayed (T := StandardLedger) home anything :=
  .of freshWorld fresh_world_empty (resolutionScript 2) (by decide +kernel)

/-- The call as a resolution to the second outcome leaves it. -/
def contradictedCall : Call := (contradictedRun.world.store.getCall 1).get (by decide +kernel)

theorem outcomes_follow_conditions_above_five : agreedRun.world.store.market.OutcomesAgree :=
  have run : (registry home fun _ _ => False).RunWhere agreeing agreedRun.history
      agreedRun.world := agreedRun.run fun _ _ _ h => h
  (outcomes_follow_conditions run).1

/-- The recorded end price meets the condition, and the call is resolved to the second outcome. -/
theorem outcome_contradicts_price :
    (registry home fun _ _ => False).Run contradictedRun.history contradictedRun.world ∧
      contradictedRun.world.store.getCall 1 = some contradictedCall ∧
      contradictedCall.outcomeCount = 2 ∧ contradictedCall.outcome = 2 ∧
      contradictedCall.endPrice = 7 ∧
      evaluateCondition contradictedCall.condition contradictedCall.startPrice
        contradictedCall.endPrice = some true ∧
      ¬ contradictedRun.world.store.market.OutcomesAgree := by
  have hcall : contradictedRun.world.store.getCall 1 = some contradictedCall :=
    (Option.some_get _).symm
  refine ⟨contradictedRun.run anything_allowed, hcall, by decide +kernel, by decide +kernel,
    by decide +kernel, by decide +kernel, fun h => ?_⟩
  have hverdict := h 1 contradictedCall hcall (by decide +kernel) (by decide +kernel)
  exact absurd (hverdict.mpr (by decide +kernel)) (by decide +kernel)

end Scenario

end Backit.CallRegistry
