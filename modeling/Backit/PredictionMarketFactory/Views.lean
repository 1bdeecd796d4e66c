import Backit.PredictionMarket.Types
import Backit.Soroban.TokenLaws

/-!
# What other contracts read of factories and markets

A contract that builds on prediction markets asks a factory for the market of a call and the market
for the call. `MarketViews` are these reads, next to the token contracts.
-/

namespace Backit.PredictionMarketFactory

open Soroban Contract PredictionMarket

/-- The views of factories and markets, and the token contracts. `none` is a call that traps. -/
class MarketViews (P : Type) extends Tokens P where
  getMarket : P → Address → Nat → Option Address
  getCall : P → Address → Nat → Option Call

variable {σ P E ε β : Type} [MarketViews P]

/-- The call that a factory and its market report under an id. -/
def marketCall (p : P) (factory : Address) (callId : Nat) : Option Call :=
  (MarketViews.getMarket p factory callId).bind fun market => MarketViews.getCall p market callId

/-- `factory_client.get_market(..)` and `pm_client.get_call(..)` on what it returns. -/
def readMarketCall (factory : Address) (callId : Nat) : Contract (Frame σ P E) ε Call :=
  fun _ f =>
    match marketCall f.tokens factory callId with
    | some call => .ok (call, f)
    | none => .error .external

variable {environment : Env} {f f' : Frame σ P E} {b : β}

@[simp] theorem run_readMarketCall_bind (factory : Address) (callId : Nat)
    (k : Call → Contract (Frame σ P E) ε β) :
    run (readMarketCall factory callId >>= k) environment f = .ok (b, f') ↔
      ∃ call, marketCall f.tokens factory callId = some call ∧
        run (k call) environment f = .ok (b, f') := by
  cases h : marketCall f.tokens factory callId <;> simp [run, bind, readMarketCall, h]

/-- A factory keeps the market of a call, and a market keeps its call and what it is staked in. -/
def KeepsTerms (p p' : P) : Prop :=
  ∀ factory callId call, marketCall p factory callId = some call →
    ∃ call', marketCall p' factory callId = some call' ∧ call'.stakeToken = call.stakeToken

/-- Moving tokens leaves factories and markets alone. -/
def TransfersKeepCalls (P : Type) [MarketViews P] : Prop :=
  ∀ (env : Env) (token sender recipient : Address) (amount : Int) (p p' : P),
    Tokens.transfer env token sender recipient amount p = some p' →
      ∀ factory callId, marketCall p' factory callId = marketCall p factory callId

theorem KeepsTerms.of_calls {p p' : P}
    (h : ∀ factory callId, marketCall p' factory callId = marketCall p factory callId) :
    KeepsTerms p p' :=
  fun factory callId call hcall => ⟨call, (h factory callId).trans hcall, rfl⟩

/-- Moving tokens one transfer after the other leaves them alone too. -/
theorem Replays.keeps_calls {env : Env} {p p' : P} {effects : List (Effect E)}
    (h : TransfersKeepCalls P) (hreplay : Replays env p effects p')
    (honly : ∀ e ∈ effects, e.onlyTransfers = true) (factory : Address) (callId : Nat) :
    marketCall p' factory callId = marketCall p factory callId := by
  induction hreplay with
  | nil => rfl
  | transfer _ hcall ih =>
    exact (h _ _ _ _ _ _ _ hcall _ _).trans (ih fun e he => honly e (.tail _ he))
  | event _ ih => exact ih fun e he => honly e (.tail _ he)
  | mint => exact absurd (honly _ (.head _)) (by simp [Effect.onlyTransfers])
  | clawback => exact absurd (honly _ (.head _)) (by simp [Effect.onlyTransfers])
  | deploy => exact absurd (honly _ (.head _)) (by simp [Effect.onlyTransfers])

/-- Standard tokens, and a factory that knows a market for every listed call. -/
structure MarketLedger where
  ledger : StandardLedger
  calls : Nat → Option Call

instance : MarketViews MarketLedger where
  balance m token who := Tokens.balance m.ledger token who
  transfer env token sender recipient amount m :=
    (Tokens.transfer env token sender recipient amount m.ledger).map ({ m with ledger := · })
  mint env token recipient amount m :=
    (Tokens.mint env token recipient amount m.ledger).map ({ m with ledger := · })
  clawback env token holder amount m :=
    (Tokens.clawback env token holder amount m.ledger).map ({ m with ledger := · })
  deploy env wasmHash salt m :=
    (Tokens.deploy env wasmHash salt m.ledger).map fun (token, ledger) =>
      (token, { m with ledger := ledger })
  getMarket m _ callId := if (m.calls callId).isSome then some ⟨1000 + callId⟩ else none
  getCall m _ callId := m.calls callId

namespace MarketLedger

theorem transfer_eq_some {env : Env} {token sender recipient : Address} {amount : Int}
    {m m' : MarketLedger} (h : Tokens.transfer env token sender recipient amount m = some m') :
    Tokens.transfer env token sender recipient amount m.ledger = some m'.ledger ∧
      m'.calls = m.calls := by
  obtain ⟨ledger, hledger, rfl⟩ := Option.map_eq_some_iff.mp h
  exact ⟨hledger, rfl⟩

theorem exact_transfers : ExactTransfers MarketLedger :=
  fun h other who => StandardLedger.exact_transfers (transfer_eq_some h).1 other who

theorem transfers_keep_calls : TransfersKeepCalls MarketLedger := by
  intro env token sender recipient amount m m' h factory callId
  have hcalls := (transfer_eq_some h).2
  simp only [marketCall, MarketViews.getMarket, MarketViews.getCall, hcalls]

theorem holders_pay : HoldersPay MarketLedger := by
  intro env token recipient amount held m hheld hpositive hle
  obtain ⟨ledger, hledger⟩ :=
    StandardLedger.holders_pay env token recipient amount held m.ledger hheld hpositive hle
  exact ⟨{ m with ledger := ledger }, Option.map_eq_some_iff.mpr ⟨ledger, hledger, rfl⟩⟩

end MarketLedger

def alice : Address := ⟨1⟩

def bob : Address := ⟨2⟩

def usdc : Address := ⟨50⟩

def factoryAddress : Address := ⟨302⟩

/-- A call with two outcomes and stakes on them. -/
def sampleMarketCall (callId : Nat) (up down : Int) : Call where
  id := callId
  creator := alice
  stakeToken := usdc
  stakeAmount := 100
  endTs := 1000
  tokenAddress := usdc
  pairId := []
  metadataHash := ⟨List.replicate 32 2, by decide⟩
  outcomeCount := 2
  outcomeStakes := ((∅ : Map Nat Int).insert 1 up).insert 2 down
  stakes := ∅
  outcome := 0
  startPrice := 1
  endPrice := 0
  condition := .targetAbove 5
  settled := false
  voided := false
  createdAt := 0
  cancelled := false
  metadataVersion := 0
  shareTokens := ∅
  parentCallId := none
  rolledAmount := 0

/-- Alice and Bob each hold twenty thousand units of the stake token; call 1 has stakes, call 2 has
none. -/
def sampleMarkets : MarketLedger where
  ledger := .ofHoldings fun token =>
    if token = usdc then (Holdings.empty.set alice 20000 (by decide)).set bob 20000 (by decide)
    else .empty
  calls callId :=
    if callId = 1 then some (sampleMarketCall 1 600 400)
    else if callId = 2 then some (sampleMarketCall 2 0 0)
    else none

end Backit.PredictionMarketFactory
