import Backit.PredictionMarketFactory.Views

/-!
# What the pool relies on of markets

The pool stakes in markets and claims from the outcome manager. `MarketLaws` is what it relies on:
a market has one call, and nothing but a stake of the pool changes what the pool has staked there.
-/

namespace Backit.LendingPool

open Soroban Lib PredictionMarketFactory
open PredictionMarket (Call)

/-- What the pool calls of markets and of the outcome manager. `none` is a call that fails; the pool
catches it. -/
class Markets (P : Type) extends MarketViews P where
  stakeOnCall : Env → (market staker : Address) → (callId : Nat) → (amount : Int) →
    (position : Nat) → P → Option P
  claimPayoutForMarket : Env → (manager : Address) → (callId : Nat) → (staker : Address) →
    (stakerWinningStake totalWinningStake totalLosingStake : Int) → P → Option P

/-- What a call records as the stake of somebody on a position. -/
def stakeOn (call : Call) (position : Nat) (who : Address) : Int :=
  valueAt ((call.stakes.lookup position).getD ∅) who

section Laws

variable {P : Type} [Markets P]

/-- Markets keep their calls and a call its outcome, once it has one. The stakes of an account grow
by what is added, and it has none on a new call. -/
structure MarketsChange (who : Address) (added : Address → Nat → Nat → Int) (p p' : P) : Prop where
  kept : ∀ market id call, MarketViews.getCall p market id = some call →
    ∃ call', MarketViews.getCall p' market id = some call' ∧
      (call.outcome ≠ 0 → call'.outcome ≠ 0) ∧
      ∀ position, stakeOn call' position who = stakeOn call position who + added market id position
  new : ∀ market id call', MarketViews.getCall p market id = none →
    MarketViews.getCall p' market id = some call' → ∀ position, stakeOn call' position who = 0

/-- Markets change, but not what an account has staked. -/
abbrev StakesKept (who : Address) (p p' : P) : Prop := MarketsChange who (fun _ _ _ => 0) p p'

/-- Adds an amount on a position of a call of a market. -/
def stakeAdded (market : Address) (callId position : Nat) (amount : Int) :
    Address → Nat → Nat → Int :=
  fun m id pos => if m = market ∧ id = callId ∧ pos = position then amount else 0

/-- What the pool at an address relies on of markets and of the outcome manager. -/
structure MarketLaws (P : Type) [Markets P] (pool : Address) : Prop where
  one_call : ∀ (p : P) market id id' call call', MarketViews.getCall p market id = some call →
    MarketViews.getCall p market id' = some call' → id = id'
  transfer : ∀ env token sender recipient amount (p p' : P),
    Tokens.transfer env token sender recipient amount p = some p' → StakesKept pool p p'
  claim : ∀ env manager id staker stake winning losing (p p' : P),
    Markets.claimPayoutForMarket env manager id staker stake winning losing p = some p' →
    StakesKept pool p p'
  stake : ∀ env market id amount position (p p' : P),
    Markets.stakeOnCall env market pool id amount position p = some p' →
    MarketsChange pool (stakeAdded market id position amount) p p'

/-- Markets whose calls are the same have kept their stakes. -/
theorem StakesKept.of_calls {who : Address} {p p' : P}
    (h : ∀ market id, MarketViews.getCall p' market id = MarketViews.getCall p market id) :
    StakesKept who p p' := by
  constructor
  · intro market id call hcall
    exact ⟨call, (h market id).trans hcall, fun hne => hne, fun position => (add_zero _).symm⟩
  · intro market id call' hnone hcall
    rw [h, hnone] at hcall
    cases hcall

end Laws

section Scenarios

/-- Standard tokens, markets of calls, and the claims that have been paid. -/
structure PoolLedger where
  ledger : StandardLedger
  calls : Nat → Option Call
  claimed : List (Nat × Address)

namespace PoolLedger

/-- The market of a call. -/
def marketOf (callId : Nat) : Address := ⟨1000 + callId⟩

variable (m : PoolLedger)

def setLedger (ledger : StandardLedger) : PoolLedger := { m with ledger := ledger }

def setCall (callId : Nat) (call : Call) : PoolLedger :=
  { m with calls := Function.update m.calls callId (some call) }

/-- A call with one more stake. -/
def stakedCall (call : Call) (staker : Address) (amount : Int) (position : Nat) : Call :=
  let stakes := (call.stakes.lookup position).getD ∅
  { call with
    outcomeStakes :=
      call.outcomeStakes.insert position (valueAt call.outcomeStakes position + amount)
    stakes := call.stakes.insert position (stakes.insert staker (valueAt stakes staker + amount)) }

/-- A stake on a call that has no outcome yet, paid to its market. -/
def stake (env : Env) (staker : Address) (callId : Nat) (amount : Int) (position : Nat) :
    Option PoolLedger :=
  (m.calls callId).bind fun call =>
    if call.outcome = 0 ∧ 0 < amount then
      (Tokens.transfer env call.stakeToken staker (marketOf callId) amount m.ledger).map
        fun ledger => (m.setLedger ledger).setCall callId (stakedCall call staker amount position)
    else none

/-- The claim of a winner who has not claimed, without a fee, paid by the market. -/
def claim (env : Env) (callId : Nat) (staker : Address) (stake winning losing : Int) :
    Option PoolLedger :=
  (m.calls callId).bind fun call =>
    if call.outcome ≠ 0 ∧ (callId, staker) ∉ m.claimed ∧ 0 < stake ∧ 0 < winning then
      (Tokens.transfer { env with contract := marketOf callId } call.stakeToken
        (marketOf callId) staker (stake + stake * losing / winning) m.ledger).map
        fun ledger => { m.setLedger ledger with claimed := (callId, staker) :: m.claimed }
    else none

end PoolLedger

instance : Markets PoolLedger where
  balance m token who := Tokens.balance m.ledger token who
  transfer env token sender recipient amount m :=
    (Tokens.transfer env token sender recipient amount m.ledger).map m.setLedger
  mint env token recipient amount m :=
    (Tokens.mint env token recipient amount m.ledger).map m.setLedger
  clawback env token holder amount m :=
    (Tokens.clawback env token holder amount m.ledger).map m.setLedger
  deploy env wasmHash salt m :=
    (Tokens.deploy env wasmHash salt m.ledger).map fun (token, ledger) =>
      (token, m.setLedger ledger)
  getMarket m _ callId := if (m.calls callId).isSome then some (PoolLedger.marketOf callId) else none
  getCall m market callId := if market = PoolLedger.marketOf callId then m.calls callId else none
  stakeOnCall env market staker callId amount position m :=
    if market = PoolLedger.marketOf callId then m.stake env staker callId amount position else none
  claimPayoutForMarket env _ callId staker stake winning losing m :=
    m.claim env callId staker stake winning losing

namespace PoolLedger

theorem transfer_eq_some {env : Env} {token sender recipient : Address} {amount : Int}
    {m m' : PoolLedger} (h : Tokens.transfer env token sender recipient amount m = some m') :
    Tokens.transfer env token sender recipient amount m.ledger = some m'.ledger ∧
      m'.calls = m.calls ∧ m'.claimed = m.claimed := by
  obtain ⟨ledger, hledger, rfl⟩ := Option.map_eq_some_iff.mp h
  exact ⟨hledger, rfl, rfl⟩

theorem exact_transfers : ExactTransfers PoolLedger :=
  fun h other who => StandardLedger.exact_transfers (transfer_eq_some h).1 other who

theorem holders_pay : HoldersPay PoolLedger := by
  intro env token recipient amount held m hheld hpositive hle
  obtain ⟨ledger, hledger⟩ :=
    StandardLedger.holders_pay env token recipient amount held m.ledger hheld hpositive hle
  exact ⟨m.setLedger ledger, Option.map_eq_some_iff.mpr ⟨ledger, hledger, rfl⟩⟩

theorem stakes_kept_of_calls {who : Address} {m m' : PoolLedger} (h : m'.calls = m.calls) :
    StakesKept who m m' := by
  refine .of_calls fun market id => ?_
  simp only [MarketViews.getCall, h]

theorem claim_calls {env : Env} {callId : Nat} {staker : Address} {stake winning losing : Int}
    {m m' : PoolLedger} (h : m.claim env callId staker stake winning losing = some m') :
    m'.calls = m.calls ∧ m'.claimed = (callId, staker) :: m.claimed := by
  obtain ⟨call, -, h⟩ := Option.bind_eq_some_iff.mp h
  split at h
  · obtain ⟨ledger, -, rfl⟩ := Option.map_eq_some_iff.mp h
    exact ⟨rfl, rfl⟩
  · cases h

/-- A stake is recorded, and nothing else of a call is changed. -/
theorem stake_eq_some {env : Env} {callId : Nat} {staker : Address} {amount : Int} {position : Nat}
    {m m' : PoolLedger} (h : m.stake env staker callId amount position = some m') :
    ∃ call call', m.calls callId = some call ∧
      m'.calls = Function.update m.calls callId (some call') ∧ call'.outcome = call.outcome ∧
      m'.claimed = m.claimed ∧
      ∀ pos who, stakeOn call' pos who =
        stakeOn call pos who + if pos = position ∧ who = staker then amount else 0 := by
  obtain ⟨call, hcall, h⟩ := Option.bind_eq_some_iff.mp h
  split at h
  · obtain ⟨ledger, -, rfl⟩ := Option.map_eq_some_iff.mp h
    refine ⟨call, _, hcall, rfl, rfl, rfl, fun pos who => ?_⟩
    unfold stakeOn stakedCall
    by_cases hpos : pos = position
    · subst hpos
      simp only [AList.lookup_insert, Option.getD_some, valueAt_insert, true_and]
      split
      · next hwho => rw [hwho]
      · exact (add_zero _).symm
    · simp only [AList.lookup_insert_ne hpos, hpos, false_and, if_false, add_zero]
  · cases h

theorem market_laws (self : Address) : MarketLaws PoolLedger self := by
  constructor
  · intro m market id id' call call' hcall hcall'
    simp only [MarketViews.getCall] at hcall hcall'
    split at hcall
    · next hmarket =>
      split at hcall'
      · next hmarket' =>
        have := hmarket.symm.trans hmarket'
        simp only [marketOf, Address.mk.injEq] at this
        omega
      · cases hcall'
    · cases hcall
  · intro env token sender recipient amount m m' h
    exact stakes_kept_of_calls (transfer_eq_some h).2.1
  · intro env manager id staker stake winning losing m m' h
    exact stakes_kept_of_calls (claim_calls h).1
  · intro env market callId amount position m m' h
    simp only [Markets.stakeOnCall] at h
    split at h
    · next hmarket =>
      obtain ⟨call, call', hcall, hcalls, houtcome, -, hstakes⟩ := stake_eq_some h
      constructor
      · intro other id old hold
        simp only [MarketViews.getCall] at hold ⊢
        split at hold
        · next hother =>
          by_cases hid : id = callId
          · subst hid
            obtain rfl := Option.some.inj (hcall.symm.trans hold)
            refine ⟨call', ?_, ?_, fun pos => ?_⟩
            · rw [if_pos hother, hcalls, Function.update_self]
            · rw [houtcome]
              exact fun hne => hne
            · rw [hstakes, stakeAdded, hother, hmarket]
              simp
          · refine ⟨old, ?_, fun hne => hne, fun pos => ?_⟩
            · rw [if_pos hother, hcalls, Function.update_of_ne hid, hold]
            · rw [stakeAdded, if_neg (by simp [hid]), add_zero]
        · cases hold
      · intro other id new hnone hnew pos
        simp only [MarketViews.getCall] at hnone hnew
        split at hnone
        · next hother =>
          rw [if_pos hother, hcalls] at hnew
          by_cases hid : id = callId
          · subst hid
            rw [hcall] at hnone
            cases hnone
          · rw [Function.update_of_ne hid, hnone] at hnew
            cases hnew
        · next hother =>
          rw [if_neg hother] at hnew
          cases hnew
    · cases h

end PoolLedger

end Scenarios

end Backit.LendingPool
