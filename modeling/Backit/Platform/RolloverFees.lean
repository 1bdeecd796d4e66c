import Backit.OutcomeManager.Executions
import Backit.Platform.Ledger
import Backit.PredictionMarket.Withdrawals

/-!
# Rollovers and claims

A rollover pays its winner out of the market, and a claim has the manager release the payout. The
claim takes the fee on the losing pool and releases it to the fee collector. The rollover takes the
fee on all stakes, and leaves it in the market. The two pay the same only where rounding hides the
fees.
-/

namespace Backit.Platform

open Soroban Contract Lib Shared OutcomeManager PredictionMarket

/-- The recipient and the amount of a transfer. -/
def transferred : Effect PredictionMarket.Event → Option (Address × Int)
  | .transfer _ _ recipient amount => some (recipient, amount)
  | _ => none

/-- The recipient and the amount of a release of escrow. -/
def released : Effect Act → Option (Address × Int)
  | .event (.releaseEscrow _ _ recipient amount) => some (recipient, amount)
  | _ => none

/-- What a market pays, oldest payment first. -/
def marketPayments (effects : List (Effect PredictionMarket.Event)) : List (Address × Int) :=
  (effects.filterMap transferred).reverse

/-- What a manager has the escrow pay, oldest payment first. -/
def escrowPayments (effects : List (Effect Act)) : List (Address × Int) :=
  (effects.filterMap released).reverse

/-- A payment that is made if it is worth something. -/
def paymentOf (recipient : Address) (amount : Int) : List (Address × Int) :=
  if 0 < amount then [(recipient, amount)] else []

/-- Neither the fee of a claim nor the larger fee of a rollover makes a difference to what a stake
gets in whole units. -/
def FeesVanish (winning losing stake : Int) (feeBps : Nat) : Prop :=
  stake * totalFee losing feeBps < winning ∧
    stake * (min (totalFee (winning + losing) feeBps) losing - totalFee losing feeBps) ≤
      stake * (losing - totalFee losing feeBps) % winning

section Amounts

variable {winning losing stake : Int} {feeBps : Nat}

theorem fee_share_eq_zero_iff (hlosing : 0 ≤ losing) (hwinning : 0 < winning) (hstake : 0 ≤ stake) :
    feeShare losing feeBps winning stake = 0 ↔ stake * totalFee losing feeBps < winning :=
  proRata_eq_zero_iff (total_fee_nonneg _ hlosing) hwinning hstake

/-- A rollover takes at least the fee of a claim out of the losing pool, and at most all of it. -/
theorem rolled_payout_eq (winning losing stake : Int) (feeBps : Nat) :
    rolledPayout losing feeBps winning stake =
      stake + proRata (losing - totalFee losing feeBps -
        (min (totalFee (winning + losing) feeBps) losing - totalFee losing feeBps)) winning
          stake := by
  have hnet : max 0 (losing - totalFee (winning + losing) feeBps) =
      losing - totalFee losing feeBps -
        (min (totalFee (winning + losing) feeBps) losing - totalFee losing feeBps) := by
    omega
  rw [← hnet]
  rfl

theorem rolled_payout_eq_iff (hlosing : 0 ≤ losing) (hwinning : 0 < winning) (hstake : 0 ≤ stake)
    (hfee : feeBps ≤ 10000) :
    rolledPayout losing feeBps winning stake = payout losing feeBps winning stake ↔
      stake * (min (totalFee (winning + losing) feeBps) losing - totalFee losing feeBps) ≤
        stake * (losing - totalFee losing feeBps) % winning := by
  have hwithin := total_fee_le hlosing hfee
  have hmore : totalFee losing feeBps ≤ totalFee (winning + losing) feeBps :=
    Int.ediv_le_ediv (by decide)
      (mul_le_mul_of_nonneg_right (by omega) (Int.natCast_nonneg _))
  rw [rolled_payout_eq, payout, add_right_inj]
  exact proRata_sub_eq_iff hwinning hstake (by omega)

end Amounts

section Effects

variable {env : Env} {config : MarketConfig} {call : Call} {user newMarket registry : Address}
  {terms : RolloverTerms} {newCallId callId : Nat}

/-- A rollover pays its user and then the bonus, and nobody else. -/
theorem rollover_payments :
    marketPayments (rolloverEffects env config call user terms newMarket newCallId) =
      (user, terms.payout) :: paymentOf newMarket terms.split.bonus := by
  unfold rolloverEffects paymentOf
  by_cases hbonus : 0 < terms.split.bonus
  · rw [if_pos hbonus, if_pos hbonus]
    rfl
  · rw [if_neg hbonus, if_neg hbonus]
    rfl

theorem claim_payments [Crypto] [Network] {feeCollector : Address} {x : Payment} :
    escrowPayments (claimEffects registry callId feeCollector x) =
      paymentOf feeCollector x.feeShare ++ [(x.payee, x.amount)] := by
  unfold claimEffects feeEffects paymentOf
  by_cases hshare : 0 < x.feeShare
  · rw [if_pos hshare, if_pos hshare]
    rfl
  · rw [if_neg hshare, if_neg hshare]
    rfl

end Effects

section Fees

variable {P R : Type} [Peers P] {v : OutcomeManager.World R}

/-- Whatever a call for the fees at an address returns, the manager in the given state returns. -/
def AsksManager (env : Env) (address : Address) (p : P) (v : OutcomeManager.World R) : Prop :=
  ∀ fees, Peers.feeConfig env address p = some fees →
    ∃ env', run getFeeConfig env' v.frame = .ok (fees, v.frame)

/-- The fee that a rollover reads is the one of the manager it asks. -/
theorem AsksManager.fee {env : Env} {address : Address} {p : P} {feeBps : Nat}
    {feeCollector : Address} (h : AsksManager env address p v)
    (hfee : Peers.feeConfig env address p = some (feeBps, feeCollector)) :
    feeBps = v.store.settings.feeBps := by
  obtain ⟨_, hrun⟩ := h _ hfee
  simp only [getFeeConfig, run_getStore_bind, run_unwrap_bind, run_pure] at hrun
  obtain ⟨_, -, hrun⟩ := hrun
  cases hrun
  rfl

theorem AsksManager.of {env : Env} {address : Address} {p : P} {feeBps : Nat}
    {feeCollector : Address} (hfee : v.store.settings.feeBps = feeBps)
    (hcollector : v.store.settings.feeCollector = some feeCollector)
    (hp : Peers.feeConfig env address p = some (feeBps, feeCollector)) :
    AsksManager env address p v := by
  intro fees hfees
  obtain rfl := Option.some.inj (hp.symm.trans hfees)
  refine ⟨env, ?_⟩
  simp only [getFeeConfig, run_getStore_bind, run_unwrap_bind, run_pure]
  refine ⟨feeCollector, hcollector, ?_⟩
  rw [← hfee]
  rfl

end Fees

section Run

variable {P R : Type} [Peers P] [Registries R] [Crypto] [Network] {self m : Address}
  {outside : P → P → Prop} {outside' : R → R → Prop}
  {history : List PredictionMarket.Label} {history' : List OutcomeManager.Label}
  {w : PredictionMarket.World P} {v : OutcomeManager.World R} {env env' : Env}
  {config : MarketConfig} {call : Call} {user registry : Address} {callId newCallId : Nat}
  {rollover : RolloverConfig} {f : Frame PredictionMarket.Storage P PredictionMarket.Event}
  {g : Frame OutcomeManager.Storage R Act}

theorem claim_pays {stake winning losing : Int}
    (hclaim : Contract.run (claimPayout registry callId user stake winning losing) env' v.frame =
      .ok ((), g)) :
    ∃ feeCollector share amount, Quoted v.store.settings stake winning losing share amount ∧
      escrowPayments g.effects = paymentOf feeCollector share ++ [(user, amount)] := by
  obtain ⟨payments, effects, p', others, hstep, rfl⟩ := claim_payout_steps .direct hclaim
  cases hstep with
  | @claimPayout _ _ _ _ _ _ _ x feeCollector _ _ hfrom _ _ hpayee _ hpaid _ =>
    cases hfrom
    refine ⟨feeCollector, x.feeShare, x.amount, hpaid.quoted x (.head _), ?_⟩
    have heffects : (Frame.afterCalls
        { v.frame with store := v.frame.store.onPayouts fun _ => p' } others
          (claimEffects registry callId feeCollector x)).effects =
            claimEffects registry callId feeCollector x := List.append_nil _
    rw [heffects, claim_payments, hpayee]
  | batch hop => cases hop

/-- A rollover pays its winner what a claim would, and the fee collector as much, if and only if
the fees vanish in the rounding. It pays the fee collector nothing. -/
theorem rollover_pays_claim_iff (run : (market self outside).Run history w)
    (run' : (manager m outside').Run history' v) (hcall : w.store.pool.call = some call)
    (hconfig : w.store.config = some config)
    (hasks : AsksManager env config.outcomeManager w.peers v)
    (hroll : Contract.run (claimAndRollover user callId rollover) env w.frame = .ok (newCallId, f))
    (hclaim : Contract.run (claimPayout registry callId user (call.stakeOf user) call.winningPool
      call.losingPool) env' v.frame = .ok ((), g)) :
    ∃ newMarket bonus feeCollector rolled share amount,
      marketPayments f.effects = (user, rolled) :: paymentOf newMarket bonus ∧
      escrowPayments g.effects = paymentOf feeCollector share ++ [(user, amount)] ∧ 0 ≤ share ∧
      (rolled = amount ∧ share = 0 ↔ FeesVanish call.winningPool call.losingPool
        (call.stakeOf user) v.store.settings.feeBps) := by
  have hp := (recorded_of_run run).pooled call hcall
  obtain ⟨config', call', terms, newMarket, stages, -, hrolled⟩ := claim_and_rollover_rolls hroll
  obtain rfl : config = config' := Option.some.inj (hconfig.symm.trans hrolled.configured)
  obtain rfl : call = call' := Option.some.inj (hcall.symm.trans hrolled.stored)
  obtain ⟨feeBps, _, hfee, hcomputed⟩ := hrolled.computed
  obtain rfl := hasks.fee hfee
  have hterms := hcomputed.exact hp
  have hvalid : v.store.settings.feeBps ≤ 10000 := fee_valid_of_run run'
  have hlosing := hp.losingPool_nonneg
  obtain ⟨feeCollector, share, amount, hquoted, hreleased⟩ := claim_pays hclaim
  obtain ⟨rfl, rfl⟩ := hquoted.exact hvalid hlosing
  refine ⟨newMarket, terms.split.bonus, feeCollector, terms.payout, _, _, ?_, hreleased,
    fee_share_nonneg hlosing hquoted.winning_pos hquoted.stake_pos.le, ?_⟩
  · have heffects : f.effects =
        rolloverEffects env config call user terms newMarket newCallId := by
      rw [hrolled.result]
      exact List.append_nil _
    rw [heffects, rollover_payments]
  · rw [hterms.payout, rolled_payout_eq_iff hlosing hquoted.winning_pos hquoted.stake_pos.le hvalid,
      fee_share_eq_zero_iff hlosing hquoted.winning_pos hquoted.stake_pos.le, and_comm]
    rfl

end Run

section Scenarios

attribute [local instance] scenarioCrypto testNetwork

/-- What is computed of a success is computed of an outcome. -/
theorem ok_of_view {ε α φ β : Type} {result : Except ε (α × φ)} {view : α × φ → β} {b : β}
    (h : result.toOption.map view = some b) : ∃ a f, result = .ok (a, f) ∧ view (a, f) = b := by
  cases result with
  | error e => cases h
  | ok reached => exact ⟨reached.1, reached.2, rfl, Option.some.inj h⟩

/-- Two oracles decide call 1. -/
def decidedRun :
    System.Replayed (manager OutcomeManager.home fun _ (_ : WillingRegistries) => False)
      (OutcomeManager.World.next OutcomeManager.home) System.anything :=
  .of OutcomeManager.freshWorld OutcomeManager.fresh_world_initial
    [opening, OutcomeManager.submits 1001 oracleA signatureA,
      OutcomeManager.submits 1002 oracleB signatureB]
    (by decide +kernel)

/-- Alice and Bob win a hundred units against Carol's fifty-five. -/
def smallPoolRun :
    System.Replayed (market PredictionMarket.home fun _ (_ : RolloverLedger) => False)
      (PredictionMarket.World.next PredictionMarket.home) System.anything :=
  .of (feeWorld 100) (fee_world_initial 100)
    ([deployment, PredictionMarket.at_ 2 [alice] (.stakeOnCall alice 1 30 1),
      PredictionMarket.at_ 3 [bob] (.stakeOnCall bob 1 70 1),
      PredictionMarket.at_ 4 [carol] (.stakeOnCall carol 1 55 2)] ++ settling)
    (by decide +kernel)

/-- Alice wins a thousand units against a thousand of Carol's. -/
def evenPoolsRun :
    System.Replayed (market PredictionMarket.home fun _ (_ : RolloverLedger) => False)
      (PredictionMarket.World.next PredictionMarket.home) System.anything :=
  .of (feeWorld 100) (fee_world_initial 100)
    ([deployment, PredictionMarket.at_ 2 [alice] (.stakeOnCall alice 1 1000 1),
      PredictionMarket.at_ 3 [carol] (.stakeOnCall carol 1 1000 2)] ++ settling)
    (by decide +kernel)

/-- Alice's environment at the market. -/
def rolloverEnv : Env := ⟨PredictionMarket.home, 100002, 100002, [alice]⟩

/-- Alice's environment at the manager. -/
def claimEnv : Env := ⟨OutcomeManager.home, 100002, 100002, [alice]⟩

theorem decided_fee : decidedRun.state.store.settings.feeBps = 100 ∧
    decidedRun.state.store.settings.feeCollector = some feeCollectorAddress := by
  decide +kernel

theorem scenario_asks {p : RolloverLedger} (hfee : p.feeBps = 100) (env : Env) :
    AsksManager env managerAddress p decidedRun.state :=
  .of decided_fee.1 decided_fee.2 (by rw [← hfee]; rfl)

/-- Of Carol's fifty-five units neither way of paying takes a unit from Alice. -/
theorem rollover_pays_small_claim :
    ∃ call f g newMarket bonus feeCollector rolled share amount,
      smallPoolRun.state.store.pool.call = some call ∧
      run (claimAndRollover alice 1 wholePayout) rolloverEnv smallPoolRun.state.frame =
        .ok (2, f) ∧
      run (claimPayout marketAddress 1 alice (call.stakeOf alice) call.winningPool
        call.losingPool) claimEnv decidedRun.state.frame = .ok ((), g) ∧
      marketPayments f.effects = (alice, rolled) :: paymentOf newMarket bonus ∧
      escrowPayments g.effects = paymentOf feeCollector share ++ [(alice, amount)] ∧
      rolled = amount ∧ share = 0 := by
  have hdeployed : smallPoolRun.state.store.pool.call.isSome = true := by decide +kernel
  obtain ⟨call, hcall⟩ := Option.isSome_iff_exists.mp hdeployed
  have hpools : smallPoolRun.state.store.pool.call.map (fun call =>
      (call.stakeOf alice, call.winningPool, call.losingPool)) = some (30, 100, 55) := by
    decide +kernel
  rw [hcall] at hpools
  obtain ⟨hstake, hwinning, hlosing⟩ : call.stakeOf alice = 30 ∧ call.winningPool = 100 ∧
      call.losingPool = 55 := by simpa using hpools
  have hmanager : smallPoolRun.state.store.config.map MarketConfig.outcomeManager =
      some managerAddress := by decide +kernel
  obtain ⟨config, hconfig, hmanager⟩ := Option.map_eq_some_iff.mp hmanager
  have hroll : (run (claimAndRollover alice 1 wholePayout) rolloverEnv
      smallPoolRun.state.frame).toOption.map Prod.fst = some 2 := by decide +kernel
  obtain ⟨_, f, hroll, rfl⟩ := ok_of_view hroll
  have hclaim : (run (claimPayout marketAddress 1 alice 30 100 55) claimEnv
      decidedRun.state.frame).toOption.map Prod.fst = some () := by decide +kernel
  obtain ⟨_, g, hclaim, -⟩ := ok_of_view hclaim
  rw [← hstake, ← hwinning, ← hlosing] at hclaim
  obtain ⟨newMarket, bonus, feeCollector, rolled, share, amount, hrolled, hreleased, -, hiff⟩ :=
    rollover_pays_claim_iff (smallPoolRun.run PredictionMarket.World.next_step
      System.anything_allowed) (decidedRun.run OutcomeManager.World.next_step
      System.anything_allowed) hcall hconfig (hmanager ▸ scenario_asks (by decide +kernel) _)
      hroll hclaim
  have hvanish : FeesVanish call.winningPool call.losingPool (call.stakeOf alice)
      decidedRun.state.store.settings.feeBps := by
    rw [hstake, hwinning, hlosing, decided_fee.1]
    unfold FeesVanish totalFee
    decide
  obtain ⟨hequal, hnone⟩ := hiff.mpr hvanish
  exact ⟨call, f, g, newMarket, bonus, feeCollector, rolled, share, amount, hcall, hroll, hclaim,
    hrolled, hreleased, hequal, hnone⟩

/-- Of even pools of a thousand each, with a fee of one percent, a claim releases 1990 units to
Alice and 10 to the fee collector. A rollover pays Alice 1980, and the fee collector nothing. -/
theorem rollover_underpays :
    (market PredictionMarket.home fun _ (_ : RolloverLedger) => False).Run evenPoolsRun.history
        evenPoolsRun.state ∧
      (manager OutcomeManager.home fun _ (_ : WillingRegistries) => False).Run decidedRun.history
        decidedRun.state ∧
      evenPoolsRun.state.store.config.map MarketConfig.outcomeManager = some managerAddress ∧
      AsksManager rolloverEnv managerAddress evenPoolsRun.state.peers decidedRun.state ∧
      evenPoolsRun.state.store.pool.call.map (fun call =>
        (call.stakeOf alice, call.winningPool, call.losingPool)) = some (1000, 1000, 1000) ∧
      ∃ f g, run (claimAndRollover alice 1 wholePayout) rolloverEnv evenPoolsRun.state.frame =
          .ok (2, f) ∧
        run (claimPayout marketAddress 1 alice 1000 1000 1000) claimEnv
          decidedRun.state.frame = .ok ((), g) ∧
        marketPayments f.effects = [(alice, 1980), (successor, 19)] ∧
        escrowPayments g.effects = [(feeCollectorAddress, 10), (alice, 1990)] := by
  have hmanager : evenPoolsRun.state.store.config.map MarketConfig.outcomeManager =
      some managerAddress := by decide +kernel
  have hpools : evenPoolsRun.state.store.pool.call.map (fun call =>
      (call.stakeOf alice, call.winningPool, call.losingPool)) = some (1000, 1000, 1000) := by
    decide +kernel
  have hroll : (run (claimAndRollover alice 1 wholePayout) rolloverEnv
      evenPoolsRun.state.frame).toOption.map (fun r => (r.1, marketPayments r.2.effects)) =
        some (2, [(alice, 1980), (successor, 19)]) := by decide +kernel
  obtain ⟨_, f, hroll, hview⟩ := ok_of_view hroll
  cases (Prod.ext_iff.mp hview).1
  have hclaim : (run (claimPayout marketAddress 1 alice 1000 1000 1000) claimEnv
      decidedRun.state.frame).toOption.map (fun r => escrowPayments r.2.effects) =
        some [(feeCollectorAddress, 10), (alice, 1990)] := by decide +kernel
  obtain ⟨_, g, hclaim, hreleased⟩ := ok_of_view hclaim
  exact ⟨evenPoolsRun.run PredictionMarket.World.next_step System.anything_allowed,
    decidedRun.run OutcomeManager.World.next_step System.anything_allowed, hmanager,
    scenario_asks (by decide +kernel) _, hpools, f, g, hroll, hclaim, (Prod.ext_iff.mp hview).2,
    hreleased⟩

end Scenarios

end Backit.Platform
