import Backit.CallRegistry.Specifications
import Backit.OutcomeManager.Executions
import Backit.Platform.Ledger
import Backit.PredictionMarket.Rollover

/-!
# What calls between the contracts change

Calls to tokens leave every resident as it is. A call to a registry or a market replaces the called
contract alone; a manager calls nothing else. A rollover reaches the manager only to record the
claim.
-/

namespace Backit.Platform

open Soroban Contract OutcomeManager PredictionMarket PredictionMarketFactory

variable {S : Type}

namespace Ledger

@[simp] theorem set_resident (l : Ledger S) (address : Address) (r : Resident) :
    (l.set address r).resident address = r := Function.update_self _ _ _

theorem set_resident_ne (l : Ledger S) {address other : Address} (r : Resident)
    (h : other ≠ address) : (l.set address r).resident other = l.resident other :=
  Function.update_of_ne h _ _

@[simp] theorem withRest_resident (l : Ledger S) (rest : S) :
    (l.withRest rest).resident = l.resident := rfl

theorem manager_at_eq {l : Ledger S} {m : Address} {s : OutcomeManager.Storage} :
    l.managerAt m = some s ↔ l.resident m = .manager s := by
  unfold managerAt Resident.asManager
  cases l.resident m <;> simp

theorem manager_at_congr {l l' : Ledger S} (h : l'.resident = l.resident) :
    l'.managerAt = l.managerAt := by
  unfold managerAt
  rw [h]

theorem manager_at_set (l : Ledger S) (address : Address) (r : Resident) :
    (l.set address r).managerAt = Function.update l.managerAt address r.asManager := by
  funext m
  by_cases hm : m = address
  · subst hm
    simp [managerAt]
  · rw [Function.update_of_ne hm]
    unfold managerAt
    rw [set_resident_ne _ _ hm]

/-- Replacing a resident by one that is as much a manager. -/
theorem manager_at_replaced (l : Ledger S) {address : Address} (rest : S) {r : Resident}
    (h : r.asManager = (l.resident address).asManager) :
    ((l.withRest rest).set address r).managerAt = l.managerAt := by
  rw [manager_at_set, h]
  exact Function.update_eq_self _ _

/-- Managers after the contract at an address has run and is put back. -/
theorem manager_at_put_back {l l₁ : Ledger S} {address : Address} {r : Resident}
    (hran : l₁.managerAt = (l.set address .running).managerAt) :
    (l₁.set address r).managerAt = Function.update l.managerAt address r.asManager := by
  rw [manager_at_set, hran, manager_at_set, Function.update_idem]

theorem manager_at_returned {l l₁ : Ledger S} {address : Address} {r : Resident}
    (hran : l₁.managerAt = (l.set address .running).managerAt)
    (hkind : r.asManager = (l.resident address).asManager) :
    (l₁.set address r).managerAt = l.managerAt := by
  rw [manager_at_put_back hran, hkind]
  exact Function.update_eq_self _ _

theorem set_returned {l l' : Ledger S} {address : Address} {r : Resident}
    (h : l'.resident = (l.set address r).resident) (r' : Resident) :
    l'.set address r' = (l.withRest l'.rest).set address r' := by
  simp only [set, withRest, h, Function.update_idem]

/-- A successful visit runs the computation and puts the contract back. -/
theorem visit_eq_some {σ E ε α : Type} {l l' : Ledger S} {wrap : σ → Resident} {env : Env}
    {address : Address} {s : σ} {op : Contract (Frame σ (Ledger S) E) ε α} {a : α} :
    l.visit wrap env address s op = some (a, l') ↔
      ∃ f, run op (l.callee env address) ⟨s, l.set address .running, []⟩ = .ok (a, f) ∧
        l' = f.tokens.set address (wrap f.store) := by
  unfold visit
  split
  · next b f h =>
    rw [h]
    constructor
    · rintro ⟨⟩
      exact ⟨f, rfl, rfl⟩
    · rintro ⟨f', hok, rfl⟩
      cases hok
      rfl
  · next e h => simp [h]

end Ledger

theorem replays_resident [Tokens S] {E : Type} {env : Env} {l l' : Ledger S}
    {effects : List (Effect E)} (h : Replays env l effects l') : l'.resident = l.resident := by
  induction h with
  | nil => rfl
  | event _ ih => exact ih
  | transfer _ hcall ih =>
    obtain ⟨rest, -, rfl⟩ := Option.map_eq_some_iff.mp hcall
    exact ih
  | mint _ hcall ih =>
    obtain ⟨rest, -, rfl⟩ := Option.map_eq_some_iff.mp hcall
    exact ih
  | clawback _ hcall ih =>
    obtain ⟨rest, -, rfl⟩ := Option.map_eq_some_iff.mp hcall
    exact ih
  | deploy _ hcall ih =>
    obtain ⟨⟨token, rest⟩, -, heq⟩ := Option.map_eq_some_iff.mp hcall
    cases heq
    exact ih

section Visits

variable {env : Env} {address : Address} {l l' : Ledger S}

/-- A visit to a registry runs the operation and replaces the registry alone. -/
theorem visit_registry [Tokens S] [Crypto] {s : CallRegistry.Storage}
    {op : CallRegistry.MarketOp} {u : Unit}
    (h : l.visit .registry env address s op.perform = some (u, l')) :
    ∃ f, run op.perform (l.callee env address) ⟨s, l.set address .running, []⟩ = .ok (u, f) ∧
      l' = (l.withRest f.tokens.rest).set address (.registry f.store) := by
  obtain ⟨f, hrun, rfl⟩ := Ledger.visit_eq_some.mp h
  obtain ⟨-, -, effects, -, hreplay, -⟩ := CallRegistry.MarketOp.steps hrun
  exact ⟨f, hrun, Ledger.set_returned (replays_resident hreplay) _⟩

/-- A visit to a market makes a transition and replaces the market alone. -/
theorem visit_market [Tokens S] {s : PredictionMarket.Storage} {α : Type} {a : α}
    {entry : Market (Ledger S) α} {op : PredictionMarket.MarketOp}
    (hmakes : ∀ {env f f' a}, run entry env f = .ok (a, f') → Makes env op f f')
    (h : l.visit .market env address s entry = some (a, l')) :
    ∃ f, Makes (l.callee env address) op ⟨s, l.set address .running, []⟩ f ∧
      l' = (l.withRest f.tokens.rest).set address (.market f.store) := by
  obtain ⟨f, hrun, rfl⟩ := Ledger.visit_eq_some.mp h
  obtain ⟨effects, heffects, hreplay, hmade⟩ := hmakes hrun
  exact ⟨f, ⟨effects, heffects, hreplay, hmade⟩, Ledger.set_returned (replays_resident hreplay) _⟩

/-- What a call of a manager does: a step of the registry or a transition of the market at the
called address, or what a stranger does. -/
inductive Reaches [Tokens S] [Crypto] (env : Env) (address : Address)
    (registryOp : CallRegistry.MarketOp) (marketOp : PredictionMarket.MarketOp) (l : Ledger S) :
    Ledger S → Prop where
  | registry {s : CallRegistry.Storage} {f} : l.resident address = .registry s →
      run registryOp.perform (l.callee env address) ⟨s, l.set address .running, []⟩ =
        .ok ((), f) →
      Reaches env address registryOp marketOp l
        ((l.withRest f.tokens.rest).set address (.registry f.store))
  | market {s f} : l.resident address = .market s →
      Makes (l.callee env address) marketOp ⟨s, l.set address .running, []⟩ f →
      Reaches env address registryOp marketOp l
        ((l.withRest f.tokens.rest).set address (.market f.store))
  | stranger {rest} :
      l.resident address = .stranger → Reaches env address registryOp marketOp l (l.withRest rest)

variable [Strangers S] [Crypto]

theorem call_escrow_reaches {op : CallRegistry.MarketOp} {marketOp : PredictionMarket.MarketOp}
    {α : Type} {entry : Market (Ledger S) α} {elsewhere : Option S}
    (hmakes : ∀ {env f f' a}, run entry env f = .ok (a, f') → Makes env marketOp f f')
    (h : l.callEscrow env address op entry elsewhere = some l') :
    Reaches env address op marketOp l l' := by
  unfold Ledger.callEscrow at h
  split at h
  · next s hresident =>
    obtain ⟨⟨u, l''⟩, hvisit, rfl⟩ := Option.map_eq_some_iff.mp h
    obtain ⟨f, hrun, rfl⟩ := visit_registry hvisit
    exact .registry hresident hrun
  · next s hresident =>
    obtain ⟨⟨a, l''⟩, hvisit, rfl⟩ := Option.map_eq_some_iff.mp h
    obtain ⟨f, hmade, rfl⟩ := visit_market hmakes hvisit
    exact .market hresident hmade
  · next hresident =>
    obtain ⟨rest, -, rfl⟩ := Option.map_eq_some_iff.mp h
    exact .stranger hresident
  · cases h

theorem resolve_call_reaches {callId outcome : Nat} {endPrice : Int}
    (h : Registries.resolveCall env address callId outcome endPrice l = some l') :
    Reaches env address (.resolveCall callId outcome endPrice)
      (.resolveCall callId outcome endPrice) l l' :=
  call_escrow_reaches resolve_call_makes h

theorem release_escrow_reaches {callId : Nat} {recipient : Address} {amount : Int}
    (h : Registries.releaseEscrow env address callId recipient amount l = some l') :
    Reaches env address (.releaseEscrow callId recipient amount)
      (.releaseEscrow callId recipient amount) l l' :=
  call_escrow_reaches release_escrow_makes h

theorem mark_settled_reaches {callId : Nat}
    (h : Registries.markSettled env address callId l = some l') :
    Reaches env address (.markSettled callId) (.markSettled callId) l l' :=
  call_escrow_reaches mark_settled_makes h

theorem Reaches.manager_at {registryOp : CallRegistry.MarketOp}
    {marketOp : PredictionMarket.MarketOp} (h : Reaches env address registryOp marketOp l l') :
    l'.managerAt = l.managerAt := by
  cases h with
  | registry hresident => exact l.manager_at_replaced _ (by rw [hresident]; rfl)
  | market hresident => exact l.manager_at_replaced _ (by rw [hresident]; rfl)
  | stranger => rfl

/-- The calls of a manager leave every manager as it is. -/
theorem calls_manager_at {effects : List (Effect Act)} (h : Calls env l effects l') :
    l'.managerAt = l.managerAt := by
  induction h with
  | nil => rfl
  | event _ ih => exact ih
  | resolveCall _ hcall ih => exact (resolve_call_reaches hcall).manager_at.trans ih
  | releaseEscrow _ hcall ih => exact (release_escrow_reaches hcall).manager_at.trans ih
  | markSettled _ hcall ih => exact (mark_settled_reaches hcall).manager_at.trans ih

theorem report_manager_at [Network] {s : Settings} {t t' : Tally} {op : ReportOp}
    {effects : List (Effect Act)} (h : ReportStep env s op t l effects t' l') :
    l'.managerAt = l.managerAt := by
  cases h with
  | decide _ _ _ _ hcall => exact (resolve_call_reaches hcall).manager_at
  | confirm _ _ _ _ hcall => exact (resolve_call_reaches hcall).manager_at
  | finalizeOutcome _ _ _ _ hcall => exact (resolve_call_reaches hcall).manager_at
  | _ => rfl

theorem payout_manager_at [Network] {s : Settings} {t : Tally} {op : PayoutOp} {p p' : Payouts}
    {payments : List Payment} {effects : List (Effect Act)}
    (h : PayoutStep env s t op p l payments effects p' l') : l'.managerAt = l.managerAt := by
  cases h with
  | claimPayout _ _ _ _ _ _ hcalls => exact calls_manager_at hcalls
  | claimOnBehalf _ _ _ _ _ _ hcalls => exact calls_manager_at hcalls
  | batch _ _ _ _ _ _ _ _ hcalls => exact calls_manager_at hcalls
  | markSettled _ _ _ hcall => exact (mark_settled_reaches hcall).manager_at
  | _ => rfl

theorem manager_action_manager_at [Network] {action : OutcomeManager.Action} {u : Unit}
    {f f' : Frame OutcomeManager.Storage (Ledger S) Act}
    (h : run action.perform env f = .ok (u, f')) :
    f'.tokens.managerAt = f.tokens.managerAt := by
  cases action with
  | settings op =>
    obtain ⟨c, -, rfl⟩ := run_onSettings.mp h
    rfl
  | report op =>
    obtain ⟨t, others, effects, hstep, rfl⟩ := ReportOp.steps h
    exact report_manager_at hstep
  | payout op =>
    obtain ⟨payments, effects, p, others, hstep, rfl⟩ := PayoutOp.steps h
    exact payout_manager_at hstep

omit [Crypto] in
theorem call_market_manager_at {marketOp : PredictionMarket.MarketOp} {α : Type}
    {entry : Market (Ledger S) α} {elsewhere : Option S}
    (hmakes : ∀ {env f f' a}, run entry env f = .ok (a, f') → Makes env marketOp f f')
    (h : l.callMarket env address entry elsewhere = some l') : l'.managerAt = l.managerAt := by
  unfold Ledger.callMarket at h
  split at h
  · next s hresident =>
    obtain ⟨⟨a, l''⟩, hvisit, rfl⟩ := Option.map_eq_some_iff.mp h
    obtain ⟨f, -, rfl⟩ := visit_market hmakes hvisit
    exact l.manager_at_replaced _ (by rw [hresident]; rfl)
  · obtain ⟨rest, -, rfl⟩ := Option.map_eq_some_iff.mp h
    rfl
  · cases h

omit [Crypto] in
theorem transfer_manager_at {token sender recipient : Address} {amount : Int}
    (h : Tokens.transfer env token sender recipient amount l = some l') :
    l'.managerAt = l.managerAt := by
  obtain ⟨rest, -, rfl⟩ := Option.map_eq_some_iff.mp h
  rfl

variable [Deployer]

omit [Crypto] in
theorem deploy_manager_at {wasmHash salt : BytesN 32} {params : MarketParams} {market : Address}
    (h : MarketDeployer.deployV2 env wasmHash salt params l = some (market, l')) :
    l'.managerAt = l.managerAt := by
  simp only [MarketDeployer.deployV2] at h
  split at h
  · next hfree =>
    obtain ⟨⟨u, l''⟩, hvisit, heq⟩ := Option.map_eq_some_iff.mp h
    cases heq
    obtain ⟨f, -, rfl⟩ := visit_market construct_makes hvisit
    refine l.manager_at_replaced _ ?_
    cases hresident : l.resident (Deployer.contractAddress env.contract salt) <;>
      simp_all [Resident.isStranger, Resident.asManager]
  · cases h

variable [Network]

theorem deploy_market_manager_at {creator market : Address} {args : MarketInitArgs}
    (h : Peers.deployMarket env address creator args l = some (market, l')) :
    l'.managerAt = l.managerAt := by
  simp only [Peers.deployMarket] at h
  split at h
  · next s hresident =>
    obtain ⟨f, hrun, rfl⟩ := Ledger.visit_eq_some.mp h
    obtain ⟨config, -, hdeploy, -⟩ := deploy_market_deploys hrun
    exact Ledger.manager_at_returned (deploy_manager_at hdeploy) (by rw [hresident]; rfl)
  · obtain ⟨⟨_, rest⟩, -, heq⟩ := Option.map_eq_some_iff.mp h
    cases heq
    rfl
  · cases h

/-- A call to record a claim marks it with the called manager, or reaches a stranger. -/
theorem claim_no_release_records {callId : Nat} {staker : Address} {stake winning losing : Int}
    (h : Peers.claimPayoutNoRelease env address callId staker stake winning losing l = some l') :
    (∃ s x p', l.resident address = .manager s ∧ x.winner = staker ∧
      Paid s.settings s.tally callId winning losing s.payouts [x] p' ∧
      l' = l.set address (.manager { s with payouts := p' })) ∨
    l.resident address = .stranger ∧ l'.resident = l.resident := by
  simp only [Peers.claimPayoutNoRelease] at h
  split at h
  · next s hresident =>
    obtain ⟨⟨u, l''⟩, hvisit, rfl⟩ := Option.map_eq_some_iff.mp h
    obtain ⟨f, hrun, rfl⟩ := Ledger.visit_eq_some.mp hvisit
    obtain ⟨payments, effects, p', others, hstep, rfl⟩ := claim_no_release_steps hrun
    cases hstep with
    | claimPayoutNoRelease _ _ _ _ hpaid =>
      refine .inl ⟨s, _, p', hresident, rfl, hpaid, ?_⟩
      simp [Frame.afterCalls, Storage.onPayouts, Ledger.set]
    | claimPayout hfrom => cases hfrom
    | batch hbatch => cases hbatch
  · next hresident =>
    obtain ⟨rest, -, rfl⟩ := Option.map_eq_some_iff.mp h
    exact .inr ⟨hresident, rfl⟩
  · cases h

/-- A rollover records the claim with the manager of its market and touches no other manager. -/
theorem rollover_manager_at {user : Address} {rollover : RolloverConfig}
    {f f' : Frame PredictionMarket.Storage (Ledger S) PredictionMarket.Event}
    {config : MarketConfig} {call : Call} {terms : RolloverTerms} {newMarket : Address}
    {newCallId : Nat} {stages : RolloverStages (Ledger S)}
    (h : RolledOver env user rollover f f' config call terms newMarket newCallId stages) :
    (∃ s x p', f.tokens.managerAt config.outcomeManager = some s ∧ x.winner = user ∧
      Paid s.settings s.tally config.callId terms.totalWinning terms.totalLosing s.payouts [x] p' ∧
      f'.tokens.managerAt =
        Function.update f.tokens.managerAt config.outcomeManager
          (some { s with payouts := p' })) ∨
    f.tokens.managerAt config.outcomeManager = none ∧
      f'.tokens.managerAt = f.tokens.managerAt := by
  obtain ⟨newEndTs, hcalls⟩ := h.calls
  have hpaid : stages.paid.managerAt = f.tokens.managerAt :=
    (transfer_manager_at hcalls.pay).trans (deploy_market_manager_at hcalls.deploy)
  have hrest : f'.tokens.managerAt = stages.claimed.managerAt := by
    have hstake := hcalls.stake
    have hbonus := hcalls.bonus
    have hstaked : stages.staked.managerAt = stages.claimed.managerAt := by
      split at hstake
      · exact call_market_manager_at stake_on_call_makes hstake
      · rw [hstake]
    have htopped : stages.topped.managerAt = stages.staked.managerAt := by
      split at hbonus
      · exact transfer_manager_at hbonus
      · rw [hbonus]
    rw [h.result]
    exact (call_market_manager_at set_parent_call_makes hcalls.link).trans <|
      (call_market_manager_at store_rollover_chain_makes hcalls.chain).trans <|
        htopped.trans hstaked
  rcases claim_no_release_records hcalls.claim with
    ⟨s, x, p', hresident, hwinner, hmarked, heq⟩ | ⟨hresident, heq⟩
  · have hmanager := Ledger.manager_at_eq.mpr hresident
    refine .inl ⟨s, x, p', by rw [← hpaid]; exact hmanager, hwinner, hmarked, ?_⟩
    rw [hrest, heq, Ledger.manager_at_set, hpaid]
    rfl
  · refine .inr ⟨?_, hrest.trans ((Ledger.manager_at_congr heq).trans hpaid)⟩
    rw [← hpaid]
    unfold Ledger.managerAt
    rw [hresident]
    rfl

end Visits

end Backit.Platform
