import Backit.CallRegistry.CallStatus
import Backit.Platform.OnePayout

/-!
# What a step does to the contracts that hold stakes

A step of the platform can reach a registry or a market directly, through a manager, or through the
rollover of another market. `Evolves` lists what it can do there, one transition after the other;
a contract is resolved only by a step that names it.
-/

namespace Backit.Platform

open Soroban Contract Lib OutcomeManager PredictionMarket PredictionMarketFactory

/-- The call that an operation on a market resolves. -/
def marketResolves : PredictionMarket.MarketOp → Option Nat
  | .resolveCall callId _ _ => some callId
  | _ => none

section Resolutions

variable {S : Type} [Strangers S] [Crypto]

/-- The contract and the call that a report to the manager at an address resolves if it decides. -/
def World.named (m : Address) (w : World S) : ReportOp → Option (Address × Nat)
  | .submitOutcome registry signed _ => some (registry, signed.callId)
  | .submitOutcomeForMarket signed _ =>
    (w.factoryMarket m signed.callId).map fun market => (market, signed.callId)
  | .submitResolutionObservation callId _ _ => do
      let s ← w.ledger.managerAt m
      let registry ← s.settings.registry
      some (registry, callId)
  | .finalizeOutcome callId => do
      let s ← w.ledger.managerAt m
      let registry ← s.settings.registry
      let pending ← s.tally.pendingOutcome callId
      some (registry, pending.callId)
  | _ => none

/-- The contract and the call that a step may resolve. -/
def World.resolution (w : World S) : Label → Option (Address × Nat)
  | .managed ⟨env, .report op, _⟩ => w.named env.contract op
  | .registered ⟨env, .market op, _⟩ => op.resolves.map (Prod.mk env.contract)
  | .traded ⟨env, op, _⟩ => (marketResolves op).map (Prod.mk env.contract)
  | _ => none

end Resolutions

/-- What a step of the platform does to the resident of an address, one transition after the
other. -/
inductive Evolves {S : Type} [Strangers S] [Crypto] (w : World S) (l : Label) (now : Nat)
    (address : Address) (start : Resident) : Resident → Prop where
  | refl : Evolves w l now address start start
  | registry {s s' : CallRegistry.Storage} {env config op effects} :
      Evolves w l now address start (.registry s) →
      CallRegistry.MarketStep env config op s.market effects s'.market → env.timestamp = now →
      (∀ callId, op.resolves = some callId → w.resolution l = some (address, callId)) →
      Evolves w l now address start (.registry s')
  | office {s s' : CallRegistry.Storage} :
      Evolves w l now address start (.registry s) → s'.market = s.market →
      Evolves w l now address start (.registry s')
  | market {s s' env op effects} :
      Evolves w l now address start (.market s) → Transition env op s effects s' →
      (∀ callId, marketResolves op = some callId → w.resolution l = some (address, callId)) →
      Evolves w l now address start (.market s')
  | rolled {s callId user} : Evolves w l now address start (.market s) →
      Evolves w l now address start (.market (s.setUserClaimed callId user))
  | manager {s s'} :
      Evolves w l now address start (.manager s) → Evolves w l now address start (.manager s')
  | factory {s s'} :
      Evolves w l now address start (.factory s) → Evolves w l now address start (.factory s')
  | deployed {kind : Kind} :
      Evolves w l now address start .stranger → Evolves w l now address start kind.fresh

section Reach

variable {S : Type} [Strangers S] [Crypto] {w : World S} {l : Label} {now : Nat}

theorem Evolves.trans {address : Address} {r₁ r₂ r₃ : Resident}
    (hfirst : Evolves w l now address r₁ r₂) (hlater : Evolves w l now address r₂ r₃) :
    Evolves w l now address r₁ r₃ := by
  induction hlater with
  | refl => exact hfirst
  | registry _ hstep hnow hresolves ih => exact ih.registry hstep hnow hresolves
  | office _ hmarket ih => exact ih.office hmarket
  | market _ hstep hresolves ih => exact ih.market hstep hresolves
  | rolled _ ih => exact ih.rolled
  | manager _ ih => exact ih.manager
  | factory _ ih => exact ih.factory
  | deployed _ ih => exact ih.deployed

/-- What a part of a step does to the residents of all addresses. -/
def Moved (w : World S) (l : Label) (now : Nat) (l₀ l₁ : Ledger S) : Prop :=
  ∀ address, Evolves w l now address (l₀.resident address) (l₁.resident address)

namespace Moved

variable {l₀ l₁ l₂ : Ledger S} {address : Address} {r : Resident}

theorem of_resident (h : l₁.resident = l₀.resident) : Moved w l now l₀ l₁ := fun address => by
  rw [h]
  exact .refl

theorem trans (hfirst : Moved w l now l₀ l₁) (hlater : Moved w l now l₁ l₂) :
    Moved w l now l₀ l₂ := fun address => (hfirst address).trans (hlater address)

theorem set (h : Evolves w l now address (l₀.resident address) r) (rest : S) :
    Moved w l now l₀ ((l₀.withRest rest).set address r) := by
  intro other
  by_cases hother : other = address
  · subst hother
    rwa [Ledger.set_resident]
  · rw [Ledger.set_resident_ne _ _ hother]
    exact .refl

theorem put_back (hran : Moved w l now (l₀.set address .running) l₁)
    (h : Evolves w l now address (l₀.resident address) r) :
    Moved w l now l₀ (l₁.set address r) := by
  intro other
  by_cases hother : other = address
  · subst hother
    rwa [Ledger.set_resident]
  · rw [Ledger.set_resident_ne _ _ hother]
    have hmoved := hran other
    rwa [Ledger.set_resident_ne _ _ hother] at hmoved

end Moved

section Calls

variable {env : Env} {address : Address} {l₀ l₁ : Ledger S}

/-- A call of a manager moves the called contract by one transition. -/
theorem Reaches.moved {registryOp : CallRegistry.MarketOp} {marketOp : PredictionMarket.MarketOp}
    (h : Reaches env address registryOp marketOp l₀ l₁) (hnow : env.timestamp = now)
    (hregistry : ∀ callId, registryOp.resolves = some callId →
      w.resolution l = some (address, callId))
    (hmarket : ∀ callId, marketResolves marketOp = some callId →
      w.resolution l = some (address, callId)) : Moved w l now l₀ l₁ := by
  cases h with
  | registry hresident hrun =>
    obtain ⟨-, -, effects, -, -, hstep⟩ := CallRegistry.MarketOp.steps hrun
    refine .set ?_ _
    rw [hresident]
    exact .registry .refl hstep hnow hregistry
  | market hresident hmade =>
    obtain ⟨effects, -, -, hstep⟩ := hmade
    refine .set ?_ _
    rw [hresident]
    exact .market .refl hstep hmarket
  | stranger => exact .of_resident rfl

theorem resolve_call_moved {callId outcome : Nat} {endPrice : Int}
    (h : Registries.resolveCall env address callId outcome endPrice l₀ = some l₁)
    (hnow : env.timestamp = now) (hnamed : w.resolution l = some (address, callId)) :
    Moved w l now l₀ l₁ := by
  refine (resolve_call_reaches h).moved hnow ?_ ?_ <;>
    simpa [CallRegistry.MarketOp.resolves, marketResolves] using hnamed

/-- The call of an effect resolves nothing. -/
def releasesOnly : Effect Act → Bool
  | .event (.resolveCall ..) => false
  | _ => true

/-- Calls that resolve nothing move contracts by other transitions. -/
theorem calls_moved {effects : List (Effect Act)} (h : Calls env l₀ effects l₁)
    (hnow : env.timestamp = now) (honly : ∀ e ∈ effects, releasesOnly e = true) :
    Moved w l now l₀ l₁ := by
  induction h with
  | nil => exact .of_resident rfl
  | event _ ih => exact ih fun e he => honly e (.tail _ he)
  | resolveCall => exact absurd (honly _ (.head _)) (by simp [releasesOnly])
  | releaseEscrow _ hcall ih =>
    refine (ih fun e he => honly e (.tail _ he)).trans
      ((release_escrow_reaches hcall).moved hnow ?_ ?_) <;>
      simp [CallRegistry.MarketOp.resolves, marketResolves]
  | markSettled _ hcall ih =>
    refine (ih fun e he => honly e (.tail _ he)).trans
      ((mark_settled_reaches hcall).moved hnow ?_ ?_) <;>
      simp [CallRegistry.MarketOp.resolves, marketResolves]

end Calls

section Managers

omit [Strangers S] [Crypto] in
theorem fee_effects_release {registry feeCollector : Address} {callId : Nat} {feeShare : Int} :
    ∀ e ∈ feeEffects registry callId feeCollector feeShare, releasesOnly e = true := by
  unfold feeEffects
  split <;> simp [releasesOnly]

theorem loop_effects_release (balances : Bool) (registry : Address) (callId : Nat)
    (payments : List Payment) (i : Nat) :
    ∀ e ∈ loopEffects balances registry callId i payments, releasesOnly e = true := by
  induction payments generalizing i with
  | nil => simp [loopEffects]
  | cons x rest ih =>
    intro e he
    rcases List.mem_append.mp he with he | he
    · exact ih _ e he
    · cases balances
      all_goals
        simp only [entryEffects, Payment.release, if_true, if_false, List.nil_append,
          List.cons_append, List.mem_cons, List.not_mem_nil, or_false, Bool.false_eq_true] at he
        rcases he with rfl | rfl | rfl <;> rfl

variable [Network] {env : Env} {s : Settings} {t t' : Tally} {l₀ l₁ : Ledger S}

theorem payout_moved {op : PayoutOp} {p p' : Payouts} {payments : List Payment}
    {effects : List (Effect Act)} (hnow : env.timestamp = now)
    (h : PayoutStep env s t op p l₀ payments effects p' l₁) : Moved w l now l₀ l₁ := by
  cases h with
  | claimPayout _ _ _ _ _ _ hcalls =>
    refine calls_moved hcalls hnow fun e he => ?_
    simp only [claimEffects, claimEvents, List.mem_append, List.mem_cons, List.not_mem_nil,
      or_false] at he
    rcases he with (rfl | rfl) | rfl | he
    · rfl
    · rfl
    · rfl
    · exact fee_effects_release e he
  | claimOnBehalf _ _ _ _ _ _ hcalls =>
    refine calls_moved hcalls hnow fun e he => ?_
    simp only [onBehalfEffects, List.mem_cons] at he
    rcases he with rfl | rfl | he
    · rfl
    · rfl
    · exact fee_effects_release e he
  | batch _ _ _ _ _ _ _ _ hcalls =>
    refine calls_moved hcalls hnow fun e he => ?_
    simp only [batchEffects, List.mem_append, List.mem_cons, List.not_mem_nil, or_false] at he
    rcases he with he | he | rfl
    · exact fee_effects_release e he
    · exact loop_effects_release _ _ _ _ _ e he
    · rfl
  | markSettled _ _ _ hcall =>
    refine (mark_settled_reaches hcall).moved hnow ?_ ?_ <;>
      simp [CallRegistry.MarketOp.resolves, marketResolves]
  | _ => exact .of_resident rfl

variable {st : OutcomeManager.Storage}

omit [Network] in
/-- A submitted report names the registry that it resolves. -/
theorem named_of_submits {m : Address}
    (hm : w.ledger.managerAt m = some st) {op : ReportOp} {registry : Address}
    {signed : SignedOutcome} {callEndTs : Nat}
    (h : Submits st.settings (w.ledger.set m .running) op registry signed callEndTs) :
    w.named m op = some (registry, signed.callId) := by
  cases h with
  | direct => rfl
  | forMarket hfactory hmarket => simp [World.named, World.factoryMarket, hm, hfactory, hmarket]

/-- A report resolves at most the call of the contract that it names. -/
theorem report_moved {m : Address}
    (hm : w.ledger.managerAt m = some st) {op : ReportOp} {effects : List (Effect Act)}
    (hnow : env.timestamp = now) (hnamed : w.resolution l = w.named m op)
    (h : ReportStep env st.settings op st.tally (w.ledger.set m .running) effects t' l₁) :
    Moved w l now (w.ledger.set m .running) l₁ := by
  cases h with
  | decide hsubmits _ _ _ hcall =>
    exact resolve_call_moved hcall hnow (hnamed.trans (named_of_submits hm hsubmits))
  | confirm _ _ _ hregistry hcall =>
    refine resolve_call_moved hcall hnow (hnamed.trans ?_)
    simp [World.named, hm, hregistry]
  | finalizeOutcome hpending _ _ hregistry hcall =>
    refine resolve_call_moved hcall hnow (hnamed.trans ?_)
    simp [World.named, hm, hregistry, hpending]
  | _ => exact .of_resident rfl

/-- What an invocation of a manager does to the contracts it calls. -/
theorem manager_action_moved {action : OutcomeManager.Action}
    {f : Frame OutcomeManager.Storage (Ledger S) Act}
    (hm : w.ledger.managerAt env.contract = some st) (hnow : env.timestamp = now)
    (hl : l = .managed ⟨env, action, f.effects⟩)
    (h : run action.perform env ⟨st, w.ledger.set env.contract .running, []⟩ = .ok ((), f)) :
    Moved w l now (w.ledger.set env.contract .running) f.tokens := by
  cases action with
  | settings op =>
    obtain ⟨c, -, rfl⟩ := run_onSettings.mp h
    exact .of_resident rfl
  | report op =>
    obtain ⟨t, others, effects, hstep, rfl⟩ := ReportOp.steps h
    exact report_moved hm hnow (by rw [hl]; rfl) hstep
  | payout op =>
    obtain ⟨payments, effects, p, others, hstep, rfl⟩ := PayoutOp.steps h
    exact payout_moved hnow hstep

end Managers

section Markets

variable {env : Env} {address : Address} {l₀ l₁ : Ledger S}

theorem call_market_moved {marketOp : PredictionMarket.MarketOp} {α : Type}
    {entry : Market (Ledger S) α} {elsewhere : Option S}
    (hmakes : ∀ {env f f' a}, run entry env f = .ok (a, f') → Makes env marketOp f f')
    (hop : marketResolves marketOp = none)
    (h : l₀.callMarket env address entry elsewhere = some l₁) : Moved w l now l₀ l₁ := by
  unfold Ledger.callMarket at h
  split at h
  · next s hresident =>
    obtain ⟨⟨a, l₂⟩, hvisit, rfl⟩ := Option.map_eq_some_iff.mp h
    obtain ⟨f, ⟨effects, -, -, hstep⟩, rfl⟩ := visit_market hmakes hvisit
    refine .set ?_ _
    rw [hresident]
    exact .market .refl hstep (by simp [hop])
  · obtain ⟨rest, -, rfl⟩ := Option.map_eq_some_iff.mp h
    exact .of_resident rfl
  · cases h

theorem transfer_moved {token sender recipient : Address} {amount : Int}
    (h : Tokens.transfer env token sender recipient amount l₀ = some l₁) :
    Moved w l now l₀ l₁ := by
  obtain ⟨rest, -, rfl⟩ := Option.map_eq_some_iff.mp h
  exact .of_resident rfl

variable [Deployer]

/-- A deployed market has been constructed at an address where no contract was. -/
theorem deploy_moved {wasmHash salt : BytesN 32} {params : MarketParams} {market : Address}
    (h : MarketDeployer.deployV2 env wasmHash salt params l₀ = some (market, l₁)) :
    Moved w l now l₀ l₁ := by
  simp only [MarketDeployer.deployV2] at h
  split at h
  · next hfree =>
    obtain ⟨⟨u, l₂⟩, hvisit, heq⟩ := Option.map_eq_some_iff.mp h
    cases heq
    obtain ⟨f, ⟨effects, -, -, hstep⟩, rfl⟩ := visit_market construct_makes hvisit
    refine .set ?_ _
    cases hresident : l₀.resident (Deployer.contractAddress env.contract salt) with
    | stranger =>
      have hempty : Evolves w l now (Deployer.contractAddress env.contract salt) .stranger
          Kind.market.fresh := .deployed .refl
      exact Evolves.market hempty hstep (by simp [marketResolves])
    | _ => simp [hresident, Resident.isStranger] at hfree
  · cases h

variable [Network]

theorem deploy_market_moved {creator market : Address} {args : MarketInitArgs}
    (h : Peers.deployMarket env address creator args l₀ = some (market, l₁)) :
    Moved w l now l₀ l₁ := by
  simp only [Peers.deployMarket] at h
  split at h
  · next s hresident =>
    obtain ⟨f, hrun, rfl⟩ := Ledger.visit_eq_some.mp h
    obtain ⟨config, -, hdeploy, -⟩ := deploy_market_deploys hrun
    refine (deploy_moved hdeploy).put_back ?_
    rw [hresident]
    exact .factory .refl
  · obtain ⟨⟨_, rest⟩, -, heq⟩ := Option.map_eq_some_iff.mp h
    cases heq
    exact .of_resident rfl
  · cases h

theorem claim_no_release_moved {callId : Nat} {staker : Address} {stake winning losing : Int}
    (h : Peers.claimPayoutNoRelease env address callId staker stake winning losing l₀ = some l₁) :
    Moved w l now l₀ l₁ := by
  obtain ⟨s, x, p', hresident, -, -, rfl⟩ | ⟨-, heq⟩ := claim_no_release_records h
  · refine .set ?_ l₀.rest
    rw [hresident]
    exact .manager .refl
  · exact .of_resident heq

theorem rollover_moved {user : Address} {rollover : RolloverConfig}
    {f f' : Frame PredictionMarket.Storage (Ledger S) PredictionMarket.Event}
    {config : MarketConfig} {call : Call} {terms : RolloverTerms} {newMarket : Address}
    {newCallId : Nat} {stages : RolloverStages (Ledger S)}
    (h : RolledOver env user rollover f f' config call terms newMarket newCallId stages) :
    Moved w l now f.tokens f'.tokens := by
  obtain ⟨newEndTs, hcalls⟩ := h.calls
  have hstake : Moved w l now stages.claimed stages.staked := by
    have hstake := hcalls.stake
    split at hstake
    · exact call_market_moved stake_on_call_makes rfl hstake
    · exact .of_resident (congrArg Ledger.resident hstake)
  have hbonus : Moved w l now stages.staked stages.topped := by
    have hbonus := hcalls.bonus
    split at hbonus
    · exact transfer_moved hbonus
    · exact .of_resident (congrArg Ledger.resident hbonus)
  rw [h.result]
  exact (deploy_market_moved hcalls.deploy).trans <| (transfer_moved hcalls.pay).trans <|
    (claim_no_release_moved hcalls.claim).trans <| hstake.trans <| hbonus.trans <|
    (call_market_moved store_rollover_chain_makes rfl hcalls.chain).trans
      (call_market_moved set_parent_call_makes rfl hcalls.link)

variable {outside : S → S → Prop} {w' : World S}

theorem WorldStep.moved (h : WorldStep outside w l w') :
    Moved w l w'.timestamp w.ledger w'.ledger := by
  cases h with
  | elsewhere => exact .of_resident rfl
  | lapsed hresident =>
    refine .set ?_ w.ledger.rest
    rw [hresident]
    exact .manager .refl
  | @deployed address kind hfree =>
    refine .set ?_ w.ledger.rest
    cases hresident : w.ledger.resident address with
    | stranger => exact .deployed .refl
    | _ => simp [hresident, Resident.isStranger] at hfree
  | produced hresident hinvoke =>
    obtain ⟨-, f, hrun, -, rfl⟩ := World.invoke_eq_some.mp hinvoke
    refine .put_back ?_ (by rw [hresident]; exact .factory .refl)
    obtain heq | ⟨_, _, _, _, hdeploy⟩ := FactoryOp.deploys hrun
    · exact .of_resident (congrArg Ledger.resident heq)
    · exact deploy_moved hdeploy
  | managed hresident hinvoke =>
    obtain ⟨-, f, hrun, rfl, rfl⟩ := World.invoke_eq_some.mp hinvoke
    exact (manager_action_moved (Ledger.manager_at_eq.mpr hresident) rfl rfl hrun).put_back
      (by rw [hresident]; exact .manager .refl)
  | @registered _ env action effects s hresident hinvoke =>
    obtain ⟨-, f, hrun, rfl, rfl⟩ := World.invoke_eq_some.mp hinvoke
    refine .put_back (.of_resident (registry_action_resident hrun)) ?_
    rw [hresident]
    cases action with
    | market op =>
      obtain ⟨-, -, effects, -, -, hstep⟩ := CallRegistry.MarketOp.steps hrun
      refine .registry .refl hstep rfl fun callId hop => ?_
      simp [World.resolution, hop]
    | desk op =>
      obtain ⟨desk, -, rfl⟩ := CallRegistry.run_onDesk.mp hrun
      exact .office .refl rfl
    | executeAdminProposal caller proposalId =>
      obtain ⟨_, _, -, -, -, -, -, -, -, hexec⟩ := CallRegistry.execute_admin_proposal_executes hrun
      exact .office .refl hexec.market
  | @traded _ env op s effects hresident hinvoke =>
    obtain ⟨-, f, hrun, rfl, rfl⟩ := World.invoke_eq_some.mp hinvoke
    by_cases hrollover : op.isRollover = true
    · cases op with
      | claimAndRollover user callId rollover =>
        obtain ⟨newCallId, hroll⟩ := run_ignore.mp hrun
        obtain ⟨config, call, terms, newMarket, stages, rfl, hrolled⟩ :=
          claim_and_rollover_rolls hroll
        refine (rollover_moved hrolled).put_back ?_
        rw [hresident, hrolled.result]
        exact .rolled .refl
      | _ => cases hrollover
    · obtain ⟨effects, -, hreplay, hstep⟩ := MarketOp.makes (by simpa using hrollover) hrun
      refine .put_back (.of_resident (replays_resident hreplay)) ?_
      rw [hresident]
      refine .market .refl hstep fun callId hop => ?_
      simp [World.resolution, hop]

end Markets

end Reach

end Backit.Platform
