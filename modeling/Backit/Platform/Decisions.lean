import Backit.OutcomeManager.Finality
import Backit.Platform.Escrows
import Backit.PredictionMarket.Withdrawals

/-!
# Agreement between a manager and the contracts that hold stakes

A manager records the final outcome of a call, and the contract that holds the call's stakes is
resolved by a call to the address that the submitter names. When no factory is configured nothing
checks that address. As long as every deciding report names the contract that holds the stakes,
and nothing resolves a call there that the manager has decided, the two records agree.
-/

namespace Backit.Platform

open Soroban Contract Lib OutcomeManager PredictionMarket PredictionMarketFactory

/-- How a call was resolved, if it was. -/
def resolvedAs (outcome : Nat) (endPrice : Int) : Option (Nat × Int) :=
  if outcome = 0 then none else some (outcome, endPrice)

/-- How the contract at an address resolved a call. -/
def Resident.resolved (callId : Nat) : Resident → Option (Nat × Int)
  | .registry s => (s.market.calls callId).bind fun call => resolvedAs call.outcome call.endPrice
  | .market s => s.config.bind fun config =>
    if config.callId = callId then
      s.pool.call.bind fun call => resolvedAs call.outcome call.endPrice
    else none
  | _ => none

/-- Whether a contract holds stakes. -/
def Resident.holdsStakes : Resident → Bool
  | .registry _ => true
  | .market _ => true
  | _ => false

/-- The books of a registry agree. -/
def Resident.Booked : Resident → Prop
  | .registry s => ∃ retained, s.market.BooksAgree retained
  | _ => True

/-- The contracts that hold the stakes are resolved as the manager at an address decided. -/
def DecisionsAgree {S : Type} (m : Address) (home : Nat → Address) (l : Ledger S) : Prop :=
  ∀ s, l.managerAt m = some s → ∀ callId outcome, s.tally.finalOutcome callId = some outcome →
    (l.resident (home callId)).resolved callId = some (outcome.outcome, outcome.price)

section Guard

variable {S : Type} [Strangers S] [Crypto]

/-- A report to the manager that decides names the contract that holds the call's stakes. -/
def World.decidesAtHome (m : Address) (home : Nat → Address) (w : World S) : Label → Bool
  | .managed ⟨env, .report op, _⟩ =>
    env.contract ≠ m ∨ (w.ledger.managerAt m).all fun s =>
      decide (Decides s.settings s.tally op) → (w.named m op).all fun (address, callId) =>
        address = home callId ∧ (w.ledger.resident address).holdsStakes = true
  | _ => true

/-- A step resolves no call at home that the manager has decided. -/
def World.leavesDecided (m : Address) (home : Nat → Address) (w : World S) (l : Label) : Bool :=
  (w.resolution l).all fun (address, callId) => address ≠ home callId ∨
    (w.ledger.managerAt m).all fun s => (s.tally.finalOutcome callId).isNone

/-- The guard of the runs in which calls are decided where their stakes are. -/
def decidedAtHome (m : Address) (home : Nat → Address) : System.Guard (World S) Label :=
  fun _ w l => w.decidesAtHome m home l = true ∧ w.leavesDecided m home l = true

end Guard

section Resolutions

variable {env : Env} {callId outcome : Nat} {endPrice : Int}

theorem resolvedAs_of_position {outcomeCount : Nat} (h : 1 ≤ outcome ∧ outcome ≤ outcomeCount) :
    resolvedAs outcome endPrice = some (outcome, endPrice) :=
  if_neg (by omega)

theorem registry_resolves_as {config : Option CallRegistry.ContractConfig}
    {s s' : CallRegistry.Storage} {effects : List (Effect CallRegistry.Event)}
    (h : CallRegistry.MarketStep env config (.resolveCall callId outcome endPrice) s.market effects
      s'.market) : (Resident.registry s').resolved callId = some (outcome, endPrice) := by
  generalize hm : s'.market = m' at h
  cases h with
  | @resolved _ _ _ call _ _ _ _ _ _ hcall hposition =>
    have hid := s.market.keyed _ _ hcall
    have hcall' : s'.market.calls callId =
        some { call with outcome := outcome, endPrice := endPrice } := by
      rw [hm, CallRegistry.Market.setCall_calls, if_pos hid.symm]
    simp only [Resident.resolved, hcall', Option.bind_some]
    exact resolvedAs_of_position hposition
  | staked hr => cases hr
  | voidRefunded hr => cases hr

variable {s s' : PredictionMarket.Storage} {effects : List (Effect PredictionMarket.Event)}

theorem market_resolves_as
    (h : Transition env (.resolveCall callId outcome endPrice) s effects s') :
    (Resident.market s').resolved callId = some (outcome, endPrice) := by
  cases h with
  | resolved hconfig hid _ _ hposition =>
    show Option.bind s.config _ = _
    rw [hconfig, Option.bind_some, if_pos hid]
    exact resolvedAs_of_position hposition

theorem market_resolves_own {config : MarketConfig}
    (h : Transition env (.resolveCall callId outcome endPrice) s effects s')
    (hconfig : s.config = some config) : config.callId = callId := by
  cases h with
  | resolved hstored hid =>
    obtain rfl := Option.some.inj (hconfig.symm.trans hstored)
    exact hid

end Resolutions

section Residents

variable {S : Type} [Strangers S] [Crypto] {w : World S} {l : Label} {now callId : Nat}
  {address : Address} {start r : Resident}

theorem Evolves.booked (h : Evolves w l now address start r) (hstart : start.Booked) :
    r.Booked := by
  induction h with
  | refl => exact hstart
  | registry _ hstep _ _ ih =>
    obtain ⟨retained, hbooks⟩ := ih
    exact hstep.books_kept hbooks
  | office _ hmarket ih =>
    obtain ⟨retained, hbooks⟩ := ih
    exact ⟨retained, hmarket ▸ hbooks⟩
  | @deployed kind =>
    cases kind with
    | registry => exact ⟨_, CallRegistry.Market.BooksAgree.empty⟩
    | _ => trivial
  | _ => trivial

/-- What was resolved stays as it was resolved, but for a step that names it. -/
theorem Evolves.resolved_kept (h : Evolves w l now address start r) (hbooked : start.Booked)
    {ruling : Nat × Int} (hresolved : start.resolved callId = some ruling)
    (hother : w.resolution l ≠ some (address, callId)) : r.resolved callId = some ruling := by
  induction h with
  | refl => exact hresolved
  | @registry s s' env config op effects hbefore hstep _ hnames ih =>
    obtain ⟨retained, hbooks⟩ : Resident.Booked (.registry s) := hbefore.booked hbooked
    obtain ⟨call, hcall, hruling⟩ := Option.bind_eq_some_iff.mp ih
    obtain ⟨call', hcall', houtcome, hprice⟩ := hstep.resolution_kept hbooks
      (fun hop => hother (hnames callId hop)) hcall
    simp only [Resident.resolved, hcall', Option.bind_some, houtcome, hprice]
    exact hruling
  | office _ hmarket ih =>
    simp only [Resident.resolved] at ih ⊢
    rw [hmarket]
    exact ih
  | @market s s' env op effects hbefore hstep hnames ih =>
    obtain ⟨config, hconfig, hat⟩ := Option.bind_eq_some_iff.mp ih
    split at hat
    · next hid =>
      obtain ⟨call, hcall, hruling⟩ := Option.bind_eq_some_iff.mp hat
      have hunresolved : ∀ c outcome endPrice, op ≠ .resolveCall c outcome endPrice := by
        intro c outcome endPrice hop
        subst hop
        obtain rfl : c = callId := (market_resolves_own hstep hconfig).symm.trans hid
        exact hother (hnames c rfl)
      obtain ⟨call', hcall', houtcome, hprice⟩ := hstep.resolution_kept hunresolved hcall hconfig
      have hconfig' := (hstep.carries hconfig hcall).1
      simp only [Resident.resolved, hconfig', hcall', Option.bind_some, hid, if_true,
        houtcome, hprice]
      exact hruling
    · cases hat
  | rolled _ ih => exact ih
  | manager _ ih => cases ih
  | factory _ ih => cases ih
  | deployed _ ih => cases ih

variable {env : Env} {l₀ l₁ : Ledger S} {outcome : Nat} {endPrice : Int}

/-- A contract that holds stakes is resolved by the call that resolves it. -/
theorem Reaches.resolved (h : Reaches env address (.resolveCall callId outcome endPrice)
    (.resolveCall callId outcome endPrice) l₀ l₁)
    (hholds : (l₀.resident address).holdsStakes = true) :
    (l₁.resident address).resolved callId = some (outcome, endPrice) := by
  cases h with
  | registry hresident hrun =>
    obtain ⟨-, -, effects, -, -, hstep⟩ := CallRegistry.MarketOp.steps hrun
    rw [Ledger.set_resident]
    exact registry_resolves_as hstep
  | market hresident hmade =>
    obtain ⟨effects, -, -, hstep⟩ := hmade
    rw [Ledger.set_resident]
    exact market_resolves_as hstep
  | stranger hresident =>
    rw [hresident] at hholds
    cases hholds

end Residents

section Steps

variable {S : Type} [Strangers S] [Crypto] {m : Address} {home : Nat → Address} {w : World S}
  {l : Label}

/-- A step that is no report to the manager keeps what the manager decided and what is pending. -/
theorem ManagerStep.decisions_kept [Network] [Deployer] {s s' : OutcomeManager.Storage}
    (h : ManagerStep m w l (some s) (some s'))
    (hother : ∀ env op effects, l = .managed ⟨env, .report op, effects⟩ → env.contract ≠ m) :
    s'.tally.finalOutcome = s.tally.finalOutcome ∧
      s'.tally.pendingOutcome = s.tally.pendingOutcome := by
  cases h with
  | invoked hself hinvoked =>
    cases hinvoked.moves with
    | settings => exact ⟨rfl, rfl⟩
    | report => exact absurd hself (hother _ _ _ rfl)
    | payout => exact ⟨rfl, rfl⟩
  | lapsed => exact ⟨Tally.lapse_finalOutcome _ _, Tally.lapse_pendingOutcome _ _⟩
  | rolled => exact ⟨rfl, rfl⟩
  | untouched => exact ⟨rfl, rfl⟩

/-- A report resolves the call that it decides where the call's stakes are. -/
theorem report_resolves_home [Network] {env : Env} {s : OutcomeManager.Storage} {op : ReportOp}
    {t' : Tally} {l₁ : Ledger S} {effects : List (Effect Act)}
    (hm : w.ledger.managerAt m = some s) (hself : env.contract = m)
    (hnone : ∀ c, s.tally.pendingOutcome c = none)
    (hstep : ReportStep env s.settings op s.tally (w.ledger.set m .running) effects t' l₁)
    (hguard : Decides s.settings s.tally op → ∀ address callId,
      w.named m op = some (address, callId) →
        address = home callId ∧ (w.ledger.resident address).holdsStakes = true)
    {callId : Nat} {outcome : Outcome} (hfinal : t'.finalOutcome callId = some outcome) :
    s.tally.finalOutcome callId = some outcome ∨ home callId ≠ m ∧
      (l₁.resident (home callId)).resolved callId = some (outcome.outcome, outcome.price) := by
  -- The manager itself holds no stakes, so a named contract that does is not running.
  have hholds : ∀ {address}, (w.ledger.resident address).holdsStakes = true → address ≠ m ∧
      ((w.ledger.set m .running).resident address).holdsStakes = true := by
    intro address hholds
    have hne : address ≠ m := by
      rintro rfl
      rw [Ledger.manager_at_eq.mp hm] at hholds
      cases hholds
    exact ⟨hne, by rwa [Ledger.set_resident_ne _ _ hne]⟩
  have hdecides := hstep.final_cases hnone
  cases hstep with
  | vote | price | observe => exact .inl hfinal
  | @decide _ registry signed callEndTs _ _ _ _ hsubmits _ _ _ hcall =>
    by_cases hc : callId = signed.callId
    · subst hc
      obtain ⟨-, heq, -⟩ | ⟨hdecides, -⟩ := hdecides
      · exact .inl (by rw [← heq]; exact hfinal)
      · simp only [Tally.settle, Function.update_self, Option.some.injEq] at hfinal
        obtain ⟨rfl, hstakes⟩ := hguard hdecides _ _ (named_of_submits hm hsubmits)
        refine .inr ⟨(hholds hstakes).1, ?_⟩
        rw [(resolve_call_reaches hcall).resolved (hholds hstakes).2, ← hfinal]
        rfl
    · simp only [Tally.settle, Function.update_of_ne hc] at hfinal
      exact .inl hfinal
  | @confirm _ _ confirmedId observation signature price registry _ _ _ _ hregistry hcall =>
    by_cases hc : callId = confirmedId
    · subst hc
      obtain ⟨-, heq, -⟩ | ⟨hdecides, -⟩ := hdecides
      · exact .inl (by rw [← heq]; exact hfinal)
      · simp only [Tally.settle, Function.update_self, Option.some.injEq] at hfinal
        obtain ⟨rfl, hstakes⟩ := hguard hdecides registry callId
          (by simp [World.named, hm, hregistry])
        refine .inr ⟨(hholds hstakes).1, ?_⟩
        rw [(resolve_call_reaches hcall).resolved (hholds hstakes).2, ← hfinal]
    · simp only [Tally.settle, Function.update_of_ne hc] at hfinal
      exact .inl hfinal
  | finalizeOutcome hpending => exact absurd hpending (by simp [hnone])
  | disputeOutcome _ _ hpending => exact absurd hpending (by simp [hnone])

variable [Network] [Deployer] {outside : S → S → Prop} {w' : World S}

/-- What agrees at every moment of a run. -/
structure Aligned (m : Address) (home : Nat → Address) (l : Ledger S) : Prop where
  booked : ∀ address, (l.resident address).Booked
  pending : ∀ s, l.managerAt m = some s → ∀ callId, s.tally.pendingOutcome callId = none
  agree : DecisionsAgree m home l

/-- What the manager decided before stays resolved at home. -/
theorem Aligned.resolved_kept (h : Aligned m home w.ledger) (hstep : WorldStep outside w l w')
    (hleaves : w.leavesDecided m home l = true) {s : OutcomeManager.Storage}
    (hm : w.ledger.managerAt m = some s) {callId : Nat} {outcome : Outcome}
    (hfinal : s.tally.finalOutcome callId = some outcome) :
    (w'.ledger.resident (home callId)).resolved callId = some (outcome.outcome, outcome.price) := by
  refine (hstep.moved (home callId)).resolved_kept (h.booked _) (h.agree s hm callId outcome hfinal)
    fun hnamed => ?_
  simp [World.leavesDecided, hnamed, hm, hfinal] at hleaves

theorem Aligned.step (h : Aligned m home w.ledger) (hstep : WorldStep outside w l w')
    (hguard : w.decidesAtHome m home l = true ∧ w.leavesDecided m home l = true) :
    Aligned m home w'.ledger := by
  have hbooked : ∀ address, (w'.ledger.resident address).Booked :=
    fun address => (hstep.moved address).booked (h.booked address)
  have hmoves := hstep.at_manager m
  cases hm : w.ledger.managerAt m with
  | none =>
    refine ⟨hbooked, fun s hm' => ?_, fun s hm' => ?_⟩
    all_goals
      rw [hm, hm'] at hmoves
      cases hmoves
      simp [OutcomeManager.Storage.empty]
  | some s =>
    have hpending := h.pending s hm
    by_cases hreport : ∃ env op effects, l = .managed ⟨env, .report op, effects⟩ ∧ env.contract = m
    · obtain ⟨env, op, effects, rfl, rfl⟩ := hreport
      have hkept : ∀ callId outcome, s.tally.finalOutcome callId = some outcome → _ :=
        fun callId outcome => h.resolved_kept hstep hguard.2 hm
      cases hstep with
      | @managed _ _ _ s₁ _ hresident hinvoke =>
        obtain rfl : s = s₁ := by
          rw [Ledger.manager_at_eq.mpr hresident] at hm
          exact (Option.some.inj hm).symm
        obtain ⟨-, f, hrun, -, rfl⟩ := World.invoke_eq_some.mp hinvoke
        obtain ⟨t, others, effects', hreport, rfl⟩ := ReportOp.steps hrun
        have hstored : (others.set env.contract (.manager { s with tally := t })).managerAt
            env.contract = some { s with tally := t } := by
          rw [Ledger.manager_at_eq, Ledger.set_resident]
        refine ⟨hbooked, fun s' hm' => ?_, fun s' hm' callId outcome hfinal => ?_⟩
        · obtain rfl := Option.some.inj (hstored.symm.trans hm')
          exact hreport.pending_kept hpending
        · obtain rfl := Option.some.inj (hstored.symm.trans hm')
          have hhome : Decides s.settings s.tally op → ∀ address callId,
              w.named env.contract op = some (address, callId) → address = home callId ∧
                (w.ledger.resident address).holdsStakes = true := by
            intro hdecides address callId hnamed
            simpa [World.decidesAtHome, hm, hdecides, hnamed] using hguard.1
          obtain hold | ⟨hne, hresolved⟩ :=
            report_resolves_home hm rfl hpending hreport hhome hfinal
          · exact hkept callId outcome hold
          · rw [Ledger.set_resident_ne _ _ hne]
            exact hresolved
    · have hother : ∀ env op effects, l = .managed ⟨env, .report op, effects⟩ →
          env.contract ≠ m :=
        fun env op effects hl hself => hreport ⟨env, op, effects, hl, hself⟩
      refine ⟨hbooked, fun s' hm' => ?_, fun s' hm' callId outcome hfinal => ?_⟩
      · rw [hm, hm'] at hmoves
        rw [(hmoves.decisions_kept hother).2]
        exact hpending
      · rw [hm, hm'] at hmoves
        rw [(hmoves.decisions_kept hother).1] at hfinal
        exact h.resolved_kept hstep hguard.2 hm hfinal

end Steps

section Scenario

attribute [local instance] scenarioCrypto testNetwork noDeployer

/-- The manager is configured with the registry, and both oracles report call 1. The submissions
name a contract. -/
def reportScript (named : Address) : List Input :=
  openingScript ++
    [.manage ⟨OutcomeManager.home, 5, 5, [OutcomeManager.adminAddress]⟩
        (.settings (.setParameter (.registry CallRegistry.home))),
      submits named 1001 oracleA signatureA, submits named 1002 oracleB signatureB]

def agreedRun :
    System.Replayed (platform fun _ (_ : StandardLedger) => False) World.next (fun _ w l =>
      w.decidesAtHome OutcomeManager.home (fun _ => CallRegistry.home) l &&
        w.leavesDecided OutcomeManager.home (fun _ => CallRegistry.home) l) :=
  .of freshWorld fresh_world_initial (reportScript CallRegistry.home) (by decide +kernel)

/-- A stranger deploys a registry that serves the same manager and creates its own call 1 there. -/
def decoy : Address := ⟨77⟩

def decoyScript : List Input :=
  openingScript ++
    [.manage ⟨OutcomeManager.home, 5, 5, [OutcomeManager.adminAddress]⟩
        (.settings (.setParameter (.registry CallRegistry.home))), .deploy decoy .registry,
      .register ⟨decoy, 6, 6, [CallRegistry.bob]⟩
        (.desk (.initializeContract CallRegistry.bob OutcomeManager.home 0)),
      .register ⟨decoy, 7, 7, [CallRegistry.bob]⟩
        (.desk (.whitelistToken CallRegistry.usdc)), .register ⟨decoy, 8, 8, [CallRegistry.bob]⟩
        (.market (.createCall CallRegistry.bob CallRegistry.sampleCall)),
      submits decoy 1001 oracleA signatureA, submits decoy 1002 oracleB signatureB]

def decoyRun : Replayed System.anything :=
  .of freshWorld fresh_world_initial decoyScript (by decide +kernel)

theorem decoy_run_manager :
    (decoyRun.state.ledger.managerAt OutcomeManager.home).isSome = true := by decide +kernel

end Scenario

end Backit.Platform
