import Backit.LendingPool.Shares

/-!
# Getting staked capital back

An allocation leaves the locked capital through its harvest alone. The harvest asks the market for an
outcome and, when the pool's position has won, the outcome manager for the pool's claim. When the
claim is refused, for instance because it has been paid already, the principal stays locked.
-/

namespace Backit.LendingPool

open Soroban Contract Lib PredictionMarketFactory
open PredictionMarket (Call)

section Recovery

variable {P : Type} [Markets P] {self : Address} {outside : P → P → Prop}
  {d : Deployment Storage P} {history : List (Happening PoolOp Event)} {env : Env} {op : PoolOp}
  {f f' : Frame Storage P Event} {callId : Nat} {a : Allocation} {call : Call}
  {config : PoolConfig} {p peers : P} {gain : Int}

/-- The contract collects what a call with an outcome owes it: the outcome manager pays the claim of
its whole stake on the outcome, and nothing when it has none there. -/
inductive Collects (env : Env) (config : PoolConfig) (callId : Nat) (call : Call) (p : P) :
    Int → P → Prop where
  | claimed {before peers after} : stakeOn call call.outcome env.contract ≠ 0 →
      Tokens.balance p config.stakeToken env.contract = some before →
      Markets.claimPayoutForMarket env config.outcomeManager callId env.contract
        (stakeOn call call.outcome env.contract) (valueAt call.outcomeStakes call.outcome)
        (valueAt call.outcomeStakes (otherPosition call.outcome)) p = some peers →
      Tokens.balance peers config.stakeToken env.contract = some after →
      Collects env config callId call p (after - before) peers
  | nothing : stakeOn call call.outcome env.contract = 0 → Collects env config callId call p 0 p

/-- What the market records as the pool's stake is what its allocation stands for. -/
theorem gains_iff (hstake : stakeOn call call.outcome env.contract =
      if call.outcome = a.position then a.amount else 0) (hamount : 0 < a.amount) :
    Gains env config callId a call p gain peers ↔
      Collects env config callId call p gain peers ∧ InI128 gain := by
  constructor
  · intro h
    cases h with
    | won hwon hbefore hclaim hafter hfits =>
      rw [if_pos hwon] at hstake
      refine ⟨.claimed (by omega) hbefore ?_ hafter, hfits⟩
      rwa [hstake, hwon]
    | lost hlost =>
      rw [if_neg hlost] at hstake
      exact ⟨.nothing hstake, by decide⟩
  · rintro ⟨h, hfits⟩
    by_cases hwon : call.outcome = a.position
    · rw [if_pos hwon] at hstake
      cases h with
      | claimed _ hbefore hclaim hafter =>
        rw [hstake, hwon] at hclaim
        exact .won hwon hbefore hclaim hafter hfits
      | nothing hnone => omega
    · rw [if_neg hwon] at hstake
      cases h with
      | claimed hne => exact absurd hstake hne
      | nothing => exact .lost hwon

/-- An invocation settles an allocation: the pool has collected what the market owes it, of which at
most a part of the gain leaves as a fee, and the principal is released. -/
def Settles (env : Env) (config : PoolConfig) (f : Frame Storage P Event) (callId : Nat)
    (a : Allocation) (call : Call) (f' : Frame Storage P Event) : Prop :=
  ∃ gain peers settled fee paid, Collects env config callId call f.tokens gain peers ∧
    f'.store.allocation callId = some settled ∧ settled.settled = true ∧ settled.payout = gain ∧
    f'.store.totalAllocatedLocked = f.store.totalAllocatedLocked - a.amount ∧
    PaysFee env config fee peers paid f'.tokens ∧ 0 ≤ fee ∧ fee ≤ max 0 (gain - a.amount)

/-- The loop of `allocate_capital` leaves open allocations alone. -/
theorem Allocates.open_kept (h : Allocates env f f') (ha : f.store.allocation callId = some a)
    (hopen : a.settled = false) : f'.store.allocation callId = some a := by
  induction h with
  | refl => exact ha
  | @stake current market id position amount call peers _ hfree _ _ _ _ ih =>
    have hne : callId ≠ id := by
      rintro rfl
      rw [hfree a ih] at hopen
      cases hopen
    exact (Function.update_of_ne hne ..).trans ih

/-- An allocation that is open stays as it is, unless its call is harvested. -/
theorem Transition.open_kept (h : Transition env f op f') (hs : Sound f.store)
    (ha : f.store.allocation callId = some a) (hopen : a.settled = false) :
    f'.store.allocation callId = some a ∨ ∃ netYield, Harvests env callId f netYield f' := by
  cases h with
  | configured => exact .inl ha
  | reconfigured => exact .inl ha
  | deposited h =>
    cases h
    exact .inl ha
  | withdrawn h =>
    cases h
    exact .inl ha
  | allocated h => exact .inl (h.open_kept ha hopen)
  | @harvested id netYield _ h =>
    by_cases hid : callId = id
    · subst hid
      exact .inr ⟨netYield, h⟩
    · obtain ⟨-, hother, -, -, -, -, -, -⟩ := h
      rename_i config b call gain peers paid peers'
      obtain ⟨hb, -⟩ := hs.allocated id b hother
      obtain ⟨fees, hfees⟩ := feePaid_eq (f.store.released id b (b.settledWith call gain))
        (protocolFee config (gain - b.amount))
      refine .inl ?_
      have hne : callId ≠ (b.settledWith call gain).callId := by
        rw [show (b.settledWith call gain).callId = id from hb]
        exact hid
      rw [hfees, ← ha]
      exact Function.update_of_ne hne ..

/-- The stake that a call with an outcome records for the pool. -/
theorem Staked.on_outcome {s : Storage} {pool : Address} (h : Staked pool s p)
    (ha : s.allocation callId = some a) (hopen : a.settled = false)
    (hcall : MarketViews.getCall p a.marketAddress callId = some call) :
    stakeOn call call.outcome pool = if call.outcome = a.position then a.amount else 0 :=
  h.mine callId a call ha hopen hcall call.outcome

theorem Gains.pays_fee (h : Gains env config callId a call p gain peers) (hnonneg : HeldNonneg P)
    (hpay : HoldersPay P) (hamount : 0 < a.amount) (hbps : config.protocolFeeBps ≤ maxBps) :
    ∃ paid peers', PaysFee env config (protocolFee config (gain - a.amount)) peers paid peers' := by
  obtain ⟨-, hpart, hzero⟩ := protocolFee_bounds hbps (gain - a.amount)
  by_cases hfee : 0 < protocolFee config (gain - a.amount)
  · have hprofit : 0 < gain - a.amount := by
      by_contra hloss
      have := hzero hloss
      omega
    have hle := hpart hprofit
    cases h with
    | @won before _ after _ hbefore _ hafter =>
      have hnn := hnonneg _ _ _ _ hbefore
      obtain ⟨peers', htransfer⟩ := hpay env config.stakeToken config.treasury
        (protocolFee config (after - before - a.amount)) after peers hafter hfee (by omega)
      exact ⟨_, peers', .paid hfee htransfer⟩
    | lost => omega
  · exact ⟨_, peers, .free hfee⟩

theorem protocolFee_le_profit (hbps : config.protocolFeeBps ≤ maxBps) (gross : Int) :
    0 ≤ protocolFee config gross ∧ protocolFee config gross ≤ max 0 gross := by
  obtain ⟨hnonneg, hpart, hzero⟩ := protocolFee_bounds hbps gross
  refine ⟨hnonneg, ?_⟩
  by_cases hprofit : 0 < gross
  · exact (hpart hprofit).trans (le_max_right _ _)
  · rw [hzero hprofit]
    exact le_max_left _ _

theorem Harvests.settles {netYield : Int} (h : Harvests env callId f netYield f')
    (hs : Sound f.store) (ha : f.store.allocation callId = some a)
    (hcall : MarketViews.getCall f.tokens a.marketAddress callId = some call)
    (hconfig : f.store.config = some config) (hstake : stakeOn call call.outcome env.contract =
      if call.outcome = a.position then a.amount else 0) :
    Settles env config f callId a call f' := by
  obtain ⟨hid, hamount⟩ := hs.allocated callId a ha
  cases h with
  | @made config' b call' gain peers paid peers' hconfig' hb _ hcall' _ hgains _ hpaid =>
    obtain rfl := Option.some.inj (ha.symm.trans hb)
    obtain rfl := Option.some.inj (hcall.symm.trans hcall')
    obtain rfl := Option.some.inj (hconfig.symm.trans hconfig')
    obtain ⟨hnonneg, hle⟩ := protocolFee_le_profit (hs.fee config hconfig) (gain - a.amount)
    obtain ⟨fees, hfees⟩ := feePaid_eq (f.store.released callId a (a.settledWith call gain))
      (protocolFee config (gain - a.amount))
    refine ⟨gain, peers, a.settledWith call gain, _, paid,
      ((gains_iff hstake hamount).mp hgains).1, ?_, rfl, rfl, ?_, hpaid, hnonneg, hle⟩
    · rw [hfees]
      exact (congrArg _ hid.symm).trans (Function.update_self ..)
    · rw [hfees]
      rfl

/-- An entry point of the pool settles an open allocation if and only if its call has an outcome, the
pool can collect what the market owes it on that outcome, and the results fit their type. -/
theorem principal_recoverable_iff (hlaws : MarketLaws P self)
    (hout : ∀ p p', outside p p' → StakesKept self p p') (hnonneg : HeldNonneg P)
    (hpay : HoldersPay P) (hrun : (pool self outside).Run history d)
    (ha : d.store.allocation callId = some a) (hopen : a.settled = false)
    (hcall : MarketViews.getCall d.peers a.marketAddress callId = some call)
    (hconfig : d.store.config = some config) (hadmissible : Admissible self d env) :
    (∃ op f, run (PoolOp.perform op) env d.frame = .ok ((), f) ∧
        Settles env config d.frame callId a call f) ↔
      call.outcome ≠ 0 ∧ ∃ gain peers, Collects env config callId call d.peers gain peers ∧
        InI128 gain ∧ HarvestFits d.store config a gain := by
  have hs := sound_of_run hrun
  have hself := hadmissible.contract
  subst hself
  obtain ⟨hid, hamount⟩ := hs.allocated callId a ha
  have hstake := (staked_of_run hlaws hout hrun).on_outcome ha hopen hcall
  constructor
  · rintro ⟨op, f, hinvoke, settled, _, after, _, _, -, hafter, hsettled, -⟩
    have htransition := PoolOp.transitions hs.fee hinvoke
    cases htransition.open_kept hs ha hopen with
    | inl hkept =>
      obtain rfl := Option.some.inj (hkept.symm.trans hafter)
      rw [hopen] at hsettled
      cases hsettled
    | inr hharvest =>
      obtain ⟨netYield, hharvest⟩ := hharvest
      cases hharvest with
      | @made config' b call' gain peers _ _ hconfig' hb _ hcall' hresolved hgains hfits _ =>
        obtain rfl := Option.some.inj (ha.symm.trans hb)
        obtain rfl := Option.some.inj (hcall.symm.trans hcall')
        obtain rfl := Option.some.inj (hconfig.symm.trans hconfig')
        obtain ⟨hcollects, hgain⟩ := (gains_iff hstake hamount).mp hgains
        exact ⟨hresolved, gain, peers, hcollects, hgain, hfits⟩
  · rintro ⟨hresolved, gain, peers, hcollects, hgain, hfits⟩
    have hgains := (gains_iff hstake hamount).mpr ⟨hcollects, hgain⟩
    obtain ⟨paid, peers', hpaid⟩ := hgains.pays_fee hnonneg hpay hamount (hs.fee config hconfig)
    have hharvest : Harvests env callId d.frame _ _ :=
      .made hconfig ha hopen hcall hresolved hgains hfits hpaid
    refine ⟨.harvestYield callId, _, run_ignore.mpr ⟨_, (run_harvestYield hs.fee).mpr hharvest⟩, ?_⟩
    exact hharvest.settles hs ha hcall hconfig hstake

end Recovery

section Scenario

variable {env : Env} {m m' : PoolLedger}

/-- What the markets and the outcome manager remember, they remember through a transfer of tokens. -/
theorem Remembers.of_transfer {token sender recipient : Address} {amount : Int}
    (h : Tokens.transfer env token sender recipient amount m = some m') :
    Remembers m m' := by
  obtain ⟨-, hcalls, hclaimed⟩ := PoolLedger.transfer_eq_some h
  exact .of_calls hcalls (by rw [hclaimed]; exact List.Subset.refl _)

theorem Remembers.of_claim {callId : Nat} {staker : Address} {stake winning losing : Int}
    (h : m.claim env callId staker stake winning losing = some m') : Remembers m m' := by
  obtain ⟨hcalls, hclaimed⟩ := PoolLedger.claim_calls h
  exact .of_calls hcalls (by rw [hclaimed]; exact List.subset_cons_self ..)

theorem Remembers.of_stake {callId position : Nat} {staker : Address} {amount : Int}
    (h : m.stake env staker callId amount position = some m') :
    Remembers m m' := by
  obtain ⟨call, call', hcall, hcalls, houtcome, hclaimed, -⟩ := PoolLedger.stake_eq_some h
  refine ⟨by rw [hclaimed]; exact List.Subset.refl _, fun id old hold hne => ?_⟩
  by_cases hid : id = callId
  · subst hid
    obtain rfl := Option.some.inj (hcall.symm.trans hold)
    exact ⟨call', by rw [hcalls, Function.update_self], houtcome⟩
  · exact ⟨old, by rw [hcalls, Function.update_of_ne hid, hold], rfl⟩

theorem Remembers.refl (m : PoolLedger) : Remembers m m := .of_calls rfl (List.Subset.refl _)

theorem Remembers.trans {m₁ m₂ m₃ : PoolLedger} (h : Remembers m₁ m₂) (h' : Remembers m₂ m₃) :
    Remembers m₁ m₃ := by
  refine ⟨List.Subset.trans h.claimed h'.claimed, fun id call hcall hne => ?_⟩
  obtain ⟨call₂, hcall₂, hsame⟩ := h.outcome id call hcall hne
  obtain ⟨call₃, hcall₃, hsame'⟩ := h'.outcome id call₂ hcall₂ (by rwa [hsame])
  exact ⟨call₃, hcall₃, hsame'.trans hsame⟩

theorem Allocates.remembers {f f' : Frame Storage PoolLedger Event}
    (h : Allocates env f f') : Remembers f.tokens f'.tokens := by
  induction h with
  | refl => exact .refl _
  | stake _ _ _ _ _ hstake ih =>
    simp only [Markets.stakeOnCall] at hstake
    split at hstake
    · exact ih.trans (.of_stake hstake)
    · cases hstake

theorem Gains.remembers {config : PoolConfig} {callId : Nat} {a : Allocation}
    {call : Call} {gain : Int} (h : Gains env config callId a call m gain m') : Remembers m m' := by
  cases h with
  | won _ _ hclaim => exact .of_claim hclaim
  | lost => exact .refl _

theorem PaysFee.remembers {config : PoolConfig} {fee : Int}
    {paid : List (Effect Event)} (h : PaysFee env config fee m paid m') : Remembers m m' := by
  cases h with
  | paid _ htransfer => exact .of_transfer htransfer
  | free => exact .refl _

theorem Transition.remembers {op : PoolOp} {f f' : Frame Storage PoolLedger Event}
    (h : Transition env f op f') : Remembers f.tokens f'.tokens := by
  cases h with
  | configured => exact .refl _
  | reconfigured => exact .refl _
  | deposited h =>
    cases h with
    | made _ _ _ _ _ _ htransfer => exact .of_transfer htransfer
  | withdrawn h =>
    cases h with
    | made _ _ _ _ _ _ _ _ htransfer => exact .of_transfer htransfer
  | allocated h => exact h.remembers
  | harvested h =>
    cases h with
    | made _ _ _ _ _ hgains _ hpaid => exact hgains.remembers.trans hpaid.remembers

/-- The pool's stake of the scenarios. -/
def sampleAllocation : Allocation := ⟨1, PoolLedger.marketOf 1, 1, 1000, false, false, 0, 4⟩

/-- Outcome 1 wins. -/
def resolvedRun : System.Replayed surrounded Turn.next System.anything :=
  .of freshDeployment fresh_deployment_initial (stakedScript ++ [.resolve 1 1]) (by decide +kernel)

/-- Outcome 1 wins, and the outcome manager pays the pool's claim before the pool asks for it. -/
def claimedRun : System.Replayed surrounded Turn.next System.anything :=
  .of freshDeployment fresh_deployment_initial
    (stakedScript ++ [.resolve 1 1, .claim 1 home 1000 1000 400]) (by decide +kernel)

theorem resolved_run : surrounded.Run resolvedRun.history resolvedRun.state :=
  resolvedRun.run Turn.next_step System.anything_allowed

theorem claimed_run : surrounded.Run claimedRun.history claimedRun.state :=
  claimedRun.run Turn.next_step System.anything_allowed

/-- The call of the scenarios after the pool has staked on it and won. -/
def wonCall : Call := (resolvedRun.state.peers.calls 1).get (by decide +kernel)

theorem won_call : MarketViews.getCall resolvedRun.state.peers (PoolLedger.marketOf 1) 1 =
    some wonCall := by
  rw [wonCall, Option.some_get]
  exact if_pos rfl

/-- The pool collects 1400 units once its call is resolved. -/
theorem principal_recoverable_after_resolution :
    ∃ op f, run (PoolOp.perform op) bobEnv resolvedRun.state.frame = .ok ((), f) ∧
      Settles bobEnv sampleConfig resolvedRun.state.frame 1 sampleAllocation wonCall f := by
  have hallocation : resolvedRun.state.store.allocation 1 = some sampleAllocation := by
    decide +kernel
  have hconfig : resolvedRun.state.store.config = some sampleConfig := by decide +kernel
  have hadmissible : Admissible home resolvedRun.state bobEnv := by decide +kernel
  have houtcome : wonCall.outcome ≠ 0 := by decide +kernel
  refine (principal_recoverable_iff (PoolLedger.market_laws home) (fun _ _ h => h.1) held_nonneg
    PoolLedger.holders_pay resolved_run hallocation rfl won_call hconfig hadmissible).mpr
    ⟨houtcome, ?_⟩
  have hstake : stakeOn wonCall wonCall.outcome home = 1000 := by decide +kernel
  have hwinning : valueAt wonCall.outcomeStakes wonCall.outcome = 1000 := by decide +kernel
  have hlosing : valueAt wonCall.outcomeStakes (otherPosition wonCall.outcome) = 400 := by
    decide +kernel
  have hclaim : (Markets.claimPayoutForMarket bobEnv manager 1 home 1000 1000 400
      resolvedRun.state.peers).map (Tokens.balance · usdc home) = some (some 1400) := by
    decide +kernel
  obtain ⟨peers, hpeers, hafter⟩ := Option.map_eq_some_iff.mp hclaim
  refine ⟨1400 - 0, peers, .claimed ?_ (by decide +kernel) ?_ hafter, by decide, by decide +kernel⟩
  · rw [show bobEnv.contract = home from rfl, hstake]
    decide
  · rw [show bobEnv.contract = home from rfl, hstake, hwinning, hlosing]
    exact hpeers

/-- The pool's claim of call 1 has been paid, and its stake is still open. -/
structure PaidElsewhere (d : Deployment Storage PoolLedger) : Prop where
  claimed : (1, home) ∈ d.peers.claimed
  outcome : ∃ call, d.peers.calls 1 = some call ∧ call.outcome = 1
  kept : d.store.allocation 1 = some sampleAllocation

theorem PaidElsewhere.not_harvested {d : Deployment Storage PoolLedger} {netYield : Int}
    {f : Frame Storage PoolLedger Event} (h : PaidElsewhere d) (hcontract : env.contract = home) :
    ¬ Harvests env 1 d.frame netYield f := by
  intro hharvest
  obtain ⟨call, hcall, houtcome⟩ := h.outcome
  cases hharvest with
  | made _ ha _ hfound _ hgains =>
    obtain rfl := Option.some.inj (h.kept.symm.trans ha)
    obtain rfl := Option.some.inj (hcall.symm.trans hfound)
    cases hgains with
    | won _ _ hclaim =>
      obtain ⟨_, -, hpaid⟩ := Option.bind_eq_some_iff.mp hclaim
      rw [if_neg] at hpaid
      · cases hpaid
      · rintro ⟨-, hunclaimed, -⟩
        rw [hcontract] at hunclaimed
        exact hunclaimed h.claimed
    | lost hlost => exact hlost houtcome

theorem PaidElsewhere.remembered {d : Deployment Storage PoolLedger} {m : PoolLedger}
    (h : PaidElsewhere d) (hm : Remembers d.peers m) :
    (1, home) ∈ m.claimed ∧ ∃ call, m.calls 1 = some call ∧ call.outcome = 1 := by
  obtain ⟨call, hcall, houtcome⟩ := h.outcome
  obtain ⟨call', hcall', hsame⟩ := hm.outcome 1 call hcall (by omega)
  exact ⟨hm.claimed h.claimed, call', hcall', hsame.trans houtcome⟩

/-- Once the pool's claim has been paid elsewhere, nothing ever releases the principal: it is counted
in the locked capital for good, and the payout in the balance. -/
theorem principal_locked_for_good : surrounded.Run claimedRun.history claimedRun.state ∧
      Tokens.balance claimedRun.state.peers usdc home = some 1400 ∧
      ∀ history d,
        System.Path surrounded System.anyStep claimedRun.history claimedRun.state history d →
        d.store.allocation 1 = some sampleAllocation ∧ 1000 ≤ d.store.totalAllocatedLocked := by
  refine ⟨claimed_run, by decide +kernel, fun history d path => ?_⟩
  have hpaid : PaidElsewhere d := by
    refine path.stable (P := fun _ d => PaidElsewhere d) claimed_run ?_
      ⟨by decide +kernel, Option.map_eq_some_iff.mp
        (show (claimedRun.state.peers.calls 1).map Call.outcome = some 1 by decide +kernel),
        by decide +kernel⟩
    intro h d l d' hrun hd hstep _
    cases hstep with
    | invoked hadmissible hinvoke =>
      have hs := sound_of_run hrun
      have htransition := PoolOp.transitions hs.fee hinvoke
      obtain ⟨hclaimed, houtcome⟩ := hd.remembered htransition.remembers
      refine ⟨hclaimed, houtcome, ?_⟩
      obtain hkept | ⟨netYield, hharvest⟩ := htransition.open_kept hs hd.kept rfl
      · exact hkept
      · exact absurd hharvest (hd.not_harvested hadmissible.contract)
    | elsewhere houtside =>
      obtain ⟨hclaimed, houtcome⟩ := hd.remembered houtside.2
      exact ⟨hclaimed, houtcome, hd.kept⟩
  have hs := sound_of_run (claimed_run.trans path)
  refine ⟨hpaid.kept, ?_⟩
  have hmem : 1 ∈ d.store.openCallIds := (hs.mem_open 1).mpr ⟨_, hpaid.kept, rfl⟩
  have hprincipal : d.store.principal 1 = 1000 := by
    rw [Storage.principal, hpaid.kept]
    rfl
  rw [hs.locked, ← hprincipal]
  refine List.single_le_sum ?_ _ (List.mem_map_of_mem hmem)
  intro x hx
  obtain ⟨id, hid, rfl⟩ := List.mem_map.mp hx
  exact hs.principal_nonneg id

end Scenario

end Backit.LendingPool
