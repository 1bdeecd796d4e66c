import Backit.LendingPool.Pool

/-!
# What the entry points of the pool do

Every successful invocation makes one of the listed transitions. The harvest is described exactly:
when it succeeds, what it claims and what it leaves.
-/

namespace Backit.LendingPool

open Soroban Contract Lib PredictionMarketFactory
open PredictionMarket (Call)

/-- The shares that a deposit mints when so much is locked in the pool. -/
def mintedShares (totalSupply tvl amount : Int) : Int :=
  if totalSupply ≤ 0 ∨ tvl ≤ 0 then amount else (amount * totalSupply).tdiv tvl

/-- The protocol's fee on a change of an allocation's value. -/
def protocolFee (config : PoolConfig) (grossChange : Int) : Int :=
  if 0 < grossChange then grossChange * config.protocolFeeBps / bpsScale else 0

/-- A stake of the pool. -/
def newAllocation (env : Env) (market : Address) (callId position : Nat) (amount : Int) :
    Allocation where
  callId := callId
  marketAddress := market
  position := position
  amount := amount
  settled := false
  won := false
  payout := 0
  createdAt := env.timestamp

namespace Storage

variable (s : Storage)

/-- The storage after a deposit. -/
def deposited (user : Address) (amount lpShares : Int) : Storage :=
  ((s.setTotalLpShares (s.totalLpShares + lpShares)).setTotalDeposited
    (s.totalDeposited + amount)).setLpShares user (valueAt s.lpShares user + lpShares)

/-- The storage after a withdrawal. -/
def withdrawn (user : Address) (lpAmount : Int) : Storage :=
  (s.setTotalLpShares (s.totalLpShares - lpAmount)).setLpShares user
    (valueAt s.lpShares user - lpAmount)

/-- The storage after a stake. -/
def staked (allocation : Allocation) : Storage :=
  ((s.setTotalAllocatedLocked (s.totalAllocatedLocked + allocation.amount)).setAllocation
    allocation).addOpenCallId allocation.callId

/-- The storage after an allocation is settled. -/
def released (callId : Nat) (allocation settled : Allocation) : Storage :=
  ((s.setAllocation settled).removeOpenCallId callId).setTotalAllocatedLocked
    (s.totalAllocatedLocked - allocation.amount)

/-- The storage after a fee is paid. -/
def feePaid (fee : Int) : Storage :=
  if 0 < fee then s.setTotalFeesPaid (s.totalFeesPaid + fee) else s

@[simp] theorem feePaid_totalYieldEarned (fee : Int) :
    (s.feePaid fee).totalYieldEarned = s.totalYieldEarned := by
  unfold feePaid
  split <;> rfl

/-- The storage after a yield is recorded. -/
def yielded (now : Nat) (netYield : Int) : Storage :=
  recordYieldEvent now netYield (s.setTotalYieldEarned (s.totalYieldEarned + netYield))

end Storage

/-- An allocation with what its market's outcome brought. -/
def Allocation.settledWith (allocation : Allocation) (call : Call) (payout : Int) : Allocation :=
  { allocation with settled := true, won := call.outcome = allocation.position, payout := payout }

/-- The results of a harvest that have to fit their type. -/
def HarvestFits (s : Storage) (config : PoolConfig) (allocation : Allocation) (gain : Int) : Prop :=
  InI128 (gain - allocation.amount) ∧
    InI128 (s.totalAllocatedLocked - allocation.amount) ∧
    (0 < gain - allocation.amount →
      InI128 ((gain - allocation.amount) * config.protocolFeeBps)) ∧
    (0 < protocolFee config (gain - allocation.amount) →
      InI128 (s.totalFeesPaid + protocolFee config (gain - allocation.amount))) ∧
    InI128 (s.totalYieldEarned +
      (gain - allocation.amount - protocolFee config (gain - allocation.amount)))

instance (s : Storage) (config : PoolConfig) (allocation : Allocation) (gain : Int) :
    Decidable (HarvestFits s config allocation gain) := inferInstanceAs (Decidable (_ ∧ _))

section Relations

variable {P : Type} [Markets P]

/-- A deposit that succeeds. -/
inductive Deposits (env : Env) (user : Address) (amount lpShares : Int)
    (f : Frame Storage P Event) : Frame Storage P Event → Prop where
  | made {config liquid peers} : user ∈ env.auths → f.store.config = some config → 0 < amount →
      Tokens.balance f.tokens config.stakeToken env.contract = some liquid →
      lpShares = mintedShares f.store.totalLpShares (liquid + f.store.totalAllocatedLocked) amount →
      0 < lpShares →
      Tokens.transfer env config.stakeToken user env.contract amount f.tokens = some peers →
      Deposits env user amount lpShares f ⟨f.store.deposited user amount lpShares, peers,
        .event (.deposited user amount lpShares) ::
          .transfer config.stakeToken user env.contract amount :: f.effects⟩

/-- A withdrawal that succeeds. -/
inductive Withdraws (env : Env) (user : Address) (lpAmount amountOut : Int)
    (f : Frame Storage P Event) : Frame Storage P Event → Prop where
  | made {config liquid peers} : user ∈ env.auths → f.store.config = some config → 0 < lpAmount →
      lpAmount ≤ valueAt f.store.lpShares user → 0 < f.store.totalLpShares →
      Tokens.balance f.tokens config.stakeToken env.contract = some liquid →
      amountOut = (lpAmount * (liquid + f.store.totalAllocatedLocked)).tdiv f.store.totalLpShares →
      amountOut ≤ liquid →
      Tokens.transfer env config.stakeToken env.contract user amountOut f.tokens = some peers →
      Withdraws env user lpAmount amountOut f ⟨f.store.withdrawn user lpAmount, peers,
        .event (.withdrawn user lpAmount amountOut) ::
          .transfer config.stakeToken env.contract user amountOut :: f.effects⟩

/-- The stakes that the loop of `allocate_capital` makes. -/
inductive Allocates (env : Env) (f : Frame Storage P Event) : Frame Storage P Event → Prop where
  | refl : Allocates env f f
  | stake {current market callId position amount call peers} : Allocates env f current →
      (∀ a, current.store.allocation callId = some a → a.settled = true) →
      MarketViews.getCall current.tokens market callId = some call → call.outcome = 0 →
      0 < amount →
      Markets.stakeOnCall env market env.contract callId amount position current.tokens =
        some peers →
      Allocates env f ⟨current.store.staked (newAllocation env market callId position amount),
        peers, .event (.capitalAllocated callId market position amount) :: current.effects⟩

/-- The most that the pool stakes on one market. -/
def capOf (config : PoolConfig) (tvl : Int) : Int :=
  (tvl * config.maxAllocationBpsPerMarket).tdiv bpsScale

/-- The stakes of that loop, first to last, and what they leave of the liquid balance. -/
inductive Stakes (env : Env) (config : PoolConfig) (tvl : Int) :
    Frame Storage P Event → Int → List Allocation → Frame Storage P Event → Int → Prop where
  | done {f liquid} : Stakes env config tvl f liquid [] f liquid
  | stake {f liquid market callId position amount call peers stakes f' liquid'} :
      (∀ a, f.store.allocation callId = some a → a.settled = true) →
      MarketViews.getCall f.tokens market callId = some call →
      call.stakeToken = config.stakeToken → call.outcome = 0 →
      0 < amount → amount ≤ capOf config tvl → amount ≤ liquid →
      Markets.stakeOnCall env market env.contract callId amount position f.tokens = some peers →
      Stakes env config tvl ⟨f.store.staked (newAllocation env market callId position amount),
        peers, .event (.capitalAllocated callId market position amount) :: f.effects⟩
        (liquid - amount) stakes f' liquid' →
      Stakes env config tvl f liquid (newAllocation env market callId position amount :: stakes) f'
        liquid'

/-- What an allocation gains from its market: when its position has won, the outcome manager pays
the claim for it, and otherwise nothing. -/
inductive Gains (env : Env) (config : PoolConfig) (callId : Nat) (allocation : Allocation)
    (call : Call) (p : P) : Int → P → Prop where
  | won {before peers after} : call.outcome = allocation.position →
      Tokens.balance p config.stakeToken env.contract = some before →
      Markets.claimPayoutForMarket env config.outcomeManager callId env.contract allocation.amount
        (valueAt call.outcomeStakes allocation.position)
        (valueAt call.outcomeStakes (otherPosition allocation.position)) p = some peers →
      Tokens.balance peers config.stakeToken env.contract = some after →
      InI128 (after - before) →
      Gains env config callId allocation call p (after - before) peers
  | lost : call.outcome ≠ allocation.position → Gains env config callId allocation call p 0 p

/-- The transfer of a fee, when there is one. -/
inductive PaysFee (env : Env) (config : PoolConfig) (fee : Int) (p : P) :
    List (Effect Event) → P → Prop where
  | paid {peers} : 0 < fee →
      Tokens.transfer env config.stakeToken env.contract config.treasury fee p = some peers →
      PaysFee env config fee p
        [.transfer config.stakeToken env.contract config.treasury fee] peers
  | free : ¬ 0 < fee → PaysFee env config fee p [] p

/-- A harvest that succeeds. -/
inductive Harvests (env : Env) (callId : Nat) (f : Frame Storage P Event) :
    Int → Frame Storage P Event → Prop where
  | made {config allocation call gain peers paid peers'} :
      f.store.config = some config → f.store.allocation callId = some allocation →
      allocation.settled = false →
      MarketViews.getCall f.tokens allocation.marketAddress callId = some call →
      call.outcome ≠ 0 → Gains env config callId allocation call f.tokens gain peers →
      HarvestFits f.store config allocation gain →
      PaysFee env config (protocolFee config (gain - allocation.amount)) peers paid peers' →
      Harvests env callId f
        (gain - allocation.amount - protocolFee config (gain - allocation.amount))
        ⟨((f.store.released callId allocation (allocation.settledWith call gain)).feePaid
            (protocolFee config (gain - allocation.amount))).yielded env.timestamp
            (gain - allocation.amount - protocolFee config (gain - allocation.amount)), peers',
          .event (.yieldHarvested callId (call.outcome = allocation.position)
            (gain - allocation.amount) (protocolFee config (gain - allocation.amount))
            (gain - allocation.amount - protocolFee config (gain - allocation.amount))) ::
            paid ++ f.effects⟩

/-- A successful invocation. -/
inductive Transition (env : Env) (f : Frame Storage P Event) :
    PoolOp → Frame Storage P Event → Prop where
  | configured {admin treasury stakeToken factory manager minDeposit maxPool minAllocation config} :
      f.store.config = none → admin ∈ env.auths → config.protocolFeeBps ≤ maxBps →
      Transition env f
        (.initializePool admin treasury stakeToken factory manager minDeposit maxPool minAllocation)
        { f with store := f.store.setConfig config }
  | reconfigured {op config config'} : f.store.config = some config → config.admin ∈ env.auths →
      config'.stakeToken = config.stakeToken → config'.protocolFeeBps ≤ maxBps →
      Transition env f op { f with store := f.store.setConfig config' }
  | deposited {user amount lpShares f'} :
      Deposits env user amount lpShares f f' → Transition env f (.deposit user amount) f'
  | withdrawn {user lpAmount amountOut f'} :
      Withdraws env user lpAmount amountOut f f' → Transition env f (.withdraw user lpAmount) f'
  | allocated {markets f'} : Allocates env f f' → Transition env f (.allocateCapital markets) f'
  | harvested {callId netYield f'} :
      Harvests env callId f netYield f' → Transition env f (.harvestYield callId) f'

end Relations

section Specs

variable {P : Type} [Markets P] {env : Env} {f f' : Frame Storage P Event}
  {config : PoolConfig} {α : Type} {r : α} {tvl liquid : Int}
    {result : AllocationOutcome × Int}

omit [Markets P] in
theorem run_orOverflow_bind (result : Option Int) (k : Int → Pool P α) :
    run (orOverflow result >>= k) env f = .ok (r, f') ↔
      ∃ x, result = some x ∧ run (k x) env f = .ok (r, f') := run_unwrap_bind ..

omit [Markets P] in
theorem run_getConfig_bind (k : PoolConfig → Pool P α) : run (getConfig >>= k) env f = .ok (r, f') ↔
      ∃ config, f.store.config = some config ∧ run (k config) env f = .ok (r, f') := by
  simp only [getConfig, Contract.bind_assoc, run_steps]

theorem run_poolBalance_bind (token : Address) (k : Int → Pool P α) :
    run (poolBalance token >>= k) env f = .ok (r, f') ↔
      ∃ held, Tokens.balance f.tokens token env.contract = some held ∧
        run (k held) env f = .ok (r, f') := by
  simp only [poolBalance, Contract.bind_assoc, run_steps]

theorem run_computeTvl_bind (config : PoolConfig) (k : Int → Pool P α) :
    run (computeTvl config >>= k) env f = .ok (r, f') ↔
      ∃ liquid, Tokens.balance f.tokens config.stakeToken env.contract = some liquid ∧
        InI128 (liquid + f.store.totalAllocatedLocked) ∧
        run (k (liquid + f.store.totalAllocatedLocked)) env f = .ok (r, f') := by
  simp only [computeTvl, Contract.bind_assoc, run_poolBalance_bind, run_getStore_bind,
    run_orOverflow_bind, checkedAdd, checked_eq_some]
  constructor
  · rintro ⟨liquid, hliquid, _, ⟨hfits, rfl⟩, hrest⟩
    exact ⟨liquid, hliquid, hfits, hrest⟩
  · rintro ⟨liquid, hliquid, hfits, hrest⟩
    exact ⟨liquid, hliquid, _, ⟨hfits, rfl⟩, hrest⟩

omit [Markets P] in
theorem run_lpSharesFor_bind {totalSupply tvl amount : Int}
    (k : Int → Pool P α) (h : run (lpSharesFor totalSupply tvl amount >>= k) env f = .ok (r, f')) :
    run (k (mintedShares totalSupply tvl amount)) env f = .ok (r, f') := by
  obtain ⟨minted, f₁, hminted, hrest⟩ := run_bind.mp h
  unfold mintedShares
  unfold lpSharesFor at hminted
  by_cases hfirst : totalSupply ≤ 0 ∨ tvl ≤ 0
  · rw [if_pos hfirst, run_pure] at hminted
    rw [if_pos hfirst]
    cases hminted
    exact hrest
  · rw [if_neg hfirst, run_orOverflow_bind] at hminted
    obtain ⟨scaled, hscaled, hminted⟩ := hminted
    obtain ⟨-, rfl⟩ := checked_eq_some.mp hscaled
    obtain ⟨hdiv, rfl⟩ := (run_unwrap _ _).mp hminted
    have htvl : tvl ≠ 0 := by omega
    rw [checkedDiv, if_neg htvl] at hdiv
    obtain ⟨-, rfl⟩ := checked_eq_some.mp hdiv
    rw [if_neg hfirst]
    exact hrest

theorem run_deposit {user : Address} {amount lpShares : Int}
    (h : run (deposit user amount) env f = .ok (lpShares, f')) :
    Deposits env user amount lpShares f f' := by
  simp only [deposit, run_steps, run_getConfig_bind, run_computeTvl_bind, run_orOverflow_bind,
    not_le] at h
  obtain ⟨hauth, config, hconfig, hamount, -, liquid, hliquid, -, _, -, -, h⟩ := h
  have hrest := run_lpSharesFor_bind _ h
  simp only [run_steps, transferToken, run_orOverflow_bind, checkedAdd, checked_eq_some,
    not_le] at hrest
  obtain ⟨hshares, peers, htransfer, _, ⟨-, rfl⟩, _, ⟨-, rfl⟩, _, ⟨-, rfl⟩, rfl, rfl⟩ := hrest
  exact .made hauth hconfig hamount hliquid rfl hshares htransfer

theorem run_withdraw {user : Address} {lpAmount amountOut : Int}
    (h : run (withdraw user lpAmount) env f = .ok (amountOut, f')) :
    Withdraws env user lpAmount amountOut f f' := by
  simp only [withdraw, run_steps, run_getConfig_bind, run_computeTvl_bind, run_orOverflow_bind,
    run_poolBalance_bind, transferToken, checkedMul, checkedSub, checked_eq_some, not_le,
    not_lt] at h
  obtain ⟨hauth, config, hconfig, hamount, hheld, hsupply, liquid, hliquid, -, _, ⟨-, rfl⟩,
    amountOut, hdiv, liquid', hliquid', hcovered, _, ⟨-, rfl⟩, _, ⟨-, rfl⟩, peers, htransfer, rfl,
    rfl⟩ := h
  obtain rfl : liquid = liquid' := Option.some.inj (hliquid.symm.trans hliquid')
  rw [checkedDiv, if_neg hsupply.ne'] at hdiv
  obtain ⟨-, rfl⟩ := checked_eq_some.mp hdiv
  exact .made hauth hconfig hamount hheld hsupply hliquid rfl hcovered htransfer

theorem Allocates.trans {f₁ f₂ f₃ : Frame Storage P Event} (h : Allocates env f₁ f₂)
    (h' : Allocates env f₂ f₃) : Allocates env f₁ f₃ := by
  induction h' with
  | refl => exact h
  | stake _ hfree hcall hopen hamount hstake ih => exact ih.stake hfree hcall hopen hamount hstake

theorem Stakes.allocates {tvl liquid liquid' : Int} {stakes : List Allocation}
    (h : Stakes env config tvl f liquid stakes f' liquid') : Allocates env f f' := by
  induction h with
  | done => exact .refl
  | stake hfree hcall _ hopen hamount _ _ hstake _ ih =>
    exact (Allocates.refl.stake hfree hcall hopen hamount hstake).trans ih

theorem Stakes.trans {tvl l₁ l₂ l₃ : Int} {first rest : List Allocation}
    {f₁ f₂ f₃ : Frame Storage P Event} (h : Stakes env config tvl f₁ l₁ first f₂ l₂)
    (h' : Stakes env config tvl f₂ l₂ rest f₃ l₃) :
    Stakes env config tvl f₁ l₁ (first ++ rest) f₃ l₃ := by
  induction h with
  | done => exact h'
  | stake hfree hcall htoken hopen hamount hcap hliquid hstake _ ih =>
    exact .stake hfree hcall htoken hopen hamount hcap hliquid hstake (ih h')

/-- A call that the pool does not skip takes its token and has no outcome. -/
theorem of_not_skipped {now : Nat} {call : Call} (h : skipReason config now call = none) :
    call.stakeToken = config.stakeToken ∧ call.outcome = 0 := by
  unfold skipReason at h
  split_ifs at h with htoken _ hended
  refine ⟨not_not.mp htoken, ?_⟩
  by_contra hne
  exact hended (.inr (.inr (.inr (.inl hne))))

theorem run_stakeOnMarket {tvl : Int} {market : Address}
    {callId position : Nat} {amount liquid : Int} {call : Call}
    (hfree : ∀ a, f.store.allocation callId = some a → a.settled = true)
    (hcall : MarketViews.getCall f.tokens market callId = some call)
    (htoken : call.stakeToken = config.stakeToken) (hopen : call.outcome = 0)
    (hamount : 0 < amount) (hcap : amount ≤ capOf config tvl) (hliquid : amount ≤ liquid)
    (h : run (stakeOnMarket market callId position amount liquid) env f = .ok (result, f')) :
    ∃ stakes, Stakes env config tvl f liquid stakes f' result.2 := by
  obtain ⟨staked, f₁, htry, h⟩ := run_bind.mp h
  cases hstake : Markets.stakeOnCall env market env.contract callId amount position f.tokens with
  | none =>
    simp only [run, tryStakeOnCall, hstake, Except.ok.injEq, Prod.mk.injEq] at htry
    obtain ⟨rfl, rfl⟩ := htry
    cases h
    exact ⟨[], .done⟩
  | some peers =>
    simp only [run, tryStakeOnCall, hstake, Except.ok.injEq, Prod.mk.injEq] at htry
    obtain ⟨rfl, rfl⟩ := htry
    rw [if_pos rfl] at h
    simp only [run_orOverflow_bind, run_steps, checkedSub, checkedAdd, checked_eq_some] at h
    obtain ⟨_, ⟨-, rfl⟩, _, ⟨-, rfl⟩, rfl, rfl⟩ := h
    exact ⟨_, .stake hfree hcall htoken hopen hamount hcap hliquid hstake .done⟩

omit [Markets P] in
theorem or_overflow_read_only (result : Option Int) : ReadOnly (orOverflow result : Pool P Int) :=
  ReadOnly.unwrap _ _

omit [Markets P] in
theorem market_implied_bps_read_only (call : Call) :
    ReadOnly (marketImpliedBps call : Pool P Nat) := by
  refine (or_overflow_read_only _).bind fun totalStakes => ?_
  refine ReadOnly.ite (.pure _) ?_
  exact (or_overflow_read_only _).bind fun _ => (or_overflow_read_only _).bind fun _ => .pure _

omit [Markets P] in
/-- What the pool stakes on a market is at most its cap and the liquid balance. -/
theorem run_allocationAmount_bind
    {edgeBps : Nat} {k : Int → Pool P α}
    (h : run (allocationAmount config tvl liquid edgeBps >>= k) env f = .ok (r, f')) :
    ∃ amount, amount ≤ capOf config tvl ∧ amount ≤ liquid ∧
      run (k amount) env f = .ok (r, f') := by
  have hscale : bpsScale ≠ 0 := by decide
  simp only [allocationAmount, Contract.bind_assoc, run_orOverflow_bind, checkedMul, checkedDiv,
    if_neg hscale, checked_eq_some, run_pure_bind] at h
  obtain ⟨_, -, raw, -, _, ⟨-, rfl⟩, _, ⟨-, rfl⟩, h⟩ := h
  exact ⟨_, (min_le_left _ _).trans (min_le_right _ _), min_le_right _ _, h⟩

/-- A call that the pool considers is staked on at most once. -/
theorem run_considerCall {market : Address} {call : Call} {input : MarketAllocationInput}
    (hfree : ∀ a, f.store.allocation input.callId = some a → a.settled = true)
    (hcall : MarketViews.getCall f.tokens market input.callId = some call)
    (h : run (considerCall config tvl market call input liquid) env f = .ok (result, f')) :
    ∃ stakes, Stakes env config tvl f liquid stakes f' result.2 := by
  rw [considerCall, run_env_bind] at h
  cases hskip : skipReason config env.timestamp call with
  | some reason =>
    rw [hskip] at h
    cases h
    exact ⟨[], .done⟩
  | none =>
    rw [hskip] at h
    obtain ⟨marketBps, f₁, hbps, hrest⟩ := run_bind.mp h
    obtain rfl := market_implied_bps_read_only call _ _ _ _ hbps
    dsimp only at hrest
    by_cases hedge : edgeBetween input.oracleProbabilityBps marketBps < config.edgeThresholdBps
    · rw [if_pos hedge] at hrest
      cases hrest
      exact ⟨[], .done⟩
    · rw [if_neg hedge] at hrest
      obtain ⟨amount, hcap, hliquid, hstake⟩ := run_allocationAmount_bind hrest
      by_cases hnone : amount ≤ 0
      · rw [if_pos hnone] at hstake
        cases hstake
        exact ⟨[], .done⟩
      · rw [if_neg hnone] at hstake
        obtain ⟨htoken, hopen⟩ := of_not_skipped hskip
        exact run_stakeOnMarket hfree hcall htoken hopen (by omega) hcap hliquid hstake

theorem run_allocateTo {input : MarketAllocationInput}
    (h : run (allocateTo config tvl input liquid) env f = .ok (result, f')) :
    ∃ stakes, Stakes env config tvl f liquid stakes f' result.2 := by
  unfold allocateTo at h
  by_cases hinvalid : maxBps < input.oracleProbabilityBps
  · rw [if_pos hinvalid] at h
    cases h
    exact ⟨[], .done⟩
  rw [if_neg hinvalid, run_getStore_bind] at h
  by_cases hheld : (f.store.allocation input.callId).any (fun a => !a.settled) = true
  · rw [if_pos hheld] at h
    cases h
    exact ⟨[], .done⟩
  rw [if_neg hheld] at h
  have hfree : ∀ a, f.store.allocation input.callId = some a → a.settled = true := by
    intro a ha
    simpa [ha] using hheld
  obtain ⟨market, f₁, hmarket, h⟩ := run_bind.mp h
  obtain ⟨call, f₂, hcall, h⟩ := run_bind.mp h
  obtain ⟨hfound, rfl⟩ : MarketViews.getMarket f.tokens config.predictionMarketFactory
      input.callId = some market ∧ f₁ = f := by
    cases hview : MarketViews.getMarket f.tokens config.predictionMarketFactory input.callId with
    | none => simp [run, resolveMarketAddress, hview] at hmarket
    | some found =>
      simp only [run, resolveMarketAddress, hview, Except.ok.injEq, Prod.mk.injEq] at hmarket
      exact ⟨congrArg some hmarket.1, hmarket.2.symm⟩
  cases hcall
  cases hview : MarketViews.getCall f₁.tokens market input.callId with
  | none =>
    rw [hview] at h
    cases h
    exact ⟨[], .done⟩
  | some call =>
    rw [hview] at h
    exact run_considerCall hfree hview h

theorem run_allocateEach
    {inputs : List MarketAllocationInput} {results : List AllocationOutcome}
    (h : run (allocateEach config tvl inputs liquid) env f = .ok (results, f')) :
    ∃ stakes liquid', Stakes env config tvl f liquid stakes f' liquid' := by
  induction inputs generalizing liquid results f with
  | nil =>
    cases h
    exact ⟨[], liquid, .done⟩
  | cons input rest ih =>
    obtain ⟨considered, f₁, hfirst, h⟩ := run_bind.mp h
    obtain ⟨later, f₂, hrest, h⟩ := run_bind.mp h
    cases h
    obtain ⟨first, hfirst⟩ := run_allocateTo hfirst
    obtain ⟨stakes, liquid', hrest⟩ := ih hrest
    exact ⟨first ++ stakes, liquid', hfirst.trans hrest⟩

theorem run_allocateCapital {markets : List MarketAllocationInput}
    {results : List AllocationOutcome}
    (h : run (allocateCapital markets) env f = .ok (results, f')) :
    ∃ config liquid stakes liquid', f.store.config = some config ∧
      Tokens.balance f.tokens config.stakeToken env.contract = some liquid ∧
      InI128 (liquid + f.store.totalAllocatedLocked) ∧
      Stakes env config (liquid + f.store.totalAllocatedLocked) f liquid stakes f' liquid' := by
  simp only [allocateCapital, run_getConfig_bind, run_rejectIf_bind, run_computeTvl_bind,
    run_poolBalance_bind] at h
  obtain ⟨config, hconfig, -, liquid, hliquid, hfits, -, liquid', hliquid', h⟩ := h
  obtain rfl := Option.some.inj (hliquid.symm.trans hliquid')
  obtain ⟨stakes, rest, hstakes⟩ := run_allocateEach h
  exact ⟨config, liquid, stakes, rest, hconfig, hliquid, hfits, hstakes⟩

theorem run_claimPayoutForMarket_bind (config : PoolConfig) (callId : Nat)
    (stake winning losing : Int) (k : Unit → Pool P α) :
    run (claimPayoutForMarket config callId stake winning losing >>= k) env f = .ok (r, f') ↔
      ∃ peers, Markets.claimPayoutForMarket env config.outcomeManager callId env.contract stake
          winning losing f.tokens = some peers ∧
        run (k ()) env { f with tokens := peers } = .ok (r, f') := by
  cases h : Markets.claimPayoutForMarket env config.outcomeManager callId env.contract stake
    winning losing f.tokens <;> simp [run, bind, claimPayoutForMarket, h]

/-- The winnings of an allocation are claimed if and only if it gains something or has lost. -/
theorem run_claimWinnings_bind {callId : Nat}
    {allocation : Allocation} {call : Call} (k : Int → Pool P α) :
    run (claimWinnings config callId allocation call >>= k) env f = .ok (r, f') ↔
      ∃ gain peers, Gains env config callId allocation call f.tokens gain peers ∧
        run (k gain) env { f with tokens := peers } = .ok (r, f') := by
  unfold claimWinnings
  by_cases hwon : call.outcome = allocation.position
  · rw [if_pos hwon]
    simp only [Contract.bind_assoc, run_poolBalance_bind, run_claimPayoutForMarket_bind,
      run_orOverflow_bind, checkedSub, checked_eq_some]
    constructor
    · rintro ⟨before, hbefore, peers, hclaim, after, hafter, _, ⟨hfits, rfl⟩, hrest⟩
      exact ⟨after - before, peers, .won hwon hbefore hclaim hafter hfits, hrest⟩
    · rintro ⟨gain, peers, hgains, hrest⟩
      cases hgains with
      | won _ hbefore hclaim hafter hfits =>
        exact ⟨_, hbefore, peers, hclaim, _, hafter, _, ⟨hfits, rfl⟩, hrest⟩
      | lost hlost => exact absurd hwon hlost
  · rw [if_neg hwon, run_pure_bind]
    constructor
    · intro hrest
      exact ⟨0, f.tokens, .lost hwon, hrest⟩
    · rintro ⟨gain, peers, hgains, hrest⟩
      cases hgains with
      | won hwon' => exact absurd hwon' hwon
      | lost => exact hrest

theorem protocolFee_bounds (hbps : config.protocolFeeBps ≤ maxBps)
    (gross : Int) : 0 ≤ protocolFee config gross ∧ (0 < gross → protocolFee config gross ≤ gross) ∧
      (¬ 0 < gross → protocolFee config gross = 0) := by
  unfold protocolFee
  split
  · next hprofit =>
    have hcap : (config.protocolFeeBps : Int) ≤ bpsScale := Int.ofNat_le.mpr hbps
    have hscale : 0 < bpsScale := by decide
    refine ⟨Int.ediv_nonneg (by positivity) hscale.le, fun _ => ?_, fun h => absurd hprofit h⟩
    refine Int.ediv_le_of_le_mul hscale ?_
    exact mul_le_mul_of_nonneg_left hcap hprofit.le
  · next hloss => exact ⟨le_rfl, fun h => absurd h hloss, fun _ => rfl⟩

/-- A fee is paid if and only if the token transfers it and the fees stay in range. -/
theorem run_payProtocolFee_bind (config : PoolConfig) (fee : Int) (k : Unit → Pool P α) :
    run (payProtocolFee config fee >>= k) env f = .ok (r, f') ↔
      (0 < fee → InI128 (f.store.totalFeesPaid + fee)) ∧
      ∃ paid peers, PaysFee env config fee f.tokens paid peers ∧
        run (k ()) env ⟨f.store.feePaid fee, peers, paid ++ f.effects⟩ = .ok (r, f') := by
  unfold payProtocolFee Storage.feePaid
  by_cases hfee : 0 < fee
  · simp only [hfee, if_true, Contract.bind_assoc, run_steps, transferToken, run_orOverflow_bind,
      checkedAdd, checked_eq_some, true_implies]
    constructor
    · rintro ⟨peers, htransfer, _, ⟨hfits, rfl⟩, hrest⟩
      exact ⟨hfits, _, peers, .paid hfee htransfer, hrest⟩
    · rintro ⟨hfits, paid, peers, hpaid, hrest⟩
      cases hpaid with
      | paid _ htransfer => exact ⟨peers, htransfer, _, ⟨hfits, rfl⟩, hrest⟩
      | free hfree => exact absurd hfee hfree
  · simp only [hfee, if_false, run_pure_bind, false_implies, true_and]
    constructor
    · intro hrest
      exact ⟨[], f.tokens, .free hfee, hrest⟩
    · rintro ⟨paid, peers, hpaid, hrest⟩
      cases hpaid with
      | paid hpositive => exact absurd hpositive hfee
      | free => exact hrest

/-- The protocol's fee is taken if and only if it is in range and can be paid. -/
theorem run_takeProtocolFee_bind {gross : Int}
    (hbps : config.protocolFeeBps ≤ maxBps) (hgross : InI128 gross) (k : Int × Int → Pool P α) :
    run (takeProtocolFee config gross >>= k) env f = .ok (r, f') ↔
      (0 < gross → InI128 (gross * config.protocolFeeBps)) ∧
      (0 < protocolFee config gross → InI128 (f.store.totalFeesPaid + protocolFee config gross)) ∧
      ∃ paid peers, PaysFee env config (protocolFee config gross) f.tokens paid peers ∧
        run (k (protocolFee config gross, gross - protocolFee config gross)) env
          ⟨f.store.feePaid (protocolFee config gross), peers, paid ++ f.effects⟩ = .ok (r, f') := by
  obtain ⟨hnonneg, hpart, hzero⟩ := protocolFee_bounds hbps gross
  unfold takeProtocolFee
  by_cases hprofit : 0 < gross
  · have hscaled : 0 ≤ gross * (config.protocolFeeBps : Int) := by positivity
    have hdiv : InI128 (gross * (config.protocolFeeBps : Int)) →
        checkedDiv (gross * (config.protocolFeeBps : Int)) bpsScale =
          some (protocolFee config gross) := by
      intro hfits
      rw [checkedDiv_of_nonneg hscaled (by decide) hfits, protocolFee, if_pos hprofit]
    have hnet : InI128 (gross - protocolFee config gross) :=
      .of_le (by have := hpart hprofit; omega) (by omega) hgross
    rw [if_pos hprofit]
    simp only [Contract.bind_assoc, run_orOverflow_bind, checkedMul, checkedSub, checked_eq_some,
      run_payProtocolFee_bind, run_pure_bind, hprofit, true_implies]
    constructor
    · rintro ⟨_, ⟨hfits, rfl⟩, fee, hfee, _, ⟨-, rfl⟩, hrest⟩
      obtain rfl := Option.some.inj ((hdiv hfits).symm.trans hfee)
      exact ⟨hfits, hrest⟩
    · rintro ⟨hfits, hrest⟩
      exact ⟨_, ⟨hfits, rfl⟩, _, hdiv hfits, _, ⟨hnet, rfl⟩, hrest⟩
  · rw [if_neg hprofit, run_pure_bind, hzero hprofit]
    simp only [hprofit, false_implies, lt_irrefl, true_and, sub_zero]
    constructor
    · intro hrest
      exact ⟨[], f.tokens, .free (lt_irrefl 0), hrest⟩
    · rintro ⟨paid, peers, hpaid, hrest⟩
      cases hpaid with
      | paid hpositive => exact absurd hpositive (lt_irrefl 0)
      | free => exact hrest

theorem run_harvestYield {callId : Nat} {netYield : Int}
    (hbps : ∀ config, f.store.config = some config → config.protocolFeeBps ≤ maxBps) :
    run (harvestYield callId) env f = .ok (netYield, f') ↔ Harvests env callId f netYield f' := by
  have hcall : ∀ {α : Type} {r : α} (market : Address) (id : Nat) (k : Option Call → Pool P α),
      run (tryGetCall market id >>= k) env f = .ok (r, f') ↔
        run (k (MarketViews.getCall f.tokens market id)) env f = .ok (r, f') := fun _ _ _ => .rfl
  simp only [harvestYield, run_getConfig_bind, run_steps, hcall, run_claimWinnings_bind,
    run_orOverflow_bind, checkedSub, checked_eq_some]
  constructor
  · rintro ⟨config, hconfig, allocation, hallocation, hunsettled, call, hfound, hresolved, gain,
      peers, hgains, _, ⟨hgross, rfl⟩, _, ⟨hlocked, rfl⟩, h⟩
    simp only [run_takeProtocolFee_bind (hbps config hconfig) hgross, run_steps,
      run_orOverflow_bind, checkedAdd, checked_eq_some] at h
    obtain ⟨hscaled, hfees, paid, peers', hpaid, _, ⟨hyield, rfl⟩, rfl, rfl⟩ := h
    exact .made hconfig hallocation (by simpa using hunsettled) hfound hresolved hgains
      ⟨hgross, hlocked, hscaled, hfees, by rwa [Storage.feePaid_totalYieldEarned] at hyield⟩ hpaid
  · rintro ⟨hconfig, hallocation, hunsettled, hfound, hresolved, hgains,
      ⟨hgross, hlocked, hscaled, hfees, hyield⟩, hpaid⟩
    refine ⟨_, hconfig, _, hallocation, by simpa using hunsettled, _, hfound, hresolved, _, _,
      hgains, _, ⟨hgross, rfl⟩, _, ⟨hlocked, rfl⟩, ?_⟩
    simp only [run_takeProtocolFee_bind (hbps _ hconfig) hgross, run_steps, run_orOverflow_bind,
      checkedAdd, checked_eq_some]
    exact ⟨hscaled, hfees, _, _, hpaid, _, ⟨by rwa [Storage.feePaid_totalYieldEarned], rfl⟩,
      trivial, rfl⟩

omit [Markets P] in
theorem run_changeConfig {invalid : Prop} [Decidable invalid] {error : LendingPoolError}
    {change : PoolConfig → PoolConfig} {u : Unit}
    (h : run (changeConfig invalid error change : Pool P Unit) env f = .ok (u, f')) :
    ∃ config, f.store.config = some config ∧ config.admin ∈ env.auths ∧ ¬ invalid ∧
      f' = { f with store := f.store.setConfig (change config) } := by
  simp only [changeConfig, run_getConfig_bind, run_steps] at h
  exact h

/-- An invocation that succeeds makes a listed transition. -/
theorem PoolOp.transitions {op : PoolOp}
    (hbps : ∀ config, f.store.config = some config → config.protocolFeeBps ≤ maxBps)
    (h : run op.perform env f = .ok ((), f')) : Transition env f op f' := by
  cases op with
  | initializePool admin treasury stakeToken factory manager minDeposit maxPool minAllocation =>
    simp only [PoolOp.perform, LendingPool.initializePool, run_steps] at h
    obtain ⟨hnone, hauth, -, -, rfl⟩ := h
    exact .configured (by simpa using hnone) hauth (show defaultProtocolFeeBps ≤ maxBps by decide)
  | deposit user amount =>
    obtain ⟨lpShares, h⟩ := run_ignore.mp h
    exact .deposited (run_deposit h)
  | withdraw user lpAmount =>
    obtain ⟨amountOut, h⟩ := run_ignore.mp h
    exact .withdrawn (run_withdraw h)
  | allocateCapital markets =>
    obtain ⟨results, h⟩ := run_ignore.mp h
    obtain ⟨config, liquid, stakes, rest, -, -, -, hstakes⟩ := run_allocateCapital h
    exact .allocated hstakes.allocates
  | harvestYield callId =>
    obtain ⟨netYield, h⟩ := run_ignore.mp h
    exact .harvested ((run_harvestYield hbps).mp h)
  | setMaxAllocBpsPerMarket newBps =>
    obtain ⟨config, hconfig, hauth, -, rfl⟩ := run_changeConfig h
    exact .reconfigured hconfig hauth rfl (hbps config hconfig)
  | setProtocolFeeBps newBps =>
    obtain ⟨config, hconfig, hauth, hvalid, rfl⟩ := run_changeConfig h
    exact .reconfigured hconfig hauth rfl (not_lt.mp hvalid)
  | setEdgeThresholdBps newBps =>
    obtain ⟨config, hconfig, hauth, -, rfl⟩ := run_changeConfig h
    exact .reconfigured hconfig hauth rfl (hbps config hconfig)
  | setMinDeposit newMin =>
    obtain ⟨config, hconfig, hauth, -, rfl⟩ := run_changeConfig h
    exact .reconfigured hconfig hauth rfl (hbps config hconfig)
  | setMaxPoolSize newMax =>
    obtain ⟨config, hconfig, hauth, -, rfl⟩ := run_changeConfig h
    exact .reconfigured hconfig hauth rfl (hbps config hconfig)

end Specs

end Backit.LendingPool
