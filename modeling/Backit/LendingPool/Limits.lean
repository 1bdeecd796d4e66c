import Backit.LendingPool.Shares

/-!
# Limits of the allocation of capital

The pool stakes no more on a market than its cap, and no more in all than its liquid balance, which
moves value from the liquid balance to the locked capital. The arithmetic is exact unless a result
is too large: nothing underflows and nothing is divided by zero.
-/

namespace Backit.LendingPool

open Soroban Contract Lib PredictionMarketFactory
open PredictionMarket (Call)

/-- No market records a negative stake. -/
def StakesNonneg {P : Type} [Markets P] (p : P) : Prop :=
  ∀ market id call, MarketViews.getCall p market id = some call →
    ∀ position, 0 ≤ valueAt call.outcomeStakes position

/-- A stake of the pool is paid in the token of the call, and markets add it to what they record. -/
structure StakeLaws (P : Type) [Markets P] (pool : Address) : Prop where
  paid : ∀ env market id amount position call (p p' : P), env.contract = pool →
    MarketViews.getCall p market id = some call →
    Markets.stakeOnCall env market pool id amount position p = some p' →
    Tokens.balance p' call.stakeToken pool =
      (Tokens.balance p call.stakeToken pool).map (· - amount)
  nonneg : ∀ env market id amount position (p p' : P), 0 < amount → StakesNonneg p →
    Markets.stakeOnCall env market pool id amount position p = some p' → StakesNonneg p'

section Exact

variable {P : Type} [Markets P]

/-- An exact result, or `Overflow` when it is too large. -/
def orTooLarge (x : Int) : Pool P Int := do
  rejectIf (i128Max < x) (.error .overflow)
  pure x

/-- The market's implied probability, with exact arithmetic. -/
def exactImpliedBps (call : Call) : Pool P Nat := do
  let totalStakes ← orTooLarge (valueAt call.outcomeStakes 1 + valueAt call.outcomeStakes 2)
  if totalStakes ≤ 0 then pure 5000
  else do
    let scaled ← orTooLarge (valueAt call.outcomeStakes 1 * bpsScale)
    pure (scaled / totalStakes % 2 ^ 32).toNat

/-- What the pool stakes on a market, with exact arithmetic. -/
def exactAmount (config : PoolConfig) (tvl liquidRemaining : Int) (edgeBps : Nat) :
    Pool P Int := do
  let rawScaled ← orTooLarge (tvl * edgeBps)
  let capScaled ← orTooLarge (tvl * config.maxAllocationBpsPerMarket)
  pure (min (min (rawScaled / bpsScale) (capScaled / bpsScale)) liquidRemaining)

def exactStake (market : Address) (callId : Nat) (position : Nat)
    (amount liquidRemaining : Int) : Pool P (AllocationOutcome × Int) := do
  if (← tryStakeOnCall market callId amount position) = true then do
    let locked ← orTooLarge ((← getStore).totalAllocatedLocked + amount)
    modifyStore (·.setTotalAllocatedLocked locked)
    modifyStore (·.setAllocation (newAllocation (← env) market callId position amount))
    modifyStore (·.addOpenCallId callId)
    publish (.capitalAllocated callId market position amount)
    pure (.allocated amount position, liquidRemaining - amount)
  else pure (.skippedStakeRejected, liquidRemaining)

def exactConsider (config : PoolConfig) (tvl : Int) (market : Address) (call : Call)
    (input : MarketAllocationInput) (liquidRemaining : Int) :
    Pool P (AllocationOutcome × Int) := do
  match skipReason config (← env).timestamp call with
  | some reason => pure (reason, liquidRemaining)
  | none => do
      let marketBps ← exactImpliedBps call
      let oracleBps := input.oracleProbabilityBps
      let edgeBps := ((oracleBps : Int) - marketBps).natAbs
      if edgeBps < config.edgeThresholdBps then pure (.skippedEdgeTooSmall, liquidRemaining)
      else do
        let position := if marketBps < oracleBps then 1 else 2
        let amount ← exactAmount config tvl liquidRemaining edgeBps
        if amount ≤ 0 then pure (.skippedInsufficientLiquidity, liquidRemaining)
        else exactStake market input.callId position amount liquidRemaining

def exactAllocateTo (config : PoolConfig) (tvl : Int) (input : MarketAllocationInput)
    (liquidRemaining : Int) : Pool P (AllocationOutcome × Int) := do
  if maxBps < input.oracleProbabilityBps then
    pure (.skippedInvalidOracleProbability, liquidRemaining)
  else if ((← getStore).allocation input.callId).any (fun a => !a.settled) = true then
    pure (.skippedAlreadyOpen, liquidRemaining)
  else do
    let market ← resolveMarketAddress config input.callId
    match ← tryGetCall market input.callId with
    | none => pure (.skippedMarketUnavailable, liquidRemaining)
    | some call => exactConsider config tvl market call input liquidRemaining

def exactAllocateEach (config : PoolConfig) (tvl : Int) :
    List MarketAllocationInput → Int → Pool P (List AllocationOutcome)
  | [], _ => pure []
  | input :: rest, liquidRemaining => do
      let considered ← exactAllocateTo config tvl input liquidRemaining
      let results ← exactAllocateEach config tvl rest considered.2
      pure (considered.1 :: results)

/-- The allocation of capital over the integers: no result is too small, and divisors are taken as
they are. -/
def exactAllocateCapital (markets : List MarketAllocationInput) :
    Pool P (List AllocationOutcome) := do
  let config ← getConfig
  rejectIf (markets = []) (.error .emptyInput)
  let liquid ← poolBalance config.stakeToken
  let tvl ← orTooLarge (liquid + (← getStore).totalAllocatedLocked)
  rejectIf (tvl < config.minAllocationPoolSize) (.error .poolTooSmall)
  let liquidRemaining ← poolBalance config.stakeToken
  exactAllocateEach config tvl markets liquidRemaining

end Exact

section Loop

variable {P : Type} [Markets P] {env : Env} {config : PoolConfig} {tvl liquid liquid' : Int}
  {f f' : Frame Storage P Event} {stakes : List Allocation}

/-- What is staked is taken off the liquid balance and added to the locked capital, and the stakes
are opened in their order. -/
theorem Stakes.totals (h : Stakes env config tvl f liquid stakes f' liquid') :
    liquid' = liquid - (stakes.map Allocation.amount).sum ∧
      f'.store.totalAllocatedLocked =
        f.store.totalAllocatedLocked + (stakes.map Allocation.amount).sum ∧
      f'.store.openCallIds = f.store.openCallIds ++ stakes.map Allocation.callId := by
  induction h with
  | done => simp
  | @stake f liquid market callId position amount _ _ stakes _ _ _ _ _ _ _ _ _ _ _ ih =>
    obtain ⟨hliquid, hlocked, hopen⟩ := ih
    rw [List.map_cons, List.map_cons, List.sum_cons]
    refine ⟨?_, ?_, ?_⟩
    · show _ = liquid - (amount + _)
      omega
    · rw [hlocked]
      show f.store.totalAllocatedLocked + amount + _ = _ + (amount + _)
      omega
    · rw [hopen]
      show f.store.openCallIds ++ [callId] ++ _ = _
      rw [List.append_assoc]
      rfl

/-- Every stake is positive and within the cap, and all of them are within the liquid balance. -/
theorem Stakes.within (h : Stakes env config tvl f liquid stakes f' liquid')
    (hliquid : 0 ≤ liquid) :
    (∀ a ∈ stakes, a.settled = false ∧ 0 < a.amount ∧ a.amount ≤ capOf config tvl) ∧
      0 ≤ liquid' ∧ liquid' ≤ liquid := by
  induction h with
  | done => simpa using hliquid
  | stake _ _ _ _ hamount hcap hle _ _ ih =>
    obtain ⟨hrest, hnonneg, hremaining⟩ := ih (by omega)
    exact ⟨List.forall_mem_cons.mpr ⟨⟨rfl, hamount, hcap⟩, hrest⟩, hnonneg, by omega⟩

theorem Stakes.kept (h : Stakes env config tvl f liquid stakes f' liquid') {id : Nat}
    {a : Allocation} (ha : f.store.allocation id = some a) (hopen : a.settled = false) :
    f'.store.allocation id = some a := by
  induction h with
  | done => exact ha
  | @stake f _ _ callId _ _ _ _ _ _ _ hfree _ _ _ _ _ _ _ _ ih =>
    refine ih ?_
    have hother : id ≠ callId := by
      rintro rfl
      rw [hfree a ha] at hopen
      cases hopen
    exact (Function.update_of_ne hother ..).trans ha

theorem Stakes.recorded (h : Stakes env config tvl f liquid stakes f' liquid') :
    ∀ a ∈ stakes, f'.store.allocation a.callId = some a := by
  induction h with
  | done => simp
  | stake _ _ _ _ _ _ _ _ hrest ih =>
    exact List.forall_mem_cons.mpr ⟨hrest.kept (Function.update_self ..) rfl, ih⟩

/-- The stakes are paid from the balance of the pool's token. -/
theorem Stakes.paid (h : Stakes env config tvl f liquid stakes f' liquid')
    (hlaws : StakeLaws P env.contract) :
    Tokens.balance f'.tokens config.stakeToken env.contract =
      (Tokens.balance f.tokens config.stakeToken env.contract).map
        (· - (stakes.map Allocation.amount).sum) := by
  induction h with
  | done => simp
  | @stake f _ _ _ _ amount call peers stakes _ _ _ hcall htoken _ _ _ _ hstake _ ih =>
    have hpaid := hlaws.paid _ _ _ _ _ _ _ _ rfl hcall hstake
    rw [htoken] at hpaid
    rw [ih]
    show (Tokens.balance peers _ _).map _ = _
    rw [hpaid, Option.map_map, List.map_cons, List.sum_cons]
    congr 1
    funext held
    show held - amount - _ = held - (amount + _)
    omega

theorem Stakes.nonneg (h : Stakes env config tvl f liquid stakes f' liquid')
    (hlaws : StakeLaws P env.contract) (hrecorded : StakesNonneg f.tokens) :
    StakesNonneg f'.tokens := by
  induction h with
  | done => exact hrecorded
  | stake _ _ _ _ hamount _ _ hstake _ ih =>
    exact ih (hlaws.nonneg _ _ _ _ _ _ _ hamount hrecorded hstake)

end Loop

section Exactness

variable {P : Type} {α : Type} {env : Env} {f : Frame Storage P Event} {x : Int}
  {k l : Int → Pool P α}

/-- A checked operation whose result is not too small fails only when it is too large. -/
theorem run_orOverflow_exact (hlow : 0 ≤ x)
    (hrest : x ≤ i128Max → run (k x) env f = run (l x) env f) :
    run (orOverflow (checked x) >>= k) env f = run (orTooLarge x >>= l) env f := by
  have hmin : i128Min ≤ x := by
    have : i128Min ≤ 0 := by decide
    exact this.trans hlow
  by_cases hfits : x ≤ i128Max
  · rw [orOverflow, checked_of_in_range ⟨hmin, hfits⟩, run_unwrap_some, hrest hfits, orTooLarge,
      Contract.bind_assoc, run_rejectIf_of (not_lt.mpr hfits)]
    rfl
  · have hchecked : checked x = none := if_neg fun h => hfits h.2
    rw [orOverflow, hchecked, run_unwrap_none, orTooLarge, Contract.bind_assoc,
      run_rejectIf_error (not_le.mp hfits)]

theorem run_orOverflow_some (k : Int → Pool P α) :
    run (orOverflow (some x) >>= k) env f = run (k x) env f := run_unwrap_some k

theorem run_quotient {a b : Int} (ha : 0 ≤ a) (hb : 0 < b) (hfits : a ≤ i128Max)
    (k : Int → Pool P α) :
    run (orOverflow (checkedDiv a b) >>= k) env f = run (k (a / b)) env f := by
  have hmin : i128Min ≤ 0 := by decide
  rw [checkedDiv_of_nonneg ha hb ⟨hmin.trans ha, hfits⟩, run_orOverflow_some]

theorem market_implied_bps_exact {call : Call}
    (hstakes : ∀ position, 0 ≤ valueAt call.outcomeStakes position) :
    run (marketImpliedBps call) env f = run (exactImpliedBps call) env f := by
  have hfirst := hstakes 1
  have hsecond := hstakes 2
  have hscale : 0 ≤ bpsScale := by decide
  refine run_orOverflow_exact (by omega) fun _ => ?_
  by_cases hnone : valueAt call.outcomeStakes 1 + valueAt call.outcomeStakes 2 ≤ 0
  · rw [if_pos hnone, if_pos hnone]
  · rw [if_neg hnone, if_neg hnone]
    refine run_orOverflow_exact (mul_nonneg hfirst hscale) fun hfits => ?_
    exact run_quotient (mul_nonneg hfirst hscale) (not_le.mp hnone) hfits _

theorem allocation_amount_exact {config : PoolConfig} {tvl liquid : Int} {edgeBps : Nat}
    (htvl : 0 ≤ tvl) :
    run (allocationAmount config tvl liquid edgeBps) env f =
      run (exactAmount config tvl liquid edgeBps) env f := by
  have hraw : 0 ≤ tvl * edgeBps := mul_nonneg htvl (Int.natCast_nonneg _)
  have hcap : 0 ≤ tvl * config.maxAllocationBpsPerMarket := mul_nonneg htvl (Int.natCast_nonneg _)
  refine run_orOverflow_exact hraw fun hfits => ?_
  rw [run_quotient hraw (by decide) hfits]
  refine run_orOverflow_exact hcap fun hfits => ?_
  exact run_quotient hcap (by decide) hfits _

theorem edgeBetween_eq (oracleBps marketBps : Nat) :
    edgeBetween oracleBps marketBps = ((oracleBps : Int) - marketBps).natAbs := by
  unfold edgeBetween
  split <;> omega

variable [Markets P] {config : PoolConfig} {tvl liquid : Int}

theorem stake_on_market_exact {market : Address} {callId position : Nat} {amount : Int}
    (hlocked : 0 ≤ f.store.totalAllocatedLocked) (hamount : 0 < amount) (hle : amount ≤ liquid)
    (hliquid : liquid ≤ i128Max) :
    run (stakeOnMarket market callId position amount liquid) env f =
      run (exactStake market callId position amount liquid) env f := by
  have hmin : i128Min ≤ 0 := by decide
  refine run_bind_congr rfl fun staked f₁ htry => ?_
  have hstore : f₁.store = f.store := by
    simp only [run, tryStakeOnCall] at htry
    split at htry <;> cases htry <;> rfl
  cases staked with
  | false => rfl
  | true =>
    have hrest : checkedSub liquid amount = some (liquid - amount) :=
      checked_of_in_range ⟨by omega, by omega⟩
    rw [if_pos rfl, if_pos rfl, hrest, run_orOverflow_some]
    refine run_bind_congr rfl fun s f₂ hread => ?_
    cases hread
    exact run_orOverflow_exact (by rw [hstore]; omega) fun _ => rfl

theorem consider_call_exact {market : Address} {call : Call} {input : MarketAllocationInput}
    (hlocked : 0 ≤ f.store.totalAllocatedLocked) (htvl : 0 ≤ tvl) (hliquid : liquid ≤ i128Max)
    (hstakes : ∀ position, 0 ≤ valueAt call.outcomeStakes position) :
    run (considerCall config tvl market call input liquid) env f =
      run (exactConsider config tvl market call input liquid) env f := by
  refine run_bind_congr rfl fun environment f₁ hread => ?_
  cases hread
  cases skipReason config env.timestamp call with
  | some reason => rfl
  | none =>
    refine run_bind_congr (market_implied_bps_exact hstakes) fun marketBps f₂ hbps => ?_
    rw [← market_implied_bps_exact hstakes] at hbps
    obtain rfl := market_implied_bps_read_only call _ _ _ _ hbps
    dsimp only
    rw [← edgeBetween_eq]
    split
    · rfl
    · refine run_bind_congr (allocation_amount_exact htvl) fun amount f₃ hamount => ?_
      rw [← allocation_amount_exact htvl] at hamount
      obtain ⟨_, hcap, hle, hdone⟩ :=
        run_allocationAmount_bind (k := pure) ((run_bind).mpr ⟨_, _, hamount, rfl⟩)
      cases hdone
      split
      · rfl
      · exact stake_on_market_exact hlocked (by omega) hle hliquid

theorem allocate_to_exact {input : MarketAllocationInput}
    (hlocked : 0 ≤ f.store.totalAllocatedLocked) (htvl : 0 ≤ tvl) (hliquid : liquid ≤ i128Max)
    (hrecorded : StakesNonneg f.tokens) :
    run (allocateTo config tvl input liquid) env f =
      run (exactAllocateTo config tvl input liquid) env f := by
  unfold allocateTo exactAllocateTo
  split
  · rfl
  · refine run_bind_congr rfl fun s f₁ hread => ?_
    cases hread
    split
    · rfl
    · refine run_bind_congr rfl fun market f₂ hmarket => ?_
      have hsame : f₂ = f := by
        simp only [run, resolveMarketAddress] at hmarket
        split at hmarket <;> cases hmarket
        rfl
      subst hsame
      refine run_bind_congr rfl fun answer f₃ hanswer => ?_
      cases hanswer
      cases hcall : MarketViews.getCall f₂.tokens market input.callId with
      | none => rfl
      | some call => exact consider_call_exact hlocked htvl hliquid (hrecorded _ _ _ hcall)

/-- The loop computes what exact arithmetic does, by induction on the markets. -/
theorem allocate_each_exact {inputs : List MarketAllocationInput}
    (hlaws : StakeLaws P env.contract) (hs : Sound f.store) (htvl : 0 ≤ tvl)
    (hliquid : 0 ≤ liquid ∧ liquid ≤ i128Max) (hrecorded : StakesNonneg f.tokens) :
    run (allocateEach config tvl inputs liquid) env f =
      run (exactAllocateEach config tvl inputs liquid) env f := by
  induction inputs generalizing f liquid with
  | nil => rfl
  | cons input rest ih =>
    have hfirst : run (allocateTo config tvl input liquid) env f =
        run (exactAllocateTo config tvl input liquid) env f :=
      allocate_to_exact hs.locked_nonneg htvl hliquid.2 hrecorded
    refine run_bind_congr hfirst fun considered f₁ hconsidered => ?_
    rw [← hfirst] at hconsidered
    obtain ⟨stakes, hstakes⟩ := run_allocateTo hconsidered
    obtain ⟨-, hnonneg, hremaining⟩ := hstakes.within hliquid.1
    exact run_bind_congr (ih (hstakes.allocates.sound hs) ⟨hnonneg, hremaining.trans hliquid.2⟩
      (hstakes.nonneg hlaws hrecorded)) fun _ _ _ => rfl

/-- The allocation of capital computes what exact arithmetic does. -/
theorem allocate_capital_exact {markets : List MarketAllocationInput}
    (hlaws : StakeLaws P env.contract) (hnonneg : HeldNonneg P) (hs : Sound f.store)
    (hrecorded : StakesNonneg f.tokens) :
    run (allocateCapital markets) env f = run (exactAllocateCapital markets) env f := by
  have hlocked := hs.locked_nonneg
  refine run_bind_congr rfl fun config f₁ hconfig => ?_
  obtain rfl : f₁ = f := ((run_getConfig_bind (k := pure)).mp
    (run_bind.mpr ⟨_, _, hconfig, rfl⟩)).elim fun _ h => by cases h.2; rfl
  refine run_bind_congr rfl fun _ f₂ hreject => ?_
  obtain rfl := ((run_rejectIf _ _ _).mp hreject).2
  rw [computeTvl, Contract.bind_assoc]
  refine run_bind_congr rfl fun held f₃ hheld => ?_
  obtain ⟨liquid, hbalance, hdone⟩ :=
    (run_poolBalance_bind _ pure).mp (run_bind.mpr ⟨_, _, hheld, rfl⟩)
  cases hdone
  have hliquid := hnonneg _ _ _ _ hbalance
  rw [Contract.bind_assoc]
  refine run_bind_congr rfl fun s f₄ hread => ?_
  cases hread
  refine run_orOverflow_exact (by omega) fun hfits => ?_
  refine run_bind_congr rfl fun _ f₅ hreject => ?_
  obtain rfl := ((run_rejectIf _ _ _).mp hreject).2
  refine run_bind_congr rfl fun held' f₆ hheld' => ?_
  obtain ⟨liquid', hbalance', hdone⟩ :=
    (run_poolBalance_bind _ pure).mp (run_bind.mpr ⟨_, _, hheld', rfl⟩)
  cases hdone
  obtain rfl := Option.some.inj (hbalance.symm.trans hbalance')
  exact allocate_each_exact hlaws hs (by omega) ⟨hliquid, by omega⟩ hrecorded

end Exactness

section Run

variable {P : Type} [Markets P] {self : Address} {outside : P → P → Prop}
  {d : Deployment Storage P} {history : List (Happening PoolOp Event)} {env : Env}

theorem run_computeTvl {config : PoolConfig} {f : Frame Storage P Event} {liquid : Int}
    (hliquid : Tokens.balance f.tokens config.stakeToken env.contract = some liquid)
    (hfits : InI128 (liquid + f.store.totalAllocatedLocked)) :
    run (computeTvl config) env f = .ok (liquid + f.store.totalAllocatedLocked, f) := by
  obtain ⟨tvl, f', hrun, hdone⟩ :=
    run_bind.mp ((run_computeTvl_bind config pure).mpr ⟨liquid, hliquid, hfits, rfl⟩)
  cases hdone
  exact hrun

/-- The stakes of an allocation of capital are each within the cap of a market and together within
the liquid balance before it. They are opened in markets without an open allocation, and the value
locked in the pool stays what it was. No arithmetic underflows or divides by zero: the invocation
runs as it does over the integers, where it fails only for what is too large. -/
theorem capital_allocation_limited (hmarkets : MarketLaws P self) (hlaws : StakeLaws P self)
    (hout : ∀ p p', outside p p' → StakesKept self p p') (hnonneg : HeldNonneg P)
    (hrun : (pool self outside).Run history d) (hadmissible : Admissible self d env)
    (hrecorded : StakesNonneg d.peers) (markets : List MarketAllocationInput) :
    run (allocateCapital markets) env d.frame = run (exactAllocateCapital markets) env d.frame ∧
      ∀ results f, run (allocateCapital markets) env d.frame = .ok (results, f) →
        ∃ config liquid tvl stakes remaining, d.store.config = some config ∧
          Tokens.balance d.peers config.stakeToken self = some liquid ∧
          Stakes env config tvl d.frame liquid stakes f remaining ∧
          (∀ a ∈ stakes, f.store.allocation a.callId = some a ∧ a.settled = false ∧
            0 < a.amount ∧ a.amount ≤ capOf config tvl) ∧
          (stakes.map Allocation.amount).sum ≤ liquid ∧
          f.store.openCallIds = d.store.openCallIds ++ stakes.map Allocation.callId ∧
          f.store.openCallIds.Nodup ∧
          (∀ id id' a a', f.store.allocation id = some a → a.settled = false →
            f.store.allocation id' = some a' → a'.settled = false →
            a.marketAddress = a'.marketAddress → id = id') ∧
          run (computeTvl config) env d.frame = .ok (tvl, d.frame) ∧
          run (computeTvl config) env f = .ok (tvl, f) := by
  obtain rfl := hadmissible.contract
  have hs := sound_of_run hrun
  refine ⟨allocate_capital_exact hlaws hnonneg hs hrecorded, fun results f h => ?_⟩
  obtain ⟨config, liquid, stakes, remaining, hconfig, hliquid, hfits, hstakes⟩ :=
    run_allocateCapital h
  have hinvoke : run (PoolOp.allocateCapital markets).perform env d.frame = .ok ((), f) :=
    run_ignore.mpr ⟨results, h⟩
  have hafter := hrun.tail (.invoked hadmissible hinvoke) trivial
  obtain ⟨-, -, hnodup, -, hone, -⟩ := pool_ledger_agrees hmarkets hout hafter
  obtain ⟨hremaining, hlocked, hopen⟩ := hstakes.totals
  obtain ⟨hwithin, hleft, -⟩ := hstakes.within (hnonneg _ _ _ _ hliquid)
  have hpaid : Tokens.balance f.tokens config.stakeToken env.contract =
      some (liquid - (stakes.map Allocation.amount).sum) := by
    rw [hstakes.paid hlaws, hliquid]
    rfl
  have htvl : liquid - (stakes.map Allocation.amount).sum + f.store.totalAllocatedLocked =
      liquid + d.store.totalAllocatedLocked := by
    rw [hlocked]
    show _ + (d.store.totalAllocatedLocked + _) = _
    omega
  refine ⟨config, liquid, _, stakes, remaining, hconfig, hliquid, hstakes, fun a ha => ?_, by omega,
    hopen, hnodup, hone, run_computeTvl hliquid hfits, ?_⟩
  · exact ⟨hstakes.recorded a ha, hwithin a ha⟩
  · have hfits' : InI128 (liquid - (stakes.map Allocation.amount).sum +
        f.store.totalAllocatedLocked) := by rwa [htvl]
    rw [run_computeTvl hpaid hfits', htvl]
    rfl

end Run

theorem market_ne_home (callId : Nat) : PoolLedger.marketOf callId ≠ home := by
  simp only [PoolLedger.marketOf, home, ne_eq, Address.mk.injEq]
  omega

theorem stake_laws : StakeLaws PoolLedger home where
  paid := by
    intro env market id amount position call m m' hself hcall h
    simp only [MarketViews.getCall] at hcall
    simp only [Markets.stakeOnCall] at h
    split at h
    · next hmarket =>
      rw [if_pos hmarket] at hcall
      rw [PoolLedger.stake, hcall] at h
      simp only [Option.bind_some] at h
      split at h
      · obtain ⟨ledger, htransfer, rfl⟩ := Option.map_eq_some_iff.mp h
        have hexact := StandardLedger.exact_transfers htransfer call.stakeToken home
        rw [if_pos rfl, transferDelta, if_neg (market_ne_home id).symm, if_pos rfl,
          zero_sub] at hexact
        exact hexact
      · cases h
    · cases h
  nonneg := by
    intro env market id amount position m m' hamount hrecorded h
    simp only [Markets.stakeOnCall] at h
    split at h
    · next hmarket =>
      obtain ⟨call, hcall, h⟩ := Option.bind_eq_some_iff.mp h
      split at h
      · obtain ⟨ledger, -, rfl⟩ := Option.map_eq_some_iff.mp h
        intro other id' call' hcall' pos
        simp only [MarketViews.getCall] at hcall'
        split at hcall'
        · next hother =>
          have hold : MarketViews.getCall m other id' = m.calls id' := if_pos hother
          by_cases hid : id' = id
          · subst hid
            have hpos := hrecorded other id' call (hold.trans hcall)
            obtain rfl := Option.some.inj
              ((Function.update_self id' _ m.calls).symm.trans hcall')
            show 0 ≤ valueAt (call.outcomeStakes.insert position _) pos
            rw [valueAt_insert]
            split
            · have := hpos position
              omega
            · exact hpos pos
          · exact hrecorded other id' call' (hold.trans
              ((Function.update_of_ne hid _ m.calls).symm.trans hcall')) pos
        · cases hcall'
      · cases h
    · cases h

/-- Alice has deposited a thousand, and nothing is staked yet. -/
def fundedRun : System.Replayed surrounded Turn.next System.anything :=
  .of freshDeployment fresh_deployment_initial (stakedScript.take 3) (by decide +kernel)

theorem funded_run : surrounded.Run fundedRun.history fundedRun.state :=
  fundedRun.run Turn.next_step System.anything_allowed

theorem funded_stakes_nonneg : StakesNonneg fundedRun.state.peers := by
  have hcalls : fundedRun.state.peers.calls = samplePeers.calls := rfl
  intro market id call hcall position
  simp only [MarketViews.getCall, hcalls, samplePeers] at hcall
  split at hcall
  · split at hcall
    · cases hcall
      show 0 ≤ valueAt (((∅ : Map Nat Int).insert 1 0).insert 2 400) position
      rw [valueAt_insert, valueAt_insert, valueAt_empty]
      split_ifs <;> decide
    · cases hcall
  · cases hcall

/-- Anyone has the pool consider call 1, twice. -/
def stakingEnv : Env := ⟨home, 4, 4, []⟩

def stakingMarkets : List MarketAllocationInput := [⟨1, 10000⟩, ⟨1, 10000⟩]

/-- What comes of the considered markets. -/
def stakingResults : Option (List AllocationOutcome) :=
  match run (allocateCapital stakingMarkets) stakingEnv fundedRun.state.frame with
  | .ok (results, _) => some results
  | .error _ => none

/-- The pool stakes all it has on call 1, once. -/
theorem capital_staked_once : stakingResults = some [.allocated 1000 1, .skippedAlreadyOpen] ∧
      ∃ results f config tvl, ∃ stakes : List Allocation,
        run (allocateCapital stakingMarkets) stakingEnv fundedRun.state.frame =
          .ok (results, f) ∧
        (stakes.map Allocation.amount).sum ≤ 1000 ∧
        (∀ a ∈ stakes, a.amount ≤ capOf config tvl) ∧
        f.store.openCallIds = stakes.map Allocation.callId ∧
        run (computeTvl config) stakingEnv f = .ok (tvl, f) := by
  have hresults : stakingResults = some [.allocated 1000 1, .skippedAlreadyOpen] := by
    decide +kernel
  have hadmissible : Admissible home fundedRun.state stakingEnv := by decide +kernel
  have hconfigured : fundedRun.state.store.config = some sampleConfig := by decide +kernel
  have hbalance : Tokens.balance fundedRun.state.peers usdc home = some 1000 := by decide +kernel
  have hnone : fundedRun.state.store.openCallIds = [] := by decide +kernel
  refine ⟨hresults, ?_⟩
  unfold stakingResults at hresults
  split at hresults
  · next results f hallocate =>
    obtain ⟨-, hlimited⟩ := capital_allocation_limited (PoolLedger.market_laws home) stake_laws
      (fun _ _ h => h.1) held_nonneg funded_run hadmissible funded_stakes_nonneg stakingMarkets
    obtain ⟨config, liquid, tvl, stakes, _, hconfig, hliquid, -, heach, hsum, hopen, -, -, -,
      htvl⟩ := hlimited results f hallocate
    obtain rfl := Option.some.inj (hconfigured.symm.trans hconfig)
    obtain rfl := Option.some.inj (hbalance.symm.trans hliquid)
    refine ⟨results, f, sampleConfig, tvl, stakes, hallocate, hsum,
      fun a ha => (heach a ha).2.2.2, ?_, htvl⟩
    rw [hopen, hnone, List.nil_append]
  · cases hresults

end Backit.LendingPool
