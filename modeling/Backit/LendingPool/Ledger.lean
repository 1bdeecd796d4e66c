import Backit.LendingPool.Transitions

/-!
# The ledger of the pool

The shares of all holders add up to the total, and the locked capital is the principal of the
allocations that are not settled. Those are the open ones, at most one in a market, and what the
market records as the pool's stake is the principal.
-/

namespace Backit.LendingPool

open Soroban Contract Lib PredictionMarketFactory
open PredictionMarket (Call)

/-- The principal of the allocation to a call. -/
def Storage.principal (s : Storage) (callId : Nat) : Int :=
  ((s.allocation callId).map Allocation.amount).getD 0

/-- What holds of the pool's storage whatever is invoked. -/
structure Sound (s : Storage) : Prop where
  fee : ∀ config, s.config = some config → config.protocolFeeBps ≤ maxBps
  shares : total s.lpShares = s.totalLpShares
  shares_nonneg : ∀ user, 0 ≤ valueAt s.lpShares user
  locked : s.totalAllocatedLocked = (s.openCallIds.map s.principal).sum
  nodup : s.openCallIds.Nodup
  mem_open : ∀ id, id ∈ s.openCallIds ↔ ∃ a, s.allocation id = some a ∧ a.settled = false
  allocated : ∀ id a, s.allocation id = some a → a.callId = id ∧ 0 < a.amount

section Sound

variable {s : Storage} {id : Nat} {a : Allocation}

theorem sound_empty : Sound Storage.empty := by
  constructor <;> simp [Storage.empty]

theorem Sound.setConfig (h : Sound s) {config : PoolConfig} (hfee : config.protocolFeeBps ≤ maxBps) :
    Sound (s.setConfig config) := by
  refine ⟨?_, h.shares, h.shares_nonneg, h.locked, h.nodup, h.mem_open, h.allocated⟩
  intro config' hconfig
  obtain rfl := Option.some.inj hconfig
  exact hfee

theorem Sound.deposited (h : Sound s) (user : Address) (amount : Int) {lpShares : Int}
    (hshares : 0 < lpShares) : Sound (s.deposited user amount lpShares) := by
  refine ⟨h.fee, ?_, fun other => ?_, h.locked, h.nodup, h.mem_open, h.allocated⟩
  · show total (s.lpShares.insert user _) = s.totalLpShares + lpShares
    rw [total_insert, h.shares]
    omega
  · show 0 ≤ valueAt (s.lpShares.insert user _) other
    have := h.shares_nonneg user
    rw [valueAt_insert]
    split
    · omega
    · exact h.shares_nonneg other

theorem Sound.withdrawn (h : Sound s) {user : Address} {lpAmount : Int}
    (hheld : lpAmount ≤ valueAt s.lpShares user) : Sound (s.withdrawn user lpAmount) := by
  refine ⟨h.fee, ?_, fun other => ?_, h.locked, h.nodup, h.mem_open, h.allocated⟩
  · show total (s.lpShares.insert user _) = s.totalLpShares - lpAmount
    rw [total_insert, h.shares]
    omega
  · show 0 ≤ valueAt (s.lpShares.insert user _) other
    rw [valueAt_insert]
    split
    · omega
    · exact h.shares_nonneg other

theorem Sound.staked (h : Sound s) (hfree : ∀ old, s.allocation a.callId = some old →
    old.settled = true) (hopen : a.settled = false) (hamount : 0 < a.amount) :
    Sound (s.staked a) := by
  have hnew : a.callId ∉ s.openCallIds := by
    intro hmem
    obtain ⟨old, hold, hunsettled⟩ := (h.mem_open _).mp hmem
    rw [hfree old hold] at hunsettled
    cases hunsettled
  have hself : (s.staked a).allocation a.callId = some a := Function.update_self ..
  have hothers : ∀ n, n ≠ a.callId → (s.staked a).allocation n = s.allocation n :=
    fun n hn => Function.update_of_ne hn ..
  refine ⟨h.fee, h.shares, h.shares_nonneg, ?_, ?_, fun id => ?_, fun id old hold => ?_⟩
  · have hprincipal : (s.staked a).principal a.callId = a.amount := by
      rw [Storage.principal, hself]
      rfl
    have hold : (s.openCallIds.map (s.staked a).principal).sum =
        (s.openCallIds.map s.principal).sum := by
      refine sum_map_congr fun id hid => ?_
      unfold Storage.principal
      rw [hothers id (by rintro rfl; exact hnew hid)]
    show s.totalAllocatedLocked + a.amount = ((s.openCallIds ++ [a.callId]).map _).sum
    rw [List.map_append, List.sum_append, hold, h.locked, List.map_singleton, List.sum_singleton,
      hprincipal]
  · show (s.openCallIds ++ [a.callId]).Nodup
    refine List.Nodup.append h.nodup (List.nodup_singleton _) ?_
    simpa using hnew
  · show id ∈ s.openCallIds ++ [a.callId] ↔ _
    rw [List.mem_append, List.mem_singleton]
    by_cases hid : id = a.callId
    · subst hid
      simp [hself, hopen]
    · rw [hothers id hid, ← h.mem_open]
      simp [hid]
  · by_cases hid : id = a.callId
    · subst hid
      obtain rfl := Option.some.inj (hself.symm.trans hold)
      exact ⟨rfl, hamount⟩
    · rw [hothers id hid] at hold
      exact h.allocated id old hold

theorem Sound.released (h : Sound s) (ha : s.allocation id = some a) (hopen : a.settled = false)
    {settled : Allocation} (hcallId : settled.callId = a.callId) (hamount : settled.amount = a.amount)
    (hsettled : settled.settled = true) : Sound (s.released id a settled) := by
  obtain ⟨hid, hpositive⟩ := h.allocated id a ha
  subst hid
  have hself : (s.released a.callId a settled).allocation a.callId = some settled := by
    rw [← hcallId]
    exact Function.update_self ..
  have hothers : ∀ n, n ≠ a.callId →
      (s.released a.callId a settled).allocation n = s.allocation n := by
    intro n hn
    exact Function.update_of_ne (by rwa [hcallId]) ..
  have hmem : a.callId ∈ s.openCallIds := (h.mem_open _).mpr ⟨a, ha, hopen⟩
  have hlist : (s.released a.callId a settled).openCallIds = s.openCallIds.erase a.callId := by
    rw [h.nodup.erase_eq_filter]
    exact List.filter_congr fun n _ => Bool.eq_iff_iff.mpr (by simp)
  refine ⟨h.fee, h.shares, h.shares_nonneg, ?_, ?_, fun n => ?_, fun n old hold => ?_⟩
  · have hprincipal : s.principal a.callId = a.amount := by
      rw [Storage.principal, ha]
      rfl
    have hrest : ((s.openCallIds.erase a.callId).map (s.released a.callId a settled).principal).sum =
        ((s.openCallIds.erase a.callId).map s.principal).sum := by
      refine sum_map_congr fun n hn => ?_
      unfold Storage.principal
      rw [hothers n (h.nodup.mem_erase_iff.mp hn).1]
    have hsum := List.sum_map_erase s.principal hmem
    rw [hlist, hrest]
    show s.totalAllocatedLocked - a.amount = _
    rw [h.locked]
    omega
  · rw [hlist]
    exact h.nodup.erase _
  · rw [hlist, h.nodup.mem_erase_iff, h.mem_open]
    by_cases hn : n = a.callId
    · subst hn
      simp [hself, hsettled]
    · rw [hothers n hn]
      simp [hn]
  · by_cases hn : n = a.callId
    · subst hn
      obtain rfl := Option.some.inj (hself.symm.trans hold)
      exact ⟨hcallId, by omega⟩
    · rw [hothers n hn] at hold
      exact h.allocated n old hold

theorem feePaid_eq (s : Storage) (fee : Int) : ∃ fees, s.feePaid fee = s.setTotalFeesPaid fees := by
  unfold Storage.feePaid
  split
  · exact ⟨_, rfl⟩
  · exact ⟨s.totalFeesPaid, rfl⟩

theorem Sound.yielded (h : Sound s) (fee : Int) (now : Nat) (netYield : Int) :
    Sound ((s.feePaid fee).yielded now netYield) := by
  obtain ⟨fees, hfees⟩ := feePaid_eq s fee
  rw [hfees]
  exact ⟨h.fee, h.shares, h.shares_nonneg, h.locked, h.nodup, h.mem_open, h.allocated⟩

end Sound

/-- What the markets record of the pool's stakes. -/
structure Staked {P : Type} [Markets P] (pool : Address) (s : Storage) (p : P) : Prop where
  answered : ∀ id a, s.allocation id = some a → a.settled = false →
    ∃ call, MarketViews.getCall p a.marketAddress id = some call
  mine : ∀ id a call, s.allocation id = some a → a.settled = false →
    MarketViews.getCall p a.marketAddress id = some call →
    ∀ position, stakeOn call position pool = if position = a.position then a.amount else 0
  unstaked : ∀ market id call, MarketViews.getCall p market id = some call → call.outcome = 0 →
    (∀ a, s.allocation id = some a → a.settled = false → a.marketAddress ≠ market) →
    ∀ position, stakeOn call position pool = 0

section Staked

variable {P : Type} [Markets P] {self : Address} {s s' : Storage} {p p' : P} {id : Nat}
  {a : Allocation} {call : Call}

theorem Staked.congr (h : Staked self s p) (hsame : s'.allocation = s.allocation) :
    Staked self s' p := by
  refine ⟨?_, ?_, ?_⟩
  · rw [hsame]
    exact h.answered
  · rw [hsame]
    exact h.mine
  · rw [hsame]
    exact h.unstaked

/-- What leaves the pool's stakes alone keeps the records right. -/
theorem Staked.kept (h : Staked self s p) (hkept : StakesKept self p p') : Staked self s p' := by
  constructor
  · intro id a ha hopen
    obtain ⟨call, hcall⟩ := h.answered id a ha hopen
    obtain ⟨call', hcall', -⟩ := hkept.kept _ _ _ hcall
    exact ⟨call', hcall'⟩
  · intro id a call' ha hopen hcall' position
    obtain ⟨call, hcall⟩ := h.answered id a ha hopen
    obtain ⟨_, hsame, -, hstakes⟩ := hkept.kept _ _ _ hcall
    obtain rfl := Option.some.inj (hsame.symm.trans hcall')
    rw [hstakes, h.mine id a call ha hopen hcall, add_zero]
  · intro market id call' hcall' houtcome hnone position
    cases hcall : MarketViews.getCall p market id with
    | none => exact hkept.new market id call' hcall hcall' position
    | some call =>
      obtain ⟨_, hsame, hresolved, hstakes⟩ := hkept.kept _ _ _ hcall
      obtain rfl := Option.some.inj (hsame.symm.trans hcall')
      have hunresolved : call.outcome = 0 := by
        by_contra hne
        exact hresolved hne houtcome
      rw [hstakes, h.unstaked market id call hcall hunresolved hnone, add_zero]

/-- A stake of the pool is recorded as its new allocation. -/
theorem Staked.staked (h : Staked self s p)
    (hfree : ∀ old, s.allocation a.callId = some old → old.settled = true)
    (hunsettled : a.settled = false)
    (hcall : MarketViews.getCall p a.marketAddress a.callId = some call) (hopen : call.outcome = 0)
    (hadded : MarketsChange self (stakeAdded a.marketAddress a.callId a.position a.amount) p p') :
    Staked self (s.staked a) p' := by
  have hself : (s.staked a).allocation a.callId = some a := Function.update_self ..
  have hothers : ∀ n, n ≠ a.callId → (s.staked a).allocation n = s.allocation n :=
    fun n hn => Function.update_of_ne hn ..
  have hnone : ∀ market old, s.allocation a.callId = some old → old.settled = false →
      old.marketAddress ≠ market := by
    intro market old hold hunsettled
    rw [hfree old hold] at hunsettled
    cases hunsettled
  constructor
  · intro id b hb hunsettled
    by_cases hid : id = a.callId
    · subst hid
      obtain rfl := Option.some.inj (hself.symm.trans hb)
      obtain ⟨call', hcall', -⟩ := hadded.kept _ _ _ hcall
      exact ⟨call', hcall'⟩
    · rw [hothers id hid] at hb
      obtain ⟨call, hcall⟩ := h.answered id b hb hunsettled
      obtain ⟨call', hcall', -⟩ := hadded.kept _ _ _ hcall
      exact ⟨call', hcall'⟩
  · intro id b call' hb hunsettled hcall' position
    by_cases hid : id = a.callId
    · subst hid
      obtain rfl := Option.some.inj (hself.symm.trans hb)
      obtain ⟨_, hsame, -, hstakes⟩ := hadded.kept _ _ _ hcall
      obtain rfl := Option.some.inj (hsame.symm.trans hcall')
      rw [hstakes, h.unstaked _ _ call hcall hopen (hnone _), stakeAdded]
      simp
    · rw [hothers id hid] at hb
      obtain ⟨call, hcall⟩ := h.answered id b hb hunsettled
      obtain ⟨_, hsame, -, hstakes⟩ := hadded.kept _ _ _ hcall
      obtain rfl := Option.some.inj (hsame.symm.trans hcall')
      have helsewhere : ¬ (b.marketAddress = a.marketAddress ∧ id = a.callId ∧
          position = a.position) := fun hsame => hid hsame.2.1
      rw [hstakes, h.mine id b call hb hunsettled hcall, stakeAdded, if_neg helsewhere, add_zero]
  · intro market id call' hcall' houtcome hfreed position
    have helsewhere : ¬ (market = a.marketAddress ∧ id = a.callId ∧ position = a.position) := by
      rintro ⟨rfl, rfl, -⟩
      exact hfreed a hself hunsettled rfl
    have hfreed' : ∀ old, s.allocation id = some old → old.settled = false →
        old.marketAddress ≠ market := by
      by_cases hid : id = a.callId
      · subst hid
        exact hnone market
      · rwa [hothers id hid] at hfreed
    cases hbefore : MarketViews.getCall p market id with
    | none => exact hadded.new market id call' hbefore hcall' position
    | some before =>
      obtain ⟨_, hsame, hresolved, hstakes⟩ := hadded.kept _ _ _ hbefore
      obtain rfl := Option.some.inj (hsame.symm.trans hcall')
      have hunresolved : before.outcome = 0 := by
        by_contra hne
        exact hresolved hne houtcome
      rw [hstakes, h.unstaked market id before hbefore hunresolved hfreed', stakeAdded,
        if_neg helsewhere, add_zero]

/-- Settling an allocation whose call has an outcome leaves the records right. -/
theorem Staked.released (h : Staked self s p) (ha : s.allocation id = some a)
    (hopen : a.settled = false) (hcall : MarketViews.getCall p a.marketAddress id = some call)
    (hresolved : call.outcome ≠ 0) {settled : Allocation} (hid : settled.callId = id)
    (hsettled : settled.settled = true) : Staked self (s.released id a settled) p := by
  have hself : (s.released id a settled).allocation id = some settled := by
    rw [← hid]
    exact Function.update_self ..
  have hothers : ∀ n, n ≠ id → (s.released id a settled).allocation n = s.allocation n :=
    fun n hn => Function.update_of_ne (by rwa [hid]) ..
  have hother : ∀ n b, (s.released id a settled).allocation n = some b → b.settled = false →
      s.allocation n = some b := by
    intro n b hb hunsettled
    by_cases hn : n = id
    · subst hn
      obtain rfl := Option.some.inj (hself.symm.trans hb)
      rw [hsettled] at hunsettled
      cases hunsettled
    · rwa [hothers n hn] at hb
  refine ⟨fun n b hb hunsettled => h.answered n b (hother n b hb hunsettled) hunsettled,
    fun n b other hb hunsettled => h.mine n b other (hother n b hb hunsettled) hunsettled, ?_⟩
  intro market n other hother' houtcome hfreed
  refine h.unstaked market n other hother' houtcome fun b hb hunsettled => ?_
  by_cases hn : n = id
  · -- The call of the allocation that is settled has an outcome.
    subst hn
    obtain rfl := Option.some.inj (hb.symm.trans ha)
    rintro rfl
    obtain rfl := Option.some.inj (hcall.symm.trans hother')
    exact hresolved houtcome
  · exact hfreed b (by rwa [hothers n hn]) hunsettled

end Staked

/-- Publishes a stake on a call. -/
def Effect.allocates (callId : Nat) : Effect Event → Bool
  | .event (.capitalAllocated id ..) => id = callId
  | _ => false

/-- Publishes a harvest of a call. -/
def Effect.harvests (callId : Nat) : Effect Event → Bool
  | .event (.yieldHarvested id ..) => id = callId
  | _ => false

/-- One while an allocation to the call is open. -/
def Storage.openCount (s : Storage) (callId : Nat) : Nat := if callId ∈ s.openCallIds then 1 else 0

section Steps

variable {P : Type} [Markets P] {env : Env} {op : PoolOp} {f f' : Frame Storage P Event}

theorem Allocates.sound (h : Allocates env f f') (hs : Sound f.store) : Sound f'.store := by
  induction h with
  | refl => exact hs
  | stake _ hfree _ _ hamount _ ih => exact ih.staked hfree rfl hamount

theorem Harvests.sound {callId : Nat} {netYield : Int} (h : Harvests env callId f netYield f')
    (hs : Sound f.store) : Sound f'.store := by
  obtain ⟨-, ha, hopen, -, -, -, -, -⟩ := h
  rename_i config a call gain peers paid peers'
  have hsettled : Sound (f.store.released callId a (a.settledWith call gain)) :=
    hs.released ha hopen rfl rfl rfl
  exact hsettled.yielded _ _ _

theorem Transition.sound (h : Transition env f op f') (hs : Sound f.store) : Sound f'.store := by
  cases h with
  | configured _ _ hfee => exact hs.setConfig hfee
  | reconfigured _ _ _ hfee => exact hs.setConfig hfee
  | deposited h =>
    obtain ⟨-, -, -, -, -, hshares, -⟩ := h
    exact hs.deposited _ _ hshares
  | withdrawn h =>
    obtain ⟨-, -, -, hheld, -, -, -, -, -⟩ := h
    exact hs.withdrawn hheld
  | allocated h => exact h.sound hs
  | harvested h => exact h.sound hs

theorem PaysFee.staked {config : PoolConfig} {fee : Int} {p p' : P} {paid : List (Effect Event)}
    (h : PaysFee env config fee p paid p') (hlaws : MarketLaws P env.contract) {s : Storage}
    (hstaked : Staked env.contract s p) : Staked env.contract s p' := by
  cases h with
  | paid _ htransfer => exact hstaked.kept (hlaws.transfer _ _ _ _ _ _ _ htransfer)
  | free => exact hstaked

/-- A harvest settles an allocation whose call has an outcome. -/
theorem Harvests.staked {callId : Nat} {netYield : Int} (h : Harvests env callId f netYield f')
    (hlaws : MarketLaws P env.contract) (hs : Sound f.store)
    (hstaked : Staked env.contract f.store f.tokens) :
    Staked env.contract f'.store f'.tokens := by
  obtain ⟨-, ha, hopen, hcall, hresolved, hgains, -, hpaid⟩ := h
  rename_i config a call gain peers paid peers'
  obtain ⟨hid, -⟩ := hs.allocated callId a ha
  have hreleased : Staked env.contract (f.store.released callId a (a.settledWith call gain))
      f.tokens := hstaked.released ha hopen hcall hresolved hid rfl
  have hclaimed : Staked env.contract (f.store.released callId a (a.settledWith call gain))
      peers := by
    cases hgains with
    | won _ _ hclaim => exact hreleased.kept (hlaws.claim _ _ _ _ _ _ _ _ _ hclaim)
    | lost => exact hreleased
  obtain ⟨fees, hfees⟩ := feePaid_eq (f.store.released callId a (a.settledWith call gain))
    (protocolFee config (gain - a.amount))
  exact (hpaid.staked hlaws hclaimed).congr (by rw [hfees]; rfl)

/-- A transition keeps the records of the markets right. -/
theorem Transition.staked (h : Transition env f op f') (hlaws : MarketLaws P env.contract)
    (hs : Sound f.store) (hstaked : Staked env.contract f.store f.tokens) :
    Staked env.contract f'.store f'.tokens := by
  cases h with
  | configured => exact hstaked.congr rfl
  | reconfigured => exact hstaked.congr rfl
  | deposited h =>
    obtain ⟨-, -, -, -, -, -, htransfer⟩ := h
    exact (hstaked.kept (hlaws.transfer _ _ _ _ _ _ _ htransfer)).congr rfl
  | withdrawn h =>
    obtain ⟨-, -, -, -, -, -, -, -, htransfer⟩ := h
    exact (hstaked.kept (hlaws.transfer _ _ _ _ _ _ _ htransfer)).congr rfl
  | allocated h =>
    induction h with
    | refl => exact hstaked
    | stake _ hfree hcall hopen _ hstake ih =>
      exact ih.staked hfree rfl hcall hopen (hlaws.stake _ _ _ _ _ _ _ hstake)
  | harvested h => exact h.staked hlaws hs hstaked

/-- The stakes of the loop open as many allocations as they publish. -/
theorem Allocates.turnover (h : Allocates env f f') (hs : Sound f.store) (id : Nat) :
    f'.effects.countP (Effect.allocates id) + f.store.openCount id =
        f.effects.countP (Effect.allocates id) + f'.store.openCount id ∧
      f'.effects.countP (Effect.harvests id) = f.effects.countP (Effect.harvests id) := by
  induction h with
  | refl => exact ⟨rfl, rfl⟩
  | @stake current market callId position amount call peers hallocates hfree _ _ _ _ ih =>
    obtain ⟨hallocated, hharvested⟩ := ih
    refine ⟨?_, ?_⟩
    · have hnew : callId ∉ current.store.openCallIds := by
        intro hmem
        obtain ⟨old, hold, hunsettled⟩ := ((hallocates.sound hs).mem_open _).mp hmem
        rw [hfree old hold] at hunsettled
        cases hunsettled
      have hopened : (current.store.staked
          (newAllocation env market callId position amount)).openCount id =
            current.store.openCount id + if callId = id then 1 else 0 := by
        unfold Storage.openCount
        show (if id ∈ current.store.openCallIds ++ [callId] then 1 else 0) = _
        simp only [List.mem_append, List.mem_singleton]
        by_cases hid : callId = id
        · subst hid
          simp [hnew]
        · simp [Ne.symm hid, hid]
      rw [hopened, List.countP_cons, Effect.allocates]
      simp only [decide_eq_true_eq]
      omega
    · rw [List.countP_cons, hharvested]
      rfl

theorem Harvests.turnover {callId : Nat} {netYield : Int} (h : Harvests env callId f netYield f')
    (hs : Sound f.store) (id : Nat) :
    f'.effects.countP (Effect.allocates id) = f.effects.countP (Effect.allocates id) ∧
      f'.effects.countP (Effect.harvests id) + f'.store.openCount id =
        f.effects.countP (Effect.harvests id) + f.store.openCount id := by
  obtain ⟨-, ha, hopen, -, -, -, -, hpaid⟩ := h
  rename_i config a call gain peers paid peers'
  have hquiet : paid.countP (Effect.allocates id) = 0 ∧ paid.countP (Effect.harvests id) = 0 := by
    cases hpaid with
    | paid => exact ⟨rfl, rfl⟩
    | free => exact ⟨rfl, rfl⟩
  obtain ⟨fees, hfees⟩ := feePaid_eq (f.store.released callId a (a.settledWith call gain))
    (protocolFee config (gain - a.amount))
  constructor
  · show List.countP _ (_ :: (paid ++ f.effects)) = _
    rw [List.countP_cons, List.countP_append, hquiet.1]
    exact Nat.zero_add _
  · have hmem : callId ∈ f.store.openCallIds := (hs.mem_open callId).mpr ⟨a, ha, hopen⟩
    have hclosed : (((f.store.released callId a (a.settledWith call gain)).feePaid
        (protocolFee config (gain - a.amount))).yielded env.timestamp
        (gain - a.amount - protocolFee config (gain - a.amount))).openCount id +
          (if callId = id then 1 else 0) = f.store.openCount id := by
      rw [hfees]
      unfold Storage.openCount
      show (if id ∈ f.store.openCallIds.filter (· ≠ callId) then 1 else 0) + _ = _
      by_cases hsame : callId = id
      · subst hsame
        simp [hmem]
      · simp [Ne.symm hsame, hsame]
    rw [← hclosed]
    show List.countP _ (_ :: (paid ++ f.effects)) + _ = _
    rw [List.countP_cons, List.countP_append, hquiet.2, Effect.harvests]
    simp only [decide_eq_true_eq]
    omega

/-- Of a call, a transition publishes as many stakes as harvests, but for the allocation that it
leaves open. -/
theorem Transition.turnover (h : Transition env f op f') (hs : Sound f.store) (id : Nat) :
    f'.effects.countP (Effect.allocates id) + f.effects.countP (Effect.harvests id) +
        f.store.openCount id =
      f.effects.countP (Effect.allocates id) + f'.effects.countP (Effect.harvests id) +
        f'.store.openCount id := by
  cases h with
  | configured => rfl
  | reconfigured => rfl
  | deposited h =>
    cases h
    rfl
  | withdrawn h =>
    cases h
    rfl
  | allocated h =>
    obtain ⟨hallocated, hharvested⟩ := h.turnover hs id
    omega
  | harvested h =>
    obtain ⟨hallocated, hharvested⟩ := h.turnover hs id
    omega

end Steps

/-- How often the pool has staked on a call. -/
def timesAllocated (callId : Nat) (history : List (Invocation PoolOp Event)) : Nat :=
  (history.map fun i => i.effects.countP (Effect.allocates callId)).sum

/-- How often the pool has harvested a call. -/
def timesHarvested (callId : Nat) (history : List (Invocation PoolOp Event)) : Nat :=
  (history.map fun i => i.effects.countP (Effect.harvests callId)).sum

section Run

variable {P : Type} [Markets P]

/-- Executions of the contract from its deployment on, at an address with no stakes. -/
def pool (self : Address) (outside : P → P → Prop) :
    System (Deployment Storage P) (Happening PoolOp Event) :=
  contractSystem PoolOp.perform self outside fun d =>
    d.store = Storage.empty ∧ ∀ market id call position,
      MarketViews.getCall d.peers market id = some call → stakeOn call position self = 0

variable {self : Address} {outside : P → P → Prop} {d : Deployment Storage P}
  {history : List (Happening PoolOp Event)}
  {guard : System.Guard (Deployment Storage P) (Happening PoolOp Event)}

theorem sound_of_run (run : (pool self outside).RunWhere guard history d) : Sound d.store := by
  refine store_invariant (I := Sound) ?_ ?_ run
  · rintro d ⟨hempty, -⟩
    rw [hempty]
    exact sound_empty
  · intro h d env op f _ hs _ hinvoke _
    exact (PoolOp.transitions hs.fee hinvoke).sound hs

theorem staked_of_run (hlaws : MarketLaws P self)
    (hout : ∀ p p', outside p p' → StakesKept self p p')
    (run : (pool self outside).RunWhere guard history d) : Staked self d.store d.peers := by
  refine contract_invariant (I := fun _ d => Staked self d.store d.peers) ?_ ?_ ?_ run
  · rintro d ⟨hempty, hnone⟩
    rw [hempty]
    refine ⟨?_, ?_, fun market id call hcall _ _ position =>
      hnone market id call position hcall⟩
    · intro id a ha
      cases ha
    · intro id a call ha
      cases ha
  · intro h d env op f hrun hstaked hadmissible hinvoke _
    have hself := hadmissible.contract
    subst hself
    have hs := sound_of_run hrun
    exact (PoolOp.transitions hs.fee hinvoke).staked hlaws hs hstaked
  · intro h d peers _ hstaked houtside
    exact hstaked.kept (hout _ _ houtside)

theorem turnover_of_run (run : (pool self outside).RunWhere guard history d) (id : Nat) :
    timesAllocated id (invocations history) =
      timesHarvested id (invocations history) + d.store.openCount id := by
  refine contract_invariant (I := fun h d => timesAllocated id (invocations h) =
    timesHarvested id (invocations h) + d.store.openCount id) ?_ ?_ ?_ run
  · rintro d ⟨hempty, -⟩
    rw [hempty]
    rfl
  · intro h d env op f hrun htimes _ hinvoke _
    have hs := sound_of_run hrun
    have hcount := (PoolOp.transitions hs.fee hinvoke).turnover hs id
    simp only [timesAllocated, timesHarvested, invocations_invoked, List.map_cons, List.sum_cons,
      Deployment.frame, List.countP_nil] at hcount htimes ⊢
    show _ = _ + f.store.openCount id
    omega
  · intro h d peers _ htimes _
    exact htimes

/-- The shares of all holders add up to the total. The locked capital is the principal of the
allocations that are not settled, which are listed as open, each once and at most one in a market.
Every allocation is harvested at most once. -/
theorem pool_ledger_agrees (hlaws : MarketLaws P self)
    (hout : ∀ p p', outside p p' → StakesKept self p p') (run : (pool self outside).Run history d) :
    total d.store.lpShares = d.store.totalLpShares ∧
      d.store.totalAllocatedLocked = (d.store.openCallIds.map d.store.principal).sum ∧
      d.store.openCallIds.Nodup ∧
      (∀ id, id ∈ d.store.openCallIds ↔ ∃ a, d.store.allocation id = some a ∧ a.settled = false) ∧
      (∀ id id' a a', d.store.allocation id = some a → a.settled = false →
        d.store.allocation id' = some a' → a'.settled = false →
        a.marketAddress = a'.marketAddress → id = id') ∧
      ∀ id, timesHarvested id (invocations history) ≤ timesAllocated id (invocations history) ∧
        timesAllocated id (invocations history) =
          timesHarvested id (invocations history) +
            if id ∈ d.store.openCallIds then 1 else 0 := by
  have hs := sound_of_run run
  have hstaked := staked_of_run hlaws hout run
  have htimes := turnover_of_run run
  refine ⟨hs.shares, hs.locked, hs.nodup, hs.mem_open, ?_, fun id => ⟨?_, htimes id⟩⟩
  · intro id id' a a' ha hopen ha' hopen' hmarket
    obtain ⟨call, hcall⟩ := hstaked.answered id a ha hopen
    obtain ⟨call', hcall'⟩ := hstaked.answered id' a' ha' hopen'
    rw [← hmarket] at hcall'
    exact hlaws.one_call _ _ _ _ _ _ hcall hcall'
  · rw [htimes id]
    exact Nat.le_add_right _ _

end Run

def admin : Address := ⟨10⟩

def treasury : Address := ⟨11⟩

def manager : Address := ⟨303⟩

/-- The contract's address in the scenarios. -/
def home : Address := ⟨800⟩

/-- Claims stay claimed, and an outcome stays what it is. -/
structure Remembers (m m' : PoolLedger) : Prop where
  claimed : m.claimed ⊆ m'.claimed
  outcome : ∀ id call, m.calls id = some call → call.outcome ≠ 0 →
    ∃ call', m'.calls id = some call' ∧ call'.outcome = call.outcome

/-- What happens around the pool: markets keep its stakes. -/
def Around (m m' : PoolLedger) : Prop := StakesKept home m m' ∧ Remembers m m'

/-- A turn of a scenario: an invocation of the pool, a market that gets its outcome, or a claim for
somebody that others make. -/
inductive Turn where
  | invoke (timestamp : Nat) (auths : List Address) (op : PoolOp)
  | resolve (callId outcome : Nat)
  | claim (callId : Nat) (staker : Address) (stake winning losing : Int)

/-- Give a call without an outcome its outcome. -/
def PoolLedger.resolve (m : PoolLedger) (callId outcome : Nat) : Option PoolLedger :=
  (m.calls callId).bind fun call =>
    if call.outcome = 0 then some (m.setCall callId { call with outcome := outcome }) else none

def Turn.next (d : Deployment Storage PoolLedger) :
    Turn → Option (Happening PoolOp Event × Deployment Storage PoolLedger)
  | .invoke timestamp auths op => d.next PoolOp.perform home (⟨home, timestamp, timestamp, auths⟩, op)
  | .resolve callId outcome =>
    (d.peers.resolve callId outcome).map fun m => (.elsewhere, { d with peers := m })
  | .claim callId staker stake winning losing =>
    (d.peers.claim ⟨manager, d.timestamp, d.sequence, []⟩ callId staker stake winning losing).map
      fun m => (.elsewhere, { d with peers := m })

/-- The pool and what happens around it. -/
abbrev surrounded : System (Deployment Storage PoolLedger) (Happening PoolOp Event) :=
  pool home Around

theorem Remembers.of_calls {m m' : PoolLedger} (hcalls : m'.calls = m.calls)
    (hclaimed : m.claimed ⊆ m'.claimed) : Remembers m m' :=
  ⟨hclaimed, fun _ call hcall _ => ⟨call, by rw [hcalls, hcall], rfl⟩⟩

theorem resolve_around {m m' : PoolLedger} {callId outcome : Nat}
    (h : m.resolve callId outcome = some m') : Around m m' := by
  obtain ⟨call, hcall, h⟩ := Option.bind_eq_some_iff.mp h
  split at h
  · next hopen =>
    cases h
    have hcalls : ∀ id, (m.setCall callId { call with outcome := outcome }).calls id =
        if id = callId then some { call with outcome := outcome } else m.calls id := by
      intro id
      by_cases hid : id = callId
      · subst hid
        rw [if_pos rfl]
        exact Function.update_self ..
      · rw [if_neg hid]
        exact Function.update_of_ne hid ..
    refine ⟨⟨fun market id old hold => ?_, fun market id new hnone hnew => ?_⟩,
      List.Subset.refl _, fun id old hold hne => ?_⟩
    · simp only [MarketViews.getCall] at hold ⊢
      split at hold
      · next hmarket =>
        rw [if_pos hmarket, hcalls]
        split
        · next hid =>
          subst hid
          obtain rfl := Option.some.inj (hcall.symm.trans hold)
          exact ⟨_, rfl, fun hne => absurd hopen hne, fun _ => (add_zero _).symm⟩
        · exact ⟨old, hold, fun hne => hne, fun _ => (add_zero _).symm⟩
      · cases hold
    · simp only [MarketViews.getCall] at hnone hnew
      split at hnew
      · next hmarket =>
        rw [if_pos hmarket] at hnone
        rw [hcalls, hnone] at hnew
        split at hnew
        · next hid =>
          rw [hid, hcall] at hnone
          cases hnone
        · cases hnew
      · cases hnew
    · have hid : id ≠ callId := by
        rintro rfl
        obtain rfl := Option.some.inj (hcall.symm.trans hold)
        exact hne hopen
      exact ⟨old, by rw [hcalls, if_neg hid, hold], rfl⟩
  · cases h

theorem Turn.next_step (d : Deployment Storage PoolLedger) (turn : Turn)
    (l : Happening PoolOp Event) (d' : Deployment Storage PoolLedger)
    (h : turn.next d = some (l, d')) : surrounded.step d l d' := by
  cases turn with
  | invoke timestamp auths op =>
    exact Deployment.next_step d (⟨home, timestamp, timestamp, auths⟩, op) l d' h
  | resolve callId outcome =>
    obtain ⟨m, hm, heq⟩ := Option.map_eq_some_iff.mp h
    cases heq
    exact .elsewhere (resolve_around hm)
  | claim callId staker stake winning losing =>
    obtain ⟨m, hm, heq⟩ := Option.map_eq_some_iff.mp h
    cases heq
    obtain ⟨hcalls, hclaimed⟩ := PoolLedger.claim_calls hm
    refine .elsewhere ⟨PoolLedger.stakes_kept_of_calls hcalls, .of_calls hcalls ?_⟩
    rw [hclaimed]
    exact List.subset_cons_self ..

/-- Alice and Bob each hold thirty thousand units of the stake token, and call 1 has 400 units
staked on its second outcome. -/
def samplePeers : PoolLedger where
  ledger := .ofHoldings fun token =>
    if token = usdc then
      ((Holdings.empty.set alice 30000 (by decide)).set bob 30000 (by decide)).set
        (PoolLedger.marketOf 1) 400 (by decide)
    else .empty
  calls callId := if callId = 1 then some (sampleMarketCall 1 0 400) else none
  claimed := []

def freshDeployment : Deployment Storage PoolLedger := ⟨Storage.empty, samplePeers, 0, 0⟩

theorem fresh_deployment_initial : surrounded.initial freshDeployment := by
  refine ⟨rfl, fun market id call position hcall => ?_⟩
  simp only [MarketViews.getCall, freshDeployment, samplePeers] at hcall
  split at hcall
  · split at hcall
    · cases hcall
      rfl
    · cases hcall
  · cases hcall

/-- Alice deposits a thousand, and the pool stakes all of it on outcome 1 of call 1. -/
def stakedScript : List Turn :=
  [.invoke 1 [admin] (.initializePool admin treasury usdc factoryAddress manager 100 100000 100),
    .invoke 2 [admin] (.setMaxAllocBpsPerMarket 10000), .invoke 3 [alice] (.deposit alice 1000),
    .invoke 4 [] (.allocateCapital [⟨1, 10000⟩, ⟨1, 10000⟩])]

/-- Outcome 1 wins, and the pool claims what it has won. -/
def wonScript : List Turn := stakedScript ++ [.resolve 1 1, .invoke 1001 [] (.harvestYield 1)]

def wonRun : System.Replayed surrounded Turn.next System.anything :=
  .of freshDeployment fresh_deployment_initial wonScript (by decide +kernel)

theorem won_run : surrounded.Run wonRun.history wonRun.state :=
  wonRun.run Turn.next_step System.anything_allowed

/-- After the harvest nothing is locked, and call 1 was staked on once and harvested once. -/
theorem pool_ledger_agrees_after_harvest : wonRun.state.store.totalAllocatedLocked = 0 ∧
      timesAllocated 1 (invocations wonRun.history) =
        timesHarvested 1 (invocations wonRun.history) ∧
      timesHarvested 1 (invocations wonRun.history) = 1 := by
  obtain ⟨-, hlocked, -, -, -, htimes⟩ :=
    pool_ledger_agrees (PoolLedger.market_laws home) (fun _ _ h => h.1) won_run
  refine ⟨?_, ?_, by decide +kernel⟩
  · rw [hlocked]
    decide +kernel
  · rw [(htimes 1).2]
    decide +kernel

end Backit.LendingPool
