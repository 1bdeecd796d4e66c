import Backit.PredictionMarket.Entrypoints

/-!
# The transitions of a market

## What the entry points of a market change

`Fills` lists what the matching loop does: it drops stale ids and fills orders, one at a time.
`Transition` lists, for every entry point but the rollover, when it succeeds, its effects and the
storage it leaves.
-/

namespace Backit.PredictionMarket

open Soroban Contract Lib

/-- The entry points that write. -/
inductive MarketOp where
  | construct (callId : Nat) (creator outcomeManager factory : Address)
      (minStake maxStakePerUser : Int) (stakingCutoffSecs : Nat) (args : MarketInitArgs)
  | stakeOnCall (staker : Address) (callId : Nat) (amount : Int) (position : Nat)
  | createLimitOrder (user : Address) (callId outcome : Nat) (amount : Int)
      (targetImpliedProbabilityBps ttlSecs : Nat)
  | cancelLimitOrder (user : Address) (orderId : Nat)
  | refundExpiredOrder (caller : Address) (orderId : Nat)
  | resolveCall (callId outcome : Nat) (endPrice : Int)
  | markSettled (callId : Nat)
  | releaseEscrow (callId : Nat) (recipient : Address) (amount : Int)
  | setParentCall (callId parentCallId : Nat) (rolledAmount : Int)
  | storeRolloverChain (callId : Nat) (chain : List RolloverLink)
  | claimAndRollover (user : Address) (callId : Nat) (rollover : RolloverConfig)
  deriving DecidableEq

/-- Run an entry point. -/
def MarketOp.perform {T : Type} [Peers T] : MarketOp → Market T Unit
  | .construct callId creator outcomeManager factory minStake maxStakePerUser cutoff args =>
    PredictionMarket.construct callId creator outcomeManager factory minStake maxStakePerUser
      cutoff args
  | .stakeOnCall staker callId amount position =>
    ignore (PredictionMarket.stakeOnCall staker callId amount position)
  | .createLimitOrder user callId outcome amount target ttlSecs =>
    ignore (PredictionMarket.createLimitOrder user callId outcome amount target ttlSecs)
  | .cancelLimitOrder user orderId => PredictionMarket.cancelLimitOrder user orderId
  | .refundExpiredOrder caller orderId => PredictionMarket.refundExpiredOrder caller orderId
  | .resolveCall callId outcome endPrice =>
    ignore (PredictionMarket.resolveCall callId outcome endPrice)
  | .markSettled callId => PredictionMarket.markSettled callId
  | .releaseEscrow callId recipient amount => PredictionMarket.releaseEscrow callId recipient amount
  | .setParentCall callId parentCallId rolledAmount =>
    PredictionMarket.setParentCall callId parentCallId rolledAmount
  | .storeRolloverChain callId chain => PredictionMarket.storeRolloverChain callId chain
  | .claimAndRollover user callId rollover =>
    ignore (PredictionMarket.claimAndRollover user callId rollover)

/-- A stake on a position may be made or ordered: the call is running and the position exists. -/
structure Accepts (env : Env) (call : Call) (position : Nat) : Prop where
  running : env.timestamp < call.endTs
  unsettled : call.settled = false
  uncancelled : call.cancelled = false
  unvoided : call.voided = false
  position_mem : 1 ≤ position ∧ position ≤ call.outcomeCount

/-- A stake as recorded in the call and in the pool. -/
structure Staked (call : Call) (pool : Pool) (staker : Address) (amount : Int) (position : Nat)
    (call' : Call) (pool' : Pool) : Prop where
  entered : call' = call.withStake position staker (valueAt call.outcomeStakes position + amount)
    (valueAt (call.stakesOn position) staker + amount)
  userStake : pool'.userStake = Function.update pool.userStake (staker, position)
    (valueAt (call.stakesOn position) staker + amount)
  kept : pool'.call = pool.call

/-- What the matching loop works on: the call, the pool, the book, and the ids that the call's
index lists once the loop has ended. -/
structure Matching where
  call : Call
  pool : Pool
  book : Book
  listed : List Nat

/-- The event of a filled order. -/
def filledEvent (callId : Nat) (order : LimitOrder) (impliedBps : Int) : Effect Event :=
  .event (.limitOrderFilled order.id callId order.user order.outcome order.amount impliedBps)

/-- Fill orders and drop stale ids, one at a time. -/
inductive Fills (now callId : Nat) (m : Matching) : List (Effect Event) → Matching → Prop where
  | done : Fills now callId m [] m
  | dropped {effects call pool book before orderId rest} :
      Fills now callId m effects ⟨call, pool, book, before ++ orderId :: rest⟩ →
      book.limitOrders.lookup orderId = none →
      Fills now callId m effects ⟨call, pool, book, before ++ rest⟩
  | filled {effects call pool book before order rest impliedBps call' pool'} :
      Fills now callId m effects ⟨call, pool, book, before ++ order.id :: rest⟩ →
      book.limitOrders.lookup order.id = some order →
      fillPrice call callId now order = some impliedBps →
      Staked call pool order.user order.amount order.outcome call' pool' →
      Fills now callId m (filledEvent callId order impliedBps :: effects)
        ⟨call', pool', (book.removeLimitOrder order.id).removeIdFromUserOrders order.user order.id,
          before ++ rest⟩

theorem Fills.trans {now callId : Nat} {m m' m'' : Matching} {first later : List (Effect Event)}
    (hfirst : Fills now callId m first m') (hlater : Fills now callId m' later m'') :
    Fills now callId m (later ++ first) m'' := by
  induction hlater with
  | done => exact hfirst
  | dropped _ hstale ih => exact ih.dropped hstale
  | filled _ hstored hprice hstaked ih => exact ih.filled hstored hprice hstaked

/-- The effects of paying an amount out of the market, most recent first. -/
def payOutEffects (env : Env) (stakeToken recipient : Address) (amount : Int) :
    List (Effect Event) :=
  if 0 < amount then [.transfer stakeToken env.contract recipient amount] else []

/-- What the entry points other than the rollover do. -/
inductive Transition (env : Env) : MarketOp → Storage → List (Effect Event) → Storage → Prop where
  | constructed {s callId creator outcomeManager factory minStake maxStakePerUser cutoff args} :
      s.config = none →
      Transition env
        (.construct callId creator outcomeManager factory minStake maxStakePerUser cutoff args) s
        [.event (.created callId creator args.stakeToken args.stakeAmount args.startPrice args.endTs
            args.tokenAddress args.pairId args.metadataHash args.outcomeCount),
          .event (.initialized callId creator args.stakeToken args.endTs)]
        ((s.setConfig ⟨callId, creator, outcomeManager, factory, minStake, maxStakePerUser, cutoff,
          false, 3600, 200, defaultExpiredOrderRefundBps⟩).setCall
            (args.call callId creator env.timestamp))
  | staked {s config call staker callId amount position call₁ pool₁ effects m} :
      staker ∈ env.auths → s.config = some config → config.callId = callId → 0 < amount →
      s.pool.call = some call → Accepts env call position →
      Staked call s.pool staker amount position call₁ pool₁ →
      Fills env.timestamp callId
        ⟨call₁, pool₁.setCall call₁, s.book, s.book.openOrdersByCall callId⟩ effects m →
      Transition env (.stakeOnCall staker callId amount position) s
        (effects ++ [.event (.stakeAdded callId staker amount position),
          .transfer call.stakeToken staker env.contract amount])
        { s with
          pool := m.pool.setCall m.call
          book := m.book.setOpenOrderIdsForCall callId m.listed }
  | ordered {s config call order ttlSecs} :
      order.user ∈ env.auths → s.config = some config → config.callId = order.callId →
      0 < order.amount → s.pool.call = some call → Accepts env call order.outcome →
      order.id = s.book.nextOrderId + 1 →
      Transition env (.createLimitOrder order.user order.callId order.outcome order.amount
          order.targetProbabilityBps ttlSecs) s
        [.event (.limitOrderCreated order.id order.callId order.user order.outcome order.amount
            order.targetProbabilityBps order.expiresAt),
          .transfer call.stakeToken order.user env.contract order.amount]
        (s.onBook fun b => (b.setNextOrderId order.id).enter order)
  | orderCancelled {s call order} :
      order.user ∈ env.auths → s.book.limitOrders.lookup order.id = some order →
      s.pool.call = some call →
      Transition env (.cancelLimitOrder order.user order.id) s
        [.event (.limitOrderCancelled order.id order.callId order.user order.amount),
          .transfer call.stakeToken env.contract order.user order.amount]
        (s.onBook (·.close order))
  | orderRefunded {s config call caller order reward refundToUser} :
      caller ∈ env.auths → s.book.limitOrders.lookup order.id = some order →
      order.expiresAt ≤ env.timestamp → s.config = some config → s.pool.call = some call →
      refundParts config order.amount = .ok (reward, refundToUser) →
      Transition env (.refundExpiredOrder caller order.id) s
        (.event (.limitOrderExpiredRefunded order.id order.callId order.user refundToUser reward
            caller) ::
          (payOutEffects env call.stakeToken order.user refundToUser ++
            payOutEffects env call.stakeToken caller reward))
        (s.onBook (·.close order))
  | resolved {s config call callId outcome endPrice} :
      s.config = some config → config.callId = callId → config.outcomeManager ∈ env.auths →
      s.pool.call = some call → 1 ≤ outcome ∧ outcome ≤ call.outcomeCount →
      call.endTs ≤ env.timestamp → call.voided = false →
      Transition env (.resolveCall callId outcome endPrice) s
        [.event (.resolved callId outcome endPrice)]
        (s.setCall { call with outcome := outcome, endPrice := endPrice })
  | settled {s config call callId} :
      s.config = some config → config.callId = callId → config.outcomeManager ∈ env.auths →
      s.pool.call = some call → call.settled = false →
      Transition env (.markSettled callId) s [] (s.setCall { call with settled := true })
  | released {s config call callId recipient amount} :
      s.config = some config → config.callId = callId → config.outcomeManager ∈ env.auths →
      s.pool.call = some call →
      Transition env (.releaseEscrow callId recipient amount) s
        [.transfer call.stakeToken env.contract recipient amount] s
  | parentSet {s config call callId parentCallId rolledAmount} :
      s.config = some config → config.callId = callId → s.pool.call = some call →
      call.parentCallId = none →
      Transition env (.setParentCall callId parentCallId rolledAmount) s []
        (s.setCall { call with parentCallId := some parentCallId, rolledAmount := rolledAmount })
  | chainStored {s config callId chain} :
      s.config = some config → config.callId = callId → s.rolloverChain callId = [] →
      Transition env (.storeRolloverChain callId chain) s [] (s.setRolloverChain callId chain)

/-!
## The entry points of a market make the listed transitions

Every successful run of an entry point other than the rollover is a `Transition`, and the token
contracts performed its effects. The matching loop is covered by induction on the listed ids.
-/

/-- The entry point that calls other contracts besides tokens. -/
def MarketOp.isRollover : MarketOp → Bool
  | .claimAndRollover .. => true
  | _ => false

theorem except_bind_ok {ε α β : Type} {x : Except ε α} {k : α → Except ε β} {b : β} :
    (x >>= k) = .ok b ↔ ∃ a, x = .ok a ∧ k a = .ok b := by
  cases x with
  | error e =>
    refine ⟨fun h => (by cases h), ?_⟩
    rintro ⟨_, h, -⟩
    cases h
  | ok a =>
    refine ⟨fun h => ⟨a, rfl, h⟩, ?_⟩
    rintro ⟨_, h, hk⟩
    cases h
    exact hk

theorem or_overflow_ok {result : Option Int} {value : Int} :
    orOverflow result = .ok value ↔ result = some value := by
  cases result <;> simp [orOverflow]

theorem check_max_stake_ok {config : MarketConfig} {current amount updated : Int}
    (h : checkMaxStake config current amount = .ok updated) : updated = current + amount := by
  simp only [checkMaxStake, except_bind_ok, or_overflow_ok, checkedAdd, checked_eq_some] at h
  obtain ⟨_, ⟨-, rfl⟩, h⟩ := h
  split at h
  · cases h
  · exact (Except.ok.inj h).symm

theorem stake_totals_ok {config : MarketConfig} {call : Call} {staker : Address} {amount : Int}
    {position : Nat} {stake pool : Int}
    (h : stakeTotals config call staker amount position = .ok (stake, pool)) :
    stake = valueAt (call.stakesOn position) staker + amount ∧
      pool = valueAt call.outcomeStakes position + amount := by
  simp only [stakeTotals, except_bind_ok, or_overflow_ok, checkedAdd, checked_eq_some] at h
  obtain ⟨_, hstake, _, ⟨-, rfl⟩, h⟩ := h
  cases h
  exact ⟨check_max_stake_ok hstake, rfl⟩

section Matching

variable {T : Type} {env : Env} {f f' : Frame Storage T Event}

/-- A frame with another pool. -/
def Frame.withPool (f : Frame Storage T Event) (pool : Pool) : Frame Storage T Event :=
  { f with store := f.store.onPool fun _ => pool }

variable {config : MarketConfig}

theorem run_trackEarlyStake {call : Call} {staker : Address} {position : Nat} {u : Unit}
    (h : run (trackEarlyStake config call staker position) env f = .ok (u, f')) :
    ∃ pool, f' = Frame.withPool f pool ∧ pool.userStake = f.store.pool.userStake ∧
      pool.call = f.store.pool.call := by
  simp only [trackEarlyStake, run_steps] at h
  split at h
  · simp only [run_steps] at h
    obtain ⟨-, h⟩ := h
    split at h
    · simp only [run_steps] at h
      obtain ⟨-, rfl⟩ := h
      exact ⟨_, rfl, rfl, rfl⟩
    · cases h
      exact ⟨_, rfl, rfl, rfl⟩
  · cases h
    exact ⟨f.store.pool, rfl, rfl, rfl⟩

/-- Recording a stake either fails and changes nothing, or enters the stake. -/
theorem run_applyStake {call : Call} {staker : Address} {amount : Int}
    {position : Nat} {r : Except MarketError Call}
    (h : run (applyStake config call staker amount position) env f = .ok (r, f')) :
    (∃ e, r = .error e ∧ f' = f ∧ stakeTotals config call staker amount position = .error e) ∨
      ∃ call' pool', r = .ok call' ∧ f' = Frame.withPool f pool' ∧
        Staked call f.store.pool staker amount position call' pool' ∧
        ∃ totals, stakeTotals config call staker amount position = .ok totals := by
  unfold applyStake at h
  cases htotals : stakeTotals config call staker amount position with
  | error e =>
    rw [htotals] at h
    cases h
    exact .inl ⟨e, rfl, rfl, rfl⟩
  | ok totals =>
    obtain ⟨stake, pool⟩ := totals
    obtain ⟨rfl, rfl⟩ := stake_totals_ok htotals
    rw [htotals] at h
    simp only [run_modifyStore_bind] at h
    rw [run_bind] at h
    obtain ⟨_, f₁, htrack, h⟩ := h
    obtain ⟨pool', rfl, hstakes, hcall⟩ := run_trackEarlyStake htrack
    cases h
    exact .inr ⟨_, pool', rfl, rfl, ⟨rfl, hstakes, hcall⟩, _, rfl⟩

/-- A frame as the matching loop leaves it. -/
def Frame.matched (f : Frame Storage T Event) (m : Matching) (effects : List (Effect Event)) :
    Frame Storage T Event :=
  { f with
    store := { f.store with pool := m.pool, book := m.book }
    effects := effects ++ f.effects }

/-- Examining a listed order keeps it listed and changes nothing, or drops it as stale, or fills
it. -/
theorem run_matchOrder {callId orderId : Nat} {call call' : Call} {kept : Bool}
    (h : run (matchOrder config callId orderId call) env f = .ok ((call', kept), f')) :
    (kept = true ∧ call' = call ∧ f' = f ∧
      ∃ order, f.store.book.limitOrders.lookup orderId = some order ∧
        (fillPrice call callId env.timestamp order = none ∨
          ∃ e, stakeTotals config call order.user order.amount order.outcome = .error e)) ∨
    (kept = false ∧ f.store.book.limitOrders.lookup orderId = none ∧ call' = call ∧ f' = f) ∨
    ∃ order impliedBps pool', kept = false ∧ orderId = order.id ∧
      f.store.book.limitOrders.lookup order.id = some order ∧
      fillPrice call callId env.timestamp order = some impliedBps ∧
      Staked call f.store.pool order.user order.amount order.outcome call' pool' ∧
      (∃ totals, stakeTotals config call order.user order.amount order.outcome = .ok totals) ∧
      f' = Frame.matched f ⟨call', pool',
        (f.store.book.removeLimitOrder order.id).removeIdFromUserOrders order.user order.id, []⟩
        [filledEvent callId order impliedBps] := by
  simp only [matchOrder, run_getStore_bind] at h
  cases hlookup : f.store.book.limitOrders.lookup orderId with
  | none =>
    rw [hlookup] at h
    cases h
    exact .inr (.inl ⟨rfl, rfl, rfl, rfl⟩)
  | some order =>
    obtain rfl : order.id = orderId := f.store.book.keyed _ _ hlookup
    rw [hlookup] at h
    simp only [run_env_bind] at h
    cases hprice : fillPrice call callId env.timestamp order with
    | none =>
      rw [hprice] at h
      cases h
      exact .inl ⟨rfl, rfl, rfl, order, rfl, .inl hprice⟩
    | some impliedBps =>
      rw [hprice] at h
      dsimp only at h
      rw [run_bind] at h
      obtain ⟨r, f₁, happly, h⟩ := h
      obtain ⟨e, rfl, rfl, herror⟩ | ⟨filled, pool', rfl, rfl, hstaked, htotals⟩ :=
        run_applyStake happly
      · cases h
        exact .inl ⟨rfl, rfl, rfl, order, rfl, .inr ⟨e, herror⟩⟩
      · simp only [run_steps] at h
        obtain ⟨⟨rfl, rfl⟩, rfl⟩ := h
        exact .inr (.inr ⟨order, impliedBps, pool', rfl, rfl, hlookup, hprice, hstaked,
          htotals, rfl⟩)

/-- The loop fills orders of the ids it is given, by induction on them. It reports no change only
if it has dropped none. -/
theorem run_matchFrom {callId budget : Nat} {ids remaining : List Nat}
    {call call' : Call} {changed changed' : Bool} {listed : List Nat}
    (h : run (matchFrom config callId budget ids call remaining changed) env f =
      .ok ((call', listed, changed'), f')) :
    ∃ effects m, Fills env.timestamp callId
        ⟨call, f.store.pool, f.store.book, remaining ++ ids⟩ effects m ∧
      m.call = call' ∧ m.listed = listed ∧ f' = Frame.matched f m effects ∧
      (changed' = false → changed = false ∧ listed = remaining ++ ids) := by
  have hnothing : f = Frame.matched f ⟨call, f.store.pool, f.store.book, remaining ++ ids⟩ [] := rfl
  induction ids generalizing budget remaining call changed f with
  | nil =>
    simp only [matchFrom, run_pure, Except.ok.injEq, Prod.mk.injEq] at h
    obtain ⟨⟨rfl, rfl, rfl⟩, rfl⟩ := h
    exact ⟨[], _, .done, rfl, List.append_nil _, hnothing,
      fun hsame => ⟨hsame, (List.append_nil _).symm⟩⟩
  | cons orderId rest ih =>
    cases budget with
    | zero =>
      simp only [matchFrom, run_pure, Except.ok.injEq, Prod.mk.injEq] at h
      obtain ⟨⟨rfl, rfl, rfl⟩, rfl⟩ := h
      exact ⟨[], _, .done, rfl, rfl, hnothing, fun hsame => ⟨hsame, rfl⟩⟩
    | succ budget =>
      simp only [matchFrom] at h
      rw [run_bind] at h
      obtain ⟨⟨call₁, kept⟩, f₁, hone, h⟩ := h
      obtain ⟨rfl, rfl, rfl, -⟩ | ⟨rfl, hstale, rfl, rfl⟩ |
        ⟨order, impliedBps, pool', rfl, rfl, hstored, hprice, hstaked, -, rfl⟩ :=
        run_matchOrder hone
      · -- The order stays listed.
        obtain ⟨effects, m, hfills, hcall, hlisted, hframe, hsame⟩ := ih h rfl
        rw [List.append_assoc] at hfills hsame
        exact ⟨effects, m, hfills, hcall, hlisted, hframe, hsame⟩
      · obtain ⟨effects, m, hfills, hcall, hlisted, hframe, hsame⟩ := ih h rfl
        refine ⟨effects ++ [], m, (Fills.dropped .done hstale).trans hfills, hcall, hlisted,
          ?_, fun hno => absurd (hsame hno).1 (by simp)⟩
        rw [List.append_nil]
        exact hframe
      · obtain ⟨effects, m, hfills, hcall, hlisted, hframe, hsame⟩ := ih h rfl
        refine ⟨effects ++ [filledEvent callId order impliedBps], m,
          (Fills.filled .done hstored hprice hstaked).trans hfills, hcall, hlisted, ?_,
          fun hno => absurd (hsame hno).1 (by simp)⟩
        rw [hframe]
        simp only [Frame.matched, List.append_assoc]

theorem Fills.openOrdersByCall {now callId : Nat} {m m' : Matching} {effects : List (Effect Event)}
    (h : Fills now callId m effects m') : m'.book.openOrdersByCall = m.book.openOrdersByCall := by
  induction h with
  | done => rfl
  | dropped _ _ ih => exact ih
  | filled _ _ _ _ ih => exact ih

theorem Fills.replays [Tokens T] {now callId : Nat} {m m' : Matching}
    {effects : List (Effect Event)} (h : Fills now callId m effects m') (tokens : T) :
    Replays env tokens effects tokens := by
  induction h with
  | done => exact .nil
  | dropped _ _ ih => exact ih
  | filled _ _ _ _ ih => exact ih.event

/-- Writing what the index lists already changes nothing. -/
theorem Book.setOpenOrderIdsForCall_self (b : Book) (callId : Nat) :
    b.setOpenOrderIdsForCall callId (b.openOrdersByCall callId) = b := by
  simp only [Book.setOpenOrderIdsForCall, Function.update_eq_self]

/-- A matching pass ends with the index listing what the loop left. -/
theorem run_matchLimitOrders {call call' : Call} {callId : Nat}
    (h : run (matchLimitOrders config call callId) env f = .ok (call', f')) :
    ∃ effects m, Fills env.timestamp callId
        ⟨call, f.store.pool, f.store.book, f.store.book.openOrdersByCall callId⟩ effects m ∧
      m.call = call' ∧ f' = Frame.matched f
        { m with book := m.book.setOpenOrderIdsForCall callId m.listed } effects := by
  simp only [matchLimitOrders, run_getStore_bind] at h
  rw [run_bind] at h
  obtain ⟨⟨call₁, listed, changed⟩, f₁, hloop, h⟩ := h
  obtain ⟨effects, m, hfills, rfl, rfl, rfl, hsame⟩ := run_matchFrom hloop
  refine ⟨effects, m, hfills, ?_⟩
  cases changed with
  | true =>
    simp only [if_true, run_steps] at h
    obtain ⟨rfl, rfl⟩ := h
    exact ⟨rfl, rfl⟩
  | false =>
    simp only [Bool.false_eq_true, if_false, run_pure, Except.ok.injEq, Prod.mk.injEq] at h
    obtain ⟨rfl, rfl⟩ := h
    obtain ⟨-, hlisted⟩ := hsame rfl
    have hindex : m.listed = m.book.openOrdersByCall callId := by
      rw [hlisted, hfills.openOrdersByCall, List.nil_append]
    exact ⟨rfl, by rw [hindex, Book.setOpenOrderIdsForCall_self]; rfl⟩

end Matching

section Transitions

variable {T : Type} {env : Env} {f f' : Frame Storage T Event} {u : Unit}

theorem run_checkOpen {config : MarketConfig} {call : Call} {position : Nat}
    (h : run (checkOpen config call position) env f = .ok (u, f')) :
    f' = f ∧ Accepts env call position := by
  simp only [checkOpen, run_steps, run_rejectIf, not_le, not_or, Bool.not_eq_true] at h
  obtain ⟨hrunning, -, ⟨hsettled, hcancelled, hvoided⟩, hposition, rfl⟩ := h
  exact ⟨rfl, hrunning, hsettled, hcancelled, hvoided, by omega⟩

/-- An entry point seen from outside: the token contracts performed its effects, and it made a
listed transition. -/
def Makes [Tokens T] (env : Env) (op : MarketOp) (f f' : Frame Storage T Event) : Prop :=
  ∃ effects, f'.effects = effects ++ f.effects ∧ Replays env f.tokens effects f'.tokens ∧
    Transition env op f.store effects f'.store

theorem Makes.of [Tokens T] {op : MarketOp} {effects : List (Effect Event)} {s' : Storage}
    (h : Transition env op f.store effects s') (hstore : f'.store = s')
    (heffects : f'.effects = effects ++ f.effects)
    (hreplay : Replays env f.tokens effects f'.tokens) :
    Makes env op f f' := by
  subst hstore
  exact ⟨effects, heffects, hreplay, h⟩

/-- Releasing a lock that was free leaves what the guarded part left. -/
theorem Storage.unlock {s : Storage} (hfree : s.locked = false) (pool : Pool) (book : Book) :
    (({ s.setLocked true with pool := pool, book := book } : Storage).setLocked false) =
      { s with pool := pool, book := book } := by
  simp only [Storage.setLocked, ← hfree]

variable {callId : Nat} {amount : Int}

theorem construct_makes [Tokens T] {creator outcomeManager factory : Address}
    {minStake maxStakePerUser : Int} {cutoff : Nat} {args : MarketInitArgs}
    (h : run (construct callId creator outcomeManager factory minStake maxStakePerUser cutoff args)
      env f = .ok (u, f')) :
    Makes env (.construct callId creator outcomeManager factory minStake maxStakePerUser cutoff
      args) f f' := by
  simp only [construct, run_steps] at h
  obtain ⟨hnone, -, -, -, -, rfl⟩ := h
  exact ⟨_, rfl, .event (.event .nil), .constructed (by simpa using hnone)⟩

theorem resolve_call_makes [Tokens T] {callId outcome : Nat} {endPrice : Int} {call' : Call}
    (h : run (resolveCall callId outcome endPrice) env f = .ok (call', f')) :
    Makes env (.resolveCall callId outcome endPrice) f f' := by
  simp only [resolveCall, run_requireConfig_bind, run_requireCallId_bind, run_requireAuth_bind,
    run_withLock] at h
  obtain ⟨config, hconfig, hid, hauth, hfree, f₁, h, rfl⟩ := h
  simp only [run_requireCall_bind, run_steps, Bool.not_eq_true] at h
  obtain ⟨call, hcall, houtcome, hended, hvoided, -, rfl⟩ := h
  exact .of (.resolved hconfig hid hauth hcall ⟨by omega, by omega⟩ (by omega) hvoided)
    (Storage.unlock hfree _ _) rfl (.event .nil)

theorem mark_settled_makes [Tokens T]
    (h : run (markSettled callId) env f = .ok (u, f')) : Makes env (.markSettled callId) f f' := by
  simp only [markSettled, run_requireConfig_bind, run_requireCallId_bind, run_steps,
    run_requireCall_bind, Bool.not_eq_true] at h
  obtain ⟨config, hconfig, hid, hauth, call, hcall, hsettled, rfl⟩ := h
  exact ⟨[], rfl, .nil, .settled hconfig hid hauth hcall hsettled⟩

theorem set_parent_call_makes [Tokens T] {callId parentCallId : Nat} {rolledAmount : Int}
    (h : run (setParentCall callId parentCallId rolledAmount) env f = .ok (u, f')) :
    Makes env (.setParentCall callId parentCallId rolledAmount) f f' := by
  simp only [setParentCall, run_requireConfig_bind, run_requireCallId_bind, run_requireCall_bind,
    run_steps] at h
  obtain ⟨config, hconfig, hid, call, hcall, hparent, rfl⟩ := h
  exact ⟨[], rfl, .nil, .parentSet hconfig hid hcall (by simpa using hparent)⟩

theorem store_rollover_chain_makes [Tokens T] {chain : List RolloverLink}
    (h : run (storeRolloverChain callId chain) env f = .ok (u, f')) :
    Makes env (.storeRolloverChain callId chain) f f' := by
  simp only [storeRolloverChain, run_requireConfig_bind, run_requireCallId_bind, run_steps,
    not_not] at h
  obtain ⟨config, hconfig, hid, hempty, rfl⟩ := h
  exact ⟨[], rfl, .nil, .chainStored hconfig hid hempty⟩

variable [Tokens T]

theorem transfer_token_eq (stakeToken sender recipient : Address) (amount : Int) :
    (transferToken stakeToken sender recipient amount : Market T Unit) =
      tokenTransfer stakeToken sender recipient amount := by
  unfold transferToken
  split <;> rfl

theorem release_escrow_makes {recipient : Address}
    (h : run (releaseEscrow callId recipient amount) env f = .ok (u, f')) :
    Makes env (.releaseEscrow callId recipient amount) f f' := by
  simp only [releaseEscrow, run_requireConfig_bind, run_requireCallId_bind, run_steps,
    run_requireCall_bind, transfer_token_eq, run_tokenTransfer] at h
  obtain ⟨config, hconfig, hid, hauth, call, hcall, tokens, htransfer, rfl⟩ := h
  exact ⟨_, rfl, .transfer .nil htransfer, .released hconfig hid hauth hcall⟩

/-- The frame in which a stake looks for orders to fill. -/
def Frame.staking (env : Env) (f : Frame Storage T Event) (call staked : Call) (pool : Pool)
    (staker : Address) (callId : Nat) (amount : Int) (position : Nat) (tokens : T) :
    Frame Storage T Event where
  store := { f.store.setLocked true with pool := pool.setCall staked }
  tokens := tokens
  effects := .event (.stakeAdded callId staker amount position) ::
    .transfer call.stakeToken staker env.contract amount :: f.effects

/-- A stake that succeeds is checked, paid and recorded before orders are filled. -/
theorem run_stakeOnCall {staker : Address} {position : Nat}
    {call' : Call} (h : run (stakeOnCall staker callId amount position) env f = .ok (call', f')) :
    ∃ config call staked pool tokens f₁, staker ∈ env.auths ∧ f.store.locked = false ∧
      f.store.config = some config ∧ config.callId = callId ∧ 0 < amount ∧
      f.store.pool.call = some call ∧ Accepts env call position ∧
      Tokens.transfer env call.stakeToken staker env.contract amount f.tokens = some tokens ∧
      Staked call f.store.pool staker amount position staked pool ∧
      run (matchLimitOrders config staked callId) env
        (Frame.staking env f call staked pool staker callId amount position tokens) =
          .ok (call', f₁) ∧
      f' = { f₁ with store := (f₁.store.setCall call').setLocked false } := by
  simp only [stakeOnCall, run_steps, run_withLock, run_requireConfig_bind, run_requireCallId_bind,
    run_requireCall_bind] at h
  obtain ⟨hauth, hfree, f₁, ⟨config, hconfig, hid, -, hamount, call, hcall, h⟩, rfl⟩ := h
  rw [run_bind] at h
  obtain ⟨_, f₂, hopen, h⟩ := h
  obtain ⟨rfl, haccepts⟩ := run_checkOpen hopen
  simp only [run_raise_bind, run_steps, transfer_token_eq] at h
  obtain ⟨_, -, tokens, htransfer, h⟩ := h
  rw [run_bind] at h
  obtain ⟨applied, f₃, happly, h⟩ := h
  simp only [run_raise_bind, run_steps] at h
  obtain ⟨staked, rfl, h⟩ := h
  obtain ⟨e, hno, -⟩ | ⟨call₁, pool₁, hstaked, rfl, hentered, -⟩ := run_applyStake happly
  · cases hno
  · cases hstaked
    rw [run_bind] at h
    obtain ⟨matched, f₄, hmatch, h⟩ := h
    simp only [run_steps] at h
    obtain ⟨rfl, rfl⟩ := h
    exact ⟨config, call, staked, pool₁, tokens, f₄, hauth, hfree, hconfig, hid, by omega, hcall,
      haccepts, htransfer, hentered, hmatch, rfl⟩

theorem stake_on_call_makes {staker : Address} {position : Nat}
    {call' : Call} (h : run (stakeOnCall staker callId amount position) env f = .ok (call', f')) :
    Makes env (.stakeOnCall staker callId amount position) f f' := by
  obtain ⟨config, call, staked, pool, tokens, f₁, hauth, hfree, hconfig, hid, hamount, hcall,
    haccepts, htransfer, hentered, hmatch, rfl⟩ := run_stakeOnCall h
  obtain ⟨effects, m, hfills, rfl, rfl⟩ := run_matchLimitOrders hmatch
  have hreplay : Replays env f.tokens (effects ++
      [.event (.stakeAdded callId staker amount position),
        .transfer call.stakeToken staker env.contract amount]) tokens :=
    (Replays.event (.transfer .nil htransfer)).append (hfills.replays tokens)
  refine .of (.staked hauth hconfig hid hamount hcall haccepts hentered hfills)
    (Storage.unlock hfree _ _) ?_ hreplay
  simp [Frame.matched, Frame.staking]

theorem create_limit_order_makes {user : Address} {callId outcome : Nat}
    {target ttlSecs orderId : Nat}
    (h : run (createLimitOrder user callId outcome amount target ttlSecs) env f =
      .ok (orderId, f')) :
    Makes env (.createLimitOrder user callId outcome amount target ttlSecs) f f' := by
  simp only [createLimitOrder, run_steps, run_withLock, run_requireConfig_bind,
    run_requireCallId_bind, run_requireCall_bind] at h
  obtain ⟨hauth, hfree, f₁, ⟨config, hconfig, hid, -, call, hcall, h⟩, rfl⟩ := h
  rw [run_bind] at h
  obtain ⟨_, f₂, hopen, h⟩ := h
  obtain ⟨rfl, haccepts⟩ := run_checkOpen hopen
  simp only [run_steps, run_raise_bind, transfer_token_eq, run_nextOrderId_bind] at h
  obtain ⟨hamount, -, -, _, -, tokens, htransfer, -, expiresAt, -, -, rfl⟩ := h
  let order : LimitOrder := ⟨f.store.book.nextOrderId + 1, user, callId, outcome, amount, target,
    env.timestamp, expiresAt⟩
  have hpositive : 0 < order.amount := by
    show 0 < amount
    omega
  have hordered : Transition env (.createLimitOrder order.user order.callId order.outcome
      order.amount order.targetProbabilityBps ttlSecs) f.store _ _ :=
    .ordered hauth hconfig hid hpositive hcall haccepts rfl
  exact .of hordered (Storage.unlock hfree _ _) rfl (.event (.transfer .nil htransfer))

theorem cancel_limit_order_makes {user : Address} {orderId : Nat}
    (h : run (cancelLimitOrder user orderId) env f = .ok (u, f')) :
    Makes env (.cancelLimitOrder user orderId) f f' := by
  simp only [cancelLimitOrder, run_steps, run_withLock, run_requireLimitOrder_bind,
    run_requireCall_bind, transfer_token_eq, not_not] at h
  obtain ⟨hauth, hfree, f₁, ⟨order, hstored, rfl, call, hcall, tokens, htransfer, rfl⟩, rfl⟩ := h
  obtain rfl : order.id = orderId := f.store.book.keyed _ _ hstored
  exact .of (.orderCancelled hauth hstored hcall) (Storage.unlock hfree _ _) rfl
    (.event (.transfer .nil htransfer))

theorem run_payOut {stakeToken recipient : Address}
    (h : run (payOut stakeToken recipient amount : Market T Unit) env f = .ok (u, f')) :
    ∃ tokens, Replays env f.tokens (payOutEffects env stakeToken recipient amount) tokens ∧
      f' = { f with
        tokens := tokens
        effects := payOutEffects env stakeToken recipient amount ++ f.effects } := by
  simp only [payOut, run_env_bind] at h
  unfold payOutEffects
  split at h
  · next hpositive =>
    simp only [transfer_token_eq, run_tokenTransfer] at h
    obtain ⟨tokens, htransfer, rfl⟩ := h
    rw [if_pos hpositive]
    exact ⟨tokens, .transfer .nil htransfer, rfl⟩
  · next hzero =>
    cases h
    rw [if_neg hzero]
    exact ⟨f.tokens, .nil, rfl⟩

theorem refund_expired_order_makes {caller : Address} {orderId : Nat}
    (h : run (refundExpiredOrder caller orderId) env f = .ok (u, f')) :
    Makes env (.refundExpiredOrder caller orderId) f f' := by
  simp only [refundExpiredOrder, run_steps, run_withLock, run_requireLimitOrder_bind,
    run_requireConfig_bind, run_requireCall_bind, run_raise_bind, not_lt] at h
  obtain ⟨hauth, hfree, f₁, ⟨order, hstored, hexpired, config, hconfig, call, hcall,
    ⟨reward, refundToUser⟩, hparts, h⟩, rfl⟩ := h
  obtain rfl : order.id = orderId := f.store.book.keyed _ _ hstored
  dsimp only at h
  rw [run_bind] at h
  obtain ⟨_, f₂, hreward, h⟩ := h
  obtain ⟨tokens₁, hfirst, rfl⟩ := run_payOut hreward
  rw [run_bind] at h
  obtain ⟨_, f₃, hrefund, h⟩ := h
  obtain ⟨tokens₂, hsecond, rfl⟩ := run_payOut hrefund
  simp only [run_steps] at h
  subst h
  refine .of (.orderRefunded hauth hstored hexpired hconfig hcall hparts)
    (Storage.unlock hfree _ _) ?_ (hfirst.append hsecond).event
  simp

/-- A successful entry point other than the rollover makes a listed transition. -/
theorem MarketOp.makes {P : Type} [Peers P] {f f' : Frame Storage P Event} {op : MarketOp}
    (hop : op.isRollover = false) (h : run (op.perform : Market P Unit) env f = .ok (u, f')) :
    Makes env op f f' := by
  cases op with
  | claimAndRollover => cases hop
  | construct => exact construct_makes h
  | stakeOnCall =>
    obtain ⟨_, h⟩ := run_ignore.mp h
    exact stake_on_call_makes h
  | createLimitOrder =>
    obtain ⟨_, h⟩ := run_ignore.mp h
    exact create_limit_order_makes h
  | cancelLimitOrder => exact cancel_limit_order_makes h
  | refundExpiredOrder => exact refund_expired_order_makes h
  | resolveCall =>
    obtain ⟨_, h⟩ := run_ignore.mp h
    exact resolve_call_makes h
  | markSettled => exact mark_settled_makes h
  | releaseEscrow => exact release_escrow_makes h
  | setParentCall => exact set_parent_call_makes h
  | storeRolloverChain => exact store_rollover_chain_makes h

end Transitions

end Backit.PredictionMarket
