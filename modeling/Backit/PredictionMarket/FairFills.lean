import Backit.PredictionMarket.OrderAccounts
import Backit.PredictionMarket.Rollover

/-!
# Which limit orders a stake fills

A stake examines the first twenty listed orders, oldest first, once each. An order is filled exactly
when it can be when it is examined, at the implied price that the fills before it have left. A later
fill may lower the price of an order that was passed over, which waits for the next stake.
-/

namespace Backit.PredictionMarket

open Soroban Contract Lib

/-- The implied probability of an outcome in basis points, when it can be computed. -/
def impliedBps (call : Call) (outcome : Nat) : Option Int := do
  let totalStake ← totalCallStake call
  if 0 < totalStake then do
    let product ← checkedMul (valueAt call.outcomeStakes outcome) 10000
    checkedDiv product totalStake
  else none

/-- An examined order, with the call as it was then. -/
structure Look where
  call : Call
  order : LimitOrder
  filled : Bool

namespace Look

def id (look : Look) : Nat := look.order.id

/-- The order can be filled: it is unexpired, the implied price has reached its target, and its
amount keeps to the maximum stake and to what can be recorded. -/
structure Fillable (config : MarketConfig) (now : Nat) (look : Look) : Prop where
  unexpired : now < look.order.expiresAt
  reached : ∃ bps, impliedBps look.call look.order.outcome = some bps ∧
    bps ≤ look.order.targetProbabilityBps
  withinMax : 0 < config.maxStakePerUser →
    valueAt (look.call.stakesOn look.order.outcome) look.order.user + look.order.amount ≤
      config.maxStakePerUser
  recordable : InI128 (valueAt (look.call.stakesOn look.order.outcome) look.order.user +
      look.order.amount) ∧
    InI128 (valueAt look.call.outcomeStakes look.order.outcome + look.order.amount)

instance (config : MarketConfig) (now : Nat) (look : Look) :
    Decidable (look.Fillable config now) :=
  decidable_of_iff (now < look.order.expiresAt ∧
    (∃ bps ∈ impliedBps look.call look.order.outcome, bps ≤ look.order.targetProbabilityBps) ∧
    (0 < config.maxStakePerUser →
      valueAt (look.call.stakesOn look.order.outcome) look.order.user + look.order.amount ≤
        config.maxStakePerUser) ∧
    InI128 (valueAt (look.call.stakesOn look.order.outcome) look.order.user + look.order.amount) ∧
    InI128 (valueAt look.call.outcomeStakes look.order.outcome + look.order.amount))
    ⟨fun h => ⟨h.1, h.2.1, h.2.2.1, h.2.2.2⟩,
      fun h => ⟨h.unexpired, h.reached, h.withinMax, h.recordable⟩⟩

/-- What announces the fill, if there is one. -/
def announced (callId : Nat) (look : Look) : Option (Effect Event) :=
  if look.filled = true then
    some (filledEvent callId look.order ((impliedBps look.call look.order.outcome).getD 0))
  else none

end Look

/-- The call with the amount of an order staked. -/
def Call.withFilled (call : Call) (order : LimitOrder) : Call :=
  call.withStake order.outcome order.user
    (valueAt call.outcomeStakes order.outcome + order.amount)
    (valueAt (call.stakesOn order.outcome) order.user + order.amount)

/-- A pass over orders, first to last: what is filled changes the call for those after it. -/
inductive Looks (config : MarketConfig) (now : Nat) : Call → List Look → Call → Prop where
  | done {call} : Looks config now call [] call
  | left {call order looks call'} :
      ¬ (⟨call, order, false⟩ : Look).Fillable config now → Looks config now call looks call' →
      Looks config now call (⟨call, order, false⟩ :: looks) call'
  | filled {call order looks call'} : (⟨call, order, true⟩ : Look).Fillable config now →
      Looks config now (call.withFilled order) looks call' →
      Looks config now call (⟨call, order, true⟩ :: looks) call'

section Prices

variable {config : MarketConfig} {call call' : Call} {callId now : Nat} {order : LimitOrder}
  {bps : Int} {looks : List Look}

theorem fill_price_iff : fillPrice call callId now order = some bps ↔
    order.callId = callId ∧ now < order.expiresAt ∧ impliedBps call order.outcome = some bps ∧
      bps ≤ order.targetProbabilityBps := by
  have hprice : ∀ o : Option Int, (o.bind fun impliedBps =>
      if (order.targetProbabilityBps : Int) < impliedBps then none else some impliedBps) =
        some bps ↔ o = some bps ∧ bps ≤ order.targetProbabilityBps := by
    intro o
    cases o with
    | none => simp
    | some x =>
      rw [Option.bind_some]
      split
      · next hlt =>
        simp only [Option.some.injEq, false_iff, reduceCtorEq]
        rintro ⟨rfl, hle⟩
        omega
      · next hle =>
        simp only [Option.some.injEq]
        constructor
        · rintro rfl
          exact ⟨rfl, by omega⟩
        · exact fun h => h.1
  unfold fillPrice impliedBps
  split
  · next hother =>
    simp only [false_iff, reduceCtorEq]
    rintro ⟨hcall, hlive, -⟩
    obtain hne | hexpired := hother
    · exact hne hcall
    · omega
  · next hlive =>
    rw [not_or, not_not, not_le] at hlive
    simp only [hlive.1, hlive.2, true_and]
    cases totalCallStake call with
    | none => simp
    | some total =>
      simp only [bind, Option.bind_some]
      split
      · cases checkedMul (valueAt call.outcomeStakes order.outcome) 10000 with
        | none => simp
        | some product => exact hprice _
      · simp

/-- A stake can be recorded exactly when it keeps to the maximum and to the range of its type. -/
theorem stake_totals_iff {staker : Address} {amount : Int} {position : Nat} :
    (∃ totals, stakeTotals config call staker amount position = .ok totals) ↔
      (0 < config.maxStakePerUser →
        valueAt (call.stakesOn position) staker + amount ≤ config.maxStakePerUser) ∧
      InI128 (valueAt (call.stakesOn position) staker + amount) ∧
      InI128 (valueAt call.outcomeStakes position + amount) := by
  constructor
  · rintro ⟨⟨stake, pool⟩, h⟩
    simp only [stakeTotals, checkMaxStake, except_bind_ok, or_overflow_ok, checkedAdd,
      checked_eq_some] at h
    obtain ⟨_, ⟨_, ⟨hstake, rfl⟩, hmax⟩, _, ⟨hpool, rfl⟩, -⟩ := h
    split at hmax
    · cases hmax
    · next hallowed => exact ⟨fun hpositive => by omega, hstake, hpool⟩
  · rintro ⟨hmax, hstake, hpool⟩
    refine ⟨(valueAt (call.stakesOn position) staker + amount,
      valueAt call.outcomeStakes position + amount), ?_⟩
    simp only [stakeTotals, checkMaxStake, except_bind_ok, or_overflow_ok, checkedAdd,
      checked_eq_some]
    refine ⟨_, ⟨_, ⟨hstake, rfl⟩, ?_⟩, _, ⟨hpool, rfl⟩, rfl⟩
    rw [if_neg]
    rintro ⟨hpositive, hover⟩
    have := hmax hpositive
    omega

/-- An order of the call is filled exactly when it can be. -/
theorem fillable_iff {filled : Bool} (hcall : order.callId = callId) :
    (⟨call, order, filled⟩ : Look).Fillable config now ↔
      (∃ bps, fillPrice call callId now order = some bps) ∧
        ∃ totals, stakeTotals config call order.user order.amount order.outcome = .ok totals := by
  rw [stake_totals_iff]
  constructor
  · rintro ⟨hlive, ⟨bps, hbps, hle⟩, hmax, hstake, hpool⟩
    exact ⟨⟨bps, fill_price_iff.mpr ⟨hcall, hlive, hbps, hle⟩⟩, hmax, hstake, hpool⟩
  · rintro ⟨⟨bps, hprice⟩, hmax, hstake, hpool⟩
    obtain ⟨-, hlive, hbps, hle⟩ := fill_price_iff.mp hprice
    exact ⟨hlive, ⟨bps, hbps, hle⟩, hmax, hstake, hpool⟩

theorem Looks.filled_iff (h : Looks config now call looks call') :
    ∀ look ∈ looks, look.filled = true ↔ look.Fillable config now := by
  induction h with
  | done => simp
  | left hnot _ ih => exact List.forall_mem_cons.mpr ⟨by simpa using hnot, ih⟩
  | filled hfillable _ ih => exact List.forall_mem_cons.mpr ⟨by simpa using hfillable, ih⟩

end Prices

section Loop

variable {T : Type} {env : Env} {f f' : Frame Storage T Event} {config : MarketConfig}
  {call call' : Call} {callId : Nat}

/-- What the loop of the matching pass examines, fills and leaves listed, by induction on the ids it
is given. -/
theorem run_matchFrom_looks {budget : Nat} {ids remaining listed : List Nat}
    {changed changed' : Bool}
    (h : run (matchFrom config callId budget ids call remaining changed) env f =
      .ok ((call', listed, changed'), f')) (hnodup : ids.Nodup)
    (hstored : ∀ id ∈ ids, ∃ order, f.store.book.limitOrders.lookup id = some order ∧
      order.callId = callId) :
    ∃ looks, Looks config env.timestamp call looks call' ∧
      looks.map Look.id = ids.take budget ∧
      (∀ look ∈ looks, f.store.book.limitOrders.lookup look.id = some look.order) ∧
      listed = remaining ++ (looks.filter (!·.filled)).map Look.id ++ ids.drop budget ∧
      f'.effects = (looks.filterMap (Look.announced callId)).reverse ++ f.effects := by
  induction ids generalizing budget remaining call changed f with
  | nil =>
    simp only [matchFrom, run_pure, Except.ok.injEq, Prod.mk.injEq] at h
    obtain ⟨⟨rfl, rfl, rfl⟩, rfl⟩ := h
    exact ⟨[], .done, by simp, by simp, by simp, rfl⟩
  | cons orderId rest ih =>
    cases budget with
    | zero =>
      simp only [matchFrom, run_pure, Except.ok.injEq, Prod.mk.injEq] at h
      obtain ⟨⟨rfl, rfl, rfl⟩, rfl⟩ := h
      exact ⟨[], .done, by simp, by simp, by simp, rfl⟩
    | succ budget =>
      simp only [matchFrom] at h
      rw [run_bind] at h
      obtain ⟨⟨call₁, kept⟩, f₁, hone, h⟩ := h
      obtain ⟨order, hlookup, hcall⟩ := hstored orderId (.head _)
      obtain rfl : order.id = orderId := f.store.book.keyed _ _ hlookup
      obtain ⟨hnew, hrest⟩ := List.nodup_cons.mp hnodup
      obtain ⟨rfl, rfl, rfl, order', hlookup', hrefused⟩ | ⟨-, hstale, -⟩ |
        ⟨order', bps, pool', rfl, hid, hlookup', hprice, hstaked, htotals, rfl⟩ :=
        run_matchOrder hone
      · -- The order stays listed.
        obtain rfl := Option.some.inj (hlookup.symm.trans hlookup')
        have hnot : ¬ (⟨call₁, order, false⟩ : Look).Fillable config env.timestamp := by
          rw [fillable_iff hcall]
          rintro ⟨⟨bps, hprice⟩, totals, htotals⟩
          obtain hnone | ⟨e, herror⟩ := hrefused
          · rw [hnone] at hprice
            cases hprice
          · rw [herror] at htotals
            cases htotals
        obtain ⟨looks, hlooks, hids, hfound, hlisted, heffects⟩ :=
          ih h hrest fun id hmem => hstored id (.tail _ hmem)
        refine ⟨⟨call₁, order, false⟩ :: looks, .left hnot hlooks,
          congrArg (order.id :: ·) hids, List.forall_mem_cons.mpr ⟨hlookup, hfound⟩, ?_, heffects⟩
        rw [hlisted]
        simp [Look.id]
      · rw [hlookup] at hstale
        cases hstale
      · rw [hid, hlookup'] at hlookup
        obtain rfl := Option.some.inj hlookup
        have hfillable : (⟨call, order', true⟩ : Look).Fillable config env.timestamp :=
          (fillable_iff hcall).mpr ⟨⟨bps, hprice⟩, htotals⟩
        obtain ⟨-, -, hbps, -⟩ := fill_price_iff.mp hprice
        have hother : ∀ id ∈ rest, (f.store.book.limitOrders.erase order'.id).lookup id =
            f.store.book.limitOrders.lookup id := by
          intro id hmem
          exact AList.lookup_erase_ne fun heq => hnew (heq ▸ hmem)
        obtain ⟨looks, hlooks, hids, hfound, hlisted, heffects⟩ := ih h hrest
          fun id hmem => by
            obtain ⟨next, hnext, hnextCall⟩ := hstored id (.tail _ hmem)
            exact ⟨next, (hother id hmem).trans hnext, hnextCall⟩
        rw [hstaked.entered] at hlooks
        refine ⟨⟨call, order', true⟩ :: looks, .filled hfillable hlooks,
          congrArg (order'.id :: ·) hids, List.forall_mem_cons.mpr ⟨hlookup', ?_⟩, ?_, ?_⟩
        · intro look hlook
          exact Book.lookup_of_erase (b := f.store.book) (hfound look hlook)
        · rw [hlisted]
          simp
        · have hannounced : Look.announced callId ⟨call, order', true⟩ =
              some (filledEvent callId order' bps) := by
            simp [Look.announced, hbps]
          rw [heffects, List.filterMap_cons_some hannounced, List.reverse_cons]
          simp [Frame.matched]

/-- What a matching pass examines, fills and leaves listed. -/
theorem run_matchLimitOrders_looks
    (h : run (matchLimitOrders config call callId) env f = .ok (call', f'))
    (hbook : f.store.book.Consistent) :
    ∃ looks, Looks config env.timestamp call looks call' ∧
      looks.map Look.id =
        (f.store.book.openOrdersByCall callId).take maxOrdersMatchedPerStake ∧
      (∀ look ∈ looks, f.store.book.limitOrders.lookup look.id = some look.order) ∧
      f'.store.book.openOrdersByCall callId = (looks.filter (!·.filled)).map Look.id ++
        (f.store.book.openOrdersByCall callId).drop maxOrdersMatchedPerStake ∧
      f'.effects = (looks.filterMap (Look.announced callId)).reverse ++ f.effects := by
  simp only [matchLimitOrders, run_getStore_bind] at h
  rw [run_bind] at h
  obtain ⟨⟨call₁, listed, changed⟩, f₁, hloop, h⟩ := h
  obtain ⟨looks, hlooks, hids, hfound, hlisted, heffects⟩ :=
    run_matchFrom_looks hloop (hbook.byCall.nodup callId)
      fun id hmem => (hbook.byCall.mem_iff callId id).mp hmem
  obtain ⟨_, m, hfills, rfl, rfl, rfl, hsame⟩ := run_matchFrom hloop
  rw [List.nil_append] at hlisted
  cases changed with
  | true =>
    simp only [if_true, run_steps] at h
    obtain ⟨rfl, rfl⟩ := h
    refine ⟨looks, hlooks, hids, hfound, ?_, heffects⟩
    rw [← hlisted]
    exact Function.update_self ..
  | false =>
    simp only [Bool.false_eq_true, if_false, run_pure, Except.ok.injEq, Prod.mk.injEq] at h
    obtain ⟨rfl, rfl⟩ := h
    obtain ⟨-, hunchanged⟩ := hsame rfl
    refine ⟨looks, hlooks, hids, hfound, ?_, heffects⟩
    rw [← hlisted, hunchanged]
    exact congrFun hfills.openOrdersByCall callId

end Loop

/-- Both indexes list the open orders, and a call's index lists them oldest first. -/
structure Book.Queued (b : Book) : Prop extends b.Consistent where
  increasing : ∀ callId, (b.openOrdersByCall callId).Pairwise (· < ·)

section Queue

variable {env : Env} {op : MarketOp} {s s' : Storage} {effects : List (Effect Event)} {b : Book}
  {order : LimitOrder} {now callId : Nat} {m m' : Matching}

theorem Book.Queued.enter (h : b.Queued) (hid : order.id = b.nextOrderId + 1) :
    ((b.setNextOrderId order.id).enter order).Queued where
  toConsistent := h.toConsistent.enter hid
  increasing callId := by
    show (Function.update b.openOrdersByCall order.callId
      (b.openOrdersByCall order.callId ++ [order.id]) callId).Pairwise (· < ·)
    rw [Function.update_apply]
    split
    · refine List.pairwise_append.mpr ⟨h.increasing _, List.pairwise_singleton _ _, ?_⟩
      intro i hi j hj
      obtain rfl := List.mem_singleton.mp hj
      obtain ⟨stored, hstored, -⟩ := (h.byCall.mem_iff _ _).mp hi
      have := h.issued i stored hstored
      omega
    · exact h.increasing callId

theorem Book.Queued.close (h : b.Queued)
    (hstored : b.limitOrders.lookup order.id = some order) : (b.close order).Queued where
  toConsistent := h.toConsistent.close hstored
  increasing callId := by
    show (Function.update b.openOrdersByCall order.callId
      ((b.openOrdersByCall order.callId).filter (· ≠ order.id)) callId).Pairwise (· < ·)
    rw [Function.update_apply]
    split
    · exact (h.increasing _).sublist List.filter_sublist
    · exact h.increasing callId

theorem Fills.listed_sublist (h : Fills now callId m effects m') : m'.listed.Sublist m.listed := by
  induction h with
  | done => exact .refl _
  | dropped _ _ ih => exact ((List.sublist_cons_self _ _).append_left _).trans ih
  | filled _ _ _ _ ih => exact ((List.sublist_cons_self _ _).append_left _).trans ih

theorem Fills.queued (h : Fills now callId m effects m') (hbook : (m.finalBook callId).Queued) :
    (m'.finalBook callId).Queued where
  toConsistent := h.consistent hbook.toConsistent
  increasing id := by
    have hbefore := hbook.increasing id
    show (Function.update m'.book.openOrdersByCall callId m'.listed id).Pairwise (· < ·)
    change (Function.update m.book.openOrdersByCall callId m.listed id).Pairwise (· < ·) at hbefore
    rw [Function.update_apply] at hbefore ⊢
    split
    · next hid =>
      rw [if_pos hid] at hbefore
      exact hbefore.sublist h.listed_sublist
    · next hid =>
      rw [if_neg hid] at hbefore
      rwa [h.openOrdersByCall]

theorem Transition.queued (h : Transition env op s effects s') (hbook : s.book.Queued) :
    s'.book.Queued := by
  cases h with
  | @staked _ config call staker callId amount position call₁ pool₁ fills m _ _ _ _ _ _ _ hfills =>
    have hstart : (Matching.finalBook ⟨call₁, pool₁.setCall call₁, s.book,
        s.book.openOrdersByCall callId⟩ callId) = s.book :=
      Book.setOpenOrderIdsForCall_self s.book callId
    exact hfills.queued (by rw [hstart]; exact hbook)
  | ordered _ _ _ _ _ _ hid => exact hbook.enter hid
  | orderCancelled _ hstored => exact hbook.close hstored
  | orderRefunded _ hstored => exact hbook.close hstored
  | _ => exact hbook

theorem queued_empty : Storage.empty.book.Queued where
  byCall := .empty
  byUser := .empty
  issued _ _ h := by simp [Storage.empty] at h
  increasing _ := .nil

end Queue

section Runs

variable {P : Type} [Peers P] {self : Address} {outside : P → P → Prop} {history : List Label}
  {w : World P} {guard : System.Guard (World P) Label}

/-- A successful invocation keeps the queue; a rollover does not touch it. -/
theorem queued_of_invocation {env : Env} {op : MarketOp} {f f' : Frame Storage P Event}
    (h : run op.perform env f = .ok ((), f')) (hbook : f.store.book.Queued) :
    f'.store.book.Queued := by
  cases hop : op.isRollover with
  | false =>
    obtain ⟨effects, -, -, htransition⟩ := MarketOp.makes hop h
    exact htransition.queued hbook
  | true =>
    cases op with
    | claimAndRollover user callId rollover =>
      obtain ⟨newCallId, h⟩ := run_ignore.mp h
      obtain ⟨config, call, terms, newMarket, stages, -, hrolled⟩ := claim_and_rollover_rolls h
      rw [hrolled.result]
      exact hbook
    | _ => cases hop

theorem queued_of_run (hrun : (market self outside).RunWhere guard history w) :
    w.store.book.Queued := by
  refine hrun.invariant (I := fun _ w => w.store.book.Queued) ?_ ?_
  · rintro w ⟨hempty, -⟩
    rw [hempty]
    exact queued_empty
  · intro h w l w' _ hbook hstep _
    cases hstep with
    | invoked _ _ _ _ hinvoke => exact queued_of_invocation hinvoke hbook
    | elsewhere => exact hbook

/-- A stake examines the first twenty listed orders, oldest first. Those that can be filled when
they are examined are filled, in that order, and no others; the rest stay listed, with the orders
after the first twenty. -/
theorem limit_orders_filled_in_turn {env : Env} {f : Frame Storage P Event} {staker : Address}
    {callId : Nat} {amount : Int} {position : Nat} {call' : Call} (history : List Label)
    (hrun : (market self outside).Run history w)
    (hstake : run (stakeOnCall staker callId amount position) env w.frame = .ok (call', f)) :
    ∃ config call looks, w.store.config = some config ∧ w.store.pool.call = some call ∧
      f.store.pool.call = some call' ∧
      Looks config env.timestamp (call.withStake position staker
        (valueAt call.outcomeStakes position + amount)
        (valueAt (call.stakesOn position) staker + amount)) looks call' ∧
      looks.map Look.id =
        (w.store.book.openOrdersByCall callId).take maxOrdersMatchedPerStake ∧
      (w.store.book.openOrdersByCall callId).Pairwise (· < ·) ∧
      (∀ look ∈ looks, w.store.book.limitOrders.lookup look.id = some look.order ∧
        (look.filled = true ↔ look.Fillable config env.timestamp)) ∧
      f.store.book.openOrdersByCall callId = (looks.filter (!·.filled)).map Look.id ++
        (w.store.book.openOrdersByCall callId).drop maxOrdersMatchedPerStake ∧
      f.effects = (looks.filterMap (Look.announced callId)).reverse ++
        [.event (.stakeAdded callId staker amount position),
          .transfer call.stakeToken staker env.contract amount] := by
  have hbook := queued_of_run hrun
  obtain ⟨config, call, staked, pool, tokens, f₁, -, -, hconfig, -, -, hcall, -, -, hentered,
    hmatch, rfl⟩ := run_stakeOnCall hstake
  obtain ⟨looks, hlooks, hids, hfound, hlisted, heffects⟩ :=
    run_matchLimitOrders_looks hmatch hbook.toConsistent
  rw [hentered.entered] at hlooks
  exact ⟨config, call, looks, hconfig, hcall, rfl, hlooks, hids, hbook.increasing callId,
    fun look hlook => ⟨hfound look hlook, hlooks.filled_iff look hlook⟩, hlisted, heffects⟩

end Runs

/-- Bob has an order on outcome 1, which costs too much, and a large one on outcome 2. -/
def passedScript : List (Env × MarketOp) :=
  [deployment,
    at_ 2 [alice] (.stakeOnCall alice 1 1000 1),
    at_ 3 [bob] (.createLimitOrder bob 1 1 100 4000 600),
    at_ 4 [bob] (.createLimitOrder bob 1 2 3000 9000 600)]

def passedRun :
    System.Replayed (market home fun _ (_ : StandardLedger) => False) (World.next home)
      System.anything :=
  .of freshWorld fresh_world_initial passedScript (by decide +kernel)

theorem passed_run :
    (market home fun _ (_ : StandardLedger) => False).Run passedRun.history passedRun.state :=
  passedRun.run World.next_step System.anything_allowed

/-- Alice's environment when she stakes on outcome 2. -/
def passingEnv : Env := ⟨home, 5, 5, [alice]⟩

/-- The configuration of the deployed market. -/
def unlimitedConfig : MarketConfig :=
  ⟨1, alice, managerAddress, factoryAddress, 0, 0, 0, false, 3600, 200,
    defaultExpiredOrderRefundBps⟩

/-- The orders that her stake fills, and whether the one on outcome 1 could be filled after it. -/
def afterPass : Option (List Nat × Option Bool) :=
  match run (stakeOnCall alice 1 100 2) passingEnv passedRun.state.frame with
  | .ok (call, f) =>
    some (closedIds f.effects, (f.store.book.limitOrders.lookup 1).map fun order =>
      decide ((⟨call, order, false⟩ : Look).Fillable unlimitedConfig 5))
  | .error _ => none

/-- The fill of the order on outcome 2 lowers the price of outcome 1 to less than Bob's order on it
waits for; that order was passed over before and stays open, though one order was filled. -/
theorem order_left_open_at_its_price :
    (market home fun _ (_ : StandardLedger) => False).Run passedRun.history passedRun.state ∧
      passedRun.state.store.config = some unlimitedConfig ∧
      ∃ call f order,
        run (stakeOnCall alice 1 100 2) passingEnv passedRun.state.frame = .ok (call, f) ∧
        closedIds f.effects = [2] ∧ f.store.book.limitOrders.lookup 1 = some order ∧
        (⟨call, order, false⟩ : Look).Fillable unlimitedConfig 5 := by
  have hafter : afterPass = some ([2], some true) := by decide +kernel
  have hconfig : passedRun.state.store.config = some unlimitedConfig := by decide +kernel
  refine ⟨passed_run, hconfig, ?_⟩
  unfold afterPass at hafter
  split at hafter
  · next call f hstake =>
    obtain ⟨hclosed, horder⟩ := Prod.mk.inj (Option.some.inj hafter)
    obtain ⟨order, hlookup, hfillable⟩ := Option.map_eq_some_iff.mp horder
    exact ⟨call, f, order, hstake, hclosed, hlookup, of_decide_eq_true hfillable⟩
  · cases hafter

/-- Alice's stake examines both orders in turn. -/
theorem orders_filled_in_turn :
    ∃ call f, ∃ looks : List Look,
      run (stakeOnCall alice 1 100 2) passingEnv passedRun.state.frame = .ok (call, f) ∧
      looks.map Look.id = [1, 2] ∧
      ∀ look ∈ looks, look.filled = true ↔ look.Fillable unlimitedConfig 5 := by
  have hafter : afterPass.isSome = true := by decide +kernel
  have hconfigured : passedRun.state.store.config = some unlimitedConfig := by decide +kernel
  have hopen : passedRun.state.store.book.openOrdersByCall 1 = [1, 2] := by decide +kernel
  unfold afterPass at hafter
  split at hafter
  · next call f hstake =>
    obtain ⟨config, _, looks, hconfig, -, -, -, hids, -, hlooks, -⟩ :=
      limit_orders_filled_in_turn passedRun.history passed_run hstake
    obtain rfl := Option.some.inj (hconfigured.symm.trans hconfig)
    refine ⟨call, f, looks, hstake, ?_, fun look hlook => (hlooks look hlook).2⟩
    rw [hids, hopen]
    rfl
  · cases hafter

end Backit.PredictionMarket
