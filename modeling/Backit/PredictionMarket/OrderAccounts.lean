import Backit.PredictionMarket.Solvency

/-!
# Orders and their accounts

## What becomes of a limit order

Every order is announced when it is placed and when it is filled, cancelled or refunded. The
announcements of a run place every order once and close it at most once; an order is open exactly
while it is placed and not closed. Its amount goes to its owner's stake, or back to its owner, less
the reward for whoever refunds it once it has expired.
-/

namespace Backit.PredictionMarket

open Soroban Contract Lib

/-- An order as announced when it is placed. -/
structure Placement where
  orderId : Nat
  user : Address
  outcome : Nat
  amount : Int
  deriving DecidableEq

/-- An order as announced when it leaves the book. -/
inductive Closing where
  | filled (orderId : Nat) (user : Address) (outcome : Nat) (amount : Int)
  | cancelled (orderId : Nat) (user : Address) (refunded : Int)
  | refunded (orderId : Nat) (user : Address) (refunded reward : Int) (caller : Address)
  deriving DecidableEq

def LimitOrder.placement (order : LimitOrder) : Placement :=
  ⟨order.id, order.user, order.outcome, order.amount⟩

def Closing.orderId : Closing → Nat
  | .filled orderId .. => orderId
  | .cancelled orderId .. => orderId
  | .refunded orderId .. => orderId

/-- A closing disposes of a placed order: a fill of the whole amount for the order's owner and
outcome, the whole amount back to its owner, or the amount back less half a percent. -/
def Closing.Settles : Closing → Placement → Prop
  | .filled _ user outcome amount, p => user = p.user ∧ outcome = p.outcome ∧ amount = p.amount
  | .cancelled _ user repaid, p => user = p.user ∧ repaid = p.amount
  | .refunded _ user repaid reward _, p =>
    user = p.user ∧ repaid + reward = p.amount ∧ reward = p.amount * 50 / 10000

/-- The placement that an effect announces. -/
def placed : Effect Event → Option Placement
  | .event (.limitOrderCreated orderId _ user outcome amount _ _) =>
    some ⟨orderId, user, outcome, amount⟩
  | _ => none

/-- The closing that an effect announces. -/
def closed : Effect Event → Option Closing
  | .event (.limitOrderFilled orderId _ user outcome amount _) =>
    some (.filled orderId user outcome amount)
  | .event (.limitOrderCancelled orderId _ user refunded) => some (.cancelled orderId user refunded)
  | .event (.limitOrderExpiredRefunded orderId _ user refunded reward caller) =>
    some (.refunded orderId user refunded reward caller)
  | _ => none

/-- The placements and the closings among effects, and the ids of their orders. -/
def placements (effects : List (Effect Event)) : List Placement := effects.filterMap placed

def closings (effects : List (Effect Event)) : List Closing := effects.filterMap closed

def placedIds (effects : List (Effect Event)) : List Nat :=
  (placements effects).map Placement.orderId

def closedIds (effects : List (Effect Event)) : List Nat := (closings effects).map Closing.orderId

/-- The orders of a book as the announcements tell: placed once, closed at most once, open in
between, and settled in full. -/
structure Fates (effects : List (Effect Event)) (b : Book) : Prop where
  placedOnce : (placedIds effects).Nodup
  closedOnce : (closedIds effects).Nodup
  open_iff : ∀ id, (b.limitOrders.lookup id).isSome = true ↔
    id ∈ placedIds effects ∧ id ∉ closedIds effects
  settled : ∀ c ∈ closings effects, ∃ p ∈ placements effects, p.orderId = c.orderId ∧ c.Settles p
  openPlaced : ∀ id order, b.limitOrders.lookup id = some order →
    order.placement ∈ placements effects
  issued : ∀ id ∈ placedIds effects, id ≤ b.nextOrderId

namespace Fates

variable {effects : List (Effect Event)} {b b' : Book} {e : Effect Event} {order : LimitOrder}

theorem empty : Fates [] Storage.empty.book where
  placedOnce := .nil
  closedOnce := .nil
  open_iff := by simp [Storage.empty, placedIds, placements]
  settled := by simp [closings]
  openPlaced := by simp [Storage.empty]
  issued := by simp [placedIds, placements]

theorem quiet (h : Fates effects b) (hplaced : placed e = none) (hclosed : closed e = none) :
    Fates (e :: effects) b := by
  have hplacements : placements (e :: effects) = placements effects :=
    List.filterMap_cons_none hplaced
  have hclosings : closings (e :: effects) = closings effects := List.filterMap_cons_none hclosed
  constructor <;> simp only [placedIds, closedIds, hplacements, hclosings]
  exacts [h.placedOnce, h.closedOnce, h.open_iff, h.settled, h.openPlaced, h.issued]

theorem place (h : Fates effects b) (hplaced : placed e = some order.placement)
    (hclosed : closed e = none) (hid : order.id = b.nextOrderId + 1) :
    Fates (e :: effects) ((b.setNextOrderId order.id).enter order) := by
  have hplacements : placements (e :: effects) = order.placement :: placements effects :=
    List.filterMap_cons_some hplaced
  have hclosings : closings (e :: effects) = closings effects := List.filterMap_cons_none hclosed
  have hnew : order.id ∉ placedIds effects := fun hmem => by
    have := h.issued order.id hmem
    omega
  have hunclosed : order.id ∉ closedIds effects := fun hmem => by
    obtain ⟨c, hc, heq⟩ := List.mem_map.mp hmem
    obtain ⟨p, hp, hsame, -⟩ := h.settled c hc
    exact hnew (List.mem_map.mpr ⟨p, hp, hsame.trans heq⟩)
  have hids : placedIds (e :: effects) = order.id :: placedIds effects := by
    simp [placedIds, hplacements, LimitOrder.placement]
  have hclosedIds : closedIds (e :: effects) = closedIds effects := by simp [closedIds, hclosings]
  refine ⟨?_, ?_, fun id => ?_, ?_, ?_, ?_⟩
  · rw [hids]
    exact List.nodup_cons.mpr ⟨hnew, h.placedOnce⟩
  · rw [hclosedIds]
    exact h.closedOnce
  · rw [hids, hclosedIds, List.mem_cons]
    show ((b.limitOrders.insert order.id order).lookup id).isSome = true ↔ _
    by_cases heq : id = order.id
    · subst heq
      simp [hunclosed]
    · rw [AList.lookup_insert_ne heq, h.open_iff]
      simp [heq]
  · rw [hclosings, hplacements]
    intro c hc
    obtain ⟨p, hp, hsettles⟩ := h.settled c hc
    exact ⟨p, .tail _ hp, hsettles⟩
  · rw [hplacements]
    exact fun id stored hstored => Book.forall_enter
      (Q := fun stored => stored.placement ∈ order.placement :: placements effects)
      (fun id stored hold => .tail _ (h.openPlaced id stored hold)) (.head _) id stored hstored
  · rw [hids]
    show ∀ id ∈ order.id :: placedIds effects, id ≤ order.id
    intro id hmem
    rcases List.mem_cons.mp hmem with rfl | hmem
    · exact le_rfl
    · have := h.issued id hmem
      omega

theorem close (h : Fates effects b) {c : Closing} (hplaced : placed e = none)
    (hclosed : closed e = some c) (hid : c.orderId = order.id)
    (hstored : b.limitOrders.lookup order.id = some order) (hsettles : c.Settles order.placement)
    (horders : b'.limitOrders = b.limitOrders.erase order.id)
    (hissued : b'.nextOrderId = b.nextOrderId) : Fates (e :: effects) b' := by
  have hplacements : placements (e :: effects) = placements effects :=
    List.filterMap_cons_none hplaced
  have hclosings : closings (e :: effects) = c :: closings effects :=
    List.filterMap_cons_some hclosed
  have hids : placedIds (e :: effects) = placedIds effects := by simp [placedIds, hplacements]
  have hclosedIds : closedIds (e :: effects) = order.id :: closedIds effects := by
    simp [closedIds, hclosings, hid]
  have hopen := (h.open_iff order.id).mp (by simp [hstored])
  refine ⟨?_, ?_, fun id => ?_, ?_, ?_, ?_⟩
  · rw [hids]
    exact h.placedOnce
  · rw [hclosedIds]
    exact List.nodup_cons.mpr ⟨hopen.2, h.closedOnce⟩
  · rw [hids, hclosedIds, List.mem_cons, horders]
    by_cases heq : id = order.id
    · subst heq
      simp
    · rw [AList.lookup_erase_ne heq, h.open_iff]
      simp [heq]
  · rw [hclosings, hplacements]
    intro c' hc'
    rcases List.mem_cons.mp hc' with rfl | hc'
    · exact ⟨order.placement, h.openPlaced _ _ hstored, hid.symm, hsettles⟩
    · exact h.settled c' hc'
  · rw [hplacements, horders]
    exact fun id stored hid => h.openPlaced id stored (Book.lookup_of_erase hid)
  · rw [hids, hissued]
    exact h.issued

/-- The filled orders of a matching pass are closed in full. -/
theorem fills {now callId : Nat} {m m' : Matching} {later : List (Effect Event)}
    (h : Fates effects m.book) (hfills : Fills now callId m later m') :
    Fates (later ++ effects) m'.book := by
  induction hfills with
  | done => exact h
  | dropped _ _ ih => exact ih
  | filled _ hstored _ _ ih => exact ih.close rfl rfl rfl hstored ⟨rfl, rfl, rfl⟩ rfl rfl

theorem congr (h : Fates effects b) (horders : b'.limitOrders = b.limitOrders)
    (hissued : b'.nextOrderId = b.nextOrderId) : Fates effects b' := by
  refine ⟨h.placedOnce, h.closedOnce, ?_, h.settled, ?_, ?_⟩
  · rw [horders]
    exact h.open_iff
  · rw [horders]
    exact h.openPlaced
  · rw [hissued]
    exact h.issued

theorem paidOut (h : Fates effects b) (env : Env) (token recipient : Address) (amount : Int) :
    Fates (payOutEffects env token recipient amount ++ effects) b := by
  unfold payOutEffects
  split
  · exact h.quiet rfl rfl
  · exact h

end Fates

section Transitions

variable {self : Address} {P : Type} [Peers P] {s s' : Storage} {p : P} {env : Env}
  {op : MarketOp} {effects announced : List (Effect Event)}

/-- Every transition keeps the announcements in step with the book. -/
theorem Transition.fates (h : Transition env op s effects s') (hs : Sound self s p)
    (hfates : Fates announced s.book) : Fates (effects ++ announced) s'.book := by
  cases h with
  | constructed => exact (hfates.quiet rfl rfl).quiet rfl rfl
  | resolved => exact hfates.quiet rfl rfl
  | settled => exact hfates
  | released => exact hfates.quiet rfl rfl
  | parentSet => exact hfates
  | chainStored => exact hfates
  | ordered _ _ _ _ _ _ hid => exact (hfates.quiet rfl rfl).place rfl rfl hid
  | orderCancelled _ hstored =>
    exact (hfates.quiet rfl rfl).close rfl rfl rfl hstored ⟨rfl, rfl⟩ rfl rfl
  | @orderRefunded _ config call caller order reward refundToUser _ hstored _ hconfig _ hparts =>
    obtain ⟨hreward, hrest, -, -⟩ := refund_parts_ok (hs.reward config hconfig)
      (hs.orders _ _ hstored).1 hparts
    rw [List.cons_append, List.append_assoc]
    refine ((hfates.paidOut env call.stakeToken caller reward).paidOut env call.stakeToken
      order.user refundToUser).close rfl rfl rfl hstored ⟨rfl, ?_, hreward⟩ rfl rfl
    rw [hrest]
    exact sub_add_cancel _ _
  | @staked _ config call staker callId amount position call₁ pool₁ fills m _ _ _ _ _ _ _
      hfills =>
    have htaken : Fates (.event (.stakeAdded callId staker amount position) ::
        .transfer call.stakeToken staker env.contract amount :: announced) s.book :=
      (hfates.quiet rfl rfl).quiet rfl rfl
    rw [List.append_assoc]
    exact (Fates.fills (m := ⟨call₁, pool₁.setCall call₁, s.book,
      s.book.openOrdersByCall callId⟩) htaken hfills).congr rfl rfl

end Transitions

/-!
## Accounts of a market

The recorded stakes are what was staked and what orders were filled with, and the market pays out
exactly what cancellations and refunds announce. With the fate of every order and the balance of
the escrow this is the law of the runs before any release.
-/

/-- What an effect adds to a user's stake on a position. -/
def stakedTo (user : Address) (position : Nat) : Effect Event → Int :=
  Effect.onEvent fun
    | .stakeAdded _ staker amount on => if staker = user ∧ on = position then amount else 0
    | .limitOrderFilled _ _ owner outcome amount _ =>
      if owner = user ∧ outcome = position then amount else 0
    | _ => 0

/-- The call's entries are the recorded stakes. -/
def Agrees (call : Call) (pool : Pool) : Prop :=
  ∀ user position, valueAt (call.stakesOn position) user = pool.userStake (user, position)

/-- The recorded stakes are what was staked and what orders were filled with. -/
structure Credited (effects : List (Effect Event)) (pool : Pool) : Prop where
  userStake : ∀ user position,
    pool.userStake (user, position) = effectTotal (stakedTo user position) effects
  entries : ∀ call, pool.call = some call → Agrees call pool

theorem stakes_on_withStake (call : Call) (position other : Nat) (staker : Address)
    (pool stake : Int) : (call.withStake position staker pool stake).stakesOn other =
      if other = position then (call.stakesOn position).insert staker stake
      else call.stakesOn other := by
  unfold Call.withStake Call.stakesOn
  by_cases h : other = position
  · subst h
    simp
  · simp [AList.lookup_insert_ne h, h]

/-- A stake adds its amount to the staker's entry, in the call and in the records. -/
theorem Staked.credits {call call' : Call} {pool pool' : Pool} {staker : Address} {amount : Int}
    {position : Nat} (h : Staked call pool staker amount position call' pool')
    (hagrees : Agrees call pool) : Agrees call' pool' ∧ ∀ user on, pool'.userStake (user, on) =
      pool.userStake (user, on) + if staker = user ∧ position = on then amount else 0 := by
  have hentry := hagrees staker position
  constructor
  · intro user on
    rw [h.entered, h.userStake, stakes_on_withStake]
    by_cases hon : on = position
    · subst hon
      rw [if_pos rfl, valueAt_insert]
      by_cases huser : user = staker
      · subst huser
        simp
      · rw [if_neg huser, Function.update_of_ne (by simp [huser])]
        exact hagrees user on
    · rw [if_neg hon, Function.update_of_ne (by simp [hon])]
      exact hagrees user on
  · intro user on
    rw [h.userStake]
    by_cases hkey : (user, on) = (staker, position)
    · obtain ⟨rfl, rfl⟩ := Prod.mk.inj hkey
      rw [Function.update_self, hentry]
      simp
    · rw [Function.update_of_ne hkey, if_neg, add_zero]
      rintro ⟨rfl, rfl⟩
      exact hkey rfl

theorem Fills.credits {now callId : Nat} {m m' : Matching} {later : List (Effect Event)}
    (h : Fills now callId m later m') (hagrees : Agrees m.call m.pool) :
    Agrees m'.call m'.pool ∧ ∀ user on, m'.pool.userStake (user, on) =
      m.pool.userStake (user, on) + effectTotal (stakedTo user on) later := by
  induction h with
  | done => exact ⟨hagrees, fun user on => (add_zero _).symm⟩
  | dropped _ _ ih => exact ih
  | filled _ _ _ hstaked ih =>
    obtain ⟨hagrees', hsum⟩ := ih
    obtain ⟨hagrees'', hadded⟩ := hstaked.credits hagrees'
    refine ⟨hagrees'', fun user on => ?_⟩
    rw [hadded, hsum, effectTotal_cons]
    simp only [stakedTo, filledEvent, Effect.onEvent]
    omega

/-- What an effect announces as repaid to an address. -/
def returned (who : Address) : Effect Event → Int :=
  Effect.onEvent fun
    | .limitOrderCancelled _ _ user repaid => if user = who then repaid else 0
    | .limitOrderExpiredRefunded _ _ user repaid reward caller =>
      (if user = who then repaid else 0) + if caller = who then reward else 0
    | _ => 0

/-- The recorded stakes and the payments of a market, as its effects tell. -/
structure Accounts (address : Address) (effects : List (Effect Event)) (s : Storage) : Prop where
  undeployed : s.config = none → effects = []
  credited : Credited effects s.pool
  paid : ∀ call, s.pool.call = some call → ∀ who,
    effectTotal (Effect.paidFrom call.stakeToken address who) effects =
      effectTotal (returned who) effects

section Accounts

variable {self : Address} {P : Type} [Peers P] {s s' : Storage} {p : P} {env : Env}
  {op : MarketOp} {effects announced : List (Effect Event)}

theorem value_forPositions (n position : Nat) (user : Address) :
    valueAt (((forPositions n (∅ : Map Address Int)).lookup position).getD ∅) user = 0 := by
  suffices h : ∀ (positions : List Nat) (m : Map Nat (Map Address Int)),
      valueAt ((m.lookup position).getD ∅) user = 0 →
      valueAt (((positions.foldl (fun m i => m.insert (i + 1) ∅) m).lookup position).getD ∅)
        user = 0 from
    h _ ∅ (by simp)
  intro positions
  induction positions with
  | nil => exact fun _ hm => hm
  | cons i rest ih =>
    intro m hm
    refine ih _ ?_
    by_cases heq : position = i + 1
    · subst heq
      simp
    · rwa [AList.lookup_insert_ne heq]

theorem Accounts.empty (address : Address) : Accounts address [] Storage.empty where
  undeployed _ := rfl
  credited := ⟨fun _ _ => rfl, fun _ h => by cases h⟩
  paid _ h := by cases h

/-- Effects without stakes and a call with the same stakes keep the credits. -/
theorem Credited.kept {pool pool' : Pool} (h : Credited announced pool)
    (hcall : ∀ call', pool'.call = some call' → ∃ call, pool.call = some call ∧
      call'.stakes = call.stakes) (huser : pool'.userStake = pool.userStake)
    (hquiet : ∀ user position, effectTotal (stakedTo user position) effects = 0) :
    Credited (effects ++ announced) pool' where
  userStake user position := by
    rw [huser, effectTotal_append, hquiet, zero_add]
    exact h.userStake user position
  entries call' hsome user position := by
    obtain ⟨call, hold, hstakes⟩ := hcall call' hsome
    rw [huser, Call.stakesOn, hstakes]
    exact h.entries call hold user position

/-- Payments of announced amounts from a market whose token stays the same. -/
theorem Accounts.extend (h : Accounts self announced s) (hdeployed : s'.config ≠ none)
    (hcredited : Credited (effects ++ announced) s'.pool)
    (htoken : ∀ call', s'.pool.call = some call' → ∃ call, s.pool.call = some call ∧
      call'.stakeToken = call.stakeToken)
    (hpaid : ∀ call, s.pool.call = some call → ∀ who,
      effectTotal (Effect.paidFrom call.stakeToken self who) effects =
        effectTotal (returned who) effects) : Accounts self (effects ++ announced) s' where
  undeployed hnone := absurd hnone hdeployed
  credited := hcredited
  paid call' hsome who := by
    obtain ⟨call, hold, htoken⟩ := htoken call' hsome
    rw [htoken, effectTotal_append, effectTotal_append, hpaid call hold, h.paid call hold]

theorem Fills.unpaid {now callId : Nat} {m m' : Matching} {later : List (Effect Event)}
    (h : Fills now callId m later m') (token sender who : Address) :
    effectTotal (Effect.paidFrom token sender who) later = 0 ∧
      effectTotal (returned who) later = 0 := by
  induction h with
  | done => exact ⟨rfl, rfl⟩
  | dropped _ _ ih => exact ih
  | filled _ _ _ _ ih =>
    rw [effectTotal_cons, effectTotal_cons, ih.1, ih.2]
    exact ⟨rfl, rfl⟩

theorem total_payOut (env : Env) (token who recipient : Address) {amount : Int}
    (hnonneg : 0 ≤ amount) : effectTotal (Effect.paidFrom token env.contract who)
      (payOutEffects env token recipient amount) = if recipient = who then amount else 0 := by
  unfold payOutEffects
  split
  · simp [Effect.paidFrom]
  · obtain rfl : amount = 0 := by omega
    simp

theorem total_payOut_events (quantity : Event → Int) (env : Env) (token recipient : Address)
    (amount : Int) :
    effectTotal (Effect.onEvent quantity) (payOutEffects env token recipient amount) = 0 := by
  unfold payOutEffects
  split <;> simp [Effect.onEvent]

/-- Every transition that keeps the escrow is accounted for. -/
theorem Transition.accounts (h : Transition env op s effects s') (hself : env.contract = self)
    (hauths : self ∉ env.auths) (hop : op.keepsEscrow = true) (hs : Sound self s p)
    (haccounts : Accounts self announced s) :
    Accounts self (effects ++ announced) s' := by
  subst hself
  have hcredited := haccounts.credited
  cases h with
  | released => cases hop
  | constructed hnone =>
    obtain ⟨rfl, -⟩ := hs.undeployed hnone
    obtain rfl := haccounts.undeployed hnone
    refine ⟨by simp [Storage.setCall, Storage.setConfig, Storage.onPool], ⟨fun _ _ => rfl, ?_⟩,
      fun _ _ _ => rfl⟩
    rintro _ ⟨⟩
    exact fun user position => value_forPositions _ _ _
  | resolved hconfig _ _ hcall =>
    refine haccounts.extend ?_ (hcredited.kept ?_ rfl fun _ _ => rfl) ?_ fun _ _ _ => rfl
    · exact fun hnone => absurd (hconfig.symm.trans hnone) (by simp)
    all_goals
      rintro _ ⟨⟩
      exact ⟨_, hcall, rfl⟩
  | settled hconfig _ _ hcall =>
    refine haccounts.extend ?_ (hcredited.kept ?_ rfl fun _ _ => rfl) ?_ fun _ _ _ => rfl
    · exact fun hnone => absurd (hconfig.symm.trans hnone) (by simp)
    all_goals
      rintro _ ⟨⟩
      exact ⟨_, hcall, rfl⟩
  | parentSet hconfig _ hcall =>
    refine haccounts.extend ?_ (hcredited.kept ?_ rfl fun _ _ => rfl) ?_ fun _ _ _ => rfl
    · exact fun hnone => absurd (hconfig.symm.trans hnone) (by simp)
    all_goals
      rintro _ ⟨⟩
      exact ⟨_, hcall, rfl⟩
  | chainStored hconfig =>
    refine haccounts.extend ?_ (hcredited.kept ?_ rfl fun _ _ => rfl) ?_ fun _ _ _ => rfl
    · exact fun hnone => absurd (hconfig.symm.trans hnone) (by simp)
    all_goals exact fun call hcall => ⟨call, hcall, rfl⟩
  | @ordered _ config call order ttlSecs hauth hconfig =>
    have hforeign : order.user ≠ env.contract := fun heq => hauths (heq ▸ hauth)
    refine haccounts.extend ?_ (hcredited.kept ?_ rfl fun _ _ => rfl) ?_ fun _ _ who => ?_
    · exact fun hnone => absurd (hconfig.symm.trans hnone) (by simp)
    · exact fun call hcall => ⟨call, hcall, rfl⟩
    · exact fun call hcall => ⟨call, hcall, rfl⟩
    · simp [Effect.paidFrom, returned, Effect.onEvent, hforeign]
  | @orderCancelled _ call order _ hstored hcall =>
    refine haccounts.extend ?_ (hcredited.kept ?_ rfl fun _ _ => rfl) ?_
      fun call' hcall' who => ?_
    · intro hnone
      obtain ⟨rfl, -⟩ := hs.undeployed hnone
      cases hcall
    · exact fun call hcall => ⟨call, hcall, rfl⟩
    · exact fun call hcall => ⟨call, hcall, rfl⟩
    · obtain rfl : call = call' := Option.some.inj (hcall.symm.trans hcall')
      simp [Effect.paidFrom, returned, Effect.onEvent]
  | @orderRefunded _ config call caller order reward refundToUser _ hstored _ hconfig hcall
      hparts =>
    obtain ⟨-, -, hreward, hrefund⟩ := refund_parts_ok (hs.reward config hconfig)
      (hs.orders _ _ hstored).1 hparts
    refine haccounts.extend ?_ (hcredited.kept ?_ rfl fun user position => ?_) ?_
      fun call' hcall' who => ?_
    · exact fun hnone => absurd (hconfig.symm.trans hnone) (by simp)
    · exact fun call hcall => ⟨call, hcall, rfl⟩
    · rw [effectTotal_cons, effectTotal_append, stakedTo, total_payOut_events, total_payOut_events]
      rfl
    · exact fun call hcall => ⟨call, hcall, rfl⟩
    · obtain rfl : call = call' := Option.some.inj (hcall.symm.trans hcall')
      rw [effectTotal_cons, effectTotal_cons, effectTotal_append, effectTotal_append,
        total_payOut _ _ _ _ hrefund, total_payOut _ _ _ _ hreward, returned,
        total_payOut_events, total_payOut_events]
      simp [Effect.paidFrom, Effect.onEvent]
  | @staked _ config call staker callId amount position call₁ pool₁ fills m hauth hconfig _ _
      hcall _ hstaked hfills =>
    have hforeign : staker ≠ env.contract := fun heq => hauths (heq ▸ hauth)
    obtain ⟨hagrees, hadded⟩ := hstaked.credits (hcredited.entries call hcall)
    obtain ⟨hagrees', hfilled⟩ := hfills.credits hagrees
    obtain ⟨htoken, -⟩ := hstaked.total_pools
    obtain ⟨htoken', -⟩ := hfills.escrow
    refine haccounts.extend ?_ ⟨fun user on => ?_, ?_⟩ ?_ fun call' _ who => ?_
    · exact fun hnone => absurd (hconfig.symm.trans hnone) (by simp)
    · have hstart := hcredited.userStake user on
      have hfirst := hadded user on
      have hrest := hfilled user on
      rw [effectTotal_append, effectTotal_append, effectTotal_cons, effectTotal_cons,
        effectTotal_nil]
      show m.pool.userStake (user, on) = _
      rw [hrest]
      simp only [Pool.setCall, stakedTo, Effect.onEvent] at hfirst hstart ⊢
      omega
    · rintro _ ⟨⟩
      exact hagrees'
    · rintro _ ⟨⟩
      exact ⟨call, hcall, htoken'.trans htoken⟩
    · obtain ⟨hpaid, hreturned⟩ := hfills.unpaid call'.stakeToken env.contract who
      rw [effectTotal_append, effectTotal_append, hpaid, hreturned]
      simp [Effect.paidFrom, returned, Effect.onEvent, hforeign]

end Accounts

/-- The effects of a run, most recent first. -/
def announcedBy (history : List Label) : List (Effect Event) := history.flatMap Label.effects

/-- The law of a market before any release of escrow: its balance is the stakes and the open
orders, both indexes list exactly the open orders, every order is placed once and closed at most
once, and what closings announce is credited or paid. -/
structure EscrowLaw {P : Type} [Peers P] (address : Address) (history : List Label)
    (w : World P) : Prop where
  balanced : Balanced address w.store w.peers
  indexed : w.store.book.Consistent
  fates : Fates (announcedBy history) w.store.book
  accounts : Accounts address (announcedBy history) w.store

section Runs

variable {P : Type} [Peers P] {self : Address} {outside : P → P → Prop}

/-- What happens elsewhere without touching the market's balances keeps the invariant. -/
theorem Sound.elsewhere {s : Storage} {p p' : P} (h : Sound self s p)
    (hbalances : ∀ token, Tokens.balance p' token self = Tokens.balance p token self) :
    Sound self s p' where
  undeployed hnone := by
    obtain ⟨hempty, hzero⟩ := h.undeployed hnone
    exact ⟨hempty, fun token => (hbalances token).trans (hzero token)⟩
  reward := h.reward
  book := h.book
  orders := h.orders
  balanced call hcall := by
    rw [hbalances]
    exact h.balanced call hcall

/-- Before any release of escrow the market is solvent and every order is accounted for. -/
theorem escrow_and_orders (hexact : ExactTransfers P) (huntouched : Untouched self outside)
    {history : List Label} {w : World P}
    (run : (market self outside).RunWhere escrowKept history w) : EscrowLaw self history w := by
  suffices h : Sound self w.store w.peers ∧ Fates (announcedBy history) w.store.book ∧
      Accounts self (announcedBy history) w.store from
    ⟨h.1.balanced, h.1.book, h.2.1, h.2.2⟩
  refine run.invariant (I := fun history w => Sound self w.store w.peers ∧
    Fates (announcedBy history) w.store.book ∧ Accounts self (announcedBy history) w.store) ?_ ?_
  · rintro w ⟨hempty, hzero⟩
    rw [hempty]
    exact ⟨sound_empty hzero, .empty, .empty self⟩
  · rintro history w l w' - ⟨hs, hfates, haccounts⟩ hstep hkept
    rcases hstep.cases with ⟨r, rfl, hself, hauths, hmade⟩ | ⟨rfl, hstore, hout⟩
    · have hkept : r.op.keepsEscrow = true := hkept
      rcases hmade with hrollover | ⟨hreplay, htransition⟩
      · cases hop : r.op <;> rw [hop] at hrollover hkept <;> cases hrollover
        cases hkept
      · exact ⟨htransition.sound hexact hself hauths hkept hreplay hs,
          htransition.fates hs hfates, htransition.accounts hself hauths hkept hs haccounts⟩
    · rw [hstore]
      exact ⟨hs.elsewhere (huntouched _ _ hout), hfates, haccounts⟩

end Runs

theorem fresh_world_initial :
    (market home fun _ (_ : StandardLedger) => False).initial freshWorld :=
  ⟨rfl, fun token => by
    simp only [freshWorld, StandardLedger.ofHoldings, Tokens.balance]
    split <;> rfl⟩

/-- Alice's order waits for even odds, and Bob's second stake fills it. -/
def fillScript : List (Env × MarketOp) :=
  [deployment,
    at_ 2 [bob] (.stakeOnCall bob 1 1000 1),
    at_ 3 [alice] (.createLimitOrder alice 1 1 700 5000 600),
    at_ 4 [bob] (.stakeOnCall bob 1 1000 2)]

/-- Alice's order of a thousand expires, and Carol refunds it. -/
def expiryScript : List (Env × MarketOp) :=
  [deployment,
    at_ 2 [alice] (.createLimitOrder alice 1 1 1000 5000 600),
    at_ 700 [carol] (.refundExpiredOrder carol 1)]

def escrowKeptStep : List Label → World StandardLedger → Label → Bool := fun _ _ l => l.keepsEscrow

theorem escrow_kept_step (h : List Label) (w : World StandardLedger) (l : Label)
    (hkept : escrowKeptStep h w l = true) : escrowKept h w l := hkept

def fillRun :
    System.Replayed (market home fun _ (_ : StandardLedger) => False) (World.next home)
      escrowKeptStep :=
  .of freshWorld fresh_world_initial fillScript (by decide +kernel)

def expiryRun :
    System.Replayed (market home fun _ (_ : StandardLedger) => False) (World.next home)
      escrowKeptStep :=
  .of freshWorld fresh_world_initial expiryScript (by decide +kernel)

theorem untouched_nowhere : Untouched home fun _ (_ : StandardLedger) => False :=
  fun _ _ hout => hout.elim

/-- The order of seven hundred is filled and its owner's stake is what it held. -/
theorem escrow_and_orders_filled : EscrowLaw home fillRun.history fillRun.state ∧
      closings (announcedBy fillRun.history) = [.filled 1 alice 1 700] ∧
      fillRun.state.store.pool.userStake (alice, 1) = 700 :=
  ⟨escrow_and_orders StandardLedger.exact_transfers untouched_nowhere
    (fillRun.run World.next_step escrow_kept_step), by decide +kernel, by decide +kernel⟩

/-- Whoever refunds an expired order keeps a part of it. -/
theorem refund_pays_its_caller : ∃ history w,
    (market home fun _ (_ : StandardLedger) => False).RunWhere escrowKept history w ∧
      placements (announcedBy history) = [⟨1, alice, 1, 1000⟩] ∧
      closings (announcedBy history) = [.refunded 1 alice 995 5 carol] ∧
      Tokens.balance w.peers usdc alice = some 4995 ∧
      Tokens.balance w.peers usdc carol = some 5 :=
  ⟨expiryRun.history, expiryRun.state, expiryRun.run World.next_step escrow_kept_step,
    by decide +kernel, by decide +kernel, by decide +kernel, by decide +kernel⟩

end Backit.PredictionMarket
