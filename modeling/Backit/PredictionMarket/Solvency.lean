import Backit.Lib.SecondaryIndex
import Backit.PredictionMarket.Executions

/-!
# Orders and solvency

## The book of limit orders

The two indexes of the book list every open order exactly once, whatever the matching loop, the
cancellations and the refunds do in between. The invariant of the whole book is carried by every
transition; the rule `escrow_invariant` reduces a property of the runs without releases and
rollovers to the transitions.
-/

namespace Backit.PredictionMarket

open Soroban Contract Lib

namespace Book

/-- What the open orders hold. -/
def escrowed (b : Book) : Int := sumRows LimitOrder.amount b.limitOrders

/-- Both indexes list exactly the open orders, and every open order has been issued. -/
structure Consistent (b : Book) : Prop where
  byCall : Indexes LimitOrder.callId b.limitOrders b.openOrdersByCall
  byUser : Indexes LimitOrder.user b.limitOrders b.userOrderIds
  issued : ∀ id order, b.limitOrders.lookup id = some order → id ≤ b.nextOrderId

variable {b : Book} {order : LimitOrder}

theorem Consistent.unissued (h : b.Consistent) {id : Nat} (hid : b.nextOrderId < id) :
    b.limitOrders.lookup id = none := by
  cases hlookup : b.limitOrders.lookup id with
  | none => rfl
  | some order => exact absurd (h.issued id order hlookup) (by omega)

theorem Consistent.enter (h : b.Consistent) (hid : order.id = b.nextOrderId + 1) :
    ((b.setNextOrderId order.id).enter order).Consistent := by
  have hfresh : b.limitOrders.lookup order.id = none := h.unissued (by omega)
  refine ⟨h.byCall.insert hfresh, h.byUser.insert hfresh, fun id stored hstored => ?_⟩
  show id ≤ order.id
  by_cases heq : id = order.id
  · exact heq.le
  · have hstored : (b.limitOrders.insert order.id order).lookup id = some stored := hstored
    rw [AList.lookup_insert_ne heq] at hstored
    have := h.issued id stored hstored
    omega

theorem lookup_of_erase {id id' : Nat} {stored : LimitOrder}
    (h : (b.limitOrders.erase id).lookup id' = some stored) :
    b.limitOrders.lookup id' = some stored := by
  by_cases heq : id' = id
  · subst heq
    simp at h
  · rwa [AList.lookup_erase_ne heq] at h

theorem Consistent.close (h : b.Consistent) (hstored : b.limitOrders.lookup order.id = some order) :
    (b.close order).Consistent := by
  refine ⟨h.byCall.erase hstored, h.byUser.erase hstored, fun id stored hid => ?_⟩
  exact h.issued id stored (lookup_of_erase hid)

/-- What holds of the open orders and of a new one holds after it is entered. -/
theorem forall_enter {Q : LimitOrder → Prop} {id : Nat}
    (hQ : ∀ id stored, b.limitOrders.lookup id = some stored → Q stored) (hnew : Q order)
    (id' : Nat) (stored : LimitOrder)
    (hstored : ((b.setNextOrderId id).enter order).limitOrders.lookup id' = some stored) :
    Q stored := by
  have hstored : (b.limitOrders.insert order.id order).lookup id' = some stored := hstored
  by_cases heq : id' = order.id
  · subst heq
    rw [AList.lookup_insert, Option.some.injEq] at hstored
    exact hstored ▸ hnew
  · rw [AList.lookup_insert_ne heq] at hstored
    exact hQ id' stored hstored

theorem escrowed_enter (h : b.Consistent) (hid : order.id = b.nextOrderId + 1) :
    ((b.setNextOrderId order.id).enter order).escrowed = b.escrowed + order.amount :=
  sumRows_insert LimitOrder.amount (h.unissued (by omega))

theorem escrowed_close (hstored : b.limitOrders.lookup order.id = some order) :
    (b.close order).escrowed = b.escrowed - order.amount :=
  sumRows_erase LimitOrder.amount hstored

end Book

theorem fill_price_call {call : Call} {callId now : Nat} {order : LimitOrder} {impliedBps : Int}
    (h : fillPrice call callId now order = some impliedBps) :
    order.callId = callId ∧ now < order.expiresAt := by
  unfold fillPrice at h
  split at h
  · cases h
  · next hlive => exact ⟨by tauto, by omega⟩

/-- The book as it will be once the loop has written what it leaves listed. -/
def Matching.finalBook (m : Matching) (callId : Nat) : Book :=
  m.book.setOpenOrderIdsForCall callId m.listed

theorem mem_without_middle {before rest : List Nat} {id : Nat}
    (hnodup : (before ++ id :: rest).Nodup) (j : Nat) :
    j ∈ before ++ rest ↔ j ∈ before ++ id :: rest ∧ j ≠ id := by
  have hother : id ∉ before ++ rest := (List.nodup_middle.mp hnodup).notMem
  constructor
  · intro hj
    refine ⟨?_, fun heq => hother (heq ▸ hj)⟩
    simp only [List.mem_append, List.mem_cons] at hj ⊢
    tauto
  · rintro ⟨hj, hne⟩
    simp only [List.mem_append, List.mem_cons] at hj ⊢
    tauto

section Fills

variable {now callId : Nat} {m m' : Matching} {effects : List (Effect Event)}

/-- The loop keeps the book consistent; it never finds a stale id. -/
theorem Fills.consistent (h : Fills now callId m effects m')
    (hbook : (m.finalBook callId).Consistent) : (m'.finalBook callId).Consistent := by
  induction h with
  | done => exact hbook
  | @dropped effects call pool book before orderId rest _ hstale ih =>
    have hlisted : orderId ∈ (Function.update book.openOrdersByCall callId
        (before ++ orderId :: rest)) callId := by simp
    obtain ⟨order, hstored, -⟩ := (ih.byCall.mem_iff callId orderId).mp hlisted
    have hstored : book.limitOrders.lookup orderId = some order := hstored
    rw [hstale] at hstored
    cases hstored
  | @filled effects call pool book before order rest impliedBps call' pool' _ hstored hprice _ ih =>
    obtain ⟨hcall, -⟩ := fill_price_call hprice
    subst hcall
    have hindex : (Function.update book.openOrdersByCall order.callId
        (before ++ order.id :: rest)) order.callId = before ++ order.id :: rest := by simp
    have hnodup : (before ++ order.id :: rest).Nodup := hindex ▸ ih.byCall.nodup order.callId
    have hremaining : ∀ j, j ∈ before ++ rest ↔ j ∈ (Function.update book.openOrdersByCall
        order.callId (before ++ order.id :: rest)) order.callId ∧ j ≠ order.id := by
      rw [hindex]
      exact mem_without_middle hnodup
    have hbyCall := ih.byCall.erase_with hstored
      (List.nodup_middle.mp hnodup).of_cons hremaining
    refine ⟨?_, ih.byUser.erase hstored, fun id stored hid => ?_⟩
    · simpa [Matching.finalBook, Book.setOpenOrderIdsForCall, Book.removeLimitOrder,
        Book.removeIdFromUserOrders, Book.setUserOrderIds] using hbyCall
    · exact ih.issued id stored (Book.lookup_of_erase (b := book) hid)

theorem Fills.lookup (h : Fills now callId m effects m') {id : Nat} {order : LimitOrder}
    (hstored : m'.book.limitOrders.lookup id = some order) :
    m.book.limitOrders.lookup id = some order := by
  induction h with
  | done => exact hstored
  | dropped _ _ ih => exact ih hstored
  | @filled effects call pool book before filled rest _ _ _ _ _ _ _ ih =>
    exact ih (Book.lookup_of_erase (b := book) hstored)

theorem Staked.total_pools {call call' : Call} {pool pool' : Pool} {staker : Address}
    {amount : Int} {position : Nat} (h : Staked call pool staker amount position call' pool') :
    call'.stakeToken = call.stakeToken ∧
      total call'.outcomeStakes = total call.outcomeStakes + amount := by
  rw [h.entered]
  refine ⟨rfl, ?_⟩
  simp only [Call.withStake, total_insert]
  omega

/-- Every fill moves an order's amount from the book to the pools. -/
theorem Fills.escrow (h : Fills now callId m effects m') : m'.call.stakeToken = m.call.stakeToken ∧
      total m'.call.outcomeStakes + m'.book.escrowed =
        total m.call.outcomeStakes + m.book.escrowed := by
  induction h with
  | done => exact ⟨rfl, rfl⟩
  | dropped _ _ ih => exact ih
  | @filled effects call pool book before order rest _ call' _ _ hstored _ hstaked ih =>
    obtain ⟨htoken, htotal⟩ := hstaked.total_pools
    refine ⟨htoken.trans ih.1, ?_⟩
    have herased : ((book.removeLimitOrder order.id).removeIdFromUserOrders order.user
        order.id).escrowed = book.escrowed - order.amount :=
      sumRows_erase LimitOrder.amount hstored
    have hbefore := ih.2
    simp only at hbefore ⊢
    rw [herased, htotal]
    omega

end Fills

/-!
## Escrow solvency of a market

Until the manager releases escrow or a payout is rolled over, the market holds exactly the stakes
on its outcomes and the amounts of its open orders.
-/

/-- The entry point neither releases escrow nor rolls a payout over. -/
def MarketOp.keepsEscrow : MarketOp → Bool
  | .releaseEscrow .. => false
  | .claimAndRollover .. => false
  | _ => true

def Label.keepsEscrow : Label → Bool
  | .invoked r => r.op.keepsEscrow
  | .elsewhere => true

variable {P : Type} [Peers P]

/-- The guard of the runs before any release of escrow. -/
def escrowKept : System.Guard (World P) Label := fun _ _ l => l.keepsEscrow = true

/-- What happens elsewhere leaves the market's balances as they are. -/
def Untouched (self : Address) (outside : P → P → Prop) : Prop :=
  ∀ p p', outside p p' → ∀ token, Tokens.balance p' token self = Tokens.balance p token self

/-- The market holds the stakes on its outcomes and the amounts of its open orders. -/
def Balanced (self : Address) (s : Storage) (peers : P) : Prop :=
  ∀ call, s.pool.call = some call → Tokens.balance peers call.stakeToken self =
    some (total call.outcomeStakes + s.book.escrowed)

/-- The invariant of the runs before any release of escrow. -/
structure Sound (address : Address) (s : Storage) (peers : P) : Prop where
  undeployed : s.config = none →
    s = Storage.empty ∧ ∀ token, Tokens.balance peers token address = some 0
  reward : ∀ config, s.config = some config →
    config.expiredOrderRefundBps = defaultExpiredOrderRefundBps
  book : s.book.Consistent
  orders : ∀ id order, s.book.limitOrders.lookup id = some order →
    0 < order.amount ∧ order.user ≠ address
  balanced : Balanced address s peers

theorem total_forPositions (n : Nat) : total (forPositions n 0 : Map Nat Int) = 0 := by
  suffices h : ∀ (positions : List Nat) (m : Map Nat Int), total m = 0 → (∀ k, valueAt m k = 0) →
      total (positions.foldl (fun m i => m.insert (i + 1) 0) m) = 0 from
    h _ ∅ rfl valueAt_empty
  intro positions
  induction positions with
  | nil => exact fun _ hm _ => hm
  | cons i rest ih =>
    intro m hm hzero
    refine ih _ ?_ fun k => ?_
    · rw [total_insert, hm, hzero]
      rfl
    · rw [valueAt_insert, hzero]
      exact ite_self 0

theorem Fills.events {now callId : Nat} {m m' : Matching} {effects : List (Effect Event)}
    (h : Fills now callId m effects m') : ∀ e ∈ effects, ∃ event, e = .event event := by
  induction h with
  | done => simp
  | dropped _ _ ih => exact ih
  | filled _ _ _ _ ih =>
    intro e he
    rcases List.mem_cons.mp he with rfl | he
    · exact ⟨_, rfl⟩
    · exact ih e he

theorem sum_moved_events {token who : Address} {effects : List (Effect Event)}
    (h : ∀ e ∈ effects, ∃ event, e = .event event) :
    (effects.map (Effect.moved token who)).sum = 0 := by
  refine List.sum_eq_zero fun x hx => ?_
  obtain ⟨e, he, rfl⟩ := List.mem_map.mp hx
  obtain ⟨event, rfl⟩ := h e he
  rfl

theorem Transition.only_transfers {env : Env} {op : MarketOp} {s s' : Storage}
    {effects : List (Effect Event)} (h : Transition env op s effects s') :
    ∀ e ∈ effects, e.onlyTransfers = true := by
  cases h with
  | staked _ _ _ _ _ _ _ hfills =>
    intro e he
    rcases List.mem_append.mp he with he | he
    · obtain ⟨event, rfl⟩ := hfills.events e he
      rfl
    · simp only [List.mem_cons, List.not_mem_nil, or_false] at he
      rcases he with rfl | rfl <;> rfl
  | orderRefunded =>
    intro e he
    simp only [payOutEffects, List.mem_cons, List.mem_append] at he
    rcases he with rfl | he | he
    · rfl
    all_goals
      split at he
      · rw [List.mem_singleton.mp he]
        rfl
      · cases he
  | _ => simp [Effect.onlyTransfers]

theorem sum_moved_payOut {env : Env} {token recipient : Address} {amount : Int}
    (hne : recipient ≠ env.contract) (hnonneg : 0 ≤ amount) :
    ((payOutEffects env token recipient amount).map (Effect.moved token env.contract)).sum =
      -amount := by
  unfold payOutEffects
  split
  · simp [Effect.moved, transferDelta, hne.symm]
  · simp only [List.map_nil, List.sum_nil]
    omega

/-- The two parts of a refund are nonnegative and make up the order's amount. -/
theorem refund_parts_ok {config : MarketConfig} {amount reward refundToUser : Int}
    (hbps : config.expiredOrderRefundBps = defaultExpiredOrderRefundBps) (hamount : 0 < amount)
    (h : refundParts config amount = .ok (reward, refundToUser)) :
    reward = amount * 50 / 10000 ∧ refundToUser = amount - reward ∧ 0 ≤ reward ∧
      0 ≤ refundToUser := by
  simp only [refundParts, except_bind_ok, or_overflow_ok, checkedMul, checkedDiv, checkedSub,
    checked_eq_some, hbps, defaultExpiredOrderRefundBps] at h
  obtain ⟨_, ⟨-, rfl⟩, quotient, hquotient, _, ⟨-, rfl⟩, h⟩ := h
  cases h
  rw [if_neg (by decide), checked_eq_some, tdiv_eq_div (by omega)] at hquotient
  obtain ⟨-, rfl⟩ := hquotient
  exact ⟨rfl, rfl, by omega, by omega⟩

section Preservation

variable {self : Address} {s s' : Storage} {p p' : P} {env : Env} {op : MarketOp}
  {effects : List (Effect Event)}

theorem sound_empty (hzero : ∀ token, Tokens.balance p token self = some 0) :
    Sound self Storage.empty p where
  undeployed _ := ⟨rfl, hzero⟩
  reward _ h := by cases h
  book := ⟨.empty, .empty, fun _ _ h => by simp [Storage.empty] at h⟩
  orders _ _ h := by simp [Storage.empty] at h
  balanced _ h := by cases h

/-- A transition that neither moves tokens nor touches pools or orders. -/
theorem Sound.recorded (h : Sound self s p) (hconfig : s'.config = s.config)
    (hdeployed : s.config ≠ none) (hbook : s'.book = s.book)
    (hcall : ∀ call', s'.pool.call = some call' → ∃ call, s.pool.call = some call ∧
      call'.stakeToken = call.stakeToken ∧ call'.outcomeStakes = call.outcomeStakes)
    (hpeers : ∀ token, Tokens.balance p' token self = Tokens.balance p token self) :
    Sound self s' p' where
  undeployed hnone := absurd (hconfig.symm.trans hnone) hdeployed
  reward config hsome := h.reward config (hconfig ▸ hsome)
  book := hbook ▸ h.book
  orders := hbook ▸ h.orders
  balanced call' hsome := by
    obtain ⟨call, hold, htoken, hpools⟩ := hcall call' hsome
    rw [hpeers, htoken, hpools, hbook]
    exact h.balanced call hold

theorem Sound.closed (h : Sound self s p) {order : LimitOrder}
    (hstored : s.book.limitOrders.lookup order.id = some order)
    (hpaid : ∀ call, s.pool.call = some call → Tokens.balance p' call.stakeToken self =
      (Tokens.balance p call.stakeToken self).map (· + -order.amount)) :
    Sound self (s.onBook (·.close order)) p' where
  undeployed hnone := by
    obtain ⟨rfl, -⟩ := h.undeployed hnone
    simp [Storage.empty] at hstored
  reward := h.reward
  book := h.book.close hstored
  orders id stored hid := h.orders id stored (Book.lookup_of_erase (b := s.book) hid)
  balanced call hcall := by
    have hescrow := Book.escrowed_close hstored
    rw [hpaid call hcall, h.balanced call hcall]
    simp only [Option.map_some, Option.some.injEq, Storage.onBook, hescrow]
    omega

/-- Every transition that keeps the escrow preserves the invariant. -/
theorem Transition.sound (hexact : ExactTransfers P) (h : Transition env op s effects s')
    (hself : env.contract = self) (hauths : self ∉ env.auths) (hop : op.keepsEscrow = true)
    (hreplay : Replays env p effects p') (hs : Sound self s p) : Sound self s' p' := by
  subst hself
  have hmoved := fun token =>
    hexact.replayed hreplay h.only_transfers token env.contract
  cases h with
  | released => cases hop
  | constructed hnone =>
    obtain ⟨rfl, hzero⟩ := hs.undeployed hnone
    refine ⟨by simp [Storage.setCall, Storage.setConfig, Storage.onPool], ?_, hs.book,
      hs.orders, ?_⟩
    · rintro _ ⟨⟩
      rfl
    · rintro _ ⟨⟩
      rw [hmoved, hzero]
      simp [Effect.moved, MarketInitArgs.call, total_forPositions, Storage.setCall,
        Storage.onPool, Storage.setConfig, Storage.empty, Book.escrowed]
  | resolved hconfig _ _ hcall =>
    refine hs.recorded rfl (by simp [hconfig]) rfl ?_ fun token => ?_
    · rintro _ ⟨⟩
      exact ⟨_, hcall, rfl, rfl⟩
    · rw [hmoved]
      simp [Effect.moved]
  | settled hconfig _ _ hcall =>
    refine hs.recorded rfl (by simp [hconfig]) rfl ?_ fun token => ?_
    · rintro _ ⟨⟩
      exact ⟨_, hcall, rfl, rfl⟩
    · rw [hmoved]
      simp
  | parentSet hconfig _ hcall =>
    refine hs.recorded rfl (by simp [hconfig]) rfl ?_ fun token => ?_
    · rintro _ ⟨⟩
      exact ⟨_, hcall, rfl, rfl⟩
    · rw [hmoved]
      simp
  | chainStored hconfig =>
    refine hs.recorded rfl (by simp [hconfig]) rfl (fun call' hcall => ⟨call', hcall, rfl, rfl⟩)
      fun token => ?_
    rw [hmoved]
    simp
  | @ordered _ config call order _ hauth hconfig _ hamount hcall _ hid =>
    have hforeign : order.user ≠ env.contract := fun heq => hauths (heq ▸ hauth)
    refine ⟨fun hnone => absurd (hconfig.symm.trans hnone) (by simp), hs.reward,
      hs.book.enter hid, fun id stored hstored => ?_, fun call' hcall' => ?_⟩
    · exact Book.forall_enter hs.orders ⟨hamount, hforeign⟩ id stored hstored
    · obtain rfl : call = call' := Option.some.inj (hcall.symm.trans hcall')
      rw [hmoved, hs.balanced call hcall]
      have hescrow := Book.escrowed_enter hs.book hid
      simp only [Option.map_some, Option.some.injEq, Storage.onBook, hescrow]
      simp [Effect.moved, transferDelta, hforeign.symm, add_assoc]
  | @orderCancelled _ call order hauth hstored hcall =>
    have hforeign : order.user ≠ env.contract := (hs.orders _ _ hstored).2
    refine hs.closed hstored fun call' hcall' => ?_
    obtain rfl : call = call' := Option.some.inj (hcall.symm.trans hcall')
    rw [hmoved]
    simp [Effect.moved, transferDelta, hforeign.symm]
  | @orderRefunded _ config call caller order reward refundToUser hauth hstored _ hconfig hcall
      hparts =>
    obtain ⟨hamount, hforeign⟩ := hs.orders _ _ hstored
    have hcaller : caller ≠ env.contract := fun heq => hauths (heq ▸ hauth)
    obtain ⟨-, hrest, hreward, hrefund⟩ := refund_parts_ok (hs.reward config hconfig) hamount hparts
    refine hs.closed hstored fun call' hcall' => ?_
    obtain rfl : call = call' := Option.some.inj (hcall.symm.trans hcall')
    rw [hmoved, List.map_cons, List.map_append, List.sum_cons, List.sum_append,
      sum_moved_payOut hforeign hrefund, sum_moved_payOut hcaller hreward]
    have hsum : Effect.moved call.stakeToken env.contract (.event (.limitOrderExpiredRefunded
        order.id order.callId order.user refundToUser reward caller) : Effect Event) +
        (-refundToUser + -reward) = -order.amount := by
      simp only [Effect.moved]
      omega
    rw [hsum]
  | @staked _ config call staker callId amount position call₁ pool₁ fills m hauth hconfig hid
      hamount hcall _ hstaked hfills =>
    have hforeign : staker ≠ env.contract := fun heq => hauths (heq ▸ hauth)
    obtain ⟨htoken, htotal⟩ := hstaked.total_pools
    obtain ⟨htoken', hescrow⟩ := hfills.escrow
    have hstart : (Matching.finalBook ⟨call₁, pool₁.setCall call₁, s.book,
        s.book.openOrdersByCall callId⟩ callId) = s.book :=
      Book.setOpenOrderIdsForCall_self s.book callId
    refine ⟨fun hnone => absurd (hconfig.symm.trans hnone) (by simp), hs.reward,
      hfills.consistent (by rw [hstart]; exact hs.book),
      fun id stored hstored => hs.orders id stored (hfills.lookup hstored), ?_⟩
    rintro _ ⟨⟩
    rw [hmoved, htoken', htoken, hs.balanced call hcall]
    simp only [Option.map_some, Option.some.injEq, List.map_append, List.sum_append,
      sum_moved_events hfills.events]
    have hmine : ([.event (.stakeAdded callId staker amount position),
        .transfer call.stakeToken staker env.contract amount].map
          (Effect.moved (E := Event) call.stakeToken env.contract)).sum = amount := by
      simp [Effect.moved, transferDelta, hforeign.symm]
    rw [hmine]
    show _ = total m.call.outcomeStakes + m.book.escrowed
    simp only at hescrow
    omega

end Preservation

end Backit.PredictionMarket
