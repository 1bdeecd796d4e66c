import Backit.Lib.ProRata
import Backit.Lib.SumsTo
import Backit.Orderbook.Transitions

/-!
# Collateral and shares in escrow

Every share is in a user's balance or in an open ask, and collateral that no shares are minted for
is in the escrow of an open bid. A bid's escrow always pays for the rest of the bid at its own
price, so that a fill, which costs at most that, leaves enough for what remains.
-/

namespace Backit.Orderbook

open Soroban Contract Lib

section Costs

variable {fill left : Int} {price limit : Nat}

theorem costOf_eq (hfill : 0 ≤ fill) : costOf fill price = proRata price 10000 fill :=
  tdiv_eq_div (mul_nonneg hfill (Int.natCast_nonneg _))

theorem costOf_nonneg (hfill : 0 ≤ fill) : 0 ≤ costOf fill price :=
  costOf_eq hfill ▸ proRata_nonneg (Int.natCast_nonneg _) (by decide) hfill

/-- What a fill costs, at a price within the limit, and what the rest costs at the limit are within
the cost of all of it. -/
theorem costOf_fill_le (hfill : 0 ≤ fill) (hleft : fill ≤ left) (hprice : price ≤ limit) :
    costOf (left - fill) limit + costOf fill price ≤ costOf left limit := by
  rw [costOf_eq (by omega), costOf_eq hfill, costOf_eq (by omega)]
  have hadd : proRata limit 10000 (left - fill) + proRata price 10000 fill ≤
      proRata limit 10000 (left - fill + fill) := proRata_add_le (by decide) (by omega) hfill
  rwa [sub_add_cancel] at hadd

end Costs

/-- The shares of a market that an order has in escrow. -/
def Order.onSale (market : Market) (o : Order) : Int :=
  if o.side = .ask ∧ o.active = true ∧ o.market = market then o.amount - o.filled else 0

/-- What holds of every stored order. -/
structure Order.Sound (contract : Address) (o : Order) : Prop where
  owner : o.user ≠ contract
  ask : o.side = .ask → o.escrow = 0
  closed : o.active = false → o.escrow = 0
  covered : o.active = true → o.side = .bid →
    costOf (o.amount - o.filled) o.priceBps ≤ o.escrow
  filled : o.filled ≤ o.amount

/-- The order without its escrow. -/
def Order.emptied (o : Order) : Order := { o with escrow := 0 }

/-- The same order at another stage. -/
structure Order.Same (o o' : Order) : Prop where
  id : o'.id = o.id
  user : o'.user = o.user
  side : o'.side = o.side
  market : o'.market = o.market
  amount : o'.amount = o.amount
  price : o'.priceBps = o.priceBps

/-- A quantity of the stored orders. -/
def Storage.tally (s : Storage) (quantity : Order → Int) (id : Nat) : Int :=
  (s.order id).elim 0 quantity

/-- What holds of the contract's storage whatever is invoked. -/
structure Sound (contract : Address) (s : Storage) : Prop where
  orders : ∀ id o, s.order id = some o → o.Sound contract
  ids : ∀ id o, s.order id = some o → o.id = id ∧ id ≤ s.orderCounter
  listed : ∀ side market id, id ∈ s.orderbook side market →
    ∃ o, s.order id = some o ∧ o.side = side ∧ o.market = market

/-- The bids have this much in escrow, and so many shares of each market are in balances and
asks. -/
structure Conserved (contract : Address) (s : Storage) (escrowed : Int) (minted : Market → Int) :
    Prop extends Sound contract s where
  escrow : SumsTo (s.tally Order.escrow) escrowed
  shares : ∀ market, ∃ onSale, SumsTo (s.tally (Order.onSale market)) onSale ∧
    SumsTo (s.shares market) (minted market - onSale)

section Orders

variable {o : Order} {fill pay : Int}

theorem Order.closeIfFilled_same (o : Order) : o.Same o.closeIfFilled := by
  unfold Order.closeIfFilled
  split <;> exact ⟨rfl, rfl, rfl, rfl, rfl, rfl⟩

theorem Order.bought_same (o : Order) (fill pay : Int) : o.Same (o.bought fill pay) := by
  have h := closeIfFilled_same { o with escrow := o.escrow - pay, filled := o.filled + fill }
  exact ⟨h.id, h.user, h.side, h.market, h.amount, h.price⟩

theorem Order.sold_same (o : Order) (fill : Int) : o.Same (o.sold fill) := by
  have h := closeIfFilled_same { o with filled := o.filled + fill }
  exact ⟨h.id, h.user, h.side, h.market, h.amount, h.price⟩

theorem Order.bought_amounts (o : Order) (fill pay : Int) :
    (o.bought fill pay).filled = o.filled + fill ∧
      (o.bought fill pay).escrow = o.escrow - pay := by
  unfold Order.bought Order.closeIfFilled
  split <;> exact ⟨rfl, rfl⟩

theorem Order.sold_amounts (o : Order) (fill : Int) :
    (o.sold fill).filled = o.filled + fill ∧ (o.sold fill).escrow = o.escrow := by
  unfold Order.sold Order.closeIfFilled
  split <;> exact ⟨rfl, rfl⟩

/-- An order that was open is closed by a fill when nothing is left of it. -/
theorem Order.sold_active (hactive : o.active = true) (fill : Int) :
    (o.sold fill).active = true ↔ o.filled + fill < o.amount := by
  unfold Order.sold Order.closeIfFilled
  dsimp only
  split
  · simp_all
  · simp_all

theorem Order.bought_active (hactive : o.active = true) (fill pay : Int) :
    (o.bought fill pay).active = true ↔ o.filled + fill < o.amount := by
  unfold Order.bought Order.closeIfFilled
  dsimp only
  split
  · simp_all
  · simp_all

theorem Order.onSale_of_bid (hside : o.side = .bid) (market : Market) : o.onSale market = 0 := by
  simp [Order.onSale, hside]

theorem Order.onSale_sold (hside : o.side = .ask) (hactive : o.active = true)
    (hfill : fill ≤ o.amount - o.filled) (market : Market) :
    (o.sold fill).onSale market =
      o.onSale market - if o.market = market then fill else 0 := by
  have hsame := o.sold_same fill
  have hopen := Order.sold_active hactive fill
  by_cases hmarket : o.market = market
  · by_cases hleft : o.filled + fill < o.amount
    · simp only [Order.onSale, hsame.side, hsame.market, hsame.amount, (o.sold_amounts fill).1,
        hside, hmarket, hactive, hopen.mpr hleft, and_self, if_true]
      omega
    · have hclosed : (o.sold fill).active = false := by
        rw [← Bool.not_eq_true, hopen]
        exact hleft
      simp only [Order.onSale, hclosed, hside, hmarket, hactive, and_self, if_true,
        Bool.false_eq_true, false_and, and_false, if_false]
      omega
  · simp [Order.onSale, hsame.market, hmarket]

end Orders

section Sound

variable {contract : Address} {o : Order}

theorem Order.Sound.escrow_nonneg (h : o.Sound contract) : 0 ≤ o.escrow := by
  cases hside : o.side with
  | ask => exact (h.ask hside).ge
  | bid =>
    cases hactive : o.active with
    | false => exact (h.closed hactive).ge
    | true =>
      have := h.filled
      exact (costOf_nonneg (by omega)).trans (h.covered hactive hside)

theorem Order.Sound.escrowing (h : o.Sound contract) (hescrow : o.escrow ≠ 0) :
    o.side = .bid ∧ o.active = true := by
  constructor
  · cases hside : o.side with
    | ask => exact absurd (h.ask hside) hescrow
    | bid => rfl
  · cases hactive : o.active with
    | false => exact absurd (h.closed hactive) hescrow
    | true => rfl

end Sound

section Writes

variable {self user : Address} {s : Storage} {escrowed total : Int} {minted : Market → Int}
  {quantity : Order → Int} {id : Nat} {o o' : Order} {market : Market}

theorem Conserved.cast {escrowed' : Int} {minted' : Market → Int}
    (h : Conserved self s escrowed minted) (hescrowed : escrowed = escrowed')
    (hminted : ∀ market, minted market = minted' market) :
    Conserved self s escrowed' minted' := by
  obtain rfl := hescrowed
  obtain rfl := funext hminted
  exact h

theorem tally_of_stored (hstored : s.order id = some o) (quantity : Order → Int) :
    s.tally quantity id = quantity o := by
  rw [Storage.tally, hstored]
  rfl

theorem order_setOrder (s : Storage) (id : Nat) (o : Order) (i : Nat) :
    (s.setOrder id o).order i = if i = id then some o else s.order i :=
  Function.update_apply ..

theorem order_resting (s : Storage) (o : Order) (i : Nat) :
    (s.resting o).order i = if i = o.id then some o else s.order i :=
  Function.update_apply ..

theorem orderbook_resting (s : Storage) (o : Order) (side : OrderSide) (market : Market)
    (i : Nat) : i ∈ (s.resting o).orderbook side market ↔
      i ∈ s.orderbook side market ∨ i = o.id ∧ side = o.side ∧ market = o.market := by
  show i ∈ Function.update s.orderbook o.side (Function.update (s.orderbook o.side) o.market
    (s.orderbook o.side o.market ++ [o.id])) side market ↔ _
  by_cases hside : side = o.side
  · subst hside
    rw [Function.update_self, Function.update_apply]
    split
    · next hmarket => simp [hmarket]
    · next hmarket => simp [hmarket]
  · simp [hside]

theorem tally_setOrder (s : Storage) (quantity : Order → Int) (id : Nat) (o : Order) :
    (s.setOrder id o).tally quantity = Function.update (s.tally quantity) id (quantity o) := by
  funext i
  simp only [Storage.tally, order_setOrder, Function.update_apply]
  split <;> rfl

theorem Sound.setOrder (h : Sound self s) (hstored : s.order id = some o) (hsame : o.Same o')
    (hsound : o'.Sound self) : Sound self (s.setOrder id o') where
  orders i p hp := by
    rw [order_setOrder] at hp
    split at hp
    · cases hp
      exact hsound
    · exact h.orders i p hp
  ids i p hp := by
    rw [order_setOrder] at hp
    split at hp
    · next heq =>
      cases hp
      subst heq
      rw [hsame.id]
      exact h.ids i o hstored
    · exact h.ids i p hp
  listed side market i hi := by
    obtain ⟨p, hp, hside, hmarket⟩ := h.listed side market i hi
    by_cases heq : i = id
    · subst heq
      obtain rfl := Option.some.inj (hstored.symm.trans hp)
      exact ⟨o', Function.update_self .., hsame.side.trans hside, hsame.market.trans hmarket⟩
    · exact ⟨p, (Function.update_of_ne heq ..).trans hp, hside, hmarket⟩

/-- What an order has in escrow changes with its stage. -/
theorem Conserved.setOrder (h : Conserved self s escrowed minted) (hstored : s.order id = some o)
    (hsame : o.Same o') (hsound : o'.Sound self) :
    Conserved self (s.setOrder id o') (escrowed - o.escrow + o'.escrow)
      fun market => minted market - o.onSale market + o'.onSale market where
  toSound := h.toSound.setOrder hstored hsame hsound
  escrow := by
    rw [tally_setOrder, ← tally_of_stored hstored Order.escrow]
    exact h.escrow.update id _
  shares market := by
    obtain ⟨onSale, hasks, hbalances⟩ := h.shares market
    refine ⟨onSale - o.onSale market + o'.onSale market, ?_, ?_⟩
    · rw [tally_setOrder, ← tally_of_stored hstored (Order.onSale market)]
      exact hasks.update id _
    · rwa [show minted market - o.onSale market + o'.onSale market -
        (onSale - o.onSale market + o'.onSale market) = minted market - onSale by omega]

theorem Conserved.credited (h : Conserved self s escrowed minted) (user : Address)
    (market : Market) (amount : Int) :
    Conserved self (s.credited user market amount) escrowed
      fun m => minted m + if m = market then amount else 0 where
  orders := h.orders
  ids := h.ids
  listed := h.listed
  escrow := h.escrow
  shares m := by
    obtain ⟨onSale, hasks, hbalances⟩ := h.shares m
    refine ⟨onSale, hasks, ?_⟩
    show SumsTo (Function.update s.shares market _ m) _
    by_cases hm : m = market
    · subst hm
      rw [Function.update_self, if_pos rfl]
      have hupdate := hbalances.update user (s.shares m user + amount)
      rwa [show minted m - onSale - s.shares m user + (s.shares m user + amount) =
        minted m + amount - onSale by omega] at hupdate
    · rw [Function.update_of_ne hm, if_neg hm, add_zero]
      exact hbalances

theorem debited_eq (s : Storage) (user : Address) (market : Market) (amount : Int) :
    s.debited user market amount = s.credited user market (-amount) := rfl

theorem Conserved.resting (h : Conserved self s escrowed minted) (hfresh : s.orderCounter < o.id)
    (hsound : o.Sound self) :
    Conserved self (s.resting o) (escrowed + o.escrow)
      fun market => minted market + o.onSale market := by
  have hnew : s.order o.id = none := by
    cases hfound : s.order o.id with
    | none => rfl
    | some p =>
      have := (h.ids _ _ hfound).2
      omega
  have hother : ∀ {i p}, s.order i = some p → i ≠ o.id := fun hp heq => by
    rw [heq, hnew] at hp
    cases hp
  have htally : ∀ quantity : Order → Int,
      (s.resting o).tally quantity = Function.update (s.tally quantity) o.id (quantity o) :=
    fun quantity => tally_setOrder s quantity o.id o
  have hzero : ∀ quantity : Order → Int, s.tally quantity o.id = 0 := fun quantity => by
    rw [Storage.tally, hnew]
    rfl
  have hsum : ∀ {quantity : Order → Int} {total : Int}, SumsTo (s.tally quantity) total →
      SumsTo ((s.resting o).tally quantity) (total + quantity o) := by
    intro quantity total hsums
    have hupdate := hsums.update o.id (quantity o)
    rwa [hzero, sub_zero, ← htally] at hupdate
  refine { orders := fun i p hp => ?_, ids := fun i p hp => ?_, listed := fun side market i hi => ?_,
           escrow := hsum h.escrow, shares := fun market => ?_ }
  · rw [order_resting] at hp
    split at hp
    · cases hp
      exact hsound
    · exact h.orders i p hp
  · rw [order_resting] at hp
    show p.id = i ∧ i ≤ o.id
    split at hp
    · next heq =>
      cases hp
      exact ⟨heq.symm, heq.le⟩
    · obtain ⟨hid, hle⟩ := h.ids i p hp
      exact ⟨hid, by omega⟩
  · rw [orderbook_resting] at hi
    rw [order_resting]
    obtain hi | ⟨rfl, rfl, rfl⟩ := hi
    · obtain ⟨p, hp, hplace⟩ := h.listed side market i hi
      exact ⟨p, by rw [if_neg (hother hp), hp], hplace⟩
    · exact ⟨o, if_pos rfl, rfl, rfl⟩
  · obtain ⟨onSale, hasks, hbalances⟩ := h.shares market
    refine ⟨_, hsum hasks, ?_⟩
    rwa [add_sub_add_right_eq_sub]

end Writes

/-- Orders that can be exchanged: what a fill relies on. -/
structure Crossing (s : Storage) (buyer seller : Order) (fill : Int) (price : Nat) : Prop where
  bought : s.order buyer.id = some buyer
  sold : s.order seller.id = some seller
  bid : buyer.side = .bid
  ask : seller.side = .ask
  buying : buyer.active = true
  selling : seller.active = true
  market : buyer.market = seller.market
  positive : 0 < fill
  wanted : fill ≤ buyer.amount - buyer.filled
  offered : fill ≤ seller.amount - seller.filled
  limit : price ≤ buyer.priceBps

section Fills

variable {env : Env} {token : Address} {s s' : Storage} {o o' buyer seller buyer' : Order}
  {fill escrowed : Int} {price : Nat} {minted : Market → Int} {effects : List (Effect Event)}

theorem Released.of_bid (h : Released env s o effects s' o') (hside : o.side = .bid)
    (hescrow : 0 ≤ o.escrow) (howner : o.user ≠ env.contract)
    (htoken : ∀ t, s.token = some t → t = token) :
    s' = s ∧ o' = o.emptied ∧ effectTotal (Effect.moved token env.contract) effects = -o.escrow := by
  cases h with
  | paid _ hpositive htoken' =>
    obtain rfl := htoken _ htoken'
    exact ⟨rfl, rfl, by simp [Effect.moved, transferDelta, Ne.symm howner]⟩
  | nothing _ hnone =>
    have hzero : o.escrow = 0 := by omega
    refine ⟨rfl, ?_, by simp [hzero]⟩
    rw [Order.emptied, ← hzero]
  | returned hask => exact absurd (hside.symm.trans hask) (by decide)
  | sold hask => exact absurd (hside.symm.trans hask) (by decide)

theorem Released.of_ask (h : Released env s o effects s' o') (hside : o.side = .ask)
    (hfilled : o.filled ≤ o.amount) :
    s' = s.credited o.user o.market (o.amount - o.filled) ∧ o' = o ∧ effects = [] := by
  cases h with
  | paid hbid => exact absurd (hside.symm.trans hbid) (by decide)
  | nothing hbid => exact absurd (hside.symm.trans hbid) (by decide)
  | returned => exact ⟨rfl, rfl, rfl⟩
  | sold _ hnone =>
    have hzero : o.amount - o.filled = 0 := by omega
    refine ⟨?_, rfl, rfl⟩
    rw [hzero, Storage.credited, add_zero, Storage.setShares, Function.update_eq_self,
      Function.update_eq_self]

theorem payment_moved {receiver : Address} {pay : Int} (hreceiver : receiver ≠ env.contract)
    (hpay : 0 ≤ pay) :
    effectTotal (Effect.moved token env.contract) (payment env token receiver pay) = -pay := by
  unfold payment
  split
  · simp [Effect.moved, transferDelta, Ne.symm hreceiver]
  · have hzero : pay = 0 := by omega
    simp [hzero]

/-- A fill charges the buyer's escrow what it pays the seller, and returns what is left in the
escrow of a finished bid. -/
theorem Filled.parts
    (h : Filled env token s buyer seller fill (costOf fill price) effects s' buyer')
    (hcross : Crossing s buyer seller fill price) (hbuyer : buyer.Sound env.contract)
    (hseller : seller.Sound env.contract) (htoken : s.token = some token) :
    s' = ((s.credited buyer.user buyer.market fill).setOrder buyer.id buyer').setOrder seller.id
        (seller.sold fill) ∧ buyer.Same buyer' ∧ buyer'.Sound env.contract ∧
      (buyer'.filled < buyer'.amount → buyer'.active = true) ∧
      effectTotal (Effect.moved token env.contract) effects = buyer'.escrow - buyer.escrow := by
  have hsame := buyer.bought_same fill (costOf fill price)
  obtain ⟨hfilled, hescrow⟩ := buyer.bought_amounts fill (costOf fill price)
  have hopen := Order.bought_active hcross.buying fill (costOf fill price)
  have hpay : 0 ≤ costOf fill price := costOf_nonneg hcross.positive.le
  have hcost := costOf_fill_le hcross.positive.le hcross.wanted hcross.limit
  have hcovered := hbuyer.covered hcross.buying hcross.bid
  have hrest : 0 ≤ costOf (buyer.amount - buyer.filled - fill) buyer.priceBps := by
    have := hcross.wanted
    exact costOf_nonneg (by omega)
  have hwanted := hcross.wanted
  have hmoved : effectTotal (Effect.moved token env.contract)
      (payment env token seller.user (costOf fill price)) = -costOf fill price :=
    payment_moved hseller.owner hpay
  have hid : (seller.sold fill).id = seller.id := (seller.sold_same fill).id
  cases h with
  | unfinished hactive =>
    rw [hsame.id, hid]
    refine ⟨rfl, hsame, ?_, fun _ => hactive, by rw [hmoved, hescrow]; omega⟩
    refine ⟨hsame.user ▸ hbuyer.owner, fun hask => ?_, fun hclosed => ?_, fun _ _ => ?_, ?_⟩
    · exact absurd (hcross.bid.symm.trans (hsame.side.symm.trans hask)) (by decide)
    · exact absurd (hactive.symm.trans hclosed) (by decide)
    · rw [hsame.amount, hsame.price, hfilled, hescrow, ← sub_sub]
      omega
    · rw [hsame.amount, hfilled]
      omega
  | @finished refund _ _ hclosed hreleased =>
    obtain ⟨rfl, rfl, hrefund⟩ := hreleased.of_bid (hsame.side.trans hcross.bid)
      (by omega) (hsame.user ▸ hbuyer.owner) fun t ht => Option.some.inj (ht.symm.trans htoken)
    have hsame' : buyer.Same (buyer.bought fill (costOf fill price)).emptied :=
      ⟨hsame.id, hsame.user, hsame.side, hsame.market, hsame.amount, hsame.price⟩
    rw [hsame'.id, hid]
    refine ⟨rfl, hsame', ?_, fun hleft => ?_, ?_⟩
    · refine ⟨hsame.user ▸ hbuyer.owner, fun _ => rfl, fun _ => rfl, fun hactive => ?_, ?_⟩
      · exact absurd (hactive.symm.trans hclosed) (by decide)
      · show (buyer.bought fill _).filled ≤ (buyer.bought fill _).amount
        rw [hsame.amount, hfilled]
        omega
    · have hleft' : (buyer.bought fill _).filled < (buyer.bought fill _).amount := hleft
      rw [hsame.amount, hfilled] at hleft'
      exact hopen.mpr hleft'
    · rw [effectTotal_append, hrefund, hmoved, hescrow]
      show _ = 0 - buyer.escrow
      omega

/-- What a fill gives the buyer it takes off the seller's escrow, and the collateral that leaves the
contract off the buyer's. -/
theorem Filled.conserved
    (h : Filled env token s buyer seller fill (costOf fill price) effects s' buyer')
    (hs : Conserved env.contract s escrowed minted) (hcross : Crossing s buyer seller fill price)
    (htoken : s.token = some token) :
    Conserved env.contract s'
      (escrowed + effectTotal (Effect.moved token env.contract) effects) minted ∧
      s'.orderbook = s.orderbook ∧ buyer.Same buyer' ∧ s'.order buyer.id = some buyer' ∧
      s'.order seller.id = some (seller.sold fill) ∧
      (buyer'.filled < buyer'.amount → buyer'.active = true) := by
  have hbuyer := hs.orders _ _ hcross.bought
  have hseller := hs.orders _ _ hcross.sold
  obtain ⟨rfl, hsame, hsound, hopen, hmoved⟩ := h.parts hcross hbuyer hseller htoken
  have hne : seller.id ≠ buyer.id := by
    intro heq
    have hboth := hcross.sold
    rw [heq, hcross.bought] at hboth
    have hside := hcross.bid
    rw [Option.some.inj hboth, hcross.ask] at hside
    cases hside
  have hsold := seller.sold_same fill
  obtain ⟨hsoldFilled, hsoldEscrow⟩ := seller.sold_amounts fill
  have hsoldSound : (seller.sold fill).Sound env.contract := by
    have hasks := hseller.ask hcross.ask
    refine ⟨hsold.user ▸ hseller.owner, fun _ => hsoldEscrow.trans hasks,
      fun _ => hsoldEscrow.trans hasks, fun _ hbid => ?_, ?_⟩
    · exact absurd (hcross.ask.symm.trans (hsold.side.symm.trans hbid)) (by decide)
    · have := hcross.offered
      rw [hsold.amount, hsoldFilled]
      omega
  have hcredited := hs.credited buyer.user buyer.market fill
  have hbought := hcredited.setOrder hcross.bought hsame hsound
  have hstored : ((s.credited buyer.user buyer.market fill).setOrder buyer.id buyer').order
      seller.id = some seller := by
    rw [order_setOrder, if_neg hne]
    exact hcross.sold
  have hall := hbought.setOrder hstored hsold hsoldSound
  refine ⟨?_, rfl, hsame, ?_, ?_, hopen⟩
  · have hescrows : escrowed - buyer.escrow + buyer'.escrow - seller.escrow +
        (seller.sold fill).escrow =
        escrowed + effectTotal (Effect.moved token env.contract) effects := by
      rw [hmoved, hsoldEscrow]
      omega
    refine hall.cast hescrows fun market => ?_
    rw [Order.onSale_of_bid hcross.bid, Order.onSale_of_bid (hsame.side.trans hcross.bid),
      Order.onSale_sold hcross.ask hcross.selling hcross.offered, hcross.market]
    by_cases hmarket : market = seller.market
    · rw [if_pos hmarket, if_pos hmarket.symm]
      omega
    · rw [if_neg hmarket, if_neg (Ne.symm hmarket)]
      omega
  · rw [order_setOrder, if_neg hne.symm, order_setOrder, if_pos rfl]
  · rw [order_setOrder, if_pos rfl]

end Fills

/-- An incoming order in the matching loop, with the other side of its market's book. -/
structure Incoming (s : Storage) (taker : Order) (bookIds : List Nat) : Prop where
  stored : s.order taker.id = some taker
  opened : taker.filled < taker.amount → taker.active = true
  facing : bookIds = s.orderbook taker.side.opposite taker.market

section Matching

variable {env : Env} {token : Address} {s s' : Storage} {taker taker' maker : Order}
  {escrowed : Int} {minted : Market → Int} {effects : List (Effect Event)} {bookIds : List Nat}

theorem bestMaker_eq_some (h : bestMaker s taker bookIds = some maker) :
    ∃ id ∈ bookIds, s.order id = some maker ∧ taker.Accepts maker := by
  suffices hfold : ∀ (ids : List Nat) (best : Option Order),
      ids.foldl (bestOf s taker) best = some maker →
      best = some maker ∨ ∃ id ∈ ids, s.order id = some maker ∧ taker.Accepts maker by
    exact (hfold bookIds none h).resolve_left (by simp)
  intro ids
  induction ids with
  | nil => exact fun best hbest => .inl hbest
  | cons id rest ih =>
    intro best hbest
    rw [List.foldl_cons] at hbest
    obtain hnext | ⟨i, hi, hfound⟩ := ih _ hbest
    · unfold bestOf at hnext
      split at hnext
      · exact .inl hnext
      · next m hm =>
        split at hnext
        · next haccepts =>
          obtain rfl := Option.some.inj hnext
          exact .inr ⟨id, .head _, hm, haccepts.1⟩
        · exact .inl hnext
    · exact .inr ⟨i, .tail _ hi, hfound⟩

/-- The resting order that is picked is stored on the other side of the same market. -/
theorem Incoming.meets (h : Incoming s taker bookIds) (hs : Sound env.contract s)
    (hbest : bestMaker s taker bookIds = some maker) :
    s.order maker.id = some maker ∧ maker.side = taker.side.opposite ∧
      maker.market = taker.market ∧ taker.Accepts maker := by
  obtain ⟨id, hid, hfound, haccepts⟩ := bestMaker_eq_some hbest
  rw [h.facing] at hid
  obtain ⟨o, ho, hside, hmarket⟩ := hs.listed _ _ _ hid
  obtain rfl := Option.some.inj (hfound.symm.trans ho)
  rw [(hs.ids id maker hfound).1]
  exact ⟨hfound, hside, hmarket, haccepts⟩

/-- A fill of an incoming order conserves collateral and shares. -/
theorem FilledFrom.conserved (h : FilledFrom env token s taker maker effects s' taker')
    (hs : Conserved env.contract s escrowed minted) (hin : Incoming s taker bookIds)
    (hleft : taker.filled < taker.amount) (hbest : bestMaker s taker bookIds = some maker)
    (htoken : s.token = some token) :
    Conserved env.contract s'
      (escrowed + effectTotal (Effect.moved token env.contract) effects) minted ∧
      Incoming s' taker' bookIds := by
  obtain ⟨hstored, hside, hmarket, hactive, -, hoffered, hprice⟩ := hin.meets hs.toSound hbest
  have htaker := hin.opened hleft
  cases h with
  | @bought effects _ _ hbid hfilled =>
    rw [hbid] at hside hprice
    have hcross : Crossing s taker maker (fillOf taker maker) maker.priceBps :=
      { bought := hin.stored, sold := hstored, bid := hbid, ask := hside, buying := htaker
        selling := hactive, market := hmarket.symm
        positive := by unfold fillOf; omega
        wanted := min_le_left .., offered := min_le_right .., limit := hprice }
    obtain ⟨hconserved, hbook, hsame, hbuyer, -, hopen⟩ := hfilled.conserved hs hcross htoken
    rw [effectTotal_cons, executed, Effect.moved_event, zero_add]
    refine ⟨hconserved, hsame.id ▸ hbuyer, hopen, ?_⟩
    rw [hsame.side, hsame.market, hbook]
    exact hin.facing
  | @sold effects _ _ hask hfilled =>
    rw [hask] at hside hprice
    have hcross : Crossing s maker taker (fillOf taker maker) maker.priceBps :=
      { bought := hstored, sold := hin.stored, bid := hside, ask := hask, buying := hactive
        selling := htaker, market := hmarket
        positive := by unfold fillOf; omega
        wanted := min_le_right .., offered := min_le_left .., limit := le_rfl }
    have hsame := taker.sold_same (fillOf taker maker)
    obtain ⟨hconserved, hbook, -, -, hseller, -⟩ := hfilled.conserved hs hcross htoken
    rw [effectTotal_cons, executed, Effect.moved_event, zero_add]
    refine ⟨hconserved, hsame.id ▸ hseller, fun hopen => ?_, ?_⟩
    · rw [hsame.amount, (taker.sold_amounts _).1] at hopen
      exact (Order.sold_active htaker _).mpr hopen
    · rw [hsame.side, hsame.market, hbook]
      exact hin.facing

theorem Matching.conserved {n : Nat} (h : Matching env token bookIds n s taker effects s' taker')
    (hs : Conserved env.contract s escrowed minted) (hin : Incoming s taker bookIds)
    (htoken : s.token = some token) :
    Conserved env.contract s'
      (escrowed + effectTotal (Effect.moved token env.contract) effects) minted ∧
      s'.order taker'.id = some taker' := by
  induction h generalizing escrowed with
  | exhausted => exact ⟨by simpa using hs, hin.stored⟩
  | full => exact ⟨by simpa using hs, hin.stored⟩
  | unmatched => exact ⟨by simpa using hs, hin.stored⟩
  | fill hleft hbest hfilled _ ih =>
    obtain ⟨hconserved, hin'⟩ := hfilled.conserved hs hin hleft hbest htoken
    rw [effectTotal_append, add_comm (effectTotal _ _), ← add_assoc]
    exact ih hconserved hin' (hfilled.token_eq.trans htoken)

end Matching

section Steps

variable {env : Env} {op : BookOp} {s s' : Storage} {effects : List (Effect Event)} {token : Address}
  {escrowed : Int} {minted : Market → Int}

/-- The shares of a market that an entry point mints, each for a unit of collateral. -/
def BookOp.mints (market : Market) : BookOp → Int
  | .mintShares _ callId outcome amount => if market = (callId, outcome) then amount else 0
  | _ => 0

/-- The collateral that an entry point locks for shares. -/
def BookOp.locks : BookOp → Int
  | .mintShares _ _ _ amount => amount
  | _ => 0

/-- An order that is cancelled has nothing in escrow any more. -/
theorem Order.Sound.cancelled {o : Order} (h : o.Sound env.contract) :
    ({ o.emptied with active := false } : Order).Sound env.contract where
  owner := h.owner
  ask _ := rfl
  closed _ := rfl
  covered hactive := absurd hactive (by simp)
  filled := h.filled

/-- A cancelled order gives its owner back what it had in escrow. -/
theorem Released.conserved {o o' : Order} {orderId : Nat}
    (h : Released env s o effects s' o') (hs : Conserved env.contract s escrowed minted)
    (hstored : s.order orderId = some o) (hactive : o.active = true)
    (htoken : ∀ t, s.token = some t → t = token) :
    Conserved env.contract (s'.setOrder orderId { o' with active := false })
      (escrowed + effectTotal (Effect.moved token env.contract) effects) minted := by
  have hsound := hs.orders _ _ hstored
  have hsame : o.Same { o.emptied with active := false } := ⟨rfl, rfl, rfl, rfl, rfl, rfl⟩
  have hnone : ∀ market, ({ o.emptied with active := false } : Order).onSale market = 0 :=
    fun market => by simp [Order.onSale]
  have hfilled := hsound.filled
  cases hside : o.side with
  | bid =>
    have hcovered := hsound.covered hactive hside
    have hescrow : 0 ≤ o.escrow := (costOf_nonneg (by omega)).trans hcovered
    obtain ⟨rfl, rfl, hmoved⟩ := h.of_bid hside hescrow hsound.owner htoken
    refine (hs.setOrder hstored hsame hsound.cancelled).cast ?_ fun market => ?_
    · rw [hmoved]
      show escrowed - o.escrow + 0 = _
      omega
    · rw [hnone, Order.onSale_of_bid hside, sub_zero, add_zero]
  | ask =>
    obtain ⟨rfl, rfl, rfl⟩ := h.of_ask hside hfilled
    have hempty : o'.emptied = o' := by
      have := hsound.ask hside
      rw [Order.emptied, ← this]
    have hcredited := hs.credited o'.user o'.market (o'.amount - o'.filled)
    have hclosed := hcredited.setOrder hstored hsame hsound.cancelled
    rw [hempty] at hclosed hnone
    refine hclosed.cast (by simp) fun market => ?_
    rw [hnone]
    by_cases hmarket : market = o'.market
    · simp [Order.onSale, hside, hactive, hmarket]
    · simp [Order.onSale, hmarket, Ne.symm hmarket]

/-- A new order has what it takes to fill it in escrow. -/
theorem Escrowed.conserved {user : Address} {callId outcome : Nat} {amount escrow : Int}
    {priceBps : Nat} {side : OrderSide} {order : Order}
    (h : Escrowed env token s user (callId, outcome) amount priceBps side effects s' escrow)
    (hs : Conserved env.contract s escrowed minted) (huser : user ≠ env.contract)
    (hamount : 0 < amount)
    (horder : order = s.newOrder env user callId outcome amount priceBps side escrow) :
    Conserved env.contract (s'.resting order)
      (escrowed + effectTotal (Effect.moved token env.contract) effects) minted := by
  subst horder
  cases h with
  | bid =>
    have hsound : (s.newOrder env user callId outcome amount priceBps .bid
        (costOf amount priceBps)).Sound env.contract :=
      { owner := huser
        ask := fun hask => absurd hask (by simp [Storage.newOrder])
        closed := fun hclosed => absurd hclosed (by simp [Storage.newOrder])
        covered := fun _ _ => by simp [Storage.newOrder]
        filled := hamount.le }
    refine (hs.resting (Nat.lt_succ_self _) hsound).cast ?_ fun market => ?_
    · simp [Storage.newOrder, Effect.moved, transferDelta, Ne.symm huser]
    · rw [Order.onSale_of_bid rfl, add_zero]
  | ask henough =>
    have hsound : (s.newOrder env user callId outcome amount priceBps .ask 0).Sound
        env.contract :=
      { owner := huser
        ask := fun _ => rfl
        closed := fun _ => rfl
        covered := fun _ hbid => absurd hbid (by simp [Storage.newOrder])
        filled := hamount.le }
    have hdebited := hs.credited user (callId, outcome) (-amount)
    rw [← debited_eq] at hdebited
    refine (hdebited.resting (Nat.lt_succ_self _) hsound).cast ?_ fun market => ?_
    · simp [Storage.newOrder]
    · by_cases hmarket : market = (callId, outcome)
      · simp [Order.onSale, Storage.newOrder, Order.market, hmarket]
      · simp [Order.onSale, Storage.newOrder, Order.market, hmarket, Ne.symm hmarket]

/-- What a transition moves in or out of the contract and does not lock for shares is what it adds
to the escrow of the bids. -/
theorem Transition.conserved (h : Transition env op s effects s')
    (hs : Conserved env.contract s escrowed minted) (hforeign : env.contract ∉ env.auths)
    (htoken : ∀ t, s.token = some t → t = token) :
    Conserved env.contract s'
      (escrowed + effectTotal (Effect.moved token env.contract) effects - op.locks)
      fun market => minted market + op.mints market := by
  have hforeign' : ∀ {who}, who ∈ env.auths → who ≠ env.contract := fun hwho heq =>
    hforeign (heq ▸ hwho)
  cases h with
  | @initialized admin =>
    have hsame : Conserved env.contract
        (s.setConfig ⟨admin, 30, protocolFeeBps, lpFeeBps⟩) escrowed minted :=
      ⟨⟨hs.orders, hs.ids, hs.listed⟩, hs.escrow, hs.shares⟩
    exact hsame.cast (by simp [BookOp.locks]) fun market => (add_zero _).symm
  | @configured token =>
    have hsame : Conserved env.contract (s.setToken token) escrowed minted :=
      ⟨⟨hs.orders, hs.ids, hs.listed⟩, hs.escrow, hs.shares⟩
    exact hsame.cast (by simp [BookOp.locks]) fun market => (add_zero _).symm
  | @minted user callId outcome amount _ _ hauth hamount htoken' =>
    obtain rfl := htoken _ htoken'
    refine (hs.credited user (callId, outcome) amount).cast ?_ fun market => rfl
    simp [Effect.moved, transferDelta, BookOp.locks, Ne.symm (hforeign' hauth)]
  | @placed _ user callId outcome amount priceBps side _ _ moved s₁ escrow order _ s₂ taker hop
      hauth hamount _ _ htoken' hescrowed horder hmatching =>
    obtain rfl := htoken _ htoken'
    have hplaced := hescrowed.conserved hs (hforeign' hauth) hamount horder
    have hin : Incoming (s₁.resting order) order
        ((s₁.resting order).orderbook side.opposite (callId, outcome)) := by
      subst horder
      exact ⟨Function.update_self .., fun _ => rfl, rfl⟩
    obtain ⟨hconserved, hstored⟩ :=
      hmatching.conserved hplaced hin (hescrowed.frame.2.trans htoken')
    have hkept : s₂.setOrder taker.id taker = s₂ := by
      rw [Storage.setOrder, ← hstored, Function.update_eq_self]
    have hneutral : op.locks = 0 ∧ ∀ market, op.mints market = 0 := by
      cases hop with
      | bid => exact ⟨rfl, fun _ => rfl⟩
      | ask => exact ⟨rfl, fun _ => rfl⟩
    rw [hkept]
    refine hconserved.cast ?_ fun market => ?_
    · rw [hneutral.1, effectTotal_append, effectTotal_cons, Effect.moved_event]
      omega
    · rw [hneutral.2, add_zero]
  | cancelled hauth hstored howner hactive hreleased =>
    refine (hreleased.conserved hs hstored hactive htoken).cast ?_ fun market =>
      (add_zero _).symm
    simp [Effect.moved, BookOp.locks]

end Steps

end Backit.Orderbook
