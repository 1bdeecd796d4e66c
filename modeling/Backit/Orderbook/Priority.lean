import Backit.Lib.FirstBest
import Backit.Orderbook.Conservation

/-!
# Price-time priority

The book of a market lists the orders of each side, oldest first, the closed ones among them. An
incoming order is filled from the best-priced resting order that it accepts, and from the oldest of
those of one price, until it is full, the matches are used up or it accepts none that is left.
-/

namespace Backit.Orderbook

open Soroban Contract Lib

/-- For an incoming order of the side, one resting order is better priced than another. -/
def OrderSide.Beats (side : OrderSide) (a b : Order) : Prop :=
  match side with
  | .bid => a.priceBps < b.priceBps
  | .ask => b.priceBps < a.priceBps

instance (side : OrderSide) : DecidableRel side.Beats := fun a b => by
  unfold OrderSide.Beats
  cases side <;> infer_instance

/-- A stored order on the other side of the incoming order's market that it accepts. -/
structure Resting (s : Storage) (taker m : Order) : Prop where
  stored : s.order m.id = some m
  side : m.side = taker.side.opposite
  market : m.market = taker.market
  accepted : taker.Accepts m

/-- No resting order has a better price, and none of the same price is older. -/
structure BestResting (s : Storage) (taker maker : Order) : Prop extends Resting s taker maker where
  price : ∀ m, Resting s taker m → ¬ taker.side.Beats m maker
  time : ∀ m, Resting s taker m → m.priceBps = maker.priceBps → maker.id ≤ m.id

/-- Each side of a market's book lists its orders, by increasing ids. -/
structure Booked (s : Storage) : Prop where
  ids : ∀ id o, s.order id = some o → o.id = id ∧ id ≤ s.orderCounter
  listed : ∀ side market id, id ∈ s.orderbook side market ↔
    ∃ o, s.order id = some o ∧ o.side = side ∧ o.market = market
  increasing : ∀ side market, (s.orderbook side market).Pairwise (· < ·)

section Best

variable {s : Storage} {taker maker : Order} {bookIds : List Nat}

theorem OrderSide.beats_trans (side : OrderSide) (a b c : Order) :
    side.Beats a b → side.Beats b c → side.Beats a c := by
  cases side <;> simp only [OrderSide.Beats] <;> omega

theorem OrderSide.beats_weak (side : OrderSide) (a b c : Order) :
    side.Beats a c → side.Beats a b ∨ side.Beats b c := by
  cases side <;> simp only [OrderSide.Beats] <;> omega

theorem OrderSide.beats_asymm (side : OrderSide) (a b : Order) :
    side.Beats a b → ¬ side.Beats b a := by
  cases side <;> simp only [OrderSide.Beats] <;> omega

theorem OrderSide.not_beats_of_eq (side : OrderSide) {a b : Order} (h : b.priceBps = a.priceBps) :
    ¬ side.Beats a b := by
  cases side <;> simp only [OrderSide.Beats] <;> omega

/-- The scan of the book picks the first of the best of the orders it finds stored. -/
theorem bestMaker_eq (s : Storage) (taker : Order) (bookIds : List Nat) :
    bestMaker s taker bookIds =
      firstBest taker.Accepts taker.side.Beats (bookIds.filterMap s.order) := by
  rw [bestMaker, firstBest, List.foldl_filterMap]
  congr 1
  funext best id
  unfold bestOf
  cases s.order id with
  | none => rfl
  | some m =>
    have hbetter : betterThan taker.side m best = true ↔
        ∀ b ∈ best, taker.side.Beats m b := by
      cases best <;> cases taker.side <;> simp [betterThan, OrderSide.Beats]
    simp only [keepBetter, hbetter]

/-- A listed order that is found stored is one of the resting orders, and conversely. -/
theorem Booked.mem_found (h : Booked s) (m : Order) :
    m ∈ (s.orderbook taker.side.opposite taker.market).filterMap s.order ∧ taker.Accepts m ↔
      Resting s taker m := by
  rw [List.mem_filterMap]
  constructor
  · rintro ⟨⟨id, hid, hfound⟩, haccepts⟩
    obtain ⟨o, ho, hside, hmarket⟩ := (h.listed _ _ _).mp hid
    obtain rfl := Option.some.inj (hfound.symm.trans ho)
    exact ⟨by rw [(h.ids id m hfound).1, hfound], hside, hmarket, haccepts⟩
  · intro hm
    exact ⟨⟨m.id, (h.listed _ _ _).mpr ⟨m, hm.stored, hm.side, hm.market⟩, hm.stored⟩, hm.accepted⟩

/-- The orders found in a book are listed by increasing ids. -/
theorem Booked.found_increasing (h : Booked s) (side : OrderSide) (market : Market) :
    ((s.orderbook side market).filterMap s.order).Pairwise fun a b => a.id < b.id := by
  refine (h.increasing side market).filterMap s.order ?_
  intro i j hlt a ha b hb
  rw [(h.ids i a ha).1, (h.ids j b hb).1]
  exact hlt

/-- The order that the scan picks is the best resting one. -/
theorem Booked.best (h : Booked s)
    (hfacing : bookIds = s.orderbook taker.side.opposite taker.market)
    (hbest : bestMaker s taker bookIds = some maker) : BestResting s taker maker := by
  subst hfacing
  rw [bestMaker_eq] at hbest
  obtain ⟨haccepted, earlier, later, hsplit, hearlier, hlater⟩ :=
    firstBest_is_first_best taker.side.beats_trans taker.side.beats_weak hbest
  have hincreasing := h.found_increasing taker.side.opposite taker.market
  rw [hsplit, List.pairwise_append, List.pairwise_cons] at hincreasing
  have hplace : ∀ m, Resting s taker m → m ∈ earlier ∨ m = maker ∨ m ∈ later := by
    intro m hm
    have hfound := (h.mem_found m).mpr hm |>.1
    rwa [hsplit, List.mem_append, List.mem_cons] at hfound
  refine ⟨(h.mem_found maker).mp ⟨by rw [hsplit]; simp, haccepted⟩, fun m hm => ?_,
    fun m hm hsame => ?_⟩
  · obtain hm' | rfl | hm' := hplace m hm
    · exact taker.side.beats_asymm _ _ (hearlier m hm' hm.accepted)
    · exact taker.side.not_beats_of_eq rfl
    · exact hlater m hm' hm.accepted
  · obtain hm' | rfl | hm' := hplace m hm
    · exact absurd (hearlier m hm' hm.accepted) (taker.side.not_beats_of_eq hsame)
    · exact le_rfl
    · exact (hincreasing.2.1.1 m hm').le

/-- When the scan picks nothing, there is no resting order. -/
theorem Booked.none_resting (h : Booked s)
    (hfacing : bookIds = s.orderbook taker.side.opposite taker.market)
    (hnone : bestMaker s taker bookIds = none) (m : Order) : ¬ Resting s taker m := by
  subst hfacing
  rw [bestMaker_eq, firstBest_eq_none] at hnone
  intro hm
  obtain ⟨hfound, haccepts⟩ := (h.mem_found m).mpr hm
  exact hnone m hfound haccepts

end Best

/-- The same orders are stored and listed, some of them at another stage. -/
structure Advanced (s s' : Storage) : Prop where
  book : s'.orderbook = s.orderbook
  counter : s'.orderCounter = s.orderCounter
  orders : ∀ id, s.order id = none ∧ s'.order id = none ∨
    ∃ o o', s.order id = some o ∧ s'.order id = some o' ∧ o.Same o'

section Advance

variable {s s' s'' : Storage} {o o' o'' : Order}

theorem Order.Same.refl (o : Order) : o.Same o := ⟨rfl, rfl, rfl, rfl, rfl, rfl⟩

theorem Order.Same.trans (h : o.Same o') (h' : o'.Same o'') : o.Same o'' :=
  ⟨h'.id.trans h.id, h'.user.trans h.user, h'.side.trans h.side, h'.market.trans h.market,
    h'.amount.trans h.amount, h'.price.trans h.price⟩

theorem Advanced.of_orders (horder : s'.order = s.order) (hbook : s'.orderbook = s.orderbook)
    (hcounter : s'.orderCounter = s.orderCounter) : Advanced s s' where
  book := hbook
  counter := hcounter
  orders id := by
    rw [horder]
    cases hstored : s.order id with
    | none => exact .inl ⟨rfl, rfl⟩
    | some o => exact .inr ⟨o, o, rfl, rfl, .refl o⟩

theorem Advanced.refl (s : Storage) : Advanced s s := .of_orders rfl rfl rfl

theorem Advanced.trans (h : Advanced s s') (h' : Advanced s' s'') : Advanced s s'' where
  book := h'.book.trans h.book
  counter := h'.counter.trans h.counter
  orders id := by
    obtain ⟨hnone, hnone'⟩ | ⟨o, o', ho, ho', hsame⟩ := h.orders id
    · obtain ⟨-, hnone''⟩ | ⟨p, -, hp, -⟩ := h'.orders id
      · exact .inl ⟨hnone, hnone''⟩
      · rw [hnone'] at hp
        cases hp
    · obtain ⟨hnone, -⟩ | ⟨p, p', hp, hp', hsame'⟩ := h'.orders id
      · rw [hnone] at ho'
        cases ho'
      · obtain rfl := Option.some.inj (ho'.symm.trans hp)
        exact .inr ⟨o, p', ho, hp', hsame.trans hsame'⟩

theorem Advanced.setOrder (h : Advanced s s') (id : Nat) (hstored : s'.order id = some o)
    (hsame : o.Same o') : Advanced s (s'.setOrder id o') where
  book := h.book
  counter := h.counter
  orders i := by
    rw [order_setOrder]
    by_cases hi : i = id
    · subst hi
      obtain ⟨-, hnone⟩ | ⟨p, p', hp, hp', hkept⟩ := h.orders i
      · rw [hnone] at hstored
        cases hstored
      · obtain rfl := Option.some.inj (hp'.symm.trans hstored)
        exact .inr ⟨p, o', hp, if_pos rfl, hkept.trans hsame⟩
    · rw [if_neg hi]
      exact h.orders i

theorem Booked.advanced (h : Booked s) (hadvanced : Advanced s s') : Booked s' where
  ids id o' ho' := by
    obtain ⟨-, hnone⟩ | ⟨p, p', hp, hp', hsame⟩ := hadvanced.orders id
    · rw [hnone] at ho'
      cases ho'
    · obtain rfl := Option.some.inj (hp'.symm.trans ho')
      rw [hsame.id, hadvanced.counter]
      exact h.ids id p hp
  listed side market id := by
    rw [hadvanced.book, h.listed]
    obtain ⟨hnone, hnone'⟩ | ⟨p, p', hp, hp', hsame⟩ := hadvanced.orders id
    · simp [hnone, hnone']
    · simp [hp, hp', hsame.side, hsame.market]
  increasing := by
    rw [hadvanced.book]
    exact h.increasing

/-- A new order, numbered by the counter, is last in its list. -/
theorem Booked.resting (h : Booked s) (hnew : s.orderCounter < o.id) : Booked (s.resting o) where
  ids id p hp := by
    rw [order_resting] at hp
    show p.id = id ∧ id ≤ o.id
    split at hp
    · next heq =>
      cases hp
      exact ⟨heq.symm, heq.le⟩
    · obtain ⟨hid, hle⟩ := h.ids id p hp
      exact ⟨hid, by omega⟩
  listed side market id := by
    rw [orderbook_resting, h.listed, order_resting]
    by_cases hid : id = o.id
    · subst hid
      have hnone : s.order o.id = none := by
        cases hfound : s.order o.id with
        | none => rfl
        | some p =>
          have := (h.ids _ _ hfound).2
          omega
      simp [hnone, eq_comm]
    · simp [hid]
  increasing side market := by
    show (Function.update s.orderbook o.side (Function.update (s.orderbook o.side) o.market
      (s.orderbook o.side o.market ++ [o.id])) side market).Pairwise (· < ·)
    by_cases hside : side = o.side
    · subst hside
      rw [Function.update_self, Function.update_apply]
      split
      · refine List.pairwise_append.mpr ⟨h.increasing _ _, List.pairwise_singleton _ _, ?_⟩
        intro i hi j hj
        obtain rfl := List.mem_singleton.mp hj
        obtain ⟨p, hp, -⟩ := (h.listed _ _ _).mp hi
        have := (h.ids i p hp).2
        omega
      · exact h.increasing _ _
    · rw [Function.update_of_ne hside]
      exact h.increasing _ _

end Advance

section Fills

variable {env : Env} {token : Address} {s s' : Storage} {o o' taker taker' maker buyer seller
  buyer' : Order} {fill pay : Int} {effects : List (Effect Event)}

theorem Released.kept (h : Released env s o effects s' o') :
    s'.order = s.order ∧ s'.orderbook = s.orderbook ∧ s'.orderCounter = s.orderCounter ∧
      o.Same o' := by
  cases h <;> exact ⟨rfl, rfl, rfl, rfl, rfl, rfl, rfl, rfl, rfl⟩

/-- An exchange stores both orders at their next stages. -/
theorem Filled.advanced (h : Filled env token s buyer seller fill pay effects s' buyer')
    (hbuyer : s.order buyer.id = some buyer) (hseller : s.order seller.id = some seller)
    (hne : seller.id ≠ buyer.id) :
    Advanced s s' ∧ buyer.Same buyer' ∧ s'.order buyer.id = some buyer' ∧
      s'.order seller.id = some (seller.sold fill) := by
  have hsold := seller.sold_same fill
  have hboth : ∀ s₁ : Storage, s₁.order = s.order → s₁.orderbook = s.orderbook →
      s₁.orderCounter = s.orderCounter → ∀ bought : Order, buyer.Same bought →
      Advanced s ((s₁.setOrder buyer.id bought).setOrder seller.id (seller.sold fill)) ∧
        buyer.Same bought ∧
        ((s₁.setOrder buyer.id bought).setOrder seller.id (seller.sold fill)).order buyer.id =
          some bought ∧
        ((s₁.setOrder buyer.id bought).setOrder seller.id (seller.sold fill)).order seller.id =
          some (seller.sold fill) := by
    intro s₁ horder hbook hcounter bought hsame
    have hfirst := (Advanced.of_orders horder hbook hcounter).setOrder buyer.id
      (by rw [horder, hbuyer]) hsame
    refine ⟨hfirst.setOrder seller.id ?_ hsold, hsame, ?_, ?_⟩
    · rw [order_setOrder, if_neg hne, horder, hseller]
    · rw [order_setOrder, if_neg hne.symm, order_setOrder, if_pos rfl]
    · rw [order_setOrder, if_pos rfl]
  have hbought := buyer.bought_same fill pay
  cases h with
  | unfinished =>
    rw [hbought.id, hsold.id]
    exact hboth (s.credited buyer.user buyer.market fill) rfl rfl rfl _ hbought
  | finished _ hreleased =>
    obtain ⟨horder, hbook, hcounter, hsame⟩ := hreleased.kept
    rw [(hbought.trans hsame).id, hsold.id]
    exact hboth _ horder hbook hcounter _ (hbought.trans hsame)

/-- A fill stores the incoming order at its next stage. -/
theorem FilledFrom.advanced (h : FilledFrom env token s taker maker effects s' taker')
    (htaker : s.order taker.id = some taker) (hmaker : s.order maker.id = some maker)
    (hne : maker.id ≠ taker.id) :
    Advanced s s' ∧ taker.Same taker' ∧ s'.order taker'.id = some taker' := by
  cases h with
  | bought _ hfilled =>
    obtain ⟨hadvanced, hsame, hstored, -⟩ := hfilled.advanced htaker hmaker hne
    exact ⟨hadvanced, hsame, hsame.id ▸ hstored⟩
  | sold _ hfilled =>
    obtain ⟨hadvanced, -, -, hstored⟩ := hfilled.advanced hmaker htaker hne.symm
    have hsame := taker.sold_same (fillOf taker maker)
    exact ⟨hadvanced, hsame, hsame.id ▸ hstored⟩

end Fills

/-- One fill of an incoming order: the storage, the incoming order and the resting one before it. -/
structure Fill where
  before : Storage
  taker : Order
  maker : Order

namespace Fill

/-- The shares exchanged. -/
def amount (fill : Fill) : Int := fillOf fill.taker fill.maker

/-- The price they are exchanged at. -/
def price (fill : Fill) : Nat := fill.maker.priceBps

def buyer (fill : Fill) : Order :=
  match fill.taker.side with
  | .bid => fill.taker
  | .ask => fill.maker

def seller (fill : Fill) : Order :=
  match fill.taker.side with
  | .bid => fill.maker
  | .ask => fill.taker

/-- What the buyer pays and the seller gets. -/
def payment (fill : Fill) : Int := costOf fill.amount fill.price

/-- The fill is of the best resting order, at a price within the limits of both sides, who pay and
get no worse than what the shares cost at their own prices. -/
structure Fair (fill : Fill) : Prop where
  best : BestResting fill.before fill.taker fill.maker
  positive : 0 < fill.amount
  buyerLimit : fill.price ≤ fill.buyer.priceBps
  sellerLimit : fill.seller.priceBps ≤ fill.price
  buyerPays : fill.payment ≤ costOf fill.amount fill.buyer.priceBps
  sellerGets : costOf fill.amount fill.seller.priceBps ≤ fill.payment

end Fill

/-- The fills that an incoming order gets, first to last. -/
inductive Filling (env : Env) (token : Address) :
    Storage → Order → List Fill → List (Effect Event) → Storage → Order → Prop where
  | done {s taker} : Filling env token s taker [] [] s taker
  | fill {s taker maker effects s₁ taker₁ fills later s₂ taker₂} :
      FilledFrom env token s taker maker effects s₁ taker₁ →
      Filling env token s₁ taker₁ fills later s₂ taker₂ →
      Filling env token s taker (⟨s, taker, maker⟩ :: fills) (later ++ effects) s₂ taker₂

section Priority

variable {env : Env} {token : Address} {s s' : Storage} {taker taker' maker : Order}
  {effects : List (Effect Event)} {bookIds : List Nat} {n : Nat}

/-- A resting order that the incoming one accepts is not that order itself. -/
theorem Resting.ne (h : Resting s taker maker) (hstored : s.order taker.id = some taker) :
    maker.id ≠ taker.id := by
  intro heq
  have hfound := h.stored
  rw [heq, hstored] at hfound
  obtain rfl := Option.some.inj hfound
  exact h.accepted.2.1 rfl

theorem costOf_mono {fill : Int} {price limit : Nat} (hfill : 0 < fill) (hprice : price ≤ limit) :
    costOf fill price ≤ costOf fill limit := by
  have hle := costOf_fill_le hfill.le le_rfl hprice
  have hrest : 0 ≤ costOf (fill - fill) limit := costOf_nonneg (by omega)
  omega

theorem BestResting.fair (h : BestResting s taker maker) (hleft : taker.filled < taker.amount) :
    (⟨s, taker, maker⟩ : Fill).Fair := by
  obtain ⟨-, -, hoffered, hprice⟩ := h.accepted
  have hpositive : 0 < fillOf taker maker := by
    unfold fillOf
    omega
  have hlimits : maker.priceBps ≤ (Fill.mk s taker maker).buyer.priceBps ∧
      (Fill.mk s taker maker).seller.priceBps ≤ maker.priceBps := by
    unfold Fill.buyer Fill.seller
    dsimp only
    cases hside : taker.side with
    | bid =>
      rw [hside] at hprice
      exact ⟨hprice, le_rfl⟩
    | ask =>
      rw [hside] at hprice
      exact ⟨le_rfl, hprice⟩
  exact ⟨h, hpositive, hlimits.1, hlimits.2, costOf_mono hpositive hlimits.1,
    costOf_mono hpositive hlimits.2⟩

/-- The matching loop makes fair fills, no more than it may, and ends for one of its reasons. -/
theorem Matching.fills (h : Matching env token bookIds n s taker effects s' taker')
    (hbooked : Booked s) (hstored : s.order taker.id = some taker)
    (hfacing : bookIds = s.orderbook taker.side.opposite taker.market) :
    Advanced s s' ∧ s'.order taker'.id = some taker' ∧
      ∃ fills, Filling env token s taker fills effects s' taker' ∧
        (∀ fill ∈ fills, taker.Same fill.taker ∧ fill.Fair) ∧ taker.Same taker' ∧
        fills.length ≤ n ∧
        (taker'.amount ≤ taker'.filled ∨ fills.length = n ∨ ∀ m, ¬ Resting s' taker' m) := by
  induction h with
  | @exhausted s taker =>
    exact ⟨.refl s, hstored, [], .done, by simp, .refl taker, le_rfl, .inr (.inl rfl)⟩
  | @full n s taker hfull =>
    exact ⟨.refl s, hstored, [], .done, by simp, .refl taker, Nat.zero_le _, .inl hfull⟩
  | @unmatched n s taker hleft hnone =>
    exact ⟨.refl s, hstored, [], .done, by simp, .refl taker, Nat.zero_le _,
      .inr (.inr (hbooked.none_resting hfacing hnone))⟩
  | @fill n s taker maker _ s₁ taker₁ _ s₂ taker₂ hleft hbest hfilled _ ih =>
    have hmaker := hbooked.best hfacing hbest
    obtain ⟨hadvanced, hsame, hstored₁⟩ :=
      hfilled.advanced hstored hmaker.stored (hmaker.ne hstored)
    have hfacing₁ : bookIds = s₁.orderbook taker₁.side.opposite taker₁.market := by
      rw [hadvanced.book, hsame.side, hsame.market, hfacing]
    obtain ⟨hadvanced₂, hstored₂, fills, hfills, hfair, hsame₂, hcount, hend⟩ :=
      ih (hbooked.advanced hadvanced) hstored₁ hfacing₁
    refine ⟨hadvanced.trans hadvanced₂, hstored₂, ⟨s, taker, maker⟩ :: fills,
      .fill hfilled hfills, ?_, hsame.trans hsame₂, Nat.succ_le_succ hcount, ?_⟩
    · refine List.forall_mem_cons.mpr ⟨⟨.refl taker, hmaker.fair hleft⟩, fun fill hfill => ?_⟩
      exact ⟨hsame.trans (hfair fill hfill).1, (hfair fill hfill).2⟩
    · obtain hfull | hall | hnone := hend
      · exact .inl hfull
      · exact .inr (.inl (congrArg Nat.succ hall))
      · exact .inr (.inr hnone)

end Priority

section Steps

variable {env : Env} {op : BookOp} {s s' : Storage} {effects : List (Effect Event)}
  {token : Address}

theorem Escrowed.advanced {user : Address} {market : Market} {amount escrow : Int}
    {priceBps : Nat} {side : OrderSide}
    (h : Escrowed env token s user market amount priceBps side effects s' escrow) :
    Advanced s s' := by
  cases h with
  | bid => exact .refl s
  | ask => exact .of_orders rfl rfl rfl

/-- The book with a new order is what the matching loop starts from. -/
theorem Booked.opened {user : Address} {callId outcome : Nat} {amount escrow : Int}
    {priceBps : Nat} {side : OrderSide} {order : Order} (h : Booked s)
    (hescrowed : Escrowed env token s user (callId, outcome) amount priceBps side effects s' escrow)
    (horder : order = s.newOrder env user callId outcome amount priceBps side escrow) :
    Booked (s'.resting order) ∧ (s'.resting order).order order.id = some order := by
  subst horder
  have hadvanced := hescrowed.advanced
  refine ⟨(h.advanced hadvanced).resting ?_, Function.update_self ..⟩
  rw [hadvanced.counter]
  exact Nat.lt_succ_self _

theorem Transition.booked (h : Transition env op s effects s') (hbooked : Booked s) :
    Booked s' := by
  cases h with
  | initialized => exact ⟨hbooked.ids, hbooked.listed, hbooked.increasing⟩
  | configured => exact ⟨hbooked.ids, hbooked.listed, hbooked.increasing⟩
  | minted => exact ⟨hbooked.ids, hbooked.listed, hbooked.increasing⟩
  | placed _ _ _ _ _ _ hescrowed horder hmatching =>
    obtain ⟨hopened, hstored⟩ := hbooked.opened hescrowed horder
    obtain ⟨hadvanced, hstored', -⟩ := hmatching.fills hopened hstored (by subst horder; rfl)
    exact hopened.advanced (hadvanced.setOrder _ hstored' (.refl _))
  | @cancelled _ _ o _ _ _ o' _ hstored _ _ hreleased =>
    obtain ⟨horder, hbook, hcounter, hsame⟩ := hreleased.kept
    have hclosed : o.Same { o' with active := false } := hsame.trans ⟨rfl, rfl, rfl, rfl, rfl, rfl⟩
    refine hbooked.advanced ((Advanced.of_orders horder hbook hcounter).setOrder _ ?_ hclosed)
    rw [horder, hstored]

theorem Transition.of_placement {user : Address} {callId outcome : Nat} {amount : Int}
    {priceBps : Nat} {side : OrderSide} (h : Transition env op s effects s')
    (hop : Places op user callId outcome amount priceBps side) :
    ∃ token moved s₁ escrow order later s₂ taker,
      Escrowed env token s user (callId, outcome) amount priceBps side moved s₁ escrow ∧
      order = s.newOrder env user callId outcome amount priceBps side escrow ∧
      Matching env token ((s₁.resting order).orderbook side.opposite (callId, outcome))
        maxMatchesPerOrder (s₁.resting order) order later s₂ taker ∧
      effects = later ++
        .event (.orderPlaced order.id user callId outcome (decide (side = .bid))) :: moved ∧
      s' = s₂.setOrder taker.id taker := by
  cases h with
  | initialized => cases hop
  | configured => cases hop
  | minted => cases hop
  | cancelled => cases hop
  | placed hplaces _ _ _ _ _ hescrowed horder hmatching =>
    have hsame : ∀ {user' callId' outcome' amount' priceBps' side'},
        Places op user' callId' outcome' amount' priceBps' side' →
        user' = user ∧ callId' = callId ∧ outcome' = outcome ∧ amount' = amount ∧
          priceBps' = priceBps ∧ side' = side := by
      intro _ _ _ _ _ _ hother
      cases hop with
      | bid =>
        cases hother
        exact ⟨rfl, rfl, rfl, rfl, rfl, rfl⟩
      | ask =>
        cases hother
        exact ⟨rfl, rfl, rfl, rfl, rfl, rfl⟩
    obtain ⟨rfl, rfl, rfl, rfl, rfl, rfl⟩ := hsame hplaces
    exact ⟨_, _, _, _, _, _, _, _, hescrowed, horder, hmatching, rfl, rfl⟩

end Steps

/-- The order may still be filled. -/
def Order.Open (o : Order) : Prop := o.active = true ∧ o.filled < o.amount

/-- An open order accepts an older one that rests on the other side of its market. -/
structure Crosses (s : Storage) (o older : Order) : Prop extends Resting s o older where
  found : s.order o.id = some o
  opened : o.Open
  older : older.id < o.id

/-- An effect is the announcement of a fill. -/
def executes : Effect Event → Bool
  | .event (.orderExecuted ..) => true
  | _ => false

/-- An order was placed, and it used up its matches. -/
def UsedUp (id : Nat) (effects : List (Effect Event)) : Prop :=
  (∃ user callId outcome isBid,
    Effect.event (.orderPlaced id user callId outcome isBid) ∈ effects) ∧
  maxMatchesPerOrder ≤ effects.countP executes

/-- Every open order is one that was open before, at a later stage. -/
def Dwindled (s s' : Storage) : Prop :=
  ∀ id o', s'.order id = some o' → o'.Open → ∃ o, s.order id = some o ∧ o.Open ∧ o.Same o'

section Crossing

variable {env : Env} {token : Address} {op : BookOp} {s s' s'' : Storage}
  {o o' older taker taker' maker buyer buyer' seller : Order} {fill pay : Int} {fills : List Fill}
  {effects : List (Effect Event)}

theorem Order.Open.before_fill (h : o'.closeIfFilled.Open) (hactive : o'.active = o.active)
    (hamount : o'.amount = o.amount) (hfilled : o.filled ≤ o'.filled) : o.Open := by
  unfold Order.closeIfFilled at h
  split at h
  · cases h.1
  · obtain ⟨hopen, hleft⟩ := h
    exact ⟨hactive ▸ hopen, by omega⟩

theorem Dwindled.of_order (h : s'.order = s.order) : Dwindled s s' :=
  fun id o hstored hopen => ⟨o, by rw [← h, hstored], hopen, .refl o⟩

theorem Dwindled.trans (h : Dwindled s s') (h' : Dwindled s' s'') : Dwindled s s'' := by
  intro id o'' hstored'' hopen''
  obtain ⟨o', hstored', hopen', hsame'⟩ := h' id o'' hstored'' hopen''
  obtain ⟨o, hstored, hopen, hsame⟩ := h id o' hstored' hopen'
  exact ⟨o, hstored, hopen, hsame.trans hsame'⟩

theorem Dwindled.setOrder (h : Dwindled s s') {id : Nat} (hstored : s.order id = some o)
    (hlater : o'.Open → o.Open ∧ o.Same o') : Dwindled s (s'.setOrder id o') := by
  intro i p hp hopen
  rw [order_setOrder] at hp
  split at hp
  · next hi =>
    subst hi
    cases hp
    exact ⟨o, hstored, hlater hopen⟩
  · exact h i p hp hopen

/-- An exchange opens no order. -/
theorem Filled.dwindled (h : Filled env token s buyer seller fill pay effects s' buyer')
    (hbuyer : s.order buyer.id = some buyer) (hseller : s.order seller.id = some seller)
    (hfill : 0 ≤ fill) : Dwindled s s' := by
  have hbought := buyer.bought_same fill pay
  have hsold := seller.sold_same fill
  have hbuyerOpen : (buyer.bought fill pay).Open → buyer.Open := fun h =>
    h.before_fill rfl rfl (le_add_of_nonneg_right hfill)
  have hsellerOpen : (seller.sold fill).Open → seller.Open := fun h =>
    h.before_fill rfl rfl (le_add_of_nonneg_right hfill)
  rw [← hsold.id] at hseller
  cases h with
  | unfinished =>
    rw [← hbought.id] at hbuyer
    exact ((Dwindled.of_order rfl).setOrder hbuyer fun h => ⟨hbuyerOpen h, hbought⟩).setOrder
      hseller fun h => ⟨hsellerOpen h, hsold⟩
  | finished hclosed hreleased =>
    obtain ⟨horder, -, -, hsame⟩ := hreleased.kept
    have hstill : buyer'.active = false := by cases hreleased <;> exact hclosed
    rw [← (hbought.trans hsame).id] at hbuyer
    refine ((Dwindled.of_order horder).setOrder hbuyer fun h => ?_).setOrder hseller fun h =>
      ⟨hsellerOpen h, hsold⟩
    rw [Order.Open, hstill] at h
    cases h.1

/-- A fair fill opens no order, and it is announced. -/
theorem FilledFrom.dwindled (h : FilledFrom env token s taker maker effects s' taker')
    (htaker : s.order taker.id = some taker) (hfair : (⟨s, taker, maker⟩ : Fill).Fair) :
    Dwindled s s' ∧ 0 < effects.countP executes := by
  have hmaker := hfair.best.stored
  cases h with
  | bought _ hfilled =>
    exact ⟨hfilled.dwindled htaker hmaker hfair.positive.le, by simp [executed, executes]⟩
  | sold _ hfilled =>
    exact ⟨hfilled.dwindled hmaker htaker hfair.positive.le, by simp [executed, executes]⟩

theorem Filling.dwindled (h : Filling env token s taker fills effects s' taker')
    (hstored : s.order taker.id = some taker) (hfair : ∀ fill ∈ fills, fill.Fair) :
    Dwindled s s' ∧ fills.length ≤ effects.countP executes := by
  induction h with
  | done => exact ⟨.of_order rfl, le_rfl⟩
  | fill hfilled _ ih =>
    obtain ⟨hfirst, hrest⟩ := List.forall_mem_cons.mp hfair
    obtain ⟨-, -, hstored₁⟩ := hfilled.advanced hstored hfirst.best.stored (hfirst.best.ne hstored)
    obtain ⟨hlater, hcount⟩ := ih hstored₁ hrest
    obtain ⟨hnext, hpos⟩ := hfilled.dwindled hstored hfirst
    refine ⟨hnext.trans hlater, ?_⟩
    rw [List.countP_append, List.length_cons]
    omega

theorem Crosses.before (h : Crosses s' o' older) (hdwindled : Dwindled s s') :
    ∃ o m, Crosses s o m ∧ o.id = o'.id := by
  obtain ⟨⟨hstored, hside, hmarket, hactive, huser, hleft, hprice⟩, hfound, hopen, holder⟩ := h
  obtain ⟨o, ho, hoOpen, hsame⟩ := hdwindled _ _ hfound hopen
  obtain ⟨m, hm, hmOpen, hmSame⟩ := hdwindled _ _ hstored ⟨hactive, hleft⟩
  rw [hsame.id] at ho holder
  rw [hmSame.id] at hm holder
  rw [hmSame.side, hsame.side] at hside
  rw [hmSame.market, hsame.market] at hmarket
  rw [hmSame.user, hsame.user] at huser
  rw [hsame.side, hsame.price, hmSame.price] at hprice
  exact ⟨o, m, ⟨⟨hm, hside, hmarket, hmOpen.1, huser, hmOpen.2, hprice⟩, ho, hoOpen, holder⟩,
    hsame.id.symm⟩

/-- An order that crosses an older one did so before the operation, or the operation placed it. -/
theorem Transition.crosses (h : Transition env op s effects s') (hbooked : Booked s)
    (hcrosses : Crosses s' o older) :
    (∃ o' m, Crosses s o' m ∧ o'.id = o.id) ∨ UsedUp o.id effects := by
  cases h with
  | initialized => exact .inl (hcrosses.before (.of_order rfl))
  | configured => exact .inl (hcrosses.before (.of_order rfl))
  | minted => exact .inl (hcrosses.before (.of_order rfl))
  | @placed _ _ _ _ _ _ _ _ _ _ s₁ _ order _ s₂ taker _ _ _ _ _ _ hescrowed horder hmatching =>
    obtain ⟨hopened, hstored⟩ := hbooked.opened hescrowed horder
    obtain ⟨-, hstored', fills, hfills, hfair, hsame, -, hend⟩ :=
      hmatching.fills hopened hstored (by subst horder; rfl)
    rw [Storage.setOrder, ← hstored', Function.update_eq_self] at hcrosses
    obtain ⟨hdwindled, hcount⟩ := hfills.dwindled hstored fun fill h => (hfair fill h).2
    by_cases hnew : o.id = order.id
    · have hfound := hcrosses.found
      rw [hnew, ← hsame.id, hstored'] at hfound
      obtain rfl := Option.some.inj hfound
      have hlast : fills.length = maxMatchesPerOrder := by
        obtain hfull | hlast | hnone := hend
        · exact absurd hcrosses.opened.2 (by omega)
        · exact hlast
        · exact absurd hcrosses.toResting (hnone older)
      rw [hnew]
      refine .inr ⟨⟨_, _, _, _, List.mem_append_right _ (.head _)⟩, ?_⟩
      rw [List.countP_append]
      omega
    · -- Both orders were there before the new one.
      obtain ⟨o', m, hbefore, hid⟩ := hcrosses.before hdwindled
      have hle : o'.id ≤ order.id := (hopened.ids _ _ hbefore.found).2
      have holder := hbefore.older
      have hkept : ∀ i ≠ order.id, s.order i = (s₁.resting order).order i := by
        intro i hi
        rw [order_resting, if_neg hi]
        cases hescrowed <;> rfl
      refine .inl ⟨o', m, { hbefore with stored := ?_, found := ?_ }, hid⟩
      · rw [hkept _ (by omega), hbefore.stored]
      · rw [hkept _ (by omega), hbefore.found]
  | cancelled _ hstored _ _ hreleased =>
    exact .inl (hcrosses.before ((Dwindled.of_order hreleased.kept.1).setOrder hstored
      fun hopen => by cases hopen.1))

end Crossing

section Run

variable {T : Type} [Tokens T] {self : Address} {outside : T → T → Prop}
  {history : List (Happening BookOp Event)} {d : Deployment Storage T}

theorem booked_empty : Booked Storage.empty where
  ids := by simp [Storage.empty]
  listed := by simp [Storage.empty]
  increasing := by simp [Storage.empty]

theorem booked_of_run (run : (orderbook self outside).Run history d) : Booked d.store := by
  refine store_invariant (I := Booked) ?_ ?_ run
  · intro d hstart
    rw [hstart.1]
    exact booked_empty
  · intro _ d env op f _ ih _ hinvoke _
    obtain ⟨effects, -, -, htransition⟩ := BookOp.transitions hinvoke
    exact htransition.booked ih

/-- A placement fills its order, as it was stored, from the best-priced compatible resting orders of
other users, the earliest among equals, within both limits, and ends when the order is full, with
the last of twenty matches, or when no compatible resting order is left. -/
theorem price_time_priority {env : Env} {op : BookOp} {f : Frame Storage T Event} {user : Address}
    {callId outcome : Nat} {amount : Int} {priceBps : Nat} {side : OrderSide}
    (history : List (Happening BookOp Event)) (hrun : (orderbook self outside).Run history d)
    (hop : Places op user callId outcome amount priceBps side)
    (hinvoke : run op.perform env d.frame = .ok ((), f)) :
    ∃ token moved s escrow order effects taker fills,
      Escrowed env token d.store user (callId, outcome) amount priceBps side moved s escrow ∧
      order = d.store.newOrder env user callId outcome amount priceBps side escrow ∧
      Filling env token (s.resting order) order fills effects f.store taker ∧
      f.effects = effects ++
        .event (.orderPlaced order.id user callId outcome (decide (side = .bid))) :: moved ∧
      (∀ fill ∈ fills, order.Same fill.taker ∧ fill.Fair) ∧
      f.store.order order.id = some taker ∧ order.Same taker ∧
      fills.length ≤ maxMatchesPerOrder ∧
      (taker.amount ≤ taker.filled ∨ fills.length = maxMatchesPerOrder ∨
        ∀ m, ¬ Resting f.store taker m) := by
  have hbooked := booked_of_run hrun
  obtain ⟨effects, heffects, -, htransition⟩ := BookOp.transitions hinvoke
  obtain ⟨token, moved, s, escrow, order, later, s', taker, hescrowed, horder, hmatching, rfl,
    hstore⟩ := htransition.of_placement hop
  obtain ⟨hopened, hstored⟩ := hbooked.opened hescrowed horder
  obtain ⟨-, hstored', fills, hfills, hfair, hsame, hcount, hend⟩ :=
    hmatching.fills hopened hstored (by subst horder; rfl)
  have hkept : s'.setOrder taker.id taker = s' := by
    rw [Storage.setOrder, ← hstored', Function.update_eq_self]
  rw [hkept] at hstore
  refine ⟨token, moved, s, escrow, order, later, taker, fills, hescrowed, horder, hstore ▸ hfills,
    ?_, hfair, ?_, hsame, hcount, hstore ▸ hend⟩
  · rw [heffects]
    exact List.append_nil _
  · rw [hstore, ← hsame.id, hstored']

/-- When an open order accepts an older one that rests on the other side of its market, it used up
its matches when it was placed. -/
theorem crossing_used_up {o older : Order} (hrun : (orderbook self outside).Run history d)
    (hcrosses : Crosses d.store o older) : ∃ i ∈ invocations history, UsedUp o.id i.effects := by
  refine contract_invariant (I := fun h d => ∀ o older, Crosses d.store o older →
    ∃ i ∈ invocations h, UsedUp o.id i.effects) ?_ ?_ ?_ hrun o older hcrosses
  · intro d hstart o older h
    rw [hstart.1] at h
    cases h.found
  · intro h d env op f hrun ih _ hinvoke _ o older hcrosses
    obtain ⟨effects, heffects, -, htransition⟩ := BookOp.transitions hinvoke
    obtain rfl : f.effects = effects := heffects.trans (List.append_nil _)
    obtain ⟨o', m, hbefore, hid⟩ | hused := htransition.crosses (booked_of_run hrun) hcrosses
    · obtain ⟨i, hi, hused⟩ := ih o' m hbefore
      exact ⟨i, .tail _ hi, hid ▸ hused⟩
    · exact ⟨_, .head _, hused⟩
  · exact fun _ _ _ _ ih _ => ih

end Run

/-- Alice asks for sixty cents, then twice for forty. Bob bids at fifty for less than her two cheap
asks offer. -/
def quotedScript : List (Env × BookOp) :=
  [at_ 1 [admin] (.initializeOrderbook admin),
    at_ 2 [admin] (.setToken usdc),
    at_ 3 [alice] (.mintShares alice 1 1 100),
    at_ 4 [alice] (.placeAsk alice 1 1 30 6000),
    at_ 5 [alice] (.placeAsk alice 1 1 30 4000),
    at_ 6 [alice] (.placeAsk alice 1 1 40 4000)]

def quotedRun : System.Replayed alone invoke keepsToken :=
  .of freshDeployment fresh_deployment_initial quotedScript (by decide +kernel)

theorem quoted_run : alone.Run quotedRun.history quotedRun.state :=
  (quotedRun.run Deployment.next_step keepsToken_allowed).run

/-- Bob's bid for fifty shares, and when he makes it. -/
def crossingBid : Env × BookOp := at_ 7 [bob] (.placeBid bob 1 1 50 5000)

/-- What is filled of an order after Bob's bid. -/
def filledAfterBid (id : Nat) : Option Int :=
  match run crossingBid.2.perform crossingBid.1 quotedRun.state.frame with
  | .ok (_, f) => (f.store.order id).map Order.filled
  | .error _ => none

/-- Bob gets all of the earlier cheap ask and the rest from the later one. -/
example : [1, 2, 3, 4].map filledAfterBid = [some 0, some 30, some 20, some 50] := by
  decide +kernel

/-- Bob's bid is filled at the best prices. -/
theorem bid_filled_fairly :
    ∃ f taker, ∃ fills : List Fill,
      run crossingBid.2.perform crossingBid.1 quotedRun.state.frame = .ok ((), f) ∧
      f.store.order 4 = some taker ∧ taker.filled = 50 ∧ fills.length ≤ maxMatchesPerOrder ∧
      ∀ fill ∈ fills, fill.Fair := by
  have hfilled : filledAfterBid 4 = some 50 := by decide +kernel
  have hcounter : quotedRun.state.store.orderCounter = 3 := by decide +kernel
  unfold filledAfterBid at hfilled
  cases hinvoke : run crossingBid.2.perform crossingBid.1 quotedRun.state.frame with
  | error e =>
    rw [hinvoke] at hfilled
    cases hfilled
  | ok r =>
    obtain ⟨⟨⟩, f⟩ := r
    obtain ⟨_, _, _, _, order, _, taker, fills, -, horder, -, -, hfair, hstored, -, hcount, -⟩ :=
      price_time_priority quotedRun.history quoted_run .bid hinvoke
    have hid : order.id = 4 := by rw [horder, Storage.newOrder, hcounter]
    rw [hid] at hstored
    rw [hinvoke] at hfilled
    dsimp only at hfilled
    rw [hstored] at hfilled
    exact ⟨f, taker, fills, rfl, hstored, Option.some.inj hfilled, hcount,
      fun fill hfill => (hfair fill hfill).2⟩

/-- Alice asks for one share at forty cents, twenty-one times, before Bob bids for all of them. -/
def fragmentedScript : List (Env × BookOp) :=
  [at_ 1 [admin] (.initializeOrderbook admin), at_ 2 [admin] (.setToken usdc),
    at_ 3 [alice] (.mintShares alice 1 1 21)] ++
  List.replicate 21 (at_ 4 [alice] (.placeAsk alice 1 1 1 4000)) ++
  [at_ 5 [bob] (.placeBid bob 1 1 21 5000)]

def fragmentedRun : System.Replayed alone invoke keepsToken :=
  .of freshDeployment fresh_deployment_initial fragmentedScript (by decide +kernel)

/-- Twenty matches leave one of the asks, and one share of the bid for all of them. -/
theorem fragments_used_up : ∃ i ∈ invocations fragmentedRun.history, UsedUp 22 i.effects :=
  have run : alone.Run fragmentedRun.history fragmentedRun.state :=
    (fragmentedRun.run Deployment.next_step keepsToken_allowed).run
  have crosses : Crosses fragmentedRun.state.store ⟨22, bob, 1, 1, .bid, 21, 5000, 20, 5, true, 10⟩
      ⟨21, alice, 1, 1, .ask, 1, 4000, 0, 4, true, 0⟩ :=
    ⟨⟨by decide +kernel, rfl, rfl, by decide⟩, by decide +kernel, ⟨rfl, by decide⟩, by decide⟩
  crossing_used_up run crosses

end Backit.Orderbook
