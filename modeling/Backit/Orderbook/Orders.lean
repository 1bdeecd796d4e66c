import Backit.Soroban.Host

/-!
# The order book

Users lock collateral for outcome shares, one for one, and trade the shares by limit orders. A bid
escrows its worst-case cost and an ask its shares. An incoming order is matched against the other
side of the book at the prices of the resting orders, best price first and the earliest order first
among equals.
-/

namespace Backit.Orderbook

open Soroban Contract

/-- The contract's error codes that its entry points return. -/
inductive OrderbookError where
  | alreadyInitialized
  | notInitialized
  | unauthorized
  | invalidAmount
  | invalidPrice
  | orderNotFound
  | tokenNotSet
  | insufficientShares
  | overflow
  deriving DecidableEq

inductive Event where
  | orderPlaced (orderId : Nat) (user : Address) (callId outcome : Nat) (isBid : Bool)
  | orderCancelled (orderId : Nat)
  | orderExecuted (maker taker : Address) (callId outcome : Nat) (amount : Int) (price : Nat)
  deriving DecidableEq

inductive OrderSide where
  | bid
  | ask
  deriving DecidableEq

def OrderSide.opposite : OrderSide → OrderSide
  | .bid => .ask
  | .ask => .bid

/-- A limit order; `escrow` is the collateral still escrowed for an open bid. -/
structure Order where
  id : Nat
  user : Address
  callId : Nat
  outcome : Nat
  side : OrderSide
  amount : Int
  priceBps : Nat
  filled : Int
  createdAt : Nat
  active : Bool
  escrow : Int
  deriving DecidableEq

structure OrderbookConfig where
  admin : Address
  feeBps : Nat
  protocolFeeBps : Nat
  lpFeeBps : Nat
  deriving DecidableEq

def maxMatchesPerOrder : Nat := 20

def protocolFeeBps : Nat := 25

def lpFeeBps : Nat := 5

/-- What shares are of: an outcome of a call. -/
abbrev Market := Nat × Nat

def Order.market (o : Order) : Market := (o.callId, o.outcome)

structure Storage where
  config : Option OrderbookConfig
  orderCounter : Nat
  order : Nat → Option Order
  userOrders : Address → List Nat
  /-- The lists under the keys `OrderbookBids` and `OrderbookAsks`. -/
  orderbook : OrderSide → Market → List Nat
  token : Option Address
  shares : Market → Address → Int

namespace Storage

/-- The storage of a freshly deployed contract. -/
def empty : Storage := ⟨none, 0, fun _ => none, fun _ => [], fun _ _ => [], none, fun _ _ => 0⟩

variable (s : Storage)

def setConfig (config : OrderbookConfig) : Storage := { s with config := some config }

def setOrderCounter (id : Nat) : Storage := { s with orderCounter := id }

def setOrder (id : Nat) (order : Order) : Storage :=
  { s with order := Function.update s.order id (some order) }

def addUserOrder (user : Address) (orderId : Nat) : Storage :=
  { s with userOrders := Function.update s.userOrders user (s.userOrders user ++ [orderId]) }

def addToBook (side : OrderSide) (market : Market) (orderId : Nat) : Storage :=
  { s with
    orderbook := Function.update s.orderbook side
      (Function.update (s.orderbook side) market (s.orderbook side market ++ [orderId])) }

def setToken (token : Address) : Storage := { s with token := some token }

def setShares (user : Address) (market : Market) (amount : Int) : Storage :=
  { s with
    shares := Function.update s.shares market (Function.update (s.shares market) user amount) }

end Storage

/-- A computation of an entry point. -/
abbrev Book (T α : Type) := Contract (Frame Storage T Event) OrderbookError α

variable {T : Type}

/-- Collateral for `shares` at `price_bps` (10_000 bps = 1 collateral unit/share). -/
def cost (shares : Int) (priceBps : Nat) : Book T Int := do
  let scaled ← unwrap (checkedMul shares priceBps) (.error .overflow)
  pure (scaled.tdiv 10000)

def nextOrderId : Book T Nat := do
  let next ← unsigned 64 ((← getStore).orderCounter + 1)
  modifyStore (·.setOrderCounter next)
  pure next

/-- The entry point `initialize`. -/
def initializeOrderbook (admin : Address) : Book T Unit := do
  rejectIf ((← getStore).config.isSome = true) (.error .alreadyInitialized)
  requireAuth admin
  modifyStore (·.setConfig ⟨admin, 30, protocolFeeBps, lpFeeBps⟩)

def setToken (token : Address) : Book T Unit := do
  let config ← unwrap (← getStore).config (.error .notInitialized)
  requireAuth config.admin
  modifyStore (·.setToken token)

/-- Add shares to a user's balance. -/
def addShares (user : Address) (market : Market) (amount : Int) : Book T Unit := do
  let bal ← unwrap (checkedAdd ((← getStore).shares market user) amount) (.error .overflow)
  modifyStore (·.setShares user market bal)

section Matching

/-- The resting order is open, of another user, and at a price the incoming order accepts. -/
def Order.Accepts (taker m : Order) : Prop :=
  m.active = true ∧ m.user ≠ taker.user ∧ m.filled < m.amount ∧
    match taker.side with
    | .bid => m.priceBps ≤ taker.priceBps
    | .ask => taker.priceBps ≤ m.priceBps

instance (taker m : Order) : Decidable (taker.Accepts m) := by
  unfold Order.Accepts
  cases taker.side <;> infer_instance

/-- For an incoming order of the side, the price beats that of the best order so far. -/
def betterThan (side : OrderSide) (m : Order) : Option Order → Bool
  | none => true
  | some b =>
    match side with
    | .bid => decide (m.priceBps < b.priceBps)
    | .ask => decide (b.priceBps < m.priceBps)

/-- The best order so far, after a look at the order with the given id. -/
def bestOf (s : Storage) (taker : Order) (best : Option Order) (id : Nat) : Option Order :=
  match s.order id with
  | none => best
  | some m => if taker.Accepts m ∧ betterThan taker.side m best = true then some m else best

/-- The best compatible resting order of the listed ones; the first wins ties. -/
def bestMaker (s : Storage) (taker : Order) (bookIds : List Nat) : Option Order :=
  bookIds.foldl (bestOf s taker) none

/-- A filled order is no longer active. -/
def Order.closeIfFilled (o : Order) : Order :=
  if o.amount ≤ o.filled then { o with active := false } else o

variable [Tokens T]

/-- Return whatever an order still has in escrow to its owner. -/
def release (order : Order) : Book T Order :=
  match order.side with
  | .bid =>
    if 0 < order.escrow then do
      let token ← unwrap (← getStore).token (.error .tokenNotSet)
      let environment ← env
      tokenTransfer token environment.contract order.user order.escrow
      pure { order with escrow := 0 }
    else pure order
  | .ask => do
      let left ← i128 (order.amount - order.filled)
      if 0 < left then do
        addShares order.user order.market left
        pure order
      else pure order

/-- A fill of no cost moves no collateral. -/
def paySeller (token seller : Address) (pay : Int) : Book T Unit :=
  if 0 < pay then do
    let environment ← env
    tokenTransfer token environment.contract seller pay
  else pure ()

/-- A finished bid gets back its price-improvement leftover. -/
def releaseFinished (buyer : Order) : Book T Order :=
  if buyer.active = true then pure buyer else release buyer

/-- Exchange shares for collateral: the buyer pays from escrow and receives shares, the seller's
shares were escrowed at placement. -/
def fillOrders (token : Address) (buyer seller : Order) (fill pay : Int) :
    Book T (Order × Order) := do
  let escrow ← i128 (buyer.escrow - pay)
  addShares buyer.user buyer.market fill
  paySeller token seller.user pay
  let bought ← i128 (buyer.filled + fill)
  let sold ← i128 (seller.filled + fill)
  let seller := Order.closeIfFilled { seller with filled := sold }
  let buyer ← releaseFinished
    (Order.closeIfFilled { buyer with escrow := escrow, filled := bought })
  modifyStore (·.setOrder buyer.id buyer)
  modifyStore (·.setOrder seller.id seller)
  pure (buyer, seller)

/-- Fill the incoming order from a resting one, at the resting price. -/
def fillFrom (token : Address) (taker maker : Order) : Book T Order := do
  let takerLeft ← i128 (taker.amount - taker.filled)
  let makerLeft ← i128 (maker.amount - maker.filled)
  let fill := min takerLeft makerLeft
  let pay ← cost fill maker.priceBps
  let executed : Event :=
    .orderExecuted maker.user taker.user taker.callId taker.outcome fill maker.priceBps
  match taker.side with
  | .bid => do
      let filled ← fillOrders token taker maker fill pay
      publish executed
      pure filled.1
  | .ask => do
      let filled ← fillOrders token maker taker fill pay
      publish executed
      pure filled.2

/-- The matching loop, with the number of matches still allowed. -/
def matchLoop (token : Address) (bookIds : List Nat) : Nat → Order → Book T Order
  | 0, taker => pure taker
  | matchesLeft + 1, taker =>
    if taker.filled < taker.amount then do
      match bestMaker (← getStore) taker bookIds with
      | none => pure taker
      | some maker => do
          let taker ← fillFrom token taker maker
          matchLoop token bookIds matchesLeft taker
    else pure taker

def matchOrders (takerOrderId : Nat) : Book T Unit := do
  let taker ← unwrap ((← getStore).order takerOrderId) (.error .orderNotFound)
  let token ← unwrap (← getStore).token (.error .tokenNotSet)
  let bookIds := (← getStore).orderbook taker.side.opposite taker.market
  let taker ← matchLoop token bookIds maxMatchesPerOrder taker
  modifyStore (·.setOrder taker.id taker)

end Matching

section Entrypoints

variable [Tokens T]

/-- Mint outcome shares by locking as much collateral. -/
def mintShares (user : Address) (callId outcome : Nat) (amount : Int) : Book T Unit := do
  requireAuth user
  rejectIf (amount ≤ 0) (.error .invalidAmount)
  let token ← unwrap (← getStore).token (.error .tokenNotSet)
  let environment ← env
  tokenTransfer token user environment.contract amount
  addShares user (callId, outcome) amount

/-- Move what an order may cost into escrow: the collateral of a bid, which the order records, or
the shares of an ask. -/
def escrowFor (token user : Address) (market : Market) (amount : Int) (priceBps : Nat) :
    OrderSide → Book T Int
  | .bid => do
      let escrow ← cost amount priceBps
      let environment ← env
      tokenTransfer token user environment.contract escrow
      pure escrow
  | .ask => do
      let bal := (← getStore).shares market user
      rejectIf (bal < amount) (.error .insufficientShares)
      let left ← i128 (bal - amount)
      modifyStore (·.setShares user market left)
      pure 0

def place (user : Address) (callId outcome : Nat) (amount : Int) (priceBps : Nat)
    (side : OrderSide) : Book T Nat := do
  requireAuth user
  rejectIf (amount ≤ 0) (.error .invalidAmount)
  rejectIf (priceBps = 0 ∨ 10000 < priceBps) (.error .invalidPrice)
  let token ← unwrap (← getStore).token (.error .tokenNotSet)
  let escrow ← escrowFor token user (callId, outcome) amount priceBps side
  let orderId ← nextOrderId
  let environment ← env
  modifyStore (·.setOrder orderId
    { id := orderId, user := user, callId := callId, outcome := outcome, side := side
      amount := amount, priceBps := priceBps, filled := 0, createdAt := environment.timestamp
      active := true, escrow := escrow })
  modifyStore (·.addUserOrder user orderId)
  modifyStore (·.addToBook side (callId, outcome) orderId)
  publish (.orderPlaced orderId user callId outcome (decide (side = .bid)))
  matchOrders orderId
  pure orderId

def placeBid (user : Address) (callId outcome : Nat) (amount : Int) (priceBps : Nat) :
    Book T Nat :=
  place user callId outcome amount priceBps .bid

def placeAsk (user : Address) (callId outcome : Nat) (shareAmount : Int) (priceBps : Nat) :
    Book T Nat :=
  place user callId outcome shareAmount priceBps .ask

def cancelOrder (user : Address) (orderId : Nat) : Book T Unit := do
  requireAuth user
  let order ← unwrap ((← getStore).order orderId) (.error .orderNotFound)
  rejectIf (order.user ≠ user) (.error .unauthorized)
  rejectIf (order.active = false) (.error .orderNotFound)
  let order ← release order
  modifyStore (·.setOrder orderId { order with active := false })
  publish (.orderCancelled orderId)

/-- The entry points that write. -/
inductive BookOp where
  | initializeOrderbook (admin : Address)
  | setToken (token : Address)
  | mintShares (user : Address) (callId outcome : Nat) (amount : Int)
  | placeBid (user : Address) (callId outcome : Nat) (amount : Int) (priceBps : Nat)
  | placeAsk (user : Address) (callId outcome : Nat) (shareAmount : Int) (priceBps : Nat)
  | cancelOrder (user : Address) (orderId : Nat)
  deriving DecidableEq

/-- Run an invocation of an entry point. -/
def BookOp.perform : BookOp → Book T Unit
  | .initializeOrderbook admin => Orderbook.initializeOrderbook admin
  | .setToken token => Orderbook.setToken token
  | .mintShares user callId outcome amount => Orderbook.mintShares user callId outcome amount
  | .placeBid user callId outcome amount priceBps =>
    ignore (Orderbook.placeBid user callId outcome amount priceBps)
  | .placeAsk user callId outcome shareAmount priceBps =>
    ignore (Orderbook.placeAsk user callId outcome shareAmount priceBps)
  | .cancelOrder user orderId => Orderbook.cancelOrder user orderId

end Entrypoints

end Backit.Orderbook
