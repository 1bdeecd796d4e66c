import Backit.Lib.Totals
import Backit.PredictionMarket.Types

/-!
# The market's storage

The records are grouped by what changes them together: `Pool` holds the call and the stakes on it,
`Book` the limit orders and their two indexes. The map of orders only ever holds an order under
its own id, which `Book` carries as a field. A guarded entry point runs inside `withLock`.
-/

namespace Backit.PredictionMarket

open Soroban Contract Lib

/-- The call and the stakes on it. -/
structure Pool where
  call : Option Call
  userStake : Address × Nat → Int
  userStakeTimestamp : Address × Nat → Nat
  earlyStakerCount : Nat

/-- The open limit orders, and their ids by call and by owner. -/
structure Book where
  limitOrders : Map Nat LimitOrder
  nextOrderId : Nat
  openOrdersByCall : Nat → List Nat
  userOrderIds : Address → List Nat
  keyed : ∀ id order, limitOrders.lookup id = some order → order.id = id

structure Storage where
  config : Option MarketConfig
  locked : Bool
  pool : Pool
  book : Book
  rolloverChain : Nat → List RolloverLink
  userClaimed : Nat × Address → Bool

/-- The storage before the constructor has run. -/
def Storage.empty : Storage where
  config := none
  locked := false
  pool :=
    { call := none
      userStake := fun _ => 0
      userStakeTimestamp := fun _ => 0
      earlyStakerCount := 0 }
  book :=
    { limitOrders := ∅
      nextOrderId := 0
      openOrdersByCall := fun _ => []
      userOrderIds := fun _ => []
      keyed := by simp }
  rolloverChain _ := []
  userClaimed _ := false

namespace Pool

variable (p : Pool)

def setCall (call : Call) : Pool := { p with call := some call }

def setUserStake (staker : Address) (position : Nat) (amount : Int) : Pool :=
  { p with userStake := Function.update p.userStake (staker, position) amount }

def setUserStakeTimestamp (staker : Address) (position timestamp : Nat) : Pool :=
  { p with
    userStakeTimestamp := Function.update p.userStakeTimestamp (staker, position) timestamp }

def setEarlyStakerCount (count : Nat) : Pool := { p with earlyStakerCount := count }

end Pool

namespace Book

variable (b : Book)

/-- Write the order counter. -/
def setNextOrderId (id : Nat) : Book := { b with nextOrderId := id }

/-- Store an order under its id. -/
def setLimitOrder (order : LimitOrder) : Book :=
  { b with
    limitOrders := b.limitOrders.insert order.id order
    keyed := by
      intro id stored h
      by_cases hid : id = order.id
      · subst hid
        rw [AList.lookup_insert, Option.some.injEq] at h
        rw [h]
      · rw [AList.lookup_insert_ne hid] at h
        exact b.keyed id stored h }

def removeLimitOrder (orderId : Nat) : Book :=
  { b with
    limitOrders := b.limitOrders.erase orderId
    keyed := by
      intro id stored h
      by_cases hid : id = orderId
      · subst hid
        simp at h
      · rw [AList.lookup_erase_ne hid] at h
        exact b.keyed id stored h }

def setOpenOrderIdsForCall (callId : Nat) (ids : List Nat) : Book :=
  { b with openOrdersByCall := Function.update b.openOrdersByCall callId ids }

def setUserOrderIds (user : Address) (ids : List Nat) : Book :=
  { b with userOrderIds := Function.update b.userOrderIds user ids }

def removeIdFromCallOrders (callId orderId : Nat) : Book :=
  b.setOpenOrderIdsForCall callId ((b.openOrdersByCall callId).filter (· ≠ orderId))

def removeIdFromUserOrders (user : Address) (orderId : Nat) : Book :=
  b.setUserOrderIds user ((b.userOrderIds user).filter (· ≠ orderId))

/-- Store a new order and list it at the end of both indexes. -/
def enter (order : LimitOrder) : Book :=
  ((b.setLimitOrder order).setOpenOrderIdsForCall order.callId
    (b.openOrdersByCall order.callId ++ [order.id])).setUserOrderIds order.user
      (b.userOrderIds order.user ++ [order.id])

/-- Remove an order and its id from both indexes. -/
def close (order : LimitOrder) : Book :=
  ((b.removeLimitOrder order.id).removeIdFromCallOrders order.callId order.id)
    |>.removeIdFromUserOrders order.user order.id

end Book

namespace Storage

variable (s : Storage)

/-- Apply a write to the pool. -/
def onPool (write : Pool → Pool) : Storage := { s with pool := write s.pool }

/-- Apply a write to the book. -/
def onBook (write : Book → Book) : Storage := { s with book := write s.book }

def setConfig (config : MarketConfig) : Storage := { s with config := some config }

def setCall (call : Call) : Storage := s.onPool (·.setCall call)

def setLocked (locked : Bool) : Storage := { s with locked := locked }

def setRolloverChain (callId : Nat) (chain : List RolloverLink) : Storage :=
  { s with rolloverChain := Function.update s.rolloverChain callId chain }

def setUserClaimed (callId : Nat) (user : Address) : Storage :=
  { s with userClaimed := Function.update s.userClaimed (callId, user) true }

end Storage

/-- A computation of a market's entry point. -/
abbrev Market (T α : Type) := Contract (Frame Storage T Event) MarketError α

variable {T α β : Type}

/-- The value of a computed result, or its error. -/
def raise (result : Except MarketError α) : Market T α := fun _ f =>
  match result with
  | .ok a => .ok (a, f)
  | .error e => .error (.error e)

/-- `get_config(&env).ok_or(MarketError::NotInitialized)?`. -/
def requireConfig : Market T MarketConfig := do
  unwrap (← getStore).config (.error .notInitialized)

/-- `get_call(&env).ok_or(MarketError::CallNotFound)?`. -/
def requireCall : Market T Call := do
  unwrap (← getStore).pool.call (.error .callNotFound)

def requireCallId (config : MarketConfig) (callId : Nat) : Market T Unit :=
  rejectIf (config.callId ≠ callId) (.error .invalidCallId)

/-- `get_limit_order(&env, order_id).ok_or(MarketError::OrderNotFound)?`. -/
def requireLimitOrder (orderId : Nat) : Market T LimitOrder := do
  unwrap ((← getStore).book.limitOrders.lookup orderId) (.error .orderNotFound)

/-- Run a computation with the lock held. A failure needs no release: it is rolled back. -/
def withLock (x : Market T α) : Market T α := do
  rejectIf ((← getStore).locked = true) (.error .unauthorized)
  modifyStore (·.setLocked true)
  let result ← x
  modifyStore (·.setLocked false)
  pure result

/-- Take the next order id and advance the counter. -/
def nextOrderId : Market T Nat := do
  let counter := (← getStore).book.nextOrderId
  let nextId ← unsigned 64 (counter + 1)
  modifyStore (·.onBook (·.setNextOrderId nextId))
  pure nextId

section Specs

variable {env : Env} {f f' : Frame Storage T Event} {b : β}

@[simp] theorem run_raise_bind (result : Except MarketError α) (k : α → Market T β) :
    run (raise result >>= k) env f = .ok (b, f') ↔
      ∃ a, result = .ok a ∧ run (k a) env f = .ok (b, f') := by
  cases result <;> simp [run, bind, raise]

@[simp] theorem run_requireConfig_bind (k : MarketConfig → Market T β) :
    run (requireConfig >>= k) env f = .ok (b, f') ↔
      ∃ config, f.store.config = some config ∧ run (k config) env f = .ok (b, f') := by
  simp only [requireConfig, Contract.bind_assoc, run_steps]

@[simp] theorem run_requireCall_bind (k : Call → Market T β) :
    run (requireCall >>= k) env f = .ok (b, f') ↔
      ∃ call, f.store.pool.call = some call ∧ run (k call) env f = .ok (b, f') := by
  simp only [requireCall, Contract.bind_assoc, run_steps]

@[simp] theorem run_requireCallId_bind (config : MarketConfig) (callId : Nat)
    (k : Unit → Market T β) :
    run (requireCallId config callId >>= k) env f = .ok (b, f') ↔
      config.callId = callId ∧ run (k ()) env f = .ok (b, f') := by
  simp only [requireCallId, run_rejectIf_bind, not_not]

@[simp] theorem run_requireLimitOrder_bind (orderId : Nat) (k : LimitOrder → Market T β) :
    run (requireLimitOrder orderId >>= k) env f = .ok (b, f') ↔
      ∃ order, f.store.book.limitOrders.lookup orderId = some order ∧
        run (k order) env f = .ok (b, f') := by
  simp only [requireLimitOrder, Contract.bind_assoc, run_steps]

/-- What runs with the lock held starts with it taken and ends with it released. -/
theorem run_withLock {a : α} {x : Market T α} :
    run (withLock x) env f = .ok (a, f') ↔ f.store.locked = false ∧
      ∃ f₁, run x env { f with store := f.store.setLocked true } = .ok (a, f₁) ∧
        f' = { f₁ with store := f₁.store.setLocked false } := by
  simp only [withLock, run_steps, Bool.not_eq_true]
  refine and_congr_right fun _ => ?_
  rw [run_bind]
  simp only [run_steps]
  constructor
  · rintro ⟨_, f₁, hx, rfl, rfl⟩
    exact ⟨f₁, hx, rfl⟩
  · rintro ⟨f₁, hx, rfl⟩
    exact ⟨a, f₁, hx, rfl, rfl⟩

@[simp] theorem run_nextOrderId_bind (k : Nat → Market T β) :
    run (nextOrderId >>= k) env f = .ok (b, f') ↔
      f.store.book.nextOrderId + 1 < 2 ^ 64 ∧
        run (k (f.store.book.nextOrderId + 1)) env { f with
          store := f.store.onBook (·.setNextOrderId (f.store.book.nextOrderId + 1)) } =
            .ok (b, f') := by
  simp only [nextOrderId, Contract.bind_assoc, run_steps]

end Specs

end Backit.PredictionMarket
