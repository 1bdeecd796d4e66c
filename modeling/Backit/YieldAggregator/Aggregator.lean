import Backit.Soroban.Execution

/-!
# The yield aggregator

Users deposit assets for shares of a pool and burn shares for their part of it. The contract keeps
the books only: it moves no tokens. A deposit must be positive; a withdrawal is only compared with
the user's shares.
-/

namespace Backit.YieldAggregator

open Soroban Contract Lib

inductive AggregatorError where
  | alreadyInitialized
  | notInitialized
  | unauthorized
  | invalidAmount
  | insufficientShares
  | noPayoutToClaim
  | zeroTotalAssets
  deriving DecidableEq

structure AggregatorConfig where
  admin : Address
  feeBps : Nat
  deriving DecidableEq

structure AggregatorStats where
  totalValueLocked : Int
  totalShares : Int
  sharePrice : Int
  totalProfitsEarned : Int
  deriving DecidableEq

structure UserPosition where
  user : Address
  shares : Int
  depositedAmount : Int
  pendingPayout : Int
  deriving DecidableEq

inductive Event where
  | deposited (user : Address) (amount sharesMinted : Int)
  | withdrawn (user : Address) (sharesBurned amountReturned : Int)
  | reinvested (callId : Nat) (amount : Int)
  | feeCollected (amount : Int)
  deriving DecidableEq

structure Storage where
  config : Option AggregatorConfig
  userShares : Map Address Int
  totalShares : Int
  totalDeposited : Int
  totalProfits : Int

namespace Storage

/-- The storage of a freshly deployed contract. -/
def empty : Storage := ⟨none, ∅, 0, 0, 0⟩

variable (s : Storage)

def getUserShares (user : Address) : Int := valueAt s.userShares user

def setUserShares (user : Address) (shares : Int) : Storage :=
  { s with userShares := s.userShares.insert user shares }

def setConfig (config : AggregatorConfig) : Storage := { s with config := some config }

def setTotalShares (total : Int) : Storage := { s with totalShares := total }

def setTotalDeposited (total : Int) : Storage := { s with totalDeposited := total }

def setTotalProfits (total : Int) : Storage := { s with totalProfits := total }

/-- The shares of a user and the totals after a deposit or a withdrawal. -/
def traded (user : Address) (shares total deposited : Int) : Storage :=
  ((s.setUserShares user shares).setTotalShares total).setTotalDeposited deposited

end Storage

/-- A computation of an entry point. -/
abbrev Aggregator (P α : Type) := Contract (Frame Storage P Event) AggregatorError α

variable {P : Type}

/-- `a.checked_mul(b)?.checked_div(c)?`. -/
def mulDiv (a b c : Int) : Aggregator P Int := do
  let product ← unwrap (checkedMul a b) (.error .invalidAmount)
  unwrap (checkedDiv product c) (.error .zeroTotalAssets)

/-- The entry point `initialize`. -/
def initializeAggregator (admin : Address) (feeBps : Nat) : Aggregator P Unit := do
  rejectIf ((← getStore).config.isSome = true) (.error .alreadyInitialized)
  requireAuth admin
  modifyStore (·.setConfig ⟨admin, feeBps⟩)

/-- The shares that a deposit mints. -/
def sharesMinted (usdcAmount totalShares totalDeposited : Int) : Aggregator P Int :=
  if totalShares = 0 then pure usdcAmount else mulDiv usdcAmount totalShares totalDeposited

def deposit (user : Address) (usdcAmount : Int) : Aggregator P Int := do
  requireAuth user
  rejectIf (usdcAmount ≤ 0) (.error .invalidAmount)
  let s ← getStore
  let minted ← sharesMinted usdcAmount s.totalShares s.totalDeposited
  let userShares ← i128 (s.getUserShares user + minted)
  let totalShares ← i128 (s.totalShares + minted)
  let totalDeposited ← i128 (s.totalDeposited + usdcAmount)
  modifyStore (·.traded user userShares totalShares totalDeposited)
  publish (.deposited user usdcAmount minted)
  pure minted

def withdraw (user : Address) (aBackitAmount : Int) : Aggregator P Int := do
  requireAuth user
  let s ← getStore
  rejectIf (s.getUserShares user < aBackitAmount) (.error .insufficientShares)
  let usdcReturned ← mulDiv aBackitAmount s.totalDeposited s.totalShares
  let userShares ← i128 (s.getUserShares user - aBackitAmount)
  let totalShares ← i128 (s.totalShares - aBackitAmount)
  let totalDeposited ← i128 (s.totalDeposited - usdcReturned)
  modifyStore (·.traded user userShares totalShares totalDeposited)
  publish (.withdrawn user aBackitAmount usdcReturned)
  pure usdcReturned

/-- Announce a fee, if there is one. -/
def announceFee (fee : Int) : Aggregator P Unit :=
  if 0 < fee then publish (.feeCollected fee) else pure ()

def claimAndReinvest (callId : Nat) : Aggregator P Int := do
  let s ← getStore
  let config ← unwrap s.config (.error .notInitialized)
  rejectIf (s.totalShares = 0) (.error .zeroTotalAssets)
  let profit := s.totalDeposited.tdiv 10
  let scaled ← unwrap (checkedMul profit config.feeBps) (.error .invalidAmount)
  let fee ← unwrap (checkedDiv scaled 10000) (.error .invalidAmount)
  let gross ← i128 (s.totalProfits + profit)
  let totalProfits ← i128 (gross - fee)
  modifyStore (·.setTotalProfits totalProfits)
  announceFee fee
  publish (.reinvested callId profit)
  pure profit

/-- What shares are worth: nothing when there are none. -/
def worth (shares : Int) (s : Storage) : Aggregator P Int :=
  if 0 < s.totalShares then mulDiv shares s.totalDeposited s.totalShares else pure 0

def getUserPosition (user : Address) : Aggregator P UserPosition := do
  let s ← getStore
  let shares := s.getUserShares user
  let depositedAmount ← worth shares s
  pure ⟨user, shares, depositedAmount, 0⟩

/-- The price of 10000 shares: par when there are none. -/
def sharePrice (s : Storage) : Aggregator P Int :=
  if 0 < s.totalShares then mulDiv s.totalDeposited 10000 s.totalShares else pure 10000

def getAggregatorStats : Aggregator P AggregatorStats := do
  let s ← getStore
  let price ← sharePrice s
  pure ⟨s.totalDeposited, s.totalShares, price, s.totalProfits⟩

/-- The entry points that write. -/
inductive AggregatorOp where
  | initializeAggregator (admin : Address) (feeBps : Nat)
  | deposit (user : Address) (usdcAmount : Int)
  | withdraw (user : Address) (aBackitAmount : Int)
  | claimAndReinvest (callId : Nat)
  deriving DecidableEq

/-- Run an entry point. -/
def AggregatorOp.perform : AggregatorOp → Aggregator P Unit
  | .initializeAggregator admin feeBps => YieldAggregator.initializeAggregator admin feeBps
  | .deposit user usdcAmount => ignore (YieldAggregator.deposit user usdcAmount)
  | .withdraw user aBackitAmount => ignore (YieldAggregator.withdraw user aBackitAmount)
  | .claimAndReinvest callId => ignore (YieldAggregator.claimAndReinvest callId)

end Backit.YieldAggregator
