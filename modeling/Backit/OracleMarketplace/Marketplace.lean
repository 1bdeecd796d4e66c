import Backit.Soroban.Execution

/-!
# The oracle marketplace

Providers register oracles under public keys, keep them alive with heartbeats and deregister them.
An oracle is selected for a call, and the administrator records its resolution, which pays a bonus
for speed out of the pool that the contract holds.
-/

namespace Backit.OracleMarketplace

open Soroban Contract

/-- The contract's error codes that its entry points return. -/
inductive OracleMarketplaceError where
  | alreadyInitialized
  | notInitialized
  | unauthorized
  | oracleAlreadyRegistered
  | oracleNotFound
  | oracleNotActive
  | cooldownActive
  | invalidFee
  | oracleNotSelectedForCall
  | alreadyRated
  | oracleNotLive
  | alreadyResolved
  | insufficientBonusPool
  | bonusTokenNotSet
  | invalidAmount
  deriving DecidableEq

structure OracleProvider where
  pubkey : BytesN 32
  address : Address
  feeBps : Nat
  minStake : Int
  stakedAmount : Int
  totalResolved : Nat
  totalDisputes : Nat
  isActive : Bool
  registeredAt : Nat
  deregisterAfter : Option Nat
  deriving DecidableEq

structure MarketplaceConfig where
  admin : Address
  cooldownSecs : Nat
  defaultFeeBps : Nat
  deriving DecidableEq

/-- The running performance record of an oracle. -/
structure OraclePerformance where
  resolutions : Nat
  bonusResolutions : Nat
  bonusPaid : Int
  score : Nat
  deriving DecidableEq

def OraclePerformance.zero : OraclePerformance := ⟨0, 0, 0, 0⟩

inductive Event where
  | heartbeat (pubkey : BytesN 32) (ledger : Nat)
  | resolutionRecorded (callId : Nat) (pubkey : BytesN 32) (multiplierBps : Nat) (bonus : Int)
  | oracleRegistered (provider : Address) (pubkey : BytesN 32) (feeBps : Nat)
  | oracleDeregistered (provider : Address) (pubkey : BytesN 32)
  | oracleSelectedForCall (callId : Nat) (provider : BytesN 32)
  | oracleRated (provider : BytesN 32) (user : Address) (satisfied : Bool)
  deriving DecidableEq

structure Storage where
  config : Option MarketplaceConfig
  oracle : BytesN 32 → Option OracleProvider
  oracleList : List (BytesN 32)
  oracleRatings : BytesN 32 → Address → Option Bool
  callOracle : Nat → Option (BytesN 32)
  performance : BytesN 32 → OraclePerformance
  heartbeat : BytesN 32 → Option Nat
  resolved : Nat → Bool
  bonusToken : Option Address

namespace Storage

/-- The storage of a freshly deployed contract. -/
def empty : Storage :=
  ⟨none, fun _ => none, [], fun _ _ => none, fun _ => none, fun _ => .zero, fun _ => none,
    fun _ => false, none⟩

variable (s : Storage)

def setConfig (config : MarketplaceConfig) : Storage := { s with config := some config }

def setOracle (pubkey : BytesN 32) (oracle : OracleProvider) : Storage :=
  { s with oracle := Function.update s.oracle pubkey (some oracle) }

def addToOracleList (pubkey : BytesN 32) : Storage :=
  if s.oracleList.contains pubkey then s
  else { s with oracleList := s.oracleList ++ [pubkey] }

def removeFromOracleList (pubkey : BytesN 32) : Storage :=
  { s with oracleList := s.oracleList.filter (· ≠ pubkey) }

def setCallOracle (callId : Nat) (oracle : BytesN 32) : Storage :=
  { s with callOracle := Function.update s.callOracle callId (some oracle) }

def setOracleRating (oracle : BytesN 32) (user : Address) (satisfied : Bool) : Storage :=
  { s with
    oracleRatings := Function.update s.oracleRatings oracle
      (Function.update (s.oracleRatings oracle) user (some satisfied)) }

def setPerformance (pubkey : BytesN 32) (perf : OraclePerformance) : Storage :=
  { s with performance := Function.update s.performance pubkey perf }

def markResolved (callId : Nat) : Storage :=
  { s with resolved := Function.update s.resolved callId true }

def setBonusToken (token : Address) : Storage := { s with bonusToken := some token }

def recordHeartbeat (pubkey : BytesN 32) (ledger : Nat) : Storage :=
  { s with heartbeat := Function.update s.heartbeat pubkey (some ledger) }

end Storage

def fastWindowSecs : Nat := 60

def mediumWindowSecs : Nat := 300

def fastMultiplierBps : Nat := 15000

def mediumMultiplierBps : Nat := 12000

def baseMultiplierBps : Nat := 10000

/-- An oracle that is idle for more ledgers than these is not given new calls. -/
def heartbeatMaxAgeLedgers : Nat := 17280

/-- The reward multiplier for a resolution. Submitting before the expiry counts as no delay. -/
def multiplierBps (expiry submittedAt : Nat) : Nat :=
  let delta := submittedAt - expiry
  if delta < fastWindowSecs then fastMultiplierBps
  else if delta < mediumWindowSecs then mediumMultiplierBps
  else baseMultiplierBps

/-- An oracle without a heartbeat counts as live. -/
def Storage.isLive (s : Storage) (pubkey : BytesN 32) (sequence : Nat) : Bool :=
  match s.heartbeat pubkey with
  | some last => sequence - last ≤ heartbeatMaxAgeLedgers
  | none => true

/-- A computation of an entry point. -/
abbrev Marketplace (P α : Type) := Contract (Frame Storage P Event) OracleMarketplaceError α

variable {P : Type}

def requireConfig : Marketplace P MarketplaceConfig := do
  unwrap (← getStore).config (.error .notInitialized)

def requireOracle (pubkey : BytesN 32) : Marketplace P OracleProvider := do
  unwrap ((← getStore).oracle pubkey) (.error .oracleNotFound)

/-- The entry point `initialize`. -/
def initializeMarketplace (admin : Address) (cooldownSecs defaultFeeBps : Nat) :
    Marketplace P Unit := do
  rejectIf ((← getStore).config.isSome = true) (.error .alreadyInitialized)
  requireAuth admin
  modifyStore (·.setConfig ⟨admin, cooldownSecs, defaultFeeBps⟩)

def registerOracle (provider : Address) (pubkey : BytesN 32) (feeBps : Nat) (minStake : Int) :
    Marketplace P Unit := do
  requireAuth provider
  rejectIf (((← getStore).oracle pubkey).isSome = true) (.error .oracleAlreadyRegistered)
  rejectIf (10000 < feeBps) (.error .invalidFee)
  let environment ← env
  modifyStore (·.setOracle pubkey
    { pubkey := pubkey
      address := provider
      feeBps := feeBps
      minStake := minStake
      stakedAmount := minStake
      totalResolved := 0
      totalDisputes := 0
      isActive := true
      registeredAt := environment.timestamp
      deregisterAfter := none })
  modifyStore (·.addToOracleList pubkey)
  modifyStore (·.recordHeartbeat pubkey environment.sequence)
  publish (.oracleRegistered provider pubkey feeBps)

/-- The provider must authorise the call. It is not compared with the oracle's provider. -/
def deregisterOracle (provider : Address) (pubkey : BytesN 32) : Marketplace P Unit := do
  requireAuth provider
  let config ← requireConfig
  let oracle ← requireOracle pubkey
  rejectIf (oracle.isActive = false) (.error .oracleNotActive)
  let environment ← env
  rejectIf (∃ after ∈ oracle.deregisterAfter, environment.timestamp < after)
    (.error .cooldownActive)
  let deregisterAfter ← unsigned 64 (environment.timestamp + config.cooldownSecs)
  modifyStore (·.setOracle pubkey
    { oracle with isActive := false, deregisterAfter := some deregisterAfter })
  modifyStore (·.removeFromOracleList pubkey)
  publish (.oracleDeregistered provider pubkey)

def selectOracleForCall (callId : Nat) (oraclePubkey : BytesN 32) : Marketplace P Unit := do
  let oracle ← requireOracle oraclePubkey
  rejectIf (oracle.isActive = false) (.error .oracleNotActive)
  let environment ← env
  rejectIf ((← getStore).isLive oraclePubkey environment.sequence = false) (.error .oracleNotLive)
  modifyStore (·.setCallOracle callId oraclePubkey)
  publish (.oracleSelectedForCall callId oraclePubkey)

def rateOracle (user : Address) (oraclePubkey : BytesN 32) (satisfied : Bool) :
    Marketplace P Unit := do
  requireAuth user
  let _ ← requireOracle oraclePubkey
  rejectIf (((← getStore).oracleRatings oraclePubkey user).isSome = true) (.error .alreadyRated)
  modifyStore (·.setOracleRating oraclePubkey user satisfied)
  publish (.oracleRated oraclePubkey user satisfied)

def submitHeartbeat (provider : Address) (pubkey : BytesN 32) : Marketplace P Unit := do
  requireAuth provider
  let oracle ← requireOracle pubkey
  rejectIf (oracle.address ≠ provider) (.error .unauthorized)
  let environment ← env
  modifyStore (·.recordHeartbeat pubkey environment.sequence)
  publish (.heartbeat pubkey environment.sequence)

def setBonusToken (token : Address) : Marketplace P Unit := do
  let config ← requireConfig
  requireAuth config.admin
  modifyStore (·.setBonusToken token)

/-- The performance of an oracle with one more resolution. -/
def OraclePerformance.credit (perf : OraclePerformance) (multiplier : Nat) (bonus : Int) :
    Marketplace P OraclePerformance := do
  let resolutions ← unsigned 64 (perf.resolutions + 1)
  let bonusResolutions ← unsigned 64 (perf.bonusResolutions + if 0 < bonus then 1 else 0)
  let bonusPaid ← i128 (perf.bonusPaid + bonus)
  let score ← unsigned 64 (perf.score + multiplier)
  pure ⟨resolutions, bonusResolutions, bonusPaid, score⟩

section Tokens

variable [Tokens P]

/-- Top up the pool that bonuses are paid from. -/
def fundBonusPool (sender : Address) (amount : Int) : Marketplace P Unit := do
  requireAuth sender
  rejectIf (amount ≤ 0) (.error .invalidAmount)
  let token ← unwrap (← getStore).bonusToken (.error .bonusTokenNotSet)
  let environment ← env
  tokenTransfer token sender environment.contract amount

/-- Pay a bonus out of the pool, if there is one. -/
def payBonus (oracle : OracleProvider) (bonus : Int) : Marketplace P Unit :=
  if 0 < bonus then do
    let token ← unwrap (← getStore).bonusToken (.error .bonusTokenNotSet)
    let environment ← env
    let held ← tokenBalance token environment.contract
    rejectIf (held < bonus) (.error .insufficientBonusPool)
    tokenTransfer token environment.contract oracle.address bonus
  else pure ()

def recordResolution (oraclePubkey : BytesN 32) (callId marketExpiry submittedAt : Nat)
    (feeAmount : Int) : Marketplace P Int := do
  let config ← requireConfig
  requireAuth config.admin
  rejectIf (feeAmount < 0) (.error .invalidAmount)
  let oracle ← requireOracle oraclePubkey
  rejectIf ((← getStore).callOracle callId ≠ some oraclePubkey)
    (.error .oracleNotSelectedForCall)
  rejectIf ((← getStore).resolved callId = true) (.error .alreadyResolved)
  let multiplier := multiplierBps marketExpiry submittedAt
  let product ← unwrap (checkedMul feeAmount (multiplier - baseMultiplierBps : Nat))
    (.error .invalidAmount)
  let bonus := product.tdiv baseMultiplierBps
  payBonus oracle bonus
  let perf ← ((← getStore).performance oraclePubkey).credit multiplier bonus
  modifyStore (·.setPerformance oraclePubkey perf)
  let totalResolved ← unsigned 64 (oracle.totalResolved + 1)
  modifyStore (·.setOracle oraclePubkey { oracle with totalResolved := totalResolved })
  modifyStore (·.markResolved callId)
  publish (.resolutionRecorded callId oraclePubkey multiplier bonus)
  pure bonus

end Tokens

/-- The entry points that write. -/
inductive MarketplaceOp where
  | initializeMarketplace (admin : Address) (cooldownSecs defaultFeeBps : Nat)
  | registerOracle (provider : Address) (pubkey : BytesN 32) (feeBps : Nat) (minStake : Int)
  | deregisterOracle (provider : Address) (pubkey : BytesN 32)
  | selectOracleForCall (callId : Nat) (oraclePubkey : BytesN 32)
  | rateOracle (user : Address) (oraclePubkey : BytesN 32) (satisfied : Bool)
  | submitHeartbeat (provider : Address) (pubkey : BytesN 32)
  | setBonusToken (token : Address)
  | fundBonusPool (sender : Address) (amount : Int)
  | recordResolution (oraclePubkey : BytesN 32) (callId marketExpiry submittedAt : Nat)
      (feeAmount : Int)
  deriving DecidableEq

/-- Run an entry point. -/
def MarketplaceOp.perform [Tokens P] : MarketplaceOp → Marketplace P Unit
  | .initializeMarketplace admin cooldownSecs defaultFeeBps =>
    OracleMarketplace.initializeMarketplace admin cooldownSecs defaultFeeBps
  | .registerOracle provider pubkey feeBps minStake =>
    OracleMarketplace.registerOracle provider pubkey feeBps minStake
  | .deregisterOracle provider pubkey => OracleMarketplace.deregisterOracle provider pubkey
  | .selectOracleForCall callId oraclePubkey =>
    OracleMarketplace.selectOracleForCall callId oraclePubkey
  | .rateOracle user oraclePubkey satisfied =>
    OracleMarketplace.rateOracle user oraclePubkey satisfied
  | .submitHeartbeat provider pubkey => OracleMarketplace.submitHeartbeat provider pubkey
  | .setBonusToken token => OracleMarketplace.setBonusToken token
  | .fundBonusPool sender amount => OracleMarketplace.fundBonusPool sender amount
  | .recordResolution oraclePubkey callId marketExpiry submittedAt feeAmount =>
    ignore (OracleMarketplace.recordResolution oraclePubkey callId marketExpiry submittedAt
      feeAmount)

end Backit.OracleMarketplace
