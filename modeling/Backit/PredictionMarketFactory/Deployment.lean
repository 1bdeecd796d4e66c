import Backit.PredictionMarket.Entrypoints
import Backit.Soroban.Bytes

/-!
# The factory of prediction markets

The factory deploys a market for every call, under an address that the call's id determines, and
remembers where it is. The deployment of a contract together with its constructor is one host
call, seen through `MarketDeployer`.
-/

namespace Backit.PredictionMarketFactory

open Soroban Contract PredictionMarket

structure FactoryConfig where
  admin : Address
  outcomeManager : Address
  marketWasmHash : BytesN 32
  minStake : Int
  maxStakePerUser : Int
  stakingCutoffSecs : Nat
  paused : Bool
  whitelistedTokens : Map Address Bool

/-- The factory's error codes that its entry points for markets return. -/
inductive FactoryError where
  | alreadyInitialized
  | notInitialized
  | invalidStakeAmount
  | invalidEndTime
  | invalidOutcomeCount
  | tokenNotWhitelisted
  | contractPaused
  | marketNotFound
  deriving DecidableEq

inductive Event where
  | initialized (admin outcomeManager : Address)
  | marketDeployed (callId : Nat) (marketAddress creator stakeToken : Address) (endTs : Nat)
  deriving DecidableEq

structure Storage where
  config : Option FactoryConfig
  marketCounter : Nat
  market : Nat → Option Address
  marketList : List Address

namespace Storage

def empty : Storage := ⟨none, 0, fun _ => none, []⟩

variable (s : Storage)

def setConfig (config : FactoryConfig) : Storage := { s with config := some config }

def setMarketCounter (counter : Nat) : Storage := { s with marketCounter := counter }

def setMarket (callId : Nat) (market : Address) : Storage :=
  { s with market := Function.update s.market callId (some market) }

def appendMarketList (market : Address) : Storage :=
  { s with marketList := s.marketList ++ [market] }

end Storage

/-- What a market's constructor is given. -/
structure MarketParams where
  callId : Nat
  creator : Address
  outcomeManager : Address
  factory : Address
  minStake : Int
  maxStakePerUser : Int
  stakingCutoffSecs : Nat
  args : MarketInitArgs
  deriving DecidableEq

/-- `deployer().with_address(..).deploy_v2(..)` of a market, from the factory's own address. -/
class MarketDeployer (T : Type) where
  deployV2 : Env → BytesN 32 → BytesN 32 → MarketParams → T → Option (Address × T)

/-- A computation of a factory entry point. -/
abbrev Factory (T α : Type) := Contract (Frame Storage T Event) FactoryError α

variable {T : Type}

def requireConfig : Factory T FactoryConfig := do
  unwrap (← getStore).config (.error .notInitialized)

/-- The configuration, once its admin has authorised the invocation. -/
def requireAdmin : Factory T FactoryConfig := do
  let config ← requireConfig
  requireAuth config.admin
  pure config

/-- Take the next market id and advance the counter. -/
def nextMarketId : Factory T Nat := do
  let counter := (← getStore).marketCounter
  let nextId ← unsigned 64 (counter + 1)
  modifyStore (·.setMarketCounter nextId)
  pure nextId

/-- The salt of the market of a call. -/
def marketDeploySalt [Crypto] (callId : Nat) : BytesN 32 :=
  Crypto.sha256 (ascii ['m', 'a', 'r', 'k', 'e', 't', ':'] ++ beBytes 8 callId)

/-- The entry point `initialize`. -/
def initializeFactory (admin outcomeManager : Address) (marketWasmHash : BytesN 32)
    (minStake : Int) : Factory T Unit := do
  rejectIf ((← getStore).config.isSome = true) (.error .alreadyInitialized)
  requireAuth admin
  modifyStore (·.setConfig ⟨admin, outcomeManager, marketWasmHash, minStake, 0, 300, false, ∅⟩)
  publish (.initialized admin outcomeManager)

def whitelistToken (token : Address) : Factory T Unit := do
  let config ← requireAdmin
  modifyStore (·.setConfig
    { config with whitelistedTokens := config.whitelistedTokens.insert token true })

def setMarketWasmHash (marketWasmHash : BytesN 32) : Factory T Unit := do
  let config ← requireAdmin
  modifyStore (·.setConfig { config with marketWasmHash := marketWasmHash })

def setOutcomeManager (outcomeManager : Address) : Factory T Unit := do
  let config ← requireAdmin
  modifyStore (·.setConfig { config with outcomeManager := outcomeManager })

def setPaused (paused : Bool) : Factory T Unit := do
  let config ← requireAdmin
  modifyStore (·.setConfig { config with paused := paused })

def pause : Factory T Unit := setPaused true

def unpause : Factory T Unit := setPaused false

section Deployment

variable [MarketDeployer T] [Crypto]

def deployMarketInstance (wasmHash salt : BytesN 32) (params : MarketParams) :
    Factory T Address := fun env f =>
  match MarketDeployer.deployV2 env wasmHash salt params f.tokens with
  | some (market, tokens) => .ok (market, { f with tokens := tokens })
  | none => .error .external

/-- Deploy a market for a new call of a creator. -/
def deployMarket (creator : Address) (args : MarketInitArgs) : Factory T Address := do
  requireAuth creator
  let config ← requireConfig
  rejectIf (config.paused = true) (.error .contractPaused)
  rejectIf (args.stakeAmount < config.minStake ∨ args.stakeAmount ≤ 0) (.error .invalidStakeAmount)
  rejectIf (args.startPrice ≤ 0) (.error .invalidStakeAmount)
  rejectIf (args.outcomeCount < 2) (.error .invalidOutcomeCount)
  let environment ← env
  rejectIf (args.endTs ≤ environment.timestamp) (.error .invalidEndTime)
  rejectIf (isNativeXlm args.stakeToken = false ∧
    (config.whitelistedTokens.lookup args.stakeToken).getD false = false)
    (.error .tokenNotWhitelisted)
  let callId ← nextMarketId
  let market ← deployMarketInstance config.marketWasmHash (marketDeploySalt callId)
    ⟨callId, creator, config.outcomeManager, environment.contract, config.minStake,
      config.maxStakePerUser, config.stakingCutoffSecs, args⟩
  modifyStore (·.setMarket callId market)
  modifyStore (·.appendMarketList market)
  publish (.marketDeployed callId market creator args.stakeToken args.endTs)
  pure market

/-- The entry points that write. -/
inductive FactoryOp where
  | initializeFactory (admin outcomeManager : Address) (marketWasmHash : BytesN 32)
      (minStake : Int)
  | deployMarket (creator : Address) (args : MarketInitArgs)
  | whitelistToken (token : Address)
  | setMarketWasmHash (marketWasmHash : BytesN 32)
  | setOutcomeManager (outcomeManager : Address)
  | pause
  | unpause
  deriving DecidableEq

/-- Run an entry point. -/
def FactoryOp.perform : FactoryOp → Factory T Unit
  | .initializeFactory admin outcomeManager marketWasmHash minStake =>
    PredictionMarketFactory.initializeFactory admin outcomeManager marketWasmHash minStake
  | .deployMarket creator args => ignore (PredictionMarketFactory.deployMarket creator args)
  | .whitelistToken token => PredictionMarketFactory.whitelistToken token
  | .setMarketWasmHash marketWasmHash => PredictionMarketFactory.setMarketWasmHash marketWasmHash
  | .setOutcomeManager outcomeManager => PredictionMarketFactory.setOutcomeManager outcomeManager
  | .pause => PredictionMarketFactory.pause
  | .unpause => PredictionMarketFactory.unpause

end Deployment

section Specs

variable {env : Env} {f f' : Frame Storage T Event} {u : Unit}

theorem run_requireAdmin_bind {β : Type} {b : β} (k : FactoryConfig → Factory T β) :
    run (requireAdmin >>= k) env f = .ok (b, f') ↔
      ∃ config, f.store.config = some config ∧ config.admin ∈ env.auths ∧
        run (k config) env f = .ok (b, f') := by
  simp only [requireAdmin, requireConfig, Contract.bind_assoc, run_steps]

variable [MarketDeployer T] [Crypto]

omit [Crypto] in
theorem run_deployMarketInstance_bind {β : Type} {b : β} {wasmHash salt : BytesN 32}
    {params : MarketParams} (k : Address → Factory T β) :
    run (deployMarketInstance wasmHash salt params >>= k) env f = .ok (b, f') ↔
      ∃ market tokens,
        MarketDeployer.deployV2 env wasmHash salt params f.tokens = some (market, tokens) ∧
        run (k market) env { f with tokens := tokens } = .ok (b, f') := by
  cases h : MarketDeployer.deployV2 env wasmHash salt params f.tokens <;>
    simp [run, bind, deployMarketInstance, h, Prod.ext_iff]

/-- A deployed market is the one of the next id, and the factory remembers its address. -/
theorem deploy_market_deploys {creator market : Address} {args : MarketInitArgs}
    (h : run (deployMarket creator args) env f = .ok (market, f')) :
    ∃ config, f.store.config = some config ∧
      MarketDeployer.deployV2 env config.marketWasmHash
        (marketDeploySalt (f.store.marketCounter + 1))
        ⟨f.store.marketCounter + 1, creator, config.outcomeManager, env.contract,
          config.minStake, config.maxStakePerUser, config.stakingCutoffSecs, args⟩ f.tokens =
        some (market, f'.tokens) ∧
      f'.store = ((f.store.setMarketCounter (f.store.marketCounter + 1)).setMarket
        (f.store.marketCounter + 1) market).appendMarketList market := by
  simp only [deployMarket, requireConfig, nextMarketId, Contract.bind_assoc, run_steps,
    run_deployMarketInstance_bind] at h
  obtain ⟨-, config, hconfig, -, -, -, -, -, -, -, market, tokens, hdeploy, rfl, rfl⟩ := h
  exact ⟨config, hconfig, hdeploy, rfl⟩

theorem FactoryOp.deploys {op : FactoryOp}
    (h : run (op.perform : Factory T Unit) env f = .ok (u, f')) :
    f'.tokens = f.tokens ∨ ∃ wasmHash salt params market,
      MarketDeployer.deployV2 env wasmHash salt params f.tokens = some (market, f'.tokens) := by
  cases op with
  | deployMarket creator args =>
    obtain ⟨market, h⟩ := run_ignore.mp h
    obtain ⟨config, -, hdeploy, -⟩ := deploy_market_deploys h
    exact .inr ⟨_, _, _, _, hdeploy⟩
  | initializeFactory =>
    simp only [FactoryOp.perform, PredictionMarketFactory.initializeFactory, run_steps] at h
    obtain ⟨-, -, rfl⟩ := h
    exact .inl rfl
  | whitelistToken =>
    simp only [FactoryOp.perform, PredictionMarketFactory.whitelistToken, run_requireAdmin_bind,
      run_modifyStore] at h
    obtain ⟨_, -, -, rfl⟩ := h
    exact .inl rfl
  | setMarketWasmHash =>
    simp only [FactoryOp.perform, PredictionMarketFactory.setMarketWasmHash,
      run_requireAdmin_bind, run_modifyStore] at h
    obtain ⟨_, -, -, rfl⟩ := h
    exact .inl rfl
  | setOutcomeManager =>
    simp only [FactoryOp.perform, PredictionMarketFactory.setOutcomeManager,
      run_requireAdmin_bind, run_modifyStore] at h
    obtain ⟨_, -, -, rfl⟩ := h
    exact .inl rfl
  | pause =>
    simp only [FactoryOp.perform, PredictionMarketFactory.pause, setPaused,
      run_requireAdmin_bind, run_modifyStore] at h
    obtain ⟨_, -, -, rfl⟩ := h
    exact .inl rfl
  | unpause =>
    simp only [FactoryOp.perform, PredictionMarketFactory.unpause, setPaused,
      run_requireAdmin_bind, run_modifyStore] at h
    obtain ⟨_, -, -, rfl⟩ := h
    exact .inl rfl

end Specs

end Backit.PredictionMarketFactory
