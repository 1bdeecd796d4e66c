import Backit.CallRegistry.Operations
import Backit.OutcomeManager.Claims
import Backit.PredictionMarketFactory.Deployment

/-!
# The contracts on one ledger

Managers, registries, markets and factories stand at addresses of one ledger and call each other.
A call runs the code of the contract at the called address, with the caller among those who
authorise it; the host lets nobody call a contract that is running. What tokens and strangers do
is a parameter, and they do not touch the contracts.
-/

namespace Backit.Platform

open Soroban Contract OutcomeManager PredictionMarket PredictionMarketFactory

/-- What stands at an address. -/
inductive Resident where
  | manager (s : OutcomeManager.Storage)
  | registry (s : CallRegistry.Storage)
  | market (s : PredictionMarket.Storage)
  | factory (s : PredictionMarketFactory.Storage)
  | running
  | stranger

/-- An account, or a contract of someone else. -/
def Resident.isStranger : Resident → Bool
  | .stranger => true
  | _ => false

def Resident.asManager : Resident → Option OutcomeManager.Storage
  | .manager s => some s
  | _ => none

/-- The contracts at their addresses, and the state of the tokens and of strangers. -/
structure Ledger (S : Type) where
  resident : Address → Resident
  rest : S

/-- What calls to the addresses of strangers do. -/
class Strangers (S : Type) extends Registries S, Peers S

/-- The address a contract deploys to under a salt. -/
class Deployer where
  contractAddress : Address → BytesN 32 → Address

namespace Ledger

variable {S : Type}

/-- The manager at an address. -/
def managerAt (l : Ledger S) (address : Address) : Option OutcomeManager.Storage :=
  (l.resident address).asManager

/-- Put a resident at an address. -/
def set (l : Ledger S) (address : Address) (r : Resident) : Ledger S :=
  { l with resident := Function.update l.resident address r }

def withRest (l : Ledger S) (rest : S) : Ledger S := { l with rest := rest }

/-- The environment of a call: the caller authorises it, and so do the accounts and strangers who
authorised the caller. -/
def callee (l : Ledger S) (env : Env) (address : Address) : Env :=
  { env with
    contract := address
    auths := env.contract :: env.auths.filter fun a => (l.resident a).isStranger }

/-- Run a computation of the contract at an address, which is `running` meanwhile. -/
def visit {σ E ε α : Type} (l : Ledger S) (wrap : σ → Resident) (env : Env) (address : Address)
    (s : σ) (op : Contract (Frame σ (Ledger S) E) ε α) : Option (α × Ledger S) :=
  match run op (l.callee env address) ⟨s, l.set address .running, []⟩ with
  | .ok (a, f) => some (a, f.tokens.set address (wrap f.store))
  | .error _ => none

end Ledger

variable {S : Type}

/-- Tokens are no residents. -/
instance [Tokens S] : Tokens (Ledger S) where
  balance l token who := Tokens.balance l.rest token who
  transfer env token sender recipient amount l :=
    (Tokens.transfer env token sender recipient amount l.rest).map l.withRest
  mint env token recipient amount l :=
    (Tokens.mint env token recipient amount l.rest).map l.withRest
  clawback env token holder amount l :=
    (Tokens.clawback env token holder amount l.rest).map l.withRest
  deploy env wasmHash salt l :=
    (Tokens.deploy env wasmHash salt l.rest).map fun (token, rest) => (token, l.withRest rest)

section Calls

variable [Strangers S]

/-- Call a registry or a market, which have the entry point in common, or a stranger. -/
def Ledger.callEscrow [Crypto] {α : Type} (l : Ledger S) (env : Env) (address : Address)
    (op : CallRegistry.MarketOp) (entry : Market (Ledger S) α) (elsewhere : Option S) :
    Option (Ledger S) :=
  match l.resident address with
  | .registry s => (l.visit .registry env address s op.perform).map (·.2)
  | .market s => (l.visit .market env address s entry).map (·.2)
  | .stranger => elsewhere.map l.withRest
  | _ => none

/-- Call a market or a stranger. -/
def Ledger.callMarket {α : Type} (l : Ledger S) (env : Env) (address : Address)
    (entry : Market (Ledger S) α) (elsewhere : Option S) : Option (Ledger S) :=
  match l.resident address with
  | .market s => (l.visit .market env address s entry).map (·.2)
  | .stranger => elsewhere.map l.withRest
  | _ => none

/-- The calls of a manager. -/
instance [Crypto] : Registries (Ledger S) where
  resolveCall env address callId outcome endPrice l :=
    l.callEscrow env address (.resolveCall callId outcome endPrice)
      (PredictionMarket.resolveCall callId outcome endPrice)
      (Registries.resolveCall env address callId outcome endPrice l.rest)
  releaseEscrow env address callId recipient amount l :=
    l.callEscrow env address (.releaseEscrow callId recipient amount)
      (PredictionMarket.releaseEscrow callId recipient amount)
      (Registries.releaseEscrow env address callId recipient amount l.rest)
  markSettled env address callId l :=
    l.callEscrow env address (.markSettled callId) (PredictionMarket.markSettled callId)
      (Registries.markSettled env address callId l.rest)
  getMarket l address callId :=
    match l.resident address with
    | .factory s => s.market callId
    | .stranger => Registries.getMarket l.rest address callId
    | _ => none

/-- A new market at the address that the factory and the salt determine. The template is the
market's own code. -/
instance [Deployer] : MarketDeployer (Ledger S) where
  deployV2 env _ salt params l :=
    let address := Deployer.contractAddress env.contract salt
    if (l.resident address).isStranger then
      (l.visit .market env address PredictionMarket.Storage.empty
        (PredictionMarket.construct params.callId params.creator params.outcomeManager
          params.factory params.minStake params.maxStakePerUser params.stakingCutoffSecs
          params.args)).map fun (_, l) => (address, l)
    else none

variable [Crypto] [Network] [Deployer]

/-- The calls of a market. -/
instance : Peers (Ledger S) where
  feeConfig env address l :=
    match l.resident address with
    | .manager s =>
      match run (getFeeConfig : Manager (Ledger S) _) (l.callee env address)
        ⟨s, l.set address .running, []⟩ with
      | .ok (fees, _) => some fees
      | .error _ => none
    | .stranger => Peers.feeConfig env address l.rest
    | _ => none
  deployMarket env address creator args l :=
    match l.resident address with
    | .factory s => l.visit .factory env address s (deployMarket creator args)
    | .stranger =>
      (Peers.deployMarket env address creator args l.rest).map fun (market, rest) =>
        (market, l.withRest rest)
    | _ => none
  getCallId env address l :=
    match l.resident address with
    | .market s => s.config.map MarketConfig.callId
    | .stranger => Peers.getCallId env address l.rest
    | _ => none
  claimPayoutNoRelease env address callId staker stake winning losing l :=
    match l.resident address with
    | .manager s =>
      (l.visit .manager env address s
        (OutcomeManager.claimPayoutNoRelease callId staker stake winning losing)).map (·.2)
    | .stranger =>
      (Peers.claimPayoutNoRelease env address callId staker stake winning losing l.rest).map
        l.withRest
    | _ => none
  stakeOnCall env address staker callId amount position l :=
    l.callMarket env address (PredictionMarket.stakeOnCall staker callId amount position)
      (Peers.stakeOnCall env address staker callId amount position l.rest)
  storeRolloverChain env address callId chain l :=
    l.callMarket env address (PredictionMarket.storeRolloverChain callId chain)
      (Peers.storeRolloverChain env address callId chain l.rest)
  setParentCall env address callId parentCallId rolledAmount l :=
    l.callMarket env address (PredictionMarket.setParentCall callId parentCallId rolledAmount)
      (Peers.setParentCall env address callId parentCallId rolledAmount l.rest)

end Calls

end Backit.Platform
