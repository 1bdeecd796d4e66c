import Backit.CallRegistry.Types
import Backit.Lib.Totals
import Backit.Lib.SecondaryIndex

/-!
# The registry's storage

Storage is read through functions of the state and written through functions that return the
state after the write; `Registry` is the computation type of the entry points. The records are
grouped by what changes them together: `Market` holds the calls and everything staked on them,
`Profiles` the records of users, `Control` the configuration and the proposals. The map of calls
only ever holds a call under its own id, which `Market` carries as a field.
-/

namespace Backit.CallRegistry

open Soroban Lib

/-- The calls, the stakes on them and the claims against them. -/
structure Market where
  callCounter : Nat
  calls : Nat → Option Call
  callStakers : Nat → SeenList Address
  stakerCalls : Address → SeenList Nat
  userStake : Nat × Address × Nat → Int
  voidRefundClaimed : Nat × Address → Bool
  expiredRefundClaimed : Nat × Address → Bool
  creatorStats : Address → CreatorStats
  keyed : ∀ id call, calls id = some call → call.id = id

/-- Records about users, and the data entries written when a call is created. -/
structure Profiles where
  globalStats : GlobalStats
  globalStakerSeen : Address → Bool
  userTotalStakeVolume : Address → Int
  accountFirstSeen : Address → Option Nat
  userTrustlineCount : Address → Nat
  sep10Domain : Address → Option Bytes
  dataEntries : Bytes → Option Bytes

/-- The state of the governance module. -/
structure Governance where
  proposalCounter : Nat
  proposals : Nat → Option GovernanceProposal
  voted : Nat × Address → Bool
  config : Option GovernanceConfig

/-- Configuration, lock and proposals. -/
structure Control where
  config : Option ContractConfig
  version : Option Nat
  deployedSeq : Option Nat
  xlmSacAddr : Option Address
  maxDuration : Option Nat
  locked : Bool
  proposalCounter : Nat
  proposals : Nat → Option Proposal
  governance : Governance

structure Storage where
  market : Market
  profiles : Profiles
  control : Control

/-- The storage of a freshly deployed contract. -/
def Storage.empty : Storage where
  market :=
    { callCounter := 0
      calls := fun _ => none
      callStakers := fun _ => .empty
      stakerCalls := fun _ => .empty
      userStake := fun _ => 0
      voidRefundClaimed := fun _ => false
      expiredRefundClaimed := fun _ => false
      creatorStats := fun _ => ⟨0, 0, 0⟩
      keyed := by simp }
  profiles :=
    { globalStats := ⟨0, 0, 0⟩
      globalStakerSeen := fun _ => false
      userTotalStakeVolume := fun _ => 0
      accountFirstSeen := fun _ => none
      userTrustlineCount := fun _ => 0
      sep10Domain := fun _ => none
      dataEntries := fun _ => none }
  control :=
    { config := none
      version := none
      deployedSeq := none
      xlmSacAddr := none
      maxDuration := none
      locked := false
      proposalCounter := 0
      proposals := fun _ => none
      governance :=
        { proposalCounter := 0
          proposals := fun _ => none
          voted := fun _ => false
          config := none } }

namespace Market

variable (m : Market)

/-- Store a call under its id. -/
def setCall (call : Call) : Market :=
  { m with
    calls := Function.update m.calls call.id (some call)
    keyed := by
      intro id stored h
      by_cases hid : id = call.id
      · subst hid
        rw [Function.update_self, Option.some.injEq] at h
        rw [h]
      · rw [Function.update_of_ne hid] at h
        exact m.keyed id stored h }

def setUserStake (callId : Nat) (staker : Address) (position : Nat) (amount : Int) : Market :=
  { m with userStake := Function.update m.userStake (callId, staker, position) amount }

def addCallStaker (callId : Nat) (staker : Address) : Market :=
  { m with callStakers := Function.update m.callStakers callId ((m.callStakers callId).add staker) }

def addStakerCall (staker : Address) (callId : Nat) : Market :=
  { m with stakerCalls := Function.update m.stakerCalls staker ((m.stakerCalls staker).add callId) }

def setVoidRefundClaimed (callId : Nat) (staker : Address) : Market :=
  { m with voidRefundClaimed := Function.update m.voidRefundClaimed (callId, staker) true }

def setExpiredRefundClaimed (callId : Nat) (staker : Address) : Market :=
  { m with expiredRefundClaimed := Function.update m.expiredRefundClaimed (callId, staker) true }

def setCreatorStats (creator : Address) (stats : CreatorStats) : Market :=
  { m with creatorStats := Function.update m.creatorStats creator stats }

/-- Write the call counter. -/
def setCallCounter (counter : Nat) : Market := { m with callCounter := counter }

end Market

namespace Storage

variable (s : Storage)

def getConfig : Option ContractConfig := s.control.config

def getCall (callId : Nat) : Option Call := s.market.calls callId

def getUserStake (callId : Nat) (staker : Address) (position : Nat) : Int :=
  s.market.userStake (callId, staker, position)

def isVoidRefundClaimed (callId : Nat) (staker : Address) : Bool :=
  s.market.voidRefundClaimed (callId, staker)

def isExpiredRefundClaimed (callId : Nat) (staker : Address) : Bool :=
  s.market.expiredRefundClaimed (callId, staker)

def getCreatorStats (creator : Address) : CreatorStats := s.market.creatorStats creator

def getUserTotalStakeVolume (user : Address) : Int := s.profiles.userTotalStakeVolume user

def getAccountFirstSeen (user : Address) : Option Nat := s.profiles.accountFirstSeen user

def setConfig (config : ContractConfig) : Storage :=
  { s with control := { s.control with config := some config } }

/-- Apply a write to the market records. -/
def onMarket (write : Market → Market) : Storage := { s with market := write s.market }

def setCall (call : Call) : Storage := s.onMarket (·.setCall call)

def setAccountFirstSeen (user : Address) (sequence : Nat) : Storage :=
  { s with profiles := { s.profiles with
      accountFirstSeen := Function.update s.profiles.accountFirstSeen user (some sequence) } }

def setDataEntry (key value : Bytes) : Storage :=
  { s with profiles := { s.profiles with
      dataEntries := Function.update s.profiles.dataEntries key (some value) } }

def setLocked (locked : Bool) : Storage :=
  { s with control := { s.control with locked := locked } }

def setProposal (proposal : Proposal) : Storage :=
  { s with control := { s.control with
      proposals := Function.update s.control.proposals proposal.id (some proposal) } }

@[simp] theorem onMarket_market (write : Market → Market) :
    (s.onMarket write).market = write s.market := rfl

@[simp] theorem onMarket_profiles (write : Market → Market) :
    (s.onMarket write).profiles = s.profiles := rfl

@[simp] theorem onMarket_control (write : Market → Market) :
    (s.onMarket write).control = s.control := rfl

@[simp] theorem setCall_market (call : Call) :
    (s.setCall call).market = s.market.setCall call := rfl

@[simp] theorem setCall_profiles (call : Call) : (s.setCall call).profiles = s.profiles := rfl

@[simp] theorem setCall_control (call : Call) : (s.setCall call).control = s.control := rfl

@[simp] theorem setLocked_market (locked : Bool) : (s.setLocked locked).market = s.market := rfl

@[simp] theorem setLocked_profiles (locked : Bool) :
    (s.setLocked locked).profiles = s.profiles := rfl

@[simp] theorem setLocked_config (locked : Bool) :
    (s.setLocked locked).control.config = s.control.config := rfl

end Storage

/-- A computation of a registry entry point. -/
abbrev Registry (T α : Type) := Contract (Frame Storage T Event) CallRegistryError α

/-- What an operation on configuration, proposals and profiles works on: every record except the
market, and the events it has published. -/
structure Desk where
  profiles : Profiles
  control : Control
  events : List Event

/-- A computation of an operation that reaches neither the market nor another contract. -/
abbrev Office (α : Type) := Contract Desk CallRegistryError α

open Contract

variable {T α β : Type}

/-- Run an operation that reaches neither the market nor another contract. -/
def onDesk (x : Office α) : Registry T α := fun env f =>
  match x env ⟨f.store.profiles, f.store.control, []⟩ with
  | .ok (a, desk) =>
    .ok (a, { f with
      store := { f.store with profiles := desk.profiles, control := desk.control }
      effects := desk.events.map .event ++ f.effects })
  | .error e => .error e

/-- `get_config(&env).ok_or(CallRegistryError::NotInitialized)?`. -/
def requireConfig : Registry T ContractConfig := do
  unwrap (← getStore).getConfig (.error .notInitialized)

/-- `get_config(&env).expect(message)`. -/
def expectConfig (message : String) : Registry T ContractConfig := do
  unwrap (← getStore).getConfig (.panic message)

/-- `get_call(&env, call_id).ok_or(CallRegistryError::CallNotFound)?`. -/
def requireCall (callId : Nat) : Registry T Call := do
  unwrap ((← getStore).getCall callId) (.error .callNotFound)

/-- `get_call(&env, call_id).expect(message)`. -/
def expectCall (callId : Nat) (message : String) : Registry T Call := do
  unwrap ((← getStore).getCall callId) (.panic message)

/-- `reentrancy_guard!`. -/
def reentrancyGuard : Registry T Unit := do
  rejectIf ((← getStore).control.locked = true) (.error .reentrancyDetected)
  modifyStore (·.setLocked true)

def releaseLock : Registry T Unit := modifyStore (·.setLocked false)

/-- Take the next call id and advance the counter. -/
def nextCallId : Registry T Nat := do
  let counter := (← getStore).market.callCounter
  let nextId ← unsigned 64 (counter + 1)
  modifyStore (·.onMarket (·.setCallCounter nextId))
  pure nextId

def recordCallCreated : Registry T Unit := do
  let stats := (← getStore).profiles.globalStats
  let totalCalls ← unsigned 64 (stats.totalCalls + 1)
  modifyStore fun s => { s with profiles := { s.profiles with
    globalStats := { stats with totalCalls := totalCalls } } }

def recordStake (staker : Address) (amount : Int) : Registry T Unit := do
  let profiles := (← getStore).profiles
  let stats := profiles.globalStats
  let volume ← i128 (stats.totalStakeVolume + amount)
  if profiles.globalStakerSeen staker then
    modifyStore fun s => { s with profiles := { s.profiles with
      globalStats := { stats with totalStakeVolume := volume } } }
  else
    let stakers ← unsigned 64 (stats.totalUniqueStakers + 1)
    modifyStore fun s => { s with profiles := { s.profiles with
      globalStakerSeen := Function.update s.profiles.globalStakerSeen staker true
      globalStats :=
        { stats with totalStakeVolume := volume, totalUniqueStakers := stakers } } }

/-- Add to a user's cumulative volume; an overflow is an error of its own. -/
def recordUserStakeVolume (user : Address) (amount : Int) : Registry T Unit := do
  let current := (← getStore).getUserTotalStakeVolume user
  let updated ← unwrap (checkedAdd current amount) (.error .overflow)
  modifyStore fun s => { s with profiles := { s.profiles with
    userTotalStakeVolume := Function.update s.profiles.userTotalStakeVolume user updated } }

section Specs

variable {env : Env} {f f' : Frame Storage T Event} {a : α} {b : β}

/-- An operation on the desk leaves the market and the token contracts alone, and all it does
outside the storage is publish events. -/
theorem run_onDesk {x : Office α} : run (onDesk x) env f = .ok (a, f') ↔ ∃ desk,
    run x env ⟨f.store.profiles, f.store.control, []⟩ = .ok (a, desk) ∧
      f' = { f with
        store := { f.store with profiles := desk.profiles, control := desk.control }
        effects := desk.events.map .event ++ f.effects } := by
  simp only [run, onDesk]
  cases x env ⟨f.store.profiles, f.store.control, []⟩ with
  | error e => simp
  | ok result =>
    obtain ⟨a', desk⟩ := result
    simp only [Except.ok.injEq, Prod.mk.injEq]
    constructor
    · rintro ⟨rfl, rfl⟩
      exact ⟨desk, ⟨rfl, rfl⟩, rfl⟩
    · rintro ⟨_, ⟨rfl, rfl⟩, rfl⟩
      exact ⟨rfl, rfl⟩

@[simp] theorem run_requireConfig_bind (k : ContractConfig → Registry T β) :
    run (requireConfig >>= k) env f = .ok (b, f') ↔
      ∃ config, f.store.control.config = some config ∧ run (k config) env f = .ok (b, f') := by
  simp only [requireConfig, Contract.bind_assoc, run_steps, Storage.getConfig]

@[simp] theorem run_expectConfig_bind (message : String) (k : ContractConfig → Registry T β) :
    run (expectConfig message >>= k) env f = .ok (b, f') ↔
      ∃ config, f.store.control.config = some config ∧ run (k config) env f = .ok (b, f') := by
  simp only [expectConfig, Contract.bind_assoc, run_steps, Storage.getConfig]

@[simp] theorem run_requireCall_bind (callId : Nat) (k : Call → Registry T β) :
    run (requireCall callId >>= k) env f = .ok (b, f') ↔
      ∃ call, f.store.market.calls callId = some call ∧ run (k call) env f = .ok (b, f') := by
  simp only [requireCall, Contract.bind_assoc, run_steps, Storage.getCall]

@[simp] theorem run_expectCall_bind (callId : Nat) (message : String) (k : Call → Registry T β) :
    run (expectCall callId message >>= k) env f = .ok (b, f') ↔
      ∃ call, f.store.market.calls callId = some call ∧ run (k call) env f = .ok (b, f') := by
  simp only [expectCall, Contract.bind_assoc, run_steps, Storage.getCall]

@[simp] theorem run_reentrancyGuard_bind (k : Unit → Registry T β) :
    run (reentrancyGuard >>= k) env f = .ok (b, f') ↔
      f.store.control.locked = false ∧
        run (k ()) env { f with store := f.store.setLocked true } = .ok (b, f') := by
  simp only [reentrancyGuard, Contract.bind_assoc, run_steps, Bool.not_eq_true]

@[simp] theorem run_releaseLock_bind (k : Unit → Registry T β) :
    run (releaseLock >>= k) env f =
      run (k ()) env { f with store := f.store.setLocked false } := by
  simp only [releaseLock, run_modifyStore_bind]

end Specs

end Backit.CallRegistry
