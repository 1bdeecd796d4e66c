import Backit.PredictionMarket.Types
import Backit.Soroban.Execution

/-!
# Parlays

A parlay chains predictions: what a leg wins is staked on the next one. The contract stakes as
itself, so it keeps, for each call id, what its parlays have staked and what came back, and every
parlay takes its share.
-/

namespace Backit.ParlayBetting

open Soroban Contract
open PredictionMarket (Call)

inductive ParlayError where
  | alreadyInitialized
  | notInitialized
  | invalidLegCount
  | invalidStakeAmount
  | invalidOutcome
  | parlayNotFound
  | parlayNotActive
  | legNotResolved
  | marketCallFailed
  | contractPaused
  deriving DecidableEq

/-- A prediction on a deployed market. -/
structure ParlayLeg where
  callId : Nat
  marketAddress : Address
  outcome : Nat
  deriving DecidableEq

inductive ParlayStatus where
  | active
  | won
  | lost
  | voided
  deriving DecidableEq

structure Parlay where
  id : Nat
  user : Address
  legs : List ParlayLeg
  activeLegIndex : Nat
  totalEscrowed : Int
  status : ParlayStatus
  stakeToken : Address
  deriving DecidableEq

structure ParlayConfig where
  admin : Address
  outcomeManager : Address
  deriving DecidableEq

/-- What parlays have staked under a call id, and what came back once it is claimed. -/
structure LegAggregate where
  totalStaked : Int
  claimedPayout : Option Int
  deriving DecidableEq

/-- Why a parlay ends before its last leg. -/
inductive VoidReason where
  | marketCallFailed
  | tokenMismatch
  | marketExpired
  | stakeFailed
  deriving DecidableEq

/-- A stake of the contract for a parlay. -/
structure LegStake where
  parlayId : Nat
  legIndex : Nat
  leg : ParlayLeg
  token : Address
  amount : Int
  deriving DecidableEq

/-- A claim of the contract: the winning stake that it presented, and what it received. -/
structure LegReceipt where
  leg : ParlayLeg
  token : Address
  presented : Int
  received : Int
  deriving DecidableEq

/-- The share of a claim that a parlay's stake was credited. -/
structure LegCredit where
  stake : LegStake
  share : Int
  deriving DecidableEq

/-- Ghost record of what the contract does with markets. The contract does not publish it. -/
inductive Note where
  | staked (stake : LegStake)
  | claimed (receipt : LegReceipt)
  | credited (credit : LegCredit)
  deriving DecidableEq

inductive Event where
  | parlayCreated (parlayId : Nat) (user : Address) (initialStake : Int) (legCount : Nat)
  | parlayLegResolved (parlayId legIndex : Nat) (won : Bool)
  | parlayCompleted (parlayId : Nat) (totalPayout : Int)
  | parlayVoided (parlayId : Nat) (reason : VoidReason)
  | noted (note : Note)
  deriving DecidableEq

structure Storage where
  config : Option ParlayConfig
  parlayCounter : Nat
  parlay : Nat → Option Parlay
  userParlays : Address → List Nat
  legAggregate : Nat → LegAggregate

namespace Storage

/-- The storage of a freshly deployed contract. -/
def empty : Storage := ⟨none, 0, fun _ => none, fun _ => [], fun _ => ⟨0, none⟩⟩

variable (s : Storage)

def setConfig (config : ParlayConfig) : Storage := { s with config := some config }

def setParlayCounter (counter : Nat) : Storage := { s with parlayCounter := counter }

def setParlay (parlay : Parlay) : Storage :=
  { s with parlay := Function.update s.parlay parlay.id (some parlay) }

def appendUserParlay (user : Address) (parlayId : Nat) : Storage :=
  { s with
    userParlays := Function.update s.userParlays user (s.userParlays user ++ [parlayId]) }

def setLegAggregate (callId : Nat) (aggregate : LegAggregate) : Storage :=
  { s with legAggregate := Function.update s.legAggregate callId aggregate }

end Storage

/-- What the contract calls of markets, at whatever address a leg names, and of the outcome
manager. `none` is a call that fails. The entries of `getOutcomeStakes` are in key order. -/
class ParlayPeers (P : Type) extends Tokens P where
  getCall : Env → (market : Address) → (callId : Nat) → P → Option (Call × P)
  stakeOnCall : Env → (market staker : Address) → (callId : Nat) → (amount : Int) →
    (position : Nat) → P → Option P
  getOutcomeStakes : Env → (market : Address) → (callId : Nat) → P →
    Option (List (Nat × Int) × P)
  hasClaimed : Env → (manager : Address) → (callId : Nat) → (staker : Address) → P →
    Option (Bool × P)
  claimPayoutForMarket : Env → (manager : Address) → (callId : Nat) → (staker : Address) →
    (stakerWinningStake totalWinningStake totalLosingStake : Int) → P → Option P

def maxLegs : Nat := 10

/-- A computation of an entry point. -/
abbrev Betting (P α : Type) := Contract (Frame Storage P Event) ParlayError α

variable {P : Type} [ParlayPeers P]

section Calls

variable {α : Type}

/-- What a call that is caught when it fails returns, and what it leaves. -/
def tried (call : Env → P → Option (α × P)) (env : Env) (p : P) : Option α × P :=
  match call env p with
  | some (a, p') => (some a, p')
  | none => (none, p)

/-- A call that is caught when it fails. -/
def tryPeer (call : Env → P → Option (α × P)) : Betting P (Option α) := fun env f =>
  .ok ((tried call env f.tokens).1, { f with tokens := (tried call env f.tokens).2 })

/-- A call that aborts the invocation when it fails. -/
def callPeer (call : Env → P → Option (α × P)) : Betting P α := fun env f =>
  match call env f.tokens with
  | some (a, peers) => .ok (a, { f with tokens := peers })
  | none => .error .external

/-- A call for its effect alone. -/
def invokes (call : Env → P → Option P) : Env → P → Option (Unit × P) :=
  fun env p => (call env p).map fun p' => ((), p')

end Calls

/-- `market.try_get_call(..)`. -/
def tryGetCall (leg : ParlayLeg) : Betting P (Option Call) :=
  tryPeer fun env => ParlayPeers.getCall env leg.marketAddress leg.callId

/-- The stake of the contract itself on a leg, which it authorises. -/
def stakeOnLeg (leg : ParlayLeg) (amount : Int) (env : Env) (p : P) : Option P :=
  ParlayPeers.stakeOnCall env leg.marketAddress env.contract leg.callId amount leg.outcome p

def note (n : Note) : Betting P Unit := publish (.noted n)

def requireConfig : Betting P ParlayConfig := do
  unwrap (← getStore).config (.error .notInitialized)

def bumpLegAggregate (callId : Nat) (amount : Int) : Betting P Unit := do
  let aggregate := (← getStore).legAggregate callId
  let totalStaked ← i128 (aggregate.totalStaked + amount)
  modifyStore (·.setLegAggregate callId { aggregate with totalStaked := totalStaked })

/-- Take the next parlay id and advance the counter. -/
def nextParlayId : Betting P Nat := do
  let nextId ← unsigned 64 ((← getStore).parlayCounter + 1)
  modifyStore (·.setParlayCounter nextId)
  pure nextId

/-- The entry point `initialize`. -/
def initializeParlays (admin outcomeManager : Address) : Betting P Unit := do
  rejectIf ((← getStore).config.isSome = true) (.error .alreadyInitialized)
  requireAuth admin
  modifyStore (·.setConfig ⟨admin, outcomeManager⟩)

def createParlay (user : Address) (legs : List ParlayLeg) (initialStake : Int) :
    Betting P Nat := do
  requireAuth user
  let _ ← requireConfig
  rejectIf (legs.length < 2 ∨ maxLegs < legs.length) (.error .invalidLegCount)
  rejectIf (initialStake ≤ 0) (.error .invalidStakeAmount)
  let firstLeg ← unwrap legs[0]? (.panic "called `Option::unwrap()` on a `None` value")
  let call ← unwrap (← tryGetCall firstLeg) (.error .marketCallFailed)
  rejectIf (firstLeg.outcome < 1 ∨ call.outcomeCount < firstLeg.outcome) (.error .invalidOutcome)
  let environment ← env
  tokenTransfer call.stakeToken user environment.contract initialStake
  callPeer (invokes (stakeOnLeg firstLeg initialStake))
  bumpLegAggregate firstLeg.callId initialStake
  let parlayId ← nextParlayId
  note (.staked ⟨parlayId, 0, firstLeg, call.stakeToken, initialStake⟩)
  modifyStore fun s => (s.setParlay
    { id := parlayId, user := user, legs := legs, activeLegIndex := 0
      totalEscrowed := initialStake, status := .active
      stakeToken := call.stakeToken }).appendUserParlay user parlayId
  publish (.parlayCreated parlayId user initialStake legs.length)
  pure parlayId

/-- Claim what all parlays have staked under the leg's call id. -/
def claimAggregate (config : ParlayConfig) (stakeToken : Address) (leg : ParlayLeg)
    (aggregate : LegAggregate) : Betting P LegAggregate := do
  let environment ← env
  let hasClaimed ← callPeer fun env =>
    ParlayPeers.hasClaimed env config.outcomeManager leg.callId env.contract
  rejectIf (hasClaimed = true) (.error .marketCallFailed)
  let outcomeStakes ← unwrap
    (← tryPeer fun env => ParlayPeers.getOutcomeStakes env leg.marketAddress leg.callId)
    (.error .marketCallFailed)
  let totalWinningStake := (outcomeStakes.lookup leg.outcome).getD 0
  let totalLosingStake ← sumI128 ((outcomeStakes.filter (·.1 ≠ leg.outcome)).map Prod.snd)
  let balanceBefore ← tokenBalance stakeToken environment.contract
  callPeer (invokes fun env => ParlayPeers.claimPayoutForMarket env config.outcomeManager
    leg.callId env.contract aggregate.totalStaked totalWinningStake totalLosingStake)
  let balanceAfter ← tokenBalance stakeToken environment.contract
  let received ← i128 (balanceAfter - balanceBefore)
  modifyStore (·.setLegAggregate leg.callId { aggregate with claimedPayout := some received })
  note (.claimed ⟨leg, stakeToken, aggregate.totalStaked, received⟩)
  pure { aggregate with claimedPayout := some received }

/-- The aggregate of a leg's call id, claimed now if it has not been. -/
def claimedAggregate (config : ParlayConfig) (stakeToken : Address) (leg : ParlayLeg) :
    Betting P LegAggregate := do
  let aggregate := (← getStore).legAggregate leg.callId
  if aggregate.claimedPayout.isNone then claimAggregate config stakeToken leg aggregate
  else pure aggregate

/-- A parlay's share of the payout of a leg. -/
def claimLegPayout (config : ParlayConfig) (stakeToken : Address) (leg : ParlayLeg)
    (thisParlayStake : Int) : Betting P Int := do
  let aggregate ← claimedAggregate config stakeToken leg
  let claimedPayout ← unwrap aggregate.claimedPayout
    (.panic "called `Option::unwrap()` on a `None` value")
  unwrap ((checkedMul claimedPayout thisParlayStake).bind (checkedDiv · aggregate.totalStaked))
    (.error .marketCallFailed)

/-- A parlay that has ended. -/
def Parlay.ended (parlay : Parlay) (status : ParlayStatus) : Parlay :=
  { parlay with status := status, totalEscrowed := 0 }

/-- Pay a parlay's share to its user and end it. -/
def endParlay (parlay : Parlay) (share : Int) (status : ParlayStatus) (event : Event) :
    Betting P Unit := do
  tokenTransfer parlay.stakeToken (← env).contract parlay.user share
  modifyStore (·.setParlay (parlay.ended status))
  publish event

/-- Why the next leg cannot be staked on, if it cannot. -/
def nextLegVoid (parlay : Parlay) (nextLeg : ParlayLeg) : Betting P (Option VoidReason) := do
  let nextCall ← tryGetCall nextLeg
  let environment ← env
  pure (match nextCall with
    | none => some .marketCallFailed
    | some call =>
      if call.stakeToken ≠ parlay.stakeToken then some .tokenMismatch
      else if call.endTs ≤ environment.timestamp then some .marketExpired
      else none)

/-- Stake a parlay's share on the next leg, or pay it out where that fails. -/
def stakeShare (parlayId : Nat) (parlay : Parlay) (nextLeg : ParlayLeg) (share : Int) :
    Betting P Unit := do
  let staked ← tryPeer (invokes (stakeOnLeg nextLeg share))
  if staked.isSome then do
    bumpLegAggregate nextLeg.callId share
    note (.staked ⟨parlayId, parlay.activeLegIndex + 1, nextLeg, parlay.stakeToken, share⟩)
    modifyStore (·.setParlay
      { parlay with activeLegIndex := parlay.activeLegIndex + 1, totalEscrowed := share })
  else endParlay parlay share .voided (.parlayVoided parlayId .stakeFailed)

/-- Move a parlay that has won its leg on to the next one, if there is one. -/
def moveOn (parlayId : Nat) (parlay : Parlay) (share : Int) : Betting P Unit :=
  match parlay.legs[parlay.activeLegIndex + 1]? with
  | none => endParlay parlay share .won (.parlayCompleted parlayId share)
  | some nextLeg => do
      match ← nextLegVoid parlay nextLeg with
      | some reason => endParlay parlay share .voided (.parlayVoided parlayId reason)
      | none => stakeShare parlayId parlay nextLeg share

def advanceParlay (parlayId : Nat) : Betting P Unit := do
  let config ← requireConfig
  let parlay ← unwrap ((← getStore).parlay parlayId) (.error .parlayNotFound)
  rejectIf (parlay.status ≠ .active) (.error .parlayNotActive)
  let legIndex := parlay.activeLegIndex
  let leg ← unwrap parlay.legs[legIndex]? (.panic "called `Option::unwrap()` on a `None` value")
  let call ← unwrap (← tryGetCall leg) (.error .marketCallFailed)
  rejectIf (call.outcome = 0) (.error .legNotResolved)
  publish (.parlayLegResolved parlayId legIndex (call.outcome = leg.outcome))
  if call.outcome = leg.outcome then do
    let share ← claimLegPayout config parlay.stakeToken leg parlay.totalEscrowed
    note (.credited ⟨⟨parlayId, legIndex, leg, parlay.stakeToken, parlay.totalEscrowed⟩, share⟩)
    moveOn parlayId parlay share
  else do
    modifyStore (·.setParlay (parlay.ended .lost))
    publish (.parlayCompleted parlayId 0)

/-- The entry points that write. -/
inductive ParlayOp where
  | initializeParlays (admin outcomeManager : Address)
  | createParlay (user : Address) (legs : List ParlayLeg) (initialStake : Int)
  | advanceParlay (parlayId : Nat)
  deriving DecidableEq

/-- Run an entry point. -/
def ParlayOp.perform : ParlayOp → Betting P Unit
  | .initializeParlays admin outcomeManager => ParlayBetting.initializeParlays admin outcomeManager
  | .createParlay user legs initialStake =>
    ignore (ParlayBetting.createParlay user legs initialStake)
  | .advanceParlay parlayId => ParlayBetting.advanceParlay parlayId

end Backit.ParlayBetting

/-!
## What the entry points do

Every successful invocation makes one of the listed steps. A parlay that wins a leg has the leg's
aggregate claimed, is credited its share of it, and either moves on to its next leg or ends.
-/

namespace Backit.ParlayBetting

open Soroban Contract
open PredictionMarket (Call)

section Calls

variable {P α β : Type} {env : Env} {f f' : Frame Storage P Event} {b : β}

@[simp] theorem run_tryPeer_bind (call : Env → P → Option (α × P)) (k : Option α → Betting P β) :
    run (tryPeer call >>= k) env f = run (k (tried call env f.tokens).1) env
      { f with tokens := (tried call env f.tokens).2 } := by
  simp only [run, bind, tryPeer]

@[simp] theorem run_callPeer_bind (call : Env → P → Option (α × P)) (k : α → Betting P β) :
    run (callPeer call >>= k) env f = .ok (b, f') ↔
      ∃ a peers, call env f.tokens = some (a, peers) ∧
        run (k a) env { f with tokens := peers } = .ok (b, f') := by
  cases h : call env f.tokens <;> simp [run, bind, callPeer, h, Prod.ext_iff]

@[simp] theorem run_note_bind (n : Note) (k : Unit → Betting P β) :
    run (note n >>= k) env f = run (k ()) env (f.record f.tokens (.event (.noted n))) := by
  simp only [note, run_publish_bind]

@[simp] theorem run_requireConfig_bind (k : ParlayConfig → Betting P β) :
    run (requireConfig >>= k) env f = .ok (b, f') ↔
      ∃ config, f.store.config = some config ∧ run (k config) env f = .ok (b, f') := by
  simp only [requireConfig, Contract.bind_assoc, run_steps]

@[simp] theorem run_nextParlayId_bind (k : Nat → Betting P β) :
    run (nextParlayId >>= k) env f = .ok (b, f') ↔
      f.store.parlayCounter + 1 < 2 ^ 64 ∧ run (k (f.store.parlayCounter + 1)) env
        { f with store := f.store.setParlayCounter (f.store.parlayCounter + 1) } = .ok (b, f') := by
  simp only [nextParlayId, Contract.bind_assoc, run_steps]

/-- The storage with one more stake under a call id. -/
def Storage.bump (s : Storage) (callId : Nat) (amount : Int) : Storage :=
  s.setLegAggregate callId { s.legAggregate callId with
    totalStaked := (s.legAggregate callId).totalStaked + amount }

@[simp] theorem run_bumpLegAggregate_bind (callId : Nat) (amount : Int) (k : Unit → Betting P β) :
    run (bumpLegAggregate callId amount >>= k) env f = .ok (b, f') ↔
      InI128 ((f.store.legAggregate callId).totalStaked + amount) ∧
        run (k ()) env { f with store := f.store.bump callId amount } = .ok (b, f') := by
  simp only [bumpLegAggregate, Contract.bind_assoc, run_steps, Storage.bump]

end Calls

/-- A call that a claim makes of the outcome manager, between two balances of the contract. -/
structure ManagerCall (P : Type) [ParlayPeers P] (env : Env) (config : ParlayConfig)
    (token : Address) (callId : Nat) (presented received : Int) : Prop where
  made : ∃ p p' winning losing before after,
    ParlayPeers.claimPayoutForMarket env config.outcomeManager callId env.contract presented
        winning losing p = some p' ∧
      Tokens.balance (T := P) p token env.contract = some before ∧
      Tokens.balance p' token env.contract = some after ∧ received = after - before

/-- How a leg's aggregate is had: it has been claimed before, or it is claimed now. -/
inductive LegClaim (P : Type) [ParlayPeers P] (env : Env) (config : ParlayConfig)
    (token : Address) (leg : ParlayLeg) (s : Storage) :
    LegAggregate → Storage → List (Effect Event) → Prop where
  | reused : (s.legAggregate leg.callId).claimedPayout.isSome = true →
      LegClaim P env config token leg s (s.legAggregate leg.callId) s []
  | claimed {received} : (s.legAggregate leg.callId).claimedPayout = none →
      ManagerCall P env config token leg.callId (s.legAggregate leg.callId).totalStaked received →
      LegClaim P env config token leg s
        { s.legAggregate leg.callId with claimedPayout := some received }
        (s.setLegAggregate leg.callId
          { s.legAggregate leg.callId with claimedPayout := some received })
        [.event (.noted (.claimed ⟨leg, token, (s.legAggregate leg.callId).totalStaked, received⟩))]

/-- A parlay that has staked its share on the next leg. -/
def Parlay.movedOn (parlay : Parlay) (share : Int) : Parlay :=
  { parlay with activeLegIndex := parlay.activeLegIndex + 1, totalEscrowed := share }

/-- What becomes of the share of a parlay that has won a leg. -/
inductive Moves (env : Env) (parlayId : Nat) (parlay : Parlay) (share : Int) (s : Storage) :
    Storage → List (Effect Event) → Prop where
  | ended {status event} : status ≠ .active → (∀ n, event ≠ .noted n) →
      Moves env parlayId parlay share s (s.setParlay (parlay.ended status))
        [.event event, .transfer parlay.stakeToken env.contract parlay.user share]
  | restaked {nextLeg} : parlay.legs[parlay.activeLegIndex + 1]? = some nextLeg →
      Moves env parlayId parlay share s
        ((s.bump nextLeg.callId share).setParlay (parlay.movedOn share))
        [.event (.noted (.staked
          ⟨parlayId, parlay.activeLegIndex + 1, nextLeg, parlay.stakeToken, share⟩))]

/-- The stake of a parlay on its active leg. -/
def Parlay.stakeOn (parlay : Parlay) (parlayId : Nat) (leg : ParlayLeg) : LegStake :=
  ⟨parlayId, parlay.activeLegIndex, leg, parlay.stakeToken, parlay.totalEscrowed⟩

/-- A parlay as it is created. -/
def newParlay (id : Nat) (user : Address) (legs : List ParlayLeg) (token : Address)
    (amount : Int) : Parlay where
  id := id
  user := user
  legs := legs
  activeLegIndex := 0
  totalEscrowed := amount
  status := .active
  stakeToken := token

/-- The storage with a new parlay, staked on its first leg. -/
def Storage.opened (s : Storage) (user : Address) (legs : List ParlayLeg) (leg : ParlayLeg)
    (token : Address) (amount : Int) : Storage :=
  (((s.bump leg.callId amount).setParlayCounter (s.parlayCounter + 1)).setParlay
    (newParlay (s.parlayCounter + 1) user legs token amount)).appendUserParlay user
      (s.parlayCounter + 1)

/-- What the entry points do. -/
inductive ParlayStep (P : Type) [ParlayPeers P] (env : Env) (s : Storage) :
    ParlayOp → Storage → List (Effect Event) → Prop where
  | initialized {admin outcomeManager} : s.config = none → admin ∈ env.auths →
      ParlayStep P env s (.initializeParlays admin outcomeManager)
        (s.setConfig ⟨admin, outcomeManager⟩) []
  | created {user legs leg token amount} : user ∈ env.auths → legs[0]? = some leg → 0 < amount →
      ParlayStep P env s (.createParlay user legs amount)
        (s.opened user legs leg token amount)
        [.event (.parlayCreated (s.parlayCounter + 1) user amount legs.length),
          .event (.noted (.staked ⟨s.parlayCounter + 1, 0, leg, token, amount⟩)),
          .transfer token user env.contract amount]
  | lost {parlayId parlay} : s.parlay parlayId = some parlay → parlay.status = .active →
      ParlayStep P env s (.advanceParlay parlayId) (s.setParlay (parlay.ended .lost))
        [.event (.parlayCompleted parlayId 0),
          .event (.parlayLegResolved parlayId parlay.activeLegIndex false)]
  | advanced {parlayId parlay leg config aggregate s₁ claimEffects payout s' moveEffects} :
      s.parlay parlayId = some parlay → parlay.status = .active →
      parlay.legs[parlay.activeLegIndex]? = some leg → s.config = some config →
      LegClaim P env config parlay.stakeToken leg s aggregate s₁ claimEffects →
      aggregate.claimedPayout = some payout → aggregate.totalStaked ≠ 0 →
      Moves env parlayId parlay
        ((payout * parlay.totalEscrowed).tdiv aggregate.totalStaked) s₁ s' moveEffects →
      ParlayStep P env s (.advanceParlay parlayId) s'
        (moveEffects ++ .event (.noted (.credited ⟨parlay.stakeOn parlayId leg,
            (payout * parlay.totalEscrowed).tdiv aggregate.totalStaked⟩)) ::
            (claimEffects ++ [.event (.parlayLegResolved parlayId parlay.activeLegIndex true)]))

section Steps

variable {P : Type} [ParlayPeers P] {env : Env} {f f' : Frame Storage P Event}

theorem end_parlay_moves (parlayId : Nat) {parlay : Parlay} {share : Int} {status : ParlayStatus}
    {event : Event} (h : run (endParlay parlay share status event) env f = .ok ((), f'))
    (hended : status ≠ .active) (hevent : ∀ n, event ≠ .noted n) :
    ∃ effects, Moves env parlayId parlay share f.store f'.store effects ∧
      f'.effects = effects ++ f.effects := by
  simp only [endParlay, run_steps] at h
  obtain ⟨peers, -, rfl⟩ := h
  exact ⟨_, .ended hended hevent, rfl⟩

theorem move_on_moves {parlayId : Nat} {parlay : Parlay} {share : Int}
    (h : run (moveOn parlayId parlay share) env f = .ok ((), f')) :
    ∃ effects, Moves env parlayId parlay share f.store f'.store effects ∧
      f'.effects = effects ++ f.effects := by
  unfold moveOn at h
  split at h
  · exact end_parlay_moves parlayId h (by decide) (by simp)
  · next nextLeg hnext =>
    simp only [nextLegVoid, tryGetCall, Contract.bind_assoc, run_tryPeer_bind, run_steps] at h
    split at h
    · have hends := end_parlay_moves parlayId h
      exact hends (by decide) (by simp)
    · simp only [stakeShare, run_tryPeer_bind] at h
      split at h
      · simp only [run_bumpLegAggregate_bind, run_note_bind, run_modifyStore] at h
        obtain ⟨-, rfl⟩ := h
        exact ⟨_, .restaked hnext, rfl⟩
      · have hends := end_parlay_moves parlayId h
        exact hends (by decide) (by simp)

theorem claimed_aggregate_claims {config : ParlayConfig} {token : Address} {leg : ParlayLeg}
    {aggregate : LegAggregate}
    (h : run (claimedAggregate config token leg) env f = .ok (aggregate, f')) :
    ∃ effects, LegClaim P env config token leg f.store aggregate f'.store effects ∧
      f'.effects = effects ++ f.effects := by
  simp only [claimedAggregate, run_getStore_bind] at h
  split at h
  · next hnone =>
    simp only [claimAggregate, run_steps, run_callPeer_bind, run_tryPeer_bind, run_sumI128_bind,
      run_note_bind, invokes, Option.map_eq_some_iff] at h
    obtain ⟨_, _, -, -, _, -, -, before, hbefore, _, peers, ⟨_, hclaim, -, rfl⟩, after, hafter, -,
      rfl, rfl⟩ := h
    exact ⟨_, .claimed (Option.isNone_iff_eq_none.mp hnone)
      ⟨_, _, _, _, before, after, hclaim, hbefore, hafter, rfl⟩, rfl⟩
  · next hsome =>
    cases h
    have hclaimed := Option.isSome_iff_ne_none.mpr (by simpa using hsome)
    exact ⟨[], .reused hclaimed, rfl⟩

theorem ParlayOp.steps {op : ParlayOp} (h : run op.perform env f = .ok ((), f')) :
    ∃ effects, ParlayStep P env f.store op f'.store effects ∧
      f'.effects = effects ++ f.effects := by
  cases op with
  | initializeParlays admin outcomeManager =>
    simp only [ParlayOp.perform, ParlayBetting.initializeParlays, run_steps, Bool.not_eq_true,
      Option.isSome_eq_false_iff, Option.isNone_iff_eq_none] at h
    obtain ⟨hnone, hauth, rfl⟩ := h
    exact ⟨[], .initialized hnone hauth, rfl⟩
  | createParlay user legs initialStake =>
    simp only [ParlayOp.perform, run_ignore, ParlayBetting.createParlay, run_steps,
      run_requireConfig_bind, tryGetCall, run_tryPeer_bind, run_callPeer_bind,
      run_bumpLegAggregate_bind, run_nextParlayId_bind, run_note_bind, not_le] at h
    obtain ⟨_, hauth, _, -, -, hpositive, leg, hleg, call, -, -, _, -, _, _, -, -, -, -, rfl⟩ := h
    exact ⟨_, .created hauth hleg hpositive, rfl⟩
  | advanceParlay parlayId =>
    simp only [ParlayOp.perform, ParlayBetting.advanceParlay, run_requireConfig_bind, run_steps,
      tryGetCall, run_tryPeer_bind, not_not] at h
    obtain ⟨config, hconfig, parlay, hparlay, hactive, leg, hleg, call, -, -, h⟩ := h
    split at h
    · next hwon =>
      simp only [claimLegPayout, Contract.bind_assoc] at h
      obtain ⟨aggregate, f₁, hclaim, h⟩ := run_bind.mp h
      simp only [run_unwrap_bind, run_note_bind, Option.bind_eq_some_iff, checkedMul, checkedDiv,
        checked_eq_some] at h
      obtain ⟨payout, hpayout, share, ⟨_, ⟨-, rfl⟩, hshare⟩, h⟩ := h
      split at hshare
      · cases hshare
      · next hnonzero =>
        obtain ⟨-, rfl⟩ := checked_eq_some.mp hshare
        obtain ⟨claimEffects, hlegClaim, hclaimEffects⟩ := claimed_aggregate_claims hclaim
        obtain ⟨moveEffects, hmoves, hmoveEffects⟩ := move_on_moves h
        refine ⟨_, .advanced hparlay hactive hleg hconfig hlegClaim hpayout hnonzero hmoves, ?_⟩
        rw [hmoveEffects]
        simp only [Frame.record_effects, hclaimEffects, hwon, decide_true,
          List.append_assoc, List.cons_append, List.nil_append]
        rfl
    · next hlost =>
      simp only [run_steps, Frame.record, hlost, decide_false] at h
      obtain rfl := h
      exact ⟨_, .lost hparlay hactive, rfl⟩

end Steps

end Backit.ParlayBetting
