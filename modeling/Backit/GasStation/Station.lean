import Backit.Soroban.Execution

/-!
# The gas station

The platform sponsors the network fees of a user for a cut of the user's winnings. The station
claims a sponsored payout as itself, from the outcome manager and the registry that the caller
names, keeps its cut and forwards the rest to the user.
-/

namespace Backit.GasStation

open Soroban Contract

inductive GasStationError where
  | notInitialized
  | alreadyInitialized
  | unauthorized
  | invalidWinningCutBps
  | invalidGasAmount
  | userNotSponsored
  | callAlreadyProcessed
  | invalidWinningStake
  | overflow
  | invalidRefillAmount
  deriving DecidableEq

structure SponsorshipInfo where
  maxGasXlm : Int
  winningCutBps : Nat
  sponsoredAt : Nat
  active : Bool
  deriving DecidableEq

structure GasStationMetrics where
  totalTransactionsSponsored : Nat
  totalXlmSpent : Int
  totalWinningsCollected : Int
  netProfitLoss : Int
  deriving DecidableEq

def GasStationMetrics.zero : GasStationMetrics := ⟨0, 0, 0, 0⟩

/-- What the station asks of an outcome manager's `claim_payout`. -/
structure PayoutRequest where
  registry : Address
  callId : Nat
  staker : Address
  stakerWinningStake : Int
  totalWinningStake : Int
  totalLosingStake : Int
  deriving DecidableEq

/-- The arguments of `claim_sponsored_payout`. -/
structure SponsoredClaim where
  registry : Address
  outcomeManager : Address
  callId : Nat
  user : Address
  stakerWinningStake : Int
  totalWinningStake : Int
  totalLosingStake : Int
  deriving DecidableEq

/-- The request that a claim makes for the station. -/
def SponsoredClaim.request (claim : SponsoredClaim) (station : Address) : PayoutRequest :=
  ⟨claim.registry, claim.callId, station, claim.stakerWinningStake, claim.totalWinningStake,
    claim.totalLosingStake⟩

/-- What the station does besides moving tokens: its events, and what it asks of other contracts. -/
inductive Event where
  | initialized (admin xlmToken : Address)
  | adminChanged (newAdmin : Address)
  | sponsorshipRegistered (user : Address) (maxGasXlm : Int) (winningCutBps : Nat)
  | sponsorshipRevoked (user : Address)
  | sponsoredPayoutClaimed (callId : Nat) (user : Address) (grossPayout cut userAmount : Int)
  | poolRefilled (amount newBalance : Int)
  | asked (outcomeManager : Address) (request : PayoutRequest)
  deriving DecidableEq

structure Storage where
  admin : Option Address
  xlmToken : Option Address
  sponsorship : Address → Option SponsorshipInfo
  callProcessed : Nat → Bool
  metrics : GasStationMetrics

namespace Storage

/-- The storage of a freshly deployed contract. -/
def empty : Storage := ⟨none, none, fun _ => none, fun _ => false, .zero⟩

variable (s : Storage)

def setAdmin (admin : Address) : Storage := { s with admin := some admin }

def setXlmToken (token : Address) : Storage := { s with xlmToken := some token }

def setSponsorship (user : Address) (info : SponsorshipInfo) : Storage :=
  { s with sponsorship := Function.update s.sponsorship user (some info) }

/-- Deactivate a user's sponsorship, if there is one. -/
def deactivate (user : Address) : Storage :=
  match s.sponsorship user with
  | some info => s.setSponsorship user { info with active := false }
  | none => s

def markCallProcessed (callId : Nat) : Storage :=
  { s with callProcessed := Function.update s.callProcessed callId true }

def setMetrics (metrics : GasStationMetrics) : Storage := { s with metrics := metrics }

end Storage

/-- The contracts that a claim calls, at whatever address. `none` is a call that traps. -/
class OutcomeManagers (P : Type) extends Tokens P where
  claimPayout : Env → (outcomeManager : Address) → PayoutRequest → P → Option P

/-- 100 percent in basis points. -/
def maxBps : Nat := 10000

/-- A computation of an entry point. -/
abbrev Station (P α : Type) := Contract (Frame Storage P Event) GasStationError α

variable {P : Type} [OutcomeManagers P]

/-- The result of a checked operation, or `Overflow`. -/
def orOverflow {α : Type} (result : Option α) : Station P α := unwrap result (.error .overflow)

def requireInitializedAdmin : Station P Address := do
  unwrap (← getStore).admin (.error .notInitialized)

def requireAdmin : Station P Unit := do
  let admin ← requireInitializedAdmin
  requireAuth admin

def requireXlmToken : Station P Address := do
  unwrap (← getStore).xlmToken (.error .notInitialized)

/-- The native asset's contract and any other token are called alike. -/
def transferToken (token sender recipient : Address) (amount : Int) : Station P Unit :=
  tokenTransfer token sender recipient amount

/-- `outcome_manager.claim_payout(..)`. -/
def invokeClaimPayout (outcomeManager : Address) (request : PayoutRequest) : Station P Unit :=
  fun env f =>
    match OutcomeManagers.claimPayout env outcomeManager request f.tokens with
    | some peers => .ok ((), f.record peers (.event (.asked outcomeManager request)))
    | none => .error .external

/-- The entry point `initialize`. -/
def initializeStation (admin xlmToken : Address) : Station P Unit := do
  rejectIf ((← getStore).admin.isSome = true) (.error .alreadyInitialized)
  requireAuth admin
  modifyStore fun s => ((s.setAdmin admin).setXlmToken xlmToken).setMetrics .zero
  publish (.initialized admin xlmToken)

def setAdmin (newAdmin : Address) : Station P Unit := do
  requireAdmin
  modifyStore (·.setAdmin newAdmin)
  publish (.adminChanged newAdmin)

def sponsorTransaction (user : Address) (maxGasXlm : Int) (winningCutBps : Nat) :
    Station P Unit := do
  requireAdmin
  rejectIf (maxGasXlm ≤ 0) (.error .invalidGasAmount)
  rejectIf (maxBps < winningCutBps) (.error .invalidWinningCutBps)
  let environment ← env
  modifyStore (·.setSponsorship user ⟨maxGasXlm, winningCutBps, environment.timestamp, true⟩)
  let metrics := (← getStore).metrics
  let sponsored ← orOverflow (checkedAddU64 metrics.totalTransactionsSponsored 1)
  let spent ← orOverflow (checkedAdd metrics.totalXlmSpent maxGasXlm)
  let net ← orOverflow (checkedSub metrics.totalWinningsCollected spent)
  modifyStore (·.setMetrics ⟨sponsored, spent, metrics.totalWinningsCollected, net⟩)
  publish (.sponsorshipRegistered user maxGasXlm winningCutBps)

def revokeSponsorship (user : Address) : Station P Unit := do
  requireAdmin
  modifyStore (·.deactivate user)
  publish (.sponsorshipRevoked user)

/-- A user's sponsorship, if it is active. -/
def activeSponsorship (user : Address) : Station P SponsorshipInfo := do
  unwrap (((← getStore).sponsorship user).filter (·.active)) (.error .userNotSponsored)

/-- Book the station's cut of a payout. -/
def collectCut (cut : Int) : Station P Unit := do
  let metrics := (← getStore).metrics
  let collected ← orOverflow (checkedAdd metrics.totalWinningsCollected cut)
  let net ← orOverflow (checkedSub collected metrics.totalXlmSpent)
  modifyStore (·.setMetrics
    { metrics with totalWinningsCollected := collected, netProfitLoss := net })

def claimSponsoredPayout (claim : SponsoredClaim) : Station P Unit := do
  let info ← activeSponsorship claim.user
  rejectIf ((← getStore).callProcessed claim.callId = true) (.error .callAlreadyProcessed)
  rejectIf (claim.stakerWinningStake ≤ 0) (.error .invalidWinningStake)
  let xlmToken ← requireXlmToken
  let environment ← env
  let balanceBefore ← tokenBalance xlmToken environment.contract
  modifyStore (·.markCallProcessed claim.callId)
  invokeClaimPayout claim.outcomeManager (claim.request environment.contract)
  let balanceAfter ← tokenBalance xlmToken environment.contract
  let payout ← orOverflow (checkedSub balanceAfter balanceBefore)
  let product ← orOverflow (checkedMul payout info.winningCutBps)
  let cut ← orOverflow (checkedDiv product maxBps)
  let userAmount ← orOverflow (checkedSub payout cut)
  if 0 < userAmount then
    transferToken xlmToken environment.contract claim.user userAmount
  else pure ()
  collectCut cut
  publish (.sponsoredPayoutClaimed claim.callId claim.user payout cut userAmount)

def refillGasPool (admin : Address) (amount : Int) : Station P Unit := do
  let storedAdmin ← requireInitializedAdmin
  rejectIf (admin ≠ storedAdmin) (.error .unauthorized)
  requireAuth admin
  rejectIf (amount ≤ 0) (.error .invalidRefillAmount)
  let xlmToken ← requireXlmToken
  let environment ← env
  transferToken xlmToken admin environment.contract amount
  let newBalance ← tokenBalance xlmToken environment.contract
  publish (.poolRefilled amount newBalance)

/-- The entry points that write. -/
inductive StationOp where
  | initializeStation (admin xlmToken : Address)
  | setAdmin (newAdmin : Address)
  | sponsorTransaction (user : Address) (maxGasXlm : Int) (winningCutBps : Nat)
  | revokeSponsorship (user : Address)
  | claimSponsoredPayout (claim : SponsoredClaim)
  | refillGasPool (admin : Address) (amount : Int)
  deriving DecidableEq

/-- Run an entry point. -/
def StationOp.perform : StationOp → Station P Unit
  | .initializeStation admin xlmToken => GasStation.initializeStation admin xlmToken
  | .setAdmin newAdmin => GasStation.setAdmin newAdmin
  | .sponsorTransaction user maxGasXlm winningCutBps =>
    GasStation.sponsorTransaction user maxGasXlm winningCutBps
  | .revokeSponsorship user => GasStation.revokeSponsorship user
  | .claimSponsoredPayout claim => GasStation.claimSponsoredPayout claim
  | .refillGasPool admin amount => GasStation.refillGasPool admin amount

end Backit.GasStation

/-!
## What the entry points of the station do

Every successful invocation makes one of the listed steps. A claim is described by the balances
around its call of the outcome manager.
-/

namespace Backit.GasStation

open Soroban Contract

section Calls

variable {P α β : Type} [OutcomeManagers P] {env : Env} {f f' : Frame Storage P Event} {b : β}

omit [OutcomeManagers P] in
@[simp] theorem run_orOverflow_bind (result : Option α) (k : α → Station P β) :
    run (orOverflow result >>= k) env f = .ok (b, f') ↔
      ∃ a, result = some a ∧ run (k a) env f = .ok (b, f') := by
  simp only [orOverflow, run_unwrap_bind]

omit [OutcomeManagers P] in
@[simp] theorem run_requireInitializedAdmin_bind (k : Address → Station P β) :
    run (requireInitializedAdmin >>= k) env f = .ok (b, f') ↔
      ∃ admin, f.store.admin = some admin ∧ run (k admin) env f = .ok (b, f') := by
  simp only [requireInitializedAdmin, Contract.bind_assoc, run_steps]

omit [OutcomeManagers P] in
@[simp] theorem run_requireAdmin_bind (k : Unit → Station P β) :
    run (requireAdmin >>= k) env f = .ok (b, f') ↔
      ∃ admin, f.store.admin = some admin ∧ admin ∈ env.auths ∧
        run (k ()) env f = .ok (b, f') := by
  simp only [requireAdmin, Contract.bind_assoc, run_requireInitializedAdmin_bind,
    run_requireAuth_bind]

omit [OutcomeManagers P] in
@[simp] theorem run_requireXlmToken_bind (k : Address → Station P β) :
    run (requireXlmToken >>= k) env f = .ok (b, f') ↔
      ∃ token, f.store.xlmToken = some token ∧ run (k token) env f = .ok (b, f') := by
  simp only [requireXlmToken, Contract.bind_assoc, run_steps]

omit [OutcomeManagers P] in
@[simp] theorem run_activeSponsorship_bind (user : Address) (k : SponsorshipInfo → Station P β) :
    run (activeSponsorship user >>= k) env f = .ok (b, f') ↔
      ∃ info, f.store.sponsorship user = some info ∧ info.active = true ∧
        run (k info) env f = .ok (b, f') := by
  simp only [activeSponsorship, Contract.bind_assoc, run_steps, Option.filter_eq_some_iff,
    and_assoc]

@[simp] theorem run_invokeClaimPayout_bind (outcomeManager : Address) (request : PayoutRequest)
    (k : Unit → Station P β) :
    run (invokeClaimPayout outcomeManager request >>= k) env f = .ok (b, f') ↔
      ∃ peers, OutcomeManagers.claimPayout env outcomeManager request f.tokens = some peers ∧
        run (k ()) env (f.record peers (.event (.asked outcomeManager request))) = .ok (b, f') := by
  cases h : OutcomeManagers.claimPayout env outcomeManager request f.tokens <;>
    simp [run, bind, invokeClaimPayout, h]

/-- The metrics with one more cut. -/
def GasStationMetrics.collect (metrics : GasStationMetrics) (cut : Int) : GasStationMetrics :=
  { metrics with
    totalWinningsCollected := metrics.totalWinningsCollected + cut
    netProfitLoss := metrics.totalWinningsCollected + cut - metrics.totalXlmSpent }

omit [OutcomeManagers P] in
@[simp] theorem run_collectCut_bind (cut : Int) (k : Unit → Station P β) :
    run (collectCut cut >>= k) env f = .ok (b, f') ↔
      InI128 (f.store.metrics.totalWinningsCollected + cut) ∧
      InI128 (f.store.metrics.totalWinningsCollected + cut - f.store.metrics.totalXlmSpent) ∧
        run (k ()) env { f with
          store := f.store.setMetrics (f.store.metrics.collect cut) } = .ok (b, f') := by
  simp only [collectCut, Contract.bind_assoc, run_steps, run_orOverflow_bind, checkedAdd,
    checkedSub, checked_eq_some, GasStationMetrics.collect]
  constructor
  · rintro ⟨_, ⟨hcollected, rfl⟩, _, ⟨hnet, rfl⟩, hrest⟩
    exact ⟨hcollected, hnet, hrest⟩
  · rintro ⟨hcollected, hnet, hrest⟩
    exact ⟨_, ⟨hcollected, rfl⟩, _, ⟨hnet, rfl⟩, hrest⟩

end Calls

/-- The parts of a settled claim. -/
structure Settlement (P : Type) where
  xlmToken : Address
  winningCutBps : Nat
  balanceBefore : Int
  balanceAfter : Int
  asked : P
  paid : P

namespace Settlement

variable {P : Type} (t : Settlement P)

/-- What the outcome manager released to the station. -/
def payout : Int := t.balanceAfter - t.balanceBefore

def cut : Int := (t.payout * t.winningCutBps).tdiv maxBps

def userAmount : Int := t.payout - t.cut

/-- What leaves the station, if anything does. -/
def forwarded (station user : Address) : List (Effect Event) :=
  if 0 < t.userAmount then [.transfer t.xlmToken station user t.userAmount] else []

/-- The effects of a claim, most recent first. -/
def effects (station : Address) (claim : SponsoredClaim) : List (Effect Event) :=
  .event (.sponsoredPayoutClaimed claim.callId claim.user t.payout t.cut t.userAmount) ::
    (t.forwarded station claim.user ++
      [.event (.asked claim.outcomeManager (claim.request station))])

theorem cut_nonneg (h : t.balanceBefore ≤ t.balanceAfter) : 0 ≤ t.cut :=
  Int.tdiv_nonneg (mul_nonneg (by unfold payout; omega) (by omega)) (by decide)

theorem cut_add_user_amount : t.cut + t.userAmount = t.payout := by
  unfold userAmount
  omega

end Settlement

namespace Storage

variable (s : Storage) (user : Address)

@[simp] theorem deactivate_callProcessed : (s.deactivate user).callProcessed = s.callProcessed := by
  unfold deactivate
  split <;> rfl

@[simp] theorem deactivate_metrics : (s.deactivate user).metrics = s.metrics := by
  unfold deactivate
  split <;> rfl

end Storage

section Steps

variable {P : Type} [OutcomeManagers P]

/-- A claim that succeeds. -/
structure Settles (env : Env) (claim : SponsoredClaim) (f f' : Frame Storage P Event)
    (t : Settlement P) : Prop where
  sponsored : ∃ info, f.store.sponsorship claim.user = some info ∧ info.active = true ∧
    t.winningCutBps = info.winningCutBps
  unprocessed : f.store.callProcessed claim.callId = false
  stake_pos : 0 < claim.stakerWinningStake
  token : f.store.xlmToken = some t.xlmToken
  before : Tokens.balance f.tokens t.xlmToken env.contract = some t.balanceBefore
  asked : OutcomeManagers.claimPayout env claim.outcomeManager (claim.request env.contract)
    f.tokens = some t.asked
  after : Tokens.balance t.asked t.xlmToken env.contract = some t.balanceAfter
  paid : if 0 < t.userAmount then
      Tokens.transfer env t.xlmToken env.contract claim.user t.userAmount t.asked = some t.paid
    else t.paid = t.asked
  result : f' =
    { store := (f.store.markCallProcessed claim.callId).setMetrics
        (f.store.metrics.collect t.cut)
      tokens := t.paid
      effects := t.effects env.contract claim ++ f.effects }

/-- The metrics with one more sponsorship. -/
def GasStationMetrics.sponsor (metrics : GasStationMetrics) (maxGasXlm : Int) :
    GasStationMetrics where
  totalTransactionsSponsored := metrics.totalTransactionsSponsored + 1
  totalXlmSpent := metrics.totalXlmSpent + maxGasXlm
  totalWinningsCollected := metrics.totalWinningsCollected
  netProfitLoss := metrics.totalWinningsCollected - (metrics.totalXlmSpent + maxGasXlm)

/-- What the entry points do. -/
inductive StationStep (env : Env) (f : Frame Storage P Event) :
    StationOp → Frame Storage P Event → Prop where
  | initialized {admin xlmToken} : f.store.admin = none → admin ∈ env.auths →
      StationStep env f (.initializeStation admin xlmToken)
        ⟨((f.store.setAdmin admin).setXlmToken xlmToken).setMetrics .zero, f.tokens,
          .event (.initialized admin xlmToken) :: f.effects⟩
  | adminSet {admin newAdmin} : f.store.admin = some admin → admin ∈ env.auths →
      StationStep env f (.setAdmin newAdmin)
        ⟨f.store.setAdmin newAdmin, f.tokens, .event (.adminChanged newAdmin) :: f.effects⟩
  | sponsored {admin user maxGasXlm winningCutBps} :
      f.store.admin = some admin → admin ∈ env.auths → 0 < maxGasXlm → winningCutBps ≤ maxBps →
      StationStep env f (.sponsorTransaction user maxGasXlm winningCutBps)
        ⟨(f.store.setSponsorship user ⟨maxGasXlm, winningCutBps, env.timestamp, true⟩).setMetrics
            (f.store.metrics.sponsor maxGasXlm), f.tokens,
          .event (.sponsorshipRegistered user maxGasXlm winningCutBps) :: f.effects⟩
  | revoked {admin user} : f.store.admin = some admin → admin ∈ env.auths →
      StationStep env f (.revokeSponsorship user)
        ⟨f.store.deactivate user, f.tokens, .event (.sponsorshipRevoked user) :: f.effects⟩
  | settled {claim t f'} :
      Settles env claim f f' t → StationStep env f (.claimSponsoredPayout claim) f'
  | refilled {admin amount xlmToken peers newBalance} :
      f.store.admin = some admin → admin ∈ env.auths → 0 < amount →
      f.store.xlmToken = some xlmToken →
      Tokens.transfer env xlmToken admin env.contract amount f.tokens = some peers →
      StationStep env f (.refillGasPool admin amount)
        ⟨f.store, peers, .event (.poolRefilled amount newBalance) ::
          .transfer xlmToken admin env.contract amount :: f.effects⟩

variable {env : Env} {f f' : Frame Storage P Event}

theorem claim_settles {claim : SponsoredClaim}
    (h : run (claimSponsoredPayout claim) env f = .ok ((), f')) :
    ∃ t, Settles env claim f f' t := by
  simp only [claimSponsoredPayout, transferToken, run_activeSponsorship_bind, run_steps,
    run_requireXlmToken_bind, run_invokeClaimPayout_bind, run_orOverflow_bind, checkedSub,
    checkedMul, checkedDiv, checked_eq_some, Bool.not_eq_true, not_le, Frame.record_tokens] at h
  obtain ⟨info, hinfo, hactive, hunprocessed, hstake, token, htoken, before, hbefore, asked,
    hasked, after, hafter, _, ⟨-, rfl⟩, _, ⟨-, rfl⟩, cut, hcut, _, ⟨-, rfl⟩, h⟩ := h
  rw [if_neg (by decide), checked_eq_some] at hcut
  obtain ⟨-, rfl⟩ := hcut
  split at h
  · next hpositive =>
    simp only [run_steps, run_collectCut_bind, Frame.record] at h
    obtain ⟨paid, hpaid, -, -, rfl⟩ := h
    refine ⟨⟨token, info.winningCutBps, before, after, asked, paid⟩, ⟨info, hinfo, hactive, rfl⟩,
      hunprocessed, hstake, htoken, hbefore, hasked, hafter, ?_, ?_⟩
    · rw [if_pos]
      · exact hpaid
      · exact hpositive
    · simp only [Settlement.effects, Settlement.forwarded]
      rw [if_pos]
      · rfl
      · exact hpositive
  · next hpositive =>
    simp only [run_collectCut_bind, run_publish, Frame.record] at h
    obtain ⟨-, -, rfl⟩ := h
    refine ⟨⟨token, info.winningCutBps, before, after, asked, asked⟩,
      ⟨info, hinfo, hactive, rfl⟩, hunprocessed, hstake, htoken, hbefore, hasked, hafter, ?_, ?_⟩
    · rw [if_neg]
      exact hpositive
    · simp only [Settlement.effects, Settlement.forwarded]
      rw [if_neg]
      · rfl
      · exact hpositive

theorem StationOp.steps {op : StationOp} (h : run op.perform env f = .ok ((), f')) :
    StationStep env f op f' := by
  cases op with
  | initializeStation admin xlmToken =>
    simp only [StationOp.perform, GasStation.initializeStation, run_steps, Bool.not_eq_true,
      Option.isSome_eq_false_iff, Option.isNone_iff_eq_none] at h
    obtain ⟨hnone, hauth, rfl⟩ := h
    exact .initialized hnone hauth
  | setAdmin newAdmin =>
    simp only [StationOp.perform, GasStation.setAdmin, run_requireAdmin_bind, run_steps] at h
    obtain ⟨admin, hadmin, hauth, rfl⟩ := h
    exact .adminSet hadmin hauth
  | sponsorTransaction user maxGasXlm winningCutBps =>
    simp only [StationOp.perform, GasStation.sponsorTransaction, run_requireAdmin_bind, run_steps,
      run_orOverflow_bind, checkedAddU64_eq_some, checkedAdd, checkedSub, checked_eq_some, not_le,
      not_lt] at h
    obtain ⟨admin, hadmin, hauth, hgas, hcut, _, ⟨-, rfl⟩, _, ⟨-, rfl⟩, _, ⟨-, rfl⟩, rfl⟩ := h
    exact .sponsored hadmin hauth hgas hcut
  | revokeSponsorship user =>
    simp only [StationOp.perform, GasStation.revokeSponsorship, run_requireAdmin_bind,
      run_steps] at h
    obtain ⟨admin, hadmin, hauth, rfl⟩ := h
    exact .revoked hadmin hauth
  | claimSponsoredPayout claim =>
    obtain ⟨t, ht⟩ := claim_settles h
    exact .settled ht
  | refillGasPool admin amount =>
    simp only [StationOp.perform, GasStation.refillGasPool, transferToken,
      run_requireInitializedAdmin_bind, run_steps, run_requireXlmToken_bind, not_not, not_le] at h
    obtain ⟨stored, hadmin, rfl, hauth, hamount, token, htoken, peers, hpeers, balance, -, rfl⟩ := h
    exact .refilled hadmin hauth hamount htoken hpeers

end Steps

end Backit.GasStation
