import Backit.PredictionMarketFactory.Views
import Backit.Soroban.Execution

/-!
# Futures on prediction markets

A futures position is a bet on the implied probability of an outcome at an expiry. Its creator
locks a margin, a counterparty matches it, and the settlement splits both margins between them by
the distance of the probability from the strike. Margins are in the stake token of the call.
-/

namespace Backit.PredictionMarketFutures

open Soroban Contract Lib PredictionMarketFactory
open PredictionMarket (Call)

/-- The contract's error codes that its entry points return. -/
inductive FuturesError where
  | alreadyInitialized
  | notInitialized
  | contractNotFound
  | contractAlreadySettled
  | noCounterparty
  | counterpartyAlreadyAssigned
  | contractExpired
  | contractNotExpired
  | invalidMargin
  | invalidStrikeProbability
  | invalidExpiry
  | invalidOutcome
  | overflow
  deriving DecidableEq

inductive FuturesStatus where
  | pending
  | active
  | settled
  deriving DecidableEq

/-- A position: its creator is long, the counterparty that accepts it is short. -/
structure FuturesPosition where
  contractId : Nat
  creator : Address
  counterparty : Option Address
  callId : Nat
  outcome : Nat
  strikeProbabilityBps : Nat
  expiryTs : Nat
  marginRequirement : Int
  isSettled : Bool
  status : FuturesStatus
  deriving DecidableEq

structure Storage where
  factory : Option Address
  contractCounter : Nat
  futuresPosition : Nat → Option FuturesPosition
  activeFutures : Nat → List Nat

namespace Storage

/-- The storage of a freshly deployed contract. -/
def empty : Storage := ⟨none, 0, fun _ => none, fun _ => []⟩

variable (s : Storage)

def setFuturesFactory (factory : Address) : Storage := { s with factory := some factory }

def setContractCounter (counter : Nat) : Storage := { s with contractCounter := counter }

def setFuturesPosition (contractId : Nat) (position : FuturesPosition) : Storage :=
  { s with futuresPosition := Function.update s.futuresPosition contractId (some position) }

def setActiveFutures (callId : Nat) (activeList : List Nat) : Storage :=
  { s with activeFutures := Function.update s.activeFutures callId activeList }

end Storage

/-- The contract publishes no events. -/
abbrev Event := Empty

/-- A computation of an entry point. -/
abbrev Futures (P α : Type) := Contract (Frame Storage P Event) FuturesError α

variable {P : Type} [MarketViews P]

def getFuturesPosition (contractId : Nat) : Futures P FuturesPosition := do
  unwrap ((← getStore).futuresPosition contractId) (.error .contractNotFound)

/-- The call that the configured factory and its market report. -/
def getCall (callId : Nat) : Futures P Call := do
  let factory ← unwrap (← getStore).factory (.error .notInitialized)
  readMarketCall factory callId

/-- The entry point `initialize`. -/
def initializeFutures (factory : Address) : Futures P Unit := do
  rejectIf ((← getStore).factory.isSome = true) (.error .alreadyInitialized)
  modifyStore (·.setFuturesFactory factory)

def createFuturesContract (creator : Address) (callId outcome strikeProbabilityBps expiryTs : Nat)
    (marginRequirement : Int) : Futures P Nat := do
  requireAuth creator
  rejectIf (marginRequirement ≤ 0) (.error .invalidMargin)
  rejectIf (10000 < strikeProbabilityBps) (.error .invalidStrikeProbability)
  let environment ← env
  rejectIf (expiryTs ≤ environment.timestamp) (.error .invalidExpiry)
  let call ← getCall callId
  rejectIf (outcome < 1 ∨ call.outcomeCount < outcome) (.error .invalidOutcome)
  tokenTransfer call.stakeToken creator environment.contract marginRequirement
  let counter ← unsigned 64 ((← getStore).contractCounter + 1)
  modifyStore (·.setContractCounter counter)
  modifyStore (·.setFuturesPosition counter
    { contractId := counter, creator := creator, counterparty := none, callId := callId
      outcome := outcome, strikeProbabilityBps := strikeProbabilityBps, expiryTs := expiryTs
      marginRequirement := marginRequirement, isSettled := false, status := .pending })
  let activeList := (← getStore).activeFutures callId
  modifyStore (·.setActiveFutures callId (activeList ++ [counter]))
  pure counter

def acceptFuturesCounterparty (counterparty : Address) (contractId : Nat) : Futures P Unit := do
  requireAuth counterparty
  let position ← getFuturesPosition contractId
  rejectIf (position.isSettled = true) (.error .contractAlreadySettled)
  rejectIf (position.counterparty.isSome = true) (.error .counterpartyAlreadyAssigned)
  let environment ← env
  rejectIf (position.expiryTs ≤ environment.timestamp) (.error .contractExpired)
  let call ← getCall position.callId
  tokenTransfer call.stakeToken counterparty environment.contract position.marginRequirement
  modifyStore (·.setFuturesPosition contractId
    { position with counterparty := some counterparty, status := .active })

/-- The stakes on the outcomes of a call, in order. -/
def stakesOf (call : Call) : List Int :=
  (List.range' 1 call.outcomeCount).map (valueAt call.outcomeStakes)

/-- The implied probability of an outcome, converted to a `u32`. -/
def impliedBps (call : Call) (outcome : Nat) (totalStake : Int) : Futures P Nat := do
  let scaled ← unwrap (checkedMul (valueAt call.outcomeStakes outcome) 10000) (.error .overflow)
  let bps ← unwrap (checkedDiv scaled totalStake) (.error .overflow)
  pure (bps % 2 ^ 32).toNat

/-- What the probability's move takes from one side and gives to the other. -/
def payoutDelta (margin : Int) (diff : Nat) : Futures P Int := do
  let scaled ← unwrap (checkedMul margin diff) (.error .overflow)
  let delta ← unwrap (checkedDiv scaled 10000) (.error .overflow)
  pure (min delta margin)

/-- The payouts of the long and the short side. -/
def settlementPayouts (margin : Int) (currentBps strikeBps : Nat) : Futures P (Int × Int) := do
  if strikeBps < currentBps then
    let delta ← payoutDelta margin (currentBps - strikeBps)
    let buyerPayout ← i128 (margin + delta)
    let sellerPayout ← i128 (margin - delta)
    pure (buyerPayout, sellerPayout)
  else if currentBps < strikeBps then
    let delta ← payoutDelta margin (strikeBps - currentBps)
    let buyerPayout ← i128 (margin - delta)
    let sellerPayout ← i128 (margin + delta)
    pure (buyerPayout, sellerPayout)
  else pure (margin, margin)

/-- Pay an amount out, unless there is nothing to pay. -/
def payOut (token recipient : Address) (amount : Int) : Futures P Unit := do
  if 0 < amount then
    let environment ← env
    tokenTransfer token environment.contract recipient amount
  else pure ()

def settleFutures (contractId : Nat) : Futures P Unit := do
  let position ← getFuturesPosition contractId
  rejectIf (position.isSettled = true) (.error .contractAlreadySettled)
  let counterparty ← unwrap position.counterparty (.error .noCounterparty)
  let environment ← env
  rejectIf (environment.timestamp < position.expiryTs) (.error .contractNotExpired)
  let call ← getCall position.callId
  let totalStake ← sumI128 (stakesOf call)
  rejectIf (totalStake = 0) (.error .overflow)
  let currentBps ← impliedBps call position.outcome totalStake
  let (buyerPayout, sellerPayout) ←
    settlementPayouts position.marginRequirement currentBps position.strikeProbabilityBps
  payOut call.stakeToken position.creator buyerPayout
  payOut call.stakeToken counterparty sellerPayout
  modifyStore (·.setFuturesPosition contractId
    { position with isSettled := true, status := .settled })
  let activeList := (← getStore).activeFutures position.callId
  modifyStore (·.setActiveFutures position.callId (activeList.filter (· ≠ contractId)))

def transferLongPosition (contractId : Nat) (newOwner : Address) : Futures P Unit := do
  let position ← getFuturesPosition contractId
  requireAuth position.creator
  rejectIf (position.isSettled = true) (.error .contractAlreadySettled)
  modifyStore (·.setFuturesPosition contractId { position with creator := newOwner })

def transferShortPosition (contractId : Nat) (newOwner : Address) : Futures P Unit := do
  let position ← getFuturesPosition contractId
  let counterparty ← unwrap position.counterparty (.error .noCounterparty)
  requireAuth counterparty
  rejectIf (position.isSettled = true) (.error .contractAlreadySettled)
  modifyStore (·.setFuturesPosition contractId { position with counterparty := some newOwner })

/-- The entry points that write. -/
inductive FuturesOp where
  | initializeFutures (factory : Address)
  | createFuturesContract (creator : Address)
      (callId outcome strikeProbabilityBps expiryTs : Nat) (marginRequirement : Int)
  | acceptFuturesCounterparty (counterparty : Address) (contractId : Nat)
  | settleFutures (contractId : Nat)
  | transferLongPosition (contractId : Nat) (newOwner : Address)
  | transferShortPosition (contractId : Nat) (newOwner : Address)
  deriving DecidableEq

/-- Run an invocation of an entry point. -/
def FuturesOp.perform : FuturesOp → Futures P Unit
  | .initializeFutures factory => PredictionMarketFutures.initializeFutures factory
  | .createFuturesContract creator callId outcome strike expiryTs margin =>
    ignore (PredictionMarketFutures.createFuturesContract creator callId outcome strike expiryTs
      margin)
  | .acceptFuturesCounterparty counterparty contractId =>
    PredictionMarketFutures.acceptFuturesCounterparty counterparty contractId
  | .settleFutures contractId => PredictionMarketFutures.settleFutures contractId
  | .transferLongPosition contractId newOwner =>
    PredictionMarketFutures.transferLongPosition contractId newOwner
  | .transferShortPosition contractId newOwner =>
    PredictionMarketFutures.transferShortPosition contractId newOwner

end Backit.PredictionMarketFutures

/-!
## What a successful invocation does

`Transition` lists, for every entry point, the checks that a successful invocation passed, the
effects it had, most recent first, and the storage it left. The settlement is described exactly:
`run_settleFutures` also says which checks let it succeed.
-/

namespace Backit.PredictionMarketFutures

open Soroban Contract Lib PredictionMarketFactory
open PredictionMarket (Call)

/-- The implied probability of an outcome in basis points. -/
def probabilityBps (call : Call) (outcome : Nat) : Nat :=
  ((valueAt call.outcomeStakes outcome * 10000).tdiv (stakesOf call).sum % 2 ^ 32).toNat

/-- What a move of the probability takes from one side and gives to the other. -/
def splitDelta (margin : Int) (diff : Nat) : Int := min ((margin * diff).tdiv 10000) margin

/-- How far the probability is from the strike. -/
def distance (currentBps strikeBps : Nat) : Nat :=
  (currentBps - strikeBps) + (strikeBps - currentBps)

/-- The payouts of the long and the short side. -/
def split (margin : Int) (currentBps strikeBps : Nat) : Int × Int :=
  if strikeBps < currentBps then
    (margin + splitDelta margin (distance currentBps strikeBps),
      margin - splitDelta margin (distance currentBps strikeBps))
  else if currentBps < strikeBps then
    (margin - splitDelta margin (distance currentBps strikeBps),
      margin + splitDelta margin (distance currentBps strikeBps))
  else (margin, margin)

/-- The arithmetic of a settlement stays in range. -/
structure SettlementFits (margin : Int) (call : Call) (outcome strikeBps : Nat) : Prop where
  stakes : SumFits 0 (stakesOf call)
  scaled : InI128 (valueAt call.outcomeStakes outcome * 10000)
  quotient : InI128 ((valueAt call.outcomeStakes outcome * 10000).tdiv (stakesOf call).sum)
  moved : probabilityBps call outcome ≠ strikeBps →
    InI128 (margin * distance (probabilityBps call outcome) strikeBps) ∧
    InI128 (margin + splitDelta margin (distance (probabilityBps call outcome) strikeBps)) ∧
    InI128 (margin - splitDelta margin (distance (probabilityBps call outcome) strikeBps))

/-- The effects of paying an amount out. -/
def payOutEffects (env : Env) (token recipient : Address) (amount : Int) : List (Effect Event) :=
  if 0 < amount then [.transfer token env.contract recipient amount] else []

/-- A new position. -/
def newPosition (contractId : Nat) (creator : Address)
    (callId outcome strikeProbabilityBps expiryTs : Nat) (marginRequirement : Int) :
    FuturesPosition where
  contractId := contractId
  creator := creator
  counterparty := none
  callId := callId
  outcome := outcome
  strikeProbabilityBps := strikeProbabilityBps
  expiryTs := expiryTs
  marginRequirement := marginRequirement
  isSettled := false
  status := .pending

/-- The storage after a position is opened. -/
def Storage.opened (s : Storage) (position : FuturesPosition) : Storage :=
  ((s.setContractCounter position.contractId).setFuturesPosition position.contractId
    position).setActiveFutures position.callId
      (s.activeFutures position.callId ++ [position.contractId])

/-- The storage after a position is settled. -/
def Storage.closed (s : Storage) (contractId : Nat) (position : FuturesPosition) : Storage :=
  (s.setFuturesPosition contractId
    { position with isSettled := true, status := .settled }).setActiveFutures position.callId
      ((s.activeFutures position.callId).filter (· ≠ contractId))

/-- A successful invocation in a world of factories and markets: its checks, its effects and the
storage it left. -/
inductive Transition {P : Type} [MarketViews P] (env : Env) (p : P) :
    FuturesOp → Storage → List (Effect Event) → Storage → Prop where
  | initialized {factory s} : s.factory = none →
      Transition env p (.initializeFutures factory) s [] (s.setFuturesFactory factory)
  | created {creator callId outcome strike expiryTs margin factory call s} :
      creator ∈ env.auths → 0 < margin → strike ≤ 10000 → env.timestamp < expiryTs →
      s.factory = some factory → marketCall p factory callId = some call →
      Transition env p (.createFuturesContract creator callId outcome strike expiryTs margin) s
        [.transfer call.stakeToken creator env.contract margin]
        (s.opened (newPosition (s.contractCounter + 1) creator callId outcome strike expiryTs
          margin))
  | accepted {counterparty contractId position factory call s} :
      counterparty ∈ env.auths → s.futuresPosition contractId = some position →
      position.isSettled = false → position.counterparty = none →
      env.timestamp < position.expiryTs → s.factory = some factory →
      marketCall p factory position.callId = some call →
      Transition env p (.acceptFuturesCounterparty counterparty contractId) s
        [.transfer call.stakeToken counterparty env.contract position.marginRequirement]
        (s.setFuturesPosition contractId
          { position with counterparty := some counterparty, status := .active })
  | settled {contractId position counterparty factory call s} {buyer seller : Int} :
      s.futuresPosition contractId = some position → position.isSettled = false →
      position.counterparty = some counterparty → position.expiryTs ≤ env.timestamp →
      s.factory = some factory → marketCall p factory position.callId = some call →
      (stakesOf call).sum ≠ 0 →
      SettlementFits position.marginRequirement call position.outcome
        position.strikeProbabilityBps →
      (buyer, seller) = split position.marginRequirement (probabilityBps call position.outcome)
        position.strikeProbabilityBps →
      Transition env p (.settleFutures contractId) s
        (payOutEffects env call.stakeToken counterparty seller ++
          payOutEffects env call.stakeToken position.creator buyer)
        (s.closed contractId position)
  | longTransferred {contractId newOwner position s} :
      s.futuresPosition contractId = some position → position.creator ∈ env.auths →
      position.isSettled = false →
      Transition env p (.transferLongPosition contractId newOwner) s []
        (s.setFuturesPosition contractId { position with creator := newOwner })
  | shortTransferred {contractId newOwner position counterparty s} :
      s.futuresPosition contractId = some position →
      position.counterparty = some counterparty → counterparty ∈ env.auths →
      position.isSettled = false →
      Transition env p (.transferShortPosition contractId newOwner) s []
        (s.setFuturesPosition contractId { position with counterparty := some newOwner })

/-- The split conserves the margins, and neither side loses more than its own. -/
theorem splitDelta_bounds {margin : Int} (hmargin : 0 < margin) (diff : Nat) :
    0 ≤ splitDelta margin diff ∧ splitDelta margin diff ≤ margin := by
  have hproduct : 0 ≤ margin * diff := by positivity
  refine ⟨le_min ?_ hmargin.le, min_le_right _ _⟩
  exact Int.tdiv_nonneg hproduct (by decide)

theorem split_conserves (margin : Int) (currentBps strikeBps : Nat) :
    (split margin currentBps strikeBps).1 + (split margin currentBps strikeBps).2 =
      2 * margin := by
  unfold split
  split_ifs <;> dsimp only <;> omega

theorem split_bounds {margin : Int} (hmargin : 0 < margin) (currentBps strikeBps : Nat) :
    0 ≤ (split margin currentBps strikeBps).1 ∧
      (split margin currentBps strikeBps).1 ≤ 2 * margin ∧
      0 ≤ (split margin currentBps strikeBps).2 ∧
      (split margin currentBps strikeBps).2 ≤ 2 * margin := by
  have hdelta := splitDelta_bounds hmargin (distance currentBps strikeBps)
  unfold split
  split_ifs <;> dsimp only <;> omega

section Specs

variable {P : Type} {env : Env} {f f' : Frame Storage P Event}

theorem run_impliedBps {call : Call} {outcome bps : Nat} :
    run (impliedBps call outcome (stakesOf call).sum : Futures P Nat) env f = .ok (bps, f') ↔
      InI128 (valueAt call.outcomeStakes outcome * 10000) ∧ (stakesOf call).sum ≠ 0 ∧
        InI128 ((valueAt call.outcomeStakes outcome * 10000).tdiv (stakesOf call).sum) ∧
        bps = probabilityBps call outcome ∧ f' = f := by
  simp only [impliedBps, run_steps, checkedMul, checkedDiv, checked_eq_some]
  constructor
  · rintro ⟨_, ⟨hscaled, rfl⟩, q, hq, rfl, rfl⟩
    split at hq
    · cases hq
    · next hzero =>
      obtain ⟨hquotient, rfl⟩ := checked_eq_some.mp hq
      exact ⟨hscaled, hzero, hquotient, rfl, rfl⟩
  · rintro ⟨hscaled, hzero, hquotient, rfl, rfl⟩
    exact ⟨_, ⟨hscaled, rfl⟩, _, by rw [if_neg hzero, checked_of_in_range hquotient], rfl, rfl⟩

theorem run_payoutDelta {margin delta : Int} (hmargin : 0 < margin) {diff : Nat} :
    run (payoutDelta margin diff : Futures P Int) env f = .ok (delta, f') ↔
      InI128 (margin * diff) ∧ delta = splitDelta margin diff ∧ f' = f := by
  have hproduct : 0 ≤ margin * diff := by positivity
  simp only [payoutDelta, run_steps, checkedMul, checked_eq_some, splitDelta, tdiv_eq_div hproduct]
  constructor
  · rintro ⟨_, ⟨hscaled, rfl⟩, q, hq, rfl, rfl⟩
    rw [checkedDiv_of_nonneg hproduct (by decide) hscaled] at hq
    cases hq
    exact ⟨hscaled, rfl, rfl⟩
  · rintro ⟨hscaled, rfl, rfl⟩
    exact ⟨_, ⟨hscaled, rfl⟩, _, checkedDiv_of_nonneg hproduct (by decide) hscaled, rfl, rfl⟩

theorem run_settlementPayouts {margin : Int} (hmargin : 0 < margin) {currentBps strikeBps : Nat}
    {payouts : Int × Int} :
    run (settlementPayouts margin currentBps strikeBps : Futures P (Int × Int)) env f =
        .ok (payouts, f') ↔
      (currentBps ≠ strikeBps → InI128 (margin * distance currentBps strikeBps) ∧
        InI128 (margin + splitDelta margin (distance currentBps strikeBps)) ∧
        InI128 (margin - splitDelta margin (distance currentBps strikeBps))) ∧
      payouts = split margin currentBps strikeBps ∧ f' = f := by
  unfold settlementPayouts split
  split_ifs with hup hdown
  · have hdistance : currentBps - strikeBps = distance currentBps strikeBps := by
      unfold distance
      omega
    simp only [run_bind (x := payoutDelta _ _), run_payoutDelta hmargin, run_steps, hdistance,
      hup.ne', ne_eq, not_false_eq_true, forall_const]
    grind
  · have hdistance : strikeBps - currentBps = distance currentBps strikeBps := by
      unfold distance
      omega
    simp only [run_bind (x := payoutDelta _ _), run_payoutDelta hmargin, run_steps, hdistance,
      hdown.ne, ne_eq, not_false_eq_true, forall_const]
    grind
  · have heq : currentBps = strikeBps := by omega
    simp [heq, eq_comm]

@[simp] theorem run_getFuturesPosition_bind {α : Type} {b : α} (contractId : Nat)
    (k : FuturesPosition → Futures P α) :
    run (getFuturesPosition contractId >>= k) env f = .ok (b, f') ↔
      ∃ position, f.store.futuresPosition contractId = some position ∧
        run (k position) env f = .ok (b, f') := by
  simp only [getFuturesPosition, Contract.bind_assoc, run_steps]

variable [MarketViews P]

@[simp] theorem run_getCall_bind {α : Type} {b : α} (callId : Nat) (k : Call → Futures P α) :
    run (getCall callId >>= k) env f = .ok (b, f') ↔
      ∃ factory, f.store.factory = some factory ∧ ∃ call,
        marketCall f.tokens factory callId = some call ∧ run (k call) env f = .ok (b, f') := by
  simp only [getCall, Contract.bind_assoc, run_steps, run_readMarketCall_bind]

theorem run_payOut_bind {α : Type} {b : α} (token recipient : Address) (amount : Int)
    (k : Unit → Futures P α) :
    run (payOut token recipient amount >>= k) env f = .ok (b, f') ↔
      ∃ tokens, Replays env f.tokens (payOutEffects env token recipient amount) tokens ∧
        run (k ()) env ⟨f.store, tokens, payOutEffects env token recipient amount ++ f.effects⟩ =
          .ok (b, f') := by
  unfold payOut payOutEffects
  split
  · simp only [Contract.bind_assoc, run_steps]
    constructor
    · rintro ⟨tokens, htransfer, hrest⟩
      exact ⟨tokens, Replays.nil.transfer htransfer, hrest⟩
    · rintro ⟨tokens, hreplay, hrest⟩
      cases hreplay with
      | transfer hnil htransfer =>
        cases hnil
        exact ⟨tokens, htransfer, hrest⟩
  · simp only [run_pure_bind, List.nil_append]
    constructor
    · exact fun hrest => ⟨f.tokens, .nil, hrest⟩
    · rintro ⟨tokens, hreplay, hrest⟩
      cases hreplay
      exact hrest

/-- A settlement succeeds exactly when it passes its checks and the token pays both sides. -/
theorem run_settleFutures {contractId : Nat} {u : Unit}
    (hmargins : ∀ position, f.store.futuresPosition contractId = some position →
      0 < position.marginRequirement) :
    run (settleFutures contractId : Futures P Unit) env f = .ok (u, f') ↔
      ∃ position counterparty factory call, f.store.futuresPosition contractId = some position ∧
        position.isSettled = false ∧ position.counterparty = some counterparty ∧
        position.expiryTs ≤ env.timestamp ∧ f.store.factory = some factory ∧
        marketCall f.tokens factory position.callId = some call ∧ (stakesOf call).sum ≠ 0 ∧
        SettlementFits position.marginRequirement call position.outcome
          position.strikeProbabilityBps ∧
        ∃ effects tokens, effects = payOutEffects env call.stakeToken counterparty
              (split position.marginRequirement (probabilityBps call position.outcome)
                position.strikeProbabilityBps).2 ++
            payOutEffects env call.stakeToken position.creator
              (split position.marginRequirement (probabilityBps call position.outcome)
                position.strikeProbabilityBps).1 ∧
          Replays env f.tokens effects tokens ∧
          f' = ⟨f.store.closed contractId position, tokens, effects ++ f.effects⟩ := by
  simp only [settleFutures, run_getFuturesPosition_bind, run_steps, run_getCall_bind,
    run_sumI128_bind, run_bind (x := impliedBps _ _ _), run_bind (x := settlementPayouts _ _ _),
    run_impliedBps, run_payOut_bind, Bool.not_eq_true, not_lt]
  constructor
  · rintro ⟨position, hposition, hsettled, counterparty, hcounterparty, hexpiry, factory,
      hfactory, call, hcall, hfit, hzero, bps, _, ⟨hscaled, -, hquotient, rfl, rfl⟩, payouts, _,
      hpayouts, first, hfirst, second, hsecond, rfl⟩
    obtain ⟨hmoved, rfl, rfl⟩ := (run_settlementPayouts (hmargins position hposition)).mp hpayouts
    exact ⟨position, counterparty, factory, call, hposition, hsettled, hcounterparty, hexpiry,
      hfactory, hcall, hzero, ⟨hfit, hscaled, hquotient, hmoved⟩, _, second, rfl,
      hfirst.append hsecond, by rw [List.append_assoc]; rfl⟩
  · rintro ⟨position, counterparty, factory, call, hposition, hsettled, hcounterparty, hexpiry,
      hfactory, hcall, hzero, hfits, effects, tokens, rfl, hreplay, rfl⟩
    obtain ⟨first, hfirst, hsecond⟩ := hreplay.split
    exact ⟨position, hposition, hsettled, counterparty, hcounterparty, hexpiry, factory, hfactory,
      call, hcall, hfits.stakes, hzero, _, _, ⟨hfits.scaled, hzero, hfits.quotient, rfl, rfl⟩, _,
      _, (run_settlementPayouts (hmargins position hposition)).mpr ⟨hfits.moved, rfl, rfl⟩, first,
      hfirst, tokens, hsecond, by rw [List.append_assoc]; rfl⟩

/-- An invocation that succeeds makes a listed transition. -/
theorem FuturesOp.transitions {op : FuturesOp}
    (hmargins : ∀ contractId position, f.store.futuresPosition contractId = some position →
      0 < position.marginRequirement)
    (h : run op.perform env f = .ok ((), f')) :
    ∃ effects, f'.effects = effects ++ f.effects ∧ Replays env f.tokens effects f'.tokens ∧
      Transition env f.tokens op f.store effects f'.store := by
  cases op with
  | initializeFutures factory =>
    simp only [FuturesOp.perform, PredictionMarketFutures.initializeFutures, run_steps] at h
    obtain ⟨hnone, rfl⟩ := h
    exact ⟨[], rfl, .nil, .initialized (by simpa using hnone)⟩
  | createFuturesContract creator callId outcome strike expiryTs margin =>
    simp only [FuturesOp.perform, run_ignore, PredictionMarketFutures.createFuturesContract,
      run_steps, run_getCall_bind] at h
    obtain ⟨_, hauth, hmargin, hstrike, hexpiry, factory, hfactory, call, hcall, -, tokens,
      htransfer, -, -, rfl⟩ := h
    exact ⟨_, rfl, Replays.nil.transfer htransfer, .created hauth (lt_of_not_ge hmargin)
      (le_of_not_gt hstrike) (lt_of_not_ge hexpiry) hfactory hcall⟩
  | acceptFuturesCounterparty counterparty contractId =>
    simp only [FuturesOp.perform, PredictionMarketFutures.acceptFuturesCounterparty, run_steps,
      run_getFuturesPosition_bind, run_getCall_bind, Bool.not_eq_true, Option.isSome_eq_false_iff,
      Option.isNone_iff_eq_none] at h
    obtain ⟨hauth, position, hposition, hsettled, hnone, hexpiry, factory, hfactory, call, hcall,
      tokens, htransfer, rfl⟩ := h
    exact ⟨_, rfl, Replays.nil.transfer htransfer, .accepted hauth hposition hsettled hnone
      (lt_of_not_ge hexpiry) hfactory hcall⟩
  | settleFutures contractId =>
    obtain ⟨position, counterparty, factory, call, hposition, hsettled, hcounterparty, hexpiry,
      hfactory, hcall, hsum, hfits, effects, tokens, rfl, hreplay, rfl⟩ :=
      (run_settleFutures (hmargins contractId)).mp h
    exact ⟨_, rfl, hreplay,
      .settled hposition hsettled hcounterparty hexpiry hfactory hcall hsum hfits rfl⟩
  | transferLongPosition contractId newOwner =>
    simp only [FuturesOp.perform, PredictionMarketFutures.transferLongPosition,
      run_getFuturesPosition_bind, run_steps, Bool.not_eq_true] at h
    obtain ⟨position, hposition, hauth, hsettled, rfl⟩ := h
    exact ⟨[], rfl, .nil, .longTransferred hposition hauth hsettled⟩
  | transferShortPosition contractId newOwner =>
    simp only [FuturesOp.perform, PredictionMarketFutures.transferShortPosition,
      run_getFuturesPosition_bind, run_steps, Bool.not_eq_true] at h
    obtain ⟨position, hposition, counterparty, hcounterparty, hauth, hsettled, rfl⟩ := h
    exact ⟨[], rfl, .nil, .shortTransferred hposition hcounterparty hauth hsettled⟩

end Specs

end Backit.PredictionMarketFutures
