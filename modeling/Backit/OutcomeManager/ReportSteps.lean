import Backit.OutcomeManager.Reports

/-!
# What the reports change

`ReportStep` lists, for every operation on the tally, when it succeeds, what it leaves in the tally
and the registries, and its effects. Everything proved about the reports is derived from it.
-/

namespace Backit.OutcomeManager

open Soroban Contract Shared

variable {R : Type} [Registries R] [Crypto] [Network]

/-- An authorised oracle at the time of the settings. -/
def Settings.authorises (s : Settings) (oracle : BytesN 32) : Prop :=
  ∃ oracles, s.oracles = some oracles ∧ oracle ∈ oracles

/-- What submitting a report checks of it. -/
structure Accepted (env : Env) (s : Settings) (t : Tally) (signed : SignedOutcome)
    (callEndTs : Nat) : Prop where
  running : s.paused = false
  authorised : s.authorises signed.oraclePubkey
  undecided : t.finalOutcome signed.callId = none
  fresh : t.submission (signed.oraclePubkey, signed.callId) = none
  valid : isValidOutcome signed.outcome = true
  inTime : signed.timestamp ≤ callEndTs + s.maxSubmissionDelay
  verified : Crypto.ed25519Verify signed.oraclePubkey signed.message signed.signature = true
  unseen : t.processedDigest (signed.digest env.contract) = false

/-- The registry and the report of an operation that submits one. The registry is the one that the
caller names, or the factory's; when a factory is configured they are the same. -/
inductive Submits (s : Settings) (others : R) : ReportOp → Address → SignedOutcome → Nat → Prop where
  | direct {registry signed callEndTs} : (∀ factory, s.factory = some factory →
        Registries.getMarket others factory signed.callId = some registry) →
      Submits s others (.submitOutcome registry signed callEndTs) registry signed callEndTs
  | forMarket {factory registry signed callEndTs} : s.factory = some factory →
      Registries.getMarket others factory signed.callId = some registry →
      Submits s others (.submitOutcomeForMarket signed callEndTs) registry signed callEndTs

/-- What submitting an observation of a resolution checks of it. -/
structure Observed (s : Settings) (t : Tally) (callId : Nat)
    (observation : ResolutionObservation) : Prop where
  authorised : s.authorises observation.oracle
  undecided : t.finalOutcome callId = none
  fresh : ∀ existing ∈ t.resolutionObservations callId, existing.oracle ≠ observation.oracle

/-- The effects of making an outcome final. -/
def finalEffects (registry : Address) (callId : Nat) (outcome : Outcome) : List (Effect Act) :=
  [.event (.event (.outcomeFinalized callId outcome.outcome outcome.price)),
    .event (.resolveCall registry outcome.callId outcome.outcome outcome.price)]

/-- `ReportStep env s op t others effects t' others'` says when an operation on the tally succeeds
and what it does. -/
inductive ReportStep (env : Env) (s : Settings) :
    ReportOp → Tally → R → List (Effect Act) → Tally → R → Prop where
  | vote {op registry signed callEndTs t others quorum} :
      Submits s others op registry signed callEndTs → Accepted env s t signed callEndTs →
      s.quorum = some quorum → t.votesFor signed.hash signed.callId + 1 < quorum →
      ReportStep env s op t others
        [.event (.event (.outcomeSubmitted signed.callId signed.oraclePubkey signed.outcome))]
        (t.recordVote signed env.contract (t.votesFor signed.hash signed.callId + 1)) others
  | decide {op registry signed callEndTs t others quorum others'} :
      Submits s others op registry signed callEndTs → Accepted env s t signed callEndTs →
      s.quorum = some quorum → quorum ≤ t.votesFor signed.hash signed.callId + 1 →
      Registries.resolveCall env registry signed.callId signed.outcome signed.price others =
        some others' →
      ReportStep env s op t others
        (finalEffects registry signed.callId signed.stated ++
          [.event (.event (.outcomeSubmitted signed.callId signed.oraclePubkey signed.outcome))])
        ((t.recordVote signed env.contract (t.votesFor signed.hash signed.callId + 1)).settle
          signed.callId signed.stated env.timestamp) others'
  | price {t others callId callEndTs observation oraclePubkey signature} :
      s.authorises oraclePubkey →
      Crypto.ed25519Verify oraclePubkey (observationMessage callId observation) signature = true →
      callEndTs - s.twapWindowSecs ≤ observation.timestamp →
      observation.timestamp ≤ callEndTs →
      (∀ last ∈ (t.priceObservations callId).getLast?, last.timestamp < observation.timestamp) →
      ReportStep env s
        (.submitPriceObservation callId callEndTs observation oraclePubkey signature) t others
        [.event (.event (.priceObservationSubmitted callId oraclePubkey observation.price
          observation.timestamp))]
        (t.addPrice callId observation) others
  | observe {t others callId observation signature} : Observed s t callId observation →
      confirmed s (t.resolutionObservations callId ++ [observation]) = false →
      ReportStep env s (.submitResolutionObservation callId observation signature) t others []
        (t.addResolution callId observation) others
  | confirm {t others callId observation signature price registry others'} :
      Observed s t callId observation →
      confirmed s (t.resolutionObservations callId ++ [observation]) = true →
      IsMedian ((t.resolutionObservations callId ++ [observation]).map (·.price)) price →
      s.registry = some registry →
      Registries.resolveCall env registry callId outcomeUp price others = some others' →
      ReportStep env s (.submitResolutionObservation callId observation signature) t others
        (finalEffects registry callId ⟨callId, outcomeUp, price, observation.timestamp⟩)
        ((t.addResolution callId observation).settle callId
          ⟨callId, outcomeUp, price, observation.timestamp⟩ env.timestamp) others'
  | finalizeOutcome {t others callId pending windowStart registry others'} :
      t.pendingOutcome callId = some pending → t.disputeWindowStart callId = some windowStart →
      windowStart + s.disputeWindow ≤ env.timestamp → s.registry = some registry →
      Registries.resolveCall env registry pending.callId pending.outcome pending.price others =
        some others' →
      ReportStep env s (.finalizeOutcome callId) t others (finalEffects registry callId pending)
        (t.settle callId pending env.timestamp) others'
  | disputeOutcome {t others callId newOutcome newPrice admin pending windowStart} :
      s.admin = some admin → admin ∈ env.auths →
      t.pendingOutcome callId = some pending → t.disputeWindowStart callId = some windowStart →
      env.timestamp < windowStart + s.disputeWindow → isValidOutcome newOutcome = true →
      ReportStep env s (.disputeOutcome callId newOutcome newPrice) t others
        [.event (.event (.outcomeDisputed callId newOutcome newPrice))]
        { t with
          pendingOutcome := Function.update t.pendingOutcome callId
            (some { pending with outcome := newOutcome, price := newPrice }) } others

section Specs

variable {env : Env} {f f' : Frame Storage R Act} {u : Unit} {registry : Address}

omit [Crypto] [Network] in
/-- A registry passes the check exactly when it is the factory's market, if there is a factory. -/
theorem run_validateMarketRegistry {callId : Nat}
    (h : run (validateMarketRegistry registry callId : Manager R Unit) env f = .ok (u, f')) :
    f' = f ∧ ∀ factory, f.store.settings.factory = some factory →
      Registries.getMarket f.tokens factory callId = some registry := by
  refine ⟨validate_market_registry_read_only registry callId _ _ _ _ h, fun factory hfactory => ?_⟩
  rw [validateMarketRegistry, run_getStore_bind] at h
  simp only [hfactory] at h
  rw [run_bind] at h
  obtain ⟨market, f₁, hmarket, h⟩ := h
  cases hlookup : Registries.getMarket f.tokens factory callId with
  | none => simp [run, factoryGetMarket, hlookup] at hmarket
  | some found =>
    simp only [run, factoryGetMarket, hlookup, Except.ok.injEq, Prod.mk.injEq] at hmarket
    obtain ⟨rfl, rfl⟩ := hmarket
    rw [run_rejectIf, not_ne_iff] at h
    rw [h.1]

omit [Crypto] [Network] in
theorem run_resolveMarketAddress {callId : Nat}
    (h : run (resolveMarketAddress callId : Manager R Address) env f = .ok (registry, f')) :
    f' = f ∧ ∃ factory, f.store.settings.factory = some factory ∧
      Registries.getMarket f.tokens factory callId = some registry := by
  simp only [resolveMarketAddress, run_steps] at h
  obtain ⟨factory, hfactory, h⟩ := h
  cases hlookup : Registries.getMarket f.tokens factory callId with
  | none => simp [run, factoryGetMarket, hlookup] at h
  | some found =>
    simp only [run, factoryGetMarket, hlookup, Except.ok.injEq, Prod.mk.injEq] at h
    obtain ⟨rfl, rfl⟩ := h
    exact ⟨rfl, factory, hfactory, hlookup⟩

/-- What the frame is after a step on the tally. -/
def Frame.afterReport (f : Frame Storage R Act) (t : Tally) (others : R)
    (effects : List (Effect Act)) : Frame Storage R Act :=
  { store := f.store.onTally fun _ => t, tokens := others, effects := effects ++ f.effects }

omit [Crypto] [Network] in
theorem run_finalize {outcome : Outcome} :
    run (finalize registry outcome : Manager R Unit) env f = .ok (u, f') ↔
      ∃ others, Registries.resolveCall env registry outcome.callId outcome.outcome outcome.price
          f.tokens = some others ∧
        f' = Frame.afterReport f (f.store.tally.settle outcome.callId outcome env.timestamp)
          others (finalEffects registry outcome.callId outcome) := by
  simp only [finalize, run_steps, registryResolveCall, run_callOut_bind, run_announce]
  rfl

/-- Submitting a report to a registry that passes the check. -/
theorem submit_outcome_steps {signed : SignedOutcome} {callEndTs : Nat}
    {op : ReportOp} (hop : (∀ factory, f.store.settings.factory = some factory →
      Registries.getMarket f.tokens factory signed.callId = some registry) →
      Submits f.store.settings f.tokens op registry signed callEndTs)
    (h : run (submitOutcome registry signed callEndTs : Manager R Unit) env f = .ok (u, f')) :
    ∃ t others effects, ReportStep env f.store.settings op f.store.tally f.tokens effects t others ∧
        f' = Frame.afterReport f t others effects := by
  rw [submitOutcome, run_rejectIfPaused_bind, run_bind] at h
  obtain ⟨hrunning, _, f₁, hvalidate, h⟩ := h
  obtain ⟨hframe, hmarket⟩ := run_validateMarketRegistry hvalidate
  simp only [hframe, run_getOracles_bind, run_steps, run_ed25519Verify_bind, run_announce_bind,
    run_getQuorum_bind, not_not, checkedAddU64_eq_some, not_lt, Bool.not_eq_false,
    Bool.not_eq_true] at h
  obtain ⟨oracles, horacles, hmem, hundecided, hfresh, hvalid, _, ⟨-, rfl⟩, hinTime, hverified,
    hunseen, -, quorum, hquorum, h⟩ := h
  have haccepted : Accepted env f.store.settings f.store.tally signed callEndTs :=
    ⟨hrunning, ⟨oracles, horacles, hmem⟩, by simpa using hundecided, by simpa using hfresh,
      hvalid, hinTime, hverified, hunseen⟩
  split at h
  · next hreached =>
    obtain ⟨others, hresolve, rfl⟩ := run_finalize.mp h
    exact ⟨_, others, _, .decide (hop hmarket) haccepted hquorum hreached hresolve, rfl⟩
  · next hshort =>
    cases h
    exact ⟨_, _, _, .vote (hop hmarket) haccepted hquorum (by omega), rfl⟩

/-- A successful operation on the tally is one of the listed steps. -/
theorem ReportOp.steps {op : ReportOp} (h : run (op.perform : Manager R Unit) env f = .ok (u, f')) :
    ∃ t others effects, ReportStep env f.store.settings op f.store.tally f.tokens effects t others ∧
        f' = Frame.afterReport f t others effects := by
  cases op with
  | submitOutcome registry signed callEndTs => exact submit_outcome_steps .direct h
  | submitOutcomeForMarket signed callEndTs =>
    rw [ReportOp.perform, OutcomeManager.submitOutcomeForMarket, run_bind] at h
    obtain ⟨registry, f₁, hresolve, h⟩ := h
    obtain ⟨hframe, factory, hfactory, hlookup⟩ := run_resolveMarketAddress hresolve
    rw [hframe] at h
    exact submit_outcome_steps (fun _ => .forMarket hfactory hlookup) h
  | submitPriceObservation callId callEndTs observation oraclePubkey signature =>
    simp only [ReportOp.perform, OutcomeManager.submitPriceObservation, run_getOracles_bind,
      run_steps, run_ed25519Verify_bind, run_announce, not_not, not_or, not_lt, not_exists,
      not_and, not_le] at h
    obtain ⟨oracles, horacles, hmem, hverified, ⟨hfrom, hto⟩, horder, rfl⟩ := h
    exact ⟨_, _, _, .price ⟨oracles, horacles, hmem⟩ hverified hfrom hto horder, rfl⟩
  | submitResolutionObservation callId observation signature =>
    simp only [ReportOp.perform, OutcomeManager.submitResolutionObservation, run_getOracles_bind,
      run_steps, not_not, not_exists, not_and] at h
    obtain ⟨oracles, horacles, hmem, hundecided, hfresh, h⟩ := h
    have hobserved : Observed f.store.settings f.store.tally callId observation :=
      ⟨⟨oracles, horacles, hmem⟩, by simpa using hundecided, hfresh⟩
    split at h
    · next hconfirmed =>
      rw [run_bind] at h
      obtain ⟨price, _, hprice, h⟩ := h
      obtain ⟨hmedian, rfl⟩ := compute_median_is_median hprice
      rw [run_unwrap_bind] at h
      obtain ⟨registry, hregistry, h⟩ := h
      obtain ⟨others, hresolve, rfl⟩ := run_finalize.mp h
      exact ⟨_, others, _, .confirm hobserved hconfirmed hmedian hregistry hresolve, rfl⟩
    · next hconfirmed =>
      cases h
      exact ⟨_, _, _, .observe hobserved (by simpa using hconfirmed), rfl⟩
  | finalizeOutcome callId =>
    simp only [ReportOp.perform, OutcomeManager.finalizeOutcome, windowEnd, Contract.bind_assoc,
      run_steps, registryResolveCall, run_callOut_bind, run_announce, not_lt] at h
    obtain ⟨pending, hpending, windowStart, hstart, -, hclosed, registry, hregistry, others,
      hresolve, rfl⟩ := h
    exact ⟨_, others, _, .finalizeOutcome hpending hstart hclosed hregistry hresolve, rfl⟩
  | disputeOutcome callId newOutcome newPrice =>
    simp only [ReportOp.perform, OutcomeManager.disputeOutcome, windowEnd, Contract.bind_assoc,
      run_requireAdmin_bind, run_steps, run_announce, not_le, Bool.not_eq_false] at h
    obtain ⟨admin, hadmin, hauth, pending, hpending, windowStart, hstart, -, hopen, hvalid,
      rfl⟩ := h
    exact ⟨_, _, _, .disputeOutcome hadmin hauth hpending hstart hopen hvalid, rfl⟩

end Specs

end Backit.OutcomeManager
