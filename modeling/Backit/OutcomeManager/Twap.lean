import Backit.Lib.StepFunction
import Backit.OutcomeManager.Executions

/-!
# Time-weighted average prices

The manager averages the observations of a call's price, each weighed by the time until the next
one and the last by the time until the end. Whatever the observations, a price that
`try_compute_twap` returns is the truncated average of their step function, between the lowest and
the highest of them. It falls back to no price when the observations do not suffice, except that
with no observation at all and none required it panics on the first one.
-/

namespace Backit.OutcomeManager

open Soroban Contract Lib

/-- The weighted sum and the total time after the remaining observations. -/
def twapLoop (endTs : Nat) : List PriceObservation → Int → Int → Option (Int × Int)
  | [], weightedSum, totalTime => some (weightedSum, totalTime)
  | observation :: rest, weightedSum, totalTime =>
    let nextTs := (rest.head?.map (·.timestamp)).getD endTs
    if nextTs < observation.timestamp then none
    else do
      let dt : Int := nextTs - observation.timestamp
      let product ← checkedMul observation.price dt
      let weightedSum ← checkedAdd product weightedSum
      let totalTime ← checkedAdd totalTime dt
      twapLoop endTs rest weightedSum totalTime

/-- The quotient that ends `try_compute_twap`. -/
def averagePrice (observations : List PriceObservation) (endTs : Nat) : Option Int := do
  let (weightedSum, totalTime) ← twapLoop endTs observations 0 0
  if totalTime = 0 then none else checkedDiv weightedSum totalTime

/-- The failure of `unwrap` on an absent value. -/
def absentValue : Failure OutcomeError := .panic "called Option::unwrap() on a None value"

variable {R : Type} [Registries R]

omit [Registries R] in
def tryComputeTwap (observations : List PriceObservation)
    (endTs windowSecs minObservations : Nat) : Manager R (Option Int) :=
  if observations.length < minObservations then pure none
  else do
    let first ← unwrap observations.head? absentValue
    let last ← unwrap observations.getLast? absentValue
    if last.timestamp - first.timestamp < windowSecs / 2 then pure none
    else pure (averagePrice observations endTs)

def computeTwap (callId endTs : Nat) : Manager R Int := do
  let s ← getStore
  let observations := s.tally.priceObservations callId
  rejectIf (observations = []) (.error .noPriceObservations)
  let twap ← tryComputeTwap observations endTs s.settings.twapWindowSecs
    s.settings.twapMinObservations
  unwrap twap (.error .insufficientPriceObservations)

def resolvePrice (callId endTs : Nat) (singlePointPrice : Int) : Manager R Int := do
  let s ← getStore
  let observations := s.tally.priceObservations callId
  let twap ← tryComputeTwap observations endTs s.settings.twapWindowSecs
    s.settings.twapMinObservations
  match twap with
  | some twapPrice => do
      announce (.twapComputed callId twapPrice observations.length)
      pure twapPrice
  | none => pure singlePointPrice

/-- The truncated average of the step function of the observations, extended to `endTs`. -/
def twapOf (observations : List PriceObservation) (endTs : Nat) : Int :=
  let start := observations.head?.elim 0 (·.timestamp)
  (∑ t ∈ Finset.Ico start endTs, inForce (·.timestamp) (·.price) observations t).tdiv
    (endTs - start)

/-- Each observation is later than the one before it. -/
def Increasing (observations : List PriceObservation) : Prop :=
  observations.Pairwise fun a b => a.timestamp < b.timestamp

section Averages

variable {observations rest : List PriceObservation} {observation : PriceObservation}
  {endTs : Nat} {weightedSum totalTime price : Int} {total : Int × Int}

/-- An iteration that does not give up adds its observation, weighed by the time until the next. -/
theorem twap_loop_cons {nextTs : Nat}
    (h : twapLoop endTs (observation :: rest) weightedSum totalTime = some total)
    (hnext : (rest.head?.map (·.timestamp)).getD endTs = nextTs) :
    observation.timestamp ≤ nextTs ∧
      twapLoop endTs rest (observation.price * (nextTs - observation.timestamp) + weightedSum)
        (totalTime + (nextTs - observation.timestamp)) = some total := by
  subst hnext
  rw [twapLoop, Option.ite_none_left_eq_some] at h
  obtain ⟨hnext, h⟩ := h
  simp only [checkedMul, checkedAdd, Option.bind_eq_bind, Option.bind_eq_some_iff,
    checked_eq_some] at h
  obtain ⟨_, ⟨-, rfl⟩, _, ⟨-, rfl⟩, _, ⟨-, rfl⟩, h⟩ := h
  exact ⟨not_lt.mp hnext, h⟩

/-- The loop adds the area under the observations and the time they cover, all of it before the
end. -/
theorem twap_loop_area (hsorted : Increasing (observation :: rest))
    (h : twapLoop endTs (observation :: rest) weightedSum totalTime = some total) :
    (∀ later ∈ observation :: rest, later.timestamp ≤ endTs) ∧
      total.1 = weightedSum + area (·.timestamp) (·.price) endTs (observation :: rest) ∧
      total.2 = totalTime + (endTs - observation.timestamp) := by
  induction rest generalizing observation weightedSum totalTime with
  | nil =>
    obtain ⟨hend, h⟩ := twap_loop_cons h rfl
    cases h
    refine ⟨fun later hlater => ?_, add_comm _ _, rfl⟩
    rw [List.mem_singleton.mp hlater]
    exact hend
  | cons next rest ih =>
    obtain ⟨hfirst, hrest⟩ := List.pairwise_cons.mp hsorted
    obtain ⟨-, h⟩ := @twap_loop_cons _ _ _ _ _ _ next.timestamp h rfl
    obtain ⟨hbefore, hsum, htime⟩ := ih hrest h
    have hnext : observation.timestamp < next.timestamp := hfirst next (.head _)
    refine ⟨fun later hlater => ?_, ?_, ?_⟩
    · rcases List.mem_cons.mp hlater with rfl | hlater
      · exact hnext.le.trans (hbefore next (.head _))
      · exact hbefore later hlater
    · rw [hsum, area]
      ring
    · rw [htime]
      ring

/-- A price of the loop's quotient is the average, between the extremes of the observations. -/
theorem average_price_spec (hsorted : Increasing observations)
    (h : averagePrice observations endTs = some price) :
    price = twapOf observations endTs ∧ ∃ low high, (observations.map (·.price)).min? = some low ∧
      (observations.map (·.price)).max? = some high ∧ low ≤ price ∧ price ≤ high := by
  cases observations with
  | nil => simp [averagePrice, twapLoop] at h
  | cons first rest =>
    simp only [averagePrice, Option.bind_eq_bind, Option.bind_eq_some_iff, checkedDiv,
      Option.ite_none_left_eq_some, checked_eq_some] at h
    obtain ⟨total, hloop, hne, -, -, rfl⟩ := h
    obtain ⟨hbefore, hsum, htime⟩ := twap_loop_area hsorted hloop
    rw [zero_add] at hsum htime
    have hfirst := hbefore first (.head _)
    have hpos : 0 < total.2 := by omega
    have hlow := @List.min?_eq_some_min _ _ ((first :: rest).map (·.price)) (by simp)
    have hhigh := @List.max?_eq_some_max _ _ ((first :: rest).map (·.price)) (by simp)
    have hleast := (List.min?_eq_some_iff.mp hlow).2
    have hgreatest := (List.max?_eq_some_iff.mp hhigh).2
    have harea := @area_between PriceObservation (·.timestamp) (·.price) rest first endTs _ _
      hsorted hbefore (fun later hlater => hleast _ (List.mem_map_of_mem hlater))
      fun later hlater => hgreatest _ (List.mem_map_of_mem hlater)
    rw [← hsum, ← htime] at harea
    refine ⟨?_, _, _, hlow, hhigh, tdiv_between hpos harea.1 harea.2⟩
    rw [twapOf, hsum, htime]
    exact congrArg (Int.tdiv · _) (sum_inForce rest first hsorted hbefore).symm

end Averages

section Resolution

variable {env : Env} {f f' : Frame Storage R Act} {endTs windowSecs minObservations : Nat}
  {observations : List PriceObservation}

omit [Registries R] in
/-- Every price that `try_compute_twap` returns is the loop's quotient. -/
theorem try_compute_twap_average {twap : Option Int}
    (h : run (tryComputeTwap observations endTs windowSecs minObservations : Manager R _) env f =
      .ok (twap, f')) :
    f' = f ∧ ∀ price ∈ twap, averagePrice observations endTs = some price := by
  unfold tryComputeTwap at h
  split at h
  · cases h
    exact ⟨rfl, by simp⟩
  · simp only [run_unwrap_bind] at h
    obtain ⟨first, -, last, -, h⟩ := h
    split at h
    · cases h
      exact ⟨rfl, by simp⟩
    · cases h
      exact ⟨rfl, fun price hprice => hprice⟩

omit [Registries R] in
/-- `try_compute_twap` returns unless there is no observation and none is required. -/
theorem try_compute_twap_returns (env : Env) (f : Frame Storage R Act)
    (h : ¬ (minObservations = 0 ∧ observations = [])) :
    ∃ twap, run (tryComputeTwap observations endTs windowSecs minObservations : Manager R _)
      env f = .ok (twap, f) := by
  unfold tryComputeTwap
  split
  · exact ⟨none, rfl⟩
  · next hlength =>
    cases observations with
    | nil => exact absurd ⟨by simpa using hlength, rfl⟩ h
    | cons first rest =>
      rw [List.head?_cons, run_unwrap_some, List.getLast?_eq_some_getLast (by simp),
        run_unwrap_some]
      split
      · exact ⟨none, rfl⟩
      · exact ⟨_, rfl⟩

omit [Registries R] in
/-- Without observations, and with none required, the unwrapping of the first one panics. -/
theorem resolve_price_panics (callId : Nat) (singlePointPrice : Int)
    (hnone : f.store.settings.twapMinObservations = 0)
    (hempty : f.store.tally.priceObservations callId = []) :
    run (resolvePrice callId endTs singlePointPrice : Manager R Int) env f =
      .error absentValue := by
  rw [resolvePrice, run_getStore_bind, hnone, hempty]
  rfl

omit [Registries R] in
/-- `resolve_price` returns unless nothing was observed and no observation is required. -/
theorem resolve_price_returns_iff (callId : Nat) (singlePointPrice : Int) :
    (∃ result, run (resolvePrice callId endTs singlePointPrice : Manager R Int) env f =
      .ok result) ↔
      ¬ (f.store.settings.twapMinObservations = 0 ∧
        f.store.tally.priceObservations callId = []) := by
  constructor
  · rintro ⟨result, h⟩ ⟨hnone, hempty⟩
    rw [resolve_price_panics callId singlePointPrice hnone hempty] at h
    cases h
  · intro h
    obtain ⟨twap, htwap⟩ := @try_compute_twap_returns R endTs f.store.settings.twapWindowSecs
      _ _ env f h
    cases twap with
    | none =>
      refine ⟨(singlePointPrice, f), ?_⟩
      rw [resolvePrice, run_getStore_bind, run_bind]
      exact ⟨none, f, htwap, rfl⟩
    | some price =>
      refine ⟨(price, f.record f.tokens (.event (.event (.twapComputed callId price
        (f.store.tally.priceObservations callId).length)))), ?_⟩
      rw [resolvePrice, run_getStore_bind, run_bind]
      refine ⟨some price, f, htwap, ?_⟩
      rw [run_announce_bind]
      rfl

end Resolution

section Runs

variable [Crypto] [Network] {self : Address} {outside : R → R → Prop}
  {guard : System.Guard (World R) Label} {history : List Label} {w : World R}

omit [Crypto] [Network] [Registries R] in
theorem Increasing.concat {observations : List PriceObservation} {observation : PriceObservation}
    (hsorted : Increasing observations)
    (hlater : ∀ last ∈ observations.getLast?, last.timestamp < observation.timestamp) :
    Increasing (observations ++ [observation]) := by
  refine List.pairwise_append.mpr ⟨hsorted, List.pairwise_singleton _ _, fun earlier hmem => ?_⟩
  rcases List.eq_nil_or_concat' observations with rfl | ⟨init, last, rfl⟩
  · cases hmem
  · have hlast : last.timestamp < observation.timestamp := hlater last (by simp)
    obtain ⟨-, -, hbefore⟩ := List.pairwise_append.mp hsorted
    simp only [List.mem_singleton, forall_eq] at hbefore ⊢
    rcases List.mem_append.mp hmem with hinit | hlatest
    · exact (hbefore earlier hinit).trans hlast
    · rw [List.mem_singleton.mp hlatest]
      exact hlast

omit [Crypto] [Network] [Registries R] in
theorem increasing_update {stored : Nat → List PriceObservation} {callId : Nat}
    {observations : List PriceObservation} (hsorted : ∀ c, Increasing (stored c))
    (h : Increasing observations) :
    ∀ c, Increasing (Function.update stored callId observations c) := by
  intro c
  by_cases hc : c = callId
  · rw [hc, Function.update_self]
    exact h
  · rw [Function.update_of_ne hc]
    exact hsorted c

/-- An operation on the tally keeps the observations of every call increasing. -/
theorem ReportStep.increasing {env : Env} {s : Settings} {op : ReportOp} {t t' : Tally}
    {others others' : R} {effects : List (Effect Act)}
    (h : ReportStep env s op t others effects t' others')
    (hsorted : ∀ c, Increasing (t.priceObservations c)) :
    ∀ c, Increasing (t'.priceObservations c) := by
  cases h with
  | vote | decide | observe | confirm | finalizeOutcome | disputeOutcome => exact hsorted
  | price _ _ _ _ hlater => exact increasing_update hsorted ((hsorted _).concat hlater)

/-- The observations of every call that a run leaves are increasing. -/
theorem increasing_of_run (run : (manager self outside).RunWhere guard history w) :
    ∀ c, Increasing (w.store.tally.priceObservations c) := by
  refine run.invariant (I := fun _ w => ∀ c, Increasing (w.store.tally.priceObservations c)) ?_ ?_
  · intro s hs c
    rw [show s.store = Storage.empty from hs]
    exact List.Pairwise.nil
  · intro h s l s' _ ih hstep _
    cases hstep.moves with
    | report _ _ _ hreport => exact hreport.increasing ih
    | @lapsed _ t _ _ _ _ key =>
      cases key with
      | priceObservations callId => exact increasing_update ih .nil
      | submission | voteCount | resolutionObservations => exact ih
    | settings => exact ih
    | payout => exact ih
    | elsewhere => exact ih

/-- Every price that `try_compute_twap` returns is the truncated average of the observations, and
lies between the lowest and the highest. -/
def Averages (R : Type) (observations : List PriceObservation) : Prop :=
  ∀ (env : Env) (f f' : Frame Storage R Act) (endTs windowSecs minObservations : Nat)
    (price : Int), Contract.run (tryComputeTwap observations endTs windowSecs minObservations) env f =
      .ok (some price, f') →
    price = twapOf observations endTs ∧ ∃ low high, (observations.map (·.price)).min? = some low ∧
      (observations.map (·.price)).max? = some high ∧ low ≤ price ∧ price ≤ high

/-- No invocation of `resolve_price` for the call panics. -/
def NeverPanics (w : World R) (callId : Nat) : Prop :=
  ∀ (env : Env) (endTs : Nat) (singlePointPrice : Int), ∃ result,
    Contract.run (resolvePrice callId endTs singlePointPrice) env w.frame = .ok result

/-- Averages are right, and prices resolve without a panic, exactly unless no observation is
required and none is stored. -/
theorem twap_resolves_iff (run : (manager self outside).Run history w) (callId : Nat) :
    Averages R (w.store.tally.priceObservations callId) ∧ NeverPanics w callId ↔
      ¬ (w.store.settings.twapMinObservations = 0 ∧
        w.store.tally.priceObservations callId = []) := by
  constructor
  · rintro ⟨-, hreturns⟩
    exact (resolve_price_returns_iff callId 0).mp (hreturns ⟨self, 0, 0, []⟩ 0 0)
  · intro h
    refine ⟨fun env f f' endTs windowSecs minObservations price hprice => ?_,
      fun env endTs singlePointPrice => (resolve_price_returns_iff callId _).mpr h⟩
    have haverage := (try_compute_twap_average hprice).2 price rfl
    exact average_price_spec (increasing_of_run run callId) haverage

end Runs

section Scenario

/-- The oracle of the scenarios, and its signatures over two observations of call 1. -/
def observer : BytesN 32 :=
  ⟨beBytes 32 0x4dc9870e0d07d94c005926aebfdced1efc68fadfe9c10b667ff7033d52386186, by simp⟩

def earlySignature : BytesN 64 :=
  ⟨beBytes 64 0x90cc2d896c9434bb38713899d9fad4b285de6f5c07d207e915dd8c796e34b5454bc39730861f5b8f91b64ba3fa391a8813f6d5f4659d25762ca735fc4f4aa401,
    by simp⟩

def lateSignature : BytesN 64 :=
  ⟨beBytes 64 0x7589e6de4fd10c1a9f742267b69e3b1663f5df2dc61069cfbe722c1359e06b8c5837d003836f815b59bd2fa34333d16738106808942ed5a4970117466564e80f,
    by simp⟩

abbrev observerCrypto : Crypto where
  sha256 := Sha256.sha256
  ed25519Verify key message signature :=
    decide (key = observer) &&
      ((decide (message = observationMessage 1 ⟨-7, 500⟩) && decide (signature = earlySignature)) ||
        (decide (message = observationMessage 1 ⟨20, 900⟩) && decide (signature = lateSignature)))

attribute [local instance] observerCrypto testNetwork

/-- The oracle may observe, and a number of observations is required. -/
def requiring (minObservations : Nat) : List Input :=
  [at_ 1 [adminAddress]
      (.settings (.initializeManager adminAddress [observer] 1 collector 100 3600)),
    at_ 2 [adminAddress] (.settings (.setParameter (.twapConfig 600 minObservations)))]

/-- Two observations of call 1, which ends at 1000. -/
def pricedScript : List Input :=
  requiring 2 ++
    [at_ 600 [] (.report (.submitPriceObservation 1 1000 ⟨-7, 500⟩ observer earlySignature)),
      at_ 950 [] (.report (.submitPriceObservation 1 1000 ⟨20, 900⟩ observer lateSignature))]

def pricedRun : Replayed System.anything :=
  .of freshWorld fresh_world_initial pricedScript (by decide +kernel)

def unpricedRun : Replayed System.anything :=
  .of freshWorld fresh_world_initial (requiring 0) (by decide +kernel)

/-- -7 for 400 seconds and 20 for 100 average to -1.6, truncated to -1. -/
theorem observed_price_resolves :
    Averages WillingRegistries (pricedRun.state.store.tally.priceObservations 1) ∧
      NeverPanics pricedRun.state 1 ∧
      averagePrice (pricedRun.state.store.tally.priceObservations 1) 1000 = some (-1) := by
  have run : (manager home fun _ (_ : WillingRegistries) => False).Run pricedRun.history
      pricedRun.state := pricedRun.run World.next_step System.anything_allowed
  have hobserved : pricedRun.state.store.tally.priceObservations 1 =
      [⟨-7, 500⟩, ⟨20, 900⟩] := by decide +kernel
  have hsome : ¬ (pricedRun.state.store.settings.twapMinObservations = 0 ∧
      pricedRun.state.store.tally.priceObservations 1 = []) := by simp [hobserved]
  obtain ⟨haverages, hreturns⟩ := (twap_resolves_iff run 1).mpr hsome
  exact ⟨haverages, hreturns, by rw [hobserved]; decide⟩

/-- With no observation required a call without observations does not fall back to the price that it
is given. -/
theorem unobserved_price_panics :
    (manager home fun _ (_ : WillingRegistries) => False).Run unpricedRun.history
        unpricedRun.state ∧
      unpricedRun.state.store.tally.priceObservations 1 = [] ∧
      Contract.run (resolvePrice 1 1000 7) ⟨home, 1001, 1001, []⟩ unpricedRun.state.frame =
        .error absentValue ∧
      ¬ (Averages WillingRegistries (unpricedRun.state.store.tally.priceObservations 1) ∧
        NeverPanics unpricedRun.state 1) := by
  have run : (manager home fun _ (_ : WillingRegistries) => False).Run unpricedRun.history
      unpricedRun.state := unpricedRun.run World.next_step System.anything_allowed
  have hpanic : Contract.run (resolvePrice 1 1000 7) ⟨home, 1001, 1001, []⟩
      unpricedRun.state.frame = .error absentValue :=
    resolve_price_panics 1 7 (by decide +kernel) (by decide +kernel)
  refine ⟨run, by decide +kernel, hpanic, fun hresolves => ?_⟩
  obtain ⟨result, hresult⟩ := hresolves.2 ⟨home, 1001, 1001, []⟩ 1000 7
  rw [hpanic] at hresult
  cases hresult

end Scenario

end Backit.OutcomeManager
