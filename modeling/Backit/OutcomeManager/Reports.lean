import Backit.OutcomeManager.Settings

/-!
# Prices and reports

## The median of observed prices

The manager sorts the prices by exchanges and takes the middle one, or the truncated mean of the
two middle ones. `exchange` is the inner loop of the sort, which carries the smaller of two prices
forward, and `exchangeSort` the outer loop.
-/

namespace Backit.OutcomeManager

open Soroban Contract Shared

/-- Compare the price at one position with all later ones, exchanging it with every smaller
price: the smallest price, and what is left behind. -/
def exchange : Int → List Int → Int × List Int
  | x, [] => (x, [])
  | x, y :: rest =>
    if y < x then
      let pass := exchange y rest
      (pass.1, x :: pass.2)
    else
      let pass := exchange x rest
      (pass.1, y :: pass.2)

/-- Sort the first `n` positions of a list. -/
def exchangeSort : Nat → List Int → List Int
  | 0, prices => prices
  | _ + 1, [] => []
  | n + 1, x :: rest =>
    let pass := exchange x rest
    pass.1 :: exchangeSort n pass.2

/-- `compute_median`: the even case adds the two middle prices, which can trap. -/
def computeMedian {σ ε : Type} (prices : List Int) : Contract σ ε Int := do
  let sorted := exchangeSort prices.length prices
  let n := sorted.length
  if n % 2 = 1 then
    unwrap sorted[n / 2]? .arithmetic
  else do
    let below ← unwrap sorted[n / 2 - 1]? .arithmetic
    let above ← unwrap sorted[n / 2]? .arithmetic
    let sum ← i128 (below + above)
    pure (sum.tdiv 2)

/-- An inner pass keeps the prices, and its result is the smallest of them. -/
theorem exchange_spec (x : Int) (rest : List Int) :
    ((exchange x rest).1 :: (exchange x rest).2).Perm (x :: rest) ∧
      (exchange x rest).1 ≤ x ∧ ∀ y ∈ (exchange x rest).2, (exchange x rest).1 ≤ y := by
  induction rest generalizing x with
  | nil => simp [exchange]
  | cons y rest ih =>
    unfold exchange
    split
    · next hlt =>
      obtain ⟨hperm, hle, hleast⟩ := ih y
      refine ⟨?_, hle.trans hlt.le, ?_⟩
      · exact (List.Perm.swap _ _ _).trans ((hperm.cons x).trans (by rfl))
      · intro z hz
        rcases List.mem_cons.mp hz with rfl | hz
        · exact hle.trans hlt.le
        · exact hleast z hz
    · next hlt =>
      obtain ⟨hperm, hle, hleast⟩ := ih x
      refine ⟨?_, hle, ?_⟩
      · exact (List.Perm.swap _ _ _).trans ((hperm.cons y).trans (.swap _ _ _))
      · intro z hz
        rcases List.mem_cons.mp hz with rfl | hz
        · exact hle.trans (not_lt.mp hlt)
        · exact hleast z hz

theorem exchange_sort_perm (n : Nat) (prices : List Int) : (exchangeSort n prices).Perm prices := by
  induction n generalizing prices with
  | zero => exact .refl _
  | succ n ih =>
    cases prices with
    | nil => exact .refl _
    | cons x rest => exact ((ih _).cons _).trans (exchange_spec x rest).1

theorem exchange_sort_sorted (n : Nat) (prices : List Int) (hn : prices.length ≤ n) :
    (exchangeSort n prices).Pairwise (· ≤ ·) := by
  induction n generalizing prices with
  | zero =>
    obtain rfl : prices = [] := List.length_eq_zero_iff.mp (by omega)
    exact .nil
  | succ n ih =>
    cases prices with
    | nil => exact .nil
    | cons x rest =>
      obtain ⟨hperm, -, hleast⟩ := exchange_spec x rest
      have hlength : (exchange x rest).2.length ≤ n := by
        have := hperm.length_eq
        simp only [List.length_cons] at this hn
        omega
      refine .cons (fun y hy => ?_) (ih _ hlength)
      exact hleast y ((exchange_sort_perm n _).mem_iff.mp hy)

/-- A median of prices: in some increasing arrangement of them it is the middle one, or the
truncated mean of the two middle ones. -/
def IsMedian (prices : List Int) (median : Int) : Prop :=
  ∃ sorted : List Int, sorted.Perm prices ∧ sorted.Pairwise (· ≤ ·) ∧
    if sorted.length % 2 = 1 then sorted[sorted.length / 2]? = some median
    else ∃ below above, sorted[sorted.length / 2 - 1]? = some below ∧
      sorted[sorted.length / 2]? = some above ∧ median = (below + above).tdiv 2

/-- A median has a price on each side. -/
theorem IsMedian.between {prices : List Int} {median : Int} (h : IsMedian prices median) :
    ∃ low ∈ prices, ∃ high ∈ prices, low ≤ median ∧ median ≤ high := by
  obtain ⟨sorted, hperm, -, hmiddle⟩ := h
  have hmem : ∀ {i price}, sorted[i]? = some price → price ∈ prices := fun hprice =>
    hperm.mem_iff.mp (List.mem_of_getElem? hprice)
  have hmean : ∀ {below above : Int}, below ≤ above →
      below ≤ (below + above).tdiv 2 ∧ (below + above).tdiv 2 ≤ above := by
    intro below above hle
    have hsign : Int.sign 2 = 1 := rfl
    rw [Int.tdiv_eq_ediv, hsign]
    split <;> omega
  split at hmiddle
  · exact ⟨median, hmem hmiddle, median, hmem hmiddle, le_rfl, le_rfl⟩
  · obtain ⟨below, above, hbelow, habove, rfl⟩ := hmiddle
    rcases le_total below above with hle | hle
    · exact ⟨below, hmem hbelow, above, hmem habove, hmean hle⟩
    · rw [add_comm]
      exact ⟨above, hmem habove, below, hmem hbelow, hmean hle⟩

theorem IsMedian.lower_bound {prices : List Int} {median bound : Int} (h : IsMedian prices median)
    (hbound : ∀ price ∈ prices, bound ≤ price) : bound ≤ median := by
  obtain ⟨low, hlow, -, -, hle, -⟩ := h.between
  exact (hbound low hlow).trans hle

theorem compute_median_is_median {σ ε : Type} {prices : List Int} {env : Env} {s s' : σ}
    {median : Int} (h : run (computeMedian prices : Contract σ ε Int) env s = .ok (median, s')) :
    IsMedian prices median ∧ s' = s := by
  have hperm := exchange_sort_perm prices.length prices
  have hsorted := exchange_sort_sorted prices.length prices le_rfl
  unfold computeMedian at h
  by_cases hodd : (exchangeSort prices.length prices).length % 2 = 1
  · simp only [hodd, if_true, run_unwrap] at h
    exact ⟨⟨_, hperm, hsorted, by rw [if_pos hodd]; exact h.1⟩, h.2⟩
  · simp only [hodd, if_false, run_steps] at h
    obtain ⟨below, hbelow, above, habove, -, rfl, rfl⟩ := h
    exact ⟨⟨_, hperm, hsorted, by rw [if_neg hodd]; exact ⟨_, _, hbelow, habove, rfl⟩⟩, rfl⟩

example : exchangeSort 4 [7, 3, 9, 3] = [3, 3, 7, 9] := by decide

section Median

variable {prices other : List Int}

/-- There is one price in the middle, or the sum of the two there is in the range. -/
def MiddleFits (prices : List Int) : Prop :=
  let sorted := prices.mergeSort
  sorted.length % 2 = 1 ∨
    ∃ below above, sorted[sorted.length / 2 - 1]? = some below ∧
      sorted[sorted.length / 2]? = some above ∧ InI128 (below + above)

/-- The prices in any order have this median, which is between the smallest and the largest. -/
def HasMedian (prices : List Int) : Prop :=
  ∃ median, (∀ (σ ε : Type) (env : Env) (s : σ) (other : List Int), other.Perm prices →
      run (computeMedian other : Contract σ ε Int) env s = .ok (median, s)) ∧
    IsMedian prices median ∧ (∃ price ∈ prices, price ≤ median) ∧ ∃ price ∈ prices, median ≤ price

theorem exchange_sort_eq (h : other.Perm prices) :
    exchangeSort other.length other = prices.mergeSort := by
  have hperm := (exchange_sort_perm other.length other).trans h
  have hsorted : prices.mergeSort.Pairwise (· ≤ ·) := by
    simpa using @List.pairwise_mergeSort _ (fun a b : Int => decide (a ≤ b))
      (fun a b c => by simpa using Int.le_trans) (fun a b => by simpa using Int.le_total a b) prices
  exact (hperm.trans (List.mergeSort_perm prices _).symm).eq_of_pairwise
    (fun a b _ _ => Int.le_antisymm) (exchange_sort_sorted _ _ le_rfl) hsorted

/-- The median is computed, and as it should be, unless there are two prices in the middle whose sum
leaves the range. -/
theorem compute_median_correct_iff : HasMedian prices ↔ MiddleFits prices := by
  constructor
  · rintro ⟨median, hrun, -⟩
    have h := hrun Unit Unit ⟨⟨0⟩, 0, 0, []⟩ () prices (.refl _)
    rw [computeMedian, exchange_sort_eq (.refl _)] at h
    by_cases hodd : prices.mergeSort.length % 2 = 1
    · exact .inl hodd
    · simp only [hodd, if_false, run_steps] at h
      obtain ⟨below, hbelow, above, habove, hfits, -⟩ := h
      exact .inr ⟨below, above, hbelow, habove, hfits⟩
  · intro h
    obtain ⟨median, hrun⟩ : ∃ median, ∀ (σ ε : Type) (env : Env) (s : σ) (other : List Int),
        other.Perm prices → run (computeMedian other : Contract σ ε Int) env s = .ok (median, s) := by
      by_cases hodd : prices.mergeSort.length % 2 = 1
      · have hlt : prices.mergeSort.length / 2 < prices.mergeSort.length := by omega
        obtain ⟨median, hmedian⟩ : ∃ median,
            prices.mergeSort[prices.mergeSort.length / 2]? = some median :=
          ⟨_, List.getElem?_eq_getElem hlt⟩
        refine ⟨median, fun σ ε env s other hother => ?_⟩
        simp only [computeMedian, exchange_sort_eq hother, hodd, if_true, run_unwrap]
        exact ⟨hmedian, trivial⟩
      · obtain ⟨below, above, hbelow, habove, hfits⟩ := h.resolve_left hodd
        refine ⟨(below + above).tdiv 2, fun σ ε env s other hother => ?_⟩
        simp only [computeMedian, exchange_sort_eq hother, hodd, if_false, run_steps]
        exact ⟨below, hbelow, above, habove, hfits, rfl, trivial⟩
    have hmedian := (compute_median_is_median (hrun Unit Unit ⟨⟨0⟩, 0, 0, []⟩ () prices (.refl _))).1
    obtain ⟨low, hlow, high, hhigh, hle, hge⟩ := hmedian.between
    exact ⟨median, hrun, hmedian, ⟨low, hlow, hle⟩, high, hhigh, hge⟩

/-- The sum of the two largest prices there can be overflows. -/
theorem large_median_overflows :
    (run (computeMedian [i128Max, i128Max] : Contract Unit Unit Int) ⟨⟨0⟩, 0, 0, []⟩ ()) =
        .error .arithmetic ∧ ¬ HasMedian [i128Max, i128Max] := by
  have hfails : run (computeMedian [i128Max, i128Max] : Contract Unit Unit Int) ⟨⟨0⟩, 0, 0, []⟩ () =
      .error .arithmetic := by decide +kernel
  refine ⟨hfails, ?_⟩
  rintro ⟨median, hrun, -⟩
  cases hfails.symm.trans (hrun Unit Unit _ () _ (.refl _))

end Median

/-!
## Reports of the oracles

Signed outcomes and the votes they count as, the observations of prices and of resolutions, and
the dispute window. Each operation changes the tally alone; the ones that decide a call also
resolve it in a registry.
-/

variable {R : Type} [Registries R] [Crypto] [Network]

/-- The message that the oracle of a report signs. -/
def SignedOutcome.message (signed : SignedOutcome) : Bytes :=
  buildMessage signed.callId signed.outcome signed.price signed.timestamp

/-- The digest that identifies a report on this deployment. -/
def replayDigest (contract : Address) (oracle : BytesN 32) (message : Bytes)
    (signature : BytesN 64) : BytesN 32 :=
  Crypto.sha256 (oracle.bytes ++ message ++ signature.bytes ++
    (Network.networkId : BytesN 32).bytes ++ Network.addressXdr contract)

/-- The digest of a report at the manager's address. -/
def SignedOutcome.digest (signed : SignedOutcome) (contract : Address) : BytesN 32 :=
  replayDigest contract signed.oraclePubkey signed.message signed.signature

/-- The hash under which the votes for a report's outcome are counted. -/
def SignedOutcome.hash (signed : SignedOutcome) : BytesN 32 := Crypto.sha256 signed.message

/-- The entry of a report in its call's list of votes. -/
def SignedOutcome.vote (signed : SignedOutcome) : OracleVote :=
  ⟨signed.oraclePubkey, signed.outcome, signed.price, signed.timestamp⟩

namespace Tally

/-- The votes counted for a hash on a call. -/
def votesFor (t : Tally) (hash : BytesN 32) (callId : Nat) : Nat :=
  (t.voteCount (hash, callId)).getD 0

/-- Enter a report: its digest, its oracle's submission, its vote, and the count it makes. -/
def recordVote (t : Tally) (signed : SignedOutcome) (contract : Address) (count : Nat) : Tally :=
  { t with
    processedDigest := Function.update t.processedDigest (signed.digest contract) true
    submission :=
      Function.update t.submission (signed.oraclePubkey, signed.callId) (some signed.hash)
    votes := Function.update t.votes signed.callId (t.votes signed.callId ++ [signed.vote])
    voteCount := Function.update t.voteCount (signed.hash, signed.callId) (some count) }

/-- Make an outcome of a call final. -/
def settle (t : Tally) (callId : Nat) (outcome : Outcome) (timestamp : Nat) : Tally :=
  { t with
    finalOutcome := Function.update t.finalOutcome callId (some outcome)
    settledAt := Function.update t.settledAt callId (some timestamp) }

/-- Add an observation of a price. -/
def addPrice (t : Tally) (callId : Nat) (observation : PriceObservation) : Tally :=
  { t with
    priceObservations := Function.update t.priceObservations callId
      (t.priceObservations callId ++ [observation]) }

/-- Add an observation of a resolution. -/
def addResolution (t : Tally) (callId : Nat) (observation : ResolutionObservation) : Tally :=
  { t with
    resolutionObservations := Function.update t.resolutionObservations callId
      (t.resolutionObservations callId ++ [observation]) }

end Tally

/-- Make an outcome final and resolve the call in a registry. -/
def finalize (registry : Address) (outcome : Outcome) : Manager R Unit := do
  let environment ← env
  modifyStore (·.onTally (·.settle outcome.callId outcome environment.timestamp))
  registryResolveCall registry outcome.callId outcome.outcome outcome.price
  announce (.outcomeFinalized outcome.callId outcome.outcome outcome.price)

def submitOutcome (registry : Address) (signed : SignedOutcome) (callEndTs : Nat) :
    Manager R Unit := do
  rejectIfPaused
  validateMarketRegistry registry signed.callId
  let oracles ← getOracles
  rejectIf (signed.oraclePubkey ∉ oracles) (.error .unauthorizedOracle)
  let s ← getStore
  rejectIf (s.tally.finalOutcome signed.callId ≠ none) (.error .alreadySettled)
  rejectIf (s.tally.submission (signed.oraclePubkey, signed.callId) ≠ none)
    (.error .duplicateSubmission)
  rejectIf (isValidOutcome signed.outcome = false) (.error .invalidOutcome)
  let deadline ← unwrap (checkedAddU64 callEndTs s.settings.maxSubmissionDelay) (.error .overflow)
  rejectIf (deadline < signed.timestamp) (.error .submissionWindowExpired)
  ed25519Verify signed.oraclePubkey signed.message signed.signature
  let environment ← env
  -- The digest outlives the submission entry, so a signature is accepted once and for all.
  rejectIf (s.tally.processedDigest (signed.digest environment.contract) = true)
    (.error .replayedSubmission)
  let votes ← unsigned 32 (s.tally.votesFor signed.hash signed.callId + 1)
  modifyStore (·.onTally (·.recordVote signed environment.contract votes))
  announce (.outcomeSubmitted signed.callId signed.oraclePubkey signed.outcome)
  let quorum ← getQuorum
  if quorum ≤ votes then finalize registry signed.stated else pure ()

/-- The market of a call, from the configured factory. -/
def resolveMarketAddress (callId : Nat) : Manager R Address := do
  let factory ← unwrap (← getStore).settings.factory (.error .factoryNotSet)
  factoryGetMarket factory callId

def submitOutcomeForMarket (signed : SignedOutcome) (callEndTs : Nat) : Manager R Unit := do
  let registry ← resolveMarketAddress signed.callId
  submitOutcome registry signed callEndTs

/-- The message that an oracle signs for an observation of a price. -/
def observationMessage (callId : Nat) (observation : PriceObservation) : Bytes :=
  ascii ['t', 'w', 'a', 'p', '_', 'o', 'b', 's', ':'] ++ beBytes 8 callId ++
    i128Bytes observation.price ++ beBytes 8 observation.timestamp

def submitPriceObservation (callId callEndTs : Nat) (observation : PriceObservation)
    (oraclePubkey : BytesN 32) (signature : BytesN 64) : Manager R Unit := do
  let oracles ← getOracles
  rejectIf (oraclePubkey ∉ oracles) (.error .unauthorizedOracle)
  ed25519Verify oraclePubkey (observationMessage callId observation) signature
  let s ← getStore
  rejectIf (observation.timestamp < callEndTs - s.settings.twapWindowSecs ∨
      callEndTs < observation.timestamp) (.error .observationOutsideWindow)
  rejectIf (∃ last ∈ (s.tally.priceObservations callId).getLast?,
      observation.timestamp ≤ last.timestamp) (.error .observationOutOfOrder)
  modifyStore (·.onTally (·.addPrice callId observation))
  announce (.priceObservationSubmitted callId oraclePubkey observation.price observation.timestamp)

/-- Whether observations suffice to decide: there are enough of them, and the ledger sequences
that the first and the last of them state are far enough apart. -/
def confirmed (s : Settings) (observations : List ResolutionObservation) : Bool :=
  match observations.head?, observations.getLast? with
  | some first, some last =>
    decide (s.resolutionConfirmations ≤ observations.length) &&
      decide (s.resolutionMinBlocks ≤ last.ledgerSequence - first.ledgerSequence)
  | _, _ => false

def submitResolutionObservation (callId : Nat) (observation : ResolutionObservation)
    (_signature : BytesN 64) : Manager R Unit := do
  let oracles ← getOracles
  rejectIf (observation.oracle ∉ oracles) (.error .unauthorizedOracle)
  let s ← getStore
  rejectIf (s.tally.finalOutcome callId ≠ none) (.error .alreadySettled)
  rejectIf (∃ existing ∈ s.tally.resolutionObservations callId,
      existing.oracle = observation.oracle) (.error .duplicateOracleObservation)
  modifyStore (·.onTally (·.addResolution callId observation))
  let observations := s.tally.resolutionObservations callId ++ [observation]
  if confirmed s.settings observations = true then do
    let price ← computeMedian (observations.map (·.price))
    let registry ← unwrap s.settings.registry (.error .registryNotSet)
    finalize registry ⟨callId, outcomeUp, price, observation.timestamp⟩
  else pure ()

/-- Whether the dispute window that started at `windowStart` has closed; the end of the window can
overflow. -/
def windowEnd (windowStart : Nat) : Manager R Nat := do
  unsigned 64 (windowStart + (← getStore).settings.disputeWindow)

def finalizeOutcome (callId : Nat) : Manager R Unit := do
  let s ← getStore
  let pending ← unwrap (s.tally.pendingOutcome callId) (.error .callNotFinalized)
  let windowStart ← unwrap (s.tally.disputeWindowStart callId) (.error .callNotFinalized)
  let closes ← windowEnd windowStart
  let environment ← env
  rejectIf (environment.timestamp < closes) (.error .callNotFinalized)
  modifyStore (·.onTally (·.settle callId pending environment.timestamp))
  let registry ← unwrap s.settings.registry (.error .registryNotSet)
  registryResolveCall registry pending.callId pending.outcome pending.price
  announce (.outcomeFinalized callId pending.outcome pending.price)

def disputeOutcome (callId newOutcome : Nat) (newPrice : Int) : Manager R Unit := do
  requireAdmin
  let s ← getStore
  let pending ← unwrap (s.tally.pendingOutcome callId) (.error .callNotFinalized)
  let windowStart ← unwrap (s.tally.disputeWindowStart callId) (.error .callNotFinalized)
  let closes ← windowEnd windowStart
  let environment ← env
  rejectIf (closes ≤ environment.timestamp) (.error .disputeWindowExpired)
  rejectIf (isValidOutcome newOutcome = false) (.error .invalidOutcome)
  modifyStore (·.onTally fun t => { t with
    pendingOutcome := Function.update t.pendingOutcome callId
      (some { pending with outcome := newOutcome, price := newPrice }) })
  announce (.outcomeDisputed callId newOutcome newPrice)

/-- The operations on the tally. -/
inductive ReportOp where
  | submitOutcome (registry : Address) (signed : SignedOutcome) (callEndTs : Nat)
  | submitOutcomeForMarket (signed : SignedOutcome) (callEndTs : Nat)
  | submitPriceObservation (callId callEndTs : Nat) (observation : PriceObservation)
      (oraclePubkey : BytesN 32) (signature : BytesN 64)
  | submitResolutionObservation (callId : Nat) (observation : ResolutionObservation)
      (signature : BytesN 64)
  | finalizeOutcome (callId : Nat)
  | disputeOutcome (callId newOutcome : Nat) (newPrice : Int)
  deriving DecidableEq

/-- Run an operation on the tally. -/
def ReportOp.perform : ReportOp → Manager R Unit
  | .submitOutcome registry signed callEndTs =>
    OutcomeManager.submitOutcome registry signed callEndTs
  | .submitOutcomeForMarket signed callEndTs =>
    OutcomeManager.submitOutcomeForMarket signed callEndTs
  | .submitPriceObservation callId callEndTs observation oraclePubkey signature =>
    OutcomeManager.submitPriceObservation callId callEndTs observation oraclePubkey signature
  | .submitResolutionObservation callId observation signature =>
    OutcomeManager.submitResolutionObservation callId observation signature
  | .finalizeOutcome callId => OutcomeManager.finalizeOutcome callId
  | .disputeOutcome callId newOutcome newPrice =>
    OutcomeManager.disputeOutcome callId newOutcome newPrice

end Backit.OutcomeManager
