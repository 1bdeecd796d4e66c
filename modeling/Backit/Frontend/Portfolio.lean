import Backit.Lib.JsText
import Backit.OutcomeManager.BalanceIds

/-!
# The portfolio's payouts

The portfolio computes a payout for each stake of a wallet on its own, from the pools of the call;
the manager pays the wallet's whole stake from the losing pool after the fee. When the ledger of
payouts has a row of the call with a positive amount, every winning stake on the call shows that
amount. So the payouts shown sum to the payout released, up to a stroop a stake, when there is no
such row and the fee on the stakes fits in what the floors leave, or when as many times the row's
amount as there are stakes does.
-/

namespace Backit.Frontend

open Lib

section Amounts

/-- The numbers of a payload, as far as an amount depends on them. -/
class JsNumbers (N : Type) where
  isFinite : N → Bool
  toFixed : N → Nat → String

/-- A value where the payload has an amount; `other` is neither a text nor a number. -/
inductive ApiAmount (N : Type) where
  | text (value : String)
  | number (value : N)
  | missing
  | other
  deriving DecidableEq

def assetDecimals : Nat := 7

def scale : Nat := 10000000

/-- The text without its sign. -/
def withoutSign (text : List Char) : List Char := if text.head? = some '-' then text.tail else text

/-- `DECIMAL_PATTERN`: an optional sign, digits, and possibly a point and digits. -/
def isDecimal (text : List Char) : Bool :=
  let rest := (withoutSign text).dropWhile isAsciiDigit
  !((withoutSign text).takeWhile isAsciiDigit).isEmpty &&
    (rest.isEmpty || rest.head? == some '.' && !rest.tail.isEmpty && rest.tail.all isAsciiDigit)

def digitsValue (digits : List Char) : Nat :=
  digits.foldl (fun value d => 10 * value + (d.toNat - 48)) 0

/-- The stroops of a decimal text; digits beyond the seventh decimal are dropped. -/
def toStroops (value : String) : Option Int :=
  let trimmed := trimText value.toList
  if isDecimal trimmed then
    let whole := (withoutSign trimmed).takeWhile (· ≠ '.')
    let fraction := ((withoutSign trimmed).dropWhile (· ≠ '.')).drop 1
    let padded := (fraction ++ List.replicate assetDecimals '0').take assetDecimals
    let stroops : Int := (digitsValue whole * scale + digitsValue padded : Nat)
    some (if trimmed.head? = some '-' then -stroops else stroops)
  else none

variable {N : Type} [JsNumbers N]

def amountFromApi : ApiAmount N → Option Int
  | .text value => toStroops value
  | .number value =>
    if JsNumbers.isFinite value then toStroops (JsNumbers.toFixed value assetDecimals) else none
  | .missing => some 0
  | .other => none

/-- A missing amount stays missing. -/
def optionalAmountFromApi (value : ApiAmount N) : Option (Option Int) :=
  match value with
  | .missing => some none
  | present => (amountFromApi present).map some

omit [JsNumbers N] in
/-- A default for a missing amount. -/
def ApiAmount.getD (value : ApiAmount N) (default : String) : ApiAmount N :=
  match value with
  | .missing => .text default
  | present => present

end Amounts

inductive StakePosition where
  | yes
  | no
  deriving DecidableEq

inductive CallOutcome where
  | yes
  | no
  | pending
  deriving DecidableEq

inductive ResolutionStatus where
  | pending
  | resolved
  deriving DecidableEq

inductive PortfolioStakeStatus where
  | active
  | lost
  | claimable
  | claimPending
  | claimed
  deriving DecidableEq

inductive PayoutClaimStatus where
  | pending
  | claimed
  | failed
  deriving DecidableEq

/-- The outcome under which a position wins. -/
def StakePosition.outcome : StakePosition → CallOutcome
  | .yes => .yes
  | .no => .no

structure CallDto (N : Type) where
  id : String
  title : String
  description : String
  outcome : CallOutcome
  resolvedAt : Option String
  expiresAt : Option String
  createdAt : String
  contractAddress : Option String
  totalYesStake : ApiAmount N
  totalNoStake : ApiAmount N
  deriving DecidableEq

/-- A row of the stake ledger, with its call. -/
structure UserStakeDto (N : Type) where
  id : String
  callId : String
  userAddress : String
  amount : ApiAmount N
  position : StakePosition
  profitLoss : ApiAmount N
  transactionHash : Option String
  createdAt : String
  updatedAt : String
  resolutionStatus : ResolutionStatus
  call : Option (CallDto N)
  deriving DecidableEq

/-- The answer of the stake ledger; the interface has a default for each of its parts. -/
structure UserStakesResponseDto (N : Type) where
  data : Option (List (UserStakeDto N))
  total : Option Nat
  page : Option Nat
  limit : Option Nat
  deriving DecidableEq

/-- A row of the ledger of payouts. -/
structure PayoutClaimDto (N : Type) where
  id : String
  callId : String
  stakerAddress : String
  amount : ApiAmount N
  txHash : Option String
  claimedAt : Option String
  status : PayoutClaimStatus
  createdAt : String
  updatedAt : String
  deriving DecidableEq

structure PortfolioCall where
  id : String
  title : String
  description : String
  outcome : CallOutcome
  resolvedAt : Option String
  expiresAt : Option String
  createdAt : String
  contractAddress : Option String
  totalYesStroops : Int
  totalNoStroops : Int
  deriving DecidableEq

structure PortfolioStake where
  id : String
  callId : String
  userAddress : String
  position : StakePosition
  amountStroops : Int
  profitLossStroops : Option Int
  payoutStroops : Option Int
  transactionHash : Option String
  createdAt : String
  updatedAt : String
  status : PortfolioStakeStatus
  claimTxHash : Option String
  claimedAt : Option String
  call : PortfolioCall
  deriving DecidableEq

structure Portfolio where
  stakes : List PortfolioStake
  total : Nat
  page : Nat
  limit : Nat
  payoutsUnavailable : Bool
  deriving DecidableEq

/-- The parimutuel payout of a winning stake, truncated to a stroop. -/
def calculatePayoutStroops (stakeStroops winningSideStroops losingSideStroops : Int) : Int :=
  if winningSideStroops ≤ 0 then stakeStroops
  else (stakeStroops * (winningSideStroops + losingSideStroops)).tdiv winningSideStroops

section Interface

variable {N : Type} [JsNumbers N]

namespace UserStakeDto

omit [JsNumbers N]

def outcome (dto : UserStakeDto N) : CallOutcome := (dto.call.map (·.outcome)).getD .pending

def isResolved (dto : UserStakeDto N) : Bool :=
  dto.resolutionStatus = .resolved && dto.outcome ≠ .pending

def won (dto : UserStakeDto N) : Bool := dto.isResolved && dto.outcome = dto.position.outcome

def totalYes (dto : UserStakeDto N) : ApiAmount N :=
  (dto.call.elim .missing CallDto.totalYesStake).getD "0"

def totalNo (dto : UserStakeDto N) : ApiAmount N :=
  (dto.call.elim .missing CallDto.totalNoStake).getD "0"

/-- The pool that the stake is in, and the other one. -/
def winningSide (dto : UserStakeDto N) : ApiAmount N :=
  match dto.position with
  | .yes => dto.totalYes
  | .no => dto.totalNo

def losingSide (dto : UserStakeDto N) : ApiAmount N :=
  match dto.position with
  | .yes => dto.totalNo
  | .no => dto.totalYes

end UserStakeDto

def stakeStatus (dto : UserStakeDto N) (claim : Option (PayoutClaimDto N))
    (payoutsUnavailable : Bool) : PortfolioStakeStatus :=
  if !dto.isResolved then .active
  else if !dto.won then .lost
  else if !payoutsUnavailable && claim.any (·.status = .claimed) then .claimed
  else if !payoutsUnavailable &&
      claim.any (fun c => c.status = .pending && c.txHash.any (· ≠ "")) then .claimPending
  else .claimable

/-- The amount of a row of the payouts, if there is a row and it has one; no result is an amount
that cannot be read. -/
def claimAmount (claim : Option (PayoutClaimDto N)) : Option (Option Int) :=
  match claim with
  | some c => optionalAmountFromApi c.amount
  | none => some none

/-- The payout of a winning stake: the amount of the claim if it is positive. -/
def payoutOf (claimed : Option Int) (amountStroops winningSide losingSide : Int) : Int :=
  match claimed with
  | some amount =>
    if 0 < amount then amount else calculatePayoutStroops amountStroops winningSide losingSide
  | none => calculatePayoutStroops amountStroops winningSide losingSide

def normaliseStake (dto : UserStakeDto N) (claim : Option (PayoutClaimDto N))
    (payoutsUnavailable : Bool) : Option PortfolioStake := do
  let amountStroops ← amountFromApi dto.amount
  let totalYesStroops ← amountFromApi dto.totalYes
  let totalNoStroops ← amountFromApi dto.totalNo
  let claimed ← claimAmount claim
  let profitLossStroops ← optionalAmountFromApi dto.profitLoss
  pure
    { id := dto.id
      callId := dto.callId
      userAddress := dto.userAddress
      position := dto.position
      amountStroops
      profitLossStroops
      payoutStroops :=
        if dto.won then
          some (match dto.position with
            | .yes => payoutOf claimed amountStroops totalYesStroops totalNoStroops
            | .no => payoutOf claimed amountStroops totalNoStroops totalYesStroops)
        else none
      transactionHash := dto.transactionHash
      createdAt := dto.createdAt
      updatedAt := dto.updatedAt
      status := stakeStatus dto claim payoutsUnavailable
      claimTxHash := claim.bind (·.txHash)
      claimedAt := claim.bind (·.claimedAt)
      call :=
        { id := (dto.call.map (·.id)).getD dto.callId
          title := (dto.call.map (·.title)).getD "Unknown market"
          description := (dto.call.map (·.description)).getD ""
          outcome := dto.outcome
          resolvedAt := dto.call.bind (·.resolvedAt)
          expiresAt := dto.call.bind (·.expiresAt)
          createdAt := (dto.call.map (·.createdAt)).getD dto.createdAt
          contractAddress := dto.call.bind (·.contractAddress)
          totalYesStroops
          totalNoStroops } }

omit [JsNumbers N] in
/-- The rows of the payouts by call; the last row of a call stays. -/
def claimsByCallId (rows : List (PayoutClaimDto N)) : String → Option (PayoutClaimDto N) :=
  rows.foldl (fun claims claim => Function.update claims claim.callId (some claim)) fun _ => none

omit [JsNumbers N] in
/-- The rows of an answer of the stake ledger. -/
def stakeRows (response : Option (UserStakesResponseDto N)) : List (UserStakeDto N) :=
  (response.bind (·.data)).getD []

/-- The portfolio from the answers of the two ledgers; payouts that could not be read are no
obstacle, an amount that cannot be read is. -/
def fetchPortfolio (page limit : Nat) (stakesResponse : Option (UserStakesResponseDto N))
    (payouts : Option (List (PayoutClaimDto N))) : Option Portfolio := do
  let claims := claimsByCallId (payouts.getD [])
  let stakes ← (stakeRows stakesResponse).mapM fun stake =>
    normaliseStake stake (claims stake.callId) payouts.isNone
  pure
    { stakes
      total := (stakesResponse.bind (·.total)).getD 0
      page := (stakesResponse.bind (·.page)).getD page
      limit := (stakesResponse.bind (·.limit)).getD limit
      payoutsUnavailable := payouts.isNone }

section Shown

/-- The portfolios of some pages of the stake ledger, with the ledger of payouts. -/
def Fetched (payouts : Option (List (PayoutClaimDto N)))
    (responses : List (Option (UserStakesResponseDto N))) (portfolios : List Portfolio) : Prop :=
  List.Forall₂ (fun response portfolio => ∃ page limit,
    fetchPortfolio page limit response payouts = some portfolio) responses portfolios

omit [JsNumbers N] in
/-- The winning stakes of a call. -/
def winningRows (callId : String) (rows : List (UserStakeDto N)) : List (UserStakeDto N) :=
  rows.filter fun row => row.callId = callId && row.won

/-- The row records a stake and the pools of its call. -/
structure RecordsStake (winning losing : Int) (row : UserStakeDto N) (stake : Int) : Prop where
  amount : amountFromApi row.amount = some stake
  winningSide : amountFromApi row.winningSide = some winning
  losingSide : amountFromApi row.losingSide = some losing

/-- The payouts that are shown for stakes on a call. -/
def shownPayouts (callId : String) (stakes : List PortfolioStake) : List Int :=
  (stakes.filter (·.callId = callId)).filterMap (·.payoutStroops)

/-- The positive amount of the row of a call in the ledger of payouts. -/
def claimedAmount (payouts : Option (List (PayoutClaimDto N))) (callId : String) : Option Int :=
  ((claimAmount (claimsByCallId (payouts.getD []) callId)).getD none).filter (0 < ·)

theorem payout_of_eq (claimed : Option Int) (stake winning losing : Int) :
    payoutOf claimed stake winning losing =
      (claimed.filter (0 < ·)).getD (calculatePayoutStroops stake winning losing) := by
  cases claimed with
  | none => rfl
  | some amount => by_cases hpos : 0 < amount <;> simp [payoutOf, Option.filter, hpos]

variable {payouts : Option (List (PayoutClaimDto N))} {callId : String} {winning losing : Int}

/-- A winning stake shows the positive amount of its claim, or else its payout. -/
theorem normalise_payout (winning losing : Int) {row : UserStakeDto N} {claim : Option (PayoutClaimDto N)}
    {unavailable : Bool} {shown : PortfolioStake}
    (h : normaliseStake row claim unavailable = some shown) :
    shown.callId = row.callId ∧ (row.won = false → shown.payoutStroops = none) ∧
      ∀ stake, row.won = true → RecordsStake winning losing row stake →
        shown.payoutStroops =
          some ((((claimAmount claim).getD none).filter (0 < ·)).getD
            (calculatePayoutStroops stake winning losing)) := by
  simp only [normaliseStake, Option.bind_eq_bind, Option.bind_eq_some_iff] at h
  obtain ⟨amount, hamount, yes, hyes, no, hno, claimed, hclaimed, profit, -, h⟩ := h
  obtain rfl := Option.some.inj h
  refine ⟨rfl, fun hlost => ?_, fun stake hwon hrecords => ?_⟩
  · simp [hlost]
  · obtain ⟨hstake, hwinning, hlosing⟩ := hrecords
    obtain rfl := Option.some.inj (hamount.symm.trans hstake)
    simp only [hwon, if_true, hclaimed, Option.getD_some, Option.some.injEq]
    unfold UserStakeDto.winningSide at hwinning
    unfold UserStakeDto.losingSide at hlosing
    cases hposition : row.position with
    | yes =>
      simp only [hposition] at hwinning hlosing
      obtain rfl := Option.some.inj (hyes.symm.trans hwinning)
      obtain rfl := Option.some.inj (hno.symm.trans hlosing)
      exact payout_of_eq _ _ _ _
    | no =>
      simp only [hposition] at hwinning hlosing
      obtain rfl := Option.some.inj (hno.symm.trans hwinning)
      obtain rfl := Option.some.inj (hyes.symm.trans hlosing)
      exact payout_of_eq _ _ _ _

theorem shown_of_rows {rows : List (UserStakeDto N)} {shown : List PortfolioStake}
    {unavailable : Bool} {stakes : List Int} (h : rows.mapM (fun row => normaliseStake row
      (claimsByCallId (payouts.getD []) row.callId) unavailable) = some shown)
    (hrows : List.Forall₂ (RecordsStake winning losing) (winningRows callId rows) stakes) :
    shownPayouts callId shown = stakes.map fun stake =>
      (claimedAmount payouts callId).getD (calculatePayoutStroops stake winning losing) := by
  induction rows generalizing shown stakes with
  | nil =>
    cases h
    cases hrows
    rfl
  | cons row rest ih =>
    simp only [List.mapM_cons, Option.bind_eq_bind, Option.bind_eq_some_iff] at h
    obtain ⟨first, hfirst, others, hothers, h⟩ := h
    obtain rfl := Option.some.inj h
    obtain ⟨hid, hlost, hwins⟩ := normalise_payout winning losing hfirst
    unfold winningRows at hrows
    by_cases hcall : row.callId = callId
    · cases hwon : row.won with
      | false =>
        rw [List.filter_cons_of_neg (by simp [hwon])] at hrows
        rw [← ih hothers hrows]
        simp [shownPayouts, hid, hcall, hlost hwon]
      | true =>
        rw [List.filter_cons_of_pos (by simp [hcall, hwon])] at hrows
        cases hrows with
        | cons hrecords hrest =>
          have hpayout := hwins _ hwon hrecords
          rw [hcall] at hpayout
          simp only [List.map_cons, ← ih hothers hrest]
          simp [shownPayouts, hid, hcall, hpayout, claimedAmount]
    · rw [List.filter_cons_of_neg (by simp [hcall])] at hrows
      rw [← ih hothers hrows]
      simp [shownPayouts, hid, hcall]

/-- The pages together are the portfolio of all their rows. -/
theorem Fetched.rows {responses : List (Option (UserStakesResponseDto N))}
    {portfolios : List Portfolio} (h : Fetched payouts responses portfolios) :
    (responses.flatMap stakeRows).mapM (fun row => normaliseStake row
      (claimsByCallId (payouts.getD []) row.callId) payouts.isNone) =
        some (portfolios.flatMap (·.stakes)) := by
  induction h with
  | nil => rfl
  | cons hpage _ ih =>
    obtain ⟨page, limit, hpage⟩ := hpage
    simp only [fetchPortfolio, Option.bind_eq_bind, Option.bind_eq_some_iff] at hpage
    obtain ⟨stakes, hstakes, hportfolio⟩ := hpage
    obtain rfl := Option.some.inj hportfolio
    simp only [List.flatMap_cons, List.mapM_append, hstakes, ih]
    rfl

end Shown

section Released

open Soroban Contract OutcomeManager

/-- The payout of a stake with its share of the whole losing pool. -/
theorem calculate_payout_eq {stake winning losing : Int} (hstake : 0 ≤ stake)
    (hwinning : 0 < winning) (hlosing : 0 ≤ losing) :
    calculatePayoutStroops stake winning losing = stake + proRata losing winning stake := by
  have hpool : 0 ≤ stake * (winning + losing) := mul_nonneg hstake (by omega)
  rw [calculatePayoutStroops, if_neg (by omega), Int.tdiv_eq_ediv_of_nonneg hpool, mul_add,
    Int.add_ediv_of_dvd_left (Dvd.intro_left stake rfl), Int.mul_ediv_cancel _ hwinning.ne',
    proRata]

/-- Without a positive amount in the ledger of payouts, the fee on the stakes fits in a stroop a
stake and what the floors leave; with one, as many times the amount as there are stakes is the
payout up to a stroop a stake. -/
def FitsRounding (claimed : Option Int) (stakes : List Int) (winning losing : Int)
    (feeBps : Nat) : Prop :=
  match claimed with
  | none => stakes.sum * totalFee losing feeBps ≤
      stakes.length * winning + (stakes.map fun stake => stake * losing % winning).sum
  | some amount =>
    |stakes.length * amount - payout losing feeBps winning stakes.sum| ≤ stakes.length

instance (claimed : Option Int) (stakes : List Int) (winning losing : Int) (feeBps : Nat) :
    Decidable (FitsRounding claimed stakes winning losing feeBps) :=
  match claimed with
  | none => inferInstanceAs (Decidable (_ ≤ _))
  | some _ => inferInstanceAs (Decidable (_ ≤ _))

/-- The payouts of the stakes are the payout of their sum up to a stroop a stake exactly when they
fit. -/
theorem sum_shown_iff {claimed : Option Int} {stakes : List Int} {winning losing : Int}
    {feeBps : Nat} (hstakes : ∀ stake ∈ stakes, 0 ≤ stake) (hwinning : 0 < winning)
    (hlosing : 0 ≤ losing) :
    |(stakes.map fun stake => claimed.getD (calculatePayoutStroops stake winning losing)).sum -
        payout losing feeBps winning stakes.sum| ≤ stakes.length ↔
      FitsRounding claimed stakes winning losing feeBps := by
  cases claimed with
  | some amount =>
    simp only [Option.getD_some, List.map_const', List.sum_replicate, nsmul_eq_mul]
    rfl
  | none =>
    have hshown : stakes.map (fun stake =>
        Option.getD none (calculatePayoutStroops stake winning losing)) =
          stakes.map fun stake => stake + proRata losing winning stake :=
      List.map_congr_left fun stake hmem =>
        calculate_payout_eq (hstakes stake hmem) hwinning hlosing
    have hsum : 0 ≤ stakes.sum := List.sum_nonneg hstakes
    have hfee := total_fee_nonneg feeBps hlosing
    have habove : proRata (losing - totalFee losing feeBps) winning stakes.sum ≤
        (stakes.map (proRata losing winning)).sum + stakes.length :=
      proRata_sum_le hwinning stakes hsum hfee
    have hbelow : (stakes.map (proRata losing winning)).sum - stakes.length ≤
        proRata (losing - totalFee losing feeBps) winning stakes.sum ↔ _ :=
      sum_proRata_sub_le_iff (totalFee losing feeBps) stakes.length hwinning stakes
    rw [hshown, List.sum_map_add, List.map_id', FitsRounding, ← hbelow, abs_sub_le_iff, payout]
    omega

variable {R : Type} [Registries R] [Crypto] [Network] {env : Env}
  {f f' : Frame Storage R Act} {u : Unit} {registry staker : Address} {callId : Nat}
  {stake winning losing : Int}

omit [JsNumbers N] in
/-- A claim that succeeds releases its quote to the staker. -/
theorem claim_payout_releases
    (h : run (claimPayout registry callId staker stake winning losing : Manager R Unit) env f =
      .ok (u, f')) :
    ∃ collector share amount, Quoted f.store.settings stake winning losing share amount ∧
      f'.effects = claimEffects registry callId collector
        ⟨staker, staker, stake, share, amount⟩ ++ f.effects := by
  obtain ⟨payments, effects, p', others, hstep, rfl⟩ := claim_payout_steps .direct h
  cases hstep with
  | @claimPayout _ _ _ _ _ _ _ x collector _ _ hfrom _ _ hpayee _ hpaid _ =>
    obtain ⟨winner, payee, claimed, share, amount⟩ := x
    cases hfrom
    obtain rfl : payee = winner := hpayee
    exact ⟨collector, share, amount, hpaid.quoted _ (.head _), rfl⟩
  | batch hbatch => cases hbatch

/-- The portfolio shows for the winning stakes of a wallet on a call what the manager releases for
their sum, up to a stroop a stake, exactly when they fit. -/
theorem shown_payout_iff {payouts : Option (List (PayoutClaimDto N))}
    {responses : List (Option (UserStakesResponseDto N))} {portfolios : List Portfolio}
    {id : String} {stakes : List Int} (hfetched : Fetched payouts responses portfolios)
    (hrows : List.Forall₂ (RecordsStake winning losing)
      (winningRows id (responses.flatMap stakeRows)) stakes)
    (hstakes : ∀ stake ∈ stakes, 0 ≤ stake) (hlosing : 0 ≤ losing)
    (hfee : f.store.settings.feeBps ≤ Shared.maxFeeBps)
    (hclaim : run (claimPayout registry callId staker stakes.sum winning losing : Manager R Unit)
      env f = .ok (u, f')) :
    ∃ collector share released, f'.effects = claimEffects registry callId collector
        ⟨staker, staker, stakes.sum, share, released⟩ ++ f.effects ∧
      (|(shownPayouts id (portfolios.flatMap (·.stakes))).sum - released| ≤ stakes.length ↔
        FitsRounding (claimedAmount payouts id) stakes winning losing
          f.store.settings.feeBps) := by
  obtain ⟨collector, share, released, hquoted, heffects⟩ := claim_payout_releases hclaim
  obtain ⟨-, rfl⟩ := hquoted.exact hfee hlosing
  refine ⟨collector, share, _, heffects, ?_⟩
  rw [shown_of_rows hfetched.rows hrows]
  exact sum_shown_iff hstakes hquoted.winning_pos hlosing

end Released

end Interface

section Scenario

open Soroban Contract OutcomeManager

abbrev wholeNumbers : JsNumbers Nat where
  isFinite _ := true
  toFixed n digits := n.repr ++ "." ++ String.ofList (List.replicate digits '0')

attribute [local instance] wholeNumbers scenarioCrypto testNetwork

/-- Both oracles have reported call 1, at a fee of one percent. -/
def reportedRun :
    System.Replayed (manager home fun _ (_ : WillingRegistries) => False) (World.next home)
      System.anything :=
  .of freshWorld fresh_world_initial (decidedThen []) (by decide +kernel)

/-- The first staker's claim. -/
def claimOf (stake winning losing : Int) :
    Except (Failure OutcomeError) (Unit × Frame Storage WillingRegistries Act) :=
  run (claimPayout marketAddress 1 ⟨1⟩ stake winning losing) ⟨home, 2000, 2000, [⟨1⟩]⟩
    ⟨reportedRun.state.store, reportedRun.state.others, []⟩

/-- A stake on the outcome of a resolved call. -/
def wonRow (amount winning losing : String) : UserStakeDto Nat where
  id := "stake-1"
  callId := "call-1"
  userAddress := "GSTAKER"
  amount := .text amount
  position := .yes
  profitLoss := .missing
  transactionHash := some "tx-1"
  createdAt := "2030-01-01T00:00:00.000Z"
  updatedAt := "2030-01-02T00:00:00.000Z"
  resolutionStatus := .resolved
  call := some
    { id := "call-1"
      title := "BTC over 50k"
      description := "desc"
      outcome := .yes
      resolvedAt := some "2030-02-02T00:00:00.000Z"
      expiresAt := some "2030-02-01T00:00:00.000Z"
      createdAt := "2030-01-01T00:00:00.000Z"
      contractAddress := some "CCONTRACT"
      totalYesStake := .text winning
      totalNoStake := .text losing }

def claimRow (amount : String) : PayoutClaimDto Nat where
  id := "payout-1"
  callId := "call-1"
  stakerAddress := "GSTAKER"
  amount := .text amount
  txHash := some "claim-tx"
  claimedAt := some "2030-02-03T00:00:00.000Z"
  status := .claimed
  createdAt := "2030-02-03T00:00:00.000Z"
  updatedAt := "2030-02-03T00:00:00.000Z"

def onePage (rows : List (UserStakeDto Nat)) : Option (UserStakesResponseDto Nat) :=
  some ⟨some rows, some rows.length, some 1, some 50⟩

theorem claimOf_ok (stake winning losing : Int) (h : (claimOf stake winning losing).isOk = true) :
    ∃ f', claimOf stake winning losing = .ok ((), f') := by
  cases hclaim : claimOf stake winning losing with
  | ok r => exact ⟨r.2, rfl⟩
  | error e =>
    rw [hclaim] at h
    cases h

/-- The rows of one page with their payouts. -/
def shows (rows : List (UserStakeDto Nat)) (payouts : List (PayoutClaimDto Nat)) : Option Int :=
  (fetchPortfolio 1 50 (onePage rows) (some payouts)).map fun portfolio =>
    (shownPayouts "call-1" portfolio.stakes).sum

/-- A stake of 100 stroops in pools of 20000 and 10000 shows 150 stroops and is paid 149. -/
theorem small_stake_shown :
    ∃ portfolio collector share released f',
      fetchPortfolio 1 50 (onePage [wonRow "0.0000100" "0.0020000" "0.0010000"]) (some []) =
          some portfolio ∧
        claimOf 100 20000 10000 = .ok ((), f') ∧
        f'.effects = claimEffects marketAddress 1 collector ⟨⟨1⟩, ⟨1⟩, 100, share, released⟩ ∧
        |(shownPayouts "call-1" portfolio.stakes).sum - released| ≤ 1 := by
  have hshown : shows [wonRow "0.0000100" "0.0020000" "0.0010000"] [] = some 150 := by
    decide +kernel
  obtain ⟨portfolio, hportfolio, -⟩ := Option.map_eq_some_iff.mp hshown
  obtain ⟨f', hclaim⟩ := claimOf_ok 100 20000 10000 (by decide +kernel)
  have hrows : List.Forall₂ (RecordsStake 20000 10000)
      (winningRows "call-1"
        ([onePage [wonRow "0.0000100" "0.0020000" "0.0010000"]].flatMap stakeRows)) [100] :=
    .cons ⟨by decide +kernel, by decide +kernel, by decide +kernel⟩ .nil
  obtain ⟨collector, share, released, heffects, hiff⟩ := shown_payout_iff
    (.cons ⟨1, 50, hportfolio⟩ .nil) hrows (by simp) (by simp) (by decide +kernel) hclaim
  refine ⟨portfolio, collector, share, released, f', hportfolio, hclaim, ?_, ?_⟩
  · simpa using heffects
  · simpa using hiff.mpr (by decide +kernel)

/-- In pools of 1000 units each, 100 units show 200 units and are paid 199; two stakes of 50 with
the row of that payment show it twice. -/
theorem full_pool_shown :
    (manager home fun _ (_ : WillingRegistries) => False).Run reportedRun.history
        reportedRun.state ∧
      shows [wonRow "100" "1000" "1000"] [] = some 2000000000 ∧
      shows [wonRow "50" "1000" "1000", wonRow "50" "1000" "1000"] [claimRow "199"] =
        some 3980000000 ∧
      ∃ f' collector share, claimOf 1000000000 10000000000 10000000000 = .ok ((), f') ∧
          f'.effects = claimEffects marketAddress 1 collector
            ⟨⟨1⟩, ⟨1⟩, 1000000000, share, 1990000000⟩ ∧
          ¬ |(2000000000 : Int) - 1990000000| ≤ 1 ∧ ¬ |(3980000000 : Int) - 1990000000| ≤ 2 := by
  obtain ⟨f', hclaim⟩ := claimOf_ok 1000000000 10000000000 10000000000 (by decide +kernel)
  obtain ⟨collector, share, released, hquoted, heffects⟩ := claim_payout_releases hclaim
  obtain ⟨-, hreleased⟩ := hquoted.exact (by decide +kernel) (by decide)
  have hfee : reportedRun.state.store.settings.feeBps = 100 := by decide +kernel
  have hamount : released = 1990000000 := by
    rw [hreleased, hfee]
    decide
  subst hamount
  exact ⟨reportedRun.run World.next_step System.anything_allowed, by decide +kernel,
    by decide +kernel, f', collector, share, hclaim, by simpa using heffects, by decide, by decide⟩

end Scenario

end Backit.Frontend
