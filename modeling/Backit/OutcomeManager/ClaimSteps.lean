import Backit.OutcomeManager.Claims
import Backit.OutcomeManager.ReportSteps

/-!
# What the claims change

A successful claim makes a list of payments: one for a single claim, one per entry for a batch.
`PayoutStep` lists, for every operation on the payouts, when it succeeds, the payments it makes,
its effects and what it leaves. The calls it makes to registries are replayed by `Calls`.
-/

namespace Backit.OutcomeManager

open Soroban Contract Shared

variable {R : Type} [Registries R]

/-- `Calls env others effects others'` makes the calls of the effects in the order they happened,
oldest (last in the list) first. -/
inductive Calls (env : Env) (others : R) : List (Effect Act) → R → Prop where
  | nil : Calls env others [] others
  | resolveCall {effects current next registry callId outcome price} :
      Calls env others effects current →
      Registries.resolveCall env registry callId outcome price current = some next →
      Calls env others (.event (.resolveCall registry callId outcome price) :: effects) next
  | releaseEscrow {effects current next registry callId recipient amount} :
      Calls env others effects current →
      Registries.releaseEscrow env registry callId recipient amount current = some next →
      Calls env others (.event (.releaseEscrow registry callId recipient amount) :: effects) next
  | markSettled {effects current next registry callId} : Calls env others effects current →
      Registries.markSettled env registry callId current = some next →
      Calls env others (.event (.markSettled registry callId) :: effects) next
  | event {effects current event} : Calls env others effects current →
      Calls env others (.event (.event event) :: effects) current

theorem Calls.append {env : Env} {o o₁ o₂ : R} {first later : List (Effect Act)}
    (hfirst : Calls env o first o₁) (hlater : Calls env o₁ later o₂) :
    Calls env o (later ++ first) o₂ := by
  induction hlater with
  | nil => exact hfirst
  | resolveCall _ hcall ih => exact ih.resolveCall hcall
  | releaseEscrow _ hcall ih => exact ih.releaseEscrow hcall
  | markSettled _ hcall ih => exact ih.markSettled hcall
  | event _ ih => exact ih.event

/-- A payment for a call: the winner it is for, the address that receives it, the stake that was
claimed, the share of the fee, and the amount. -/
structure Payment where
  winner : Address
  payee : Address
  stake : Int
  feeShare : Int
  amount : Int
  deriving DecidableEq

/-- The parts of a claim of a stake against pools, as the manager computes them. -/
structure Quoted (s : Settings) (stake winning losing feeShare amount : Int) : Prop where
  stake_pos : 0 < stake
  winning_pos : 0 < winning
  terms : ∃ fee net, computeTotalFee losing s.feeBps = some fee ∧
    checkedSub losing fee = some net ∧
    computePayoutParts stake winning fee net = some (feeShare, amount)

/-- A quote against pools that are not empty together is worth something. -/
theorem Quoted.amount_pos {s : Settings} {stake winning losing feeShare amount : Int}
    (h : Quoted s stake winning losing feeShare amount) (hfeeBps : s.feeBps ≤ maxFeeBps)
    (hpools : 0 < winning + losing) : 0 < amount := by
  obtain ⟨hstake, hwinning, fee, net, hfee, hnet, hparts⟩ := h
  obtain ⟨-, rfl⟩ := checked_eq_some.mp hnet
  exact payout_parts_pos hstake hwinning (fee_leaves hwinning hpools hfeeBps hfee) hparts

theorem Quoted.exact {s : Settings} {stake winning losing share amount : Int}
    (h : Quoted s stake winning losing share amount) (hfeeBps : s.feeBps ≤ maxFeeBps)
    (hlosing : 0 ≤ losing) :
    share = feeShare losing s.feeBps winning stake ∧
      amount = payout losing s.feeBps winning stake := by
  obtain ⟨hstake, hwinning, fee, net, hfee, hnet, hparts⟩ := h
  have hfee := compute_total_fee_exact hlosing hfee
  obtain ⟨-, rfl⟩ := checked_eq_some.mp hnet
  subst hfee
  have hwithin := total_fee_le hlosing hfeeBps
  obtain ⟨-, -, -, hshare, hamount⟩ := (compute_payout_parts_iff (total_fee_nonneg _ hlosing)
    (by omega) hwinning hstake.le).mp hparts
  exact ⟨hshare, hamount⟩

/-- `Paid s t callId winning losing p payments p'`: the call is decided, the payments go to
distinct winners not paid before, each is the manager's quote, and they are then marked paid. -/
structure Paid (s : Settings) (t : Tally) (callId : Nat) (winning losing : Int) (p : Payouts)
    (payments : List Payment) (p' : Payouts) : Prop where
  decided : t.finalOutcome callId ≠ none
  distinct : (payments.map (·.winner)).Nodup
  unpaid : ∀ x ∈ payments, p.claimed (callId, x.winner) = false
  quoted : ∀ x ∈ payments, Quoted s x.stake winning losing x.feeShare x.amount
  marked : ∀ key, p'.claimed key = true ↔
    p.claimed key = true ∨ key.1 = callId ∧ key.2 ∈ payments.map (·.winner)
  recovery : p'.recoveryAddress = p.recoveryAddress

/-- The effects of releasing a fee share. -/
def feeEffects (registry : Address) (callId : Nat) (feeCollector : Address) (feeShare : Int) :
    List (Effect Act) :=
  if 0 < feeShare then
    [.event (.event (.feeCollected callId feeShare feeCollector)),
      .event (.releaseEscrow registry callId feeCollector feeShare)]
  else []

/-- The release of a payment. -/
def Payment.release (x : Payment) (registry : Address) (callId : Nat) : Effect Act :=
  .event (.releaseEscrow registry callId x.payee x.amount)

/-- The payments of a batch for the stakers, each to the staker. -/
def ForStakers (stakers : List Address) (stakes : List Int) (payments : List Payment) : Prop :=
  payments.map (fun x => (x.winner, x.stake)) = stakers.zip stakes ∧
    ∀ x ∈ payments, x.payee = x.winner

/-- The operations that pay a batch, with or without claimable balances. -/
inductive IsBatch : PayoutOp → Bool → Address → Nat → List Address → List Int → Int → Int → Prop
  | create {registry callId stakers stakes winning losing} :
      IsBatch (.batchCreateClaimableBalances registry callId stakers stakes winning losing) true
        registry callId stakers stakes winning losing
  | claim {registry callId stakers stakes winning losing} :
      IsBatch (.batchClaimPayouts registry callId stakers stakes winning losing) false
        registry callId stakers stakes winning losing

section Steps

variable [Crypto] [Network]

/-- The announcement of a payment to a staker, with the claimable balance it stands for. -/
def claimEvents (callId : Nat) (x : Payment) : List (Effect Act) :=
  [.event (.event (.payoutClaimed callId x.winner x.amount)),
    .event (.event (.claimableBalanceCreated callId x.winner
      (balanceId callId (Network.addressXdr x.winner)) x.amount))]

/-- The effects of a claim by the winner. -/
def claimEffects (registry : Address) (callId : Nat) (feeCollector : Address) (x : Payment) :
    List (Effect Act) :=
  claimEvents callId x ++
    x.release registry callId :: feeEffects registry callId feeCollector x.feeShare

/-- The effects of a claim of a winner whom the market has paid. -/
def noReleaseEffects (callId : Nat) (feeCollector : Address) (x : Payment) :
    List (Effect Act) :=
  claimEvents callId x ++
    if 0 < x.feeShare then [.event (.event (.feeCollected callId x.feeShare feeCollector))]
    else []

omit [Crypto] [Network] in
/-- The effects of a claim by the winner's recovery agent. -/
def onBehalfEffects (registry : Address) (callId : Nat) (feeCollector : Address) (x : Payment) :
    List (Effect Act) :=
  .event (.event (.recoveryClaimed x.payee x.winner callId x.amount)) ::
    x.release registry callId :: feeEffects registry callId feeCollector x.feeShare

omit [Network] in
/-- The effects of one entry of a batch. -/
def entryEffects (balances : Bool) (registry : Address) (callId i : Nat) (x : Payment) :
    List (Effect Act) :=
  .event (.event (.payoutClaimed callId x.winner x.amount)) ::
    ((if balances then
      [.event (.event (.claimableBalanceCreated callId x.winner
        (balanceId callId (beBytes 8 i)) x.amount))]
    else []) ++ [x.release registry callId])

/-- The effects of the loop of a batch, from an index on. -/
def loopEffects (balances : Bool) (registry : Address) (callId : Nat) :
    Nat → List Payment → List (Effect Act)
  | _, [] => []
  | i, x :: rest =>
    loopEffects balances registry callId (i + 1) rest ++
      entryEffects balances registry callId i x

/-- The effects of a batch. -/
def batchEffects (balances : Bool) (registry : Address) (callId : Nat) (feeCollector : Address)
    (payments : List Payment) : List (Effect Act) :=
  feeEffects registry callId feeCollector (payments.map (·.feeShare)).sum ++
    (loopEffects balances registry callId 0 payments ++
      [.event (.event (.batchPayoutStarted callId payments.length))])

/-- The registry that a claim is released from: the one that the caller names, whatever it is, or
the factory's market. -/
inductive ClaimedFrom (s : Settings) (others : R) :
    PayoutOp → Address → Nat → Address → Int → Int → Int → Prop where
  | direct {registry callId staker stake winning losing} :
      ClaimedFrom s others (.claimPayout registry callId staker stake winning losing) registry
        callId staker stake winning losing
  | forMarket {factory registry callId staker stake winning losing} :
      s.factory = some factory → Registries.getMarket others factory callId = some registry →
      ClaimedFrom s others (.claimPayoutForMarket callId staker stake winning losing) registry
        callId staker stake winning losing

/-- `PayoutStep env s t op p others payments effects p' others'` says when an operation on the
payouts succeeds and what it does. -/
inductive PayoutStep (env : Env) (s : Settings) (t : Tally) :
    PayoutOp → Payouts → R → List Payment → List (Effect Act) → Payouts → R → Prop where
  | claimPayout {op registry callId winning losing p others x feeCollector p' others'} :
      ClaimedFrom s others op registry callId x.winner x.stake winning losing →
      s.paused = false → x.winner ∈ env.auths → x.payee = x.winner →
      s.feeCollector = some feeCollector → Paid s t callId winning losing p [x] p' →
      Calls env others (claimEffects registry callId feeCollector x) others' →
      PayoutStep env s t op p others [x] (claimEffects registry callId feeCollector x) p' others'
  | claimPayoutNoRelease {callId winning losing p others x feeCollector p'} :
      s.paused = false → x.winner ∈ env.auths → x.payee = x.winner →
      s.feeCollector = some feeCollector → Paid s t callId winning losing p [x] p' →
      PayoutStep env s t (.claimPayoutNoRelease callId x.winner x.stake winning losing) p others
        [x] (noReleaseEffects callId feeCollector x) p' others
  | claimOnBehalf {registry callId winning losing p others x feeCollector p' others'} :
      s.paused = false → x.payee ∈ env.auths → p.recoveryAddress x.winner = some x.payee →
      s.recoveryGracePeriodSecs ≤
        env.timestamp - (t.settledAt callId).getD env.timestamp →
      s.feeCollector = some feeCollector → Paid s t callId winning losing p [x] p' →
      Calls env others (onBehalfEffects registry callId feeCollector x) others' →
      PayoutStep env s t (.claimOnBehalf registry callId x.payee x.winner x.stake winning losing)
        p others [x] (onBehalfEffects registry callId feeCollector x) p' others'
  | batch {op balances registry callId stakers stakes winning losing p others payments admin
      feeCollector p' others'} :
      IsBatch op balances registry callId stakers stakes winning losing →
      s.admin = some admin → admin ∈ env.auths → payments ≠ [] →
      stakers.length = stakes.length → ForStakers stakers stakes payments →
      s.feeCollector = some feeCollector → Paid s t callId winning losing p payments p' →
      Calls env others (batchEffects balances registry callId feeCollector payments) others' →
      PayoutStep env s t op p others payments
        (batchEffects balances registry callId feeCollector payments) p' others'
  | setRecoveryAddress {user recoveryAddress p others} : user ∈ env.auths →
      PayoutStep env s t (.setRecoveryAddress user recoveryAddress) p others []
        [.event (.event (.recoveryAddressSet user recoveryAddress))]
        (p.setRecoveryAddress user (some recoveryAddress)) others
  | removeRecoveryAddress {user p others} : user ∈ env.auths →
      PayoutStep env s t (.removeRecoveryAddress user) p others []
        [.event (.event (.recoveryAddressRemoved user))] (p.setRecoveryAddress user none) others
  | markSettled {registry callId p others admin others'} :
      s.admin = some admin → admin ∈ env.auths → t.finalOutcome callId ≠ none →
      Registries.markSettled env registry callId others = some others' →
      PayoutStep env s t (.markSettled registry callId) p others []
        [.event (.markSettled registry callId)] p others'

section Specs

variable {α : Type} {env : Env} {f f' : Frame Storage R Act} {u : Unit}
  {callId : Nat} {registry : Address} {stake winning losing : Int}

omit [Registries R] [Crypto] [Network] in
theorem run_rejectIfClaimed_bind {winner : Address} {b : α} (k : Unit → Manager R α) :
    run (rejectIfClaimed callId winner >>= k) env f = .ok (b, f') ↔
      f.store.payouts.claimed (callId, winner) = false ∧ run (k ()) env f = .ok (b, f') := by
  simp only [rejectIfClaimed, Contract.bind_assoc, run_steps, Bool.not_eq_true]

omit [Registries R] [Crypto] [Network] in
/-- A quote is the fee collector's and the computed parts of positive stakes. -/
theorem run_quote_bind {b : α} (k : Quote → Manager R α) :
    run (quote stake winning losing >>= k) env f = .ok (b, f') ↔
      ∃ q, f.store.settings.feeCollector = some q.feeCollector ∧
        Quoted f.store.settings stake winning losing q.feeShare q.payout ∧
        run (k q) env f = .ok (b, f') := by
  simp only [quote, getFeeConfig, netTerms, Contract.bind_assoc, run_steps, not_le]
  constructor
  · rintro ⟨hstake, hwinning, collector, hcollector, fee, hfee, net, hnet, parts, hparts, h⟩
    exact ⟨⟨collector, parts.1, parts.2⟩, hcollector,
      ⟨hstake, hwinning, fee, net, hfee, hnet, hparts⟩, h⟩
  · rintro ⟨q, hcollector, ⟨hstake, hwinning, fee, net, hfee, hnet, hparts⟩, h⟩
    exact ⟨hstake, hwinning, q.feeCollector, hcollector, fee, hfee, net, hnet, (_, _), hparts, h⟩

/-- The frame after calls to the registries. -/
def Frame.afterCalls (f : Frame Storage R Act) (others : R) (effects : List (Effect Act)) :
    Frame Storage R Act :=
  { f with tokens := others, effects := effects ++ f.effects }

omit [Crypto] [Network] in
theorem run_releaseFee {feeCollector : Address} {feeShare : Int}
    (h : run (releaseFee registry callId feeCollector feeShare : Manager R Unit) env f =
      .ok (u, f')) :
    ∃ others, Calls env f.tokens (feeEffects registry callId feeCollector feeShare) others ∧
      f' = Frame.afterCalls f others (feeEffects registry callId feeCollector feeShare) := by
  unfold releaseFee at h
  unfold feeEffects
  split at h
  · next hpos =>
    simp only [registryReleaseEscrow, run_callOut_bind, run_announce] at h
    obtain ⟨others, hrelease, rfl⟩ := h
    rw [if_pos hpos]
    exact ⟨others, (Calls.nil.releaseEscrow hrelease).event, rfl⟩
  · next hneg =>
    cases h
    rw [if_neg hneg]
    exact ⟨f.tokens, .nil, rfl⟩

omit [Registries R] [Crypto] [Network] in
theorem paid_one {s : Settings} {t : Tally} {winning losing : Int}
    {p p' : Payouts} {x : Payment} (hdecided : t.finalOutcome callId ≠ none)
    (hunpaid : p.claimed (callId, x.winner) = false)
    (hquoted : Quoted s x.stake winning losing x.feeShare x.amount)
    (hclaimed : p'.claimed = Function.update p.claimed (callId, x.winner) true)
    (hrecovery : p'.recoveryAddress = p.recoveryAddress) :
    Paid s t callId winning losing p [x] p' where
  decided := hdecided
  distinct := List.nodup_singleton _
  unpaid := by
    intro y hy
    rwa [List.mem_singleton.mp hy]
  quoted := by
    intro y hy
    rwa [List.mem_singleton.mp hy]
  marked := by
    rintro ⟨id, who⟩
    rw [hclaimed]
    by_cases hkey : (id, who) = (callId, x.winner)
    · simp_all
    · rw [Function.update_of_ne hkey]
      simp_all
  recovery := hrecovery

/-- An operation makes payments, which the frame after it has recorded. -/
abbrev MakesPayout (env : Env) (op : PayoutOp) (f f' : Frame Storage R Act) : Prop :=
  ∃ payments effects p' others,
    PayoutStep env f.store.settings f.store.tally op f.store.payouts f.tokens payments effects p'
      others ∧
    f' = Frame.afterCalls { f with store := f.store.onPayouts fun _ => p' } others effects

theorem claim_payout_steps {op : PayoutOp} {staker : Address}
    (hop : ClaimedFrom f.store.settings f.tokens op registry callId staker stake winning losing)
    (h : run (claimPayout registry callId staker stake winning losing : Manager R Unit) env f =
      .ok (u, f')) :
    MakesPayout env op f f' := by
  simp only [claimPayout, run_rejectIfPaused_bind, run_steps, run_requireCallSettled_bind,
    run_rejectIfClaimed_bind, run_quote_bind] at h
  obtain ⟨hrunning, hauth, hdecided, hunpaid, q, hcollector, hquoted, h⟩ := h
  rw [run_bind] at h
  obtain ⟨_, f₁, hfee, h⟩ := h
  obtain ⟨others₁, hcalls, hframe⟩ := run_releaseFee hfee
  simp only [registryReleaseEscrow, run_callOut_bind, run_announce_bind, run_announce, hframe]
    at h
  obtain ⟨others, hrelease, rfl⟩ := h
  have hmade : Calls env f.tokens (claimEffects registry callId q.feeCollector
      ⟨staker, staker, stake, q.feeShare, q.payout⟩) others :=
    (hcalls.releaseEscrow hrelease).event.event
  have hpaid : Paid f.store.settings f.store.tally callId winning losing f.store.payouts
      [⟨staker, staker, stake, q.feeShare, q.payout⟩]
      ((f.store.payouts.markClaimed callId staker).setBalanceId callId staker
        (balanceId callId (Network.addressXdr staker))) :=
    paid_one hdecided hunpaid hquoted rfl rfl
  exact ⟨_, _, _, others, .claimPayout hop hrunning hauth rfl hcollector hpaid hmade, rfl⟩

theorem claim_no_release_steps {staker : Address}
    (h : run (claimPayoutNoRelease callId staker stake winning losing : Manager R Unit) env f =
      .ok (u, f')) :
    MakesPayout env (.claimPayoutNoRelease callId staker stake winning losing) f f' := by
  simp only [claimPayoutNoRelease, run_rejectIfPaused_bind, run_steps, run_requireCallSettled_bind,
    run_rejectIfClaimed_bind, run_quote_bind] at h
  obtain ⟨hrunning, hauth, hdecided, hunpaid, q, hcollector, hquoted, h⟩ := h
  have hpaid : Paid f.store.settings f.store.tally callId winning losing f.store.payouts
      [⟨staker, staker, stake, q.feeShare, q.payout⟩]
      ((f.store.payouts.markClaimed callId staker).setBalanceId callId staker
        (balanceId callId (Network.addressXdr staker))) :=
    paid_one hdecided hunpaid hquoted rfl rfl
  refine ⟨_, _, _, _, .claimPayoutNoRelease hrunning hauth rfl hcollector hpaid, ?_⟩
  unfold noReleaseEffects
  split at h
  · next hpos =>
    simp only [run_announce_bind, run_announce] at h
    rw [h, if_pos hpos]
    rfl
  · next hneg =>
    simp only [run_announce_bind, run_announce] at h
    rw [h, if_neg hneg]
    rfl

theorem claim_on_behalf_steps {agent winner : Address}
    (h : run (claimOnBehalf registry callId agent winner stake winning losing : Manager R Unit)
      env f = .ok (u, f')) :
    MakesPayout env (.claimOnBehalf registry callId agent winner stake winning losing) f f' := by
  simp only [claimOnBehalf, run_rejectIfPaused_bind, run_steps, run_requireCallSettled_bind,
    run_rejectIfClaimed_bind, run_quote_bind, not_not, not_lt] at h
  obtain ⟨hrunning, hauth, hagent, hdecided, hunpaid, hgrace, q, hcollector, hquoted, h⟩ := h
  rw [run_bind] at h
  obtain ⟨_, f₁, hfee, h⟩ := h
  obtain ⟨others₁, hcalls, hframe⟩ := run_releaseFee hfee
  simp only [registryReleaseEscrow, run_callOut_bind, run_announce, hframe] at h
  obtain ⟨others, hrelease, rfl⟩ := h
  have hmade : Calls env f.tokens (onBehalfEffects registry callId q.feeCollector
      ⟨winner, agent, stake, q.feeShare, q.payout⟩) others :=
    (hcalls.releaseEscrow hrelease).event
  have hpaid : Paid f.store.settings f.store.tally callId winning losing f.store.payouts
      [⟨winner, agent, stake, q.feeShare, q.payout⟩]
      (f.store.payouts.markClaimed callId winner) :=
    paid_one hdecided hunpaid hquoted rfl rfl
  exact ⟨_, _, _, others, .claimOnBehalf hrunning hauth hagent hgrace hcollector hpaid hmade, rfl⟩

/-- What the loop of a batch does to the payouts, given the fee and the net losing pool. -/
structure LoopPaid (callId : Nat) (winning fee net : Int) (p : Payouts) (payments : List Payment)
    (p' : Payouts) : Prop where
  distinct : (payments.map (·.winner)).Nodup
  unpaid : ∀ x ∈ payments, p.claimed (callId, x.winner) = false
  parts : ∀ x ∈ payments, 0 < x.stake ∧
    computePayoutParts x.stake winning fee net = some (x.feeShare, x.amount)
  marked : ∀ key, p'.claimed key = true ↔
    p.claimed key = true ∨ key.1 = callId ∧ key.2 ∈ payments.map (·.winner)
  recovery : p'.recoveryAddress = p.recoveryAddress

omit [Crypto] [Network] [Registries R] in
theorem LoopPaid.nil {winning fee net : Int} {p : Payouts} :
    LoopPaid callId winning fee net p [] p where
  distinct := .nil
  unpaid := by simp
  parts := by simp
  marked := by simp
  recovery := rfl

omit [Crypto] [Network] [Registries R] in
/-- An entry in front of the rest: the rest runs with its winner marked, so it is no later one. -/
theorem LoopPaid.cons {winning fee net : Int} {p q p' : Payouts} {x : Payment}
    {payments : List Payment} (hunpaid : p.claimed (callId, x.winner) = false)
    (hparts : 0 < x.stake ∧
      computePayoutParts x.stake winning fee net = some (x.feeShare, x.amount))
    (hclaimed : q.claimed = Function.update p.claimed (callId, x.winner) true)
    (hrecovery : q.recoveryAddress = p.recoveryAddress)
    (hrest : LoopPaid callId winning fee net q payments p') :
    LoopPaid callId winning fee net p (x :: payments) p' := by
  have hfresh : ∀ y ∈ payments, y.winner ≠ x.winner ∧ p.claimed (callId, y.winner) = false := by
    intro y hy
    have hy' := hrest.unpaid y hy
    rw [hclaimed] at hy'
    by_cases heq : y.winner = x.winner
    · rw [heq, Function.update_self] at hy'
      cases hy'
    · rw [Function.update_of_ne (by simpa using heq)] at hy'
      exact ⟨heq, hy'⟩
  refine ⟨?_, ?_, ?_, ?_, hrest.recovery.trans hrecovery⟩
  · rw [List.map_cons, List.nodup_cons]
    refine ⟨?_, hrest.distinct⟩
    rintro hmem
    obtain ⟨y, hy, heq⟩ := List.mem_map.mp hmem
    exact (hfresh y hy).1 heq
  · intro y hy
    rcases List.mem_cons.mp hy with rfl | hy
    · exact hunpaid
    · exact (hfresh y hy).2
  · intro y hy
    rcases List.mem_cons.mp hy with rfl | hy
    · exact hparts
    · exact hrest.parts y hy
  · rintro ⟨id, who⟩
    rw [hrest.marked, hclaimed, List.map_cons, List.mem_cons]
    by_cases hkey : (id, who) = (callId, x.winner)
    · obtain ⟨rfl, rfl⟩ := Prod.mk.inj hkey
      simp
    · rw [Function.update_of_ne hkey]
      have hne : id = callId → who ≠ x.winner := by
        rintro rfl rfl
        exact hkey rfl
      constructor
      · rintro (hpaid | ⟨hid, hmem⟩)
        · exact .inl hpaid
        · exact .inr ⟨hid, .inr hmem⟩
      · rintro (hpaid | ⟨hid, rfl | hmem⟩)
        · exact .inl hpaid
        · exact absurd rfl (hne hid)
        · exact .inr ⟨hid, hmem⟩

omit [Network] in
theorem pay_batch_pays {balances : Bool}
    {winning fee net : Int} {entries : List (Address × Int)} {i : Nat} {aggregated total : Int}
    (h : run (payBatch balances registry callId winning fee net i entries aggregated :
      Manager R Int) env f = .ok (total, f')) :
    ∃ payments others p', payments.map (fun x => (x.winner, x.stake)) = entries ∧
      (∀ x ∈ payments, x.payee = x.winner) ∧
      total = aggregated + (payments.map (·.feeShare)).sum ∧
      LoopPaid callId winning fee net f.store.payouts payments p' ∧
      Calls env f.tokens (loopEffects balances registry callId i payments) others ∧
      f' = Frame.afterCalls { f with store := f.store.onPayouts fun _ => p' } others
        (loopEffects balances registry callId i payments) := by
  induction entries generalizing i aggregated f with
  | nil =>
    simp only [payBatch, run_pure, Except.ok.injEq, Prod.mk.injEq] at h
    obtain ⟨rfl, rfl⟩ := h
    exact ⟨[], _, _, rfl, by simp, by simp, .nil, .nil, rfl⟩
  | cons entry rest ih =>
    obtain ⟨staker, stake⟩ := entry
    simp only [payBatch, run_steps, run_rejectIfClaimed_bind, registryReleaseEscrow,
      run_callOut_bind, not_le, checkedAdd, checked_eq_some] at h
    obtain ⟨hstake, hunpaid, parts, hparts, _, ⟨-, rfl⟩, others₁, hrelease, h⟩ := h
    -- The rest runs after the entry's release and its one or two announcements.
    have hentry : ∃ f₁, run (payBatch balances registry callId winning fee net (i + 1) rest
          (aggregated + parts.1) : Manager R Int) env f₁ = .ok (total, f') ∧
        f₁.tokens = others₁ ∧
        f₁.store = f.store.onPayouts (fun p =>
          (if balances then p.setBalanceId callId staker (balanceId callId (beBytes 8 i))
            else p).markClaimed callId staker) ∧
        f₁.effects = entryEffects balances registry callId i
          ⟨staker, staker, stake, parts.1, parts.2⟩ ++ f.effects := by
      cases balances
      all_goals
        simp only [Bool.false_eq_true, if_true, if_false, run_announce_bind] at h
        exact ⟨_, h, rfl, rfl, rfl⟩
    obtain ⟨f₁, h, htokens, hstore, heffects⟩ := hentry
    obtain ⟨payments, others, p', hentries, hpayees, htotal, hpaid, hcalls, hframe⟩ := ih h
    have hone : Calls env f.tokens (entryEffects balances registry callId i
        ⟨staker, staker, stake, parts.1, parts.2⟩) others₁ := by
      have hreleased := Calls.nil.releaseEscrow hrelease
      cases balances
      · exact hreleased.event
      · exact hreleased.event.event
    refine ⟨⟨staker, staker, stake, parts.1, parts.2⟩ :: payments, others, p', ?_, ?_, ?_, ?_,
      ?_, ?_⟩
    · rw [List.map_cons, hentries]
    · intro x hx
      rcases List.mem_cons.mp hx with rfl | hx
      · rfl
      · exact hpayees x hx
    · rw [htotal, List.map_cons, List.sum_cons, add_assoc]
    · refine .cons hunpaid ⟨hstake, hparts⟩ ?_ ?_ hpaid
      · cases balances <;> simp [hstore, Payouts.markClaimed, Payouts.setBalanceId]
      · cases balances <;> simp [hstore, Payouts.markClaimed, Payouts.setBalanceId]
    · rw [htokens] at hcalls
      exact hone.append hcalls
    · rw [hframe]
      simp only [Frame.afterCalls, hstore, heffects, loopEffects, List.append_assoc]
      rfl

/-- A batch pays its entries and releases their fee shares together. -/
theorem batch_steps {op : PayoutOp} {balances : Bool}
    {stakers : List Address} {stakes : List Int} {winning losing : Int}
    (hop : IsBatch op balances registry callId stakers stakes winning losing)
    (h : run (batch balances registry callId stakers stakes winning losing : Manager R Unit) env f =
      .ok (u, f')) :
    MakesPayout env op f f' := by
  simp only [batch, getFeeConfig, netTerms, Contract.bind_assoc, run_requireAdmin_bind,
    run_requireCallSettled_bind, run_steps, run_announce_bind, not_not, not_le] at h
  obtain ⟨admin, hadmin, hauth, hdecided, hne, hlength, hwinning, collector, hcollector, fee, hfee,
    net, hnet, h⟩ := h
  rw [run_bind] at h
  obtain ⟨total, f₁, hloop, h⟩ := h
  obtain ⟨payments, others₁, p', hentries, hpayees, htotal, hpaid, hcalls, hframe⟩ :=
    pay_batch_pays hloop
  obtain ⟨others, hfees, rfl⟩ := run_releaseFee h
  rw [zero_add] at htotal
  have hcount : payments.length = stakers.length := by
    have := congrArg List.length hentries
    simp only [List.length_map, List.length_zip] at this
    omega
  have hsome : payments ≠ [] := by
    rintro rfl
    exact hne (List.length_eq_zero_iff.mp hcount.symm)
  have hquoted : ∀ x ∈ payments,
      Quoted f.store.settings x.stake winning losing x.feeShare x.amount := fun x hx =>
    ⟨(hpaid.parts x hx).1, hwinning, fee, net, hfee, hnet, (hpaid.parts x hx).2⟩
  have hmade : Calls env f.tokens (batchEffects balances registry callId collector payments)
      others := by
    have hstart : Calls env f.tokens
        [.event (.event (.batchPayoutStarted callId payments.length))] f.tokens := .event .nil
    rw [hframe, htotal] at hfees
    exact (hstart.append hcalls).append hfees
  refine ⟨payments, _, p', others, .batch hop hadmin hauth hsome hlength ⟨hentries, hpayees⟩
    hcollector ⟨hdecided, hpaid.distinct, hpaid.unpaid, hquoted, hpaid.marked, hpaid.recovery⟩
    hmade, ?_⟩
  rw [hframe, htotal]
  simp only [Frame.afterCalls, batchEffects, Frame.record_store, Frame.record_effects, hcount,
    List.append_assoc, List.cons_append, List.nil_append]

/-- A successful operation on the payouts is one of the listed steps. -/
theorem PayoutOp.steps {op : PayoutOp} (h : run (op.perform : Manager R Unit) env f = .ok (u, f')) :
    MakesPayout env op f f' := by
  cases op with
  | claimPayout registry callId staker stake winning losing => exact claim_payout_steps .direct h
  | claimPayoutForMarket callId staker stake winning losing =>
    rw [PayoutOp.perform, OutcomeManager.claimPayoutForMarket, run_bind] at h
    obtain ⟨registry, f₁, hresolve, h⟩ := h
    obtain ⟨hframe, factory, hfactory, hlookup⟩ := run_resolveMarketAddress hresolve
    rw [hframe] at h
    exact claim_payout_steps (.forMarket hfactory hlookup) h
  | claimPayoutNoRelease callId staker stake winning losing => exact claim_no_release_steps h
  | setRecoveryAddress user recoveryAddress =>
    simp only [PayoutOp.perform, OutcomeManager.setRecoveryAddress, run_steps, run_announce] at h
    obtain ⟨hauth, rfl⟩ := h
    exact ⟨_, _, _, _, .setRecoveryAddress hauth, rfl⟩
  | removeRecoveryAddress user =>
    simp only [PayoutOp.perform, OutcomeManager.removeRecoveryAddress, run_steps, run_announce] at h
    obtain ⟨hauth, rfl⟩ := h
    exact ⟨_, _, _, _, .removeRecoveryAddress hauth, rfl⟩
  | claimOnBehalf registry callId agent winner stake winning losing => exact claim_on_behalf_steps h
  | batchCreateClaimableBalances registry callId stakers stakes winning losing =>
    exact batch_steps .create h
  | batchClaimPayouts registry callId stakers stakes winning losing => exact batch_steps .claim h
  | markSettled registry callId =>
    simp only [PayoutOp.perform, OutcomeManager.markSettled, run_requireAdmin_bind, run_steps,
      registryMarkSettled, run_callOut] at h
    obtain ⟨admin, hadmin, hauth, hdecided, others, hcall, rfl⟩ := h
    exact ⟨_, _, _, _, .markSettled hadmin hauth hdecided hcall, rfl⟩

end Specs

end Steps

end Backit.OutcomeManager
