import Backit.CallRegistry.Refunds
import Backit.Platform.Decisions

/-!
# Claims of recorded stakes

A claim names a registry, a stake and two pools, and the manager pays the payout of these numbers:
nothing compares them with what the registry has recorded. As long as every claim names the registry
that holds the stakes, where the call is resolved as the manager decided it, and states the stakes
recorded there, each claim pays the payout of the recorded stake, and the claims of a call never
draw more from the registry's escrow than the call's pools.
-/

namespace Backit.Platform

open Soroban Contract Lib Shared OutcomeManager

/-- What a registry records of the stakes on a call. -/
structure StakeBook where
  endTs : Nat
  outcomeCount : Nat
  outcomeStakes : Map Nat Int
  stakeOf : Address → Nat → Int

namespace StakeBook

/-- The stakes on an outcome. -/
def pool (book : StakeBook) (outcome : Nat) : Int := valueAt book.outcomeStakes outcome

/-- The stakes on all outcomes. -/
def total (book : StakeBook) : Int := ((CallRegistry.positions book.outcomeCount).map book.pool).sum

/-- The stakes on the other outcomes. -/
def losing (book : StakeBook) (outcome : Nat) : Int := book.total - book.pool outcome

end StakeBook

/-- The stakes on a call that the registry at an address records. -/
def Resident.stakeBook (callId : Nat) : Resident → Option StakeBook
  | .registry s => (s.getCall callId).map fun call =>
    ⟨call.endTs, call.outcomeCount, call.outcomeStakes,
      fun staker position => s.market.userStake (callId, staker, position)⟩
  | _ => none

/-- What a claim states: the registry, the call, the stakers and their stakes, and the pools. -/
structure ClaimTerms where
  registry : Address
  callId : Nat
  claims : List (Address × Int)
  winning : Int
  losing : Int

/-- What an operation that names a registry claims. -/
def claimTerms : PayoutOp → Option ClaimTerms
  | .claimPayout registry callId staker stake winning losing =>
    some ⟨registry, callId, [(staker, stake)], winning, losing⟩
  | .claimOnBehalf registry callId _ originalWinner stake winning losing =>
    some ⟨registry, callId, [(originalWinner, stake)], winning, losing⟩
  | .batchCreateClaimableBalances registry callId stakers stakes winning losing =>
    some ⟨registry, callId, stakers.zip stakes, winning, losing⟩
  | .batchClaimPayouts registry callId stakers stakes winning losing =>
    some ⟨registry, callId, stakers.zip stakes, winning, losing⟩
  | _ => none

/-- What an effect releases from the escrow of a call. -/
def releasedFrom (registry : Address) (callId : Nat) : Effect Act → Int
  | .event (.releaseEscrow escrow call _ amount) =>
    if escrow = registry ∧ call = callId then amount else 0
  | _ => 0

/-- What a step releases from the escrow of a call by a claim to the manager at an address. -/
def Label.released (m registry : Address) (callId : Nat) : Label → Int
  | .managed ⟨env, .payout op, effects⟩ =>
    if env.contract = m ∧ (claimTerms op).isSome then
      effectTotal (releasedFrom registry callId) effects
    else 0
  | _ => 0

/-- What the claims of a run release from the escrow of a call. -/
def releasedByClaims (m registry : Address) (callId : Nat) (history : List Label) : Int :=
  (history.map (Label.released m registry callId)).sum

section Guard

variable {S : Type}

/-- The stakes on a call, and its outcome, if the registry is resolved as the manager decided. -/
def World.decidedBook (m home : Address) (w : World S) (callId : Nat) :
    Option (StakeBook × Nat) := do
  let s ← w.ledger.managerAt m
  let decided ← s.tally.finalOutcome callId
  let (outcome, _) ← (w.ledger.resident home).resolved callId
  let book ← (w.ledger.resident home).stakeBook callId
  if outcome = decided.outcome then some (book, outcome) else none

/-- The payout of the stake that the registry records for a staker. -/
def World.entitlement (m home : Address) (w : World S) (callId : Nat) (staker : Address) :
    Option Int := do
  let s ← w.ledger.managerAt m
  let (book, outcome) ← w.decidedBook m home callId
  some (payout (book.losing outcome) s.settings.feeBps (book.pool outcome)
    (book.stakeOf staker outcome))

/-- A claim names the registry and states the stakes that it records. -/
def World.statesBook (m home : Address) (w : World S) (terms : ClaimTerms) : Bool :=
  terms.registry = home && (w.decidedBook m home terms.callId).any fun (book, outcome) =>
    terms.winning = book.pool outcome && terms.losing = book.losing outcome &&
      terms.claims.all fun (staker, stake) => stake = book.stakeOf staker outcome

/-- So does every claim that a step makes to the manager. -/
def World.claimsBook (m home : Address) (w : World S) : Label → Bool
  | .managed ⟨env, .payout op, _⟩ => env.contract ≠ m || (claimTerms op).all (w.statesBook m home)
  | _ => true

/-- The guard of the runs in which claims state recorded stakes. -/
def recordedClaims (m home : Address) : System.Guard (World S) Label :=
  fun _ w l => w.claimsBook m home l = true

end Guard

/-- The claims of a run never draw more from the escrow of a call than its pools, and each of them
pays the payout of the stake that the registry records. -/
structure ClaimsPayRecorded {S : Type} [Strangers S] [Crypto] [Network] [Deployer]
    (outside : S → S → Prop) (guard : System.Guard (World S) Label) (m home : Address)
    (history : List Label) (w : World S) : Prop where
  total : ∀ callId book, (w.ledger.resident home).stakeBook callId = some book →
    releasedByClaims m home callId history ≤ book.total
  each : ∀ env op effects s,
    System.Took (platform outside) guard history w (.managed ⟨env, .payout op, effects⟩) s →
    env.contract = m → (claimTerms op).isSome →
    ∀ x ∈ Label.payouts m (.managed ⟨env, .payout op, effects⟩),
      x.escrow = home ∧ s.entitlement m home x.callId x.winner = some x.amount

section Books

variable {r : Resident} {callId : Nat} {book : StakeBook}

theorem stake_book_registry {s : CallRegistry.Storage}
    (h : (Resident.registry s).stakeBook callId = some book) :
    ∃ call, s.market.calls callId = some call ∧
      book = ⟨call.endTs, call.outcomeCount, call.outcomeStakes,
        fun staker position => s.market.userStake (callId, staker, position)⟩ := by
  obtain ⟨call, hcall, rfl⟩ := Option.map_eq_some_iff.mp h
  exact ⟨call, hcall, rfl⟩

theorem sum_stakes_le_pool (hbooked : r.Booked) (h : r.stakeBook callId = some book)
    {stakers : List Address} (hdistinct : stakers.Nodup) (outcome : Nat) :
    (stakers.map fun staker => book.stakeOf staker outcome).sum ≤ book.pool outcome := by
  cases r with
  | registry s =>
    obtain ⟨retained, hbooks⟩ := hbooked
    obtain ⟨call, hcall, rfl⟩ := stake_book_registry h
    have hentries : ∀ staker, s.market.userStake (callId, staker, outcome) =
        valueAt (call.stakesOn outcome) staker :=
      fun staker => (hbooks.entries _ _ hcall outcome staker).symm
    have hpool := hbooks.pools _ _ hcall outcome
    have hretained := hbooks.retained_nonneg callId outcome
    have hle := sum_valueAt_le_total stakers hdistinct (call.stakesOn outcome) fun staker => by
      rw [← hentries]
      exact hbooks.nonneg _
    have hstakes : stakers.map (fun staker => s.market.userStake (callId, staker, outcome)) =
        stakers.map (valueAt (call.stakesOn outcome)) :=
      List.map_congr_left fun staker _ => hentries staker
    simp only [StakeBook.pool, hstakes]
    omega
  | _ => cases h

theorem book_pool_nonneg (hbooked : r.Booked) (h : r.stakeBook callId = some book) (outcome : Nat) :
    0 ≤ book.pool outcome := by
  simpa using sum_stakes_le_pool hbooked h List.nodup_nil outcome

theorem book_total_nonneg (hbooked : r.Booked) (h : r.stakeBook callId = some book) :
    0 ≤ book.total :=
  List.sum_nonneg fun _ hx => by
    obtain ⟨outcome, -, rfl⟩ := List.mem_map.mp hx
    exact book_pool_nonneg hbooked h outcome

theorem losing_nonneg (hbooked : r.Booked) (h : r.stakeBook callId = some book) {outcome : Nat}
    (hposition : outcome ∈ CallRegistry.positions book.outcomeCount) : 0 ≤ book.losing outcome := by
  have hle : book.pool outcome ≤ book.total := by
    refine List.single_le_sum (fun x hx => ?_) _ (List.mem_map_of_mem hposition)
    obtain ⟨other, -, rfl⟩ := List.mem_map.mp hx
    exact book_pool_nonneg hbooked h other
  unfold StakeBook.losing
  omega

end Books

section Residents

variable {S : Type} [Strangers S] [Crypto] {w : World S} {l : Label} {now callId : Nat}
  {address : Address} {start r : Resident} {book : StakeBook}

/-- The stakes on a call stay as they are once the call has ended. -/
theorem Evolves.stake_book_kept (h : Evolves w l now address start r) (hbooked : start.Booked)
    (hbook : start.stakeBook callId = some book) (hended : book.endTs ≤ now) :
    r.stakeBook callId = some book := by
  induction h with
  | refl => exact hbook
  | @registry s s' env config op effects hbefore hstep hnow _ ih =>
    obtain ⟨retained, hbooks⟩ : Resident.Booked (.registry s) := hbefore.booked hbooked
    obtain ⟨call, hcall, rfl⟩ := stake_book_registry ih
    obtain ⟨call', hcall', hterms, hstakes⟩ := hstep.ended_kept hbooks hcall (hnow ▸ hended)
    simp only [Resident.stakeBook, CallRegistry.Storage.getCall, hcall', Option.map_some,
      hterms.endTs, hterms.outcomeCount, hterms.outcomeStakes, hstakes]
  | office _ hmarket ih =>
    simp only [Resident.stakeBook, CallRegistry.Storage.getCall] at ih ⊢
    rw [hmarket]
    exact ih
  | market _ _ _ ih => cases ih
  | rolled _ ih => cases ih
  | manager _ ih => cases ih
  | factory _ ih => cases ih
  | deployed _ ih => cases ih

/-- The resolved calls of a registry have ended, and were resolved to one of their outcomes. -/
def Resident.ResolvedInTime (now : Nat) : Resident → Prop
  | .registry s => ∀ callId call, s.market.calls callId = some call → call.outcome ≠ 0 →
      call.endTs ≤ now ∧ call.HasPosition call.outcome
  | _ => True

omit [Crypto] in
theorem Resident.ResolvedInTime.mono {later : Nat} (h : r.ResolvedInTime now)
    (hlater : now ≤ later) : r.ResolvedInTime later := by
  cases r with
  | registry s =>
    exact fun callId call hcall hresolved =>
      ⟨(h callId call hcall hresolved).1.trans hlater, (h callId call hcall hresolved).2⟩
  | _ => trivial

theorem Evolves.resolved_in_time (h : Evolves w l now address start r) (hbooked : start.Booked)
    (hstart : start.ResolvedInTime now) : r.ResolvedInTime now := by
  induction h with
  | refl => exact hstart
  | @registry s s' env config op effects hbefore hstep hnow _ ih =>
    obtain ⟨retained, hbooks⟩ : Resident.Booked (.registry s) := hbefore.booked hbooked
    intro callId call' hcall' hresolved
    by_cases hop : op.resolves = some callId
    · exact hnow ▸ hstep.resolves_in_time hop hcall'
    · obtain ⟨call, hcall, hdeal⟩ | ⟨_, _, _, _, _, _, _, _, _, rfl⟩ := hstep.call_origin hcall'
      · obtain ⟨kept, hkept, houtcome, -⟩ := hstep.resolution_kept hbooks hop hcall
        obtain rfl := Option.some.inj (hkept.symm.trans hcall')
        have hbefore := ih callId call hcall (houtcome ▸ hresolved)
        rw [hdeal.endTs, houtcome]
        exact ⟨hbefore.1, by
          simpa [CallRegistry.Call.HasPosition, hdeal.outcomeCount] using hbefore.2⟩
      · exact absurd rfl hresolved
  | office _ hmarket ih =>
    intro callId call hcall
    rw [hmarket] at hcall
    exact ih callId call hcall
  | @deployed kind =>
    cases kind with
    | registry => exact fun callId call hcall => by cases hcall
    | _ => trivial
  | _ => trivial

omit [Crypto] in
/-- What a registry is resolved to is one of the outcomes of its call. -/
theorem Resident.ResolvedInTime.resolved {ruling : Nat × Int} (h : r.ResolvedInTime now)
    (hbook : r.stakeBook callId = some book) (hresolved : r.resolved callId = some ruling) :
    book.endTs ≤ now ∧ ruling.1 ∈ CallRegistry.positions book.outcomeCount := by
  cases r with
  | registry s =>
    obtain ⟨call, hcall, rfl⟩ := stake_book_registry hbook
    simp only [Resident.resolved, hcall, Option.bind_some, resolvedAs,
      Option.ite_none_left_eq_some, Option.some.injEq] at hresolved
    obtain ⟨houtcome, rfl⟩ := hresolved
    obtain ⟨hended, hposition⟩ := h callId call hcall houtcome
    exact ⟨hended, CallRegistry.mem_positions.mpr hposition⟩
  | _ => cases hbook

end Residents

section Payouts

variable {R : Type} [Registries R] [Crypto] [Network] {env : Env} {s : Settings} {t : Tally}
  {op : PayoutOp} {p p' : Payouts} {others others' : R} {payments : List Payment}
  {effects : List (Effect Act)} {terms : ClaimTerms} {registry : Address} {callId : Nat}

theorem payout_claimed_kept (h : PayoutStep env s t op p others payments effects p' others')
    {key : Nat × Address} (hclaimed : p.claimed key = true) : p'.claimed key = true := by
  cases h with
  | claimPayout _ _ _ _ _ hpaid => exact (hpaid.marked key).mpr (.inl hclaimed)
  | claimPayoutNoRelease _ _ _ _ hpaid => exact (hpaid.marked key).mpr (.inl hclaimed)
  | claimOnBehalf _ _ _ _ _ hpaid => exact (hpaid.marked key).mpr (.inl hclaimed)
  | batch _ _ _ _ _ _ _ hpaid => exact (hpaid.marked key).mpr (.inl hclaimed)
  | setRecoveryAddress | removeRecoveryAddress | markSettled => exact hclaimed

/-- An operation that names a registry pays what it claims. -/
theorem claim_terms_paid (h : PayoutStep env s t op p others payments effects p' others')
    (hterms : claimTerms op = some terms) :
    Paid s t terms.callId terms.winning terms.losing p payments p' ∧ payments ≠ [] ∧
      payments.map (fun x => (x.winner, x.stake)) = terms.claims := by
  cases h with
  | claimPayout hfrom _ _ _ _ hpaid =>
    cases hfrom with
    | direct =>
      cases hterms
      exact ⟨hpaid, List.cons_ne_nil _ _, rfl⟩
    | forMarket => cases hterms
  | claimOnBehalf _ _ _ _ _ hpaid =>
    cases hterms
    exact ⟨hpaid, List.cons_ne_nil _ _, rfl⟩
  | batch hop _ _ hne _ hstakers _ hpaid =>
    cases hop
    all_goals
      cases hterms
      exact ⟨hpaid, hne, hstakers.1⟩
  | claimPayoutNoRelease | setRecoveryAddress | removeRecoveryAddress | markSettled => cases hterms

omit [Crypto] [Network] [Registries R] in
theorem released_fee {feeCollector named : Address} {share : Int} {call : Nat}
    (hshare : 0 ≤ share) :
    effectTotal (releasedFrom registry callId) (feeEffects named call feeCollector share) =
      if named = registry ∧ call = callId then share else 0 := by
  unfold feeEffects
  split
  · simp [releasedFrom]
  · obtain rfl : share = 0 := by omega
    simp

omit [Network] [Registries R] in
theorem released_loop (balances : Bool) (named : Address) (call i : Nat) (payments : List Payment) :
    effectTotal (releasedFrom registry callId) (loopEffects balances named call i payments) =
      if named = registry ∧ call = callId then (payments.map (·.amount)).sum else 0 := by
  induction payments generalizing i with
  | nil => simp [loopEffects]
  | cons x rest ih =>
    have hentry : effectTotal (releasedFrom registry callId)
        (entryEffects balances named call i x) =
        if named = registry ∧ call = callId then x.amount else 0 := by
      cases balances <;> simp [entryEffects, Payment.release, releasedFrom]
    rw [loopEffects, effectTotal_append, ih, hentry]
    split
    · rw [List.map_cons, List.sum_cons, add_comm]
    · rfl

/-- The payments of claims take their amounts and their fee shares out of the escrow that they
name. -/
theorem released_of_claims (h : PayoutStep env s t op p others payments effects p' others')
    (hterms : claimTerms op = some terms) (hshares : ∀ x ∈ payments, 0 ≤ x.feeShare) :
    effectTotal (releasedFrom registry callId) effects =
      if terms.registry = registry ∧ terms.callId = callId then
        (payments.map fun x => x.feeShare + x.amount).sum
      else 0 := by
  cases h with
  | @claimPayout _ named call _ _ _ _ x _ _ _ hfrom =>
    cases hfrom with
    | direct =>
      cases hterms
      have hshare := hshares x (List.mem_singleton_self x)
      rw [claimEffects, effectTotal_append, effectTotal_cons, released_fee hshare]
      by_cases hat : named = registry ∧ call = callId
      · simp [claimEvents, Payment.release, releasedFrom, hat, add_comm]
      · simp [claimEvents, Payment.release, releasedFrom, hat]
    | forMarket => cases hterms
  | @claimOnBehalf named call _ _ _ _ x =>
    cases hterms
    have hshare := hshares x (List.mem_singleton_self x)
    rw [onBehalfEffects, effectTotal_cons, effectTotal_cons, released_fee hshare]
    by_cases hat : named = registry ∧ call = callId
    · simp [Payment.release, releasedFrom, hat, add_comm]
    · simp [Payment.release, releasedFrom, hat]
  | batch hop =>
    have hsum : 0 ≤ (payments.map (·.feeShare)).sum :=
      List.sum_nonneg fun share hshare => by
        obtain ⟨x, hx, rfl⟩ := List.mem_map.mp hshare
        exact hshares x hx
    cases hop
    all_goals
      cases hterms
      rw [batchEffects, effectTotal_append, effectTotal_append, released_fee hsum,
        released_loop, List.sum_map_add]
      split <;> simp [releasedFrom]
  | claimPayoutNoRelease | setRecoveryAddress | removeRecoveryAddress | markSettled => cases hterms

theorem payouts_of_claims (h : PayoutStep env s t op p others payments effects p' others')
    (hterms : claimTerms op = some terms) {x : EscrowPayout}
    (hx : x ∈ Label.payouts env.contract (.managed ⟨env, .payout op, effects⟩)) :
    ∃ y ∈ payments, x = ⟨terms.registry, terms.callId, y.winner, y.payee, y.amount⟩ := by
  simp only [Label.payouts, if_true, List.mem_map, Prod.exists] at hx
  obtain ⟨escrow, call, payee, amount, hmem, rfl⟩ := hx
  cases h with
  | @claimPayout _ _ _ _ _ _ _ y _ _ _ hfrom _ _ hpayee =>
    cases hfrom with
    | direct =>
      cases hterms
      rw [payout_releases_claim, List.mem_singleton] at hmem
      cases hmem
      exact ⟨y, List.mem_singleton_self y, by rw [← hpayee]; rfl⟩
    | forMarket => cases hterms
  | @claimOnBehalf _ _ _ _ _ _ y =>
    cases hterms
    rw [payout_releases_on_behalf, List.mem_singleton] at hmem
    cases hmem
    exact ⟨y, List.mem_singleton_self y, rfl⟩
  | batch hop _ _ _ _ hstakers =>
    rw [payout_releases_batch, List.mem_reverse, List.mem_map] at hmem
    obtain ⟨y, hy, heq⟩ := hmem
    cases heq
    refine ⟨y, hy, ?_⟩
    rw [winner_for_batch hop, hstakers.2 y hy]
    cases hop
    all_goals
      cases hterms
      rfl
  | claimPayoutNoRelease | setRecoveryAddress | removeRecoveryAddress | markSettled => cases hterms

omit [Crypto] [Network] in
/-- A quote of a stake takes out at most the stake's part of both pools. -/
theorem quote_within_pools {settings : Settings} {stake winning losing share amount : Int}
    (h : Quoted settings stake winning losing share amount) (hfee : settings.feeBps ≤ maxFeeBps)
    (hlosing : 0 ≤ losing) : (share + amount) * winning ≤ stake * (winning + losing) := by
  obtain ⟨rfl, rfl⟩ := h.exact hfee hlosing
  have hshare := proRata_mul_le (totalFee losing settings.feeBps) stake h.winning_pos
  have hprize := proRata_mul_le (losing - totalFee losing settings.feeBps) stake h.winning_pos
  calc (feeShare losing settings.feeBps winning stake +
          payout losing settings.feeBps winning stake) * winning
      = proRata (totalFee losing settings.feeBps) winning stake * winning + (stake * winning +
          proRata (losing - totalFee losing settings.feeBps) winning stake * winning) := by
        rw [feeShare, payout]
        ring
    _ ≤ stake * totalFee losing settings.feeBps +
          (stake * winning + stake * (losing - totalFee losing settings.feeBps)) := by omega
    _ = stake * (winning + losing) := by ring

end Payouts

section Steps

variable {S : Type} [Strangers S] [Crypto] [Network] [Deployer] {outside : S → S → Prop}
  {m home : Address} {w w' : World S} {l : Label} {history : List Label}

theorem WorldStep.time_le (h : WorldStep outside w l w') : w.timestamp ≤ w'.timestamp := by
  cases h with
  | managed _ hinvoke | registered _ hinvoke | traded _ hinvoke | produced _ hinvoke =>
    obtain ⟨hadmits, _, _, _, rfl⟩ := World.invoke_eq_some.mp hinvoke
    exact hadmits.timestamp
  | deployed | lapsed | elsewhere => exact le_rfl

/-- What holds of the manager and the registry in every run. -/
structure Standing (m home : Address) (w : World S) : Prop where
  booked : (w.ledger.resident home).Booked
  inTime : (w.ledger.resident home).ResolvedInTime w.timestamp
  fee : ∀ s, w.ledger.managerAt m = some s → s.settings.feeBps ≤ maxFeeBps
  pending : ∀ s, w.ledger.managerAt m = some s → ∀ c, s.tally.pendingOutcome c = none

theorem Standing.step (h : Standing m home w) (hstep : WorldStep outside w l w') :
    Standing m home w' where
  booked := (hstep.moved home).booked h.booked
  inTime := (hstep.moved home).resolved_in_time h.booked (h.inTime.mono hstep.time_le)
  fee s' hm' := by
    have hmoves := hstep.at_manager m
    rw [hm'] at hmoves
    cases hm : w.ledger.managerAt m with
    | none =>
      rw [hm] at hmoves
      cases hmoves
      exact Nat.zero_le _
    | some s =>
      rw [hm] at hmoves
      have hfee := h.fee s hm
      cases hmoves with
      | invoked _ hinvoked =>
        cases hinvoked.moves with
        | settings _ _ _ hchange => exact hchange.fee_valid hfee
        | report | payout => exact hfee
      | rolled | lapsed | untouched => exact hfee
  pending s' hm' := by
    have hmoves := hstep.at_manager m
    rw [hm'] at hmoves
    cases hm : w.ledger.managerAt m with
    | none =>
      rw [hm] at hmoves
      cases hmoves
      exact fun _ => rfl
    | some s =>
      rw [hm] at hmoves
      have hpending := h.pending s hm
      cases hmoves with
      | invoked _ hinvoked =>
        cases hinvoked.moves with
        | report _ _ _ hreport => exact hreport.pending_kept hpending
        | settings | payout => exact hpending
      | lapsed =>
        intro c
        exact (congrFun (Tally.lapse_pendingOutcome _ _) c).trans (hpending c)
      | rolled | untouched => exact hpending

theorem standing_of_run {guard : System.Guard (World S) Label}
    (run : (platform outside).RunWhere guard history w) : Standing m home w := by
  refine run.invariant (I := fun _ w => Standing m home w) ?_ fun _ _ _ _ _ h hstep _ =>
    h.step hstep
  intro w hw
  have hresident : w.ledger.resident = fun _ => .stranger := hw
  have hnone : w.ledger.managerAt m = none := by
    unfold Ledger.managerAt
    rw [hresident]
    rfl
  refine ⟨?_, ?_, by simp [hnone], by simp [hnone]⟩
  · rw [hresident]
    trivial
  · rw [hresident]
    trivial

/-- A manager keeps what it decided and whom it marked. -/
theorem ManagerStep.records_kept {s s' : OutcomeManager.Storage}
    (h : ManagerStep m w l (some s) (some s')) (hpending : ∀ c, s.tally.pendingOutcome c = none)
    {callId : Nat} {ruling : Outcome} (hfinal : s.tally.finalOutcome callId = some ruling) :
    s'.tally.finalOutcome callId = some ruling ∧
      ∀ key, s.payouts.claimed key = true → s'.payouts.claimed key = true := by
  cases h with
  | invoked _ hinvoked =>
    cases hinvoked.moves with
    | settings => exact ⟨hfinal, fun _ => id⟩
    | report _ _ _ hreport => exact ⟨hreport.final_kept hpending hfinal, fun _ => id⟩
    | payout _ _ _ hpayout => exact ⟨hfinal, fun _ => payout_claimed_kept hpayout⟩
  | rolled _ _ _ _ hpaid => exact ⟨hfinal, fun key hkey => (hpaid.marked key).mpr (.inl hkey)⟩
  | lapsed => exact ⟨(congrFun (Tally.lapse_finalOutcome _ _) callId).trans hfinal, fun _ => id⟩
  | untouched => exact ⟨hfinal, fun _ => id⟩

/-- The stakers whose claims have been paid hold stakes for what was drawn: each stake is worth at
most its part of all the pools. -/
structure Drawn (m home : Address) (w : World S) (callId : Nat) (amount : Int) (book : StakeBook)
    (outcome : Nat) (paid : List Address) : Prop where
  stored : (w.ledger.resident home).stakeBook callId = some book
  ended : book.endTs ≤ w.timestamp
  winning : 0 < book.pool outcome
  marked : ∃ s ruling, w.ledger.managerAt m = some s ∧
    s.tally.finalOutcome callId = some ruling ∧ ruling.outcome = outcome ∧
    ∀ staker ∈ paid, s.payouts.claimed (callId, staker) = true
  distinct : paid.Nodup
  covered : amount * book.pool outcome ≤
    (paid.map fun staker => book.stakeOf staker outcome).sum * book.total

/-- Nothing has been drawn for a call, or what was drawn is covered. -/
def Backed (m home : Address) (w : World S) (callId : Nat) (amount : Int) : Prop :=
  amount = 0 ∨ ∃ book outcome paid, Drawn m home w callId amount book outcome paid

theorem Drawn.kept {callId : Nat} {amount : Int} {book : StakeBook} {outcome : Nat}
    {paid : List Address} (h : Drawn m home w callId amount book outcome paid)
    (hs : Standing m home w) (hstep : WorldStep outside w l w') :
    Drawn m home w' callId amount book outcome paid where
  stored := (hstep.moved home).stake_book_kept hs.booked h.stored (h.ended.trans hstep.time_le)
  ended := h.ended.trans hstep.time_le
  winning := h.winning
  marked := by
    obtain ⟨s, ruling, hm, hfinal, houtcome, hmarked⟩ := h.marked
    have hmoves := hstep.at_manager m
    rw [hm] at hmoves
    cases hm' : w'.ledger.managerAt m with
    | none =>
      rw [hm'] at hmoves
      cases hmoves
    | some s' =>
      rw [hm'] at hmoves
      obtain ⟨hfinal', hkept⟩ := hmoves.records_kept (hs.pending s hm) hfinal
      exact ⟨s', ruling, rfl, hfinal', houtcome, fun staker hpaid =>
        hkept _ (hmarked staker hpaid)⟩
  distinct := h.distinct
  covered := h.covered

theorem Backed.kept {callId : Nat} {amount : Int} (h : Backed m home w callId amount)
    (hs : Standing m home w) (hstep : WorldStep outside w l w') :
    Backed m home w' callId amount := by
  obtain hnone | ⟨book, outcome, paid, hdrawn⟩ := h
  · exact .inl hnone
  · exact .inr ⟨book, outcome, paid, hdrawn.kept hs hstep⟩

omit [Strangers S] [Crypto] [Network] [Deployer] in
theorem Backed.le_total {callId : Nat} {amount : Int} {book : StakeBook}
    (h : Backed m home w callId amount) (hs : Standing m home w)
    (hbook : (w.ledger.resident home).stakeBook callId = some book) : amount ≤ book.total := by
  have htotal := book_total_nonneg hs.booked hbook
  obtain rfl | ⟨book', outcome, paid, hdrawn⟩ := h
  · exact htotal
  · obtain rfl := Option.some.inj (hdrawn.stored.symm.trans hbook)
    have hpaid := sum_stakes_le_pool hs.booked hbook hdrawn.distinct outcome
    have hcovered := hdrawn.covered.trans (mul_le_mul_of_nonneg_right hpaid htotal)
    rw [mul_comm (book'.pool outcome)] at hcovered
    exact le_of_mul_le_mul_right hcovered hdrawn.winning

end Steps

section Claims

variable {S : Type} [Strangers S] [Crypto] [Network] [Deployer] {outside : S → S → Prop}
  {m home : Address} {w w' : World S} {l : Label} {history : List Label} {env : Env}
  {op : PayoutOp} {effects : List (Effect Act)} {terms : ClaimTerms}

/-- An operation on the payouts of the manager that it names. -/
theorem WorldStep.pays (h : WorldStep outside w (.managed ⟨env, .payout op, effects⟩) w') :
    ∃ s payments p' others', w.ledger.managerAt env.contract = some s ∧
      PayoutStep env s.settings s.tally op s.payouts (w.ledger.set env.contract .running) payments
        effects p' others' ∧
      w'.ledger.managerAt env.contract = some { s with payouts := p' } := by
  cases h with
  | @managed _ _ _ s _ hresident hinvoke =>
    obtain ⟨-, f, hrun, rfl, rfl⟩ := World.invoke_eq_some.mp hinvoke
    obtain ⟨payments, effects, p', others', hstep, rfl⟩ := PayoutOp.steps hrun
    have heffects : effects ++ [] = effects := List.append_nil effects
    simp only [Frame.afterCalls, heffects]
    refine ⟨s, payments, p', others', Ledger.manager_at_eq.mpr hresident, hstep, ?_⟩
    exact Ledger.manager_at_eq.mpr (Ledger.set_resident _ _ _)

omit [Strangers S] [Crypto] [Network] [Deployer] in
theorem decided_book_eq_some {callId outcome : Nat} {book : StakeBook}
    (h : w.decidedBook m home callId = some (book, outcome)) :
    ∃ s ruling price, w.ledger.managerAt m = some s ∧
      s.tally.finalOutcome callId = some ruling ∧ ruling.outcome = outcome ∧
      (w.ledger.resident home).resolved callId = some (outcome, price) ∧
      (w.ledger.resident home).stakeBook callId = some book := by
  simp only [World.decidedBook, Option.bind_eq_bind, Option.bind_eq_some_iff, Prod.exists,
    Option.ite_none_right_eq_some, Option.some.injEq, Prod.mk.injEq] at h
  obtain ⟨s, hm, ruling, hfinal, outcome, price, hresolved, book, hbook, houtcome, rfl, rfl⟩ := h
  exact ⟨s, ruling, price, hm, hfinal, houtcome.symm, hresolved, hbook⟩

omit [Strangers S] [Crypto] [Network] [Deployer] in
theorem World.statesBook_eq (h : w.statesBook m home terms = true) :
    ∃ book outcome, terms.registry = home ∧
      w.decidedBook m home terms.callId = some (book, outcome) ∧
      terms.winning = book.pool outcome ∧ terms.losing = book.losing outcome ∧
      ∀ claim ∈ terms.claims, claim.2 = book.stakeOf claim.1 outcome := by
  unfold World.statesBook at h
  cases hbook : w.decidedBook m home terms.callId with
  | none => simp [hbook] at h
  | some decided =>
    obtain ⟨book, outcome⟩ := decided
    simp only [hbook, Option.any_some, Bool.and_eq_true, decide_eq_true_eq, List.all_eq_true] at h
    obtain ⟨hregistry, ⟨hwinning, hlosing⟩, hclaims⟩ := h
    exact ⟨book, outcome, hregistry, rfl, hwinning, hlosing, hclaims⟩

omit [Deployer] in
theorem claims_quoted {s : OutcomeManager.Storage} {payments : List Payment} {p' : Payouts}
    {others others' : Ledger S} (hs : Standing m home w)
    (hpayout : PayoutStep env s.settings s.tally op s.payouts others payments effects p' others')
    (hterms : claimTerms op = some terms) (hstates : w.statesBook m home terms = true) :
    ∃ book outcome, terms.registry = home ∧
      w.decidedBook m home terms.callId = some (book, outcome) ∧ book.endTs ≤ w.timestamp ∧
      0 ≤ book.losing outcome ∧ payments ≠ [] ∧
      Paid s.settings s.tally terms.callId (book.pool outcome) (book.losing outcome) s.payouts
        payments p' ∧
      ∀ x ∈ payments, x.stake = book.stakeOf x.winner outcome := by
  obtain ⟨hpaid, hne, hclaims⟩ := claim_terms_paid hpayout hterms
  obtain ⟨book, outcome, hregistry, hdecided, hwinning, hlosing, hstakes⟩ :=
    World.statesBook_eq hstates
  obtain ⟨_, _, _, -, -, -, hresolved, hbook⟩ := decided_book_eq_some hdecided
  obtain ⟨hended, hposition⟩ := hs.inTime.resolved hbook hresolved
  rw [hwinning, hlosing] at hpaid
  refine ⟨book, outcome, hregistry, hdecided, hended, losing_nonneg hs.booked hbook hposition,
    hne, hpaid, fun x hx => ?_⟩
  rw [← hclaims] at hstakes
  exact hstakes _ (List.mem_map_of_mem hx)

/-- Claims of recorded stakes keep what is drawn covered. -/
theorem Backed.draws {callId : Nat} {amount : Int} (h : Backed m home w callId amount)
    (hs : Standing m home w) (hstep : WorldStep outside w (.managed ⟨env, .payout op, effects⟩) w')
    (hself : env.contract = m) (hterms : claimTerms op = some terms)
    (hstates : w.statesBook m home terms = true) :
    Backed m home w' callId (amount + effectTotal (releasedFrom home callId) effects) := by
  subst hself
  obtain ⟨s, payments, p', others', hm, hpayout, hm'⟩ := hstep.pays
  obtain ⟨book, outcome, hregistry, hdecided, hended, hlosing, hne, hpaid, hstakes⟩ :=
    claims_quoted hs hpayout hterms hstates
  have hfee := hs.fee s hm
  have hshares : ∀ x ∈ payments, 0 ≤ x.feeShare := by
    intro x hx
    have hquoted := hpaid.quoted x hx
    rw [(hquoted.exact hfee hlosing).1]
    exact fee_share_nonneg hlosing hquoted.winning_pos hquoted.stake_pos.le
  rw [released_of_claims hpayout hterms hshares]
  by_cases hcall : terms.callId = callId
  · subst hcall
    rw [if_pos ⟨hregistry, rfl⟩]
    obtain ⟨s₁, ruling, price, hm₁, hfinal, houtcome, -, hbook⟩ := decided_book_eq_some hdecided
    obtain rfl := Option.some.inj (hm.symm.trans hm₁)
    -- What has been drawn so far is covered by stakers who are marked.
    obtain ⟨paid, hdistinct, hmarked, hcovered⟩ : ∃ paid : List Address, paid.Nodup ∧
        (∀ staker ∈ paid, s.payouts.claimed (terms.callId, staker) = true) ∧
        amount * book.pool outcome ≤
          (paid.map fun staker => book.stakeOf staker outcome).sum * book.total := by
      obtain rfl | ⟨book', outcome', paid, hdrawn⟩ := h
      · exact ⟨[], List.nodup_nil, by simp, by simp⟩
      · obtain rfl := Option.some.inj (hdrawn.stored.symm.trans hbook)
        obtain ⟨s₂, ruling', hm₂, hfinal', houtcome', hmarked⟩ := hdrawn.marked
        obtain rfl := Option.some.inj (hm.symm.trans hm₂)
        obtain rfl := Option.some.inj (hfinal.symm.trans hfinal')
        obtain rfl := houtcome.symm.trans houtcome'
        exact ⟨paid, hdrawn.distinct, hmarked, hdrawn.covered⟩
    have hpayments : (payments.map fun x => x.feeShare + x.amount).sum * book.pool outcome ≤
        ((payments.map (·.winner)).map fun staker => book.stakeOf staker outcome).sum *
          book.total := by
      rw [← List.sum_map_mul_right, ← List.sum_map_mul_right, List.map_map]
      refine List.sum_le_sum fun x hx => ?_
      have hwithin := quote_within_pools (hpaid.quoted x hx) hfee hlosing
      rw [hstakes x hx, StakeBook.losing, add_sub_cancel] at hwithin
      exact hwithin
    obtain ⟨x, hx⟩ := List.exists_mem_of_ne_nil payments hne
    refine .inr ⟨book, outcome, payments.map (·.winner) ++ paid, ?_⟩
    refine ⟨?_, hended.trans hstep.time_le, (hpaid.quoted x hx).winning_pos,
      ⟨_, ruling, hm', hfinal, houtcome, ?_⟩, ?_, ?_⟩
    · exact (hstep.moved home).stake_book_kept hs.booked hbook (hended.trans hstep.time_le)
    · intro staker hstaker
      rw [hpaid.marked]
      exact (List.mem_append.mp hstaker).elim (fun hnew => .inr ⟨rfl, hnew⟩)
        fun hold => .inl (hmarked staker hold)
    · refine List.nodup_append.mpr ⟨hpaid.distinct, hdistinct, ?_⟩
      rintro winner hnew _ hold rfl
      obtain ⟨y, hy, rfl⟩ := List.mem_map.mp hnew
      have hunpaid := hpaid.unpaid y hy
      rw [hmarked _ hold] at hunpaid
      cases hunpaid
    · rw [List.map_append, List.sum_append, add_mul, add_mul, add_comm]
      exact add_le_add hpayments hcovered
  · rw [if_neg fun hat => hcall hat.2, add_zero]
    exact h.kept hs hstep

omit [Crypto] [Network] [Deployer] in
/-- Only claims that name a registry release anything that counts. -/
theorem released_by (l : Label) (registry : Address) (callId : Nat) :
    l.released m registry callId = 0 ∨ ∃ env op effects terms,
      l = .managed ⟨env, .payout op, effects⟩ ∧ env.contract = m ∧ claimTerms op = some terms ∧
        l.released m registry callId = effectTotal (releasedFrom registry callId) effects := by
  cases l with
  | managed receipt =>
    obtain ⟨env, action, effects⟩ := receipt
    cases action with
    | payout op =>
      by_cases hclaims : env.contract = m ∧ (claimTerms op).isSome
      · obtain ⟨terms, hterms⟩ := Option.isSome_iff_exists.mp hclaims.2
        exact .inr ⟨env, op, effects, terms, rfl, hclaims.1, hterms, if_pos hclaims⟩
      · exact .inl (if_neg hclaims)
    | _ => exact .inl rfl
  | _ => exact .inl rfl

/-- In a run whose claims state recorded stakes, what is drawn is covered. -/
theorem backed_of_run (run : (platform outside).RunWhere (recordedClaims m home) history w)
    (callId : Nat) : Backed m home w callId (releasedByClaims m home callId history) := by
  refine run.invariant (I := fun history w => Backed m home w callId
    (releasedByClaims m home callId history)) (fun _ _ => .inl rfl) ?_
  intro history w l w' hrun h hstep hguard
  have hs : Standing m home w := standing_of_run hrun
  have hsum : releasedByClaims m home callId (l :: history) =
      releasedByClaims m home callId history + l.released m home callId := by
    rw [releasedByClaims, List.map_cons, List.sum_cons, add_comm]
    rfl
  obtain hnone | ⟨env, op, effects, terms, rfl, hself, hterms, heq⟩ := released_by l home callId
  · rw [hsum, hnone, add_zero]
    exact h.kept hs hstep
  · have hstates : w.statesBook m home terms = true := by
      simpa [recordedClaims, World.claimsBook, hself, hterms] using hguard
    rw [hsum, heq]
    exact h.draws hs hstep hself hterms hstates

end Claims

section Scenario

attribute [local instance] scenarioCrypto testNetwork noDeployer

def recordedRun : Replayed (fun _ w l => w.claimsBook OutcomeManager.home CallRegistry.home l) :=
  .of freshWorld fresh_world_initial
    (claimScript (.claimPayout CallRegistry.home 1 CallRegistry.alice 300 300 200))
    (by decide +kernel)

/-- Bob stakes on a second call, and Alice states a losing pool of three hundred for the first. -/
def inflatedScript : List Input :=
  openingScript ++
    [.register ⟨CallRegistry.home, 6, 6, [CallRegistry.alice]⟩
        (.market (.createCall CallRegistry.alice CallRegistry.sampleCall)),
      .register ⟨CallRegistry.home, 7, 7, [CallRegistry.bob]⟩
        (.market (.stakeOnCall CallRegistry.bob 2 400 1)),
      submits CallRegistry.home 1001 oracleA signatureA,
      submits CallRegistry.home 1002 oracleB signatureB,
      .manage ⟨OutcomeManager.home, 2000, 2000, [CallRegistry.alice]⟩
        (.payout (.claimPayout CallRegistry.home 1 CallRegistry.alice 300 300 300))]

def inflatedRun : Replayed System.anything :=
  .of freshWorld fresh_world_initial inflatedScript (by decide +kernel)

end Scenario

end Backit.Platform
