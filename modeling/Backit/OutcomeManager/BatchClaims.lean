import Backit.OutcomeManager.ClaimSteps
import Backit.Soroban.Disbursements

/-!
# Claims one by one and in a batch

A batch succeeds exactly when its entries are owed, their fee shares have a sum, and the releases to
the winners and then of the fee shares together succeed. All but the releases is the same for every
order of the entries, because the fee shares of a batch have one sign. A claim releases its own fee
share before its payout.
-/

namespace Backit.OutcomeManager

open Soroban Contract Shared

/-- None of the amounts is negative, or none is positive. -/
def SameSign (amounts : List Int) : Prop := (∀ x ∈ amounts, 0 ≤ x) ∨ ∀ x ∈ amounts, x ≤ 0

theorem SameSign.perm {amounts ordered : List Int} (h : SameSign amounts)
    (hperm : ordered.Perm amounts) : SameSign ordered := by
  rcases h with h | h
  · exact .inl fun x hx => h x (hperm.subset hx)
  · exact .inr fun x hx => h x (hperm.subset hx)

theorem sum_nonpos {amounts : List Int} (h : ∀ x ∈ amounts, x ≤ 0) : amounts.sum ≤ 0 := by
  simpa using List.sum_le_card_nsmul amounts 0 h

/-- Amounts of one sign are added up without overflow if their sum is in range. -/
theorem checked_sum_iff {amounts : List Int} (h : SameSign amounts) {start total : Int}
    (hstart : InI128 start) :
    amounts.foldlM checkedAdd start = some total ↔
      total = start + amounts.sum ∧ InI128 total := by
  induction amounts generalizing start with
  | nil =>
    simp only [List.foldlM_nil, Option.pure_def, Option.some.injEq, List.sum_nil, add_zero]
    constructor
    · rintro rfl
      exact ⟨rfl, hstart⟩
    · exact fun h => h.1.symm
  | cons x rest ih =>
    have hrest : SameSign rest := h.imp (fun h y hy => h y (.tail _ hy)) fun h y hy =>
      h y (.tail _ hy)
    -- The first sum lies between the start and the total.
    have hbetween : InI128 (start + (x + rest.sum)) → InI128 (start + x) := by
      rintro ⟨hmin, hmax⟩
      rcases h with h | h
      · have hx := h x (.head _)
        have hsum := List.sum_nonneg fun y hy => h y (.tail _ hy)
        exact ⟨by have := hstart.1; omega, by omega⟩
      · have hx := h x (.head _)
        have hsum := sum_nonpos fun y hy => h y (.tail _ hy)
        exact ⟨by omega, by have := hstart.2; omega⟩
    simp only [List.foldlM_cons, Option.bind_eq_bind, Option.bind_eq_some_iff, checkedAdd,
      checked_eq_some, List.sum_cons]
    constructor
    · rintro ⟨_, ⟨hfirst, rfl⟩, hfold⟩
      obtain ⟨rfl, hin⟩ := (ih hrest hfirst).mp hfold
      exact ⟨by omega, hin⟩
    · rintro ⟨rfl, hin⟩
      exact ⟨_, ⟨hbetween hin, rfl⟩, (ih hrest (hbetween hin)).mpr ⟨by omega, hin⟩⟩

theorem sum_positive_parts {amounts : List Int} (h : SameSign amounts) :
    (amounts.map (max · 0)).sum = max amounts.sum 0 := by
  rcases h with h | h
  · have hsame : amounts.map (max · 0) = amounts.map id :=
      List.map_congr_left fun x hx => max_eq_left (h x hx)
    rw [hsame, List.map_id, max_eq_left (List.sum_nonneg h)]
  · have hzero : amounts.map (max · 0) = amounts.map fun _ => 0 :=
      List.map_congr_left fun x hx => max_eq_right (h x hx)
    rw [hzero, max_eq_right (sum_nonpos h)]
    simp

/-- The fee shares of claims against the same pools have the sign of the fee. -/
theorem share_sign {stake winning fee net share amount : Int} (hstake : 0 < stake)
    (hwinning : 0 < winning) (h : computePayoutParts stake winning fee net = some (share, amount)) :
    (0 ≤ fee → 0 ≤ share) ∧ (fee ≤ 0 → share ≤ 0) := by
  simp only [computePayoutParts, Option.bind_eq_bind, Option.bind_eq_some_iff, checkedMul,
    checkedDiv, checked_eq_some, checkedAdd, if_neg hwinning.ne'] at h
  obtain ⟨_, ⟨-, rfl⟩, _, ⟨-, rfl⟩, _, -, _, -, _, -, heq⟩ := h
  cases heq
  constructor
  · exact fun hfee => Int.tdiv_nonneg (mul_nonneg hstake.le hfee) hwinning.le
  · intro hfee
    have hproduct : stake * fee ≤ 0 := mul_nonpos_of_nonneg_of_nonpos hstake.le hfee
    simpa using Int.tdiv_le_tdiv hwinning hproduct

/-- What a payment claims, and what the registry releases for it. -/
def Payment.claim (x : Payment) : Address × Int := (x.winner, x.stake)

def Payment.out (x : Payment) : Address × Int := (x.payee, x.amount)

/-- The release of a fee share, if there is any. -/
def feeRelease (feeCollector : Address) (feeShare : Int) : List (Address × Int) :=
  if 0 < feeShare then [(feeCollector, feeShare)] else []

theorem amount_of_fee_release (feeCollector : Address) (feeShare : Int) :
    amountOf (feeRelease feeCollector feeShare) = max feeShare 0 := by
  unfold feeRelease
  split <;> simp <;> omega

theorem paid_delta_fee_release (sender feeCollector : Address) (feeShare : Int) (who : Address) :
    paidDelta sender (feeRelease feeCollector feeShare) who =
      transferDelta sender feeCollector (max feeShare 0) who := by
  unfold feeRelease
  split
  · next hpos => rw [max_eq_left hpos.le, paid_delta_cons, paid_delta_nil, add_zero]
  · next hneg => rw [max_eq_right (by omega), transfer_delta_zero, paid_delta_nil]

/-- The releases of a batch. -/
def batchReleases (feeCollector : Address) (payments : List Payment) : List (Address × Int) :=
  payments.map Payment.out ++ feeRelease feeCollector (payments.map (·.feeShare)).sum

/-- The releases of a claim: the fee share comes first. -/
def claimReleases (feeCollector : Address) (x : Payment) : List (Address × Int) :=
  feeRelease feeCollector x.feeShare ++ [x.out]

theorem amount_of_claim_releases (feeCollector : Address) (payments : List Payment) :
    amountOf (payments.flatMap (claimReleases feeCollector)) =
      amountOf (payments.map Payment.out) +
        ((payments.map (·.feeShare)).map (max · 0)).sum := by
  induction payments with
  | nil => rfl
  | cons x rest ih =>
    simp only [List.flatMap_cons, claimReleases, amount_of_append, amount_of_fee_release,
      amount_of_cons, amount_of_nil, List.map_cons, List.sum_cons, ih]
    omega

theorem paid_delta_claim_releases (sender feeCollector : Address) (payments : List Payment)
    (who : Address) :
    paidDelta sender (payments.flatMap (claimReleases feeCollector)) who =
      paidDelta sender (payments.map Payment.out) who +
        transferDelta sender feeCollector
          ((payments.map (·.feeShare)).map (max · 0)).sum who := by
  induction payments with
  | nil => simp
  | cons x rest ih =>
    simp only [List.flatMap_cons, claimReleases, paid_delta_append, paid_delta_fee_release,
      paid_delta_cons, paid_delta_nil, List.map_cons, List.sum_cons, transfer_delta_add, ih]
    omega

variable {feeCollector : Address}

theorem fee_release_nonneg {feeShare : Int} : ∀ p ∈ feeRelease feeCollector feeShare, 0 ≤ p.2 := by
  unfold feeRelease
  split
  · next hpos => simpa using hpos.le
  · simp

theorem batch_releases_nonneg {payments : List Payment}
    (h : ∀ x ∈ payments, 0 ≤ x.amount) : ∀ p ∈ batchReleases feeCollector payments, 0 ≤ p.2 := by
  intro p hp
  rcases List.mem_append.mp hp with hp | hp
  · obtain ⟨x, hx, rfl⟩ := List.mem_map.mp hp
    exact h x hx
  · exact fee_release_nonneg p hp

theorem claim_releases_nonneg {payments : List Payment} (h : ∀ x ∈ payments, 0 ≤ x.amount) :
    ∀ p ∈ payments.flatMap (claimReleases feeCollector), 0 ≤ p.2 := by
  intro p hp
  obtain ⟨x, hx, hp⟩ := List.mem_flatMap.mp hp
  rcases List.mem_append.mp hp with hp | hp
  · exact fee_release_nonneg p hp
  · rw [List.mem_singleton.mp hp]
    exact h x hx

/-- Claims one by one release as much as their batch, to the same recipients. -/
theorem claim_releases_eq_batch {payments ordered : List Payment}
    (hsign : SameSign (payments.map (·.feeShare))) (hperm : ordered.Perm payments) :
    amountOf (ordered.flatMap (claimReleases feeCollector)) =
        amountOf (batchReleases feeCollector payments) ∧
      ∀ sender who, paidDelta sender (ordered.flatMap (claimReleases feeCollector)) who =
        paidDelta sender (batchReleases feeCollector payments) who := by
  have hshares : ((ordered.map (·.feeShare)).map (max · 0)).sum =
      max (payments.map (·.feeShare)).sum 0 := by
    rw [sum_positive_parts (hsign.perm (hperm.map _)), (hperm.map _).sum_eq]
  have houts := hperm.map Payment.out
  refine ⟨?_, fun sender who => ?_⟩
  · rw [amount_of_claim_releases, hshares, batchReleases, amount_of_append,
      amount_of_fee_release, amount_of_perm houts]
  · rw [paid_delta_claim_releases, hshares, batchReleases, paid_delta_append,
      paid_delta_fee_release, paid_delta_perm sender houts]

theorem batch_releases_perm {payments ordered : List Payment} (hperm : ordered.Perm payments) :
    amountOf (batchReleases feeCollector ordered) =
        amountOf (batchReleases feeCollector payments) ∧
      ∀ sender who, paidDelta sender (batchReleases feeCollector ordered) who =
        paidDelta sender (batchReleases feeCollector payments) who := by
  have houts := hperm.map Payment.out
  have hsum := (hperm.map (·.feeShare)).sum_eq
  refine ⟨?_, fun sender who => ?_⟩
  · simp only [batchReleases, amount_of_append, hsum, amount_of_perm houts]
  · simp only [batchReleases, paid_delta_append, hsum, paid_delta_perm sender houts]

namespace Payouts

theorem markClaimed_claimed (p : Payouts) (callId : Nat) (winner : Address) :
    (p.markClaimed callId winner).claimed = Function.update p.claimed (callId, winner) true := rfl

/-- Mark the winners of some payments as paid. -/
def markAll (p : Payouts) (callId : Nat) (payments : List Payment) : Payouts :=
  payments.foldl (fun p x => p.markClaimed callId x.winner) p

theorem markAll_congr {p q : Payouts} (h : p.claimed = q.claimed) (callId : Nat)
    (payments : List Payment) :
    (p.markAll callId payments).claimed = (q.markAll callId payments).claimed := by
  induction payments generalizing p q with
  | nil => exact h
  | cons x rest ih => exact ih (by rw [markClaimed_claimed, markClaimed_claimed, h])

theorem markAll_claimed (p : Payouts) (callId : Nat) (payments : List Payment)
    (key : Nat × Address) :
    (p.markAll callId payments).claimed key = true ↔
      p.claimed key = true ∨ key.1 = callId ∧ key.2 ∈ payments.map (·.winner) := by
  induction payments generalizing p with
  | nil => simp [markAll]
  | cons x rest ih =>
    have hmark : (p.markAll callId (x :: rest)) =
        (p.markClaimed callId x.winner).markAll callId rest := rfl
    rw [hmark, ih, List.map_cons, List.mem_cons, markClaimed_claimed]
    by_cases hkey : key = (callId, x.winner)
    · subst hkey
      simp
    · have hne : ¬ (key.1 = callId ∧ key.2 = x.winner) := by
        rintro ⟨hid, hwho⟩
        exact hkey (Prod.ext hid hwho)
      rw [Function.update_of_ne hkey]
      tauto

end Payouts

/-- The payments are owed: their winners are distinct and unpaid and receive them, and the amounts
are the parts of positive stakes. -/
structure Owed (callId : Nat) (winning fee net : Int) (p : Payouts) (payments : List Payment) :
    Prop where
  distinct : (payments.map (·.winner)).Nodup
  unpaid : ∀ x ∈ payments, p.claimed (callId, x.winner) = false
  toWinner : ∀ x ∈ payments, x.payee = x.winner
  parts : ∀ x ∈ payments, 0 < x.stake ∧
    computePayoutParts x.stake winning fee net = some (x.feeShare, x.amount)

namespace Owed

variable {callId : Nat} {winning fee net : Int} {p : Payouts} {x : Payment}
  {payments ordered : List Payment}

theorem nil : Owed callId winning fee net p [] where
  distinct := .nil
  unpaid := by simp
  toWinner := by simp
  parts := by simp

theorem perm (h : Owed callId winning fee net p payments) (hperm : ordered.Perm payments) :
    Owed callId winning fee net p ordered where
  distinct := (hperm.map _).nodup_iff.mpr h.distinct
  unpaid y hy := h.unpaid y (hperm.subset hy)
  toWinner y hy := h.toWinner y (hperm.subset hy)
  parts y hy := h.parts y (hperm.subset hy)

/-- An entry and the rest are owed when the entry is, and the rest is once the entry is marked. -/
theorem cons_iff : Owed callId winning fee net p (x :: payments) ↔
      p.claimed (callId, x.winner) = false ∧ x.payee = x.winner ∧
        (0 < x.stake ∧
          computePayoutParts x.stake winning fee net = some (x.feeShare, x.amount)) ∧
        Owed callId winning fee net (p.markClaimed callId x.winner) payments := by
  constructor
  · rintro ⟨hdistinct, hunpaid, hpayee, hparts⟩
    obtain ⟨hnew, hrest⟩ := List.nodup_cons.mp hdistinct
    refine ⟨hunpaid x (.head _), hpayee x (.head _), hparts x (.head _), hrest, ?_, ?_, ?_⟩
    · intro y hy
      have hne : (callId, y.winner) ≠ (callId, x.winner) := fun heq =>
        hnew (List.mem_map.mpr ⟨y, hy, (Prod.mk.inj heq).2⟩)
      rw [Payouts.markClaimed_claimed, Function.update_of_ne hne]
      exact hunpaid y (.tail _ hy)
    · exact fun y hy => hpayee y (.tail _ hy)
    · exact fun y hy => hparts y (.tail _ hy)
  · rintro ⟨hunpaid, hpayee, hparts, hrest⟩
    have hfresh : ∀ y ∈ payments,
        y.winner ≠ x.winner ∧ p.claimed (callId, y.winner) = false := by
      intro y hy
      have hy' := hrest.unpaid y hy
      rw [Payouts.markClaimed_claimed] at hy'
      by_cases heq : y.winner = x.winner
      · rw [heq, Function.update_self] at hy'
        cases hy'
      · rw [Function.update_of_ne (by simpa using heq)] at hy'
        exact ⟨heq, hy'⟩
    refine ⟨List.nodup_cons.mpr ⟨?_, hrest.distinct⟩, ?_, ?_, ?_⟩
    · intro hmem
      obtain ⟨y, hy, heq⟩ := List.mem_map.mp hmem
      exact (hfresh y hy).1 heq
    · exact List.forall_mem_cons.mpr ⟨hunpaid, fun y hy => (hfresh y hy).2⟩
    · exact List.forall_mem_cons.mpr ⟨hpayee, hrest.toWinner⟩
    · exact List.forall_mem_cons.mpr ⟨hparts, hrest.parts⟩

theorem same_sign (h : Owed callId winning fee net p payments) (hwinning : 0 < winning) :
    SameSign (payments.map (·.feeShare)) := by
  have hsign : ∀ x ∈ payments, (0 ≤ fee → 0 ≤ x.feeShare) ∧ (fee ≤ 0 → x.feeShare ≤ 0) :=
    fun x hx => share_sign (h.parts x hx).1 hwinning (h.parts x hx).2
  rcases le_total 0 fee with hfee | hfee
  · exact .inl (List.forall_mem_map.mpr fun x hx => (hsign x hx).1 hfee)
  · exact .inr (List.forall_mem_map.mpr fun x hx => (hsign x hx).2 hfee)

end Owed

section Runs

variable {R : Type} [Registries R]

/-- The registry makes some releases for a call one after the other. -/
def releaseEach (env : Env) (registry : Address) (callId : Nat) (others : R)
    (paid : List (Address × Int)) : Option R :=
  paid.foldlM (fun o p => Registries.releaseEscrow env registry callId p.1 p.2 o) others

theorem release_each_nil (env : Env) (registry : Address) (callId : Nat) (o : R) :
    releaseEach env registry callId o [] = some o := rfl

theorem release_each_cons {env : Env} {registry : Address} {callId : Nat} {o o' : R}
    {p : Address × Int} {paid : List (Address × Int)} :
    releaseEach env registry callId o (p :: paid) = some o' ↔
      ∃ o₁, Registries.releaseEscrow env registry callId p.1 p.2 o = some o₁ ∧
        releaseEach env registry callId o₁ paid = some o' := by
  simp [releaseEach, List.foldlM_cons, Option.bind_eq_some_iff]

theorem release_each_append {env : Env} {registry : Address} {callId : Nat} {o o' : R}
    {paid more : List (Address × Int)} :
    releaseEach env registry callId o (paid ++ more) = some o' ↔
      ∃ o₁, releaseEach env registry callId o paid = some o₁ ∧
        releaseEach env registry callId o₁ more = some o' := by
  simp [releaseEach, List.foldlM_append, Option.bind_eq_some_iff]

variable {α : Type} {env : Env} {f f' : Frame Storage R Act} {u : Unit} {registry : Address}
  {callId : Nat} {winning losing fee net : Int} {feeCollector : Address} {payments : List Payment}

theorem release_fee_iff {feeShare : Int} :
    run (releaseFee registry callId feeCollector feeShare : Manager R Unit) env f = .ok (u, f') ↔
      ∃ others, releaseEach env registry callId f.tokens (feeRelease feeCollector feeShare) =
          some others ∧
        f' = Frame.afterCalls f others (feeEffects registry callId feeCollector feeShare) := by
  unfold releaseFee feeEffects feeRelease
  split
  · simp only [registryReleaseEscrow, run_callOut_bind, run_announce, release_each_cons,
      release_each_nil, Option.some.injEq, exists_eq_right]
    rfl
  · simp only [run_pure, Except.ok.injEq, Prod.mk.injEq, true_and, release_each_nil,
      Option.some.injEq, exists_eq_left']
    exact eq_comm

/-- What a batch needs apart from its releases. -/
structure BatchTerms (env : Env) (s : Storage) (callId : Nat) (winning losing : Int)
    (feeCollector : Address) (payments : List Payment) : Prop where
  admin : ∃ admin, s.settings.admin = some admin ∧ admin ∈ env.auths
  decided : s.tally.finalOutcome callId ≠ none
  entries : payments ≠ []
  winning_pos : 0 < winning
  collector : s.settings.feeCollector = some feeCollector
  terms : ∃ fee net, computeTotalFee losing s.settings.feeBps = some fee ∧
    checkedSub losing fee = some net ∧ Owed callId winning fee net s.payouts payments
  total : InI128 (payments.map (·.feeShare)).sum

theorem BatchTerms.perm {s : Storage} {payments ordered : List Payment}
    (h : BatchTerms env s callId winning losing feeCollector payments)
    (hperm : ordered.Perm payments) :
    BatchTerms env s callId winning losing feeCollector ordered where
  admin := h.admin
  decided := h.decided
  entries := by
    rintro rfl
    exact h.entries hperm.symm.eq_nil
  winning_pos := h.winning_pos
  collector := h.collector
  terms := by
    obtain ⟨fee, net, hfee, hnet, howed⟩ := h.terms
    exact ⟨fee, net, hfee, hnet, howed.perm hperm⟩
  total := by
    rw [(hperm.map _).sum_eq]
    exact h.total

theorem BatchTerms.same_sign {s : Storage}
    (h : BatchTerms env s callId winning losing feeCollector payments) :
    SameSign (payments.map (·.feeShare)) := by
  obtain ⟨_, _, -, -, howed⟩ := h.terms
  exact howed.same_sign h.winning_pos

theorem BatchTerms.unpaid {s : Storage}
    (h : BatchTerms env s callId winning losing feeCollector payments) :
    (payments.map (·.winner)).Nodup ∧
      ∀ x ∈ payments, s.payouts.claimed (callId, x.winner) = false := by
  obtain ⟨_, _, -, -, howed⟩ := h.terms
  exact ⟨howed.distinct, howed.unpaid⟩

theorem BatchTerms.quoted {s : Storage}
    (h : BatchTerms env s callId winning losing feeCollector payments) :
    ∀ x ∈ payments, x.payee = x.winner ∧
      Quoted s.settings x.stake winning losing x.feeShare x.amount := by
  obtain ⟨fee, net, hfee, hnet, howed⟩ := h.terms
  intro x hx
  obtain ⟨hstake, hparts⟩ := howed.parts x hx
  exact ⟨howed.toWinner x hx, hstake, h.winning_pos, fee, net, hfee, hnet, hparts⟩

variable [Crypto]

/-- When the loop of a batch without claimable balances succeeds, by induction on its entries. -/
theorem pay_batch_iff {entries : List (Address × Int)} {i : Nat} {aggregated total : Int} :
    run (payBatch false registry callId winning fee net i entries aggregated : Manager R Int) env
        f = .ok (total, f') ↔
      ∃ payments others, payments.map Payment.claim = entries ∧
        Owed callId winning fee net f.store.payouts payments ∧
        (payments.map (·.feeShare)).foldlM checkedAdd aggregated = some total ∧
        releaseEach env registry callId f.tokens (payments.map Payment.out) = some others ∧
        f' = Frame.afterCalls { f with store := f.store.onPayouts (·.markAll callId payments) }
          others (loopEffects false registry callId i payments) := by
  induction entries generalizing i aggregated f with
  | nil =>
    simp only [payBatch, run_pure, Except.ok.injEq, Prod.mk.injEq]
    constructor
    · rintro ⟨rfl, rfl⟩
      exact ⟨[], f.tokens, rfl, .nil, rfl, rfl, rfl⟩
    · rintro ⟨payments, others, hentries, -, htotal, hreleases, rfl⟩
      obtain rfl := List.map_eq_nil_iff.mp hentries
      cases htotal
      cases hreleases
      exact ⟨rfl, rfl⟩
  | cons entry rest ih =>
    obtain ⟨staker, stake⟩ := entry
    simp only [payBatch, run_steps, run_rejectIfClaimed_bind, registryReleaseEscrow,
      run_callOut_bind, not_le, Bool.false_eq_true, if_false, run_announce_bind, ih]
    constructor
    · rintro ⟨hstake, hunpaid, ⟨share, amount⟩, hparts, _, hsum, others₁, hrelease, payments,
        others, rfl, howed, htotal, hreleases, rfl⟩
      refine ⟨⟨staker, staker, stake, share, amount⟩ :: payments, others, rfl,
        Owed.cons_iff.mpr ⟨hunpaid, rfl, ⟨hstake, hparts⟩, howed⟩, ?_,
        release_each_cons.mpr ⟨others₁, hrelease, hreleases⟩, ?_⟩
      · rw [List.map_cons, List.foldlM_cons, hsum]
        exact htotal
      · simp only [Frame.afterCalls, loopEffects, entryEffects, List.append_assoc]
        rfl
    · rintro ⟨payments, others, hentries, howed, htotal, hreleases, rfl⟩
      obtain ⟨x, payments, rfl⟩ : ∃ x l, payments = x :: l := by
        cases payments with
        | nil => cases hentries
        | cons x l => exact ⟨x, l, rfl⟩
      obtain ⟨hentry, hrest⟩ := List.cons_eq_cons.mp hentries
      obtain ⟨rfl, rfl⟩ := Prod.mk.inj hentry
      obtain ⟨hunpaid, hpayee, ⟨hstake, hparts⟩, howed⟩ := Owed.cons_iff.mp howed
      obtain ⟨others₁, hrelease, hreleases⟩ := release_each_cons.mp hreleases
      rw [List.map_cons, List.foldlM_cons] at htotal
      obtain ⟨sum, hsum, htotal⟩ := Option.bind_eq_some_iff.mp htotal
      rw [Payment.out, hpayee] at hrelease
      refine ⟨hstake, hunpaid, _, hparts, sum, hsum, others₁, hrelease, payments, others, hrest,
        howed, htotal, hreleases, ?_⟩
      simp only [Frame.afterCalls, loopEffects, entryEffects, List.append_assoc]
      rw [Payment.release, hpayee]
      rfl

theorem run_pay_batch_bind {entries : List (Address × Int)} {i : Nat} {aggregated : Int} {b : α}
    (k : Int → Manager R α) :
    run (payBatch false registry callId winning fee net i entries aggregated >>= k) env f =
        .ok (b, f') ↔
      ∃ payments others total, payments.map Payment.claim = entries ∧
        Owed callId winning fee net f.store.payouts payments ∧
        (payments.map (·.feeShare)).foldlM checkedAdd aggregated = some total ∧
        releaseEach env registry callId f.tokens (payments.map Payment.out) = some others ∧
        run (k total) env
          (Frame.afterCalls { f with store := f.store.onPayouts (·.markAll callId payments) }
            others (loopEffects false registry callId i payments)) = .ok (b, f') := by
  simp only [run_bind, pay_batch_iff]
  constructor
  · rintro ⟨total, _, ⟨payments, others, hentries, howed, htotal, hreleases, rfl⟩, h⟩
    exact ⟨payments, others, total, hentries, howed, htotal, hreleases, h⟩
  · rintro ⟨payments, others, total, hentries, howed, htotal, hreleases, h⟩
    exact ⟨total, _, ⟨payments, others, hentries, howed, htotal, hreleases, rfl⟩, h⟩

/-- When a batch of claims succeeds, and what it leaves. -/
theorem batch_claim_payouts_iff {claims : List (Address × Int)} :
    run (batchClaimPayouts registry callId (claims.map Prod.fst) (claims.map Prod.snd) winning
        losing : Manager R Unit) env f = .ok (u, f') ↔
      ∃ payments feeCollector others, payments.map Payment.claim = claims ∧
        BatchTerms env f.store callId winning losing feeCollector payments ∧
        releaseEach env registry callId f.tokens (batchReleases feeCollector payments) =
          some others ∧
        f' = Frame.afterCalls { f with store := f.store.onPayouts (·.markAll callId payments) }
          others (batchEffects false registry callId feeCollector payments) := by
  have hzip : (claims.map Prod.fst).zip (claims.map Prod.snd) = claims := by
    rw [List.zip_map', List.map_id'']
    exact fun _ => rfl
  simp only [batchClaimPayouts, batch, getFeeConfig, netTerms, Contract.bind_assoc,
    run_requireAdmin_bind, run_requireCallSettled_bind, run_steps, run_announce_bind,
    run_pay_batch_bind, release_fee_iff, not_not, not_le, hzip]
  have hzero : InI128 0 := by decide
  constructor
  · rintro ⟨admin, hadmin, hauth, hdecided, hne, -, hwinning, collector, hcollector, fee, hfee, net,
      hnet, payments, others₁, total, rfl, howed, htotal, hpaid, others, hfees, rfl⟩
    obtain ⟨htotal, hin⟩ := (checked_sum_iff (howed.same_sign hwinning) hzero).mp htotal
    rw [zero_add] at htotal
    subst htotal
    have hsome : payments ≠ [] := by
      rintro rfl
      exact hne rfl
    refine ⟨payments, collector, others, rfl, ⟨⟨admin, hadmin, hauth⟩, hdecided, hsome, hwinning,
      hcollector, ⟨fee, net, hfee, hnet, howed⟩, hin⟩,
      release_each_append.mpr ⟨others₁, hpaid, hfees⟩, ?_⟩
    simp [Frame.afterCalls, batchEffects]
  · rintro ⟨payments, collector, others, rfl, ⟨⟨admin, hadmin, hauth⟩, hdecided, hsome, hwinning,
      hcollector, ⟨fee, net, hfee, hnet, howed⟩, hin⟩, hreleases, rfl⟩
    obtain ⟨others₁, hpaid, hfees⟩ := release_each_append.mp hreleases
    have htotal := (checked_sum_iff (howed.same_sign hwinning) hzero).mpr
      ⟨(zero_add _).symm, hin⟩
    refine ⟨admin, hadmin, hauth, hdecided, by simpa using hsome, by simp, hwinning, collector,
      hcollector, fee, hfee, net, hnet, payments, others₁, _, rfl, howed, htotal, hpaid, others,
      hfees, ?_⟩
    simp [Frame.afterCalls, batchEffects]

variable [Network]

/-- The claim of a staker, whoever authorises it and whether the manager is paused or not. -/
def payClaim (registry : Address) (callId : Nat) (staker : Address)
    (stakerWinningStake totalWinningStake totalLosingStake : Int) : Manager R Unit := do
  requireCallSettled callId
  rejectIfClaimed callId staker
  let q ← quote stakerWinningStake totalWinningStake totalLosingStake
  let id := balanceId callId (Network.addressXdr staker)
  modifyStore (·.onPayouts fun p => (p.markClaimed callId staker).setBalanceId callId staker id)
  releaseFee registry callId q.feeCollector q.feeShare
  registryReleaseEscrow registry callId staker q.payout
  announce (.claimableBalanceCreated callId staker id q.payout)
  announce (.payoutClaimed callId staker q.payout)

theorem pay_claim_runs {x : Payment} {others : R}
    (hdecided : f.store.tally.finalOutcome callId ≠ none)
    (hunpaid : f.store.payouts.claimed (callId, x.winner) = false) (hpayee : x.payee = x.winner)
    (hcollector : f.store.settings.feeCollector = some feeCollector)
    (hquoted : Quoted f.store.settings x.stake winning losing x.feeShare x.amount)
    (hreleases : releaseEach env registry callId f.tokens (claimReleases feeCollector x) =
      some others) :
    run (payClaim registry callId x.winner x.stake winning losing : Manager R Unit) env f =
      .ok ((), Frame.afterCalls
        { f with
          store := f.store.onPayouts fun p => (p.markClaimed callId x.winner).setBalanceId callId
            x.winner (balanceId callId (Network.addressXdr x.winner)) }
        others (claimEffects registry callId feeCollector x)) := by
  obtain ⟨others₁, hfee, hout⟩ := release_each_append.mp hreleases
  obtain ⟨_, hrelease, hnil⟩ := release_each_cons.mp hout
  cases hnil
  rw [Payment.out, hpayee] at hrelease
  simp only [payClaim, run_requireCallSettled_bind, run_rejectIfClaimed_bind, run_quote_bind,
    run_modifyStore_bind]
  refine ⟨hdecided, hunpaid, ⟨feeCollector, x.feeShare, x.amount⟩, hcollector, hquoted, ?_⟩
  rw [run_bind]
  refine ⟨(), _, release_fee_iff.mpr ⟨others₁, hfee, rfl⟩, ?_⟩
  simp only [registryReleaseEscrow, run_callOut_bind, run_announce_bind, run_announce]
  refine ⟨others, hrelease, ?_⟩
  simp only [claimEffects, claimEvents, Payment.release, hpayee]
  rfl

end Runs

end Backit.OutcomeManager
