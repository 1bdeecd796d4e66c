import Backit.Platform.Executions

/-!
# One payout per winner

Claims of the manager release a payout from the escrow of a call, and a rollover pays out of its
market before the manager records the claim. As long as claims name the contract that holds the
call's stakes, and only that market's rollovers claim without a release, a winner is marked exactly
when one payout was made to the winner or the winner's recovery address.
-/

namespace Backit.Platform

open Soroban Contract Lib Shared OutcomeManager PredictionMarket

/-- A payout of a winner of a call from an escrow. -/
structure EscrowPayout where
  escrow : Address
  callId : Nat
  winner : Address
  payee : Address
  amount : Int
  deriving DecidableEq

/-- The escrow releases among effects, but those of fees, each of which is announced right after:
the escrow, the call, the recipient and the amount. -/
def payoutReleases : List (Effect Act) → List (Address × Nat × Address × Int)
  | [] => []
  | .event (.event (.feeCollected ..)) :: .event (.releaseEscrow ..) :: rest => payoutReleases rest
  | .event (.releaseEscrow escrow callId recipient amount) :: rest =>
    (escrow, callId, recipient, amount) :: payoutReleases rest
  | _ :: rest => payoutReleases rest

/-- The winner for whom an operation pays a recipient. -/
def winnerFor : PayoutOp → Address → Address
  | .claimOnBehalf _ _ _ originalWinner .., _ => originalWinner
  | _, recipient => recipient

/-- The payouts that a step makes: the releases of the manager at an address, or the first transfer
of a rollover. -/
def Label.payouts (m : Address) : Label → List EscrowPayout
  | .managed ⟨env, .payout op, effects⟩ =>
    if env.contract = m then
      (payoutReleases effects).map fun (escrow, callId, recipient, amount) =>
        ⟨escrow, callId, winnerFor op recipient, recipient, amount⟩
    else []
  | .traded ⟨env, .claimAndRollover user callId _, effects⟩ =>
    match effects.getLast? with
    | some (.transfer _ _ recipient amount) => [⟨env.contract, callId, user, recipient, amount⟩]
    | _ => []
  | _ => []

/-- The payouts of a run that are made by the contracts that hold the stakes of the calls. -/
def payoutsAtHome (m : Address) (home : Nat → Address) (history : List Label) :
    List EscrowPayout :=
  (history.flatMap (Label.payouts m)).filter fun x => x.escrow = home x.callId

/-- Whom an escrow payout is for. -/
def EscrowPayout.claim (x : EscrowPayout) : Nat × Address := (x.callId, x.winner)

/-- A user designated a recovery address with the manager at an address. -/
def Designated (m : Address) (history : List Label) (user recoveryAddress : Address) : Prop :=
  ∃ env effects,
    Label.managed ⟨env, .payout (.setRecoveryAddress user recoveryAddress), effects⟩ ∈ history ∧
      env.contract = m

/-- Winners are marked exactly when they are paid, and paid at most once. -/
structure OnePayout (m : Address) (home : Nat → Address) (history : List Label)
    (claimed : Nat × Address → Bool) : Prop where
  marked_iff : ∀ claim, claimed claim = true ↔
    claim ∈ (payoutsAtHome m home history).map EscrowPayout.claim
  once : ((payoutsAtHome m home history).map EscrowPayout.claim).Nodup
  paid : ∀ x ∈ payoutsAtHome m home history,
    0 < x.amount ∧ (x.payee = x.winner ∨ Designated m history x.winner x.payee)

section Guard

variable {S : Type} [Strangers S] [Crypto]

/-- The factory's market for a call, as the manager at an address finds it. -/
def World.factoryMarket (m : Address) (w : World S) (callId : Nat) : Option Address := do
  let s ← w.ledger.managerAt m
  let factory ← s.settings.factory
  Registries.getMarket (w.ledger.set m .running) factory callId

/-- A claim names the contract that holds the call's stakes and states pools that are not empty
together; it is no direct claim without a release. -/
def World.claimsAtHome (m : Address) (home : Nat → Address) (w : World S) : PayoutOp → Bool
  | .claimPayout registry callId _ _ winning losing => registry = home callId ∧ 0 < winning + losing
  | .claimPayoutForMarket callId _ _ winning losing =>
    w.factoryMarket m callId = some (home callId) ∧ 0 < winning + losing
  | .claimPayoutNoRelease .. => false
  | .claimOnBehalf registry callId _ _ _ winning losing =>
    registry = home callId ∧ 0 < winning + losing
  | .batchCreateClaimableBalances registry callId _ _ winning losing =>
    registry = home callId ∧ 0 < winning + losing
  | .batchClaimPayouts registry callId _ _ winning losing =>
    registry = home callId ∧ 0 < winning + losing
  | _ => true

/-- The manager's claims are made at home. The rollovers that it serves are those of the markets
that hold the stakes, after its deployment. -/
def World.paysAtHome (m : Address) (home : Nat → Address) (w : World S) : Label → Bool
  | .managed ⟨env, .payout op, _⟩ => env.contract ≠ m ∨ w.claimsAtHome m home op
  | .traded ⟨env, .claimAndRollover _ callId _, _⟩ =>
    (w.marketManager env.contract = some m ↔ env.contract = home callId) ∧
      (env.contract = home callId → (w.ledger.managerAt m).isSome)
  | _ => true

/-- The guard of the runs in which payouts are made at home. -/
def paidAtHome (m : Address) (home : Nat → Address) : System.Guard (World S) Label :=
  fun _ w l => w.paysAtHome m home l = true

end Guard

section Releases

variable {registry feeCollector : Address} {callId : Nat}

theorem payout_releases_fee {feeShare : Int} (rest : List (Effect Act)) :
    payoutReleases (feeEffects registry callId feeCollector feeShare ++ rest) =
      payoutReleases rest := by
  unfold feeEffects
  split <;> rfl

theorem payout_releases_fee_last {feeShare : Int} :
    payoutReleases (feeEffects registry callId feeCollector feeShare) = [] := by
  unfold feeEffects
  split <;> rfl

theorem payout_releases_on_behalf (x : Payment) :
    payoutReleases (onBehalfEffects registry callId feeCollector x) =
      [(registry, callId, x.payee, x.amount)] := by
  simp [onBehalfEffects, Payment.release, payoutReleases, payout_releases_fee_last]

variable [Crypto]

theorem payout_releases_entry (balances : Bool) (i : Nat) (x : Payment) (rest : List (Effect Act)) :
    payoutReleases (entryEffects balances registry callId i x ++ rest) =
      (registry, callId, x.payee, x.amount) :: payoutReleases rest := by
  cases balances <;> simp [entryEffects, Payment.release, payoutReleases]

theorem payout_releases_loop (balances : Bool) (payments : List Payment) (i : Nat)
    (rest : List (Effect Act)) :
    payoutReleases (loopEffects balances registry callId i payments ++ rest) =
      (payments.map fun x => (registry, callId, x.payee, x.amount)).reverse ++
        payoutReleases rest := by
  induction payments generalizing i rest with
  | nil => rfl
  | cons x payments ih =>
    rw [loopEffects, List.append_assoc, ih, payout_releases_entry]
    simp

theorem payout_releases_batch (balances : Bool) (payments : List Payment) :
    payoutReleases (batchEffects balances registry callId feeCollector payments) =
      (payments.map fun x => (registry, callId, x.payee, x.amount)).reverse := by
  rw [batchEffects, payout_releases_fee, payout_releases_loop]
  simp [payoutReleases]

variable [Network]

theorem payout_releases_claim (x : Payment) :
    payoutReleases (claimEffects registry callId feeCollector x) =
      [(registry, callId, x.payee, x.amount)] := by
  simp [claimEffects, claimEvents, Payment.release, payoutReleases, payout_releases_fee_last]

end Releases

/-- The payments of a step for one call, all of them from home. -/
structure Pays (m : Address) (home : Nat → Address) (l : Label) (p p' : Payouts) (callId : Nat)
    (payments : List Payment) : Prop where
  payouts : l.payouts m = payments.map fun x => ⟨home callId, callId, x.winner, x.payee, x.amount⟩
  distinct : (payments.map (·.winner)).Nodup
  unpaid : ∀ x ∈ payments, p.claimed (callId, x.winner) = false
  paid : ∀ x ∈ payments,
    0 < x.amount ∧ (x.payee = x.winner ∨ p.recoveryAddress x.winner = some x.payee)
  marked : ∀ key, p'.claimed key = true ↔
    p.claimed key = true ∨ key.1 = callId ∧ key.2 ∈ payments.map (·.winner)

/-- What the payouts of a run and a manager agree on. -/
structure Agreement (m : Address) (home : Nat → Address) (history : List Label)
    (s : OutcomeManager.Storage) : Prop where
  law : OnePayout m home history s.payouts.claimed
  recovery : ∀ user recoveryAddress, s.payouts.recoveryAddress user = some recoveryAddress →
    Designated m history user recoveryAddress
  fee : s.settings.feeBps ≤ maxFeeBps

section Preservation

variable {m : Address} {home : Nat → Address} {history : List Label} {l : Label}
  {s s' : OutcomeManager.Storage} {callId : Nat} {payments : List Payment}

theorem Designated.later {user recoveryAddress : Address}
    (h : Designated m history user recoveryAddress) :
    Designated m (l :: history) user recoveryAddress := by
  obtain ⟨env, effects, hmem, hself⟩ := h
  exact ⟨env, effects, .tail _ hmem, hself⟩

theorem payouts_at_home_cons : payoutsAtHome m home (l :: history) =
    (l.payouts m).filter (fun x => x.escrow = home x.callId) ++ payoutsAtHome m home history := by
  simp [payoutsAtHome]

theorem Agreement.idle (h : Agreement m home history s)
    (hnone : (l.payouts m).filter (fun x => x.escrow = home x.callId) = [])
    (hclaimed : s'.payouts.claimed = s.payouts.claimed)
    (hrecovery : ∀ user r, s'.payouts.recoveryAddress user = some r →
      s.payouts.recoveryAddress user = some r ∨ Designated m (l :: history) user r)
    (hfee : s'.settings.feeBps ≤ maxFeeBps) : Agreement m home (l :: history) s' := by
  have hpayouts : payoutsAtHome m home (l :: history) = payoutsAtHome m home history := by
    rw [payouts_at_home_cons, hnone, List.nil_append]
  refine ⟨⟨?_, ?_, ?_⟩, fun user r hr => ?_, hfee⟩
  · rw [hpayouts, hclaimed]
    exact h.law.marked_iff
  · rw [hpayouts]
    exact h.law.once
  · rw [hpayouts]
    exact fun x hx => ⟨(h.law.paid x hx).1, (h.law.paid x hx).2.imp_right .later⟩
  · rcases hrecovery user r hr with hold | hnew
    · exact (h.recovery user r hold).later
    · exact hnew

/-- A step that pays winners who were not paid, and marks them. -/
theorem Agreement.pays (h : Agreement m home history s)
    (hpays : Pays m home l s.payouts s'.payouts callId payments)
    (hrecovery : s'.payouts.recoveryAddress = s.payouts.recoveryAddress)
    (hfee : s'.settings = s.settings) : Agreement m home (l :: history) s' := by
  have hpayouts : payoutsAtHome m home (l :: history) =
      payments.map (fun x => ⟨home callId, callId, x.winner, x.payee, x.amount⟩) ++
        payoutsAtHome m home history := by
    rw [payouts_at_home_cons, hpays.payouts, List.filter_eq_self.mpr]
    intro x hx
    obtain ⟨y, -, rfl⟩ := List.mem_map.mp hx
    simp
  have hclaims : (payments.map fun x => (⟨home callId, callId, x.winner, x.payee, x.amount⟩ :
      EscrowPayout)).map EscrowPayout.claim = (payments.map (·.winner)).map (Prod.mk callId) := by
    simp [EscrowPayout.claim]
  refine ⟨⟨fun claim => ?_, ?_, ?_⟩, fun user r hr => ?_, by rw [hfee]; exact h.fee⟩
  · obtain ⟨id, who⟩ := claim
    have hnew : (id, who) ∈ (payments.map (·.winner)).map (Prod.mk callId) ↔
        id = callId ∧ who ∈ payments.map (·.winner) := by
      simp only [List.mem_map (l := payments.map (·.winner)), Prod.mk.injEq]
      constructor
      · rintro ⟨_, hmem, rfl, rfl⟩
        exact ⟨rfl, hmem⟩
      · rintro ⟨rfl, hmem⟩
        exact ⟨who, hmem, rfl, rfl⟩
    rw [hpays.marked, h.law.marked_iff, hpayouts, List.map_append, hclaims, List.mem_append, hnew,
      or_comm]
  · rw [hpayouts, List.map_append, hclaims, List.nodup_append]
    refine ⟨hpays.distinct.map (Prod.mk_right_injective callId), h.law.once, ?_⟩
    rintro claim hnew _ hold rfl
    obtain ⟨winner, hmem, rfl⟩ := List.mem_map.mp hnew
    obtain ⟨x, hx, rfl⟩ := List.mem_map.mp hmem
    have hmarked := (h.law.marked_iff _).mpr hold
    rw [hpays.unpaid x hx] at hmarked
    cases hmarked
  · rw [hpayouts]
    intro x hx
    rcases List.mem_append.mp hx with hx | hx
    · obtain ⟨y, hy, rfl⟩ := List.mem_map.mp hx
      refine ⟨(hpays.paid y hy).1, (hpays.paid y hy).2.imp_right fun hr => ?_⟩
      exact (h.recovery _ _ hr).later
    · exact ⟨(h.law.paid x hx).1, (h.law.paid x hx).2.imp_right .later⟩
  · rw [hrecovery] at hr
    exact (h.recovery user r hr).later

variable {settings : Settings} {t : Tally} {p p' : Payouts} {winning losing : Int}

/-- Payments of a label from home, in any order, pay as quoted. -/
theorem pays_of_paid {ordered : List Payment}
    (h : Paid settings t callId winning losing p payments p') (horder : ordered.Perm payments)
    (hpositive : ∀ x ∈ payments, 0 < x.amount)
    (hpayees : ∀ x ∈ payments, x.payee = x.winner ∨ p.recoveryAddress x.winner = some x.payee)
    (hpayouts : l.payouts m =
      ordered.map fun x => ⟨home callId, callId, x.winner, x.payee, x.amount⟩) :
    Pays m home l p p' callId ordered where
  payouts := hpayouts
  distinct := (horder.map _).nodup_iff.mpr h.distinct
  unpaid x hx := h.unpaid x (horder.mem_iff.mp hx)
  paid x hx := ⟨hpositive x (horder.mem_iff.mp hx), hpayees x (horder.mem_iff.mp hx)⟩
  marked key := by rw [h.marked, (horder.map _).mem_iff]

end Preservation

section Steps

variable {S : Type} [Strangers S] [Crypto] [Network] {m : Address} {home : Nat → Address}
  {history : List Label} {w : World S} {s : OutcomeManager.Storage} {op : PayoutOp}

omit [Network] in
/-- The batches name the contract that holds the stakes. -/
theorem batch_at_home {balances : Bool} {registry : Address} {callId : Nat}
    {stakers : List Address} {stakes : List Int} {winning losing : Int}
    (hop : IsBatch op balances registry callId stakers stakes winning losing)
    (hhome : w.claimsAtHome m home op = true) :
    registry = home callId ∧ 0 < winning + losing := by
  cases hop <;> simpa [World.claimsAtHome] using hhome

omit [Network] in
theorem claim_at_home {registry : Address} {callId : Nat} {staker : Address}
    {stake winning losing : Int} (hm : w.ledger.managerAt m = some s)
    (hfrom : ClaimedFrom s.settings (w.ledger.set m .running) op registry callId staker stake
      winning losing)
    (hhome : w.claimsAtHome m home op = true) :
    registry = home callId ∧ 0 < winning + losing := by
  cases hfrom with
  | direct => simpa [World.claimsAtHome] using hhome
  | forMarket hfactory hmarket =>
    simp only [World.claimsAtHome, World.factoryMarket, hm, hfactory, Option.bind_eq_bind,
      Option.bind_some, hmarket, Option.some.injEq, decide_eq_true_eq] at hhome
    exact hhome

omit [Strangers S] [Crypto] [Network] in
theorem winner_for_batch {balances : Bool} {registry : Address} {callId : Nat}
    {stakers : List Address} {stakes : List Int} {winning losing : Int}
    (hop : IsBatch op balances registry callId stakers stakes winning losing)
    (recipient : Address) : winnerFor op recipient = recipient := by
  cases hop <;> rfl

omit [Network] in
theorem winner_for_claim {others : Ledger S} {registry : Address} {callId : Nat}
    {staker : Address} {stake winning losing : Int}
    (hfrom : ClaimedFrom s.settings others op registry callId staker stake winning losing)
    (recipient : Address) : winnerFor op recipient = recipient := by
  cases hfrom <;> rfl

theorem Agreement.payout (h : Agreement m home history s) {env : Env}
    {payments : List Payment} {effects : List (Effect Act)} {p' : Payouts} {l' : Ledger S}
    (hself : env.contract = m) (hm : w.ledger.managerAt m = some s)
    (hstep : PayoutStep env s.settings s.tally op s.payouts (w.ledger.set m .running) payments
      effects p' l')
    (hhome : w.claimsAtHome m home op = true) :
    Agreement m home (.managed ⟨env, .payout op, effects⟩ :: history)
      { s with payouts := p' } := by
  cases hstep with
  | @claimPayout _ registry callId winning losing _ _ x feeCollector _ _ hfrom _ _ hpayee _ hpaid =>
    obtain ⟨rfl, hpools⟩ := claim_at_home hm hfrom hhome
    have hquoted := hpaid.quoted x (List.mem_singleton_self x)
    refine h.pays (pays_of_paid hpaid (List.Perm.refl [x]) ?_ ?_ ?_) hpaid.recovery rfl
    · exact List.forall_mem_singleton.mpr (hquoted.amount_pos h.fee hpools)
    · exact List.forall_mem_singleton.mpr (.inl hpayee)
    · simp [Label.payouts, hself, payout_releases_claim, winner_for_claim hfrom, hpayee]
  | claimPayoutNoRelease => simp [World.claimsAtHome] at hhome
  | @claimOnBehalf registry callId winning losing _ _ x feeCollector _ _ _ _ hagent _ _ hpaid =>
    obtain ⟨rfl, hpools⟩ : registry = home callId ∧ 0 < winning + losing := by
      simpa [World.claimsAtHome] using hhome
    have hquoted := hpaid.quoted x (List.mem_singleton_self x)
    refine h.pays (pays_of_paid hpaid (List.Perm.refl [x]) ?_ ?_ ?_) hpaid.recovery rfl
    · exact List.forall_mem_singleton.mpr (hquoted.amount_pos h.fee hpools)
    · exact List.forall_mem_singleton.mpr (.inr hagent)
    · simp [Label.payouts, hself, payout_releases_on_behalf, winnerFor]
  | @batch _ balances registry callId stakers stakes winning losing _ _ _ admin feeCollector _ _
      hop _ _ _ _ hstakers _ hpaid =>
    obtain ⟨rfl, hpools⟩ := batch_at_home hop hhome
    refine h.pays (pays_of_paid hpaid payments.reverse_perm ?_ ?_ ?_) hpaid.recovery rfl
    · exact fun x hx => (hpaid.quoted x hx).amount_pos h.fee hpools
    · exact fun x hx => .inl (hstakers.2 x hx)
    · simp only [Label.payouts, hself, if_true, payout_releases_batch, winner_for_batch hop,
        ← List.map_reverse, List.map_map]
      refine List.map_congr_left fun x hx => ?_
      simp [hstakers.2 x (List.mem_reverse.mp hx)]
  | @setRecoveryAddress user recoveryAddress =>
    refine h.idle (by simp [Label.payouts, payoutReleases]) rfl (fun who r hr => ?_) h.fee
    by_cases hwho : who = user
    · subst hwho
      simp only [Payouts.setRecoveryAddress, Function.update_self, Option.some.injEq] at hr
      subst hr
      exact .inr ⟨env, _, .head _, hself⟩
    · simp only [Payouts.setRecoveryAddress, Function.update_of_ne hwho] at hr
      exact .inl hr
  | @removeRecoveryAddress user =>
    refine h.idle (by simp [Label.payouts, payoutReleases]) rfl (fun who r hr => ?_) h.fee
    by_cases hwho : who = user
    · subst hwho
      simp [Payouts.setRecoveryAddress] at hr
    · simp only [Payouts.setRecoveryAddress, Function.update_of_ne hwho] at hr
      exact .inl hr
  | markSettled =>
    exact h.idle (by simp [Label.payouts, payoutReleases]) rfl (fun _ _ => .inl) h.fee

variable [Deployer]

theorem rollover_payouts {env : Env} {user : Address} {rollover : RolloverConfig}
    {f f' : Frame PredictionMarket.Storage (Ledger S) PredictionMarket.Event}
    {config : MarketConfig} {call : Call} {terms : RolloverTerms} {newMarket : Address}
    {newCallId callId : Nat} {stages : RolloverStages (Ledger S)} (hstart : f.effects = [])
    (h : RolledOver env user rollover f f' config call terms newMarket newCallId stages) :
    Label.payouts m (.traded ⟨env, .claimAndRollover user callId rollover, f'.effects⟩) =
      [⟨env.contract, callId, user, user, terms.payout⟩] := by
  have hlast : f'.effects.getLast? =
      some (.transfer call.stakeToken env.contract user terms.payout) := by
    rw [h.result, hstart, List.append_nil, rolloverEffects, ← List.cons_append]
    exact List.getLast?_concat
  simp only [Label.payouts, hlast]

omit [Network] [Deployer] in
/-- A step that does not touch the manager pays nobody from home. -/
theorem unpaid_at_home {l : Label} (hfree : ¬ l.touches m w)
    (hhome : w.paysAtHome m home l = true) :
    (l.payouts m).filter (fun x => x.escrow = home x.callId) = [] := by
  cases l with
  | managed receipt =>
    obtain ⟨env, action, effects⟩ := receipt
    have hself : env.contract ≠ m := hfree
    cases action with
    | payout op => simp [Label.payouts, hself]
    | _ => rfl
  | traded receipt =>
    obtain ⟨env, op, effects⟩ := receipt
    cases op with
    | claimAndRollover user callId rollover =>
      simp only [World.paysAtHome, decide_eq_true_eq] at hhome
      have haway : env.contract ≠ home callId := fun hcontract => hfree ⟨rfl, hhome.1.mpr hcontract⟩
      unfold Label.payouts
      dsimp only
      split
      · simp [haway]
      · rfl
    | _ => rfl
  | _ => rfl

theorem Agreement.step {l : Label} {s' : OutcomeManager.Storage}
    (h : Agreement m home history s) (hm : w.ledger.managerAt m = some s)
    (hstep : ManagerStep m w l (some s) (some s')) (hhome : w.paysAtHome m home l = true) :
    Agreement m home (l :: history) s' := by
  cases hstep with
  | @invoked r _ _ l₁ hself hinvoked =>
    cases hinvoked.moves with
    | settings _ _ _ hchange => exact h.idle rfl rfl (fun _ _ => .inl) (hchange.fee_valid h.fee)
    | report => exact h.idle rfl rfl (fun _ _ => .inl) h.fee
    | payout _ _ _ hpayout =>
      simp only [World.paysAtHome, decide_eq_true_eq] at hhome
      exact h.payout hself hm hpayout (hhome.resolve_left (not_not_intro hself))
  | @rolled env user rollover sm f config call terms newMarket newCallId stages _ x p' hresident
      hrolled hserves hwinner hpaid =>
    have hmanager : w.marketManager env.contract = some m := by
      unfold World.marketManager
      rw [hresident]
      exact (congrArg (Option.map _) hrolled.configured).trans (congrArg some hserves)
    have hcontract : env.contract = home config.callId := by
      simp only [World.paysAtHome, decide_eq_true_eq] at hhome
      exact hhome.1.mp hmanager
    obtain ⟨feeBps, feeCollector, -, hcomputed⟩ := hrolled.computed
    obtain ⟨totalStake, -, -, hpayout⟩ := hcomputed.total
    have hpositive := stake_le_rollover_payout hcomputed.positive.le hpayout
    have hpays : Pays m home
        (.traded ⟨env, .claimAndRollover user config.callId rollover, f.effects⟩) s.payouts p'
        config.callId [⟨user, user, x.stake, x.feeShare, terms.payout⟩] := by
      refine ⟨?_, List.nodup_singleton _, ?_, ?_, ?_⟩
      · rw [rollover_payouts rfl hrolled, hcontract]
        rfl
      · have hunpaid := hpaid.unpaid x (List.mem_singleton_self x)
        rw [hwinner] at hunpaid
        exact List.forall_mem_singleton.mpr hunpaid
      · exact List.forall_mem_singleton.mpr ⟨hcomputed.positive.trans_le hpositive, .inl rfl⟩
      · intro key
        rw [hpaid.marked, List.map_singleton, List.map_singleton, hwinner]
    exact h.pays hpays hpaid.recovery rfl
  | lapsed => exact h.idle rfl rfl (fun _ _ => .inl) h.fee
  | untouched huntouched =>
    exact h.idle (unpaid_at_home huntouched hhome) rfl (fun _ _ => .inl) h.fee

/-- Before a manager is deployed nobody is paid from home. -/
theorem unpaid_before {outside : S → S → Prop} {w' : World S} {l : Label}
    (hstep : WorldStep outside w l w') (hm : w.ledger.managerAt m = none)
    (hhome : w.paysAtHome m home l = true) :
    (l.payouts m).filter (fun x => x.escrow = home x.callId) = [] := by
  cases hstep with
  | @managed _ env action s effects hresident =>
    refine unpaid_at_home (fun hself => ?_) hhome
    have hpresent := Ledger.manager_at_eq.mpr hresident
    rw [show env.contract = m from hself, hm] at hpresent
    cases hpresent
  | @traded _ env op s effects =>
    cases op with
    | claimAndRollover user callId rollover =>
      refine unpaid_at_home (fun htouches => ?_) hhome
      simp only [World.paysAtHome, decide_eq_true_eq] at hhome
      have hpresent := hhome.2 (hhome.1.mp htouches.2)
      simp [hm] at hpresent
    | _ => rfl
  | _ => rfl

end Steps

section Scenario

attribute [local instance] scenarioCrypto testNetwork noDeployer

/-- Two oracles decide call 1 and resolve it, and then Alice makes a claim of her stake. -/
def claimScript (op : PayoutOp) : List Input :=
  openingScript ++
    [submits CallRegistry.home 1001 oracleA signatureA,
      submits CallRegistry.home 1002 oracleB signatureB,
      .manage ⟨OutcomeManager.home, 2000, 2000, [CallRegistry.alice]⟩ (.payout op)]

theorem fresh_world_initial :
    (platform fun _ (_ : StandardLedger) => False).initial freshWorld := rfl

def claimRun :
    Replayed (fun _ w l => w.paysAtHome OutcomeManager.home (fun _ => CallRegistry.home) l) :=
  .of freshWorld fresh_world_initial
    (claimScript (.claimPayout CallRegistry.home 1 CallRegistry.alice 300 300 200))
    (by decide +kernel)

def directRun : Replayed System.anything :=
  .of freshWorld fresh_world_initial
    (claimScript (.claimPayoutNoRelease 1 CallRegistry.alice 300 300 200))
    (by decide +kernel)

theorem direct_run_manager :
    (directRun.state.ledger.managerAt OutcomeManager.home).isSome = true := by decide +kernel

end Scenario

end Backit.Platform
