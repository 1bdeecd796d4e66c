import Backit.YieldAggregator.Aggregator

/-!
# Share accounting

The shares of all users sum to the supply, and nothing in the books is negative, whatever amounts
are deposited and withdrawn. A withdrawal of a negative amount passes the comparison with the user's
shares, though, and gives the user more of them: withdrawals are fair exactly when none is negative.
-/

namespace Backit.YieldAggregator

open Soroban Contract Lib

section Steps

variable {P : Type} {env : Env} {f f' : Frame Storage P Event}

theorem run_mulDiv {x y z quotient : Int}
    (h : run (mulDiv x y z : Aggregator P Int) env f = .ok (quotient, f')) :
    f' = f ∧ z ≠ 0 ∧ quotient = (x * y).tdiv z := by
  simp only [mulDiv, run_unwrap_bind, run_unwrap, checkedMul, checkedDiv, checked_eq_some] at h
  obtain ⟨_, ⟨-, rfl⟩, hquotient, hframe⟩ := h
  split at hquotient
  · cases hquotient
  · next hz => exact ⟨hframe, hz, (checked_eq_some.mp hquotient).2⟩

/-- The shares that a deposit mints: as many as it pays into a pool without shares, else its part at
the price of the pool. -/
def Mints (s : Storage) (amount minted : Int) : Prop :=
  s.totalShares = 0 ∧ minted = amount ∨
    s.totalShares ≠ 0 ∧ s.totalDeposited ≠ 0 ∧
      minted = (amount * s.totalShares).tdiv s.totalDeposited

/-- What a withdrawal returns. -/
def Storage.returned (s : Storage) (amount : Int) : Int :=
  (amount * s.totalDeposited).tdiv s.totalShares

/-- The effects of announcing a fee. -/
def feeEffects (fee : Int) : List (Effect Event) :=
  if 0 < fee then [.event (.feeCollected fee)] else []

/-- `AggregatorStep env f op f'` says what a successful invocation does. -/
inductive AggregatorStep (env : Env) (f : Frame Storage P Event) :
    AggregatorOp → Frame Storage P Event → Prop where
  | configured {admin feeBps} : f.store.config = none → admin ∈ env.auths →
      AggregatorStep env f (.initializeAggregator admin feeBps)
        { f with store := f.store.setConfig ⟨admin, feeBps⟩ }
  | deposited {user amount minted} : user ∈ env.auths → 0 < amount → Mints f.store amount minted →
      AggregatorStep env f (.deposit user amount)
        ⟨f.store.traded user (f.store.getUserShares user + minted) (f.store.totalShares + minted)
          (f.store.totalDeposited + amount), f.tokens,
          .event (.deposited user amount minted) :: f.effects⟩
  | withdrawn {user amount} :
      user ∈ env.auths → amount ≤ f.store.getUserShares user → f.store.totalShares ≠ 0 →
      AggregatorStep env f (.withdraw user amount)
        ⟨f.store.traded user (f.store.getUserShares user - amount) (f.store.totalShares - amount)
          (f.store.totalDeposited - f.store.returned amount), f.tokens,
          .event (.withdrawn user amount (f.store.returned amount)) :: f.effects⟩
  | reinvested {callId totalProfits profit fee} : f.store.totalShares ≠ 0 →
      AggregatorStep env f (.claimAndReinvest callId)
        ⟨f.store.setTotalProfits totalProfits, f.tokens,
          .event (.reinvested callId profit) :: (feeEffects fee ++ f.effects)⟩

theorem run_sharesMinted {amount minted : Int}
    (h : run (sharesMinted amount f.store.totalShares f.store.totalDeposited : Aggregator P Int)
      env f = .ok (minted, f')) : f' = f ∧ Mints f.store amount minted := by
  unfold sharesMinted at h
  split at h
  · next hnone =>
    simp only [run_pure, Except.ok.injEq, Prod.mk.injEq] at h
    exact ⟨h.2.symm, .inl ⟨hnone, h.1.symm⟩⟩
  · next hsome =>
    obtain ⟨hframe, hdeposited, hminted⟩ := run_mulDiv h
    exact ⟨hframe, .inr ⟨hsome, hdeposited, hminted⟩⟩

theorem deposit_steps {user : Address} {amount minted : Int}
    (h : run (deposit user amount : Aggregator P Int) env f = .ok (minted, f')) :
    AggregatorStep env f (.deposit user amount) f' := by
  simp only [deposit, run_steps] at h
  obtain ⟨hauth, hpositive, h⟩ := h
  rw [run_bind] at h
  obtain ⟨m, _, hminted, h⟩ := h
  obtain ⟨rfl, hmints⟩ := run_sharesMinted hminted
  simp only [run_steps] at h
  obtain ⟨-, -, -, -, rfl⟩ := h
  exact .deposited hauth (by omega) hmints

theorem withdraw_steps {user : Address} {amount returned : Int}
    (h : run (withdraw user amount : Aggregator P Int) env f = .ok (returned, f')) :
    AggregatorStep env f (.withdraw user amount) f' := by
  simp only [withdraw, run_steps] at h
  obtain ⟨hauth, henough, h⟩ := h
  rw [run_bind] at h
  obtain ⟨_, _, hreturned, h⟩ := h
  obtain ⟨rfl, hsome, rfl⟩ := run_mulDiv hreturned
  simp only [run_steps] at h
  obtain ⟨-, -, -, -, rfl⟩ := h
  exact .withdrawn hauth (by omega) hsome

theorem claim_and_reinvest_steps {callId : Nat} {profit : Int}
    (h : run (claimAndReinvest callId : Aggregator P Int) env f = .ok (profit, f')) :
    AggregatorStep env f (.claimAndReinvest callId) f' := by
  simp only [claimAndReinvest, run_steps] at h
  obtain ⟨config, -, hsome, _, -, fee, -, -, -, h⟩ := h
  rw [run_bind] at h
  obtain ⟨u, f₁, hfee, h⟩ := h
  simp only [run_steps] at h
  obtain ⟨rfl, rfl⟩ := h
  have hannounced : f₁ = ⟨f.store.setTotalProfits (f.store.totalProfits +
      f.store.totalDeposited.tdiv 10 - fee), f.tokens, feeEffects fee ++ f.effects⟩ := by
    unfold announceFee at hfee
    unfold feeEffects
    split at hfee
    · next hpositive =>
      rw [run_publish] at hfee
      rw [hfee, if_pos hpositive]
      rfl
    · next hnone =>
      cases hfee
      rw [if_neg hnone]
      rfl
  rw [hannounced]
  exact .reinvested hsome

/-- Every successful invocation is one of the listed steps. -/
theorem AggregatorOp.steps {op : AggregatorOp}
    (h : run (op.perform : Aggregator P Unit) env f = .ok ((), f')) :
    AggregatorStep env f op f' := by
  cases op with
  | initializeAggregator admin feeBps =>
    simp only [AggregatorOp.perform, YieldAggregator.initializeAggregator, run_steps] at h
    obtain ⟨hnone, hauth, rfl⟩ := h
    exact .configured (by simpa using hnone) hauth
  | deposit user amount =>
    obtain ⟨_, h⟩ := run_ignore.mp h
    exact deposit_steps h
  | withdraw user amount =>
    obtain ⟨_, h⟩ := run_ignore.mp h
    exact withdraw_steps h
  | claimAndReinvest callId =>
    obtain ⟨_, h⟩ := run_ignore.mp h
    exact claim_and_reinvest_steps h

theorem AggregatorStep.withdraws {user : Address} {amount : Int}
    (h : AggregatorStep env f (.withdraw user amount) f') :
    amount ≤ f.store.getUserShares user ∧
      f'.effects = .event (.withdrawn user amount (f.store.returned amount)) :: f.effects ∧
      f'.store = f.store.traded user (f.store.getUserShares user - amount)
        (f.store.totalShares - amount) (f.store.totalDeposited - f.store.returned amount) := by
  cases h with
  | withdrawn _ henough => exact ⟨henough, rfl, rfl⟩

end Steps

/-- The shares of all users are the supply, and nothing is negative. -/
structure Storage.Sound (s : Storage) : Prop where
  supply : total s.userShares = s.totalShares
  shares_nonneg : ∀ user, 0 ≤ s.getUserShares user
  deposited_nonneg : 0 ≤ s.totalDeposited

/-- No position that is reported of a user is negative. -/
def Storage.PositionsNonneg (s : Storage) : Prop :=
  ∀ (P : Type) (peers : P) (effects : List (Effect Event)) env user position f',
    run (getUserPosition user : Aggregator P UserPosition) env ⟨s, peers, effects⟩ =
      .ok (position, f') → 0 ≤ position.shares ∧ 0 ≤ position.depositedAmount

/-- A withdrawal leaves its user no more shares than before and pays at most the user's part of the
pool. -/
structure FairWithdrawal (s s' : Storage) (user : Address) (paid : Int) : Prop where
  shares : s'.getUserShares user ≤ s.getUserShares user
  within : paid * s.totalShares ≤ s.getUserShares user * s.totalDeposited

namespace Storage.Sound

variable {s : Storage} {user : Address} {amount minted : Int}

theorem empty : Storage.empty.Sound :=
  ⟨rfl, fun user => by simp [Storage.getUserShares, Storage.empty], le_rfl⟩

theorem supply_nonneg (h : s.Sound) : 0 ≤ s.totalShares := by
  rw [← h.supply]
  exact total_nonneg _ h.shares_nonneg

theorem shares_le (h : s.Sound) (user : Address) : s.getUserShares user ≤ s.totalShares := by
  rw [← h.supply]
  exact valueAt_le_total _ h.shares_nonneg user

theorem traded (h : s.Sound) {shares deposited : Int} (hshares : 0 ≤ shares)
    (hdeposited : 0 ≤ deposited) : (s.traded user shares
      (s.totalShares + (shares - s.getUserShares user)) deposited).Sound where
  supply := by
    show total (s.userShares.insert user shares) = _
    rw [total_insert, h.supply]
    show s.totalShares - s.getUserShares user + shares = s.totalShares + _
    omega
  shares_nonneg who := by
    show 0 ≤ valueAt (s.userShares.insert user shares) who
    rw [valueAt_insert]
    split
    · exact hshares
    · exact h.shares_nonneg who
  deposited_nonneg := hdeposited

theorem minted_nonneg (h : s.Sound) (hamount : 0 < amount) (hmints : Mints s amount minted) :
    0 ≤ minted := by
  obtain ⟨-, rfl⟩ | ⟨-, -, rfl⟩ := hmints
  · exact hamount.le
  · exact Int.tdiv_nonneg (mul_nonneg hamount.le h.supply_nonneg) h.deposited_nonneg

theorem returned_nonpos (h : s.Sound) (hamount : amount ≤ 0) : s.returned amount ≤ 0 := by
  have hopposite : 0 ≤ (-amount * s.totalDeposited).tdiv s.totalShares :=
    Int.tdiv_nonneg (mul_nonneg (by omega) h.deposited_nonneg) h.supply_nonneg
  rw [neg_mul, Int.neg_tdiv] at hopposite
  unfold Storage.returned
  omega

/-- Other amounts return at most their part of the pool. -/
theorem returned_mul_le (h : s.Sound) (hamount : 0 ≤ amount) :
    s.returned amount * s.totalShares ≤ amount * s.totalDeposited := by
  rw [Storage.returned, mul_comm]
  exact Int.mul_tdiv_self_le (mul_nonneg hamount h.deposited_nonneg)

/-- No withdrawal that the user has the shares for returns more than the pool holds. -/
theorem returned_le (h : s.Sound) (hsome : s.totalShares ≠ 0)
    (henough : amount ≤ s.getUserShares user) : s.returned amount ≤ s.totalDeposited := by
  obtain hamount | hamount := le_total amount 0
  · exact (h.returned_nonpos hamount).trans h.deposited_nonneg
  · have hsupply : 0 < s.totalShares := lt_of_le_of_ne h.supply_nonneg hsome.symm
    refine le_of_mul_le_mul_right ((h.returned_mul_le hamount).trans ?_) hsupply
    rw [mul_comm s.totalDeposited]
    exact mul_le_mul_of_nonneg_right (henough.trans (h.shares_le user)) h.deposited_nonneg

theorem positions_nonneg (h : s.Sound) : s.PositionsNonneg := by
  intro P peers effects env user position f' hrun
  simp only [getUserPosition, run_getStore_bind] at hrun
  rw [run_bind] at hrun
  obtain ⟨deposited, f₁, hworth, hrun⟩ := hrun
  simp only [run_pure, Except.ok.injEq, Prod.mk.injEq] at hrun
  obtain ⟨rfl, rfl⟩ := hrun
  refine ⟨h.shares_nonneg user, ?_⟩
  unfold worth at hworth
  split at hworth
  · obtain ⟨-, -, rfl⟩ := run_mulDiv hworth
    exact Int.tdiv_nonneg (mul_nonneg (h.shares_nonneg user) h.deposited_nonneg) h.supply_nonneg
  · simp only [run_pure, Except.ok.injEq, Prod.mk.injEq] at hworth
    exact hworth.1.le

variable {P : Type} {env : Env} {f f' : Frame Storage P Event} {op : AggregatorOp}

theorem step (h : f.store.Sound) (hstep : AggregatorStep env f op f') : f'.store.Sound := by
  cases hstep with
  | configured => exact ⟨h.supply, h.shares_nonneg, h.deposited_nonneg⟩
  | reinvested => exact ⟨h.supply, h.shares_nonneg, h.deposited_nonneg⟩
  | @deposited user amount minted _ hamount hmints =>
    have hminted := h.minted_nonneg hamount hmints
    have hshares := h.shares_nonneg user
    have hdeposited := h.deposited_nonneg
    have hsupply : f.store.totalShares + minted = f.store.totalShares +
        (f.store.getUserShares user + minted - f.store.getUserShares user) := by omega
    rw [hsupply]
    exact h.traded (by omega) (by omega)
  | @withdrawn user amount _ henough hsome =>
    have hreturned := h.returned_le hsome henough
    have hsupply : f.store.totalShares - amount = f.store.totalShares +
        (f.store.getUserShares user - amount - f.store.getUserShares user) := by omega
    rw [hsupply]
    exact h.traded (by omega) (by omega)

/-- A withdrawal is fair when its amount is not negative, and only then. -/
theorem withdrawal_fair_iff (h : s.Sound) (henough : amount ≤ s.getUserShares user)
    (total deposited : Int) :
    FairWithdrawal s (s.traded user (s.getUserShares user - amount) total deposited) user
      (s.returned amount) ↔ 0 ≤ amount := by
  have hafter : (s.traded user (s.getUserShares user - amount) total deposited).getUserShares user =
      s.getUserShares user - amount := by
    show valueAt (s.userShares.insert user _) user = _
    rw [valueAt_insert, if_pos rfl]
  constructor
  · intro hfair
    have hshares := hfair.shares
    omega
  · intro hamount
    refine ⟨by omega, (h.returned_mul_le hamount).trans ?_⟩
    exact mul_le_mul_of_nonneg_right henough h.deposited_nonneg

end Storage.Sound

section Run

variable {P : Type} {self : Address} {outside : P → P → Prop}

/-- The executions of the aggregator. -/
def aggregator (self : Address) (outside : P → P → Prop) :
    System (Deployment Storage P) (Happening AggregatorOp Event) :=
  contractSystem AggregatorOp.perform self outside fun d => d.store = Storage.empty

/-- Every withdrawal that a run took was fair. -/
def WithdrawalsFair (self : Address) (outside : P → P → Prop)
    (history : List (Happening AggregatorOp Event)) (d : Deployment Storage P) : Prop :=
  ∀ env user amount effects before after,
    System.Took (aggregator self outside) System.anyStep history d
      (.invoked ⟨env, .withdraw user amount, effects⟩) before →
    (aggregator self outside).step before (.invoked ⟨env, .withdraw user amount, effects⟩) after →
    ∀ burned paid, .event (.withdrawn user burned paid) ∈ effects →
      FairWithdrawal before.store after.store user paid

variable {history : List (Happening AggregatorOp Event)} {d : Deployment Storage P}

/-- The books are sound in every run, whatever the amounts. -/
theorem sound_of_run {guard : System.Guard (Deployment Storage P) (Happening AggregatorOp Event)}
    (run : (aggregator self outside).RunWhere guard history d) : d.store.Sound := by
  refine contract_invariant (I := fun _ d => d.store.Sound) ?_ ?_ ?_ run
  · intro d hd
    rw [show d.store = Storage.empty from hd]
    exact .empty
  · intro _ _ _ _ _ _ ih _ hrun _
    exact ih.step (AggregatorOp.steps hrun)
  · exact fun _ _ _ _ ih _ => ih

theorem withdrawal_step {env : Env} {user : Address} {amount : Int} {effects : List (Effect Event)}
    {before after : Deployment Storage P}
    (h : (aggregator self outside).step before (.invoked ⟨env, .withdraw user amount, effects⟩)
      after) :
    amount ≤ before.store.getUserShares user ∧
      effects = [.event (.withdrawn user amount (before.store.returned amount))] ∧
      after.store = before.store.traded user (before.store.getUserShares user - amount)
        (before.store.totalShares - amount)
        (before.store.totalDeposited - before.store.returned amount) := by
  cases h with
  | invoked _ hrun => exact (AggregatorOp.steps hrun).withdraws

theorem nonneg_of_fair (run : (aggregator self outside).Run history d)
    (hfair : WithdrawalsFair self outside history d) :
    ∀ i ∈ invocations history, ∀ user amount, i.op = .withdraw user amount → 0 ≤ amount := by
  rintro ⟨env, op, effects⟩ hi user amount rfl
  obtain ⟨before, htook⟩ := run.took_of_mem _ (mem_invocations.mp hi)
  obtain ⟨older, after, hrun, hstep, -, -⟩ := id htook
  obtain ⟨henough, heffects, hafter⟩ := withdrawal_step hstep
  have hpays := hfair _ _ _ _ _ _ htook hstep amount (before.store.returned amount)
    (by rw [heffects]; exact .head _)
  rw [hafter] at hpays
  exact ((sound_of_run hrun).withdrawal_fair_iff henough _ _).mp hpays

theorem fair_of_nonneg
    (hamounts : ∀ i ∈ invocations history, ∀ user amount, i.op = .withdraw user amount →
      0 ≤ amount) : WithdrawalsFair self outside history d := by
  intro env user amount effects before after htook hstep burned paid hpaid
  obtain ⟨henough, heffects, hafter⟩ := withdrawal_step hstep
  rw [heffects, List.mem_singleton] at hpaid
  cases hpaid
  have hmem := mem_invocations.mpr htook.mem
  obtain ⟨older, _, hrun, -⟩ := htook
  rw [hafter]
  exact ((sound_of_run hrun).withdrawal_fair_iff henough _ _).mpr
    (hamounts _ hmem user amount rfl)

/-- The accounts are sound in every run, and every withdrawal is fair exactly when no negative
amount is withdrawn. -/
theorem withdrawals_fair_iff (run : (aggregator self outside).Run history d) :
    (d.store.Sound ∧ d.store.PositionsNonneg ∧ WithdrawalsFair self outside history d) ↔
      ∀ i ∈ invocations history, ∀ user amount, i.op = .withdraw user amount → 0 ≤ amount := by
  have hsound := sound_of_run run
  constructor
  · rintro ⟨-, -, hfair⟩
    exact nonneg_of_fair run hfair
  · intro hamounts
    exact ⟨hsound, hsound.positions_nonneg, fair_of_nonneg hamounts⟩

theorem AggregatorStep.at_par {env : Env} {op : AggregatorOp} {f f' : Frame Storage P Event}
    (h : AggregatorStep env f op f') (hpar : f.store.totalShares = f.store.totalDeposited) :
    f'.store.totalShares = f'.store.totalDeposited := by
  cases h with
  | configured | reinvested => exact hpar
  | deposited _ _ hmints =>
    show f.store.totalShares + _ = f.store.totalDeposited + _
    obtain ⟨-, rfl⟩ | ⟨hsome, -, rfl⟩ := hmints
    · rw [hpar]
    · rw [← hpar, Int.mul_tdiv_cancel _ hsome]
  | withdrawn _ _ hsome =>
    show f.store.totalShares - _ = f.store.totalDeposited - _
    rw [Storage.returned, ← hpar, Int.mul_tdiv_cancel _ hsome]

/-- Shares are worth what was paid for them in every state: whatever is reinvested, their price stays
at par, and a position is worth its number of shares. -/
theorem shares_stay_at_par {guard} (run : (aggregator self outside).RunWhere guard history d) :
    d.store.totalShares = d.store.totalDeposited ∧
    (∀ env stats f, Contract.run getAggregatorStats env d.frame = .ok (stats, f) →
      stats.sharePrice = 10000) ∧
    ∀ env user position f, Contract.run (getUserPosition user) env d.frame = .ok (position, f) →
      position.depositedAmount = position.shares := by
  have hpar : d.store.totalShares = d.store.totalDeposited := by
    refine store_invariant (I := fun s => s.totalShares = s.totalDeposited) ?_ ?_ run
    · rintro d hd
      rw [show d.store = Storage.empty from hd]
      rfl
    · exact fun _ _ _ _ _ _ ih _ hinvoke _ => (AggregatorOp.steps hinvoke).at_par ih
  have hsound := sound_of_run run
  refine ⟨hpar, fun env stats f h => ?_, fun env user position f h => ?_⟩
  · rw [getAggregatorStats, run_getStore_bind, run_bind] at h
    obtain ⟨price, _, hprice, h⟩ := h
    cases h
    unfold sharePrice at hprice
    split at hprice
    · obtain ⟨-, hsome, rfl⟩ := run_mulDiv hprice
      rw [mul_comm, show d.frame.store.totalDeposited = _ from hpar.symm]
      exact Int.mul_tdiv_cancel _ hsome
    · cases hprice
      rfl
  · rw [getUserPosition, run_getStore_bind, run_bind] at h
    obtain ⟨deposited, _, hworth, h⟩ := h
    cases h
    unfold worth at hworth
    split at hworth
    · obtain ⟨-, hsome, rfl⟩ := run_mulDiv hworth
      rw [show d.frame.store.totalDeposited = _ from hpar.symm]
      exact Int.mul_tdiv_cancel _ hsome
    · next hnone =>
      cases hworth
      have hle := hsound.shares_le user
      have hnonneg := hsound.shares_nonneg user
      change ¬ 0 < d.store.totalShares at hnone
      show 0 = d.store.getUserShares user
      omega

end Run

def home : Address := ⟨900⟩

def alice : Address := ⟨1⟩

/-- Alice invokes the aggregator at its address. -/
def asAlice (timestamp : Nat) (op : AggregatorOp) : Env × AggregatorOp :=
  (⟨home, timestamp, timestamp, [alice]⟩, op)

def freshAggregator : Deployment Storage Unit := ⟨Storage.empty, (), 0, 0⟩

theorem fresh_aggregator_initial :
    (aggregator home fun _ (_ : Unit) => False).initial freshAggregator := rfl

/-- Alice deposits 100 and withdraws 30 shares. -/
def withdrawnRun :
    System.Replayed (aggregator home fun _ (_ : Unit) => False)
      (Deployment.next AggregatorOp.perform home) System.anything :=
  .of freshAggregator fresh_aggregator_initial
    [asAlice 1 (.deposit alice 100), asAlice 2 (.withdraw alice 30)] (by decide +kernel)

/-- Alice deposits 100 and withdraws minus 50 shares. -/
def inflatedRun :
    System.Replayed (aggregator home fun _ (_ : Unit) => False)
      (Deployment.next AggregatorOp.perform home) System.anything :=
  .of freshAggregator fresh_aggregator_initial
    [asAlice 1 (.deposit alice 100), asAlice 2 (.withdraw alice (-50))] (by decide +kernel)

theorem withdrawals_fair_of_alice :
    WithdrawalsFair home (fun _ (_ : Unit) => False) withdrawnRun.history withdrawnRun.state :=
  have run : (aggregator home fun _ (_ : Unit) => False).Run withdrawnRun.history
      withdrawnRun.state := withdrawnRun.run Deployment.next_step System.anything_allowed
  ((withdrawals_fair_iff run).mpr fun i hi user amount hop => by
    have hamounts : ∀ i ∈ invocations withdrawnRun.history,
        i.op = .withdraw alice 30 ∨ i.op = .deposit alice 100 := by decide +kernel
    obtain hwithdraw | hdeposit := hamounts i hi
    · rw [hwithdraw] at hop
      cases hop
      decide
    · rw [hdeposit] at hop
      cases hop).2.2

theorem alice_stays_at_par :
    withdrawnRun.state.store.totalShares = withdrawnRun.state.store.totalDeposited :=
  have run : (aggregator home fun _ (_ : Unit) => False).Run withdrawnRun.history
      withdrawnRun.state := withdrawnRun.run Deployment.next_step System.anything_allowed
  (shares_stay_at_par run).1

/-- The withdrawal of minus 50 shares gives Alice 50 more. -/
theorem inflated_by_withdrawal :
    (aggregator home fun _ (_ : Unit) => False).Run inflatedRun.history inflatedRun.state ∧
      inflatedRun.state.store.getUserShares alice = 150 ∧
      inflatedRun.state.store.totalDeposited = 150 ∧
      ¬ WithdrawalsFair home (fun _ (_ : Unit) => False) inflatedRun.history inflatedRun.state := by
  have run : (aggregator home fun _ (_ : Unit) => False).Run inflatedRun.history
      inflatedRun.state := inflatedRun.run Deployment.next_step System.anything_allowed
  have hshares : inflatedRun.state.store.getUserShares alice = 150 := by decide +kernel
  have hdeposited : inflatedRun.state.store.totalDeposited = 150 := by decide +kernel
  refine ⟨run, hshares, hdeposited, fun hfair => ?_⟩
  have hnegative : ∃ i ∈ invocations inflatedRun.history, i.op = .withdraw alice (-50) := by
    decide +kernel
  obtain ⟨i, hi, hop⟩ := hnegative
  have hamount := nonneg_of_fair run hfair i hi alice (-50) hop
  omega

end Backit.YieldAggregator
