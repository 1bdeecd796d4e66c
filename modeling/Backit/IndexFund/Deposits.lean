import Backit.IndexFund.Backing

/-!
# When deposits are accepted

A stake that loses everything leaves shares without a pool. From then on a deposit would mint a part
of nothing, and every deposit is refused until all shares are burned.
-/

namespace Backit.IndexFund

open Soroban Contract Lib

/-- The shares are a net deposit's proportion of the supply, rounded down; without a supply they are
the deposit itself, scaled. -/
def Proportional (s : Storage) (netUsdc shares : Int) : Prop :=
  if s.totalIndexSupply = 0 then shares = netUsdc * navScale
  else shares * s.totalUsdcInPool ≤ netUsdc * s.totalIndexSupply ∧
    netUsdc * s.totalIndexSupply < (shares + 1) * s.totalUsdcInPool

theorem Sound.proportional {s : Storage} (h : Sound s) {netUsdc : Int} (hnet : 0 < netUsdc)
    (hsolvent : s.totalIndexSupply = 0 ∨ s.totalUsdcInPool ≠ 0) :
    Proportional s netUsdc (s.mintedFor netUsdc) := by
  have hpool := h.pool_nonneg
  unfold Proportional Storage.mintedFor
  split
  · rfl
  · next hsupply =>
    have hpot : 0 < s.totalUsdcInPool := by omega
    rw [tdiv_eq_div (mul_nonneg hnet.le h.supply_nonneg)]
    exact ⟨Int.ediv_mul_le _ hpot.ne', Int.lt_ediv_add_one_mul_self _ hpot⟩

section Run

variable {T : Type} [Tokens T] {self : Address} {outside : T → T → Prop} {d : Deployment Storage T}
  {history : List (Happening FundOp Event)} {env : Env} {user : Address} {amount : Int}
  {config : IndexConfig}

/-- A deposit that its user can pay and whose arithmetic stays in range is accepted, for its
proportion of shares, if and only if the fund has no shares or has a pool. -/
theorem deposit_accepted_iff (run : (indexFund self outside).Run history d)
    (hconfig : d.store.config = some config) (hadmissible : Admissible self d env)
    (hauth : user ∈ env.auths) (hamount : 0 < amount)
    (hfits : DepositFits d.store config user amount)
    (hpays : (Tokens.transfer env config.stakeToken user self amount d.peers).isSome = true) :
    (∃ shares f, Contract.run (deposit user amount) env d.frame = .ok (shares, f) ∧
        Proportional d.store (amount - feeOn amount config.depositFeeBps) shares ∧
        f.store.userIndexBalance user = d.store.userIndexBalance user + shares) ↔
      d.store.totalIndexSupply = 0 ∨ d.store.totalUsdcInPool ≠ 0 := by
  have hs := sound_of_run run
  obtain rfl := hadmissible.contract
  constructor
  · rintro ⟨shares, f, hdeposit, -⟩
    obtain ⟨_, _, -, -, -, -, hsolvent, -⟩ := run_deposit.mp hdeposit
    exact hsolvent
  · intro hsolvent
    obtain ⟨tokens, htransfer⟩ := Option.isSome_iff_exists.mp hpays
    have hfee := feeOn_lt hamount (hs.fees config hconfig).1
    refine ⟨_, _, run_deposit.mpr ⟨config, tokens, hauth, hamount, hconfig, hfits, hsolvent,
      htransfer, rfl, rfl⟩, hs.proportional (sub_pos.mpr hfee) hsolvent, ?_⟩
    exact Function.update_self ..

end Run

/-- The configuration of the scenarios. -/
def sampleConfig : IndexConfig := ⟨admin, usdc, ⟨302⟩, 86400, 100, 100, 10, 100⟩

/-- Bob's environment. -/
def bobEnv : Env := ⟨home, 5, 5, [bob]⟩

instance (s : Storage) (config : IndexConfig) (user : Address) (amount : Int) :
    Decidable (DepositFits s config user amount) :=
  decidable_of_iff (_ ∧ _ ∧ _ ∧ _ ∧ _ ∧ _ ∧ _)
    ⟨fun h => ⟨h.1, h.2.1, h.2.2.1, h.2.2.2.1, h.2.2.2.2.1, h.2.2.2.2.2.1, h.2.2.2.2.2.2⟩,
      fun h => ⟨h.fee, h.net, h.pool, h.scaled, h.minted, h.supply, h.balance⟩⟩

/-- The market pays nothing. -/
def lostRun : System.Replayed alone invoke System.anything :=
  .of freshDeployment fresh_deployment_initial
    (investedScript ++ [at_ 4 [basketMarket] (.claimPayout 1 0)]) (by decide +kernel)

theorem lost_run : alone.Run lostRun.history lostRun.state :=
  lostRun.run Deployment.next_step System.anything_allowed

theorem deposit_accepted_after_gain :
    ∃ shares f, run (deposit bob 1000) bobEnv gainedRun.state.frame = .ok (shares, f) ∧
      Proportional gainedRun.state.store (1000 - feeOn 1000 100) shares ∧
      f.store.userIndexBalance bob = gainedRun.state.store.userIndexBalance bob + shares := by
  have hconfig : gainedRun.state.store.config = some sampleConfig := by decide +kernel
  have hadmissible : Admissible home gainedRun.state bobEnv := by decide +kernel
  have hfits : DepositFits gainedRun.state.store sampleConfig bob 1000 := by decide +kernel
  have hpays : (Tokens.transfer bobEnv usdc bob home 1000 gainedRun.state.peers).isSome = true := by
    decide +kernel
  exact (deposit_accepted_iff gained_run hconfig hadmissible (by decide) (by decide) hfits
    hpays).mpr (by decide +kernel)

/-- After the loss Bob can pay his deposit, its arithmetic is in range, and yet nobody's deposit is
accepted. -/
theorem lost_fund_refuses : alone.Run lostRun.history lostRun.state ∧
      DepositFits lostRun.state.store sampleConfig bob 1000 ∧
      (Tokens.transfer bobEnv usdc bob home 1000 lostRun.state.peers).isSome = true ∧
      ∀ env user amount shares f,
        run (deposit user amount) env lostRun.state.frame ≠ .ok (shares, f) := by
  refine ⟨lost_run, by decide +kernel, by decide +kernel, ?_⟩
  intro env user amount shares f hdeposit
  have hlost : ¬ (lostRun.state.store.totalIndexSupply = 0 ∨
      lostRun.state.store.totalUsdcInPool ≠ 0) := by decide +kernel
  obtain ⟨_, _, -, -, -, -, hsolvent, -⟩ := run_deposit.mp hdeposit
  exact hlost hsolvent

end Backit.IndexFund
