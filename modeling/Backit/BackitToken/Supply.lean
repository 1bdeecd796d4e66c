import Backit.BackitToken.Revenue

/-!
# The supply and who has it

Once the token is initialised, every entry point moves holdings or leaves them alone, so their total
never changes. The initialisation writes five balances one after the other: when two recipients are
the same address, the later allocation overwrites the earlier one, and the total falls short of the
supply for good.
-/

namespace Backit.BackitToken

open Soroban Contract Lib

/-- The balances that the initialisation writes, in their order. -/
def allocations (communityRewards team treasury liquidity airdrop : Address) :
    List (Address × Int) :=
  [(communityRewards, allocation allocCommunityRewardsBps), (team, allocation allocTeamBps),
    (treasury, allocation allocTreasuryBps), (liquidity, allocation allocLiquidityBps),
    (airdrop, allocation allocAirdropBps)]

section Steps

variable {env : Env} {op : TokenOp} {s s' : Storage} {effects : List (Effect Event)} {t : Int}
  {config : TokenConfig} {communityRewards team treasury liquidity airdrop : Address}

theorem founded_holdings :
    (Storage.empty.founded config communityRewards team treasury liquidity airdrop).holdings =
      writeAll (fun _ => 0) (allocations communityRewards team treasury liquidity airdrop) :=
  funext fun _ => add_zero _

/-- What the initialisation hands out is the supply exactly when its recipients are distinct. -/
theorem founded_total : ∃ t,
    SumsTo (Storage.empty.founded config communityRewards team treasury liquidity airdrop).holdings
      t ∧ (t = totalSupply ↔ [communityRewards, team, treasury, liquidity, airdrop].Nodup) := by
  have hpositive : ∀ w ∈ allocations communityRewards team treasury liquidity airdrop,
      0 < w.2 := by
    simp only [allocations, List.forall_mem_cons, List.not_mem_nil, false_implies, implies_true]
    decide
  have hempty : ∀ _ : Address, (0 : Int) ≤ 0 := fun _ => le_rfl
  have hsum : 0 + ((allocations communityRewards team treasury liquidity airdrop).map
      Prod.snd).sum = totalSupply := by
    show 0 + List.sum [allocation allocCommunityRewardsBps, allocation allocTeamBps,
      allocation allocTreasuryBps, allocation allocLiquidityBps, allocation allocAirdropBps] = _
    decide
  have hall := SumsTo.zero.writeAll_iff hempty hpositive
  rw [hsum] at hall
  obtain ⟨t, ht, -⟩ := SumsTo.zero.writeAll_le hempty hpositive
  refine ⟨t, by rwa [founded_holdings], ?_⟩
  constructor
  · rintro rfl
    exact (hall.mp ht).1
  · intro hnodup
    exact ht.unique (hall.mpr ⟨hnodup, fun _ _ => rfl⟩)

/-- After the initialisation no entry point changes what all holders have together. -/
theorem Transition.total_kept (h : Transition env op s effects s') (hfounded : s.config ≠ none)
    (hsum : SumsTo s.holdings t) : SumsTo s'.holdings t ∧ s'.config ≠ none := by
  cases h with
  | founded hnone => exact absurd hnone hfounded
  | @moved sender recipient amount =>
    refine ⟨?_, hfounded⟩
    show SumsTo (s.moved sender recipient amount).holdings t
    rw [← add_zero t]
    refine hsum.change {sender, recipient} (fun holder hother => ?_) ?_
    · simp only [Finset.mem_insert, Finset.mem_singleton, not_or] at hother
      rw [moved_holdings, transferDelta_other hother.1 hother.2, add_zero]
    · simp only [moved_holdings, Finset.sum_add_distrib, sum_transferDelta]
  | funded => exact ⟨hsum, hfounded⟩
  | claimed => exact ⟨hsum, hfounded⟩
  | staked _ _ _ hstake => exact ⟨(funext (staked_holdings hstake)) ▸ hsum, hfounded⟩
  | unstaked _ _ hstake => exact ⟨(funext (unstaked_holdings hstake)) ▸ hsum, hfounded⟩

end Steps

section Run

variable {T : Type} [Tokens T] {self : Address} {outside : T → T → Prop} {d : Deployment Storage T}
  {history : List (Happening TokenOp Event)}
  {admin usdcSac communityRewards team treasury liquidity airdrop : Address}

/-- What all holders have together, in every state after an initialisation. -/
theorem total_of_run (run : (backitToken self outside).Run history d)
    (hinit : .initializeToken admin usdcSac communityRewards team treasury liquidity airdrop ∈
      (invocations history).map Invocation.op) :
    d.store.config ≠ none ∧ ∃ t, SumsTo d.store.holdings t ∧
      (t = totalSupply ↔ [communityRewards, team, treasury, liquidity, airdrop].Nodup) := by
  revert hinit
  refine contract_invariant (I := fun h d => .initializeToken admin usdcSac communityRewards team
    treasury liquidity airdrop ∈ (invocations h).map Invocation.op → d.store.config ≠ none ∧ ∃ t, SumsTo d.store.holdings t ∧
      (t = totalSupply ↔ [communityRewards, team, treasury, liquidity, airdrop].Nodup))
    ?_ ?_ ?_ run
  · intro d _ hinit
    cases hinit
  · intro h d env' op f hrun ih _ hinvoke _ hinit
    obtain ⟨effects', -, -, htransition⟩ := TokenOp.transitions hinvoke
    rw [Deployment.frame] at htransition
    obtain heq | hearlier := List.mem_cons.mp hinit
    · cases heq
      have hs := sound_of_run hrun
      show f.store.config ≠ none ∧ ∃ t, SumsTo f.store.holdings t ∧ _
      generalize f.store = s' at htransition
      generalize d.store = s at htransition hs
      cases htransition with
      | founded hnone =>
        obtain rfl := hs.unfounded hnone
        exact ⟨Option.some_ne_none _, founded_total⟩
    · obtain ⟨hfounded, t, hsum, hiff⟩ := ih hearlier
      obtain ⟨hsum', hfounded'⟩ := htransition.total_kept hfounded hsum
      exact ⟨hfounded', t, hsum', hiff⟩
  · intro h d peers _ ih _
    exact ih

/-- The balances and stakes add up to the supply, in every state after the initialisation, if and
only if its five recipients are distinct. -/
theorem supply_conserved_iff (run : (backitToken self outside).Run history d)
    (hinit : .initializeToken admin usdcSac communityRewards team treasury liquidity airdrop ∈
      (invocations history).map Invocation.op) :
    ((∀ holder, 0 ≤ d.store.balance holder ∧ 0 ≤ d.store.stakedAmount holder) ∧
        SumsTo d.store.holdings d.store.totalSupply) ↔
      [communityRewards, team, treasury, liquidity, airdrop].Nodup := by
  have hs := sound_of_run run
  obtain ⟨hfounded, t, hsum, hiff⟩ := total_of_run run hinit
  rw [hs.supply hfounded, ← hiff]
  constructor
  · rintro ⟨-, hall⟩
    exact hsum.unique hall
  · rintro rfl
    exact ⟨fun holder => ⟨hs.balances holder, hs.stakedAmount_nonneg holder⟩, hsum⟩

end Run

/-- Alice stakes half of what she has got, and sends the rest to herself. -/
def selfTransferScript : List (Env × TokenOp) :=
  [at_ 1 [admin] (.initializeToken admin usdc alice bob ⟨5⟩ ⟨6⟩ carol),
    at_ 2 [alice] (.stakeBackit alice 200000000000000 86400),
    at_ 3 [alice] (.transfer alice alice 200000000000000)]

/-- The treasury receives the liquidity as well. -/
def sharedScript : List (Env × TokenOp) :=
  [at_ 1 [admin] (.initializeToken admin usdc alice bob dave dave carol)]

def selfTransferRun : System.Replayed alone invoke System.anything :=
  .of freshDeployment fresh_deployment_initial selfTransferScript (by decide +kernel)

def sharedRun : System.Replayed alone invoke System.anything :=
  .of freshDeployment fresh_deployment_initial sharedScript (by decide +kernel)

theorem self_transfer_run : alone.Run selfTransferRun.history selfTransferRun.state :=
  selfTransferRun.run Deployment.next_step System.anything_allowed

theorem shared_run : alone.Run sharedRun.history sharedRun.state :=
  sharedRun.run Deployment.next_step System.anything_allowed

theorem supply_conserved_after_self_transfer :
    SumsTo selfTransferRun.state.store.holdings selfTransferRun.state.store.totalSupply :=
  have hinit : .initializeToken admin usdc alice bob ⟨5⟩ ⟨6⟩ carol ∈
      (invocations selfTransferRun.history).map Invocation.op := by decide +kernel
  ((supply_conserved_iff self_transfer_run hinit).mpr (by decide)).2

/-- Dave, who receives two allocations, has the second one only, and a part of the supply is
nobody's. -/
theorem coinciding_recipients_lose : alone.Run sharedRun.history sharedRun.state ∧
      sharedRun.state.store.balance dave = 150000000000000 ∧
      ¬ SumsTo sharedRun.state.store.holdings sharedRun.state.store.totalSupply := by
  refine ⟨shared_run, by decide +kernel, fun hall => ?_⟩
  have hinit : .initializeToken admin usdc alice bob dave dave carol ∈
      (invocations sharedRun.history).map Invocation.op := by decide +kernel
  obtain ⟨hfounded, t, hsum, hiff⟩ := total_of_run shared_run hinit
  rw [(sound_of_run shared_run).supply hfounded] at hall
  exact absurd (hiff.mp (hsum.unique hall)) (by decide)

end Backit.BackitToken
