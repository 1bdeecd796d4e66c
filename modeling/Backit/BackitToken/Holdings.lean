import Backit.Lib.SumsTo
import Backit.Soroban.Execution
import Backit.BackitToken.Token

/-!
# Holdings

Whatever the entry points do, the balances and stakes stay within the supply, nobody has claimed
beyond the fees collected, and the contract holds the fees that it has collected and not paid out.
-/

namespace Backit.BackitToken

open Soroban Contract Lib

namespace Storage

variable (s : Storage)

/-- What a holder has staked. -/
def stakedAmount (holder : Address) : Int :=
  match s.stake holder with
  | some record => record.amount
  | none => 0

/-- What a holder has, staked or not. -/
def holdings (holder : Address) : Int := s.balance holder + s.stakedAmount holder

/-- What the contract owes of a token: the fees collected and not paid out. -/
def owed (token : Address) : Int :=
  match s.config with
  | some config =>
    if config.usdcSac = token then s.totalFeesCollected - s.totalRevenueDistributed else 0
  | none => 0

end Storage

/-- What holds of the contract's storage whatever is invoked. -/
structure Sound (s : Storage) : Prop where
  balances : ∀ holder, 0 ≤ s.balance holder
  stakes : ∀ holder record, s.stake holder = some record → 0 < record.amount ∧ 1 ≤ record.boost
  conserved : Within s.holdings s.totalSupply
  snapshots : ∀ holder, 0 ≤ s.lastClaimFees holder ∧
    s.lastClaimFees holder ≤ s.totalFeesCollected
  unfounded : s.config = none → s = Storage.empty
  supply : s.config ≠ none → s.totalSupply = totalSupply

section Balances

variable {s : Storage} {sender recipient holder : Address} {amount : Int}

theorem moved_balance (s : Storage) (sender recipient : Address) (amount : Int)
    (holder : Address) : (s.moved sender recipient amount).balance holder =
      s.balance holder + transferDelta sender recipient amount holder := by
  unfold Storage.moved transferDelta
  simp only [Storage.setBalance, Function.update_apply]
  by_cases hrecipient : holder = recipient
  · subst hrecipient
    by_cases hsender : holder = sender
    · simp [hsender]
    · simp [hsender]
  · by_cases hsender : holder = sender
    · subst hsender
      simp [hrecipient, sub_eq_add_neg]
    · simp [hrecipient, hsender]

theorem moved_holdings (s : Storage) (sender recipient : Address) (amount : Int)
    (holder : Address) : (s.moved sender recipient amount).holdings holder =
      s.holdings holder + transferDelta sender recipient amount holder := by
  have hstaked : (s.moved sender recipient amount).stakedAmount holder = s.stakedAmount holder :=
    rfl
  rw [Storage.holdings, moved_balance, hstaked, Storage.holdings]
  omega

/-- A transfer moves what it moves between two accounts, and changes no sum over both. -/
theorem sum_transferDelta (sender recipient : Address) (amount : Int) :
    ∑ h ∈ {sender, recipient}, transferDelta sender recipient amount h = 0 := by
  by_cases hsame : sender = recipient
  · subst hsame
    simp [transferDelta]
  · rw [Finset.sum_pair hsame]
    simp [transferDelta, hsame, Ne.symm hsame]

theorem transferDelta_other (hsender : holder ≠ sender) (hrecipient : holder ≠ recipient) :
    transferDelta sender recipient amount holder = 0 := by
  simp [transferDelta, hsender, hrecipient]

theorem Sound.stakedAmount_nonneg (h : Sound s) (holder : Address) : 0 ≤ s.stakedAmount holder := by
  unfold Storage.stakedAmount
  split
  · next record hstake => exact (h.stakes holder record hstake).1.le
  · exact le_rfl

theorem Sound.holdings_nonneg (h : Sound s) (holder : Address) : 0 ≤ s.holdings holder :=
  add_nonneg (h.balances holder) (h.stakedAmount_nonneg holder)

end Balances

section Founding

variable {s : Storage} {bound : Int}

/-- The balances are nonnegative and within a bound. -/
def Distributed (s : Storage) (bound : Int) : Prop :=
  (∀ holder, 0 ≤ s.balance holder) ∧ Within s.balance bound

/-- Writing a balance moves the total by at most what is written. -/
theorem Distributed.setBalance (h : Distributed s bound) (holder : Address) {amount : Int}
    (hamount : 0 ≤ amount) : Distributed (s.setBalance holder amount) (bound + amount) := by
  have hnonneg : ∀ other, 0 ≤ (s.setBalance holder amount).balance other := by
    intro other
    simp only [Storage.setBalance, Function.update_apply]
    split
    · exact hamount
    · exact h.1 other
  refine ⟨hnonneg, h.2.change {holder} hnonneg (fun other hother => ?_) ?_⟩
  · rw [Finset.mem_singleton] at hother
    simp [Storage.setBalance, hother]
  · have := h.1 holder
    simp only [Storage.setBalance, Finset.sum_singleton, Function.update_self]
    omega

theorem allocation_nonneg (bps : Nat) : 0 ≤ allocation bps := by
  have hscaled : 0 ≤ totalSupply * (bps : Int) := mul_nonneg (by decide) (Int.natCast_nonneg bps)
  exact Int.tdiv_nonneg hscaled (by decide)

theorem minted_distributed (communityRewards team treasury liquidity airdrop : Address) :
    Distributed (Storage.empty.minted communityRewards team treasury liquidity airdrop)
      totalSupply := by
  have hempty : Distributed Storage.empty 0 := ⟨fun _ => le_rfl, .zero⟩
  have hminted := ((((hempty.setBalance communityRewards
    (allocation_nonneg allocCommunityRewardsBps)).setBalance team
    (allocation_nonneg allocTeamBps)).setBalance treasury
    (allocation_nonneg allocTreasuryBps)).setBalance liquidity
    (allocation_nonneg allocLiquidityBps)).setBalance airdrop
    (allocation_nonneg allocAirdropBps)
  have hsum : 0 + allocation allocCommunityRewardsBps + allocation allocTeamBps +
      allocation allocTreasuryBps + allocation allocLiquidityBps +
      allocation allocAirdropBps = totalSupply := by decide
  rw [hsum] at hminted
  exact hminted

end Founding

section Steps

variable {env : Env} {op : TokenOp} {s s' : Storage} {effects : List (Effect Event)}

theorem sound_empty : Sound Storage.empty where
  balances _ := le_rfl
  stakes := by simp [Storage.empty]
  conserved := Within.zero
  snapshots _ := ⟨le_rfl, le_rfl⟩
  unfounded _ := rfl
  supply h := absurd rfl h

theorem boostMultiplier_pos (lockDurationSecs : Nat) : 1 ≤ boostMultiplier lockDurationSecs := by
  unfold boostMultiplier
  split_ifs <;> decide

/-- Holders of something come after the initialisation. -/
theorem Sound.founded_of_balance (h : Sound s) {holder : Address}
    (hpositive : 0 < s.balance holder) : s.config ≠ none := by
  intro hnone
  rw [h.unfounded hnone] at hpositive
  exact absurd hpositive (lt_irrefl 0)

theorem staked_holdings {staker : Address} {amount : Int} {lockUntil boost : Nat}
    (hstake : s.stake staker = none) (holder : Address) :
    (s.staked staker amount lockUntil boost).holdings holder = s.holdings holder := by
  unfold Storage.holdings Storage.stakedAmount
  by_cases hholder : holder = staker
  · subst hholder
    simp [Storage.staked, Storage.setBalance, Storage.setStake, Storage.setLastClaimFees, hstake]
  · simp [Storage.staked, Storage.setBalance, Storage.setStake, Storage.setLastClaimFees, hholder]

theorem unstaked_holdings {staker : Address} {record : StakeRecord}
    (hstake : s.stake staker = some record) (holder : Address) :
    (s.unstaked staker record.amount).holdings holder = s.holdings holder := by
  unfold Storage.holdings Storage.stakedAmount
  by_cases hholder : holder = staker
  · subst hholder
    simp [Storage.unstaked, Storage.setBalance, Storage.removeStake, hstake]
  · simp [Storage.unstaked, Storage.setBalance, Storage.removeStake, hholder]

/-- A claim takes the holder's snapshot to the fees collected. -/
theorem Sound.claimed (hs : Sound s) (hfounded : s.config ≠ none) (holder : Address) :
    Sound (s.claimed holder) := by
  refine ⟨hs.balances, hs.stakes, hs.conserved, fun other => ?_,
    fun hnone => absurd hnone hfounded, hs.supply⟩
  have := hs.snapshots other
  have := hs.snapshots holder
  simp only [Storage.claimed, Storage.setLastClaimFees, Storage.setTotalRevenueDistributed,
    Function.update_apply]
  split <;> omega

theorem Transition.sound (h : Transition env op s effects s') (hs : Sound s) : Sound s' := by
  cases h with
  | @founded admin usdcSac communityRewards team treasury liquidity airdrop _ hnone =>
    obtain rfl := hs.unfounded hnone
    have hminted := minted_distributed communityRewards team treasury liquidity airdrop
    refine ⟨hminted.1, by simp [Storage.founded, Storage.minted, Storage.setConfig,
      Storage.setInitialDistribution, Storage.setTotalSupply, Storage.setBalance,
      Storage.empty], ?_, fun _ => ⟨le_rfl, le_rfl⟩, ?_, fun _ => rfl⟩
    · refine hminted.2.mono fun holder => ?_
      exact (add_zero (Storage.balance _ holder)).le
    · simp [Storage.founded, Storage.setConfig]
  | @moved sender recipient amount _ hamount hauth hbalance =>
    have hfounded := hs.founded_of_balance (hamount.trans_le hbalance)
    refine ⟨fun holder => ?_, hs.stakes, ?_, hs.snapshots, fun hnone => absurd hnone hfounded,
      hs.supply⟩
    · have := hs.balances holder
      rw [moved_balance]
      unfold transferDelta
      split_ifs <;> subst_vars <;> omega
    · have hnonneg : ∀ holder, 0 ≤ (s.moved sender recipient amount).holdings holder := by
        intro holder
        have := hs.holdings_nonneg holder
        have := hs.stakedAmount_nonneg sender
        rw [moved_holdings]
        unfold transferDelta
        split_ifs <;> subst_vars <;> simp only [Storage.holdings] at * <;> omega
      have hconserved := hs.conserved.change {sender, recipient} hnonneg
        (fun holder hother => ?_) (show _ ≤ _ + (0 : Int) from ?_)
      · rwa [add_zero] at hconserved
      · simp only [Finset.mem_insert, Finset.mem_singleton, not_or] at hother
        rw [moved_holdings, transferDelta_other hother.1 hother.2, add_zero]
      · simp only [moved_holdings, Finset.sum_add_distrib, sum_transferDelta, add_zero]
        exact le_rfl
  | funded hamount hconfig =>
    refine ⟨hs.balances, hs.stakes, hs.conserved, fun holder => ?_, fun hnone => ?_, hs.supply⟩
    · have := hs.snapshots holder
      simp only [Storage.funded, Storage.setTotalFeesCollected]
      omega
    · exact absurd hnone (by simp [Storage.funded, Storage.setTotalFeesCollected, hconfig])
  | @claimed holder config _ _ hconfig => exact hs.claimed (by simp [hconfig]) holder
  | @staked staker amount lockDurationSecs config _ hauth hconfig hamount hstake hbalance =>
    have hnewStake : ∀ lockUntil boost, (s.staked staker amount lockUntil boost).stake =
        Function.update s.stake staker (some ⟨amount, lockUntil, boost,
          s.totalFeesCollected⟩) := fun _ _ => rfl
    refine ⟨fun holder => ?_, fun holder record hrecord => ?_, ?_, fun holder => ?_,
      fun hnone => absurd (hconfig.symm.trans hnone) (Option.some_ne_none _), hs.supply⟩
    · have := hs.balances holder
      simp only [Storage.staked, Storage.setBalance, Storage.setStake, Storage.setLastClaimFees,
        Function.update_apply]
      split
      · omega
      · exact this
    · rw [hnewStake] at hrecord
      by_cases hholder : holder = staker
      · subst hholder
        rw [Function.update_self] at hrecord
        cases hrecord
        exact ⟨hamount, boostMultiplier_pos _⟩
      · rw [Function.update_of_ne hholder] at hrecord
        exact hs.stakes holder record hrecord
    · exact hs.conserved.mono fun holder => (staked_holdings hstake holder).le
    · have := hs.snapshots holder
      simp only [Storage.staked, Storage.setBalance, Storage.setStake, Storage.setLastClaimFees,
        Function.update_apply]
      split <;> omega
  | @unstaked staker record config _ hauth hconfig hstake =>
    have hamount := (hs.stakes staker record hstake).1
    refine ⟨fun holder => ?_, fun holder other hother => ?_, ?_, hs.snapshots,
      fun hnone => absurd (hconfig.symm.trans hnone) (Option.some_ne_none _), hs.supply⟩
    · have := hs.balances holder
      simp only [Storage.unstaked, Storage.setBalance, Storage.removeStake, Function.update_apply]
      split
      · subst_vars
        omega
      · exact this
    · have hold : s.stake holder = some other := by
        by_cases hholder : holder = staker
        · simp [Storage.unstaked, Storage.removeStake, hholder] at hother
        · simpa [Storage.unstaked, Storage.removeStake, Storage.setBalance, hholder] using hother
      exact hs.stakes holder other hold
    · exact hs.conserved.mono fun holder => (unstaked_holdings hstake holder).le

theorem Transition.only_transfers (h : Transition env op s effects s') :
    ∀ e ∈ effects, e.onlyTransfers = true := by
  cases h <;> simp [Effect.onlyTransfers]

/-- What the contract owes changes by at most what a transition moves into the contract. -/
theorem Transition.owed (h : Transition env op s effects s') (hs : Sound s)
    (hforeign : env.contract ∉ env.auths) (token : Address) :
    s'.owed token ≤ s.owed token + (effects.map (Effect.moved token env.contract)).sum := by
  have hforeign' : ∀ {who}, who ∈ env.auths → env.contract ≠ who := fun hwho heq =>
    hforeign (heq ▸ hwho)
  cases h with
  | @founded admin usdcSac communityRewards team treasury liquidity airdrop _ hnone =>
    obtain rfl := hs.unfounded hnone
    simp [Storage.owed, Storage.founded, Storage.minted, Storage.setConfig,
      Storage.setInitialDistribution, Storage.setTotalSupply, Storage.setBalance,
      Storage.empty, Effect.moved]
  | moved => simp [Storage.owed, Storage.moved, Storage.setBalance]
  | @funded amount config _ hamount hconfig hauth =>
    have hsender := hforeign' hauth
    simp only [Storage.owed, Storage.funded, Storage.setTotalFeesCollected, hconfig,
      List.map_cons, List.map_nil, List.sum_cons, List.sum_nil, Effect.moved, transferDelta,
      if_true, if_neg hsender, eq_comm (a := token)]
    split <;> omega
  | @claimed holder config _ hauth hconfig =>
    have hholder := hforeign' hauth
    simp only [Storage.owed, Storage.claimed, Storage.setLastClaimFees,
      Storage.setTotalRevenueDistributed, hconfig, List.map_cons, List.map_nil, List.sum_cons,
      List.sum_nil, Effect.moved, transferDelta, if_true, if_neg hholder, eq_comm (a := token)]
    split <;> omega
  | staked _ hconfig =>
    simp [Storage.owed, Storage.staked, Storage.setBalance, Storage.setStake,
      Storage.setLastClaimFees, Effect.moved]
  | unstaked =>
    simp [Storage.owed, Storage.unstaked, Storage.setBalance, Storage.removeStake, Effect.moved]

end Steps

section Run

variable {T : Type} [Tokens T]

/-- Executions of the contract from its deployment on, at an address that owes nobody anything. -/
def backitToken (self : Address) (outside : T → T → Prop) :
    System (Deployment Storage T) (Happening TokenOp Event) :=
  contractSystem TokenOp.perform self outside fun d =>
    d.store = Storage.empty ∧
      ∀ token held, Tokens.balance d.peers token self = some held → 0 ≤ held

variable {self : Address} {outside : T → T → Prop} {d : Deployment Storage T}
  {history : List (Happening TokenOp Event)}
  {guard : System.Guard (Deployment Storage T) (Happening TokenOp Event)}

theorem sound_of_run (run : (backitToken self outside).RunWhere guard history d) : Sound d.store := by
  refine store_invariant (I := Sound) ?_ ?_ run
  · rintro d ⟨hempty, -⟩
    rw [hempty]
    exact sound_empty
  · intro h d env op f _ ih _ hrun _
    obtain ⟨effects, -, -, htransition⟩ := TokenOp.transitions hrun
    exact htransition.sound ih

/-- The contract holds what it owes in every reachable state. -/
theorem owed_le_held (hexact : ExactTransfers T) (hundrained : Undrained self outside)
    (run : (backitToken self outside).RunWhere guard history d) (token : Address) {held : Int}
    (hheld : Tokens.balance d.peers token self = some held) : d.store.owed token ≤ held := by
  refine owed_le_transferred hexact hundrained (fun d hd => ?_)
    (fun h d env op f hrun hforeign hinvoke => ?_) run token held hheld
  · rw [hd.1]
    exact hd.2
  · obtain ⟨effects, -, hreplay, htransition⟩ := TokenOp.transitions hinvoke
    exact ⟨effects, hreplay, htransition.only_transfers,
      htransition.owed (sound_of_run hrun) hforeign⟩

end Run

end Backit.BackitToken
