import Backit.BackitToken.Slices

/-!
# Revenue-share solvency

A transfer hands tokens to a holder whose last claim may lie before the sender's, and then the same
tokens claim the same fees again. Boosted stakes can weigh more than the supply together, and then
the claims on one deposit exceed it. A run without such transfers and deposits pays out no more
than was collected.
-/

namespace Backit.BackitToken

open Soroban Contract Lib

/-- The fees that an invocation deposits. -/
def TokenOp.deposited : TokenOp → Int
  | .feePoolDeposit amount => amount
  | _ => 0

/-- The fees deposited in a history. -/
def feesIn : List (Invocation TokenOp Event) → Int
  | [] => 0
  | i :: rest => feesIn rest + i.op.deposited

/-- Up to which unit of the fees the tokens that have reached a holder may have claimed: a claim
covers the fees deposited before it, and a transfer passes on what the sender's tokens have
claimed. -/
def claimedUpTo : List (Invocation TokenOp Event) → Address → Int
  | [], _ => 0
  | i :: rest, who =>
    match i.op with
    | .claimRevenueShare holder => if who = holder then feesIn rest else claimedUpTo rest who
    | .transfer sender recipient _ =>
      if who = recipient then max (claimedUpTo rest recipient) (claimedUpTo rest sender)
      else claimedUpTo rest who
    | _ => claimedUpTo rest who

/-- The weight of two accounts together. -/
def Storage.jointWeight (s : Storage) (a b : Address) : Int :=
  ∑ holder ∈ {a, b}, s.effectiveBalance holder

/-- An invocation under which no tokens claim twice and no deposit is claimed more than once: a
transfer's recipient has claimed everything there is, or at least what the sender has and the
transfer does not raise their joint weight; and at a deposit all weights are within the supply. -/
def TokenOp.Fair (s : Storage) : TokenOp → Prop
  | .transfer sender recipient amount =>
    s.lastClaimFees recipient = s.totalFeesCollected ∨
      s.lastClaimFees sender ≤ s.lastClaimFees recipient ∧
        (s.moved sender recipient amount).jointWeight sender recipient ≤
          s.jointWeight sender recipient
  | .feePoolDeposit _ => Within s.effectiveBalance s.totalSupply
  | _ => True

/-- Every invocation is fair. -/
def fairly {T : Type} : System.Guard (Deployment Storage T) (Happening TokenOp Event) :=
  fun _ d l => ∀ i, l.invocation = some i → i.op.Fair d.store

section Steps

variable {env : Env} {op : TokenOp} {s s' : Storage} {effects : List (Effect Event)}
  {weight : Int → Int}

/-- A fair transfer gives nobody weight on units that others have claimed with it. -/
theorem Sliced.moved (h : Sliced s weight) {sender recipient : Address} {amount : Int}
    (hamount : 0 < amount) (hs' : Sound (s.moved sender recipient amount))
    (hfair : (TokenOp.transfer sender recipient amount).Fair s) :
    Sliced (s.moved sender recipient amount) weight := by
  have hothers : ∀ holder, holder ≠ recipient →
      (s.moved sender recipient amount).effectiveBalance holder ≤ s.effectiveBalance holder := by
    intro holder hholder
    refine effectiveBalance_mono ?_ rfl rfl
    have hdelta : transferDelta sender recipient amount holder ≤ 0 := by
      rw [transferDelta, if_neg hholder]
      split <;> omega
    rw [moved_balance]
    omega
  -- Where the recipient has claimed already, only the sender's weight changes.
  have hclaimed : ∀ slice, slice < s.lastClaimFees recipient → ∀ holder,
      (s.moved sender recipient amount).claimable slice holder ≤ s.claimable slice holder := by
    intro slice hslice holder
    unfold Storage.claimable
    show (if s.lastClaimFees holder ≤ slice then _ else 0) ≤ _
    split
    · next hlast =>
      refine hothers holder ?_
      rintro rfl
      omega
    · exact le_rfl
  refine ⟨h.unclaimed, fun slice hlow hhigh => ?_, h.paid⟩
  have hcollected : slice < s.totalFeesCollected := hhigh
  have hbefore := h.within slice hlow hcollected
  by_cases hslice : slice < s.lastClaimFees recipient
  · exact hbefore.mono (hclaimed slice hslice)
  · obtain hall | ⟨hlast, hjoint⟩ := hfair
    · exact absurd (hall ▸ hcollected) hslice
    · have hin : ∀ t : Storage, t.lastClaimFees = s.lastClaimFees →
          ∑ holder ∈ {sender, recipient}, t.claimable slice holder =
            t.jointWeight sender recipient := by
        intro t ht
        refine Finset.sum_congr rfl fun holder hholder => if_pos ?_
        rw [ht]
        obtain rfl | hrecipient := Finset.mem_insert.mp hholder
        · omega
        · rw [Finset.mem_singleton.mp hrecipient]
          omega
      have hchange := hbefore.change {sender, recipient} (hs'.claimable_nonneg slice)
        (fun holder hholder => ?_) (show _ ≤ _ + (0 : Int) from ?_)
      · rwa [add_zero] at hchange
      · unfold Storage.claimable
        show (if s.lastClaimFees holder ≤ slice then _ else 0) ≤ _
        split
        · refine hothers holder fun hrecipient => hholder ?_
          simp [hrecipient]
        · exact le_rfl
      · rw [hin s rfl, hin (s.moved sender recipient amount) rfl, add_zero]
        exact hjoint

/-- A fair transition keeps the slices of the fees within the supply. -/
theorem Transition.sliced (h : Transition env op s effects s') (hs : Sound s) (hfair : op.Fair s)
    (hsliced : Sliced s weight) : ∃ weight', Sliced s' weight' := by
  have hs' := h.sound hs
  cases h with
  | @founded admin usdcSac communityRewards team treasury liquidity airdrop _ hnone =>
    obtain rfl := hs.unfounded hnone
    refine ⟨fun _ => 0, fun _ _ => rfl, fun slice hlow hhigh => ?_, ?_⟩
    · exact absurd hhigh (not_lt.mpr hlow)
    · exact (mul_zero _).le
  | moved hamount => exact ⟨weight, hsliced.moved hamount hs' hfair⟩
  | funded hamount => exact ⟨weight, hsliced.funded hs hamount hfair⟩
  | claimed => exact ⟨_, hsliced.claimed hs _⟩
  | @staked staker amount lockDurationSecs config _ hauth hconfig hamount hstake =>
    refine ⟨weight, hsliced.mono rfl rfl rfl fun slice holder hslice => ?_⟩
    unfold Storage.claimable
    by_cases hholder : holder = staker
    · subst hholder
      have hlast : (s.staked holder amount (env.timestamp + lockDurationSecs)
          (boostMultiplier lockDurationSecs)).lastClaimFees holder = s.totalFeesCollected :=
        Function.update_self ..
      rw [hlast, if_neg (not_le.mpr hslice)]
      exact hs.claimable_nonneg slice holder
    · have hlast : (s.staked staker amount (env.timestamp + lockDurationSecs)
          (boostMultiplier lockDurationSecs)).lastClaimFees holder = s.lastClaimFees holder :=
        Function.update_of_ne hholder ..
      rw [hlast]
      split
      · refine effectiveBalance_mono ?_ ?_ rfl <;>
          simp [Storage.staked, Storage.setBalance, Storage.setStake,
            Storage.setLastClaimFees, hholder]
      · exact le_rfl
  | unstaked _ _ hstake =>
    refine ⟨weight, hsliced.mono rfl rfl rfl fun slice holder _ => ?_⟩
    unfold Storage.claimable
    show (if s.lastClaimFees holder ≤ slice then _ else 0) ≤ _
    split
    · exact unstaked_effectiveBalance_le hs hstake holder
    · exact le_rfl

theorem Transition.collected (h : Transition env op s effects s') :
    s'.totalFeesCollected = s.totalFeesCollected + op.deposited := by
  cases h <;>
    simp [TokenOp.deposited, Storage.founded, Storage.minted, Storage.moved, Storage.funded,
      Storage.claimed, Storage.staked, Storage.unstaked, Storage.setConfig,
      Storage.setInitialDistribution, Storage.setTotalSupply, Storage.setBalance,
      Storage.setTotalFeesCollected, Storage.setTotalRevenueDistributed, Storage.setStake,
      Storage.removeStake, Storage.setLastClaimFees]

end Steps

section Run

variable {T : Type} [Tokens T] {self : Address} {outside : T → T → Prop}
  {d : Deployment Storage T} {history : List (Happening TokenOp Event)}

/-- In a fair run the slices of the fees stay within the supply. -/
theorem sliced_of_run (run : (backitToken self outside).RunWhere fairly history d) :
    ∃ weight, Sliced d.store weight := by
  refine contract_invariant (I := fun _ d => ∃ weight, Sliced d.store weight) ?_ ?_ ?_ run
  · rintro d ⟨hempty, -⟩
    rw [hempty]
    exact ⟨_, sliced_empty⟩
  · intro h d env op f hrun ih _ hinvoke hguard
    obtain ⟨weight, hsliced⟩ := ih
    obtain ⟨effects, -, -, htransition⟩ := TokenOp.transitions hinvoke
    exact htransition.sliced (sound_of_run hrun) (hguard _ rfl) hsliced
  · intro h d peers _ ih _
    exact ih

theorem feesIn_eq (run : (backitToken self outside).RunWhere fairly history d) :
    feesIn (invocations history) = d.store.totalFeesCollected := by
  refine contract_invariant
    (I := fun h d => feesIn (invocations h) = d.store.totalFeesCollected) ?_ ?_ ?_ run
  · rintro d ⟨hempty, -⟩
    rw [hempty]
    rfl
  · intro h d env op f _ ih _ hinvoke _
    obtain ⟨effects, -, -, htransition⟩ := TokenOp.transitions hinvoke
    rw [invocations_invoked, feesIn, ih]
    exact htransition.collected.symm
  · intro h d peers _ ih _
    exact ih

/-- In a fair run the tokens of a holder have claimed at most what the holder's last claim
covered. -/
theorem claimedUpTo_le (run : (backitToken self outside).RunWhere fairly history d)
    (holder : Address) :
    claimedUpTo (invocations history) holder ≤ d.store.lastClaimFees holder := by
  revert holder
  refine contract_invariant
    (I := fun h d => ∀ who, claimedUpTo (invocations h) who ≤ d.store.lastClaimFees who)
    ?_ ?_ ?_ run
  · rintro d ⟨hempty, -⟩ who
    rw [hempty]
    exact le_rfl
  · intro h d env op f hrun ih _ hinvoke hguard who
    have hs := sound_of_run hrun
    have hfees := feesIn_eq hrun
    have hfair : op.Fair d.store := hguard _ rfl
    obtain ⟨effects, -, -, htransition⟩ := TokenOp.transitions hinvoke
    rw [invocations_invoked]
    show claimedUpTo _ who ≤ f.store.lastClaimFees who
    rw [Deployment.frame] at htransition
    dsimp only at htransition
    generalize d.store = s at *
    generalize f.store = s' at htransition
    cases htransition with
    | founded hnone =>
      obtain rfl := hs.unfounded hnone
      exact ih who
    | @moved sender recipient amount =>
      show (if who = recipient then _ else _) ≤ s.lastClaimFees who
      split
      · next hwho =>
        subst hwho
        have hsender := (ih sender).trans (hs.snapshots sender).2
        have hown := ih who
        have hreached := ih sender
        obtain hall | ⟨hlast, -⟩ := hfair <;> omega
      · exact ih who
    | funded => exact ih who
    | @claimed holder =>
      show (if who = holder then _ else _) ≤ Function.update s.lastClaimFees holder _ who
      rw [Function.update_apply]
      split
      · exact hfees.le
      · exact ih who
    | @staked staker =>
      show claimedUpTo _ who ≤ Function.update s.lastClaimFees staker _ who
      rw [Function.update_apply]
      split
      · exact (ih who).trans (hs.snapshots who).2
      · exact ih who
    | unstaked => exact ih who
  · intro h d peers _ ih _
    exact ih

/-- In a fair run no more is distributed than was collected, no holder's claim asks for more than
is left, which the contract holds, and a claim covers no fees that tokens of its holder have
claimed before. -/
theorem revenue_solvent (hexact : ExactTransfers T) (hundrained : Undrained self outside)
    (run : (backitToken self outside).RunWhere fairly history d) :
    d.store.totalRevenueDistributed ≤ d.store.totalFeesCollected ∧
    (∀ holder, d.store.shareOf holder ≤
      d.store.totalFeesCollected - d.store.totalRevenueDistributed) ∧
    (∀ config held, d.store.config = some config →
      Tokens.balance d.peers config.usdcSac self = some held →
      d.store.totalFeesCollected - d.store.totalRevenueDistributed ≤ held) ∧
    ∀ holder, claimedUpTo (invocations history) holder ≤ d.store.lastClaimFees holder := by
  have hs := sound_of_run run
  obtain ⟨weight, hsliced⟩ := sliced_of_run run
  refine ⟨hsliced.distributed_le hs, fun holder => ?_, fun config held hconfig hheld => ?_,
    claimedUpTo_le run⟩
  · by_cases hfounded : d.store.config = none
    · rw [hs.unfounded hfounded]
      simp [Storage.shareOf, Storage.empty]
    · have hpaid := (hsliced.claimed hs holder).distributed_le (hs.claimed hfounded holder)
      have hnew : (d.store.claimed holder).totalRevenueDistributed =
          d.store.totalRevenueDistributed + d.store.shareOf holder := rfl
      have hsame : (d.store.claimed holder).totalFeesCollected = d.store.totalFeesCollected := rfl
      omega
  · have howed := owed_le_held hexact hundrained run config.usdcSac hheld
    rw [Storage.owed, hconfig] at howed
    simpa using howed

end Run

def alice : Address := ⟨1⟩

def bob : Address := ⟨2⟩

def carol : Address := ⟨3⟩

def dave : Address := ⟨4⟩

def admin : Address := ⟨10⟩

def usdc : Address := ⟨50⟩

/-- The contract's address in the scenarios. -/
def home : Address := ⟨600⟩

/-- An invocation of the contract at a time, with the addresses that authorise it. -/
def at_ (timestamp : Nat) (auths : List Address) (op : TokenOp) : Env × TokenOp :=
  (⟨home, timestamp, timestamp, auths⟩, op)

/-- Nothing happens to the contracts around this one. -/
def nowhere : StandardLedger → StandardLedger → Prop := fun _ _ => False

theorem nowhere_undrained : Undrained home nowhere := fun _ _ h => h.elim

/-- The admin has five thousand units of the fee token. -/
def sampleLedger : StandardLedger :=
  .ofHoldings fun token =>
    if token = usdc then Holdings.empty.set admin 7000 (by decide) else .empty

def freshDeployment : Deployment Storage StandardLedger := ⟨Storage.empty, sampleLedger, 0, 0⟩

/-- The contract in a world where nothing else happens. -/
abbrev alone : System (Deployment Storage StandardLedger) (Happening TokenOp Event) :=
  backitToken home nowhere

/-- Invoke the contract. -/
abbrev invoke (d : Deployment Storage StandardLedger) (input : Env × TokenOp) :
    Option (Happening TokenOp Event × Deployment Storage StandardLedger) :=
  d.next TokenOp.perform home input

theorem fresh_deployment_initial : alone.initial freshDeployment := by
  refine ⟨rfl, fun token held hheld => ?_⟩
  rw [← Option.some.inj hheld]
  exact (sampleLedger.holdings token).nonneg home

/-- Alice holds two fifths of the supply, Bob a fifth, and Carol the rest. The admin deposits a
thousand units of fees, and Alice claims her four hundred. -/
def claimedScript : List (Env × TokenOp) :=
  [at_ 1 [admin] (.initializeToken admin usdc alice bob ⟨5⟩ ⟨6⟩ carol),
    at_ 2 [admin] (.feePoolDeposit 1000),
    at_ 3 [alice] (.claimRevenueShare alice)]

/-- Bob claims too, and Alice sends a part of what she has to him, who has claimed everything. -/
def fairScript : List (Env × TokenOp) :=
  claimedScript ++ [at_ 4 [bob] (.claimRevenueShare bob),
    at_ 5 [alice] (.transfer alice bob 100000000000000)]

/-- Alice sends all that she has to Dave. -/
def handedOnScript : List (Env × TokenOp) :=
  claimedScript ++ [at_ 4 [alice] (.transfer alice dave 400000000000000)]

/-- Dave claims with the tokens that Alice has claimed with, and then Bob claims. -/
def overdrawnScript : List (Env × TokenOp) :=
  handedOnScript ++ [at_ 5 [dave] (.claimRevenueShare dave), at_ 6 [bob] (.claimRevenueShare bob)]

/-- Alice and Bob stake for half a year before the deposit, and Alice claims. -/
def boostedScript : List (Env × TokenOp) :=
  [at_ 1 [admin] (.initializeToken admin usdc alice bob ⟨5⟩ ⟨6⟩ carol),
    at_ 2 [alice] (.stakeBackit alice 400000000000000 15552000),
    at_ 3 [bob] (.stakeBackit bob 200000000000000 15552000),
    at_ 4 [admin] (.feePoolDeposit 1000),
    at_ 5 [alice] (.claimRevenueShare alice)]

def handedOnRun : System.Replayed alone invoke System.anything :=
  .of freshDeployment fresh_deployment_initial handedOnScript (by decide +kernel)

def overdrawnRun : System.Replayed alone invoke System.anything :=
  .of freshDeployment fresh_deployment_initial overdrawnScript (by decide +kernel)

def boostedRun : System.Replayed alone invoke System.anything :=
  .of freshDeployment fresh_deployment_initial boostedScript (by decide +kernel)

theorem handed_on_run : alone.Run handedOnRun.history handedOnRun.state :=
  handedOnRun.run Deployment.next_step System.anything_allowed

theorem overdrawn_run : alone.Run overdrawnRun.history overdrawnRun.state :=
  overdrawnRun.run Deployment.next_step System.anything_allowed

theorem boosted_run : alone.Run boostedRun.history boostedRun.state :=
  boostedRun.run Deployment.next_step System.anything_allowed

/-- An invocation is a staking. -/
def TokenOp.isStake : TokenOp → Bool
  | .stakeBackit .. => true
  | _ => false

/-- Without stakes nobody weighs more than what he has. -/
theorem weights_within {outside : StandardLedger → StandardLedger → Prop} {self : Address}
    {guard : System.Guard (Deployment Storage StandardLedger) (Happening TokenOp Event)}
    {d : Deployment Storage StandardLedger} {history : List (Happening TokenOp Event)}
    (run : (backitToken self outside).RunWhere guard history d)
    (hnone : ∀ i ∈ invocations history, i.op.isStake = false) :
    Within d.store.effectiveBalance d.store.totalSupply := by
  have hs := sound_of_run run
  have hunstaked : (∀ i ∈ invocations history, i.op.isStake = false) →
      ∀ holder, d.store.stake holder = none := by
    refine contract_invariant (I := fun h d => (∀ i ∈ invocations h, i.op.isStake = false) →
      ∀ holder, d.store.stake holder = none) ?_ ?_ ?_ run
    · rintro d ⟨hempty, -⟩ - holder
      rw [hempty]
      rfl
    · intro h d env op f _ ih _ hinvoke _ hall holder
      have hbefore := ih fun i hi => hall i (.tail _ hi)
      have hop : op.isStake = false := hall _ (.head _)
      obtain ⟨effects, -, -, htransition⟩ := TokenOp.transitions hinvoke
      show f.store.stake holder = none
      rw [Deployment.frame] at htransition
      generalize f.store = s' at htransition
      cases htransition with
      | founded => exact hbefore holder
      | moved => exact hbefore holder
      | funded => exact hbefore holder
      | claimed => exact hbefore holder
      | staked => exact absurd hop (by simp [TokenOp.isStake])
      | @unstaked staker record config _ _ _ hstake =>
        exact absurd ((hbefore staker).symm.trans hstake) (by simp)
    · intro h d peers _ ih _
      exact ih
  refine hs.conserved.mono fun holder => ?_
  rw [Storage.effectiveBalance, hunstaked hnone holder, Storage.holdings, Storage.stakedAmount,
    hunstaked hnone holder]
  exact (add_zero _).ge

/-- A transfer's recipient has claimed everything, and nobody has staked before a deposit. -/
def checksFair (history : List (Happening TokenOp Event))
    (d : Deployment Storage StandardLedger) (l : Happening TokenOp Event) : Bool :=
  match l.invocation with
  | some ⟨_, .transfer _ recipient _, _⟩ =>
    d.store.lastClaimFees recipient = d.store.totalFeesCollected
  | some ⟨_, .feePoolDeposit _, _⟩ => (invocations history).all fun i => !i.op.isStake
  | _ => true

def fairRun : System.Replayed alone invoke checksFair :=
  .of freshDeployment fresh_deployment_initial fairScript (by decide +kernel)

theorem fair_run : alone.RunWhere fairly fairRun.history fairRun.state := by
  have hrun : alone.RunWhere (fun h d l => checksFair h d l = true) fairRun.history
      fairRun.state := fairRun.run Deployment.next_step fun _ _ _ h => h
  refine hrun.strengthen fun h d l d' hreached _ hchecked i hi => ?_
  rw [checksFair, hi] at hchecked
  obtain ⟨env, op, effects⟩ := i
  cases op with
  | transfer => exact .inl (of_decide_eq_true hchecked)
  | feePoolDeposit =>
    refine weights_within hreached fun i hi => ?_
    simpa using List.all_eq_true.mp hchecked i hi
  | initializeToken => trivial
  | claimRevenueShare => trivial
  | stakeBackit => trivial
  | unstakeBackit => trivial

/-- Alice and Bob have their shares, and the contract holds what is left. -/
theorem revenue_solvent_of_fair_claims :
    fairRun.state.store.totalRevenueDistributed ≤ fairRun.state.store.totalFeesCollected ∧
      fairRun.state.store.totalRevenueDistributed = 600 ∧
      claimedUpTo (invocations fairRun.history) bob ≤ fairRun.state.store.lastClaimFees bob := by
  have h := revenue_solvent StandardLedger.exact_transfers nowhere_undrained fair_run
  exact ⟨h.1, by decide +kernel, h.2.2.2 bob⟩

/-- Dave can claim with tokens that Alice has claimed with, and then the contract cannot pay Carol;
and when Alice and Bob have boosted their stakes, Alice's claim leaves nothing for Bob. -/
theorem tokens_claim_twice : (alone.Run handedOnRun.history handedOnRun.state ∧
      handedOnRun.state.store.lastClaimFees dave = 0 ∧
      claimedUpTo (invocations handedOnRun.history) dave = 1000 ∧
      handedOnRun.state.store.shareOf dave = 400) ∧
    (alone.Run overdrawnRun.history overdrawnRun.state ∧
      overdrawnRun.state.store.totalRevenueDistributed =
        overdrawnRun.state.store.totalFeesCollected ∧
      overdrawnRun.state.store.shareOf carol = 100 ∧
      (invoke overdrawnRun.state (at_ 7 [carol] (.claimRevenueShare carol))).isNone = true) ∧
    alone.Run boostedRun.history boostedRun.state ∧
      boostedRun.state.store.totalRevenueDistributed =
        boostedRun.state.store.totalFeesCollected ∧
      boostedRun.state.store.shareOf bob = 1000 ∧
      (invoke boostedRun.state (at_ 7 [bob] (.claimRevenueShare bob))).isNone = true :=
  ⟨⟨handed_on_run, by decide +kernel, by decide +kernel, by decide +kernel⟩,
    ⟨overdrawn_run, by decide +kernel, by decide +kernel, by decide +kernel⟩,
    boosted_run, by decide +kernel, by decide +kernel, by decide +kernel⟩

end Backit.BackitToken
