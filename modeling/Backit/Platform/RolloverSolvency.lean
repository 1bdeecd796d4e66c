import Backit.Platform.RolloverFees

/-!
# The solvency of rollovers

The winners of a call claim through the manager, which has the market release their payouts and
the fee shares, or roll over. A claim, with its fee share, is within the winner's share of all the
stakes. A rollover is not when its bonus exceeds the fee that it leaves in the market. As long as
every rollover is within its share, what leaves the market never exceeds the stakes, and leaves
enough for the other winners.
-/

namespace Backit.Platform

open Soroban Contract Lib Shared OutcomeManager PredictionMarket

/-- A claim at the manager, of one winner or of a batch. -/
structure Claim where
  feeCollector : Address
  payments : List Payment

/-- What a claim takes for a winner: the payout and the fee share. -/
def Payment.taken (x : Payment) : Address × Int := (x.winner, x.amount + x.feeShare)

/-- What a claim has the market release. -/
def Claim.releases (c : Claim) : List (Address × Int) :=
  paymentOf c.feeCollector (c.payments.map (·.feeShare)).sum ++
    c.payments.map fun x => (x.payee, x.amount)

/-- What the claims take for their winners. -/
def takenBy (claims : List Claim) : List (Address × Int) :=
  (claims.flatMap (·.payments)).map Payment.taken

/-- The payments of a claim are quotes of the stakes in a call. -/
def Claim.Quotes (c : Claim) (call : Call) : Prop :=
  ∃ settings : Settings, settings.feeBps ≤ maxFeeBps ∧
    ∀ x ∈ c.payments, x.stake = call.stakeOf x.winner ∧
      Quoted settings x.stake call.winningPool call.losingPool x.feeShare x.amount

/-- A run's releases are those of claims, by winners who claim once and do not roll over. -/
structure ClaimedBy (market : Address) (call : Call) (history : List PredictionMarket.Label)
    (claims : List Claim) : Prop where
  releases : (releases market history).Perm (claims.flatMap Claim.releases)
  quotes : ∀ c ∈ claims, c.Quotes call
  once : ((takenBy claims).map Prod.fst).Nodup
  unrolled : ∀ x ∈ takenBy claims, x.1 ∉ (rollovers market history).map Prod.fst

section Amounts

variable {call : Call} {settings : Settings} {who : Address} {share amount : Int}

/-- A claim and its fee share are within the winner's share of all the stakes. -/
theorem quoted_within (hp : call.Pooled) (hfee : settings.feeBps ≤ maxFeeBps)
    (h : Quoted settings (call.stakeOf who) call.winningPool call.losingPool share amount) :
    call.Within (who, amount + share) := by
  obtain ⟨rfl, rfl⟩ := h.exact hfee hp.losingPool_nonneg
  have hprize := proRata_mul_le (call.losingPool - totalFee call.losingPool settings.feeBps)
    (call.stakeOf who) h.winning_pos
  have hshare := proRata_mul_le (totalFee call.losingPool settings.feeBps) (call.stakeOf who)
    h.winning_pos
  rw [mul_sub] at hprize
  show (call.stakeOf who + proRata (call.losingPool - totalFee call.losingPool settings.feeBps)
    call.winningPool (call.stakeOf who) + proRata (totalFee call.losingPool settings.feeBps)
      call.winningPool (call.stakeOf who)) * call.winningPool ≤
        call.stakeOf who * total call.outcomeStakes
  rw [add_mul, add_mul, ← call.pools_add, mul_add]
  omega

/-- Amounts within the shares of distinct winners are within all the stakes. -/
theorem within_total (hp : call.Pooled) (hwinning : 0 < call.winningPool)
    {xs : List (Address × Int)} (hdistinct : (xs.map Prod.fst).Nodup)
    (hwithin : ∀ x ∈ xs, call.Within x) :
    (xs.map Prod.snd).sum ≤ total call.outcomeStakes := by
  have hsum : (xs.map fun x => call.stakeOf x.1).sum ≤ call.winningPool := by
    have hdistinctStakes := hp.sum_stakeOf_le _ hdistinct
    rwa [List.map_map] at hdistinctStakes
  exact sum_le_pot (total_nonneg _ hp.stakes_nonneg) hwinning (fun x hx => hwithin x hx) hsum

/-- What a claim has the market release is what it takes for its winners. -/
theorem Claim.sum_releases {c : Claim} (hp : call.Pooled) (h : c.Quotes call) :
    (c.releases.map Prod.snd).sum = ((c.payments.map Payment.taken).map Prod.snd).sum := by
  obtain ⟨settings, hfee, hquoted⟩ := h
  have hshares : 0 ≤ (c.payments.map (·.feeShare)).sum := by
    refine List.sum_nonneg fun share hshare => ?_
    obtain ⟨x, hx, rfl⟩ := List.mem_map.mp hshare
    obtain ⟨-, hquote⟩ := hquoted x hx
    rw [(hquote.exact hfee hp.losingPool_nonneg).1]
    exact fee_share_nonneg hp.losingPool_nonneg hquote.winning_pos hquote.stake_pos.le
  have hfees : ((paymentOf c.feeCollector (c.payments.map (·.feeShare)).sum).map Prod.snd).sum =
      (c.payments.map (·.feeShare)).sum := by
    unfold paymentOf
    split
    · simp
    · simp only [List.map_nil, List.sum_nil]
      omega
  have htaken : ((c.payments.map Payment.taken).map Prod.snd).sum =
      (c.payments.map (·.amount)).sum + (c.payments.map (·.feeShare)).sum := by
    rw [List.map_map, ← List.sum_map_add]
    rfl
  rw [Claim.releases, List.map_append, List.sum_append, hfees, htaken, List.map_map, add_comm]
  rfl

theorem sum_releases {claims : List Claim} (hp : call.Pooled) (h : ∀ c ∈ claims, c.Quotes call) :
    ((claims.flatMap Claim.releases).map Prod.snd).sum = ((takenBy claims).map Prod.snd).sum := by
  induction claims with
  | nil => rfl
  | cons c rest ih =>
    have hc := Claim.sum_releases hp (h c (.head _))
    have hrest := ih fun c hc => h c (.tail _ hc)
    unfold takenBy at hrest ⊢
    rw [List.flatMap_cons, List.flatMap_cons, List.map_append, List.map_append, List.map_append,
      List.sum_append, List.sum_append, hc, hrest]

/-- What the claims take is within the winners' shares. -/
theorem taken_within {claims : List Claim} (hp : call.Pooled) (h : ∀ c ∈ claims, c.Quotes call)
    {x : Address × Int} (hx : x ∈ takenBy claims) : 0 < call.winningPool ∧ call.Within x := by
  obtain ⟨payment, hpayment, rfl⟩ := List.mem_map.mp hx
  obtain ⟨c, hc, hpayment⟩ := List.mem_flatMap.mp hpayment
  obtain ⟨settings, hfee, hquoted⟩ := h c hc
  obtain ⟨hstake, hquote⟩ := hquoted payment hpayment
  rw [hstake] at hquote
  exact ⟨hquote.winning_pos, quoted_within hp hfee hquote⟩

end Amounts

section Run

variable {P : Type} [Peers P] {self : Address} {outside : P → P → Prop}
  {history : List PredictionMarket.Label} {w : PredictionMarket.World P} {call : Call}
  {claims : List Claim}

/-- Everything that left the market, by the winner for whom it did: the winners are distinct and
within their shares. -/
theorem all_within (run : (market self outside).RunWhere rolloversCovered history w)
    (hcall : w.store.pool.call = some call) (hclaims : ClaimedBy self call history claims) :
    ((rollovers self history ++ takenBy claims).map Prod.fst).Nodup ∧
      ∀ x ∈ rollovers self history ++ takenBy claims, 0 < call.winningPool ∧ call.Within x := by
  have hlaw := rollover_law_of_run run
  have hp := hlaw.recorded.pooled call hcall
  have hrolled : ((rollovers self history).map Prod.fst).Nodup ∧
      ∀ x ∈ rollovers self history, 0 < call.winningPool ∧ call.Within x := by
    rcases hlaw.law with hnone | ⟨call', hshares⟩
    · rw [hnone]
      exact ⟨List.nodup_nil, by simp⟩
    · obtain rfl := Option.some.inj (hcall.symm.trans hshares.stored)
      exact ⟨hshares.distinct, fun x hx => ⟨hshares.winning_pos, hshares.within x hx⟩⟩
  constructor
  · rw [List.map_append]
    refine hrolled.1.append hclaims.once fun who hwho htaken => ?_
    obtain ⟨x, hx, rfl⟩ := List.mem_map.mp htaken
    exact hclaims.unrolled x hx hwho
  · intro x hx
    rcases List.mem_append.mp hx with hx | hx
    · exact hrolled.2 x hx
    · exact taken_within hp hclaims.quotes hx

/-- What left the market is what the rollovers and the claims took for their winners. -/
theorem leaving_eq (run : (market self outside).RunWhere rolloversCovered history w)
    (hcall : w.store.pool.call = some call) (hclaims : ClaimedBy self call history claims) :
    leaving self history = ((rollovers self history ++ takenBy claims).map Prod.snd).sum := by
  have hp := (rollover_law_of_run run).recorded.pooled call hcall
  have hreleases : ((releases self history).map Prod.snd).sum =
      ((takenBy claims).map Prod.snd).sum :=
    (hclaims.releases.map Prod.snd).sum_eq.trans (sum_releases hp hclaims.quotes)
  rw [leaving, hreleases, List.map_append, List.sum_append]

/-- As long as rollovers are covered, the market's claims, fee shares, rollovers and bonuses never
take more than all the stakes, and what is left pays every other winner's claim and fee share. -/
theorem rollovers_solvent (run : (market self outside).RunWhere rolloversCovered history w)
    (hcall : w.store.pool.call = some call) (hclaims : ClaimedBy self call history claims) :
    leaving self history ≤ total call.outcomeStakes ∧
      ∀ who settings share amount, who ∉ (rollovers self history ++ takenBy claims).map Prod.fst →
        settings.feeBps ≤ maxFeeBps →
        Quoted settings (call.stakeOf who) call.winningPool call.losingPool share amount →
        leaving self history + share + amount ≤ total call.outcomeStakes := by
  have hp := (rollover_law_of_run run).recorded.pooled call hcall
  obtain ⟨hdistinct, hwithin⟩ := all_within run hcall hclaims
  rw [leaving_eq run hcall hclaims]
  constructor
  · by_cases hnone : rollovers self history ++ takenBy claims = []
    · rw [hnone]
      exact total_nonneg _ hp.stakes_nonneg
    · obtain ⟨x, hx⟩ := List.exists_mem_of_ne_nil _ hnone
      exact within_total hp (hwithin x hx).1 hdistinct fun x hx => (hwithin x hx).2
  · intro who settings share amount hnew hfee hquoted
    have hall : (((who, amount + share) :: (rollovers self history ++ takenBy claims)).map
        Prod.snd).sum ≤ total call.outcomeStakes := by
      refine within_total hp hquoted.winning_pos (List.nodup_cons.mpr ⟨hnew, hdistinct⟩) ?_
      exact List.forall_mem_cons.mpr
        ⟨quoted_within hp hfee hquoted, fun x hx => (hwithin x hx).2⟩
    rw [List.map_cons, List.sum_cons] at hall
    omega

end Run

/-- Whether a rollover of a script is covered. -/
def rolloversCoveredStep (_ : List PredictionMarket.Label)
    (w : PredictionMarket.World RolloverLedger) (l : PredictionMarket.Label) : Bool :=
  w.coversRollover l && w.keepsOutcome l

theorem rollovers_covered_step (h : List PredictionMarket.Label)
    (w : PredictionMarket.World RolloverLedger) (l : PredictionMarket.Label)
    (hallowed : rolloversCoveredStep h w l = true) : rolloversCovered h w l :=
  Bool.and_eq_true_iff.mp hallowed

/-- Alice rolls her 46 units over, and Bob claims his 108. -/
def coveredRun :
    System.Replayed (market PredictionMarket.home fun _ (_ : RolloverLedger) => False)
      (PredictionMarket.World.next PredictionMarket.home) rolloversCoveredStep :=
  .of (feeWorld 50) (fee_world_initial 50)
    ([deployment, PredictionMarket.at_ 2 [alice] (.stakeOnCall alice 1 30 1),
      PredictionMarket.at_ 3 [bob] (.stakeOnCall bob 1 70 1),
      PredictionMarket.at_ 4 [carol] (.stakeOnCall carol 1 55 2)] ++ settling ++
      [PredictionMarket.at_ 100002 [alice] (.claimAndRollover alice 1 wholePayout),
        PredictionMarket.at_ 100003 [managerAddress] (.releaseEscrow 1 bob 108)])
    (by decide +kernel)

/-- Bob's claim. -/
def smallClaim : Claim := ⟨feeCollectorAddress, [⟨bob, bob, 70, 0, 108⟩]⟩

/-- Alice and Bob share Carol's thousand units. Alice rolls over, and Bob claims. The market holds
an order of Carol's, too. -/
def bonusRun :
    System.Replayed (market PredictionMarket.home fun _ (_ : RolloverLedger) => False)
      (PredictionMarket.World.next PredictionMarket.home) System.anything :=
  .of (feeWorld 0) (fee_world_initial 0)
    ([deployment, PredictionMarket.at_ 2 [alice] (.stakeOnCall alice 1 500 1),
      PredictionMarket.at_ 3 [bob] (.stakeOnCall bob 1 500 1),
      PredictionMarket.at_ 4 [carol] (.stakeOnCall carol 1 1000 2),
      PredictionMarket.at_ 5 [carol] (.createLimitOrder carol 1 1 10 5000 600)] ++ settling ++
      [PredictionMarket.at_ 100002 [alice] (.claimAndRollover alice 1 wholePayout),
        PredictionMarket.at_ 100003 [managerAddress] (.releaseEscrow 1 bob 1000)])
    (by decide +kernel)

/-- Bob's claim of half of everything. -/
def halfClaim : Claim := ⟨feeCollectorAddress, [⟨bob, bob, 500, 0, 1000⟩]⟩

/-- The settings of a manager that charges a fee. -/
def chargingSettings (feeBps : Nat) : Settings :=
  { OutcomeManager.Storage.empty.settings with feeBps := feeBps }

theorem quoted_of_parts {settings : Settings} {stake winning losing share amount : Int}
    (hstake : 0 < stake) (hwinning : 0 < winning) (h : (do
      let fee ← computeTotalFee losing settings.feeBps
      let net ← checkedSub losing fee
      computePayoutParts stake winning fee net) = some (share, amount)) :
    Quoted settings stake winning losing share amount := by
  simp only [Option.bind_eq_bind, Option.bind_eq_some_iff] at h
  obtain ⟨fee, hfee, net, hnet, hparts⟩ := h
  exact ⟨hstake, hwinning, fee, net, hfee, hnet, hparts⟩

/-- Alice's rollover and Bob's claim take 154 of 155 units. -/
theorem small_rollover_solvent : ∃ call, coveredRun.state.store.pool.call = some call ∧
    leaving PredictionMarket.home coveredRun.history = 154 ∧
    leaving PredictionMarket.home coveredRun.history ≤ total call.outcomeStakes := by
  have hdeployed : coveredRun.state.store.pool.call.isSome = true := by decide +kernel
  obtain ⟨call, hcall⟩ := Option.isSome_iff_exists.mp hdeployed
  have hpools : coveredRun.state.store.pool.call.map (fun call =>
      (call.stakeOf bob, call.winningPool, call.losingPool)) = some (70, 100, 55) := by
    decide +kernel
  rw [hcall] at hpools
  obtain ⟨hstake, hwinning, hlosing⟩ : call.stakeOf bob = 70 ∧ call.winningPool = 100 ∧
      call.losingPool = 55 := by simpa using hpools
  have hreleases : releases PredictionMarket.home coveredRun.history = [(bob, 108)] := by
    decide +kernel
  have hrolled : rollovers PredictionMarket.home coveredRun.history = [(alice, 46)] := by
    decide +kernel
  have hleaving : leaving PredictionMarket.home coveredRun.history = 154 := by decide +kernel
  have hquotes : smallClaim.Quotes call := by
    refine ⟨chargingSettings 50, by decide, List.forall_mem_singleton.mpr ⟨hstake.symm, ?_⟩⟩
    rw [hwinning, hlosing]
    exact quoted_of_parts (by decide) (by decide) (by decide)
  have hclaims : ClaimedBy PredictionMarket.home call coveredRun.history [smallClaim] := by
    refine ⟨?_, List.forall_mem_singleton.mpr hquotes, List.nodup_singleton _, ?_⟩
    · rw [hreleases]
      exact .refl _
    · rw [hrolled]
      decide
  exact ⟨call, hcall, hleaving, (rollovers_solvent (coveredRun.run
    PredictionMarket.World.next_step rollovers_covered_step) hcall hclaims).1⟩

/-- Alice's bonus of 10 units is paid from the market: with Bob's claim 2010 units leave a market
that took in 2000, the rest from Carol's order. -/
theorem bonus_exceeds_stakes :
    (market PredictionMarket.home fun _ (_ : RolloverLedger) => False).Run bonusRun.history
        bonusRun.state ∧
      ∃ call, bonusRun.state.store.pool.call = some call ∧ total call.outcomeStakes = 2000 ∧
        ClaimedBy PredictionMarket.home call bonusRun.history [halfClaim] ∧
        rollovers PredictionMarket.home bonusRun.history = [(alice, 1010)] ∧
        leaving PredictionMarket.home bonusRun.history = 2010 := by
  have hdeployed : bonusRun.state.store.pool.call.isSome = true := by decide +kernel
  obtain ⟨call, hcall⟩ := Option.isSome_iff_exists.mp hdeployed
  have hpools : bonusRun.state.store.pool.call.map (fun call =>
      (call.stakeOf bob, call.winningPool, call.losingPool, total call.outcomeStakes)) =
        some (500, 1000, 1000, 2000) := by
    decide +kernel
  rw [hcall] at hpools
  obtain ⟨hstake, hwinning, hlosing, htotal⟩ : call.stakeOf bob = 500 ∧ call.winningPool = 1000 ∧
      call.losingPool = 1000 ∧ total call.outcomeStakes = 2000 := by simpa using hpools
  have hreleases : releases PredictionMarket.home bonusRun.history = [(bob, 1000)] := by
    decide +kernel
  have hrolled : rollovers PredictionMarket.home bonusRun.history = [(alice, 1010)] := by
    decide +kernel
  have hleaving : leaving PredictionMarket.home bonusRun.history = 2010 := by decide +kernel
  have hquotes : halfClaim.Quotes call := by
    refine ⟨chargingSettings 0, by decide, List.forall_mem_singleton.mpr ⟨hstake.symm, ?_⟩⟩
    rw [hwinning, hlosing]
    exact quoted_of_parts (by decide) (by decide) (by decide)
  have hclaims : ClaimedBy PredictionMarket.home call bonusRun.history [halfClaim] := by
    refine ⟨?_, List.forall_mem_singleton.mpr hquotes, List.nodup_singleton _, ?_⟩
    · rw [hreleases]
      exact .refl _
    · rw [hrolled]
      decide
  exact ⟨bonusRun.run PredictionMarket.World.next_step System.anything_allowed, call, hcall,
    htotal, hclaims, hrolled, hleaving⟩

end Backit.Platform
