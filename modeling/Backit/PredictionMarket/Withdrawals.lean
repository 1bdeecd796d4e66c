import Backit.Lib.ProRata
import Backit.PredictionMarket.StakeRecords

/-!
# Rollovers and withdrawals

## The amounts of a rollover

What a rollover pays is a function of the winner's stake, the two pools, the fee and the
percentage. It takes the fee on all stakes out of the losing pool, and adds a hundredth of the
rolled part of the payout.
-/

namespace Backit.PredictionMarket

open Soroban Contract Lib

namespace Call

variable (call : Call)

/-- What a staker has staked on the outcome of the call. -/
def stakeOf (who : Address) : Int := valueAt (call.stakesOn call.outcome) who

/-- What has been staked on the outcome of the call. -/
def winningPool : Int := valueAt call.outcomeStakes call.outcome

/-- What has been staked on the other outcomes. -/
def losingPool : Int := total call.outcomeStakes - call.winningPool

variable {call}

theorem Pooled.stakeOf_le (h : call.Pooled) (who : Address) :
    call.stakeOf who ≤ call.winningPool := by
  rw [winningPool, ← h.backed]
  exact valueAt_le_total _ (h.nonneg _) who

/-- Distinct winners have no more than the winning pool. -/
theorem Pooled.sum_stakeOf_le (h : call.Pooled) (winners : List Address) (hnodup : winners.Nodup) :
    (winners.map call.stakeOf).sum ≤ call.winningPool := by
  rw [winningPool, ← h.backed]
  exact sum_valueAt_le_total winners hnodup _ (h.nonneg _)

theorem Pooled.losingPool_nonneg (h : call.Pooled) : 0 ≤ call.losingPool :=
  sub_nonneg.mpr (valueAt_le_total _ h.stakes_nonneg _)

theorem pools_add : call.winningPool + call.losingPool = total call.outcomeStakes := by
  rw [losingPool]
  omega

end Call

/-- What a rollover pays for a stake: the stake, and a share of what the fee on all stakes leaves
of the losing pool. -/
def rolledPayout (losing : Int) (feeBps : Nat) (winning stake : Int) : Int :=
  stake + proRata (max 0 (losing - (winning + losing) * feeBps / 10000)) winning stake

/-- The bonus on the part of a payout that is rolled over. -/
def rolloverBonus (payout : Int) (percentageBps : Nat) : Int := payout * percentageBps / 10000 / 100

variable {winning losing stake payout : Int} {feeBps percentageBps : Nat}

theorem rollover_payout_exact (hstake : 0 ≤ stake) (hwinning : 0 < winning) (hlosing : 0 ≤ losing)
    (h : rolloverPayout stake winning (winning + losing) feeBps = .ok payout) :
    payout = rolledPayout losing feeBps winning stake := by
  have hproduct : 0 ≤ (winning + losing) * (feeBps : Int) :=
    mul_nonneg (by omega) (Int.natCast_nonneg _)
  simp only [rolloverPayout, except_bind_ok, or_overflow_ok, checkedSub, checkedMul, checkedDiv,
    checkedAdd, checked_eq_some, add_sub_cancel_left] at h
  obtain ⟨losing', ⟨-, hlosing'⟩, _, ⟨-, rfl⟩, fee, hfee, _, ⟨-, rfl⟩, h⟩ := h
  subst losing'
  rw [if_neg (by decide), tdiv_eq_div hproduct, checked_eq_some] at hfee
  obtain ⟨-, rfl⟩ := hfee
  rw [rolledPayout]
  split at h
  · next hpos =>
    rw [except_bind_ok] at h
    obtain ⟨product, hprize, h⟩ := h
    rw [except_bind_ok] at h
    obtain ⟨prize, hshare, h⟩ := h
    rw [or_overflow_ok, checked_eq_some] at hprize
    obtain ⟨-, rfl⟩ := hprize
    rw [or_overflow_ok, if_neg hwinning.ne',
      tdiv_eq_div (mul_nonneg hstake hpos.1.le), checked_eq_some] at hshare
    obtain ⟨-, rfl⟩ := hshare
    rw [or_overflow_ok, checked_eq_some] at h
    rw [max_eq_right hpos.1.le, h.2]
    rfl
  · next hneg =>
    have hnet : losing - (winning + losing) * feeBps / 10000 ≤ 0 :=
      not_lt.mp fun hpos => hneg ⟨hpos, hwinning⟩
    cases h
    rw [max_eq_left hnet]
    simp [proRata]

/-- A computed bonus is the exact one, and not negative. -/
theorem rollover_split_exact {split : RolloverSplit} (hpayout : 0 ≤ payout)
    (h : rolloverSplit payout percentageBps = .ok split) :
    split.bonus = rolloverBonus payout percentageBps ∧ 0 ≤ split.bonus := by
  have hproduct : 0 ≤ payout * (percentageBps : Int) := mul_nonneg hpayout (Int.natCast_nonneg _)
  have hrolled : 0 ≤ payout * (percentageBps : Int) / 10000 := Int.ediv_nonneg hproduct (by decide)
  simp only [rolloverSplit, except_bind_ok, or_overflow_ok, checkedSub, checkedMul, checkedDiv,
    checkedAdd, checked_eq_some] at h
  obtain ⟨_, ⟨-, rfl⟩, rolled, hdiv, _, -, bonus, hbonus, _, -, h⟩ := h
  cases h
  rw [if_neg (by decide), tdiv_eq_div hproduct, checked_eq_some] at hdiv
  obtain ⟨-, rfl⟩ := hdiv
  rw [if_neg (by decide), tdiv_eq_div hrolled, checked_eq_some] at hbonus
  obtain ⟨-, rfl⟩ := hbonus
  exact ⟨rfl, Int.ediv_nonneg hrolled (by decide)⟩

/-- The terms of a rollover are those of the call's records. -/
structure RolloverTerms.Exact (terms : RolloverTerms) (call : Call) (user : Address)
    (feeBps percentageBps : Nat) : Prop where
  winningStake : terms.winningStake = call.stakeOf user
  totalWinning : terms.totalWinning = call.winningPool
  totalLosing : terms.totalLosing = call.losingPool
  stake_pos : 0 < call.stakeOf user
  payout : terms.payout = rolledPayout call.losingPool feeBps call.winningPool (call.stakeOf user)
  bonus : terms.split.bonus = rolloverBonus terms.payout percentageBps
  bonus_nonneg : 0 ≤ terms.split.bonus

/-- What the market computes of a pooled call is exact. -/
theorem Computed.exact {call : Call} {user : Address} {terms : RolloverTerms}
    (h : Computed call user feeBps percentageBps terms) (hp : call.Pooled) :
    terms.Exact call user feeBps percentageBps := by
  obtain ⟨hstake, hpositive, hwinning, ⟨totalStake, htotal, hlosing, hpayout⟩, hsplit⟩ := h
  have htotal : totalStake = Lib.total call.outcomeStakes := by
    unfold totalCallStake checkedSum at htotal
    split at htotal
    · exact (Option.some.inj htotal).symm.trans hp.sum_positions
    · cases htotal
  have hwinning : terms.totalWinning = call.winningPool := hwinning
  have hstake : terms.winningStake = call.stakeOf user := hstake
  have hlosing : terms.totalLosing = call.losingPool := by
    rw [checkedSub, checked_eq_some] at hlosing
    rw [hlosing.2, htotal, hwinning]
    rfl
  rw [hstake] at hpositive hpayout
  have hpool : 0 < call.winningPool := hpositive.trans_le (hp.stakeOf_le user)
  rw [hwinning, htotal, ← call.pools_add] at hpayout
  have hexact := rollover_payout_exact hpositive.le hpool hp.losingPool_nonneg hpayout
  obtain ⟨hbonus, hnonneg⟩ := rollover_split_exact
    (hpositive.le.trans (stake_le_rollover_payout hpositive.le hpayout)) hsplit
  exact ⟨hstake, hwinning, hlosing, hpositive, hexact, hbonus, hnonneg⟩

/-- Standard tokens, a manager that charges a fee and records every claim, and a factory whose
markets take every stake. -/
structure RolloverLedger where
  tokens : StandardLedger
  feeBps : Nat

/-- The market that the factory deploys. -/
def successor : Address := ⟨303⟩

def feeCollectorAddress : Address := ⟨202⟩

/-- A transfer of tokens. -/
def RolloverLedger.pay (env : Env) (token sender recipient : Address) (amount : Int)
    (l : RolloverLedger) : Option RolloverLedger :=
  (Tokens.transfer env token sender recipient amount l.tokens).map fun tokens =>
    { l with tokens := tokens }

instance : Peers RolloverLedger where
  balance l token who := Tokens.balance l.tokens token who
  transfer := RolloverLedger.pay
  mint _ _ _ _ _ := none
  clawback _ _ _ _ _ := none
  deploy _ _ _ _ := none
  feeConfig _ address l :=
    if address = managerAddress then some (l.feeBps, feeCollectorAddress) else none
  deployMarket _ address _ _ l := if address = factoryAddress then some (successor, l) else none
  getCallId _ address _ := if address = successor then some 2 else none
  claimPayoutNoRelease _ _ _ _ _ _ _ l := some l
  stakeOnCall env address staker _ amount _ l := l.pay env usdc staker address amount
  storeRolloverChain _ _ _ _ l := some l
  setParentCall _ _ _ _ _ l := some l

/-- A market about to be deployed, whose manager will charge a fee. -/
def feeWorld (feeBps : Nat) : World RolloverLedger where
  store := Storage.empty
  peers :=
    { tokens := .ofHoldings fun token =>
        if token = usdc then
          ((Holdings.empty.set alice 6000 (by decide)).set bob 6000 (by decide)).set carol 6000
            (by decide)
        else .empty
      feeBps := feeBps }
  timestamp := 0
  sequence := 0

theorem fee_world_initial (feeBps : Nat) :
    (market home fun _ (_ : RolloverLedger) => False).initial (feeWorld feeBps) := by
  refine ⟨rfl, fun token => ?_⟩
  show some (valueAt ((if token = usdc then _ else Holdings.empty : Holdings).amounts) home) =
    some 0
  split <;> rfl

/-- The manager resolves the call for outcome 1 and settles it. -/
def settling : List (Env × MarketOp) :=
  [at_ 100000 [managerAddress] (.resolveCall 1 1 7), at_ 100001 [managerAddress] (.markSettled 1)]

/-- A rollover of the whole payout. -/
def wholePayout : RolloverConfig := ⟨.targetAbove 5, 1000, 10000⟩

end Backit.PredictionMarket

/-!
## What leaves a market

Escrow is released to the manager's claimants, and winners roll their payouts over. Once a winner
has rolled over, the stakes and the outcome of the call no longer change, and nobody rolls over
twice. As long as every rollover, its bonus included, is within the winner's share of all stakes,
the rollovers stay within their shares whatever happens in between.
-/

namespace Backit.PredictionMarket

open Soroban Contract Lib

/-- What an effect sends from an address. -/
def sentFrom (payer : Address) : Effect Event → Int
  | .transfer _ sender _ amount => if sender = payer then amount else 0
  | _ => 0

/-- The user of a rollover, and what it sends out of the market. -/
def Label.rollover (market : Address) : Label → Option (Address × Int)
  | .invoked ⟨_, .claimAndRollover user _ _, effects⟩ =>
    some (user, effectTotal (sentFrom market) effects)
  | _ => none

/-- The recipient of a release, and what it sends out of the market. -/
def Label.release (market : Address) : Label → Option (Address × Int)
  | .invoked ⟨_, .releaseEscrow _ recipient _, effects⟩ =>
    some (recipient, effectTotal (sentFrom market) effects)
  | _ => none

def rollovers (market : Address) (history : List Label) : List (Address × Int) :=
  history.filterMap (Label.rollover market)

def releases (market : Address) (history : List Label) : List (Address × Int) :=
  history.filterMap (Label.release market)

/-- Everything that a run's releases and rollovers send out of the market. -/
def leaving (market : Address) (history : List Label) : Int :=
  ((rollovers market history).map Prod.snd).sum + ((releases market history).map Prod.snd).sum

/-- An amount is within a winner's share of all the stakes. -/
def Call.Within (call : Call) (x : Address × Int) : Prop :=
  x.2 * call.winningPool ≤ call.stakeOf x.1 * total call.outcomeStakes

/-- The payout of a rollover and its bonus are within the winner's share of all the stakes. -/
def Call.Covers (call : Call) (user : Address) (feeBps percentageBps : Nat) : Prop :=
  let payout := rolledPayout call.losingPool feeBps call.winningPool (call.stakeOf user)
  call.Within (user, payout + rolloverBonus payout percentageBps)

instance (call : Call) (x : Address × Int) : Decidable (call.Within x) :=
  inferInstanceAs (Decidable (_ ≤ _))

instance (call : Call) (user : Address) (feeBps percentageBps : Nat) :
    Decidable (call.Covers user feeBps percentageBps) :=
  inferInstanceAs (Decidable (call.Within _))

section Guard

variable {P : Type} [Peers P]

/-- A rollover is covered, at the fee that the manager charges. -/
def World.coversRollover (w : World P) : Label → Bool
  | .invoked ⟨env, .claimAndRollover user _ rollover, _⟩ =>
    w.store.config.all fun config => w.store.pool.call.all fun call =>
      (Peers.feeConfig env config.outcomeManager w.peers).all fun (feeBps, _) =>
        call.Covers user feeBps rollover.rolloverPercentageBps
  | _ => true

omit [Peers P] in
/-- A call that is resolved again is resolved for the same outcome. -/
def World.keepsOutcome (w : World P) : Label → Bool
  | .invoked ⟨_, .resolveCall _ outcome _, _⟩ =>
    w.store.pool.call.all fun call => call.outcome = 0 ∨ call.outcome = outcome
  | _ => true

/-- The guard of the runs in which rollovers are covered. -/
def rolloversCovered : System.Guard (World P) Label :=
  fun _ w l => w.coversRollover l = true ∧ w.keepsOutcome l = true

end Guard

section Transitions

variable {env : Env} {op : MarketOp} {s s' : Storage} {effects : List (Effect Event)}
  {config : MarketConfig} {call call' : Call}

/-- What a transition can make of a stored call. -/
structure Carried (env : Env) (op : MarketOp) (call call' : Call) : Prop where
  endTs : call'.endTs = call.endTs
  outcome : call'.outcome = call.outcome ∨
    call.endTs ≤ env.timestamp ∧ ∃ callId endPrice, op = .resolveCall callId call'.outcome endPrice
  stakes : env.timestamp < call.endTs ∨
    call'.outcomeStakes = call.outcomeStakes ∧ call'.stakes = call.stakes

theorem Carried.refl : Carried env op call call := ⟨rfl, .inl rfl, .inr ⟨rfl, rfl⟩⟩

theorem Staked.carried {pool pool' : Pool} {staker : Address} {amount : Int} {position : Nat}
    (h : Staked call pool staker amount position call' pool') :
    call'.endTs = call.endTs ∧ call'.outcome = call.outcome := by
  rw [h.entered]
  exact ⟨rfl, rfl⟩

theorem Fills.carried {now callId : Nat} {m m' : Matching} (h : Fills now callId m effects m') :
    m'.call.endTs = m.call.endTs ∧ m'.call.outcome = m.call.outcome := by
  induction h with
  | done => exact ⟨rfl, rfl⟩
  | dropped _ _ ih => exact ih
  | filled _ _ _ hstaked ih =>
    obtain ⟨hend, houtcome⟩ := hstaked.carried
    exact ⟨hend.trans ih.1, houtcome.trans ih.2⟩

/-- A transition keeps the configuration and the marks of the rollovers, and carries the call. -/
theorem Transition.carries (h : Transition env op s effects s') (hconfig : s.config = some config)
    (hcall : s.pool.call = some call) :
    s'.config = some config ∧ s'.userClaimed = s.userClaimed ∧
      ∃ call', s'.pool.call = some call' ∧ Carried env op call call' := by
  cases h with
  | constructed hnone =>
    rw [hnone] at hconfig
    cases hconfig
  | staked _ _ _ _ hstored haccepts hstaked hfills =>
    obtain rfl := Option.some.inj (hcall.symm.trans hstored)
    obtain ⟨hend, houtcome⟩ := hstaked.carried
    obtain ⟨hend', houtcome'⟩ := hfills.carried
    exact ⟨hconfig, rfl, _, rfl, hend'.trans hend, .inl (houtcome'.trans houtcome),
      .inl haccepts.running⟩
  | resolved _ _ _ hstored _ hended =>
    obtain rfl := Option.some.inj (hcall.symm.trans hstored)
    exact ⟨hconfig, rfl, _, rfl, rfl, .inr ⟨hended, _, _, rfl⟩, .inr ⟨rfl, rfl⟩⟩
  | settled _ _ _ hstored =>
    obtain rfl := Option.some.inj (hcall.symm.trans hstored)
    exact ⟨hconfig, rfl, _, rfl, rfl, .inl rfl, .inr ⟨rfl, rfl⟩⟩
  | parentSet _ _ hstored =>
    obtain rfl := Option.some.inj (hcall.symm.trans hstored)
    exact ⟨hconfig, rfl, _, rfl, rfl, .inl rfl, .inr ⟨rfl, rfl⟩⟩
  | ordered => exact ⟨hconfig, rfl, call, hcall, .refl⟩
  | orderCancelled => exact ⟨hconfig, rfl, call, hcall, .refl⟩
  | orderRefunded => exact ⟨hconfig, rfl, call, hcall, .refl⟩
  | released => exact ⟨hconfig, rfl, call, hcall, .refl⟩
  | chainStored => exact ⟨hconfig, rfl, call, hcall, .refl⟩

theorem Fills.price_kept {now callId : Nat} {m m' : Matching} (h : Fills now callId m effects m') :
    m'.call.endPrice = m.call.endPrice := by
  induction h with
  | done => rfl
  | dropped _ _ ih => exact ih
  | filled _ _ _ hstaked ih =>
    rw [hstaked.entered]
    exact ih

/-- A transition that resolves nothing keeps how the call was resolved. -/
theorem Transition.resolution_kept (h : Transition env op s effects s')
    (hop : ∀ callId outcome endPrice, op ≠ .resolveCall callId outcome endPrice)
    (hcall : s.pool.call = some call) (hconfig : s.config = some config) :
    ∃ call', s'.pool.call = some call' ∧ call'.outcome = call.outcome ∧
      call'.endPrice = call.endPrice := by
  obtain ⟨-, -, call', hcall', hcarried⟩ := h.carries hconfig hcall
  refine ⟨call', hcall', hcarried.outcome.resolve_right fun hresolved => ?_, ?_⟩
  · obtain ⟨-, callId, endPrice, heq⟩ := hresolved
    exact hop _ _ _ heq
  cases h with
  | constructed hnone =>
    rw [hnone] at hconfig
    cases hconfig
  | resolved => exact absurd rfl (hop _ _ _)
  | staked _ _ _ _ hstored _ hstaked hfills =>
    obtain rfl := Option.some.inj (hcall.symm.trans hstored)
    cases hcall'
    rw [hfills.price_kept, hstaked.entered]
    rfl
  | settled _ _ _ hstored =>
    obtain rfl := Option.some.inj (hcall.symm.trans hstored)
    cases hcall'
    rfl
  | parentSet _ _ hstored =>
    obtain rfl := Option.some.inj (hcall.symm.trans hstored)
    cases hcall'
    rfl
  | ordered | orderCancelled | orderRefunded | released | chainStored =>
    obtain rfl := Option.some.inj (hcall.symm.trans hcall')
    rfl

/-- A market without a call gets one without an outcome. -/
theorem Transition.undecided (h : Transition env op s effects s') (hnone : s.pool.call = none)
    (hcall : s'.pool.call = some call) : call.outcome = 0 := by
  cases h with
  | constructed =>
    cases hcall
    rfl
  | staked _ _ _ _ hstored => exact absurd (hnone.symm.trans hstored) (by simp)
  | ordered _ _ _ _ hstored => exact absurd (hnone.symm.trans hstored) (by simp)
  | orderCancelled _ _ hstored => exact absurd (hnone.symm.trans hstored) (by simp)
  | orderRefunded _ _ _ _ hstored => exact absurd (hnone.symm.trans hstored) (by simp)
  | resolved _ _ _ hstored => exact absurd (hnone.symm.trans hstored) (by simp)
  | settled _ _ _ hstored => exact absurd (hnone.symm.trans hstored) (by simp)
  | released _ _ _ hstored => exact absurd (hnone.symm.trans hstored) (by simp)
  | parentSet _ _ hstored => exact absurd (hnone.symm.trans hstored) (by simp)
  | chainStored => exact absurd (hnone.symm.trans hcall) (by simp)

end Transitions

section Run

variable {P : Type} [Peers P] {self : Address} {outside : P → P → Prop} {history : List Label}
  {w w' : World P} {l : Label} {call : Call}

/-- The rollovers of a run are of distinct winners, who are marked, and within their shares. -/
structure WithinShares (s : Storage) (call : Call) (rolled : List (Address × Int)) : Prop where
  stored : s.pool.call = some call
  decided : call.outcome ≠ 0
  winning_pos : 0 < call.winningPool
  distinct : (rolled.map Prod.fst).Nodup
  within : ∀ x ∈ rolled, call.Within x
  marked : ∃ config, s.config = some config ∧
    ∀ x ∈ rolled, s.userClaimed (config.callId, x.1) = true

/-- A call has an outcome only after its end, and rollovers are within their shares. -/
structure RolloverLaw (contract : Address) (history : List Label) (w : World P) : Prop where
  recorded : Recorded w.store
  ended : ∀ call, w.store.pool.call = some call → call.outcome ≠ 0 → call.endTs ≤ w.timestamp
  law : rollovers contract history = [] ∨
    ∃ call, WithinShares w.store call (rollovers contract history)

omit [Peers P] in
theorem rollovers_cons : rollovers self (l :: history) =
    (l.rollover self).toList ++ rollovers self history := by
  unfold rollovers
  rw [List.filterMap_cons]
  cases l.rollover self <;> rfl

/-- The pools and the shares are those of the stakes on the outcome. -/
theorem Carried.within {env : Env} {op : MarketOp} {call' : Call} (h : Carried env op call call')
    (hended : call.endTs ≤ env.timestamp) (houtcome : call'.outcome = call.outcome) :
    call'.winningPool = call.winningPool ∧ ∀ x, call'.Within x ↔ call.Within x := by
  obtain ⟨hpools, hstakes⟩ := h.stakes.resolve_left (not_lt.mpr hended)
  have hon : ∀ position, call'.stakesOn position = call.stakesOn position := by
    intro position
    rw [Call.stakesOn, Call.stakesOn, hstakes]
  have hwinning : call'.winningPool = call.winningPool := by
    rw [Call.winningPool, Call.winningPool, hpools, houtcome]
  refine ⟨hwinning, fun x => ?_⟩
  rw [Call.Within, Call.Within, hwinning, hpools, Call.stakeOf, Call.stakeOf, hon, houtcome]

omit [Peers P] in
/-- A transition keeps the rollovers within their shares. -/
theorem RolloverLaw.transition (h : RolloverLaw self history w) {env : Env} {op : MarketOp}
    {effects : List (Effect Event)} {s' : Storage} {peers' : P}
    (hmade : Transition env op w.store effects s') (htime : w.timestamp ≤ env.timestamp)
    (hkeeps : w.keepsOutcome (.invoked ⟨env, op, effects⟩) = true)
    (hnone : Label.rollover self (.invoked ⟨env, op, effects⟩) = none) :
    RolloverLaw self (.invoked ⟨env, op, effects⟩ :: history)
      ⟨s', peers', env.timestamp, env.sequence⟩ := by
  refine ⟨hmade.recorded h.recorded, ?_, ?_⟩
  · intro call' hcall' hdecided
    cases hcall : w.store.pool.call with
    | none => exact absurd (hmade.undecided hcall hcall') hdecided
    | some call =>
      obtain ⟨config, hconfig⟩ := Option.ne_none_iff_exists'.mp (h.recorded.deployed hcall)
      obtain ⟨-, -, call'', hstored, hcarried⟩ := hmade.carries hconfig hcall
      obtain rfl := Option.some.inj (hcall'.symm.trans hstored)
      rw [hcarried.endTs]
      rcases hcarried.outcome with hsame | ⟨hended, -⟩
      · exact (h.ended call hcall (hsame ▸ hdecided)).trans htime
      · exact hended
  · rw [rollovers_cons, hnone]
    refine h.law.imp id ?_
    rintro ⟨call, hshares⟩
    obtain ⟨config, hconfig, hmarked⟩ := hshares.marked
    obtain ⟨hconfig', hclaimed, call', hcall', hcarried⟩ := hmade.carries hconfig hshares.stored
    have hended := (h.ended call hshares.stored hshares.decided).trans htime
    have houtcome : call'.outcome = call.outcome := by
      rcases hcarried.outcome with hsame | ⟨-, callId, endPrice, rfl⟩
      · exact hsame
      · simp only [World.keepsOutcome, hshares.stored, Option.all_some, decide_eq_true_eq] at hkeeps
        exact (hkeeps.resolve_left hshares.decided).symm
    obtain ⟨hwinning, hwithin⟩ := hcarried.within hended houtcome
    exact ⟨call', hcall', houtcome ▸ hshares.decided, hwinning ▸ hshares.winning_pos,
      hshares.distinct, fun x hx => (hwithin x).mpr (hshares.within x hx), config, hconfig',
      hclaimed ▸ hmarked⟩

/-- What a rollover sends out of its market: the payout and the bonus. -/
theorem rollover_sends {env : Env} {config : MarketConfig} {user newMarket : Address}
    {terms : RolloverTerms} {newCallId : Nat} (hself : env.contract = self)
    (hbonus : 0 ≤ terms.split.bonus) :
    effectTotal (sentFrom self)
        (rolloverEffects env config call user terms newMarket newCallId) =
      terms.payout + terms.split.bonus := by
  subst hself
  unfold rolloverEffects
  split
  · simp [sentFrom, add_comm]
  · simp [sentFrom]
    omega

theorem RolloverLaw.rolls (h : RolloverLaw self history w) {env : Env} {user : Address}
    {callId newCallId : Nat} {rollover : RolloverConfig} {f : Frame Storage P Event}
    (hself : env.contract = self)
    (hrun : run (claimAndRollover user callId rollover) env w.frame = .ok (newCallId, f))
    (htime : w.timestamp ≤ env.timestamp)
    (hcovers : w.coversRollover (.invoked ⟨env, .claimAndRollover user callId rollover, f.effects⟩)
      = true) :
    RolloverLaw self (.invoked ⟨env, .claimAndRollover user callId rollover, f.effects⟩ :: history)
      ⟨f.store, f.tokens, env.timestamp, env.sequence⟩ := by
  obtain ⟨config, call, terms, newMarket, stages, -, hrolled⟩ := claim_and_rollover_rolls hrun
  have hconfig : w.store.config = some config := hrolled.configured
  have hcall : w.store.pool.call = some call := hrolled.stored
  obtain ⟨feeBps, feeCollector, hfee, hcomputed⟩ := hrolled.computed
  have hfee : Peers.feeConfig env config.outcomeManager w.peers = some (feeBps, feeCollector) :=
    hfee
  have hp := h.recorded.pooled call hcall
  have hterms := hcomputed.exact hp
  simp only [World.coversRollover, hconfig, hcall, hfee, Option.all_some, decide_eq_true_eq]
    at hcovers
  have hstore : f.store = w.store.setUserClaimed config.callId user := by rw [hrolled.result]; rfl
  have heffects : f.effects = rolloverEffects env config call user terms newMarket newCallId := by
    rw [hrolled.result]
    exact List.append_nil _
  have hwithin : call.Within (user, effectTotal (sentFrom self) f.effects) := by
    rw [heffects, rollover_sends hself hterms.bonus_nonneg, hterms.bonus, hterms.payout]
    exact hcovers
  refine ⟨hrolled.recorded h.recorded, ?_, .inr ⟨call, ?_⟩⟩
  · intro call' hcall' hdecided
    rw [hstore] at hcall'
    exact (h.ended call' hcall' hdecided).trans htime
  · have hold : ((rollovers self history).map Prod.fst).Nodup ∧
        ∀ x ∈ rollovers self history, call.Within x ∧
          w.store.userClaimed (config.callId, x.1) = true := by
      rcases h.law with hnone | ⟨call', hshares⟩
      · rw [hnone]
        exact ⟨List.nodup_nil, by simp⟩
      · obtain rfl := Option.some.inj (hcall.symm.trans hshares.stored)
        obtain ⟨config', hconfig', hmarked⟩ := hshares.marked
        obtain rfl := Option.some.inj (hconfig.symm.trans hconfig')
        exact ⟨hshares.distinct, fun x hx => ⟨hshares.within x hx, hmarked x hx⟩⟩
    rw [rollovers_cons]
    have hunclaimed : w.store.userClaimed (config.callId, user) = false := hrolled.unclaimed
    refine ⟨by rw [hstore]; exact hcall, hrolled.settled.2,
      hterms.stake_pos.trans_le (hp.stakeOf_le user), ?_, ?_, config,
      by rw [hstore]; exact hconfig, ?_⟩
    · refine List.nodup_cons.mpr ⟨fun hmem => ?_, hold.1⟩
      obtain ⟨x, hx, rfl⟩ := List.mem_map.mp hmem
      rw [(hold.2 x hx).2] at hunclaimed
      cases hunclaimed
    · exact List.forall_mem_cons.mpr ⟨hwithin, fun x hx => (hold.2 x hx).1⟩
    · rw [hstore]
      refine List.forall_mem_cons.mpr ⟨Function.update_self .., fun x hx => ?_⟩
      by_cases heq : x.1 = user
      · rw [heq]
        exact Function.update_self ..
      · exact (Function.update_of_ne (by simp [heq]) _ _).trans (hold.2 x hx).2

/-- In every run in which the rollovers are covered, they are within their shares. -/
theorem rollover_law_of_run (run : (market self outside).RunWhere rolloversCovered history w) :
    RolloverLaw self history w := by
  refine run.invariant (I := fun history w => RolloverLaw self history w) ?_ ?_
  · rintro w ⟨hempty, -⟩
    refine ⟨?_, ?_, .inl rfl⟩
    · rw [hempty]
      exact ⟨fun _ => ⟨rfl, rfl⟩, fun call hcall => absurd hcall (by simp [Storage.empty]),
        fun call hcall => absurd hcall (by simp [Storage.empty])⟩
    · rw [hempty]
      exact fun call hcall => absurd hcall (by simp [Storage.empty])
  · intro history w l w' _ h hstep hguard
    obtain ⟨hcovers, hkeeps⟩ := hguard
    cases hstep with
    | elsewhere =>
      have hcons : rollovers self (.elsewhere :: history) = rollovers self history := rfl
      exact ⟨h.recorded, h.ended, hcons ▸ h.law⟩
    | @invoked env op f hself hauths htime _ hrun =>
      cases hop : op.isRollover with
      | true =>
        cases op <;> cases hop
        obtain ⟨newCallId, hrun⟩ := run_ignore.mp hrun
        exact h.rolls hself hrun htime hcovers
      | false =>
        obtain ⟨effects, heffects, -, hmade⟩ := MarketOp.makes hop hrun
        obtain rfl : f.effects = effects := by simpa [World.frame] using heffects
        refine h.transition hmade htime hkeeps ?_
        cases op <;> first | rfl | cases hop

end Run

end Backit.PredictionMarket
