import Backit.ParlayBetting.Notes

/-!
# The legs of all parlays

The contract's books are the notes of its run: an aggregate is what is staked under its call id and
what came back, and an active parlay has its stake on its active leg. So every claim and credit is
one that `WellNoted` describes.
-/

namespace Backit.ParlayBetting

open Soroban Contract Lib

/-- The executions of the contract at address `self` from its deployment on. -/
def parlays {P : Type} [ParlayPeers P] (self : Address) (outside : P → P → Prop) :
    System (Deployment Storage P) (Happening ParlayOp Event) :=
  contractSystem ParlayOp.perform self outside fun d => d.store = Storage.empty

def noteOf : Effect Event → Option Note
  | .event (.noted n) => some n
  | _ => none

/-- The notes among effects. -/
def noted (effects : List (Effect Event)) : List Note := effects.filterMap noteOf

/-- The notes of a run, most recent first. -/
def notes (history : List (Happening ParlayOp Event)) : List Note :=
  (invocations history).flatMap fun i => noted i.effects

/-- No outcome manager takes tokens from the contract when the contract claims. -/
def ClaimsTakeNothing (P : Type) [ParlayPeers P] (contract : Address) : Prop :=
  ∀ {env : Env} {manager : Address} {callId : Nat} {stake winning losing : Int} {p p' : P},
    env.contract = contract → contract ∉ env.auths →
      ParlayPeers.claimPayoutForMarket env manager callId contract stake winning losing p =
          some p' →
        ∀ token held held', Tokens.balance p token contract = some held →
          Tokens.balance p' token contract = some held' → held ≤ held'

/-- The contract's storage in terms of the notes. -/
structure Books (ns : List Note) (s : Storage) : Prop where
  well : WellNoted ns
  total : ∀ callId, (s.legAggregate callId).totalStaked = stakedUnder callId ns
  claimed : ∀ callId payout, (s.legAggregate callId).claimedPayout = some payout →
    ∃ r ∈ receipts ns, r.leg.callId = callId ∧ r.received = payout
  unclaimed : ∀ callId, (s.legAggregate callId).claimedPayout = none →
    ∀ r ∈ receipts ns, r.leg.callId ≠ callId
  keyed : ∀ id parlay, s.parlay id = some parlay → parlay.id = id ∧ id ≤ s.parlayCounter
  issued : ∀ x ∈ stakes ns, x.parlayId ≤ s.parlayCounter
  reached : ∀ x ∈ stakes ns, ∀ parlay, s.parlay x.parlayId = some parlay →
    x.legIndex ≤ parlay.activeLegIndex
  credited : ∀ c ∈ credits ns, c.stake ∈ stakes ns
  active : ∀ id parlay leg, s.parlay id = some parlay → parlay.status = .active →
    parlay.legs[parlay.activeLegIndex]? = some leg →
      parlay.stakeOn id leg ∈ stakes ns ∧ parlay.stakeOn id leg ∉ (credits ns).map LegCredit.stake

section Steps

variable {P : Type} [ParlayPeers P] {env : Env} {ns : List Note} {s s' : Storage}

theorem Books.empty : Books [] Storage.empty where
  well := trivial
  total _ := rfl
  claimed _ _ h := by cases h
  unclaimed _ _ := by simp [receipts]
  keyed _ _ h := by cases h
  issued := by simp [stakes]
  reached := by simp [stakes]
  credited := by simp [credits]
  active _ _ _ h := by cases h

theorem bump_total (htotal : ∀ callId, (s.legAggregate callId).totalStaked = stakedUnder callId ns)
    (x : LegStake) (callId : Nat) :
    ((s.bump x.leg.callId x.amount).legAggregate callId).totalStaked =
      stakedUnder callId (.staked x :: ns) := by
  rw [stakedUnder_staked, ← htotal]
  simp only [Storage.bump, Storage.setLegAggregate, Function.update_apply]
  by_cases h : callId = x.leg.callId
  · subst h
    simp
  · rw [if_neg h, if_neg (Ne.symm h), add_zero]

@[simp] theorem bump_claimedPayout (x callId : Nat) (amount : Int) :
    ((s.bump x amount).legAggregate callId).claimedPayout =
      (s.legAggregate callId).claimedPayout := by
  simp only [Storage.bump, Storage.setLegAggregate, Function.update_apply]
  split
  · next h => rw [h]
  · rfl

variable {effects : List (Effect Event)}

theorem Books.claim {config : ParlayConfig} {parlay : Parlay} {parlayId : Nat} {leg : ParlayLeg}
    {aggregate : LegAggregate} (h : Books ns s)
    (htake : ClaimsTakeNothing P env.contract) (hforeign : env.contract ∉ env.auths)
    (hparlay : s.parlay parlayId = some parlay) (hactive : parlay.status = .active)
    (hleg : parlay.legs[parlay.activeLegIndex]? = some leg)
    (hclaim : LegClaim P env config parlay.stakeToken leg s aggregate s' effects) :
    Books (noted effects ++ ns) s' ∧ s'.legAggregate leg.callId = aggregate ∧
      s'.parlay = s.parlay := by
  cases hclaim with
  | reused hclaimed => exact ⟨h, rfl, rfl⟩
  | @claimed received hnone hcall =>
    obtain ⟨p, p', winning, losing, before, after, hmade, hbefore, hafter, rfl⟩ := hcall
    have hle := htake rfl hforeign hmade _ _ _ hbefore hafter
    have hstake := h.active parlayId parlay leg hparlay hactive hleg
    have hpresented := h.total leg.callId
    refine ⟨?_, Function.update_self .., rfl⟩
    refine ⟨⟨⟨hpresented, by dsimp only; omega, h.unclaimed _ hnone, _, hstake.1, rfl, rfl⟩,
      h.well⟩, ?_, ?_, ?_, h.keyed, h.issued, h.reached, h.credited, h.active⟩
    · intro callId
      simp only [Storage.setLegAggregate, Function.update_apply]
      split
      · next heq =>
        subst heq
        exact h.total _
      · exact h.total callId
    · intro callId payout hpayout
      simp only [Storage.setLegAggregate, Function.update_apply] at hpayout
      split at hpayout
      · next heq =>
        cases hpayout
        exact ⟨_, .head _, heq.symm, rfl⟩
      · obtain ⟨r, hr, hreceived⟩ := h.claimed callId payout hpayout
        exact ⟨r, .tail _ hr, hreceived⟩
    · intro callId hunclaimed
      simp only [Storage.setLegAggregate, Function.update_apply] at hunclaimed
      split at hunclaimed
      · cases hunclaimed
      · next hne => exact List.forall_mem_cons.mpr ⟨Ne.symm hne, h.unclaimed callId hunclaimed⟩

theorem setParlay_some {parlay p : Parlay} {id : Nat}
    (h : (s.setParlay parlay).parlay id = some p) :
    id = parlay.id ∧ p = parlay ∨ id ≠ parlay.id ∧ s.parlay id = some p := by
  simp only [Storage.setParlay, Function.update_apply] at h
  split at h
  · next heq => exact .inl ⟨heq, (Option.some.inj h).symm⟩
  · next hne => exact .inr ⟨hne, h⟩

theorem Books.end_ {parlay : Parlay} {parlayId : Nat} {status : ParlayStatus} (h : Books ns s)
    (hparlay : s.parlay parlayId = some parlay) (hended : status ≠ .active) :
    Books ns (s.setParlay (parlay.ended status)) := by
  obtain ⟨rfl, hid⟩ := h.keyed parlayId parlay hparlay
  refine ⟨h.well, h.total, h.claimed, h.unclaimed, ?_, h.issued, ?_, h.credited, ?_⟩
  · intro id p hp
    obtain ⟨rfl, rfl⟩ | ⟨-, hp⟩ := setParlay_some hp
    · exact ⟨rfl, hid⟩
    · exact h.keyed id p hp
  · intro x hx p hp
    obtain ⟨hkey, rfl⟩ | ⟨-, hp⟩ := setParlay_some hp
    · exact h.reached x hx parlay (hkey ▸ hparlay)
    · exact h.reached x hx p hp
  · intro id p leg hp hactive hleg
    obtain ⟨rfl, rfl⟩ | ⟨-, hp⟩ := setParlay_some hp
    · exact absurd hactive hended
    · exact h.active id p leg hp hactive hleg

/-- A parlay stakes on a leg that it has not staked on before. -/
theorem Books.stake (parlay : Parlay) (x : LegStake) {leg : ParlayLeg} (h : Books ns s)
    (hamount : 0 ≤ x.amount) (hid : parlay.id ≤ s.parlayCounter)
    (hleg : parlay.legs[parlay.activeLegIndex]? = some leg)
    (hstake : x = parlay.stakeOn parlay.id leg)
    (hnew : ∀ y ∈ stakes ns, y.parlayId = parlay.id → y.legIndex < parlay.activeLegIndex) :
    Books (.staked x :: ns) ((s.bump leg.callId x.amount).setParlay parlay) := by
  have hfresh : x ∉ stakes ns := fun hx => by
    have := hnew x hx (by rw [hstake]; rfl)
    rw [hstake] at this
    exact lt_irrefl _ this
  have hcall : leg.callId = x.leg.callId := by rw [hstake]; rfl
  have huncredited : x ∉ (credits ns).map LegCredit.stake := fun hx => by
    obtain ⟨c, hc, rfl⟩ := List.mem_map.mp hx
    exact hfresh (h.credited c hc)
  refine ⟨⟨hamount, h.well⟩, fun callId => ?_, fun callId payout hpayout => ?_,
    fun callId hnone => ?_, ?_, ?_, ?_, fun c hc => .tail _ (h.credited c hc), ?_⟩
  · rw [hcall]
    exact bump_total h.total x callId
  · exact h.claimed callId payout ((bump_claimedPayout ..).symm.trans hpayout)
  · exact h.unclaimed callId ((bump_claimedPayout ..).symm.trans hnone)
  · intro id p hp
    obtain ⟨rfl, rfl⟩ | ⟨-, hp⟩ := setParlay_some hp
    · exact ⟨rfl, hid⟩
    · exact h.keyed id p hp
  · exact List.forall_mem_cons.mpr ⟨by rw [hstake]; exact hid, h.issued⟩
  · intro y hy p hp
    obtain ⟨hkey, rfl⟩ | ⟨hkey, hp⟩ := setParlay_some hp
    · obtain rfl | hy := List.mem_cons.mp hy
      · rw [hstake]
        exact le_refl _
      · exact (hnew y hy hkey).le
    · obtain rfl | hy := List.mem_cons.mp hy
      · exact absurd (by rw [hstake]; rfl) hkey
      · exact h.reached y hy p hp
  · intro id p leg' hp hactive hleg'
    obtain ⟨rfl, rfl⟩ | ⟨-, hp⟩ := setParlay_some hp
    · obtain rfl := Option.some.inj (hleg.symm.trans hleg')
      rw [← hstake]
      exact ⟨.head _, huncredited⟩
    · obtain ⟨hmem, hnot⟩ := h.active id p leg' hp hactive hleg'
      exact ⟨.tail _ hmem, hnot⟩

/-- A stake is credited that no active parlay has on its active leg. -/
theorem Books.credit {c : LegCredit} (h : Books ns s) (hc : NoteOk ns (.credited c))
    (hinactive : ∀ id p leg, s.parlay id = some p → p.status = .active →
      p.legs[p.activeLegIndex]? = some leg → p.stakeOn id leg ≠ c.stake) :
    Books (.credited c :: ns) s := by
  refine ⟨⟨hc, h.well⟩, h.total, h.claimed, h.unclaimed, h.keyed, h.issued, h.reached,
    List.forall_mem_cons.mpr ⟨hc.1, h.credited⟩, ?_⟩
  intro id p leg hp hactive hleg
  obtain ⟨hmem, hnot⟩ := h.active id p leg hp hactive hleg
  refine ⟨hmem, fun hcredited => ?_⟩
  obtain heq | hcredited := List.mem_cons.mp hcredited
  · exact hinactive id p leg hp hactive hleg heq
  · exact hnot hcredited

theorem setParlay_bump {parlay parlay' : Parlay} (hid : parlay.id = parlay'.id) (callId : Nat)
    (amount : Int) : (((s.setParlay parlay).bump callId amount).setParlay parlay') =
      (s.bump callId amount).setParlay parlay' := by
  simp only [Storage.setParlay, Storage.bump, Storage.setLegAggregate, hid, Function.update_idem]

/-- A parlay that has won its leg is credited and moves on. -/
theorem Books.advance {parlay : Parlay} {parlayId : Nat} {leg : ParlayLeg} {payout share : Int}
    (h : Books ns s) (hparlay : s.parlay parlayId = some parlay)
    (hactive : parlay.status = .active) (hleg : parlay.legs[parlay.activeLegIndex]? = some leg)
    (hpayout : (s.legAggregate leg.callId).claimedPayout = some payout)
    (hnonzero : (s.legAggregate leg.callId).totalStaked ≠ 0) (hshare : share =
      (payout * parlay.totalEscrowed).tdiv (s.legAggregate leg.callId).totalStaked)
    (hmoves : Moves env parlayId parlay share s s' effects) :
    Books (noted effects ++ .credited ⟨parlay.stakeOn parlayId leg, share⟩ :: ns) s' := by
  obtain ⟨rfl, hid⟩ := h.keyed parlayId parlay hparlay
  obtain ⟨hstake, hnew⟩ := h.active _ parlay leg hparlay hactive hleg
  obtain ⟨r, hr, hcall, rfl⟩ := h.claimed _ payout hpayout
  have hok : NoteOk ns (.credited ⟨parlay.stakeOn parlay.id leg, share⟩) := by
    refine ⟨hstake, hnew, ?_, r, hr, hcall, ?_⟩
    · exact h.total leg.callId ▸ hnonzero
    · exact h.total leg.callId ▸ hshare
  have hcredited : ∀ status, status ≠ .active →
      Books (.credited ⟨parlay.stakeOn parlay.id leg, share⟩ :: ns)
        (s.setParlay (parlay.ended status)) := by
    intro status hended
    refine (h.end_ hparlay hended).credit hok ?_
    intro id p leg' hp hactive' _ heq
    obtain ⟨-, rfl⟩ | ⟨hne, -⟩ := setParlay_some hp
    · exact hended hactive'
    · exact hne (congrArg LegStake.parlayId heq)
  cases hmoves with
  | @ended status event hended hevent =>
    have hnone : noted [.event event,
        .transfer parlay.stakeToken env.contract parlay.user share] = [] := by
      cases event with
      | noted n => exact absurd rfl (hevent n)
      | parlayCreated | parlayLegResolved | parlayCompleted | parlayVoided => rfl
    rw [hnone]
    exact hcredited status hended
  | @restaked nextLeg hnext =>
    have hreceived := h.well.received_nonneg r hr
    have hescrowed : 0 ≤ parlay.totalEscrowed := h.well.amount_nonneg _ hstake
    have htotal := stakedUnder_nonneg h.well leg.callId
    rw [← h.total] at htotal
    have hnonneg : 0 ≤ share := hshare ▸
      Int.tdiv_nonneg (mul_nonneg hreceived hescrowed) htotal
    have hstaked := (hcredited .lost (by decide)).stake (parlay.movedOn share)
      ⟨parlay.id, parlay.activeLegIndex + 1, nextLeg, parlay.stakeToken, share⟩ hnonneg hid hnext
      rfl fun y hy hkey => Nat.lt_succ_of_le (h.reached y hy parlay (hkey ▸ hparlay))
    have hid : (parlay.ended .lost).id = (parlay.movedOn share).id := rfl
    exact setParlay_bump hid nextLeg.callId share ▸ hstaked

theorem Books.step {op : ParlayOp} (h : Books ns s)
    (htake : ClaimsTakeNothing P env.contract) (hforeign : env.contract ∉ env.auths)
    (hstep : ParlayStep P env s op s' effects) : Books (noted effects ++ ns) s' := by
  cases hstep with
  | initialized =>
    exact ⟨h.well, h.total, h.claimed, h.unclaimed, h.keyed, h.issued, h.reached, h.credited,
      h.active⟩
  | @created user legs leg token amount hauth hleg hpositive =>
    have hcounted : Books ns (s.setParlayCounter (s.parlayCounter + 1)) :=
      ⟨h.well, h.total, h.claimed, h.unclaimed,
        fun id p hp => ⟨(h.keyed id p hp).1, Nat.le_succ_of_le (h.keyed id p hp).2⟩,
        fun x hx => Nat.le_succ_of_le (h.issued x hx), h.reached, h.credited, h.active⟩
    have hstaked := hcounted.stake (newParlay (s.parlayCounter + 1) user legs token amount)
      ⟨s.parlayCounter + 1, 0, leg, token, amount⟩ hpositive.le (le_refl _) hleg rfl
      fun y hy hkey => absurd (h.issued y hy) (by
        rw [hkey]
        exact Nat.not_succ_le_self _)
    exact ⟨hstaked.well, hstaked.total, hstaked.claimed, hstaked.unclaimed, hstaked.keyed,
      hstaked.issued, hstaked.reached, hstaked.credited, hstaked.active⟩
  | lost hparlay hactive => exact h.end_ hparlay (by decide)
  | @advanced parlayId parlay leg config aggregate s₁ claimEffects payout _ moveEffects hparlay
      hactive hleg hconfig hclaim hpayout hnonzero hmoves =>
    obtain ⟨hclaimed, rfl, hsame⟩ := h.claim htake hforeign hparlay hactive hleg hclaim
    have hadvanced := hclaimed.advance (hsame ▸ hparlay) hactive hleg hpayout hnonzero rfl hmoves
    have hnoted : noted (moveEffects ++ .event (.noted (.credited ⟨parlay.stakeOn parlayId leg,
          (payout * parlay.totalEscrowed).tdiv (s₁.legAggregate leg.callId).totalStaked⟩)) ::
        (claimEffects ++ [.event (.parlayLegResolved parlayId parlay.activeLegIndex true)])) ++ ns =
        noted moveEffects ++ .credited ⟨parlay.stakeOn parlayId leg,
          (payout * parlay.totalEscrowed).tdiv (s₁.legAggregate leg.callId).totalStaked⟩ ::
            (noted claimEffects ++ ns) := by
      simp [noted, List.filterMap_append, List.filterMap_cons, noteOf]
    rw [hnoted]
    exact hadvanced

end Steps

section Run

variable {P : Type} [ParlayPeers P] {self : Address} {outside : P → P → Prop}
  {history : List (Happening ParlayOp Event)} {d : Deployment Storage P}

theorem books_of_run (htake : ClaimsTakeNothing P self)
    (run : (parlays self outside).Run history d) : Books (notes history) d.store := by
  refine contract_invariant (I := fun h d => Books (notes h) d.store) ?_ ?_ ?_ run
  · intro d hd
    rw [show d.store = Storage.empty from hd]
    exact .empty
  · intro h d env op f _ ih hadmissible hrun _
    obtain rfl := hadmissible.contract
    obtain ⟨effects, hstep, heffects⟩ := ParlayOp.steps hrun
    obtain rfl : f.effects = effects := heffects.trans (List.append_nil _)
    exact ih.step htake hadmissible.foreign hstep
  · intro h d peers _ ih _
    exact ih

/-- Parlays claim only their own stakes in every run whose stakes keep call ids separate. -/
theorem legs_sound_of_run (htake : ClaimsTakeNothing P self)
    (run : (parlays self outside).Run history d) (hseparate : Separate (notes history)) :
    LegsSound (notes history) :=
  (books_of_run htake run).well.legs_sound hseparate

end Run

/-- Standard tokens, next to markets that anyone can imitate. -/
structure MarketsLedger where
  ledger : StandardLedger

def home : Address := ⟨300⟩

def managerAddress : Address := ⟨301⟩

/-- The market of call 7 and of call 8. -/
def market : Address := ⟨302⟩

/-- A contract of Mallory's that answers like the market. -/
def strangerMarket : Address := ⟨303⟩

def admin : Address := ⟨1⟩

def alice : Address := ⟨2⟩

def mallory : Address := ⟨3⟩

def usdc : Address := ⟨50⟩

namespace MarketsLedger

/-- Call 7 ends at time 100 and is resolved for outcome 1. Call 8 is running. -/
def callAt (callId now : Nat) : PredictionMarket.Call where
  id := callId
  creator := admin
  stakeToken := usdc
  stakeAmount := 0
  endTs := if callId = 7 then 100 else 1000
  tokenAddress := usdc
  pairId := []
  metadataHash := ⟨List.replicate 32 41, by decide⟩
  outcomeCount := 2
  outcomeStakes := ∅
  stakes := ∅
  outcome := if callId = 7 ∧ 100 ≤ now then 1 else 0
  startPrice := 0
  endPrice := 0
  condition := .targetAbove 5
  settled := callId = 7 ∧ 100 ≤ now
  voided := false
  createdAt := 0
  cancelled := false
  metadataVersion := 0
  shareTokens := ∅
  parentCallId := none
  rolledAmount := 0

instance : Tokens MarketsLedger where
  balance m := Tokens.balance m.ledger
  transfer env token sender recipient amount m :=
    (Tokens.transfer env token sender recipient amount m.ledger).map .mk
  mint _ _ _ _ _ := none
  clawback _ _ _ _ _ := none
  deploy _ _ _ _ := none

/-- The market of call 7 has stakes of 4000 on outcome 1 and of 6000 on outcome 2. -/
instance : ParlayPeers MarketsLedger where
  getCall env _ callId m := some (callAt callId env.timestamp, m)
  stakeOnCall env address staker _ amount _ m :=
    (Tokens.transfer env usdc staker address amount m.ledger).map .mk
  getOutcomeStakes _ _ _ m := some ([(1, 4000), (2, 6000)], m)
  hasClaimed _ _ _ _ m := some (false, m)
  claimPayoutForMarket _ _ _ staker stake winning losing m :=
    (Tokens.transfer ⟨market, 0, 0, []⟩ usdc market staker (stake + stake * losing / winning)
      m.ledger).map .mk

theorem claims_take_nothing : ClaimsTakeNothing MarketsLedger home := by
  intro env manager callId stake winning losing m m' _ _ h token held held' hheld hheld'
  simp only [ParlayPeers.claimPayoutForMarket, Option.map_eq_some_iff] at h
  obtain ⟨ledger, htransfer, rfl⟩ := h
  have hamount : 0 ≤ stake + stake * losing / winning := by
    simp only [Tokens.transfer] at htransfer
    split at htransfer
    · next hchecks => exact hchecks.1
    · cases htransfer
  have hexact := StandardLedger.exact_transfers htransfer token home
  have hgain : held' = held +
      if token = usdc then stake + stake * losing / winning else 0 := by
    rw [show Tokens.balance ledger token home = some held' from hheld',
      show Tokens.balance m.ledger token home = some held from hheld] at hexact
    simpa [transferDelta, show home ≠ market by decide] using hexact
  rw [hgain]
  split <;> omega

end MarketsLedger

/-- Alice and Mallory have tokens, and so has the market. -/
def freshDeployment : Deployment Storage MarketsLedger where
  store := Storage.empty
  peers := ⟨.ofHoldings fun token =>
    if token = usdc then
      ((Holdings.empty.set alice 1100 (by decide)).set mallory 3300 (by decide)).set market 11000
        (by decide)
    else .empty⟩
  timestamp := 0
  sequence := 0

/-- An invocation of the contract at a time, with the addresses that authorise it. -/
def at_ (timestamp : Nat) (auths : List Address) (op : ParlayOp) : Env × ParlayOp :=
  (⟨home, timestamp, timestamp, auths⟩, op)

/-- Nothing happens elsewhere. -/
abbrev closed : System (Deployment Storage MarketsLedger) (Happening ParlayOp Event) :=
  parlays home fun _ _ => False

/-- Outcome 1 of call 7 at a market, then outcome 1 of call 8. -/
def legsAt (address : Address) : List ParlayLeg := [⟨7, address, 1⟩, ⟨8, market, 1⟩]

/-- Alice stakes on call 7 at its market, Mallory at the given one, and both win. -/
def winningScript (address : Address) : List (Env × ParlayOp) :=
  [at_ 1 [admin] (.initializeParlays admin managerAddress),
    at_ 2 [alice] (.createParlay alice (legsAt market) 1000),
    at_ 3 [mallory] (.createParlay mallory (legsAt address) 3000),
    at_ 100 [] (.advanceParlay 1), at_ 101 [] (.advanceParlay 2)]

/-- Both stake at the market. -/
def sharedRun : System.Replayed closed (Deployment.next ParlayOp.perform home) System.anything :=
  .of freshDeployment rfl (winningScript market) (by decide +kernel)

/-- Mallory stakes at her own contract. -/
def imitatedRun : System.Replayed closed (Deployment.next ParlayOp.perform home) System.anything :=
  .of freshDeployment rfl (winningScript strangerMarket) (by decide +kernel)

/-- Stakes of 1000 and 3000 on the same leg share its payout of 10000. -/
theorem shared_leg_sound : LegsSound (notes sharedRun.history) ∧
    (credits (notes sharedRun.history)).map LegCredit.share = [7500, 2500] := by
  have hseparate : Separate (notes sharedRun.history) := by decide +kernel
  have hshares : (credits (notes sharedRun.history)).map LegCredit.share = [7500, 2500] := by
    decide +kernel
  exact ⟨legs_sound_of_run MarketsLedger.claims_take_nothing
    (sharedRun.run Deployment.next_step System.anything_allowed) hseparate, hshares⟩

/-- The contract has staked 1000 on Alice's leg. It presents 4000 for it, and Mallory is credited
7500 of what comes back although none of her tokens went to the market. -/
theorem imitated_market_claims : closed.Run imitatedRun.history imitatedRun.state ∧
    receipts (notes imitatedRun.history) = [⟨⟨7, market, 1⟩, usdc, 4000, 10000⟩] ∧
    stakedOn ⟨7, market, 1⟩ (notes imitatedRun.history) = 1000 ∧
    (credits (notes imitatedRun.history)).map (fun c => (c.stake.parlayId, c.share)) =
      [(2, 7500), (1, 2500)] ∧
    ¬ LegsSound (notes imitatedRun.history) := by
  have hreceipts : receipts (notes imitatedRun.history) =
      [⟨⟨7, market, 1⟩, usdc, 4000, 10000⟩] := by decide +kernel
  have hstaked : stakedOn ⟨7, market, 1⟩ (notes imitatedRun.history) = 1000 := by decide +kernel
  have hshares : (credits (notes imitatedRun.history)).map
      (fun c => (c.stake.parlayId, c.share)) = [(2, 7500), (1, 2500)] := by decide +kernel
  refine ⟨imitatedRun.run Deployment.next_step System.anything_allowed, hreceipts, hstaked,
    hshares, fun hsound => ?_⟩
  have hpresented := hsound.presented _ (hreceipts ▸ List.mem_singleton_self _)
  rw [hstaked] at hpresented
  exact absurd hpresented (by decide)

end Backit.ParlayBetting
