import Backit.Lib.ProRata
import Backit.LendingPool.Ledger

/-!
# Share fairness

A deposit mints shares at the price of the pool, and a withdrawal redeems them, both rounded down.
When only one of the supply and the value locked is zero, the deposit mints one for one instead: into
a worthless supply, which dilutes the depositor, or into value without shares, which is a gift.
-/

namespace Backit.LendingPool

open Soroban Contract Lib PredictionMarketFactory

/-- The redeemable value of somebody's shares. -/
def Storage.redeemable (s : Storage) (liquid : Int) (who : Address) : Int :=
  proRata (liquid + s.totalAllocatedLocked) s.totalLpShares (valueAt s.lpShares who)

/-- Balances are not negative. -/
def HeldNonneg (P : Type) [Tokens P] : Prop :=
  ∀ (p : P) token who held, Tokens.balance p token who = some held → 0 ≤ held

section Storage

variable {s : Storage} {user other : Address} {liquid amount lpShares lpAmount : Int}

theorem Sound.principal_nonneg (h : Sound s) (id : Nat) : 0 ≤ s.principal id := by
  unfold Storage.principal
  cases ha : s.allocation id with
  | none => exact le_rfl
  | some a => exact (h.allocated id a ha).2.le

theorem Sound.locked_nonneg (h : Sound s) : 0 ≤ s.totalAllocatedLocked := by
  rw [h.locked]
  exact sum_map_nonneg _ h.principal_nonneg

theorem Sound.supply_nonneg (h : Sound s) : 0 ≤ s.totalLpShares := by
  rw [← h.shares]
  exact total_nonneg _ h.shares_nonneg

theorem Sound.two_shares_le (h : Sound s) (hother : other ≠ user) :
    valueAt s.lpShares user + valueAt s.lpShares other ≤ s.totalLpShares := by
  rw [← h.shares]
  have := sum_valueAt_le_total [user, other] (by simpa using hother.symm) s.lpShares h.shares_nonneg
  simpa using this

theorem minted_eq (hsupply : 0 < s.totalLpShares) {tvl : Int} (htvl : 0 < tvl)
    (hamount : 0 < amount) :
    mintedShares s.totalLpShares tvl amount = proRata s.totalLpShares tvl amount := by
  rw [mintedShares, if_neg (by omega), tdiv_eq_div (by positivity)]
  rfl

/-- A deposit lowers the value of nobody else's shares. -/
theorem Sound.redeemable_deposited (h : Sound s) (hliquid : 0 ≤ liquid) (hamount : 0 < amount)
    (hother : other ≠ user)
    (hshares : lpShares = mintedShares s.totalLpShares (liquid + s.totalAllocatedLocked) amount) :
    s.redeemable liquid other ≤
      (s.deposited user amount lpShares).redeemable (liquid + amount) other := by
  have hlocked := h.locked_nonneg
  have hheld := h.shares_nonneg other
  have hsame : valueAt (s.deposited user amount lpShares).lpShares other =
      valueAt s.lpShares other := by
    show valueAt (s.lpShares.insert user _) other = _
    rw [valueAt_insert, if_neg hother]
  unfold Storage.redeemable
  rw [hsame]
  show _ ≤ proRata (liquid + amount + s.totalAllocatedLocked) (s.totalLpShares + lpShares) _
  have hpot : liquid + amount + s.totalAllocatedLocked =
      liquid + s.totalAllocatedLocked + amount := by omega
  rw [hpot]
  obtain hsupply | hsupply := h.supply_nonneg.eq_or_lt
  · have hnone : valueAt s.lpShares other = 0 := by
      have := valueAt_le_total s.lpShares h.shares_nonneg other
      rw [h.shares] at this
      omega
    simp [hnone, proRata]
  obtain htvl | htvl := (show 0 ≤ liquid + s.totalAllocatedLocked by omega).eq_or_lt
  · rw [← htvl] at hshares ⊢
    rw [mintedShares, if_pos (.inr le_rfl)] at hshares
    have hworth : proRata 0 s.totalLpShares (valueAt s.lpShares other) = 0 := by simp [proRata]
    rw [hworth]
    exact proRata_nonneg (by omega) (by omega) hheld
  · rw [hshares, minted_eq hsupply htvl hamount]
    have hminted : 0 ≤ proRata s.totalLpShares (liquid + s.totalAllocatedLocked) amount :=
      proRata_nonneg hsupply.le htvl hamount.le
    exact proRata_mono_of_price hheld hsupply (by omega) (mint_price htvl)

/-- A withdrawal lowers the value of nobody else's shares. -/
theorem Sound.redeemable_withdrawn (h : Sound s) (hsupply : 0 < s.totalLpShares)
    (hshares : lpAmount ≤ valueAt s.lpShares user) (hother : other ≠ user) :
    s.redeemable liquid other ≤
      (s.withdrawn user lpAmount).redeemable
        (liquid - proRata (liquid + s.totalAllocatedLocked) s.totalLpShares lpAmount) other := by
  have hheld := h.shares_nonneg other
  have htwo := h.two_shares_le hother
  have hsame : valueAt (s.withdrawn user lpAmount).lpShares other = valueAt s.lpShares other := by
    show valueAt (s.lpShares.insert user _) other = _
    rw [valueAt_insert, if_neg hother]
  unfold Storage.redeemable
  rw [hsame]
  show _ ≤ proRata (_ + s.totalAllocatedLocked) (s.totalLpShares - lpAmount) _
  have hpot : liquid - proRata (liquid + s.totalAllocatedLocked) s.totalLpShares lpAmount +
      s.totalAllocatedLocked = liquid + s.totalAllocatedLocked -
        proRata (liquid + s.totalAllocatedLocked) s.totalLpShares lpAmount := by omega
  rw [hpot]
  obtain hrest | hrest := (show 0 ≤ s.totalLpShares - lpAmount by omega).eq_or_lt
  · have hnone : valueAt s.lpShares other = 0 := by omega
    simp [hnone, proRata]
  · exact proRata_mono_of_price hheld hsupply hrest (redeem_price hsupply)

/-- Depositing and withdrawing at once is fair when the supply and the value locked are both zero or
both positive, and into a worthless supply only when nearly nothing is at stake. -/
theorem Sound.round_trip_fair_iff (h : Sound s) {tvl amountOut : Int} (htvl : 0 ≤ tvl)
    (hamount : 0 < amount) (hshares : lpShares = mintedShares s.totalLpShares tvl amount)
    (hout : amountOut = proRata (tvl + amount) (s.totalLpShares + lpShares) lpShares) :
    FairReturn amount amountOut (tvl + amount) (s.totalLpShares + lpShares) ↔
      (s.totalLpShares = 0 ↔ tvl = 0) ∨
        tvl = 0 ∧ amount * s.totalLpShares ≤ amount + s.totalLpShares := by
  subst hout
  obtain hsupply | hsupply := h.supply_nonneg.eq_or_lt
  · -- The first shares are minted one for one and own the whole pool.
    rw [← hsupply] at hshares ⊢
    rw [mintedShares, if_pos (.inl le_rfl)] at hshares
    subst hshares
    rw [zero_add, whole_pot_back hamount]
    constructor
    · rintro ⟨hle, -⟩
      exact .inl ⟨fun _ => by omega, fun _ => rfl⟩
    · intro hfair
      have hzero : tvl = 0 := by
        obtain hboth | ⟨hzero, -⟩ := hfair
        · exact hboth.mp rfl
        · exact hzero
      rw [hzero, zero_add]
      refine ⟨le_rfl, ?_⟩
      rw [sub_self]
      exact Int.ediv_nonneg (by omega) hamount.le
  · obtain rfl | htvl := htvl.eq_or_lt
    · -- The supply is worthless, and shares in it are minted one for one.
      rw [mintedShares, if_pos (.inr le_rfl)] at hshares
      subst hshares
      rw [zero_add, empty_pot_fair_iff hsupply hamount]
      simp [hsupply.ne']
    · rw [minted_eq hsupply htvl hamount] at hshares
      subst hshares
      have hfair := round_trip_fair htvl hsupply hamount.le
      simp [hfair, hsupply.ne', htvl.ne']

end Storage

section Run

variable {P : Type} [Markets P] {self : Address} {outside : P → P → Prop}
  {d : Deployment Storage P} {history : List (Happening PoolOp Event)}

/-- Nobody's shares but the user's are worth less than before. -/
def SparesOthers (contract : Address) (f f' : Frame Storage P Event) (user : Address) : Prop :=
  ∀ config liquid liquid' other, f.store.config = some config → other ≠ user →
    Tokens.balance f.tokens config.stakeToken contract = some liquid →
    Tokens.balance f'.tokens config.stakeToken contract = some liquid' →
    f.store.redeemable liquid other ≤ f'.store.redeemable liquid' other

theorem balance_after (hexact : ExactTransfers P) {env : Env} {token sender recipient who : Address}
    {amount held held' : Int} {p p' : P}
    (h : Tokens.transfer env token sender recipient amount p = some p')
    (hheld : Tokens.balance p token who = some held)
    (hheld' : Tokens.balance p' token who = some held') :
    held' = held + transferDelta sender recipient amount who := by
  have hbalance := hexact h token who
  rw [hheld, hheld', if_pos rfl] at hbalance
  exact Option.some.inj hbalance

theorem Deposits.spares_others {env : Env} {f f' : Frame Storage P Event} {user : Address}
    {amount lpShares : Int} (h : Deposits env user amount lpShares f f') (hs : Sound f.store)
    (hexact : ExactTransfers P) (hnonneg : HeldNonneg P) (hforeign : env.contract ∉ env.auths) :
    SparesOthers env.contract f f' user := by
  obtain ⟨hauth, hconfig, hamount, hliquid, hshares, -, htransfer⟩ := h
  intro config held held' other hconfig' hother hheld hheld'
  obtain rfl := Option.some.inj (hconfig.symm.trans hconfig')
  obtain rfl := Option.some.inj (hliquid.symm.trans hheld)
  have huser : env.contract ≠ user := by
    rintro rfl
    exact hforeign hauth
  have hafter := balance_after hexact htransfer hliquid hheld'
  rw [transferDelta, if_pos rfl, if_neg huser, sub_zero] at hafter
  rw [hafter]
  exact hs.redeemable_deposited (hnonneg _ _ _ _ hheld) hamount hother hshares

/-- A withdrawal takes what it pays from the liquid balance. -/
theorem Withdraws.spares_others {env : Env} {f f' : Frame Storage P Event} {user : Address}
    {lpAmount amountOut : Int} (h : Withdraws env user lpAmount amountOut f f')
    (hs : Sound f.store) (hexact : ExactTransfers P) (hnonneg : HeldNonneg P)
    (hforeign : env.contract ∉ env.auths) : SparesOthers env.contract f f' user := by
  obtain ⟨hauth, hconfig, hlp, hshares, hsupply, hliquid, hout, -, htransfer⟩ := h
  intro config held held' other hconfig' hother hheld hheld'
  obtain rfl := Option.some.inj (hconfig.symm.trans hconfig')
  obtain rfl := Option.some.inj (hliquid.symm.trans hheld)
  have huser : env.contract ≠ user := by
    rintro rfl
    exact hforeign hauth
  have hnn := hnonneg _ _ _ _ hheld
  have hlocked := hs.locked_nonneg
  have hafter := balance_after hexact htransfer hliquid hheld'
  rw [transferDelta, if_neg huser, if_pos rfl, zero_sub, hout,
    tdiv_eq_div (mul_nonneg hlp.le (by omega))] at hafter
  rw [hafter]
  exact hs.redeemable_withdrawn hsupply hshares hother

/-- No deposit and no withdrawal lowers the value of anybody else's shares. Depositing and withdrawing
the shares received at once returns at most the deposit, and less by at most the price of one share,
if and only if the supply and the value locked before were both zero or both positive, or the supply
was worthless and the loss in it is at most one unit. -/
theorem share_fairness_iff (hexact : ExactTransfers P) (hnonneg : HeldNonneg P)
    (run : (pool self outside).Run history d) :
    (∀ env user amount lpShares f, Admissible self d env →
      Contract.run (deposit user amount) env d.frame = .ok (lpShares, f) →
      SparesOthers self d.frame f user) ∧
    (∀ env user lpAmount amountOut f, Admissible self d env →
      Contract.run (withdraw user lpAmount) env d.frame = .ok (amountOut, f) →
      SparesOthers self d.frame f user) ∧
    ∀ env env' user amount lpShares amountOut f f' config liquid, Admissible self d env →
      Contract.run (deposit user amount) env d.frame = .ok (lpShares, f) →
      Admissible self (.after env f) env' →
      Contract.run (withdraw user lpShares) env' (Deployment.after env f).frame =
        .ok (amountOut, f') →
      d.store.config = some config → Tokens.balance d.peers config.stakeToken self = some liquid →
      (FairReturn amount amountOut (liquid + d.store.totalAllocatedLocked + amount)
          (d.store.totalLpShares + lpShares) ↔
        (d.store.totalLpShares = 0 ↔ liquid + d.store.totalAllocatedLocked = 0) ∨
          liquid + d.store.totalAllocatedLocked = 0 ∧
            amount * d.store.totalLpShares ≤ amount + d.store.totalLpShares) := by
  have hs := sound_of_run run
  refine ⟨fun env user amount lpShares f hadmissible hdeposit => ?_,
    fun env user lpAmount amountOut f hadmissible hwithdraw => ?_, ?_⟩
  · obtain rfl := hadmissible.contract
    exact (run_deposit hdeposit).spares_others hs hexact hnonneg hadmissible.foreign
  · obtain rfl := hadmissible.contract
    exact (run_withdraw hwithdraw).spares_others hs hexact hnonneg hadmissible.foreign
  · intro env env' user amount lpShares amountOut f f' config liquid hadmissible hdeposit
      hadmissible' hwithdraw hconfig hliquid
    obtain rfl := hadmissible.contract
    have hself := hadmissible'.contract
    have hnn := hnonneg _ _ _ _ hliquid
    have hlocked := hs.locked_nonneg
    obtain ⟨hauth, hconfig₁, hamount, hliquid₁, hshares, hpositive, htransfer⟩ :=
      run_deposit hdeposit
    obtain rfl := Option.some.inj (hconfig.symm.trans hconfig₁)
    obtain rfl := Option.some.inj (hliquid.symm.trans hliquid₁)
    obtain ⟨-, hconfig₂, -, -, -, hliquid₂, hout, -, -⟩ := run_withdraw hwithdraw
    obtain rfl := Option.some.inj (hconfig.symm.trans hconfig₂)
    have huser : env.contract ≠ user := by
      rintro rfl
      exact hadmissible.foreign hauth
    rw [hself] at hliquid₂
    have hafter := balance_after hexact htransfer hliquid hliquid₂
    rw [transferDelta, if_pos rfl, if_neg huser, sub_zero] at hafter
    refine hs.round_trip_fair_iff (by omega) hamount hshares ?_
    rw [hout, hafter]
    show (lpShares * (liquid + amount + d.store.totalAllocatedLocked)).tdiv
      (d.store.totalLpShares + lpShares) = _
    have hpot : liquid + amount + d.store.totalAllocatedLocked =
        liquid + d.store.totalAllocatedLocked + amount := by omega
    rw [hpot, tdiv_eq_div (mul_nonneg hpositive.le (by omega))]
    rfl

end Run

/-- What depositing and withdrawing at once mints and returns. -/
def roundTrip (d : Deployment Storage PoolLedger) (env : Env) (user : Address) (amount : Int) :
    Option (Int × Int) :=
  match run (deposit user amount) env d.frame with
  | .ok (lpShares, f) =>
    match run (withdraw user lpShares) env (Deployment.after env f).frame with
    | .ok (amountOut, _) => some (lpShares, amountOut)
    | .error _ => none
  | .error _ => none

theorem roundTrip_eq_some {d : Deployment Storage PoolLedger} {env : Env} {user : Address}
    {amount lpShares amountOut : Int} (h : roundTrip d env user amount = some (lpShares, amountOut)) :
    ∃ f f', run (deposit user amount) env d.frame = .ok (lpShares, f) ∧
      run (withdraw user lpShares) env (Deployment.after env f).frame = .ok (amountOut, f') := by
  unfold roundTrip at h
  split at h
  · next minted f hdeposit =>
    split at h
    · next returned f' hwithdraw =>
      cases h
      exact ⟨f, f', hdeposit, hwithdraw⟩
    · cases h
  · cases h

theorem held_nonneg : HeldNonneg PoolLedger := by
  intro m token who held hheld
  rw [← Option.some.inj hheld]
  exact (m.ledger.holdings token).nonneg who

/-- Outcome 2 wins, and the pool has lost all it had. -/
def lostScript : List Turn := stakedScript ++ [.resolve 1 2, .invoke 1001 [] (.harvestYield 1)]

def lostRun : System.Replayed surrounded Turn.next System.anything :=
  .of freshDeployment fresh_deployment_initial lostScript (by decide +kernel)

theorem lost_run : surrounded.Run lostRun.history lostRun.state :=
  lostRun.run Turn.next_step System.anything_allowed

/-- The configuration of the scenarios. -/
def sampleConfig : PoolConfig :=
  ⟨admin, treasury, usdc, factoryAddress, manager, 100, 100000, 100, 10000, 1000, 100⟩

/-- Bob's environment. -/
def bobEnv : Env := ⟨home, 2000, 2000, [bob]⟩

/-- After the pool has won, Bob's 500 units come back but for one. -/
theorem share_fairness_after_win : FairReturn 500 499 (1360 + 500) (1000 + 367) := by
  obtain ⟨f, f', hdeposit, hwithdraw⟩ := roundTrip_eq_some
    (show roundTrip wonRun.state bobEnv bob 500 = some (367, 499) by decide +kernel)
  obtain ⟨-, -, hfair⟩ := share_fairness_iff PoolLedger.exact_transfers held_nonneg won_run
  have hadmissible : Admissible home wonRun.state bobEnv := by decide +kernel
  have hafter : Admissible home (Deployment.after bobEnv f) bobEnv :=
    ⟨rfl, by decide, le_rfl, le_rfl⟩
  have hsupply : wonRun.state.store.totalLpShares = 1000 := by decide +kernel
  have hlocked : wonRun.state.store.totalAllocatedLocked = 0 := by decide +kernel
  have hround := hfair bobEnv bobEnv bob 500 367 499 f f' sampleConfig 1360 hadmissible hdeposit
    hafter hwithdraw (by decide +kernel) (by decide +kernel)
  rw [hsupply, hlocked, add_zero] at hround
  exact hround.mpr (.inl (by decide))

/-- After the pool has lost everything, Bob loses half of what he deposits to the old shares. -/
theorem worthless_shares_dilute : surrounded.Run lostRun.history lostRun.state ∧
      roundTrip lostRun.state bobEnv bob 1000 = some (1000, 500) ∧
      lostRun.state.store.totalLpShares = 1000 ∧
      Tokens.balance lostRun.state.peers usdc home = some 0 ∧
      lostRun.state.store.totalAllocatedLocked = 0 ∧
      ¬ FairReturn 1000 500 (0 + 1000) (1000 + 1000) :=
  ⟨lost_run, by decide +kernel, by decide +kernel, by decide +kernel, by decide +kernel, by
    unfold FairReturn
    decide⟩

end Backit.LendingPool
