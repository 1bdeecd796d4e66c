import Backit.GasStation.Station

/-!
# The station's pool and its claims

The station books what it collects and spends, and no claim lowers its pool. A call is processed
once. Whether the genuine claim of a call is what processed it depends on who named the outcome
manager: the station takes the one that the caller names.
-/

namespace Backit.GasStation

open Soroban Contract Lib

/-- The executions of the station at address `self` from its deployment on. -/
def station {P : Type} [OutcomeManagers P] (self : Address) (outside : P → P → Prop) :
    System (Deployment Storage P) (Happening StationOp Event) :=
  contractSystem StationOp.perform self outside fun d => d.store = Storage.empty

/-- The claim that an entry point makes, if it makes one. -/
def StationOp.claim : StationOp → Option SponsoredClaim
  | .claimSponsoredPayout claim => some claim
  | _ => none

/-- The claims that succeeded, most recent first. -/
def claims (history : List (Happening StationOp Event)) : List SponsoredClaim :=
  (invocations history).filterMap fun i => i.op.claim

/-- No contract that the station calls takes tokens from it without its authorisation. -/
def ClaimsTakeNothing (P : Type) [OutcomeManagers P] (contract : Address) : Prop :=
  ∀ {env : Env} {outcomeManager : Address} {request : PayoutRequest} {p p' : P},
    env.contract = contract → contract ∉ env.auths →
      OutcomeManagers.claimPayout env outcomeManager request p = some p' →
        ∀ token held held', Tokens.balance p token contract = some held →
          Tokens.balance p' token contract = some held' → held ≤ held'

/-- What an invocation tells of itself: what it asked, and what it announced of a claim. -/
def Effect.ofClaim : Effect Event → Bool
  | .event (.asked _ _) => true
  | .event (.sponsoredPayoutClaimed ..) => true
  | _ => false

/-- A claim leaves its own trace, and nothing else leaves one. -/
def Traced (self : Address) (i : Invocation StationOp Event) : Prop :=
  match i.op.claim with
  | some claim => ∃ P : Type, ∃ t : Settlement P, i.effects = t.effects self claim
  | none => ∀ e ∈ i.effects, Effect.ofClaim e = false

/-- The books of the station. -/
structure Accounted (contract : Address) (history : List (Happening StationOp Event))
    (s : Storage) : Prop where
  net : s.metrics.netProfitLoss = s.metrics.totalWinningsCollected - s.metrics.totalXlmSpent
  once : ((claims history).map (·.callId)).Nodup
  processed : ∀ callId, s.callProcessed callId = true ↔ callId ∈ (claims history).map (·.callId)
  traced : ∀ i ∈ invocations history, Traced contract i

section Run

variable {P : Type} [OutcomeManagers P] {self : Address} {outside : P → P → Prop}
  {history : List (Happening StationOp Event)} {d : Deployment Storage P}

theorem Accounted.step {env : Env} {op : StationOp} {f f' : Frame Storage P Event}
    (h : Accounted env.contract history f.store) (hfirst : f.effects = [])
    (hstep : StationStep env f op f') :
    Accounted env.contract (.invoked ⟨env, op, f'.effects⟩ :: history) f'.store := by
  cases hstep with
  | initialized | adminSet | sponsored | revoked | refilled =>
    refine ⟨?_, h.once, ?_, List.forall_mem_cons.mpr ⟨?_, h.traced⟩⟩
    · first
        | rfl
        | exact h.net
        | simpa using h.net
    · intro callId
      simpa [Storage.setAdmin, Storage.setXlmToken, Storage.setMetrics, Storage.setSponsorship,
        claims, StationOp.claim] using h.processed callId
    · simp [Traced, StationOp.claim, hfirst, Effect.ofClaim]
  | @settled claim t _ ht =>
    obtain rfl := ht.result
    have hclaims : claims (.invoked ⟨env, .claimSponsoredPayout claim,
        t.effects env.contract claim ++ f.effects⟩ :: history) = claim :: claims history := rfl
    have hnew : claim.callId ∉ (claims history).map (·.callId) := fun hmem => by
      have := (h.processed claim.callId).mpr hmem
      rw [ht.unprocessed] at this
      cases this
    refine ⟨rfl, ?_, ?_, List.forall_mem_cons.mpr ⟨?_, h.traced⟩⟩
    · rw [hclaims]
      exact List.nodup_cons.mpr ⟨hnew, h.once⟩
    · intro callId
      rw [hclaims, List.map_cons, List.mem_cons, ← h.processed]
      simp only [Storage.setMetrics, Storage.markCallProcessed, Function.update_apply]
      split
      · next heq => simp [heq]
      · next hne => simp [hne]
    · refine ⟨P, t, ?_⟩
      rw [hfirst]
      exact List.append_nil _

theorem accounted_of_run (run : (station self outside).Run history d) :
    Accounted self history d.store := by
  refine contract_invariant (I := fun h d => Accounted self h d.store) ?_ ?_ ?_ run
  · intro d hd
    rw [show d.store = Storage.empty from hd]
    exact ⟨rfl, List.nodup_nil, by simp [Storage.empty, claims], by simp⟩
  · intro h d env op f _ ih hadmissible hrun _
    obtain rfl := hadmissible.contract
    exact ih.step rfl (StationOp.steps hrun)
  · intro h d peers _ ih _
    exact ⟨ih.net, ih.once, ih.processed, ih.traced⟩

/-- A claim that has been processed is what the genuine outcome manager was asked, and what it
released went to its user, up to the cut. -/
def SettledFor (self : Address) (history : List (Happening StationOp Event))
    (claim : SponsoredClaim) : Prop :=
  ∃ i ∈ invocations history, .event (.asked claim.outcomeManager (claim.request self)) ∈ i.effects ∧
      ∃ payout cut userAmount, cut + userAmount = payout ∧
        .event (.sponsoredPayoutClaimed claim.callId claim.user payout cut userAmount) ∈
          i.effects ∧
        (0 < userAmount → ∃ token, .transfer token self claim.user userAmount ∈ i.effects)

/-- Every genuine claim whose call is processed has been settled. -/
def ClaimsIntact (self : Address) (genuine : Set SponsoredClaim)
    (history : List (Happening StationOp Event)) (s : Storage) : Prop :=
  ∀ claim ∈ genuine, s.callProcessed claim.callId = true → SettledFor self history claim

variable {claim : SponsoredClaim}

theorem Accounted.settled {s : Storage} (h : Accounted self history s)
    (hclaim : claim ∈ claims history) : SettledFor self history claim := by
  obtain ⟨i, hi, hop⟩ := List.mem_filterMap.mp hclaim
  have htraced := h.traced i hi
  rw [Traced, hop] at htraced
  obtain ⟨_, t, heffects⟩ := htraced
  refine ⟨i, hi, ?_, t.payout, t.cut, t.userAmount, t.cut_add_user_amount, ?_, ?_⟩
  · simp [heffects, Settlement.effects]
  · simp [heffects, Settlement.effects]
  · intro hpositive
    exact ⟨t.xlmToken, by simp [heffects, Settlement.effects, Settlement.forwarded, hpositive]⟩

theorem Accounted.claimed {s : Storage} (h : Accounted self history s)
    (hsettled : SettledFor self history claim) : claim ∈ claims history := by
  obtain ⟨i, hi, hasked, payout, cut, userAmount, -, hannounced, -⟩ := hsettled
  have htraced := h.traced i hi
  cases hop : i.op.claim with
  | none =>
    rw [Traced, hop] at htraced
    exact absurd (htraced _ hasked) (by simp [Effect.ofClaim])
  | some made =>
    rw [Traced, hop] at htraced
    obtain ⟨_, t, heffects⟩ := htraced
    have hforwarded : ∀ e, Effect.event e ∉ t.forwarded self made.user := by
      intro e
      unfold Settlement.forwarded
      split <;> simp
    have hsame : claim = made := by
      simp only [heffects, Settlement.effects, List.mem_cons, List.mem_append, hforwarded,
        List.not_mem_nil, or_false, false_or, Effect.event.injEq, reduceCtorEq,
        Event.asked.injEq, Event.sponsoredPayoutClaimed.injEq] at hasked hannounced
      obtain ⟨hmanager, hrequest⟩ := hasked
      obtain ⟨hcall, huser, -⟩ := hannounced
      cases claim
      cases made
      simp_all [SponsoredClaim.request]
    exact List.mem_filterMap.mpr ⟨i, hi, hsame ▸ hop⟩

/-- The genuine claims stay intact exactly when a claim of their calls is the genuine one. -/
theorem Accounted.intact_iff {s : Storage} (h : Accounted self history s)
    (genuine : Set SponsoredClaim) : ClaimsIntact self genuine history s ↔
      ∀ claim ∈ genuine, ∀ made ∈ claims history, made.callId = claim.callId → made = claim := by
  constructor
  · intro hintact claim hclaim made hmade hcall
    have hprocessed : s.callProcessed claim.callId = true :=
      (h.processed _).mpr (List.mem_map.mpr ⟨made, hmade, hcall⟩)
    have hclaimed := h.claimed (hintact claim hclaim hprocessed)
    exact List.inj_on_of_nodup_map h.once hmade hclaimed hcall
  · intro hgenuine claim hclaim hprocessed
    obtain ⟨made, hmade, hcall⟩ := List.mem_map.mp ((h.processed _).mp hprocessed)
    exact h.settled (hgenuine claim hclaim made hmade hcall ▸ hmade)

/-- What a claim does to the pool. -/
structure PoolKept (env : Env) (claim : SponsoredClaim) (p p' : P) (t : Settlement P) : Prop where
  released : OutcomeManagers.claimPayout env claim.outcomeManager (claim.request env.contract) p =
    some t.asked
  before : Tokens.balance p t.xlmToken env.contract = some t.balanceBefore
  received : Tokens.balance t.asked t.xlmToken env.contract = some (t.balanceBefore + t.payout)
  split : t.cut + t.userAmount = t.payout
  kept : ∃ after, Tokens.balance p' t.xlmToken env.contract = some after ∧ t.balanceBefore ≤ after

theorem pool_kept (hexact : ExactTransfers P) {env : Env}
    (htake : ClaimsTakeNothing P env.contract) (hforeign : env.contract ∉ env.auths)
    {f f' : Frame Storage P Event} (h : run (claimSponsoredPayout claim) env f = .ok ((), f')) :
    ∃ t, f'.effects = t.effects env.contract claim ++ f.effects ∧
      PoolKept env claim f.tokens f'.tokens t := by
  obtain ⟨t, ht⟩ := claim_settles h
  obtain rfl := ht.result
  have hle : t.balanceBefore ≤ t.balanceAfter := htake rfl hforeign ht.asked _ _ _ ht.before ht.after
  have hcut := t.cut_nonneg hle
  have hsplit := t.cut_add_user_amount
  have hafter : t.balanceBefore + t.payout = t.balanceAfter := by
    unfold Settlement.payout
    omega
  refine ⟨t, rfl, ht.asked, ht.before, hafter ▸ ht.after, hsplit, ?_⟩
  have hpaid := ht.paid
  split at hpaid
  · next hpositive =>
    have hleft : Tokens.balance t.paid t.xlmToken env.contract =
        some (t.balanceAfter + transferDelta env.contract claim.user t.userAmount env.contract) := by
      rw [hexact hpaid, ht.after, if_pos rfl]
      rfl
    refine ⟨_, hleft, ?_⟩
    unfold transferDelta
    split_ifs <;> omega
  · rw [hpaid]
    exact ⟨_, ht.after, hle⟩

theorem claim_refused {env : Env} {f : Frame Storage P Event}
    {info : SponsorshipInfo} (hsponsored : f.store.sponsorship claim.user = some info)
    (hactive : info.active = true) (hprocessed : f.store.callProcessed claim.callId = true) :
    run (claimSponsoredPayout claim) env f = .error (.error .callAlreadyProcessed) := by
  simp only [claimSponsoredPayout, activeSponsorship, Contract.bind_assoc, run_getStore_bind,
    hsponsored, Option.filter_some, hactive, if_true, run_unwrap_some]
  exact run_rejectIf_error hprocessed _

/-- The station's books are right in every run, no call is processed twice and no claim lowers the
pool. The genuine claims are intact exactly when every claim of their calls was the genuine one. -/
theorem pool_and_claims_iff (hexact : ExactTransfers P) (htake : ClaimsTakeNothing P self)
    (run : (station self outside).Run history d) (genuine : Set SponsoredClaim) :
    d.store.metrics.netProfitLoss =
        d.store.metrics.totalWinningsCollected - d.store.metrics.totalXlmSpent ∧
      ((claims history).map (·.callId)).Nodup ∧
      (∀ env claim (f : Frame Storage P Event), Admissible self d env →
        Contract.run (claimSponsoredPayout claim) env d.frame = .ok ((), f) →
          ∃ t, f.effects = t.effects self claim ∧ PoolKept env claim d.peers f.tokens t) ∧
      (ClaimsIntact self genuine history d.store ↔
        ∀ claim ∈ genuine, ∀ made ∈ claims history, made.callId = claim.callId →
          made = claim) := by
  have h := accounted_of_run run
  refine ⟨h.net, h.once, ?_, h.intact_iff genuine⟩
  intro env claim f hadmissible hclaim
  obtain rfl := hadmissible.contract
  obtain ⟨t, heffects, hkept⟩ := pool_kept hexact htake hadmissible.foreign hclaim
  exact ⟨t, heffects.trans (List.append_nil _), hkept⟩

end Run

/-- Standard tokens, and the calls whose payout the outcome manager has released. -/
structure ManagedLedger where
  ledger : StandardLedger
  released : List Nat

def home : Address := ⟨300⟩

def managerAddress : Address := ⟨301⟩

def registryAddress : Address := ⟨302⟩

/-- A contract whose `claim_payout` does nothing. -/
def idleContract : Address := ⟨303⟩

def admin : Address := ⟨1⟩

def alice : Address := ⟨2⟩

def xlm : Address := ⟨50⟩

namespace ManagedLedger

instance : Tokens ManagedLedger where
  balance m := Tokens.balance m.ledger
  transfer env token sender recipient amount m :=
    (Tokens.transfer env token sender recipient amount m.ledger).map ({ m with ledger := · })
  mint _ _ _ _ _ := none
  clawback _ _ _ _ _ := none
  deploy _ _ _ _ := none

/-- Release the staker's stake and its part of the losing pool, once for each call. -/
def release (m : ManagedLedger) (request : PayoutRequest) : Option ManagedLedger :=
  if request.callId ∈ m.released then none
  else
    let amount := request.stakerWinningStake +
      request.stakerWinningStake * request.totalLosingStake / request.totalWinningStake
    (Tokens.transfer ⟨request.registry, 0, 0, []⟩ xlm request.registry request.staker amount
      m.ledger).map (⟨·, request.callId :: m.released⟩)

instance : OutcomeManagers ManagedLedger where
  claimPayout _ outcomeManager request m :=
    if outcomeManager = managerAddress then
      if request.registry = registryAddress ∧ request.staker = home then m.release request else none
    else if outcomeManager = idleContract then some m else none

theorem exact_transfers : ExactTransfers ManagedLedger := by
  intro env token sender recipient amount m m' h other who
  simp only [Tokens.transfer, Option.map_eq_some_iff] at h
  obtain ⟨ledger, hledger, rfl⟩ := h
  exact StandardLedger.exact_transfers hledger other who

/-- What a release adds to the station's balance is not negative. -/
theorem release_le {request : PayoutRequest} (hregistry : request.registry = registryAddress)
    (hstaker : request.staker = home) {m m' : ManagedLedger} (h : m.release request = some m')
    (token : Address) : valueAt (m.ledger.holdings token).amounts home ≤
      valueAt (m'.ledger.holdings token).amounts home := by
  simp only [release] at h
  split at h
  · cases h
  · simp only [Option.map_eq_some_iff] at h
    obtain ⟨ledger, htransfer, rfl⟩ := h
    have hamount : 0 ≤ request.stakerWinningStake +
        request.stakerWinningStake * request.totalLosingStake / request.totalWinningStake := by
      simp only [Tokens.transfer] at htransfer
      split at htransfer
      · next hchecks => exact hchecks.1
      · cases htransfer
    have hexact := StandardLedger.exact_transfers htransfer token home
    rw [hregistry, hstaker] at hexact
    simp only [Tokens.balance, Option.map_some, Option.some.injEq, transferDelta, if_true,
      show home ≠ registryAddress by decide, if_false] at hexact
    dsimp only
    split at hexact <;> omega

theorem claims_take_nothing : ClaimsTakeNothing ManagedLedger home := by
  intro env outcomeManager request m m' _ _ h token held held' hheld hheld'
  cases hheld
  cases hheld'
  simp only [OutcomeManagers.claimPayout] at h
  split at h
  · split at h
    · next hgenuine => exact release_le hgenuine.1 hgenuine.2 h token
    · cases h
  · split at h
    · cases h
      exact le_refl _
    · cases h

end ManagedLedger

/-- The administrator is about to fund the station, and the market of call 7 holds the stakes. -/
def freshStation : Deployment Storage ManagedLedger where
  store := Storage.empty
  peers :=
    { ledger := .ofHoldings fun token =>
        if token = xlm then
          (Holdings.empty.set admin 900 (by decide)).set registryAddress 12000 (by decide)
        else .empty
      released := [] }
  timestamp := 0
  sequence := 0

/-- An invocation of the station at a time, with the addresses that authorise it. -/
def at_ (timestamp : Nat) (auths : List Address) (op : StationOp) : Env × StationOp :=
  (⟨home, timestamp, timestamp, auths⟩, op)

/-- The claim of Alice's win on call 7. -/
def aliceClaim : SponsoredClaim := ⟨registryAddress, managerAddress, 7, alice, 2000, 4000, 6000⟩

/-- The administrator funds the station and sponsors Alice for three percent of what she wins. -/
def sponsoring : List (Env × StationOp) :=
  [at_ 1 [admin] (.initializeStation admin xlm), at_ 2 [admin] (.refillGasPool admin 900),
    at_ 3 [admin] (.sponsorTransaction alice 50 300)]

/-- Nothing happens elsewhere. -/
abbrev closed : System (Deployment Storage ManagedLedger) (Happening StationOp Event) :=
  station home fun _ _ => False

/-- Alice's win is claimed. -/
def claimedRun : System.Replayed closed (Deployment.next StationOp.perform home) System.anything :=
  .of freshStation rfl (sponsoring ++ [at_ 4 [] (.claimSponsoredPayout aliceClaim)])
    (by decide +kernel)

/-- A stranger names an idle contract instead of the outcome manager. -/
def hijackedRun : System.Replayed closed (Deployment.next StationOp.perform home) System.anything :=
  .of freshStation rfl (sponsoring ++
    [at_ 4 [] (.claimSponsoredPayout { aliceClaim with outcomeManager := idleContract })])
    (by decide +kernel)

/-- The genuine claim leaves Alice's claim intact. -/
theorem claim_intact_when_genuine :
    ClaimsIntact home {aliceClaim} claimedRun.history claimedRun.state.store := by
  have hclaims : claims claimedRun.history = [aliceClaim] := by decide +kernel
  refine (pool_and_claims_iff ManagedLedger.exact_transfers ManagedLedger.claims_take_nothing
    (claimedRun.run Deployment.next_step System.anything_allowed) {aliceClaim}).2.2.2.mpr ?_
  rintro claim rfl made hmade -
  rw [hclaims] at hmade
  exact List.mem_singleton.mp hmade

/-- After the stranger's transaction Alice has nothing, and her claim of 5000 is refused. -/
theorem idle_contract_blocks_claim : closed.Run hijackedRun.history hijackedRun.state ∧
      hijackedRun.state.store.callProcessed 7 = true ∧
      ¬ SettledFor home hijackedRun.history aliceClaim ∧
      Tokens.balance hijackedRun.state.peers xlm alice = some 0 ∧
      Tokens.balance claimedRun.state.peers xlm alice = some 4850 ∧
      run (claimSponsoredPayout aliceClaim) (at_ 5 [] (.claimSponsoredPayout aliceClaim)).1
        hijackedRun.state.frame = .error (.error .callAlreadyProcessed) := by
  have hclaims : claims hijackedRun.history =
      [{ aliceClaim with outcomeManager := idleContract }] := by decide +kernel
  have hrun : closed.Run hijackedRun.history hijackedRun.state :=
    hijackedRun.run Deployment.next_step System.anything_allowed
  have hprocessed : hijackedRun.state.store.callProcessed 7 = true := by decide +kernel
  have hsponsored : hijackedRun.state.store.sponsorship alice = some ⟨50, 300, 3, true⟩ := by
    decide +kernel
  have hbalance : Tokens.balance hijackedRun.state.peers xlm alice = some 0 := by decide +kernel
  have hwon : Tokens.balance claimedRun.state.peers xlm alice = some 4850 := by decide +kernel
  refine ⟨hrun, hprocessed, fun hsettled => ?_, hbalance, hwon, ?_⟩
  · have hmem := (accounted_of_run hrun).claimed hsettled
    rw [hclaims] at hmem
    exact absurd hmem (by decide)
  · exact claim_refused hsponsored rfl hprocessed

end Backit.GasStation
