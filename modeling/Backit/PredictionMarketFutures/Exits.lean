import Backit.PredictionMarketFutures.Margins

/-!
# Ways out of a position

After its expiry a position leaves the contract through its settlement alone. The settlement is
refused as long as nobody has accepted the position, which nobody can after the expiry, and as long
as nothing is staked on the call, so the margins of such positions cannot be had back.
-/

namespace Backit.PredictionMarketFutures

open Soroban Contract Lib PredictionMarketFactory
open PredictionMarket (Call)

variable {P : Type} [MarketViews P]

/-- Some sequence of invocations of this contract ends with a settlement of the position that pays
out the margins locked for it. -/
def Returnable (self : Address) (d : Deployment Storage P) (id : Nat) (position : FuturesPosition) :
    Prop :=
  ∃ later d' i long short token buyer seller,
    System.Path (futures self nowhere) System.anyStep [] d (.invoked i :: later) d' ∧
      i.op = .settleFutures id ∧
      i.effects = payOutEffects i.env token short seller ++ payOutEffects i.env token long buyer ∧
      buyer + seller = position.locked

/-- A later state of a position: the same bet, and without a counterparty if it had none. -/
structure FuturesPosition.Continues (position later : FuturesPosition) : Prop where
  callId : later.callId = position.callId
  outcome : later.outcome = position.outcome
  strike : later.strikeProbabilityBps = position.strikeProbabilityBps
  expiryTs : later.expiryTs = position.expiryTs
  margin : later.marginRequirement = position.marginRequirement
  unaccepted : position.counterparty = none → later.counterparty = none

theorem FuturesPosition.Continues.refl (position : FuturesPosition) :
    position.Continues position := ⟨rfl, rfl, rfl, rfl, rfl, fun h => h⟩

theorem FuturesPosition.Continues.trans {a b c : FuturesPosition} (h : a.Continues b)
    (h' : b.Continues c) : a.Continues c :=
  ⟨h'.callId.trans h.callId, h'.outcome.trans h.outcome, h'.strike.trans h.strike,
    h'.expiryTs.trans h.expiryTs, h'.margin.trans h.margin,
    fun hnone => h'.unaccepted (h.unaccepted hnone)⟩

section Steps

variable {env : Env} {op : FuturesOp} {s s' : Storage} {p : P}
  {effects : List (Effect Event)} {id : Nat} {position : FuturesPosition}

/-- A transition keeps the bet of an expired position, and nobody accepts it any more. -/
theorem Transition.continues (h : Transition env p op s effects s') (hs : Registered s p)
    (hposition : s.futuresPosition id = some position)
    (hexpired : position.expiryTs ≤ env.timestamp) :
    s'.factory = s.factory ∧
      ∃ later, s'.futuresPosition id = some later ∧ position.Continues later := by
  have hwritten : ∀ {written : Nat} {old new : FuturesPosition},
      s.futuresPosition written = some old → (old.expiryTs ≤ env.timestamp → old.Continues new) →
      ∃ later, Function.update s.futuresPosition written (some new) id = some later ∧
        position.Continues later := by
    intro written old new hold hcontinues
    by_cases hid : id = written
    · subst hid
      obtain rfl : old = position := Option.some.inj (hold.symm.trans hposition)
      exact ⟨new, Function.update_self .., hcontinues hexpired⟩
    · exact ⟨position, (Function.update_of_ne hid ..).trans hposition, .refl position⟩
  cases h with
  | initialized hnone =>
    obtain ⟨factory, -, hfactory, -⟩ := hs.priced id position hposition
    simp [hnone] at hfactory
  | created =>
    refine ⟨rfl, position, ?_, .refl position⟩
    have := hs.numbered id position hposition
    rw [← hposition]
    exact Function.update_of_ne (by simp only [newPosition]; omega) ..
  | accepted _ hstored _ _ hopen =>
    exact ⟨rfl, hwritten hstored fun hexpiry => absurd hopen (by omega)⟩
  | settled hstored => exact ⟨rfl, hwritten hstored fun _ => ⟨rfl, rfl, rfl, rfl, rfl, fun h => h⟩⟩
  | longTransferred hstored =>
    exact ⟨rfl, hwritten hstored fun _ => ⟨rfl, rfl, rfl, rfl, rfl, fun h => h⟩⟩
  | shortTransferred hstored hcounterparty =>
    exact ⟨rfl, hwritten hstored fun _ =>
      ⟨rfl, rfl, rfl, rfl, rfl, fun h => absurd h (by simp [hcounterparty])⟩⟩

end Steps

/-- A later state of the contract around an expired position, reached by this contract alone. -/
structure Later (d d' : Deployment Storage P) (id : Nat) (position : FuturesPosition) : Prop where
  timestamp : d.timestamp ≤ d'.timestamp
  factory : d'.store.factory = d.store.factory
  calls : ∀ factory callId,
    marketCall d'.peers factory callId = marketCall d.peers factory callId
  stored : ∃ later, d'.store.futuresPosition id = some later ∧ position.Continues later

section Runs

variable {self : Address} {d d' : Deployment Storage P} {id : Nat} {position : FuturesPosition}
  {history : List (Happening FuturesOp Event)}

/-- What this contract alone can make of an expired position. -/
theorem later_of_path (hexact : ExactTransfers P) (hcalls : TransfersKeepCalls P)
    (hregistered : Registered d.store d.peers) (hbacked : Backed self d.store d.peers)
    (hposition : d.store.futuresPosition id = some position)
    (hexpired : position.expiryTs ≤ d.timestamp)
    (path : System.Path (futures self nowhere) System.anyStep [] d history d') :
    Registered d'.store d'.peers ∧ Backed self d'.store d'.peers ∧ Later d d' id position := by
  induction path with
  | refl => exact ⟨hregistered, hbacked, le_rfl, rfl, fun _ _ => rfl, position, hposition, .refl _⟩
  | @tail middle current label next _ hstep _ ih =>
    obtain ⟨hreg, hback, hlater⟩ := ih
    cases hstep with
    | elsewhere hout => exact absurd hout (by simp [nowhere])
    | @invoked env op f hadmissible hrun =>
      obtain ⟨later, hstored, hcontinues⟩ := hlater.stored
      obtain ⟨effects, -, hreplay, htransition⟩ := FuturesOp.transitions hreg.margins hrun
      have hself := hadmissible.contract
      have hforeign := hadmissible.foreign
      subst hself
      have hsound := htransition.sound hexact hcalls hreplay hforeign ⟨hreg, hback⟩
      have htime : later.expiryTs ≤ env.timestamp := by
        rw [hcontinues.expiryTs]
        exact hexpired.trans (hlater.timestamp.trans hadmissible.timestamp)
      obtain ⟨hfactory, next, hnext, hcontinues'⟩ := htransition.continues hreg hstored htime
      refine ⟨hsound.1, hsound.2, hlater.timestamp.trans hadmissible.timestamp,
        hfactory.trans hlater.factory, fun factory callId => ?_, next, hnext,
        hcontinues.trans hcontinues'⟩
      exact (Replays.keeps_calls hcalls hreplay htransition.only_transfers factory
        callId).trans (hlater.calls factory callId)

theorem payOut_performs (hexact : ExactTransfers P) (hpay : HoldersPay P) (env : Env)
    (token recipient : Address) {amount held : Int} {p : P}
    (hheld : Tokens.balance p token env.contract = some held) (hle : amount ≤ held)
    (hnonneg : 0 ≤ amount) :
    ∃ p' held', Replays env p (payOutEffects env token recipient amount) p' ∧
      Tokens.balance p' token env.contract = some held' ∧ held - amount ≤ held' := by
  by_cases hpositive : 0 < amount
  · obtain ⟨p', htransfer⟩ := hpay env token recipient amount held p hheld hpositive hle
    rw [payOutEffects, if_pos hpositive]
    refine ⟨p', held + transferDelta env.contract recipient amount env.contract,
      Replays.nil.transfer htransfer, ?_, ?_⟩
    · rw [hexact htransfer, hheld, if_pos rfl]
      rfl
    · unfold transferDelta
      grind
  · rw [payOutEffects, if_neg hpositive]
    exact ⟨p, held, .nil, hheld, by omega⟩

/-- The margins of a position are part of the obligation in its token. -/
theorem Registered.locked_le_obligation {s : Storage} {p : P} {token : Address}
    (h : Registered s p) (hposition : s.futuresPosition id = some position)
    (htoken : s.marginToken p position.callId = some token) :
    position.locked ≤ s.obligation p token := by
  have hnonneg : ∀ other, 0 ≤ s.lockedIn p token other := by
    intro other
    cases hstored : s.futuresPosition other with
    | none => rw [Storage.lockedIn, hstored]
    | some stored =>
      have := h.margins other stored hstored
      rw [lockedIn_some hstored, FuturesPosition.locked]
      split_ifs <;> omega
  have hmem : id ∈ List.range' 1 s.contractCounter := by
    have := h.numbered id position hposition
    rw [List.mem_range'_1]
    omega
  have hmine : s.lockedIn p token id = position.locked := by
    rw [lockedIn_some hposition, if_pos htoken]
  rw [← hmine]
  refine List.single_le_sum (fun x hx => ?_) _ (List.mem_map_of_mem hmem)
  obtain ⟨other, -, rfl⟩ := List.mem_map.mp hx
  exact hnonneg other

/-- An accepted position on a call with stakes is settled at once. -/
theorem settles (hexact : ExactTransfers P) (hpay : HoldersPay P)
    (hregistered : Registered d.store d.peers) (hbacked : Backed self d.store d.peers)
    (hheld : ∀ token, ∃ held, Tokens.balance d.peers token self = some held)
    (hposition : d.store.futuresPosition id = some position) (hsettled : position.isSettled = false)
    (hexpired : position.expiryTs ≤ d.timestamp) {short : Address}
    (hshort : position.counterparty = some short) {call : Call}
    (hcall : d.store.callOf d.peers position.callId = some call) (hstakes : (stakesOf call).sum ≠ 0)
    (hfits : SettlementFits position.marginRequirement call position.outcome
      position.strikeProbabilityBps) : Returnable self d id position := by
  obtain ⟨factory, hfactory, hmarket⟩ := Option.bind_eq_some_iff.mp hcall
  have hmargin := hregistered.margins id position hposition
  have hlocked : position.locked = 2 * position.marginRequirement := by
    simp [FuturesPosition.locked, hsettled, hshort]
  have hsum := split_conserves position.marginRequirement (probabilityBps call position.outcome)
    position.strikeProbabilityBps
  have hbounds := split_bounds hmargin (probabilityBps call position.outcome)
    position.strikeProbabilityBps
  generalize hsplit : split position.marginRequirement (probabilityBps call position.outcome)
    position.strikeProbabilityBps = payouts at hsum hbounds
  obtain ⟨buyer, seller⟩ := payouts
  dsimp only at hsum hbounds
  obtain ⟨held, hbalance⟩ := hheld call.stakeToken
  have hcovered : position.locked ≤ held :=
    (hregistered.locked_le_obligation hposition (marginToken_of hfactory hmarket)).trans
      (hbacked _ _ hbalance)
  let env : Env := ⟨self, d.timestamp, d.sequence, []⟩
  obtain ⟨first, left, hfirst, hleft, hrest⟩ := payOut_performs hexact hpay env call.stakeToken
    position.creator hbalance (show buyer ≤ held by omega) hbounds.1
  obtain ⟨second, -, hsecond, -, -⟩ := payOut_performs hexact hpay env call.stakeToken short hleft
    (show seller ≤ left by omega) hbounds.2.2.1
  have hrun : run (FuturesOp.settleFutures id).perform env d.frame = .ok ((),
      ⟨d.store.closed id position, second, (payOutEffects env call.stakeToken short seller ++
        payOutEffects env call.stakeToken position.creator buyer) ++ []⟩) := by
    refine (run_settleFutures (hregistered.margins id)).mpr
      ⟨position, short, factory, call, hposition, hsettled, hshort, hexpired, hfactory, hmarket,
        hstakes, hfits, _, second, rfl, ?_, ?_⟩
    · rw [hsplit]
      exact hfirst.append hsecond
    · rw [hsplit]
      rfl
  have hadmissible : Admissible self d env := ⟨rfl, by simp [env], le_rfl, le_rfl⟩
  refine ⟨[], _, _, position.creator, short, call.stakeToken, buyer, seller,
    .tail (.refl _ _) (.invoked hadmissible hrun) trivial, rfl, ?_, ?_⟩
  · exact List.append_nil _
  · omega

/-- A position that can be had back was accepted, and its settlement is priced. -/
theorem priced_of_returnable (hexact : ExactTransfers P) (hcalls : TransfersKeepCalls P)
    (hregistered : Registered d.store d.peers) (hbacked : Backed self d.store d.peers)
    (hposition : d.store.futuresPosition id = some position)
    (hexpired : position.expiryTs ≤ d.timestamp) (h : Returnable self d id position) :
    position.counterparty ≠ none ∧
      ∃ call, d.store.callOf d.peers position.callId = some call ∧ (stakesOf call).sum ≠ 0 ∧
        SettlementFits position.marginRequirement call position.outcome
          position.strikeProbabilityBps := by
  obtain ⟨later, d', ⟨env, op, effects⟩, long, short, token, buyer, seller, hpath, rfl, -, -⟩ := h
  cases hpath with
  | tail hprefix hstep _ =>
    obtain ⟨hreg, -, hlater⟩ :=
      later_of_path hexact hcalls hregistered hbacked hposition hexpired hprefix
    cases hstep with
    | invoked _ hrun =>
      obtain ⟨stored, short, factory, call, hstored, -, hshort, -, hfactory, hcall, hsum,
        hfits, -⟩ := (run_settleFutures (hreg.margins id)).mp hrun
      obtain ⟨same, hsame, hcontinues⟩ := hlater.stored
      obtain rfl : same = stored := Option.some.inj (hsame.symm.trans hstored)
      refine ⟨fun hnone => ?_, call, ?_, hsum, ?_⟩
      · simp [hcontinues.unaccepted hnone] at hshort
      · rw [Storage.callOf, ← hlater.factory]
        refine Option.bind_eq_some_iff.mpr ⟨factory, hfactory, ?_⟩
        rw [← hlater.calls, ← hcontinues.callId]
        exact hcall
      · rw [← hcontinues.margin, ← hcontinues.outcome, ← hcontinues.strike]
        exact hfits

/-- An expired position that is not settled can be had back if and only if somebody accepted it,
something is staked on its call, and the settlement's arithmetic stays in range. -/
theorem margin_returnable_iff {outside : P → P → Prop} (hexact : ExactTransfers P)
    (hpay : HoldersPay P) (hcalls : TransfersKeepCalls P)
    (hkeeps : ∀ p p', outside p p' → KeepsTerms p p') (hundrained : Undrained self outside)
    (hheld : ∀ token, ∃ held, Tokens.balance d.peers token self = some held)
    (run : (futures self outside).Run history d)
    (hposition : d.store.futuresPosition id = some position) (hsettled : position.isSettled = false)
    (hexpired : position.expiryTs ≤ d.timestamp) :
    Returnable self d id position ↔ position.counterparty ≠ none ∧
      ∃ call, d.store.callOf d.peers position.callId = some call ∧ (stakesOf call).sum ≠ 0 ∧
        SettlementFits position.marginRequirement call position.outcome
          position.strikeProbabilityBps := by
  obtain ⟨hregistered, hbacked⟩ := registered_and_backed hexact hcalls hkeeps hundrained run
  constructor
  · exact priced_of_returnable hexact hcalls hregistered hbacked hposition hexpired
  · rintro ⟨haccepted, call, hcall, hsum, hfits⟩
    obtain ⟨short, hshort⟩ := Option.ne_none_iff_exists'.mp haccepted
    exact settles hexact hpay hregistered hbacked hheld hposition hsettled hexpired hshort hcall
      hsum hfits

end Runs

/-- The accepted position of Alice and Bob at its expiry. -/
def expiredScript : List (Env × FuturesOp) :=
  acceptedScript ++ [at_ 100 [alice] (.transferLongPosition 1 alice)]

/-- Nobody accepts Alice's position before its expiry. -/
def unacceptedScript : List (Env × FuturesOp) :=
  [at_ 1 [] (.initializeFutures factoryAddress),
    at_ 2 [alice] (.createFuturesContract alice 1 1 5000 100 1000),
    at_ 100 [alice] (.transferLongPosition 1 alice)]

/-- Bob accepts Alice's position on call 2, on which nothing is staked. -/
def unstakedScript : List (Env × FuturesOp) :=
  [at_ 1 [] (.initializeFutures factoryAddress),
    at_ 2 [alice] (.createFuturesContract alice 2 1 5000 100 1000),
    at_ 3 [bob] (.acceptFuturesCounterparty bob 1),
    at_ 100 [alice] (.transferLongPosition 1 alice)]

def expiredRun : System.Replayed alone invoke System.anything :=
  .of freshDeployment fresh_deployment_initial expiredScript (by decide +kernel)

def unacceptedRun : System.Replayed alone invoke System.anything :=
  .of freshDeployment fresh_deployment_initial unacceptedScript (by decide +kernel)

def unstakedRun : System.Replayed alone invoke System.anything :=
  .of freshDeployment fresh_deployment_initial unstakedScript (by decide +kernel)

theorem expired_run : alone.Run expiredRun.history expiredRun.state :=
  expiredRun.run Deployment.next_step System.anything_allowed

theorem unaccepted_run : alone.Run unacceptedRun.history unacceptedRun.state :=
  unacceptedRun.run Deployment.next_step System.anything_allowed

theorem unstaked_run : alone.Run unstakedRun.history unstakedRun.state :=
  unstakedRun.run Deployment.next_step System.anything_allowed

/-- The position that Alice makes on a call, with or without a counterparty. -/
def samplePosition (callId : Nat) (counterparty : Option Address) : FuturesPosition where
  contractId := 1
  creator := alice
  counterparty := counterparty
  callId := callId
  outcome := 1
  strikeProbabilityBps := 5000
  expiryTs := 100
  marginRequirement := 1000
  isSettled := false
  status := if counterparty.isSome then .active else .pending

theorem balance_known (m : MarketLedger) (address token : Address) :
    ∃ held, Tokens.balance m token address = some held := ⟨_, rfl⟩

/-- The settlement of the position on call 1 is in range: the implied probability is 6000. -/
theorem sample_settlement_fits : SettlementFits 1000 (sampleMarketCall 1 600 400) 1 5000 where
  stakes := by decide +kernel
  scaled := by decide +kernel
  quotient := by decide +kernel
  moved _ := by decide +kernel

/-- Alice and Bob can have their margins back. -/
theorem margin_returnable_once_accepted :
    Returnable home expiredRun.state 1 (samplePosition 1 (some bob)) :=
  (margin_returnable_iff MarketLedger.exact_transfers MarketLedger.holders_pay
    MarketLedger.transfers_keep_calls nowhere_keeps (nowhere_undrained home)
    (balance_known _ home) expired_run (by decide +kernel) (by decide) (by decide +kernel)).mpr
    ⟨by decide, sampleMarketCall 1 600 400, rfl, by decide +kernel, sample_settlement_fits⟩

/-- The margins of a position that nobody accepted, and of one on a call without stakes, cannot be
had back. -/
theorem margins_locked_for_good : (alone.Run unacceptedRun.history unacceptedRun.state ∧
      unacceptedRun.state.store.futuresPosition 1 = some (samplePosition 1 none) ∧
      100 ≤ unacceptedRun.state.timestamp ∧ (samplePosition 1 none).locked = 1000 ∧
      ¬ Returnable home unacceptedRun.state 1 (samplePosition 1 none)) ∧
    alone.Run unstakedRun.history unstakedRun.state ∧
      unstakedRun.state.store.futuresPosition 1 = some (samplePosition 2 (some bob)) ∧
      100 ≤ unstakedRun.state.timestamp ∧ (samplePosition 2 (some bob)).locked = 2000 ∧
      ¬ Returnable home unstakedRun.state 1 (samplePosition 2 (some bob)) := by
  refine ⟨⟨unaccepted_run, by decide +kernel, by decide +kernel, by decide, fun h => ?_⟩,
    unstaked_run, by decide +kernel, by decide +kernel, by decide, fun h => ?_⟩
  · obtain ⟨hregistered, hbacked⟩ := registered_and_backed MarketLedger.exact_transfers
      MarketLedger.transfers_keep_calls nowhere_keeps (nowhere_undrained home) unaccepted_run
    exact (priced_of_returnable MarketLedger.exact_transfers MarketLedger.transfers_keep_calls
      hregistered hbacked (by decide +kernel) (by decide +kernel) h).1 rfl
  · obtain ⟨hregistered, hbacked⟩ := registered_and_backed MarketLedger.exact_transfers
      MarketLedger.transfers_keep_calls nowhere_keeps (nowhere_undrained home) unstaked_run
    obtain ⟨-, call, hcall, hstakes, -⟩ := priced_of_returnable MarketLedger.exact_transfers
      MarketLedger.transfers_keep_calls hregistered hbacked (by decide +kernel) (by decide +kernel)
      h
    have hsample : unstakedRun.state.store.callOf unstakedRun.state.peers 2 =
        some (sampleMarketCall 2 0 0) := rfl
    obtain rfl := Option.some.inj (hsample.symm.trans hcall)
    exact hstakes (by decide +kernel)

end Backit.PredictionMarketFutures
