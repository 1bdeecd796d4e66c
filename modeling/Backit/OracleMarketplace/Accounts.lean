import Backit.OracleMarketplace.Marketplace

/-!
# The accounts of the oracle marketplace

The list of oracles, the record of each oracle and its performance are separate entries. In every
run they agree with what was registered and recorded, and each call is resolved and rewarded once.
-/

namespace Backit.OracleMarketplace

open Soroban Contract Lib

section Steps

variable {P : Type} {env : Env} {f f' : Frame Storage P Event}

namespace Storage

variable (s : Storage)

/-- The storage once an oracle is registered. -/
def registered (pubkey : BytesN 32) (oracle : OracleProvider) (ledger : Nat) : Storage :=
  ((s.setOracle pubkey oracle).addToOracleList pubkey).recordHeartbeat pubkey ledger

/-- The storage once an oracle is deregistered. -/
def deregistered (pubkey : BytesN 32) (oracle : OracleProvider) (deregisterAfter : Nat) : Storage :=
  (s.setOracle pubkey
    { oracle with isActive := false, deregisterAfter := some deregisterAfter }).removeFromOracleList
      pubkey

/-- The storage once a resolution is recorded. -/
def credited (pubkey : BytesN 32) (oracle : OracleProvider) (perf : OraclePerformance)
    (callId : Nat) : Storage :=
  ((s.setPerformance pubkey perf).setOracle pubkey
    { oracle with totalResolved := oracle.totalResolved + 1 }).markResolved callId

/-- The administrator authorised the invocation. -/
def Administered (env : Env) : Prop := ∃ config, s.config = some config ∧ config.admin ∈ env.auths

end Storage

/-- The effects of paying a bonus. -/
def bonusEffects (token contract recipient : Address) (bonus : Int) : List (Effect Event) :=
  if 0 < bonus then [.transfer token contract recipient bonus] else []

/-- `MarketplaceStep env f op f'` says what a successful invocation does. -/
inductive MarketplaceStep (env : Env) (f : Frame Storage P Event) :
    MarketplaceOp → Frame Storage P Event → Prop where
  | configured {admin cooldownSecs defaultFeeBps} : f.store.config = none → admin ∈ env.auths →
      MarketplaceStep env f (.initializeMarketplace admin cooldownSecs defaultFeeBps)
        { f with store := f.store.setConfig ⟨admin, cooldownSecs, defaultFeeBps⟩ }
  | registered {provider pubkey feeBps minStake oracle} :
      provider ∈ env.auths → f.store.oracle pubkey = none → oracle.address = provider →
      oracle.isActive = true → oracle.totalResolved = 0 →
      MarketplaceStep env f (.registerOracle provider pubkey feeBps minStake)
        ⟨f.store.registered pubkey oracle env.sequence, f.tokens,
          .event (.oracleRegistered provider pubkey feeBps) :: f.effects⟩
  | deregistered {provider pubkey oracle deregisterAfter} :
      provider ∈ env.auths → f.store.oracle pubkey = some oracle → oracle.isActive = true →
      MarketplaceStep env f (.deregisterOracle provider pubkey)
        ⟨f.store.deregistered pubkey oracle deregisterAfter, f.tokens,
          .event (.oracleDeregistered provider pubkey) :: f.effects⟩
  | selected {callId pubkey oracle} : f.store.oracle pubkey = some oracle → oracle.isActive = true →
      MarketplaceStep env f (.selectOracleForCall callId pubkey)
        ⟨f.store.setCallOracle callId pubkey, f.tokens,
          .event (.oracleSelectedForCall callId pubkey) :: f.effects⟩
  | rated {user pubkey satisfied} : user ∈ env.auths →
      MarketplaceStep env f (.rateOracle user pubkey satisfied)
        ⟨f.store.setOracleRating pubkey user satisfied, f.tokens,
          .event (.oracleRated pubkey user satisfied) :: f.effects⟩
  | lived {provider pubkey oracle} :
      provider ∈ env.auths → f.store.oracle pubkey = some oracle → oracle.address = provider →
      MarketplaceStep env f (.submitHeartbeat provider pubkey)
        ⟨f.store.recordHeartbeat pubkey env.sequence, f.tokens,
          .event (.heartbeat pubkey env.sequence) :: f.effects⟩
  | bonusTokenSet {token} : f.store.Administered env →
      MarketplaceStep env f (.setBonusToken token)
        { f with store := f.store.setBonusToken token }
  | funded {sender amount token peers} : sender ∈ env.auths → 0 < amount →
      MarketplaceStep env f (.fundBonusPool sender amount)
        ⟨f.store, peers, .transfer token sender env.contract amount :: f.effects⟩
  | recorded {pubkey callId marketExpiry submittedAt feeAmount oracle perf token peers bonus} :
      f.store.Administered env → f.store.oracle pubkey = some oracle →
      f.store.callOracle callId = some pubkey → f.store.resolved callId = false → 0 ≤ bonus →
      perf.resolutions = (f.store.performance pubkey).resolutions + 1 →
      perf.bonusPaid = (f.store.performance pubkey).bonusPaid + bonus →
      MarketplaceStep env f
        (.recordResolution pubkey callId marketExpiry submittedAt feeAmount)
        ⟨f.store.credited pubkey oracle perf callId, peers,
          .event (.resolutionRecorded callId pubkey (multiplierBps marketExpiry submittedAt)
            bonus) :: (bonusEffects token env.contract oracle.address bonus ++ f.effects)⟩

theorem run_requireConfig_bind {α : Type} {k : MarketplaceConfig → Marketplace P α} {a : α} :
    run (requireConfig >>= k) env f = .ok (a, f') ↔
      ∃ config, f.store.config = some config ∧ run (k config) env f = .ok (a, f') := by
  simp only [requireConfig, Contract.bind_assoc, run_steps]

theorem run_requireOracle_bind {α : Type} {pubkey : BytesN 32}
    {k : OracleProvider → Marketplace P α} {a : α} :
    run (requireOracle pubkey >>= k) env f = .ok (a, f') ↔
      ∃ oracle, f.store.oracle pubkey = some oracle ∧ run (k oracle) env f = .ok (a, f') := by
  simp only [requireOracle, Contract.bind_assoc, run_steps]

theorem run_credit_bind {α : Type} {perf : OraclePerformance} {multiplier : Nat} {bonus : Int}
    {k : OraclePerformance → Marketplace P α} {a : α}
    (h : run (perf.credit multiplier bonus >>= k) env f = .ok (a, f')) :
    ∃ credited, credited.resolutions = perf.resolutions + 1 ∧
      credited.bonusPaid = perf.bonusPaid + bonus ∧ run (k credited) env f = .ok (a, f') := by
  simp only [OraclePerformance.credit, Contract.bind_assoc, run_steps] at h
  obtain ⟨-, -, -, -, h⟩ := h
  exact ⟨_, rfl, rfl, h⟩

variable [Tokens P]

theorem run_payBonus_bind {α : Type} {oracle : OracleProvider} {bonus : Int}
    {k : Unit → Marketplace P α} {a : α}
    (h : run (payBonus oracle bonus >>= k) env f = .ok (a, f')) :
    ∃ token peers, run (k ()) env ⟨f.store, peers,
      bonusEffects token env.contract oracle.address bonus ++ f.effects⟩ = .ok (a, f') := by
  unfold payBonus at h
  unfold bonusEffects
  split at h
  · next hpositive =>
    simp only [Contract.bind_assoc, run_steps] at h
    obtain ⟨token, -, _, -, -, peers, -, h⟩ := h
    refine ⟨token, peers, ?_⟩
    rw [if_pos hpositive]
    exact h
  · next hnone =>
    rw [run_pure_bind] at h
    refine ⟨env.contract, f.tokens, ?_⟩
    rw [if_neg hnone]
    exact h

theorem record_resolution_steps {pubkey : BytesN 32} {callId marketExpiry submittedAt : Nat}
    {feeAmount bonus : Int}
    (h : run (recordResolution pubkey callId marketExpiry submittedAt feeAmount) env f =
      .ok (bonus, f')) :
    MarketplaceStep env f (.recordResolution pubkey callId marketExpiry submittedAt feeAmount)
      f' := by
  simp only [recordResolution, run_requireConfig_bind, run_steps, run_requireOracle_bind,
    checkedMul, checked_eq_some, not_lt, not_not] at h
  obtain ⟨config, hconfig, hauth, hfee, oracle, horacle, hcall, hpending, _, ⟨-, rfl⟩, h⟩ := h
  obtain ⟨token, peers, h⟩ := run_payBonus_bind h
  rw [run_getStore_bind] at h
  obtain ⟨perf, hresolutions, hpaid, h⟩ := run_credit_bind h
  simp only [run_steps] at h
  obtain ⟨-, -, rfl⟩ := h
  refine .recorded ⟨config, hconfig, hauth⟩ horacle hcall (by simpa using hpending) ?_
    hresolutions hpaid
  exact Int.tdiv_nonneg (mul_nonneg hfee (Int.natCast_nonneg _)) (Int.natCast_nonneg _)

/-- Every successful invocation is one of the listed steps. -/
theorem MarketplaceOp.steps {op : MarketplaceOp}
    (h : run (op.perform : Marketplace P Unit) env f = .ok ((), f')) :
    MarketplaceStep env f op f' := by
  cases op with
  | initializeMarketplace admin cooldownSecs defaultFeeBps =>
    simp only [MarketplaceOp.perform, OracleMarketplace.initializeMarketplace, run_steps] at h
    obtain ⟨hnone, hauth, rfl⟩ := h
    exact .configured (by simpa using hnone) hauth
  | registerOracle provider pubkey feeBps minStake =>
    simp only [MarketplaceOp.perform, OracleMarketplace.registerOracle, run_steps] at h
    obtain ⟨hauth, hnone, -, rfl⟩ := h
    exact .registered hauth (by simpa using hnone) rfl rfl rfl
  | deregisterOracle provider pubkey =>
    simp only [MarketplaceOp.perform, OracleMarketplace.deregisterOracle, run_steps,
      run_requireConfig_bind, run_requireOracle_bind] at h
    obtain ⟨hauth, _, -, oracle, horacle, hactive, -, -, rfl⟩ := h
    exact .deregistered hauth horacle (by simpa using hactive)
  | selectOracleForCall callId pubkey =>
    simp only [MarketplaceOp.perform, OracleMarketplace.selectOracleForCall,
      run_requireOracle_bind, run_steps] at h
    obtain ⟨oracle, horacle, hactive, -, rfl⟩ := h
    exact .selected horacle (by simpa using hactive)
  | rateOracle user pubkey satisfied =>
    simp only [MarketplaceOp.perform, OracleMarketplace.rateOracle, run_steps,
      run_requireOracle_bind] at h
    obtain ⟨hauth, _, -, -, rfl⟩ := h
    exact .rated hauth
  | submitHeartbeat provider pubkey =>
    simp only [MarketplaceOp.perform, OracleMarketplace.submitHeartbeat, run_steps,
      run_requireOracle_bind, not_not] at h
    obtain ⟨hauth, oracle, horacle, howner, rfl⟩ := h
    exact .lived hauth horacle howner
  | setBonusToken token =>
    simp only [MarketplaceOp.perform, OracleMarketplace.setBonusToken, run_requireConfig_bind,
      run_steps] at h
    obtain ⟨config, hconfig, hauth, rfl⟩ := h
    exact .bonusTokenSet ⟨config, hconfig, hauth⟩
  | fundBonusPool sender amount =>
    simp only [MarketplaceOp.perform, OracleMarketplace.fundBonusPool, run_steps,
      run_tokenTransfer, not_le] at h
    obtain ⟨hauth, hamount, token, -, peers, -, rfl⟩ := h
    exact .funded hauth hamount
  | recordResolution pubkey callId marketExpiry submittedAt feeAmount =>
    obtain ⟨_, h⟩ := run_ignore.mp h
    exact record_resolution_steps h

end Steps

/-- An oracle is stored under a key and active. -/
def Storage.Active (s : Storage) (pubkey : BytesN 32) : Prop :=
  ∃ oracle, s.oracle pubkey = some oracle ∧ oracle.isActive = true

section History

/-- A recorded resolution, with the effects of recording it. -/
structure Resolution where
  pubkey : BytesN 32
  callId : Nat
  effects : List (Effect Event)

/-- The resolution that an invocation records, if it records one. -/
def resolutionOf (i : Invocation MarketplaceOp Event) : Option Resolution :=
  match i.op with
  | .recordResolution pubkey callId _ _ _ => some ⟨pubkey, callId, i.effects⟩
  | _ => none

/-- The resolutions recorded in a history. -/
def resolutions (history : List (Happening MarketplaceOp Event)) : List Resolution :=
  (invocations history).filterMap resolutionOf

/-- The resolutions recorded for an oracle. -/
def resolutionsBy (history : List (Happening MarketplaceOp Event)) (pubkey : BytesN 32) :
    List Resolution :=
  (resolutions history).filter (·.pubkey = pubkey)

/-- What recording some resolutions transferred to an address. -/
def transferredTo (who : Address) (recorded : List Resolution) : Int :=
  (recorded.map fun r => effectTotal (Effect.paidTo who) r.effects).sum

/-- The effect pays out tokens of an address. -/
def paysOut (who : Address) : Effect Event → Bool
  | .transfer _ sender _ _ => sender = who
  | _ => false

/-- An oracle was registered under a key by a provider. -/
def RegisteredBy (history : List (Happening MarketplaceOp Event)) (pubkey : BytesN 32)
    (provider : Address) : Prop :=
  ∃ i ∈ invocations history, ∃ feeBps minStake,
    i.op = .registerOracle provider pubkey feeBps minStake

variable {history : List (Happening MarketplaceOp Event)} {i : Invocation MarketplaceOp Event}
  {pubkey : BytesN 32} {provider : Address} {r : Resolution}

theorem registered_by_cons : RegisteredBy (.invoked i :: history) pubkey provider ↔
    (∃ feeBps minStake, i.op = .registerOracle provider pubkey feeBps minStake) ∨
      RegisteredBy history pubkey provider := by
  simp [RegisteredBy]

theorem resolutions_of_some (h : resolutionOf i = some r) :
    resolutions (.invoked i :: history) = r :: resolutions history := by
  simp [resolutions, h]

theorem resolutions_of_none (h : resolutionOf i = none) :
    resolutions (.invoked i :: history) = resolutions history := by
  simp [resolutions, h]

end History

/-- The records of the marketplace at an address agree with its history. -/
structure Accounted (contract : Address) (history : List (Happening MarketplaceOp Event))
    (s : Storage) : Prop where
  nodup : s.oracleList.Nodup
  listed : ∀ pubkey, pubkey ∈ s.oracleList ↔ s.Active pubkey
  registered : ∀ pubkey provider, RegisteredBy history pubkey provider ↔
    ∃ oracle, s.oracle pubkey = some oracle ∧ oracle.address = provider
  once : ((resolutions history).map Resolution.callId).Nodup
  resolved : ∀ callId, s.resolved callId = true ↔
    callId ∈ (resolutions history).map Resolution.callId
  rewarded : ∀ i ∈ invocations history,
    (i.effects.filter (paysOut contract)).length ≤ (resolutionOf i).toList.length
  counted : ∀ pubkey, (s.performance pubkey).resolutions = (resolutionsBy history pubkey).length
  totals : ∀ pubkey oracle, s.oracle pubkey = some oracle →
    oracle.totalResolved = (s.performance pubkey).resolutions ∧
      (s.performance pubkey).bonusPaid =
        transferredTo oracle.address (resolutionsBy history pubkey)
  unregistered : ∀ pubkey, s.oracle pubkey = none → (s.performance pubkey).bonusPaid = 0 ∧
    resolutionsBy history pubkey = []

namespace Accounted

variable {self : Address} {history : List (Happening MarketplaceOp Event)} {s s' : Storage}
  {i : Invocation MarketplaceOp Event} {pubkey : BytesN 32} {oracle : OracleProvider}

theorem empty : Accounted self [] Storage.empty where
  nodup := .nil
  listed := by simp [Storage.Active, Storage.empty]
  registered := by simp [RegisteredBy, Storage.empty]
  once := .nil
  resolved := by simp [resolutions, Storage.empty]
  rewarded := by simp
  counted _ := rfl
  totals _ _ h := by cases h
  unregistered _ _ := ⟨rfl, rfl⟩

/-- An invocation that registers no oracle, records no resolution and pays nothing. -/
theorem quiet (h : Accounted self history s) (hresolution : resolutionOf i = none)
    (hregisters : ∀ provider pubkey feeBps minStake,
      i.op ≠ .registerOracle provider pubkey feeBps minStake)
    (hpays : i.effects.filter (paysOut self) = []) :
    Accounted self (.invoked i :: history) s where
  nodup := h.nodup
  listed := h.listed
  registered pubkey provider := by
    rw [registered_by_cons, ← h.registered]
    constructor
    · rintro (⟨feeBps, minStake, hop⟩ | hbefore)
      · exact absurd hop (hregisters _ _ _ _)
      · exact hbefore
    · exact .inr
  once := by
    rw [resolutions_of_none hresolution]
    exact h.once
  resolved := by
    rw [resolutions_of_none hresolution]
    exact h.resolved
  rewarded := by
    rw [invocations_invoked, List.forall_mem_cons, hpays]
    exact ⟨Nat.zero_le _, h.rewarded⟩
  counted := by
    unfold resolutionsBy
    rw [resolutions_of_none hresolution]
    exact h.counted
  totals := by
    unfold resolutionsBy
    rw [resolutions_of_none hresolution]
    exact h.totals
  unregistered := by
    unfold resolutionsBy
    rw [resolutions_of_none hresolution]
    exact h.unregistered

theorem elsewhere (h : Accounted self history s) : Accounted self (.elsewhere :: history) s :=
  ⟨h.nodup, h.listed, h.registered, h.once, h.resolved, h.rewarded, h.counted, h.totals,
    h.unregistered⟩

theorem of_same (h : Accounted self history s) (horacle : s'.oracle = s.oracle)
    (hlist : s'.oracleList = s.oracleList) (hperformance : s'.performance = s.performance)
    (hresolved : s'.resolved = s.resolved) : Accounted self history s' where
  nodup := hlist ▸ h.nodup
  listed := by
    unfold Storage.Active
    rw [hlist, horacle]
    exact h.listed
  registered := by
    rw [horacle]
    exact h.registered
  once := h.once
  resolved := hresolved ▸ h.resolved
  rewarded := h.rewarded
  counted := hperformance ▸ h.counted
  totals := by
    rw [horacle, hperformance]
    exact h.totals
  unregistered := by
    rw [horacle, hperformance]
    exact h.unregistered

/-- An active oracle is deactivated and taken off the list. -/
theorem deregistered (h : Accounted self history s) (horacle : s.oracle pubkey = some oracle)
    (deregisterAfter : Nat) :
    Accounted self history (s.deregistered pubkey oracle deregisterAfter) where
  nodup := h.nodup.filter _
  listed key := by
    show key ∈ s.oracleList.filter (· ≠ pubkey) ↔ ∃ stored,
      Function.update s.oracle pubkey (some _) key = some stored ∧ stored.isActive = true
    rw [List.mem_filter, h.listed, Function.update_apply]
    split
    · next hkey => simp [hkey]
    · next hkey => simp [hkey, Storage.Active]
  registered key provider := by
    rw [h.registered]
    show _ ↔ ∃ stored, Function.update s.oracle pubkey (some _) key = some stored ∧ _
    rw [Function.update_apply]
    split
    · next hkey =>
      subst hkey
      simp [horacle]
    · rfl
  once := h.once
  resolved := h.resolved
  rewarded := h.rewarded
  counted := h.counted
  totals key stored hstored := by
    replace hstored : Function.update s.oracle pubkey (some _) key = some stored := hstored
    rw [Function.update_apply] at hstored
    split at hstored
    · next hkey =>
      subst hkey
      cases hstored
      exact h.totals key oracle horacle
    · exact h.totals key stored hstored
  unregistered key hkey := by
    replace hkey : Function.update s.oracle pubkey (some _) key = none := hkey
    rw [Function.update_apply] at hkey
    split at hkey
    · cases hkey
    · exact h.unregistered key hkey

theorem register (h : Accounted self history s) (hfree : s.oracle pubkey = none)
    {feeBps : Nat} {minStake : Int}
    (hop : i.op = .registerOracle oracle.address pubkey feeBps minStake)
    (hpays : i.effects.filter (paysOut self) = []) (hactive : oracle.isActive = true)
    (hresolved : oracle.totalResolved = 0) (ledger : Nat) :
    Accounted self (.invoked i :: history) (s.registered pubkey oracle ledger) := by
  have hunlisted : pubkey ∉ s.oracleList := fun hlisted => by
    obtain ⟨_, hstored, -⟩ := (h.listed pubkey).mp hlisted
    rw [hfree] at hstored
    cases hstored
  have hresult : s.registered pubkey oracle ledger =
      { s with
        oracle := Function.update s.oracle pubkey (some oracle)
        oracleList := s.oracleList ++ [pubkey]
        heartbeat := Function.update s.heartbeat pubkey (some ledger) } := by
    have hcontains : ¬ s.oracleList.contains pubkey = true := by rwa [List.contains_iff_mem]
    show (if s.oracleList.contains pubkey then _ else _ : Storage).recordHeartbeat pubkey ledger = _
    rw [if_neg hcontains]
    rfl
  have hlist : (s.registered pubkey oracle ledger).oracleList = s.oracleList ++ [pubkey] := by
    rw [hresult]
  have horacle : (s.registered pubkey oracle ledger).oracle =
      Function.update s.oracle pubkey (some oracle) := by
    rw [hresult]
  have hperformance : (s.registered pubkey oracle ledger).performance = s.performance := by
    rw [hresult]
  have hmarks : (s.registered pubkey oracle ledger).resolved = s.resolved := by rw [hresult]
  have hresolution : resolutionOf i = none := by
    unfold resolutionOf
    rw [hop]
  have hhistory : ∀ key, resolutionsBy (.invoked i :: history) key = resolutionsBy history key :=
    fun key => by rw [resolutionsBy, resolutions_of_none hresolution, resolutionsBy]
  refine ⟨?_, fun key => ?_, fun key provider => ?_, ?_, ?_, ?_, ?_, fun key stored hstored => ?_,
    fun key hkey => ?_⟩
  · rw [hlist]
    exact h.nodup.append (List.nodup_singleton _) (by simpa using hunlisted)
  · unfold Storage.Active
    rw [hlist, horacle, List.mem_append, List.mem_singleton, h.listed, Function.update_apply]
    by_cases hkey : key = pubkey
    · simp [hkey, hactive]
    · simp [hkey, Storage.Active]
  · rw [registered_by_cons, h.registered, horacle, hop, Function.update_apply]
    by_cases hkey : key = pubkey
    · subst hkey
      simp [hfree]
    · simp [hkey, Ne.symm hkey]
  · rw [resolutions_of_none hresolution]
    exact h.once
  · rw [resolutions_of_none hresolution, hmarks]
    exact h.resolved
  · rw [invocations_invoked, List.forall_mem_cons, hpays]
    exact ⟨Nat.zero_le _, h.rewarded⟩
  · intro key
    rw [hperformance, hhistory]
    exact h.counted key
  · rw [horacle, Function.update_apply] at hstored
    rw [hperformance, hhistory]
    split at hstored
    · next hkey =>
      subst hkey
      cases hstored
      obtain ⟨hpaid, hnone⟩ := h.unregistered key hfree
      rw [h.counted, hnone, hpaid, hresolved]
      exact ⟨rfl, rfl⟩
    · exact h.totals key stored hstored
  · rw [horacle, Function.update_apply] at hkey
    rw [hperformance, hhistory]
    split at hkey
    · cases hkey
    · exact h.unregistered key hkey

theorem effect_total_bonus (token contract recipient : Address) {bonus : Int} (h : 0 ≤ bonus) :
    effectTotal (Effect.paidTo recipient) (bonusEffects token contract recipient bonus) =
      bonus := by
  unfold bonusEffects
  split
  · simp [Effect.paidTo]
  · show (0 : Int) = bonus
    omega

theorem bonus_effects_length (token contract recipient : Address) (bonus : Int) :
    (bonusEffects token contract recipient bonus).length ≤ 1 := by
  unfold bonusEffects
  split <;> simp

theorem record (h : Accounted self history s) (horacle : s.oracle pubkey = some oracle)
    {callId : Nat} (hpending : s.resolved callId = false) {perf : OraclePerformance} {bonus : Int}
    (hresolutions : perf.resolutions = (s.performance pubkey).resolutions + 1)
    (hpaid : perf.bonusPaid = (s.performance pubkey).bonusPaid + bonus)
    {effects : List (Effect Event)} (hresolution : resolutionOf i = some ⟨pubkey, callId, effects⟩)
    (hpays : (i.effects.filter (paysOut self)).length ≤ 1)
    (htotal : effectTotal (Effect.paidTo oracle.address) effects = bonus) :
    Accounted self (.invoked i :: history) (s.credited pubkey oracle perf callId) := by
  have hhistory : ∀ key, resolutionsBy (.invoked i :: history) key =
      if pubkey = key then ⟨pubkey, callId, effects⟩ :: resolutionsBy history key
      else resolutionsBy history key := fun key => by
    rw [resolutionsBy, resolutions_of_some hresolution, List.filter_cons]
    simp only [decide_eq_true_eq, resolutionsBy]
  have hstored : (s.credited pubkey oracle perf callId).oracle = Function.update s.oracle pubkey
      (some { oracle with totalResolved := oracle.totalResolved + 1 }) := rfl
  have hperformance : (s.credited pubkey oracle perf callId).performance =
      Function.update s.performance pubkey perf := rfl
  have hunmarked : callId ∉ (resolutions history).map Resolution.callId := fun hmarked => by
    rw [(h.resolved callId).mpr hmarked] at hpending
    cases hpending
  refine ⟨h.nodup, fun key => ?_, fun key provider => ?_, ?_, fun call => ?_, ?_, fun key => ?_,
    fun key stored hkey => ?_, fun key hkey => ?_⟩
  · show key ∈ s.oracleList ↔ _
    unfold Storage.Active
    rw [h.listed, hstored, Function.update_apply]
    split
    · next hkey => simp [hkey, horacle, Storage.Active]
    · rfl
  · have hkept : RegisteredBy (.invoked i :: history) key provider ↔
        RegisteredBy history key provider := by
      rw [registered_by_cons]
      refine or_iff_right fun ⟨feeBps, minStake, hop⟩ => ?_
      rw [resolutionOf, hop] at hresolution
      cases hresolution
    rw [hkept, h.registered, hstored, Function.update_apply]
    split
    · next hkey => simp [hkey, horacle]
    · rfl
  · rw [resolutions_of_some hresolution, List.map_cons]
    exact List.nodup_cons.mpr ⟨hunmarked, h.once⟩
  · rw [resolutions_of_some hresolution, List.map_cons, List.mem_cons]
    show Function.update s.resolved callId true call = true ↔ _
    rw [Function.update_apply]
    split
    · next hcall => simp [hcall]
    · next hcall => simp [hcall, h.resolved]
  · rw [invocations_invoked, List.forall_mem_cons, hresolution]
    exact ⟨hpays, h.rewarded⟩
  · rw [hhistory, hperformance, Function.update_apply]
    by_cases hkey : key = pubkey
    · rw [if_pos hkey, if_pos hkey.symm, List.length_cons, hresolutions, hkey, h.counted]
    · rw [if_neg hkey, if_neg (Ne.symm hkey)]
      exact h.counted key
  · rw [hstored, Function.update_apply] at hkey
    rw [hhistory, hperformance, Function.update_apply]
    split at hkey
    · next hsame =>
      cases hkey
      obtain ⟨hcount, hbefore⟩ := h.totals pubkey oracle horacle
      rw [if_pos hsame, if_pos hsame.symm, hresolutions, hpaid, hbefore, hcount, hsame]
      refine ⟨rfl, ?_⟩
      show _ = effectTotal (Effect.paidTo oracle.address) effects + transferredTo _ _
      rw [htotal]
      exact add_comm _ _
    · next hother =>
      rw [if_neg hother, if_neg (Ne.symm hother)]
      exact h.totals key stored hkey
  · rw [hstored, Function.update_apply] at hkey
    rw [hhistory, hperformance, Function.update_apply]
    split at hkey
    · cases hkey
    · next hother =>
      rw [if_neg hother, if_neg (Ne.symm hother)]
      exact h.unregistered key hkey

variable {P : Type} {env : Env} {f f' : Frame Storage P Event} {op : MarketplaceOp}

theorem step (h : Accounted self history f.store)
    (hforeign : self ∉ env.auths) (hfirst : f.effects = []) (hstep : MarketplaceStep env f op f') :
    Accounted self (.invoked ⟨env, op, f'.effects⟩ :: history) f'.store := by
  cases hstep with
  | configured =>
    refine (h.quiet rfl (fun _ _ _ _ hop => by cases hop) ?_).of_same rfl rfl rfl rfl
    simp [hfirst]
  | registered _ hfree howner hactive hresolved =>
    subst howner
    refine h.register hfree rfl ?_ hactive hresolved _
    simp [hfirst, paysOut]
  | deregistered _ horacle _ =>
    refine (h.quiet rfl (fun _ _ _ _ hop => by cases hop) ?_).deregistered horacle _
    simp [hfirst, paysOut]
  | selected =>
    refine (h.quiet rfl (fun _ _ _ _ hop => by cases hop) ?_).of_same rfl rfl rfl rfl
    simp [hfirst, paysOut]
  | rated =>
    refine (h.quiet rfl (fun _ _ _ _ hop => by cases hop) ?_).of_same rfl rfl rfl rfl
    simp [hfirst, paysOut]
  | lived =>
    refine (h.quiet rfl (fun _ _ _ _ hop => by cases hop) ?_).of_same rfl rfl rfl rfl
    simp [hfirst, paysOut]
  | bonusTokenSet =>
    refine (h.quiet rfl (fun _ _ _ _ hop => by cases hop) ?_).of_same rfl rfl rfl rfl
    simp [hfirst]
  | @funded sender amount token peers hauth =>
    refine h.quiet rfl (fun _ _ _ _ hop => by cases hop) ?_
    have hother : sender ≠ self := fun heq => hforeign (heq ▸ hauth)
    simp [hfirst, paysOut, hother]
  | @recorded pubkey callId _ _ _ oracle perf token peers bonus _ horacle _ hpending hnonneg
      hresolutions hpaid =>
    refine h.record horacle hpending hresolutions hpaid rfl ?_ ?_
    · rw [hfirst, List.append_nil, List.filter_cons_of_neg (by simp [paysOut])]
      exact (List.length_filter_le _ _).trans (bonus_effects_length _ _ _ _)
    · rw [hfirst, List.append_nil, effectTotal_cons, effect_total_bonus _ _ _ hnonneg]
      exact zero_add _

end Accounted

section Run

variable {P : Type} [Tokens P] {self : Address} {outside : P → P → Prop}

/-- The executions of the marketplace. -/
def marketplace (self : Address) (outside : P → P → Prop) :
    System (Deployment Storage P) (Happening MarketplaceOp Event) :=
  contractSystem MarketplaceOp.perform self outside fun d => d.store = Storage.empty

variable {history : List (Happening MarketplaceOp Event)} {d : Deployment Storage P}

theorem accounted_of_run
    {guard : System.Guard (Deployment Storage P) (Happening MarketplaceOp Event)}
    (run : (marketplace self outside).RunWhere guard history d) :
    Accounted self history d.store := by
  refine contract_invariant (I := fun history d => Accounted self history d.store) ?_ ?_ ?_ run
  · intro d hd
    rw [show d.store = Storage.empty from hd]
    exact .empty
  · intro h d env op f _ ih hadmissible hrun _
    exact ih.step hadmissible.foreign rfl (MarketplaceOp.steps hrun)
  · exact fun _ _ _ _ ih _ => ih.elsewhere

end Run

end Backit.OracleMarketplace
