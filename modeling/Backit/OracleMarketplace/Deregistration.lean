import Backit.OracleMarketplace.Accounts

/-!
# Who deregisters an oracle

A deregistration must be authorised by the provider that its caller names, and nothing compares that
provider with the one that registered the oracle. Oracles are deactivated with authority as long as
every deregistration names the oracle's provider or the administrator.
-/

namespace Backit.OracleMarketplace

open Soroban Contract Lib

/-- A deregistration names the provider of the oracle, or the administrator. -/
def Storage.OwnDeregistration (s : Storage) : MarketplaceOp → Prop
  | .deregisterOracle provider pubkey =>
    (∀ oracle ∈ s.oracle pubkey, provider = oracle.address) ∨
      ∃ config ∈ s.config, provider = config.admin
  | _ => True

/-- An active oracle is no longer active. -/
def Deactivated (s s' : Storage) (pubkey : BytesN 32) : Prop := s.Active pubkey ∧ ¬ s'.Active pubkey

section Steps

variable {P : Type} {env : Env} {f f' : Frame Storage P Event} {op : MarketplaceOp}
  {pubkey : BytesN 32}

theorem active_update {s s' : Storage} {key : BytesN 32} {oracle : OracleProvider}
    (h : s'.oracle = Function.update s.oracle key (some oracle)) (hactive : oracle.isActive = true)
    (hbefore : s.Active pubkey) : s'.Active pubkey := by
  unfold Storage.Active
  rw [h, Function.update_apply]
  split
  · exact ⟨oracle, rfl, hactive⟩
  · exact hbefore

theorem Storage.registered_oracle (s : Storage) (key : BytesN 32) (oracle : OracleProvider)
    (ledger : Nat) :
    (s.registered key oracle ledger).oracle = Function.update s.oracle key (some oracle) := by
  unfold registered addToOracleList
  split <;> rfl

/-- Only a deregistration deactivates, and it is authorised by the provider it names. -/
theorem MarketplaceStep.deactivates (h : MarketplaceStep env f op f')
    (hdeactivated : Deactivated f.store f'.store pubkey) :
    ∃ provider oracle, op = .deregisterOracle provider pubkey ∧ provider ∈ env.auths ∧
      f.store.oracle pubkey = some oracle := by
  obtain ⟨hbefore, hafter⟩ := hdeactivated
  cases h with
  | registered _ _ _ hactive _ =>
    exact absurd (active_update (Storage.registered_oracle _ _ _ _) hactive hbefore) hafter
  | @deregistered provider key oracle deregisterAfter hauth horacle =>
    by_cases hkey : pubkey = key
    · subst hkey
      exact ⟨provider, oracle, rfl, hauth, horacle⟩
    · refine absurd ?_ hafter
      show ∃ stored, Function.update f.store.oracle key (some _) pubkey = some stored ∧ _
      rw [Function.update_of_ne hkey]
      exact hbefore
  | @recorded key _ _ _ _ oracle perf token peers bonus _ horacle =>
    refine absurd ?_ hafter
    show ∃ stored, Function.update f.store.oracle key (some _) pubkey = some stored ∧ _
    rw [Function.update_apply]
    split
    · next hkey =>
      obtain ⟨stored, hstored, hactive⟩ := hbefore
      rw [hkey, horacle, Option.some.injEq] at hstored
      subst hstored
      exact ⟨_, rfl, hactive⟩
    · exact hbefore
  | configured => exact absurd hbefore hafter
  | selected => exact absurd hbefore hafter
  | rated => exact absurd hbefore hafter
  | lived => exact absurd hbefore hafter
  | bonusTokenSet => exact absurd hbefore hafter
  | funded => exact absurd hbefore hafter

theorem MarketplaceStep.deregisters {provider : Address}
    (h : MarketplaceStep env f (.deregisterOracle provider pubkey) f') :
    f'.store.config = f.store.config ∧ Deactivated f.store f'.store pubkey := by
  cases h with
  | deregistered _ horacle hactive =>
    refine ⟨rfl, ⟨_, horacle, hactive⟩, ?_⟩
    rintro ⟨stored, hstored, hstill⟩
    replace hstored : Function.update f.store.oracle pubkey (some _) pubkey = some stored := hstored
    rw [Function.update_self] at hstored
    cases hstored
    cases hstill

end Steps

section Run

variable {P : Type} [Tokens P] {self : Address} {outside : P → P → Prop}

/-- The guard of the runs in which every deregistration names the oracle's provider or the
administrator. -/
def ownDeregistrations : System.Guard (Deployment Storage P) (Happening MarketplaceOp Event) :=
  fun _ d l => ∀ i, l.invocation = some i → d.store.OwnDeregistration i.op

/-- Every step of a run that deactivates an oracle is an invocation that the provider who registered
the oracle has authorised, or the administrator. -/
def DeactivationsAuthorised (self : Address) (outside : P → P → Prop)
    (guard : System.Guard (Deployment Storage P) (Happening MarketplaceOp Event))
    (history : List (Happening MarketplaceOp Event)) (d : Deployment Storage P) : Prop :=
  ∀ l before after pubkey provider,
    System.Took (marketplace self outside) guard history d l before →
    (marketplace self outside).step before l after →
    Deactivated before.store after.store pubkey → RegisteredBy history pubkey provider →
    ∃ i, l = .invoked i ∧ (provider ∈ i.env.auths ∨ before.store.Administered i.env)

variable {history : List (Happening MarketplaceOp Event)} {d : Deployment Storage P}
  {guard : System.Guard (Deployment Storage P) (Happening MarketplaceOp Event)}

/-- The provider that registered an oracle is the one stored with it at any earlier state of the
run. -/
theorem registered_provider (run : (marketplace self outside).RunWhere guard history d)
    {l : Happening MarketplaceOp Event} {before : Deployment Storage P}
    (htook : System.Took (marketplace self outside) guard history d l before) {pubkey : BytesN 32}
    {provider : Address} {oracle : OracleProvider}
    (hregistered : RegisteredBy history pubkey provider)
    (horacle : before.store.oracle pubkey = some oracle) : oracle.address = provider := by
  obtain ⟨older, _, hrun, -, -, hpath⟩ := htook
  have hnow := (accounted_of_run run).registered
  obtain ⟨i, hi, feeBps, minStake, hop⟩ :=
    ((accounted_of_run hrun).registered pubkey oracle.address).mpr ⟨oracle, horacle, rfl⟩
  have holder : older ⊆ history := fun l hl => hpath.suffix.subset (.tail _ hl)
  have hfirst : RegisteredBy history pubkey oracle.address :=
    ⟨i, List.filterMap_subset _ holder hi, feeBps, minStake, hop⟩
  obtain ⟨stored, hstored, haddress⟩ := (hnow pubkey oracle.address).mp hfirst
  obtain ⟨stored', hstored', hprovider⟩ := (hnow pubkey provider).mp hregistered
  rw [hstored, Option.some.injEq] at hstored'
  rw [← haddress, hstored', hprovider]

/-- The records are right in every run, each call is resolved and rewarded once, and oracles are
deactivated with authority when every deregistration names the oracle's provider or the
administrator. -/
theorem marketplace_sound
    (run : (marketplace self outside).RunWhere ownDeregistrations history d) :
    DeactivationsAuthorised self outside ownDeregistrations history d ∧
      Accounted self history d.store := by
  refine ⟨?_, accounted_of_run run⟩
  intro l before after pubkey provider htook hstep hdeactivated hregistered
  cases hstep with
  | invoked _ hrun =>
    refine ⟨_, rfl, ?_⟩
    obtain ⟨named, oracle, rfl, hauth, horacle⟩ :=
      (MarketplaceOp.steps hrun).deactivates hdeactivated
    have hprovider := registered_provider run htook hregistered horacle
    obtain ⟨_, _, -, -, hguard, -⟩ := htook
    obtain howner | ⟨config, hconfig, hadmin⟩ := hguard _ rfl
    · rw [← hprovider, ← howner oracle horacle]
      exact .inl hauth
    · exact .inr ⟨config, hconfig, hadmin ▸ hauth⟩
  | elsewhere => exact absurd hdeactivated.1 hdeactivated.2

/-- The last step of a run that ends with an invocation. -/
theorem last_invocation (run : (marketplace self outside).RunWhere guard history d)
    {i : Invocation MarketplaceOp Event}
    (hlast : history.head?.bind Happening.invocation = some i) :
    ∃ before, System.Took (marketplace self outside) guard history d (.invoked i) before ∧
      (marketplace self outside).step before (.invoked i) d := by
  cases history with
  | nil => cases hlast
  | cons l older =>
    obtain ⟨before, hrun, hstep, hguard⟩ := run.last
    cases l with
    | invoked j =>
      cases hlast
      exact ⟨before, hrun.took hstep hguard, hstep⟩
    | elsewhere => cases hlast

theorem deregistration_step {env : Env} {provider : Address} {pubkey : BytesN 32}
    {effects : List (Effect Event)} {before after : Deployment Storage P}
    (h : (marketplace self outside).step before
      (.invoked ⟨env, .deregisterOracle provider pubkey, effects⟩) after) :
    after.store.config = before.store.config ∧ Deactivated before.store after.store pubkey := by
  cases h with
  | invoked _ hrun => exact (MarketplaceOp.steps hrun).deregisters

end Run

def home : Address := ⟨920⟩

def admin : Address := ⟨1⟩

def alice : Address := ⟨2⟩

def mallory : Address := ⟨3⟩

def usdc : Address := ⟨50⟩

/-- The key of Alice's oracle. -/
def aliceKey : BytesN 32 := ⟨List.replicate 32 9, List.length_replicate⟩

/-- An invocation of the marketplace at a time, with the addresses that authorise it. -/
def at_ (timestamp : Nat) (auths : List Address) (op : MarketplaceOp) : Env × MarketplaceOp :=
  (⟨home, timestamp, timestamp, auths⟩, op)

/-- The administrator is about to fund the pool. -/
def freshMarketplace : Deployment Storage StandardLedger where
  store := Storage.empty
  peers := .ofHoldings fun token =>
    if token = usdc then Holdings.empty.set admin 1300 (by decide) else .empty
  timestamp := 0
  sequence := 0

/-- Nothing happens elsewhere. -/
abbrev closed : System (Deployment Storage StandardLedger) (Happening MarketplaceOp Event) :=
  marketplace home fun _ _ => False

theorem fresh_marketplace_initial : closed.initial freshMarketplace := rfl

/-- Alice's oracle is registered and selected for call 7. -/
def selecting : List (Env × MarketplaceOp) :=
  [at_ 1 [admin] (.initializeMarketplace admin 100 50),
    at_ 2 [alice] (.registerOracle alice aliceKey 50 0),
    at_ 3 [] (.selectOracleForCall 7 aliceKey)]

/-- The call is resolved half a minute after it expired, for a bonus of half the fee, and Alice
deregisters her oracle. -/
def resolvedScript : List (Env × MarketplaceOp) :=
  selecting ++
    [at_ 4 [admin] (.setBonusToken usdc), at_ 5 [admin] (.fundBonusPool admin 900),
      at_ 6 [admin] (.recordResolution aliceKey 7 1000 1030 200),
      at_ 7 [alice] (.deregisterOracle alice aliceKey)]

instance (s : Storage) (op : MarketplaceOp) : Decidable (s.OwnDeregistration op) :=
  match op with
  | .deregisterOracle provider pubkey =>
    inferInstanceAs (Decidable ((∀ oracle ∈ s.oracle pubkey, provider = oracle.address) ∨
      ∃ config ∈ s.config, provider = config.admin))
  | .initializeMarketplace .. => .isTrue trivial
  | .registerOracle .. => .isTrue trivial
  | .selectOracleForCall .. => .isTrue trivial
  | .rateOracle .. => .isTrue trivial
  | .submitHeartbeat .. => .isTrue trivial
  | .setBonusToken .. => .isTrue trivial
  | .fundBonusPool .. => .isTrue trivial
  | .recordResolution .. => .isTrue trivial

/-- Allows the deregistrations that name the oracle's provider or the administrator. -/
def namesOwner : List (Happening MarketplaceOp Event) → Deployment Storage StandardLedger →
    Happening MarketplaceOp Event → Bool
  | _, d, .invoked i => decide (d.store.OwnDeregistration i.op)
  | _, _, .elsewhere => true

theorem names_owner_allowed (h : List (Happening MarketplaceOp Event))
    (d : Deployment Storage StandardLedger) (l : Happening MarketplaceOp Event)
    (hallowed : namesOwner h d l = true) : ownDeregistrations h d l := by
  intro i hi
  cases l with
  | invoked j =>
    cases hi
    exact of_decide_eq_true hallowed
  | elsewhere => cases hi

def resolvedRun : System.Replayed closed (Deployment.next MarketplaceOp.perform home) namesOwner :=
  .of freshMarketplace fresh_marketplace_initial resolvedScript (by decide +kernel)

/-- Mallory deregisters Alice's oracle. -/
def removedRun :
    System.Replayed closed (Deployment.next MarketplaceOp.perform home) System.anything :=
  .of freshMarketplace fresh_marketplace_initial
    (selecting ++ [at_ 4 [mallory] (.deregisterOracle mallory aliceKey)]) (by decide +kernel)

/-- Alice's oracle is deactivated by her, and its bonus of 100 is counted. -/
theorem marketplace_sound_for_alice :
    (resolvedRun.state.store.performance aliceKey).bonusPaid = 100 ∧
      DeactivationsAuthorised home (fun _ _ => False) ownDeregistrations resolvedRun.history
        resolvedRun.state ∧ Accounted home resolvedRun.history resolvedRun.state.store := by
  have hpaid : (resolvedRun.state.store.performance aliceKey).bonusPaid = 100 := by decide +kernel
  exact ⟨hpaid, marketplace_sound (resolvedRun.run Deployment.next_step names_owner_allowed)⟩

/-- Alice's oracle is deactivated although neither she nor the administrator has authorised it. -/
theorem oracle_removed_by_stranger : closed.Run removedRun.history removedRun.state ∧
      removedRun.state.store.oracleList = [] ∧
      ¬ DeactivationsAuthorised home (fun _ _ => False) System.anyStep removedRun.history
        removedRun.state := by
  have run : closed.Run removedRun.history removedRun.state :=
    removedRun.run Deployment.next_step System.anything_allowed
  have hlist : removedRun.state.store.oracleList = [] := by decide +kernel
  have hconfig : removedRun.state.store.config = some ⟨admin, 100, 50⟩ := by decide +kernel
  have hlast : (removedRun.history.head?.bind Happening.invocation).map
      (fun i => (i.op, i.env.auths)) = some (.deregisterOracle mallory aliceKey, [mallory]) := by
    decide +kernel
  have hregistered : ∃ i ∈ invocations removedRun.history,
      i.op = .registerOracle alice aliceKey 50 0 := by decide +kernel
  refine ⟨run, hlist, fun hauthorised => ?_⟩
  obtain ⟨⟨env, op, effects⟩, hhead, hfields⟩ := Option.map_eq_some_iff.mp hlast
  obtain ⟨rfl, hauths⟩ := Prod.mk.inj hfields
  obtain ⟨before, htook, hstep⟩ := last_invocation run hhead
  obtain ⟨hkept, hdeactivated⟩ := deregistration_step hstep
  obtain ⟨i, hi, hop⟩ := hregistered
  obtain ⟨_, hsame, halice | ⟨config, hadmin, hadmin'⟩⟩ :=
    hauthorised _ _ _ _ _ htook hstep hdeactivated ⟨i, hi, 50, 0, hop⟩
  · cases hsame
    rw [show env.auths = [mallory] from hauths] at halice
    exact absurd halice (by decide)
  · cases hsame
    rw [← hkept, hconfig, Option.some.injEq] at hadmin
    subst hadmin
    rw [show env.auths = [mallory] from hauths] at hadmin'
    exact absurd hadmin' (by decide)

end Backit.OracleMarketplace
