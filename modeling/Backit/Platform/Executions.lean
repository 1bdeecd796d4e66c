import Backit.CallRegistry.Executions
import Backit.Platform.Visits
import Backit.PredictionMarket.Executions

/-!
# Executions of the platform

A world is the ledger with its contracts and its clock. A step is a successful invocation of one
of the contracts by accounts or strangers, a deployment, the lapse of a temporary entry, or
something that happens to tokens and strangers elsewhere. `WorldStep.at_manager` says what a step
can do to a manager.
-/

namespace Backit.Platform

open Soroban Contract Lib OutcomeManager PredictionMarket PredictionMarketFactory

/-- What a ledger close leaves for the next invocation. -/
structure World (S : Type) where
  ledger : Ledger S
  timestamp : Nat
  sequence : Nat

/-- The contracts that can be deployed. -/
inductive Kind where
  | manager
  | registry
  | market
  | factory
  deriving DecidableEq

/-- A freshly deployed contract. The constructor of a market is its first invocation. -/
def Kind.fresh : Kind → Resident
  | .manager => .manager OutcomeManager.Storage.empty
  | .registry => .registry CallRegistry.Storage.empty
  | .market => .market PredictionMarket.Storage.empty
  | .factory => .factory PredictionMarketFactory.Storage.empty

inductive Label where
  | managed (receipt : OutcomeManager.Receipt)
  | registered (receipt : CallRegistry.Receipt)
  | traded (receipt : PredictionMarket.Receipt)
  | produced (env : Env) (op : FactoryOp)
  | deployed (address : Address) (kind : Kind)
  | lapsed (address : Address) (key : TempKey)
  | elsewhere

namespace World

variable {S : Type}

/-- An invocation is authorised by accounts and strangers, and time does not run back. -/
structure Admits (w : World S) (env : Env) : Prop where
  auths : ∀ a ∈ env.auths, (w.ledger.resident a).isStranger = true
  timestamp : w.timestamp ≤ env.timestamp
  sequence : w.sequence ≤ env.sequence

instance (w : World S) (env : Env) : Decidable (w.Admits env) :=
  decidable_of_iff
    ((∀ a ∈ env.auths, (w.ledger.resident a).isStranger = true) ∧
      w.timestamp ≤ env.timestamp ∧ w.sequence ≤ env.sequence)
    ⟨fun ⟨ha, ht, hs⟩ => ⟨ha, ht, hs⟩, fun ⟨ha, ht, hs⟩ => ⟨ha, ht, hs⟩⟩

/-- Invoke the contract at an address: the effects and the world it leaves. -/
def invoke {σ E ε : Type} (w : World S) (wrap : σ → Resident) (env : Env) (s : σ)
    (op : Contract (Frame σ (Ledger S) E) ε Unit) : Option (List (Effect E) × World S) :=
  if w.Admits env then
    match run op env ⟨s, w.ledger.set env.contract .running, []⟩ with
    | .ok (_, f) =>
      some (f.effects, ⟨f.tokens.set env.contract (wrap f.store), env.timestamp, env.sequence⟩)
    | .error _ => none
  else none

theorem invoke_eq_some {σ E ε : Type} {w w' : World S} {wrap : σ → Resident} {env : Env} {s : σ}
    {op : Contract (Frame σ (Ledger S) E) ε Unit} {effects : List (Effect E)} :
    w.invoke wrap env s op = some (effects, w') ↔ w.Admits env ∧
      ∃ f, run op env ⟨s, w.ledger.set env.contract .running, []⟩ = .ok ((), f) ∧
        effects = f.effects ∧
        w' = ⟨f.tokens.set env.contract (wrap f.store), env.timestamp, env.sequence⟩ := by
  unfold invoke
  split
  · next hadmits =>
    cases hrun : run op env ⟨s, w.ledger.set env.contract .running, []⟩ with
    | error e => simp
    | ok reached =>
      obtain ⟨u, f⟩ := reached
      simp [hadmits, eq_comm]
  · next hadmits => simp [hadmits]

/-- The world with another ledger at the same time. -/
def withLedger (w : World S) (ledger : Ledger S) : World S := { w with ledger := ledger }

end World

variable {S : Type} [Strangers S] [Crypto] [Network] [Deployer]

/-- One step of the platform. The relation `outside` bounds what happens to tokens and strangers
elsewhere. -/
inductive WorldStep (outside : S → S → Prop) : World S → Label → World S → Prop where
  | managed {w w' env action s effects} : w.ledger.resident env.contract = .manager s →
      w.invoke .manager env s action.perform = some (effects, w') →
      WorldStep outside w (.managed ⟨env, action, effects⟩) w'
  | registered {w w' env action effects} {s : CallRegistry.Storage} :
      w.ledger.resident env.contract = .registry s →
      w.invoke .registry env s action.perform = some (effects, w') →
      WorldStep outside w (.registered ⟨env, action, effects⟩) w'
  | traded {w w' env op s effects} : w.ledger.resident env.contract = .market s →
      w.invoke .market env s op.perform = some (effects, w') →
      WorldStep outside w (.traded ⟨env, op, effects⟩) w'
  | produced {w w' env op s effects} : w.ledger.resident env.contract = .factory s →
      w.invoke .factory env s op.perform = some (effects, w') →
      WorldStep outside w (.produced env op) w'
  | deployed {w address kind} : (w.ledger.resident address).isStranger = true →
      WorldStep outside w (.deployed address kind)
        (w.withLedger (w.ledger.set address kind.fresh))
  | lapsed {w address key s} : w.ledger.resident address = .manager s →
      WorldStep outside w (.lapsed address key)
        (w.withLedger (w.ledger.set address (.manager (s.onTally (·.lapse key)))))
  | elsewhere {w rest} : outside w.ledger.rest rest →
      WorldStep outside w .elsewhere (w.withLedger (w.ledger.withRest rest))

/-- The platform, from before the first deployment on. -/
def platform (outside : S → S → Prop) : System (World S) Label where
  initial w := w.ledger.resident = fun _ => .stranger
  step := WorldStep outside

section Managers

variable {outside : S → S → Prop} {w w' : World S} {l : Label}

omit [Strangers S] [Crypto] [Network] [Deployer] in
/-- The manager that the market at an address is configured with. -/
def World.marketManager (w : World S) (address : Address) : Option Address :=
  match w.ledger.resident address with
  | .market s => s.config.map MarketConfig.outcomeManager
  | _ => none

omit [Strangers S] [Crypto] [Network] [Deployer] in
/-- The labels of the steps that can change the manager at an address. -/
def Label.touches (m : Address) (w : World S) : Label → Prop
  | .managed r => r.env.contract = m
  | .traded r => r.op.isRollover = true ∧ w.marketManager r.env.contract = some m
  | .deployed address kind => address = m ∧ kind = .manager
  | .lapsed address _ => address = m
  | _ => False

/-- What a step does to the manager at an address: an invocation of its own, a rollover of a market
that it serves, the lapse of an entry, its deployment, or nothing. -/
inductive ManagerStep (m : Address) (w : World S) :
    Label → Option OutcomeManager.Storage → Option OutcomeManager.Storage → Prop where
  | invoked {r s s' l₁} : r.env.contract = m →
      OutcomeManager.WorldStep m (fun _ _ => False)
        ⟨s, w.ledger.set m .running, w.timestamp, w.sequence⟩ (.invoked r)
        ⟨s', l₁, r.env.timestamp, r.env.sequence⟩ →
      ManagerStep m w (.managed r) (some s) (some s')
  | rolled {env user rollover sm f config call terms newMarket newCallId stages s x p'} :
      w.ledger.resident env.contract = .market sm →
      RolledOver env user rollover ⟨sm, w.ledger.set env.contract .running, []⟩ f config call terms
        newMarket newCallId stages →
      config.outcomeManager = m → x.winner = user →
      Paid s.settings s.tally config.callId terms.totalWinning terms.totalLosing s.payouts [x]
        p' →
      ManagerStep m w (.traded ⟨env, .claimAndRollover user config.callId rollover, f.effects⟩)
        (some s) (some { s with payouts := p' })
  | lapsed {key s} : ManagerStep m w (.lapsed m key) (some s) (some (s.onTally (·.lapse key)))
  | deployed : ManagerStep m w (.deployed m .manager) none (some OutcomeManager.Storage.empty)
  | untouched {label s} : ¬ label.touches m w → ManagerStep m w label (some s) (some s)
  | absent {label} : ManagerStep m w label none none

theorem ManagerStep.kept {m : Address} {o o' : Option OutcomeManager.Storage} (heq : o' = o)
    (htouches : ¬ l.touches m w) : ManagerStep m w l o o' := by
  subst heq
  cases o' with
  | none => exact .absent
  | some s => exact .untouched htouches

omit [Network] [Deployer] in
theorem registry_action_resident {action : CallRegistry.Action} {env : Env} {u : Unit}
    {f f' : Frame CallRegistry.Storage (Ledger S) CallRegistry.Event}
    (h : run action.perform env f = .ok (u, f')) : f'.tokens.resident = f.tokens.resident := by
  cases action with
  | market op =>
    obtain ⟨-, -, effects, -, hreplay, -⟩ := CallRegistry.MarketOp.steps h
    exact replays_resident hreplay
  | desk op =>
    obtain ⟨desk, -, rfl⟩ := CallRegistry.run_onDesk.mp h
    rfl
  | executeAdminProposal caller proposalId =>
    obtain ⟨_, _, -, -, -, -, -, -, -, hexec⟩ := CallRegistry.execute_admin_proposal_executes h
    obtain ⟨events, spent, -, -, hreplay⟩ := hexec.effects
    exact replays_resident hreplay

theorem WorldStep.at_manager (h : WorldStep outside w l w') (m : Address) :
    ManagerStep m w l (w.ledger.managerAt m) (w'.ledger.managerAt m) := by
  cases h with
  | elsewhere => exact .kept rfl (by simp [Label.touches])
  | @lapsed address key s hresident =>
    simp only [World.withLedger, Ledger.manager_at_set]
    by_cases hm : m = address
    · subst hm
      rw [Function.update_self, Ledger.manager_at_eq.mpr hresident]
      exact .lapsed
    · rw [Function.update_of_ne hm]
      exact .kept rfl (Ne.symm hm)
  | @deployed address kind hfree =>
    simp only [World.withLedger, Ledger.manager_at_set]
    by_cases hm : m = address
    · subst hm
      have hnone : w.ledger.managerAt m = none := by
        unfold Ledger.managerAt
        cases hresident : w.ledger.resident m <;>
          simp_all [Resident.isStranger, Resident.asManager]
      rw [Function.update_self, hnone]
      cases kind with
      | manager => exact .deployed
      | _ => exact .absent
    · rw [Function.update_of_ne hm]
      exact .kept rfl fun htouches => hm htouches.1.symm
  | produced hresident hinvoke =>
    obtain ⟨-, f, hrun, -, rfl⟩ := World.invoke_eq_some.mp hinvoke
    refine .kept (congrFun (Ledger.manager_at_returned ?_ (by rw [hresident]; rfl)) m)
      (by simp [Label.touches])
    rcases FactoryOp.deploys hrun with heq | ⟨_, _, _, _, hdeploy⟩
    · rw [heq]
    · exact deploy_manager_at hdeploy
  | registered hresident hinvoke =>
    obtain ⟨-, f, hrun, -, rfl⟩ := World.invoke_eq_some.mp hinvoke
    exact .kept (congrFun (Ledger.manager_at_returned
      (Ledger.manager_at_congr (registry_action_resident hrun)) (by rw [hresident]; rfl)) m)
      (by simp [Label.touches])
  | @managed _ env action s effects hresident hinvoke =>
    obtain ⟨hadmits, f, hrun, rfl, rfl⟩ := World.invoke_eq_some.mp hinvoke
    by_cases hm : m = env.contract
    · subst hm
      rw [Ledger.manager_at_eq.mpr hresident, Ledger.manager_at_set, Function.update_self]
      exact .invoked rfl (.invoked rfl hadmits.timestamp hadmits.sequence hrun)
    · refine .kept ?_ (Ne.symm hm)
      rw [Ledger.manager_at_put_back (manager_action_manager_at hrun), Function.update_of_ne hm]
  | @traded _ env op s effects hresident hinvoke =>
    obtain ⟨-, f, hrun, rfl, rfl⟩ := World.invoke_eq_some.mp hinvoke
    have hnone : w.ledger.managerAt env.contract = none := by
      unfold Ledger.managerAt
      rw [hresident]
      rfl
    have hstart : (w.ledger.set env.contract .running).managerAt = w.ledger.managerAt := by
      rw [Ledger.manager_at_set]
      exact Function.update_eq_self_iff.mpr hnone.symm
    by_cases hrollover : op.isRollover = true
    · cases op with
      | claimAndRollover user callId rollover =>
        obtain ⟨newCallId, hroll⟩ := run_ignore.mp hrun
        obtain ⟨config, call, terms, newMarket, stages, rfl, hrolled⟩ :=
          claim_and_rollover_rolls hroll
        have hserves : w.marketManager env.contract = some config.outcomeManager := by
          unfold World.marketManager
          rw [hresident]
          exact congrArg (Option.map _) hrolled.configured
        rw [Ledger.manager_at_set]
        by_cases hm : m = env.contract
        · subst hm
          rw [Function.update_self, hnone]
          exact .absent
        · rw [Function.update_of_ne hm]
          rcases rollover_manager_at hrolled with
            ⟨s', x, p', hmanager, hwinner, hpaid, heq⟩ | ⟨hmissing, heq⟩
          · rw [heq, hstart]
            simp only [hstart] at hmanager
            by_cases hserved : m = config.outcomeManager
            · subst hserved
              rw [Function.update_self, hmanager]
              exact .rolled hresident hrolled rfl hwinner hpaid
            · rw [Function.update_of_ne hserved]
              refine .kept rfl fun htouches => hserved ?_
              exact (Option.some.inj (hserves.symm.trans htouches.2)).symm
          · simp only [hstart] at heq hmissing
            rw [heq]
            by_cases hserved : m = config.outcomeManager
            · rw [hserved, hmissing]
              exact .absent
            · refine .kept rfl fun htouches => hserved ?_
              exact (Option.some.inj (hserves.symm.trans htouches.2)).symm
      | _ => cases hrollover
    · have hother : op.isRollover = false := by simpa using hrollover
      obtain ⟨effects, -, hreplay, -⟩ := MarketOp.makes hother hrun
      refine .kept (congrFun (Ledger.manager_at_returned ?_ (by rw [hresident]; rfl)) m)
        fun htouches => hrollover htouches.1
      exact Ledger.manager_at_congr (replays_resident hreplay)

end Managers

/-- An input of a script: an invocation of one of the contracts, or a deployment. -/
inductive Input where
  | manage (env : Env) (action : OutcomeManager.Action)
  | register (env : Env) (action : CallRegistry.Action)
  | deploy (address : Address) (kind : Kind)

/-- Run an input on a world. -/
def World.next (w : World S) : Input → Option (Label × World S)
  | .manage env action =>
    match w.ledger.resident env.contract with
    | .manager s =>
      (w.invoke .manager env s action.perform).map fun (effects, w') =>
        (.managed ⟨env, action, effects⟩, w')
    | _ => none
  | .register env action =>
    match w.ledger.resident env.contract with
    | .registry s =>
      (w.invoke .registry env s action.perform).map fun (effects, w') =>
        (.registered ⟨env, action, effects⟩, w')
    | _ => none
  | .deploy address kind =>
    if (w.ledger.resident address).isStranger then
      some (.deployed address kind, w.withLedger (w.ledger.set address kind.fresh))
    else none

theorem World.next_step {outside : S → S → Prop} (w : World S) (input : Input) (l : Label)
    (w' : World S) (h : w.next input = some (l, w')) : (platform outside).step w l w' := by
  cases input with
  | manage env action =>
    simp only [World.next] at h
    split at h
    · next s hresident =>
      obtain ⟨⟨effects, w''⟩, hinvoke, heq⟩ := Option.map_eq_some_iff.mp h
      cases heq
      exact .managed hresident hinvoke
    · cases h
  | register env action =>
    simp only [World.next] at h
    split at h
    · next s hresident =>
      obtain ⟨⟨effects, w''⟩, hinvoke, heq⟩ := Option.map_eq_some_iff.mp h
      cases heq
      exact .registered hresident hinvoke
    · cases h
  | deploy address kind =>
    simp only [World.next] at h
    split at h
    · next hfree =>
      cases h
      exact .deployed hfree
    · cases h

theorem World.next_get {outside : S → S → Prop} {w : World S} {input : Input}
    (h : (w.next input).isSome = true) :
    (platform outside).step w ((w.next input).get h).1 ((w.next input).get h).2 :=
  w.next_step input _ _ (Option.some_get h).symm

/-- A ledger of standard tokens without strangers to call. -/
instance : Strangers StandardLedger where
  resolveCall _ _ _ _ _ _ := none
  releaseEscrow _ _ _ _ _ _ := none
  markSettled _ _ _ _ := none
  getMarket _ _ _ := none

/-- Addresses for scenarios in which no contract deploys another. -/
abbrev noDeployer : Deployer where
  contractAddress deployer _ := deployer

/-- Before the first deployment, in a world of standard tokens. -/
def freshWorld : World StandardLedger where
  ledger := ⟨fun _ => .stranger, CallRegistry.freshWorld.tokens⟩
  timestamp := 0
  sequence := 0

/-- A replayed script of the scenarios. -/
abbrev Replayed (allowed : List Label → World StandardLedger → Label → Bool) :=
  System.Replayed (platform fun _ (_ : StandardLedger) => False) World.next allowed

/-- Deploy a registry and its manager, and create a call on which Alice and Bob stake. -/
def openingScript : List Input :=
  [.deploy CallRegistry.home .registry, .deploy OutcomeManager.home .manager,
    .manage ⟨OutcomeManager.home, 1, 1, [OutcomeManager.adminAddress]⟩
      (.settings (.initializeManager OutcomeManager.adminAddress [oracleA, oracleB] 2 collector
        100 3600)), .register ⟨CallRegistry.home, 1, 1, [CallRegistry.adminAddress]⟩
      (.desk (.initializeContract CallRegistry.adminAddress OutcomeManager.home 0)),
    .register ⟨CallRegistry.home, 2, 2, [CallRegistry.adminAddress]⟩
      (.desk (.whitelistToken CallRegistry.usdc)),
    .register ⟨CallRegistry.home, 3, 3, [CallRegistry.alice]⟩
      (.market (.createCall CallRegistry.alice CallRegistry.sampleCall)),
    .register ⟨CallRegistry.home, 4, 4, [CallRegistry.alice]⟩
      (.market (.stakeOnCall CallRegistry.alice 1 300 1)),
    .register ⟨CallRegistry.home, 5, 5, [CallRegistry.bob]⟩
      (.market (.stakeOnCall CallRegistry.bob 1 200 2))]

/-- An oracle submits its report of call 1 to a registry. -/
def submits (registry : Address) (timestamp : Nat) (oracle : BytesN 32) (signature : BytesN 64) :
    Input :=
  .manage ⟨OutcomeManager.home, timestamp, timestamp, []⟩
    (.report (.submitOutcome registry (report oracle signature) 1000))

end Backit.Platform
