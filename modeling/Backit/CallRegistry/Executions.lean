import Backit.CallRegistry.Specifications
import Backit.Lib.Transition
import Backit.Soroban.TokenLaws

/-!
# Executions of the registry

A world is the registry's storage, the token contracts and the ledger's clock. A step is a
successful invocation of an entry point, at a time no earlier than the last one, or something that
happens to the token contracts elsewhere. Failed invocations are rolled back and are no steps. The
rule `market_invariant` reduces an invariant of the market over every execution to the listed
transitions.
-/

namespace Backit.CallRegistry

open Soroban Contract Lib

/-- What a ledger close leaves for the next invocation. -/
structure World (T : Type) where
  store : Storage
  tokens : T
  timestamp : Nat
  sequence : Nat

/-- A successful invocation: its environment, its entry point and arguments, and its effects, most
recent first. -/
structure Receipt where
  env : Env
  action : Action
  effects : List (Effect Event)

/-- A successful invocation of an operation on the market. -/
structure MarketReceipt where
  env : Env
  op : MarketOp
  effects : List (Effect Event)

inductive Label where
  | invoked (receipt : Receipt)
  | elsewhere

/-- The label of an operation on the market. -/
def MarketReceipt.label (r : MarketReceipt) : Label := .invoked ⟨r.env, .market r.op, r.effects⟩

/-- The operation on the market that a label stands for, if it does. -/
def Label.onMarket : Label → Option MarketReceipt
  | .invoked ⟨env, .market op, effects⟩ => some ⟨env, op, effects⟩
  | _ => none

/-- The operations on the market in a history. -/
def marketHistory (history : List Label) : List MarketReceipt := history.filterMap Label.onMarket

@[simp] theorem market_history_nil : marketHistory [] = [] := rfl

@[simp] theorem market_history_cons_label (r : MarketReceipt) (history : List Label) :
    marketHistory (r.label :: history) = r :: marketHistory history := rfl

theorem market_history_cons_off {l : Label} (h : l.onMarket = none) (history : List Label) :
    marketHistory (l :: history) = marketHistory history :=
  List.filterMap_cons_none h

/-- The sum of a quantity over the operations of a history. -/
def tally (quantity : MarketReceipt → Int) (history : List MarketReceipt) : Int :=
  (history.map quantity).sum

@[simp] theorem tally_nil (quantity : MarketReceipt → Int) : tally quantity [] = 0 := rfl

@[simp] theorem tally_cons (quantity : MarketReceipt → Int) (r : MarketReceipt)
    (history : List MarketReceipt) :
    tally quantity (r :: history) = quantity r + tally quantity history := rfl

theorem tally_eq_zero {quantity : MarketReceipt → Int} {history : List MarketReceipt}
    (h : ∀ r ∈ history, quantity r = 0) : tally quantity history = 0 := by
  refine List.sum_eq_zero fun x hx => ?_
  obtain ⟨r, hr, rfl⟩ := List.mem_map.mp hx
  exact h r hr

variable {T : Type} [Tokens T] [Crypto]

/-- The frame an invocation starts from. -/
def World.frame (w : World T) : Frame Storage T Event := ⟨w.store, w.tokens, []⟩

/-- One step of the world around the registry at address `self`. The relation `outside` bounds
what happens to the token contracts elsewhere. -/
inductive WorldStep (self : Address) (outside : T → T → Prop) :
    World T → Label → World T → Prop where
  | invoked {w env action f} :
      env.contract = self → w.timestamp ≤ env.timestamp → w.sequence ≤ env.sequence →
      run action.perform env w.frame = .ok ((), f) →
      WorldStep self outside w (.invoked ⟨env, action, f.effects⟩)
        ⟨f.store, f.tokens, env.timestamp, env.sequence⟩
  | elsewhere {w tokens} : outside w.tokens tokens →
      WorldStep self outside w .elsewhere { w with tokens := tokens }

/-- The registry at address `self`, from a fresh deployment on. -/
def registry (self : Address) (outside : T → T → Prop) : System (World T) Label where
  initial w := w.store = Storage.empty
  step := WorldStep self outside

section Registry

variable {self : Address} {outside : T → T → Prop} {w w' : World T} {l : Label}

/-- A step is an operation on the market, and then one of the listed transitions, or it leaves the
market as it is. -/
theorem WorldStep.cases (h : WorldStep self outside w l w') :
    (∃ r : MarketReceipt, l = r.label ∧ r.env.contract = self ∧
      w.timestamp ≤ r.env.timestamp ∧ w'.timestamp = r.env.timestamp ∧
      w'.store.control = w.store.control ∧ Replays r.env w.tokens r.effects w'.tokens ∧
      MarketStep r.env w.store.control.config r.op w.store.market r.effects w'.store.market) ∨
    (l.onMarket = none ∧ w'.store.market = w.store.market ∧ w.timestamp ≤ w'.timestamp) := by
  cases h with
  | elsewhere _ => exact .inr ⟨rfl, rfl, le_rfl⟩
  | @invoked env action f hself htime _ hrun =>
    cases action with
    | market op =>
      obtain ⟨hcontrol, -, effects, heffects, hreplay, hstep⟩ := MarketOp.steps hrun
      obtain rfl : f.effects = effects := by simpa [World.frame] using heffects
      exact .inl ⟨⟨env, op, f.effects⟩, rfl, hself, htime, rfl, hcontrol, hreplay, hstep⟩
    | desk op =>
      obtain ⟨desk, -, rfl⟩ := run_onDesk.mp hrun
      exact .inr ⟨rfl, rfl, htime⟩
    | executeAdminProposal caller proposalId =>
      obtain ⟨_, _, -, -, -, -, -, -, -, hexec⟩ := execute_admin_proposal_executes hrun
      exact .inr ⟨rfl, hexec.market, htime⟩

variable {guard : System.Guard (World T) Label} {history : List Label}

/-- Induction over executions for a property of the clock, the operations on the market so far and
the market: it holds of the empty market, time does not end it, and every listed transition
preserves it. -/
theorem market_invariant_at {I : Nat → List MarketReceipt → Market → Prop}
    (hinit : ∀ now, I now [] Storage.empty.market)
    (hlater : ∀ now later h m, now ≤ later → I now h m → I later h m)
    (hstep : ∀ h w r m', (registry self outside).RunWhere guard h w → guard h w r.label →
      r.env.contract = self → I r.env.timestamp (marketHistory h) w.store.market →
      MarketStep r.env w.store.control.config r.op w.store.market r.effects m' →
      I r.env.timestamp (r :: marketHistory h) m')
    (run : (registry self outside).RunWhere guard history w) :
    I w.timestamp (marketHistory history) w.store.market := by
  refine run.invariant (I := fun h w => I w.timestamp (marketHistory h) w.store.market) ?_ ?_
  · intro s hs
    rw [show s.store = Storage.empty from hs]
    exact hinit _
  · intro h s l s' hrun ih hs hguard
    obtain ⟨r, rfl, hself, htime, hnow, -, -, hmarket⟩ | ⟨hoff, hmarket, htime⟩ := hs.cases
    · rw [hnow, market_history_cons_label]
      exact hstep h s r _ hrun hguard hself (hlater _ _ _ _ htime ih) hmarket
    · rw [market_history_cons_off hoff, hmarket]
      exact hlater _ _ _ _ htime ih

/-- Induction over executions for a property that does not mention the clock. -/
theorem market_invariant {I : List MarketReceipt → Market → Prop}
    (hinit : I [] Storage.empty.market)
    (hstep : ∀ h w r m', (registry self outside).RunWhere guard h w → guard h w r.label →
      I (marketHistory h) w.store.market →
      MarketStep r.env w.store.control.config r.op w.store.market r.effects m' →
      I (r :: marketHistory h) m')
    (run : (registry self outside).RunWhere guard history w) :
    I (marketHistory history) w.store.market := by
  refine market_invariant_at (I := fun _ h m => I h m) (fun _ => hinit)
    (fun _ _ _ _ _ h => h) ?_ run
  intro h w r m' hrun hguard _ ih hmarket
  exact hstep h w r m' hrun hguard ih hmarket

/-- A property of the operations on the market so far and the market that every listed transition
preserves is never lost. -/
theorem market_stable {P : List MarketReceipt → Market → Prop} {later : List Label} {w' : World T}
    (run : (registry self outside).RunWhere guard history w)
    (path : System.Path (registry self outside) guard history w later w')
    (hstep : ∀ h w r m', (registry self outside).RunWhere guard h w → guard h w r.label →
      P (marketHistory h) w.store.market →
      MarketStep r.env w.store.control.config r.op w.store.market r.effects m' →
      P (r :: marketHistory h) m')
    (hP : P (marketHistory history) w.store.market) :
    P (marketHistory later) w'.store.market := by
  refine path.stable (P := fun h w => P (marketHistory h) w.store.market) run ?_ hP
  intro h s l s' hrun ih hs hguard
  obtain ⟨r, rfl, -, -, -, -, -, hmarket⟩ | ⟨hoff, hmarket, -⟩ := hs.cases
  · rw [market_history_cons_label]
    exact hstep h s r _ hrun hguard ih hmarket
  · rw [market_history_cons_off hoff, hmarket]
    exact ih

end Registry

section Replay

/-- Run one invocation on a world. -/
def World.invoke (w : World T) (env : Env) (action : Action) : Option (Receipt × World T) :=
  match run action.perform env w.frame with
  | .ok (_, f) => some (⟨env, action, f.effects⟩, ⟨f.store, f.tokens, env.timestamp, env.sequence⟩)
  | .error _ => none

/-- Run a script of invocations, as long as each of them is successful and allowed. -/
def replay (self : Address) (allowed : List Label → World T → Label → Bool) :
    List (Env × Action) → List Label × World T → Option (List Label × World T)
  | [], reached => some reached
  | (env, action) :: rest, (history, w) =>
    match w.invoke env action with
    | some (receipt, next) =>
      if env.contract = self ∧ w.timestamp ≤ env.timestamp ∧ w.sequence ≤ env.sequence ∧
          allowed history w (.invoked receipt) then
        replay self allowed rest (.invoked receipt :: history, next)
      else none
    | none => none

variable {self : Address} {outside : T → T → Prop} {guard : System.Guard (World T) Label}
  {allowed : List Label → World T → Label → Bool}

/-- A successful invocation of the registry, no earlier than the last one, is a step. -/
theorem World.invoke_step {w next : World T} {env : Env} {action : Action} {receipt : Receipt}
    (hinvoke : w.invoke env action = some (receipt, next)) (hself : env.contract = self)
    (htime : w.timestamp ≤ env.timestamp) (hsequence : w.sequence ≤ env.sequence) :
    (registry self outside).step w (.invoked receipt) next := by
  unfold World.invoke at hinvoke
  split at hinvoke
  · next f hrun =>
    cases hinvoke
    exact .invoked hself htime hsequence hrun
  · cases hinvoke

theorem replay_path (hallowed : ∀ h w l, allowed h w l = true → guard h w l)
    {script : List (Env × Action)} {h h' : List Label} {w w' : World T}
    (hreplay : replay self allowed script (h, w) = some (h', w')) :
    System.Path (registry self outside) guard h w h' w' := by
  induction script generalizing h w with
  | nil =>
    cases hreplay
    exact .refl _ _
  | cons entry rest ih =>
    obtain ⟨env, action⟩ := entry
    simp only [replay] at hreplay
    cases hinvoke : w.invoke env action with
    | none => simp [hinvoke] at hreplay
    | some reached =>
      obtain ⟨receipt, next⟩ := reached
      simp only [hinvoke] at hreplay
      split at hreplay
      · next hchecks =>
        obtain ⟨hself, htime, hsequence, hallow⟩ := hchecks
        have hfirst : (registry self outside).step w (.invoked receipt) next :=
          World.invoke_step hinvoke hself htime hsequence
        exact (System.Path.tail (.refl _ _) hfirst (hallowed _ _ _ hallow)).trans
          (ih hreplay)
      · cases hreplay

/-- A script replayed from a fresh deployment, kept together with the run it is. -/
structure Replayed (home : Address) (allowed : List Label → World T → Label → Bool) where
  start : World T
  fresh : start.store = Storage.empty
  script : List (Env × Action)
  history : List Label
  world : World T
  replays : replay home allowed script ([], start) = some (history, world)

/-- Replay a script that is known to succeed. -/
def Replayed.of (start : World T) (fresh : start.store = Storage.empty)
    (script : List (Env × Action))
    (succeeds : (replay self allowed script ([], start)).isSome = true) :
    Replayed (T := T) self allowed where
  start := start
  fresh := fresh
  script := script
  history := ((replay self allowed script ([], start)).get succeeds).1
  world := ((replay self allowed script ([], start)).get succeeds).2
  replays := (Option.some_get succeeds).symm

theorem Replayed.run (r : Replayed (T := T) self allowed)
    (hallowed : ∀ h w l, allowed h w l = true → guard h w l) :
    (registry self outside).RunWhere guard r.history r.world :=
  ⟨r.start, r.fresh, replay_path hallowed r.replays⟩

/-- Allows every step. -/
def anything : List Label → World T → Label → Bool := fun _ _ _ => true

omit [Tokens T] [Crypto] in
theorem anything_allowed (h : List Label) (w : World T) (l : Label)
    (_ : anything h w l = true) : System.anyStep h w l := trivial

end Replay

section Scenarios

/-- The registry's address in the scenarios that follow the theorems. -/
def home : Address := ⟨100⟩

def adminAddress : Address := ⟨101⟩

def managerAddress : Address := ⟨102⟩

def alice : Address := ⟨1⟩

def bob : Address := ⟨2⟩

def usdc : Address := ⟨50⟩

/-- An invocation of the registry at a time, with the addresses that authorise it. -/
def at_ (timestamp : Nat) (auths : List Address) (action : Action) : Env × Action :=
  (⟨home, timestamp, timestamp, auths⟩, action)

/-- Alice and Bob each hold ten thousand units of the stake token. -/
def fundedHoldings : Holdings :=
  (Holdings.empty.set alice 10000 (by decide)).set bob 10000 (by decide)

/-- A fresh deployment in a world of standard tokens. -/
def freshWorld : World StandardLedger where
  store := Storage.empty
  tokens := .ofHoldings fun token => if token = usdc then fundedHoldings else .empty
  timestamp := 0
  sequence := 0

omit [Crypto] in
theorem fresh_world_empty : freshWorld.store = Storage.empty := rfl

def zeroHash : BytesN 32 := ⟨List.replicate 32 0, by decide⟩

/-- A call with two outcomes that ends at time 1000. -/
def sampleCall : CallInitArgs where
  stakeToken := usdc
  stakeAmount := 300
  startPrice := 1
  endTs := 1000
  tokenAddress := usdc
  pairId := []
  ipfsCid := []
  metadataHash := zeroHash
  condition := .targetAbove 5
  outcomeCount := 2
  gate := ⟨none, 0, 0, 0, none⟩

/-- Initialise the registry, accept the stake token, and create a call by Alice. -/
def openingScript : List (Env × Action) :=
  [at_ 1 [adminAddress] (.desk (.initializeContract adminAddress managerAddress 0)),
    at_ 2 [adminAddress] (.desk (.whitelistToken usdc)),
    at_ 3 [alice] (.market (.createCall alice sampleCall))]

/-- Cryptography for scenarios that neither hash nor verify. -/
abbrev noCrypto : Crypto where
  sha256 _ := zeroHash
  ed25519Verify _ _ _ := false

end Scenarios

end Backit.CallRegistry
