import Backit.Lib.Transition
import Backit.PredictionMarket.Specifications
import Backit.Soroban.TokenLaws

/-!
# Executions of a market

A world is the market's storage, the other contracts and the ledger's clock. A step is a
successful invocation, at a time no earlier than the last one, or something that happens to the
other contracts elsewhere. The constructor is the first invocation of a run.
-/

namespace Backit.PredictionMarket

open Soroban Contract Lib

/-- What a ledger close leaves for the next invocation. -/
structure World (P : Type) where
  store : Storage
  peers : P
  timestamp : Nat
  sequence : Nat

/-- A successful invocation: its environment, its entry point and arguments, and its effects, most
recent first. -/
structure Receipt where
  env : Env
  op : MarketOp
  effects : List (Effect Event)

inductive Label where
  | invoked (receipt : Receipt)
  | elsewhere

/-- The effects of a label. -/
def Label.effects : Label → List (Effect Event)
  | .invoked receipt => receipt.effects
  | .elsewhere => []

variable {P : Type} [Peers P]

/-- The frame an invocation starts from. -/
def World.frame (w : World P) : Frame Storage P Event := ⟨w.store, w.peers, []⟩

/-- One step of the world around the market at address `self`. The host does not count the running
contract among those who authorise its invocation. The relation `outside` bounds what happens to
the other contracts elsewhere. -/
inductive WorldStep (self : Address) (outside : P → P → Prop) :
    World P → Label → World P → Prop where
  | invoked {w env op f} : env.contract = self → self ∉ env.auths → w.timestamp ≤ env.timestamp →
      w.sequence ≤ env.sequence → run op.perform env w.frame = .ok ((), f) →
      WorldStep self outside w (.invoked ⟨env, op, f.effects⟩)
        ⟨f.store, f.tokens, env.timestamp, env.sequence⟩
  | elsewhere {w peers} :
      outside w.peers peers → WorldStep self outside w .elsewhere { w with peers := peers }

/-- The market at address `self`, from its deployment on. A new contract holds no tokens. -/
def market (self : Address) (outside : P → P → Prop) : System (World P) Label where
  initial w := w.store = Storage.empty ∧ ∀ token, Tokens.balance w.peers token self = some 0
  step := WorldStep self outside

section Market

variable {self : Address} {outside : P → P → Prop} {w w' : World P} {l : Label}

/-- A step makes a listed transition, or is a rollover, or leaves the storage as it is. -/
theorem WorldStep.cases (h : WorldStep self outside w l w') :
    (∃ r : Receipt, l = .invoked r ∧ r.env.contract = self ∧ self ∉ r.env.auths ∧
      (r.op.isRollover = true ∨ Replays r.env w.peers r.effects w'.peers ∧
          Transition r.env r.op w.store r.effects w'.store)) ∨
    (l = .elsewhere ∧ w'.store = w.store ∧ outside w.peers w'.peers) := by
  cases h with
  | elsewhere hout => exact .inr ⟨rfl, rfl, hout⟩
  | @invoked env op f hself hauths _ _ hrun =>
    refine .inl ⟨_, rfl, hself, hauths, ?_⟩
    cases hop : op.isRollover with
    | true => exact .inl rfl
    | false =>
      obtain ⟨effects, heffects, hreplay, hmade⟩ := MarketOp.makes hop hrun
      obtain rfl : f.effects = effects := by simpa [World.frame] using heffects
      exact .inr ⟨hreplay, hmade⟩

end Market

/-- Run an invocation on a world. -/
def World.next (self : Address) (w : World P) : Env × MarketOp → Option (Label × World P)
  | (env, op) =>
    if env.contract = self ∧ self ∉ env.auths ∧ w.timestamp ≤ env.timestamp ∧
        w.sequence ≤ env.sequence then
      match run op.perform env w.frame with
      | .ok (_, f) =>
        some (.invoked ⟨env, op, f.effects⟩, ⟨f.store, f.tokens, env.timestamp, env.sequence⟩)
      | .error _ => none
    else none

theorem World.next_step {self : Address} {outside : P → P → Prop} (w : World P)
    (input : Env × MarketOp) (l : Label) (w' : World P)
    (h : w.next self input = some (l, w')) : (market self outside).step w l w' := by
  obtain ⟨env, op⟩ := input
  unfold World.next at h
  dsimp only at h
  split at h
  · next hchecks =>
    obtain ⟨hself, hauths, htime, hledger⟩ := hchecks
    split at h
    · next f hrun =>
      cases h
      exact .invoked hself hauths htime hledger hrun
    · cases h
  · cases h

/-- A ledger of standard tokens without other contracts to call. -/
instance : Peers StandardLedger where
  feeConfig _ _ _ := none
  deployMarket _ _ _ _ _ := none
  getCallId _ _ _ := none
  claimPayoutNoRelease _ _ _ _ _ _ _ _ := none
  stakeOnCall _ _ _ _ _ _ _ := none
  storeRolloverChain _ _ _ _ _ := none
  setParentCall _ _ _ _ _ _ := none

/-- The market's address in the scenarios that follow the theorems. -/
def home : Address := ⟨300⟩

def managerAddress : Address := ⟨301⟩

def factoryAddress : Address := ⟨302⟩

def alice : Address := ⟨1⟩

def bob : Address := ⟨2⟩

def carol : Address := ⟨3⟩

def usdc : Address := ⟨50⟩

def sampleHash : BytesN 32 := ⟨List.replicate 32 1, by decide⟩

/-- Alice and Bob each hold five thousand units of the stake token. -/
def fundedHoldings : Holdings :=
  (Holdings.empty.set alice 5000 (by decide)).set bob 5000 (by decide)

/-- A market about to be deployed in a world of standard tokens. -/
def freshWorld : World StandardLedger where
  store := Storage.empty
  peers := .ofHoldings fun token => if token = usdc then fundedHoldings else .empty
  timestamp := 0
  sequence := 0

/-- A call with two outcomes that ends at time 100000. -/
def sampleArgs : MarketInitArgs := ⟨usdc, 100, 1, 100000, usdc, [], sampleHash, .targetAbove 5, 2⟩

/-- An invocation of the market at a time, with the addresses that authorise it. -/
def at_ (timestamp : Nat) (auths : List Address) (op : MarketOp) : Env × MarketOp :=
  (⟨home, timestamp, timestamp, auths⟩, op)

/-- Deploy the market for call 1, without limits on stakes. -/
def deployment : Env × MarketOp :=
  at_ 1 [] (.construct 1 alice managerAddress factoryAddress 0 0 0 sampleArgs)

end Backit.PredictionMarket
