import Backit.Lib.Transition
import Backit.Soroban.TokenLaws

/-!
# Executions of a contract

A contract is given by what its entry points do. Its executions interleave successful invocations,
at times no earlier than the last one, with what happens to the contracts around it elsewhere.
Failed invocations are rolled back and are no steps.
-/

namespace Backit.Soroban

open Contract Lib

/-- A deployed contract: its storage, the contracts around it, and what the last ledger close left
of the clock. -/
structure Deployment (σ P : Type) where
  store : σ
  peers : P
  timestamp : Nat
  sequence : Nat

/-- A successful invocation: its environment, its entry point and arguments, and its effects, most
recent first. -/
structure Invocation (Op E : Type) where
  env : Env
  op : Op
  effects : List (Effect E)

inductive Happening (Op E : Type) where
  | invoked (invocation : Invocation Op E)
  | elsewhere

/-- The invocation that a step is, if it is one. -/
def Happening.invocation {Op E : Type} : Happening Op E → Option (Invocation Op E)
  | .invoked i => some i
  | .elsewhere => none

/-- The invocations in a history. -/
def invocations {Op E : Type} (history : List (Happening Op E)) : List (Invocation Op E) :=
  history.filterMap Happening.invocation

@[simp] theorem invocations_nil {Op E : Type} : invocations ([] : List (Happening Op E)) = [] := rfl

@[simp] theorem invocations_invoked {Op E : Type} (i : Invocation Op E)
    (history : List (Happening Op E)) :
    invocations (.invoked i :: history) = i :: invocations history := rfl

@[simp] theorem invocations_elsewhere {Op E : Type} (history : List (Happening Op E)) :
    invocations (.elsewhere :: history) = invocations history := rfl

theorem mem_invocations {Op E : Type} {history : List (Happening Op E)} {i : Invocation Op E} :
    i ∈ invocations history ↔ .invoked i ∈ history := by
  constructor
  · intro hi
    obtain ⟨l, hl, heq⟩ := List.mem_filterMap.mp hi
    cases l with
    | invoked i =>
      cases heq
      exact hl
    | elsewhere => cases heq
  · exact fun hi => List.mem_filterMap.mpr ⟨_, hi, rfl⟩

variable {σ P Op E ε : Type}

/-- The frame an invocation starts from. -/
def Deployment.frame (d : Deployment σ P) : Frame σ P E := ⟨d.store, d.peers, []⟩

/-- What an invocation leaves. -/
def Deployment.after (env : Env) (f : Frame σ P E) : Deployment σ P :=
  ⟨f.store, f.tokens, env.timestamp, env.sequence⟩

/-- What the host grants an invocation of the contract at an address: the clock does not run
backwards, and the running contract is not among those who authorise it. -/
structure Admissible (address : Address) (d : Deployment σ P) (env : Env) : Prop where
  contract : env.contract = address
  foreign : address ∉ env.auths
  timestamp : d.timestamp ≤ env.timestamp
  sequence : d.sequence ≤ env.sequence

instance (address : Address) (d : Deployment σ P) (env : Env) :
    Decidable (Admissible address d env) :=
  decidable_of_iff (env.contract = address ∧ address ∉ env.auths ∧ d.timestamp ≤ env.timestamp ∧
    d.sequence ≤ env.sequence)
    ⟨fun h => ⟨h.1, h.2.1, h.2.2.1, h.2.2.2⟩,
      fun h => ⟨h.contract, h.foreign, h.timestamp, h.sequence⟩⟩

variable (perform : Op → Contract (Frame σ P E) ε Unit) (self : Address) (outside : P → P → Prop)

/-- One step of the contract at address `self`. The relation `outside` bounds what happens to the
contracts around it elsewhere. -/
inductive ContractStep : Deployment σ P → Happening Op E → Deployment σ P → Prop where
  | invoked {d env op f} : Admissible self d env → run (perform op) env d.frame = .ok ((), f) →
      ContractStep d (.invoked ⟨env, op, f.effects⟩) (.after env f)
  | elsewhere {d peers} :
      outside d.peers peers → ContractStep d .elsewhere { d with peers := peers }

/-- The executions of the contract at address `self` from its deployment on. -/
def contractSystem (start : Deployment σ P → Prop) :
    System (Deployment σ P) (Happening Op E) where
  initial := start
  step := ContractStep perform self outside

section Replay

/-- Run an invocation. -/
def Deployment.next (d : Deployment σ P) : Env × Op → Option (Happening Op E × Deployment σ P)
  | (env, op) =>
    if Admissible self d env then
      match run (perform op) env d.frame with
      | .ok (_, f) => some (.invoked ⟨env, op, f.effects⟩, .after env f)
      | .error _ => none
    else none

variable {perform self outside}

/-- An invocation that succeeds is a step. -/
theorem Deployment.next_step {start : Deployment σ P → Prop} (d : Deployment σ P)
    (input : Env × Op) (l : Happening Op E) (d' : Deployment σ P)
    (h : d.next perform self input = some (l, d')) :
    (contractSystem perform self outside start).step d l d' := by
  obtain ⟨env, op⟩ := input
  unfold Deployment.next at h
  dsimp only at h
  split at h
  · next hadmissible =>
    split at h
    · next f hrun =>
      cases h
      exact .invoked hadmissible hrun
    · cases h
  · cases h

end Replay

section Invariant

variable {perform self outside} {start : Deployment σ P → Prop}
  {guard : System.Guard (Deployment σ P) (Happening Op E)}

variable {history : List (Happening Op E)} {d : Deployment σ P}

/-- Induction over executions: the property holds at the start, every invocation preserves it, and
so does what happens elsewhere. -/
theorem contract_invariant {I : List (Happening Op E) → Deployment σ P → Prop}
    (hstart : ∀ d, start d → I [] d) (hinvoked : ∀ h d env op f,
      (contractSystem perform self outside start).RunWhere guard h d → I h d →
      Admissible self d env → run (perform op) env d.frame = .ok ((), f) →
      guard h d (.invoked ⟨env, op, f.effects⟩) →
      I (.invoked ⟨env, op, f.effects⟩ :: h) (.after env f))
    (helsewhere : ∀ h d peers,
      (contractSystem perform self outside start).RunWhere guard h d → I h d →
      outside d.peers peers → I (.elsewhere :: h) { d with peers := peers })
    (run : (contractSystem perform self outside start).RunWhere guard history d) :
    I history d := by
  refine run.invariant hstart ?_
  intro h s l s' hrun ih hstep hguard
  cases hstep with
  | invoked hadmissible hinvoke => exact hinvoked h s _ _ _ hrun ih hadmissible hinvoke hguard
  | elsewhere hout => exact helsewhere h s _ hrun ih hout

/-- What every invocation preserves of the store holds in every execution. -/
theorem store_invariant {I : σ → Prop} (hstart : ∀ d, start d → I d.store)
    (hinvoked : ∀ h d env op f,
      (contractSystem perform self outside start).RunWhere guard h d → I d.store →
      Admissible self d env → run (perform op) env d.frame = .ok ((), f) →
      guard h d (.invoked ⟨env, op, f.effects⟩) → I f.store)
    (run : (contractSystem perform self outside start).RunWhere guard history d) : I d.store :=
  contract_invariant (I := fun _ d => I d.store) hstart hinvoked (fun _ _ _ _ ih _ => ih) run

variable [Tokens P] {owed : σ → Address → Int}

/-- A contract holds what it owes when nothing elsewhere takes its tokens and no invocation adds
more to what it owes than to what it holds. -/
theorem owed_le_balance (hundrained : Undrained self outside) (hstart : ∀ d, start d →
      ∀ token held, Tokens.balance d.peers token self = some held → owed d.store token ≤ held)
    (hinvoked : ∀ h d env op f,
      (contractSystem perform self outside start).RunWhere guard h d → Admissible self d env →
      run (perform op) env d.frame = .ok ((), f) →
      ∀ token held', Tokens.balance f.tokens token env.contract = some held' →
        ∃ held, Tokens.balance d.peers token env.contract = some held ∧
          owed f.store token - owed d.store token ≤ held' - held)
    (run : (contractSystem perform self outside start).RunWhere guard history d) :
    ∀ token held, Tokens.balance d.peers token self = some held → owed d.store token ≤ held := by
  refine contract_invariant (I := fun _ d => ∀ token held,
    Tokens.balance d.peers token self = some held → owed d.store token ≤ held) hstart ?_ ?_ run
  · intro h d env op f hrun ih hadmissible hinvoke _ token held' hheld'
    obtain rfl := hadmissible.contract
    obtain ⟨held, hheld, hle⟩ := hinvoked h d env op f hrun hadmissible hinvoke token held' hheld'
    have hbefore := ih token held hheld
    show owed f.store token ≤ held'
    omega
  · intro h d peers _ ih hout token held' hheld'
    obtain ⟨held, hheld, hle⟩ := hundrained _ _ hout token held' hheld'
    exact (ih token held hheld).trans hle

/-- The same for a contract that only transfers tokens. -/
theorem owed_le_transferred (hexact : ExactTransfers P) (hundrained : Undrained self outside)
    (hstart : ∀ d, start d →
      ∀ token held, Tokens.balance d.peers token self = some held → owed d.store token ≤ held)
    (hinvoked : ∀ h d env op f,
      (contractSystem perform self outside start).RunWhere guard h d → env.contract ∉ env.auths →
      run (perform op) env d.frame = .ok ((), f) →
      ∃ effects : List (Effect E), Replays env d.peers effects f.tokens ∧
        (∀ e ∈ effects, e.onlyTransfers = true) ∧ ∀ token, owed f.store token ≤
          owed d.store token + (effects.map (Effect.moved token env.contract)).sum)
    (run : (contractSystem perform self outside start).RunWhere guard history d) :
    ∀ token held, Tokens.balance d.peers token self = some held → owed d.store token ≤ held := by
  refine owed_le_balance hundrained hstart (fun h d env op f hrun hadmissible hinvoke token held'
    hheld' => ?_) run
  have hforeign : env.contract ∉ env.auths := hadmissible.contract ▸ hadmissible.foreign
  obtain ⟨effects, hreplay, honly, howed⟩ := hinvoked h d env op f hrun hforeign hinvoke
  rw [hexact.replayed hreplay honly] at hheld'
  obtain ⟨held, hheld, rfl⟩ := Option.map_eq_some_iff.mp hheld'
  have hchange := howed token
  exact ⟨held, hheld, by omega⟩

end Invariant

end Backit.Soroban
