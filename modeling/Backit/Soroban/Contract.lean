import Mathlib.Data.List.AList

/-!
# Contract invocations on the Soroban host

An entry point is a computation that reads the invocation's environment and threads the
contract's state. It either returns, with the state it leaves, or fails; a failed invocation is
rolled back by the host, so a failure carries no state. The `run_*_bind` lemmas turn a successful
run of a do-block into the conjunction of the checks it passed, one statement at a time, and are
the simp set every specification lemma of the contracts is proved with.
-/

namespace Backit.Soroban

/-- An account or contract address. -/
structure Address where
  id : Nat
  deriving DecidableEq

/-- A byte string. -/
abbrev Bytes := List UInt8

/-- A byte string of a fixed length. -/
structure BytesN (n : Nat) where
  bytes : Bytes
  size_eq : bytes.length = n
  deriving DecidableEq

/-- A host map: at most one value per key. -/
abbrev Map (K V : Type) := AList fun _ : K => V

/-- What the host tells a contract about the running invocation: the contract's own address,
the ledger's timestamp and sequence number, and the addresses that authorised the invocation. -/
structure Env where
  contract : Address
  timestamp : Nat
  sequence : Nat
  auths : List Address
  deriving DecidableEq

/-- Why an invocation failed: an error code the contract returned, a panic with its message, a
missing authorisation, an arithmetic trap, or a trap inside a call to another contract. -/
inductive Failure (ε : Type) where
  | error (code : ε)
  | panic (message : String)
  | unauthorized (who : Address)
  | arithmetic
  | external
  deriving DecidableEq

/-- A computation of a contract with state `σ` and error codes `ε`. -/
def Contract (σ ε α : Type) : Type := Env → σ → Except (Failure ε) (α × σ)

namespace Contract

variable {σ ε α β : Type}

/-- Run a computation in an environment and a state. -/
def run (x : Contract σ ε α) (env : Env) (s : σ) : Except (Failure ε) (α × σ) := x env s

instance : Monad (Contract σ ε) where
  pure a := fun _ s => .ok (a, s)
  bind x f := fun env s =>
    match x env s with
    | .ok (a, s') => f a env s'
    | .error e => .error e

/-- Abort the invocation. -/
def fail (e : Failure ε) : Contract σ ε α := fun _ _ => .error e

/-- The environment of the invocation. -/
def env : Contract σ ε Env := fun env s => .ok (env, s)

/-- The current state. -/
def get : Contract σ ε σ := fun _ s => .ok (s, s)

/-- Replace the state by a function of it. -/
def modify (f : σ → σ) : Contract σ ε Unit := fun _ s => .ok ((), f s)

/-- `address.require_auth()`. -/
def requireAuth (who : Address) : Contract σ ε Unit := fun env s =>
  if who ∈ env.auths then .ok ((), s) else .error (.unauthorized who)

/-- Abort with `e` when the condition holds. -/
def rejectIf (c : Prop) [Decidable c] (e : Failure ε) : Contract σ ε Unit := fun _ s =>
  if c then .error e else .ok ((), s)

/-- The value of an option, or abort with `e`. -/
def unwrap (o : Option α) (e : Failure ε) : Contract σ ε α := fun _ s =>
  match o with
  | some a => .ok (a, s)
  | none => .error e

/-- Run a computation for its effect alone. -/
def ignore (x : Contract σ ε α) : Contract σ ε Unit := x >>= fun _ => pure ()

variable {environment : Env} {s s' : σ} {b : β} {r : Except (Failure ε) (β × σ)}

@[simp] theorem run_pure (a : α) (environment : Env) (s : σ) :
    run (pure a : Contract σ ε α) environment s = .ok (a, s) := rfl

/-- A sequence returns when its first part returns and the rest returns from there. -/
theorem run_bind {x : Contract σ ε α} {f : α → Contract σ ε β} :
    run (x >>= f) environment s = .ok (b, s') ↔
      ∃ a s₁, run x environment s = .ok (a, s₁) ∧ run (f a) environment s₁ = .ok (b, s') := by
  simp only [run, bind]
  cases x environment s with
  | error e => simp
  | ok result =>
    obtain ⟨a, s₁⟩ := result
    simp

@[simp] theorem run_ignore {x : Contract σ ε α} {u : Unit} :
    run (ignore x) environment s = .ok (u, s') ↔ ∃ a, run x environment s = .ok (a, s') := by
  simp only [ignore, run_bind, run_pure, Except.ok.injEq, Prod.mk.injEq, true_and]
  constructor
  · rintro ⟨a, _, h, rfl⟩
    exact ⟨a, h⟩
  · rintro ⟨a, h⟩
    exact ⟨a, s', h, rfl⟩

/-- Sequences run alike when their first parts do and their rests do from wherever those get. -/
theorem run_bind_congr {x y : Contract σ ε α} {f g : α → Contract σ ε β}
    (hfirst : run x environment s = run y environment s)
    (hrest : ∀ a s₁, run y environment s = .ok (a, s₁) →
      run (f a) environment s₁ = run (g a) environment s₁) :
    run (x >>= f) environment s = run (y >>= g) environment s := by
  simp only [run, bind] at hfirst hrest ⊢
  rw [hfirst]
  cases h : y environment s with
  | error e => rfl
  | ok result => exact hrest result.1 result.2 h

theorem bind_assoc {γ : Type} (x : Contract σ ε α) (f : α → Contract σ ε β)
    (g : β → Contract σ ε γ) : x >>= f >>= g = x >>= fun a => f a >>= g := by
  funext environment s
  simp only [bind]
  cases x environment s with
  | error e => rfl
  | ok p => rfl

-- Not proved by `rfl`: as definitional rewrites they would make the kernel run the rest.

@[simp] theorem run_pure_bind (a : α) (f : α → Contract σ ε β) :
    run (pure a >>= f) environment s = run (f a) environment s := by
  simp only [run, bind, pure]

@[simp] theorem run_env_bind (f : Env → Contract σ ε β) :
    run (env >>= f) environment s = run (f environment) environment s := by
  simp only [run, bind, env]

@[simp] theorem run_get_bind (f : σ → Contract σ ε β) :
    run (get >>= f) environment s = run (f s) environment s := by
  simp only [run, bind, get]

@[simp] theorem run_modify_bind (g : σ → σ) (f : Unit → Contract σ ε β) :
    run (modify g >>= f) environment s = run (f ()) environment (g s) := by
  simp only [run, bind, modify]

@[simp] theorem run_modify (g : σ → σ) (u : Unit) :
    run (modify g : Contract σ ε Unit) environment s = .ok (u, s') ↔ s' = g s := by
  simp [run, modify, eq_comm]

@[simp] theorem run_requireAuth_bind (who : Address) (f : Unit → Contract σ ε β) :
    run (requireAuth who >>= f) environment s = .ok (b, s') ↔
      who ∈ environment.auths ∧ run (f ()) environment s = .ok (b, s') := by
  by_cases h : who ∈ environment.auths <;> simp [run, bind, requireAuth, h]

@[simp] theorem run_rejectIf_bind (c : Prop) [Decidable c] (e : Failure ε)
    (f : Unit → Contract σ ε β) :
    run (rejectIf c e >>= f) environment s = .ok (b, s') ↔
      ¬ c ∧ run (f ()) environment s = .ok (b, s') := by
  by_cases h : c <;> simp [run, bind, rejectIf, h]

@[simp] theorem run_unwrap_bind (o : Option α) (e : Failure ε) (f : α → Contract σ ε β) :
    run (unwrap o e >>= f) environment s = .ok (b, s') ↔
      ∃ a, o = some a ∧ run (f a) environment s = .ok (b, s') := by
  cases o <;> simp [run, bind, unwrap]

@[simp] theorem run_unwrap {a : α} (o : Option α) (e : Failure ε) {s s' : σ} :
    run (unwrap o e) environment s = .ok (a, s') ↔ o = some a ∧ s' = s := by
  cases o <;> simp [run, unwrap, eq_comm]

@[simp] theorem run_requireAuth (who : Address) (u : Unit) :
    run (requireAuth who : Contract σ ε Unit) environment s = .ok (u, s') ↔
      who ∈ environment.auths ∧ s' = s := by
  by_cases h : who ∈ environment.auths <;> simp [run, requireAuth, h, eq_comm]

@[simp] theorem run_rejectIf (c : Prop) [Decidable c] (e : Failure ε) (u : Unit) :
    run (rejectIf c e : Contract σ ε Unit) environment s = .ok (u, s') ↔ ¬ c ∧ s' = s := by
  by_cases h : c <;> simp [run, rejectIf, h, eq_comm]

section Forward

-- The equations that run a do-block forward, one statement at a time, once its checks are known.

variable {who : Address} {c : Prop} [Decidable c] {e : Failure ε} {a : α}

theorem run_requireAuth_of (h : who ∈ environment.auths) (f : Unit → Contract σ ε β) :
    run (requireAuth who >>= f) environment s = run (f ()) environment s := by
  simp only [run, bind, requireAuth, if_pos h]

theorem run_rejectIf_of (h : ¬ c) (f : Unit → Contract σ ε β) :
    run (rejectIf c e >>= f) environment s = run (f ()) environment s := by
  simp only [run, bind, rejectIf, if_neg h]

theorem run_rejectIf_error (h : c) (f : Unit → Contract σ ε β) :
    run (rejectIf c e >>= f) environment s = .error e := by
  simp only [run, bind, rejectIf, if_pos h]

theorem run_unwrap_some (f : α → Contract σ ε β) :
    run (unwrap (some a) e >>= f) environment s = run (f a) environment s := by
  simp only [run, bind, unwrap]

theorem run_unwrap_none (f : α → Contract σ ε β) :
    run (unwrap none e >>= f) environment s = .error e := by
  simp only [run, bind, unwrap]

end Forward

/-- A computation whose successful runs only relate states by `R`. -/
def Relates (R : σ → σ → Prop) (x : Contract σ ε α) : Prop :=
  ∀ environment s a s', run x environment s = .ok (a, s') → R s s'

/-- A computation that leaves the state as it is. -/
def ReadOnly (x : Contract σ ε α) : Prop := Relates (fun s s' => s' = s) x

section Relates

variable {R : σ → σ → Prop} {x y : Contract σ ε α} {k : α → Contract σ ε β}

theorem Relates.bind (htrans : ∀ {s₁ s₂ s₃}, R s₁ s₂ → R s₂ s₃ → R s₁ s₃) (hx : Relates R x)
    (hk : ∀ a, Relates R (k a)) : Relates R (x >>= k) := by
  intro environment s b s' h
  obtain ⟨a, s₁, hfirst, hrest⟩ := run_bind.mp h
  exact htrans (hx _ _ _ _ hfirst) (hk a _ _ _ _ hrest)

theorem ReadOnly.bind (hx : ReadOnly x) (hk : ∀ a, ReadOnly (k a)) : ReadOnly (x >>= k) :=
  Relates.bind (fun h₁ h₂ => h₂.trans h₁) hx hk

theorem Relates.ite {c : Prop} [Decidable c] (hx : Relates R x) (hy : Relates R y) :
    Relates R (if c then x else y) := by
  split
  · exact hx
  · exact hy

theorem ReadOnly.ite {c : Prop} [Decidable c] (hx : ReadOnly x) (hy : ReadOnly y) :
    ReadOnly (if c then x else y) :=
  Relates.ite hx hy

theorem ReadOnly.pure (a : α) : ReadOnly (pure a : Contract σ ε α) := by
  intro environment s b s' h
  cases h
  rfl

theorem ReadOnly.env : ReadOnly (env : Contract σ ε Env) := by
  intro environment s b s' h
  cases h
  rfl

theorem ReadOnly.unwrap (o : Option α) (e : Failure ε) :
    ReadOnly (unwrap o e : Contract σ ε α) := by
  intro environment s a s' h
  exact ((run_unwrap o e).mp h).2

end Relates

end Contract

end Backit.Soroban
