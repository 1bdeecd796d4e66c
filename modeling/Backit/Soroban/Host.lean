import Backit.Soroban.Int128

/-!
# The host

## The host and other contracts

Token contracts, the deployer and the cryptographic functions are not part of the contracts
modelled here. `Crypto` and `Tokens` are the operations the contracts use of them, and every
theorem that relies on how they behave names what it relies on as a hypothesis. A contract's
`Frame` is its own storage, the state of the token contracts, and the effects of the running
invocation in the order they happened, most recent first.
-/

namespace Backit.Soroban

/-- The host functions for hashing and for checking a signature. `ed25519Verify` is the check
that decides whether the host function returns or aborts the invocation. -/
class Crypto where
  sha256 : Bytes → BytesN 32
  ed25519Verify : BytesN 32 → Bytes → BytesN 64 → Bool

/-- The network that the ledger belongs to, and the XDR encoding of addresses. -/
class Network where
  networkId : BytesN 32
  addressXdr : Address → Bytes

/-- Token contracts and the deployer, as seen through the calls that reach them. `none` is a call
that traps. The environment names the calling contract and who authorised the invocation. -/
class Tokens (T : Type) where
  balance : T → Address → Address → Option Int
  transfer : Env → Address → Address → Address → Int → T → Option T
  mint : Env → Address → Address → Int → T → Option T
  clawback : Env → Address → Address → Int → T → Option T
  deploy : Env → BytesN 32 → BytesN 32 → T → Option (Address × T)

/-- What an invocation does outside its own storage: calls to token contracts, deployments, and
published events. -/
inductive Effect (E : Type) where
  | transfer (token sender recipient : Address) (amount : Int)
  | mint (token recipient : Address) (amount : Int)
  | clawback (token holder : Address) (amount : Int)
  | deploy (token : Address)
  | event (event : E)
  deriving DecidableEq

/-- The state an invocation of a contract with storage `σ` and events `E` works on. -/
structure Frame (σ T E : Type) where
  store : σ
  tokens : T
  effects : List (Effect E)

variable {σ T E ε α β : Type}

namespace Frame

/-- Record an effect and the token state it leaves. -/
def record (f : Frame σ T E) (tokens : T) (effect : Effect E) : Frame σ T E :=
  { f with tokens := tokens, effects := effect :: f.effects }

@[simp] theorem record_store (f : Frame σ T E) (tokens : T) (effect : Effect E) :
    (f.record tokens effect).store = f.store := rfl

@[simp] theorem record_tokens (f : Frame σ T E) (tokens : T) (effect : Effect E) :
    (f.record tokens effect).tokens = tokens := rfl

@[simp] theorem record_effects (f : Frame σ T E) (tokens : T) (effect : Effect E) :
    (f.record tokens effect).effects = effect :: f.effects := rfl

end Frame

namespace Contract

/-- The contract's storage. -/
def getStore : Contract (Frame σ T E) ε σ := fun _ f => .ok (f.store, f)

/-- Replace the contract's storage by a function of it. -/
def modifyStore (g : σ → σ) : Contract (Frame σ T E) ε Unit :=
  fun _ f => .ok ((), { f with store := g f.store })

/-- `env.events().publish(..)`. -/
def publish (event : E) : Contract (Frame σ T E) ε Unit :=
  fun _ f => .ok ((), f.record f.tokens (.event event))

/-- Publish events in order. -/
def publishAll (events : List E) : Contract (Frame σ T E) ε Unit :=
  fun _ f => .ok ((), { f with effects := events.reverse.map .event ++ f.effects })

/-- Abort unless the signature is the key's over the message. -/
def ed25519Verify [Crypto] (key : BytesN 32) (message : Bytes) (signature : BytesN 64) :
    Contract σ ε Unit :=
  rejectIf (Crypto.ed25519Verify key message signature = false) .external

section Tokens

variable [Tokens T]

/-- `token.balance(who)`. -/
def tokenBalance (token who : Address) : Contract (Frame σ T E) ε Int := fun _ f =>
  match Tokens.balance f.tokens token who with
  | some amount => .ok (amount, f)
  | none => .error .external

/-- `token.transfer(sender, recipient, amount)`. -/
def tokenTransfer (token sender recipient : Address) (amount : Int) :
    Contract (Frame σ T E) ε Unit := fun env f =>
  match Tokens.transfer env token sender recipient amount f.tokens with
  | some tokens => .ok ((), f.record tokens (.transfer token sender recipient amount))
  | none => .error .external

/-- `token.mint(recipient, amount)`. -/
def tokenMint (token recipient : Address) (amount : Int) : Contract (Frame σ T E) ε Unit :=
  fun env f =>
    match Tokens.mint env token recipient amount f.tokens with
    | some tokens => .ok ((), f.record tokens (.mint token recipient amount))
    | none => .error .external

/-- `token.clawback(holder, amount)`. -/
def tokenClawback (token holder : Address) (amount : Int) : Contract (Frame σ T E) ε Unit :=
  fun env f =>
    match Tokens.clawback env token holder amount f.tokens with
    | some tokens => .ok ((), f.record tokens (.clawback token holder amount))
    | none => .error .external

/-- Deploy a token contract from a wasm hash under the contract's own address and a salt. -/
def deployToken (wasmHash salt : BytesN 32) : Contract (Frame σ T E) ε Address := fun env f =>
  match Tokens.deploy env wasmHash salt f.tokens with
  | some (token, tokens) => .ok (token, f.record tokens (.deploy token))
  | none => .error .external

end Tokens

variable {environment : Env} {f f' : Frame σ T E} {b : β}

@[simp] theorem run_getStore_bind (k : σ → Contract (Frame σ T E) ε β) :
    run (getStore >>= k) environment f = run (k f.store) environment f := by
  simp only [run, bind, getStore]

@[simp] theorem run_modifyStore_bind (g : σ → σ) (k : Unit → Contract (Frame σ T E) ε β) :
    run (modifyStore g >>= k) environment f =
      run (k ()) environment { f with store := g f.store } := by
  simp only [run, bind, modifyStore]

@[simp] theorem run_modifyStore (g : σ → σ) (u : Unit) :
    run (modifyStore g : Contract (Frame σ T E) ε Unit) environment f = .ok (u, f') ↔
      f' = { f with store := g f.store } := by
  simp [run, modifyStore, eq_comm]

@[simp] theorem run_publish_bind (event : E) (k : Unit → Contract (Frame σ T E) ε β) :
    run (publish event >>= k) environment f =
      run (k ()) environment (f.record f.tokens (.event event)) := by
  simp only [run, bind, publish]

@[simp] theorem run_publish (event : E) (u : Unit) :
    run (publish event : Contract (Frame σ T E) ε Unit) environment f = .ok (u, f') ↔
      f' = f.record f.tokens (.event event) := by
  simp [run, publish, eq_comm]

@[simp] theorem run_publishAll (events : List E) (u : Unit) :
    run (publishAll events : Contract (Frame σ T E) ε Unit) environment f = .ok (u, f') ↔
      f' = { f with effects := events.reverse.map .event ++ f.effects } := by
  simp [run, publishAll, eq_comm]

@[simp] theorem run_ed25519Verify_bind [Crypto] (key : BytesN 32) (message : Bytes)
    (signature : BytesN 64) {s s' : σ} (k : Unit → Contract σ ε β) :
    run (ed25519Verify key message signature >>= k) environment s = .ok (b, s') ↔
      Crypto.ed25519Verify key message signature = true ∧
        run (k ()) environment s = .ok (b, s') := by
  simp [ed25519Verify]

section Tokens

variable [Tokens T]

@[simp] theorem run_tokenBalance_bind (token who : Address) (k : Int → Contract (Frame σ T E) ε β) :
    run (tokenBalance token who >>= k) environment f = .ok (b, f') ↔
      ∃ amount, Tokens.balance f.tokens token who = some amount ∧
        run (k amount) environment f = .ok (b, f') := by
  cases h : Tokens.balance f.tokens token who <;> simp [run, bind, tokenBalance, h]

@[simp] theorem run_tokenTransfer_bind (token sender recipient : Address) (amount : Int)
    (k : Unit → Contract (Frame σ T E) ε β) :
    run (tokenTransfer token sender recipient amount >>= k) environment f = .ok (b, f') ↔
      ∃ tokens, Tokens.transfer environment token sender recipient amount f.tokens = some tokens ∧
        run (k ()) environment (f.record tokens (.transfer token sender recipient amount)) =
          .ok (b, f') := by
  cases h : Tokens.transfer environment token sender recipient amount f.tokens <;>
    simp [run, bind, tokenTransfer, h]

@[simp] theorem run_tokenTransfer (token sender recipient : Address) (amount : Int) (u : Unit) :
    run (tokenTransfer token sender recipient amount : Contract (Frame σ T E) ε Unit)
        environment f = .ok (u, f') ↔
      ∃ tokens, Tokens.transfer environment token sender recipient amount f.tokens = some tokens ∧
        f' = f.record tokens (.transfer token sender recipient amount) := by
  cases h : Tokens.transfer environment token sender recipient amount f.tokens <;>
    simp [run, tokenTransfer, h, eq_comm]

@[simp] theorem run_tokenMint_bind (token recipient : Address) (amount : Int)
    (k : Unit → Contract (Frame σ T E) ε β) :
    run (tokenMint token recipient amount >>= k) environment f = .ok (b, f') ↔
      ∃ tokens, Tokens.mint environment token recipient amount f.tokens = some tokens ∧
        run (k ()) environment (f.record tokens (.mint token recipient amount)) = .ok (b, f') := by
  cases h : Tokens.mint environment token recipient amount f.tokens <;>
    simp [run, bind, tokenMint, h]

@[simp] theorem run_tokenClawback_bind (token holder : Address) (amount : Int)
    (k : Unit → Contract (Frame σ T E) ε β) :
    run (tokenClawback token holder amount >>= k) environment f = .ok (b, f') ↔
      ∃ tokens, Tokens.clawback environment token holder amount f.tokens = some tokens ∧
        run (k ()) environment (f.record tokens (.clawback token holder amount)) = .ok (b, f') := by
  cases h : Tokens.clawback environment token holder amount f.tokens <;>
    simp [run, bind, tokenClawback, h]

@[simp] theorem run_deployToken_bind (wasmHash salt : BytesN 32)
    (k : Address → Contract (Frame σ T E) ε β) :
    run (deployToken wasmHash salt >>= k) environment f = .ok (b, f') ↔
      ∃ token tokens, Tokens.deploy environment wasmHash salt f.tokens = some (token, tokens) ∧
        run (k token) environment (f.record tokens (.deploy token)) = .ok (b, f') := by
  cases h : Tokens.deploy environment wasmHash salt f.tokens with
  | none => simp [run, bind, deployToken, h]
  | some result =>
    obtain ⟨token, tokens⟩ := result
    simp [run, bind, deployToken, h]

end Tokens

/-- What a successful run of a do-block says of each of its statements: the `run_*` lemmas under
one name. -/
theorem run_steps :
    ((∀ {σ ε α β : Type} {environment : Env} {s : σ} (a : α) (k : α → Contract σ ε β),
        run (pure a >>= k) environment s = run (k a) environment s) ∧
      (∀ {σ ε α : Type} {environment : Env} {s : σ} (a : α),
        run (pure a : Contract σ ε α) environment s = .ok (a, s)) ∧
      (∀ {σ ε β : Type} {environment : Env} {s : σ} (k : Env → Contract σ ε β),
        run (env >>= k) environment s = run (k environment) environment s) ∧
      (∀ {σ ε β : Type} {environment : Env} {s s' : σ} {b : β} (who : Address)
        (k : Unit → Contract σ ε β), run (requireAuth who >>= k) environment s = .ok (b, s') ↔
          who ∈ environment.auths ∧ run (k ()) environment s = .ok (b, s')) ∧
      (∀ {σ ε β : Type} {environment : Env} {s s' : σ} {b : β} (c : Prop) [Decidable c]
        (e : Failure ε) (k : Unit → Contract σ ε β),
        run (rejectIf c e >>= k) environment s = .ok (b, s') ↔
          ¬c ∧ run (k ()) environment s = .ok (b, s')) ∧
      (∀ {σ ε α β : Type} {environment : Env} {s s' : σ} {b : β} (o : Option α) (e : Failure ε)
        (k : α → Contract σ ε β), run (unwrap o e >>= k) environment s = .ok (b, s') ↔
          ∃ a, o = some a ∧ run (k a) environment s = .ok (b, s')) ∧
      (∀ {σ ε β : Type} {environment : Env} {s s' : σ} {b : β} (x : Int)
        (k : Int → Contract σ ε β), run (i128 x >>= k) environment s = .ok (b, s') ↔
          InI128 x ∧ run (k x) environment s = .ok (b, s')) ∧
      ∀ {σ ε β : Type} {environment : Env} {s s' : σ} {b : β} (width x : Nat)
        (k : Nat → Contract σ ε β), run (unsigned width x >>= k) environment s = .ok (b, s') ↔
          x < 2 ^ width ∧ run (k x) environment s = .ok (b, s')) ∧
    ((∀ {σ T E ε β : Type} {environment : Env} {f : Frame σ T E}
        (k : σ → Contract (Frame σ T E) ε β),
        run (getStore >>= k) environment f = run (k f.store) environment f) ∧
      (∀ {σ T E ε β : Type} {environment : Env} {f : Frame σ T E} (g : σ → σ)
        (k : Unit → Contract (Frame σ T E) ε β), run (modifyStore g >>= k) environment f =
          run (k ()) environment { f with store := g f.store }) ∧
      (∀ {σ T E ε : Type} {environment : Env} {f f' : Frame σ T E} (g : σ → σ) (u : Unit),
        run (modifyStore g : Contract (Frame σ T E) ε Unit) environment f = .ok (u, f') ↔
          f' = { f with store := g f.store }) ∧
      (∀ {σ T E ε β : Type} {environment : Env} {f : Frame σ T E} (event : E)
        (k : Unit → Contract (Frame σ T E) ε β), run (publish event >>= k) environment f =
          run (k ()) environment (f.record f.tokens (.event event))) ∧
      ∀ {σ T E ε : Type} {environment : Env} {f f' : Frame σ T E} (event : E) (u : Unit),
        run (publish event : Contract (Frame σ T E) ε Unit) environment f = .ok (u, f') ↔
          f' = f.record f.tokens (.event event)) ∧
    (∀ {T E σ ε β : Type} [Tokens T] {environment : Env} {f f' : Frame σ T E} {b : β}
        (token who : Address) (k : Int → Contract (Frame σ T E) ε β),
        run (tokenBalance token who >>= k) environment f = .ok (b, f') ↔
          ∃ amount, Tokens.balance f.tokens token who = some amount ∧
            run (k amount) environment f = .ok (b, f')) ∧
      (∀ {T E σ ε β : Type} [Tokens T] {environment : Env} {f f' : Frame σ T E} {b : β}
        (token sender recipient : Address) (amount : Int)
        (k : Unit → Contract (Frame σ T E) ε β),
        run (tokenTransfer token sender recipient amount >>= k) environment f = .ok (b, f') ↔
          ∃ tokens,
            Tokens.transfer environment token sender recipient amount f.tokens = some tokens ∧
            run (k ()) environment (f.record tokens (.transfer token sender recipient amount)) =
              .ok (b, f')) ∧
      ∀ {ε α σ : Type} {a b : α} {s s' : σ},
        (.ok (a, s) : Except (Failure ε) (α × σ)) = .ok (b, s') ↔ a = b ∧ s = s' :=
  ⟨⟨run_pure_bind, fun a => run_pure a _ _, run_env_bind, run_requireAuth_bind, run_rejectIf_bind,
    run_unwrap_bind, run_i128_bind, run_unsigned_bind⟩,
    ⟨run_getStore_bind, run_modifyStore_bind, run_modifyStore, run_publish_bind, run_publish⟩,
    run_tokenBalance_bind, run_tokenTransfer_bind,
    by simp only [Except.ok.injEq, Prod.mk.injEq, implies_true]⟩

theorem ReadOnly.getStore : ReadOnly (getStore : Contract (Frame σ T E) ε σ) := by
  intro environment s b s' h
  cases h
  rfl

theorem ReadOnly.tokenBalance [Tokens T] (token who : Address) :
    ReadOnly (tokenBalance token who : Contract (Frame σ T E) ε Int) := by
  intro environment s b s' h
  cases hbalance : Tokens.balance s.tokens token who with
  | none => simp [run, Contract.tokenBalance, hbalance] at h
  | some amount =>
    simp only [run, Contract.tokenBalance, hbalance, Except.ok.injEq, Prod.mk.injEq] at h
    exact h.2.symm

end Contract

section Replay

variable [Tokens T]

/-- `Replays env tokens effects tokens'` performs the effects on the token contracts in the order
they happened, oldest (last in the list) first. -/
inductive Replays (env : Env) (tokens : T) : List (Effect E) → T → Prop where
  | nil : Replays env tokens [] tokens
  | transfer {effects current next token sender recipient amount} :
      Replays env tokens effects current →
      Tokens.transfer env token sender recipient amount current = some next →
      Replays env tokens (.transfer token sender recipient amount :: effects) next
  | mint {effects current next token recipient amount} : Replays env tokens effects current →
      Tokens.mint env token recipient amount current = some next →
      Replays env tokens (.mint token recipient amount :: effects) next
  | clawback {effects current next token holder amount} : Replays env tokens effects current →
      Tokens.clawback env token holder amount current = some next →
      Replays env tokens (.clawback token holder amount :: effects) next
  | deploy {effects current next token wasmHash salt} : Replays env tokens effects current →
      Tokens.deploy env wasmHash salt current = some (token, next) →
      Replays env tokens (.deploy token :: effects) next
  | event {effects current event} :
      Replays env tokens effects current → Replays env tokens (.event event :: effects) current

variable {env : Env} {t t₁ t₂ : T} {first later : List (Effect E)}

/-- Effects that continue where others ended. -/
theorem Replays.append (hfirst : Replays env t first t₁) (hlater : Replays env t₁ later t₂) :
    Replays env t (later ++ first) t₂ := by
  induction hlater with
  | nil => exact hfirst
  | transfer _ hcall ih => exact ih.transfer hcall
  | mint _ hcall ih => exact ih.mint hcall
  | clawback _ hcall ih => exact ih.clawback hcall
  | deploy _ hcall ih => exact ih.deploy hcall
  | event _ ih => exact ih.event

/-- Effects in two parts are performed one after the other. -/
theorem Replays.split (h : Replays env t (later ++ first) t₂) :
    ∃ t₁, Replays env t first t₁ ∧ Replays env t₁ later t₂ := by
  induction later generalizing t₂ with
  | nil => exact ⟨t₂, h, .nil⟩
  | cons e rest ih =>
    cases h with
    | transfer hrest hcall =>
      obtain ⟨t₁, hfirst, hlater⟩ := ih hrest
      exact ⟨t₁, hfirst, hlater.transfer hcall⟩
    | mint hrest hcall =>
      obtain ⟨t₁, hfirst, hlater⟩ := ih hrest
      exact ⟨t₁, hfirst, hlater.mint hcall⟩
    | clawback hrest hcall =>
      obtain ⟨t₁, hfirst, hlater⟩ := ih hrest
      exact ⟨t₁, hfirst, hlater.clawback hcall⟩
    | deploy hrest hcall =>
      obtain ⟨t₁, hfirst, hlater⟩ := ih hrest
      exact ⟨t₁, hfirst, hlater.deploy hcall⟩
    | event hrest =>
      obtain ⟨t₁, hfirst, hlater⟩ := ih hrest
      exact ⟨t₁, hfirst, hlater.event⟩

/-- Publishing events does not reach the token contracts. -/
theorem Replays.events (h : Replays env t first t₁) (events : List E) :
    Replays env t (events.map .event ++ first) t₁ := by
  induction events with
  | nil => exact h
  | cons e rest ih => exact ih.event

end Replay

end Backit.Soroban

/-!
## Totals over the effects of an invocation

What an invocation paid, minted, took back or announced, as sums over its effects.
-/

namespace Backit.Soroban

variable {E : Type}

namespace Effect

/-- A quantity of the event, when the effect is one. -/
def onEvent (quantity : E → Int) : Effect E → Int
  | .event e => quantity e
  | _ => 0

/-- The amount a transfer pays to an address. -/
def paidTo (who : Address) : Effect E → Int
  | .transfer _ _ recipient amount => if recipient = who then amount else 0
  | _ => 0

/-- The amount a transfer of a token moves from one address to another. -/
def paidFrom (token sender recipient : Address) : Effect E → Int
  | .transfer t s r amount => if t = token ∧ s = sender ∧ r = recipient then amount else 0
  | _ => 0

/-- The amount by which the effect changes the supply of a token. -/
def supplyChange (token : Address) : Effect E → Int
  | .mint t _ amount => if t = token then amount else 0
  | .clawback t _ amount => if t = token then -amount else 0
  | _ => 0

end Effect

/-- The sum of a quantity over effects. -/
def effectTotal (quantity : Effect E → Int) (effects : List (Effect E)) : Int :=
  (effects.map quantity).sum

variable (quantity : Effect E → Int)

@[simp] theorem effectTotal_nil : effectTotal quantity [] = 0 := rfl

@[simp] theorem effectTotal_cons (e : Effect E) (rest : List (Effect E)) :
    effectTotal quantity (e :: rest) = quantity e + effectTotal quantity rest := rfl

@[simp] theorem effectTotal_append (later first : List (Effect E)) :
    effectTotal quantity (later ++ first) =
      effectTotal quantity later + effectTotal quantity first := by
  simp [effectTotal]

/-- Effects that do not count towards the quantity. -/
theorem effectTotal_eq_zero {effects : List (Effect E)} (h : ∀ e ∈ effects, quantity e = 0) :
    effectTotal quantity effects = 0 := by
  induction effects with
  | nil => rfl
  | cons e rest ih =>
    rw [effectTotal_cons, h e (by simp), ih fun e he => h e (by simp [he]), add_zero]

end Backit.Soroban
