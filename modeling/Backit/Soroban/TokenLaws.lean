import Backit.Lib.Totals
import Backit.Soroban.Host

/-!
# Tokens

## A ledger of well-behaved tokens

Token contracts that behave as the Stellar asset contract documents: a transfer needs its sender's
authorisation and balance, only a token's administrator mints and claws back, and a deployed token
starts without holders under an address of its own. Holdings are never negative, which the type
carries.
-/

namespace Backit.Soroban

open Lib

/-- The holders of a token and what they hold. -/
structure Holdings where
  amounts : Map Address Int
  nonneg : ∀ who, 0 ≤ valueAt amounts who

namespace Holdings

def empty : Holdings := ⟨∅, by simp⟩

/-- Set what one holder has to a nonnegative amount. -/
def set (h : Holdings) (who : Address) (amount : Int) (hamount : 0 ≤ amount) : Holdings where
  amounts := h.amounts.insert who amount
  nonneg other := by
    rw [valueAt_insert]
    split
    · exact hamount
    · exact h.nonneg other

/-- The amount held by everyone together. -/
def supply (h : Holdings) : Int := total h.amounts

theorem supply_nonneg (h : Holdings) : 0 ≤ h.supply := total_nonneg h.amounts h.nonneg

end Holdings

/-- The state of all token contracts: the holders of each token, and the administrator of each
deployed one. -/
structure StandardLedger where
  holdings : Address → Holdings
  admin : Address → Option Address

namespace StandardLedger

variable (l : StandardLedger)

def setHoldings (token : Address) (h : Holdings) : StandardLedger :=
  { l with holdings := Function.update l.holdings token h }

/-- Add an amount, possibly negative, to what a holder has. -/
def credit (token who : Address) (amount : Int) : Option StandardLedger :=
  let held := valueAt (l.holdings token).amounts who
  if h : 0 ≤ held + amount then
    some (l.setHoldings token ((l.holdings token).set who (held + amount) h))
  else none

/-- The address a contract deploys to under a salt. -/
def deployedAt (deployer : Address) (salt : BytesN 32) : Address :=
  ⟨salt.bytes.foldl (fun n b => n * 256 + b.toNat) (deployer.id + 1)⟩

instance : Tokens StandardLedger where
  balance l token who := some (valueAt (l.holdings token).amounts who)
  transfer env token sender recipient amount l :=
    if 0 ≤ amount ∧ (sender ∈ env.auths ∨ sender = env.contract) then do
      let debited ← l.credit token sender (-amount)
      debited.credit token recipient amount
    else none
  mint env token recipient amount l :=
    if 0 ≤ amount ∧ l.admin token = some env.contract then l.credit token recipient amount
    else none
  clawback env token holder amount l :=
    if 0 ≤ amount ∧ l.admin token = some env.contract then l.credit token holder (-amount)
    else none
  deploy env _ salt l :=
    let token := deployedAt env.contract salt
    if (l.admin token).isSome then none
    else some (token,
      { holdings := Function.update l.holdings token .empty
        admin := Function.update l.admin token (some env.contract) })

/-- No deployed tokens, and the given holdings of the others. -/
def ofHoldings (holdings : Address → Holdings) : StandardLedger := ⟨holdings, fun _ => none⟩

end StandardLedger

/-!
## What the contracts rely on of tokens

`ExactTransfers` is the documented behaviour of a token without a transfer fee: a transfer moves
exactly its amount between two accounts and touches no other balance. The standard ledger has it.
-/

/-- What a transfer of an amount adds to an account's balance of the transferred token. -/
def transferDelta (sender recipient : Address) (amount : Int) (who : Address) : Int :=
  (if who = recipient then amount else 0) - if who = sender then amount else 0

/-- A transfer moves exactly its amount. -/
def ExactTransfers (T : Type) [Tokens T] : Prop :=
  ∀ {env : Env} {token sender recipient : Address} {amount : Int} {t t' : T},
    Tokens.transfer env token sender recipient amount t = some t' → ∀ other who,
      Tokens.balance t' other who = (Tokens.balance t other who).map (· +
        if other = token then transferDelta sender recipient amount who else 0)

/-- A contract that holds an amount can pay it to anybody. -/
def HoldersPay (T : Type) [Tokens T] : Prop :=
  ∀ (env : Env) (token recipient : Address) (amount held : Int) (t : T),
    Tokens.balance t token env.contract = some held → 0 < amount → amount ≤ held →
      ∃ t', Tokens.transfer env token env.contract recipient amount t = some t'

/-- What happens elsewhere takes no tokens out of the contract. -/
def Undrained {T : Type} [Tokens T] (self : Address) (outside : T → T → Prop) : Prop :=
  ∀ t t', outside t t' → ∀ token held', Tokens.balance t' token self = some held' →
    ∃ held, Tokens.balance t token self = some held ∧ held ≤ held'

/-- What happens elsewhere leaves the contract's balances as they are. -/
def Undisturbed {T : Type} [Tokens T] (self : Address) (outside : T → T → Prop) : Prop :=
  ∀ t t', outside t t' → ∀ token, Tokens.balance t' token self = Tokens.balance t token self

section Replayed

variable {T E : Type} [Tokens T]

/-- What an effect adds to an account's balance of a token, when it is a transfer. -/
def Effect.moved (token who : Address) : Effect E → Int
  | .transfer t sender recipient amount =>
    if token = t then transferDelta sender recipient amount who else 0
  | _ => 0

@[simp] theorem Effect.moved_event (token who : Address) (e : E) :
    (Effect.event e).moved token who = 0 := rfl

/-- The effect is no minting, clawback or deployment. -/
def Effect.onlyTransfers : Effect E → Bool
  | .transfer .. => true
  | .event _ => true
  | _ => false

/-- Replayed transfers change a balance by what they moved. -/
theorem ExactTransfers.replayed (h : ExactTransfers T) {env : Env} {t t' : T}
    {effects : List (Effect E)} (hreplay : Replays env t effects t')
    (honly : ∀ e ∈ effects, e.onlyTransfers = true) (token who : Address) :
    Tokens.balance t' token who =
      (Tokens.balance t token who).map (· + (effects.map (Effect.moved token who)).sum) := by
  induction hreplay with
  | nil => simp
  | transfer _ hcall ih =>
    rw [h hcall, ih fun e he => honly e (.tail _ he), Option.map_map]
    refine congrArg (Option.map · _) (funext fun held => ?_)
    simp only [Function.comp_apply, List.map_cons, List.sum_cons, Effect.moved]
    omega
  | event _ ih =>
    rw [ih fun e he => honly e (.tail _ he)]
    simp [Effect.moved]
  | mint => exact absurd (honly _ (.head _)) (by simp [Effect.onlyTransfers])
  | clawback => exact absurd (honly _ (.head _)) (by simp [Effect.onlyTransfers])
  | deploy => exact absurd (honly _ (.head _)) (by simp [Effect.onlyTransfers])

/-- A contract that holds the sum of some payments can make them one after the other. -/
theorem HoldersPay.pays (hpay : HoldersPay T) (hexact : ExactTransfers T) {env : Env}
    {token : Address} {paid : List (Address × Int)} {t : T} {held : Int}
    (hpositive : ∀ p ∈ paid, 0 < p.2) (hheld : Tokens.balance t token env.contract = some held)
    (hle : (paid.map Prod.snd).sum ≤ held) :
    ∃ t', Replays env t
      ((paid.map fun p => (.transfer token env.contract p.1 p.2 : Effect E)).reverse) t' := by
  induction paid generalizing t held with
  | nil => exact ⟨t, .nil⟩
  | cons p rest ih =>
    have hfirst := hpositive p (.head _)
    have hothers : 0 ≤ (rest.map Prod.snd).sum := by
      refine List.sum_nonneg fun x hx => ?_
      obtain ⟨q, hq, rfl⟩ := List.mem_map.mp hx
      exact (hpositive q (.tail _ hq)).le
    rw [List.map_cons, List.sum_cons] at hle
    obtain ⟨t₁, htransfer⟩ := hpay env token p.1 p.2 held t hheld hfirst (by omega)
    have hleft : Tokens.balance t₁ token env.contract =
        some (held + transferDelta env.contract p.1 p.2 env.contract) := by
      rw [hexact htransfer, hheld, if_pos rfl]
      rfl
    have henough : held - p.2 ≤ held + transferDelta env.contract p.1 p.2 env.contract := by
      unfold transferDelta
      split_ifs <;> omega
    obtain ⟨t', hreplay⟩ := ih (fun q hq => hpositive q (.tail _ hq)) hleft (by omega)
    refine ⟨t', ?_⟩
    rw [List.map_cons, List.reverse_cons]
    exact (Replays.nil.transfer htransfer).append hreplay

end Replayed

namespace StandardLedger

theorem balance_credit {l l' : StandardLedger} {token who : Address} {amount : Int}
    (h : l.credit token who amount = some l') (other holder : Address) :
    Tokens.balance l' other holder = (Tokens.balance l other holder).map (· +
      if other = token ∧ holder = who then amount else 0) := by
  simp only [credit] at h
  split at h
  · cases h
    simp only [Tokens.balance, setHoldings, Option.map_some, Option.some.injEq]
    by_cases hother : other = token
    · subst hother
      rw [Function.update_self, Holdings.set, valueAt_insert]
      split
      · next hholder =>
        subst hholder
        simp
      · next hholder => simp [hholder]
    · rw [Function.update_of_ne hother]
      simp [hother]
  · cases h

/-- The standard tokens charge no fee. -/
theorem exact_transfers : ExactTransfers StandardLedger := by
  intro env token sender recipient amount t t' h other who
  simp only [Tokens.transfer] at h
  split at h
  · simp only [Option.bind_eq_bind, Option.bind_eq_some_iff] at h
    obtain ⟨debited, hdebit, hcredit⟩ := h
    rw [balance_credit hcredit, balance_credit hdebit, Option.map_map]
    refine congrArg (Option.map · _) (funext fun held => ?_)
    simp only [Function.comp_apply, transferDelta]
    grind
  · cases h

theorem credit_isSome (l : StandardLedger) (token who : Address) {amount : Int}
    (h : 0 ≤ valueAt (l.holdings token).amounts who + amount) :
    ∃ l', l.credit token who amount = some l' := by
  rw [credit]
  exact ⟨_, dif_pos h⟩

/-- Holders of standard tokens can pay. -/
theorem holders_pay : HoldersPay StandardLedger := by
  intro env token recipient amount held l hheld hpositive hle
  have hsender : valueAt (l.holdings token).amounts env.contract = held := Option.some.inj hheld
  obtain ⟨debited, hdebit⟩ := credit_isSome l token env.contract
    (show 0 ≤ valueAt (l.holdings token).amounts env.contract + -amount by omega)
  have hreceives : 0 ≤ valueAt (debited.holdings token).amounts recipient + amount := by
    have := (debited.holdings token).nonneg recipient
    omega
  obtain ⟨credited, hcredit⟩ := credit_isSome debited token recipient hreceives
  refine ⟨credited, ?_⟩
  simp only [Tokens.transfer, or_true, and_true, hpositive.le, if_true, hdebit]
  exact hcredit

end StandardLedger

/-!
## The supply of tokens

What a contract relies on of the tokens it deploys: transfers move what there is, only minting and
clawing back change how much that is, and a deployment makes a token where there was none and that
nobody holds yet. The standard ledger behaves so.
-/

/-- How much of each token is outstanding, which contract issues it, and what the calls that reach
the tokens do to either. -/
structure TokenSupply (T : Type) [Tokens T] where
  supply : T → Address → Int
  issuer : T → Address → Option Address
  nonneg : ∀ t token, 0 ≤ supply t token
  transferred : ∀ {env token sender recipient amount t t'},
    Tokens.transfer env token sender recipient amount t = some t' →
      supply t' = supply t ∧ issuer t' = issuer t
  minted : ∀ {env token recipient amount t t'},
    Tokens.mint env token recipient amount t = some t' →
      supply t' = Function.update (supply t) token (supply t token + amount) ∧
        issuer t' = issuer t
  clawedBack : ∀ {env token holder amount t t'},
    Tokens.clawback env token holder amount t = some t' →
      supply t' = Function.update (supply t) token (supply t token - amount) ∧
        issuer t' = issuer t
  deployed : ∀ {env wasmHash salt token t t'},
    Tokens.deploy env wasmHash salt t = some (token, t') →
      issuer t token = none ∧ supply t' = Function.update (supply t) token 0 ∧
        issuer t' = Function.update (issuer t) token (some env.contract)

namespace TokenSupply

variable {T E : Type} [Tokens T] (ledger : TokenSupply T) {env : Env} {t t' : T}
  {effects : List (Effect E)} {token who : Address}

/-- What happens elsewhere neither issues, mints nor burns a contract's own tokens. -/
def LeftAlone (self : Address) (outside : T → T → Prop) : Prop :=
  ∀ t t', outside t t' → ∀ token, ledger.issuer t token = some self →
    ledger.issuer t' token = some self ∧ ledger.supply t' token = ledger.supply t token

/-- A token keeps its issuer, and its supply changes by what was minted and clawed back. -/
theorem replayed (hreplay : Replays env t effects t') (hissuer : ledger.issuer t token = some who) :
    ledger.issuer t' token = some who ∧
      ledger.supply t' token =
        ledger.supply t token + effectTotal (Effect.supplyChange token) effects := by
  induction hreplay with
  | nil => exact ⟨hissuer, by simp⟩
  | event _ ih => simpa [Effect.supplyChange] using ih
  | transfer _ hcall ih =>
    obtain ⟨hsupply, hsame⟩ := ledger.transferred hcall
    rw [hsupply, hsame]
    simpa [Effect.supplyChange] using ih
  | @mint _ _ _ minted _ amount _ hcall ih =>
    obtain ⟨hsupply, hsame⟩ := ledger.minted hcall
    rw [hsupply, hsame]
    refine ⟨ih.1, ?_⟩
    rw [effectTotal_cons, Effect.supplyChange]
    rcases eq_or_ne minted token with rfl | hother
    · rw [Function.update_self, if_pos rfl, ih.2]
      omega
    · rw [Function.update_of_ne hother.symm, if_neg hother, ih.2]
      omega
  | @clawback _ _ _ burned _ amount _ hcall ih =>
    obtain ⟨hsupply, hsame⟩ := ledger.clawedBack hcall
    rw [hsupply, hsame]
    refine ⟨ih.1, ?_⟩
    rw [effectTotal_cons, Effect.supplyChange]
    rcases eq_or_ne burned token with rfl | hother
    · rw [Function.update_self, if_pos rfl, ih.2]
      omega
    · rw [Function.update_of_ne hother.symm, if_neg hother, ih.2]
      omega
  | @deploy _ current _ fresh _ _ _ hcall ih =>
    obtain ⟨hfree, hsupply, hissued⟩ := ledger.deployed hcall
    have hother : token ≠ fresh := by
      rintro rfl
      exact Option.some_ne_none who (ih.1.symm.trans hfree)
    rw [hsupply, hissued, Function.update_of_ne hother, Function.update_of_ne hother]
    simpa [Effect.supplyChange] using ih

/-- Deployments make different tokens where there were none, issued by the contract and held by
nobody. -/
theorem deployments {tokens : List Address}
    (hreplay : Replays env t (tokens.map (.deploy : Address → Effect E)) t') :
    tokens.Nodup ∧ ∀ token ∈ tokens, ledger.issuer t token = none ∧
      ledger.issuer t' token = some env.contract ∧ ledger.supply t' token = 0 := by
  induction tokens generalizing t' with
  | nil => simp
  | cons fresh rest ih =>
    obtain - | - | - | - | ⟨hrest, hcall⟩ | - := hreplay
    obtain ⟨hnodup, hearlier⟩ := ih hrest
    obtain ⟨hfree, hsupply, hissued⟩ := ledger.deployed hcall
    have hnew : fresh ∉ rest := fun hmem =>
      Option.some_ne_none _ ((hearlier fresh hmem).2.1.symm.trans hfree)
    refine ⟨List.nodup_cons.mpr ⟨hnew, hnodup⟩, fun token htoken => ?_⟩
    rw [hsupply, hissued]
    rcases List.mem_cons.mp htoken with rfl | hmem
    · refine ⟨?_, Function.update_self .., Function.update_self ..⟩
      cases hbefore : ledger.issuer t token with
      | none => rfl
      | some who =>
        have hkept := (ledger.replayed hrest hbefore).1
        exact absurd (hkept.symm.trans hfree) (Option.some_ne_none who)
    · have hother : token ≠ fresh := fun heq => hnew (heq ▸ hmem)
      rw [Function.update_of_ne hother, Function.update_of_ne hother]
      exact hearlier token hmem

end TokenSupply

namespace StandardLedger

theorem credit_supply {l l' : StandardLedger} {token who : Address} {amount : Int}
    (h : l.credit token who amount = some l') :
    (fun a => (l'.holdings a).supply) =
        Function.update (fun a => (l.holdings a).supply) token
          ((l.holdings token).supply + amount) ∧ l'.admin = l.admin := by
  simp only [credit] at h
  split at h
  · cases h
    have hset : ((l.holdings token).set who
        (valueAt (l.holdings token).amounts who + amount) ‹_›).supply =
          (l.holdings token).supply + amount := by
      simp only [Holdings.supply, Holdings.set, total_insert]
      omega
    exact ⟨hset ▸ Function.comp_update Holdings.supply l.holdings token _, rfl⟩
  · cases h

/-- The supply of a standard token is what its holders have together, and its administrator issues
it. -/
def tokenSupply : TokenSupply StandardLedger where
  supply l token := (l.holdings token).supply
  issuer l token := l.admin token
  nonneg l token := (l.holdings token).supply_nonneg
  transferred := by
    intro env token sender recipient amount l l' h
    simp only [Tokens.transfer] at h
    split at h
    · simp only [Option.bind_eq_bind, Option.bind_eq_some_iff] at h
      obtain ⟨debited, hdebit, hcredit⟩ := h
      obtain ⟨hless, hadmin⟩ := credit_supply hdebit
      obtain ⟨hmore, hadmin'⟩ := credit_supply hcredit
      have htoken : (debited.holdings token).supply = (l.holdings token).supply + -amount :=
        (congrFun hless token).trans (Function.update_self ..)
      refine ⟨?_, hadmin'.trans hadmin⟩
      rw [hmore, hless, Function.update_idem, htoken, neg_add_cancel_right]
      exact Function.update_eq_self ..
    · cases h
  minted := by
    intro env token recipient amount l l' h
    simp only [Tokens.mint] at h
    split at h
    · exact credit_supply h
    · cases h
  clawedBack := by
    intro env token holder amount l l' h
    simp only [Tokens.clawback] at h
    split at h
    · exact credit_supply h
    · cases h
  deployed := by
    intro env wasmHash salt token l l' h
    simp only [Tokens.deploy] at h
    split at h
    · cases h
    · next hfree =>
      simp only [Option.some.injEq, Prod.mk.injEq] at h
      obtain ⟨rfl, rfl⟩ := h
      exact ⟨by simpa using hfree,
        Function.comp_update Holdings.supply l.holdings _ Holdings.empty, rfl⟩

end StandardLedger

end Backit.Soroban
