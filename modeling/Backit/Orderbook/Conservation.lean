import Backit.Soroban.Execution
import Backit.Orderbook.Collateral

/-!
# Conservation of collateral and shares

In every reachable state the contract holds the collateral of the minted shares and the escrow of
the open bids, and nothing else.
-/

namespace Backit.Orderbook

open Soroban Contract Lib

section Run

variable {T : Type} [Tokens T]

/-- Executions of the contract from its deployment on, when it holds nothing. -/
def orderbook (self : Address) (outside : T → T → Prop) :
    System (Deployment Storage T) (Happening BookOp Event) :=
  contractSystem BookOp.perform self outside fun d =>
    d.store = Storage.empty ∧
      ∀ token held, Tokens.balance d.peers token self = some held → held = 0

/-- The collateral token is not changed once it is configured. -/
def oneToken : System.Guard (Deployment Storage T) (Happening BookOp Event) := fun _ d l =>
  ∀ i token, l.invocation = some i → i.op = .setToken token →
    ∀ t, d.store.token = some t → t = token

/-- The collateral that was locked for shares. -/
def collateralLocked (history : List (Happening BookOp Event)) : Int :=
  ((invocations history).map fun i => i.op.locks).sum

/-- The shares of a market that were minted. -/
def sharesMinted (history : List (Happening BookOp Event)) (market : Market) : Int :=
  ((invocations history).map fun i => i.op.mints market).sum

variable {self : Address} {outside : T → T → Prop} {d : Deployment Storage T}
  {history : List (Happening BookOp Event)}

/-- Whichever token is or will be the collateral, the contract holds what was locked for shares and
what the bids have in escrow. -/
def Backed (self : Address) (history : List (Happening BookOp Event)) (d : Deployment Storage T) :
    Prop :=
  ∃ escrowed, Conserved self d.store escrowed (sharesMinted history) ∧
    ∀ token, (∀ t, d.store.token = some t → t = token) → ∀ held,
      Tokens.balance d.peers token self = some held → held = collateralLocked history + escrowed

theorem conserved_empty (contract : Address) : Conserved contract Storage.empty 0 fun _ => 0 where
  orders := by simp [Storage.empty]
  ids := by simp [Storage.empty]
  listed := by simp [Storage.empty]
  escrow := .zero
  shares market := ⟨0, .zero, .zero⟩

omit [Tokens T] in
/-- A token that is the only one configured after a step was so before it. -/
theorem Transition.before {env : Env} {op : BookOp} {effects effects' : List (Effect Event)}
    {s' : Storage} {token : Address} (h : Transition env op d.store effects s')
    (hguard : oneToken history d (.invoked ⟨env, op, effects'⟩))
    (hafter : ∀ t, s'.token = some t → t = token) (t : Address) (ht : d.store.token = some t) :
    t = token := by
  by_cases hset : ∃ t', op = .setToken t'
  · obtain ⟨t', rfl⟩ := hset
    exact (hguard _ t' rfl rfl t ht).trans (hafter t' h.token_set)
  · exact hafter t ((h.token_eq fun t' heq => hset ⟨t', heq⟩).trans ht)

theorem backed_of_run (hexact : ExactTransfers T) (hundisturbed : Undisturbed self outside)
    (run : (orderbook self outside).RunWhere oneToken history d) : Backed self history d := by
  refine contract_invariant (I := fun history d => Backed self history d) ?_ ?_ ?_ run
  · rintro d ⟨hempty, hnothing⟩
    refine ⟨0, hempty ▸ conserved_empty self, fun token _ held hheld => ?_⟩
    exact hnothing token held hheld
  · intro h d env op f _ ih hadmissible hinvoke hguard
    obtain ⟨escrowed, hs, hheld⟩ := ih
    obtain ⟨effects, -, hreplay, htransition⟩ := BookOp.transitions hinvoke
    obtain rfl := hadmissible.contract
    have hforeign := hadmissible.foreign
    have hdefault : ∀ t, d.store.token = some t → t = d.store.token.getD ⟨0⟩ := by
      intro t ht
      rw [ht, Option.getD_some]
    have hs' := htransition.conserved hs hforeign hdefault
    refine ⟨_, hs'.cast rfl fun market => add_comm _ _, fun token htoken held' hheld' => ?_⟩
    have hbefore := htransition.before hguard htoken
    have hunique := hs'.escrow.unique (htransition.conserved hs hforeign hbefore).escrow
    have hbalance := hexact.replayed hreplay htransition.only_transfers token env.contract
    obtain ⟨held, hbalance', hsum⟩ := Option.map_eq_some_iff.mp (hbalance.symm.trans hheld')
    have hkept := hheld token hbefore held hbalance'
    show held' = op.locks + collateralLocked h + _
    rw [hunique]
    unfold effectTotal
    omega
  · intro h d peers _ ih hout
    obtain ⟨escrowed, hs, hheld⟩ := ih
    refine ⟨escrowed, hs, fun token htoken held hbalance => hheld token htoken held ?_⟩
    rwa [hundisturbed _ _ hout token] at hbalance

/-- The contract holds the collateral locked for shares and the escrow of the bids, of which only
open ones have any; the minted shares are those in balances and in open asks; and an open bid's
escrow pays for the rest of the bid at its own price, and so for every fill of it. -/
theorem collateral_and_shares_conserved (hexact : ExactTransfers T)
    (hundisturbed : Undisturbed self outside)
    (run : (orderbook self outside).RunWhere oneToken history d) :
    (∃ escrowed, SumsTo (d.store.tally Order.escrow) escrowed ∧ ∀ token held,
        d.store.token = some token → Tokens.balance d.peers token self = some held →
          held = collateralLocked history + escrowed) ∧
      (∀ id o, d.store.order id = some o →
        0 ≤ o.escrow ∧ (o.escrow ≠ 0 → o.side = .bid ∧ o.active = true)) ∧
      (∀ market, ∃ onSale, SumsTo (d.store.tally (Order.onSale market)) onSale ∧
        SumsTo (d.store.shares market) (sharesMinted history market - onSale)) ∧
      ∀ id o, d.store.order id = some o → o.side = .bid → o.active = true →
        costOf (o.amount - o.filled) o.priceBps ≤ o.escrow ∧
          ∀ fill price, 0 ≤ fill → fill ≤ o.amount - o.filled → price ≤ o.priceBps →
            costOf fill price ≤ o.escrow := by
  obtain ⟨escrowed, hs, hheld⟩ := backed_of_run hexact hundisturbed run
  refine ⟨⟨escrowed, hs.escrow, fun token held htoken hbalance => ?_⟩, fun id o hstored => ?_,
    hs.shares, fun id o hstored hbid hactive => ?_⟩
  · refine hheld token (fun t ht => ?_) held hbalance
    exact Option.some.inj (ht.symm.trans htoken)
  · have hsound := hs.orders id o hstored
    exact ⟨hsound.escrow_nonneg, hsound.escrowing⟩
  · have hcovered := (hs.orders id o hstored).covered hactive hbid
    refine ⟨hcovered, fun fill price hfill hleft hprice => ?_⟩
    have hcost := costOf_fill_le hfill hleft hprice
    have hrest : 0 ≤ costOf (o.amount - o.filled - fill) o.priceBps := costOf_nonneg (by omega)
    omega

end Run

def alice : Address := ⟨1⟩

def bob : Address := ⟨2⟩

def admin : Address := ⟨10⟩

def usdc : Address := ⟨50⟩

/-- The contract's address in the scenarios. -/
def home : Address := ⟨1000⟩

/-- An invocation of the contract at a time, with the addresses that authorise it. -/
def at_ (timestamp : Nat) (auths : List Address) (op : BookOp) : Env × BookOp :=
  (⟨home, timestamp, timestamp, auths⟩, op)

/-- Nothing happens to the contracts around this one. -/
def nowhere : StandardLedger → StandardLedger → Prop := fun _ _ => False

theorem nowhere_undisturbed : Undisturbed home nowhere := fun _ _ h => h.elim

/-- Alice and Bob have units of the collateral token. -/
def sampleLedger : StandardLedger :=
  .ofHoldings fun token =>
    if token = usdc then
      (Holdings.empty.set alice 2500 (by decide)).set bob 2500 (by decide)
    else .empty

def freshDeployment : Deployment Storage StandardLedger := ⟨Storage.empty, sampleLedger, 0, 0⟩

/-- The contract in a world where nothing else happens. -/
abbrev alone : System (Deployment Storage StandardLedger) (Happening BookOp Event) :=
  orderbook home nowhere

/-- Invoke the contract. -/
abbrev invoke (d : Deployment Storage StandardLedger) (input : Env × BookOp) :
    Option (Happening BookOp Event × Deployment Storage StandardLedger) :=
  d.next BookOp.perform home input

theorem fresh_deployment_initial : alone.initial freshDeployment := by
  refine ⟨rfl, fun token held hheld => ?_⟩
  rw [← Option.some.inj hheld]
  show valueAt (if token = usdc then _ else Holdings.empty).amounts home = 0
  split
  · decide +kernel
  · rfl

/-- Whether a step leaves a configured token as it is. -/
def keepsToken (_ : List (Happening BookOp Event)) (d : Deployment Storage StandardLedger)
    (l : Happening BookOp Event) : Bool :=
  match l.invocation with
  | some ⟨_, .setToken token, _⟩ => decide (d.store.token = none ∨ d.store.token = some token)
  | _ => true

theorem keepsToken_allowed (h : List (Happening BookOp Event))
    (d : Deployment Storage StandardLedger) (l : Happening BookOp Event)
    (hkeeps : keepsToken h d l = true) : oneToken h d l := by
  rintro ⟨env, op, effects⟩ token hinvocation rfl t ht
  simp only [keepsToken, hinvocation, decide_eq_true_eq, ht] at hkeeps
  simpa using hkeeps

/-- Alice sells sixty of a hundred shares at forty cents. Bob bids for a hundred at sixty, gets hers
at her price, and waits for the rest. -/
def tradedScript : List (Env × BookOp) :=
  [at_ 1 [admin] (.initializeOrderbook admin),
    at_ 2 [admin] (.setToken usdc),
    at_ 3 [alice] (.mintShares alice 1 1 100),
    at_ 4 [alice] (.placeAsk alice 1 1 60 4000),
    at_ 5 [bob] (.placeBid bob 1 1 100 6000)]

def tradedRun : System.Replayed alone invoke keepsToken :=
  .of freshDeployment fresh_deployment_initial tradedScript (by decide +kernel)

theorem traded_run : alone.RunWhere oneToken tradedRun.history tradedRun.state :=
  tradedRun.run Deployment.next_step keepsToken_allowed

/-- After the trade the contract holds the collateral of the shares and the rest of Bob's escrow,
which includes what he saved. -/
theorem collateral_conserved_after_trade : SumsTo (tradedRun.state.store.tally Order.escrow) 36 ∧
      Tokens.balance tradedRun.state.peers usdc home = some (100 + 36) := by
  obtain ⟨⟨escrowed, hsums, hheld⟩, -⟩ :=
    collateral_and_shares_conserved StandardLedger.exact_transfers nowhere_undisturbed traded_run
  have htoken : tradedRun.state.store.token = some usdc := by decide +kernel
  have hbalance : Tokens.balance tradedRun.state.peers usdc home = some 136 := by decide +kernel
  have hlocked : collateralLocked tradedRun.history = 100 := by decide +kernel
  have hescrowed := hheld usdc 136 htoken hbalance
  obtain rfl : escrowed = 36 := by omega
  exact ⟨hsums, hbalance⟩

end Backit.Orderbook
