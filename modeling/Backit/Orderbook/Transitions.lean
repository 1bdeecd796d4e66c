import Backit.Orderbook.Orders
import Backit.Soroban.TokenLaws

/-!
# What the entry points of the order book do

`Released`, `Filled` and `Matching` say what returning an escrow, one fill and the matching loop do
to the storage, with their effects, most recent first. For every entry point `Transition` lists the
checks that a successful invocation passed, its effects, and the storage it left.
-/

namespace Backit.Orderbook

open Soroban Contract

/-- What a number of shares costs at a price. -/
def costOf (shares : Int) (priceBps : Nat) : Int := (shares * priceBps).tdiv 10000

/-- What two orders can exchange. -/
def fillOf (taker maker : Order) : Int :=
  min (taker.amount - taker.filled) (maker.amount - maker.filled)

namespace Order

/-- A buyer's order after a fill. -/
def bought (o : Order) (fill pay : Int) : Order :=
  closeIfFilled { o with escrow := o.escrow - pay, filled := o.filled + fill }

/-- A seller's order after a fill. -/
def sold (o : Order) (fill : Int) : Order := closeIfFilled { o with filled := o.filled + fill }

end Order

namespace Storage

variable (s : Storage)

/-- The storage after a user's shares have grown. -/
def credited (user : Address) (market : Market) (amount : Int) : Storage :=
  s.setShares user market (s.shares market user + amount)

/-- The storage after a user's shares have shrunk. -/
def debited (user : Address) (market : Market) (amount : Int) : Storage :=
  s.setShares user market (s.shares market user - amount)

/-- The storage with a new order in the book. -/
def resting (o : Order) : Storage :=
  (((s.setOrderCounter o.id).setOrder o.id o).addUserOrder o.user o.id).addToBook o.side o.market
    o.id

/-- The order that the next placement makes. -/
def newOrder (env : Env) (user : Address) (callId outcome : Nat) (amount : Int) (priceBps : Nat)
    (side : OrderSide) (escrow : Int) : Order :=
  { id := s.orderCounter + 1, user := user, callId := callId, outcome := outcome, side := side
    amount := amount, priceBps := priceBps, filled := 0, createdAt := env.timestamp
    active := true, escrow := escrow }

end Storage

/-- The payment of a fill. -/
def payment (env : Env) (token seller : Address) (pay : Int) : List (Effect Event) :=
  if 0 < pay then [.transfer token env.contract seller pay] else []

/-- What an order's escrow is returned by. -/
inductive Released (env : Env) (s : Storage) (o : Order) :
    List (Effect Event) → Storage → Order → Prop where
  | paid {token} : o.side = .bid → 0 < o.escrow → s.token = some token →
      Released env s o [.transfer token env.contract o.user o.escrow] s { o with escrow := 0 }
  | nothing : o.side = .bid → o.escrow ≤ 0 → Released env s o [] s o
  | returned : o.side = .ask → 0 < o.amount - o.filled →
      Released env s o [] (s.credited o.user o.market (o.amount - o.filled)) o
  | sold : o.side = .ask → o.amount - o.filled ≤ 0 → Released env s o [] s o

/-- What an exchange of shares for collateral does, and the buyer's order after it. -/
inductive Filled (env : Env) (token : Address) (s : Storage) (buyer seller : Order)
    (fill pay : Int) : List (Effect Event) → Storage → Order → Prop where
  | unfinished : (buyer.bought fill pay).active = true →
      Filled env token s buyer seller fill pay (payment env token seller.user pay)
        (((s.credited buyer.user buyer.market fill).setOrder (buyer.bought fill pay).id
          (buyer.bought fill pay)).setOrder (seller.sold fill).id (seller.sold fill))
        (buyer.bought fill pay)
  | finished {refund s₁ buyer'} : (buyer.bought fill pay).active = false →
      Released env (s.credited buyer.user buyer.market fill) (buyer.bought fill pay) refund s₁
        buyer' →
      Filled env token s buyer seller fill pay (refund ++ payment env token seller.user pay)
        ((s₁.setOrder buyer'.id buyer').setOrder (seller.sold fill).id (seller.sold fill)) buyer'

/-- What a fill is announced by. -/
def executed (taker maker : Order) : Effect Event :=
  .event (.orderExecuted maker.user taker.user taker.callId taker.outcome (fillOf taker maker)
    maker.priceBps)

/-- A fill of an incoming order from a resting one, at the resting price. -/
inductive FilledFrom (env : Env) (token : Address) (s : Storage) (taker maker : Order) :
    List (Effect Event) → Storage → Order → Prop where
  | bought {effects s' taker'} : taker.side = .bid →
      Filled env token s taker maker (fillOf taker maker)
        (costOf (fillOf taker maker) maker.priceBps) effects s' taker' →
      FilledFrom env token s taker maker (executed taker maker :: effects) s' taker'
  | sold {effects s' maker'} : taker.side = .ask →
      Filled env token s maker taker (fillOf taker maker)
        (costOf (fillOf taker maker) maker.priceBps) effects s' maker' →
      FilledFrom env token s taker maker (executed taker maker :: effects) s'
        (taker.sold (fillOf taker maker))

/-- The matching loop, with the number of matches still allowed. -/
inductive Matching (env : Env) (token : Address) (bookIds : List Nat) :
    Nat → Storage → Order → List (Effect Event) → Storage → Order → Prop where
  | exhausted {s taker} : Matching env token bookIds 0 s taker [] s taker
  | full {n s taker} :
      taker.amount ≤ taker.filled → Matching env token bookIds (n + 1) s taker [] s taker
  | unmatched {n s taker} : taker.filled < taker.amount → bestMaker s taker bookIds = none →
      Matching env token bookIds (n + 1) s taker [] s taker
  | fill {n s taker maker effects s₁ taker₁ later s₂ taker₂} :
      taker.filled < taker.amount → bestMaker s taker bookIds = some maker →
      FilledFrom env token s taker maker effects s₁ taker₁ →
      Matching env token bookIds n s₁ taker₁ later s₂ taker₂ →
      Matching env token bookIds (n + 1) s taker (later ++ effects) s₂ taker₂

/-- What an order moves into escrow. -/
inductive Escrowed (env : Env) (token : Address) (s : Storage) (user : Address) (market : Market)
    (amount : Int) (priceBps : Nat) : OrderSide → List (Effect Event) → Storage → Int → Prop where
  | bid : Escrowed env token s user market amount priceBps .bid
        [.transfer token user env.contract (costOf amount priceBps)] s (costOf amount priceBps)
  | ask : amount ≤ s.shares market user →
      Escrowed env token s user market amount priceBps .ask [] (s.debited user market amount) 0

/-- The two entry points that place an order. -/
inductive Places : BookOp → Address → Nat → Nat → Int → Nat → OrderSide → Prop where
  | bid {user callId outcome amount priceBps} :
      Places (.placeBid user callId outcome amount priceBps) user callId outcome amount priceBps
        .bid
  | ask {user callId outcome shareAmount priceBps} :
      Places (.placeAsk user callId outcome shareAmount priceBps) user callId outcome shareAmount
        priceBps .ask

/-- A successful invocation: its checks, its effects and the storage it left. -/
inductive Transition (env : Env) : BookOp → Storage → List (Effect Event) → Storage → Prop where
  | initialized {admin s} : s.config = none → admin ∈ env.auths →
      Transition env (.initializeOrderbook admin) s []
        (s.setConfig ⟨admin, 30, protocolFeeBps, lpFeeBps⟩)
  | configured {token config s} : s.config = some config → config.admin ∈ env.auths →
      Transition env (.setToken token) s [] (s.setToken token)
  | minted {user callId outcome amount token s} :
      user ∈ env.auths → 0 < amount → s.token = some token →
      Transition env (.mintShares user callId outcome amount) s
        [.transfer token user env.contract amount] (s.credited user (callId, outcome) amount)
  | placed {op user callId outcome amount priceBps side token s moved s₁ escrow order effects s₂
      taker} :
      Places op user callId outcome amount priceBps side → user ∈ env.auths → 0 < amount →
      0 < priceBps → priceBps ≤ 10000 → s.token = some token →
      Escrowed env token s user (callId, outcome) amount priceBps side moved s₁ escrow →
      order = s.newOrder env user callId outcome amount priceBps side escrow →
      Matching env token ((s₁.resting order).orderbook side.opposite (callId, outcome))
        maxMatchesPerOrder (s₁.resting order) order effects s₂ taker →
      Transition env op s
        (effects ++ .event (.orderPlaced order.id user callId outcome (decide (side = .bid))) ::
          moved) (s₂.setOrder taker.id taker)
  | cancelled {user orderId o effects s s₁ o'} :
      user ∈ env.auths → s.order orderId = some o → o.user = user → o.active = true →
      Released env s o effects s₁ o' →
      Transition env (.cancelOrder user orderId) s (.event (.orderCancelled orderId) :: effects)
        (s₁.setOrder orderId { o' with active := false })

section Frames

variable {env : Env} {op : BookOp} {s s' : Storage} {effects : List (Effect Event)}
  {token : Address} {o o' taker taker' maker buyer seller buyer' : Order}

theorem Escrowed.frame {user : Address} {market : Market} {amount escrow : Int} {priceBps : Nat}
    {side : OrderSide} (h : Escrowed env token s user market amount priceBps side effects s' escrow) :
    s'.orderCounter = s.orderCounter ∧ s'.token = s.token := by
  cases h with
  | bid => exact ⟨rfl, rfl⟩
  | ask => exact ⟨rfl, rfl⟩

theorem Released.token_eq (h : Released env s o effects s' o') : s'.token = s.token := by
  cases h <;> rfl

theorem Filled.token_eq {fill pay : Int}
    (h : Filled env token s buyer seller fill pay effects s' buyer') : s'.token = s.token := by
  cases h with
  | unfinished => rfl
  | finished _ hreleased => exact hreleased.token_eq

theorem FilledFrom.token_eq (h : FilledFrom env token s taker maker effects s' taker') :
    s'.token = s.token := by
  cases h with
  | bought _ hfilled => exact hfilled.token_eq
  | sold _ hfilled => exact hfilled.token_eq

theorem Matching.token_eq {bookIds : List Nat} {n : Nat}
    (h : Matching env token bookIds n s taker effects s' taker') : s'.token = s.token := by
  induction h with
  | exhausted => rfl
  | full => rfl
  | unmatched => rfl
  | fill _ _ hfilled _ ih => exact ih.trans hfilled.token_eq

/-- The token is configured by nothing but its entry point. -/
theorem Transition.token_eq (h : Transition env op s effects s')
    (hop : ∀ t, op ≠ .setToken t) : s'.token = s.token := by
  cases h with
  | initialized => rfl
  | configured => exact absurd rfl (hop _)
  | minted => rfl
  | placed _ _ _ _ _ _ hescrowed _ hmatching => exact hmatching.token_eq.trans hescrowed.frame.2
  | cancelled _ _ _ _ hreleased => exact hreleased.token_eq

theorem Transition.token_set {t : Address} (h : Transition env (.setToken t) s effects s') :
    s'.token = some t := by
  cases h with
  | configured => rfl
  | placed hop => cases hop

theorem Released.only_transfers (h : Released env s o effects s' o') :
    ∀ e ∈ effects, e.onlyTransfers = true := by
  cases h <;> simp [Effect.onlyTransfers]

theorem payment_only_transfers (env : Env) (token seller : Address) (pay : Int) :
    ∀ e ∈ payment env token seller pay, e.onlyTransfers = true := by
  unfold payment
  split <;> simp [Effect.onlyTransfers]

theorem Filled.only_transfers {fill pay : Int}
    (h : Filled env token s buyer seller fill pay effects s' buyer') :
    ∀ e ∈ effects, e.onlyTransfers = true := by
  cases h with
  | unfinished => exact payment_only_transfers _ _ _ _
  | finished _ hreleased =>
    intro e he
    obtain he | he := List.mem_append.mp he
    · exact hreleased.only_transfers e he
    · exact payment_only_transfers _ _ _ _ e he

theorem FilledFrom.only_transfers (h : FilledFrom env token s taker maker effects s' taker') :
    ∀ e ∈ effects, e.onlyTransfers = true := by
  cases h with
  | bought _ hfilled => exact List.forall_mem_cons.mpr ⟨rfl, hfilled.only_transfers⟩
  | sold _ hfilled => exact List.forall_mem_cons.mpr ⟨rfl, hfilled.only_transfers⟩

theorem Matching.only_transfers {bookIds : List Nat} {n : Nat}
    (h : Matching env token bookIds n s taker effects s' taker') :
    ∀ e ∈ effects, e.onlyTransfers = true := by
  induction h with
  | exhausted => simp
  | full => simp
  | unmatched => simp
  | fill _ _ hfilled _ ih =>
    intro e he
    obtain he | he := List.mem_append.mp he
    · exact ih e he
    · exact hfilled.only_transfers e he

theorem Escrowed.only_transfers {user : Address} {market : Market} {amount escrow : Int}
    {priceBps : Nat} {side : OrderSide}
    (h : Escrowed env token s user market amount priceBps side effects s' escrow) :
    ∀ e ∈ effects, e.onlyTransfers = true := by
  cases h <;> simp [Effect.onlyTransfers]

/-- No entry point mints, claws back or deploys a token. -/
theorem Transition.only_transfers (h : Transition env op s effects s') :
    ∀ e ∈ effects, e.onlyTransfers = true := by
  cases h with
  | initialized => simp
  | configured => simp
  | minted => simp [Effect.onlyTransfers]
  | placed _ _ _ _ _ _ hescrowed _ hmatching =>
    intro e he
    obtain he | he := List.mem_append.mp he
    · exact hmatching.only_transfers e he
    · obtain rfl | he := List.mem_cons.mp he
      · rfl
      · exact hescrowed.only_transfers e he
  | cancelled _ _ _ _ hreleased => exact List.forall_mem_cons.mpr ⟨rfl, hreleased.only_transfers⟩

end Frames

section Specs

variable {T α : Type} {env : Env} {f f' : Frame Storage T Event} {r : α} {token : Address}

theorem run_cost_bind (shares : Int) (priceBps : Nat) (k : Int → Book T α) :
    run (cost shares priceBps >>= k) env f = .ok (r, f') ↔
      InI128 (shares * priceBps) ∧ run (k (costOf shares priceBps)) env f = .ok (r, f') := by
  simp only [cost, Contract.bind_assoc, run_unwrap_bind, checkedMul, checked_eq_some]
  constructor
  · rintro ⟨_, ⟨hfits, rfl⟩, h⟩
    exact ⟨hfits, h⟩
  · rintro ⟨hfits, h⟩
    exact ⟨_, ⟨hfits, rfl⟩, h⟩

theorem run_addShares_bind (user : Address) (market : Market) (amount : Int) (k : Unit → Book T α) :
    run (addShares user market amount >>= k) env f = .ok (r, f') ↔
      InI128 (f.store.shares market user + amount) ∧
        run (k ()) env { f with store := f.store.credited user market amount } = .ok (r, f') := by
  simp only [addShares, Contract.bind_assoc, run_steps, checkedAdd, checked_eq_some]
  constructor
  · rintro ⟨_, ⟨hfits, rfl⟩, h⟩
    exact ⟨hfits, h⟩
  · rintro ⟨hfits, h⟩
    exact ⟨_, ⟨hfits, rfl⟩, h⟩

theorem run_addShares {user : Address} {market : Market} {amount : Int} {u : Unit}
    (h : run (addShares user market amount) env f = .ok (u, f')) :
    f' = { f with store := f.store.credited user market amount } := by
  simp only [addShares, run_steps, checkedAdd, checked_eq_some] at h
  obtain ⟨_, ⟨-, rfl⟩, rfl⟩ := h
  rfl

variable [Tokens T]

theorem run_release {o o' : Order} (h : run (release o) env f = .ok (o', f')) :
    ∃ effects, f'.effects = effects ++ f.effects ∧ Replays env f.tokens effects f'.tokens ∧
      Released env f.store o effects f'.store o' := by
  unfold release at h
  split at h
  · next hside =>
    split at h
    · next hescrow =>
      simp only [run_steps] at h
      obtain ⟨token, htoken, tokens, htransfer, rfl, rfl⟩ := h
      exact ⟨_, rfl, Replays.nil.transfer htransfer, .paid hside hescrow htoken⟩
    · next hescrow =>
      cases h
      exact ⟨[], rfl, .nil, .nothing hside (not_lt.mp hescrow)⟩
  · next hside =>
    rw [run_i128_bind] at h
    obtain ⟨-, h⟩ := h
    split at h
    · next hleft =>
      rw [run_addShares_bind] at h
      obtain ⟨-, h⟩ := h
      cases h
      exact ⟨[], rfl, .nil, .returned hside hleft⟩
    · next hleft =>
      cases h
      exact ⟨[], rfl, .nil, .sold hside (not_lt.mp hleft)⟩

theorem run_paySeller {seller : Address} {pay : Int} {u : Unit}
    (h : run (paySeller token seller pay) env f = .ok (u, f')) :
    f'.store = f.store ∧ f'.effects = payment env token seller pay ++ f.effects ∧
      Replays env f.tokens (payment env token seller pay) f'.tokens := by
  unfold paySeller at h
  split at h
  · next hpay =>
    simp only [run_env_bind, run_tokenTransfer] at h
    obtain ⟨tokens, htransfer, rfl⟩ := h
    rw [payment, if_pos hpay]
    exact ⟨rfl, rfl, Replays.nil.transfer htransfer⟩
  · next hfree =>
    cases h
    rw [payment, if_neg hfree]
    exact ⟨rfl, rfl, .nil⟩

theorem run_fillOrders {buyer seller buyer' seller' : Order} {fill pay : Int}
    (h : run (fillOrders token buyer seller fill pay) env f = .ok ((buyer', seller'), f')) :
    seller' = seller.sold fill ∧
      ∃ effects, f'.effects = effects ++ f.effects ∧ Replays env f.tokens effects f'.tokens ∧
        Filled env token f.store buyer seller fill pay effects f'.store buyer' := by
  simp only [fillOrders, run_i128_bind, run_addShares_bind] at h
  obtain ⟨-, -, h⟩ := h
  obtain ⟨_, f₁, hpay, h⟩ := run_bind.mp h
  obtain ⟨hstore, heffects, hreplay⟩ := run_paySeller hpay
  simp only [run_i128_bind] at h
  obtain ⟨-, -, h⟩ := h
  obtain ⟨_, f₂, hrelease, h⟩ := run_bind.mp h
  simp only [run_steps] at h
  obtain ⟨⟨rfl, rfl⟩, rfl⟩ := h
  refine ⟨rfl, ?_⟩
  unfold releaseFinished at hrelease
  split at hrelease
  · next hactive =>
    cases hrelease
    refine ⟨_, heffects, hreplay, ?_⟩
    dsimp only
    rw [hstore]
    exact .unfinished hactive
  · next hclosed =>
    obtain ⟨refund, heffects₂, hreplay₂, hreleased⟩ := run_release hrelease
    rw [hstore] at hreleased
    refine ⟨refund ++ payment env token seller.user pay, ?_, hreplay.append hreplay₂,
      .finished (Bool.not_eq_true _ ▸ hclosed) hreleased⟩
    rw [List.append_assoc, ← heffects]
    exact heffects₂

theorem run_fillFrom {taker maker taker' : Order}
    (h : run (fillFrom token taker maker) env f = .ok (taker', f')) :
    ∃ effects, f'.effects = effects ++ f.effects ∧ Replays env f.tokens effects f'.tokens ∧
      FilledFrom env token f.store taker maker effects f'.store taker' := by
  simp only [fillFrom, run_i128_bind, run_cost_bind] at h
  obtain ⟨-, -, -, h⟩ := h
  split at h
  · next hside =>
    obtain ⟨⟨buyer, seller⟩, f₁, hfill, h⟩ := run_bind.mp h
    obtain ⟨-, effects, heffects, hreplay, hfilled⟩ := run_fillOrders hfill
    simp only [run_steps] at h
    obtain ⟨rfl, rfl⟩ := h
    exact ⟨executed taker maker :: effects, congrArg (executed taker maker :: ·) heffects,
      .event hreplay, .bought hside hfilled⟩
  · next hside =>
    obtain ⟨⟨buyer, seller⟩, f₁, hfill, h⟩ := run_bind.mp h
    obtain ⟨rfl, effects, heffects, hreplay, hfilled⟩ := run_fillOrders hfill
    simp only [run_steps] at h
    obtain ⟨rfl, rfl⟩ := h
    exact ⟨executed taker maker :: effects, congrArg (executed taker maker :: ·) heffects,
      .event hreplay, .sold hside hfilled⟩

theorem run_matchLoop {bookIds : List Nat} {n : Nat} {taker taker' : Order}
    (h : run (matchLoop token bookIds n taker) env f = .ok (taker', f')) :
    ∃ effects, f'.effects = effects ++ f.effects ∧ Replays env f.tokens effects f'.tokens ∧
      Matching env token bookIds n f.store taker effects f'.store taker' := by
  induction n generalizing taker f with
  | zero =>
    cases h
    exact ⟨[], rfl, .nil, .exhausted⟩
  | succ n ih =>
    unfold matchLoop at h
    split at h
    · next hopen =>
      rw [run_getStore_bind] at h
      cases hbest : bestMaker f.store taker bookIds with
      | none =>
        rw [hbest] at h
        cases h
        exact ⟨[], rfl, .nil, .unmatched hopen hbest⟩
      | some maker =>
        rw [hbest] at h
        obtain ⟨taker₁, f₁, hfill, h⟩ := run_bind.mp h
        obtain ⟨effects, heffects, hreplay, hfilled⟩ := run_fillFrom hfill
        obtain ⟨later, hlater, hreplay', hmatching⟩ := ih h
        refine ⟨later ++ effects, ?_, hreplay.append hreplay', .fill hopen hbest hfilled hmatching⟩
        rw [hlater, heffects, List.append_assoc]
    · next hfull =>
      cases h
      exact ⟨[], rfl, .nil, .full (not_lt.mp hfull)⟩

theorem run_escrowFor_bind {user : Address} {market : Market} {amount : Int} {priceBps : Nat}
    {side : OrderSide} {k : Int → Book T α}
    (h : run (escrowFor token user market amount priceBps side >>= k) env f = .ok (r, f')) :
    ∃ effects escrow f₁, f₁.effects = effects ++ f.effects ∧
      Replays env f.tokens effects f₁.tokens ∧
      Escrowed env token f.store user market amount priceBps side effects f₁.store escrow ∧
      run (k escrow) env f₁ = .ok (r, f') := by
  obtain ⟨escrow, f₁, hescrow, h⟩ := run_bind.mp h
  cases side with
  | bid =>
    simp only [escrowFor, run_cost_bind, run_steps] at hescrow
    obtain ⟨-, tokens, htransfer, rfl, rfl⟩ := hescrow
    exact ⟨[.transfer token user env.contract (costOf amount priceBps)], _,
      f.record tokens (.transfer token user env.contract (costOf amount priceBps)), rfl,
      Replays.nil.transfer htransfer, .bid, h⟩
  | ask =>
    simp only [escrowFor, run_steps, not_lt] at hescrow
    obtain ⟨henough, -, rfl, rfl⟩ := hescrow
    refine ⟨[], _, _, ?_, ?_, ?_, h⟩
    · rfl
    · exact .nil
    · exact .ask henough

theorem run_place {user : Address} {callId outcome : Nat} {amount : Int} {priceBps : Nat}
    {side : OrderSide} {orderId : Nat} {op : BookOp}
    (hop : Places op user callId outcome amount priceBps side)
    (h : run (place user callId outcome amount priceBps side) env f = .ok (orderId, f')) :
    ∃ effects, f'.effects = effects ++ f.effects ∧ Replays env f.tokens effects f'.tokens ∧
      Transition env op f.store effects f'.store := by
  simp only [place, run_steps, not_le, not_or, not_lt] at h
  obtain ⟨hauth, hamount, ⟨hprice, hlimit⟩, token, htoken, h⟩ := h
  obtain ⟨moved, escrow, f₁, hmoved, hreplay₁, hescrowed, h⟩ := run_escrowFor_bind h
  obtain ⟨hcounter, hkept⟩ := hescrowed.frame
  simp only [nextOrderId, Contract.bind_assoc, run_steps] at h
  obtain ⟨-, h⟩ := h
  obtain ⟨_, f₂, hmatch, h⟩ := run_bind.mp h
  simp only [run_pure, Except.ok.injEq, Prod.mk.injEq] at h
  obtain ⟨rfl, rfl⟩ := h
  rw [hcounter] at hmatch
  -- The incoming order is the one that was stored.
  have hstored : ∀ o : Order, (f₁.store.resting o).order o.id = some o := fun o =>
    Function.update_self ..
  simp only [matchOrders, run_steps] at hmatch
  obtain ⟨order, hfound, token', htoken', hmatch⟩ := hmatch
  obtain rfl := Option.some.inj (hfound.symm.trans
    (hstored (f.store.newOrder env user callId outcome amount priceBps side escrow)))
  obtain rfl := Option.some.inj (htoken'.symm.trans (hkept.trans htoken))
  obtain ⟨taker, f₃, hloop, hmatch⟩ := run_bind.mp hmatch
  obtain ⟨effects, heffects, hreplay₂, hmatching⟩ := run_matchLoop hloop
  rw [run_modifyStore] at hmatch
  subst hmatch
  refine ⟨_, ?_, hreplay₁.event.append hreplay₂,
    .placed hop hauth hamount (by omega) hlimit htoken hescrowed rfl hmatching⟩
  show f₃.effects = _
  rw [heffects, Frame.record_effects, hmoved, List.append_assoc]
  rfl

/-- An invocation that succeeds makes a listed transition. -/
theorem BookOp.transitions {op : BookOp} (h : run op.perform env f = .ok ((), f')) :
    ∃ effects, f'.effects = effects ++ f.effects ∧ Replays env f.tokens effects f'.tokens ∧
      Transition env op f.store effects f'.store := by
  cases op with
  | initializeOrderbook admin =>
    simp only [BookOp.perform, Orderbook.initializeOrderbook, run_steps] at h
    obtain ⟨hnew, hauth, rfl⟩ := h
    exact ⟨[], rfl, .nil, .initialized (by simpa using hnew) hauth⟩
  | setToken token =>
    simp only [BookOp.perform, Orderbook.setToken, run_steps] at h
    obtain ⟨config, hconfig, hauth, rfl⟩ := h
    exact ⟨[], rfl, .nil, .configured hconfig hauth⟩
  | mintShares user callId outcome amount =>
    simp only [BookOp.perform, Orderbook.mintShares, run_steps, not_le] at h
    obtain ⟨hauth, hamount, token, htoken, tokens, htransfer, h⟩ := h
    obtain rfl := run_addShares h
    exact ⟨_, rfl, Replays.nil.transfer htransfer, .minted hauth hamount htoken⟩
  | placeBid user callId outcome amount priceBps =>
    obtain ⟨orderId, h⟩ := run_ignore.mp h
    exact run_place .bid h
  | placeAsk user callId outcome shareAmount priceBps =>
    obtain ⟨orderId, h⟩ := run_ignore.mp h
    exact run_place .ask h
  | cancelOrder user orderId =>
    simp only [BookOp.perform, Orderbook.cancelOrder, run_steps, ne_eq, not_not,
      Bool.not_eq_false] at h
    obtain ⟨hauth, o, ho, howner, hactive, h⟩ := h
    obtain ⟨o', f₁, hrelease, h⟩ := run_bind.mp h
    obtain ⟨effects, heffects, hreplay, hreleased⟩ := run_release hrelease
    simp only [run_steps] at h
    obtain rfl := h
    refine ⟨.event (.orderCancelled orderId) :: effects, ?_, hreplay.event,
      .cancelled hauth ho howner hactive hreleased⟩
    rw [Frame.record_effects, heffects, List.cons_append]

end Specs

end Backit.Orderbook
