import Backit.CallRegistry.CallStatus

/-!
# What backs the shares

A stake mints shares of its position, and redeeming burns them. The pool of a position then equals
the shares outstanding and the shares redeemed, and the redemptions of a call are within its pools.
An early withdrawal takes its refund out of the pool and burns nothing, and a call that is resolved
again after its shares have been redeemed pays its pools to two outcomes.
-/

namespace Backit.CallRegistry

open Soroban Lib

/-- The call whose shares an operation redeems. -/
def MarketOp.redeems : MarketOp → Option Nat
  | .redeemShares _ callId => some callId
  | _ => none

/-- The shares of an outcome that an event says were redeemed. -/
def Event.sharesRedeemedOf (outcome : Nat) : Event → Int
  | .sharesRedeemed _ _ o amount => if o = outcome then amount else 0
  | _ => 0

/-- The shares of an outcome of a call that an operation redeemed. -/
def redeemedBy (callId outcome : Nat) (r : MarketReceipt) : Int :=
  if r.op.redeems = some callId then
    effectTotal (Effect.onEvent (Event.sharesRedeemedOf outcome)) r.effects
  else 0

/-- What an operation paid out for shares of a call. -/
def redemptionBy (callId : Nat) (r : MarketReceipt) : Int :=
  match r.op with
  | .redeemShares redeemer c =>
    if c = callId then effectTotal (Effect.paidTo redeemer) r.effects else 0
  | _ => 0

def redeemedShares (history : List MarketReceipt) (callId outcome : Nat) : Int :=
  tally (redeemedBy callId outcome) history

def redemptions (history : List MarketReceipt) (callId : Nat) : Int :=
  tally (redemptionBy callId) history

/-- The shares of every outcome, outstanding and redeemed, are the outcome's pool. -/
def SharesBacked {T : Type} [Tokens T] (ledger : TokenSupply T) (history : List MarketReceipt)
    (m : Market) (t : T) : Prop :=
  ∀ callId call outcome token, m.calls callId = some call →
    call.shareTokens.lookup outcome = some token →
      ledger.supply t token + redeemedShares history callId outcome =
        valueAt call.outcomeStakes outcome

/-- No call has paid out more for its shares than its pools. -/
def RedemptionsFunded (history : List MarketReceipt) (m : Market) : Prop :=
  ∀ callId call, m.calls callId = some call → redemptions history callId ≤ call.pools.sum

/-- Whether shares of a call have been redeemed. -/
def redeemedFrom (history : List MarketReceipt) (callId : Nat) : Bool :=
  history.any fun r => r.op.redeems = some callId

/-- Whether an operation leaves the shares with what backs them: it is no early withdrawal from a
position that has a share token, and does not decide a call otherwise whose shares have been
redeemed. -/
def keepsBacking (history : List MarketReceipt) (m : Market) : MarketOp → Bool
  | .withdrawStake _ callId position =>
    (m.calls callId).all fun call => (call.shareTokens.lookup position).isNone
  | .resolveCall callId outcome _ =>
    (m.calls callId).all fun call =>
      decide (call.outcome = outcome) || !redeemedFrom history callId
  | _ => true

def backingKept {T : Type} (history : List Label) (w : World T) (l : Label) : Bool :=
  l.onMarket.all fun r => keepsBacking (marketHistory history) w.store.market r.op

/-- Every operation leaves the shares with what backs them. -/
def keepsShares {T : Type} : System.Guard (World T) Label := fun h w l => backingKept h w l = true

section Histories

variable {history : List MarketReceipt} {r : MarketReceipt} {callId : Nat}

theorem redeemed_shares_eq_zero (h : redeemedFrom history callId = false) (outcome : Nat) :
    redeemedShares history callId outcome = 0 := by
  refine tally_eq_zero fun r hr => if_neg fun hop => ?_
  have hany := List.any_eq_false.mp h r hr
  simp [hop] at hany

theorem redemption_by_of_other (h : r.op.redeems ≠ some callId) : redemptionBy callId r = 0 := by
  unfold redemptionBy
  split
  · next hop =>
    rw [hop, MarketOp.redeems] at h
    exact if_neg fun heq => h (congrArg some heq)
  · rfl

theorem redemptions_eq_zero (h : redeemedFrom history callId = false) :
    redemptions history callId = 0 := by
  refine tally_eq_zero fun r hr => redemption_by_of_other fun hop => ?_
  have hany := List.any_eq_false.mp h r hr
  simp [hop] at hany

/-- An operation that redeems no shares of the call adds nothing to its tallies. -/
theorem tallies_of_other (h : r.op.redeems ≠ some callId) :
    redeemedFrom (r :: history) callId = redeemedFrom history callId ∧
      redemptions (r :: history) callId = redemptions history callId ∧
      ∀ outcome, redeemedShares (r :: history) callId outcome =
        redeemedShares history callId outcome := by
  refine ⟨by simp [redeemedFrom, h], ?_, fun outcome => ?_⟩
  · rw [redemptions, tally_cons, redemption_by_of_other h, zero_add]
    rfl
  · rw [redeemedShares, tally_cons, redeemedBy, if_neg h, zero_add]
    rfl

end Histories

theorem lookup_foldl_insert {ps : List Nat} {tokens : List Address} {start : Map Nat Address}
    {position : Nat} {token : Address}
    (h : ((ps.zip tokens).foldl (fun m entry => m.insert entry.1 entry.2) start).lookup position =
      some token) :
    start.lookup position = some token ∨
      ∃ i : Nat, ps[i]? = some position ∧ tokens[i]? = some token := by
  induction ps generalizing tokens start with
  | nil => exact .inl h
  | cons p rest ih =>
    cases tokens with
    | nil => exact .inl h
    | cons first others =>
      obtain hstart | ⟨i, hposition, htoken⟩ := ih h
      · rcases eq_or_ne position p with rfl | hother
        · exact .inr ⟨0, rfl, by simpa using hstart⟩
        · exact .inl (by simpa [AList.lookup_insert_ne hother] using hstart)
      · exact .inr ⟨i + 1, hposition, htoken⟩

/-- The share token of a position is the one deployed for it. -/
theorem share_token_lookup {tokens : List Address} {position : Nat} {token : Address}
    (h : (shareTokenMap tokens).lookup position = some token) :
    ∃ i : Nat, position = i + 1 ∧ tokens[i]? = some token := by
  obtain hempty | ⟨i, hposition, htoken⟩ := lookup_foldl_insert h
  · simp at hempty
  · obtain ⟨hi, hat⟩ := List.getElem?_eq_some_iff.mp hposition
    simp only [positions, List.getElem_range'] at hat
    exact ⟨i, by omega, htoken⟩

/-- Every share token is issued by the registry, stands for one position of one call, and is backed
by the position's pool. -/
structure Market.SharesIssued {T : Type} [Tokens T] (ledger : TokenSupply T) (contract : Address)
    (history : List MarketReceipt) (m : Market) (t : T) : Prop where
  issued : ∀ callId call outcome token, m.calls callId = some call →
    call.shareTokens.lookup outcome = some token → ledger.issuer t token = some contract
  distinct : ∀ {callId call outcome callId' call' outcome' token}, m.calls callId = some call →
    call.shareTokens.lookup outcome = some token → m.calls callId' = some call' →
    call'.shareTokens.lookup outcome' = some token → callId = callId' ∧ outcome = outcome'
  unopened : ∀ callId, m.calls callId = none → redeemedFrom history callId = false
  backed : SharesBacked ledger history m t

section Steps

variable {T : Type} [Tokens T] {ledger : TokenSupply T} {env : Env}
  {config : Option ContractConfig} {op : MarketOp} {m m' : Market}
  {effects : List (Effect Event)} {history : List MarketReceipt} {t t' : T}
  {retained : Nat → Nat → Int}

/-- Minting a stake's shares changes the supply of its position's share token only. -/
theorem mint_effects_supply (call : Call) (callId : Nat) (staker : Address) (position : Nat)
    (amount : Int) (token : Address) :
    effectTotal (Effect.supplyChange token) (mintEffects call callId staker position amount) =
      if call.shareTokens.lookup position = some token then amount else 0 := by
  unfold mintEffects
  cases hminted : call.shareTokens.lookup position with
  | none => simp
  | some minted => simp [Effect.supplyChange]

theorem MarketStep.supply_unchanged (hstep : MarketStep env config op m effects m')
    (hstakes : op.movesStakes = false) (hredeems : op.redeems = none) (token : Address) :
    effectTotal (Effect.supplyChange token) effects = 0 := by
  cases hstep with
  | created | withdrawn => simp [MarketOp.movesStakes] at hstakes
  | staked hr => simp [MarketOp.moves_stakes_of_request hr] at hstakes
  | redeemed => simp [MarketOp.redeems] at hredeems
  | released =>
    unfold releaseEvents
    split <;> simp [Effect.supplyChange]
  | resolved =>
    refine effectTotal_eq_zero _ fun e he => ?_
    obtain rfl | ⟨limit, -, rfl⟩ := by simpa using he
    · rfl
    · rfl
  | _ => simp [Effect.supplyChange]

variable {token : Address}

/-- Redeeming burns what it redeems, and no shares of another position. -/
theorem MarketStep.redeemed_burned (hstep : MarketStep env config op m effects m')
    (hissued : m.SharesIssued ledger env.contract history t) {callId outcome redeemedId : Nat}
    {call : Call} (hredeems : op.redeems = some redeemedId) (hcall : m.calls callId = some call)
    (htoken : call.shareTokens.lookup outcome = some token) :
    effectTotal (Effect.supplyChange token) effects +
      redeemedBy callId outcome ⟨env, op, effects⟩ = 0 := by
  cases hstep with
  | @redeemed redeemer c redeemed burned _ balance payout _ hredeemed _ _ hburned =>
    by_cases hmatch : c = callId ∧ redeemed.outcome = outcome
    · obtain ⟨rfl, rfl⟩ := hmatch
      obtain rfl : redeemed = call := Option.some.inj (hredeemed.symm.trans hcall)
      obtain rfl : burned = token := Option.some.inj (hburned.symm.trans htoken)
      simp [redeemedBy, MarketOp.redeems, Effect.supplyChange, Effect.onEvent,
        Event.sharesRedeemedOf]
    · have hother : burned ≠ token := by
        rintro rfl
        exact hmatch (hissued.distinct hredeemed hburned hcall htoken)
      have hnone : redeemedBy callId outcome ⟨env, .redeemShares redeemer c,
          [.event (.sharesRedeemed c redeemer redeemed.outcome balance),
            .transfer redeemed.stakeToken env.contract redeemer payout,
            .clawback burned redeemer balance]⟩ = 0 := by
        simp only [redeemedBy, MarketOp.redeems, Option.some.injEq]
        split
        · next heq =>
          have houtcome : redeemed.outcome ≠ outcome := fun h => hmatch ⟨heq, h⟩
          simp [Effect.onEvent, Event.sharesRedeemedOf, houtcome]
        · rfl
      rw [hnone]
      simp [Effect.supplyChange, hother]
  | staked hr => cases op <;> simp [MarketOp.stakeRequest, MarketOp.redeems] at hr hredeems
  | voidRefunded hr =>
    cases op <;> simp [MarketOp.voidRefundRequest, MarketOp.redeems] at hr hredeems
  | _ => simp [MarketOp.redeems] at hredeems

/-- A stake adds to a pool what it mints of the pool's shares. -/
theorem Market.SharesIssued.staked_pool (hissued : m.SharesIssued ledger env.contract history t)
    {r : StakeRequest} {credited : Int} {callId outcome : Nat} {staked call call' : Call}
    (hstaked : m.calls r.callId = some staked) (hcall : m.calls callId = some call)
    (hcall' : (m.withStake staked r credited).calls callId = some call')
    (htoken : call.shareTokens.lookup outcome = some token) :
    valueAt call'.outcomeStakes outcome = valueAt call.outcomeStakes outcome +
      if staked.shareTokens.lookup r.position = some token then credited else 0 := by
  rw [Market.withStake_calls r credited (m.keyed _ _ hstaked)] at hcall'
  by_cases hmatch : staked.shareTokens.lookup r.position = some token
  · obtain ⟨rfl, rfl⟩ := hissued.distinct hcall htoken hstaked hmatch
    obtain rfl : staked = call := Option.some.inj (hstaked.symm.trans hcall)
    rw [if_pos rfl] at hcall'
    cases hcall'
    simp [Call.withStake, valueAt_insert, hmatch]
  · rw [if_neg hmatch, add_zero]
    split at hcall'
    · next hid =>
      obtain rfl : staked = call := Option.some.inj (hstaked.symm.trans (hid ▸ hcall))
      cases hcall'
      have hother : outcome ≠ r.position := fun h => hmatch (h ▸ htoken)
      simp [Call.withStake, valueAt_insert, hother]
    · obtain rfl : call = call' := Option.some.inj (hcall.symm.trans hcall')
      rfl

/-- A withdrawal from a position without a share token leaves the other pools alone. -/
theorem withdrawn_pool {callId outcome withdrawnId position : Nat} {staker : Address}
    {refund : Int} {withdrawn call call' : Call} (hwithdrawn : m.calls withdrawnId = some withdrawn)
    (hkeeps : withdrawn.shareTokens.lookup position = none) (hcall : m.calls callId = some call)
    (hcall' : (m.withoutStake withdrawn withdrawnId staker position refund).calls callId =
      some call') (htoken : call.shareTokens.lookup outcome = some token) :
    valueAt call'.outcomeStakes outcome = valueAt call.outcomeStakes outcome := by
  rw [Market.withoutStake_calls staker position refund (m.keyed _ _ hwithdrawn)] at hcall'
  split at hcall'
  · next hid =>
    obtain rfl : withdrawn = call := Option.some.inj (hwithdrawn.symm.trans (hid ▸ hcall))
    cases hcall'
    have hother : outcome ≠ position := by
      rintro rfl
      exact Option.some_ne_none token (htoken.symm.trans hkeeps)
    simp [Call.withoutStake, valueAt_insert, hother]
  · obtain rfl : call = call' := Option.some.inj (hcall.symm.trans hcall')
    rfl

/-- What an operation does to a pool is what it does to the shares, outstanding or redeemed. -/
theorem MarketStep.pool_moves (hstep : MarketStep env config op m effects m')
    (hbooks : m.BooksAgree retained) (hissued : m.SharesIssued ledger env.contract history t)
    (hkeeps : keepsBacking history m op = true) {callId outcome : Nat} {call call' : Call}
    (hcall : m.calls callId = some call) (hcall' : m'.calls callId = some call')
    (htoken : call.shareTokens.lookup outcome = some token) :
    valueAt call'.outcomeStakes outcome = valueAt call.outcomeStakes outcome +
      effectTotal (Effect.supplyChange token) effects +
        redeemedBy callId outcome ⟨env, op, effects⟩ := by
  cases hmoves : op.movesStakes with
  | false =>
    obtain ⟨kept, hkept, hterms⟩ := (hstep.same_books hmoves).kept hcall
    obtain rfl : kept = call' := Option.some.inj (hkept.symm.trans hcall')
    rw [hterms.outcomeStakes]
    cases hredeems : op.redeems with
    | none => simp [hstep.supply_unchanged hmoves hredeems token, redeemedBy, hredeems]
    | some redeemedId =>
      rw [add_assoc, hstep.redeemed_burned hissued hredeems hcall htoken, add_zero]
  | true =>
    cases hstep with
    | created =>
      have hold : callId ≠ m.callCounter + 1 := fun h =>
        Option.some_ne_none call (hcall.symm.trans (h ▸ hbooks.fresh))
      rw [Market.withNewCall_calls, if_neg hold] at hcall'
      obtain rfl : call = call' := Option.some.inj (hcall.symm.trans hcall')
      have hunminted : ∀ tokens : List Address,
          effectTotal (Effect.supplyChange token)
            (tokens.map (.deploy : Address → Effect Event)) = 0 := fun tokens =>
        effectTotal_eq_zero _ fun e he => by
          obtain ⟨_, -, rfl⟩ := List.mem_map.mp he
          rfl
      rw [effectTotal_cons, hunminted]
      simp [Effect.supplyChange, redeemedBy, MarketOp.redeems]
    | @staked _ r staked credited _ hr _ hstaked =>
      have hnone : op.redeems ≠ some callId := by
        cases op <;> simp_all [MarketOp.stakeRequest, MarketOp.redeems]
      rw [effectTotal_cons, effectTotal_append, mint_effects_supply, redeemedBy, if_neg hnone,
        hissued.staked_pool hstaked hcall hcall' htoken]
      simp [Effect.supplyChange]
    | withdrawn _ hwithdrawn =>
      have hunshared := by simpa [keepsBacking, hwithdrawn] using hkeeps
      rw [withdrawn_pool hwithdrawn hunshared hcall hcall' htoken, redeemedBy,
        if_neg (by simp [MarketOp.redeems])]
      simp [Effect.supplyChange]
    | voidRefunded hr =>
      cases op <;> simp [MarketOp.voidRefundRequest, MarketOp.movesStakes] at hr hmoves
    | _ => simp [MarketOp.movesStakes] at hmoves

theorem MarketStep.redeems_call (hstep : MarketStep env config op m effects m') {callId : Nat}
    (hredeems : op.redeems = some callId) : m' = m ∧ ∃ call, m.calls callId = some call := by
  cases hstep with
  | redeemed _ hcall =>
    cases hredeems
    exact ⟨rfl, _, hcall⟩
  | staked hr => cases op <;> simp [MarketOp.stakeRequest, MarketOp.redeems] at hr hredeems
  | voidRefunded hr =>
    cases op <;> simp [MarketOp.voidRefundRequest, MarketOp.redeems] at hr hredeems
  | _ => simp [MarketOp.redeems] at hredeems

theorem MarketStep.unopened (hstep : MarketStep env config op m effects m')
    (hbooks : m.BooksAgree retained)
    (h : ∀ callId, m.calls callId = none → redeemedFrom history callId = false) (callId : Nat)
    (hnone : m'.calls callId = none) :
    redeemedFrom (⟨env, op, effects⟩ :: history) callId = false := by
  have hbefore : m.calls callId = none := by
    cases hcall : m.calls callId with
    | none => rfl
    | some call =>
      obtain ⟨call', hcall', -⟩ := hstep.call_kept hbooks hcall
      exact absurd (hcall'.symm.trans hnone) (Option.some_ne_none call')
  have hother : op.redeems ≠ some callId := by
    intro hredeems
    obtain ⟨-, call, hcall⟩ := hstep.redeems_call hredeems
    exact Option.some_ne_none call (hcall.symm.trans hbefore)
  rw [(tallies_of_other (r := ⟨env, op, effects⟩) hother).1]
  exact h callId hbefore

namespace Market.SharesIssued

/-- The step of the invariant for an operation that creates no call. -/
theorem kept (h : m.SharesIssued ledger env.contract history t)
    (hstep : MarketStep env config op m effects m') (hbooks : m.BooksAgree retained)
    (hreplay : Replays env t effects t') (hkeeps : keepsBacking history m op = true)
    (hstems : ∀ id call', m'.calls id = some call' →
      ∃ call, m.calls id = some call ∧ call.SameDeal call') :
    m'.SharesIssued ledger env.contract (⟨env, op, effects⟩ :: history) t' := by
  refine ⟨?_, ?_, hstep.unopened hbooks h.unopened, ?_⟩
  · intro callId call' outcome token hcall' htoken
    obtain ⟨call, hcall, hdeal⟩ := hstems callId call' hcall'
    rw [hdeal.shareTokens] at htoken
    exact (ledger.replayed hreplay (h.issued callId call outcome token hcall htoken)).1
  · intro callId call' outcome callId₂ call₂' outcome₂ token hcall' htoken hcall₂' htoken₂
    obtain ⟨call, hcall, hdeal⟩ := hstems callId call' hcall'
    obtain ⟨call₂, hcall₂, hdeal₂⟩ := hstems callId₂ call₂' hcall₂'
    rw [hdeal.shareTokens] at htoken
    rw [hdeal₂.shareTokens] at htoken₂
    exact h.distinct hcall htoken hcall₂ htoken₂
  · intro callId call' outcome token hcall' htoken
    obtain ⟨call, hcall, hdeal⟩ := hstems callId call' hcall'
    rw [hdeal.shareTokens] at htoken
    have hbacked := h.backed callId call outcome token hcall htoken
    have hsupply := (ledger.replayed hreplay (h.issued callId call outcome token hcall htoken)).2
    have hpool := hstep.pool_moves hbooks h hkeeps hcall hcall' htoken
    rw [redeemedShares, tally_cons, ← redeemedShares]
    omega

/-- The step of the invariant for a new call, whose share tokens are new. -/
theorem created (h : m.SharesIssued ledger env.contract history t) {creator : Address}
    {args : CallInitArgs} {tokens : List Address}
    (hstep : MarketStep env config (.createCall creator args) m
      (.event (callCreatedEvent (m.callCounter + 1) creator args) :: tokens.reverse.map .deploy)
      (m.withNewCall creator args env.timestamp (shareTokenMap tokens)))
    (hbooks : m.BooksAgree retained)
    (hreplay : Replays env t
      (.event (callCreatedEvent (m.callCounter + 1) creator args) :: tokens.reverse.map .deploy)
      t') :
    (m.withNewCall creator args env.timestamp (shareTokenMap tokens)).SharesIssued ledger
      env.contract (⟨env, .createCall creator args,
        .event (callCreatedEvent (m.callCounter + 1) creator args) ::
          tokens.reverse.map .deploy⟩ :: history) t' := by
  have hdeployed : (∀ token ∈ tokens, ledger.issuer t token = none ∧
      ledger.issuer t' token = some env.contract ∧ ledger.supply t' token = 0) ∧
        tokens.Nodup := by
    cases hreplay with
    | event hreplay =>
      obtain ⟨hnodup, hnew⟩ := ledger.deployments hreplay
      exact ⟨fun token hmem => hnew token (List.mem_reverse.mpr hmem), List.nodup_reverse.mp hnodup⟩
  obtain ⟨hdeployed, hnodup⟩ := hdeployed
  -- A share token is an earlier one, or has just been deployed for the new call.
  have horigin : ∀ {callId call' outcome token},
      (m.withNewCall creator args env.timestamp (shareTokenMap tokens)).calls callId =
        some call' → call'.shareTokens.lookup outcome = some token →
      m.calls callId = some call' ∧ ledger.issuer t token = some env.contract ∨
      callId = m.callCounter + 1 ∧ valueAt call'.outcomeStakes outcome = 0 ∧
        ∃ i : Nat, outcome = i + 1 ∧ tokens[i]? = some token := by
    intro callId call' outcome token hcall' htoken
    rw [Market.withNewCall_calls] at hcall'
    split at hcall'
    · next hid =>
      cases hcall'
      exact .inr ⟨hid, pool_newCall .., share_token_lookup htoken⟩
    · exact .inl ⟨hcall', h.issued callId call' outcome token hcall' htoken⟩
  have hfresh : ∀ {i : Nat} {token}, tokens[i]? = some token →
      ledger.issuer t token ≠ some env.contract := fun hat hissuer =>
    Option.some_ne_none _ (hissuer.symm.trans (hdeployed _ (List.mem_of_getElem? hat)).1)
  refine ⟨?_, ?_, hstep.unopened hbooks h.unopened, ?_⟩
  · intro callId call' outcome token hcall' htoken
    obtain ⟨-, hissuer⟩ | ⟨-, -, i, -, hat⟩ := horigin hcall' htoken
    · exact (ledger.replayed hreplay hissuer).1
    · exact (hdeployed token (List.mem_of_getElem? hat)).2.1
  · intro callId call' outcome callId₂ call₂' outcome₂ token hcall' htoken hcall₂' htoken₂
    obtain ⟨hcall, hissuer⟩ | ⟨hid, -, i, hi, hat⟩ := horigin hcall' htoken
    · obtain ⟨hcall₂, -⟩ | ⟨-, -, i, -, hat⟩ := horigin hcall₂' htoken₂
      · exact h.distinct hcall htoken hcall₂ htoken₂
      · exact absurd hissuer (hfresh hat)
    · obtain ⟨-, hissuer⟩ | ⟨hid₂, -, j, hj, hat₂⟩ := horigin hcall₂' htoken₂
      · exact absurd hissuer (hfresh hat)
      · refine ⟨hid.trans hid₂.symm, ?_⟩
        obtain ⟨hlt, hat⟩ := List.getElem?_eq_some_iff.mp hat
        obtain ⟨hlt₂, hat₂⟩ := List.getElem?_eq_some_iff.mp hat₂
        have hpositions : i = j := hnodup.getElem_inj_iff.mp (hat.trans hat₂.symm)
        rw [hi, hj, hpositions]
  · intro callId call' outcome token hcall' htoken
    rw [(tallies_of_other (by simp [MarketOp.redeems])).2.2 outcome]
    obtain ⟨hcall, hissuer⟩ | ⟨hid, hpool, i, -, hat⟩ := horigin hcall' htoken
    · have hbacked := h.backed callId call' outcome token hcall htoken
      have hsupply := (ledger.replayed hreplay hissuer).2
      have hpool := hstep.pool_moves hbooks h rfl hcall hcall' htoken
      simp only [redeemedBy, MarketOp.redeems, reduceCtorEq, if_false] at hpool
      omega
    · have hnone := redeemed_shares_eq_zero (h.unopened callId (hid ▸ hbooks.fresh)) outcome
      rw [hnone, hpool, (hdeployed token (List.mem_of_getElem? hat)).2.2]
      rfl

end Market.SharesIssued

/-- Every operation that leaves the shares with what backs them preserves the invariant. -/
theorem MarketStep.shares_issued (hstep : MarketStep env config op m effects m')
    (hbooks : m.BooksAgree retained) (hreplay : Replays env t effects t')
    (hkeeps : keepsBacking history m op = true) (h : m.SharesIssued ledger env.contract history t) :
    m'.SharesIssued ledger env.contract (⟨env, op, effects⟩ :: history) t' := by
  by_cases hcreates : ∃ creator args, op = .createCall creator args
  · obtain ⟨creator, args, rfl⟩ := hcreates
    have hstep' := hstep
    cases hstep with
    | created => exact h.created hstep' hbooks hreplay
    | staked hr => cases hr
    | voidRefunded hr => cases hr
  · refine h.kept hstep hbooks hreplay hkeeps fun id call' hcall' => ?_
    obtain hold | ⟨creator, args, -, hop, -⟩ := hstep.call_origin hcall'
    · exact hold
    · exact absurd ⟨creator, args, hop⟩ hcreates

/-- The redemptions of a call are within the pools that its decision divides, and only settled
calls have redemptions. -/
structure Market.SharesPaid (history : List MarketReceipt) (m : Market) : Prop where
  unopened : ∀ callId, m.calls callId = none → redeemedFrom history callId = false
  settled : ∀ callId call, m.calls callId = some call → redeemedFrom history callId = true →
    call.settled = true ∧ 0 < valueAt call.outcomeStakes call.outcome ∧
      (call.shareTokens.lookup call.outcome).isSome = true
  covered : ∀ callId call, m.calls callId = some call →
    redemptions history callId * valueAt call.outcomeStakes call.outcome ≤
      redeemedShares history callId call.outcome * call.pools.sum

theorem MarketStep.settled_pools (hstep : MarketStep env config op m effects m')
    (hbooks : m.BooksAgree retained) {callId : Nat} {call call' : Call}
    (hcall : m.calls callId = some call) (hcall' : m'.calls callId = some call')
    (hsettled : call.settled = true) : call'.outcomeStakes = call.outcomeStakes := by
  cases hmoves : op.movesStakes with
  | false =>
    obtain ⟨kept, hkept, hterms⟩ := (hstep.same_books hmoves).kept hcall
    obtain rfl : kept = call' := Option.some.inj (hkept.symm.trans hcall')
    exact hterms.outcomeStakes
  | true =>
    cases hstep with
    | created =>
      have hnumber := hbooks.numbered _ _ hcall
      rw [Market.withNewCall_calls, if_neg (by omega), hcall] at hcall'
      cases hcall'
      rfl
    | @staked _ r staked credited _ _ _ hstaked hopen =>
      rw [Market.withStake_calls r credited (m.keyed _ _ hstaked)] at hcall'
      split at hcall'
      · next hid =>
        obtain rfl : staked = call := Option.some.inj (hstaked.symm.trans (hid ▸ hcall))
        simp [hopen.notSettled] at hsettled
      · obtain rfl : call = call' := Option.some.inj (hcall.symm.trans hcall')
        rfl
    | @withdrawn staker c position staked _ refund _ _ hstaked hopen =>
      rw [Market.withoutStake_calls staker position refund (m.keyed _ _ hstaked)] at hcall'
      split at hcall'
      · next hid =>
        obtain rfl : staked = call := Option.some.inj (hstaked.symm.trans (hid ▸ hcall))
        simp [hopen.notSettled] at hsettled
      · obtain rfl : call = call' := Option.some.inj (hcall.symm.trans hcall')
        rfl
    | voidRefunded hr =>
      cases op <;> simp [MarketOp.voidRefundRequest, MarketOp.movesStakes] at hr hmoves
    | _ => simp [MarketOp.movesStakes] at hmoves

/-- A resolved call has the outcome it was resolved with. -/
theorem MarketStep.resolved_outcome {callId outcome : Nat} {endPrice : Int} {call' : Call}
    (hstep : MarketStep env config (.resolveCall callId outcome endPrice) m effects m')
    (hcall' : m'.calls callId = some call') : call'.outcome = outcome := by
  cases hstep with
  | resolved _ _ _ hcall =>
    rw [Market.setCall_calls, if_pos (m.keyed _ _ hcall).symm] at hcall'
    cases hcall'
    rfl
  | staked hr => cases hr
  | voidRefunded hr => cases hr

/-- An operation that leaves the shares with what backs them keeps the decision and the pools of a
call whose shares have been redeemed. -/
theorem MarketStep.decision_kept (hstep : MarketStep env config op m effects m')
    (hbooks : m.BooksAgree retained) (hkeeps : keepsBacking history m op = true) {callId : Nat}
    {call call' : Call} (hcall : m.calls callId = some call)
    (hcall' : m'.calls callId = some call') (hsettled : call.settled = true)
    (hredeemed : redeemedFrom history callId = true) :
    call'.settled = true ∧ call'.outcome = call.outcome ∧
      call'.outcomeStakes = call.outcomeStakes ∧ call.SameDeal call' := by
  have hpools := hstep.settled_pools hbooks hcall hcall' hsettled
  obtain ⟨kept, hkept, hdeal⟩ := hstep.call_kept hbooks hcall
  obtain rfl : kept = call' := Option.some.inj (hkept.symm.trans hcall')
  cases hstep.status_change hbooks hcall hcall' with
  | unchanged _ _ houtcome _ hsame => exact ⟨hsame ▸ hsettled, houtcome, hpools, hdeal⟩
  | settled => exact ⟨rfl, rfl, hpools, hdeal⟩
  | ended => exact ⟨hsettled, rfl, hpools, hdeal⟩
  | resolved hresolves =>
    cases op with
    | resolveCall c outcome endPrice =>
      obtain rfl : c = callId := by simpa [MarketOp.resolves] using hresolves
      have houtcome := hstep.resolved_outcome hcall'
      have hsame : call.outcome = outcome := by simpa [keepsBacking, hcall, hredeemed] using hkeeps
      exact ⟨hsettled, houtcome.trans hsame.symm, hpools, hdeal⟩
    | _ => simp [MarketOp.resolves] at hresolves

theorem Market.BooksAgree.pool_nonneg (hbooks : m.BooksAgree retained) {callId : Nat} {call : Call}
    (hcall : m.calls callId = some call) (position : Nat) :
    0 ≤ valueAt call.outcomeStakes position := by
  have hentries : 0 ≤ total (call.stakesOn position) :=
    total_nonneg _ fun staker => hbooks.entries _ _ hcall position staker ▸ hbooks.nonneg _
  have hretained := hbooks.retained_nonneg callId position
  rw [hbooks.pools _ _ hcall]
  omega

/-- A redemption pays no more than the redeemed part of the winning pool is of all pools. -/
theorem MarketStep.redemption_covered (hstep : MarketStep env config op m effects m')
    (hbooks : m.BooksAgree retained) {callId : Nat} {call : Call}
    (hredeems : op.redeems = some callId) (hcall : m.calls callId = some call) :
    call.settled = true ∧ 0 < valueAt call.outcomeStakes call.outcome ∧
      (call.shareTokens.lookup call.outcome).isSome = true ∧
      redemptionBy callId ⟨env, op, effects⟩ * valueAt call.outcomeStakes call.outcome ≤
        redeemedBy callId call.outcome ⟨env, op, effects⟩ * call.pools.sum := by
  cases hstep with
  | @redeemed redeemer c redeemed burned _ balance payout _ hredeemed _ hsettled hburned hbalance
      hpayout hwinning hformula =>
    obtain rfl : c = callId := by simpa [MarketOp.redeems] using hredeems
    obtain rfl : redeemed = call := Option.some.inj (hredeemed.symm.trans hcall)
    refine ⟨hsettled, hwinning, by simp [hburned], ?_⟩
    have hpools : 0 ≤ redeemed.pools.sum := sum_map_nonneg _ (hbooks.pool_nonneg hcall)
    have hpaid : payout * valueAt redeemed.outcomeStakes redeemed.outcome ≤
        balance * redeemed.pools.sum := by
      rw [hformula, tdiv_eq_div (mul_nonneg hbalance.le hpools)]
      exact Int.ediv_mul_le _ hwinning.ne'
    simpa [redemptionBy, redeemedBy, MarketOp.redeems, Effect.paidTo, Effect.onEvent,
      Event.sharesRedeemedOf] using hpaid
  | staked hr => cases op <;> simp [MarketOp.stakeRequest, MarketOp.redeems] at hr hredeems
  | voidRefunded hr =>
    cases op <;> simp [MarketOp.voidRefundRequest, MarketOp.redeems] at hr hredeems
  | _ => simp [MarketOp.redeems] at hredeems

theorem MarketStep.shares_paid (hstep : MarketStep env config op m effects m')
    (hbooks : m.BooksAgree retained) (hkeeps : keepsBacking history m op = true)
    (h : m.SharesPaid history) : m'.SharesPaid (⟨env, op, effects⟩ :: history) := by
  -- A call whose shares were redeemed before exists, settled, and stays as it was decided.
  have hkept : ∀ {callId call'}, m'.calls callId = some call' →
      redeemedFrom history callId = true → ∃ call, m.calls callId = some call ∧
        call.settled = true ∧ call'.settled = true ∧ call'.outcome = call.outcome ∧
        call'.outcomeStakes = call.outcomeStakes ∧ call.SameDeal call' := by
    intro callId call' hcall' hredeemed
    cases hcall : m.calls callId with
    | none => simp [h.unopened callId hcall] at hredeemed
    | some call =>
      have hsettled := (h.settled callId call hcall hredeemed).1
      exact ⟨call, rfl, hsettled, hstep.decision_kept hbooks hkeeps hcall hcall' hsettled hredeemed⟩
  refine ⟨hstep.unopened hbooks h.unopened, ?_, ?_⟩
  · intro callId call' hcall' hredeemed
    by_cases hredeems : op.redeems = some callId
    · obtain ⟨rfl, -⟩ := hstep.redeems_call hredeems
      obtain ⟨hsettled, hwinning, htoken, -⟩ := hstep.redemption_covered hbooks hredeems hcall'
      exact ⟨hsettled, hwinning, htoken⟩
    · rw [(tallies_of_other hredeems).1] at hredeemed
      obtain ⟨call, hcall, -, hsettled, houtcome, hpools, hdeal⟩ := hkept hcall' hredeemed
      obtain ⟨-, hwinning, htoken⟩ := h.settled callId call hcall hredeemed
      rw [houtcome, hpools, hdeal.shareTokens]
      exact ⟨hsettled, hwinning, htoken⟩
  · intro callId call' hcall'
    by_cases hredeems : op.redeems = some callId
    · obtain ⟨rfl, -⟩ := hstep.redeems_call hredeems
      obtain ⟨-, -, -, hpaid⟩ := hstep.redemption_covered hbooks hredeems hcall'
      have hearlier := h.covered callId call' hcall'
      rw [redemptions, tally_cons, redeemedShares, tally_cons, add_mul, add_mul]
      exact add_le_add hpaid hearlier
    · have hother : (⟨env, op, effects⟩ : MarketReceipt).op.redeems ≠ some callId := hredeems
      rw [(tallies_of_other hother).2.1, (tallies_of_other hother).2.2]
      cases hredeemed : redeemedFrom history callId with
      | false =>
        rw [redemptions_eq_zero hredeemed, redeemed_shares_eq_zero hredeemed, zero_mul, zero_mul]
      | true =>
        obtain ⟨call, hcall, -, -, houtcome, hpools, hdeal⟩ := hkept hcall' hredeemed
        have hsum : call'.pools.sum = call.pools.sum := by
          rw [Call.pools, Call.pools, hdeal.outcomeCount, hpools]
        rw [houtcome, hpools, hsum]
        exact h.covered callId call hcall

end Steps

section Run

variable {T : Type} [Tokens T] [Crypto] {ledger : TokenSupply T} {self : Address}
  {outside : T → T → Prop} {history : List Label} {w w' : World T} {l : Label}

/-- A step is an operation on the market, or it leaves the market and the registry's own tokens as
they are. -/
theorem WorldStep.shares_cases (houtside : ledger.LeftAlone self outside)
    (h : WorldStep self outside w l w') :
    (∃ r : MarketReceipt, l = r.label ∧ r.env.contract = self ∧
      Replays r.env w.tokens r.effects w'.tokens ∧
      MarketStep r.env w.store.control.config r.op w.store.market r.effects w'.store.market) ∨
    (l.onMarket = none ∧ w'.store.market = w.store.market ∧
      ∀ token, ledger.issuer w.tokens token = some self →
        ledger.issuer w'.tokens token = some self ∧
          ledger.supply w'.tokens token = ledger.supply w.tokens token) := by
  cases h with
  | elsewhere hout => exact .inr ⟨rfl, rfl, houtside _ _ hout⟩
  | @invoked env action f hself _ _ hrun =>
    cases action with
    | market op =>
      obtain ⟨-, -, effects, heffects, hreplay, hstep⟩ := MarketOp.steps hrun
      obtain rfl : f.effects = effects := by simpa [World.frame] using heffects
      exact .inl ⟨⟨env, op, f.effects⟩, rfl, hself, hreplay, hstep⟩
    | desk op =>
      obtain ⟨desk, -, rfl⟩ := run_onDesk.mp hrun
      exact .inr ⟨rfl, rfl, fun _ hissuer => ⟨hissuer, rfl⟩⟩
    | executeAdminProposal caller proposalId =>
      obtain ⟨_, _, -, -, -, -, -, -, -, hexec⟩ := execute_admin_proposal_executes hrun
      obtain ⟨events, spent, -, hspent, hreplay⟩ := hexec.effects
      refine .inr ⟨rfl, hexec.market, fun token hissuer => ?_⟩
      obtain ⟨hissuer', hsupply⟩ := ledger.replayed hreplay hissuer
      have hunmoved : effectTotal (Effect.supplyChange token) (events.map .event ++ spent) =
          0 := by
        refine effectTotal_eq_zero _ fun e he => ?_
        rcases List.mem_append.mp he with he | he
        · obtain ⟨_, -, rfl⟩ := List.mem_map.mp he
          rfl
        · obtain rfl | ⟨_, _, rfl⟩ := hspent
          · cases he
          · rw [List.mem_singleton.mp he]
            rfl
      exact ⟨hissuer', by rw [hsupply, hunmoved, add_zero]; rfl⟩

/-- In every run that leaves the shares with what backs them they are backed. -/
theorem shares_issued (houtside : ledger.LeftAlone self outside)
    (run : (registry self outside).RunWhere keepsShares history w) :
    w.store.market.SharesIssued ledger self (marketHistory history) w.tokens := by
  refine run.invariant (I := fun h w =>
    w.store.market.SharesIssued ledger self (marketHistory h) w.tokens) ?_ ?_
  · intro s hs
    rw [show s.store = Storage.empty from hs]
    constructor <;> simp [Storage.empty, redeemedFrom, SharesBacked]
  · intro h s l s' hrun ih hs hguard
    obtain ⟨r, rfl, hself, hreplay, hstep⟩ | ⟨hoff, hmarket, htokens⟩ :=
      WorldStep.shares_cases houtside hs
    · subst hself
      rw [market_history_cons_label]
      exact hstep.shares_issued (books_agree hrun) hreplay hguard ih
    · rw [market_history_cons_off hoff, hmarket]
      refine ⟨?_, ih.distinct, ih.unopened, ?_⟩
      · intro callId call outcome token hcall htoken
        exact (htokens token (ih.issued callId call outcome token hcall htoken)).1
      · intro callId call outcome token hcall htoken
        rw [(htokens token (ih.issued callId call outcome token hcall htoken)).2]
        exact ih.backed callId call outcome token hcall htoken

theorem shares_paid (run : (registry self outside).RunWhere keepsShares history w) :
    w.store.market.SharesPaid (marketHistory history) := by
  refine market_invariant (I := fun h m => m.SharesPaid h) ?_ ?_ run
  · constructor <;> simp [Storage.empty, redeemedFrom]
  · intro h w r m' hrun hguard ih hstep
    exact hstep.shares_paid (books_agree hrun) hguard ih

/-- As long as nobody withdraws early from a position with a share token, and no call is decided
otherwise after a redemption, the shares of every outcome are backed by its pool, and no call pays
out more for its shares than its pools. -/
theorem share_supply_backed (houtside : ledger.LeftAlone self outside)
    (run : (registry self outside).RunWhere keepsShares history w) :
    SharesBacked ledger (marketHistory history) w.store.market w.tokens ∧
      RedemptionsFunded (marketHistory history) w.store.market := by
  have hbacked := (shares_issued houtside run).backed
  have hbooks := books_agree run
  refine ⟨hbacked, fun callId call hcall => ?_⟩
  have hpools : 0 ≤ call.pools.sum := sum_map_nonneg _ (hbooks.pool_nonneg hcall)
  have hpaid := shares_paid run
  cases hredeemed : redeemedFrom (marketHistory history) callId with
  | false =>
    rw [redemptions_eq_zero hredeemed]
    exact hpools
  | true =>
    obtain ⟨-, hwinning, htoken⟩ := hpaid.settled callId call hcall hredeemed
    obtain ⟨token, htoken⟩ := Option.isSome_iff_exists.mp htoken
    have hshares : redeemedShares (marketHistory history) callId call.outcome ≤
        valueAt call.outcomeStakes call.outcome := by
      have hequal := hbacked callId call call.outcome token hcall htoken
      have hsupply := ledger.nonneg w.tokens token
      omega
    refine le_of_mul_le_mul_right ?_ hwinning
    calc redemptions (marketHistory history) callId * valueAt call.outcomeStakes call.outcome
        ≤ redeemedShares (marketHistory history) callId call.outcome * call.pools.sum :=
          hpaid.covered callId call hcall
      _ ≤ valueAt call.outcomeStakes call.outcome * call.pools.sum :=
          mul_le_mul_of_nonneg_right hshares hpools
      _ = call.pools.sum * valueAt call.outcomeStakes call.outcome := mul_comm _ _

end Run

section Scenario

/-- SHA-256, and no signatures. -/
abbrev hashing : Crypto where
  sha256 := Sha256.sha256
  ed25519Verify _ _ _ := false

attribute [local instance] hashing

/-- A registry with share tokens, a call by Alice and a call by Bob. -/
def sharesScript : List (Env × Action) :=
  [at_ 1 [adminAddress] (.desk (.initializeContract adminAddress managerAddress 0)),
    at_ 2 [adminAddress] (.desk (.whitelistToken usdc)),
    at_ 2 [adminAddress] (.desk (.setShareWasmHash zeroHash)),
    at_ 3 [alice] (.market (.createCall alice sampleCall)),
    at_ 4 [bob] (.market (.createCall bob sampleCall))]

/-- Alice's call is decided for the first outcome, and Alice redeems her shares. -/
def redemptionScript : List (Env × Action) :=
  [at_ 1000 [managerAddress] (.market (.resolveCall 1 1 7)),
    at_ 1001 [managerAddress] (.market (.markSettled 1)),
    at_ 1002 [alice] (.market (.redeemShares alice 1))]

/-- Alice and Bob stake on different outcomes of Alice's call. -/
def backedScript : List (Env × Action) :=
  sharesScript ++
    [at_ 10 [alice] (.market (.stakeOnCall alice 1 1000 1)),
      at_ 11 [bob] (.market (.stakeOnCall bob 1 3000 2))] ++ redemptionScript

/-- Alice stakes ten and withdraws nine of them, with all her shares. Bob stakes on both calls. -/
def exitScript : List (Env × Action) :=
  sharesScript ++
    [at_ 10 [alice] (.market (.stakeOnCall alice 1 10 1)),
      at_ 11 [alice] (.market (.withdrawStake alice 1 1)),
      at_ 12 [bob] (.market (.stakeOnCall bob 1 100 2)),
      at_ 13 [bob] (.market (.stakeOnCall bob 2 5000 1))] ++ redemptionScript

def backedRun : Replayed (T := StandardLedger) home backingKept :=
  .of freshWorld fresh_world_empty backedScript (by decide +kernel)

def exitRun : Replayed (T := StandardLedger) home anything :=
  .of freshWorld fresh_world_empty exitScript (by decide +kernel)

/-- Alice's call and the share token of its first outcome, as the scenario leaves them. -/
def exitCall : Call := (exitRun.world.store.getCall 1).get (by decide +kernel)

def exitToken : Address := (exitCall.shareTokens.lookup 1).get (by decide +kernel)

/-- Alice has redeemed all shares of the winning outcome for all that was staked. -/
theorem share_supply_backed_after_redemption :
    (SharesBacked StandardLedger.tokenSupply (marketHistory backedRun.history)
        backedRun.world.store.market backedRun.world.tokens ∧
      RedemptionsFunded (marketHistory backedRun.history) backedRun.world.store.market) ∧
      redeemedShares (marketHistory backedRun.history) 1 1 = 1000 ∧
      redemptions (marketHistory backedRun.history) 1 = 4000 :=
  have run : (registry home fun _ _ => False).RunWhere keepsShares backedRun.history
      backedRun.world := backedRun.run fun _ _ _ h => h
  have hnobody : StandardLedger.tokenSupply.LeftAlone home fun _ _ => False := fun _ _ h => h.elim
  ⟨share_supply_backed hnobody run, by decide +kernel, by decide +kernel⟩

/-- After the withdrawal a pool of one stood for ten shares, which were redeemed for ten times the
pools of the call. -/
theorem withdrawn_shares_redeemed :
    (registry home fun _ _ => False).Run exitRun.history exitRun.world ∧
      ¬ SharesBacked StandardLedger.tokenSupply (marketHistory exitRun.history)
        exitRun.world.store.market exitRun.world.tokens ∧
      ¬ RedemptionsFunded (marketHistory exitRun.history) exitRun.world.store.market ∧
      redeemedShares (marketHistory exitRun.history) 1 1 = 10 ∧
      redemptions (marketHistory exitRun.history) 1 = 1010 := by
  have hcall : exitRun.world.store.market.calls 1 = some exitCall := (Option.some_get _).symm
  have htoken : exitCall.shareTokens.lookup 1 = some exitToken := (Option.some_get _).symm
  have hshares : redeemedShares (marketHistory exitRun.history) 1 1 = 10 := by decide +kernel
  have hpaid : redemptions (marketHistory exitRun.history) 1 = 1010 := by decide +kernel
  have hpool : valueAt exitCall.outcomeStakes 1 = 1 := by decide +kernel
  have hpools : exitCall.pools.sum = 101 := by decide +kernel
  refine ⟨exitRun.run anything_allowed, fun hbacked => ?_, fun hfunded => ?_, hshares, hpaid⟩
  · have hequal := hbacked 1 exitCall 1 exitToken hcall htoken
    have hsupply := StandardLedger.tokenSupply.nonneg exitRun.world.tokens exitToken
    omega
  · have hle := hfunded 1 exitCall hcall
    omega

end Scenario

end Backit.CallRegistry
