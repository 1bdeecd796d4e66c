import Backit.OutcomeManager.BatchClaims
import Backit.Platform.OnePayout

/-!
# Batches of claims

A batch of claims against the escrow of a registry or a market leaves the balances and the flags
that the claims leave one by one, in every order, as long as no payout goes to the escrow's own
contract: such a payout needs the amount at its own time and takes nothing out.
-/

namespace Backit.Platform

open Soroban Contract Lib OutcomeManager

variable {S : Type}

/-- A contract that keeps the escrow of a call. -/
def Resident.keepsEscrow : Resident → Bool
  | .registry _ | .market _ => true
  | _ => false

section Releases

variable {T : Type} [Tokens T] {env : Env} {callId : Nat} {recipient : Address} {amount : Int}
  {u : Unit}

/-- A registry that is open to the caller releases by a transfer alone. -/
theorem run_registry_release {f f' : Frame CallRegistry.Storage T CallRegistry.Event}
    {c : CallRegistry.ContractConfig} {call : CallRegistry.Call}
    (hconfig : f.store.control.config = some c) (hauth : c.outcomeManager ∈ env.auths)
    (hcall : f.store.market.calls callId = some call) :
    run (CallRegistry.releaseEscrow callId recipient amount) env f = .ok (u, f') ↔
      ∃ tokens, Tokens.transfer env call.stakeToken env.contract recipient amount f.tokens =
          some tokens ∧
        f' = ⟨f.store, tokens, CallRegistry.releaseEvents call callId recipient amount ++
          .transfer call.stakeToken env.contract recipient amount :: f.effects⟩ := by
  simp only [CallRegistry.releaseEscrow, CallRegistry.run_requireConfig_bind, hconfig, run_steps,
    hauth, CallRegistry.run_requireCall_bind, hcall, CallRegistry.transfer_token_eq,
    Option.some.injEq, exists_eq_left', true_and, CallRegistry.releaseEvents]
  split
  · simp only [run_publish]
    rfl
  · simp only [run_pure, Except.ok.injEq, Prod.mk.injEq, true_and]
    exact exists_congr fun _ => and_congr_right fun _ => eq_comm

theorem run_market_release {f f' : Frame PredictionMarket.Storage T PredictionMarket.Event}
    {c : PredictionMarket.MarketConfig} {call : PredictionMarket.Call}
    (hconfig : f.store.config = some c) (hid : c.callId = callId)
    (hauth : c.outcomeManager ∈ env.auths) (hcall : f.store.pool.call = some call) :
    run (PredictionMarket.releaseEscrow callId recipient amount) env f = .ok (u, f') ↔
      ∃ tokens, Tokens.transfer env call.stakeToken env.contract recipient amount f.tokens =
          some tokens ∧
        f' = ⟨f.store, tokens,
          .transfer call.stakeToken env.contract recipient amount :: f.effects⟩ := by
  simp only [PredictionMarket.releaseEscrow, PredictionMarket.run_requireConfig_bind, hconfig,
    PredictionMarket.run_requireCallId_bind, hid, run_steps, hauth,
    PredictionMarket.run_requireCall_bind, hcall, PredictionMarket.transfer_token_eq,
    run_tokenTransfer, Option.some.injEq, exists_eq_left', true_and]
  rfl

end Releases

section Escrow

variable {env : Env} {registry : Address} {callId : Nat} {l : Ledger S}

/-- A visit that makes a transfer and changes nothing else. -/
theorem visit_eq_transfer [Tokens S] {σ E ε : Type} {wrap : σ → Resident} {s : σ}
    {op : Contract (Frame σ (Ledger S) E) ε Unit} {token recipient : Address} {amount : Int}
    (effects : List (Effect E)) (hresident : l.resident registry = wrap s)
    (hrun : ∀ f', run op (l.callee env registry) ⟨s, l.set registry .running, []⟩ = .ok ((), f') ↔
      ∃ tokens, Tokens.transfer (l.callee env registry) token registry recipient amount
          (l.set registry .running) = some tokens ∧ f' = ⟨s, tokens, effects⟩) :
    (l.visit wrap env registry s op).map (·.2) =
      (Tokens.transfer (l.callee env registry) token registry recipient amount l.rest).map
        l.withRest := by
  refine Option.ext fun l' => ?_
  simp only [Option.map_eq_some_iff, Prod.exists, Ledger.visit_eq_some, hrun]
  have hback : ∀ rest, ((l.set registry .running).withRest rest).set registry (wrap s) =
      l.withRest rest := by
    intro rest
    simp [Ledger.set, Ledger.withRest, ← hresident]
  constructor
  · rintro ⟨_, _, ⟨_, ⟨tokens, htransfer, rfl⟩, rfl⟩, rfl⟩
    obtain ⟨rest, hrest, rfl⟩ := Option.map_eq_some_iff.mp htransfer
    exact ⟨rest, hrest, (hback rest).symm⟩
  · rintro ⟨rest, hrest, rfl⟩
    exact ⟨(), _, ⟨_, ⟨_, Option.map_eq_some_iff.mpr ⟨rest, hrest, rfl⟩, rfl⟩, rfl⟩, hback rest⟩

variable [Strangers S] [Crypto]

/-- A registry or a market releases escrow of a token to whomever the manager names, by a transfer
alone. -/
def OpenEscrow (env : Env) (registry : Address) (callId : Nat) (token : Address) (l : Ledger S) :
    Prop :=
  ∀ rest recipient amount,
    Registries.releaseEscrow env registry callId recipient amount (l.withRest rest) =
      (Tokens.transfer (l.callee env registry) token registry recipient amount rest).map l.withRest

/-- Once a release succeeds, every other one does as long as its transfer does. -/
theorem escrow_open {recipient : Address} {amount : Int} {l' : Ledger S}
    (hkeeps : (l.resident registry).keepsEscrow = true)
    (h : Registries.releaseEscrow env registry callId recipient amount l = some l') :
    ∃ token, OpenEscrow env registry callId token l := by
  cases hresident : l.resident registry with
  | registry s =>
    simp only [Registries.releaseEscrow, Ledger.callEscrow, hresident, Option.map_eq_some_iff,
      Prod.exists, Ledger.visit_eq_some, CallRegistry.MarketOp.perform,
      CallRegistry.releaseEscrow, CallRegistry.run_requireConfig_bind, run_requireAuth_bind,
      CallRegistry.run_requireCall_bind] at h
    obtain ⟨_, _, ⟨_, ⟨c, hconfig, hauth, call, hcall, -⟩, -⟩, -⟩ := h
    refine ⟨call.stakeToken, fun rest payee paid => ?_⟩
    simp only [Registries.releaseEscrow, Ledger.callEscrow, Ledger.withRest_resident, hresident]
    refine visit_eq_transfer (l := l.withRest rest)
      (CallRegistry.releaseEvents call callId payee paid ++
        [.transfer call.stakeToken registry payee paid]) hresident fun f' => ?_
    exact run_registry_release hconfig hauth hcall
  | market s =>
    simp only [Registries.releaseEscrow, Ledger.callEscrow, hresident, Option.map_eq_some_iff,
      Prod.exists, Ledger.visit_eq_some, PredictionMarket.releaseEscrow,
      PredictionMarket.run_requireConfig_bind, PredictionMarket.run_requireCallId_bind,
      run_requireAuth_bind, PredictionMarket.run_requireCall_bind] at h
    obtain ⟨_, _, ⟨_, ⟨c, hconfig, hid, hauth, call, hcall, -⟩, -⟩, -⟩ := h
    refine ⟨call.stakeToken, fun rest payee paid => ?_⟩
    simp only [Registries.releaseEscrow, Ledger.callEscrow, Ledger.withRest_resident, hresident]
    refine visit_eq_transfer (l := l.withRest rest)
      [.transfer call.stakeToken registry payee paid] hresident fun f' => ?_
    exact run_market_release hconfig hid hauth hcall
  | _ =>
    rw [hresident] at hkeeps
    cases hkeeps

/-- Releases of an open escrow are payments of its contract. -/
theorem OpenEscrow.release_each {token : Address} (h : OpenEscrow env registry callId token l)
    (rest : S) (paid : List (Address × Int)) :
    releaseEach env registry callId (l.withRest rest) paid =
      (payEach (l.callee env registry) token rest paid).map l.withRest := by
  unfold OpenEscrow at h
  induction paid generalizing rest with
  | nil => rfl
  | cons p paid ih =>
    refine Option.ext fun l' => ?_
    simp only [release_each_cons, h, Option.map_eq_some_iff, pay_each_cons]
    constructor
    · rintro ⟨_, ⟨rest₁, htransfer, rfl⟩, hpaid⟩
      rw [ih] at hpaid
      obtain ⟨rest', hrest, rfl⟩ := Option.map_eq_some_iff.mp hpaid
      exact ⟨rest', ⟨rest₁, htransfer, hrest⟩, rfl⟩
    · rintro ⟨rest', ⟨rest₁, htransfer, hrest⟩, rfl⟩
      refine ⟨_, ⟨rest₁, htransfer, rfl⟩, ?_⟩
      rw [ih, hrest]
      rfl

end Escrow

/-- Two worlds have the same balances, and their managers the same flags of paid winners. -/
structure SameOutcome [Tokens S] (w w' : World S) : Prop where
  balances : ∀ token who,
    Tokens.balance w.ledger.rest token who = Tokens.balance w'.ledger.rest token who
  claimed : ∀ m, (w.ledger.managerAt m).map (·.payouts.claimed) =
    (w'.ledger.managerAt m).map (·.payouts.claimed)

theorem SameOutcome.refl [Tokens S] (w : World S) : SameOutcome w w :=
  ⟨fun _ _ => rfl, fun _ => rfl⟩

section Batches

variable [Strangers S] [Crypto] [Network]

/-- The batch of some claims, each a staker and a stake. -/
def batchOf (env : Env) (registry : Address) (callId : Nat) (winning losing : Int)
    (claims : List (Address × Int)) : Input :=
  .manage env (.payout (.batchClaimPayouts registry callId (claims.map Prod.fst)
    (claims.map Prod.snd) winning losing))

namespace World

/-- The world after an input. An input that fails leaves it as it is. -/
def after (w : World S) (input : Input) : World S := ((w.next input).map (·.2)).getD w

/-- One claim of a staker, paid by the manager of the environment. -/
def payClaim (env : Env) (registry : Address) (callId : Nat) (winning losing : Int) (w : World S)
    (claim : Address × Int) : Option (World S) :=
  match w.ledger.resident env.contract with
  | .manager s =>
    (w.invoke .manager env s
      (OutcomeManager.payClaim registry callId claim.1 claim.2 winning losing)).map (·.2)
  | _ => none

/-- Claims one by one. -/
def payClaims (env : Env) (registry : Address) (callId : Nat) (winning losing : Int) (w : World S)
    (claims : List (Address × Int)) : Option (World S) :=
  claims.foldlM (payClaim env registry callId winning losing) w

end World

/-- A batch of claims fails and leaves the world as it is, or leaves what the claims leave one by
one in every order; in every order the batch leaves the same. -/
def BatchAsClaims (w : World S) (env : Env) (registry : Address) (callId : Nat)
    (winning losing : Int) (claims : List (Address × Int)) : Prop :=
  ∀ ordered : List (Address × Int), ordered.Perm claims →
    SameOutcome (w.after (batchOf env registry callId winning losing ordered))
        (w.after (batchOf env registry callId winning losing claims)) ∧
      (w.after (batchOf env registry callId winning losing claims) = w ∨
        ∃ w', w.payClaims env registry callId winning losing ordered = some w' ∧
          SameOutcome w' (w.after (batchOf env registry callId winning losing claims)))

variable {w w' v : World S} {env : Env} {registry : Address} {callId : Nat}
  {winning losing : Int} {l : Ledger S} {s : OutcomeManager.Storage} {p : Payouts} {rest : S}

/-- A world with the given payouts at the manager, between claims: the ledger is the one in which
the manager runs, with the given rest. -/
structure Between (env : Env) (l : Ledger S) (s : OutcomeManager.Storage) (p : Payouts) (rest : S)
    (v : World S) : Prop where
  manager : v.ledger.resident env.contract = .manager (s.onPayouts fun _ => p)
  admits : v.Admits env
  running : v.ledger.set env.contract .running = l.withRest rest

/-- The world that an invocation of the manager leaves. -/
def leaves (env : Env) (l : Ledger S) (s : OutcomeManager.Storage) (p : Payouts) (rest : S) :
    World S :=
  ⟨(l.withRest rest).set env.contract (.manager (s.onPayouts fun _ => p)), env.timestamp,
    env.sequence⟩

omit [Strangers S] [Crypto] [Network] in
theorem between_leaves (p' : Payouts) (rest' : S) (h : Between env l s p rest v) :
    Between env l s p' rest' (leaves env l s p' rest') where
  manager := Ledger.set_resident _ _ _
  admits := by
    refine ⟨fun a ha => ?_, le_rfl, le_rfl⟩
    have hfree := h.admits.auths a ha
    have hne : a ≠ env.contract := by
      rintro rfl
      rw [h.manager] at hfree
      cases hfree
    have hl : l.resident a = v.ledger.resident a := by
      rw [← Ledger.set_resident_ne v.ledger .running hne, h.running]
      rfl
    simp only [leaves, Ledger.set_resident_ne _ _ hne, Ledger.withRest_resident, hl, hfree]
  running := by
    have hl : l.resident env.contract = .running := by
      rw [← Ledger.withRest_resident l rest, ← h.running]
      exact Ledger.set_resident _ _ _
    simp [leaves, Ledger.set, Ledger.withRest, ← hl]

/-- A claim that is owed succeeds if its releases can be paid. -/
theorem Between.pay_claim (h : Between env l s p rest v) {token feeCollector : Address}
    {x : Payment} {rest' : S} (hopen : OpenEscrow env registry callId token l)
    (hdecided : s.tally.finalOutcome callId ≠ none)
    (hcollector : s.settings.feeCollector = some feeCollector)
    (hunpaid : p.claimed (callId, x.winner) = false) (hpayee : x.payee = x.winner)
    (hquoted : Quoted s.settings x.stake winning losing x.feeShare x.amount)
    (hpaid : payEach (l.callee env registry) token rest (claimReleases feeCollector x) =
      some rest') :
    ∃ p', p'.claimed = (p.markClaimed callId x.winner).claimed ∧
      v.payClaim env registry callId winning losing x.claim = some (leaves env l s p' rest') := by
  have hreleases : releaseEach env registry callId (l.withRest rest)
      (claimReleases feeCollector x) = some (l.withRest rest') := by
    rw [hopen.release_each, hpaid]
    rfl
  have hrun := @pay_claim_runs _ _ env ⟨s.onPayouts fun _ => p, l.withRest rest, []⟩ registry
    callId winning losing feeCollector _ _ x _ hdecided hunpaid hpayee hcollector hquoted hreleases
  refine ⟨(p.markClaimed callId x.winner).setBalanceId callId x.winner
    (balanceId callId (Network.addressXdr x.winner)), rfl, ?_⟩
  simp only [World.payClaim, h.manager, Option.map_eq_some_iff, Prod.exists, exists_eq_right,
    World.invoke_eq_some, h.running]
  exact ⟨_, h.admits, _, hrun, rfl, rfl⟩

/-- Claims that are owed succeed one by one if their releases can be paid, by induction on the
claims. -/
theorem Between.pay_claims (h : Between env l s p rest v) {token feeCollector : Address}
    {payments : List Payment} {rest' : S} (hopen : OpenEscrow env registry callId token l)
    (hdecided : s.tally.finalOutcome callId ≠ none)
    (hcollector : s.settings.feeCollector = some feeCollector)
    (hdistinct : (payments.map (·.winner)).Nodup)
    (hunpaid : ∀ x ∈ payments, p.claimed (callId, x.winner) = false)
    (hquoted : ∀ x ∈ payments, x.payee = x.winner ∧
      Quoted s.settings x.stake winning losing x.feeShare x.amount)
    (hpaid : payEach (l.callee env registry) token rest
      (payments.flatMap (claimReleases feeCollector)) = some rest') :
    ∃ p' v', v.payClaims env registry callId winning losing (payments.map Payment.claim) =
        some v' ∧ Between env l s p' rest' v' ∧
      p'.claimed = (p.markAll callId payments).claimed := by
  induction payments generalizing p rest v with
  | nil =>
    cases hpaid
    exact ⟨p, v, rfl, h, rfl⟩
  | cons x payments ih =>
    rw [List.flatMap_cons] at hpaid
    obtain ⟨rest₁, hfirst, hothers⟩ := pay_each_append.mp hpaid
    obtain ⟨hpayee, hquote⟩ := hquoted x (.head _)
    obtain ⟨p₁, hclaimed, hclaim⟩ :=
      h.pay_claim hopen hdecided hcollector (hunpaid x (.head _)) hpayee hquote hfirst
    obtain ⟨hnew, hrest⟩ := List.nodup_cons.mp hdistinct
    have hunpaid₁ : ∀ y ∈ payments, p₁.claimed (callId, y.winner) = false := by
      intro y hy
      have hne : (callId, y.winner) ≠ (callId, x.winner) := fun heq =>
        hnew (List.mem_map.mpr ⟨y, hy, (Prod.mk.inj heq).2⟩)
      rw [hclaimed, Payouts.markClaimed_claimed, Function.update_of_ne hne]
      exact hunpaid y (.tail _ hy)
    obtain ⟨p', v', hclaims, hbetween, hmarked⟩ := ih (between_leaves _ _ h) hrest hunpaid₁
      (fun y hy => hquoted y (.tail _ hy)) hothers
    refine ⟨p', v', ?_, hbetween, ?_⟩
    · rw [World.payClaims, List.map_cons, List.foldlM_cons, hclaim]
      exact hclaims
    · rw [hmarked]
      exact Payouts.markAll_congr hclaimed callId payments

omit [Crypto] [Network] in
/-- Two worlds between claims have the same outcome if the payouts and the rests have. -/
theorem Between.same_outcome {v' : World S} {p' : Payouts} {rest' : S}
    (h : Between env l s p rest v) (h' : Between env l s p' rest' v')
    (hclaimed : p.claimed = p'.claimed)
    (hbalances : ∀ token who, Tokens.balance rest token who = Tokens.balance rest' token who) :
    SameOutcome v v' where
  balances token who := by
    have hv : v.ledger.rest = rest := congrArg Ledger.rest h.running
    have hv' : v'.ledger.rest = rest' := congrArg Ledger.rest h'.running
    rw [hv, hv', hbalances]
  claimed m := by
    by_cases hm : m = env.contract
    · subst hm
      rw [Ledger.manager_at_eq.mpr h.manager, Ledger.manager_at_eq.mpr h'.manager]
      exact congrArg some hclaimed
    · have hsame : v.ledger.resident m = v'.ledger.resident m := by
        rw [← Ledger.set_resident_ne v.ledger .running hm,
          ← Ledger.set_resident_ne v'.ledger .running hm, h.running, h'.running]
        rfl
      simp only [Ledger.managerAt, hsame]

/-- The batch is paid: by a manager, from an open escrow, with what the releases leave. -/
structure BatchPays (w : World S) (env : Env) (registry : Address) (callId : Nat)
    (winning losing : Int) (s : OutcomeManager.Storage) (token feeCollector : Address)
    (payments : List Payment) (rest' : S) : Prop where
  manager : w.ledger.resident env.contract = .manager s
  admits : w.Admits env
  escrow : OpenEscrow env registry callId token (w.ledger.set env.contract .running)
  terms : BatchTerms env s callId winning losing feeCollector payments
  paid : payEach ((w.ledger.set env.contract .running).callee env registry) token w.ledger.rest
    (batchReleases feeCollector payments) = some rest'

namespace BatchPays

variable {token feeCollector : Address} {payments ordered : List Payment} {rest' : S}

omit [Network] in
theorem between (h : BatchPays w env registry callId winning losing s token feeCollector payments
    rest') : Between env (w.ledger.set env.contract .running) s s.payouts w.ledger.rest w where
  manager := h.manager
  admits := h.admits
  running := rfl

theorem next (h : BatchPays w env registry callId winning losing s token feeCollector payments
    rest') :
    (w.next (batchOf env registry callId winning losing (payments.map Payment.claim))).map (·.2) =
      some (leaves env (w.ledger.set env.contract .running) s
        (s.payouts.markAll callId payments) rest') := by
  have hreleases : releaseEach env registry callId (w.ledger.set env.contract .running)
      (batchReleases feeCollector payments) =
        some ((w.ledger.set env.contract .running).withRest rest') := by
    have heach := h.escrow.release_each w.ledger.rest (batchReleases feeCollector payments)
    rw [h.paid] at heach
    exact heach
  have hrun := (@batch_claim_payouts_iff _ _ env
    ⟨s, w.ledger.set env.contract .running, []⟩ _ () registry callId winning losing _
    (payments.map Payment.claim)).mpr ⟨payments, feeCollector, _, rfl, h.terms, hreleases, rfl⟩
  simp only [World.next, batchOf, h.manager, Option.map_map, Option.map_eq_some_iff, Prod.exists,
    Function.comp_apply, exists_eq_right, World.invoke_eq_some]
  exact ⟨_, h.admits, _, hrun, rfl, rfl⟩

omit [Network] in
/-- A contract that keeps the escrow had to hold all the releases. -/
theorem covered (h : BatchPays w env registry callId winning losing s token feeCollector payments
    rest') (hexact : ExactTransfers S) (hpay : ContractsPay S)
    (hothers : ∀ x ∈ payments, x.winner ≠ registry) :
    (∀ x ∈ payments, 0 ≤ x.amount) ∧
      ∃ held, Tokens.balance w.ledger.rest token registry = some held ∧
        amountOf (batchReleases feeCollector payments) ≤ held := by
  obtain ⟨rest₁, houts, hfee⟩ := pay_each_append.mp h.paid
  have hpayees : ∀ p ∈ payments.map Payment.out, p.1 ≠ registry := by
    intro p hp
    obtain ⟨x, hx, rfl⟩ := List.mem_map.mp hp
    rw [Payment.out, (h.terms.quoted x hx).1]
    exact hothers x hx
  obtain ⟨hnonneg, held, hheld, hle⟩ :=
    hpay.held_of_pay_each hexact houts (by simpa using h.terms.entries) hpayees
  refine ⟨fun x hx => hnonneg _ (List.mem_map_of_mem hx), held, hheld, ?_⟩
  rw [batchReleases, amount_of_append]
  have hleft : Tokens.balance rest₁ token registry =
      some (held - amountOf (payments.map Payment.out)) := by
    have hbalance := hexact.pay_each houts token registry
    have hdelta : paidDelta ((w.ledger.set env.contract .running).callee env registry).contract
        (payments.map Payment.out) registry = -amountOf (payments.map Payment.out) :=
      paid_delta_sender hpayees
    rw [if_pos rfl, hdelta] at hbalance
    rw [hbalance]
    refine (congrArg (Option.map _) hheld).trans ?_
    rw [Option.map_some, sub_eq_add_neg]
  unfold feeRelease at hfee ⊢
  split at hfee
  · next hpos =>
    obtain ⟨rest₂, htransfer, -⟩ := pay_each_cons.mp hfee
    obtain ⟨-, left, hleft', henough⟩ := (hpay _ _ _ _ _).mp ⟨rest₂, htransfer⟩
    obtain rfl := Option.some.inj (hleft.symm.trans hleft')
    rw [if_pos hpos, amount_of_cons, amount_of_nil]
    omega
  · next hneg =>
    rw [if_neg hneg, amount_of_nil]
    omega

omit [Network] in
/-- Other payments of a batch's escrow that come to the same for each recipient can be made, and
leave the same. -/
theorem pays_same (h : BatchPays w env registry callId winning losing s token feeCollector payments
    rest') (hexact : ExactTransfers S) (hpay : ContractsPay S)
    (hothers : ∀ x ∈ payments, x.winner ≠ registry) {paid : List (Address × Int)}
    (hnonneg : ∀ p ∈ paid, 0 ≤ p.2)
    (hamount : amountOf paid = amountOf (batchReleases feeCollector payments))
    (hdelta : ∀ sender who, paidDelta sender paid who =
      paidDelta sender (batchReleases feeCollector payments) who) :
    ∃ rest, payEach ((w.ledger.set env.contract .running).callee env registry) token w.ledger.rest
        paid = some rest ∧
      ∀ other who, Tokens.balance rest other who = Tokens.balance rest' other who := by
  obtain ⟨-, held, hheld, hle⟩ := h.covered hexact hpay hothers
  rw [← hamount] at hle
  obtain ⟨rest, hpaid⟩ := hpay.pay_each hexact hnonneg
    (show Tokens.balance w.ledger.rest token
      ((w.ledger.set env.contract .running).callee env registry).contract = some held from hheld)
    hle
  refine ⟨rest, hpaid, fun other who => ?_⟩
  rw [hexact.pay_each hpaid, hexact.pay_each h.paid, hdelta]

omit [Network] in
theorem perm (h : BatchPays w env registry callId winning losing s token feeCollector payments
    rest') (hexact : ExactTransfers S) (hpay : ContractsPay S)
    (hothers : ∀ x ∈ payments, x.winner ≠ registry) (hperm : ordered.Perm payments) :
    ∃ rest, BatchPays w env registry callId winning losing s token feeCollector ordered rest ∧
      ∀ other who, Tokens.balance rest other who = Tokens.balance rest' other who := by
  obtain ⟨hnonneg, -⟩ := h.covered hexact hpay hothers
  obtain ⟨hamount, hdelta⟩ := @batch_releases_perm feeCollector _ _ hperm
  obtain ⟨rest, hpaid, hsame⟩ := h.pays_same hexact hpay hothers
    (batch_releases_nonneg fun x hx => hnonneg x (hperm.subset hx)) hamount hdelta
  exact ⟨rest, ⟨h.manager, h.admits, h.escrow, h.terms.perm hperm, hpaid⟩, hsame⟩

/-- The claims of the batch one by one, in another order. -/
theorem one_by_one (h : BatchPays w env registry callId winning losing s token feeCollector
    payments rest') (hexact : ExactTransfers S) (hpay : ContractsPay S)
    (hothers : ∀ x ∈ payments, x.winner ≠ registry) (hperm : ordered.Perm payments) :
    ∃ w' p rest, w.payClaims env registry callId winning losing (ordered.map Payment.claim) =
        some w' ∧
      Between env (w.ledger.set env.contract .running) s p rest w' ∧
      p.claimed = (s.payouts.markAll callId ordered).claimed ∧
      ∀ other who, Tokens.balance rest other who = Tokens.balance rest' other who := by
  obtain ⟨hnonneg, -⟩ := h.covered hexact hpay hothers
  obtain ⟨hamount, hdelta⟩ := @claim_releases_eq_batch feeCollector _ _ h.terms.same_sign hperm
  obtain ⟨rest, hpaid, hsame⟩ := h.pays_same hexact hpay hothers
    (claim_releases_nonneg fun x hx => hnonneg x (hperm.subset hx)) hamount hdelta
  have hterms := h.terms.perm hperm
  obtain ⟨p, w', hclaims, hbetween, hmarked⟩ := h.between.pay_claims h.escrow hterms.decided
    hterms.collector hterms.unpaid.1 hterms.unpaid.2 hterms.quoted hpaid
  exact ⟨w', p, rest, hclaims, hbetween, hmarked, hsame⟩

end BatchPays

/-- A batch that succeeds against a registry or a market is paid. -/
theorem batch_pays {claims : List (Address × Int)}
    (hkeeps : (w.ledger.resident registry).keepsEscrow = true)
    (h : (w.next (batchOf env registry callId winning losing claims)).map (·.2) = some w') :
    ∃ s token feeCollector payments rest', payments.map Payment.claim = claims ∧
      BatchPays w env registry callId winning losing s token feeCollector payments rest' ∧
      w' = leaves env (w.ledger.set env.contract .running) s
        (s.payouts.markAll callId payments) rest' := by
  simp only [World.next, batchOf] at h
  split at h
  · next s hmanager =>
    simp only [Option.map_map, Option.map_eq_some_iff, Prod.exists, Function.comp_apply,
      exists_eq_right, World.invoke_eq_some] at h
    obtain ⟨effects, hadmits, f, hrun, -, rfl⟩ := h
    obtain ⟨payments, feeCollector, others, hclaims, hterms, hreleases, rfl⟩ :=
      batch_claim_payouts_iff.mp hrun
    have hne : registry ≠ env.contract := by
      rintro rfl
      rw [hmanager] at hkeeps
      cases hkeeps
    have hkeeps' : ((w.ledger.set env.contract .running).resident registry).keepsEscrow := by
      rwa [Ledger.set_resident_ne _ _ hne]
    obtain ⟨x, payments, rfl⟩ := List.exists_cons_of_ne_nil hterms.entries
    obtain ⟨_, hfirst, -⟩ := release_each_cons.mp hreleases
    obtain ⟨token, hopen⟩ := escrow_open hkeeps' hfirst
    have heach := hopen.release_each w.ledger.rest (batchReleases feeCollector (x :: payments))
    obtain ⟨rest', hpaid, rfl⟩ := Option.map_eq_some_iff.mp (heach.symm.trans hreleases)
    exact ⟨s, token, feeCollector, x :: payments, rest', hclaims,
      ⟨hmanager, hadmits, hopen, hterms, hpaid⟩, rfl⟩
  · cases h

omit [Strangers S] [Crypto] [Network] in
/-- Another order of some claims is that of the payments that they are. -/
theorem exists_perm_of_claims {payments : List Payment} {ordered : List (Address × Int)}
    (h : ordered.Perm (payments.map Payment.claim)) :
    ∃ reordered : List Payment, reordered.Perm payments ∧
      reordered.map Payment.claim = ordered := by
  have heach : List.Forall₂ (fun c x => c = x.claim) (payments.map Payment.claim) payments :=
    List.forall₂_map_left_iff.mpr (List.forall₂_same.mpr fun _ _ => rfl)
  obtain ⟨reordered, hmatch, hperm⟩ := List.perm_comp_forall₂ h heach
  refine ⟨reordered, hperm, ?_⟩
  have heq : List.Forall₂ (· = ·) ordered (reordered.map Payment.claim) :=
    List.forall₂_map_right_iff.mpr hmatch
  rw [List.forall₂_eq_eq_eq] at heq
  exact heq.symm

omit [Crypto] [Network] in
theorem mark_all_perm {payments ordered : List Payment} (hperm : ordered.Perm payments) :
    (p.markAll callId ordered).claimed = (p.markAll callId payments).claimed := by
  funext key
  rw [Bool.eq_iff_iff, Payouts.markAll_claimed, Payouts.markAll_claimed,
    (hperm.map (·.winner)).mem_iff]

/-- A batch that succeeds does so in every order, and so do its claims one by one, with the same
outcome. -/
theorem batch_succeeds_as_claims (hexact : ExactTransfers S) (hpay : ContractsPay S)
    (hkeeps : (w.ledger.resident registry).keepsEscrow = true)
    {claims ordered : List (Address × Int)}
    (hothers : registry ∉ claims.map Prod.fst) (hperm : ordered.Perm claims)
    (h : (w.next (batchOf env registry callId winning losing claims)).map (·.2) = some w') :
    (∃ w₁, (w.next (batchOf env registry callId winning losing ordered)).map (·.2) = some w₁ ∧
        SameOutcome w₁ w') ∧
      ∃ w₂, w.payClaims env registry callId winning losing ordered = some w₂ ∧
        SameOutcome w₂ w' := by
  obtain ⟨s, token, feeCollector, payments, rest', rfl, hpays, rfl⟩ := batch_pays hkeeps h
  obtain ⟨reordered, hreordered, rfl⟩ := exists_perm_of_claims hperm
  have hwinners : ∀ x ∈ payments, x.winner ≠ registry := by
    rintro x hx rfl
    exact hothers (List.mem_map.mpr ⟨_, List.mem_map_of_mem hx, rfl⟩)
  have hleft := between_leaves (s.payouts.markAll callId payments) rest' hpays.between
  constructor
  · obtain ⟨rest₁, hordered, hsame⟩ := hpays.perm hexact hpay hwinners hreordered
    exact ⟨_, hordered.next,
      (between_leaves _ _ hpays.between).same_outcome hleft (mark_all_perm hreordered) hsame⟩
  · obtain ⟨w₂, p, rest₂, hclaims, hbetween, hmarked, hsame⟩ :=
      hpays.one_by_one hexact hpay hwinners hreordered
    exact ⟨w₂, hclaims,
      hbetween.same_outcome hleft (hmarked.trans (mark_all_perm hreordered)) hsame⟩

end Batches

section Scenario

attribute [local instance] scenarioCrypto testNetwork noDeployer

/-- Two oracles have decided call 1, on which the registry holds 500. -/
def quorumRun : Replayed System.anything :=
  .of freshWorld fresh_world_initial
    (openingScript ++ [submits CallRegistry.home 1001 oracleA signatureA,
      submits CallRegistry.home 1002 oracleB signatureB]) (by decide +kernel)

/-- The administrator's invocations. -/
def byAdmin : Env := ⟨OutcomeManager.home, 3000, 3000, [OutcomeManager.adminAddress]⟩

end Scenario

end Backit.Platform
