import Backit.PredictionMarket.Specifications

/-!
# Rollovers and their lineage

## What a rollover does

A rollover pays a winner out of the market, has the manager record the claim, and stakes a part of
the payout on a market that the factory deploys. `RolledOver` lists its checks and its calls to
other contracts in the order they happen.
-/

namespace Backit.PredictionMarket

open Soroban Contract Lib

section Calls

variable {T α β : Type} {env : Env} {f f' : Frame Storage T Event} {b : β}

@[simp] theorem run_queryPeer_bind (query : Env → T → Option α) (k : α → Market T β) :
    run (queryPeer query >>= k) env f = .ok (b, f') ↔
      ∃ a, query env f.tokens = some a ∧ run (k a) env f = .ok (b, f') := by
  cases h : query env f.tokens <;> simp [run, bind, queryPeer, h]

@[simp] theorem run_callPeerFor_bind (call : Env → T → Option (α × T)) (k : α → Market T β) :
    run (callPeerFor call >>= k) env f = .ok (b, f') ↔
      ∃ a tokens, call env f.tokens = some (a, tokens) ∧
        run (k a) env { f with tokens := tokens } = .ok (b, f') := by
  cases h : call env f.tokens <;> simp [run, bind, callPeerFor, h, Prod.ext_iff]

@[simp] theorem run_callPeer_bind (call : Env → T → Option T) (k : Unit → Market T β) :
    run (callPeer call >>= k) env f = .ok (b, f') ↔
      ∃ tokens, call env f.tokens = some tokens ∧
        run (k ()) env { f with tokens := tokens } = .ok (b, f') := by
  cases h : call env f.tokens <;> simp [run, bind, callPeer, h]

theorem run_callPeer_if {c : Prop} [Decidable c] {call : Env → T → Option T} {k : Unit → Market T β}
    (h : run (if c then callPeer call >>= k else k ()) env f = .ok (b, f')) :
    ∃ tokens, (if c then call env f.tokens = some tokens else tokens = f.tokens) ∧
      run (k ()) env { f with tokens := tokens } = .ok (b, f') := by
  split at h
  · next hc =>
    rw [run_callPeer_bind] at h
    obtain ⟨tokens, hcall, h⟩ := h
    exact ⟨tokens, by rwa [if_pos hc], h⟩
  · next hc => exact ⟨f.tokens, by rw [if_neg hc], h⟩

theorem run_tokenTransfer_if [Tokens T] {c : Prop} [Decidable c] {token sender recipient : Address}
    {amount : Int} {k : Unit → Market T β}
    (h : run (if c then tokenTransfer token sender recipient amount >>= k else k ()) env f =
      .ok (b, f')) :
    ∃ tokens, (if c then Tokens.transfer env token sender recipient amount f.tokens = some tokens
        else tokens = f.tokens) ∧
      run (k ()) env ⟨f.store, tokens,
        (if c then [.transfer token sender recipient amount] else []) ++ f.effects⟩ =
          .ok (b, f') := by
  split at h
  · next hc =>
    rw [run_tokenTransfer_bind] at h
    obtain ⟨tokens, htransfer, h⟩ := h
    exact ⟨tokens, by rwa [if_pos hc], by rwa [if_pos hc]⟩
  · next hc => exact ⟨f.tokens, by rw [if_neg hc], by rwa [if_neg hc]⟩

end Calls

/-- The amounts of a rollover: the winner's stake, the pools, the payout and its split. -/
structure RolloverTerms where
  winningStake : Int
  totalWinning : Int
  totalLosing : Int
  payout : Int
  split : RolloverSplit

/-- The terms are what the market computes from its own records and the manager's fee. -/
structure Computed (call : Call) (user : Address) (feeBps percentageBps : Nat)
    (terms : RolloverTerms) : Prop where
  winningStake : terms.winningStake = valueAt (call.stakesOn call.outcome) user
  positive : 0 < terms.winningStake
  totalWinning : terms.totalWinning = valueAt call.outcomeStakes call.outcome
  total : ∃ totalStake, totalCallStake call = some totalStake ∧
    checkedSub totalStake terms.totalWinning = some terms.totalLosing ∧
    rolloverPayout terms.winningStake terms.totalWinning totalStake feeBps = .ok terms.payout
  split : rolloverSplit terms.payout percentageBps = .ok terms.split

theorem stake_le_rollover_payout {winningStake totalWinning totalStake payout : Int}
    {feeBps : Nat} (hstake : 0 ≤ winningStake)
    (h : rolloverPayout winningStake totalWinning totalStake feeBps = .ok payout) :
    winningStake ≤ payout := by
  simp only [rolloverPayout, except_bind_ok, or_overflow_ok, checkedMul, checkedDiv, checkedAdd,
    checked_eq_some] at h
  obtain ⟨losing, -, _, -, fee, -, net, -, h⟩ := h
  split at h
  · next hpos =>
    rw [except_bind_ok] at h
    obtain ⟨product, hproduct, h⟩ := h
    rw [except_bind_ok] at h
    obtain ⟨prize, hprize, h⟩ := h
    rw [or_overflow_ok, checked_eq_some] at hproduct
    rw [or_overflow_ok, if_neg hpos.2.ne', checked_eq_some] at hprize
    rw [or_overflow_ok, checked_eq_some] at h
    have hshare : 0 ≤ (winningStake * net).tdiv totalWinning :=
      Int.tdiv_nonneg (mul_nonneg hstake hpos.1.le) hpos.2.le
    rw [h.2, hprize.2, hproduct.2]
    omega
  · cases h
    exact le_refl _

variable {P : Type} [Peers P]

/-- The state of the other contracts between the calls of a rollover. -/
structure RolloverStages (P : Type) where
  deployed : P
  paid : P
  claimed : P
  staked : P
  topped : P
  chained : P
  linked : P

/-- The calls of a rollover to other contracts. -/
structure RolloverCalls (env : Env) (config : MarketConfig) (call : Call) (user : Address)
    (rollover : RolloverConfig) (terms : RolloverTerms) (newEndTs : Nat) (newMarket : Address)
    (newCallId : Nat) (p : P) (stages : RolloverStages P) : Prop where
  deploy : Peers.deployMarket env config.factory user
    ⟨call.stakeToken, terms.split.newStake, call.endPrice, newEndTs, call.tokenAddress,
      call.pairId, call.metadataHash, rollover.newCondition, call.outcomeCount⟩ p =
        some (newMarket, stages.deployed)
  named : Peers.getCallId env newMarket stages.deployed = some newCallId
  pay : Tokens.transfer env call.stakeToken env.contract user terms.payout stages.deployed =
    some stages.paid
  claim : Peers.claimPayoutNoRelease env config.outcomeManager config.callId user
    terms.winningStake terms.totalWinning terms.totalLosing stages.paid = some stages.claimed
  stake : if 0 < terms.split.rolled then
      Peers.stakeOnCall env newMarket user newCallId terms.split.rolled 1 stages.claimed =
        some stages.staked
    else stages.staked = stages.claimed
  bonus : if 0 < terms.split.bonus then
      Tokens.transfer env call.stakeToken env.contract newMarket terms.split.bonus
        stages.staked = some stages.topped
    else stages.topped = stages.staked
  chain : Peers.storeRolloverChain env newMarket newCallId
    [⟨config.callId, call.condition, terms.split.rolled, env.timestamp⟩] stages.topped =
      some stages.chained
  link : Peers.setParentCall env newMarket newCallId config.callId terms.split.rolled
    stages.chained = some stages.linked

/-- The effects of a rollover, most recent first. -/
def rolloverEffects (env : Env) (config : MarketConfig) (call : Call) (user : Address)
    (terms : RolloverTerms) (newMarket : Address) (newCallId : Nat) : List (Effect Event) :=
  .event (.payoutRolledOver config.callId newCallId user terms.split.rolled terms.split.paidOut) ::
    ((if 0 < terms.split.bonus then
      [.transfer call.stakeToken env.contract newMarket terms.split.bonus] else []) ++
        [.transfer call.stakeToken env.contract user terms.payout])

/-- A rollover of a user's payout from a frame to another. -/
structure RolledOver (env : Env) (user : Address) (rollover : RolloverConfig)
    (f f' : Frame Storage P Event) (config : MarketConfig) (call : Call) (terms : RolloverTerms)
    (newMarket : Address) (newCallId : Nat) (stages : RolloverStages P) : Prop where
  authorised : user ∈ env.auths
  configured : f.store.config = some config
  stored : f.store.pool.call = some call
  settled : call.settled = true ∧ call.outcome ≠ 0
  valid : call.voided = false ∧ call.cancelled = false
  unclaimed : f.store.userClaimed (config.callId, user) = false
  computed : ∃ feeBps feeCollector,
    Peers.feeConfig env config.outcomeManager f.tokens = some (feeBps, feeCollector) ∧
      Computed call user feeBps rollover.rolloverPercentageBps terms
  calls : ∃ newEndTs,
    RolloverCalls env config call user rollover terms newEndTs newMarket newCallId f.tokens stages
  result : f' =
    { store := f.store.setUserClaimed config.callId user
      tokens := stages.linked
      effects := rolloverEffects env config call user terms newMarket newCallId ++ f.effects }

theorem claim_and_rollover_rolls {env : Env} {f f' : Frame Storage P Event} {user : Address}
    {callId newCallId : Nat} {rollover : RolloverConfig}
    (h : run (claimAndRollover user callId rollover) env f = .ok (newCallId, f')) :
    ∃ config call terms newMarket stages, config.callId = callId ∧
      RolledOver env user rollover f f' config call terms newMarket newCallId stages := by
  simp only [claimAndRollover, run_steps, run_requireConfig_bind, run_requireCallId_bind,
    run_requireCall_bind, run_raise_bind, or_overflow_ok, run_queryPeer_bind, run_callPeerFor_bind,
    transfer_token_eq, run_callPeer_bind, not_or, not_le, Bool.not_eq_false, Bool.not_eq_true] at h
  obtain ⟨hauth, config, hconfig, rfl, call, hcall, hsettled, hvalid, hstake, -, hunclaimed,
    totalStake, htotal, totalLosing, hlosing, ⟨feeBps, feeCollector⟩, hfee, payout, hpayout, split,
    hsplit, -, newEndTs, -, newMarket, deployed, hdeploy, foundId, hnamed, paid, hpay, claimed,
    hclaim, h⟩ := h
  obtain ⟨staked, hstaked, h⟩ := run_callPeer_if h
  obtain ⟨topped, htopped, h⟩ := run_tokenTransfer_if h
  simp only [run_callPeer_bind, run_steps] at h
  obtain ⟨chained, hchained, linked, hlinked, rfl, rfl⟩ := h
  refine ⟨config, call, ⟨valueAt (call.stakesOn call.outcome) user,
    valueAt call.outcomeStakes call.outcome, totalLosing, payout, split⟩, newMarket,
    ⟨deployed, paid, claimed, staked, topped, chained, linked⟩, rfl, hauth, hconfig, hcall,
    hsettled, hvalid, hunclaimed, ⟨feeBps, feeCollector, hfee, rfl, hstake, rfl,
      ⟨totalStake, htotal, hlosing, hpayout⟩, hsplit⟩,
    ⟨newEndTs, hdeploy, hnamed, hpay, hclaim, hstaked, htopped, hchained, hlinked⟩, ?_⟩
  simp [rolloverEffects, Frame.record]

end Backit.PredictionMarket

/-!
## The lineage of a market

A market created by a rollover keeps a chain of links and the id of its parent. Two entry points
write them, each once, and neither asks who calls. All others leave them as they are.
-/

namespace Backit.PredictionMarket

open Soroban Contract Lib

section Views

variable {T : Type}

def getRolloverChain (callId : Nat) : Market T (List RolloverLink) := do
  let config ← requireConfig
  requireCallId config callId
  let s ← getStore
  pure (s.rolloverChain callId)

def getParentCall (callId : Nat) : Market T (Option (Nat × Int)) := do
  let config ← requireConfig
  requireCallId config callId
  let call ← requireCall
  pure (call.parentCallId.map fun parent => (parent, call.rolledAmount))

end Views

/-- The operation can write the lineage of a market. -/
def MarketOp.writesLineage : MarketOp → Bool
  | .setParentCall .. => true
  | .storeRolloverChain _ chain => !chain.isEmpty
  | _ => false

/-- A call names the last link of a lineage as its parent. -/
structure Call.LinkedTo (call : Call) (link : Option RolloverLink) : Prop where
  parent : call.parentCallId = link.map RolloverLink.callId
  amount : call.rolledAmount = (link.map RolloverLink.rolledAmount).getD 0

/-- The records of a market that has this lineage: of all the links they hold the last one. -/
structure Storage.Descends (s : Storage) (lineage : List RolloverLink) : Prop where
  unconfigured : s.config = none →
    s.pool.call = none ∧ (∀ id, s.rolloverChain id = []) ∧ lineage = []
  opened : s.pool.call = none → s.config = none
  chain : ∀ config, s.config = some config →
    s.rolloverChain config.callId = lineage.getLast?.toList
  linked : ∀ call, s.pool.call = some call → call.LinkedTo lineage.getLast?

theorem Storage.empty_descends : Storage.empty.Descends [] where
  unconfigured _ := ⟨rfl, fun _ => rfl, rfl⟩
  opened _ := rfl
  chain _ h := by cases h
  linked _ h := by cases h

namespace Storage.Descends

variable {s s' : Storage} {lineage : List RolloverLink} {env : Env} {op : MarketOp}
  {effects : List (Effect Event)}

/-- Steps that keep the configuration, the chain and the call's link keep the lineage. -/
theorem of_same {call call' : Call} (h : s.Descends lineage) (hconfig : s'.config = s.config)
    (hchain : s'.rolloverChain = s.rolloverChain) (hcall : s.pool.call = some call)
    (hcall' : s'.pool.call = some call') (hparent : call'.parentCallId = call.parentCallId)
    (hamount : call'.rolledAmount = call.rolledAmount) : s'.Descends lineage := by
  have hlink := h.linked call hcall
  refine ⟨fun hnone => ?_, fun hnone => ?_, ?_, fun c hc => ?_⟩
  · have hmissing := (h.unconfigured (hconfig ▸ hnone)).1
    rw [hcall] at hmissing
    cases hmissing
  · rw [hcall'] at hnone
    cases hnone
  · rw [hconfig, hchain]
    exact h.chain
  · obtain rfl := Option.some.inj (hcall'.symm.trans hc)
    exact ⟨hparent.trans hlink.parent, hamount.trans hlink.amount⟩

theorem fills_link {now callId : Nat} {m m' : Matching} (h : Fills now callId m effects m') :
    m'.call.parentCallId = m.call.parentCallId ∧ m'.call.rolledAmount = m.call.rolledAmount := by
  induction h with
  | done => exact ⟨rfl, rfl⟩
  | dropped _ _ ih => exact ih
  | filled _ _ _ hstaked ih =>
    rw [hstaked.entered]
    exact ih

theorem step (h : s.Descends lineage) (hstep : Transition env op s effects s')
    (hop : op.writesLineage = false) : s'.Descends lineage := by
  cases hstep with
  | constructed hnone =>
    obtain ⟨-, hchain, rfl⟩ := h.unconfigured hnone
    refine ⟨fun hconfig => ?_, fun hcall => ?_, fun config hconfig => ?_, fun call hcall => ?_⟩
    · cases hconfig
    · cases hcall
    · cases hconfig
      exact hchain _
    · cases hcall
      exact ⟨rfl, rfl⟩
  | staked _ _ _ _ hcall _ hstaked hfills =>
    obtain ⟨hparent, hamount⟩ := fills_link hfills
    rw [hstaked.entered] at hparent hamount
    exact h.of_same rfl rfl hcall rfl hparent hamount
  | ordered _ _ _ _ hcall => exact h.of_same rfl rfl hcall hcall rfl rfl
  | orderCancelled _ _ hcall => exact h.of_same rfl rfl hcall hcall rfl rfl
  | orderRefunded _ _ _ _ hcall => exact h.of_same rfl rfl hcall hcall rfl rfl
  | resolved _ _ _ hcall => exact h.of_same rfl rfl hcall rfl rfl rfl
  | settled _ _ _ hcall => exact h.of_same rfl rfl hcall rfl rfl rfl
  | released _ _ _ _ => exact h
  | parentSet => cases hop
  | @chainStored _ config callId chain _ _ hempty =>
    obtain rfl : chain = [] := by simpa [MarketOp.writesLineage] using hop
    rw [Storage.setRolloverChain, ← hempty, Function.update_eq_self]
    exact h

/-- Storing a link and naming the parent, on a market that has no lineage yet, gives it any lineage
that ends with the link. -/
theorem of_rollover {linked : Storage} {env' : Env} {effects' : List (Effect Event)}
    {callId callId' : Nat} {link : RolloverLink}
    (hchain : Transition env (.storeRolloverChain callId [link]) s effects s')
    (hlink : Transition env' (.setParentCall callId' link.callId link.rolledAmount) s' effects'
      linked) (before : List RolloverLink) : linked.Descends (before ++ [link]) := by
  cases hchain with
  | @chainStored _ config _ _ hconfig hid hempty =>
    cases hlink with
    | @parentSet _ _ call _ _ _ _ _ hcall hfree =>
      refine ⟨fun hnone => ?_, fun hnone => ?_, fun c hc => ?_, fun c hc => ?_⟩
      · rw [show s.config = none from hnone] at hconfig
        cases hconfig
      · cases hnone
      · obtain rfl := Option.some.inj (hconfig.symm.trans hc)
        show Function.update s.rolloverChain callId [link] config.callId = _
        rw [hid, Function.update_self, List.getLast?_concat]
        rfl
      · cases hc
        rw [List.getLast?_concat]
        exact ⟨rfl, rfl⟩

section Answers

variable {T : Type} {f : Frame Storage T Event} {config : MarketConfig}

/-- The chain that a market shows is the last link of its lineage. -/
theorem run_getRolloverChain (h : f.store.Descends lineage)
    (hconfig : f.store.config = some config) :
    run (getRolloverChain config.callId) env f = .ok (lineage.getLast?.toList, f) := by
  simp only [getRolloverChain, run_requireConfig_bind, run_requireCallId_bind, run_getStore_bind]
  exact ⟨config, hconfig, rfl, by rw [h.chain config hconfig]; rfl⟩

/-- The parent that a market shows is that of the last link of its lineage. -/
theorem run_getParentCall (h : f.store.Descends lineage) (hconfig : f.store.config = some config) :
    run (getParentCall config.callId) env f =
      .ok (lineage.getLast?.map fun link => (link.callId, link.rolledAmount), f) := by
  obtain ⟨call, hcall⟩ : ∃ call, f.store.pool.call = some call := by
    refine Option.ne_none_iff_exists'.mp fun hnone => ?_
    rw [h.opened hnone] at hconfig
    cases hconfig
  obtain ⟨hparent, hamount⟩ := h.linked call hcall
  simp only [getParentCall, run_requireConfig_bind, run_requireCallId_bind, run_requireCall_bind]
  refine ⟨config, hconfig, rfl, call, hcall, ?_⟩
  rw [hparent, hamount]
  cases lineage.getLast? <;> rfl

end Answers

/-- The last link of a lineage is the whole lineage when there is at most one. -/
theorem last_eq_iff : lineage.getLast?.toList = lineage ↔ lineage.length ≤ 1 := by
  match lineage with
  | [] => simp
  | [_] => simp
  | first :: second :: rest =>
    constructor
    · intro h
      have hlength := congrArg List.length h
      have hshort : ∀ o : Option RolloverLink, o.toList.length ≤ 1 := by rintro (_ | _) <;> simp
      have := hshort (first :: second :: rest).getLast?
      simp only [List.length_cons] at hlength this ⊢
      omega
    · intro h
      simp only [List.length_cons] at h
      omega

end Storage.Descends

end Backit.PredictionMarket
