import Backit.PredictionMarketFutures.Positions

/-!
# Margin solvency

The contract holds, of every token, at least the margins locked for the unsettled positions on the
calls that are staked in it. The token of a position is read from its market each time, so this
needs that a market does not change what its call is staked in.
-/

namespace Backit.PredictionMarketFutures

open Soroban Contract Lib PredictionMarketFactory
open PredictionMarket (Call)

/-- The margins locked for a position: one, or two once it is accepted. -/
def FuturesPosition.locked (position : FuturesPosition) : Int :=
  if position.isSettled then 0
  else if position.counterparty.isSome then 2 * position.marginRequirement
  else position.marginRequirement

section Obligations

variable {P : Type} [MarketViews P]

/-- The call that the configured factory and its market report. -/
def Storage.callOf (s : Storage) (p : P) (callId : Nat) : Option Call :=
  s.factory.bind fun factory => marketCall p factory callId

/-- The token that the margins of positions on a call are in. -/
def Storage.marginToken (s : Storage) (p : P) (callId : Nat) : Option Address :=
  (s.callOf p callId).map Call.stakeToken

/-- The margins in a token that are locked for the position with an id. -/
def Storage.lockedIn (s : Storage) (p : P) (token : Address) (contractId : Nat) : Int :=
  match s.futuresPosition contractId with
  | some position => if s.marginToken p position.callId = some token then position.locked else 0
  | none => 0

/-- The margins in a token that are locked for all positions. -/
def Storage.obligation (s : Storage) (p : P) (token : Address) : Int :=
  ((List.range' 1 s.contractCounter).map (s.lockedIn p token)).sum

/-- The positions are numbered and priced, and the lists of active positions are exact. -/
structure Registered (s : Storage) (p : P) : Prop where
  numbered : ∀ id position, s.futuresPosition id = some position → 1 ≤ id ∧ id ≤ s.contractCounter
  margins : ∀ id position, s.futuresPosition id = some position → 0 < position.marginRequirement
  priced : ∀ id position, s.futuresPosition id = some position →
    ∃ factory call, s.factory = some factory ∧ marketCall p factory position.callId = some call
  active_nodup : ∀ callId, (s.activeFutures callId).Nodup
  mem_active : ∀ callId id, id ∈ s.activeFutures callId ↔
    ∃ position, s.futuresPosition id = some position ∧ position.callId = callId ∧
      position.isSettled = false

/-- The contract at an address holds the margins locked for its positions. -/
def Backed (address : Address) (s : Storage) (p : P) : Prop :=
  ∀ token held, Tokens.balance p token address = some held → s.obligation p token ≤ held

variable {s s' : Storage} {p p' : P} {token : Address} {id : Nat}
  {position position' : FuturesPosition}

theorem lockedIn_some (h : s.futuresPosition id = some position) : s.lockedIn p token id =
    if s.marginToken p position.callId = some token then position.locked else 0 := by
  rw [Storage.lockedIn, h]

theorem marginToken_of {factory : Address} {callId : Nat} {call : Call}
    (hfactory : s.factory = some factory) (hcall : marketCall p factory callId = some call) :
    s.marginToken p callId = some call.stakeToken := by
  rw [Storage.marginToken, Storage.callOf, hfactory, Option.bind_some, hcall, Option.map_some]

theorem marginToken_congr (hfactory : s'.factory = s.factory) (callId : Nat) :
    s'.marginToken p callId = s.marginToken p callId := by
  unfold Storage.marginToken Storage.callOf
  rw [hfactory]

theorem registered_empty : Registered Storage.empty p := by
  constructor <;> simp [Storage.empty]

/-- Positions on calls that keep their terms stay priced. -/
theorem Registered.keeps (h : Registered s p) (hkeeps : KeepsTerms p p') : Registered s p' where
  numbered := h.numbered
  margins := h.margins
  priced id position hposition := by
    obtain ⟨factory, call, hfactory, hcall⟩ := h.priced id position hposition
    obtain ⟨call', hcall', -⟩ := hkeeps factory _ call hcall
    exact ⟨factory, call', hfactory, hcall'⟩
  active_nodup := h.active_nodup
  mem_active := h.mem_active

/-- Positions on calls that keep their terms keep their margins. -/
theorem Registered.obligation_keeps (h : Registered s p) (hkeeps : KeepsTerms p p') :
    s.obligation p' token = s.obligation p token := by
  refine sum_map_congr fun id _ => ?_
  cases hposition : s.futuresPosition id with
  | none => rw [Storage.lockedIn, Storage.lockedIn, hposition]
  | some position =>
    obtain ⟨factory, call, hfactory, hcall⟩ := h.priced id position hposition
    obtain ⟨call', hcall', htoken⟩ := hkeeps factory _ call hcall
    rw [lockedIn_some hposition, lockedIn_some hposition, marginToken_of hfactory hcall,
      marginToken_of hfactory hcall', htoken]

/-- Rewriting a position changes the obligation by what it changes of the position's margins. -/
theorem Registered.obligation_rewritten (h : Registered s p) (s' : Storage)
    (position' : FuturesPosition) (hposition : s.futuresPosition id = some position)
    (hcall : position'.callId = position.callId) (hfactory : s'.factory = s.factory)
    (hcounter : s'.contractCounter = s.contractCounter)
    (hpositions : s'.futuresPosition = Function.update s.futuresPosition id (some position')) :
    s'.obligation p token = s.obligation p token +
      if s.marginToken p position.callId = some token then position'.locked - position.locked
      else 0 := by
  have hsame : ∀ other, other ≠ id → s'.lockedIn p token other = s.lockedIn p token other := by
    intro other hne
    unfold Storage.lockedIn
    rw [hpositions, Function.update_of_ne hne]
    simp only [marginToken_congr hfactory]
  have hold : s.lockedIn p token id =
      if s.marginToken p position.callId = some token then position.locked else 0 :=
    lockedIn_some hposition
  have hnew : s'.lockedIn p token id =
      if s.marginToken p position.callId = some token then position'.locked else 0 := by
    rw [lockedIn_some (by rw [hpositions, Function.update_self]), hcall, marginToken_congr hfactory]
  have hmem : id ∈ List.range' 1 s.contractCounter := by
    have := h.numbered id position hposition
    rw [List.mem_range'_1]
    omega
  rw [Storage.obligation, Storage.obligation, hcounter,
    sum_map_change List.nodup_range' hmem (f := s.lockedIn p token) fun other _ hne =>
      hsame other hne, hold, hnew]
  split <;> omega

theorem Registered.obligation_set (h : Registered s p)
    (hposition : s.futuresPosition id = some position) :
    position'.callId = position.callId → (s.setFuturesPosition id position').obligation p token =
      s.obligation p token + if s.marginToken p position.callId = some token then
        position'.locked - position.locked else 0 :=
  fun hcall => h.obligation_rewritten _ _ hposition hcall rfl rfl rfl

theorem Registered.obligation_closed (h : Registered s p)
    (hposition : s.futuresPosition id = some position) :
    (s.closed id position).obligation p token = s.obligation p token +
      if s.marginToken p position.callId = some token then -position.locked else 0 := by
  have hsettled : FuturesPosition.locked
      { position with isSettled := true, status := .settled } = 0 := rfl
  rw [h.obligation_rewritten (s.closed id position)
    { position with isSettled := true, status := .settled } hposition rfl rfl rfl rfl, hsettled,
    zero_sub]

/-- Opening a position adds its margin to the obligation. -/
theorem obligation_opened (hid : position.contractId = s.contractCounter + 1) :
    (s.opened position).obligation p token = s.obligation p token +
      if s.marginToken p position.callId = some token then position.locked else 0 := by
  have hfresh : ∀ other ∈ List.range' 1 s.contractCounter,
      (s.opened position).lockedIn p token other = s.lockedIn p token other := by
    intro other hother
    rw [List.mem_range'_1] at hother
    have hne : other ≠ position.contractId := by omega
    have hposition : (s.opened position).futuresPosition other = s.futuresPosition other :=
      Function.update_of_ne hne ..
    rw [Storage.lockedIn, Storage.lockedIn, hposition]
    rfl
  have hnew : (s.opened position).lockedIn p token (s.contractCounter + 1) =
      if s.marginToken p position.callId = some token then position.locked else 0 := by
    have hstored : (s.opened position).futuresPosition position.contractId = some position := by
      simp [Storage.opened, Storage.setFuturesPosition, Storage.setActiveFutures]
    rw [← hid, lockedIn_some hstored]
    rfl
  have hcounter : (s.opened position).contractCounter = s.contractCounter + 1 := hid
  rw [Storage.obligation, hcounter, List.range'_concat, List.map_append, List.sum_append,
    sum_map_congr hfresh, ← Storage.obligation, List.map_singleton, List.sum_singleton,
    Nat.one_mul, Nat.add_comm 1, hnew]

/-- A position after a write is the written one or stands as it was. -/
theorem position_cases {stored : FuturesPosition} {other : Nat}
    (hpositions : s'.futuresPosition = Function.update s.futuresPosition id (some position'))
    (hstored : s'.futuresPosition other = some stored) :
    (other = id ∧ stored = position') ∨ (other ≠ id ∧ s.futuresPosition other = some stored) := by
  rw [hpositions] at hstored
  by_cases hother : other = id
  · subst hother
    rw [Function.update_self] at hstored
    exact .inl ⟨rfl, (Option.some.inj hstored).symm⟩
  · rw [Function.update_of_ne hother] at hstored
    exact .inr ⟨hother, hstored⟩

theorem Registered.rewritten (h : Registered s p) (hposition : s.futuresPosition id = some position)
    (hsettled : position'.isSettled = position.isSettled)
    (hcall : position'.callId = position.callId)
    (hmargin : position'.marginRequirement = position.marginRequirement) :
    Registered (s.setFuturesPosition id position') p := by
  refine ⟨fun other stored hstored => ?_, fun other stored hstored => ?_,
    fun other stored hstored => ?_, h.active_nodup, fun callId other => ?_⟩
  · obtain ⟨rfl, -⟩ | ⟨-, hold⟩ := position_cases rfl hstored
    · exact h.numbered _ _ hposition
    · exact h.numbered _ _ hold
  · obtain ⟨-, rfl⟩ | ⟨-, hold⟩ := position_cases rfl hstored
    · rw [hmargin]
      exact h.margins _ _ hposition
    · exact h.margins _ _ hold
  · obtain ⟨-, rfl⟩ | ⟨-, hold⟩ := position_cases rfl hstored
    · rw [hcall]
      exact h.priced _ _ hposition
    · exact h.priced _ _ hold
  · show other ∈ s.activeFutures callId ↔ _
    rw [h.mem_active]
    by_cases hother : other = id
    · subst hother
      simp [Storage.setFuturesPosition, hposition, hsettled, hcall]
    · simp [Storage.setFuturesPosition, Function.update_of_ne hother]

/-- Settling a position takes it off the list of its call. -/
theorem Registered.closed (h : Registered s p) (hposition : s.futuresPosition id = some position) :
    Registered (s.closed id position) p := by
  refine ⟨fun other stored hstored => ?_, fun other stored hstored => ?_,
    fun other stored hstored => ?_, fun callId => ?_, fun callId other => ?_⟩
  · obtain ⟨rfl, -⟩ | ⟨-, hold⟩ := position_cases (s := s) rfl hstored
    · exact h.numbered _ _ hposition
    · exact h.numbered _ _ hold
  · obtain ⟨-, rfl⟩ | ⟨-, hold⟩ := position_cases (s := s) rfl hstored
    · exact h.margins _ position hposition
    · exact h.margins _ _ hold
  · obtain ⟨-, rfl⟩ | ⟨-, hold⟩ := position_cases (s := s) rfl hstored
    · exact h.priced _ position hposition
    · exact h.priced _ _ hold
  · by_cases hcall : callId = position.callId
    · subst hcall
      simpa [Storage.closed, Storage.setActiveFutures] using (h.active_nodup _).filter _
    · simpa [Storage.closed, Storage.setActiveFutures, Storage.setFuturesPosition,
        Function.update_of_ne hcall] using h.active_nodup callId
  · have hother := h.mem_active callId other
    by_cases hid : other = id
    · subst hid
      by_cases hcall : callId = position.callId
      · subst hcall
        simp [Storage.closed, Storage.setActiveFutures, Storage.setFuturesPosition]
      · have hoff : other ∉ s.activeFutures callId := fun hmem => by
          obtain ⟨stored, hstored, hid, -⟩ := hother.mp hmem
          obtain rfl : position = stored := Option.some.inj (hposition.symm.trans hstored)
          exact hcall hid.symm
        simp [Storage.closed, Storage.setActiveFutures, Storage.setFuturesPosition,
          Function.update_of_ne hcall, hoff]
    · by_cases hcall : callId = position.callId
      · subst hcall
        simpa [Storage.closed, Storage.setActiveFutures, Storage.setFuturesPosition, hid] using
          hother
      · simpa [Storage.closed, Storage.setActiveFutures, Storage.setFuturesPosition,
          Function.update_of_ne hcall, hid] using hother

/-- Opening a position puts it on the list of its call. -/
theorem Registered.opened (h : Registered s p)
    (hid : position.contractId = s.contractCounter + 1) (hmargin : 0 < position.marginRequirement)
    (hunsettled : position.isSettled = false) (hpriced : ∃ factory call, s.factory = some factory ∧
      marketCall p factory position.callId = some call) : Registered (s.opened position) p := by
  have hfresh : s.futuresPosition position.contractId = none := by
    cases hstored : s.futuresPosition position.contractId with
    | none => rfl
    | some stored =>
      have := h.numbered _ _ hstored
      omega
  have hunlisted : ∀ callId, position.contractId ∉ s.activeFutures callId := fun callId hmem => by
    obtain ⟨stored, hstored, -⟩ := (h.mem_active callId _).mp hmem
    simp [hfresh] at hstored
  have hcounter : (s.opened position).contractCounter = s.contractCounter + 1 := hid
  refine ⟨fun other stored hstored => ?_, fun other stored hstored => ?_,
    fun other stored hstored => ?_, fun callId => ?_, fun callId other => ?_⟩
  · rw [hcounter]
    obtain ⟨rfl, -⟩ | ⟨-, hold⟩ := position_cases (s := s) rfl hstored
    · omega
    · have := h.numbered _ _ hold
      omega
  · obtain ⟨-, rfl⟩ | ⟨-, hold⟩ := position_cases (s := s) rfl hstored
    · exact hmargin
    · exact h.margins _ _ hold
  · obtain ⟨-, rfl⟩ | ⟨-, hold⟩ := position_cases (s := s) rfl hstored
    · exact hpriced
    · exact h.priced _ _ hold
  · by_cases hcall : callId = position.callId
    · subst hcall
      have hnodup := (h.active_nodup position.callId).append
        (List.nodup_singleton position.contractId) (by simpa using hunlisted _)
      simpa [Storage.opened, Storage.setActiveFutures] using hnodup
    · simpa [Storage.opened, Storage.setActiveFutures, Storage.setFuturesPosition,
        Storage.setContractCounter, Function.update_of_ne hcall] using h.active_nodup callId
  · have hother := h.mem_active callId other
    by_cases hnew : other = position.contractId
    · subst hnew
      have hoff := hunlisted callId
      by_cases hcall : callId = position.callId
      · subst hcall
        simp [Storage.opened, Storage.setActiveFutures, Storage.setFuturesPosition, hunsettled]
      · simp [Storage.opened, Storage.setActiveFutures, Storage.setFuturesPosition,
          Storage.setContractCounter, Function.update_of_ne hcall, hoff, Ne.symm hcall]
    · by_cases hcall : callId = position.callId
      · subst hcall
        simpa [Storage.opened, Storage.setActiveFutures, Storage.setFuturesPosition,
          Storage.setContractCounter, hnew] using hother
      · simpa [Storage.opened, Storage.setActiveFutures, Storage.setFuturesPosition,
          Storage.setContractCounter, Function.update_of_ne hcall, hnew] using hother

end Obligations

/-- The contract at address `self`, from its deployment on. It owes nobody anything at first. -/
def futures {P : Type} [MarketViews P] (self : Address) (outside : P → P → Prop) :
    System (Deployment Storage P) (Happening FuturesOp Event) :=
  contractSystem FuturesOp.perform self outside fun d => d.store = Storage.empty ∧
    ∀ token held, Tokens.balance d.peers token self = some held → 0 ≤ held

section Steps

variable {P : Type} [MarketViews P] {env : Env} {op : FuturesOp} {s s' : Storage} {p p' : P}
  {effects : List (Effect Event)}

theorem payOut_only_transfers (env : Env) (token recipient : Address) (amount : Int) :
    ∀ e ∈ payOutEffects env token recipient amount, e.onlyTransfers = true := by
  intro e he
  unfold payOutEffects at he
  split at he
  · rw [List.mem_singleton.mp he]
    rfl
  · cases he

theorem Transition.only_transfers (h : Transition env p op s effects s') :
    ∀ e ∈ effects, e.onlyTransfers = true := by
  cases h with
  | settled =>
    intro e he
    rcases List.mem_append.mp he with he | he
    · exact payOut_only_transfers _ _ _ _ e he
    · exact payOut_only_transfers _ _ _ _ e he
  | _ => simp [Effect.onlyTransfers]

/-- Paying out takes at most the amount from the contract. -/
theorem le_moved_payOut (env : Env) (token other recipient : Address) {amount : Int}
    (hnonneg : 0 ≤ amount) : (if token = other then -amount else 0) ≤
      ((payOutEffects env token recipient amount).map (Effect.moved other env.contract)).sum := by
  by_cases hpositive : 0 < amount
  · rw [payOutEffects, if_pos hpositive]
    simp only [List.map_cons, List.map_nil, List.sum_cons, List.sum_nil, Effect.moved,
      transferDelta]
    grind
  · rw [payOutEffects, if_neg hpositive, List.map_nil, List.sum_nil]
    split <;> omega

/-- What a call is staked in, as the configured factory reports it. -/
theorem marginToken_eq_iff {factory : Address} {callId : Nat} {call : Call} (token : Address)
    (hfactory : s.factory = some factory) (hcall : marketCall p factory callId = some call) :
    s.marginToken p callId = some token ↔ token = call.stakeToken := by
  rw [marginToken_of hfactory hcall, Option.some.injEq, eq_comm]

/-- A transition keeps the positions registered, and changes the obligations by at most what it
moves into the contract. -/
theorem Transition.registered (h : Transition env p op s effects s') (hs : Registered s p)
    (hforeign : env.contract ∉ env.auths) : Registered s' p ∧ ∀ token,
      s'.obligation p token ≤ s.obligation p token +
        (effects.map (Effect.moved token env.contract)).sum := by
  cases h with
  | @initialized factory _ hnone =>
    have hnew : ∀ id, s.futuresPosition id = none := fun id => by
      cases hposition : s.futuresPosition id with
      | none => rfl
      | some position =>
        obtain ⟨factory, -, hfactory, -⟩ := hs.priced id position hposition
        simp [hnone] at hfactory
    have hlocked : ∀ token id, (s.setFuturesFactory factory).lockedIn p token id =
        s.lockedIn p token id := fun token id => by
      simp only [Storage.lockedIn, Storage.setFuturesFactory, hnew]
    refine ⟨⟨hs.numbered, hs.margins, fun id position hposition => ?_, hs.active_nodup,
      hs.mem_active⟩, fun token => ?_⟩
    · simp [Storage.setFuturesFactory, hnew] at hposition
    · rw [List.map_nil, List.sum_nil, add_zero]
      exact (sum_map_congr fun id _ => hlocked token id).le
  | @created creator callId outcome strike expiryTs margin factory call _ hauth hmargin _ _ hfactory
      hcall =>
    have hsender : env.contract ≠ creator := fun heq => hforeign (heq ▸ hauth)
    refine ⟨hs.opened rfl hmargin rfl ⟨factory, call, hfactory, hcall⟩, fun token => ?_⟩
    have hstaked := marginToken_eq_iff token hfactory hcall
    rw [obligation_opened rfl]
    simp only [hstaked, List.map_cons, List.map_nil, List.sum_cons, List.sum_nil, Effect.moved,
      transferDelta, if_true, if_neg hsender, FuturesPosition.locked, newPosition]
    grind
  | @accepted counterparty id position factory call _ hauth hposition hsettled hnone _ hfactory
      hcall =>
    have hsender : env.contract ≠ counterparty := fun heq => hforeign (heq ▸ hauth)
    refine ⟨hs.rewritten hposition rfl rfl rfl, fun token => ?_⟩
    have hstaked := marginToken_eq_iff token hfactory hcall
    rw [hs.obligation_set hposition]
    · simp only [hstaked, List.map_cons, List.map_nil, List.sum_cons, List.sum_nil, Effect.moved,
        transferDelta, if_true, if_neg hsender, FuturesPosition.locked, hsettled, hnone]
      grind
    · rfl
  | @settled id position counterparty factory call _ buyer seller hposition hsettled hcounterparty
      _ hfactory hcall _ _ hsplit =>
    have hmargin := hs.margins id position hposition
    have hsum := split_conserves position.marginRequirement
      (probabilityBps call position.outcome) position.strikeProbabilityBps
    have hbounds := split_bounds hmargin (probabilityBps call position.outcome)
      position.strikeProbabilityBps
    rw [← hsplit] at hsum hbounds
    refine ⟨hs.closed hposition, fun token => ?_⟩
    have hstaked := marginToken_eq_iff token hfactory hcall
    have hseller := le_moved_payOut env call.stakeToken token counterparty hbounds.2.2.1
    have hbuyer := le_moved_payOut env call.stakeToken token position.creator hbounds.1
    rw [hs.obligation_closed hposition, List.map_append, List.sum_append]
    simp only [hstaked, FuturesPosition.locked, hsettled, hcounterparty]
    grind
  | longTransferred hposition =>
    refine ⟨hs.rewritten hposition rfl rfl rfl, fun token => ?_⟩
    rw [hs.obligation_set hposition]
    · simp [FuturesPosition.locked]
    · rfl
  | shortTransferred hposition hcounterparty =>
    refine ⟨hs.rewritten hposition rfl rfl rfl, fun token => ?_⟩
    rw [hs.obligation_set hposition]
    · simp [FuturesPosition.locked, hcounterparty]
    · rfl

/-- A settlement pays the two sides out of the two margins. -/
theorem Transition.settlement {id : Nat} (h : Transition env p (.settleFutures id) s effects s')
    (hs : Registered s p) : ∃ position counterparty token buyer seller,
      s.futuresPosition id = some position ∧ position.isSettled = false ∧
        position.counterparty = some counterparty ∧
        s.marginToken p position.callId = some token ∧
        effects = payOutEffects env token counterparty seller ++
          payOutEffects env token position.creator buyer ∧
        0 ≤ buyer ∧ buyer ≤ 2 * position.marginRequirement ∧
        0 ≤ seller ∧ seller ≤ 2 * position.marginRequirement ∧
        buyer + seller = 2 * position.marginRequirement := by
  cases h with
  | @settled _ position counterparty factory call _ buyer seller hposition hsettled hcounterparty _
      hfactory hcall _ _ hsplit =>
    have hsum := split_conserves position.marginRequirement
      (probabilityBps call position.outcome) position.strikeProbabilityBps
    have hbounds := split_bounds (hs.margins id position hposition)
      (probabilityBps call position.outcome) position.strikeProbabilityBps
    rw [← hsplit] at hsum hbounds
    exact ⟨position, counterparty, call.stakeToken, buyer, seller, hposition, hsettled,
      hcounterparty, marginToken_of hfactory hcall, rfl, hbounds.1, hbounds.2.1, hbounds.2.2.1,
      hbounds.2.2.2, hsum⟩

theorem Transition.sound (hexact : ExactTransfers P) (hcalls : TransfersKeepCalls P)
    (h : Transition env p op s effects s') (hreplay : Replays env p effects p')
    (hforeign : env.contract ∉ env.auths) (hs : Registered s p ∧ Backed env.contract s p) :
    Registered s' p' ∧ Backed env.contract s' p' := by
  obtain ⟨hregistered, hbacked⟩ := hs
  obtain ⟨hregistered', hobligation⟩ := h.registered hregistered hforeign
  have hkeeps := KeepsTerms.of_calls (Replays.keeps_calls hcalls hreplay h.only_transfers)
  refine ⟨hregistered'.keeps hkeeps, fun token held' hheld' => ?_⟩
  rw [hexact.replayed hreplay h.only_transfers, Option.map_eq_some_iff] at hheld'
  obtain ⟨held, hheld, rfl⟩ := hheld'
  have hbefore := hbacked token held hheld
  have hchange := hobligation token
  rw [hregistered'.obligation_keeps hkeeps]
  omega

end Steps

section Run

variable {P : Type} [MarketViews P] {self : Address} {outside : P → P → Prop}
  {guard : System.Guard (Deployment Storage P) (Happening FuturesOp Event)}
  {history : List (Happening FuturesOp Event)} {d : Deployment Storage P}

/-- In every execution the positions are registered and backed. -/
theorem registered_and_backed (hexact : ExactTransfers P) (hcalls : TransfersKeepCalls P)
    (hkeeps : ∀ p p', outside p p' → KeepsTerms p p') (hundrained : Undrained self outside)
    (run : (futures self outside).RunWhere guard history d) :
    Registered d.store d.peers ∧ Backed self d.store d.peers := by
  refine contract_invariant (I := fun _ d => Registered d.store d.peers ∧ Backed self d.store
    d.peers) ?_ ?_ ?_ run
  · rintro d ⟨hempty, hnonneg⟩
    rw [hempty]
    exact ⟨registered_empty, by simpa [Backed, Storage.empty, Storage.obligation] using hnonneg⟩
  · intro h d env op f _ ih hadmissible hrun _
    obtain ⟨effects, -, hreplay, htransition⟩ := FuturesOp.transitions ih.1.margins hrun
    have hself := hadmissible.contract
    have hforeign := hadmissible.foreign
    subst hself
    exact htransition.sound hexact hcalls hreplay hforeign ih
  · intro h d peers _ ih hout
    refine ⟨ih.1.keeps (hkeeps _ _ hout), fun token held' hheld' => ?_⟩
    obtain ⟨held, hheld, hle⟩ := hundrained _ _ hout token held' hheld'
    show d.store.obligation peers token ≤ held'
    rw [ih.1.obligation_keeps (hkeeps _ _ hout)]
    exact (ih.2 token held hheld).trans hle

/-- In every reachable state every position's margins are in the token of its call, the contract
holds of each token at least the margins locked in it, and the list of active positions of a call
is exact. Every settlement pays the two sides amounts between zero and twice the margin that sum to
twice the margin. -/
theorem margins_solvent (hexact : ExactTransfers P) (hcalls : TransfersKeepCalls P)
    (hkeeps : ∀ p p', outside p p' → KeepsTerms p p') (hundrained : Undrained self outside)
    (run : (futures self outside).Run history d) :
    (∀ id position, d.store.futuresPosition id = some position →
      ∃ token, d.store.marginToken d.peers position.callId = some token) ∧
    (∀ token held, Tokens.balance d.peers token self = some held →
      d.store.obligation d.peers token ≤ held) ∧
    (∀ callId, (d.store.activeFutures callId).Nodup ∧
      ∀ id, id ∈ d.store.activeFutures callId ↔ ∃ position,
        d.store.futuresPosition id = some position ∧ position.callId = callId ∧
          position.isSettled = false) ∧
    ∀ i d' id, (futures self outside).step d (.invoked i) d' → i.op = .settleFutures id →
      ∃ position counterparty token buyer seller, d.store.futuresPosition id = some position ∧
        position.isSettled = false ∧ position.counterparty = some counterparty ∧
        d.store.marginToken d.peers position.callId = some token ∧
        i.effects = payOutEffects i.env token counterparty seller ++
          payOutEffects i.env token position.creator buyer ∧
        0 ≤ buyer ∧ buyer ≤ 2 * position.marginRequirement ∧
        0 ≤ seller ∧ seller ≤ 2 * position.marginRequirement ∧
        buyer + seller = 2 * position.marginRequirement := by
  obtain ⟨hregistered, hbacked⟩ := registered_and_backed hexact hcalls hkeeps hundrained run
  refine ⟨fun id position hposition => ?_, hbacked, fun callId =>
    ⟨hregistered.active_nodup callId, hregistered.mem_active callId⟩, ?_⟩
  · obtain ⟨factory, call, hfactory, hcall⟩ := hregistered.priced id position hposition
    exact ⟨call.stakeToken, marginToken_of hfactory hcall⟩
  · rintro ⟨env, op, _⟩ d' id hstep rfl
    cases hstep with
    | invoked hadmissible hrun =>
      obtain ⟨effects, heffects, -, htransition⟩ := FuturesOp.transitions hregistered.margins hrun
      rw [Deployment.frame, List.append_nil] at heffects
      obtain ⟨position, counterparty, token, buyer, seller, hposition, hsettled, hcounterparty,
        htoken, hpaid, hbounds⟩ := htransition.settlement hregistered
      exact ⟨position, counterparty, token, buyer, seller, hposition, hsettled, hcounterparty,
        htoken, heffects.trans hpaid, hbounds⟩

end Run

/-- The contract's address in the scenarios that follow the theorems. -/
def home : Address := ⟨500⟩

/-- An invocation of the contract at a time, with the addresses that authorise it. -/
def at_ (timestamp : Nat) (auths : List Address) (op : FuturesOp) : Env × FuturesOp :=
  (⟨home, timestamp, timestamp, auths⟩, op)

/-- Nothing happens to the contracts around this one. -/
def nowhere {P : Type} : P → P → Prop := fun _ _ => False

theorem nowhere_keeps {P : Type} [MarketViews P] (p p' : P) (h : nowhere p p') : KeepsTerms p p' :=
  h.elim

theorem nowhere_undrained {P : Type} [Tokens P] (self : Address) :
    Undrained self (nowhere : P → P → Prop) :=
  fun _ _ h => h.elim

def freshDeployment : Deployment Storage MarketLedger := ⟨Storage.empty, sampleMarkets, 0, 0⟩

/-- The contract in a world where nothing else happens. -/
abbrev alone : System (Deployment Storage MarketLedger) (Happening FuturesOp Event) :=
  futures home nowhere

/-- Invoke the contract. -/
abbrev invoke (d : Deployment Storage MarketLedger) (input : Env × FuturesOp) :
    Option (Happening FuturesOp Event × Deployment Storage MarketLedger) :=
  d.next FuturesOp.perform home input

theorem fresh_deployment_initial : alone.initial freshDeployment := by
  refine ⟨rfl, fun token held hheld => ?_⟩
  rw [← Option.some.inj hheld]
  exact (sampleMarkets.ledger.holdings token).nonneg home

/-- Alice goes long on the first outcome of call 1 with a margin of one thousand, and Bob accepts. -/
def acceptedScript : List (Env × FuturesOp) :=
  [at_ 1 [] (.initializeFutures factoryAddress),
    at_ 2 [alice] (.createFuturesContract alice 1 1 5000 100 1000),
    at_ 3 [bob] (.acceptFuturesCounterparty bob 1)]

def acceptedRun : System.Replayed alone invoke System.anything :=
  .of freshDeployment fresh_deployment_initial acceptedScript (by decide +kernel)

theorem accepted_run : alone.Run acceptedRun.history acceptedRun.state :=
  acceptedRun.run Deployment.next_step System.anything_allowed

/-- Both margins are held. -/
theorem margins_solvent_once_accepted :
    (∀ held, Tokens.balance acceptedRun.state.peers usdc home = some held →
      acceptedRun.state.store.obligation acceptedRun.state.peers usdc ≤ held) ∧
    acceptedRun.state.store.obligation acceptedRun.state.peers usdc = 2000 :=
  ⟨(margins_solvent MarketLedger.exact_transfers MarketLedger.transfers_keep_calls nowhere_keeps
    (nowhere_undrained home) accepted_run).2.1 usdc, by decide +kernel⟩

end Backit.PredictionMarketFutures
