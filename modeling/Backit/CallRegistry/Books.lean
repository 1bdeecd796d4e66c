import Backit.CallRegistry.Executions

/-!
# The stake records

The registry records a stake five times: in the call's entry and the call's pool of the position,
in the staker's own record, and in two indexes. `BooksStep` is what a transition does to these
records, and `BooksAgree` the invariant that ties them together: entries and records are equal,
and a pool exceeds its entries by exactly the penalties that early withdrawals left in it.
-/

namespace Backit.CallRegistry

open Soroban Contract Lib

/-- Two states of a call, the later of which keeps what was agreed when it was created, and is
voided if the earlier was. -/
structure Call.SameDeal (c c' : Call) : Prop where
  id : c'.id = c.id
  creator : c'.creator = c.creator
  stakeToken : c'.stakeToken = c.stakeToken
  stakeAmount : c'.stakeAmount = c.stakeAmount
  endTs : c'.endTs = c.endTs
  outcomeCount : c'.outcomeCount = c.outcomeCount
  shareTokens : c'.shareTokens = c.shareTokens
  voided : c.voided = true → c'.voided = true

/-- Two states of a call that also agree on what was staked. -/
structure Call.SameTerms (c c' : Call) : Prop extends c.SameDeal c' where
  outcomeStakes : c'.outcomeStakes = c.outcomeStakes
  stakes : c'.stakes = c.stakes

theorem Call.SameDeal.refl (c : Call) : c.SameDeal c := by
  constructor <;> simp

theorem Call.SameTerms.refl (c : Call) : c.SameTerms c := ⟨.refl c, rfl, rfl⟩

/-- Two states of the market with the same calls and the same stake records. -/
structure Market.SameBooks (m m' : Market) : Prop where
  callCounter : m'.callCounter = m.callCounter
  userStake : m'.userStake = m.userStake
  callStakers : m'.callStakers = m.callStakers
  stakerCalls : m'.stakerCalls = m.stakerCalls
  calls : ∀ id, Option.Rel Call.SameTerms (m.calls id) (m'.calls id)

namespace Market

variable {m m' : Market} {call call' : Call} {id : Nat}

@[simp] theorem setCall_calls (m : Market) (call : Call) (id : Nat) :
    (m.setCall call).calls id = if id = call.id then some call else m.calls id :=
  Function.update_apply ..

theorem option_rel_refl (m : Market) (id : Nat) :
    Option.Rel Call.SameTerms (m.calls id) (m.calls id) := by
  cases m.calls id with
  | none => exact .none
  | some c => exact .some (.refl c)

theorem SameBooks.refl (m : Market) : m.SameBooks m := ⟨rfl, rfl, rfl, rfl, option_rel_refl m⟩

/-- Replacing a call by one on the same terms keeps the books. -/
theorem SameBooks.of_setCall (hcall : m.calls id = some call) (hterms : call.SameTerms call') :
    m.SameBooks (m.setCall call') := by
  have hid : call'.id = id := hterms.id.trans (m.keyed id call hcall)
  refine ⟨rfl, rfl, rfl, rfl, fun i => ?_⟩
  rw [setCall_calls]
  split
  · next h =>
    subst h
    rw [hid, hcall]
    exact .some hterms
  · exact option_rel_refl m i

theorem SameBooks.of_setCreatorStats {creator : Address} {stats : CreatorStats}
    (h : (m.setCreatorStats creator stats).SameBooks m') : m.SameBooks m' :=
  ⟨h.callCounter, h.userStake, h.callStakers, h.stakerCalls, h.calls⟩

/-- A call in the later market stems from one on the same terms. -/
theorem SameBooks.call_of (h : m.SameBooks m') (hcall : m'.calls id = some call') :
    ∃ call, m.calls id = some call ∧ call.SameTerms call' := by
  have hrel := h.calls id
  rw [hcall] at hrel
  cases hbefore : m.calls id with
  | none => rw [hbefore] at hrel; cases hrel
  | some call =>
    rw [hbefore] at hrel
    cases hrel with
    | some hterms => exact ⟨call, rfl, hterms⟩

/-- A call in the earlier market is kept, on the same terms. -/
theorem SameBooks.kept (h : m.SameBooks m') (hcall : m.calls id = some call) :
    ∃ call', m'.calls id = some call' ∧ call.SameTerms call' := by
  have hrel := h.calls id
  rw [hcall] at hrel
  cases hafter : m'.calls id with
  | none => rw [hafter] at hrel; cases hrel
  | some call' =>
    rw [hafter] at hrel
    cases hrel with
    | some hterms => exact ⟨call', rfl, hterms⟩

theorem SameBooks.none_of (h : m.SameBooks m') (hnone : m'.calls id = none) :
    m.calls id = none := by
  have hrel := h.calls id
  rw [hnone] at hrel
  cases hbefore : m.calls id with
  | none => rfl
  | some call => rw [hbefore] at hrel; cases hrel

end Market

/-- The operations that write the stake records. -/
def MarketOp.movesStakes : MarketOp → Bool
  | .createCall .. | .stakeOnCall .. | .stakeOnBehalf .. | .withdrawStake .. => true
  | _ => false

theorem MarketOp.moves_stakes_of_request {op : MarketOp} {r : StakeRequest}
    (h : op.stakeRequest = some r) : op.movesStakes = true := by
  cases op <;> simp_all [MarketOp.stakeRequest, MarketOp.movesStakes]

section Cases

variable {env : Env} {config : Option ContractConfig} {op : MarketOp} {m m' : Market}
  {effects : List (Effect Event)}

theorem MarketStep.same_books (h : MarketStep env config op m effects m')
    (hop : op.movesStakes = false) : m.SameBooks m' := by
  cases h with
  | created | withdrawn => simp [MarketOp.movesStakes] at hop
  | staked hr => simp [MarketOp.moves_stakes_of_request hr] at hop
  | redeemed | sharesTransferred | released => exact .refl m
  | voidRefunded | expiredRefunded => exact ⟨rfl, rfl, rfl, rfl, m.option_rel_refl⟩
  | metadataUpdated _ hcall => exact .of_setCall hcall ⟨by constructor <;> simp, rfl, rfl⟩
  | settled _ _ hcall => exact .of_setCall hcall ⟨by constructor <;> simp, rfl, rfl⟩
  | priced _ _ hcall => exact .of_setCall hcall ⟨by constructor <;> simp, rfl, rfl⟩
  | cancelled _ hcall => exact .of_setCall hcall ⟨by constructor <;> simp, rfl, rfl⟩
  | voided _ _ hcall => exact .of_setCall hcall ⟨by constructor <;> simp, rfl, rfl⟩
  | emergencyCancelled _ _ hcall => exact .of_setCall hcall ⟨by constructor <;> simp, rfl, rfl⟩
  | resolved _ _ _ hcall =>
    exact .of_setCreatorStats (.of_setCall hcall ⟨by constructor <;> simp, rfl, rfl⟩)

/-- Case analysis on what a transition does to the stake records. -/
theorem MarketStep.books_cases (h : MarketStep env config op m effects m') :
    (op.movesStakes = false ∧ m.SameBooks m') ∨
    (∃ creator args tokens, op = .createCall creator args ∧
      m' = m.withNewCall creator args env.timestamp (shareTokenMap tokens)) ∨
    (∃ r call credited, op.stakeRequest = some r ∧ m.calls r.callId = some call ∧
      call.HasPosition r.position ∧ 0 < credited ∧
      effects = .event (stakeAddedEvent call r credited) ::
        (mintEffects call r.callId r.staker r.position credited ++
          [.transfer call.stakeToken r.funder env.contract r.amount]) ∧
      m' = m.withStake call r credited) ∨
    (∃ staker callId position call penalty, op = .withdrawStake staker callId position ∧
      m.calls callId = some call ∧ call.HasPosition position ∧
      0 < m.userStake (callId, staker, position) ∧
      penalty = earlyExitPenalty (m.userStake (callId, staker, position)) ∧
      effects = [.event (byToken call.stakeToken
          (.xlmStakeWithdrawn callId staker (m.userStake (callId, staker, position) - penalty) penalty)
          (.stakeWithdrawn callId staker (m.userStake (callId, staker, position) - penalty) penalty)),
        .transfer call.stakeToken env.contract staker
          (m.userStake (callId, staker, position) - penalty)] ∧
      m' = m.withoutStake call callId staker position
        (m.userStake (callId, staker, position) - penalty)) := by
  cases hop : op.movesStakes with
  | false => exact .inl ⟨rfl, h.same_books hop⟩
  | true =>
    cases h with
    | created => exact .inr (.inl ⟨_, _, _, rfl, rfl⟩)
    | staked hr _ hcall _ hposition hpositive _ =>
      exact .inr (.inr (.inl ⟨_, _, _, hr, hcall, hposition, hpositive, rfl, rfl⟩))
    | withdrawn _ hcall _ hposition hstake hpenalty hrefund =>
      subst hrefund
      exact .inr (.inr (.inr ⟨_, _, _, _, _, rfl, hcall, hposition, hstake, hpenalty, rfl, rfl⟩))
    | voidRefunded hr =>
      cases op <;> simp [MarketOp.voidRefundRequest, MarketOp.movesStakes] at hr hop
    | _ => simp [MarketOp.movesStakes] at hop

end Cases

/-- What an event says was credited to a staker on a call. -/
def Event.credited (callId : Nat) (staker : Address) : Event → Int
  | .stakeAdded c s amount _ | .xlmStakeAdded c s amount _ =>
    if c = callId ∧ s = staker then amount else 0
  | _ => 0

/-- What an event says an early withdrawal kept. -/
def Event.penalty : Event → Int
  | .stakeWithdrawn _ _ _ penalty | .xlmStakeWithdrawn _ _ _ penalty => penalty
  | _ => 0

/-- The penalty that an operation retained on a position of a call. -/
def penaltyRetained (callId position : Nat) (r : MarketReceipt) : Int :=
  match r.op with
  | .withdrawStake _ c p =>
    if c = callId ∧ p = position then effectTotal (Effect.onEvent Event.penalty) r.effects else 0
  | _ => 0

section Updates

variable (m : Market) (call : Call) (r : StakeRequest)

/-- A map that gives every position a value reads as that value everywhere when it is also the
default. -/
theorem lookup_everyPosition_getD {V : Type} (outcomeCount position : Nat) (value : V) :
    ((everyPosition outcomeCount value).lookup position).getD value = value := by
  unfold everyPosition
  suffices H : ∀ (ps : List Nat) (start : Map Nat V),
      (start.lookup position).getD value = value →
      ((ps.foldl (fun m p => m.insert p value) start).lookup position).getD value = value from
    H _ ∅ rfl
  intro ps
  induction ps with
  | nil => exact fun _ h => h
  | cons p rest ih =>
    intro start hstart
    refine ih _ ?_
    by_cases hp : position = p
    · subst hp; simp
    · rwa [AList.lookup_insert_ne hp]

@[simp] theorem stakesOn_newCall (id : Nat) (creator : Address) (args : CallInitArgs) (t : Nat)
    (shareTokens : Map Nat Address) (position : Nat) :
    (newCall id creator args t shareTokens).stakesOn position = ∅ :=
  lookup_everyPosition_getD _ _ _

@[simp] theorem pool_newCall (id : Nat) (creator : Address) (args : CallInitArgs) (t : Nat)
    (shareTokens : Map Nat Address) (position : Nat) :
    valueAt (newCall id creator args t shareTokens).outcomeStakes position = 0 :=
  lookup_everyPosition_getD _ _ _

variable {m call} in
theorem Market.withStake_calls (credited : Int) (hid : call.id = r.callId) (id : Nat) :
    (m.withStake call r credited).calls id =
      if id = r.callId then
        some (call.withStake r.position r.staker (valueAt call.outcomeStakes r.position + credited)
          (valueAt (call.stakesOn r.position) r.staker + credited))
      else m.calls id := by
  rw [← hid]
  exact Function.update_apply ..

theorem Market.withStake_userStake (credited : Int) (key : Nat × Address × Nat) :
    (m.withStake call r credited).userStake key =
      if key = (r.callId, r.staker, r.position) then
        valueAt (call.stakesOn r.position) r.staker + credited
      else m.userStake key :=
  Function.update_apply ..

theorem Market.withStake_callStakers (credited : Int) (id : Nat) :
    (m.withStake call r credited).callStakers id =
      if id = r.callId then (m.callStakers r.callId).add r.staker else m.callStakers id :=
  Function.update_apply ..

theorem Market.withStake_stakerCalls (credited : Int) (a : Address) :
    (m.withStake call r credited).stakerCalls a =
      if a = r.staker then (m.stakerCalls r.staker).add r.callId else m.stakerCalls a :=
  Function.update_apply ..

variable {m call} in
theorem Market.withoutStake_calls {callId : Nat} (staker : Address) (position : Nat)
    (refund : Int) (hid : call.id = callId) (id : Nat) :
    (m.withoutStake call callId staker position refund).calls id =
      if id = callId then
        some (call.withoutStake position staker (valueAt call.outcomeStakes position - refund))
      else m.calls id := by
  rw [← hid]
  exact Function.update_apply ..

theorem Market.withoutStake_userStake (callId : Nat) (staker : Address) (position : Nat)
    (refund : Int) (key : Nat × Address × Nat) :
    (m.withoutStake call callId staker position refund).userStake key =
      if key = (callId, staker, position) then 0 else m.userStake key :=
  Function.update_apply ..

theorem stakesOn_withStake (position : Nat) (staker : Address) (pool stake : Int) (p : Nat) :
    (call.withStake position staker pool stake).stakesOn p =
      if p = position then (call.stakesOn position).insert staker stake else call.stakesOn p := by
  unfold Call.withStake
  split
  · next h => subst h; simp [Call.stakesOn]
  · next h => simp [Call.stakesOn, AList.lookup_insert_ne h]

theorem stakesOn_withoutStake (position : Nat) (staker : Address) (pool : Int) (p : Nat) :
    (call.withoutStake position staker pool).stakesOn p =
      if p = position then (call.stakesOn position).erase staker else call.stakesOn p := by
  unfold Call.withoutStake
  split
  · next h => subst h; simp [Call.stakesOn]
  · next h => simp [Call.stakesOn, AList.lookup_insert_ne h]

theorem earlyExitPenalty_bounds {stake : Int} (h : 0 < stake) :
    0 ≤ earlyExitPenalty stake ∧ earlyExitPenalty stake < stake := by
  have hproduct : 0 ≤ stake * defaultEarlyExitPenaltyBps := by
    unfold defaultEarlyExitPenaltyBps
    omega
  rw [earlyExitPenalty, tdiv_eq_div hproduct]
  unfold defaultEarlyExitPenaltyBps
  omega

end Updates

/-- The stake records of a market agree, given the penalties retained so far on each position of
each call. -/
structure Market.BooksAgree (retained : Nat → Nat → Int) (m : Market) : Prop where
  numbered : ∀ id call, m.calls id = some call → id ≤ m.callCounter
  unopened : ∀ id, m.calls id = none → ∀ p, retained id p = 0 ∧ ∀ a, m.userStake (id, a, p) = 0
  nonneg : ∀ key, 0 ≤ m.userStake key
  entries : ∀ id call, m.calls id = some call → ∀ p a,
    valueAt (call.stakesOn p) a = m.userStake (id, a, p)
  pools : ∀ id call, m.calls id = some call → ∀ p,
    valueAt call.outcomeStakes p = total (call.stakesOn p) + retained id p
  retained_nonneg : ∀ id p, 0 ≤ retained id p
  indexed : ∀ id a p, m.userStake (id, a, p) ≠ 0 →
    a ∈ (m.callStakers id).items ∧ id ∈ (m.stakerCalls a).items

namespace Market.BooksAgree

variable {retained retained' : Nat → Nat → Int} {m m' : Market}

theorem empty : Storage.empty.market.BooksAgree fun _ _ => 0 where
  numbered := by simp [Storage.empty]
  unopened := by simp [Storage.empty]
  nonneg := by simp [Storage.empty]
  entries := by simp [Storage.empty]
  pools := by simp [Storage.empty]
  retained_nonneg _ _ := le_rfl
  indexed := by simp [Storage.empty]

theorem same_books (h : m.BooksAgree retained) (hbooks : m.SameBooks m') :
    m'.BooksAgree retained := by
  refine ⟨?_, ?_, ?_, ?_, ?_, h.retained_nonneg, ?_⟩
  · intro id call' hcall'
    obtain ⟨call, hcall, -⟩ := hbooks.call_of hcall'
    rw [hbooks.callCounter]
    exact h.numbered id call hcall
  · intro id hnone p
    rw [hbooks.userStake]
    exact h.unopened id (hbooks.none_of hnone) p
  · rw [hbooks.userStake]
    exact h.nonneg
  · intro id call' hcall' p a
    obtain ⟨call, hcall, hterms⟩ := hbooks.call_of hcall'
    rw [hbooks.userStake, ← h.entries id call hcall p a, Call.stakesOn, Call.stakesOn,
      hterms.stakes]
  · intro id call' hcall' p
    obtain ⟨call, hcall, hterms⟩ := hbooks.call_of hcall'
    rw [hterms.outcomeStakes, h.pools id call hcall p, Call.stakesOn, Call.stakesOn, hterms.stakes]
  · rw [hbooks.userStake, hbooks.callStakers, hbooks.stakerCalls]
    exact h.indexed

theorem fresh (h : m.BooksAgree retained) : m.calls (m.callCounter + 1) = none := by
  cases hcall : m.calls (m.callCounter + 1) with
  | none => rfl
  | some call =>
    have := h.numbered _ _ hcall
    omega

theorem created (h : m.BooksAgree retained) (creator : Address) (args : CallInitArgs)
    (now : Nat) (shareTokens : Map Nat Address) :
    (m.withNewCall creator args now shareTokens).BooksAgree retained := by
  have hfresh := h.unopened _ h.fresh
  have hcalls : ∀ id, (m.withNewCall creator args now shareTokens).calls id =
      if id = m.callCounter + 1 then
        some (newCall (m.callCounter + 1) creator args now shareTokens)
      else m.calls id := fun id => Function.update_apply ..
  refine ⟨?_, ?_, h.nonneg, ?_, ?_, h.retained_nonneg, h.indexed⟩
  · intro id call hcall
    rw [hcalls] at hcall
    change id ≤ m.callCounter + 1
    split at hcall
    · omega
    · exact (h.numbered id call hcall).trans (Nat.le_succ _)
  · intro id hnone
    rw [hcalls] at hnone
    split at hnone
    · cases hnone
    · exact h.unopened id hnone
  · intro id call hcall p a
    rw [hcalls] at hcall
    split at hcall
    · next hid =>
      cases hcall
      rw [stakesOn_newCall, valueAt_empty, hid]
      exact ((hfresh p).2 a).symm
    · exact h.entries id call hcall p a
  · intro id call hcall p
    rw [hcalls] at hcall
    split at hcall
    · next hid =>
      cases hcall
      rw [stakesOn_newCall, pool_newCall, hid, (hfresh p).1]
      rfl
    · exact h.pools id call hcall p

theorem staked {call : Call} {r : StakeRequest} {credited : Int} (h : m.BooksAgree retained)
    (hcall : m.calls r.callId = some call) (hcredited : 0 < credited) :
    (m.withStake call r credited).BooksAgree retained := by
  have hid := m.keyed _ _ hcall
  have hentry : valueAt (call.stakesOn r.position) r.staker =
      m.userStake (r.callId, r.staker, r.position) := h.entries _ _ hcall _ _
  have hcalls := m.withStake_calls r credited hid
  have hstake := m.withStake_userStake call r credited
  refine ⟨?_, ?_, ?_, ?_, ?_, h.retained_nonneg, ?_⟩
  · intro id call' hcall'
    rw [hcalls] at hcall'
    change id ≤ m.callCounter
    split at hcall'
    · next heq => exact heq ▸ h.numbered _ _ hcall
    · exact h.numbered id call' hcall'
  · intro id hnone p
    rw [hcalls] at hnone
    split at hnone
    · cases hnone
    · next hne =>
      refine ⟨(h.unopened id hnone p).1, fun a => ?_⟩
      rw [hstake, if_neg (by simp [hne])]
      exact (h.unopened id hnone p).2 a
  · intro key
    rw [hstake]
    split
    · have := h.nonneg (r.callId, r.staker, r.position)
      omega
    · exact h.nonneg key
  · intro id call' hcall' p a
    rw [hcalls] at hcall'
    rw [hstake]
    split at hcall'
    · next heq =>
      cases hcall'
      rw [heq, stakesOn_withStake]
      by_cases hp : p = r.position
      · subst hp
        rw [if_pos rfl, valueAt_insert]
        by_cases ha : a = r.staker
        · subst ha; simp
        · simp [ha, h.entries _ _ hcall]
      · simp [hp, h.entries _ _ hcall]
    · next hne =>
      rw [if_neg (by simp [hne])]
      exact h.entries id call' hcall' p a
  · intro id call' hcall' p
    rw [hcalls] at hcall'
    split at hcall'
    · next heq =>
      cases hcall'
      have hpool := h.pools _ _ hcall p
      rw [heq, stakesOn_withStake]
      simp only [Call.withStake, valueAt_insert]
      by_cases hp : p = r.position
      · subst hp
        rw [if_pos rfl, if_pos rfl, total_insert]
        omega
      · rw [if_neg hp, if_neg hp]
        exact hpool
    · exact h.pools id call' hcall' p
  · intro id a p hne
    rw [hstake] at hne
    rw [m.withStake_callStakers, m.withStake_stakerCalls]
    split at hne
    · next heq =>
      simp only [Prod.mk.injEq] at heq
      obtain ⟨rfl, rfl, rfl⟩ := heq
      simp
    · obtain ⟨ha, hc⟩ := h.indexed id a p hne
      constructor
      · split
        · next heq => subst heq; simp [ha]
        · exact ha
      · split
        · next heq => subst heq; simp [hc]
        · exact hc

theorem withdrawn {call : Call} {callId position : Nat} {staker : Address} {penalty : Int}
    (h : m.BooksAgree retained) (hcall : m.calls callId = some call) (hpenalty : 0 ≤ penalty)
    (hretained : ∀ id p, retained' id p =
      retained id p + if callId = id ∧ position = p then penalty else 0) :
    (m.withoutStake call callId staker position
      (m.userStake (callId, staker, position) - penalty)).BooksAgree retained' := by
  have hid := m.keyed _ _ hcall
  have hentry : valueAt (call.stakesOn position) staker =
      m.userStake (callId, staker, position) := h.entries _ _ hcall _ _
  have hcalls := m.withoutStake_calls staker position
    (m.userStake (callId, staker, position) - penalty) hid
  have hstake := m.withoutStake_userStake call callId staker position
    (m.userStake (callId, staker, position) - penalty)
  refine ⟨?_, ?_, ?_, ?_, ?_, ?_, ?_⟩
  · intro id call' hcall'
    rw [hcalls] at hcall'
    change id ≤ m.callCounter
    split at hcall'
    · next heq => exact heq ▸ h.numbered _ _ hcall
    · exact h.numbered id call' hcall'
  · intro id hnone p
    rw [hcalls] at hnone
    split at hnone
    · cases hnone
    · next hne =>
      refine ⟨?_, fun a => ?_⟩
      · rw [hretained, (h.unopened id hnone p).1, if_neg (by simp [Ne.symm hne]), zero_add]
      · rw [hstake, if_neg (by simp [hne])]
        exact (h.unopened id hnone p).2 a
  · intro key
    rw [hstake]
    split
    · exact le_rfl
    · exact h.nonneg key
  · intro id call' hcall' p a
    rw [hcalls] at hcall'
    rw [hstake]
    split at hcall'
    · next heq =>
      cases hcall'
      rw [heq, stakesOn_withoutStake]
      by_cases hp : p = position
      · subst hp
        rw [if_pos rfl, valueAt_erase]
        by_cases ha : a = staker
        · subst ha; simp
        · simp [ha, h.entries _ _ hcall]
      · simp [hp, h.entries _ _ hcall]
    · next hne =>
      rw [if_neg (by simp [hne])]
      exact h.entries id call' hcall' p a
  · intro id call' hcall' p
    rw [hcalls] at hcall'
    rw [hretained]
    split at hcall'
    · next heq =>
      cases hcall'
      have hpool := h.pools _ _ hcall p
      rw [heq, stakesOn_withoutStake]
      simp only [Call.withoutStake, valueAt_insert]
      by_cases hp : p = position
      · subst hp
        rw [if_pos rfl, if_pos rfl, if_pos (by simp), total_erase]
        omega
      · rw [if_neg hp, if_neg hp, if_neg (by simp [Ne.symm hp]), add_zero]
        exact hpool
    · next hne =>
      rw [if_neg (by simp [Ne.symm hne]), add_zero]
      exact h.pools id call' hcall' p
  · intro id p
    have := h.retained_nonneg id p
    rw [hretained]
    split <;> omega
  · intro id a p hne
    rw [hstake] at hne
    split at hne
    · exact absurd rfl hne
    · exact h.indexed id a p hne

end Market.BooksAgree

section Run

variable {T : Type} [Tokens T] [Crypto] {self : Address} {outside : T → T → Prop}
  {guard : System.Guard (World T) Label} {history : List Label} {w : World T}

/-- The penalties retained on a position of a call over a history. -/
def penalties (history : List MarketReceipt) (callId position : Nat) : Int :=
  tally (penaltyRetained callId position) history

theorem books_agree (run : (registry self outside).RunWhere guard history w) :
    w.store.market.BooksAgree (penalties (marketHistory history)) := by
  refine market_invariant (I := fun h m => m.BooksAgree (penalties h)) .empty ?_ run
  intro h w r m' _ _ ih hstep
  obtain ⟨hmoves, hbooks⟩ | ⟨creator, args, tokens, hop, rfl⟩ |
    ⟨s, call, credited, hop, hcall, -, hcredited, -, rfl⟩ |
    ⟨staker, callId, position, call, penalty, hop, hcall, -, hstake, rfl, heffects, rfl⟩ :=
    hstep.books_cases
  · have hsame : penalties (r :: marketHistory h) = penalties (marketHistory h) := by
      funext c p
      cases hop : r.op <;>
        simp_all [penalties, penaltyRetained, MarketOp.movesStakes]
    rw [hsame]
    exact ih.same_books hbooks
  · have hsame : penalties (r :: marketHistory h) = penalties (marketHistory h) := by
      funext c p
      simp [penalties, penaltyRetained, hop]
    rw [hsame]
    exact ih.created creator args _ _
  · have hsame : penalties (r :: marketHistory h) = penalties (marketHistory h) := by
      funext c p
      cases hop' : r.op <;>
        simp_all [penalties, penaltyRetained, MarketOp.stakeRequest]
    rw [hsame]
    exact ih.staked hcall hcredited
  · refine ih.withdrawn hcall (earlyExitPenalty_bounds hstake).1 fun c p => ?_
    have hpenalty : effectTotal (Effect.onEvent Event.penalty) r.effects =
        earlyExitPenalty (w.store.market.userStake (callId, staker, position)) := by
      rw [heffects]
      simp only [byToken]
      split <;> simp [Effect.onEvent, Event.penalty]
    simp only [penalties, tally_cons, penaltyRetained, hop, hpenalty]
    exact add_comm _ _

end Run

/-!
## Agreement of the stake records

In every reachable state the five records of a stake say the same thing.
-/

section Agreement

variable {T : Type} [Tokens T] [Crypto] {self : Address} {outside : T → T → Prop}
  {history : List Label} {w : World T} {callId : Nat} {call : Call}

/-- The entry of a position equals the staker's own record and is nonnegative, the pool of a
position exceeds its entries by exactly the penalties retained there, and the two indexes are
without duplicates and list every pair with a stake. -/
theorem stake_records_agree (run : (registry self outside).Run history w)
    (hcall : w.store.getCall callId = some call) :
    (∀ position staker, call.HasPosition position →
      valueAt (call.stakesOn position) staker = w.store.getUserStake callId staker position ∧
      0 ≤ w.store.getUserStake callId staker position) ∧
    (∀ position, call.HasPosition position →
      total (call.stakesOn position) ≤ valueAt call.outcomeStakes position ∧
      valueAt call.outcomeStakes position - total (call.stakesOn position) =
        penalties (marketHistory history) callId position) ∧
    (w.store.market.callStakers callId).items.Nodup ∧
    (∀ staker, (w.store.market.stakerCalls staker).items.Nodup) ∧
    (∀ position staker, call.HasPosition position →
      w.store.getUserStake callId staker position ≠ 0 →
      staker ∈ (w.store.market.callStakers callId).items ∧
      callId ∈ (w.store.market.stakerCalls staker).items) := by
  have hbooks := books_agree run
  refine ⟨?_, ?_, SeenList.nodup _, fun staker => SeenList.nodup _, ?_⟩
  · intro position staker _
    exact ⟨hbooks.entries callId call hcall position staker, hbooks.nonneg _⟩
  · intro position _
    have hpool := hbooks.pools callId call hcall position
    have hretained := hbooks.retained_nonneg callId position
    omega
  · intro position staker _ hne
    exact hbooks.indexed callId staker position hne

end Agreement

section Scenario

attribute [local instance] noCrypto

/-- Two stakes, an early withdrawal, and a stake after it. -/
def stakeScript : List (Env × Action) :=
  openingScript ++
    [at_ 10 [alice] (.market (.stakeOnCall alice 1 1000 1)),
      at_ 11 [bob] (.market (.stakeOnCall bob 1 500 2)),
      at_ 12 [alice] (.market (.withdrawStake alice 1 1)),
      at_ 13 [alice] (.market (.stakeOnBehalf alice bob 1 50 1))]

def stakeRun : Replayed (T := StandardLedger) home anything :=
  .of freshWorld fresh_world_empty stakeScript (by decide +kernel)

/-- The call as the scenario leaves it. -/
def stakedCall : Call := (stakeRun.world.store.getCall 1).get (by decide +kernel)

/-- In the scenario the penalty of one hundred stays in the pool of the first position. -/
theorem stake_records_agree_after_withdrawal :
    valueAt stakedCall.outcomeStakes 1 - total (stakedCall.stakesOn 1) =
        penalties (marketHistory stakeRun.history) 1 1 ∧
      valueAt stakedCall.outcomeStakes 1 - total (stakedCall.stakesOn 1) = 100 :=
  have run : (registry home fun _ _ => False).Run stakeRun.history stakeRun.world :=
    stakeRun.run anything_allowed
  have agree := stake_records_agree run (Option.some_get _).symm
  ⟨(agree.2.1 1 (by decide +kernel)).2, by decide +kernel⟩

end Scenario

end Backit.CallRegistry
