import Backit.OutcomeManager.Executions

/-!
# The ids of claimable balances

A claim hashes the call and the staker's address into the id of the balance it creates; a batch
hashes the call and the index of the entry in the batch. The ids of two stakers whom different
batches pay at one index are therefore the same. Without such batches an id is that of its call and
staker, whichever entry point stored it, and no two are equal.
-/

namespace Backit.OutcomeManager

open Soroban Contract Lib Shared

/-- A balance that an operation creates: its call, its staker, and the bytes that tell it apart from
the other balances of the call. -/
abbrev Balance := (Nat × Address) × Bytes

/-- What is hashed for the id of a balance. -/
def balanceMessage (callId : Nat) (suffix : Bytes) : Bytes :=
  ascii ['c', 'l', 'a', 'i', 'm', 'b', 'a', 'l', ':'] ++ beBytes 8 callId ++ suffix

/-- The message determines the call and the bytes that tell its balances apart. -/
theorem balance_message_injective {c c' : Nat} {suffix suffix' : Bytes} (hc : c < 2 ^ 64)
    (hc' : c' < 2 ^ 64) (h : balanceMessage c suffix = balanceMessage c' suffix') :
    c = c' ∧ suffix = suffix' := by
  obtain ⟨hcall, hsuffix⟩ := List.append_inj h (by simp)
  have hbytes := (List.append_inj hcall rfl).2
  exact ⟨beBytes_injective (by simpa using hc) (by simpa using hc') hbytes, hsuffix⟩

/-- The balances of the entries of a batch, from an index on. -/
def batchBalances (callId : Nat) : Nat → List (Address × Int) → List Balance
  | _, [] => []
  | i, (staker, _) :: rest => ((callId, staker), beBytes 8 i) :: batchBalances callId (i + 1) rest

section Ids

variable [Crypto] [Network]

/-- The id of a balance. -/
def Balance.id (b : Balance) : BytesN 32 := balanceId b.1.1 b.2

/-- The ids after those of some balances have been stored, in order. -/
def storeIds : List Balance → (Nat × Address → Option (BytesN 32)) →
    Nat × Address → Option (BytesN 32)
  | [], ids => ids
  | b :: rest, ids => storeIds rest (Function.update ids b.1 (some (Balance.id b)))

omit [Network] in
/-- An id is that of a stored balance, or it was there before. -/
theorem store_ids_eq_some {balances : List Balance} (hdistinct : (balances.map (·.1)).Nodup)
    {ids : Nat × Address → Option (BytesN 32)} {key : Nat × Address} {id : BytesN 32} :
    storeIds balances ids key = some id ↔
      (∃ b ∈ balances, b.1 = key ∧ Balance.id b = id) ∨
        key ∉ balances.map (·.1) ∧ ids key = some id := by
  induction balances generalizing ids with
  | nil => simp [storeIds]
  | cons b rest ih =>
    obtain ⟨hfresh, hrest⟩ := List.nodup_cons.mp hdistinct
    rw [storeIds, ih hrest]
    by_cases hkey : key = b.1
    · subst hkey
      have hnone : ¬ ∃ later ∈ rest, later.1 = b.1 ∧ Balance.id later = id := by
        rintro ⟨later, hmem, heq, -⟩
        exact hfresh (List.mem_map.mpr ⟨later, hmem, heq⟩)
      simp only [Function.update_self, List.map_cons, List.mem_cons, not_true_eq_false,
        false_and, or_false, Option.some.injEq, hfresh, not_false_eq_true, true_and, hnone,
        false_or]
      constructor
      · intro heq
        exact ⟨b, .inl rfl, rfl, heq⟩
      · rintro ⟨later, rfl | hmem, heq, hid⟩
        · exact hid
        · exact absurd ⟨later, hmem, heq, hid⟩ hnone
    · rw [Function.update_of_ne hkey, List.map_cons, List.mem_cons, not_or]
      constructor
      · rintro (⟨later, hmem, heq, hid⟩ | ⟨hrest, hid⟩)
        · exact .inl ⟨later, .tail _ hmem, heq, hid⟩
        · exact .inr ⟨⟨hkey, hrest⟩, hid⟩
      · rintro (⟨later, hmem, heq, hid⟩ | ⟨⟨-, hrest⟩, hid⟩)
        · rcases List.mem_cons.mp hmem with rfl | hmem
          · exact absurd heq.symm hkey
          · exact .inl ⟨later, hmem, heq, hid⟩
        · exact .inr ⟨hrest, hid⟩

/-- The balances that an operation creates. -/
def PayoutOp.created : PayoutOp → List Balance
  | .claimPayout _ callId staker _ _ _ => [((callId, staker), Network.addressXdr staker)]
  | .claimPayoutForMarket callId staker _ _ _ => [((callId, staker), Network.addressXdr staker)]
  | .claimPayoutNoRelease callId staker _ _ _ => [((callId, staker), Network.addressXdr staker)]
  | .batchCreateClaimableBalances _ callId stakers stakes _ _ =>
    batchBalances callId 0 (stakers.zip stakes)
  | .batchClaimPayouts _ _ _ _ _ _ => []
  | .claimOnBehalf _ _ _ _ _ _ _ => []
  | .setRecoveryAddress _ _ => []
  | .removeRecoveryAddress _ => []
  | .markSettled _ _ => []

end Ids

section Specs

variable {R : Type} [Registries R] [Crypto] [Network] {env : Env} {f f' : Frame Storage R Act}
  {u : Unit}

/-- The ids in a frame. -/
abbrev Frame.ids (f : Frame Storage R Act) : Nat × Address → Option (BytesN 32) :=
  f.store.payouts.claimableBalanceId

variable {registry : Address}

omit [Crypto] [Network] in
theorem release_fee_keeps {callId : Nat} {feeCollector : Address} {feeShare : Int}
    (h : run (releaseFee registry callId feeCollector feeShare : Manager R Unit) env f =
      .ok (u, f')) : f'.store = f.store := by
  obtain ⟨others, -, rfl⟩ := run_releaseFee h
  rfl

theorem claim_payout_ids {callId : Nat} {staker : Address} {stake winning losing : Int}
    (h : run (claimPayout registry callId staker stake winning losing : Manager R Unit) env f =
      .ok (u, f')) :
    Frame.ids f' = storeIds [((callId, staker), Network.addressXdr staker)] (Frame.ids f) := by
  simp only [claimPayout, run_rejectIfPaused_bind, run_steps, run_requireCallSettled_bind,
    run_rejectIfClaimed_bind, run_quote_bind] at h
  obtain ⟨-, -, -, -, q, -, -, h⟩ := h
  rw [run_bind] at h
  obtain ⟨_, f₁, hfee, h⟩ := h
  simp only [registryReleaseEscrow, run_callOut_bind, run_announce_bind, run_announce] at h
  obtain ⟨others, -, rfl⟩ := h
  show f₁.store.payouts.claimableBalanceId = _
  rw [release_fee_keeps hfee]
  rfl

omit [Network] in
/-- The loop of a batch stores the ids of its entries, if it creates balances. -/
theorem pay_batch_ids {balances : Bool} {callId : Nat}
    {winning fee net : Int} {entries : List (Address × Int)} {i : Nat} {aggregated total : Int}
    (h : run (payBatch balances registry callId winning fee net i entries aggregated :
      Manager R Int) env f = .ok (total, f')) :
    Frame.ids f' = storeIds (if balances then batchBalances callId i entries else [])
      (Frame.ids f) := by
  induction entries generalizing i aggregated f with
  | nil =>
    cases h
    cases balances <;> rfl
  | cons entry rest ih =>
    obtain ⟨staker, stake⟩ := entry
    simp only [payBatch, run_steps, run_rejectIfClaimed_bind, registryReleaseEscrow,
      run_callOut_bind] at h
    obtain ⟨-, -, parts, -, _, -, others, -, h⟩ := h
    cases balances
    all_goals
      simp only [Bool.false_eq_true, if_true, if_false, run_announce_bind] at h
      rw [ih h]
      rfl

omit [Network] in
theorem batch_ids {balances : Bool} {callId : Nat}
    {stakers : List Address} {stakes : List Int} {winning losing : Int}
    (h : run (batch balances registry callId stakers stakes winning losing : Manager R Unit) env f =
      .ok (u, f')) :
    Frame.ids f' = storeIds (if balances then batchBalances callId 0 (stakers.zip stakes) else [])
      (Frame.ids f) := by
  simp only [batch, getFeeConfig, netTerms, Contract.bind_assoc, run_requireAdmin_bind,
    run_requireCallSettled_bind, run_steps, run_announce_bind] at h
  obtain ⟨_, -, -, -, -, -, -, _, -, _, -, _, -, h⟩ := h
  rw [run_bind] at h
  obtain ⟨total, f₁, hloop, h⟩ := h
  have hids := pay_batch_ids hloop
  show f'.store.payouts.claimableBalanceId = _
  rw [release_fee_keeps h]
  exact hids

/-- An operation on the payouts stores the ids of the balances it creates, and no others. -/
theorem PayoutOp.stores {op : PayoutOp}
    (h : run (op.perform : Manager R Unit) env f = .ok (u, f')) :
    Frame.ids f' = storeIds op.created (Frame.ids f) := by
  cases op with
  | claimPayout => exact claim_payout_ids h
  | claimPayoutForMarket callId staker stake winning losing =>
    rw [PayoutOp.perform, OutcomeManager.claimPayoutForMarket, run_bind] at h
    obtain ⟨registry, f₁, hresolve, h⟩ := h
    obtain ⟨rfl, -⟩ := run_resolveMarketAddress hresolve
    exact claim_payout_ids h
  | claimPayoutNoRelease callId staker stake winning losing =>
    simp only [PayoutOp.perform, OutcomeManager.claimPayoutNoRelease, run_rejectIfPaused_bind,
      run_steps, run_requireCallSettled_bind, run_rejectIfClaimed_bind, run_quote_bind] at h
    obtain ⟨-, -, -, -, q, -, -, h⟩ := h
    split at h
    all_goals
      simp only [run_announce_bind, run_announce] at h
      rw [h]
      rfl
  | setRecoveryAddress user recoveryAddress =>
    simp only [PayoutOp.perform, OutcomeManager.setRecoveryAddress, run_steps, run_announce] at h
    rw [h.2]
    rfl
  | removeRecoveryAddress user =>
    simp only [PayoutOp.perform, OutcomeManager.removeRecoveryAddress, run_steps, run_announce] at h
    rw [h.2]
    rfl
  | claimOnBehalf registry callId agent winner stake winning losing =>
    simp only [PayoutOp.perform, OutcomeManager.claimOnBehalf, run_rejectIfPaused_bind, run_steps,
      run_requireCallSettled_bind, run_rejectIfClaimed_bind, run_quote_bind] at h
    obtain ⟨-, -, -, -, -, -, q, -, -, h⟩ := h
    rw [run_bind] at h
    obtain ⟨_, f₁, hfee, h⟩ := h
    simp only [registryReleaseEscrow, run_callOut_bind, run_announce] at h
    obtain ⟨others, -, rfl⟩ := h
    show f₁.store.payouts.claimableBalanceId = _
    rw [release_fee_keeps hfee]
    rfl
  | batchCreateClaimableBalances => exact batch_ids h
  | batchClaimPayouts => exact batch_ids h
  | markSettled registry callId =>
    simp only [PayoutOp.perform, OutcomeManager.markSettled, run_requireAdmin_bind, run_steps,
      registryMarkSettled, run_callOut] at h
    obtain ⟨admin, -, -, -, others, -, rfl⟩ := h
    rfl

end Specs

section Runs

variable {R : Type} [Registries R] [Crypto] [Network] {self : Address} {outside : R → R → Prop}
  {guard : System.Guard (World R) Label} {history : List Label} {w w' : World R} {l : Label}

omit [Crypto] in
/-- The balances that a step creates. -/
def Label.created (l : Label) : List Balance :=
  match l.onPayout with
  | some (_, op) => op.created
  | none => []

omit [Crypto] in
/-- The balances that the steps of a run created. -/
def created (history : List Label) : List Balance := history.flatMap Label.created

omit [Crypto] in
theorem created_cons (l : Label) (history : List Label) :
    created (l :: history) = l.created ++ created history := rfl

theorem WorldStep.stores (h : WorldStep self outside w l w') : w'.store.payouts.claimableBalanceId =
      storeIds l.created w.store.payouts.claimableBalanceId := by
  cases h with
  | lapsed => rfl
  | elsewhere => rfl
  | @invoked env action f _ _ _ hrun =>
    cases action with
    | settings op =>
      obtain ⟨c, -, rfl⟩ := run_onSettings.mp hrun
      rfl
    | report op =>
      obtain ⟨t, others, effects, -, rfl⟩ := ReportOp.steps hrun
      rfl
    | payout op => exact PayoutOp.stores hrun

omit [Crypto] [Network] [Registries R] in
theorem batch_balances_keys {callId i : Nat} {entries : List (Address × Int)} :
    (batchBalances callId i entries).map (·.1) = entries.map fun entry => (callId, entry.1) := by
  induction entries generalizing i with
  | nil => rfl
  | cons entry rest ih => simp [batchBalances, ih]

/-- Balances for distinct winners who were not paid before and are paid now. -/
structure NewlyPaid (balances : List Balance) (p p' : Payouts) : Prop where
  distinct : (balances.map (·.1)).Nodup
  unpaid : ∀ key ∈ balances.map (·.1), p.claimed key = false
  paid : ∀ key ∈ balances.map (·.1), p'.claimed key = true
  kept : ∀ key, p.claimed key = true → p'.claimed key = true

variable {p p' : Payouts} {payments : List Payment}

omit [Crypto] [Network] [Registries R] in
theorem NewlyPaid.nothing
    (kept : ∀ key, p.claimed key = true → p'.claimed key = true) : NewlyPaid [] p p' :=
  ⟨.nil, by simp, by simp, kept⟩

omit [Crypto] [Network] [Registries R] in
theorem Paid.newly {s : Settings} {t : Tally} {callId : Nat} {winning losing : Int}
    {balances : List Balance} (h : Paid s t callId winning losing p payments p')
    (hkeys : balances.map (·.1) = payments.map fun x => (callId, x.winner)) :
    NewlyPaid balances p p' where
  distinct := by
    have hmap : payments.map (fun x => (callId, x.winner)) =
        (payments.map (·.winner)).map (Prod.mk callId) := by simp
    rw [hkeys, hmap]
    exact h.distinct.map (Prod.mk_right_injective callId)
  unpaid key hkey := by
    rw [hkeys] at hkey
    obtain ⟨x, hx, rfl⟩ := List.mem_map.mp hkey
    exact h.unpaid x hx
  paid key hkey := by
    rw [hkeys] at hkey
    obtain ⟨x, hx, rfl⟩ := List.mem_map.mp hkey
    exact (h.marked _).mpr (.inr ⟨rfl, List.mem_map_of_mem hx⟩)
  kept key hkey := (h.marked key).mpr (.inl hkey)

omit [Crypto] [Network] [Registries R] in
theorem Paid.kept {s : Settings} {t : Tally} {callId : Nat} {winning losing : Int}
    (h : Paid s t callId winning losing p payments p') :
    NewlyPaid [] p p' :=
  .nothing fun key hkey => (h.marked key).mpr (.inl hkey)

/-- The winners whom an operation creates balances for are distinct, and paid by it first. -/
theorem PayoutStep.newly {env : Env} {s : Settings} {t : Tally} {op : PayoutOp}
    {others others' : R} {effects : List (Effect Act)}
    (h : PayoutStep env s t op p others payments effects p' others') :
    NewlyPaid op.created p p' := by
  cases h with
  | claimPayout hfrom _ _ _ _ hpaid _ =>
    cases hfrom with
    | direct => exact hpaid.newly rfl
    | forMarket => exact hpaid.newly rfl
  | claimPayoutNoRelease _ _ _ _ hpaid => exact hpaid.newly rfl
  | claimOnBehalf _ _ _ _ _ hpaid _ => exact hpaid.kept
  | @batch _ _ _ callId _ _ _ _ _ _ payments _ _ _ _ hbatch _ _ _ _ hfor _ hpaid _ =>
    cases hbatch with
    | create =>
      refine hpaid.newly ?_
      rw [PayoutOp.created, batch_balances_keys, ← hfor.1, List.map_map]
      rfl
    | claim => exact hpaid.kept
  | setRecoveryAddress => exact .nothing fun _ hkey => hkey
  | removeRecoveryAddress => exact .nothing fun _ hkey => hkey
  | markSettled => exact .nothing fun _ hkey => hkey

theorem WorldStep.newly (h : WorldStep self outside w l w') :
    NewlyPaid l.created w.store.payouts w'.store.payouts := by
  cases h.moves with
  | payout _ _ _ hpayout => exact hpayout.newly
  | settings => exact .nothing fun _ hkey => hkey
  | report => exact .nothing fun _ hkey => hkey
  | lapsed => exact .nothing fun _ hkey => hkey
  | elsewhere => exact .nothing fun _ hkey => hkey

/-- The stored ids are those of the balances that a run created, one for each paid winner. -/
structure IdsKept (history : List Label) (p : Payouts) : Prop where
  distinct : ((created history).map (·.1)).Nodup
  paid : ∀ b ∈ created history, p.claimed b.1 = true
  stored : ∀ key id, p.claimableBalanceId key = some id ↔
    ∃ b ∈ created history, b.1 = key ∧ Balance.id b = id

theorem ids_kept_of_run (run : (manager self outside).RunWhere guard history w) :
    IdsKept history w.store.payouts := by
  refine run.invariant (I := fun h w => IdsKept h w.store.payouts) ?_ ?_
  · intro s hs
    rw [show s.store = Storage.empty from hs]
    exact ⟨.nil, by simp [created], by simp [created, Storage.empty]⟩
  · intro h s l s' _ ih hstep _
    have hnewly := WorldStep.newly hstep
    have hstored := WorldStep.stores hstep
    refine ⟨?_, ?_, ?_⟩
    · rw [created_cons, List.map_append]
      refine List.Nodup.append hnewly.distinct ih.distinct fun key hnew hold => ?_
      obtain ⟨b, hb, rfl⟩ := List.mem_map.mp hold
      have hunpaid := hnewly.unpaid b.1 hnew
      rw [ih.paid b hb] at hunpaid
      cases hunpaid
    · intro b hb
      rw [created_cons, List.mem_append] at hb
      rcases hb with hnew | hold
      · exact hnewly.paid b.1 (List.mem_map_of_mem hnew)
      · exact hnewly.kept b.1 (ih.paid b hold)
    · intro key id
      rw [hstored, store_ids_eq_some hnewly.distinct, ih.stored, created_cons]
      simp only [List.mem_append]
      constructor
      · rintro (⟨b, hb, hid⟩ | ⟨-, b, hb, hid⟩)
        · exact ⟨b, .inl hb, hid⟩
        · exact ⟨b, .inr hb, hid⟩
      · rintro ⟨b, hnew | hold, hkey, hid⟩
        · exact .inl ⟨b, hnew, hkey, hid⟩
        · refine .inr ⟨fun hmem => ?_, b, hold, hkey, hid⟩
          have hunpaid := hnewly.unpaid key hmem
          rw [← hkey, ih.paid b hold] at hunpaid
          cases hunpaid

/-- The messages that the ids of a run's balances are the digests of, as the run hashed them and as
a claim by the staker would. -/
def balanceMessages (history : List Label) : List Bytes :=
  (created history).flatMap fun b =>
    [balanceMessage b.1.1 b.2, balanceMessage b.1.1 (Network.addressXdr b.1.2)]

/-- What the ids of a run rest on: its call ids are 64-bit integers, the encodings of its stakers
are distinct and none is as short as an index, and SHA-256 has no collision on its messages. -/
structure HostEncodes (history : List Label) : Prop where
  call_lt : ∀ b ∈ created history, b.1.1 < 2 ^ 64
  address_inj : ∀ b ∈ created history, ∀ b' ∈ created history,
    Network.addressXdr b.1.2 = Network.addressXdr b'.1.2 → b.1.2 = b'.1.2
  address_wide : ∀ b ∈ created history, (Network.addressXdr b.1.2).length ≠ 8
  sha256_inj : ∀ m ∈ balanceMessages history, ∀ m' ∈ balanceMessages history,
    Crypto.sha256 m = Crypto.sha256 m' → m = m'

/-- The stored ids of two different calls and stakers are different. -/
def IdsDistinct (p : Payouts) : Prop :=
  ∀ key key' id, p.claimableBalanceId key = some id → p.claimableBalanceId key' = some id →
    key = key'

/-- A stored id is the one that a claim by the staker stores. -/
def IdsAlike (p : Payouts) : Prop :=
  ∀ callId staker id, p.claimableBalanceId (callId, staker) = some id →
    id = balanceId callId (Network.addressXdr staker)

/-- The operation is a batch that creates claimable balances. -/
def PayoutOp.CreatesBatch : PayoutOp → Prop
  | .batchCreateClaimableBalances _ _ _ _ _ _ => True
  | _ => False

instance PayoutOp.CreatesBatch.decidable : (op : PayoutOp) → Decidable op.CreatesBatch
  | .batchCreateClaimableBalances _ _ _ _ _ _ => inferInstanceAs (Decidable True)
  | .claimPayout _ _ _ _ _ _ => inferInstanceAs (Decidable False)
  | .claimPayoutForMarket _ _ _ _ _ => inferInstanceAs (Decidable False)
  | .claimPayoutNoRelease _ _ _ _ _ => inferInstanceAs (Decidable False)
  | .setRecoveryAddress _ _ => inferInstanceAs (Decidable False)
  | .removeRecoveryAddress _ => inferInstanceAs (Decidable False)
  | .claimOnBehalf _ _ _ _ _ _ _ => inferInstanceAs (Decidable False)
  | .batchClaimPayouts _ _ _ _ _ _ => inferInstanceAs (Decidable False)
  | .markSettled _ _ => inferInstanceAs (Decidable False)

/-- No batch creates claimable balances. -/
abbrev noBatches : System.Guard (World R) Label := fun _ _ l =>
  ∀ r ∈ l.onPayout, ¬ r.2.CreatesBatch

omit [Crypto] [Registries R] in
/-- The balance of a single claim is told apart by its staker. -/
theorem PayoutOp.created_alike {op : PayoutOp} (h : ¬ op.CreatesBatch) :
    ∀ b ∈ op.created, b.2 = Network.addressXdr b.1.2 := by
  cases op with
  | claimPayout | claimPayoutForMarket | claimPayoutNoRelease => simp [PayoutOp.created]
  | batchCreateClaimableBalances => exact absurd trivial h
  | setRecoveryAddress | removeRecoveryAddress | claimOnBehalf | batchClaimPayouts | markSettled =>
    simp [PayoutOp.created]

theorem WorldStep.batch_creates (h : WorldStep self outside w l w') {r : Env × PayoutOp}
    (hr : r ∈ l.onPayout) (hbatch : r.2.CreatesBatch) : ∃ b ∈ l.created, b.2.length = 8 := by
  cases h.moves with
  | settings => cases hr
  | report => cases hr
  | lapsed => cases hr
  | elsewhere => cases hr
  | payout _ _ _ hpayout =>
    cases hr
    cases hpayout with
    | claimPayout hfrom => cases hfrom <;> cases hbatch
    | claimPayoutNoRelease => cases hbatch
    | claimOnBehalf => cases hbatch
    | setRecoveryAddress => cases hbatch
    | removeRecoveryAddress => cases hbatch
    | markSettled => cases hbatch
    | @batch _ _ _ callId stakers stakes _ _ _ _ _ _ _ _ _ hkind _ _ hsome _ hfor _ _ _ =>
      cases hkind with
      | claim => cases hbatch
      | create =>
        cases hentries : stakers.zip stakes with
        | nil =>
          rw [ForStakers, hentries, List.map_eq_nil_iff] at hfor
          exact absurd hfor.1 hsome
        | cons entry rest =>
          refine ⟨((callId, entry.1), beBytes 8 0), ?_, length_beBytes 8 0⟩
          show _ ∈ batchBalances callId 0 (stakers.zip stakes)
          rw [hentries]
          exact .head _

/-- Without batches every balance is told apart by its staker. -/
theorem created_alike_of_run (run : (manager self outside).RunWhere noBatches history w) :
    ∀ b ∈ created history, b.2 = Network.addressXdr b.1.2 := by
  refine run.invariant (I := fun h _ => ∀ b ∈ created h, b.2 = Network.addressXdr b.1.2) ?_ ?_
  · intro s _ b hb
    cases hb
  · intro h s l s' _ ih _ hguard b hb
    rw [created_cons, List.mem_append] at hb
    rcases hb with hnew | hold
    · cases hop : l.onPayout with
      | none =>
        rw [Label.created, hop] at hnew
        cases hnew
      | some r =>
        rw [Label.created, hop] at hnew
        exact PayoutOp.created_alike (hguard r hop) b hnew
    · exact ih b hold

/-- If every balance is told apart by its staker, and no staker's encoding is as short as an index,
then there was no batch. -/
theorem no_batches_of_created (run : (manager self outside).Run history w)
    (hcreated : ∀ b ∈ created history, b.2 = Network.addressXdr b.1.2)
    (hwide : ∀ b ∈ created history, (Network.addressXdr b.1.2).length ≠ 8) :
    (manager self outside).RunWhere noBatches history w := by
  have hlong : ∀ b ∈ created history, b.2.length ≠ 8 := by
    intro b hb
    rw [hcreated b hb]
    exact hwide b hb
  refine run.invariant (I := fun h w => (∀ b ∈ created h, b.2.length ≠ 8) →
    (manager self outside).RunWhere noBatches h w) ?_ ?_ hlong
  · exact fun s hs _ => .start hs
  · intro h s l s' _ ih hstep _ hlong
    refine (ih fun b hb => hlong b (List.mem_append.mpr (.inr hb))).tail hstep ?_
    intro r hr hbatch
    obtain ⟨b, hb, hshort⟩ := WorldStep.batch_creates hstep hr hbatch
    exact hlong b (List.mem_append.mpr (.inl hb)) hshort

/-- The stored ids are unique to their call and staker, and the same whichever entry point stored
them, exactly in the runs without a batch that creates claimable balances. -/
theorem balance_ids_unique_iff (run : (manager self outside).Run history w)
    (hhost : HostEncodes history) :
    IdsDistinct w.store.payouts ∧ IdsAlike w.store.payouts ↔
      (manager self outside).RunWhere noBatches history w := by
  have hkept := ids_kept_of_run run
  constructor
  · rintro ⟨-, halike⟩
    -- Each id is the digest of both messages, so the run hashed the one of a claim.
    have hcreated : ∀ b ∈ created history, b.2 = Network.addressXdr b.1.2 := by
      intro b hb
      have hid := halike b.1.1 b.1.2 (Balance.id b) ((hkept.stored _ _).mpr ⟨b, hb, rfl, rfl⟩)
      have hmessages : ∀ m ∈ [balanceMessage b.1.1 b.2,
          balanceMessage b.1.1 (Network.addressXdr b.1.2)], m ∈ balanceMessages history :=
        fun m hm => List.mem_flatMap.mpr ⟨b, hb, hm⟩
      have hmessage := hhost.sha256_inj _ (hmessages _ (.head _)) _
        (hmessages _ (.tail _ (.head _))) hid
      exact (balance_message_injective (hhost.call_lt b hb) (hhost.call_lt b hb) hmessage).2
    exact no_batches_of_created run hcreated hhost.address_wide
  · intro hrun
    have hcreated := created_alike_of_run hrun
    refine ⟨fun key key' id hkey hkey' => ?_, fun callId staker id hid => ?_⟩
    · obtain ⟨b, hb, rfl, rfl⟩ := (hkept.stored _ _).mp hkey
      obtain ⟨b', hb', rfl, hid⟩ := (hkept.stored _ _).mp hkey'
      have hmessage := hhost.sha256_inj _ (List.mem_flatMap.mpr ⟨b, hb, .head _⟩) _
        (List.mem_flatMap.mpr ⟨b', hb', .head _⟩) hid.symm
      obtain ⟨hcall, hsuffix⟩ :=
        balance_message_injective (hhost.call_lt b hb) (hhost.call_lt b' hb') hmessage
      rw [hcreated b hb, hcreated b' hb'] at hsuffix
      exact Prod.ext hcall (hhost.address_inj b hb b' hb' hsuffix)
    · obtain ⟨b, hb, hkey, rfl⟩ := (hkept.stored _ _).mp hid
      rw [Balance.id, hcreated b hb, hkey]

end Runs

section Scenario

attribute [local instance] scenarioCrypto testNetwork

/-- Both oracles report call 1, and then some payouts are made. -/
def decidedThen (payouts : List Input) : List Input :=
  [opening, submits 1001 oracleA signatureA, submits 1002 oracleB signatureB] ++ payouts

/-- Two stakers claim, each through an entry point of its own. -/
def claimsScript : List Input :=
  decidedThen
    [at_ 1003 [⟨1⟩] (.payout (.claimPayout marketAddress 1 ⟨1⟩ 100 200 50)),
      at_ 1004 [⟨2⟩] (.payout (.claimPayoutNoRelease 1 ⟨2⟩ 100 200 50))]

/-- The same stakers are paid by two batches of one. -/
def batchesScript : List Input :=
  decidedThen
    [at_ 1003 [adminAddress]
        (.payout (.batchCreateClaimableBalances marketAddress 1 [⟨1⟩] [100] 200 50)),
      at_ 1004 [adminAddress]
        (.payout (.batchCreateClaimableBalances marketAddress 1 [⟨2⟩] [100] 200 50))]

def claimsRun : Replayed (fun _ _ l => decide (∀ r ∈ l.onPayout, ¬ r.2.CreatesBatch)) :=
  .of freshWorld fresh_world_initial claimsScript (by decide +kernel)

def batchesRun : Replayed System.anything :=
  .of freshWorld fresh_world_initial batchesScript (by decide +kernel)

theorem claims_host_encodes : HostEncodes claimsRun.history where
  call_lt := by decide +kernel
  address_inj := by decide +kernel
  address_wide := by decide +kernel
  sha256_inj := by decide +kernel

/-- The ids of two claims are distinct. -/
theorem claims_ids_unique :
    IdsDistinct claimsRun.state.store.payouts ∧ IdsAlike claimsRun.state.store.payouts ∧
      (claimsRun.state.store.payouts.claimableBalanceId (1, ⟨2⟩)).isSome = true := by
  have guarded : (manager home fun _ (_ : WillingRegistries) => False).RunWhere noBatches
      claimsRun.history claimsRun.state :=
    claimsRun.run World.next_step fun _ _ _ h => of_decide_eq_true h
  obtain ⟨hdistinct, halike⟩ := (balance_ids_unique_iff guarded.run claims_host_encodes).mpr guarded
  exact ⟨hdistinct, halike, by decide +kernel⟩

/-- Two batches give two stakers of a call the same id. -/
theorem batches_share_id :
    (manager home fun _ (_ : WillingRegistries) => False).Run batchesRun.history
        batchesRun.state ∧
      (∃ id, batchesRun.state.store.payouts.claimableBalanceId (1, ⟨1⟩) = some id ∧
        batchesRun.state.store.payouts.claimableBalanceId (1, ⟨2⟩) = some id) ∧
      ¬ IdsDistinct batchesRun.state.store.payouts := by
  have hsame : batchesRun.state.store.payouts.claimableBalanceId (1, ⟨1⟩) =
      batchesRun.state.store.payouts.claimableBalanceId (1, ⟨2⟩) := by decide +kernel
  have hsome : (batchesRun.state.store.payouts.claimableBalanceId (1, ⟨2⟩)).isSome = true := by
    decide +kernel
  obtain ⟨id, hid⟩ := Option.isSome_iff_exists.mp hsome
  refine ⟨batchesRun.run World.next_step System.anything_allowed, ⟨id, hsame.trans hid, hid⟩,
    fun hdistinct => ?_⟩
  exact absurd (hdistinct _ _ id (hsame.trans hid) hid) (by decide)

end Scenario

end Backit.OutcomeManager
