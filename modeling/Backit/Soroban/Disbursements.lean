import Backit.Soroban.TokenLaws

/-!
# Several payments of one contract

A contract that makes payments of one token one after the other succeeds when it holds their sum,
and only then if none of them goes to itself. What they leave depends on the sum for each recipient,
so it does not matter in which order they are made, or which of them are made together.
-/

namespace Backit.Soroban

variable {T : Type} [Tokens T]

/-- A contract can pay an amount to anybody exactly when it holds the amount. -/
def ContractsPay (T : Type) [Tokens T] : Prop :=
  ∀ (env : Env) (token recipient : Address) (amount : Int) (t : T),
    (∃ t', Tokens.transfer env token env.contract recipient amount t = some t') ↔
      0 ≤ amount ∧ ∃ held, Tokens.balance t token env.contract = some held ∧ amount ≤ held

/-- The contract makes some payments, each an amount for a recipient, one after the other. -/
def payEach (env : Env) (token : Address) (t : T) (paid : List (Address × Int)) : Option T :=
  paid.foldlM (fun t p => Tokens.transfer env token env.contract p.1 p.2 t) t

/-- The amount of some payments together. -/
def amountOf (paid : List (Address × Int)) : Int := (paid.map Prod.snd).sum

/-- What some payments add to an account's balance of the paid token. -/
def paidDelta (sender : Address) (paid : List (Address × Int)) (who : Address) : Int :=
  (paid.map fun p => transferDelta sender p.1 p.2 who).sum

@[simp] theorem amount_of_nil : amountOf [] = 0 := rfl

@[simp] theorem amount_of_cons (p : Address × Int) (paid : List (Address × Int)) :
    amountOf (p :: paid) = p.2 + amountOf paid := by
  simp [amountOf]

@[simp] theorem amount_of_append (paid more : List (Address × Int)) :
    amountOf (paid ++ more) = amountOf paid + amountOf more := by
  simp [amountOf]

theorem amount_of_perm {paid ordered : List (Address × Int)} (h : ordered.Perm paid) :
    amountOf ordered = amountOf paid :=
  (h.map _).sum_eq

variable {paid : List (Address × Int)} {env : Env} {token : Address}

theorem amount_of_nonneg (h : ∀ p ∈ paid, 0 ≤ p.2) : 0 ≤ amountOf paid := by
  refine List.sum_nonneg fun x hx => ?_
  obtain ⟨p, hp, rfl⟩ := List.mem_map.mp hx
  exact h p hp

theorem transfer_delta_add (sender recipient : Address) (a b : Int) (who : Address) :
    transferDelta sender recipient (a + b) who =
      transferDelta sender recipient a who + transferDelta sender recipient b who := by
  unfold transferDelta
  split_ifs <;> omega

@[simp] theorem transfer_delta_zero (sender recipient who : Address) :
    transferDelta sender recipient 0 who = 0 := by
  simp [transferDelta]

theorem transfer_delta_sender {sender recipient : Address} (h : recipient ≠ sender)
    (amount : Int) : transferDelta sender recipient amount sender = -amount := by
  simp [transferDelta, h.symm]

/-- A contract never loses more than it pays. -/
theorem neg_le_transfer_delta (sender recipient : Address) {amount : Int} (h : 0 ≤ amount) :
    -amount ≤ transferDelta sender recipient amount sender := by
  unfold transferDelta
  split_ifs <;> omega

@[simp] theorem paid_delta_nil (sender who : Address) : paidDelta sender [] who = 0 := rfl

@[simp] theorem paid_delta_cons (sender : Address) (p : Address × Int)
    (paid : List (Address × Int)) (who : Address) :
    paidDelta sender (p :: paid) who =
      transferDelta sender p.1 p.2 who + paidDelta sender paid who := by
  simp [paidDelta]

@[simp] theorem paid_delta_append (sender : Address) (paid more : List (Address × Int))
    (who : Address) :
    paidDelta sender (paid ++ more) who =
      paidDelta sender paid who + paidDelta sender more who := by
  simp [paidDelta]

/-- The order of the payments does not matter for what they add. -/
theorem paid_delta_perm (sender : Address) {paid ordered : List (Address × Int)}
    (h : ordered.Perm paid) (who : Address) :
    paidDelta sender ordered who = paidDelta sender paid who :=
  (h.map _).sum_eq

/-- What a contract pays to others it no longer has. -/
theorem paid_delta_sender {sender : Address}
    (h : ∀ p ∈ paid, p.1 ≠ sender) : paidDelta sender paid sender = -amountOf paid := by
  induction paid with
  | nil => rfl
  | cons p paid ih =>
    rw [paid_delta_cons, transfer_delta_sender (h p (.head _)),
      ih fun q hq => h q (.tail _ hq), amount_of_cons]
    omega

/-- A contract never loses more than the amount of its payments. -/
theorem neg_amount_le_paid_delta (sender : Address)
    (h : ∀ p ∈ paid, 0 ≤ p.2) : -amountOf paid ≤ paidDelta sender paid sender := by
  induction paid with
  | nil => simp
  | cons p rest ih =>
    obtain ⟨hp, hrest⟩ := List.forall_mem_cons.mp h
    have hfirst := neg_le_transfer_delta sender p.1 hp
    have := ih hrest
    rw [amount_of_cons, paid_delta_cons]
    omega

@[simp] theorem pay_each_nil (env : Env) (token : Address) (t : T) :
    payEach env token t [] = some t := rfl

theorem pay_each_cons {t t' : T} {p : Address × Int} : payEach env token t (p :: paid) = some t' ↔
      ∃ t₁, Tokens.transfer env token env.contract p.1 p.2 t = some t₁ ∧
        payEach env token t₁ paid = some t' := by
  simp [payEach, List.foldlM_cons, Option.bind_eq_some_iff]

theorem pay_each_append {t t' : T} {paid more : List (Address × Int)} :
    payEach env token t (paid ++ more) = some t' ↔
      ∃ t₁, payEach env token t paid = some t₁ ∧ payEach env token t₁ more = some t' := by
  simp [payEach, List.foldlM_append, Option.bind_eq_some_iff]

/-- The balances that payments leave, by induction on the payments. -/
theorem ExactTransfers.pay_each (hexact : ExactTransfers T)
    {t t' : T} (h : payEach env token t paid = some t') (other who : Address) :
    Tokens.balance t' other who = (Tokens.balance t other who).map (· +
      if other = token then paidDelta env.contract paid who else 0) := by
  induction paid generalizing t with
  | nil =>
    rw [pay_each_nil, Option.some.injEq] at h
    subst h
    simp
  | cons p paid ih =>
    obtain ⟨t₁, hfirst, hrest⟩ := pay_each_cons.mp h
    rw [ih hrest, hexact hfirst, Option.map_map]
    refine congrArg (Option.map · _) (funext fun held => ?_)
    simp only [Function.comp_apply, paid_delta_cons]
    split_ifs <;> omega

/-- A contract that holds the amount of some payments can make them. -/
theorem ContractsPay.pay_each (hpay : ContractsPay T) (hexact : ExactTransfers T) {t : T}
    {held : Int}
    (hnonneg : ∀ p ∈ paid, 0 ≤ p.2) (hheld : Tokens.balance t token env.contract = some held)
    (hle : amountOf paid ≤ held) : ∃ t', payEach env token t paid = some t' := by
  induction paid generalizing t held with
  | nil => exact ⟨t, rfl⟩
  | cons p paid ih =>
    have hfirst := hnonneg p (.head _)
    have hothers := amount_of_nonneg fun q hq => hnonneg q (.tail _ hq)
    rw [amount_of_cons] at hle
    obtain ⟨t₁, htransfer⟩ := (hpay env token p.1 p.2 t).mpr ⟨hfirst, held, hheld, by omega⟩
    have hleft : Tokens.balance t₁ token env.contract =
        some (held + transferDelta env.contract p.1 p.2 env.contract) := by
      rw [hexact htransfer, hheld, if_pos rfl]
      rfl
    have hloss := neg_le_transfer_delta env.contract p.1 hfirst
    obtain ⟨t', hrest⟩ := ih (fun q hq => hnonneg q (.tail _ hq)) hleft (by omega)
    exact ⟨t', pay_each_cons.mpr ⟨t₁, htransfer, hrest⟩⟩

/-- A contract that made payments to others held their amount. -/
theorem ContractsPay.held_of_pay_each (hpay : ContractsPay T) (hexact : ExactTransfers T) {t t' : T}
    (h : payEach env token t paid = some t') (hsome : paid ≠ [])
    (hothers : ∀ p ∈ paid, p.1 ≠ env.contract) :
    (∀ p ∈ paid, 0 ≤ p.2) ∧
      ∃ held, Tokens.balance t token env.contract = some held ∧ amountOf paid ≤ held := by
  induction paid generalizing t with
  | nil => exact absurd rfl hsome
  | cons p paid ih =>
    obtain ⟨t₁, hfirst, hrest⟩ := pay_each_cons.mp h
    obtain ⟨hnonneg, held, hheld, hle⟩ := (hpay env token p.1 p.2 t).mp ⟨t₁, hfirst⟩
    have hleft : Tokens.balance t₁ token env.contract = some (held - p.2) := by
      rw [hexact hfirst, hheld, if_pos rfl, transfer_delta_sender (hothers p (.head _))]
      rfl
    by_cases hlast : paid = []
    · subst hlast
      refine ⟨?_, held, hheld, by simpa using hle⟩
      simpa using hnonneg
    · obtain ⟨hnonneg', held', hheld', hle'⟩ :=
        ih hrest hlast fun q hq => hothers q (.tail _ hq)
      obtain rfl : held - p.2 = held' := Option.some.inj (hleft.symm.trans hheld')
      refine ⟨?_, held, hheld, ?_⟩
      · intro q hq
        rcases List.mem_cons.mp hq with rfl | hq
        · exact hnonneg
        · exact hnonneg' q hq
      · rw [amount_of_cons]
        omega

/-- The standard tokens let contracts pay what they hold. -/
theorem StandardLedger.contracts_pay : ContractsPay StandardLedger := by
  intro env token recipient amount l
  simp only [Tokens.transfer, Tokens.balance, Option.some.injEq, exists_eq_left', or_true,
    and_true, Option.bind_eq_bind]
  constructor
  · rintro ⟨l', h⟩
    split at h
    · next hnonneg =>
      obtain ⟨debited, hdebit, -⟩ := Option.bind_eq_some_iff.mp h
      simp only [credit] at hdebit
      split at hdebit
      · next hheld => exact ⟨hnonneg, by omega⟩
      · cases hdebit
    · cases h
  · rintro ⟨hnonneg, hle⟩
    rw [if_pos hnonneg]
    obtain ⟨debited, hdebit⟩ := credit_isSome l token env.contract
      (show 0 ≤ Lib.valueAt (l.holdings token).amounts env.contract + -amount by omega)
    have hreceives : 0 ≤ Lib.valueAt (debited.holdings token).amounts recipient + amount := by
      have := (debited.holdings token).nonneg recipient
      omega
    obtain ⟨credited, hcredit⟩ := credit_isSome debited token recipient hreceives
    exact ⟨credited, by rw [hdebit]; exact hcredit⟩

end Backit.Soroban
