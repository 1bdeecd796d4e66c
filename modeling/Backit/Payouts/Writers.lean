import Backit.Lib.Transition
import Backit.Payouts.Claims

/-!
# Writers of payout claims

An operation reads the row of a call and a staker, and later saves a changed copy of what it has
read. No operation looks at the status of the row, so what has been claimed stays so exactly when
the copies that are saved over it say the same.
-/

namespace Backit.Payouts

open Lib

/-- A claim that is pending again, with an amount. -/
def PayoutClaim.reset (amount : String) (claim : PayoutClaim) : PayoutClaim :=
  { claim with amount := amount, status := .pending }

def PayoutClaim.fail (claim : PayoutClaim) : PayoutClaim := { claim with status := .failed }

/-- What the writers do to a row. -/
inductive Operation where
  | upsertPendingClaim (amount : String)
  | markClaimed (txHash : String) (claimedAt : Nat)
  | markFailed
  deriving DecidableEq

/-- The copy that an operation saves of what it has read. -/
def Operation.copy (existing : Option PayoutClaim) : Operation → PayoutClaim
  | .upsertPendingClaim amount =>
    match existing with
    | some claim => claim.reset amount
    | none => ⟨amount, none, none, .pending⟩
  | .markClaimed txHash claimedAt => (existing.getD newClaim).claim claimedAt txHash
  | .markFailed => (existing.getD newClaim).fail

/-- An operation that has read its row. -/
structure Pending where
  key : String × String
  op : Operation
  existing : Option PayoutClaim
  deriving DecidableEq

def Pending.copy (p : Pending) : PayoutClaim := p.op.copy p.existing

/-- The rows, and the operations under way. -/
structure Store where
  claims : ClaimTable
  pending : Nat → Option Pending

namespace Store

def setPending (s : Store) (id : Nat) (p : Option Pending) : Store :=
  { s with pending := Function.update s.pending id p }

/-- The row of an operation is its copy. -/
def save (s : Store) (p : Pending) : Store :=
  { s with claims := Function.update s.claims p.key (some p.copy) }

end Store

inductive Action where
  | read (id : Nat) (key : String × String) (op : Operation)
  | write (id : Nat)
  | stop (id : Nat)

inductive Event where
  | quiet
  | wrote (p : Pending)
  deriving DecidableEq

/-- One step of the writers. A row that was not there when it was read is inserted, which fails if
there is one by now. An operation can stop at any point. -/
def Store.next (s : Store) : Action → Option (Event × Store)
  | .read id key op =>
    match s.pending id with
    | some _ => none
    | none => some (.quiet, s.setPending id (some ⟨key, op, s.claims key⟩))
  | .write id =>
    match s.pending id with
    | some p =>
      if p.existing = none ∧ s.claims p.key ≠ none then some (.quiet, s.setPending id none)
      else some (.wrote p, (s.save p).setPending id none)
    | none => none
  | .stop id => some (.quiet, s.setPending id none)

/-- The writers, from any rows. -/
def writers : System Store Event where
  initial s := ∀ id, s.pending id = none
  step s l s' := ∃ action, s.next action = some (l, s')

theorem Store.next_step (s : Store) (action : Action) (l : Event) (s' : Store)
    (h : s.next action = some (l, s')) : writers.step s l s' := ⟨action, h⟩

/-- A row that says that a claim has been claimed says the same of it. -/
structure SameClaim (claim later : PayoutClaim) : Prop where
  status : later.status = .claimed
  amount : later.amount = claim.amount
  txHash : later.txHash = claim.txHash

/-- What is claimed in a state stays claimed in a later one, for the same amount and by the same
transaction. -/
def StaysClaimed (s s' : Store) : Prop :=
  ∀ key claim, s.claims key = some claim → claim.status = .claimed →
    ∃ later, s'.claims key = some later ∧ SameClaim claim later

/-- A copy is saved over a claimed row only by `markClaimed`, of the transaction that claimed it and
with the amount that it had when it was read. -/
def Respects (s : Store) (l : Event) : Prop :=
  ∀ p claim, l = .wrote p → s.claims p.key = some claim → claim.status = .claimed →
    (p.existing.getD newClaim).amount = claim.amount ∧
      ∃ txHash claimedAt, p.op = .markClaimed txHash claimedAt ∧ claim.txHash = some txHash

section Steps

variable {s s' : Store} {l : Event} {p : Pending} {claim : PayoutClaim}

theorem next_changes {action : Action} (h : s.next action = some (l, s')) :
    (l = .quiet ∧ s'.claims = s.claims) ∨
      ∃ p, l = .wrote p ∧ s'.claims = Function.update s.claims p.key (some p.copy) := by
  cases action with
  | read id key op =>
    simp only [Store.next] at h
    split at h
    · cases h
    · cases h
      exact .inl ⟨rfl, rfl⟩
  | write id =>
    simp only [Store.next] at h
    split at h
    · next p _ =>
      split at h
      · cases h
        exact .inl ⟨rfl, rfl⟩
      · cases h
        exact .inr ⟨p, rfl, rfl⟩
    · cases h
  | stop id =>
    cases h
    exact .inl ⟨rfl, rfl⟩

/-- The copies that say the same as a claimed row are those of its own transaction and amount. -/
theorem same_claim_copy_iff :
    SameClaim claim p.copy ↔ (p.existing.getD newClaim).amount = claim.amount ∧
      ∃ txHash claimedAt, p.op = .markClaimed txHash claimedAt ∧ claim.txHash = some txHash := by
  obtain ⟨key, op, existing⟩ := p
  cases op with
  | upsertPendingClaim amount =>
    have hpending : (Operation.copy existing (.upsertPendingClaim amount)).status = .pending := by
      cases existing <;> rfl
    constructor
    · intro h
      exact absurd (hpending.symm.trans h.status) (by decide)
    · rintro ⟨-, _, _, hop, -⟩
      cases hop
  | markClaimed txHash claimedAt =>
    constructor
    · intro h
      exact ⟨h.amount, txHash, claimedAt, rfl, h.txHash.symm⟩
    · rintro ⟨hamount, _, _, hop, htx⟩
      cases hop
      exact ⟨rfl, hamount, htx.symm⟩
  | markFailed =>
    constructor
    · intro h
      exact absurd h.status (by simp [Pending.copy, Operation.copy, PayoutClaim.fail])
    · rintro ⟨-, _, _, hop, -⟩
      cases hop

/-- A step keeps what is claimed exactly when it respects it. -/
theorem stays_claimed_step_iff (hstep : writers.step s l s') : StaysClaimed s s' ↔ Respects s l := by
  obtain ⟨action, hnext⟩ := hstep
  obtain ⟨rfl, hclaims⟩ | ⟨p, rfl, hclaims⟩ := next_changes hnext
  · constructor
    · intro _ p claim hl
      cases hl
    · intro _ key claim hclaim hclaimed
      exact ⟨claim, by rw [hclaims, hclaim], hclaimed, rfl, rfl⟩
  · constructor
    · intro hstays q claim hl hclaim hclaimed
      cases hl
      obtain ⟨later, hlater, hsame⟩ := hstays p.key claim hclaim hclaimed
      rw [hclaims, Function.update_self] at hlater
      obtain rfl := Option.some.inj hlater
      exact same_claim_copy_iff.mp hsame
    · intro hrespects key claim hclaim hclaimed
      rw [hclaims]
      by_cases hkey : key = p.key
      · subst hkey
        exact ⟨p.copy, Function.update_self .., same_claim_copy_iff.mpr
          (hrespects p claim rfl hclaim hclaimed)⟩
      · exact ⟨claim, by rw [Function.update_of_ne hkey, hclaim], hclaimed, rfl, rfl⟩

theorem StaysClaimed.refl (s : Store) : StaysClaimed s s :=
  fun _ claim hclaim hclaimed => ⟨claim, hclaim, hclaimed, rfl, rfl⟩

theorem StaysClaimed.trans {s₁ s₂ s₃ : Store} (h : StaysClaimed s₁ s₂) (h' : StaysClaimed s₂ s₃) :
    StaysClaimed s₁ s₃ := by
  intro key claim hclaim hclaimed
  obtain ⟨middle, hmiddle, hsame⟩ := h key claim hclaim hclaimed
  obtain ⟨later, hlater, hsame'⟩ := h' key middle hmiddle hsame.status
  exact ⟨later, hlater, hsame'.status, hsame'.amount.trans hsame.amount,
    hsame'.txHash.trans hsame.txHash⟩

end Steps

/-- The claim of Alice on a call. -/
def aliceKey : String × String := ("7", "GALICE")

def idle : Store := ⟨fun _ => none, fun _ => none⟩

/-- Alice's claim is recorded and claimed, and the settlement is delivered again. -/
def lateSettlement : List Action :=
  [.read 0 aliceKey (.upsertPendingClaim "50"), .write 0,
    .read 1 aliceKey (.markClaimed "tx1" 100), .write 1,
    .read 2 aliceKey (.upsertPendingClaim "60"), .write 2]

def claimedRun : System.Replayed writers Store.next System.anything :=
  .of idle (fun _ => rfl) (lateSettlement.take 4) (by decide)

def lateRun : System.Replayed writers Store.next System.anything :=
  .of idle (fun _ => rfl) lateSettlement (by decide)

end Backit.Payouts
