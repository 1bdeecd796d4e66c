import Backit.Lib.ProRata
import Backit.ParlayBetting.Parlays

/-!
# What the contract does with markets

The notes of a run, most recent first. The contract adds up stakes by call id alone. Its claims and
credits are right by the leg as long as a call id stands for one leg and nothing is staked on it
after its claim.
-/

namespace Backit.ParlayBetting

open Soroban Lib

namespace Note

def stake : Note → Option LegStake
  | .staked x => some x
  | _ => none

def receipt : Note → Option LegReceipt
  | .claimed r => some r
  | _ => none

def credit : Note → Option LegCredit
  | .credited c => some c
  | _ => none

end Note

def stakes (ns : List Note) : List LegStake := ns.filterMap Note.stake

def receipts (ns : List Note) : List LegReceipt := ns.filterMap Note.receipt

def credits (ns : List Note) : List LegCredit := ns.filterMap Note.credit

/-- What the contract has staked on a leg. -/
def stakedOn (leg : ParlayLeg) (ns : List Note) : Int :=
  (((stakes ns).filter (·.leg = leg)).map LegStake.amount).sum

/-- What the contract has staked under a call id, on whatever leg. -/
def stakedUnder (callId : Nat) (ns : List Note) : Int :=
  (((stakes ns).filter (·.leg.callId = callId)).map LegStake.amount).sum

/-- A note does not mix two legs under one call id: a stake is on the leg and in the token of every
earlier stake under its call id, and under a call id that has not been claimed. -/
def Compatible : Note → Note → Prop
  | .staked x, .staked y => x.leg.callId = y.leg.callId → x.leg = y.leg ∧ x.token = y.token
  | .staked x, .claimed r => x.leg.callId ≠ r.leg.callId
  | _, _ => True

instance Compatible.decidable : (newer older : Note) → Decidable (Compatible newer older)
  | .staked x, .staked y =>
    inferInstanceAs (Decidable (x.leg.callId = y.leg.callId → x.leg = y.leg ∧ x.token = y.token))
  | .staked x, .claimed r => inferInstanceAs (Decidable (x.leg.callId ≠ r.leg.callId))
  | .staked _, .credited _ => isTrue trivial
  | .claimed _, _ => isTrue trivial
  | .credited _, _ => isTrue trivial

/-- A call id stands for one leg, and nothing is staked on it after its claim. -/
def Separate (ns : List Note) : Prop := ns.Pairwise Compatible

instance (ns : List Note) : Decidable (Separate ns) :=
  inferInstanceAs (Decidable (List.Pairwise _ _))

/-- Parlays claim only their own stakes. -/
structure LegsSound (ns : List Note) : Prop where
  presented : ∀ r ∈ receipts ns, r.presented = stakedOn r.leg ns
  pro_rata : ∀ c ∈ credits ns, c.stake ∈ stakes ns ∧ ∃ r ∈ receipts ns,
    r.leg = c.stake.leg ∧ r.token = c.stake.token ∧ 0 < stakedOn r.leg ns ∧
      c.share = (r.received * c.stake.amount).tdiv (stakedOn r.leg ns)
  once : ((credits ns).map LegCredit.stake).Nodup
  bounded : ∀ r ∈ receipts ns,
    (((credits ns).filter (·.stake.leg = r.leg)).map LegCredit.share).sum ≤ r.received

/-- What the contract makes sure of when it claims or credits, in terms of call ids. -/
def NoteOk (older : List Note) : Note → Prop
  | .staked x => 0 ≤ x.amount
  | .claimed r => r.presented = stakedUnder r.leg.callId older ∧ 0 ≤ r.received ∧
      (∀ r' ∈ receipts older, r'.leg.callId ≠ r.leg.callId) ∧
      ∃ x ∈ stakes older, x.leg = r.leg ∧ x.token = r.token
  | .credited c => c.stake ∈ stakes older ∧ c.stake ∉ (credits older).map LegCredit.stake ∧
      stakedUnder c.stake.leg.callId older ≠ 0 ∧
      ∃ r ∈ receipts older, r.leg.callId = c.stake.leg.callId ∧
        c.share = (r.received * c.stake.amount).tdiv (stakedUnder c.stake.leg.callId older)

/-- Every note is one that the contract makes after the older ones. -/
def WellNoted : List Note → Prop
  | [] => True
  | n :: older => NoteOk older n ∧ WellNoted older

section Lists

variable {ns : List Note} {n : Note} {x y : LegStake} {r r' : LegReceipt} {c : LegCredit}

@[simp] theorem stakes_staked : stakes (.staked x :: ns) = x :: stakes ns := rfl

@[simp] theorem stakes_claimed : stakes (.claimed r :: ns) = stakes ns := rfl

@[simp] theorem stakes_credited : stakes (.credited c :: ns) = stakes ns := rfl

@[simp] theorem receipts_staked : receipts (.staked x :: ns) = receipts ns := rfl

@[simp] theorem receipts_claimed : receipts (.claimed r :: ns) = r :: receipts ns := rfl

@[simp] theorem receipts_credited : receipts (.credited c :: ns) = receipts ns := rfl

@[simp] theorem credits_staked : credits (.staked x :: ns) = credits ns := rfl

@[simp] theorem credits_claimed : credits (.claimed r :: ns) = credits ns := rfl

@[simp] theorem credits_credited : credits (.credited c :: ns) = c :: credits ns := rfl

theorem mem_stakes : x ∈ stakes ns ↔ .staked x ∈ ns := by
  simp only [stakes, List.mem_filterMap]
  constructor
  · rintro ⟨n, hn, hstake⟩
    cases n <;> simp_all [Note.stake]
  · intro h
    exact ⟨_, h, rfl⟩

theorem mem_receipts : r ∈ receipts ns ↔ .claimed r ∈ ns := by
  simp only [receipts, List.mem_filterMap]
  constructor
  · rintro ⟨n, hn, hreceipt⟩
    cases n <;> simp_all [Note.receipt]
  · intro h
    exact ⟨_, h, rfl⟩

@[simp] theorem stakedUnder_staked (callId : Nat) : stakedUnder callId (.staked x :: ns) =
    stakedUnder callId ns + if x.leg.callId = callId then x.amount else 0 := by
  simp only [stakedUnder, stakes_staked, List.filter_cons]
  by_cases h : x.leg.callId = callId
  · simp [h, add_comm]
  · simp [h]

theorem stakedUnder_nonneg (h : WellNoted ns) (callId : Nat) : 0 ≤ stakedUnder callId ns := by
  induction ns with
  | nil => exact le_refl _
  | cons n older ih =>
    obtain ⟨hn, holder⟩ := h
    have hrest := ih holder
    cases n with
    | staked x =>
      have hamount : 0 ≤ x.amount := hn
      rw [stakedUnder_staked]
      split <;> omega
    | claimed r => exact hrest
    | credited c => exact hrest

theorem WellNoted.amount_nonneg (h : WellNoted ns) : ∀ x ∈ stakes ns, 0 ≤ x.amount := by
  induction ns with
  | nil => simp [stakes]
  | cons n older ih =>
    obtain ⟨hn, holder⟩ := h
    cases n with
    | staked x => exact List.forall_mem_cons.mpr ⟨hn, ih holder⟩
    | claimed r => exact ih holder
    | credited c => exact ih holder

theorem WellNoted.received_nonneg (h : WellNoted ns) : ∀ r ∈ receipts ns, 0 ≤ r.received := by
  induction ns with
  | nil => simp [receipts]
  | cons n older ih =>
    obtain ⟨hn, holder⟩ := h
    cases n with
    | staked x => exact ih holder
    | claimed r => exact List.forall_mem_cons.mpr ⟨hn.2.1, ih holder⟩
    | credited c => exact ih holder

theorem WellNoted.receipts_unique (h : WellNoted ns) :
    ((receipts ns).map (·.leg.callId)).Nodup := by
  induction ns with
  | nil => exact List.nodup_nil
  | cons n older ih =>
    obtain ⟨hn, holder⟩ := h
    cases n with
    | staked x => exact ih holder
    | credited c => exact ih holder
    | claimed r =>
      refine List.nodup_cons.mpr ⟨fun hmem => ?_, ih holder⟩
      obtain ⟨r', hr', hcall⟩ := List.mem_map.mp hmem
      exact hn.2.2.1 r' hr' hcall

theorem WellNoted.credits_once (h : WellNoted ns) : ((credits ns).map LegCredit.stake).Nodup := by
  induction ns with
  | nil => exact List.nodup_nil
  | cons n older ih =>
    obtain ⟨hn, holder⟩ := h
    cases n with
    | staked x => exact ih holder
    | claimed r => exact ih holder
    | credited c => exact List.nodup_cons.mpr ⟨hn.2.1, ih holder⟩

/-- Stakes under one call id are on one leg, in one token. -/
theorem Separate.same_leg (h : Separate ns) (hx : x ∈ stakes ns) (hy : y ∈ stakes ns)
    (hcall : x.leg.callId = y.leg.callId) : x.leg = y.leg ∧ x.token = y.token := by
  induction ns with
  | nil => cases hx
  | cons n older ih =>
    obtain ⟨hn, holder⟩ := List.pairwise_cons.mp h
    cases n with
    | claimed r => exact ih holder hx hy
    | credited c => exact ih holder hx hy
    | staked z =>
      obtain rfl | hxold := List.mem_cons.mp hx
      · obtain rfl | hyold := List.mem_cons.mp hy
        · exact ⟨rfl, rfl⟩
        · exact hn _ (mem_stakes.mp hyold) hcall
      · obtain rfl | hyold := List.mem_cons.mp hy
        · obtain ⟨hleg, htoken⟩ := hn _ (mem_stakes.mp hxold) hcall.symm
          exact ⟨hleg.symm, htoken.symm⟩
        · exact ih holder hxold hyold

/-- What is staked under the call id of a stake is staked on its leg. -/
theorem Separate.stakedUnder_eq (h : Separate ns) (hx : x ∈ stakes ns) :
    stakedUnder x.leg.callId ns = stakedOn x.leg ns := by
  have hfilter : (stakes ns).filter (·.leg.callId = x.leg.callId) =
      (stakes ns).filter (·.leg = x.leg) := by
    refine List.filter_congr fun y hy => decide_eq_decide.mpr ⟨fun hcall => ?_, fun hleg => ?_⟩
    · exact (h.same_leg hy hx hcall).1
    · rw [hleg]
  rw [stakedUnder, stakedOn, hfilter]

/-- A claim's receipt, by its leg. -/
structure ReceiptSound (ns : List Note) (r : LegReceipt) : Prop where
  presented : r.presented = stakedUnder r.leg.callId ns
  staked : ∃ x ∈ stakes ns, x.leg = r.leg ∧ x.token = r.token

/-- A credit, by its call id. -/
structure CreditSound (ns : List Note) (c : LegCredit) : Prop where
  staked : c.stake ∈ stakes ns
  nonzero : stakedUnder c.stake.leg.callId ns ≠ 0
  pro_rata : ∃ r ∈ receipts ns, r.leg.callId = c.stake.leg.callId ∧
    c.share = (r.received * c.stake.amount).tdiv (stakedUnder c.stake.leg.callId ns)

/-- A note that stakes nothing under the call id of a receipt keeps what was said of it. -/
theorem ReceiptSound.cons (h : ReceiptSound ns r)
    (hkept : stakedUnder r.leg.callId (n :: ns) = stakedUnder r.leg.callId ns) :
    ReceiptSound (n :: ns) r := by
  obtain ⟨x, hx, hsame⟩ := h.staked
  exact ⟨h.presented.trans hkept.symm, x, mem_stakes.mpr (.tail _ (mem_stakes.mp hx)), hsame⟩

theorem CreditSound.cons (h : CreditSound ns c)
    (hkept : stakedUnder c.stake.leg.callId (n :: ns) = stakedUnder c.stake.leg.callId ns) :
    CreditSound (n :: ns) c := by
  obtain ⟨r, hr, hcall, hshare⟩ := h.pro_rata
  exact ⟨mem_stakes.mpr (.tail _ (mem_stakes.mp h.staked)), hkept ▸ h.nonzero,
    r, mem_receipts.mpr (.tail _ (mem_receipts.mp hr)), hcall, hkept ▸ hshare⟩

/-- Nothing is staked under a call id once it has been claimed. -/
theorem Separate.stakedUnder_kept (h : Separate (n :: ns)) (hr : r ∈ receipts ns) :
    stakedUnder r.leg.callId (n :: ns) = stakedUnder r.leg.callId ns := by
  cases n with
  | claimed r' => rfl
  | credited c => rfl
  | staked x =>
    have hother : x.leg.callId ≠ r.leg.callId := (List.pairwise_cons.mp h).1 _ (mem_receipts.mp hr)
    rw [stakedUnder_staked, if_neg hother, add_zero]

/-- What the contract makes sure of stays true as long as call ids are kept separate. -/
theorem WellNoted.sound (hnoted : WellNoted ns) (h : Separate ns) :
    (∀ r ∈ receipts ns, ReceiptSound ns r) ∧ ∀ c ∈ credits ns, CreditSound ns c := by
  induction ns with
  | nil => simp [receipts, credits]
  | cons n older ih =>
    obtain ⟨hn, holder⟩ := hnoted
    obtain ⟨hreceipts, hcredits⟩ := ih holder (List.pairwise_cons.mp h).2
    have hreceipts' : ∀ r ∈ receipts older, ReceiptSound (n :: older) r := fun r hr =>
      (hreceipts r hr).cons (h.stakedUnder_kept hr)
    have hcredits' : ∀ c ∈ credits older, CreditSound (n :: older) c := fun c hc => by
      obtain ⟨r, hr, hcall, -⟩ := (hcredits c hc).pro_rata
      exact (hcredits c hc).cons (hcall ▸ h.stakedUnder_kept hr)
    cases n with
    | staked x => exact ⟨hreceipts', hcredits'⟩
    | claimed r =>
      obtain ⟨hpresented, -, -, hstaked⟩ := hn
      exact ⟨List.forall_mem_cons.mpr ⟨⟨hpresented, hstaked⟩, hreceipts'⟩, hcredits'⟩
    | credited c =>
      obtain ⟨hstake, -, hnonzero, hshare⟩ := hn
      exact ⟨hreceipts', List.forall_mem_cons.mpr ⟨⟨hstake, hnonzero, hshare⟩, hcredits'⟩⟩

/-- Distinct stakes on a leg are within what is staked on it. -/
theorem sum_credited_le (hnoted : WellNoted ns) (hcredits : ∀ c ∈ credits ns, c.stake ∈ stakes ns)
    (leg : ParlayLeg) :
    (((credits ns).filter (·.stake.leg = leg)).map (·.stake.amount)).sum ≤ stakedOn leg ns := by
  have hnodup : (((credits ns).filter (·.stake.leg = leg)).map LegCredit.stake).Nodup :=
    (List.filter_sublist.map _).nodup hnoted.credits_once
  have hsubset : ((credits ns).filter (·.stake.leg = leg)).map LegCredit.stake ⊆
      (stakes ns).filter (·.leg = leg) := by
    intro x hx
    obtain ⟨c, hc, rfl⟩ := List.mem_map.mp hx
    obtain ⟨hc, hleg⟩ := List.mem_filter.mp hc
    exact List.mem_filter.mpr ⟨hcredits c hc, hleg⟩
  have hsum := sum_map_le_of_subset (f := LegStake.amount) hnodup hsubset fun x hx =>
    hnoted.amount_nonneg x (List.mem_filter.mp hx).1
  rwa [List.map_map] at hsum

/-- As long as call ids are kept separate, parlays claim only their own stakes. -/
theorem WellNoted.legs_sound (hnoted : WellNoted ns) (h : Separate ns) : LegsSound ns := by
  obtain ⟨hreceipts, hcredits⟩ := hnoted.sound h
  have hunder : ∀ r ∈ receipts ns, stakedUnder r.leg.callId ns = stakedOn r.leg ns := by
    intro r hr
    obtain ⟨x, hx, hleg, -⟩ := (hreceipts r hr).staked
    exact hleg ▸ h.stakedUnder_eq hx
  have hshares : ∀ c ∈ credits ns, ∃ r ∈ receipts ns, r.leg = c.stake.leg ∧
      r.token = c.stake.token ∧ 0 < stakedOn r.leg ns ∧
        c.share = (r.received * c.stake.amount).tdiv (stakedOn r.leg ns) := by
    intro c hc
    obtain ⟨hstake, hnonzero, r, hr, hcall, hshare⟩ := hcredits c hc
    obtain ⟨x, hx, hleg, htoken⟩ := (hreceipts r hr).staked
    obtain ⟨hsame, hsameToken⟩ := h.same_leg hx hstake (hleg ▸ hcall)
    have hpositive := stakedUnder_nonneg hnoted c.stake.leg.callId
    rw [← hcall, hunder r hr] at hshare hnonzero hpositive
    exact ⟨r, hr, hleg.symm.trans hsame, htoken.symm.trans hsameToken, by omega, hshare⟩
  refine ⟨fun r hr => (hreceipts r hr).presented.trans (hunder r hr),
    fun c hc => ⟨(hcredits c hc).staked, hshares c hc⟩, hnoted.credits_once, fun r hr => ?_⟩
  have hreceived := hnoted.received_nonneg r hr
  by_cases hnone : (credits ns).filter (·.stake.leg = r.leg) = []
  · rw [hnone]
    exact hreceived
  · obtain ⟨first, hfirst⟩ := List.exists_mem_of_ne_nil _ hnone
    have hwithin : ∀ c ∈ (credits ns).filter (·.stake.leg = r.leg),
        0 < stakedOn r.leg ns ∧ c.share * stakedOn r.leg ns ≤ c.stake.amount * r.received := by
      intro c hfiltered
      obtain ⟨hc, hleg⟩ := List.mem_filter.mp hfiltered
      obtain ⟨r', hr', hleg', -, hpositive, hshare⟩ := hshares c hc
      have hsame : r' = r := by
        refine List.inj_on_of_nodup_map hnoted.receipts_unique hr' hr ?_
        rw [hleg', of_decide_eq_true hleg]
      subst hsame
      have hamount := hnoted.amount_nonneg _ (hcredits c hc).staked
      refine ⟨hpositive, ?_⟩
      rw [hshare, tdiv_eq_div (mul_nonneg hreceived hamount), mul_comm c.stake.amount]
      exact Int.ediv_mul_le _ hpositive.ne'
    exact sum_le_pot hreceived (hwithin first hfirst).1 (fun c hc => (hwithin c hc).2)
      (sum_credited_le hnoted (fun c hc => (hcredits c hc).staked) r.leg)

end Lists

end Backit.ParlayBetting
