import Backit.OutcomeManager.Executions

/-!
# Finality and the dispute window

A call becomes final with the vote that reaches the quorum, or with the observation that confirms
a resolution. No operation makes an outcome pending first, so the dispute window never opens:
neither `finalize_outcome` nor `dispute_outcome` ever succeeds, and a final outcome has been
disputable for no time at all. A final outcome is never changed.
-/

namespace Backit.OutcomeManager

open Soroban Lib

namespace Tally

variable (t : Tally) (key : TempKey)

@[simp] theorem lapse_finalOutcome : (t.lapse key).finalOutcome = t.finalOutcome := by
  cases key <;> rfl

@[simp] theorem lapse_settledAt : (t.lapse key).settledAt = t.settledAt := by
  cases key <;> rfl

@[simp] theorem lapse_pendingOutcome : (t.lapse key).pendingOutcome = t.pendingOutcome := by
  cases key <;> rfl

end Tally

section Steps

variable {R : Type} [Registries R] [Crypto] [Network]

omit [Registries R] [Network] in
/-- The operation is the vote that reaches the quorum, or the observation that confirms. -/
def Decides (s : Settings) (t : Tally) : ReportOp → Prop
  | .submitOutcome _ signed _ => s.quorum.getD 0 ≤ t.votesFor signed.hash signed.callId + 1
  | .submitOutcomeForMarket signed _ => s.quorum.getD 0 ≤ t.votesFor signed.hash signed.callId + 1
  | .submitResolutionObservation callId observation _ =>
    confirmed s (t.resolutionObservations callId ++ [observation]) = true
  | _ => False

instance Decides.decidable (s : Settings) (t : Tally) :
    (op : ReportOp) → Decidable (Decides s t op)
  | .submitOutcome _ _ _ => inferInstanceAs (Decidable (_ ≤ _))
  | .submitOutcomeForMarket _ _ => inferInstanceAs (Decidable (_ ≤ _))
  | .submitResolutionObservation _ _ _ => inferInstanceAs (Decidable (_ = true))
  | .submitPriceObservation _ _ _ _ _ => inferInstanceAs (Decidable False)
  | .finalizeOutcome _ => inferInstanceAs (Decidable False)
  | .disputeOutcome _ _ _ => inferInstanceAs (Decidable False)

variable {env : Env} {s : Settings} {op : ReportOp} {t t' : Tally} {others others' : R}
  {effects : List (Effect Act)}

/-- While nothing is pending, no step makes anything pending. -/
theorem ReportStep.pending_kept (h : ReportStep env s op t others effects t' others')
    (hnone : ∀ c, t.pendingOutcome c = none) : ∀ c, t'.pendingOutcome c = none := by
  cases h with
  | vote | decide | price | observe | confirm => exact hnone
  | finalizeOutcome hpending => exact absurd hpending (by simp [hnone])
  | disputeOutcome _ _ hpending => exact absurd hpending (by simp [hnone])

/-- While nothing is pending, a step decides one undecided call or leaves every call as it is. -/
theorem ReportStep.final_cases (h : ReportStep env s op t others effects t' others')
    (hnone : ∀ c, t.pendingOutcome c = none) :
    (¬ Decides s t op ∧ t'.finalOutcome = t.finalOutcome ∧ t'.settledAt = t.settledAt) ∨
      (Decides s t op ∧ ∃ c outcome, t.finalOutcome c = none ∧
        t'.finalOutcome = Function.update t.finalOutcome c (some outcome) ∧
        t'.settledAt = Function.update t.settledAt c (some env.timestamp)) := by
  cases h with
  | vote hsubmits haccepted hquorum hshort =>
    refine .inl ⟨?_, rfl, rfl⟩
    cases hsubmits
    all_goals
      unfold Decides
      rw [hquorum, Option.getD_some]
      omega
  | decide hsubmits haccepted hquorum hreached _ =>
    refine .inr ⟨?_, _, _, haccepted.undecided, rfl, rfl⟩
    cases hsubmits
    all_goals
      unfold Decides
      rw [hquorum, Option.getD_some]
      exact hreached
  | price => exact .inl ⟨id, rfl, rfl⟩
  | @observe _ _ callId observation _ hobserved hshort =>
    refine .inl ⟨fun hdecides => ?_, rfl, rfl⟩
    have htrue : confirmed s (t.resolutionObservations callId ++ [observation]) = true := hdecides
    rw [hshort] at htrue
    cases htrue
  | confirm hobserved hconfirmed _ _ _ =>
    exact .inr ⟨hconfirmed, _, _, hobserved.undecided, rfl, rfl⟩
  | finalizeOutcome hpending => exact absurd hpending (by simp [hnone])
  | disputeOutcome _ _ hpending => exact absurd hpending (by simp [hnone])

/-- While nothing is pending, a step keeps every final outcome. -/
theorem ReportStep.final_kept (h : ReportStep env s op t others effects t' others')
    (hnone : ∀ c, t.pendingOutcome c = none) {c : Nat} {outcome : Outcome}
    (hfinal : t.finalOutcome c = some outcome) : t'.finalOutcome c = some outcome := by
  rcases h.final_cases hnone with ⟨-, heq, -⟩ | ⟨-, c', _, hundecided, heq, -⟩
  · rw [heq]
    exact hfinal
  · rw [heq, Function.update_of_ne]
    · exact hfinal
    · rintro rfl
      rw [hundecided] at hfinal
      cases hfinal

/-- A report that is accepted is signed for no later time than the delay after the stated end. -/
theorem ReportStep.in_time (h : ReportStep env s op t others effects t' others')
    {registry : Address} {signed : SignedOutcome} {callEndTs : Nat}
    (hop : op = .submitOutcome registry signed callEndTs ∨
      op = .submitOutcomeForMarket signed callEndTs) :
    signed.timestamp ≤ callEndTs + s.maxSubmissionDelay := by
  cases h with
  | vote hsubmits haccepted =>
    cases hsubmits <;> rcases hop with hop | hop <;> cases hop <;> exact haccepted.inTime
  | decide hsubmits haccepted =>
    cases hsubmits <;> rcases hop with hop | hop <;> cases hop <;> exact haccepted.inTime
  | price | observe | confirm | finalizeOutcome | disputeOutcome =>
    rcases hop with hop | hop <;> cases hop

/-- While nothing is pending, an outcome that a step makes final is the one that its report states,
or an observation confirms it. -/
theorem ReportStep.final_origin (h : ReportStep env s op t others effects t' others')
    (hnone : ∀ c, t.pendingOutcome c = none) {c : Nat} {outcome : Outcome}
    (hfinal : t'.finalOutcome c = some outcome) :
    t.finalOutcome c = some outcome ∨
      (∃ registry signed callEndTs, Submits s others op registry signed callEndTs ∧
        signed.callId = c ∧ signed.stated = outcome) ∨
      ∃ observation signature, op = .submitResolutionObservation c observation signature := by
  cases h with
  | vote | price | observe => exact .inl hfinal
  | @decide _ registry signed callEndTs _ _ _ _ hsubmits =>
    by_cases hc : c = signed.callId
    · subst hc
      simp only [Tally.settle, Function.update_self, Option.some.injEq] at hfinal
      exact .inr (.inl ⟨registry, signed, callEndTs, hsubmits, rfl, hfinal⟩)
    · simp only [Tally.settle, Function.update_of_ne hc] at hfinal
      exact .inl hfinal
  | @confirm _ _ callId observation signature =>
    by_cases hc : c = callId
    · subst hc
      exact .inr (.inr ⟨observation, signature, rfl⟩)
    · simp only [Tally.settle, Function.update_of_ne hc] at hfinal
      exact .inl hfinal
  | finalizeOutcome hpending => exact absurd hpending (by simp [hnone])
  | disputeOutcome _ _ hpending => exact absurd hpending (by simp [hnone])

end Steps

section Runs

variable {R : Type} [Registries R] [Crypto] [Network] {self : Address} {outside : R → R → Prop}
  {guard : System.Guard (World R) Label} {history later : List Label} {w w' : World R}

theorem nothing_pending (run : (manager self outside).RunWhere guard history w) :
    ∀ c, w.store.tally.pendingOutcome c = none := by
  refine run.invariant (I := fun _ w => ∀ c, w.store.tally.pendingOutcome c = none) ?_ ?_
  · intro s hs c
    rw [show s.store = Storage.empty from hs]
    rfl
  · intro h s l s' _ ih hstep _
    cases hstep.moves with
    | report _ _ _ hreport => exact hreport.pending_kept ih
    | lapsed =>
      intro c
      show (Tally.lapse _ _).pendingOutcome c = none
      rw [Tally.lapse_pendingOutcome]
      exact ih c
    | settings => exact ih
    | payout => exact ih
    | elsewhere => exact ih

theorem step_final_kept (run : (manager self outside).RunWhere guard history w) {l : Label}
    (hstep : (manager self outside).step w l w') {c : Nat} {outcome : Outcome}
    (hfinal : w.store.tally.finalOutcome c = some outcome) :
    w'.store.tally.finalOutcome c = some outcome := by
  have hnone := nothing_pending run
  cases hstep.moves with
  | report _ _ _ hreport => exact hreport.final_kept hnone hfinal
  | lapsed =>
    show (Tally.lapse _ _).finalOutcome c = some outcome
    rw [Tally.lapse_finalOutcome]
    exact hfinal
  | settings => exact hfinal
  | payout => exact hfinal
  | elsewhere => exact hfinal

/-- Every final outcome was pending, in a window that had closed when the call was settled. -/
def WindowLaw (s : Storage) : Prop :=
  ∀ c outcome, s.tally.finalOutcome c = some outcome → ∃ start settled,
    s.tally.pendingOutcome c = some outcome ∧ s.tally.disputeWindowStart c = some start ∧
      s.tally.settledAt c = some settled ∧ start + s.settings.disputeWindow ≤ settled

omit [Registries R] [Network] in
/-- No vote reaches the quorum and no observation confirms. -/
abbrev undecided : System.Guard (World R) Label := fun _ w l =>
  ∀ r ∈ l.onReport, ¬ Decides w.store.settings w.store.tally r.2

/-- No call is final in a run without a deciding operation, and in no other. -/
theorem none_final_iff_undecided (run : (manager self outside).Run history w) :
    (∀ c, w.store.tally.finalOutcome c = none) ↔
      (manager self outside).RunWhere undecided history w := by
  constructor
  · refine run.invariant (I := fun h w => (∀ c, w.store.tally.finalOutcome c = none) →
      (manager self outside).RunWhere undecided h w) ?_ ?_
    · exact fun s hs _ => .start hs
    · intro h s l s' hrun ih hstep _ hafter
      have hbefore : ∀ c, s.store.tally.finalOutcome c = none := by
        intro c
        cases hc : s.store.tally.finalOutcome c with
        | none => rfl
        | some outcome => exact absurd (step_final_kept hrun hstep hc) (by simp [hafter])
      refine (ih hbefore).tail hstep fun r hr hdecides => ?_
      have hnone := nothing_pending hrun
      cases hstep.moves with
      | report _ _ _ hreport =>
        cases hr
        rcases hreport.final_cases hnone with ⟨hnot, -, -⟩ | ⟨-, c, outcome, -, heq, -⟩
        · exact hnot hdecides
        · have hset := hafter c
          change Tally.finalOutcome _ c = none at hset
          rw [heq, Function.update_self] at hset
          cases hset
      | settings => cases hr
      | payout => cases hr
      | lapsed => cases hr
      | elsewhere => cases hr
  · intro hrun
    refine hrun.invariant (I := fun _ w => ∀ c, w.store.tally.finalOutcome c = none) ?_ ?_
    · intro s hs c
      rw [show s.store = Storage.empty from hs]
      rfl
    · intro h s l s' hprefix ih hstep hguard
      have hnone := nothing_pending hprefix
      cases hstep.moves with
      | report _ _ _ hreport =>
        rcases hreport.final_cases hnone with ⟨-, heq, -⟩ | ⟨hdecides, -⟩
        · intro c
          show Tally.finalOutcome _ c = none
          rw [heq]
          exact ih c
        · exact absurd hdecides (hguard _ rfl)
      | lapsed =>
        intro c
        show (Tally.lapse _ _).finalOutcome c = none
        rw [Tally.lapse_finalOutcome]
        exact ih c
      | settings => exact ih
      | payout => exact ih
      | elsewhere => exact ih

/-- Whatever the dispute window, outcomes become final after it exactly as long as none becomes
final at all: no vote reaches the quorum and no observation confirms. -/
theorem window_law_iff_undecided (run : (manager self outside).Run history w) :
    WindowLaw w.store ↔ (manager self outside).RunWhere undecided history w := by
  rw [← none_final_iff_undecided run]
  constructor
  · intro hlaw c
    cases hc : w.store.tally.finalOutcome c with
    | none => rfl
    | some outcome =>
      obtain ⟨_, _, hpending, -⟩ := hlaw c outcome hc
      rw [nothing_pending run c] at hpending
      cases hpending
  · intro hnone c outcome hfinal
    rw [hnone c] at hfinal
    cases hfinal

/-- In no reachable state can a call be finalised or disputed, and neither a final outcome nor the
time when it was settled ever changes. -/
theorem decided_for_good (run : (manager self outside).RunWhere guard history w) :
    (∀ c outcome price env f,
      Contract.run (ReportOp.finalizeOutcome c).perform env w.frame ≠ .ok ((), f) ∧
        Contract.run (ReportOp.disputeOutcome c outcome price).perform env w.frame ≠ .ok ((), f)) ∧
    ∀ later w' c outcome, System.Path (manager self outside) guard history w later w' →
      w.store.tally.finalOutcome c = some outcome →
      w'.store.tally.finalOutcome c = some outcome ∧
        w'.store.tally.settledAt c = w.store.tally.settledAt c := by
  have hpending := nothing_pending run
  refine ⟨fun c outcome price env f => ⟨fun h => ?_, fun h => ?_⟩, ?_⟩
  · simp [ReportOp.perform, finalizeOutcome, World.frame, hpending] at h
  · simp [ReportOp.perform, disputeOutcome, World.frame, hpending] at h
  intro later w' c outcome path hfinal
  induction path with
  | refl => exact ⟨hfinal, rfl⟩
  | tail hbefore hstep _ ih =>
    obtain ⟨hkept, htime⟩ := ih
    have hrun := run.trans hbefore
    refine ⟨step_final_kept hrun hstep hkept, ?_⟩
    rw [← htime]
    cases hstep.moves with
    | report _ _ _ hreport =>
      rcases hreport.final_cases (nothing_pending hrun) with ⟨-, -, hsame⟩ | ⟨-, c', _, hnone, -, hset⟩
      · exact congrFun hsame c
      · refine (congrFun hset c).trans (Function.update_of_ne ?_ _ _)
        rintro rfl
        exact absurd hkept (by simp [hnone])
    | lapsed => exact congrFun (Tally.lapse_settledAt ..) c
    | settings | payout | elsewhere => rfl

end Runs

section Scenario

attribute [local instance] scenarioCrypto testNetwork

/-- One of the two oracles reports call 1. -/
def oneVoteScript : List Input := [opening, submits 1001 oracleA signatureA]

/-- Both oracles report call 1, and a staker claims a payout at once. -/
def hastyScript : List Input :=
  [opening, submits 1001 oracleA signatureA, submits 1002 oracleB signatureB,
    at_ 1003 [⟨1⟩] (.payout (.claimPayout marketAddress 1 ⟨1⟩ 100 100 50))]

def oneVoteRun : Replayed System.anything :=
  .of freshWorld fresh_world_initial oneVoteScript (by decide +kernel)

def hastyRun : Replayed System.anything :=
  .of freshWorld fresh_world_initial hastyScript (by decide +kernel)

/-- One vote of two decides nothing. -/
theorem window_law_before_quorum :
    (manager home fun _ (_ : WillingRegistries) => False).RunWhere undecided oneVoteRun.history
      oneVoteRun.state :=
  have run : (manager home fun _ (_ : WillingRegistries) => False).Run oneVoteRun.history
      oneVoteRun.state :=
    oneVoteRun.run World.next_step System.anything_allowed
  (window_law_iff_undecided run).mp fun c outcome hfinal => by
    have hnone : ∀ c, oneVoteRun.state.store.tally.finalOutcome c = none := by
      intro c
      rfl
    rw [hnone] at hfinal
    cases hfinal

/-- Within the hour, the admin cannot dispute the final outcome. -/
theorem hasty_outcome_undisputed :
    Contract.run (ReportOp.disputeOutcome 1 2 9).perform ⟨home, 1003, 1003, [adminAddress]⟩
      hastyRun.state.frame ≠ .ok ((), hastyRun.state.frame) :=
  have run : (manager home fun _ (_ : WillingRegistries) => False).Run hastyRun.history
      hastyRun.state := hastyRun.run World.next_step System.anything_allowed
  ((decided_for_good run).1 1 2 9 _ _).2

/-- With a window of an hour the call is final, and paid out, a second after the second vote. -/
theorem final_without_window :
    (manager home fun _ (_ : WillingRegistries) => False).Run hastyRun.history hastyRun.state ∧
      hastyRun.state.store.settings.disputeWindow = 3600 ∧
      hastyRun.state.store.tally.finalOutcome 1 = some ⟨1, 1, 7, 1000⟩ ∧
      hastyRun.state.store.tally.settledAt 1 = some 1002 ∧
      hastyRun.state.store.payouts.claimed (1, ⟨1⟩) = true ∧ ¬ WindowLaw hastyRun.state.store := by
  have run : (manager home fun _ (_ : WillingRegistries) => False).Run hastyRun.history
      hastyRun.state := hastyRun.run World.next_step System.anything_allowed
  have hfinal : hastyRun.state.store.tally.finalOutcome 1 = some ⟨1, 1, 7, 1000⟩ := by
    decide +kernel
  refine ⟨run, by decide +kernel, hfinal, by decide +kernel, by decide +kernel, fun hlaw => ?_⟩
  obtain ⟨_, _, hpending, -⟩ := hlaw 1 _ hfinal
  rw [nothing_pending run 1] at hpending
  cases hpending

end Scenario

end Backit.OutcomeManager
