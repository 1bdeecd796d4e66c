import Backit.OutcomeManager.Finality
import Backit.Platform.OnePayout

/-!
# The submission window

A report is accepted up to a delay after the end of its call, where the end is what the caller of
the submission states: it is neither signed nor read from the registry, and there is no earliest
time. So an accepted report is signed by the stated deadline, and within the window of its call if
the caller states no later end than the registry stores and the report is signed for no earlier
time. The outcomes that reports make final are those of accepted reports.
-/

namespace Backit.Platform

open Soroban Contract Lib OutcomeManager

/-- The end of a call that the contract at an address stores. -/
def Ledger.callEnd {S : Type} (l : Ledger S) (address : Address) (callId : Nat) : Option Nat :=
  match l.resident address with
  | .registry s => (s.getCall callId).map CallRegistry.Call.endTs
  | .market s => (s.pool.call.filter (·.id = callId)).map PredictionMarket.Call.endTs
  | _ => none

/-- A submission of a report: the registry, the report, and the end of the call that its caller
states. -/
structure Submission where
  registry : Address
  signed : SignedOutcome
  callEndTs : Nat
deriving DecidableEq

section Window

variable {S : Type} [Strangers S] [Crypto]

/-- The submission that a step makes to the manager at an address. -/
def World.submission (m : Address) (w : World S) : Label → Option Submission
  | .managed ⟨env, .report (.submitOutcome registry signed callEndTs), _⟩ =>
    if env.contract = m then some ⟨registry, signed, callEndTs⟩ else none
  | .managed ⟨env, .report (.submitOutcomeForMarket signed callEndTs), _⟩ =>
    if env.contract = m then
      (w.factoryMarket m signed.callId).map fun registry => ⟨registry, signed, callEndTs⟩
    else none
  | _ => none

omit [Strangers S] [Crypto] in
/-- The report is signed for a time from the end of its call, as the registry stores it, until the
manager's delay after it. -/
def World.InWindow (m : Address) (w : World S) (x : Submission) : Prop :=
  ∃ s endTs, w.ledger.managerAt m = some s ∧
    w.ledger.callEnd x.registry x.signed.callId = some endTs ∧
    endTs ≤ x.signed.timestamp ∧ x.signed.timestamp ≤ endTs + s.settings.maxSubmissionDelay

omit [Strangers S] [Crypto] in
/-- The caller states no later end than the registry stores, and the report is signed for no earlier
time. -/
def World.statesEnd (w : World S) (x : Submission) : Bool :=
  match w.ledger.callEnd x.registry x.signed.callId with
  | some endTs => x.callEndTs ≤ endTs && endTs ≤ x.signed.timestamp
  | none => false

omit [Strangers S] [Crypto] in
/-- The report is signed by the manager's delay after the end that its caller states. -/
def World.ByDeadline (m : Address) (w : World S) (x : Submission) : Prop :=
  ∃ s, w.ledger.managerAt m = some s ∧
    x.signed.timestamp ≤ x.callEndTs + s.settings.maxSubmissionDelay

/-- The step submits an observation of a call's resolution to the manager. -/
def Label.observes (m : Address) (callId : Nat) : Label → Prop
  | .managed ⟨env, .report (.submitResolutionObservation c _ _), _⟩ => env.contract = m ∧ c = callId
  | _ => False

end Window

section Runs

variable {S : Type} [Strangers S] [Crypto] [Network] [Deployer] {outside : S → S → Prop}
  {guard : System.Guard (World S) Label} {m : Address} {history : List Label} {w w' : World S}
  {l : Label}

/-- The run accepted the submission from a state. -/
def Accepts (outside : S → S → Prop) (guard : System.Guard (World S) Label) (m : Address)
    (history : List Label) (w : World S) (x : Submission) (s : World S) : Prop :=
  ∃ l, System.Took (platform outside) guard history w l s ∧ x ∈ s.submission m l

/-- Every report that a run accepts is signed within the window of its call, and so is every outcome
that reports make final. -/
structure WindowLaw (outside : S → S → Prop) (guard : System.Guard (World S) Label) (m : Address)
    (history : List Label) (w : World S) : Prop where
  accepted : ∀ x s, Accepts outside guard m history w x s → s.InWindow m x
  final : ∀ s, w.ledger.managerAt m = some s → ∀ c outcome,
    s.tally.finalOutcome c = some outcome →
    (∃ x before, Accepts outside guard m history w x before ∧ x.signed.callId = c ∧
      x.signed.stated = outcome ∧ before.InWindow m x) ∨
    ∃ l ∈ history, l.observes m c

/-- Every report that a run accepts is signed by the deadline that its caller states, and within the
window of its call if the caller states the end of the call. Every outcome that reports make final
is that of an accepted report. -/
structure StatedWindowLaw (outside : S → S → Prop) (guard : System.Guard (World S) Label)
    (m : Address) (history : List Label) (w : World S) : Prop where
  byDeadline : ∀ x s, Accepts outside guard m history w x s → s.ByDeadline m x
  inWindow : ∀ x s, Accepts outside guard m history w x s → s.statesEnd x = true → s.InWindow m x
  final : ∀ s, w.ledger.managerAt m = some s → ∀ c outcome,
    s.tally.finalOutcome c = some outcome →
    (∃ x before, Accepts outside guard m history w x before ∧ x.signed.callId = c ∧
      x.signed.stated = outcome) ∨
    ∃ l ∈ history, l.observes m c

variable {x : Submission} {effects : List (Effect Act)}

omit [Network] [Deployer] in
/-- What an operation on the tally submits is the submission of its step. -/
theorem submission_of_submits {env : Env} {op : ReportOp}
    {s : OutcomeManager.Storage} {registry : Address} {signed : SignedOutcome} {callEndTs : Nat}
    (hm : w.ledger.managerAt env.contract = some s)
    (h : Submits s.settings (w.ledger.set env.contract .running) op registry signed callEndTs) :
    w.submission env.contract (.managed ⟨env, .report op, effects⟩) =
      some ⟨registry, signed, callEndTs⟩ := by
  cases h with
  | direct => exact if_pos rfl
  | forMarket hfactory hlookup =>
    have hmarket : w.factoryMarket env.contract signed.callId = some registry := by
      simp [World.factoryMarket, hm, hfactory, hlookup]
    rw [World.submission, if_pos rfl, hmarket]
    rfl

omit [Network] [Deployer] in
/-- A step that makes a submission is an operation on the tally that states its report. -/
theorem op_of_submission (hx : x ∈ w.submission m l) :
    ∃ env op effects, l = .managed ⟨env, .report op, effects⟩ ∧ env.contract = m ∧
      (op = .submitOutcome x.registry x.signed x.callEndTs ∨
        op = .submitOutcomeForMarket x.signed x.callEndTs) := by
  unfold World.submission at hx
  split at hx
  · next env registry signed callEndTs effects =>
    split at hx
    · next hm =>
      cases hx
      exact ⟨env, _, effects, rfl, hm, .inl rfl⟩
    · cases hx
  · next env signed callEndTs effects =>
    split at hx
    · next hm =>
      obtain ⟨registry, -, rfl⟩ := Option.map_eq_some_iff.mp hx
      exact ⟨env, _, effects, rfl, hm, .inr rfl⟩
    · cases hx
  · cases hx

/-- An operation on the tally of the manager that it names. -/
theorem WorldStep.reports {env : Env} {op : ReportOp}
    (h : WorldStep outside w (.managed ⟨env, .report op, effects⟩) w') :
    ∃ s t others, w.ledger.managerAt env.contract = some s ∧
      ReportStep env s.settings op s.tally (w.ledger.set env.contract .running) effects t
        others := by
  cases h with
  | @managed _ _ _ s _ hresident hinvoke =>
    obtain ⟨-, f, hrun, rfl, -⟩ := World.invoke_eq_some.mp hinvoke
    obtain ⟨t, others, effects, hstep, rfl⟩ := ReportOp.steps hrun
    have heffects : effects ++ [] = effects := List.append_nil effects
    simp only [Frame.afterReport, heffects]
    exact ⟨s, t, others, Ledger.manager_at_eq.mpr hresident, hstep⟩

/-- An accepted submission is signed by the stated deadline. -/
theorem by_deadline_of_accepted (hstep : WorldStep outside w l w')
    (hx : x ∈ w.submission m l) : w.ByDeadline m x := by
  obtain ⟨env, op, effects, rfl, rfl, hop⟩ := op_of_submission hx
  obtain ⟨s, t, others, hm, hreport⟩ := hstep.reports
  exact ⟨s, hm, hreport.in_time hop⟩

omit [Strangers S] [Crypto] [Network] [Deployer] in
/-- By a deadline from an end that is no later than the stored one, a report is in the window. -/
theorem World.ByDeadline.in_window (h : w.ByDeadline m x)
    (hend : w.statesEnd x = true) : w.InWindow m x := by
  obtain ⟨s, hm, htime⟩ := h
  unfold World.statesEnd at hend
  split at hend
  · next endTs hstored =>
    simp only [Bool.and_eq_true, decide_eq_true_eq] at hend
    exact ⟨s, endTs, hm, hstored, hend.2, by omega⟩
  · cases hend

/-- Nothing is pending at a manager, and its final outcomes come from submissions or observations of
the run. -/
structure FinalOrigins (outside : S → S → Prop) (guard : System.Guard (World S) Label)
    (m : Address) (history : List Label) (w : World S) (t : Tally) : Prop where
  pending : ∀ c, t.pendingOutcome c = none
  final : ∀ c outcome, t.finalOutcome c = some outcome →
    (∃ x before, Accepts outside guard m history w x before ∧ x.signed.callId = c ∧
      x.signed.stated = outcome) ∨ ∃ l ∈ history, l.observes m c

theorem Accepts.tail {s : World S}
    (h : Accepts outside guard m history w x s) (hstep : WorldStep outside w l w')
    (hguard : guard history w l) : Accepts outside guard m (l :: history) w' x s := by
  obtain ⟨l₀, htook, hx⟩ := h
  exact ⟨l₀, htook.tail hstep hguard, hx⟩

/-- A step that keeps what a manager has pending and final keeps the origins. -/
theorem FinalOrigins.kept {t t' : Tally} (h : FinalOrigins outside guard m history w t)
    (hstep : WorldStep outside w l w') (hguard : guard history w l)
    (hpending : t'.pendingOutcome = t.pendingOutcome) (hfinal : t'.finalOutcome = t.finalOutcome) :
    FinalOrigins outside guard m (l :: history) w' t' where
  pending c := by rw [hpending, h.pending]
  final c outcome houtcome := by
    rw [hfinal] at houtcome
    rcases h.final c outcome houtcome with ⟨x, before, haccepts, hc, hstated⟩ | ⟨l₀, hmem, hobs⟩
    · exact .inl ⟨x, before, haccepts.tail hstep hguard, hc, hstated⟩
    · exact .inr ⟨l₀, .tail _ hmem, hobs⟩

/-- An outcome that an operation on the tally makes final is the one it submits, or the operation is
an observation. -/
theorem FinalOrigins.report {env : Env} {op : ReportOp}
    {s : OutcomeManager.Storage} {t' : Tally} {others : Ledger S}
    (h : FinalOrigins outside guard env.contract history w s.tally)
    (run : (platform outside).RunWhere guard history w)
    (hstep : WorldStep outside w (.managed ⟨env, .report op, effects⟩) w')
    (hguard : guard history w (.managed ⟨env, .report op, effects⟩))
    (hm : w.ledger.managerAt env.contract = some s)
    (hreport : ReportStep env s.settings op s.tally (w.ledger.set env.contract .running) effects t'
      others) :
    FinalOrigins outside guard env.contract (.managed ⟨env, .report op, effects⟩ :: history) w'
      t' where
  pending := hreport.pending_kept h.pending
  final c outcome houtcome := by
    rcases hreport.final_origin h.pending houtcome with
      hold | ⟨registry, signed, callEndTs, hsubmits, hc, hstated⟩ | ⟨observation, signature, rfl⟩
    · exact (h.kept hstep hguard rfl rfl).final c outcome hold
    · exact .inl ⟨⟨registry, signed, callEndTs⟩, w,
        ⟨_, run.took hstep hguard, submission_of_submits hm hsubmits⟩, hc, hstated⟩
    · exact .inr ⟨_, .head _, rfl, rfl⟩

theorem final_origins_of_run (run : (platform outside).RunWhere guard history w) :
    ∀ s, w.ledger.managerAt m = some s → FinalOrigins outside guard m history w s.tally := by
  refine run.invariant (I := fun history w => ∀ s, w.ledger.managerAt m = some s →
    FinalOrigins outside guard m history w s.tally) ?_ ?_
  · intro w hw s hm
    have hnone : w.ledger.managerAt m = none := by
      unfold Ledger.managerAt
      rw [show w.ledger.resident = fun _ => .stranger from hw]
      rfl
    rw [hnone] at hm
    cases hm
  · intro history w l w' hrun hI hstep hguard s' hm'
    have hmoves := WorldStep.at_manager hstep m
    rw [hm'] at hmoves
    cases hm : w.ledger.managerAt m with
    | none =>
      rw [hm] at hmoves
      cases hmoves with
      | deployed => exact ⟨fun _ => rfl, fun _ _ hfinal => by cases hfinal⟩
    | some s =>
      have h := hI s hm
      rw [hm] at hmoves
      cases hmoves with
      | invoked hself hinvoked =>
        cases hinvoked.moves with
        | settings => exact h.kept hstep hguard rfl rfl
        | payout => exact h.kept hstep hguard rfl rfl
        | report _ _ _ hreport =>
          subst hself
          exact h.report hrun hstep hguard hm hreport
      | rolled => exact h.kept hstep hguard rfl rfl
      | lapsed =>
        exact h.kept hstep hguard (Tally.lapse_pendingOutcome _ _)
          (Tally.lapse_finalOutcome _ _)
      | untouched => exact h.kept hstep hguard rfl rfl

end Runs

section Scenario

attribute [local instance] scenarioCrypto testNetwork noDeployer

/-- The first oracle signs that call 1 went up at the time 1000, on a registry on which the call
ends at `endTs`. Submissions are accepted for a minute. -/
def endingAt (endTs : Nat) : List Input :=
  [.deploy CallRegistry.home .registry, .deploy OutcomeManager.home .manager,
    .manage ⟨OutcomeManager.home, 1, 1, [OutcomeManager.adminAddress]⟩
      (.settings (.initializeManager OutcomeManager.adminAddress [oracleA, oracleB] 2 collector
        100 3600)), .manage ⟨OutcomeManager.home, 1, 1, [OutcomeManager.adminAddress]⟩
      (.settings (.setParameter (.maxSubmissionDelay 60))),
    .register ⟨CallRegistry.home, 1, 1, [CallRegistry.adminAddress]⟩
      (.desk (.initializeContract CallRegistry.adminAddress OutcomeManager.home 0)),
    .register ⟨CallRegistry.home, 2, 2, [CallRegistry.adminAddress]⟩
      (.desk (.whitelistToken CallRegistry.usdc)),
    .register ⟨CallRegistry.home, 3, 3, [CallRegistry.alice]⟩
      (.market (.createCall CallRegistry.alice { CallRegistry.sampleCall with endTs := endTs })),
    submits CallRegistry.home 5001 oracleA signatureA]

/-- The second oracle's report. Its caller states the end 1000 as well. -/
def secondReport : Input := submits CallRegistry.home 5002 oracleB signatureB

def timelyRun : Replayed System.anything :=
  .of freshWorld fresh_world_initial (endingAt 1000 ++ [secondReport]) (by decide +kernel)

def lateRun : Replayed System.anything :=
  .of freshWorld fresh_world_initial (endingAt 500) (by decide +kernel)

def earlyRun : Replayed System.anything :=
  .of freshWorld fresh_world_initial (endingAt 5000) (by decide +kernel)

/-- The step of the second report. -/
def lateReport : Label × World StandardLedger :=
  (lateRun.state.next secondReport).get (by decide +kernel)

def earlyReport : Label × World StandardLedger :=
  (earlyRun.state.next secondReport).get (by decide +kernel)

/-- A last report that is accepted outside the window breaks the law. -/
theorem not_window_law {history : List Label} {w w' : World StandardLedger} {l : Label}
    {x : Submission} {endTs : Nat}
    (run : (platform fun _ (_ : StandardLedger) => False).Run history w)
    (hstep : (platform fun _ (_ : StandardLedger) => False).step w l w')
    (hx : w.submission OutcomeManager.home l = some x)
    (hstored : w.ledger.callEnd x.registry x.signed.callId = some endTs)
    (hdelay : (w.ledger.managerAt OutcomeManager.home).map (·.settings.maxSubmissionDelay) =
      some 60)
    (hout : x.signed.timestamp < endTs ∨ endTs + 60 < x.signed.timestamp) :
    ¬ WindowLaw (fun _ (_ : StandardLedger) => False) System.anyStep OutcomeManager.home
      (l :: history) w' := by
  intro hlaw
  obtain ⟨s, stored, hm, hend, hfrom, hto⟩ := hlaw.accepted x w ⟨l, run.took hstep trivial, hx⟩
  rw [hstored] at hend
  cases hend
  rw [hm] at hdelay
  have hsettings : s.settings.maxSubmissionDelay = 60 := Option.some.inj hdelay
  omega

end Scenario

end Backit.Platform
