import Backit.OutcomeManager.Finality

/-!
# Confirmations of a resolution

An observation of a resolution is recorded with the oracle, the ledger and the price that its
submitter states. Nothing checks the signature or the ledger, and the outcome is always up. What
the manager does check is that the oracles differ and are authorised, and it takes the median of
the prices. The results below are relative to what an observation's signature covers and what
outcome a price means for a call, neither of which the manager has.
-/

namespace Backit.OutcomeManager

open Soroban Lib Shared

/-- A recorded observation, the signature that came with it, and the ledger it was recorded at. -/
structure Recording where
  observation : ResolutionObservation
  signature : BytesN 64
  sequence : Nat
  deriving DecidableEq

/-- The recordings on a call since its observations last lapsed, oldest first. -/
def recordings (c : Nat) : List Label → List Recording
  | [] => []
  | .invoked ⟨env, .report (.submitResolutionObservation callId observation signature), _⟩ ::
      history =>
    if callId = c then recordings c history ++ [⟨observation, signature, env.sequence⟩]
    else recordings c history
  | .lapsed (.resolutionObservations callId) :: history =>
    if callId = c then [] else recordings c history
  | _ :: history => recordings c history

section Law

variable {R : Type} [Registries R] [Crypto] [Network]

/-- The signature of an observation is its oracle's, the ledger it states is the current one, and
when it confirms the resolution the median price means up. -/
structure Faithful (encode : Nat → ResolutionObservation → Bytes) (implied : Nat → Int → Nat)
    (s : Storage) (env : Env) (c : Nat) (observation : ResolutionObservation)
    (signature : BytesN 64) : Prop where
  signed : Crypto.ed25519Verify observation.oracle (encode c observation) signature = true
  current : observation.ledgerSequence = env.sequence
  up : confirmed s.settings (s.tally.resolutionObservations c ++ [observation]) = true →
    ∀ price, IsMedian ((s.tally.resolutionObservations c ++ [observation]).map (·.price)) price →
      implied c price = outcomeUp

/-- Every observation of a resolution is faithful. -/
def faithfulObservations (encode : Nat → ResolutionObservation → Bytes)
    (implied : Nat → Int → Nat) : System.Guard (World R) Label := fun _ w l =>
  ∀ env c observation signature,
    l.onReport = some (env, .submitResolutionObservation c observation signature) →
      Faithful encode implied w.store env c observation signature

/-- The run recorded the observation at its ledger, when its oracle was authorised. -/
def Recorded (self : Address) (outside : R → R → Prop) (guard : System.Guard (World R) Label)
    (history : List Label) (w : World R) (c : Nat) (r : Recording) : Prop :=
  ∃ env effects s, System.Took (manager self outside) guard history w
      (.invoked ⟨env, .report (.submitResolutionObservation c r.observation r.signature), effects⟩)
      s ∧
    env.sequence = r.sequence ∧ s.store.settings.authorises r.observation.oracle

/-- The observations on a call are the recordings since they last lapsed, by distinct oracles. -/
structure RecordsKept (address : Address) (outside : R → R → Prop)
    (guard : System.Guard (World R) Label) (history : List Label) (w : World R) : Prop where
  observations : ∀ c,
    (recordings c history).map (·.observation) = w.store.tally.resolutionObservations c
  distinct : ∀ c, ((recordings c history).map (·.observation.oracle)).Nodup
  recorded : ∀ c, ∀ r ∈ recordings c history, Recorded address outside guard history w c r

/-- A resolution of a call with enough confirmations: recordings by distinct oracles, authorised
when they were recorded and each signed, over the required span of actual ledgers, of prices with
the final price as their median, which means the final outcome. -/
structure WellConfirmed (address : Address) (outside : R → R → Prop)
    (guard : System.Guard (World R) Label) (encode : Nat → ResolutionObservation → Bytes)
    (implied : Nat → Int → Nat) (history : List Label) (w : World R) (s : Settings) (c : Nat)
    (outcome : Outcome) : Prop where
  enough : s.resolutionConfirmations ≤ (recordings c history).length
  distinct : ((recordings c history).map (·.observation.oracle)).Nodup
  recorded : ∀ r ∈ recordings c history, Recorded address outside guard history w c r
  signed : ∀ r ∈ recordings c history,
    Crypto.ed25519Verify r.observation.oracle (encode c r.observation) r.signature = true
  span : ∃ first last, (recordings c history).head? = some first ∧
    (recordings c history).getLast? = some last ∧
    s.resolutionMinBlocks ≤ last.sequence - first.sequence
  median : IsMedian ((recordings c history).map (·.observation.price)) outcome.price
  means : outcome.outcome = implied c outcome.price

end Law

section Runs

variable {R : Type} [Registries R] [Crypto] [Network] {self : Address} {outside : R → R → Prop}
  {guard : System.Guard (World R) Label} {history : List Label} {w w' : World R} {l : Label}

theorem Recorded.tail {c : Nat} {r : Recording} (h : Recorded self outside guard history w c r)
    (hstep : (manager self outside).step w l w') (hguard : guard history w l) :
    Recorded self outside guard (l :: history) w' c r := by
  obtain ⟨env, effects, s, htook, hsequence, hauth⟩ := h
  exact ⟨env, effects, s, htook.tail hstep hguard, hsequence, hauth⟩

/-- A step that leaves the recordings of every call as they are. -/
theorem RecordsKept.tail (h : RecordsKept self outside guard history w)
    (hstep : (manager self outside).step w l w') (hguard : guard history w l)
    (hrecordings : ∀ c, recordings c (l :: history) = recordings c history)
    (hsame : w'.store.tally.resolutionObservations = w.store.tally.resolutionObservations) :
    RecordsKept self outside guard (l :: history) w' where
  observations c := by
    rw [hrecordings, hsame]
    exact h.observations c
  distinct c := by
    rw [hrecordings]
    exact h.distinct c
  recorded c r hr := by
    rw [hrecordings] at hr
    exact (h.recorded c r hr).tail hstep hguard

theorem RecordsKept.observe (h : RecordsKept self outside guard history w)
    (run : (manager self outside).RunWhere guard history w) {env : Env} {c : Nat}
    {observation : ResolutionObservation} {signature : BytesN 64} {effects : List (Effect Act)}
    (hstep : (manager self outside).step w (.invoked
      ⟨env, .report (.submitResolutionObservation c observation signature), effects⟩) w')
    (hguard : guard history w (.invoked
      ⟨env, .report (.submitResolutionObservation c observation signature), effects⟩))
    (hobserved : Observed w.store.settings w.store.tally c observation)
    (hadded : w'.store.tally.resolutionObservations =
      (w.store.tally.addResolution c observation).resolutionObservations) :
    RecordsKept self outside guard (.invoked
      ⟨env, .report (.submitResolutionObservation c observation signature), effects⟩ :: history)
      w' := by
  have hnow := run.took hstep hguard
  refine ⟨fun c' => ?_, fun c' => ?_, fun c' r hr => ?_⟩
  · rw [hadded]
    by_cases hc : c = c'
    · subst hc
      simp [recordings, Tally.addResolution, h.observations]
    · simp [recordings, Tally.addResolution, hc, Ne.symm hc, h.observations]
  · by_cases hc : c = c'
    · subst hc
      simp only [recordings, if_true, List.map_append, List.map_cons, List.map_nil]
      refine List.Nodup.append (h.distinct c) (List.nodup_singleton _) ?_
      intro oracle hold hnew
      obtain ⟨r, hr, rfl⟩ := List.mem_map.mp hold
      have hmem : r.observation ∈ w.store.tally.resolutionObservations c := by
        rw [← h.observations]
        exact List.mem_map_of_mem hr
      exact hobserved.fresh _ hmem (List.mem_singleton.mp hnew)
    · simp only [recordings, if_neg hc]
      exact h.distinct c'
  · by_cases hc : c = c'
    · subst hc
      simp only [recordings, if_true, List.mem_append, List.mem_singleton] at hr
      rcases hr with hr | rfl
      · exact (h.recorded c r hr).tail hstep hguard
      · exact ⟨env, effects, w, hnow, rfl, hobserved.authorised⟩
    · simp only [recordings, if_neg hc] at hr
      exact (h.recorded c' r hr).tail hstep hguard

theorem records_kept (run : (manager self outside).RunWhere guard history w) :
    RecordsKept self outside guard history w := by
  refine run.invariant (I := fun h w => RecordsKept self outside guard h w) ?_ ?_
  · intro s hs
    refine ⟨fun c => ?_, fun c => .nil, fun c r hr => by cases hr⟩
    rw [show s.store = Storage.empty from hs]
    rfl
  · intro h s l s' hrun ih hstep hguard
    cases hstep.moves with
    | settings => exact ih.tail hstep hguard (fun _ => rfl) rfl
    | payout => exact ih.tail hstep hguard (fun _ => rfl) rfl
    | elsewhere => exact ih.tail hstep hguard (fun _ => rfl) rfl
    | @lapsed _ _ _ _ _ _ key =>
      cases key with
      | resolutionObservations callId =>
        refine ⟨fun c => ?_, fun c => ?_, fun c r hr => ?_⟩
        · by_cases hc : callId = c
          · subst hc
            simp [recordings, Tally.lapse]
          · have hkept := ih.observations c
            simpa [recordings, hc, Tally.lapse, Ne.symm hc] using hkept
        · simp only [recordings]
          split
          · exact .nil
          · exact ih.distinct c
        · simp only [recordings] at hr
          split at hr
          · cases hr
          · exact (ih.recorded c r hr).tail hstep hguard
      | _ => exact ih.tail hstep hguard (fun _ => rfl) rfl
    | report _ _ _ hreport =>
      cases hreport with
      | vote hsubmits =>
        refine ih.tail hstep hguard (fun _ => ?_) rfl
        cases hsubmits <;> rfl
      | decide hsubmits =>
        refine ih.tail hstep hguard (fun _ => ?_) rfl
        cases hsubmits <;> rfl
      | observe hobserved _ => exact ih.observe hrun hstep hguard hobserved rfl
      | confirm hobserved _ _ _ _ => exact ih.observe hrun hstep hguard hobserved rfl
      | price => exact ih.tail hstep hguard (fun _ => rfl) rfl
      | finalizeOutcome => exact ih.tail hstep hguard (fun _ => rfl) rfl
      | disputeOutcome => exact ih.tail hstep hguard (fun _ => rfl) rfl

omit [Registries R] [Crypto] [Network] in
/-- Observations that confirm are enough, and their first and last are far enough apart. -/
theorem confirmed_spans {s : Settings} {observations : List ResolutionObservation}
    (h : confirmed s observations = true) :
    s.resolutionConfirmations ≤ observations.length ∧
      ∃ first last, observations.head? = some first ∧ observations.getLast? = some last ∧
        s.resolutionMinBlocks ≤ last.ledgerSequence - first.ledgerSequence := by
  unfold confirmed at h
  split at h
  · next first last hfirst hlast =>
    simp only [Bool.and_eq_true, decide_eq_true_eq] at h
    exact ⟨h.1, first, last, hfirst, hlast, h.2⟩
  · cases h

variable {encode : Nat → ResolutionObservation → Bytes} {implied : Nat → Int → Nat}

/-- The recordings of a run of faithful observations are signed, and state their ledgers. -/
theorem Recorded.faithful {c : Nat} {r : Recording}
    (h : Recorded self outside (faithfulObservations encode implied) history w c r) :
    Crypto.ed25519Verify r.observation.oracle (encode c r.observation) r.signature = true ∧
      r.observation.ledgerSequence = r.sequence := by
  obtain ⟨env, effects, s, ⟨_, _, _, _, hguard, _⟩, hsequence, _⟩ := h
  have hfaithful := hguard env c r.observation r.signature rfl
  exact ⟨hfaithful.signed, hfaithful.current.trans hsequence⟩

/-- When every observation is faithful, a call that a resolution observation makes final is well
confirmed: by distinct authorised oracles that signed, over the required ledgers, at the median of
their prices, with the outcome that it means. -/
theorem resolution_well_confirmed
    (run : (manager self outside).RunWhere (faithfulObservations encode implied) history w)
    (hstep : (manager self outside).step w l w')
    (hguard : faithfulObservations encode implied history w l) {env : Env} {c : Nat}
    {observation : ResolutionObservation} {signature : BytesN 64}
    (hop : l.onReport = some (env, .submitResolutionObservation c observation signature))
    (hundecided : w.store.tally.finalOutcome c = none) {outcome : Outcome}
    (hfinal : w'.store.tally.finalOutcome c = some outcome) :
    WellConfirmed self outside (faithfulObservations encode implied) encode implied (l :: history)
      w' w.store.settings c outcome := by
  have hkept := records_kept (run.tail hstep hguard)
  have hbefore := (records_kept run).observations c
  have hfaithful := hguard env c observation signature hop
  cases hstep.moves with
  | settings => cases hop
  | payout => cases hop
  | lapsed => cases hop
  | elsewhere => cases hop
  | report _ _ _ hreport =>
    cases hop
    cases hreport with
    | vote hsubmits => cases hsubmits
    | decide hsubmits => cases hsubmits
    | observe _ _ =>
      -- One more observation leaves the final outcomes as they are.
      cases hundecided.symm.trans hfinal
    | confirm hobserved hconfirmed hmedian _ _ =>
      change (Tally.settle _ c _ _).finalOutcome c = some outcome at hfinal
      simp only [Tally.settle, Function.update_self, Option.some.injEq] at hfinal
      subst hfinal
      -- The recordings stand for the observations that the manager counted.
      have hobservations := hkept.observations c
      change _ = (Tally.addResolution _ c observation).resolutionObservations c
        at hobservations
      simp only [Tally.addResolution, Function.update_self] at hobservations
      have hprices := congrArg (List.map (·.price)) hobservations
      rw [List.map_map] at hprices
      have hcount := congrArg List.length hobservations
      rw [List.length_map] at hcount
      obtain ⟨hcounted, old, new, hold, hnew, hspan⟩ := confirmed_spans hconfirmed
      rw [← hobservations, List.head?_map, Option.map_eq_some_iff] at hold
      rw [← hobservations, List.getLast?_map, Option.map_eq_some_iff] at hnew
      obtain ⟨first, hfirst, rfl⟩ := hold
      obtain ⟨last, hlast, rfl⟩ := hnew
      have hstated := (hkept.recorded c first (List.mem_of_mem_head? hfirst)).faithful.2
      have hfinish := (hkept.recorded c last (List.mem_of_getLast? hlast)).faithful.2
      refine ⟨hcount ▸ hcounted, hkept.distinct c, hkept.recorded c,
        fun r hr => (hkept.recorded c r hr).faithful.1, ⟨first, last, hfirst, hlast, ?_⟩, ?_, ?_⟩
      · rw [← hstated, ← hfinish]
        exact hspan
      · rw [show (recordings c _).map (·.observation.price) = _ from hprices]
        exact hmedian
      · exact (hfaithful.up hconfirmed _ hmedian).symm

end Runs

section Scenario

/-- What an oracle signs when it observes a resolution, in the scenarios. -/
def encodeObservation (c : Nat) (observation : ResolutionObservation) : Bytes :=
  beBytes 8 c ++ observation.oracle.bytes ++ beBytes 8 observation.ledgerSequence

/-- A price of 5 or more means up. -/
def impliedOutcome (_ : Nat) (price : Int) : Nat := if 5 ≤ price then outcomeUp else outcomeDown

/-- The observation of an oracle at a ledger. -/
def observed (oracle : BytesN 32) (price : Int) (ledger : Nat) : ResolutionObservation :=
  ⟨oracle, price, 1000, ledger⟩

/-- The observations that the oracles of the scenarios have signed. -/
abbrev observationCrypto : Crypto where
  sha256 := Sha256.sha256
  ed25519Verify key message signature :=
    decide ((key, message, signature) ∈
      [(oracleA, encodeObservation 1 (observed oracleA 7 5), signatureA),
        (oracleB, encodeObservation 1 (observed oracleB 9 8), signatureB)])

attribute [local instance] observationCrypto testNetwork

/-- An observation of call 1 is sent at a ledger. -/
def observes (ledger : Nat) (observation : ResolutionObservation) (signature : BytesN 64) :
    Input :=
  at_ ledger [] (.report (.submitResolutionObservation 1 observation signature))

/-- The manager decides on two observations at least three ledgers apart. -/
def preparation : List Input :=
  [opening,
    at_ 2 [adminAddress] (.settings (.setParameter (.registry marketAddress))),
    at_ 3 [adminAddress] (.settings (.setParameter (.resolutionConfig 2 3)))]

/-- The first oracle observes. -/
def observationScript : List Input := preparation ++ [observes 5 (observed oracleA 7 5) signatureA]

/-- Someone observes, within one ledger and with one signature, for both oracles. -/
def inventedScript : List Input :=
  preparation ++
    [observes 5 (observed oracleA 2 5) signatureA, observes 5 (observed oracleB 2 8) signatureA]

/-- The decidable part of being faithful. -/
def checksFaithful (_ : List Label) (w : World WillingRegistries) (l : Label) : Bool :=
  match l.onReport with
  | some (env, .submitResolutionObservation c observation signature) =>
    Crypto.ed25519Verify observation.oracle (encodeObservation c observation) signature &&
      decide (observation.ledgerSequence = env.sequence) &&
      decide (∀ o ∈ w.store.tally.resolutionObservations c ++ [observation], 5 ≤ o.price)
  | _ => true

theorem checks_faithful (h : List Label) (w : World WillingRegistries) (l : Label)
    (hchecks : checksFaithful h w l = true) :
    faithfulObservations encodeObservation impliedOutcome h w l := by
  intro env c observation signature hl
  simp only [checksFaithful, hl, Bool.and_eq_true, decide_eq_true_eq] at hchecks
  obtain ⟨⟨hsigned, hcurrent⟩, hprices⟩ := hchecks
  refine ⟨hsigned, hcurrent, fun _ price hmedian => ?_⟩
  have hlow : 5 ≤ price := by
    refine hmedian.lower_bound fun p hp => ?_
    obtain ⟨o, ho, rfl⟩ := List.mem_map.mp hp
    exact hprices o ho
  rw [impliedOutcome, if_pos hlow]

def observationRun : Replayed checksFaithful :=
  .of freshWorld fresh_world_initial observationScript (by decide +kernel)

/-- The second oracle confirms the observation of the first, three ledgers later. -/
def confirmation : Label × World WillingRegistries :=
  (World.next home observationRun.state (observes 8 (observed oracleB 9 8) signatureB)).get
    (by decide +kernel)

def inventedRun : Replayed System.anything :=
  .of freshWorld fresh_world_initial inventedScript (by decide +kernel)

/-- Two oracles confirm that call 1 went up, at the mean of their prices. -/
theorem resolution_well_confirmed_by_two :
    WellConfirmed home (fun _ (_ : WillingRegistries) => False)
      (faithfulObservations encodeObservation impliedOutcome) encodeObservation impliedOutcome
      (confirmation.1 :: observationRun.history) confirmation.2
      observationRun.state.store.settings 1 ⟨1, outcomeUp, 8, 1000⟩ :=
  have run : (manager home fun _ (_ : WillingRegistries) => False).RunWhere
      (faithfulObservations encodeObservation impliedOutcome) observationRun.history
      observationRun.state :=
    observationRun.run World.next_step checks_faithful
  have hstep : (manager home fun _ (_ : WillingRegistries) => False).step observationRun.state
      confirmation.1 confirmation.2 :=
    World.next_get (by decide +kernel)
  have hguard : faithfulObservations encodeObservation impliedOutcome observationRun.history
      observationRun.state confirmation.1 :=
    checks_faithful _ _ _ (by decide +kernel)
  have hop : confirmation.1.onReport = some (⟨home, 8, 8, []⟩,
      .submitResolutionObservation 1 (observed oracleB 9 8) signatureB) := rfl
  resolution_well_confirmed run hstep hguard hop (by decide +kernel) (by decide +kernel)

/-- Two invented observations, in one ledger and with no oracle's signature on the second, make
call 1 final: up, at a price that means down. -/
theorem invented_resolution :
    (manager home fun _ (_ : WillingRegistries) => False).Run inventedRun.history
        inventedRun.state ∧
      inventedRun.state.store.tally.finalOutcome 1 = some ⟨1, outcomeUp, 2, 1000⟩ ∧
      impliedOutcome 1 2 = outcomeDown ∧
      (recordings 1 inventedRun.history).map (·.sequence) = [5, 5] ∧
      ¬ WellConfirmed home (fun _ (_ : WillingRegistries) => False) System.anyStep
        encodeObservation impliedOutcome inventedRun.history inventedRun.state
        inventedRun.state.store.settings 1 ⟨1, outcomeUp, 2, 1000⟩ := by
  refine ⟨inventedRun.run World.next_step System.anything_allowed, by decide +kernel,
    by decide +kernel, by decide +kernel, fun hconfirmed => ?_⟩
  have hsigned : ∀ r ∈ recordings 1 inventedRun.history,
      observationCrypto.ed25519Verify r.observation.oracle (encodeObservation 1 r.observation)
        r.signature = true := hconfirmed.signed
  exact absurd hsigned (by decide +kernel)

end Scenario

end Backit.OutcomeManager
