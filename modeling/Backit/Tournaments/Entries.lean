import Backit.Tournaments.Transitions

/-!
# When brackets are submitted

A bracket is accepted before the lock time only. The admin can resolve rounds at any time: when no
round is resolved before the lock time, every bracket is older than the first result.
-/

namespace Backit.Tournaments

open Soroban Contract Lib

section Steps

variable {T : Type} [Tokens T] {env : Env} {f f' : Frame Storage T Event}

theorem TournamentStep.terms_kept {op : TournamentOp} (hstep : TournamentStep env f op f')
    {id : Nat} {c : BracketContest} (hc : f.store.contest.lookup id = some c) :
    ∃ c', f'.store.contest.lookup id = some c' ∧ c'.token = c.token ∧
      c'.entryFee = c.entryFee ∧ c'.lockTs = c.lockTs := by
  cases hstep.contest id with
  | kept hsame => exact ⟨c, hsame.trans hc, rfl, rfl, rfl⟩
  | opened hnew =>
    rw [hnew] at hc
    cases hc
  | submitted hsubmits hc' =>
    obtain rfl := Option.some.inj (hc.symm.trans hsubmits.stored)
    exact ⟨_, hc', rfl, rfl, rfl⟩
  | resolved hstored _ _ _ hc' =>
    obtain rfl := Option.some.inj (hc.symm.trans hstored)
    exact ⟨_, hc', rfl, rfl, rfl⟩
  | finalized hfinalizes hc' =>
    obtain rfl := Option.some.inj (hc.symm.trans hfinalizes.stored)
    exact ⟨_, hc', rfl, rfl, rfl⟩

end Steps

/-- The entry points of the invocations in a history, most recent first. -/
def ops (history : List (Happening TournamentOp Event)) : List TournamentOp :=
  (invocations history).map (·.op)

/-- No bracket is younger than a result of its contest. The entry points are listed from the most
recent one. -/
def Uninformed (made : List TournamentOp) : Prop :=
  ∀ newer older user id picks, made = newer ++ .submitBracket user id picks :: older →
    ∀ winners, .resolveRound id winners ∉ older

/-- A round is resolved at the lock time at the earliest. -/
def ResolvedLate (s : Storage) (env : Env) : TournamentOp → Prop
  | .resolveRound id _ => ∀ c ∈ s.contest.lookup id, c.lockTs ≤ env.timestamp
  | _ => True

instance (s : Storage) (env : Env) : (op : TournamentOp) → Decidable (ResolvedLate s env op)
  | .resolveRound id _ => inferInstanceAs (Decidable (∀ c ∈ s.contest.lookup id, _))
  | .initializeTournaments .. | .createTournament .. | .enterMarket .. | .updateMarketStats ..
  | .finalizeTournament _ | .initBracket .. | .submitBracket .. | .finalizeBracket _ =>
    inferInstanceAs (Decidable True)

/-- The contests with results are locked. -/
def ResultsLocked (made : List TournamentOp) (s : Storage) (now : Nat) : Prop :=
  ∀ id winners, .resolveRound id winners ∈ made →
    ∃ c, s.contest.lookup id = some c ∧ c.lockTs ≤ now

theorem Uninformed.cons {made : List TournamentOp} {op : TournamentOp} (h : Uninformed made)
    (hop : ∀ user id picks, op = .submitBracket user id picks →
      ∀ winners, .resolveRound id winners ∉ made) : Uninformed (op :: made) := by
  intro newer older user id picks heq
  cases newer with
  | nil =>
    obtain ⟨rfl, rfl⟩ := List.cons.inj heq
    exact hop user id picks rfl
  | cons _ newer => exact h newer older user id picks (List.cons.inj heq).2

section Run

variable {T : Type} [Tokens T] {self : Address} {outside : T → T → Prop}
  {history : List (Happening TournamentOp Event)} {d : Deployment Storage T}

/-- No round is resolved before the lock time of its contest. -/
def LateResults (T : Type) : System.Guard (Deployment Storage T) (Happening TournamentOp Event) :=
  fun _ d l => ∀ i, l.invocation = some i → ResolvedLate d.store i.env i.op

/-- The contests with results stay locked, and a round that is resolved late locks its own. -/
theorem ResultsLocked.step {env : Env} {op : TournamentOp} {f f' : Frame Storage T Event}
    {made : List TournamentOp} {now : Nat} (h : ResultsLocked made f.store now)
    (hnow : now ≤ env.timestamp) (hlate : ResolvedLate f.store env op)
    (hstep : TournamentStep env f op f') : ResultsLocked (op :: made) f'.store env.timestamp := by
  intro id winners hmem
  have hlocked : ∃ c, f.store.contest.lookup id = some c ∧ c.lockTs ≤ env.timestamp := by
    rcases List.mem_cons.mp hmem with heq | hmem
    · subst heq
      cases hstep with
      | resolved _ _ hc => exact ⟨_, hc, hlate _ hc⟩
    · obtain ⟨c, hc, hlock⟩ := h id winners hmem
      exact ⟨c, hc, hlock.trans hnow⟩
  obtain ⟨c, hc, hlock⟩ := hlocked
  obtain ⟨c', hc', -, -, hsame⟩ := hstep.terms_kept hc
  exact ⟨c', hc', by rw [hsame]; exact hlock⟩

/-- When no round is resolved before the lock time, no bracket is accepted after a result of its
contest. -/
theorem uninformed_of_run
    (hrun : (tournaments self outside).RunWhere (LateResults T) history d) :
    Uninformed (ops history) := by
  suffices h : ResultsLocked (ops history) d.store d.timestamp ∧ Uninformed (ops history) from h.2
  refine contract_invariant (I := fun h d => ResultsLocked (ops h) d.store d.timestamp ∧
    Uninformed (ops h)) ?_ ?_ ?_ hrun
  · intro d _
    refine ⟨fun _ _ hmem => absurd hmem List.not_mem_nil, ?_⟩
    intro newer older user id picks heq
    simp [ops] at heq
  · rintro h d env op f hrun ⟨hlocked, huninformed⟩ hadmissible hinvoke hlate
    have hstep := TournamentOp.steps (stored_of_run hrun) hinvoke
    refine ⟨hlocked.step hadmissible.timestamp (hlate _ rfl) hstep, huninformed.cons ?_⟩
    rintro user id picks rfl winners hmem
    obtain ⟨c, hc, hlock⟩ := hlocked id winners hmem
    cases hstep with
    | submitted hsubmits =>
      obtain rfl := Option.some.inj (hc.symm.trans hsubmits.stored)
      have hopen := hsubmits.open_
      have hnow := hadmissible.timestamp
      omega
  · intro h d peers _ ih _
    exact ih

end Run

/-- The token that the entry fees are paid in. -/
def usdc : Address := ⟨50⟩

/-- A bracket in which the first of two teams always wins. -/
def firstTeams : List Nat := [0, 2, 4, 6, 8, 10, 12, 14, 0, 4, 8, 12, 0, 8, 0]

/-- Alice and Bob have something for an entry fee. -/
def funded : Deployment Storage StandardLedger :=
  deployed fun token =>
    if token = usdc then
      (Holdings.empty.set alice 4400 (by decide)).set bob 4400 (by decide)
    else .empty

theorem funded_initial : closed.initial funded := deployed_initial _

/-- A contest with an entry fee of 4400 that is locked at 30. -/
def bracketOpening : List (Env × TournamentOp) :=
  [at_ 1 [] (.initializeTournaments admin factory), at_ 2 [admin] (.initBracket 1 usdc 4400 30)]

/-- The round is resolved late, if the invocation resolves one. -/
def lately (_ : List (Happening TournamentOp Event)) (d : Deployment Storage StandardLedger)
    (l : Happening TournamentOp Event) : Bool :=
  l.invocation.all fun i => ResolvedLate d.store i.env i.op

theorem lately_late (h : List (Happening TournamentOp Event))
    (d : Deployment Storage StandardLedger) (l : Happening TournamentOp Event)
    (hlate : lately h d l = true) : LateResults StandardLedger h d l := by
  intro i hi
  rw [lately, hi] at hlate
  exact of_decide_eq_true hlate

/-- Alice enters, and the first round is resolved when the contest is locked. -/
def lockedContest : System.Replayed closed (Deployment.next TournamentOp.perform cup) lately :=
  .of funded funded_initial (bracketOpening ++
    [at_ 5 [alice] (.submitBracket alice 1 firstTeams),
      at_ 30 [admin] (.resolveRound 1 (firstTeams.take 8))]) (by decide +kernel)

/-- The first round is resolved before the contest is locked, and then Alice enters. -/
def informedContest : Cup :=
  .of funded funded_initial (bracketOpening ++
    [at_ 5 [admin] (.resolveRound 1 (firstTeams.take 8)),
      at_ 6 [alice] (.submitBracket alice 1 firstTeams)]) (by decide +kernel)

theorem locked_contest_uninformed : Uninformed (ops lockedContest.history) :=
  uninformed_of_run (lockedContest.run Deployment.next_step lately_late)

/-- Alice picks the winners of a round that is over. -/
theorem informed_bracket_accepted : closed.Run informedContest.history informedContest.state ∧
      ¬ Uninformed (ops informedContest.history) := by
  have hops : ops informedContest.history = [.submitBracket alice 1 firstTeams,
      .resolveRound 1 (firstTeams.take 8), .initBracket 1 usdc 4400 30,
      .initializeTournaments admin factory] := by decide +kernel
  refine ⟨informedContest.run Deployment.next_step System.anything_allowed, fun h => ?_⟩
  exact h [] _ alice 1 firstTeams hops (firstTeams.take 8) (.head _)

end Backit.Tournaments
