import Backit.Tournaments.Prizes
import Backit.Tournaments.Scoring

/-!
# What the entry points of the tournament contract do

Every successful invocation makes one of the listed steps. What the storage always has is kept by
each of them.
-/

namespace Backit.Tournaments

open Soroban Contract Lib

/-- The entry points that write, with their arguments. -/
inductive TournamentOp where
  | initializeTournaments (admin factory : Address)
  | createTournament (admin : Address) (name : String) (startTs endTs : Nat) (prizePool : Int)
      (scoringWeights : ScoringWeights) (topN : UInt32)
  | enterMarket (tournamentId : Nat) (creator : Address) (callId : Nat)
  | updateMarketStats (tournamentId : Nat) (creator : Address) (totalStake : Int)
      (uniqueStakers resolvedCorrect resolvedTotal : UInt32)
  | finalizeTournament (tournamentId : Nat)
  | initBracket (tournamentId : Nat) (token : Address) (entryFee : Int) (lockTs : Nat)
  | submitBracket (user : Address) (tournamentId : Nat) (picks : List Nat)
  | resolveRound (tournamentId : Nat) (winners : List Nat)
  | finalizeBracket (tournamentId : Nat)
  deriving DecidableEq

variable {T : Type}

/-- Run an entry point for its effect. -/
def TournamentOp.perform [Tokens T] : TournamentOp → Contest T Unit
  | .initializeTournaments admin factory => Tournaments.initializeTournaments admin factory
  | .createTournament admin name startTs endTs prizePool scoringWeights topN =>
    ignore (Tournaments.createTournament admin name startTs endTs prizePool scoringWeights topN)
  | .enterMarket tournamentId creator callId => Tournaments.enterMarket tournamentId creator callId
  | .updateMarketStats tournamentId creator totalStake uniqueStakers resolvedCorrect
      resolvedTotal =>
    Tournaments.updateMarketStats tournamentId creator totalStake uniqueStakers resolvedCorrect
      resolvedTotal
  | .finalizeTournament tournamentId => Tournaments.finalizeTournament tournamentId
  | .initBracket tournamentId token entryFee lockTs =>
    Tournaments.initBracket tournamentId token entryFee lockTs
  | .submitBracket user tournamentId picks => Tournaments.submitBracket user tournamentId picks
  | .resolveRound tournamentId winners => Tournaments.resolveRound tournamentId winners
  | .finalizeBracket tournamentId => Tournaments.finalizeBracket tournamentId

/-- The executions of the contract at address `self` from its deployment on. It owes nobody
anything at first. -/
def tournaments [Tokens T] (self : Address) (outside : T → T → Prop) :
    System (Deployment Storage T) (Happening TournamentOp Event) :=
  contractSystem TournamentOp.perform self outside fun d => d.store = Storage.empty ∧
    ∀ token held, Tokens.balance d.peers token self = some held → 0 ≤ held

section Calls

variable {β : Type} {env : Env} {f f' : Frame Storage T Event} {b : β}

@[simp] theorem run_setEntry_bind (entries : Map Address MarketEntry) (creator : Address)
    (entry : MarketEntry) (k : Map Address MarketEntry → Contest T β) :
    run (setEntry entries creator entry >>= k) env f = .ok (b, f') ↔
      (entries.insert creator entry).keys.length < 2 ^ 32 ∧
        run (k (entries.insert creator entry)) env f = .ok (b, f') := by
  simp only [setEntry, Contract.bind_assoc, run_steps, not_le]

@[simp] theorem run_validateWeights_bind (weights : ScoringWeights) (k : Unit → Contest T β) :
    run (validateWeights weights >>= k) env f = .ok (b, f') ↔
      weights.volumeWeightBps + weights.uniquenessWeightBps + weights.accuracyWeightBps = 10000 ∧
        run (k ()) env f = .ok (b, f') := by
  simp only [validateWeights, run_rejectIf_bind, not_not]

end Calls

/-- What the storage has of the tournaments: what the checks of a creation leave, and maps of the
host. -/
structure Stored (s : Storage) : Prop where
  tournament : ∀ id t, s.tournament id = some t → t.id = id ∧ 0 < t.prizePool ∧ 0 < t.topN.toNat
  entered : ∀ id t, s.tournament id = some t → s.marketEntries id ≠ none
  entries : ∀ id entries, s.marketEntries id = some entries → entries.keys.length < 2 ^ 32
  finalized : ∀ id t, s.tournament id = some t → t.status = .finalized →
    s.tournamentStandings id ≠ none
  standings : ∀ id standings, s.tournamentStandings id = some standings →
    standings.length < 2 ^ 32
  pool : ∀ id c, s.contest.lookup id = some c → 0 < c.entryFee ∧
    c.pool = c.entryFee * (s.entrants id).length
  unopened : ∀ id, id ∉ s.contest → s.entrants id = []

section Steps

variable [Tokens T]

/-- The tournament that a creation stores. -/
def createdTournament (id : Nat) (name : String) (startTs endTs : Nat) (prizePool : Int)
    (scoringWeights : ScoringWeights) (topN : UInt32) (createdAt : Nat) : Tournament :=
  { id := id, name := name, startTs := startTs, endTs := endTs, prizePool := prizePool
    scoringWeights := scoringWeights, topN := topN, status := .active, createdAt := createdAt }

/-- A bracket that is accepted. -/
structure Submits (env : Env) (f : Frame Storage T Event) (user : Address) (id : Nat)
    (picks : List Nat) (c : BracketContest) (tokens : T) : Prop where
  auth : user ∈ env.auths
  stored : f.store.contest.lookup id = some c
  open_ : env.timestamp < c.lockTs
  length : picks.length = games
  teams : ∀ p ∈ picks, p < 16
  consistent : consistent picks = true
  first : f.store.picks id user = none
  room : (f.store.entrants id).length < maxEntrants
  paid : Tokens.transfer env c.token user env.contract c.entryFee f.tokens = some tokens

/-- The identifier of the next tournament. -/
def Storage.nextId (s : Storage) : Nat := (s.tournamentCount + 1) % 2 ^ 64

/-- What the entry points do. -/
inductive TournamentStep (env : Env) (f : Frame Storage T Event) :
    TournamentOp → Frame Storage T Event → Prop where
  | initialized {admin factory} : f.store.admin = none →
      TournamentStep env f (.initializeTournaments admin factory)
        ⟨((f.store.setAdmin admin).setFactory factory).setTournamentCount 0, f.tokens, f.effects⟩
  | created {admin name startTs endTs prizePool scoringWeights topN} :
      f.store.admin = some admin → admin ∈ env.auths → startTs < endTs → 0 < prizePool →
      topN ≠ 0 → scoringWeights.volumeWeightBps + scoringWeights.uniquenessWeightBps +
        scoringWeights.accuracyWeightBps = 10000 →
      TournamentStep env f
        (.createTournament admin name startTs endTs prizePool scoringWeights topN)
        ⟨((f.store.setTournamentCount f.store.nextId).setTournament
            (createdTournament f.store.nextId name startTs endTs prizePool scoringWeights topN
              env.timestamp)).setMarketEntries f.store.nextId ∅, f.tokens,
          .event (.tournamentCreated f.store.nextId admin name startTs endTs prizePool) ::
            f.effects⟩
  | entered {factory id creator callId t entries} :
      f.store.factory = some factory → factory ∈ env.auths → f.store.tournament id = some t →
      t.status = .active → t.startTs ≤ env.timestamp → env.timestamp < t.endTs →
      f.store.marketEntryByCallId callId = none →
      entries = (f.store.marketEntries id).getD ∅ → creator ∉ entries →
      (entries.insert creator ⟨callId, 0, 0, 0, 0⟩).keys.length < 2 ^ 32 →
      TournamentStep env f (.enterMarket id creator callId)
        ⟨(f.store.setMarketEntries id (entries.insert creator ⟨callId, 0, 0, 0, 0⟩)
            ).setMarketEntryByCallId callId id creator, f.tokens,
          .event (.marketEntered id creator callId) :: f.effects⟩
  | updated {factory id creator totalStake uniqueStakers resolvedCorrect resolvedTotal entries
      entry} :
      f.store.factory = some factory → factory ∈ env.auths →
      f.store.marketEntries id = some entries → entries.lookup creator = some entry →
      (entries.insert creator ⟨entry.callId, totalStake, uniqueStakers, resolvedCorrect,
        resolvedTotal⟩).keys.length < 2 ^ 32 →
      TournamentStep env f
        (.updateMarketStats id creator totalStake uniqueStakers resolvedCorrect resolvedTotal)
        ⟨f.store.setMarketEntries id (entries.insert creator ⟨entry.callId, totalStake,
            uniqueStakers, resolvedCorrect, resolvedTotal⟩), f.tokens, f.effects⟩
  | finalized {id t entries winner} : Finalizes env f.store id t entries winner →
      TournamentStep env f (.finalizeTournament id)
        ⟨f.store.finalize id t entries, f.tokens, .event (.tournamentFinalized id winner.1
            (((finalStandings t entries).head?.map (·.prize)).getD 0) entries.keys.length) ::
            f.effects⟩
  | bracketOpened {admin id token entryFee lockTs} :
      f.store.admin = some admin → admin ∈ env.auths → 0 < entryFee → id ∉ f.store.contest →
      TournamentStep env f (.initBracket id token entryFee lockTs)
        ⟨f.store.setContest id ⟨token, entryFee, lockTs, 0, [], false⟩, f.tokens, f.effects⟩
  | submitted {user id picks c tokens} : Submits env f user id picks c tokens →
      TournamentStep env f (.submitBracket user id picks)
        ⟨((f.store.setContest id { c with pool := c.pool + c.entryFee }).setPicks id user
            picks).setEntrants id (f.store.entrants id ++ [user]), tokens,
          .transfer c.token user env.contract c.entryFee :: f.effects⟩
  | resolved {admin id winners c} :
      f.store.admin = some admin → admin ∈ env.auths → f.store.contest.lookup id = some c →
      c.results.length < games → winners.length =
        roundStart.getD (roundOf c.results.length + 1) 0 -
          roundStart.getD (roundOf c.results.length) 0 →
      consistent (c.results ++ winners) = true →
      TournamentStep env f (.resolveRound id winners)
        ⟨f.store.setContest id { c with results := c.results ++ winners }, f.tokens, f.effects⟩
  | bracketFinalized {id c tokens} : BracketFinalizes env f id c tokens →
      TournamentStep env f (.finalizeBracket id)
        ⟨f.store.setContest id { c with finalized := true }, tokens,
          paymentEffects c.token env.contract (payments f.store id c) ++ f.effects⟩

variable {env : Env} {f f' : Frame Storage T Event}

theorem Stored.pool_nonneg {s : Storage} (h : Stored s) {id : Nat} {c : BracketContest}
    (hc : s.contest.lookup id = some c) : 0 ≤ c.pool := by
  obtain ⟨hfee, hpool⟩ := h.pool id c hc
  rw [hpool]
  exact mul_nonneg hfee.le (by omega)

theorem TournamentOp.steps {op : TournamentOp} (hstored : Stored f.store)
    (h : run op.perform env f = .ok ((), f')) : TournamentStep env f op f' := by
  cases op with
  | initializeTournaments admin factory =>
    simp only [TournamentOp.perform, Tournaments.initializeTournaments, run_steps,
      Bool.not_eq_true, Option.isSome_eq_false_iff, Option.isNone_iff_eq_none] at h
    obtain ⟨hnone, rfl⟩ := h
    exact .initialized hnone
  | createTournament admin name startTs endTs prizePool scoringWeights topN =>
    simp only [TournamentOp.perform, Tournaments.createTournament, run_ignore, run_steps,
      run_validateWeights_bind, not_not, not_or, not_lt, not_le] at h
    obtain ⟨_, hauth, stored, hadmin, rfl, ⟨-, htimes⟩, hpool, htop, hweights, -, rfl⟩ := h
    exact .created hadmin hauth htimes hpool htop hweights
  | enterMarket id creator callId =>
    simp only [TournamentOp.perform, Tournaments.enterMarket, run_steps, run_setEntry_bind,
      not_not, not_or, not_lt, not_le, Bool.not_eq_true, Option.isSome_eq_false_iff,
      Option.isNone_iff_eq_none] at h
    obtain ⟨factory, hfactory, hauth, t, ht, hactive, ⟨hstart, hend⟩, hcall, hnew, hkeys, rfl⟩ := h
    exact .entered hfactory hauth ht hactive hstart hend hcall rfl hnew hkeys
  | updateMarketStats id creator totalStake uniqueStakers resolvedCorrect resolvedTotal =>
    simp only [TournamentOp.perform, Tournaments.updateMarketStats, run_steps,
      run_setEntry_bind] at h
    obtain ⟨factory, hfactory, hauth, entries, hentries, entry, hentry, hkeys, rfl⟩ := h
    exact .updated hfactory hauth hentries hentry hkeys
  | finalizeTournament id =>
    obtain ⟨t, entries, winner, hfinalizes, rfl⟩ := (run_finalizeTournament
      (fun t ht => (hstored.tournament id t ht).2) (hstored.entries id)).mp h
    exact .finalized hfinalizes
  | initBracket id token entryFee lockTs =>
    simp only [TournamentOp.perform, Tournaments.initBracket, run_steps, not_le] at h
    obtain ⟨admin, hadmin, hauth, hfee, hnew, rfl⟩ := h
    exact .bracketOpened hadmin hauth hfee hnew
  | submitBracket user id picks =>
    simp only [TournamentOp.perform, Tournaments.submitBracket, run_steps, run_contestOf_bind,
      checkedAdd, checked_eq_some, not_le, not_or, not_not, not_exists, not_and, Bool.not_eq_true,
      Bool.not_eq_false, Option.isSome_eq_false_iff, Option.isNone_iff_eq_none] at h
    obtain ⟨hauth, c, hc, hopen, ⟨hlength, hteams, hconsistent⟩, hfirst, hroom, tokens, hpaid, _,
      ⟨-, rfl⟩, rfl⟩ := h
    exact .submitted ⟨hauth, hc, hopen, hlength, hteams, hconsistent, hfirst, hroom, hpaid⟩
  | resolveRound id winners =>
    simp only [TournamentOp.perform, Tournaments.resolveRound, run_steps, run_contestOf_bind,
      not_le, not_or, not_not, Bool.not_eq_false] at h
    obtain ⟨admin, hadmin, hauth, c, hc, hmore, hsize, ⟨hconsistent, -⟩, rfl⟩ := h
    exact .resolved hadmin hauth hc hmore hsize hconsistent
  | finalizeBracket id =>
    obtain ⟨c, tokens, hfinalizes, rfl⟩ := (run_finalizeBracket
      fun c hc => hstored.pool_nonneg hc).mp h
    exact .bracketFinalized hfinalizes

section Preservation

namespace Storage

variable (s : Storage) (id : Nat) (t : Tournament) (entries : Map Address MarketEntry)

theorem setScores_eq (scored : List (Address × Int)) : s.setScores id scored =
      { s with participantScores := (s.setScores id scored).participantScores } := by
  induction scored generalizing s with
  | nil => rfl
  | cons p rest ih => exact ih (s.setParticipantScore id p.1 p.2)

theorem finalize_eq : s.finalize id t entries =
      { s with
        participantScores := (s.finalize id t entries).participantScores
        tournamentStandings :=
          Function.update s.tournamentStandings id (some (finalStandings t entries))
        tournament :=
          Function.update s.tournament t.id (some { t with status := .finalized }) } := by
  unfold finalize
  rw [setScores_eq]
  rfl

@[simp] theorem finalize_tournament :
    (s.finalize id t entries).tournament =
      Function.update s.tournament t.id (some { t with status := .finalized }) := by
  rw [finalize_eq]

@[simp] theorem finalize_standings :
    (s.finalize id t entries).tournamentStandings =
      Function.update s.tournamentStandings id (some (finalStandings t entries)) := by
  rw [finalize_eq]

@[simp] theorem finalize_marketEntries :
    (s.finalize id t entries).marketEntries = s.marketEntries := by
  rw [finalize_eq]

@[simp] theorem finalize_contest : (s.finalize id t entries).contest = s.contest := by
  rw [finalize_eq]

@[simp] theorem finalize_entrants : (s.finalize id t entries).entrants = s.entrants := by
  rw [finalize_eq]

@[simp] theorem finalize_picks : (s.finalize id t entries).picks = s.picks := by
  rw [finalize_eq]

end Storage

/-- What an entry point does to one contest. -/
inductive ContestStep (env : Env) (f : Frame Storage T Event) (id : Nat) :
    TournamentOp → Frame Storage T Event → Prop where
  | kept {op f'} : f'.store.contest.lookup id = f.store.contest.lookup id →
      f'.store.entrants id = f.store.entrants id → f'.store.picks id = f.store.picks id →
      op ≠ .finalizeBracket id → ContestStep env f id op f'
  | opened {op f' c} :
      f.store.contest.lookup id = none → f'.store.contest.lookup id = some c → c.results = [] →
      c.finalized = false → f'.store.entrants id = f.store.entrants id →
      f'.store.picks id = f.store.picks id → op ≠ .finalizeBracket id → ContestStep env f id op f'
  | submitted {user picks c tokens f'} : Submits env f user id picks c tokens →
      f'.store.contest.lookup id = some { c with pool := c.pool + c.entryFee } →
      f'.store.entrants id = f.store.entrants id ++ [user] →
      f'.store.picks id = Function.update (f.store.picks id) user (some picks) →
      ContestStep env f id (.submitBracket user id picks) f'
  | resolved {winners c f'} : f.store.contest.lookup id = some c → c.results.length < games →
      winners.length = roundStart.getD (roundOf c.results.length + 1) 0 -
        roundStart.getD (roundOf c.results.length) 0 →
      consistent (c.results ++ winners) = true →
      f'.store.contest.lookup id = some { c with results := c.results ++ winners } →
      f'.store.entrants id = f.store.entrants id → f'.store.picks id = f.store.picks id →
      ContestStep env f id (.resolveRound id winners) f'
  | finalized {c tokens f'} : BracketFinalizes env f id c tokens →
      f'.store.contest.lookup id = some { c with finalized := true } →
      f'.store.entrants id = f.store.entrants id → f'.store.picks id = f.store.picks id →
      f'.effects = paymentEffects c.token env.contract (payments f.store id c) ++ f.effects →
      ContestStep env f id (.finalizeBracket id) f'

theorem TournamentStep.contest {op : TournamentOp} (hstep : TournamentStep env f op f')
    (id : Nat) : ContestStep env f id op f' := by
  cases hstep with
  | initialized | created | entered | updated => exact .kept rfl rfl rfl nofun
  | finalized => exact .kept (by simp) (by simp) (by simp) nofun
  | @bracketOpened _ other _ _ _ _ _ _ hnew =>
    by_cases heq : id = other
    · subst heq
      exact .opened (AList.lookup_eq_none.mpr hnew) (AList.lookup_insert _) rfl rfl rfl rfl nofun
    · exact .kept (AList.lookup_insert_ne heq) rfl rfl nofun
  | @submitted _ other _ _ _ hsubmits =>
    by_cases heq : id = other
    · subst heq
      exact .submitted hsubmits (AList.lookup_insert _) (Function.update_self ..)
        (Function.update_self ..)
    · exact .kept (AList.lookup_insert_ne heq) (Function.update_of_ne heq ..)
        (Function.update_of_ne heq ..) nofun
  | @resolved _ other _ _ _ _ hc hmore hsize hconsistent =>
    by_cases heq : id = other
    · subst heq
      exact .resolved hc hmore hsize hconsistent (AList.lookup_insert _) rfl rfl
    · exact .kept (AList.lookup_insert_ne heq) rfl rfl nofun
  | @bracketFinalized other _ _ hfinalizes =>
    by_cases heq : id = other
    · subst heq
      exact .finalized hfinalizes (AList.lookup_insert _) rfl rfl rfl
    · refine .kept (AList.lookup_insert_ne heq) rfl rfl fun h => heq ?_
      cases h
      rfl

theorem final_standings_length (t : Tournament) (entries : Map Address MarketEntry) :
    (finalStandings t entries).length = entries.keys.length := by
  simp [finalStandings, standingsAt, ranking_length]

namespace Stored

variable {s : Storage} {id : Nat}

theorem setTournament {t : Tournament} (h : Stored s) (hpool : 0 < t.prizePool)
    (htop : 0 < t.topN.toNat) (hentered : s.marketEntries t.id ≠ none)
    (hfinal : t.status = .finalized → s.tournamentStandings t.id ≠ none) :
    Stored (s.setTournament t) := by
  refine ⟨?_, ?_, h.entries, ?_, h.standings, h.pool, h.unopened⟩
  all_goals
    intro other u hu
    simp only [Storage.setTournament, Function.update_apply] at hu
    split at hu
  · next heq =>
    cases hu
    exact ⟨heq.symm, hpool, htop⟩
  · exact h.tournament other u hu
  · next heq =>
    subst heq
    exact hentered
  · exact h.entered other u hu
  · next heq =>
    subst heq
    cases hu
    exact hfinal
  · exact h.finalized other u hu

theorem setMarketEntries (id : Nat) {entries : Map Address MarketEntry} (h : Stored s)
    (hkeys : entries.keys.length < 2 ^ 32) : Stored (s.setMarketEntries id entries) := by
  refine ⟨h.tournament, ?_, ?_, h.finalized, h.standings, h.pool, h.unopened⟩
  · intro other t ht
    simp only [Storage.setMarketEntries, Function.update_apply]
    split
    · simp
    · exact h.entered other t ht
  · intro other found hfound
    simp only [Storage.setMarketEntries, Function.update_apply] at hfound
    split at hfound
    · cases hfound
      exact hkeys
    · exact h.entries other found hfound

theorem setStandings (id : Nat) {standings : List TournamentStanding} (h : Stored s)
    (hlength : standings.length < 2 ^ 32) : Stored (s.setStandings id standings) := by
  refine ⟨h.tournament, h.entered, h.entries, ?_, ?_, h.pool, h.unopened⟩
  · intro other t ht hstatus
    simp only [Storage.setStandings, Function.update_apply]
    split
    · simp
    · exact h.finalized other t ht hstatus
  · intro other found hfound
    simp only [Storage.setStandings, Function.update_apply] at hfound
    split at hfound
    · cases hfound
      exact hlength
    · exact h.standings other found hfound

theorem setScores (h : Stored s) (id : Nat) (scored : List (Address × Int)) :
    Stored (s.setScores id scored) := by
  rw [Storage.setScores_eq]
  exact ⟨h.tournament, h.entered, h.entries, h.finalized, h.standings, h.pool, h.unopened⟩

theorem setContest {c : BracketContest} (h : Stored s) (hfee : 0 < c.entryFee)
    (hpool : c.pool = c.entryFee * (s.entrants id).length) : Stored (s.setContest id c) := by
  refine ⟨h.tournament, h.entered, h.entries, h.finalized, h.standings, ?_, ?_⟩
  · intro other found hfound
    by_cases heq : other = id
    · subst heq
      rw [Storage.setContest, AList.lookup_insert] at hfound
      cases hfound
      exact ⟨hfee, hpool⟩
    · rw [Storage.setContest, AList.lookup_insert_ne heq] at hfound
      exact h.pool other found hfound
  · intro other hother
    rw [Storage.setContest, AList.mem_insert, not_or] at hother
    exact h.unopened other hother.2

theorem submit {c : BracketContest} (h : Stored s) (hc : s.contest.lookup id = some c)
    (user : Address) (picks : List Nat) :
    Stored (((s.setContest id { c with pool := c.pool + c.entryFee }).setPicks id user
      picks).setEntrants id (s.entrants id ++ [user])) := by
  obtain ⟨hfee, hpool⟩ := h.pool id c hc
  refine ⟨h.tournament, h.entered, h.entries, h.finalized, h.standings, ?_, ?_⟩
  · intro other found hfound
    simp only [Storage.setEntrants, Storage.setPicks, Storage.setContest] at hfound ⊢
    by_cases heq : other = id
    · subst heq
      rw [AList.lookup_insert] at hfound
      cases hfound
      refine ⟨hfee, ?_⟩
      simp [hpool, mul_add]
    · rw [AList.lookup_insert_ne heq] at hfound
      rw [Function.update_of_ne heq]
      exact h.pool other found hfound
  · intro other hother
    simp only [Storage.setEntrants, Storage.setPicks, Storage.setContest, AList.mem_insert,
      not_or] at hother ⊢
    rw [Function.update_of_ne hother.1]
    exact h.unopened other hother.2

theorem step {op : TournamentOp} (h : Stored f.store) (hstep : TournamentStep env f op f') :
    Stored f'.store := by
  cases hstep with
  | initialized =>
    exact ⟨h.tournament, h.entered, h.entries, h.finalized, h.standings, h.pool, h.unopened⟩
  | created _ _ _ hpool htop =>
    have hcount : Stored (f.store.setTournamentCount f.store.nextId) :=
      ⟨h.tournament, h.entered, h.entries, h.finalized, h.standings, h.pool, h.unopened⟩
    have hentries := hcount.setMarketEntries f.store.nextId
      (show (∅ : Map Address MarketEntry).keys.length < 2 ^ 32 by decide)
    refine hentries.setTournament hpool (Nat.pos_of_ne_zero fun hzero => htop ?_) ?_ nofun
    · exact UInt32.toNat_inj.mp hzero
    · simp [Storage.setMarketEntries, createdTournament]
  | @entered _ id _ _ _ _ _ _ _ _ _ _ _ _ _ hkeys =>
    have hentries := h.setMarketEntries id hkeys
    exact ⟨hentries.tournament, hentries.entered, hentries.entries, hentries.finalized,
      hentries.standings, hentries.pool, hentries.unopened⟩
  | updated _ _ _ _ hkeys => exact h.setMarketEntries _ hkeys
  | @finalized id t entries _ hfinalizes =>
    obtain ⟨hid, hpool, htop⟩ := h.tournament id t hfinalizes.stored
    have hlength : (finalStandings t entries).length < 2 ^ 32 := by
      rw [final_standings_length]
      exact h.entries id entries hfinalizes.entered
    have hstandings := (h.setScores id (scoredOf t.scoringWeights entries
      (sortedKeys entries))).setStandings id hlength
    refine hstandings.setTournament hpool htop ?_ fun _ => ?_
    · rw [hid, Storage.setScores_eq]
      exact h.entered id t hfinalizes.stored
    · simp [Storage.setStandings, hid]
  | bracketOpened _ _ hfee hnew => exact h.setContest hfee (by simp [h.unopened _ hnew])
  | submitted hsubmits => exact h.submit hsubmits.stored _ _
  | resolved _ _ hc =>
    obtain ⟨hfee, hpool⟩ := h.pool _ _ hc
    exact h.setContest hfee hpool
  | bracketFinalized hfinalizes =>
    obtain ⟨hfee, hpool⟩ := h.pool _ _ hfinalizes.stored
    exact h.setContest hfee hpool

end Stored

end Preservation

end Steps

section Run

variable [Tokens T] {self : Address} {outside : T → T → Prop}
  {guard : System.Guard (Deployment Storage T) (Happening TournamentOp Event)}
  {history : List (Happening TournamentOp Event)} {d : Deployment Storage T}

theorem stored_empty : Stored .empty := by
  constructor <;> simp [Storage.empty]

theorem stored_of_run (run : (tournaments self outside).RunWhere guard history d) :
    Stored d.store := by
  refine store_invariant (I := Stored) ?_ ?_ run
  · intro d hd
    rw [show d.store = Storage.empty from hd.1]
    exact stored_empty
  · intro h d env op f _ ih _ hrun _
    exact ih.step (TournamentOp.steps ih hrun)

end Run

/-- The contract. -/
def cup : Address := ⟨400⟩

def admin : Address := ⟨1⟩

def factory : Address := ⟨2⟩

def alice : Address := ⟨3⟩

def bob : Address := ⟨4⟩

/-- A contract that is just deployed, with the holders of tokens. -/
def deployed (holdings : Address → Holdings) : Deployment Storage StandardLedger :=
  ⟨Storage.empty, .ofHoldings holdings, 0, 0⟩

/-- Nothing happens elsewhere. -/
abbrev closed : System (Deployment Storage StandardLedger) (Happening TournamentOp Event) :=
  tournaments cup fun _ _ => False

theorem deployed_initial (holdings : Address → Holdings) : closed.initial (deployed holdings) := by
  refine ⟨rfl, fun token held hheld => ?_⟩
  cases hheld
  exact (holdings token).nonneg cup

theorem penniless_initial : closed.initial (deployed fun _ => .empty) := deployed_initial _

/-- An invocation of the contract at a time, with the addresses that authorise it. -/
def at_ (timestamp : Nat) (auths : List Address) (op : TournamentOp) : Env × TournamentOp :=
  (⟨cup, timestamp, timestamp, auths⟩, op)

/-- Replay a script from the deployment on. -/
abbrev Cup : Type :=
  System.Replayed closed (Deployment.next TournamentOp.perform cup) System.anything

end Backit.Tournaments
