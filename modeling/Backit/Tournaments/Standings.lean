import Backit.Lib.Sorting
import Backit.Soroban.Execution

/-!
# Tournaments of markets

The creators of markets enter a tournament, and the factory reports how their markets do. After the
end the admin finalises it: the participants are ranked by their scores, and the prize pool is
divided among the first of them.
-/

namespace Backit.Tournaments

open Soroban Contract Lib

/-- The contract's error codes that its entry points return. -/
inductive TournamentError where
  | alreadyInitialized
  | notInitialized
  | unauthorized
  | tournamentNotFound
  | tournamentAlreadyFinalized
  | tournamentNotFinalized
  | invalidTimeRange
  | invalidWeights
  | marketAlreadyEntered
  | tournamentNotActive
  | invalidPrizePool
  | invalidTopN
  | participantNotFound
  | bracketNotFound
  | bracketAlreadyExists
  | bracketLocked
  | bracketAlreadySubmitted
  | invalidBracket
  | roundOutOfOrder
  | notAllRoundsResolved
  | tooManyEntrants
  deriving DecidableEq

inductive Event where
  | tournamentCreated (id : Nat) (admin : Address) (name : String) (startTs endTs : Nat)
      (prizePool : Int)
  | marketEntered (tournamentId : Nat) (creator : Address) (callId : Nat)
  | tournamentFinalized (tournamentId : Nat) (winner : Address) (totalPrize : Int)
      (participantCount : Nat)
  deriving DecidableEq

structure ScoringWeights where
  volumeWeightBps : UInt32
  uniquenessWeightBps : UInt32
  accuracyWeightBps : UInt32
  deriving DecidableEq

inductive TournamentStatus where
  | active
  | finalized
  deriving DecidableEq

structure Tournament where
  id : Nat
  name : String
  startTs : Nat
  endTs : Nat
  prizePool : Int
  scoringWeights : ScoringWeights
  topN : UInt32
  status : TournamentStatus
  createdAt : Nat
  deriving DecidableEq

structure MarketEntry where
  callId : Nat
  totalStake : Int
  uniqueStakers : UInt32
  resolvedCorrect : UInt32
  resolvedTotal : UInt32
  deriving DecidableEq

structure TournamentStanding where
  participant : Address
  score : Int
  rank : Nat
  prize : Int
  deriving DecidableEq

/-- A bracket contest of a tournament. -/
structure BracketContest where
  token : Address
  entryFee : Int
  lockTs : Nat
  pool : Int
  results : List Nat
  finalized : Bool
  deriving DecidableEq

structure Storage where
  admin : Option Address
  factory : Option Address
  tournamentCount : Nat
  tournament : Nat → Option Tournament
  marketEntries : Nat → Option (Map Address MarketEntry)
  participantScores : Nat → Address → Option Int
  tournamentStandings : Nat → Option (List TournamentStanding)
  marketEntryByCallId : Nat → Option (Nat × Address)
  contest : Map Nat BracketContest
  entrants : Nat → List Address
  picks : Nat → Address → Option (List Nat)

namespace Storage

/-- The storage of a freshly deployed contract. -/
def empty : Storage :=
  ⟨none, none, 0, fun _ => none, fun _ => none, fun _ _ => none, fun _ => none, fun _ => none, ∅,
    fun _ => [], fun _ _ => none⟩

variable (s : Storage)

def setAdmin (admin : Address) : Storage := { s with admin := some admin }

def setFactory (factory : Address) : Storage := { s with factory := some factory }

def setTournamentCount (count : Nat) : Storage := { s with tournamentCount := count }

def setTournament (tournament : Tournament) : Storage :=
  { s with tournament := Function.update s.tournament tournament.id (some tournament) }

def setMarketEntries (id : Nat) (entries : Map Address MarketEntry) : Storage :=
  { s with marketEntries := Function.update s.marketEntries id (some entries) }

def setParticipantScore (id : Nat) (participant : Address) (score : Int) : Storage :=
  { s with
    participantScores := Function.update s.participantScores id
      (Function.update (s.participantScores id) participant (some score)) }

def setStandings (id : Nat) (standings : List TournamentStanding) : Storage :=
  { s with tournamentStandings := Function.update s.tournamentStandings id (some standings) }

def setMarketEntryByCallId (callId id : Nat) (creator : Address) : Storage :=
  { s with
    marketEntryByCallId := Function.update s.marketEntryByCallId callId (some (id, creator)) }

def setContest (id : Nat) (contest : BracketContest) : Storage :=
  { s with contest := s.contest.insert id contest }

def setEntrants (id : Nat) (list : List Address) : Storage :=
  { s with entrants := Function.update s.entrants id list }

def setPicks (id : Nat) (user : Address) (picks : List Nat) : Storage :=
  { s with
    picks := Function.update s.picks id (Function.update (s.picks id) user (some picks)) }

end Storage

def maxScore : Int := 10000

def bpsDenominator : Int := 10000

/-- A computation of an entry point. -/
abbrev Contest (T α : Type) := Contract (Frame Storage T Event) TournamentError α

variable {T : Type}

/-- The sum of the weights wraps around. -/
def validateWeights (weights : ScoringWeights) : Contest T Unit :=
  rejectIf (weights.volumeWeightBps + weights.uniquenessWeightBps + weights.accuracyWeightBps ≠
    10000) (.error .invalidWeights)

/-- The entry point `initialize`. -/
def initializeTournaments (admin factory : Address) : Contest T Unit := do
  rejectIf ((← getStore).admin.isSome = true) (.error .alreadyInitialized)
  modifyStore (·.setAdmin admin)
  modifyStore (·.setFactory factory)
  modifyStore (·.setTournamentCount 0)

def createTournament (admin : Address) (name : String) (startTs endTs : Nat) (prizePool : Int)
    (scoringWeights : ScoringWeights) (topN : UInt32) : Contest T Nat := do
  requireAuth admin
  let storedAdmin ← unwrap (← getStore).admin (.error .notInitialized)
  rejectIf (admin ≠ storedAdmin) (.error .unauthorized)
  let currentTs := (← env).timestamp
  rejectIf (startTs < currentTs ∨ endTs ≤ startTs) (.error .invalidTimeRange)
  rejectIf (prizePool ≤ 0) (.error .invalidPrizePool)
  rejectIf (topN = 0) (.error .invalidTopN)
  validateWeights scoringWeights
  let id := ((← getStore).tournamentCount + 1) % 2 ^ 64
  modifyStore (·.setTournamentCount id)
  modifyStore (·.setTournament
    { id := id, name := name, startTs := startTs, endTs := endTs, prizePool := prizePool
      scoringWeights := scoringWeights, topN := topN, status := .active
      createdAt := currentTs })
  modifyStore (·.setMarketEntries id ∅)
  publish (.tournamentCreated id admin name startTs endTs prizePool)
  pure id

/-- A map of the host has fewer than `2 ^ 32` keys. -/
def setEntry (entries : Map Address MarketEntry) (creator : Address) (entry : MarketEntry) :
    Contest T (Map Address MarketEntry) := do
  rejectIf (2 ^ 32 ≤ (entries.insert creator entry).keys.length) .external
  pure (entries.insert creator entry)

def enterMarket (tournamentId : Nat) (creator : Address) (callId : Nat) : Contest T Unit := do
  let factory ← unwrap (← getStore).factory (.error .notInitialized)
  requireAuth factory
  let tournament ← unwrap ((← getStore).tournament tournamentId) (.error .tournamentNotFound)
  rejectIf (tournament.status ≠ .active) (.error .tournamentNotActive)
  let currentTs := (← env).timestamp
  rejectIf (currentTs < tournament.startTs ∨ tournament.endTs ≤ currentTs)
    (.error .tournamentNotActive)
  rejectIf (((← getStore).marketEntryByCallId callId).isSome = true)
    (.error .marketAlreadyEntered)
  let entries := ((← getStore).marketEntries tournamentId).getD ∅
  rejectIf (creator ∈ entries) (.error .marketAlreadyEntered)
  let entered ← setEntry entries creator ⟨callId, 0, 0, 0, 0⟩
  modifyStore (·.setMarketEntries tournamentId entered)
  modifyStore (·.setMarketEntryByCallId callId tournamentId creator)
  publish (.marketEntered tournamentId creator callId)

def updateMarketStats (tournamentId : Nat) (creator : Address) (totalStake : Int)
    (uniqueStakers resolvedCorrect resolvedTotal : UInt32) : Contest T Unit := do
  let factory ← unwrap (← getStore).factory (.error .notInitialized)
  requireAuth factory
  let entries ← unwrap ((← getStore).marketEntries tournamentId) (.error .tournamentNotFound)
  let entry ← unwrap (entries.lookup creator) (.error .participantNotFound)
  let updated ← setEntry entries creator
    { entry with
      totalStake := totalStake
      uniqueStakers := uniqueStakers
      resolvedCorrect := resolvedCorrect
      resolvedTotal := resolvedTotal }
  modifyStore (·.setMarketEntries tournamentId updated)

section Scores

namespace MarketEntry

variable (entry : MarketEntry)

def volumeScore : Int :=
  if 0 < entry.totalStake then min (entry.totalStake.tdiv 1000000) maxScore else 0

def uniquenessScore : Contest T Int := do
  let raw ← i128 (entry.uniqueStakers.toNat * 100)
  pure (min raw maxScore)

def accuracyScore : Contest T Int :=
  if 0 < entry.resolvedTotal then do
    let scaled ← i128 (entry.resolvedCorrect.toNat * maxScore)
    pure (scaled.tdiv entry.resolvedTotal.toNat)
  else pure 0

/-- The weighted score of an entry. -/
def weighted (weights : ScoringWeights) : Contest T Int := do
  let uniqueness ← entry.uniquenessScore
  let accuracy ← entry.accuracyScore
  let volumePart ← i128 (entry.volumeScore * weights.volumeWeightBps.toNat)
  let uniquenessPart ← i128 (uniqueness * weights.uniquenessWeightBps.toNat)
  let sum ← i128 (volumePart + uniquenessPart)
  let accuracyPart ← i128 (accuracy * weights.accuracyWeightBps.toNat)
  let total ← i128 (sum + accuracyPart)
  pure (total.tdiv bpsDenominator)

end MarketEntry

def calculateScore (tournamentId : Nat) (participant : Address) : Contest T Int := do
  let tournament ← unwrap ((← getStore).tournament tournamentId) (.error .tournamentNotFound)
  let entries ← unwrap ((← getStore).marketEntries tournamentId) (.error .tournamentNotFound)
  let entry ← unwrap (entries.lookup participant) (.error .participantNotFound)
  entry.weighted tournament.scoringWeights

end Scores

/-- The keys of a host map, which are in order. -/
def sortedKeys {V : Type} (entries : Map Address V) : List Address :=
  entries.keys.insertionSort fun a b => a.id ≤ b.id

/-- Compute and store the score of each participant. -/
def scoreEach (tournamentId : Nat) : List Address → Contest T (List (Address × Int))
  | [] => pure []
  | p :: rest => do
      let score ← calculateScore tournamentId p
      modifyStore (·.setParticipantScore tournamentId p score)
      let scored ← scoreEach tournamentId rest
      pure ((p, score) :: scored)

/-- The first of two participants ranks before the second. -/
def RanksBefore (b a : Address × Int) : Prop := a.2 < b.2 ∨ b.2 = a.2 ∧ b.1.id < a.1.id

instance : DecidableRel RanksBefore := fun b a =>
  inferInstanceAs (Decidable (a.2 < b.2 ∨ b.2 = a.2 ∧ b.1.id < a.1.id))

/-- The prize of the participant with index `i` among the first `topN`. -/
def prizeOf (totalPrize : Int) (topN i : Nat) : Contest T Int :=
  if topN = 1 then pure totalPrize
  else if 0 < totalPrize then do
    let next ← unsigned 32 (topN + 1)
    let product ← unsigned 32 (topN * next)
    let scaled ← i128 (totalPrize * (topN - i : Nat))
    pure (scaled.tdiv (product / 2 : Nat))
  else pure 0

/-- The standings from the index `i` on. -/
def standingsFrom (totalPrize : Int) (topN : Nat) :
    Nat → List (Address × Int) → Contest T (List TournamentStanding)
  | _, [] => pure []
  | i, p :: rest => do
      let prize ← if i < topN then prizeOf totalPrize topN i else pure 0
      let rank ← unsigned 32 (i + 1)
      let standings ← standingsFrom totalPrize topN (i + 1) rest
      pure (⟨p.1, p.2, rank, prize⟩ :: standings)

def finalizeTournament (tournamentId : Nat) : Contest T Unit := do
  let admin ← unwrap (← getStore).admin (.error .notInitialized)
  requireAuth admin
  let tournament ← unwrap ((← getStore).tournament tournamentId) (.error .tournamentNotFound)
  rejectIf (tournament.status = .finalized) (.error .tournamentAlreadyFinalized)
  rejectIf ((← env).timestamp < tournament.endTs) (.error .tournamentNotFinalized)
  let entries ← unwrap ((← getStore).marketEntries tournamentId) (.error .tournamentNotFound)
  let participants := sortedKeys entries
  let scored ← scoreEach tournamentId participants
  let sorted := exchangeSort RanksBefore scored
  let topN := min tournament.topN.toNat sorted.length
  let winner ← unwrap sorted.head? (.panic "called `Option::unwrap()` on a `None` value")
  let standings ← standingsFrom tournament.prizePool topN 0 sorted
  modifyStore (·.setStandings tournamentId standings)
  modifyStore (·.setTournament { tournament with status := .finalized })
  publish (.tournamentFinalized tournamentId winner.1 ((standings.head?.map (·.prize)).getD 0)
    participants.length)

/-- A page of ten standings. The index of its first is computed in a `u32`, which wraps around. -/
def getTournamentStandings (tournamentId : Nat) (page : UInt32) :
    Contest T (List TournamentStanding) := do
  let standings ← unwrap ((← getStore).tournamentStandings tournamentId)
    (.error .tournamentNotFound)
  let start := (page * 10).toNat
  let stop := (start + 10) % 2 ^ 32
  pure ((standings.drop start).take (min stop standings.length - start))

end Backit.Tournaments
