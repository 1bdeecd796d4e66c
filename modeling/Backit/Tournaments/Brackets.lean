import Backit.Tournaments.Standings

/-!
# Brackets and their rounds

## Bracket contests

A bracket is the list of the winners of fifteen games between sixteen teams, round by round. The
entrants pay into a pool and pick every winner; the admin records the winners of a round when it has
been played, and after the final the pool goes to the best three brackets.
-/

namespace Backit.Tournaments

open Soroban Contract Lib

variable {T : Type}

def games : Nat := 15

/-- The game with which each round starts. -/
def roundStart : List Nat := [0, 8, 12, 14, 15]

/-- Points for a correct pick, by round. -/
def roundPoints : List Int := [1, 2, 4, 8]

def maxEntrants : Nat := 64

/-- What the first three get of the pool, in percent. -/
def prizeShares : List Int := [50, 30, 20]

/-- `iter().rposition(..)`. -/
def rposition {α : Type} (p : α → Bool) (xs : List α) : Option Nat :=
  (xs.reverse.findIdx? p).map fun i => xs.length - 1 - i

def roundOf (game : Nat) : Nat := (rposition (· ≤ game) roundStart).getD 0

/-- The two teams that can play a game, given the winners of earlier ones. -/
def participants (w : List Nat) (game : Nat) : Option (Nat × Nat) :=
  if game < 8 then some (2 * game, 2 * game + 1)
  else do
    let r := roundOf game
    let feed := roundStart.getD (r - 1) 0 + 2 * (game - roundStart.getD r 0)
    some (← w[feed]?, ← w[feed + 1]?)

/-- Every pick is one of the teams of its game. No lookup of a team fails: a game comes behind those
that feed it. -/
def consistent (w : List Nat) : Bool :=
  (List.range w.length).all fun game =>
    match participants w game, w[game]? with
    | some (a, b), some p => p == a || p == b
    | _, _ => false

def score (picks results : List Nat) : Int :=
  ((List.range results.length).map fun g =>
    if picks[g]? = results[g]? then roundPoints.getD (roundOf g) 0 else 0).sum

/-- A contest that exists. -/
def contestOf (id : Nat) : Contest T BracketContest := do
  unwrap ((← getStore).contest.lookup id) (.error .bracketNotFound)

def picksOf (id : Nat) (user : Address) : Contest T (List Nat) := do
  unwrap ((← getStore).picks id user) (.error .participantNotFound)

def initBracket (tournamentId : Nat) (token : Address) (entryFee : Int) (lockTs : Nat) :
    Contest T Unit := do
  let admin ← unwrap (← getStore).admin (.error .notInitialized)
  requireAuth admin
  rejectIf (entryFee ≤ 0) (.error .invalidPrizePool)
  rejectIf (tournamentId ∈ (← getStore).contest) (.error .bracketAlreadyExists)
  modifyStore (·.setContest tournamentId ⟨token, entryFee, lockTs, 0, [], false⟩)

def submitBracket [Tokens T] (user : Address) (tournamentId : Nat) (picks : List Nat) :
    Contest T Unit := do
  requireAuth user
  let c ← contestOf tournamentId
  rejectIf (c.lockTs ≤ (← env).timestamp) (.error .bracketLocked)
  rejectIf (picks.length ≠ games ∨ (∃ p ∈ picks, 16 ≤ p) ∨ consistent picks = false)
    (.error .invalidBracket)
  rejectIf (((← getStore).picks tournamentId user).isSome = true)
    (.error .bracketAlreadySubmitted)
  let list := (← getStore).entrants tournamentId
  rejectIf (maxEntrants ≤ list.length) (.error .tooManyEntrants)
  tokenTransfer c.token user (← env).contract c.entryFee
  let pool ← unwrap (checkedAdd c.pool c.entryFee) (.error .invalidPrizePool)
  modifyStore (·.setContest tournamentId { c with pool := pool })
  modifyStore (·.setPicks tournamentId user picks)
  modifyStore (·.setEntrants tournamentId (list ++ [user]))

def resolveRound (tournamentId : Nat) (winners : List Nat) : Contest T Unit := do
  let admin ← unwrap (← getStore).admin (.error .notInitialized)
  requireAuth admin
  let c ← contestOf tournamentId
  rejectIf (games ≤ c.results.length) (.error .roundOutOfOrder)
  let r := roundOf c.results.length
  rejectIf (winners.length ≠ roundStart.getD (r + 1) 0 - roundStart.getD r 0)
    (.error .invalidBracket)
  let results := c.results ++ winners
  rejectIf (consistent results = false ∨ ∃ p ∈ results, 16 ≤ p) (.error .invalidBracket)
  modifyStore (·.setContest tournamentId { c with results := results })

/-- The score of each entrant, and whether its champion is the right one. -/
def rankingKeys (id : Nat) (results : List Nat) (champion : Nat) :
    List Address → Contest T (List (Int × Bool))
  | [] => pure []
  | user :: rest => do
      let p ← picksOf id user
      let pick ← unwrap p[14]? (.panic "called `Option::unwrap()` on a `None` value")
      let keys ← rankingKeys id results champion rest
      pure ((score p results, pick == champion) :: keys)

/-- The key of the entrant `b` is greater than that of `a`: tuples are compared component by
component. -/
def KeyBefore (keys : List (Int × Bool)) (b a : Nat) : Prop :=
  (keys.getD a (0, false)).1 < (keys.getD b (0, false)).1 ∨
    (keys.getD b (0, false)).1 = (keys.getD a (0, false)).1 ∧
      (keys.getD a (0, false)).2 < (keys.getD b (0, false)).2

instance (keys : List (Int × Bool)) : DecidableRel (KeyBefore keys) := fun _ _ =>
  inferInstanceAs (Decidable (_ ∨ _ ∧ _))

/-- The shares of the pool, and their sum behind `paid`. -/
def splitPool (pool total : Int) : Int → List Int → Contest T (List Int × Int)
  | paid, [] => pure ([], paid)
  | paid, share :: rest => do
      let scaled ← i128 (pool * share)
      let prize := scaled.tdiv total
      let paid ← i128 (paid + prize)
      let (prizes, paid) ← splitPool pool total paid rest
      pure (prize :: prizes, paid)

/-- The prizes of the first `k`: the first gets the rounding dust too. -/
def prizesOf (pool : Int) (k : Nat) : Contest T (List Int) := do
  let shares := prizeShares.take k
  let (prizes, paid) ← splitPool pool shares.sum 0 shares
  let dust ← i128 (pool - paid)
  let first ← i128 (prizes.headD 0 + dust)
  pure (first :: prizes.tail)

/-- Pay the prizes of the entrants with these indices. -/
def payPrizes [Tokens T] (token : Address) (list : List Address) :
    List (Nat × Int) → Contest T Unit
  | [] => pure ()
  | (i, prize) :: rest => do
      let who ← unwrap list[i]? (.panic "called `Option::unwrap()` on a `None` value")
      tokenTransfer token (← env).contract who prize
      payPrizes token list rest

/-- Divide the pool among the first three. -/
def payPool [Tokens T] (c : BracketContest) (list : List Address) (order : List Nat) :
    Contest T Unit :=
  let k := min list.length 3
  if 0 < k then do
    let prizes ← prizesOf c.pool k
    payPrizes c.token list ((order.take k).zip prizes)
  else pure ()

def finalizeBracket [Tokens T] (tournamentId : Nat) : Contest T Unit := do
  let c ← contestOf tournamentId
  rejectIf (c.finalized = true) (.error .tournamentAlreadyFinalized)
  rejectIf (c.results.length ≠ games) (.error .notAllRoundsResolved)
  let list := (← getStore).entrants tournamentId
  let champion ← unwrap c.results[14]? (.panic "called `Option::unwrap()` on a `None` value")
  let keys ← rankingKeys tournamentId c.results champion list
  let order := sinkingSort (KeyBefore keys) (List.range list.length)
  payPool c list order
  modifyStore (·.setContest tournamentId { c with finalized := true })

end Backit.Tournaments

/-!
## The rounds of a bracket

The teams and then the games, in the order of the rounds, are the nodes of a tournament tree by
levels: the game `g` is between the winners at `2 * g` and `2 * g + 1`. So a consistent list of
winners that ends with a round is a legal prefix of the bracket.
-/

namespace Backit.Tournaments

/-- The winners of a round are drawn pairwise from the teams in it. -/
inductive Drawn : List Nat → List Nat → Prop where
  | nil : Drawn [] []
  | game {a b w teams winners} :
      w = a ∨ w = b → Drawn teams winners → Drawn (a :: b :: teams) (w :: winners)

/-- The results of some first rounds between some teams, one after the other. -/
inductive LegalPrefix : List Nat → List Nat → Prop where
  | start (teams) : LegalPrefix teams []
  | round {teams winners later} :
      Drawn teams winners → LegalPrefix winners later → LegalPrefix teams (winners ++ later)

/-- Every game is won by one of the two nodes that feed it. -/
def Fed (teams w : List Nat) : Prop :=
  ∀ g < w.length, w[g]? = (teams ++ w)[2 * g]? ∨ w[g]? = (teams ++ w)[2 * g + 1]?

variable {teams w : List Nat}

/-- A round is drawn from the teams in it, by induction on its games. -/
theorem drawn_of_get {winners : List Nat} (hlength : teams.length = 2 * winners.length)
    (h : ∀ g < winners.length, winners[g]? = teams[2 * g]? ∨ winners[g]? = teams[2 * g + 1]?) :
    Drawn teams winners := by
  induction winners generalizing teams with
  | nil =>
    obtain rfl := List.length_eq_zero_iff.mp hlength
    exact .nil
  | cons w winners ih =>
    rw [List.length_cons] at hlength
    match teams, hlength with
    | a :: b :: rest, hlength =>
      refine .game ?_ (ih (by simp only [List.length_cons] at hlength; omega) fun g hg => ?_)
      · simpa using h 0 (Nat.succ_pos _)
      · have hnext := h (g + 1) (Nat.succ_lt_succ hg)
        rw [show 2 * (g + 1) = 2 * g + 2 from by omega,
          show 2 * g + 2 + 1 = 2 * g + 1 + 2 from by omega] at hnext
        simpa using hnext

theorem Fed.round {m : Nat} (h : Fed teams w) (hteams : teams.length = 2 * m)
    (hm : m ≤ w.length) : Drawn teams (w.take m) ∧ Fed (w.take m) (w.drop m) := by
  have htake : (w.take m).length = m := by simp [hm]
  constructor
  · refine drawn_of_get (by omega) fun g hg => ?_
    rw [htake] at hg
    have hgame := h g (by omega)
    rwa [List.getElem?_append_left (by omega), List.getElem?_append_left (by omega),
      ← List.getElem?_take_of_lt hg] at hgame
  · intro g hg
    rw [List.length_drop] at hg
    have hgame := h (m + g) (by omega)
    rw [List.getElem?_append_right (by omega), List.getElem?_append_right (by omega), hteams,
      show 2 * (m + g) - 2 * m = 2 * g from by omega,
      show 2 * (m + g) + 1 - 2 * m = 2 * g + 1 from by omega] at hgame
    rwa [List.take_append_drop, List.getElem?_drop]

/-- Winners that end with a round are a legal prefix, by induction on the rounds that are left. -/
theorem legal_of_fed {k j : Nat} (h : Fed teams w) (hteams : teams.length = 2 ^ k)
    (hw : w.length + 2 ^ j = 2 ^ k) : LegalPrefix teams w := by
  induction k generalizing teams w with
  | zero =>
    have := Nat.two_pow_pos j
    obtain rfl := List.length_eq_zero_iff.mp (show w.length = 0 by omega)
    exact .start teams
  | succ k ih =>
    rcases Nat.lt_or_ge k j with hlast | hmore
    · have := Nat.pow_le_pow_right (show 0 < 2 by decide) hlast
      obtain rfl := List.length_eq_zero_iff.mp (show w.length = 0 by omega)
      exact .start teams
    · have hpow := Nat.pow_le_pow_right (show 0 < 2 by decide) hmore
      rw [pow_succ] at hteams hw
      obtain ⟨hdrawn, hfed⟩ := h.round (m := 2 ^ k) (by omega) (by omega)
      have hrest := ih hfed (by simp; omega) (by simp; omega)
      have hround := LegalPrefix.round hdrawn hrest
      rwa [List.take_append_drop] at hround

theorem feed_eq : ∀ game < games, 8 ≤ game →
    roundStart.getD (roundOf game - 1) 0 + 2 * (game - roundStart.getD (roundOf game) 0) =
      2 * game - 16 := by
  decide

theorem participants_eq {g : Nat} (hg : g < w.length) (hgames : g < games) :
    ∃ a b, participants w g = some (a, b) ∧ (List.range 16 ++ w)[2 * g]? = some a ∧
      (List.range 16 ++ w)[2 * g + 1]? = some b := by
  have hlength : (List.range 16).length = 16 := List.length_range
  rcases Nat.lt_or_ge g 8 with hfirst | hlater
  · refine ⟨2 * g, 2 * g + 1, if_pos hfirst, ?_, ?_⟩
    · rw [List.getElem?_append_left (by omega), List.getElem?_range (by omega)]
    · rw [List.getElem?_append_left (by omega), List.getElem?_range (by omega)]
  · have hlast : g < 15 := hgames
    have hfeed : 2 * g - 16 + 1 < w.length := by omega
    have ha : w[2 * g - 16]? = some w[2 * g - 16] := List.getElem?_eq_getElem _
    have hb : w[2 * g - 16 + 1]? = some w[2 * g - 16 + 1] := List.getElem?_eq_getElem hfeed
    refine ⟨w[2 * g - 16], w[2 * g - 16 + 1], ?_, ?_, ?_⟩
    · rw [participants, if_neg (by omega)]
      simp only [feed_eq g hgames hlater, ha, hb]
      rfl
    · rw [List.getElem?_append_right (by omega), hlength, ha]
    · rw [List.getElem?_append_right (by omega), hlength, ← hb]
      congr 1
      omega

/-- What the code checks is that every game is fed by the nodes below it. -/
theorem consistent_fed (hlength : w.length ≤ games) (h : consistent w = true) :
    Fed (List.range 16) w := by
  intro g hg
  have hgame := List.all_eq_true.mp h g (List.mem_range.mpr hg)
  obtain ⟨a, b, hteams, ha, hb⟩ := participants_eq hg (hg.trans_le hlength)
  rw [hteams, List.getElem?_eq_getElem hg] at hgame
  rw [ha, hb, List.getElem?_eq_getElem hg, Option.some.injEq, Option.some.injEq]
  simpa using hgame

/-- The results of whole rounds. -/
def WholeRounds (results : List Nat) : Prop := ∃ j, results.length + 2 ^ j = 16

/-- A round has half as many games as there are left to play, and one more. -/
theorem round_size : ∀ j < 4, roundStart.getD (roundOf (16 - 2 ^ (j + 1)) + 1) 0 -
    roundStart.getD (roundOf (16 - 2 ^ (j + 1))) 0 = 2 ^ j := by
  decide

/-- Recording a round of the right size leaves whole rounds. -/
theorem WholeRounds.resolve {results winners : List Nat} (h : WholeRounds results)
    (hmore : results.length < games)
    (hsize : winners.length = roundStart.getD (roundOf results.length + 1) 0 -
      roundStart.getD (roundOf results.length) 0) : WholeRounds (results ++ winners) := by
  obtain ⟨j, hj⟩ := h
  have hleft : results.length < 15 := hmore
  cases j with
  | zero => omega
  | succ j =>
    have hpow : 2 ^ (j + 1) ≤ 2 ^ 4 := by omega
    have hlt : j < 4 := (Nat.pow_le_pow_iff_right (by decide)).mp hpow
    rw [show results.length = 16 - 2 ^ (j + 1) from by omega, round_size j hlt] at hsize
    refine ⟨j, ?_⟩
    rw [List.length_append]
    omega

/-- Consistent results of whole rounds are a legal prefix of the bracket. -/
theorem legal_of_consistent (hrounds : WholeRounds w) (h : consistent w = true) :
    LegalPrefix (List.range 16) w := by
  obtain ⟨j, hj⟩ := hrounds
  have hpos := Nat.two_pow_pos j
  exact legal_of_fed (k := 4) (consistent_fed (by unfold games; omega) h) List.length_range hj

end Backit.Tournaments
