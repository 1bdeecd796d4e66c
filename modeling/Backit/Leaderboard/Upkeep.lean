import Backit.Leaderboard.Agreement
import Backit.Lib.Transition

/-!
# The upkeep of the boards

When calls are settled, the users they affect get the score of all their settled calls on the board
of every period. From time to time the board of a period is overwritten with the scores in the
period, unless no call is settled in it.
-/

namespace Backit.Leaderboard

open Lib

/-- The clock, the table of the calls, and the boards in Redis. -/
structure Leaderboards where
  now : Int
  calls : List PredictionCall
  boards : LeaderboardPeriod → Board

structure Settlement where
  id : String
  outcome : CallOutcome
  profitUsdc : Int
  deriving DecidableEq

/-- The settlements settle the call. -/
def settles (settlements : List Settlement) (call : PredictionCall) : Bool :=
  call.status = .pending && (settlements.find? (·.id = call.id)).isSome

def PredictionCall.settle (now : Int) (settlements : List Settlement) (call : PredictionCall) :
    PredictionCall :=
  match settlements.find? (·.id = call.id) with
  | some settlement =>
    if call.status = .pending then
      { call with
        status := .settled
        outcome := some settlement.outcome
        profitUsdc := settlement.profitUsdc
        settledAt := some now }
    else call
  | none => call

def PredictionCall.cancel (id : String) (call : PredictionCall) : PredictionCall :=
  if call.id = id ∧ call.status = .pending then { call with status := .cancelled } else call

/-- The users of the calls that are settled. -/
def affectedAddresses (settlements : List Settlement) (calls : List PredictionCall) :
    List String :=
  (calls.filter (settles settlements)).map (·.userId)

def getUserStats (calls : List PredictionCall) (userId : String) : Stats :=
  aggregate (callsOf none calls userId)

def refreshUserScore (f : Floats) (s : Leaderboards) (address : String) : Leaderboards :=
  { s with boards := updateScore f s.boards address (getUserStats s.calls address) }

def handleOutcomeSubmitted (f : Floats) (s : Leaderboards) (affectedAddresses : List String) :
    Leaderboards :=
  affectedAddresses.foldl (refreshUserScore f) s

def syncPeriod (f : Floats) (s : Leaderboards) (period : LeaderboardPeriod) (since : Option Int) :
    Leaderboards :=
  { s with
    boards := Function.update s.boards period
      (bulkSet (s.boards period) ((groupByUser since s.calls).map (Row.entry f))) }

def syncAllTime (f : Floats) (s : Leaderboards) : Leaderboards := syncPeriod f s .allTime none

def syncWeekly (f : Floats) (s : Leaderboards) : Leaderboards :=
  syncPeriod f s .weekly (some (getLastMonday s.now))

def syncMonthly (f : Floats) (s : Leaderboards) : Leaderboards :=
  syncPeriod f s .monthly (some (getFirstOfMonth s.now))

inductive Action where
  | create (id userId : String)
  | cancel (id : String)
  | settle (settlements : List Settlement)
  | sync (period : LeaderboardPeriod)
  | tick (elapsed : Nat)

/-- One step of the calls, of a sync, or of the clock. -/
def Leaderboards.next (f : Floats) (s : Leaderboards) : Action → Leaderboards
  | .create id userId =>
    { s with calls := s.calls ++ [⟨id, userId, .pending, none, 0, none⟩] }
  | .cancel id => { s with calls := s.calls.map (·.cancel id) }
  | .settle settlements =>
    handleOutcomeSubmitted f
      { s with calls := s.calls.map (·.settle s.now settlements) }
      (affectedAddresses settlements s.calls)
  | .sync .allTime => syncAllTime f s
  | .sync .weekly => syncWeekly f s
  | .sync .monthly => syncMonthly f s
  | .tick elapsed => { s with now := s.now + elapsed }

/-- The boards, over any calls, before the first of them is written. -/
def leaderboards (f : Floats) : System Leaderboards Action where
  initial s := ∀ period, (s.boards period).entries = []
  step s action s' := s' = s.next f action

theorem next_sync (f : Floats) (s : Leaderboards) (period : LeaderboardPeriod) :
    s.next f (.sync period) = syncPeriod f s period (getSinceForPeriod s.now period) := by
  cases period <;> rfl

theorem sync_board (f : Floats) (s : Leaderboards) (period : LeaderboardPeriod) :
    (s.next f (.sync period)).boards period = bulkSet (s.boards period)
      ((groupByUser (getSinceForPeriod s.now period) s.calls).map (Row.entry f)) := by
  rw [next_sync]
  exact Function.update_self ..

section Period

/-- Every user on the board of the period has a call settled in the period, and the score of their
calls in it. -/
def KeepsPeriod (f : Floats) (period : LeaderboardPeriod) (s : Leaderboards) : Prop :=
  ∀ e ∈ (s.boards period).entries,
    callsOf (getSinceForPeriod s.now period) s.calls e.1 ≠ [] ∧
      e.2 = scoreOf f (getSinceForPeriod s.now period) s.calls e.1

instance (f : Floats) (period : LeaderboardPeriod) (s : Leaderboards) :
    Decidable (KeepsPeriod f period s) :=
  inferInstanceAs (Decidable (∀ e ∈ (s.boards period).entries,
    callsOf (getSinceForPeriod s.now period) s.calls e.1 ≠ [] ∧
      e.2 = scoreOf f (getSinceForPeriod s.now period) s.calls e.1))

/-- The users affected by settlements have the score of the period for all their calls, and the
period does not end while its board has entries. -/
def Fits (f : Floats) (period : LeaderboardPeriod) (s : Leaderboards) : Action → Prop
  | .settle settlements =>
    ∀ address ∈ affectedAddresses settlements s.calls,
      scoreOf f none (s.calls.map (·.settle s.now settlements)) address =
        scoreOf f (getSinceForPeriod s.now period)
          (s.calls.map (·.settle s.now settlements)) address
  | .tick elapsed =>
    getSinceForPeriod (s.now + elapsed) period = getSinceForPeriod s.now period ∨
      (s.boards period).entries = []
  | _ => True

variable {settlements : List Settlement} {calls : List PredictionCall} {period : LeaderboardPeriod}

theorem callsOf_map {since : Option Int} {userId : String}
    {g : PredictionCall → PredictionCall} (huser : ∀ call, (g call).userId = call.userId)
    (hkept : ∀ call ∈ calls, call.userId = userId →
      g call = call ∨ inPeriod since call = false ∧ inPeriod since (g call) = false) :
    callsOf since (calls.map g) userId = callsOf since calls userId := by
  induction calls with
  | nil => rfl
  | cons call calls ih =>
    have hrest := ih fun c hc => hkept c (.tail _ hc)
    simp only [callsOf, List.map_cons, List.filter_cons, huser] at hrest ⊢
    by_cases hcall : call.userId = userId
    · rcases hkept call List.mem_cons_self hcall with heq | ⟨hbefore, hafter⟩
      · rw [heq, hrest]
      · simpa [hbefore, hafter] using hrest
    · simpa [hcall] using hrest

theorem callsOf_create (since : Option Int) (calls : List PredictionCall)
    (id userId user : String) :
    callsOf since (calls ++ [⟨id, userId, .pending, none, 0, none⟩]) user =
      callsOf since calls user := by
  simp [callsOf, List.filter_append, inPeriod]

theorem callsOf_cancel (since : Option Int) (calls : List PredictionCall) (id user : String) :
    callsOf since (calls.map (·.cancel id)) user = callsOf since calls user := by
  refine callsOf_map (fun call => ?_) fun call _ _ => ?_
  · unfold PredictionCall.cancel
    split <;> rfl
  · unfold PredictionCall.cancel
    split
    · next h => exact .inr ⟨by simp [inPeriod, h.2], by simp [inPeriod]⟩
    · exact .inl rfl

theorem settle_userId (now : Int) (settlements : List Settlement) (call : PredictionCall) :
    (call.settle now settlements).userId = call.userId := by
  unfold PredictionCall.settle
  split
  · split <;> rfl
  · rfl

theorem settle_of_not {now : Int} {call : PredictionCall}
    (h : settles settlements call = false) : call.settle now settlements = call := by
  unfold PredictionCall.settle
  split
  · next settlement hfind =>
    rw [if_neg]
    intro hpending
    simp [settles, hpending, hfind] at h
  · rfl

theorem inPeriod_settle {now : Int} {call : PredictionCall}
    (period : LeaderboardPeriod) (h : settles settlements call = true) :
    inPeriod (getSinceForPeriod now period) (call.settle now settlements) = true := by
  rw [settles, Bool.and_eq_true, decide_eq_true_eq] at h
  obtain ⟨settlement, hfind⟩ := Option.isSome_iff_exists.mp h.2
  simp only [PredictionCall.settle, hfind, h.1, if_true, inPeriod, decide_true, Bool.true_and]
  cases hsince : getSinceForPeriod now period with
  | none => rfl
  | some since => exact decide_eq_true (since_le hsince)

theorem callsOf_settle (since : Option Int) (now : Int) {user : String}
    (h : user ∉ affectedAddresses settlements calls) :
    callsOf since (calls.map (·.settle now settlements)) user = callsOf since calls user := by
  refine callsOf_map (settle_userId now settlements) fun call hcall huser => ?_
  refine .inl (settle_of_not ?_)
  by_contra hsettles
  exact h (List.mem_map.mpr ⟨call, List.mem_filter.mpr ⟨hcall, by simpa using hsettles⟩, huser⟩)

/-- Users whom settlements affect have a call settled in every period. -/
theorem callsOf_affected (now : Int) (period : LeaderboardPeriod) {user : String}
    (h : user ∈ affectedAddresses settlements calls) :
    callsOf (getSinceForPeriod now period) (calls.map (·.settle now settlements)) user ≠ [] := by
  obtain ⟨call, hcall, rfl⟩ := List.mem_map.mp h
  obtain ⟨hcall, hsettles⟩ := List.mem_filter.mp hcall
  refine List.ne_nil_of_mem (a := call.settle now settlements) (List.mem_filter.mpr
    ⟨List.mem_map_of_mem hcall, ?_⟩)
  rw [settle_userId, inPeriod_settle period hsettles]
  simp

theorem mem_handleOutcomeSubmitted (f : Floats) (period : LeaderboardPeriod)
    (addresses : List String) (s : Leaderboards) :
    (handleOutcomeSubmitted f s addresses).now = s.now ∧
      (handleOutcomeSubmitted f s addresses).calls = s.calls ∧
      ∀ e ∈ ((handleOutcomeSubmitted f s addresses).boards period).entries,
        e.1 ∈ addresses ∧ e.2 = scoreOf f none s.calls e.1 ∨
          e.1 ∉ addresses ∧ e ∈ (s.boards period).entries := by
  induction addresses generalizing s with
  | nil => exact ⟨rfl, rfl, fun e he => .inr ⟨List.not_mem_nil, he⟩⟩
  | cons address addresses ih =>
    obtain ⟨hnow, hcalls, hentries⟩ := ih (refreshUserScore f s address)
    refine ⟨hnow, hcalls, fun e he => ?_⟩
    rcases hentries e he with ⟨hmem, hscore⟩ | ⟨hnot, hmem⟩
    · exact .inl ⟨.tail _ hmem, hscore⟩
    · rcases SortedSet.mem_zadd.mp hmem with rfl | ⟨hmem, hne⟩
      · exact .inl ⟨List.mem_cons_self, rfl⟩
      · exact .inr ⟨by simpa using ⟨hne, hnot⟩, hmem⟩

/-- Steps that keep the clock, the board and the calls of a period. -/
theorem KeepsPeriod.of_eq {f : Floats} {s s' : Leaderboards}
    (h : KeepsPeriod f period s) (hnow : s'.now = s.now)
    (hboard : s'.boards period = s.boards period)
    (hcalls : ∀ since userId, callsOf since s'.calls userId = callsOf since s.calls userId) :
    KeepsPeriod f period s' := by
  intro e he
  rw [hboard] at he
  rw [hnow, scoreOf, hcalls]
  exact h e he

/-- A sync brings a board to its period if it finds a call, or if the board was empty. -/
theorem keepsPeriod_sync_iff (f : Floats) (period : LeaderboardPeriod) (s : Leaderboards) :
    KeepsPeriod f period (s.next f (.sync period)) ↔
      (groupByUser (getSinceForPeriod s.now period) s.calls = [] →
        (s.boards period).entries = []) := by
  have hsame : (s.next f (.sync period)).now = s.now ∧
      (s.next f (.sync period)).calls = s.calls := by
    rw [next_sync]
    exact ⟨rfl, rfl⟩
  constructor
  · intro h hrows
    refine List.eq_nil_iff_forall_not_mem.mpr fun e he => ?_
    rw [← bulkSet_nil (f := f) (s.boards period) hrows, ← sync_board] at he
    have hcalls := (h e he).1
    rw [hsame.1, hsame.2] at hcalls
    exact hcalls (callsOf_of_no_rows hrows e.1)
  · intro h e he
    rw [sync_board] at he
    rw [hsame.1, hsame.2]
    by_cases hrows : groupByUser (getSinceForPeriod s.now period) s.calls = []
    · rw [bulkSet_nil _ hrows, h hrows] at he
      cases he
    · obtain ⟨row, hrow, rfl⟩ := List.mem_map.mp ((bulkSet_perm _ hrows).mem_iff.mp he)
      obtain ⟨hcalls, hstats⟩ := mem_groupByUser.mp hrow
      exact ⟨hcalls, congrArg (Stats.score f) hstats⟩

theorem KeepsPeriod.step {f : Floats} {s : Leaderboards}
    {action : Action} (h : KeepsPeriod f period s) (hfits : Fits f period s action) :
    KeepsPeriod f period (s.next f action) := by
  cases action with
  | create id userId => exact h.of_eq rfl rfl fun since => callsOf_create since s.calls id userId
  | cancel id => exact h.of_eq rfl rfl fun since => callsOf_cancel since s.calls id
  | settle settlements =>
    intro e he
    obtain ⟨hnow, hcalls, hentries⟩ := mem_handleOutcomeSubmitted f period
      (affectedAddresses settlements s.calls)
      { s with calls := s.calls.map (·.settle s.now settlements) }
    rw [Leaderboards.next, hnow, hcalls]
    rcases hentries e he with ⟨haffected, hscore⟩ | ⟨hnot, hmem⟩
    · exact ⟨callsOf_affected s.now period haffected, hscore.trans (hfits e.1 haffected)⟩
    · rw [scoreOf, callsOf_settle _ _ hnot]
      exact h e hmem
  | sync other =>
    by_cases hother : period = other
    · subst hother
      refine (keepsPeriod_sync_iff f period s).mpr fun hrows => ?_
      exact List.eq_nil_iff_forall_not_mem.mpr fun e he =>
        (h e he).1 (callsOf_of_no_rows hrows e.1)
    · rw [next_sync]
      exact h.of_eq rfl (Function.update_of_ne hother _ _) fun _ _ => rfl
  | tick elapsed =>
    intro e he
    rcases hfits with hsince | hempty
    · rw [Leaderboards.next, hsince]
      exact h e he
    · rw [Leaderboards.next, hempty] at he
      cases he

/-- What Redis serves of a period, and what the database computes. -/
def Leaderboards.served (f : Floats) (db : Database) (period : LeaderboardPeriod)
    (s : Leaderboards) (page limit : Nat) : Option RedisBoardResponse :=
  getPeriodLeaderboard f db s.calls s.now period page limit true s.boards

def Leaderboards.fromDb (f : Floats) (db : Database) (period : LeaderboardPeriod)
    (s : Leaderboards) (page limit : Nat) : Option RedisBoardResponse :=
  getPeriodLeaderboardFromDb f db s.calls s.now period page limit

/-- A board keeps to its period in every run whose steps fit it. -/
theorem KeepsPeriod.run {f : Floats} {s s' : Leaderboards}
    {history history' : List Action} (h : KeepsPeriod f period s)
    (path : System.Path (leaderboards f) (fun _ s action => Fits f period s action)
      history s history' s') : KeepsPeriod f period s' := by
  induction path with
  | refl => exact h
  | tail _ hstep hfits ih =>
    cases hstep
    exact ih.step hfits

/-- The board of a period after a sync, and in every run from there whose steps fit the period. -/
theorem boards_after_sync {f : Floats} {period : LeaderboardPeriod} {s s' : Leaderboards}
    {history : List Action}
    (path : System.Path (leaderboards f) (fun _ s action => Fits f period s action) []
      (s.next f (.sync period)) history s') :
    let synced := s.next f (.sync period)
    let rows := groupByUser (getSinceForPeriod s.now period) s.calls
    (∀ db, Agree (synced.served f db period) (synced.fromDb f db period) ↔
      (rows = [] → (s.boards period).entries = []) ∧
        (rows ≠ [] → rows.length = 1 ∧ db.ordersByUnselected = true)) ∧
    ((∀ db : Database, db.ordersByUnselected = true →
        SameEntries (synced.served f db period) (synced.fromDb f db period)) ↔
      (rows = [] → (s.boards period).entries = []) ∧ RankedByProfit f rows) ∧
    (KeepsPeriod f period synced ↔ (rows = [] → (s.boards period).entries = [])) ∧
    (KeepsPeriod f period synced → KeepsPeriod f period s') := by
  have hboard := sync_board f s period
  have hsame : (s.next f (.sync period)).now = s.now ∧
      (s.next f (.sync period)).calls = s.calls := by
    rw [next_sync]
    exact ⟨rfl, rfl⟩
  refine ⟨fun db => ?_, ?_, keepsPeriod_sync_iff f period s, fun h => h.run path⟩
  · have h := agree_iff hboard db
    rwa [← hsame.1, ← hsame.2] at h ⊢
  · have h := same_entries_iff hboard
    rwa [← hsame.1, ← hsame.2] at h ⊢

end Period

/-- Noon of a Friday. -/
def friday : Int := 20000 * 86400000 + 43200000

/-- A user has won a call, and another one has placed one. -/
def opening : Leaderboards where
  now := friday
  calls :=
    [⟨"c1", "alice", .settled, some .won, 5000000, some (friday - 3600000)⟩,
      ⟨"c2", "bob", .pending, none, 0, none⟩]
  boards _ := .empty

/-- The board of the week after the other call is settled too. -/
theorem week_kept : KeepsPeriod exact .weekly
      ((opening.next exact (.sync .weekly)).next exact (.settle [⟨"c2", .lost, -1000000⟩])) ∧
    Agree
      ((opening.next exact (.sync .weekly)).served exact (.preferring ⟨⟨0, 0, 0⟩, "alice"⟩) .weekly)
      ((opening.next exact (.sync .weekly)).fromDb exact
        (.preferring ⟨⟨0, 0, 0⟩, "alice"⟩) .weekly) := by
  have hfits : Fits exact .weekly (opening.next exact (.sync .weekly))
      (.settle [⟨"c2", .lost, -1000000⟩]) := by
    unfold Fits
    decide +kernel
  have hone : (groupByUser (getSinceForPeriod opening.now .weekly) opening.calls).length = 1 := by
    decide +kernel
  obtain ⟨hagree, -, hsync, hrun⟩ := boards_after_sync
    (.tail (.refl [] (opening.next exact (.sync .weekly))) rfl hfits)
  refine ⟨hrun (hsync.mpr fun _ => rfl), (hagree _).mpr ⟨fun _ => rfl, fun _ => ⟨hone, rfl⟩⟩⟩

/-- A user with a single call won, and one with more profit who has also lost a call. -/
def rivals : Leaderboards where
  now := friday
  calls :=
    [⟨"c1", "alice", .settled, some .won, 1000000, some (friday - 3600000)⟩,
      ⟨"c2", "bob", .settled, some .won, 100000000, some (friday - 3600000)⟩,
      ⟨"c3", "bob", .settled, some .lost, -1000000, some (friday - 3600000)⟩]
  boards _ := .empty

/-- A user who has lost a call in the week before and wins one now. -/
def returning : Leaderboards where
  now := friday
  calls :=
    [⟨"c1", "alice", .settled, some .lost, -1000000, some (friday - 604800000)⟩,
      ⟨"c2", "alice", .pending, none, 0, none⟩]
  boards _ := .empty

/-- After a sync Redis lists the users in another order than the database, and with another total;
settled calls bring the score of all calls on the board of the week, and a sync at the start of a
week in which no call is settled leaves the board of the week before. -/
theorem boards_diverge :
    (∀ db : Database, ¬ Agree ((rivals.next exact (.sync .allTime)).served exact db .allTime)
      ((rivals.next exact (.sync .allTime)).fromDb exact db .allTime)) ∧
    ¬ SameEntries
      ((rivals.next exact (.sync .allTime)).served exact (.preferring ⟨⟨0, 0, 0⟩, "alice"⟩)
        .allTime)
      ((rivals.next exact (.sync .allTime)).fromDb exact (.preferring ⟨⟨0, 0, 0⟩, "alice"⟩)
        .allTime) ∧
    ¬ KeepsPeriod exact .weekly
      ((returning.next exact (.sync .weekly)).next exact (.settle [⟨"c2", .won, 1000000⟩])) ∧
    ¬ KeepsPeriod exact .weekly
      (((opening.next exact (.sync .weekly)).next exact (.tick 604800000)).next exact
        (.sync .weekly)) := by
  refine ⟨fun db h => ?_, fun h => ?_, by decide +kernel, by decide +kernel⟩
  · have hrows : (groupByUser (getSinceForPeriod rivals.now .allTime) rivals.calls).length = 2 := by
      decide +kernel
    have hone := ((agree_iff (sync_board exact rivals .allTime) db).mp h).2 fun hnil => by
      rw [hnil] at hrows
      cases hrows
    omega
  · have hpage := h 1 2 (by omega) (by omega) (by omega)
    revert hpage
    decide +kernel

end Backit.Leaderboard
