import Backit.Lib.SecondaryIndex
import Backit.Tournaments.Entries

/-!
# The runs of a contest

A contest gathers brackets and then results, and is finalised at most once. The results are a legal
prefix of the bracket in every run, and the contract holds the pools of the contests that are not
finalised. When no bracket is submitted to a contest that is finalised, its pool is what it paid.
-/

namespace Backit.Tournaments

open Soroban Contract Lib

section Ranking

/-- What the entrant with an index is ranked by. -/
def rankKey (s : Storage) (id : Nat) (results : List Nat) (i : Nat) : Int × Bool :=
  ((s.entrants id).map (keyOf s id results)).getD i (0, false)

/-- The entrant with index `i` ranks before the one with index `j`: it has the higher score, or the
champion in a tie of the scores, or it is the earlier one in a tie of both. -/
def Outranks (s : Storage) (id : Nat) (results : List Nat) (i j : Nat) : Prop :=
  (rankKey s id results j).1 < (rankKey s id results i).1 ∨
    (rankKey s id results i).1 = (rankKey s id results j).1 ∧
      ((rankKey s id results i).2 = true ∧ (rankKey s id results j).2 = false ∨
        (rankKey s id results i).2 = (rankKey s id results j).2 ∧ i < j)

variable {keys : List (Int × Bool)}

theorem key_before_asymm (a b : Nat) (h : KeyBefore keys a b) : ¬ KeyBefore keys b a := by
  unfold KeyBefore at *
  rw [Bool.lt_iff] at *
  grind

theorem not_key_before_trans (a b c : Nat) (hab : ¬ KeyBefore keys b a)
    (hbc : ¬ KeyBefore keys c b) : ¬ KeyBefore keys c a := by
  unfold KeyBefore at *
  rw [Bool.lt_iff] at *
  grind

/-- The order of the entrants that a finalisation computes. -/
def bracketOrder (s : Storage) (id : Nat) (results : List Nat) : List Nat :=
  sinkingSort (KeyBefore ((s.entrants id).map (keyOf s id results)))
    (List.range (s.entrants id).length)

theorem bracket_order_perm (s : Storage) (id : Nat) (results : List Nat) :
    (bracketOrder s id results).Perm (List.range (s.entrants id).length) :=
  sinkingSort_perm _

theorem bracket_order_outranks (s : Storage) (id : Nat) (results : List Nat) :
    (bracketOrder s id results).Pairwise (Outranks s id results) := by
  have h : (bracketOrder s id results).Pairwise
      (Ahead (KeyBefore ((s.entrants id).map (keyOf s id results))) (· < ·)) :=
    sinkingSort_pairwise key_before_asymm not_key_before_trans List.pairwise_lt_range
  refine h.imp fun {i j} hahead => ?_
  unfold Ahead KeyBefore at hahead
  rw [Bool.lt_iff, Bool.lt_iff] at hahead
  unfold Outranks rankKey
  grind

end Ranking

/-- The effects pay the whole pool of a contest to the first three of the ranked entrants. -/
def PaysPool (self : Address) (s : Storage) (id : Nat) (c : BracketContest)
    (effects : List (Effect Event)) : Prop :=
  ∃ (order : List Nat) (paid : List (Address × Int)),
    order.Perm (List.range (s.entrants id).length) ∧
    order.Pairwise (Outranks s id c.results) ∧
    paid.map Prod.fst = (order.filterMap ((s.entrants id)[·]?)).take 3 ∧
    amountOf paid = c.pool ∧ effects = paymentEffects c.token self paid

/-- The amounts of a contest's payments are its prizes. -/
theorem payments_split {s : Storage} {id : Nat} (c : BracketContest) (hn : s.entrants id ≠ []) :
    (payments s id c).map Prod.fst = (rankedEntrants s id c.results).take 3 ∧
      (payments s id c).map Prod.snd = prizeList c.pool (min (s.entrants id).length 3) := by
  have hpos : 0 < (s.entrants id).length := List.length_pos_iff.mpr hn
  have hin : ∀ i ∈ bracketOrder s id c.results, i < (s.entrants id).length := fun i hi =>
    List.mem_range.mp ((bracket_order_perm s id c.results).mem_iff.mp hi)
  have hranked : (rankedEntrants s id c.results).length = (s.entrants id).length := by
    have hall : ∀ i ∈ bracketOrder s id c.results, ((s.entrants id)[i]?).isSome = true :=
      fun i hi => by simp [hin i hi]
    have hlength := List.filterMap_length_eq_length.mpr hall
    exact hlength.trans ((bracket_order_perm s id c.results).length_eq.trans List.length_range)
  have hprizes := prize_list_length c.pool (show 0 < min (s.entrants id).length 3 by omega)
    (Nat.min_le_right ..)
  constructor
  · rw [payments, List.zip_eq_zip_take_min, List.map_fst_zip (by simp), hprizes, hranked,
      List.take_eq_take_iff]
    omega
  · exact List.map_snd_zip (by omega)

theorem amount_of_payments {s : Storage} {id : Nat} {c : BracketContest}
    (hpool : c.pool = c.entryFee * (s.entrants id).length) :
    amountOf (payments s id c) = c.pool ∧ (payments s id c).map Prod.fst =
      (rankedEntrants s id c.results).take 3 := by
  by_cases hn : s.entrants id = []
  · have hnone : rankedEntrants s id c.results = [] := by
      unfold rankedEntrants
      rw [hn]
      rfl
    rw [payments, hnone, hpool, hn]
    simp
  · obtain ⟨hfst, hsnd⟩ := payments_split c hn
    exact ⟨by rw [amountOf, hsnd, sum_prize_list], hfst⟩

theorem payments_nonneg (s : Storage) (id : Nat) {c : BracketContest} (hpool : 0 ≤ c.pool) :
    ∀ p ∈ payments s id c, 0 ≤ p.2 := fun p hp =>
  prize_list_nonneg hpool _ p.2 (List.of_mem_zip hp).2

theorem pays_pool {self : Address} {s : Storage} {id : Nat} {c : BracketContest}
    (hpool : c.pool = c.entryFee * (s.entrants id).length) :
    PaysPool self s id c (paymentEffects c.token self (payments s id c)) := by
  obtain ⟨hamount, hfst⟩ := amount_of_payments hpool
  exact ⟨bracketOrder s id c.results, payments s id c, bracket_order_perm s id c.results,
    bracket_order_outranks s id c.results, hfst, hamount, rfl⟩

/-- What a contest is to pay depends on its entrants and their picks only. -/
theorem PaysPool.congr {self : Address} {s s' : Storage} {id : Nat} {c c' : BracketContest}
    {effects : List (Effect Event)} (h : PaysPool self s id c effects)
    (hentrants : s'.entrants id = s.entrants id) (hpicks : s'.picks id = s.picks id)
    (hresults : c'.results = c.results) (hpool : c'.pool = c.pool) (htoken : c'.token = c.token) :
    PaysPool self s' id c' effects := by
  have hkey : keyOf s' id c.results = keyOf s id c.results := by
    funext user
    rw [keyOf, keyOf, hpicks]
  have houtranks : Outranks s' id c.results = Outranks s id c.results := by
    funext i j
    simp only [Outranks, rankKey, hentrants, hkey]
  rw [PaysPool, hentrants, hresults, houtranks, hpool, htoken]
  exact h

/-- What holds of a contest in every run. -/
structure ContestRuns (made : List TournamentOp) (s : Storage) (id : Nat) : Prop where
  unopened : s.contest.lookup id = none → .finalizeBracket id ∉ made
  rounds : ∀ c, s.contest.lookup id = some c →
    WholeRounds c.results ∧ consistent c.results = true
  picked : ∀ user ∈ s.entrants id, Picked s id user
  once : ∀ c, s.contest.lookup id = some c →
    made.count (.finalizeBracket id) = if c.finalized = true then 1 else 0
  complete : ∀ c, s.contest.lookup id = some c → c.finalized = true → c.results.length = games

section Runs

variable {T : Type} [Tokens T] {env : Env} {f f' : Frame Storage T Event} {id : Nat}

theorem Picked.congr {s s' : Storage} {user : Address} (h : Picked s id user)
    (hpicks : s'.picks id = s.picks id) : Picked s' id user := by
  rw [Picked, hpicks]
  exact h

theorem ContestRuns.of_stored {made : List TournamentOp} {s : Storage} {c : BracketContest}
    (hc : s.contest.lookup id = some c)
    (hrounds : WholeRounds c.results ∧ consistent c.results = true)
    (hpicked : ∀ user ∈ s.entrants id, Picked s id user)
    (honce : made.count (.finalizeBracket id) = if c.finalized = true then 1 else 0)
    (hcomplete : c.finalized = true → c.results.length = games) : ContestRuns made s id := by
  refine ⟨?_, ?_, hpicked, ?_, ?_⟩
  · rw [hc]
    nofun
  all_goals
    intro c' hc'
    obtain rfl := Option.some.inj (hc.symm.trans hc')
  · exact hrounds
  · exact honce
  · exact hcomplete

theorem ContestRuns.step {made : List TournamentOp} {op : TournamentOp}
    (h : ContestRuns made f.store id) (hstep : ContestStep env f id op f') :
    ContestRuns (op :: made) f'.store id := by
  cases hstep with
  | kept hcontest hentrants hpicks hop =>
    refine ⟨?_, ?_, ?_, ?_, ?_⟩
    · intro hnone hmem
      rw [hcontest] at hnone
      exact h.unopened hnone ((List.mem_cons.mp hmem).resolve_left (Ne.symm hop))
    · rw [hcontest]
      exact h.rounds
    · intro user huser
      rw [hentrants] at huser
      exact (h.picked user huser).congr hpicks
    · rw [hcontest]
      intro c hc
      rw [List.count_cons_of_ne hop]
      exact h.once c hc
    · rw [hcontest]
      exact h.complete
  | opened hnone hc hresults hopen hentrants hpicks hop =>
    refine .of_stored hc ?_ ?_ ?_ ?_
    · rw [hresults]
      exact ⟨⟨4, rfl⟩, rfl⟩
    · intro user huser
      rw [hentrants] at huser
      exact (h.picked user huser).congr hpicks
    · rw [List.count_cons_of_ne hop, List.count_eq_zero.mpr (h.unopened hnone), hopen]
      rfl
    · rw [hopen]
      nofun
  | @submitted user picks c _ _ hsubmits hc hentrants hpicks =>
    refine .of_stored hc (h.rounds c hsubmits.stored) ?_ ?_ (h.complete c hsubmits.stored)
    · intro other hother
      rw [hentrants, List.mem_append, List.mem_singleton] at hother
      rw [Picked, hpicks]
      by_cases heq : other = user
      · subst heq
        have hlength := hsubmits.length
        exact ⟨picks, Function.update_self .., by rw [hlength]; decide⟩
      · rw [Function.update_of_ne heq]
        exact h.picked other (hother.resolve_right heq)
    · have hother : TournamentOp.submitBracket user id picks ≠ .finalizeBracket id := nofun
      rw [List.count_cons_of_ne hother]
      exact h.once c hsubmits.stored
  | @resolved winners c _ hstored hmore hsize hconsistent hc hentrants hpicks =>
    refine .of_stored hc ⟨(h.rounds c hstored).1.resolve hmore hsize, hconsistent⟩ ?_ ?_ ?_
    · intro user huser
      rw [hentrants] at huser
      exact (h.picked user huser).congr hpicks
    · have hother : TournamentOp.resolveRound id winners ≠ .finalizeBracket id := nofun
      rw [List.count_cons_of_ne hother]
      exact h.once c hstored
    · intro hfinal
      exact absurd (h.complete c hstored hfinal) hmore.ne
  | @finalized c _ _ hfinalizes hc hentrants hpicks _ =>
    have honce := h.once c hfinalizes.stored
    rw [hfinalizes.unfinalized] at honce
    refine .of_stored hc (h.rounds c hfinalizes.stored) ?_ ?_ fun _ => hfinalizes.complete
    · intro user huser
      rw [hentrants] at huser
      exact (h.picked user huser).congr hpicks
    · rw [List.count_cons_self, honce]
      rfl

/-- The token's pools of the contests that are not finalised. -/
def owed (token : Address) (c : BracketContest) : Int :=
  if c.token = token ∧ c.finalized = false then max c.pool 0 else 0

/-- What the contract owes the entrants of contests that are not finalised. -/
def Storage.obligation (s : Storage) (token : Address) : Int := sumRows (owed token) s.contest

theorem owed_nonneg (token : Address) (c : BracketContest) : 0 ≤ owed token c := by
  unfold owed
  split <;> omega

/-- Replacing a contest changes the obligation by what the two owe. -/
theorem obligation_replace {s : Storage} {c : BracketContest}
    (hc : s.contest.lookup id = some c) (token : Address) (c' : BracketContest) :
    sumRows (owed token) (s.contest.insert id c') =
      s.obligation token - owed token c + owed token c' :=
  sumRows_replace (owed token) hc c'

/-- What a step adds to the obligation it adds to what the contract has. -/
theorem TournamentStep.obligation {op : TournamentOp} (hexact : ExactTransfers T)
    (hstored : Stored f.store) (hforeign : env.contract ∉ env.auths)
    (hstep : TournamentStep env f op f') (token : Address) {held' : Int}
    (hheld' : Tokens.balance f'.tokens token env.contract = some held') :
    ∃ held, Tokens.balance f.tokens token env.contract = some held ∧
      f'.store.obligation token - f.store.obligation token ≤ held' - held := by
  cases hstep with
  | initialized | created | entered | updated => exact ⟨held', hheld', by simp [Storage.obligation,
      Storage.setAdmin, Storage.setFactory, Storage.setTournamentCount, Storage.setTournament,
      Storage.setMarketEntries, Storage.setMarketEntryByCallId]⟩
  | finalized => exact ⟨held', hheld', by simp [Storage.obligation]⟩
  | @bracketOpened _ id token' entryFee lockTs _ _ _ hnew =>
    refine ⟨held', hheld', ?_⟩
    have hsum := sumRows_insert (owed token) (v := ⟨token', entryFee, lockTs, 0, [], false⟩)
      (AList.lookup_eq_none.mpr hnew)
    simp only [Storage.obligation, Storage.setContest, hsum]
    simp [owed]
  | @submitted user id picks c _ hsubmits =>
    have hbalance := hexact hsubmits.paid token env.contract
    rw [hheld'] at hbalance
    obtain ⟨held, hheld, hsum⟩ := Option.map_eq_some_iff.mp hbalance.symm
    refine ⟨held, hheld, ?_⟩
    have huser : env.contract ≠ user := fun heq => hforeign (heq ▸ hsubmits.auth)
    have hfee := (hstored.pool id c hsubmits.stored).1
    have hpool := hstored.pool_nonneg hsubmits.stored
    simp only [Storage.setEntrants, Storage.setPicks, Storage.setContest]
    rw [Storage.obligation, obligation_replace hsubmits.stored]
    simp only [owed, transferDelta, if_true, if_neg huser] at hsum ⊢
    grind
  | @resolved _ id winners c _ _ hc =>
    refine ⟨held', hheld', ?_⟩
    rw [Storage.setContest, Storage.obligation, obligation_replace hc]
    simp [owed]
  | @bracketFinalized id c tokens hfinalizes =>
    have hbalance := hexact.pay_each hfinalizes.paid token env.contract
    rw [hheld'] at hbalance
    obtain ⟨held, hheld, hsum⟩ := Option.map_eq_some_iff.mp hbalance.symm
    refine ⟨held, hheld, ?_⟩
    have hpool := hstored.pool_nonneg hfinalizes.stored
    have hamount := (amount_of_payments (hstored.pool id c hfinalizes.stored).2).1
    have hleast := neg_amount_le_paid_delta env.contract (payments_nonneg f.store id hpool)
    rw [Storage.setContest, Storage.obligation, obligation_replace hfinalizes.stored]
    simp only [owed, hfinalizes.unfinalized] at hsum ⊢
    grind

end Runs

/-- The contest is not finalised yet, if a bracket is submitted to it. -/
def BeforeSettlement (s : Storage) : TournamentOp → Prop
  | .submitBracket _ id _ => ∀ c ∈ s.contest.lookup id, c.finalized = false
  | _ => True

instance (s : Storage) : (op : TournamentOp) → Decidable (BeforeSettlement s op)
  | .submitBracket _ id _ => inferInstanceAs (Decidable (∀ c ∈ s.contest.lookup id, _))
  | .initializeTournaments .. | .createTournament .. | .enterMarket .. | .updateMarketStats ..
  | .finalizeTournament _ | .initBracket .. | .resolveRound .. | .finalizeBracket _ =>
    inferInstanceAs (Decidable True)

/-- The invocation that finalised a contest paid its pool. -/
def Paid (self : Address) (history : List (Happening TournamentOp Event)) (s : Storage)
    (id : Nat) : Prop :=
  ∀ c, s.contest.lookup id = some c → c.finalized = true →
    ∃ i ∈ invocations history, i.op = .finalizeBracket id ∧ PaysPool self s id c i.effects

section Settlement

variable {T : Type} [Tokens T] {self : Address} {outside : T → T → Prop}
  {guard : System.Guard (Deployment Storage T) (Happening TournamentOp Event)}
  {history : List (Happening TournamentOp Event)} {d : Deployment Storage T}

theorem contest_runs (run : (tournaments self outside).RunWhere guard history d) (id : Nat) :
    ContestRuns (ops history) d.store id := by
  refine contract_invariant (I := fun h d => ContestRuns (ops h) d.store id) ?_ ?_ ?_ run
  · intro d hd
    rw [show d.store = Storage.empty from hd.1]
    constructor <;> simp [Storage.empty, ops]
  · intro h d env op f hrun ih _ hinvoke _
    exact ih.step ((TournamentOp.steps (stored_of_run hrun) hinvoke).contest id)
  · intro h d peers _ ih _
    exact ih

/-- The contract holds the pools of the contests that are not finalised. -/
theorem obligation_le_balance (hexact : ExactTransfers T) (hundrained : Undrained self outside)
    (run : (tournaments self outside).RunWhere guard history d) :
    ∀ token held, Tokens.balance d.peers token self = some held →
      d.store.obligation token ≤ held := by
  refine owed_le_balance hundrained (fun d hd => ?_)
    (fun h d env op f hrun hadmissible hinvoke token held' hheld' => ?_) run
  · rw [hd.1]
    exact hd.2
  · have hstored := stored_of_run hrun
    exact (TournamentOp.steps hstored hinvoke).obligation hexact hstored
      (hadmissible.contract ▸ hadmissible.foreign) token hheld'

/-- A step before the settlement keeps the payment of a contest. -/
theorem Paid.step {env : Env} {op : TournamentOp} {f f' : Frame Storage T Event} {id : Nat}
    (h : Paid env.contract history f.store id) (hruns : ContestRuns (ops history) f.store id)
    (hstored : Stored f.store) (hfirst : f.effects = []) (hbefore : BeforeSettlement f.store op)
    (hstep : ContestStep env f id op f') :
    Paid env.contract (.invoked ⟨env, op, f'.effects⟩ :: history) f'.store id := by
  intro c' hc' hfinal
  have hkept : ∀ c, f.store.contest.lookup id = some c → c.finalized = true →
      ∃ i ∈ invocations (.invoked ⟨env, op, f'.effects⟩ :: history),
        i.op = .finalizeBracket id ∧ PaysPool env.contract f.store id c i.effects := by
    intro c hc hfinal
    obtain ⟨i, hi, hop, hpays⟩ := h c hc hfinal
    exact ⟨i, .tail _ hi, hop, hpays⟩
  cases hstep with
  | kept hcontest hentrants hpicks =>
    rw [hcontest] at hc'
    obtain ⟨i, hi, hop, hpays⟩ := hkept c' hc' hfinal
    exact ⟨i, hi, hop, hpays.congr hentrants hpicks rfl rfl rfl⟩
  | opened _ hc _ hopen =>
    obtain rfl := Option.some.inj (hc.symm.trans hc')
    rw [hopen] at hfinal
    cases hfinal
  | submitted hsubmits hc =>
    obtain rfl := Option.some.inj (hc.symm.trans hc')
    rw [hbefore _ hsubmits.stored] at hfinal
    cases hfinal
  | resolved hstored hmore _ _ hc =>
    obtain rfl := Option.some.inj (hc.symm.trans hc')
    exact absurd (hruns.complete _ hstored hfinal) hmore.ne
  | finalized hfinalizes hc hentrants hpicks heffects =>
    obtain rfl := Option.some.inj (hc.symm.trans hc')
    refine ⟨_, .head _, rfl, ?_⟩
    rw [heffects, hfirst, List.append_nil]
    exact (pays_pool (hstored.pool id _ hfinalizes.stored).2).congr hentrants hpicks rfl rfl rfl

/-- No bracket is submitted to a contest that is finalised. -/
def NoLateBrackets (T : Type) :
    System.Guard (Deployment Storage T) (Happening TournamentOp Event) :=
  fun _ d l => ∀ i, l.invocation = some i → BeforeSettlement d.store i.op

theorem paid_of_run (run : (tournaments self outside).RunWhere (NoLateBrackets T) history d)
    (id : Nat) : Paid self history d.store id := by
  refine contract_invariant (I := fun h d => Paid self h d.store id) ?_ ?_ ?_ run
  · intro d hd
    rw [show d.store = Storage.empty from hd.1]
    intro c hc
    simp [Storage.empty] at hc
  · intro h d env op f hrun ih hadmissible hinvoke hbefore
    obtain rfl := hadmissible.contract
    have hstored := stored_of_run hrun
    exact Paid.step (f := d.frame) ih (contest_runs hrun id) hstored rfl (hbefore _ rfl)
      ((TournamentOp.steps hstored hinvoke).contest id)
  · intro h d peers _ ih _
    exact ih

end Settlement

/-!
## Settlement of bracket contests

A contest whose rounds are all resolved can be finalised as long as fifty times its pool fits an
`i128`. The pool is checked when brackets are submitted, and its product with a share is not.
-/

section Settlement

variable {T : Type} [Tokens T] {self : Address} {outside : T → T → Prop}
  {history : List (Happening TournamentOp Event)} {d : Deployment Storage T}

/-- A contest is settled as it should be: its results are a legal prefix of the bracket, it is
finalised at most once, which paid its whole pool in the order of the ranking, and it can be
finalised when all rounds are resolved. -/
structure SettlesContest (contract : Address) (history : List (Happening TournamentOp Event))
    (d : Deployment Storage T) (id : Nat) (c : BracketContest) : Prop where
  legal : LegalPrefix (List.range 16) c.results
  pool : c.pool = c.entryFee * (d.store.entrants id).length
  once : (ops history).count (.finalizeBracket id) = if c.finalized = true then 1 else 0
  paid : c.finalized = true → ∃ i ∈ invocations history, i.op = .finalizeBracket id ∧
    PaysPool contract d.store id c i.effects
  payable : c.results.length = games → c.finalized = false → ∀ env, Admissible contract d env →
    ∃ f : Frame Storage T Event, run (finalizeBracket id) env d.frame = .ok ((), f)

theorem finalizes_of_held (hpay : ContractsPay T) (hexact : ExactTransfers T)
    (hundrained : Undrained self outside)
    {guard : System.Guard (Deployment Storage T) (Happening TournamentOp Event)}
    (hrun : (tournaments self outside).RunWhere guard history d) {id : Nat} {c : BracketContest}
    (hc : d.store.contest.lookup id = some c) (hopen : c.finalized = false)
    (hcomplete : c.results.length = games) (hfits : c.pool * 50 ≤ i128Max) {held : Int}
    (hheld : Tokens.balance d.peers c.token self = some held) {env : Env}
    (hcontract : env.contract = self) :
    ∃ f : Frame Storage T Event, run (finalizeBracket id) env d.frame = .ok ((), f) := by
  have hstored := stored_of_run hrun
  have hpool := hstored.pool_nonneg hc
  have howed : owed c.token c ≤ d.store.obligation c.token :=
    quantity_le_sumRows (owed c.token) (owed_nonneg c.token) hc
  have hle := obligation_le_balance hexact hundrained hrun c.token held hheld
  have hamount := (amount_of_payments (hstored.pool id c hc).2).1
  rw [owed, if_pos ⟨rfl, hopen⟩] at howed
  subst hcontract
  obtain ⟨tokens, hpaid⟩ := hpay.pay_each hexact (payments_nonneg d.store id hpool) hheld
    (by omega)
  exact ⟨_, (run_finalizeBracket fun c hc => hstored.pool_nonneg hc).mpr ⟨c, tokens,
    ⟨hc, hopen, hcomplete, (contest_runs hrun id).picked, fun _ => hfits, hpaid⟩, rfl⟩⟩

/-- When no bracket is submitted to a contest that is finalised, a contest is settled as it should
be exactly unless all its rounds are resolved, it is not finalised and the product of its pool and
the first share overflows. -/
theorem settles_contest_iff (hpay : ContractsPay T) (hexact : ExactTransfers T)
    (hundrained : Undrained self outside)
    (hrun : (tournaments self outside).RunWhere (NoLateBrackets T) history d) {id : Nat}
    {c : BracketContest} (hc : d.store.contest.lookup id = some c)
    {held : Int} (hheld : Tokens.balance d.peers c.token self = some held) :
    SettlesContest self history d id c ↔
      (c.results.length = games → c.finalized = false → c.pool * 50 ≤ i128Max) := by
  have hstored := stored_of_run hrun
  have hruns := contest_runs hrun id
  obtain ⟨hrounds, hconsistent⟩ := hruns.rounds c hc
  constructor
  · intro h hcomplete hopen
    obtain ⟨f, hf⟩ := h.payable hcomplete hopen ⟨self, d.timestamp, d.sequence, []⟩
      ⟨rfl, List.not_mem_nil, le_rfl, le_rfl⟩
    obtain ⟨c', tokens, hfinalizes, -⟩ :=
      (run_finalizeBracket fun c hc => hstored.pool_nonneg hc).mp hf
    obtain rfl := Option.some.inj (hc.symm.trans hfinalizes.stored)
    by_cases hn : d.store.entrants id = []
    · have hzero : c.pool = 0 := by simp [(hstored.pool id c hc).2, hn]
      rw [hzero]
      decide
    · exact hfinalizes.computed hn
  · intro hfits
    exact ⟨legal_of_consistent hrounds hconsistent, (hstored.pool id c hc).2, hruns.once c hc,
      paid_of_run hrun id c hc, fun hcomplete hopen env hadmissible =>
        finalizes_of_held hpay hexact hundrained hrun hc hopen hcomplete
          (hfits hcomplete hopen) hheld hadmissible.contract⟩

end Settlement

/-- The bracket with another champion. -/
def upset : List Nat := [0, 2, 4, 6, 8, 10, 12, 14, 0, 4, 8, 12, 0, 8, 8]

/-- The rounds of the bracket in which the first teams win, from the time 31 on. -/
def firstTeamsWin : List (Env × TournamentOp) :=
  [at_ 31 [admin] (.resolveRound 1 [0, 2, 4, 6, 8, 10, 12, 14]),
    at_ 32 [admin] (.resolveRound 1 [0, 4, 8, 12]), at_ 33 [admin] (.resolveRound 1 [0, 8]),
    at_ 34 [admin] (.resolveRound 1 [0])]

/-- No bracket is submitted late, if the invocation submits one. -/
def timely (_ : List (Happening TournamentOp Event)) (d : Deployment Storage StandardLedger)
    (l : Happening TournamentOp Event) : Bool :=
  l.invocation.all fun i => BeforeSettlement d.store i.op

theorem timely_in_time (h : List (Happening TournamentOp Event))
    (d : Deployment Storage StandardLedger) (l : Happening TournamentOp Event)
    (htimely : timely h d l = true) : NoLateBrackets StandardLedger h d l := by
  intro i hi
  rw [timely, hi] at htimely
  exact of_decide_eq_true htimely

/-- Alice and Bob enter, all rounds are resolved and the contest is finalised. -/
def settledContest : System.Replayed closed (Deployment.next TournamentOp.perform cup) timely :=
  .of funded funded_initial (bracketOpening ++
    [at_ 5 [alice] (.submitBracket alice 1 upset), at_ 6 [bob] (.submitBracket bob 1 firstTeams)] ++
    firstTeamsWin ++ [at_ 35 [] (.finalizeBracket 1)]) (by decide +kernel)

theorem nowhere_undrained : Undrained cup fun _ _ : StandardLedger => False := nofun

theorem settled_contest_settles :
    ∃ c, settledContest.state.store.contest.lookup 1 = some c ∧ c.finalized = true ∧
      SettlesContest cup settledContest.history settledContest.state 1 c := by
  have hfinal : (settledContest.state.store.contest.lookup 1).map (·.finalized) = some true := by
    decide +kernel
  obtain ⟨c, hc, hfinal⟩ := Option.map_eq_some_iff.mp hfinal
  refine ⟨c, hc, hfinal, (settles_contest_iff StandardLedger.contracts_pay
    StandardLedger.exact_transfers nowhere_undrained
    (settledContest.run Deployment.next_step timely_in_time) hc rfl).mpr ?_⟩
  intro _ hopen
  rw [hfinal] at hopen
  cases hopen

/-- Alice has a huge balance of the token. -/
def rich : Deployment Storage StandardLedger :=
  deployed fun token =>
    if token = usdc then
      Holdings.empty.set alice 100000000000000000000000000000000000000 (by decide)
    else .empty

/-- The entry fee is so high that fifty times the pool overflows. -/
def hugeContest : Cup :=
  .of rich (deployed_initial _)
    ([at_ 1 [] (.initializeTournaments admin factory),
      at_ 2 [admin] (.initBracket 1 usdc 100000000000000000000000000000000000000 30),
      at_ 5 [alice] (.submitBracket alice 1 firstTeams)] ++ firstTeamsWin) (by decide +kernel)

/-- Alice enters and the rounds are resolved before the lock time, and Bob enters a contest that is
finalised. -/
def lateContest : Cup :=
  .of funded funded_initial (bracketOpening ++
    [at_ 5 [alice] (.submitBracket alice 1 firstTeams),
      at_ 11 [admin] (.resolveRound 1 [0, 2, 4, 6, 8, 10, 12, 14]),
      at_ 12 [admin] (.resolveRound 1 [0, 4, 8, 12]), at_ 13 [admin] (.resolveRound 1 [0, 8]),
      at_ 14 [admin] (.resolveRound 1 [0]), at_ 15 [] (.finalizeBracket 1),
      at_ 16 [bob] (.submitBracket bob 1 firstTeams)]) (by decide +kernel)

theorem amount_of_single {token sender recipient : Address} {amount : Int}
    {paid : List (Address × Int)}
    (h : paymentEffects token sender paid = [.transfer token sender recipient amount]) :
    amountOf paid = amount := by
  rw [paymentEffects, List.reverse_eq_iff, List.reverse_singleton, List.map_eq_singleton_iff] at h
  obtain ⟨p, rfl, htransfer⟩ := h
  cases htransfer
  simp

/-- The contest with the high entry fee can never be finalised, and the late bracket's fee is not
paid to anybody. -/
theorem contests_unsettled : closed.Run hugeContest.history hugeContest.state ∧
      (∃ c, hugeContest.state.store.contest.lookup 1 = some c ∧
        ¬ SettlesContest cup hugeContest.history hugeContest.state 1 c) ∧
      closed.Run lateContest.history lateContest.state ∧
      ∃ c, lateContest.state.store.contest.lookup 1 = some c ∧
        ¬ SettlesContest cup lateContest.history lateContest.state 1 c := by
  have hhuge : (hugeContest.state.store.contest.lookup 1).map (fun c =>
      (c.results.length, c.finalized)) = some (games, false) := by decide +kernel
  have hpanics : (run (finalizeBracket 1) (at_ 35 [] (.finalizeBracket 1)).1
      hugeContest.state.frame).toOption.isNone = true := by decide +kernel
  have hadmissible : Admissible cup hugeContest.state (at_ 35 [] (.finalizeBracket 1)).1 := by
    decide +kernel
  have hlate : (lateContest.state.store.contest.lookup 1).map (fun c =>
      (c.token, c.pool, c.finalized)) = some (usdc, 8800, true) := by decide +kernel
  have hpaid : ∀ i ∈ invocations lateContest.history, i.op = .finalizeBracket 1 →
      i.effects = [.transfer usdc cup alice 4400] := by decide +kernel
  refine ⟨hugeContest.run Deployment.next_step System.anything_allowed, ?_,
    lateContest.run Deployment.next_step System.anything_allowed, ?_⟩
  · obtain ⟨c, hc, hstate⟩ := Option.map_eq_some_iff.mp hhuge
    obtain ⟨hcomplete, hopen⟩ := Prod.mk.inj hstate
    refine ⟨c, hc, fun h => ?_⟩
    obtain ⟨f, hf⟩ := h.payable hcomplete hopen _ hadmissible
    rw [hf] at hpanics
    cases hpanics
  · obtain ⟨c, hc, hstate⟩ := Option.map_eq_some_iff.mp hlate
    simp only [Prod.mk.injEq] at hstate
    obtain ⟨htoken, hpool, hfinal⟩ := hstate
    refine ⟨c, hc, fun h => ?_⟩
    obtain ⟨i, hi, hop, _, paid, -, -, -, hamount, heffects⟩ := h.paid hfinal
    rw [hpaid i hi hop, htoken] at heffects
    rw [amount_of_single heffects.symm, hpool] at hamount
    cases hamount

end Backit.Tournaments
