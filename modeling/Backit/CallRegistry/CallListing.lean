import Backit.CallRegistry.StoredMetadata
import Backit.CallRegistry.Terms
import Backit.Lib.SequencedRows

/-!
# Listing the calls

The views that list calls scan the ids up to the call counter. Every id up to the counter has a
call, so the pages of both paginated views are the first entries of the listing from their position
on. Only the scan for a creator's calls steps past its last id without a check, and traps at the
last number there is.
-/

namespace Backit.CallRegistry

open Soroban Contract Lib

variable {T : Type}

/-- `MAX_CALL_PAGE_SIZE`. -/
def maxCallPageSize : Nat := 20

/-- One turn of the loops that collect the calls they keep. -/
def pushCall (store : Storage) (keep : Call → Bool) (calls : List Call) (callId : Nat) :
    List Call :=
  match store.getCall callId with
  | some call => if keep call = true then calls ++ [call] else calls
  | none => calls

def getCallsByCreator (creator : Address) : Registry T (List Call) := do
  let store ← getStore
  pure ((List.range' 1 store.market.callCounter).foldl
    (pushCall store fun call => call.creator = creator) [])

def getCallsPaginated (startId limit : Nat) : Registry T (List Call) := do
  let store ← getStore
  let totalCalls := store.market.callCounter
  let pageSize := min limit maxCallPageSize
  let start := if startId < 1 then 1 else startId
  if pageSize = 0 ∨ totalCalls = 0 then pure []
  else if totalCalls < start then pure []
  else
    -- The addition saturates.
    let last := min (min (start + (pageSize - 1)) (2 ^ 64 - 1)) totalCalls
    pure ((List.range' start (last + 1 - start)).foldl (pushCall store fun _ => true) [])

/-- The loop of `get_calls_by_creator_paginated` with `left` ids to go from `current` on. -/
def scanByCreator (store : Storage) (creator : Address) (pageSize : Nat) :
    Nat → Nat → Nat → List Call → Registry T (List Call)
  | 0, _, _, calls => pure calls
  | left + 1, current, count, calls =>
    if count < pageSize then do
      let next ← unsigned 64 (current + 1)
      match store.getCall current with
      | some call =>
        if call.creator = creator then
          scanByCreator store creator pageSize left next (count + 1) (calls ++ [call])
        else scanByCreator store creator pageSize left next count calls
      | none => scanByCreator store creator pageSize left next count calls
    else pure calls

def getCallsByCreatorPaginated (creator : Address) (startId limit : Nat) :
    Registry T (List Call) := do
  let store ← getStore
  let totalCalls := store.market.callCounter
  let pageSize := min limit maxCallPageSize
  let start := if startId < 1 then 1 else startId
  if pageSize = 0 then pure []
  else scanByCreator store creator pageSize (totalCalls + 1 - start) start 0 []

section Scans

variable {env : Env} {f : Frame Storage T Event} {s : Storage}

/-- The calls under the given ids, in order. -/
def Storage.callsAt (s : Storage) (ids : List Nat) : List Call := ids.filterMap s.getCall

theorem foldl_pushCall (keep : Call → Bool) (ids : List Nat) (calls : List Call) :
    ids.foldl (pushCall s keep) calls = calls ++ (s.callsAt ids).filter keep := by
  induction ids generalizing calls with
  | nil => simp [Storage.callsAt]
  | cons id rest ih =>
    rw [List.foldl_cons, ih]
    cases hcall : s.getCall id with
    | none => simp [pushCall, Storage.callsAt, hcall]
    | some call => cases hkeep : keep call <;> simp [pushCall, Storage.callsAt, hcall, hkeep]

theorem run_getCallsByCreator (creator : Address) : run (getCallsByCreator creator) env f =
      .ok ((f.store.callsAt (List.range' 1 f.store.market.callCounter)).filter
        fun call => call.creator = creator, f) := by
  simp only [getCallsByCreator, run_getStore_bind, foldl_pushCall]
  rfl

/-- A scan that ends before the last number fills its page with the calls it keeps. -/
theorem run_scanByCreator (creator : Address) {pageSize left current count : Nat}
    (hroom : current + left < 2 ^ 64) (calls : List Call) :
    run (scanByCreator s creator pageSize left current count calls) env f =
      .ok (calls ++ ((s.callsAt (List.range' current left)).filter
        fun call => call.creator = creator).take (pageSize - count), f) := by
  induction left generalizing current count calls with
  | zero => simp [scanByCreator, Storage.callsAt, run_pure]
  | succ left ih =>
    rw [scanByCreator]
    split
    · next hcount =>
      rw [run_unsigned_bind]
      refine ⟨by omega, ?_⟩
      have hfree : pageSize - count = pageSize - (count + 1) + 1 := by omega
      cases hcall : s.getCall current with
      | none =>
        rw [ih (by omega)]
        simp [Storage.callsAt, List.range'_succ, hcall]
      | some call =>
        by_cases hcreator : call.creator = creator
        · simp only [if_pos hcreator]
          rw [ih (by omega), hfree]
          simp [Storage.callsAt, List.range'_succ, hcall, hcreator]
        · simp only [if_neg hcreator]
          rw [ih (by omega)]
          simp [Storage.callsAt, List.range'_succ, hcall, hcreator]
    · next hcount =>
      rw [Nat.sub_eq_zero_of_le (Nat.le_of_not_lt hcount), List.take_zero, List.append_nil]
      rfl

end Scans

section Numbering

/-- The calls of a market are those with the ids up to the counter. -/
def Market.Numbered (m : Market) : Prop :=
  ∀ id, (m.calls id).isSome = true ↔ 1 ≤ id ∧ id ≤ m.callCounter

theorem Market.Numbered.step {env : Env} {config : Option ContractConfig} {op : MarketOp}
    {effects : List (Effect Event)} {m m' : Market} (hm : m.Numbered)
    (h : MarketStep env config op m effects m') : m'.Numbered := by
  intro id
  have hid := hm id
  obtain ⟨-, hsame⟩ | ⟨creator, args, tokens, -, rfl⟩ |
    ⟨r, staked, credited, -, hstaked, -, -, -, rfl⟩ |
    ⟨staker, callId, position, staked, penalty, -, hstaked, -, -, -, -, rfl⟩ := h.books_cases
  · rw [hsame.callCounter, ← hid]
    have hrel := hsame.calls id
    generalize m.calls id = old, m'.calls id = new at hrel
    cases hrel <;> rfl
  · rw [Market.withNewCall_calls]
    change _ ↔ 1 ≤ id ∧ id ≤ m.callCounter + 1
    split
    · next hnew =>
      simp only [Option.isSome_some, true_iff]
      omega
    · rw [hid]
      omega
  · rw [Market.withStake_calls r credited (m.keyed _ _ hstaked)]
    refine Iff.trans ?_ hid
    split
    · next heq => simp [heq, hstaked]
    · rfl
  · rw [Market.withoutStake_calls staker position _ (m.keyed _ _ hstaked)]
    refine Iff.trans ?_ hid
    split
    · next heq => simp [heq, hstaked]
    · rfl

theorem MarketStep.counter {env : Env} {config : Option ContractConfig} {op : MarketOp}
    {effects : List (Effect Event)} {m m' : Market} (h : MarketStep env config op m effects m') :
    m'.callCounter = m.callCounter ∨
      ∃ creator args, op = .createCall creator args ∧ m'.callCounter = m.callCounter + 1 := by
  obtain ⟨-, hsame⟩ | ⟨creator, args, tokens, hop, rfl⟩ |
    ⟨r, staked, credited, -, -, -, -, -, rfl⟩ |
    ⟨staker, callId, position, staked, penalty, -, -, -, -, -, -, rfl⟩ := h.books_cases
  · exact .inl hsame.callCounter
  · exact .inr ⟨creator, args, hop, rfl⟩
  · exact .inl rfl
  · exact .inl rfl

variable {T : Type} [Tokens T] [Crypto] {self : Address} {outside : T → T → Prop}
  {guard : System.Guard (World T) Label} {history : List Label} {w : World T}

theorem numbered_of_run (run : (registry self outside).RunWhere guard history w) :
    w.store.market.Numbered := by
  refine market_invariant (I := fun _ m => m.Numbered) ?_ ?_ run
  · intro id
    simp only [Storage.empty, Option.isSome_none, Bool.false_eq_true, false_iff]
    omega
  · intro h w r m' _ _ ih hstep
    exact ih.step hstep

theorem create_call_numbered {env : Env} {f f' : Frame Storage T Event} {creator : Address}
    {args : CallInitArgs} {call : Call} (h : run (createCall creator args) env f = .ok (call, f')) :
    f.store.market.callCounter + 1 < 2 ^ 64 := by
  simp only [createCall, run_steps, run_reentrancyGuard_bind, run_requireConfig_bind,
    assertDurationWithinLimit, Contract.bind_assoc, nextCallId] at h
  obtain ⟨-, -, _, -, -, -, -, -, -, -, -, _, -, -, hnumber, -⟩ := h
  exact hnumber

theorem counter_fits (run : (registry self outside).RunWhere guard history w) :
    w.store.market.callCounter < 2 ^ 64 := by
  refine run.invariant (I := fun _ w => w.store.market.callCounter < 2 ^ 64) ?_ ?_
  · intro s hs
    rw [show s.store = Storage.empty from hs]
    decide
  · intro h s l s' _ ih hs _
    obtain ⟨r, rfl, -, -, -, -, -, hmarket⟩ | ⟨-, hmarket, -⟩ := hs.cases
    · obtain hsame | ⟨creator, args, hop, hcounter⟩ := hmarket.counter
      · rw [hsame]
        exact ih
      · rw [hcounter]
        obtain ⟨env, op, effects⟩ := r
        subst hop
        cases hs with
        | invoked _ _ _ hrun =>
          obtain ⟨call, hrun⟩ := run_ignore.mp hrun
          exact create_call_numbered hrun
    · rw [hmarket]
      exact ih

end Numbering

section Listing

variable {s : Storage}

/-- Every call there is, by id. -/
def Storage.allCalls (s : Storage) : List Call := s.callsAt (List.range' 1 s.market.callCounter)

theorem mem_callsAt {ids : List Nat} {call : Call} (h : call ∈ s.callsAt ids) :
    call.id ∈ ids ∧ s.getCall call.id = some call := by
  obtain ⟨id, hid, hcall⟩ := List.mem_filterMap.mp h
  obtain rfl := s.market.keyed id call hcall
  exact ⟨hid, hcall⟩

theorem allCalls_sorted (s : Storage) : s.allCalls.Pairwise (Call.id · < Call.id ·) := by
  refine List.Pairwise.filterMap s.getCall ?_ List.pairwise_lt_range'
  intro a a' hlt call hcall call' hcall'
  rw [s.market.keyed a call hcall, s.market.keyed a' call' hcall']
  exact hlt

theorem mem_allCalls (hnumbered : s.market.Numbered) {call : Call} :
    call ∈ s.allCalls ↔ ∃ id, s.getCall id = some call := by
  constructor
  · exact fun h => ⟨call.id, (mem_callsAt h).2⟩
  · rintro ⟨id, hcall⟩
    have hid := (hnumbered id).mp (Option.isSome_of_eq_some hcall)
    exact List.mem_filterMap.mpr ⟨id, List.mem_range'_1.mpr ⟨hid.1, by omega⟩, hcall⟩

theorem filter_range' (start n : Nat) : (List.range' 1 n).filter (max start 1 ≤ ·) =
      List.range' (max start 1) (n + 1 - max start 1) := by
  induction n with
  | zero => simp [show 1 - max start 1 = 0 by omega]
  | succ n ih =>
    rw [List.range'_1_concat, List.filter_append, ih]
    by_cases hlast : max start 1 ≤ 1 + n
    · rw [show n + 1 + 1 - max start 1 = n + 1 - max start 1 + 1 by omega, List.range'_1_concat,
        List.filter_cons_of_pos (by simpa using hlast), List.filter_nil]
      congr 2
      omega
    · rw [List.filter_cons_of_neg (by simpa using hlast), show n + 1 - max start 1 = 0 by omega,
        show n + 1 + 1 - max start 1 = 0 by omega]
      rfl

theorem filter_allCalls (s : Storage) (start : Nat) : s.allCalls.filter (start ≤ ·.id) =
      s.callsAt (List.range' (max start 1) (s.market.callCounter + 1 - max start 1)) := by
  rw [← filter_range', Storage.callsAt, List.filterMap_filter, Storage.allCalls, Storage.callsAt,
    List.filter_filterMap]
  refine List.filterMap_congr fun id hid => ?_
  have hone := (List.mem_range'_1.mp hid).1
  cases hcall : s.getCall id with
  | none => simp
  | some call =>
    obtain rfl := s.market.keyed id call hcall
    by_cases hstart : start ≤ call.id
    · simp [hstart, hone]
    · simpa [hstart] using Nat.lt_of_not_le hstart

/-- Where every id has a call, the first calls are those of the first ids. -/
theorem take_callsAt {ids : List Nat} (hcalls : ∀ id ∈ ids, (s.getCall id).isSome = true)
    (k : Nat) : (s.callsAt ids).take k = s.callsAt (ids.take k) := by
  induction ids generalizing k with
  | nil => simp [Storage.callsAt]
  | cons id rest ih =>
    obtain ⟨call, hcall⟩ := Option.isSome_iff_exists.mp (hcalls id List.mem_cons_self)
    cases k with
    | zero => rfl
    | succ k =>
      have hrest := ih (fun id hid => hcalls id (List.mem_cons_of_mem _ hid)) k
      simpa [Storage.callsAt, hcall] using hrest

end Listing

section Pages

variable {env : Env} {f : Frame Storage T Event}

theorem start_eq (startId : Nat) : (if startId < 1 then 1 else startId) = max startId 1 := by
  split <;> omega

theorem take_range' (start n k : Nat) :
    (List.range' start n).take k = List.range' start (min n k) := by
  rcases Nat.le_total n k with h | h
  · rw [List.take_range'_of_length_le h, Nat.min_eq_left h]
  · rw [List.take_range'_of_length_ge h, Nat.min_eq_right h]

/-- A page of all calls is the first calls from its position on. -/
theorem run_getCallsPaginated (hnumbered : f.store.market.Numbered)
    (hfits : f.store.market.callCounter < 2 ^ 64) (startId limit : Nat) :
    run (getCallsPaginated startId limit) env f =
      .ok ((f.store.allCalls.filter (startId ≤ ·.id)).take (min limit maxCallPageSize), f) := by
  have hexist : ∀ id ∈ List.range' (max startId 1)
      (f.store.market.callCounter + 1 - max startId 1), (f.store.getCall id).isSome = true := by
    intro id hid
    have hrange := List.mem_range'_1.mp hid
    exact (hnumbered id).mpr (by omega)
  have hnone : List.range' (max startId 1) 0 = [] := rfl
  rw [filter_allCalls, take_callsAt hexist, take_range']
  simp only [getCallsPaginated, run_getStore_bind, start_eq, foldl_pushCall]
  split
  · next hempty =>
    rw [show min (f.store.market.callCounter + 1 - max startId 1) (min limit maxCallPageSize) = 0
      by omega, hnone]
    rfl
  · next hsome =>
    split
    · next hpast =>
      rw [show min (f.store.market.callCounter + 1 - max startId 1)
        (min limit maxCallPageSize) = 0 by omega, hnone]
      rfl
    · next hwithin =>
      rw [show min (min (max startId 1 + (min limit maxCallPageSize - 1)) (2 ^ 64 - 1))
          f.store.market.callCounter + 1 - max startId 1 =
        min (f.store.market.callCounter + 1 - max startId 1) (min limit maxCallPageSize) by
          omega]
      simp [run_pure]

/-- A page of a creator's calls is the first of them from its position on, if the scan ends before
the last number. -/
theorem run_getCallsByCreatorPaginated (hfits : f.store.market.callCounter + 1 < 2 ^ 64)
    {startId : Nat} (hstart : startId < 2 ^ 64) (creator : Address) (limit : Nat) :
    run (getCallsByCreatorPaginated creator startId limit) env f =
      .ok (((f.store.allCalls.filter fun call => call.creator = creator).filter
        (startId ≤ ·.id)).take (min limit maxCallPageSize), f) := by
  rw [List.filter_comm, filter_allCalls]
  simp only [getCallsByCreatorPaginated, run_getStore_bind, start_eq]
  split
  · next hempty =>
    rw [hempty, List.take_zero]
    rfl
  · rw [run_scanByCreator creator (by omega)]
    rfl

/-- What a view answers, if it does not trap. -/
def answer (view : Registry T (List Call)) (env : Env) (f : Frame Storage T Event) :
    Option (List Call) :=
  (run view env f).toOption.map Prod.fst

/-- Asking for page after page of a view from id 1 on, each after the last id returned, ends with an
empty page and yields these calls. -/
def ReadsAs (view : Nat → Registry T (List Call)) (env : Env) (f : Frame Storage T Event)
    (calls : List Call) : Prop :=
  Enumerates Call.id (2 ^ 64) (fun start => answer (view start) env f) 1 calls

/-- The pages of both views put together are the listings, and every page can be had. -/
structure PagesSound (env : Env) (f : Frame Storage T Event) : Prop where
  by_creator : ∀ creator limit, 0 < limit → limit < 2 ^ 32 →
    ∃ calls, answer (getCallsByCreator creator) env f = some calls ∧ calls.Nodup ∧
      ReadsAs (getCallsByCreatorPaginated creator · limit) env f calls
  all : ∀ limit, 0 < limit → limit < 2 ^ 32 →
    ∃ calls, calls.Nodup ∧ (∀ call, call ∈ calls ↔ ∃ id, f.store.getCall id = some call) ∧
      ReadsAs (getCallsPaginated · limit) env f calls
  answered : ∀ creator start limit, start < 2 ^ 64 → limit < 2 ^ 32 →
    (answer (getCallsByCreatorPaginated creator start limit) env f).isSome = true ∧
      (answer (getCallsPaginated start limit) env f).isSome = true

theorem answer_of_run {view : Registry T (List Call)} {calls : List Call}
    (h : run view env f = .ok (calls, f)) : answer view env f = some calls := by
  rw [answer, h]
  rfl

theorem nodup_of_sorted {calls : List Call} (h : calls.Pairwise (Call.id · < Call.id ·)) :
    calls.Nodup :=
  h.imp fun hlt heq => by simp [heq] at hlt

/-- A view whose pages are the first calls of a sorted listing reads as that listing. -/
theorem reads_as_listing {view : Nat → Registry T (List Call)} {calls : List Call} {limit : Nat}
    (hfits : f.store.market.callCounter + 1 < 2 ^ 64) (hlimit : 0 < limit)
    (hcalls : List.Sublist calls f.store.allCalls)
    (hpage : ∀ start < 2 ^ 64, run (view start) env f =
      .ok ((calls.filter (start ≤ ·.id)).take (min limit maxCallPageSize), f)) :
    ReadsAs view env f calls := by
  have hid : ∀ call ∈ calls, 1 ≤ call.id ∧ call.id + 1 < 2 ^ 64 := by
    intro call hcall
    have hrange := List.mem_range'_1.mp (mem_callsAt (hcalls.subset hcall)).1
    omega
  have hsize : 0 < min limit maxCallPageSize := by
    unfold maxCallPageSize
    omega
  have hread : ReadsAs view env f (calls.filter (1 ≤ ·.id)) :=
    enumerates_sorted hsize ((allCalls_sorted f.store).sublist hcalls)
      (fun call hcall => (hid call hcall).2)
      (fun start hstart => answer_of_run (hpage start hstart)) (by decide)
  rwa [List.filter_eq_self.mpr fun call hcall => by simpa using (hid call hcall).1] at hread

theorem pages_sound (hnumbered : f.store.market.Numbered)
    (hfits : f.store.market.callCounter + 1 < 2 ^ 64) : PagesSound env f where
  by_creator creator limit hlimit _ := by
    refine ⟨_, answer_of_run (run_getCallsByCreator creator),
      (nodup_of_sorted (allCalls_sorted f.store)).filter _, ?_⟩
    exact reads_as_listing hfits hlimit List.filter_sublist fun start hstart =>
      run_getCallsByCreatorPaginated hfits hstart creator limit
  all limit hlimit _ := by
    refine ⟨_, nodup_of_sorted (allCalls_sorted f.store), fun _ => mem_allCalls hnumbered, ?_⟩
    exact reads_as_listing hfits hlimit (.refl _) fun start _ =>
      run_getCallsPaginated hnumbered (by omega) start limit
  answered creator start limit hstart _ := by
    rw [answer_of_run (run_getCallsByCreatorPaginated hfits hstart creator limit),
      answer_of_run (run_getCallsPaginated hnumbered (by omega) start limit)]
    exact ⟨rfl, rfl⟩

/-- With as many calls as there are numbers, the scan for a creator's calls from the last one
traps. -/
theorem last_page_traps (hfull : f.store.market.callCounter = 2 ^ 64 - 1) (creator : Address) :
    answer (getCallsByCreatorPaginated creator (2 ^ 64 - 1) 1) env f = none := by
  rw [answer, Option.map_eq_none_iff]
  cases hresult : run (getCallsByCreatorPaginated creator (2 ^ 64 - 1) 1) env f with
  | error e => rfl
  | ok result =>
    obtain ⟨calls, f'⟩ := result
    simp only [getCallsByCreatorPaginated, run_getStore_bind, hfull] at hresult
    simp [maxCallPageSize, scanByCreator] at hresult

end Pages

section Run

variable {T : Type} [Tokens T] [Crypto] {self : Address} {outside : T → T → Prop}
  {guard : System.Guard (World T) Label} {history : List Label} {w : World T}

/-- In every execution the pages are sound exactly when a number past the last call is left. -/
theorem pages_sound_iff (run : (registry self outside).RunWhere guard history w) (env : Env) :
    PagesSound env w.frame ↔ w.store.market.callCounter < 2 ^ 64 - 1 := by
  have hcounter := counter_fits run
  constructor
  · intro hsound
    refine lt_of_le_of_ne (by omega) fun hfull => ?_
    have hanswered := (hsound.answered self (2 ^ 64 - 1) 1 (by omega) (by omega)).1
    rw [last_page_traps hfull] at hanswered
    cases hanswered
  · exact fun hless => pages_sound (numbered_of_run run)
      (show w.store.market.callCounter + 1 < 2 ^ 64 by omega)

end Run

section Scenario

attribute [local instance] noCrypto

/-- Alice's call, and two calls of Bob. -/
def threeCallsScript : List (Env × Action) :=
  openingScript ++
    [at_ 4 [bob] (.market (.createCall bob sampleCall)),
      at_ 5 [bob] (.market (.createCall bob sampleCall))]

def threeCallsRun : Replayed (T := StandardLedger) home anything :=
  .of freshWorld fresh_world_empty threeCallsScript (by decide +kernel)

theorem pages_sound_of_three_calls : PagesSound ⟨home, 6, 6, []⟩ threeCallsRun.world.frame :=
  have run : (registry home fun _ _ => False).Run threeCallsRun.history threeCallsRun.world :=
    threeCallsRun.run anything_allowed
  (pages_sound_iff run ⟨home, 6, 6, []⟩).mpr (by decide +kernel)

end Scenario

end Backit.CallRegistry

/-!
## As many calls as there are numbers

Nothing stops calls from being created until the counter has reached the last number of 64 bits: an
execution in which every call has a creator of its own gets there.
-/

namespace Backit.CallRegistry

open Soroban Contract Lib

attribute [local instance] noCrypto

/-- The registry is initialised and accepts the stake token. -/
def deployedRun : Replayed (T := StandardLedger) home anything :=
  .of freshWorld fresh_world_empty
    [at_ 1 [adminAddress] (.desk (.initializeContract adminAddress managerAddress 0)),
      at_ 2 [adminAddress] (.desk (.whitelistToken usdc))] (by decide +kernel)

def deployedConfig : ContractConfig :=
  deployedRun.world.store.control.config.get (by decide +kernel)

/-- The store of a registry with `n` calls in which nobody from number `n` on has created one. -/
structure Storage.HasCreated (s : Storage) (n : Nat) : Prop where
  counter : s.market.callCounter = n
  counted : s.profiles.globalStats.totalCalls = n
  control : s.control = deployedRun.world.store.control
  others : ∀ k, n ≤ k → s.market.creatorStats ⟨k⟩ = ⟨0, 0, 0⟩

section Create

variable {T : Type} {env : Env} {f : Frame Storage T Event} {α β : Type} {n : Nat}

/-- A successful first part and a successful rest are a successful whole. -/
theorem succeeds_bind {x : Registry T α} {k : α → Registry T β} {a : α}
    {f₁ : Frame Storage T Event} {P : Frame Storage T Event → Prop}
    (hfirst : run x env f = .ok (a, f₁)) (hrest : ∃ b f', run (k a) env f₁ = .ok (b, f') ∧ P f') :
    ∃ b f', run (x >>= k) env f = .ok (b, f') ∧ P f' := by
  obtain ⟨b, f', hrest, hP⟩ := hrest
  exact ⟨b, f', run_bind.mpr ⟨a, f₁, hfirst, hrest⟩, hP⟩

theorem run_requireConfig_of {c : ContractConfig} (h : f.store.control.config = some c) :
    run requireConfig env f = .ok (c, f) := by
  rw [requireConfig, run_getStore_bind, run_unwrap]
  exact ⟨h, rfl⟩

theorem run_reentrancyGuard_of (h : f.store.control.locked = false) :
    run reentrancyGuard env f = .ok ((), { f with store := f.store.setLocked true }) := by
  rw [reentrancyGuard, run_getStore_bind, run_rejectIf_of (by rw [h]; decide), run_modifyStore]

theorem run_nextCallId_of (h : f.store.market.callCounter + 1 < 2 ^ 64) :
    run nextCallId env f = .ok (f.store.market.callCounter + 1, { f with
      store := f.store.onMarket (·.setCallCounter (f.store.market.callCounter + 1)) }) := by
  rw [nextCallId, run_getStore_bind, run_unsigned_bind]
  exact ⟨h, rfl⟩

theorem run_recordCallCreated_of (h : f.store.profiles.globalStats.totalCalls + 1 < 2 ^ 64) :
    run recordCallCreated env f = .ok ((), { f with store := { f.store with
      profiles := { f.store.profiles with globalStats := { f.store.profiles.globalStats with
        totalCalls := f.store.profiles.globalStats.totalCalls + 1 } } } }) := by
  rw [recordCallCreated, run_getStore_bind, run_unsigned_bind]
  exact ⟨h, rfl⟩

theorem run_trackFirstCreation_of (creator : Address) :
    ∃ f', run (trackFirstCreation creator) env f = .ok ((), f') ∧
      f'.store.market = f.store.market ∧ f'.store.control = f.store.control ∧
      f'.store.profiles.globalStats = f.store.profiles.globalStats := by
  rw [trackFirstCreation, run_env_bind, run_getStore_bind]
  split
  · exact ⟨_, rfl, rfl, rfl, rfl⟩
  · exact ⟨_, rfl, rfl, rfl, rfl⟩

theorem run_countCreated_of {creator : Address}
    (h : (f.store.market.creatorStats creator).totalCreated + 1 < 2 ^ 32) :
    run (countCreated creator) env f = .ok ((), { f with
      store := f.store.onMarket (·.setCreatorStats creator
        { f.store.market.creatorStats creator with
          totalCreated := (f.store.market.creatorStats creator).totalCreated + 1 }) }) := by
  rw [countCreated, run_getStore_bind, run_unsigned_bind]
  exact ⟨h, rfl⟩

theorem run_writeDataEntries_of {callId : Nat} (h : callId < 2 ^ 64) (args : CallInitArgs) :
    ∃ f', run (writeDataEntries callId args) env f = .ok ((), f') ∧
      f'.store.market = f.store.market ∧ f'.store.control = f.store.control ∧
      f'.store.profiles.globalStats = f.store.profiles.globalStats := by
  have hcid := (format_key_eq h (show cidSuffix.length ≤ 5 by decide)).1
  have hhash := (format_key_eq h (show hashSuffix.length ≤ 5 by decide)).1
  simp only [writeDataEntries, run_unwrap_bind, hcid, hhash]
  refine ⟨_, ⟨_, rfl, _, rfl, rfl⟩, rfl, rfl, rfl⟩

variable [Tokens T]

theorem create_call_again (h : f.store.HasCreated n) (hn : n + 1 < 2 ^ 64) :
    ∃ call f', run (createCall ⟨n⟩ sampleCall) ⟨home, 3, 3, [⟨n⟩]⟩ f = .ok (call, f') ∧
      f'.store.HasCreated (n + 1) := by
  have hunlocked : f.store.control.locked = false := by
    rw [h.control]
    decide +kernel
  have hconfig : f.store.control.config = some deployedConfig := by
    rw [h.control]
    exact (Option.some_get _).symm
  have hterms : deployedConfig.paused = false ∧ deployedConfig.minStake ≤ 300 ∧
      deployedConfig.whitelistedTokens.lookup usdc = some true ∧
      deployedConfig.shareWasmHash = none := by decide +kernel
  have hduration : f.store.control.maxDuration = none := by
    rw [h.control]
    decide +kernel
  rw [createCall, run_requireAuth_of (List.mem_singleton_self _)]
  refine succeeds_bind (run_reentrancyGuard_of hunlocked) ?_
  refine succeeds_bind (run_requireConfig_of hconfig) ?_
  have hend : ¬ sampleCall.endTs ≤ (⟨home, 3, 3, [⟨n⟩]⟩ : Env).timestamp :=
    show ¬ 1000 ≤ 3 by decide
  have hcounter : f.store.market.callCounter + 1 = n + 1 := by rw [h.counter]
  have hcounted : f.store.profiles.globalStats.totalCalls + 1 = n + 1 := by rw [h.counted]
  rw [run_rejectIf_of (by simp [hterms.1]), run_rejectIf_of (by simp [sampleCall, hterms.2.1]),
    run_rejectIf_of (by decide), run_rejectIf_of (by decide), run_env_bind,
    run_rejectIf_of hend, assertDurationWithinLimit, Contract.bind_assoc,
    run_env_bind, Contract.bind_assoc, run_rejectIf_of hend, Contract.bind_assoc, run_getStore_bind,
    run_rejectIf_of (by simp [getMaxDuration, Storage.setLocked, hduration]; decide)]
  refine succeeds_bind (run_requireConfig_of hconfig) ?_
  rw [run_rejectIf_of (by simp [sampleCall, hterms.2.2.1])]
  refine succeeds_bind (run_nextCallId_of (hcounter ▸ hn)) ?_
  rw [createShareTokens, hterms.2.2.2, run_pure_bind, run_modifyStore_bind]
  refine succeeds_bind (run_recordCallCreated_of (hcounted ▸ hn)) ?_
  obtain ⟨f₁, hfirst, hmarket₁, hcontrol₁, hglobal₁⟩ := run_trackFirstCreation_of (T := T) ⟨n⟩
  refine succeeds_bind hfirst ?_
  have hstats : f₁.store.market.creatorStats ⟨n⟩ = ⟨0, 0, 0⟩ := by
    rw [hmarket₁]
    exact h.others n le_rfl
  refine succeeds_bind (run_countCreated_of (by rw [hstats]; decide)) ?_
  rw [run_publish_bind]
  obtain ⟨f₂, hentries, hmarket₂, hcontrol₂, hglobal₂⟩ :=
    run_writeDataEntries_of (T := T) (hcounter ▸ hn) sampleCall
  refine succeeds_bind hentries ?_
  rw [run_releaseLock_bind]
  refine ⟨_, _, rfl, ?_⟩
  have hmarket : f₂.store.market = ((f.store.market.setCallCounter (n + 1)).setCall
      (newCall (n + 1) ⟨n⟩ sampleCall 3 ∅)).setCreatorStats ⟨n⟩ ⟨1, 0, 0⟩ := by
    rw [hmarket₂, ← hcounter]
    show f₁.store.market.setCreatorStats ⟨n⟩ { f₁.store.market.creatorStats ⟨n⟩ with
      totalCreated := (f₁.store.market.creatorStats ⟨n⟩).totalCreated + 1 } = _
    rw [hstats, hmarket₁]
    rfl
  refine ⟨?_, ?_, ?_, fun k hk => ?_⟩
  · show f₂.store.market.callCounter = n + 1
    rw [hmarket]
    rfl
  · show f₂.store.profiles.globalStats.totalCalls = n + 1
    rw [hglobal₂]
    show f₁.store.profiles.globalStats.totalCalls = n + 1
    rw [hglobal₁]
    exact hcounted
  · refine (release_lock_control hunlocked ?_).trans h.control
    rw [hcontrol₂]
    exact hcontrol₁
  · show f₂.store.market.creatorStats ⟨k⟩ = ⟨0, 0, 0⟩
    rw [hmarket]
    show Function.update f.store.market.creatorStats ⟨n⟩ _ ⟨k⟩ = _
    rw [Function.update_of_ne (by simp; omega)]
    exact h.others k (by omega)

end Create

/-- Executions create any number of calls below the last number and reach it. -/
theorem reaches_counter (n : Nat) (hn : n < 2 ^ 64) :
    ∃ (history : List Label) (w : World StandardLedger),
      (registry home fun _ _ => False).Run history w ∧ w.store.HasCreated n ∧
        w.timestamp ≤ 3 ∧ w.sequence ≤ 3 := by
  induction n with
  | zero =>
    refine ⟨_, _, deployedRun.run anything_allowed, ?_, by decide +kernel, by decide +kernel⟩
    have hmarket : deployedRun.world.store.market = Storage.empty.market := rfl
    refine ⟨?_, by decide +kernel, rfl, ?_⟩
    · rw [hmarket]
      rfl
    · rw [hmarket]
      exact fun _ _ => rfl
  | succ n ih =>
    obtain ⟨history, w, hpath, hcreated, htimestamp, hsequence⟩ := ih (by omega)
    obtain ⟨call, f', hcreate, hcreated'⟩ := create_call_again (f := w.frame) hcreated hn
    have hrun : run (Action.market (.createCall ⟨n⟩ sampleCall)).perform
        ⟨home, 3, 3, [⟨n⟩]⟩ w.frame = .ok ((), f') := run_ignore.mpr ⟨call, hcreate⟩
    exact ⟨_, _, hpath.tail (.invoked rfl htimestamp hsequence hrun) trivial, hcreated', le_rfl,
      le_rfl⟩

/-- An execution reaches a state in which a page of a creator's calls cannot be had. -/
theorem page_unanswered : ∃ (history : List Label) (w : World StandardLedger),
    (registry home fun _ _ => False).Run history w ∧
      w.store.market.callCounter = 2 ^ 64 - 1 ∧
      answer (getCallsByCreatorPaginated alice (2 ^ 64 - 1) 1) ⟨home, 4, 4, []⟩ w.frame = none ∧
      ¬ PagesSound ⟨home, 4, 4, []⟩ w.frame := by
  obtain ⟨history, w, hrun, hcreated, -⟩ := reaches_counter (2 ^ 64 - 1) (by decide)
  have htraps : answer (getCallsByCreatorPaginated alice (2 ^ 64 - 1) 1) ⟨home, 4, 4, []⟩
      w.frame = none := last_page_traps hcreated.counter alice
  refine ⟨history, w, hrun, hcreated.counter, htraps, fun hsound => ?_⟩
  have hanswered := (hsound.answered alice (2 ^ 64 - 1) 1 (by decide) (by decide)).1
  rw [htraps] at hanswered
  cases hanswered

end Backit.CallRegistry
