import Backit.Indexer.Ticks

/-!
# Every event exactly once

While every tick ends with the row of the log for the last ledger it has handled, the events that
have had an effect are those from the first start ledger up to the cursor.
-/

namespace Backit.Indexer

open Lib

/-- The name in the first topic, where that is a symbol. -/
def ChainEvent.name (e : ChainEvent) : Option String :=
  match e.event.topics with
  | .symbol name :: _ => some name
  | _ => none

def ChainEvent.isAdmin (e : ChainEvent) : Bool := e.name = some "AdminParamsChanged"

def ChainEvent.isPayout (e : ChainEvent) : Bool := e.name = some "PayoutClaimed"

/-- The events that the indexer is to handle. -/
def ChainEvent.relevant (e : ChainEvent) : Bool := e.isAdmin || e.isPayout

def Dispatched.recognised : Dispatched → Bool
  | .ignored => false
  | .adminParamsChanged _ => true
  | .payoutClaimed _ => true

def Dispatched.isAdmin : Dispatched → Bool
  | .adminParamsChanged _ => true
  | .payoutClaimed _ => false
  | .ignored => false

section Ticks

variable (chain : Chain) (x : Configuration)

/-- The events of the chain from a ledger on and below another. -/
def Chain.between (low high : Nat) : List ChainEvent := rowsBetween (·.ledger) low high chain.events

/-- A tick ends where parameters cannot be applied. -/
def goesOn (p : ChainEvent × Fate) : Bool := !((p.1.dispatched x).isAdmin && p.2 = .failsFirst)

/-- The events that a tick handles. -/
def Tick.handled (l : Tick) : List (ChainEvent × Fate) := (l.reached chain).takeWhile (goesOn x)

/-- The events that it has asked for and does not handle. -/
def Tick.left (l : Tick) : List ChainEvent := (l.asked chain).drop (l.handled chain x).length

/-- A tick that handles every event on the chain from its start ledger on. -/
def Tick.Complete (l : Tick) : Prop := (l.handled chain x).length = (l.asked chain).length

/-- The start ledger of the first tick. -/
def firstStart (history : List Tick) : Option Nat := history.getLast?.map (·.start)

/-- A tick that handles relevant events completely, up to and including the last ledger that it logs,
and that does not start above one that is still to be handled. -/
structure Settled (history : List Tick) (s : Tables) (l : Tick) : Prop where
  completes : ∀ p ∈ l.handled chain x, p.1.relevant = true →
    p.2 = .completes ∧ (p.1.dispatched x).recognised = true
  ends : ∀ p ∈ l.handled chain x, p.1.relevant = true →
    ∃ q ∈ l.handled chain x, q.1.isAdmin = true ∧ p.1.ledger ≤ q.1.ledger
  whole : ∀ e ∈ l.left chain x, e.relevant = true →
    ∀ q ∈ l.handled chain x, q.1.isAdmin = true → q.1.ledger < e.ledger
  early : s.cursor = none → ∀ first, firstStart history = some first →
    ∀ e ∈ chain.events, e.relevant = true → first ≤ e.ledger → l.start ≤ e.ledger

/-- From the first start ledger on and below some ledger, every claim has one treasury entry and every
change of the parameters has been applied once, in the order of the chain, and nothing else has. No
event that a complete tick has seen lies beyond. -/
def ExactlyOnce (history : List Tick) (s : Tables) : Prop :=
  ∀ first, firstStart history = some first → ∃ next,
    s.treasury.map (·.source) = (chain.between first next).filter (·.isPayout) ∧
    s.applied = (chain.between first next).filter (·.isAdmin) ∧
    ∀ l ∈ history, l.Complete chain x → ∀ e ∈ chain.events, e.relevant = true →
      first ≤ e.ledger → e.ledger ≤ l.tip → e.ledger < next

end Ticks

section Handling

variable {chain : Chain} {x : Configuration} {now : Nat} {s : Tables} {l : Tick}

theorem dispatched_admin {e : ChainEvent} {parsed : AdminParamsChangedEvent}
    (h : e.dispatched x = .adminParamsChanged parsed) :
    e.isAdmin = true ∧ e.isPayout = false := by
  unfold ChainEvent.dispatched dispatch at h
  unfold ChainEvent.isAdmin ChainEvent.isPayout ChainEvent.name
  split at h
  · next name _ htopics =>
    split at h
    · next hname => simp [htopics, hname]
    · split at h
      · split at h <;> cases h
      · cases h
  · cases h

theorem dispatched_payout {e : ChainEvent} {parsed : PayoutClaimedEvent}
    (h : e.dispatched x = .payoutClaimed parsed) :
    e.isAdmin = false ∧ e.isPayout = true := by
  unfold ChainEvent.dispatched dispatch at h
  unfold ChainEvent.isAdmin ChainEvent.isPayout ChainEvent.name
  split at h
  · next name _ htopics =>
    split at h
    · split at h <;> cases h
    · split at h
      · next hname => simp [htopics, hname]
      · cases h
  · cases h

/-- Events that are handled completely are recorded, applied and logged in their order. -/
theorem handleAll_completing {pairs : List (ChainEvent × Fate)}
    (hcompletes : ∀ p ∈ pairs.takeWhile (goesOn x), p.1.relevant = true →
      p.2 = .completes ∧ (p.1.dispatched x).recognised = true) :
    (Tables.handleAll x now pairs s).treasury.map (·.source) = s.treasury.map (·.source) ++
        ((pairs.takeWhile (goesOn x)).map (·.1)).filter (·.isPayout) ∧
      (Tables.handleAll x now pairs s).applied = s.applied ++
        ((pairs.takeWhile (goesOn x)).map (·.1)).filter (·.isAdmin) ∧
      (Tables.handleAll x now pairs s).log.map (·.ledger) = s.log.map (·.ledger) ++
        (((pairs.takeWhile (goesOn x)).map (·.1)).filter (·.isAdmin)).map (·.ledger) := by
  induction pairs generalizing s with
  | nil => simp [Tables.handleAll]
  | cons p pairs ih =>
    obtain ⟨e, fate⟩ := p
    cases hdispatched : e.dispatched x with
    | ignored =>
      have hgoes : goesOn x (e, fate) = true := by simp [goesOn, hdispatched, Dispatched.isAdmin]
      rw [List.takeWhile_cons_of_pos hgoes] at hcompletes ⊢
      have hother : e.relevant = false := by
        by_contra hrelevant
        have hrecognised := (hcompletes _ (.head _) (by simpa using hrelevant)).2
        simp [hdispatched, Dispatched.recognised] at hrecognised
      obtain ⟨hadmin, hpayout⟩ := Bool.or_eq_false_iff.mp hother
      have hrest := ih (s := s) fun p hp => hcompletes p (.tail _ hp)
      simpa [Tables.handleAll, Tables.handle, hdispatched, hadmin, hpayout] using hrest
    | adminParamsChanged parsed =>
      obtain ⟨hadmin, hpayout⟩ := dispatched_admin hdispatched
      by_cases hfails : fate = .failsFirst
      · subst hfails
        simp [Tables.handleAll, Tables.handle, hdispatched, goesOn, Dispatched.isAdmin]
      · have hgoes : goesOn x (e, fate) = true := by simp [goesOn, hfails]
        rw [List.takeWhile_cons_of_pos hgoes] at hcompletes ⊢
        obtain ⟨hfate, -⟩ := hcompletes _ (.head _) (by simp [ChainEvent.relevant, hadmin])
        obtain ⟨htreasury, happlied, hlog⟩ :=
          ih (s := (s.apply e parsed).logEvent e parsed) fun p hp => hcompletes p (.tail _ hp)
        simp only at hfate
        simp only [Tables.handleAll, Tables.handle, hdispatched, hfate]
        refine ⟨?_, ?_, ?_⟩
        · rw [htreasury]
          simp [Tables.logEvent, Tables.apply, hpayout]
        · rw [happlied]
          simp [Tables.logEvent, Tables.apply, hadmin]
        · rw [hlog]
          simp [Tables.logEvent, Tables.apply, hadmin]
    | payoutClaimed parsed =>
      obtain ⟨hadmin, hpayout⟩ := dispatched_payout hdispatched
      have hgoes : goesOn x (e, fate) = true := by simp [goesOn, hdispatched, Dispatched.isAdmin]
      rw [List.takeWhile_cons_of_pos hgoes] at hcompletes ⊢
      obtain ⟨hfate, -⟩ := hcompletes _ (.head _) (by simp [ChainEvent.relevant, hpayout])
      obtain ⟨htreasury, happlied, hlog⟩ :=
        ih (s := (s.mark now e parsed).recordFee x now e parsed)
          fun p hp => hcompletes p (.tail _ hp)
      simp only at hfate
      simp only [Tables.handleAll, Tables.handle, hdispatched, hfate]
      refine ⟨?_, ?_, ?_⟩
      · rw [htreasury]
        simp [Tables.recordFee, Tables.mark, hpayout]
      · rw [happlied]
        simp [Tables.recordFee, Tables.mark, hadmin]
      · rw [hlog]
        simp [Tables.recordFee, Tables.mark, hadmin]

/-- The handled events are the first ones of those asked for. -/
theorem asked_eq : (l.handled chain x).map (·.1) ++ l.left chain x = l.asked chain := by
  have hzip : ∀ (events : List ChainEvent) (fates : List Fate),
      (events.zip fates).map (·.1) <+: events := by
    intro events
    induction events with
    | nil => intro fates; simp
    | cons e events ih =>
      intro fates
      cases fates with
      | nil => simp
      | cons fate fates => simpa using ih fates
  have hprefix : (l.handled chain x).map (·.1) <+: l.asked chain :=
    ((List.takeWhile_prefix _).map _).trans ((hzip _ _).trans (List.take_prefix _ _))
  have happend := List.prefix_iff_eq_append.mp hprefix
  rwa [List.length_map] at happend

end Handling

/-- What has had an effect when the first start ledger is `first`: the events below the cursor. -/
structure Progress (chain : Chain) (x : Configuration) (first : Nat) (history : List Tick)
    (s : Tables) : Prop where
  treasury : s.treasury.map (·.source) =
    (chain.between first (s.cursor.getD first)).filter (·.isPayout)
  applied : s.applied = (chain.between first (s.cursor.getD first)).filter (·.isAdmin)
  done : ∀ l ∈ history, l.Complete chain x → ∀ e ∈ chain.events, e.relevant = true →
    first ≤ e.ledger → e.ledger ≤ l.tip → e.ledger < s.cursor.getD first
  low : first ≤ s.cursor.getD first

section Settling

variable {chain : Chain} {x : Configuration} {now first : Nat} {history : List Tick} {s s' : Tables}
  {l : Tick} {e : ChainEvent} {kind : ChainEvent → Bool}

theorem mem_between {low high : Nat} :
    e ∈ chain.between low high ↔ e ∈ chain.events ∧ low ≤ e.ledger ∧ e.ledger < high := by
  simp [Chain.between, rowsBetween]

/-- The start ledger is the cursor, where there is one. -/
theorem start_cursor {cursor tip : Nat} (hcursor : s.cursor = some cursor) :
    s.resolveStartLedger tip = cursor := by
  simp [Tables.resolveStartLedger, hcursor]

/-- No row of the log is at the start ledger or beyond. -/
theorem log_lt_start {row : EventLog} (hrow : row ∈ s.log) (tip : Nat) :
    row.ledger < s.resolveStartLedger tip := by
  have hledger : row.ledger ∈ s.log.map (·.ledger) := List.mem_map_of_mem hrow
  cases hlatest : s.latestLedger with
  | none =>
    have hnil := List.max?_eq_none_iff.mp hlatest
    rw [hnil] at hledger
    cases hledger
  | some latest =>
    have hle := (List.max?_eq_some_iff.mp hlatest).2 _ hledger
    by_cases hzero : latest = 0
    · simp only [Tables.resolveStartLedger, Tables.cursor, hlatest, Option.bind_some, hzero]
      simp
      omega
    · simp only [Tables.resolveStartLedger, Tables.cursor, hlatest, Option.bind_some]
      simp [hzero]
      omega

/-- The cursor after rows have been logged, the last of them at `ledger`. -/
theorem cursor_logged {ledgers : List Nat} {last : Nat} (hpositive : 0 < last)
    (hlog : s'.log.map (·.ledger) = s.log.map (·.ledger) ++ ledgers) (hlast : last ∈ ledgers)
    (hledgers : ∀ ledger ∈ ledgers, ledger ≤ last) (hold : ∀ row ∈ s.log, row.ledger ≤ last) :
    s'.cursor = some (last + 1) := by
  have hlatest : s'.latestLedger = some last := by
    unfold Tables.latestLedger
    rw [hlog]
    refine List.max?_eq_some_iff.mpr ⟨List.mem_append_right _ hlast, fun ledger hledger => ?_⟩
    rcases List.mem_append.mp hledger with hledger | hledger
    · obtain ⟨row, hrow, rfl⟩ := List.mem_map.mp hledger
      exact hold row hrow
    · exact hledgers ledger hledger
  simp [Tables.cursor, hlatest, Nat.pos_iff_ne_zero.mp hpositive]

theorem cursor_unlogged (hlog : s'.log.map (·.ledger) = s.log.map (·.ledger)) :
    s'.cursor = s.cursor := by
  simp [Tables.cursor, Tables.latestLedger, hlog]

/-- There was no cursor before if there is none after more rows have been logged. -/
theorem no_cursor_before {ledgers : List Nat}
    (hlog : s'.log.map (·.ledger) = s.log.map (·.ledger) ++ ledgers) (hnone : s'.cursor = none) :
    s.cursor = none := by
  cases hlatest : s.latestLedger with
  | none => simp [Tables.cursor, hlatest]
  | some latest =>
    have hmem : latest ∈ s'.log.map (·.ledger) := by
      rw [hlog]
      exact List.mem_append_left _ (List.max?_eq_some_iff.mp hlatest).1
    cases hafter : s'.latestLedger with
    | none =>
      rw [List.max?_eq_none_iff.mp hafter] at hmem
      cases hmem
    | some after =>
      have hle := (List.max?_eq_some_iff.mp hafter).2 _ hmem
      have hzero : after = 0 := by simpa [Tables.cursor, hafter] using hnone
      have hbefore : latest = 0 := by omega
      simp [Tables.cursor, hlatest, hbefore]

/-- The events of a kind that a settled tick handles are those up to its last logged ledger. -/
theorem Settled.handled_eq (h : Settled chain x history s l) {last : Nat}
    (hlast : ∃ q ∈ l.handled chain x, q.1.isAdmin = true ∧ q.1.ledger = last)
    (hbound : ∀ q ∈ l.handled chain x, q.1.isAdmin = true → q.1.ledger ≤ last)
    (hkind : ∀ e, kind e = true → e.relevant = true) :
    ((l.handled chain x).map (·.1)).filter kind = (chain.between l.start (last + 1)).filter kind := by
  have hasked := @asked_eq chain x l
  obtain ⟨q, hq, hadmin, hledger⟩ := hlast
  have htip : last ≤ l.tip := by
    have hmem : q.1 ∈ l.asked chain := by
      rw [← hasked]
      exact List.mem_append_left _ (List.mem_map_of_mem hq)
    have := (mem_between.mp hmem).2.2
    omega
  have hpart : chain.between l.start (last + 1) =
      (l.asked chain).filter fun e => decide (e.ledger ≤ last) := by
    unfold Chain.between Tick.asked rowsBetween
    rw [List.filter_filter]
    refine List.filter_congr fun e _ => ?_
    rw [← Bool.decide_and]
    exact decide_eq_decide.mpr (by dsimp only; omega)
  have hhandled : ∀ e ∈ (l.handled chain x).map (·.1), kind e = true → e.ledger ≤ last := by
    intro e he hkinded
    obtain ⟨p, hp, rfl⟩ := List.mem_map.mp he
    obtain ⟨a, ha, hadmin', hle⟩ := h.ends p hp (hkind _ hkinded)
    exact hle.trans (hbound a ha hadmin')
  have hleft : ∀ e ∈ l.left chain x, kind e = true → last < e.ledger := by
    intro e he hkinded
    have := h.whole e he (hkind e hkinded) q hq hadmin
    omega
  rw [hpart, ← hasked, List.filter_append, List.filter_append, List.filter_filter,
    List.filter_filter]
  have hnone : (l.left chain x).filter (fun e => kind e && decide (e.ledger ≤ last)) = [] := by
    rw [List.filter_eq_nil_iff]
    intro e he hboth
    simp only [Bool.and_eq_true, decide_eq_true_eq] at hboth
    have := hleft e he hboth.1
    omega
  rw [hnone, List.append_nil]
  refine List.filter_congr fun e he => ?_
  cases hkinded : kind e with
  | false => rfl
  | true => simp [hhandled e he hkinded]

/-- Below the start ledger nothing is left to be handled. -/
theorem between_start (hlow : s.cursor = none → first ≤ l.start)
    (hstart : l.start = s.resolveStartLedger l.tip)
    (hearly : s.cursor = none → ∀ e ∈ chain.events, e.relevant = true → first ≤ e.ledger →
      l.start ≤ e.ledger) (hkind : ∀ e, kind e = true → e.relevant = true) :
    s.cursor.getD first ≤ l.start ∧
      (chain.between (s.cursor.getD first) l.start).filter kind = [] := by
  cases hcursor : s.cursor with
  | some cursor =>
    rw [start_cursor hcursor] at hstart
    refine ⟨hstart.ge, ?_⟩
    rw [List.filter_eq_nil_iff]
    intro e he
    have := (mem_between.mp he).2
    simp only [Option.getD_some] at this
    omega
  | none =>
    refine ⟨hlow hcursor, ?_⟩
    rw [List.filter_eq_nil_iff]
    intro e he hkinded
    obtain ⟨hmem, hfirst, hbelow⟩ := mem_between.mp he
    have := hearly hcursor e hmem (hkind e hkinded) hfirst
    omega

theorem between_join {high : Nat} (hlow : first ≤ s.cursor.getD first) (hhigh : l.start ≤ high)
    (hstart : s.cursor.getD first ≤ l.start ∧
      (chain.between (s.cursor.getD first) l.start).filter kind = []) :
    (chain.between first (s.cursor.getD first)).filter kind ++
        (chain.between l.start high).filter kind = (chain.between first high).filter kind := by
  obtain ⟨hle, hnone⟩ := hstart
  have hwhole : chain.between first (s.cursor.getD first) ++
      (chain.between (s.cursor.getD first) l.start ++ chain.between l.start high) =
        chain.between first high := by
    unfold Chain.between
    rw [rowsBetween_append chain.ordered hle hhigh,
      rowsBetween_append chain.ordered hlow (hle.trans hhigh)]
  rw [← hwhole, List.filter_append, List.filter_append, hnone, List.nil_append]

/-- What is left below the tip of a complete tick lies below its start ledger. -/
theorem Settled.complete (h : Settled chain x history s l) (hcomplete : l.Complete chain x)
    (he : e ∈ chain.events) (hrelevant : e.relevant = true) (htip : e.ledger ≤ l.tip) :
    e.ledger < l.start ∨
      ∃ q ∈ l.handled chain x, q.1.isAdmin = true ∧ e.ledger ≤ q.1.ledger := by
  by_cases hbelow : e.ledger < l.start
  · exact .inl hbelow
  · have hmem : e ∈ l.asked chain := mem_between.mpr ⟨he, by omega, by omega⟩
    have hleft : l.left chain x = [] := by
      unfold Tick.left
      rw [hcomplete, List.drop_length]
    rw [← asked_eq (x := x), hleft, List.append_nil] at hmem
    obtain ⟨p, hp, rfl⟩ := List.mem_map.mp hmem
    exact .inr (h.ends p hp hrelevant)

/-- What a settled tick handles is on the chain, from its start ledger on. -/
theorem handled_mem {p : ChainEvent × Fate} (hp : p ∈ l.handled chain x) :
    l.start ≤ p.1.ledger ∧ p.1 ∈ chain.events := by
  have hmem : p.1 ∈ l.asked chain := by
    rw [← asked_eq (x := x)]
    exact List.mem_append_left _ (List.mem_map_of_mem hp)
  exact ⟨(mem_between.mp hmem).2.1, (mem_between.mp hmem).1⟩

theorem relevant_of_payout (h : e.isPayout = true) : e.relevant = true := by
  simp [ChainEvent.relevant, h]

theorem relevant_of_admin (h : e.isAdmin = true) : e.relevant = true := by
  simp [ChainEvent.relevant, h]

theorem Settled.effects (h : Settled chain x history s l)
    (hs' : s' = { Tables.handleAll x l.now (l.reached chain) s with tip := l.tip }) :
    s'.treasury.map (·.source) = s.treasury.map (·.source) ++
        ((l.handled chain x).map (·.1)).filter (·.isPayout) ∧
      s'.applied = s.applied ++ ((l.handled chain x).map (·.1)).filter (·.isAdmin) ∧
      s'.log.map (·.ledger) = s.log.map (·.ledger) ++
        (((l.handled chain x).map (·.1)).filter (·.isAdmin)).map (·.ledger) := by
  rw [hs']
  exact handleAll_completing h.completes

/-- A settled tick that logs nothing has handled nothing relevant. -/
theorem Progress.idle (h : Progress chain x first history s)
    (hstart : l.start = s.resolveStartLedger l.tip) (hsettled : Settled chain x history s l)
    (hearly : s.cursor = none → ∀ e ∈ chain.events, e.relevant = true → first ≤ e.ledger →
      l.start ≤ e.ledger)
    (hs' : s' = { Tables.handleAll x l.now (l.reached chain) s with tip := l.tip })
    (hnone : ∀ q ∈ l.handled chain x, ¬ q.1.isAdmin = true) :
    Progress chain x first (l :: history) s' := by
  obtain ⟨htreasury, happlied, hlog⟩ := hsettled.effects hs'
  have hidle : ∀ kind : ChainEvent → Bool, (∀ e, kind e = true → e.relevant = true) →
      ((l.handled chain x).map (·.1)).filter kind = [] := by
    intro kind hkind
    rw [List.filter_eq_nil_iff]
    intro e he hkinded
    obtain ⟨p, hp, rfl⟩ := List.mem_map.mp he
    obtain ⟨q, hq, hadmin, -⟩ := hsettled.ends p hp (hkind _ hkinded)
    exact hnone q hq hadmin
  rw [hidle _ fun _ => relevant_of_payout, List.append_nil] at htreasury
  rw [hidle _ fun _ => relevant_of_admin, List.append_nil] at happlied
  rw [hidle _ fun _ => relevant_of_admin, List.map_nil, List.append_nil] at hlog
  have hcursor : s'.cursor = s.cursor := cursor_unlogged hlog
  refine ⟨?_, ?_, fun other hother hcomplete e he hrelevant hfirst htip => ?_, ?_⟩
  · rw [hcursor, htreasury, h.treasury]
  · rw [hcursor, happlied, h.applied]
  · rw [hcursor]
    rcases List.mem_cons.mp hother with rfl | hother
    · obtain hbelow | ⟨q, hq, hadmin, -⟩ := hsettled.complete hcomplete he hrelevant htip
      · cases hcur : s.cursor with
        | some cursor =>
          rw [hstart, start_cursor hcur] at hbelow
          exact hbelow
        | none =>
          have := hearly hcur e he hrelevant hfirst
          omega
      · exact absurd hadmin (hnone q hq)
    · exact h.done other hother hcomplete e he hrelevant hfirst htip
  · rw [hcursor]
    exact h.low

/-- A settled tick that logs an event moves the cursor past it. -/
theorem Progress.logged (h : Progress chain x first history s)
    (hstart : l.start = s.resolveStartLedger l.tip) (hlow : s.cursor = none → first ≤ l.start)
    (hsettled : Settled chain x history s l)
    (hearly : s.cursor = none → ∀ e ∈ chain.events, e.relevant = true → first ≤ e.ledger →
      l.start ≤ e.ledger)
    (hs' : s' = { Tables.handleAll x l.now (l.reached chain) s with tip := l.tip }) {last : Nat}
    (hlast : ∃ q ∈ l.handled chain x, q.1.isAdmin = true ∧ q.1.ledger = last)
    (hbound : ∀ q ∈ l.handled chain x, q.1.isAdmin = true → q.1.ledger ≤ last) :
    Progress chain x first (l :: history) s' := by
  obtain ⟨htreasury, happlied, hlog⟩ := hsettled.effects hs'
  have hledgers : ∀ ledger ∈ (((l.handled chain x).map (·.1)).filter (·.isAdmin)).map (·.ledger),
      ledger ≤ last := by
    intro ledger hledger
    obtain ⟨e, he, rfl⟩ := List.mem_map.mp hledger
    obtain ⟨hmem, hadmin⟩ := List.mem_filter.mp he
    obtain ⟨q, hq, rfl⟩ := List.mem_map.mp hmem
    exact hbound q hq hadmin
  obtain ⟨q, hq, hadmin, rfl⟩ := hlast
  obtain ⟨hfrom, hchain⟩ := handled_mem hq
  have hlogged : q.1.ledger ∈
      (((l.handled chain x).map (·.1)).filter (·.isAdmin)).map (·.ledger) :=
    List.mem_map_of_mem (List.mem_filter.mpr ⟨List.mem_map_of_mem hq, hadmin⟩)
  have hcursor : s'.cursor = some (q.1.ledger + 1) := by
    refine cursor_logged (chain.positive _ hchain) hlog hlogged hledgers fun row hrow => ?_
    have := log_lt_start hrow l.tip
    omega
  have hbelow := (between_start hlow hstart hearly fun _ => relevant_of_admin).1
  have hjoin : ∀ kind : ChainEvent → Bool, (∀ e, kind e = true → e.relevant = true) →
      (chain.between first (s.cursor.getD first)).filter kind ++
        ((l.handled chain x).map (·.1)).filter kind =
          (chain.between first (q.1.ledger + 1)).filter kind := by
    intro kind hkind
    rw [hsettled.handled_eq ⟨q, hq, hadmin, rfl⟩ hbound hkind]
    exact between_join h.low (by omega) (between_start hlow hstart hearly hkind)
  refine ⟨?_, ?_, fun other hother hcomplete e he hrelevant hfirst htip => ?_, ?_⟩
  · rw [hcursor, Option.getD_some, htreasury, h.treasury]
    exact hjoin _ fun _ => relevant_of_payout
  · rw [hcursor, Option.getD_some, happlied, h.applied]
    exact hjoin _ fun _ => relevant_of_admin
  · rw [hcursor, Option.getD_some]
    rcases List.mem_cons.mp hother with rfl | hother
    · obtain hbefore | ⟨a, ha, hadmin', hle⟩ := hsettled.complete hcomplete he hrelevant htip
      · omega
      · have := hbound a ha hadmin'
        omega
    · have := h.done other hother hcomplete e he hrelevant hfirst htip
      omega
  · rw [hcursor, Option.getD_some]
    have := h.low
    omega

theorem Progress.tick (h : Progress chain x first history s)
    (hstart : l.start = s.resolveStartLedger l.tip) (hlow : s.cursor = none → first ≤ l.start)
    (hsettled : Settled chain x history s l)
    (hearly : s.cursor = none → ∀ e ∈ chain.events, e.relevant = true → first ≤ e.ledger →
      l.start ≤ e.ledger)
    (hs' : s' = { Tables.handleAll x l.now (l.reached chain) s with tip := l.tip }) :
    Progress chain x first (l :: history) s' := by
  let admins := (l.handled chain x).filter (·.1.isAdmin)
  have hadmins : ∀ q, q ∈ admins ↔ q ∈ l.handled chain x ∧ q.1.isAdmin = true := fun q =>
    List.mem_filter
  cases hlatest : (admins.map (·.1.ledger)).max? with
  | none =>
    have hnone : admins = [] := by simpa using hlatest
    refine h.idle hstart hsettled hearly hs' fun q hq hadmin => ?_
    have hmem := (hadmins q).mpr ⟨hq, hadmin⟩
    rw [hnone] at hmem
    cases hmem
  | some last =>
    obtain ⟨hmem, hbound⟩ := List.max?_eq_some_iff.mp hlatest
    obtain ⟨q, hq, hledger⟩ := List.mem_map.mp hmem
    obtain ⟨hhandled, hadmin⟩ := (hadmins q).mp hq
    exact h.logged hstart hlow hsettled hearly hs' ⟨q, hhandled, hadmin, hledger⟩
      fun q hq hadmin => hbound _ (List.mem_map_of_mem ((hadmins q).mpr ⟨hq, hadmin⟩))

end Settling

section Run

variable {chain : Chain} {x : Configuration} {history : List Tick} {s : Tables}

theorem firstStart_cons (l : Tick) (history : List Tick) :
    firstStart (l :: history) = some ((firstStart history).getD l.start) := by
  cases history with
  | nil => rfl
  | cons other earlier => simp [firstStart, List.getLast?_cons]

theorem progress_of_run (run : (indexing chain x).RunWhere (Settled chain x) history s) :
    (history = [] → s.applied = [] ∧ s.treasury = []) ∧
      ∀ first, firstStart history = some first → Progress chain x first history s ∧
        (s.cursor = none → first ≤ max (s.tip - 5) 1) := by
  refine run.invariant (I := fun history s => (history = [] → s.applied = [] ∧ s.treasury = []) ∧
    ∀ first, firstStart history = some first → Progress chain x first history s ∧
      (s.cursor = none → first ≤ max (s.tip - 5) 1)) ?_ ?_
  · rintro s hinitial
    exact ⟨fun _ => hinitial, fun first hfirst => by cases hfirst⟩
  · rintro history s l s' - ⟨hempty, hprogress⟩ ⟨input, hnext⟩ hsettled
    refine ⟨by simp, fun first hfirst => ?_⟩
    unfold Tables.next at hnext
    split at hnext
    · next htip =>
      obtain ⟨hl, hs'⟩ := Prod.mk.inj (Option.some.inj hnext)
      have hstart : l.start = s.resolveStartLedger l.tip := by rw [← hl]
      have htip' : s.tip ≤ l.tip := by
        rw [← hl]
        exact htip
      have heffect : s' = { Tables.handleAll x l.now (l.reached chain) s with tip := l.tip } := by
        rw [← hs', ← hl]
      rw [firstStart_cons] at hfirst
      have hbefore : Progress chain x first history s ∧ (s.cursor = none → first ≤ l.start) ∧
          (s.cursor = none → ∀ e ∈ chain.events, e.relevant = true → first ≤ e.ledger →
            l.start ≤ e.ledger) := by
        cases hold : firstStart history with
        | some old =>
          rw [hold] at hfirst
          obtain rfl : old = first := by simpa using hfirst
          obtain ⟨hp, hearly⟩ := hprogress old hold
          refine ⟨hp, fun hcursor => ?_, fun hcursor => hsettled.early hcursor old hold⟩
          have := hearly hcursor
          simp only [Tables.resolveStartLedger, hcursor, Option.getD_none] at hstart
          omega
        | none =>
          rw [hold] at hfirst
          obtain rfl : l.start = first := by simpa using hfirst
          have hnil : history = [] := by
            cases history with
            | nil => rfl
            | cons other earlier => simp [firstStart_cons] at hold
          subst hnil
          obtain ⟨happlied, htreasury⟩ := hempty rfl
          have hcursor : s.cursor.getD l.start = l.start := by
            cases hcur : s.cursor with
            | none => rfl
            | some cursor => rw [Option.getD_some, hstart, start_cursor hcur]
          have hnothing : chain.between l.start l.start = [] := by
            unfold Chain.between rowsBetween
            rw [List.filter_eq_nil_iff]
            intro e _
            simp only [decide_eq_true_eq]
            omega
          exact ⟨⟨by rw [hcursor, hnothing, htreasury]; rfl,
            by rw [hcursor, hnothing, happlied]; rfl, by simp, hcursor.ge⟩,
            fun _ => le_rfl, fun _ e _ _ hle => hle⟩
      obtain ⟨hp, hlow, hearly⟩ := hbefore
      refine ⟨hp.tick hstart hlow hsettled hearly heffect, fun hcursor => ?_⟩
      obtain ⟨-, -, hlog⟩ := handleAll_completing (s := s) hsettled.completes
      have hbefore : s.cursor = none := no_cursor_before (by rw [heffect]; exact hlog) hcursor
      have hfirst := hlow hbefore
      rw [heffect]
      simpa only [Tables.resolveStartLedger, hbefore, Option.getD_none, hstart] using hfirst
    · cases hnext

/-- Settled ticks process every event exactly once. -/
theorem exactly_once_of_run (run : (indexing chain x).RunWhere (Settled chain x) history s) :
    ExactlyOnce chain x history s := by
  intro first hfirst
  have h := ((progress_of_run run).2 first hfirst).1
  exact ⟨_, h.treasury, h.applied, h.done⟩

end Run

/-- Every fee is the whole amount. -/
def plainConfiguration : Configuration where
  conversions := plainConversions
  percentFee amount _ := amount
  tokenAddress := "USDC"

def claimEvent (ledger : Nat) : ChainEvent :=
  ⟨ledger, "tx1", ⟨[.symbol "PayoutClaimed", .string "7", .string "GBOB", .u64 1400], .void⟩⟩

def feeEvent (ledger : Nat) : ChainEvent :=
  ⟨ledger, "tx2", ⟨[.symbol "AdminParamsChanged", .symbol "fee_percent"],
    .map [(.symbol "fee_percent", .i128 150)]⟩⟩

/-- A claim, and a change of the fee in the next ledger. -/
def settledChain : Chain where
  events := [claimEvent 100, feeEvent 101]
  ordered := by simp [Sequenced, claimEvent, feeEvent]
  positive := by simp [claimEvent, feeEvent]

/-- A claim. -/
def claimChain : Chain where
  events := [claimEvent 100]
  ordered := by simp [Sequenced]
  positive := by simp [claimEvent]

/-- An indexer that has logged nothing. -/
def freshTables : Tables := ⟨0, [], ⟨none, none, none, none, none⟩, [], fun _ => none, []⟩

/-- One tick handles both events. -/
theorem settled_tick_exactly_once : ∃ history s,
    ExactlyOnce settledChain plainConfiguration history s ∧
      s.treasury.length = 1 ∧ s.applied.length = 1 ∧ s.log.length = 1 := by
  let input : Tick := ⟨0, 101, 10, [.completes, .completes], 5000⟩
  let l : Tick := { input with start := 96 }
  have hsettled : Settled settledChain plainConfiguration [] freshTables l := by
    refine ⟨by decide +kernel, by decide +kernel, by decide +kernel, fun _ first hfirst => ?_⟩
    cases hfirst
  have hrun : (indexing settledChain plainConfiguration).RunWhere
      (Settled settledChain plainConfiguration) [] freshTables := .start ⟨rfl, rfl⟩
  have hone := hrun.tail ⟨input, rfl⟩ hsettled
  exact ⟨_, _, exactly_once_of_run hone, rfl, rfl, rfl⟩

/-- Two ticks with the one claim on the chain. -/
def repeatedRun : System.Replayed (indexing claimChain plainConfiguration)
    (Tables.next claimChain plainConfiguration) System.anything :=
  .of freshTables ⟨rfl, rfl⟩
    [⟨0, 100, 10, [.completes], 5000⟩, ⟨0, 100, 10, [.completes], 5005⟩] (by decide +kernel)

/-- Each of them records the claim. -/
theorem claim_recorded_twice : ¬ ∀ chain history s,
    (indexing chain plainConfiguration).Run history s →
      ExactlyOnce chain plainConfiguration history s := by
  intro hall
  have hrun := repeatedRun.run (fun s input l s' h => ⟨input, h⟩) System.anything_allowed
  have hfirst : firstStart repeatedRun.history = some 95 := by decide +kernel
  have htwo : repeatedRun.state.treasury.length = 2 := by decide +kernel
  obtain ⟨next, htreasury, -, -⟩ := hall claimChain _ _ hrun 95 hfirst
  have hlength := congrArg List.length htreasury
  have hone : ((claimChain.between 95 next).filter (·.isPayout)).length ≤ 1 :=
    (List.length_filter_le _ _).trans (List.length_filter_le _ _)
  rw [List.length_map] at hlength
  omega

end Backit.Indexer
