import Backit.Lib.Transition

/-!
# Platform settings

The settings are one row with a cached copy. An update starts from the cached copy, or from the row
if there is none, saves the changed copy as the whole row, and deletes the cached one; a reader that
finds no cached copy stores the row that it has read. The operations proceed step by step in any
order, and each can fail at any point.
-/

namespace Backit.Config

open Lib

/-- The settings. Amounts with decimals are in units of the last place of their column. -/
structure PlatformSettings where
  feePercent : Int
  contractId : Option String
  oracleContractId : Option String
  minStake : Int
  maxDuration : Int
  supportedTokens : List String
  contractAddresses : List (String × String)
  lastUpdatedByTxHash : Option String
  lastUpdatedAtLedger : Option Nat
  deriving DecidableEq

structure AdminParamsChangedEvent where
  feePercent : Option Int
  contractId : Option String
  oracleContractId : Option String
  txHash : String
  ledger : Nat
  deriving DecidableEq

structure UpdateConfigDto where
  feePercent : Option Int
  minStake : Option Int
  maxDuration : Option Int
  supportedTokens : Option (List String)
  contractAddresses : Option (List (String × String))
  deriving DecidableEq

inductive Update where
  | applyAdminParamsChanged (event : AdminParamsChangedEvent)
  | updateOffChainSettings (dto : UpdateConfigDto)
  deriving DecidableEq

/-- What an update makes of the settings: only what it has is set. -/
def Update.apply (settings : PlatformSettings) : Update → PlatformSettings
  | .applyAdminParamsChanged event =>
    { settings with
      feePercent := event.feePercent.getD settings.feePercent
      contractId := event.contractId.or settings.contractId
      oracleContractId := event.oracleContractId.or settings.oracleContractId
      lastUpdatedByTxHash := some event.txHash
      lastUpdatedAtLedger := some event.ledger }
  | .updateOffChainSettings dto =>
    { settings with
      feePercent := dto.feePercent.getD settings.feePercent
      minStake := dto.minStake.getD settings.minStake
      maxDuration := dto.maxDuration.getD settings.maxDuration
      supportedTokens := dto.supportedTokens.getD settings.supportedTokens
      contractAddresses := dto.contractAddresses.getD settings.contractAddresses }

/-- The ledger of an update that is an event. -/
def Update.ledger : Update → Option Nat
  | .applyAdminParamsChanged event => some event.ledger
  | .updateOffChainSettings _ => none

/-- How far an operation has come: it has found nothing in the cache, has read the row, has the
settings that it changes, or has saved them. The purpose of a reader is none. -/
inductive Phase where
  | missed (purpose : Option Update)
  | loaded (purpose : Option Update) (settings : PlatformSettings)
  | holding (update : Update) (settings : PlatformSettings)
  | saved
  deriving DecidableEq

structure Store where
  row : PlatformSettings
  cache : Option PlatformSettings
  ops : Nat → Option Phase

/-- The steps of the operations. The cached copy can expire. -/
inductive Action where
  | call (id : Nat) (purpose : Option Update)
  | find (id : Nat)
  | fill (id : Nat)
  | save (id : Nat)
  | clear (id : Nat)
  | fail (id : Nat)
  | expire

/-- What a step did. -/
inductive Event where
  | quiet
  | filled (settings : PlatformSettings)
  | saved (update : Update) (settings : PlatformSettings)
  | failed (id : Nat)
  deriving DecidableEq

namespace Store

def setOp (s : Store) (id : Nat) (phase : Option Phase) : Store :=
  { s with ops := Function.update s.ops id phase }

/-- What comes after `getSettings`: a reader is done. -/
def obtained (purpose : Option Update) (settings : PlatformSettings) : Option Phase :=
  purpose.map (.holding · settings)

def next (s : Store) : Action → Option (Event × Store)
  | .call id purpose =>
    match s.ops id, s.cache with
    | some _, _ => none
    | none, some settings => some (.quiet, s.setOp id (obtained purpose settings))
    | none, none => some (.quiet, s.setOp id (some (.missed purpose)))
  | .find id =>
    match s.ops id with
    | some (.missed purpose) => some (.quiet, s.setOp id (some (.loaded purpose s.row)))
    | _ => none
  | .fill id =>
    match s.ops id with
    | some (.loaded purpose settings) =>
      some (.filled settings,
        { s with cache := some settings }.setOp id (obtained purpose settings))
    | _ => none
  | .save id =>
    match s.ops id with
    | some (.holding update settings) =>
      some (.saved update settings,
        { s with row := update.apply settings }.setOp id (some .saved))
    | _ => none
  | .clear id =>
    match s.ops id with
    | some .saved => some (.quiet, { s with cache := none }.setOp id none)
    | _ => none
  | .fail id => some (.failed id, s.setOp id none)
  | .expire => some (.quiet, { s with cache := none })

/-- All operations have finished. -/
def Idle (s : Store) : Prop := ∀ id, s.ops id = none

/-- What the next `getSettings` returns. -/
def nextSettings (s : Store) : PlatformSettings := s.cache.getD s.row

end Store

/-- The operations on the settings, from a row that is cached or not. -/
def settingsSystem (first : PlatformSettings) : System Store Event where
  initial s := s.row = first ∧ (s.cache = none ∨ s.cache = some first) ∧ s.Idle
  step s l s' := ∃ action, s.next action = some (l, s')

theorem Store.next_step {first : PlatformSettings} (s : Store) (action : Action) (l : Event)
    (s' : Store) (h : s.next action = some (l, s')) : (settingsSystem first).step s l s' :=
  ⟨action, h⟩

/-- The update that a step saved. -/
def Event.update : Event → Option Update
  | .saved update _ => some update
  | _ => none

/-- The updates that were saved, the last one first. -/
def updates (history : List Event) : List Update := history.filterMap Event.update

/-- A field of the settings, and what the updates set it to. -/
structure Field (α : Type) where
  get : PlatformSettings → α
  set : Update → Option α
  apply : ∀ update settings, get (update.apply settings) = (set update).getD (get settings)

/-- Nothing is lost: each field has the value that was set last, or the first one if none was; the
events were saved in the order of their ledgers; and the settings that are read next are those of
the row. -/
structure NothingLost (first : PlatformSettings) (history : List Event) (s : Store) : Prop where
  lastSet : ∀ (α : Type) (f : Field α),
    f.get s.row = ((updates history).findSome? f.set).getD (f.get first)
  inOrder : ((updates history).filterMap Update.ledger ++
    first.lastUpdatedAtLedger.toList).Pairwise (· ≥ ·)
  current : s.nextSettings = s.row

/-- An update other than an operation's own has been saved, and the cached copy is still to be
deleted for it. -/
def StillToClear (s : Store) (id : Option Nat) : Prop :=
  ∃ other, some other ≠ id ∧ s.ops other = some .saved

/-- An update saves a copy that has what the row has where it sets nothing, and is not older than
the row; a copy of the row is cached, or one that is about to be deleted; and an update does not
fail between saving and deleting, unless there is nothing stale to delete. -/
def InTurn : System.Guard Store Event := fun _ s l =>
  match l with
  | .saved update settings =>
    update.apply settings = update.apply s.row ∧
      ∀ ledger last, update.ledger = some ledger → s.row.lastUpdatedAtLedger = some last →
        last ≤ ledger
  | .filled settings => settings = s.row ∨ StillToClear s none
  | .failed id => s.ops id = some .saved → s.nextSettings = s.row ∨ StillToClear s (some id)
  | .quiet => True

section Invariants

variable {first : PlatformSettings} {history : List Event} {s s' : Store} {l : Event}

/-- The settings after updates, the last one first. -/
def applyAll (first : PlatformSettings) (updates : List Update) : PlatformSettings :=
  updates.foldr (fun update settings => update.apply settings) first

/-- A field of the settings after updates has what was set last. -/
theorem field_applyAll {α : Type} (f : Field α) (updates : List Update) :
    f.get (applyAll first updates) = (updates.findSome? f.set).getD (f.get first) := by
  induction updates with
  | nil => rfl
  | cons update updates ih =>
    rw [applyAll, List.foldr_cons, f.apply, ← applyAll, ih, List.findSome?_cons]
    cases f.set update <;> rfl

/-- The ledgers of the events, the last one first. -/
def ledgers (first : PlatformSettings) (history : List Event) : List Nat :=
  (updates history).filterMap Update.ledger ++ first.lastUpdatedAtLedger.toList

/-- What holds while operations are under way. -/
structure Underway (first : PlatformSettings) (history : List Event) (s : Store) : Prop where
  row : s.row = applyAll first (updates history)
  last : s.row.lastUpdatedAtLedger = (ledgers first history).head?
  inOrder : (ledgers first history).Pairwise (· ≥ ·)
  cache : s.nextSettings = s.row ∨ StillToClear s none

/-- An operation that has not saved can go on, and what is still to be cleared stays so. -/
theorem StillToClear.setOp {id : Nat} {phase : Option Phase} {cache : Option PlatformSettings}
    (h : StillToClear s none) (hid : s.ops id ≠ some .saved) :
    StillToClear ({ s with cache := cache }.setOp id phase) none := by
  obtain ⟨other, hother, hsaved⟩ := h
  refine ⟨other, hother, ?_⟩
  have hne : other ≠ id := by
    rintro rfl
    exact hid hsaved
  simpa [Store.setOp, Function.update_of_ne hne] using hsaved

theorem Underway.unsaved (h : Underway first history s) (hl : l.update = none)
    (hrow : s'.row = s.row) (hcache : s'.nextSettings = s'.row ∨ StillToClear s' none) :
    Underway first (l :: history) s' := by
  have hupdates : updates (l :: history) = updates history := by
    rw [updates, List.filterMap_cons_none hl]
    rfl
  have hledgers : ledgers first (l :: history) = ledgers first history := by
    rw [ledgers, hupdates]
    rfl
  refine ⟨?_, ?_, ?_, hcache⟩
  · rw [hrow, hupdates]
    exact h.row
  · rw [hrow, hledgers]
    exact h.last
  · rw [hledgers]
    exact h.inOrder

theorem applied_ledger (update : Update) (settings : PlatformSettings) :
    (update.apply settings).lastUpdatedAtLedger =
      update.ledger.or settings.lastUpdatedAtLedger := by
  cases update <;> rfl

theorem Underway.saved {update : Update} {settings : PlatformSettings}
    (h : Underway first history s) (hturn : InTurn history s (.saved update settings))
    (hrow : s'.row = update.apply settings) (hclear : StillToClear s' none) :
    Underway first (.saved update settings :: history) s' := by
  obtain ⟨hcopy, hledger⟩ := hturn
  have hupdates : updates (.saved update settings :: history) = update :: updates history := rfl
  have hledgers : ledgers first (.saved update settings :: history) =
      update.ledger.toList ++ ledgers first history := by
    rw [ledgers, hupdates, ledgers]
    cases hevent : update.ledger with
    | none => rw [List.filterMap_cons_none hevent]; rfl
    | some ledger => rw [List.filterMap_cons_some hevent]; rfl
  rw [hcopy] at hrow
  refine ⟨?_, ?_, ?_, .inr hclear⟩
  · rw [hrow, hupdates, h.row]
    rfl
  · rw [hrow, applied_ledger, hledgers, h.last]
    cases update.ledger <;> rfl
  · rw [hledgers]
    cases hevent : update.ledger with
    | none => exact h.inOrder
    | some ledger =>
      rw [Option.toList_some, List.singleton_append]
      refine List.pairwise_cons.mpr ⟨fun other hother => ?_, h.inOrder⟩
      obtain ⟨last, rest, hlist⟩ := List.exists_cons_of_ne_nil (List.ne_nil_of_mem hother)
      have hlast : last ≤ ledger := by
        refine hledger ledger last hevent ?_
        rw [h.last, hlist, List.head?_cons]
      have hsorted := h.inOrder
      rw [hlist] at hother hsorted
      obtain rfl | hrest := List.mem_cons.mp hother
      · exact hlast
      · exact Nat.le_trans (List.rel_of_pairwise_cons hsorted hrest) hlast

theorem underway_start (hstart : (settingsSystem first).initial s) : Underway first [] s := by
  obtain ⟨rfl, hcache, -⟩ := hstart
  refine ⟨rfl, ?_, ?_, .inl ?_⟩
  · cases hfirst : s.row.lastUpdatedAtLedger <;> simp [ledgers, updates, hfirst]
  · cases hfirst : s.row.lastUpdatedAtLedger <;> simp [ledgers, updates, hfirst]
  · obtain hnone | hsome := hcache
    · simp [Store.nextSettings, hnone]
    · simp [Store.nextSettings, hsome]

theorem underway_step {action : Action} (h : Underway first history s)
    (hnext : s.next action = some (l, s')) (hturn : InTurn history s l) :
    Underway first (l :: history) s' := by
  cases action with
  | call id purpose =>
    simp only [Store.next] at hnext
    split at hnext
    · cases hnext
    · next hop hcache =>
      cases hnext
      exact h.unsaved rfl rfl (h.cache.imp_right fun hclear => hclear.setOp (by simp [hop]))
    · next hop hcache =>
      cases hnext
      exact h.unsaved rfl rfl (h.cache.imp_right fun hclear => hclear.setOp (by simp [hop]))
  | find id =>
    simp only [Store.next] at hnext
    split at hnext
    · next purpose hop =>
      cases hnext
      exact h.unsaved rfl rfl (h.cache.imp_right fun hclear => hclear.setOp (by simp [hop]))
    · cases hnext
  | fill id =>
    simp only [Store.next] at hnext
    split at hnext
    · next purpose settings hop =>
      cases hnext
      exact h.unsaved rfl rfl (hturn.imp_right fun hclear => hclear.setOp (by simp [hop]))
    · cases hnext
  | save id =>
    simp only [Store.next] at hnext
    split at hnext
    · next update settings hop =>
      cases hnext
      exact h.saved hturn rfl ⟨id, by simp, by simp [Store.setOp]⟩
    · cases hnext
  | clear id =>
    simp only [Store.next] at hnext
    split at hnext
    · next hop =>
      cases hnext
      exact h.unsaved rfl rfl (.inl rfl)
    · cases hnext
  | fail id =>
    cases hnext
    refine h.unsaved rfl rfl ?_
    by_cases hop : s.ops id = some .saved
    · obtain hcurrent | ⟨other, hother, hsaved⟩ := hturn hop
      · exact .inl hcurrent
      · refine .inr ⟨other, by simp, ?_⟩
        have hne : other ≠ id := by simpa using hother
        simpa [Store.setOp, Function.update_of_ne hne] using hsaved
    · exact h.cache.imp_right fun hclear => hclear.setOp hop
  | expire =>
    cases hnext
    exact h.unsaved rfl rfl (.inl rfl)

theorem underway_of_run (run : (settingsSystem first).RunWhere InTurn history s) :
    Underway first history s := by
  refine run.invariant (fun start hstart => underway_start hstart) ?_
  rintro h s l s' - hunderway ⟨action, hnext⟩ hturn
  exact underway_step hunderway hnext hturn

/-- When the operations of a run have taken their turns and all have finished, nothing is lost. -/
theorem nothing_lost_in_turn (run : (settingsSystem first).RunWhere InTurn history s)
    (hidle : s.Idle) : NothingLost first history s := by
  have hunderway := underway_of_run run
  refine ⟨fun α f => ?_, hunderway.inOrder, hunderway.cache.resolve_right ?_⟩
  · rw [hunderway.row]
    exact field_applyAll f _
  · rintro ⟨other, -, hsaved⟩
    rw [hidle other] at hsaved
    cases hsaved

end Invariants

/-- The settings that are created at the start. -/
def defaults : PlatformSettings := ⟨100, none, none, 0, 86400, [], [], none, none⟩

def newStore : Store := ⟨defaults, none, fun _ => none⟩

/-- An event that sets the fee. -/
def feeChanged (feePercent : Int) (ledger : Nat) : Update :=
  .applyAdminParamsChanged ⟨some feePercent, none, none, "tx", ledger⟩

def minStakeSet (minStake : Int) : Update :=
  .updateOffChainSettings ⟨none, some minStake, none, none, none⟩

/-- An update from an empty cache, step by step. -/
def updateSteps (id : Nat) (update : Update) : List Action :=
  [.call id (some update), .find id, .fill id, .save id, .clear id]

/-- A decision of whether a step is in turn; nobody fails after saving. -/
def inTurn (_ : List Event) (s : Store) (l : Event) : Bool :=
  match l with
  | .saved update settings =>
    update.apply settings == update.apply s.row &&
      update.ledger.all fun ledger => s.row.lastUpdatedAtLedger.all (· ≤ ledger)
  | .filled settings => settings == s.row
  | .failed _ => false
  | .quiet => true

theorem inTurn_of_decision (history : List Event) (s : Store) (l : Event)
    (h : inTurn history s l = true) : InTurn history s l := by
  unfold inTurn at h
  unfold InTurn
  split at h
  · rw [Bool.and_eq_true, beq_iff_eq] at h
    refine ⟨h.1, fun ledger last hledger hlast => ?_⟩
    simpa [hledger, hlast] using h.2
  · exact .inl (by simpa using h)
  · cases h
  · trivial

/-- An event and an off-chain update after each other. -/
def orderly : System.Replayed (settingsSystem defaults) Store.next inTurn :=
  .of newStore ⟨rfl, .inl rfl, fun _ => rfl⟩
    (updateSteps 1 (feeChanged 250 7) ++ updateSteps 2 (minStakeSet 5)) (by decide)

/-- An update that starts while another one has not saved yet. -/
def overtaking : System.Replayed (settingsSystem defaults) Store.next System.anything :=
  .of newStore ⟨rfl, .inl rfl, fun _ => rfl⟩
    [.call 1 (some (minStakeSet 5)), .find 1, .fill 1, .call 2 (some (feeChanged 250 7)), .save 1,
      .save 2, .clear 1, .clear 2] (by decide)

/-- A reader that caches what it has read before an update. -/
def refilling : System.Replayed (settingsSystem defaults) Store.next System.anything :=
  .of newStore ⟨rfl, .inl rfl, fun _ => rfl⟩
    ([.call 1 none, .find 1] ++ updateSteps 2 (minStakeSet 5) ++ [.fill 1]) (by decide)

def minStakeField : Field Int where
  get settings := settings.minStake
  set update :=
    match update with
    | .updateOffChainSettings dto => dto.minStake
    | .applyAdminParamsChanged _ => none
  apply update settings := by cases update <;> rfl

/-- Updates after each other are all kept. -/
theorem orderly_updates_kept : NothingLost defaults orderly.history orderly.state := by
  refine nothing_lost_in_turn (orderly.run Store.next_step inTurn_of_decision) fun id => ?_
  match id with
  | 0 | 1 | 2 => rfl
  | id + 3 => rfl

/-- The minimum stake that one update sets is lost to the other; and the settings from before an
update are read after it. -/
theorem overtaken_update_lost :
    ((settingsSystem defaults).Run overtaking.history overtaking.state ∧ overtaking.state.Idle ∧
        ¬ NothingLost defaults overtaking.history overtaking.state) ∧
      (settingsSystem defaults).Run refilling.history refilling.state ∧ refilling.state.Idle ∧
        ¬ NothingLost defaults refilling.history refilling.state := by
  refine ⟨⟨overtaking.run Store.next_step System.anything_allowed, fun id => ?_, fun h => ?_⟩,
    refilling.run Store.next_step System.anything_allowed, fun id => ?_, fun h => ?_⟩
  · match id with
    | 0 | 1 | 2 => rfl
    | id + 3 => rfl
  · exact absurd (h.lastSet Int minStakeField) (by decide)
  · match id with
    | 0 | 1 | 2 => rfl
    | id + 3 => rfl
  · exact absurd h.current (by decide)

end Backit.Config
