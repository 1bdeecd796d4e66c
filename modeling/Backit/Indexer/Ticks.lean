import Backit.Indexer.EventParser
import Backit.Lib.Transition
import Backit.Lib.SequencedRows
import Backit.Payouts.Claims

/-!
# The indexer's ticks

A tick asks for the events from its start ledger on, and handles a page of them one by one. The
start ledger comes from the event log, which only changes of the admin parameters write. A tick can
stop between any two events, and between an event's effect and its row in the log.
-/

namespace Backit.Indexer

open Lib Payouts

/-- An event of the indexed contract, and where it is on the chain. -/
structure ChainEvent where
  ledger : Nat
  txHash : String
  event : ContractEvent

/-- The events of the contract, in the order of their ledgers. -/
structure Chain where
  events : List ChainEvent
  ordered : Sequenced (·.ledger) events
  positive : ∀ e ∈ events, 0 < e.ledger

/-- A row of the event log. -/
structure EventLog where
  eventId : String
  pagingToken : String
  ledger : Nat
  txHash : String
  eventData : AdminParamsChangedEvent

structure PlatformSettings where
  feePercent : Option Int
  contractId : Option String
  oracleContractId : Option String
  lastUpdatedByTxHash : Option String
  lastUpdatedAtLedger : Option Nat

/-- A treasury entry, and the event that it was recorded for. -/
structure TreasuryEntry where
  callId : String
  feeAmount : String
  tokenAddress : String
  collectedAt : Nat
  source : ChainEvent

/-- The tables that the indexer writes, the events whose parameters it has applied, and the last
ledger it has seen. -/
structure Tables where
  tip : Nat
  log : List EventLog
  settings : PlatformSettings
  applied : List ChainEvent
  claims : ClaimTable
  treasury : List TreasuryEntry

/-- How the handling of an event goes: its writes succeed, the first one fails, the second one
fails, or the tick stops once the event has had its effect. -/
inductive Fate where
  | completes
  | failsFirst
  | failsSecond
  | stops
  deriving DecidableEq

/-- What the indexer is configured with: the conversions of the client library, the fee of an amount
and the token of the treasury. -/
structure Configuration where
  conversions : Conversions
  percentFee : String → Option Int → String
  tokenAddress : String

/-- A tick: where it starts, the last ledger on the chain, how many events it gets, and how the
handling of the events goes until it stops. -/
structure Tick where
  start : Nat
  tip : Nat
  page : Nat
  fates : List Fate
  now : Nat

section Handlers

variable (x : Configuration) (now : Nat)

def ChainEvent.dispatched (e : ChainEvent) : Dispatched :=
  dispatch x.conversions e.event e.txHash e.ledger

def applyAdminParamsChanged (event : AdminParamsChangedEvent) (settings : PlatformSettings) :
    PlatformSettings where
  feePercent := event.feePercent.getD settings.feePercent
  contractId := event.contractId.or settings.contractId
  oracleContractId := event.oracleContractId.or settings.oracleContractId
  lastUpdatedByTxHash := some event.txHash
  lastUpdatedAtLedger := some event.ledger

/-- The parameters of an event take effect. -/
def Tables.apply (s : Tables) (e : ChainEvent) (parsed : AdminParamsChangedEvent) : Tables :=
  { s with
    settings := applyAdminParamsChanged parsed s.settings
    applied := s.applied ++ [e] }

/-- The event is logged. -/
def Tables.logEvent (s : Tables) (e : ChainEvent) (parsed : AdminParamsChangedEvent) : Tables :=
  { s with log := s.log ++ [⟨e.txHash ++ "-admin-params",
      toString e.ledger ++ "-" ++ e.txHash, e.ledger, e.txHash, parsed⟩] }

/-- The claim is marked. -/
def Tables.mark (s : Tables) (e : ChainEvent) (parsed : PayoutClaimedEvent) : Tables :=
  { s with claims := markClaimed now parsed.callId parsed.stakerAddress e.txHash s.claims }

/-- The fee of a claim is recorded. -/
def Tables.recordFee (s : Tables) (e : ChainEvent) (parsed : PayoutClaimedEvent) : Tables :=
  { s with treasury := s.treasury ++ [⟨parsed.callId,
      x.percentFee parsed.amount s.settings.feePercent, x.tokenAddress, now, e⟩] }

/-- Handle one event, and say whether the tick goes on. A failure while a claim is handled is caught,
and a failure while parameters are applied ends the tick. -/
def Tables.handle (s : Tables) (e : ChainEvent) (fate : Fate) : Bool × Tables :=
  match e.dispatched x with
  | .ignored => (true, s)
  | .adminParamsChanged parsed =>
    match fate with
    | .completes => (true, (s.apply e parsed).logEvent e parsed)
    | .failsFirst => (false, s)
    | .failsSecond => (false, s.apply e parsed)
    | .stops => (false, s.apply e parsed)
  | .payoutClaimed parsed =>
    match fate with
    | .completes => (true, (s.mark now e parsed).recordFee x now e parsed)
    | .failsFirst => (true, s)
    | .failsSecond => (true, s.mark now e parsed)
    | .stops => (false, (s.mark now e parsed).recordFee x now e parsed)

def Tables.handleAll : List (ChainEvent × Fate) → Tables → Tables
  | [], s => s
  | (e, fate) :: rest, s =>
    match s.handle x now e fate with
    | (true, s') => handleAll rest s'
    | (false, s') => s'

/-- The ledger of the latest row of the event log. -/
def Tables.latestLedger (s : Tables) : Option Nat := (s.log.map (·.ledger)).max?

/-- The ledger after the latest one, unless that is missing or zero. -/
def Tables.cursor (s : Tables) : Option Nat :=
  s.latestLedger.bind fun ledger => if ledger ≠ 0 then some (ledger + 1) else none

def Tables.resolveStartLedger (s : Tables) (tip : Nat) : Nat := s.cursor.getD (max (tip - 5) 1)

end Handlers

section Ticks

variable (chain : Chain) (x : Configuration)

/-- The events that a tick asks for. -/
def Tick.asked (l : Tick) : List ChainEvent :=
  rowsBetween (·.ledger) l.start (l.tip + 1) chain.events

/-- The events that it comes to, with what becomes of each. -/
def Tick.reached (l : Tick) : List (ChainEvent × Fate) := ((l.asked chain).take l.page).zip l.fates

/-- A tick on a chain whose last ledger is not an earlier one. -/
def Tables.next (s : Tables) (input : Tick) : Option (Tick × Tables) :=
  if s.tip ≤ input.tip then
    let l := { input with start := s.resolveStartLedger input.tip }
    some (l, { Tables.handleAll x l.now (l.reached chain) s with tip := l.tip })
  else none

/-- The ticks of an indexer that has recorded nothing. -/
def indexing : System Tables Tick where
  initial s := s.applied = [] ∧ s.treasury = []
  step s l s' := ∃ input, s.next chain x input = some (l, s')

end Ticks

end Backit.Indexer
