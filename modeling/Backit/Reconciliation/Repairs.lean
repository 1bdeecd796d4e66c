import Backit.Payouts.Claims

/-!
# Reconciliation

What a run makes of each event of the chain: it compares the event with the tables and repairs
them, or quarantines what it cannot repair. The field of an event is `none` where it is missing or
null, and is the text of its value otherwise.
-/

namespace Backit.Reconciliation

open Payouts

inductive CallStatus where
  | draft
  | opened
  | paused
  | settling
  | resolvedYes
  | resolvedNo
  deriving DecidableEq

/-- The columns of a call that a run reads or writes. -/
structure Call where
  title : String
  description : Option String
  creatorAddress : String
  status : CallStatus
  resolvedAt : Option Nat
  totalYesStake : String
  totalNoStake : String
  deriving DecidableEq

structure Stake where
  callId : String
  userAddress : String
  amount : Int
  deriving DecidableEq

/-- The tables. The identifier of a call is its primary key. -/
structure Database where
  calls : String → Option Call
  stakes : List Stake
  claims : ClaimTable

/-- The fields of an event. -/
structure EventData where
  callId : Option String
  marketId : Option String
  title : Option String
  description : Option String
  creatorAddress : Option String
  creator : Option String
  userAddress : Option String
  staker : Option String
  stakerAddress : Option String
  amount : Option String
  outcome : Option String
  result : Option String

structure ParsedOnChainEvent where
  contractId : String
  ledger : Nat
  txHash : String
  eventName : String
  data : EventData

inductive DiscrepancyType where
  | missingOffchain
  | valueMismatch
  | unknownContract
  | unrecoverable
  deriving DecidableEq

inductive DiscrepancyStatus where
  | detected
  | repaired
  | quarantined
  deriving DecidableEq

structure Discrepancy where
  type : DiscrepancyType
  status : DiscrepancyStatus
  notes : Option String
  deriving DecidableEq

/-- The handlers of the event names. -/
inductive EventKind where
  | created
  | staked
  | resolved
  | settled
  | claimed
  deriving DecidableEq

def eventKind (name : String) : Option EventKind :=
  if name = "MarketCreated" ∨ name = "call_created" then some .created
  else if name = "BetPlaced" ∨ name = "stake_added" then some .staked
  else if name = "OutcomeFinalized" ∨ name = "call_resolved" then some .resolved
  else if name = "call_settled" then some .settled
  else if name = "PayoutClaimed" then some .claimed
  else none

namespace ParsedOnChainEvent

variable (event : ParsedOnChainEvent)

def kind : Option EventKind := eventKind event.eventName

/-- The identifier of a created call. -/
def createdCallId : String := (event.data.callId.or event.data.marketId).getD event.txHash

def creatorAddress : String := (event.data.creatorAddress.or event.data.creator).getD "SYSTEM"

/-- The call of a stake or a resolution. -/
def callId : String := (event.data.callId.or event.data.marketId).getD ""

def userAddress : String := (event.data.userAddress.or event.data.staker).getD ""

/-- The call of a claim. -/
def claimCallId : String := event.data.callId.getD ""

def stakerAddress : String := (event.data.stakerAddress.or event.data.staker).getD ""

def claimAmount : String := event.data.amount.getD "0"

def stakeAmount (number : String → Int) : Int := number (event.data.amount.getD "0")

end ParsedOnChainEvent

/-- `toUpperCase`, as far as it can make one of the words of an outcome: the long s is the only
other letter that becomes one of theirs. -/
def upperCase (text : String) : String :=
  String.ofList (text.toList.map fun c => if c = 'ſ' then 'S' else c.toUpper)

/-- The status that a resolution or a settlement expects. -/
def ParsedOnChainEvent.expectedStatus (event : ParsedOnChainEvent) : CallStatus :=
  let outcome := upperCase ((event.data.outcome.or event.data.result).getD "")
  if outcome = "YES" ∨ outcome = "1" ∨ outcome = "TRUE" then .resolvedYes else .resolvedNo

section Repairs

variable (number : String → Int) (now : Nat) (isDryRun : Bool) (event : ParsedOnChainEvent)
  (db : Database)

def Database.setCall (callId : String) (call : Call) : Database :=
  { db with calls := Function.update db.calls callId (some call) }

def Database.setClaim (key : String × String) (claim : PayoutClaim) : Database :=
  { db with claims := Function.update db.claims key (some claim) }

/-- The stakes of a user on a call. -/
def Database.stakesOf (callId userAddress : String) : List Stake :=
  db.stakes.filter fun stake => stake.callId = callId ∧ stake.userAddress = userAddress

/-- The row of a created call. -/
def createdCall : Call where
  title := event.data.title.getD
    ("Call " ++ String.ofList (event.createdCallId.toList.take 8))
  description := event.data.description
  creatorAddress := event.creatorAddress
  status := .opened
  resolvedAt := none
  totalYesStake := "0"
  totalNoStake := "0"

/-- A discrepancy that a dry run only detects. -/
def found (type : DiscrepancyType) (status : DiscrepancyStatus) (notes : Option String) :
    Discrepancy :=
  if isDryRun then ⟨type, .detected, none⟩ else ⟨type, status, notes⟩

def reconcileCallCreated : Option Discrepancy × Database :=
  let callId := event.createdCallId
  match db.calls callId with
  | none =>
    (some (found isDryRun .missingOffchain .repaired "Upserted missing Call record in Postgres"),
      if isDryRun then db else db.setCall callId (createdCall event))
  | some call =>
    if event.creatorAddress ≠ "SYSTEM" ∧ call.creatorAddress ≠ event.creatorAddress then
      (some ⟨.valueMismatch, if isDryRun then .detected else .quarantined,
        "Creator address value mismatch"⟩, db)
    else (none, db)

def reconcileStakeAdded : Option Discrepancy × Database :=
  if event.callId = "" ∨ event.userAddress = "" then
    (some ⟨.unrecoverable, .quarantined, none⟩, db)
  else
    match db.stakesOf event.callId event.userAddress with
    | [] =>
      (some (found isDryRun .missingOffchain .repaired "Upserted missing Stake record in Postgres"),
        if isDryRun then db
        else { db with stakes := db.stakes ++
          [⟨event.callId, event.userAddress, event.stakeAmount number⟩] })
    | _ :: _ => (none, db)

def reconcileCallResolved : Option Discrepancy × Database :=
  if event.callId = "" then (none, db)
  else
    match db.calls event.callId with
    | none => (some (found isDryRun .missingOffchain .quarantined none), db)
    | some call =>
      if call.status ≠ event.expectedStatus then
        (some (found isDryRun .valueMismatch .repaired
            "Updated Call resolution status in Postgres"),
          if isDryRun then db
          else db.setCall event.callId
            { call with status := event.expectedStatus, resolvedAt := some now })
      else (none, db)

def reconcilePayoutClaimed : Option Discrepancy × Database :=
  let key := (event.claimCallId, event.stakerAddress)
  if event.claimCallId = "" ∨ event.stakerAddress = "" then (none, db)
  else
    match db.claims key with
    | none =>
      (some (found isDryRun .missingOffchain .repaired
          "Upserted missing PayoutClaim record as CLAIMED"),
        if isDryRun then db
        else db.setClaim key ⟨event.claimAmount, some event.txHash, some now, .claimed⟩)
    | some claim =>
      if claim.status ≠ .claimed then
        (some (found isDryRun .valueMismatch .repaired "Marked PayoutClaim as CLAIMED in Postgres"),
          if isDryRun then db else db.setClaim key (claim.claim now event.txHash))
      else (none, db)

def reconcileEvent : Option Discrepancy × Database :=
  match event.kind with
  | some .created => reconcileCallCreated isDryRun event db
  | some .staked => reconcileStakeAdded number isDryRun event db
  | some .resolved => reconcileCallResolved now isDryRun event db
  | some .settled => reconcileCallResolved now isDryRun event db
  | some .claimed => reconcilePayoutClaimed now isDryRun event db
  | none => (none, db)

end Repairs

/-- What a run counts. -/
structure ReconciliationRun where
  scannedEventsCount : Nat
  discrepancyCount : Nat
  repairedCount : Nat
  quarantinedCount : Nat
  discrepancyBreakdown : DiscrepancyType → Nat

/-- One more discrepancy. -/
def ReconciliationRun.record (run : ReconciliationRun) (discrepancy : Discrepancy) :
    ReconciliationRun :=
  { run with
    discrepancyCount := run.discrepancyCount + 1
    repairedCount := run.repairedCount + if discrepancy.status = .repaired then 1 else 0
    quarantinedCount := run.quarantinedCount + if discrepancy.status = .quarantined then 1 else 0
    discrepancyBreakdown := Function.update run.discrepancyBreakdown discrepancy.type
      (run.discrepancyBreakdown discrepancy.type + 1) }

end Backit.Reconciliation
