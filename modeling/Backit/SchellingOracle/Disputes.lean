import Backit.Soroban.Bytes
import Backit.Soroban.Host

/-!
# The commit-reveal oracle for disputes

A disputer bonds tokens against a reported outcome. Voters stake behind hashed votes until the
commit deadline and reveal them until the reveal deadline; the side with more revealed stake wins.
-/

namespace Backit.SchellingOracle

open Soroban Contract

/-- The contract's error codes. -/
inductive OracleError where
  | alreadyInitialized
  | notInitialized
  | unauthorized
  | invalidPeriod
  | invalidBondBps
  | invalidOutcome
  | sameOutcome
  | invalidPoolAmount
  | invalidBondAmount
  | bondBelowMinimum
  | disputeNotFound
  | commitPeriodEnded
  | revealPeriodNotStarted
  | revealPeriodEnded
  | revealPeriodNotEnded
  | alreadyCommitted
  | noCommitmentFound
  | alreadyRevealed
  | commitmentMismatch
  | invalidVoteOutcome
  | invalidStakeAmount
  | alreadyResolved
  | tooManyVoters
  | overflow
  deriving DecidableEq

structure DisputeConfig where
  admin : Address
  votingPeriodSecs : Nat
  revealPeriodSecs : Nat
  bondBps : Nat
  deriving DecidableEq

inductive DisputeResult where
  | pending
  | disputerWon
  | disputerLost
  | void
  deriving DecidableEq

structure Dispute where
  id : Nat
  callId : Nat
  disputer : Address
  originalOutcome : Nat
  disputedOutcome : Nat
  stakeToken : Address
  bondAmount : Int
  totalPoolAmount : Int
  commitDeadline : Nat
  revealDeadline : Nat
  result : DisputeResult
  deriving DecidableEq

structure VoteCommitment where
  commitmentHash : BytesN 32
  stakeAmount : Int
  revealed : Bool
  revealedOutcome : Nat
  deriving DecidableEq

inductive Event where
  | disputeOpened (disputeId callId : Nat) (disputer : Address)
      (originalOutcome disputedOutcome : Nat) (bondAmount : Int)
      (commitDeadline revealDeadline : Nat)
  | voteCommitted (disputeId : Nat) (voter : Address) (commitmentHash : BytesN 32)
      (stakeAmount : Int)
  | voteRevealed (disputeId : Nat) (voter : Address) (voteOutcome : Nat) (stakeAmount : Int)
  | disputeResolved (disputeId : Nat) (result : DisputeResult) (winningPoolDistributed : Int)
  deriving DecidableEq

structure Storage where
  config : Option DisputeConfig
  disputeCounter : Nat
  dispute : Nat → Option Dispute
  voters : Nat → List Address
  commitment : Nat × Address → Option VoteCommitment

namespace Storage

/-- The storage of a freshly deployed contract. -/
def empty : Storage := ⟨none, 0, fun _ => none, fun _ => [], fun _ => none⟩

variable (s : Storage)

def setConfig (config : DisputeConfig) : Storage := { s with config := some config }

def setDisputeCounter (counter : Nat) : Storage := { s with disputeCounter := counter }

def setDispute (dispute : Dispute) : Storage :=
  { s with dispute := Function.update s.dispute dispute.id (some dispute) }

def appendVoter (disputeId : Nat) (voter : Address) : Storage :=
  { s with voters := Function.update s.voters disputeId (s.voters disputeId ++ [voter]) }

def setCommitment (disputeId : Nat) (voter : Address) (commitment : VoteCommitment) : Storage :=
  { s with commitment := Function.update s.commitment (disputeId, voter) (some commitment) }

end Storage

def maxVotersPerDispute : Nat := 200

/-- A computation of an entry point. -/
abbrev Oracle (T α : Type) := Contract (Frame Storage T Event) OracleError α

/-- The sentinel address that stands for native XLM. -/
def nativeXlm : Address := ⟨0⟩

def isNativeXlm (token : Address) : Bool := token = nativeXlm

/-- What a voter commits to: the domain, the outcome and the salt. -/
def commitmentMessage (voteOutcome : Nat) (salt : BytesN 32) : Bytes :=
  ascii ['s', 'c', 'h', 'e', 'l', 'l', 'i', 'n', 'g', '_', 'v', 'o', 't', 'e', ':'] ++
    beBytes 4 voteOutcome ++ salt.bytes

def commitmentHash [Crypto] (voteOutcome : Nat) (salt : BytesN 32) : BytesN 32 :=
  Crypto.sha256 (commitmentMessage voteOutcome salt)

variable {T : Type}

/-- A checked operation, or the overflow error. -/
def orOverflow (result : Option Int) : Oracle T Int := unwrap result (.error .overflow)

def computeMinBond (totalPoolAmount : Int) (bondBps : Nat) : Oracle T Int := do
  let scaled ← orOverflow (checkedMul totalPoolAmount bondBps)
  orOverflow (checkedDiv scaled 10000)

def validateParams (votingPeriodSecs revealPeriodSecs bondBps : Nat) : Oracle T Unit := do
  rejectIf (votingPeriodSecs = 0 ∨ revealPeriodSecs = 0) (.error .invalidPeriod)
  rejectIf (bondBps = 0 ∨ 10000 < bondBps) (.error .invalidBondBps)

/-- The entry point `initialize`. -/
def initializeOracle (admin : Address) (votingPeriodSecs revealPeriodSecs bondBps : Nat) :
    Oracle T Unit := do
  rejectIf ((← getStore).config.isSome = true) (.error .alreadyInitialized)
  requireAuth admin
  validateParams votingPeriodSecs revealPeriodSecs bondBps
  modifyStore (·.setConfig
    { admin := admin, votingPeriodSecs := votingPeriodSecs
      revealPeriodSecs := revealPeriodSecs, bondBps := bondBps })

def setDisputeParams (admin : Address) (votingPeriodSecs revealPeriodSecs bondBps : Nat) :
    Oracle T Unit := do
  let config ← unwrap (← getStore).config (.error .notInitialized)
  rejectIf (config.admin ≠ admin) (.error .unauthorized)
  requireAuth admin
  validateParams votingPeriodSecs revealPeriodSecs bondBps
  modifyStore (·.setConfig
    { config with
      votingPeriodSecs := votingPeriodSecs
      revealPeriodSecs := revealPeriodSecs
      bondBps := bondBps })

/-- The dispute with an id. -/
def requireDispute (disputeId : Nat) : Oracle T Dispute := do
  unwrap ((← getStore).dispute disputeId) (.error .disputeNotFound)

/-- The commitment of a voter. -/
def requireCommitment (disputeId : Nat) (voter : Address) : Oracle T VoteCommitment := do
  unwrap ((← getStore).commitment (disputeId, voter)) (.error .noCommitmentFound)

def nextDisputeId : Oracle T Nat := do
  let nextId ← unsigned 64 ((← getStore).disputeCounter + 1)
  modifyStore (·.setDisputeCounter nextId)
  pure nextId

def revealVote [Crypto] (voter : Address) (disputeId voteOutcome : Nat) (salt : BytesN 32) :
    Oracle T Unit := do
  requireAuth voter
  let dispute ← requireDispute disputeId
  rejectIf (dispute.result ≠ .pending) (.error .alreadyResolved)
  let environment ← env
  rejectIf (environment.timestamp < dispute.commitDeadline) (.error .revealPeriodNotStarted)
  rejectIf (dispute.revealDeadline ≤ environment.timestamp) (.error .revealPeriodEnded)
  rejectIf (voteOutcome ≠ dispute.originalOutcome ∧ voteOutcome ≠ dispute.disputedOutcome)
    (.error .invalidVoteOutcome)
  let commitment ← requireCommitment disputeId voter
  rejectIf (commitment.revealed = true) (.error .alreadyRevealed)
  rejectIf (commitmentHash voteOutcome salt ≠ commitment.commitmentHash)
    (.error .commitmentMismatch)
  modifyStore (·.setCommitment disputeId voter
    { commitment with revealed := true, revealedOutcome := voteOutcome })
  publish (.voteRevealed disputeId voter voteOutcome commitment.stakeAmount)

section Tokens

variable [Tokens T]

/-- The native asset and other tokens have distinct clients with the same `transfer`. -/
def transferToken (stakeToken sender recipient : Address) (amount : Int) : Oracle T Unit :=
  if isNativeXlm stakeToken then tokenTransfer stakeToken sender recipient amount
  else tokenTransfer stakeToken sender recipient amount

def disputeOutcome (disputer : Address) (callId originalOutcome disputedOutcome : Nat)
    (totalPoolAmount : Int) (stakeToken : Address) (bondAmount : Int) : Oracle T Nat := do
  requireAuth disputer
  let config ← unwrap (← getStore).config (.error .notInitialized)
  rejectIf (originalOutcome = 0 ∨ disputedOutcome = 0) (.error .invalidOutcome)
  rejectIf (originalOutcome = disputedOutcome) (.error .sameOutcome)
  rejectIf (totalPoolAmount ≤ 0) (.error .invalidPoolAmount)
  rejectIf (bondAmount ≤ 0) (.error .invalidBondAmount)
  let minBond ← computeMinBond totalPoolAmount config.bondBps
  rejectIf (bondAmount < minBond) (.error .bondBelowMinimum)
  let environment ← env
  transferToken stakeToken disputer environment.contract bondAmount
  let commitDeadline ← unwrap (checkedAddU64 environment.timestamp config.votingPeriodSecs)
    (.error .overflow)
  let revealDeadline ← unwrap (checkedAddU64 commitDeadline config.revealPeriodSecs)
    (.error .overflow)
  let disputeId ← nextDisputeId
  modifyStore (·.setDispute
    { id := disputeId, callId := callId, disputer := disputer
      originalOutcome := originalOutcome, disputedOutcome := disputedOutcome
      stakeToken := stakeToken, bondAmount := bondAmount, totalPoolAmount := totalPoolAmount
      commitDeadline := commitDeadline, revealDeadline := revealDeadline, result := .pending })
  publish (.disputeOpened disputeId callId disputer originalOutcome disputedOutcome bondAmount
    commitDeadline revealDeadline)
  pure disputeId

def voteOnDispute (voter : Address) (disputeId : Nat) (hash : BytesN 32) (stakeAmount : Int) :
    Oracle T Unit := do
  requireAuth voter
  let dispute ← requireDispute disputeId
  rejectIf (dispute.result ≠ .pending) (.error .alreadyResolved)
  let environment ← env
  rejectIf (dispute.commitDeadline ≤ environment.timestamp) (.error .commitPeriodEnded)
  rejectIf (stakeAmount ≤ 0) (.error .invalidStakeAmount)
  rejectIf (((← getStore).commitment (disputeId, voter)).isSome = true) (.error .alreadyCommitted)
  rejectIf (maxVotersPerDispute ≤ ((← getStore).voters disputeId).length) (.error .tooManyVoters)
  transferToken dispute.stakeToken voter environment.contract stakeAmount
  modifyStore (·.setCommitment disputeId voter
    { commitmentHash := hash, stakeAmount := stakeAmount, revealed := false
      revealedOutcome := 0 })
  modifyStore (·.appendVoter disputeId voter)
  publish (.voteCommitted disputeId voter hash stakeAmount)

/-- The stake revealed for each of the two outcomes, and the stake that was not revealed. -/
structure Tally where
  original : Int
  disputed : Int
  unrevealed : Int
  deriving DecidableEq

/-- The first pass over the voters. -/
def tallyVotes (disputeId : Nat) (dispute : Dispute) : List Address → Tally → Oracle T Tally
  | [], tally => pure tally
  | voter :: rest, tally => do
      let commitment ← requireCommitment disputeId voter
      if commitment.revealed = false then
        let unrevealed ← orOverflow (checkedAdd tally.unrevealed commitment.stakeAmount)
        tallyVotes disputeId dispute rest { tally with unrevealed := unrevealed }
      else if commitment.revealedOutcome = dispute.originalOutcome then
        let original ← orOverflow (checkedAdd tally.original commitment.stakeAmount)
        tallyVotes disputeId dispute rest { tally with original := original }
      else
        let disputed ← orOverflow (checkedAdd tally.disputed commitment.stakeAmount)
        tallyVotes disputeId dispute rest { tally with disputed := disputed }

/-- Return their stakes to the voters for the disputed outcome. -/
def refundVoters (disputeId : Nat) (dispute : Dispute) : List Address → Oracle T Unit
  | [] => pure ()
  | voter :: rest => do
      let commitment ← requireCommitment disputeId voter
      if commitment.revealed = true ∧ commitment.revealedOutcome = dispute.disputedOutcome then
        let environment ← env
        transferToken dispute.stakeToken environment.contract voter commitment.stakeAmount
        refundVoters disputeId dispute rest
      else refundVoters disputeId dispute rest

/-- Pay the voters for the original outcome their stakes and their shares of the pool, and sum up
the shares. -/
def rewardVoters (disputeId : Nat) (dispute : Dispute) (rewardPool originalTotal : Int) :
    List Address → Int → Oracle T Int
  | [], distributedShare => pure distributedShare
  | voter :: rest, distributedShare => do
      let commitment ← requireCommitment disputeId voter
      if commitment.revealed = true ∧ commitment.revealedOutcome = dispute.originalOutcome then
        let scaled ← orOverflow (checkedMul commitment.stakeAmount rewardPool)
        let share ← orOverflow (checkedDiv scaled originalTotal)
        let payout ← orOverflow (checkedAdd commitment.stakeAmount share)
        let environment ← env
        transferToken dispute.stakeToken environment.contract voter payout
        let summed ← orOverflow (checkedAdd distributedShare share)
        rewardVoters disputeId dispute rewardPool originalTotal rest summed
      else rewardVoters disputeId dispute rewardPool originalTotal rest distributedShare

/-- Send an amount to the admin. -/
def payAdmin (dispute : Dispute) (amount : Int) : Oracle T Unit := do
  let config ← unwrap (← getStore).config (.error .notInitialized)
  let environment ← env
  transferToken dispute.stakeToken environment.contract config.admin amount

/-- The dispute is upheld: the disputer takes the stakes that are forfeited. -/
def settleUpheld (disputeId : Nat) (dispute : Dispute) (tally : Tally) (voters : List Address) :
    Oracle T Int := do
  let rewardForDisputer ← orOverflow (checkedAdd tally.original tally.unrevealed)
  let disputerPayout ← orOverflow (checkedAdd dispute.bondAmount rewardForDisputer)
  let environment ← env
  transferToken dispute.stakeToken environment.contract dispute.disputer disputerPayout
  refundVoters disputeId dispute voters
  pure rewardForDisputer

/-- The dispute is rejected: the voters for the original outcome share the bond and the stakes that
are forfeited, and the admin takes what nobody gets. -/
def settleRejected (disputeId : Nat) (dispute : Dispute) (tally : Tally) (voters : List Address) :
    Oracle T Int := do
  let bondAndDisputed ← orOverflow (checkedAdd dispute.bondAmount tally.disputed)
  let rewardPool ← orOverflow (checkedAdd bondAndDisputed tally.unrevealed)
  if tally.original = 0 then
    payAdmin dispute rewardPool
    pure rewardPool
  else
    let distributedShare ← rewardVoters disputeId dispute rewardPool tally.original voters 0
    let leftover ← orOverflow (checkedSub rewardPool distributedShare)
    if 0 < leftover then
      payAdmin dispute leftover
      pure rewardPool
    else pure rewardPool

def resolveDispute (disputeId : Nat) : Oracle T Unit := do
  let dispute ← requireDispute disputeId
  rejectIf (dispute.result ≠ .pending) (.error .alreadyResolved)
  let environment ← env
  rejectIf (environment.timestamp < dispute.revealDeadline) (.error .revealPeriodNotEnded)
  let voters := (← getStore).voters disputeId
  if voters = [] then
    transferToken dispute.stakeToken environment.contract dispute.disputer dispute.bondAmount
    modifyStore (·.setDispute { dispute with result := .void })
    publish (.disputeResolved disputeId .void 0)
  else
    let tally ← tallyVotes disputeId dispute voters ⟨0, 0, 0⟩
    if tally.original < tally.disputed then
      let distributed ← settleUpheld disputeId dispute tally voters
      modifyStore (·.setDispute { dispute with result := .disputerWon })
      publish (.disputeResolved disputeId .disputerWon distributed)
    else
      let distributed ← settleRejected disputeId dispute tally voters
      modifyStore (·.setDispute { dispute with result := .disputerLost })
      publish (.disputeResolved disputeId .disputerLost distributed)

end Tokens

/-- The entry points that write. -/
inductive OracleOp where
  | initializeOracle (admin : Address) (votingPeriodSecs revealPeriodSecs bondBps : Nat)
  | setDisputeParams (admin : Address) (votingPeriodSecs revealPeriodSecs bondBps : Nat)
  | disputeOutcome (disputer : Address) (callId originalOutcome disputedOutcome : Nat)
      (totalPoolAmount : Int) (stakeToken : Address) (bondAmount : Int)
  | voteOnDispute (voter : Address) (disputeId : Nat) (hash : BytesN 32) (stakeAmount : Int)
  | revealVote (voter : Address) (disputeId voteOutcome : Nat) (salt : BytesN 32)
  | resolveDispute (disputeId : Nat)
  deriving DecidableEq

/-- Run an invocation of an entry point. -/
def OracleOp.perform [Tokens T] [Crypto] : OracleOp → Oracle T Unit
  | .initializeOracle admin voting reveal bondBps =>
    SchellingOracle.initializeOracle admin voting reveal bondBps
  | .setDisputeParams admin voting reveal bondBps =>
    SchellingOracle.setDisputeParams admin voting reveal bondBps
  | .disputeOutcome disputer callId original disputed pool stakeToken bond =>
    ignore (SchellingOracle.disputeOutcome disputer callId original disputed pool stakeToken bond)
  | .voteOnDispute voter disputeId hash stakeAmount =>
    SchellingOracle.voteOnDispute voter disputeId hash stakeAmount
  | .revealVote voter disputeId voteOutcome salt =>
    SchellingOracle.revealVote voter disputeId voteOutcome salt
  | .resolveDispute disputeId => SchellingOracle.resolveDispute disputeId

end Backit.SchellingOracle
