import Backit.Soroban.Execution

/-!
# The treasury of the governance contract

## What the governance contract relies on of other contracts

Beside transfers the contract burns tokens, and it calls the targets of proposals. `ExactBurns` is
the documented behaviour of a token's burn: it takes exactly its amount from the holder.
-/

namespace Backit.Governance

open Soroban Lib

/-- What the contract calls of other contracts: tokens, which it also burns, and the targets of
proposals, which it calls without arguments. -/
class Targets (P : Type) extends Tokens P where
  burn : Env → (token holder : Address) → (amount : Int) → P → Option P
  invoke : Env → (target : Address) → (functionName : String) → P → Option P

section Laws

variable (P : Type) [Targets P]

/-- A burn takes exactly its amount from the holder. -/
def ExactBurns : Prop :=
  ∀ {env : Env} {token holder : Address} {amount : Int} {p p' : P},
    Targets.burn env token holder amount p = some p' → ∀ other who,
      Tokens.balance p' other who = (Tokens.balance p other who).map (· -
        if other = token ∧ who = holder then amount else 0)

/-- The targets of proposals neither take tokens out of the contract that calls them nor send it
any. -/
def HarmlessTargets (self : Address) : Prop :=
  ∀ {env : Env} {target : Address} {functionName : String} {p p' : P},
    Targets.invoke env target functionName p = some p' → ∀ token,
      Tokens.balance p' token self = Tokens.balance p token self

end Laws

/-- Standard tokens are burned by their holders, and the targets of proposals keep to themselves. -/
instance : Targets StandardLedger where
  burn env token holder amount l :=
    if 0 ≤ amount ∧ (holder ∈ env.auths ∨ holder = env.contract) then
      l.credit token holder (-amount)
    else none
  invoke _ _ _ l := some l

theorem exact_burns : ExactBurns StandardLedger := by
  intro env token holder amount p p' h other who
  simp only [Targets.burn] at h
  split at h
  · rw [StandardLedger.balance_credit h]
    refine congrArg (Option.map · _) (funext fun held => ?_)
    split <;> omega
  · cases h

theorem harmless_targets (self : Address) : HarmlessTargets StandardLedger self := by
  intro env target name p p' h token
  cases h
  rfl

end Backit.Governance

/-!
## The storage of the governance contract and its treasury

Proposals, the votes on them and the delegations of voters, and beside them the treasury: fees of
any token are split over four buckets, three of which the contract holds.
-/

namespace Backit.Governance

open Soroban Contract

/-- The contract's error codes that its entry points return. -/
inductive GovernanceError where
  | alreadyInitialized
  | notInitialized
  | unauthorized
  | proposalNotFound
  | proposalInactive
  | votingPeriodEnded
  | insufficientReputation
  | alreadyExecuted
  | proposalNotPassed
  | quorumNotMet
  | selfDelegation
  | invalidSplit
  | notEnoughSigners
  | invalidAmount
  | insufficientBucket
  | invalidTreasuryConfig
  deriving DecidableEq

inductive Event where
  | proposalCreated (id : Nat) (proposer target : Address) (functionName : String)
  | voteCast (proposalId : Nat) (voter : Address) (support : Bool) (power : Int)
  | proposalExecuted (id : Nat)
  | delegationChanged (delegator delegate : Address)
  | feeSplit (token : Address) (amount treasury creators buyback burned : Int)
  | feeSplitUpdated (bps : List Nat)
  deriving DecidableEq

structure GovernanceConfig where
  admin : Address
  proposalThresholdCalls : Nat
  thresholdAccuracyBps : Nat
  votingPeriodLedgers : Nat
  quorumBps : Nat
  passThresholdBps : Nat
  deriving DecidableEq

structure Proposal where
  id : Nat
  proposer : Address
  targetContract : Address
  functionName : String
  forVotes : Int
  againstVotes : Int
  createdLedger : Nat
  executed : Bool
  deriving DecidableEq

structure Vote where
  voter : Address
  support : Bool
  power : Int
  deriving DecidableEq

inductive Bucket where
  | treasury
  | creatorIncentives
  | buyback
  | burn
  deriving DecidableEq

structure TreasuryConfig where
  signers : List Address
  threshold : Nat
  splitBps : List Nat
  deriving DecidableEq

structure Storage where
  config : Option GovernanceConfig
  proposalCounter : Nat
  proposal : Nat → Option Proposal
  proposalIds : List Nat
  votes : Nat → List Vote
  delegation : Address → Option Address
  userReputation : Address → Nat × Int
  treasurySettings : Option TreasuryConfig
  balance : Address → Bucket → Int
  burned : Address → Int

namespace Storage

/-- The storage of a freshly deployed contract. -/
def empty : Storage :=
  ⟨none, 0, fun _ => none, [], fun _ => [], fun _ => none, fun _ => (0, 0), none, fun _ _ => 0,
    fun _ => 0⟩

variable (s : Storage)

def setConfig (config : GovernanceConfig) : Storage := { s with config := some config }

def setProposalCounter (id : Nat) : Storage := { s with proposalCounter := id }

/-- Every write of a proposal adds its id to the list, also that of a proposal already there. -/
def setProposal (id : Nat) (proposal : Proposal) : Storage :=
  { s with
    proposal := Function.update s.proposal id (some proposal)
    proposalIds := s.proposalIds ++ [id] }

def setVotes (id : Nat) (votes : List Vote) : Storage :=
  { s with votes := Function.update s.votes id votes }

def setDelegate (delegator delegate : Address) : Storage :=
  { s with delegation := Function.update s.delegation delegator (some delegate) }

def setUserReputation (user : Address) (resolvedCalls : Nat) (totalStaked : Int) : Storage :=
  { s with userReputation := Function.update s.userReputation user (resolvedCalls, totalStaked) }

def setTreasury (config : TreasuryConfig) : Storage := { s with treasurySettings := some config }

def setBalance (token : Address) (bucket : Bucket) (amount : Int) : Storage :=
  { s with
    balance := Function.update s.balance token (Function.update (s.balance token) bucket amount) }

def setBurned (token : Address) (amount : Int) : Storage :=
  { s with burned := Function.update s.burned token amount }

end Storage

/-- A computation of an entry point. -/
abbrev Gov (P α : Type) := Contract (Frame Storage P Event) GovernanceError α

def bpsDenom : Int := 10000

def defaultSplit : List Nat := [5000, 2500, 1500, 1000]

/-- The four parts of a fee. -/
structure Parts where
  treasury : Int
  creators : Int
  buyback : Int
  burn : Int
  deriving DecidableEq

section Treasury

variable {P : Type}

/-- The sum of the basis points, if it is a `u32`. -/
def splitSum : Nat → List Nat → Option Nat
  | sum, [] => some sum
  | sum, b :: rest => if sum + b < 2 ^ 32 then splitSum (sum + b) rest else none

def validateSplit (bps : List Nat) : Gov P Unit := do
  rejectIf (bps.length ≠ 4) (.error .invalidSplit)
  let sum ← unwrap (splitSum 0 bps) (.error .invalidSplit)
  rejectIf ((sum : Int) ≠ bpsDenom) (.error .invalidSplit)

/-- A bucket's part of an amount, rounded down. -/
def part (amount : Int) (bps : List Nat) (i : Nat) : Gov P Int := do
  let scaled ← unwrap (checkedMul amount (bps[i]?.getD 0 : Nat)) (.error .invalidAmount)
  pure (scaled.tdiv bpsDenom)

/-- Split an amount. The treasury takes what the other parts leave. -/
def splitAmount (amount : Int) (bps : List Nat) : Gov P Parts := do
  let creators ← part amount bps 1
  let buyback ← part amount bps 2
  let burn ← part amount bps 3
  let rest ← i128 (amount - creators)
  let rest ← i128 (rest - buyback)
  let treasury ← i128 (rest - burn)
  pure ⟨treasury, creators, buyback, burn⟩

/-- The approvers without repetitions. -/
def distinct (approvers : List Address) : List Address :=
  approvers.foldl (fun seen a => if a ∈ seen then seen else seen ++ [a]) []

/-- `require_auth` of each address. -/
def requireEach : List Address → Gov P Unit
  | [] => pure ()
  | a :: rest => do
      requireAuth a
      requireEach rest

/-- Require that at least the threshold of distinct signers are among the approvers, and that all
approvers have authorised the call. -/
def requireSigners (config : TreasuryConfig) (approvers : List Address) : Gov P Unit := do
  rejectIf (∃ a ∈ approvers, a ∉ config.signers) (.error .unauthorized)
  let seen := distinct approvers
  rejectIf (seen.length < config.threshold) (.error .notEnoughSigners)
  requireEach seen

/-- Add parts of a fee to buckets. -/
def addToBuckets (token : Address) : List (Bucket × Int) → Gov P Unit
  | [] => pure ()
  | (bucket, amount) :: rest => do
      let held ← i128 ((← getStore).balance token bucket + amount)
      modifyStore (·.setBalance token bucket held)
      addToBuckets token rest

def addBurned (token : Address) (amount : Int) : Gov P Unit := do
  let total ← i128 ((← getStore).burned token + amount)
  modifyStore (·.setBurned token total)

variable [Targets P]

/-- `token.burn(holder, amount)`. -/
def tokenBurn (token holder : Address) (amount : Int) : Gov P Unit := fun env f =>
  match Targets.burn env token holder amount f.tokens with
  | some peers => .ok ((), { f with tokens := peers })
  | none => .error .external

/-- `env.invoke_contract(target, function_name, [])`. -/
def invokeContract (target : Address) (functionName : String) : Gov P Unit := fun env f =>
  match Targets.invoke env target functionName f.tokens with
  | some peers => .ok ((), { f with tokens := peers })
  | none => .error .external

end Treasury

end Backit.Governance
