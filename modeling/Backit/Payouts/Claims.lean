import Mathlib.Logic.Function.Basic

/-!
# Payout claims

The table of payout claims has at most one row for a call and a staker.
-/

namespace Backit.Payouts

inductive PayoutClaimStatus where
  | pending
  | claimed
  | failed
  deriving DecidableEq

structure PayoutClaim where
  amount : String
  txHash : Option String
  claimedAt : Option Nat
  status : PayoutClaimStatus
  deriving DecidableEq

/-- The claims by call and staker. -/
abbrev ClaimTable := String × String → Option PayoutClaim

/-- A claim that is made for an event. -/
def newClaim : PayoutClaim := ⟨"0", none, none, .pending⟩

/-- A claim that is claimed, by a transaction. -/
def PayoutClaim.claim (now : Nat) (txHash : String) (claim : PayoutClaim) : PayoutClaim :=
  { claim with txHash := some txHash, claimedAt := some now, status := .claimed }

def markClaimed (now : Nat) (callId stakerAddress txHash : String) (claims : ClaimTable) :
    ClaimTable :=
  let existing := claims (callId, stakerAddress)
  Function.update claims (callId, stakerAddress)
    (some ((existing.getD newClaim).claim now txHash))

end Backit.Payouts
