import Backit.Soroban.Bytes
import Backit.Soroban.Int128

/-!
# The crate the contracts share

The outcome values, the fee bound, and the message an oracle signs. The message determines the
report it was built from.
-/

namespace Backit.Shared

open Soroban

def outcomeUp : Nat := 1

def outcomeDown : Nat := 2

/-- `MAX_FEE_BPS`: a fee of 100 percent. -/
def maxFeeBps : Nat := 10000

def isValidFeeBps (feeBps : Nat) : Bool := feeBps ≤ maxFeeBps

def isValidOutcome (outcome : Nat) : Bool := outcome == outcomeUp || outcome == outcomeDown

def messagePrefix : Bytes :=
  ascii ['B', 'A', 'C', 'K', 'i', 't', ':', 'O', 'u', 't', 'c', 'o', 'm', 'e', ':']

/-- The message an oracle signs: the prefix and the big-endian fields, separated by colons. -/
def buildMessage (callId outcome : Nat) (price : Int) (timestamp : Nat) : Bytes :=
  messagePrefix ++ beBytes 8 callId ++ ascii [':'] ++
    (if outcome = outcomeUp then ascii ['1'] else ascii ['2']) ++ ascii [':'] ++
      i128Bytes price ++ ascii [':'] ++ beBytes 8 timestamp

theorem is_valid_outcome_iff {outcome : Nat} :
    isValidOutcome outcome = true ↔ outcome = outcomeUp ∨ outcome = outcomeDown := by
  simp [isValidOutcome]

/-- The two's complement encoding of an `i128` determines it. -/
theorem i128_bytes_injective {x y : Int} (hx : InI128 x) (hy : InI128 y)
    (h : i128Bytes x = i128Bytes y) : x = y := by
  have hmod : (x % 2 ^ 128).toNat = (y % 2 ^ 128).toNat := by
    refine beBytes_injective ?_ ?_ h
    all_goals omega
  simp only [InI128, i128Min, i128Max] at hx hy
  omega

/-- The message determines the call, the outcome, the price and the timestamp. -/
theorem build_message_injective {callId callId' outcome outcome' : Nat} {price price' : Int}
    {timestamp timestamp' : Nat} (hcall : callId < 2 ^ 64) (hcall' : callId' < 2 ^ 64)
    (hvalid : isValidOutcome outcome = true) (hvalid' : isValidOutcome outcome' = true)
    (hprice : InI128 price) (hprice' : InI128 price') (htime : timestamp < 2 ^ 64)
    (htime' : timestamp' < 2 ^ 64) (h : buildMessage callId outcome price timestamp =
      buildMessage callId' outcome' price' timestamp') :
    callId = callId' ∧ outcome = outcome' ∧ price = price' ∧ timestamp = timestamp' := by
  have hbyte : ∀ o : Nat, (if o = outcomeUp then ascii ['1'] else ascii ['2']).length = 1 := by
    intro o
    split <;> rfl
  -- Every field but the last has a fixed width, so the fields split off from the right.
  obtain ⟨h, hts⟩ := List.append_inj h (by simp [hbyte])
  obtain ⟨h, -⟩ := List.append_inj h (by simp [hbyte])
  obtain ⟨h, hpr⟩ := List.append_inj h (by simp [hbyte])
  obtain ⟨h, -⟩ := List.append_inj h (by simp [hbyte])
  obtain ⟨h, hout⟩ := List.append_inj h (by simp)
  obtain ⟨h, -⟩ := List.append_inj h (by simp)
  obtain ⟨-, hid⟩ := List.append_inj h rfl
  refine ⟨beBytes_injective (by simpa using hcall) (by simpa using hcall') hid, ?_,
    i128_bytes_injective hprice hprice' hpr,
    beBytes_injective (by simpa using htime) (by simpa using htime') hts⟩
  rcases is_valid_outcome_iff.mp hvalid with rfl | rfl <;>
    rcases is_valid_outcome_iff.mp hvalid' with rfl | rfl
  · rfl
  · exact absurd hout (by decide)
  · exact absurd hout (by decide)
  · rfl

end Backit.Shared
