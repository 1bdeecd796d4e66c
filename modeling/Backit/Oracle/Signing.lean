import Backit.Shared

/-!
# The oracle service's signatures

The message the backend signs for an outcome, and when it is the message the contract verifies.
-/

namespace Backit.Oracle

open Soroban Shared

/-- The outcome words of the service. -/
inductive Outcome
  | yes
  | no
  deriving DecidableEq

/-- The contract's outcome of a word. -/
def Outcome.contractOutcome : Outcome → Nat
  | .yes => outcomeUp
  | .no => outcomeDown

/-- What `signOutcome` is given, with the price already scaled to an integer. -/
@[ext] structure OutcomeData where
  callId : Nat
  scaledPrice : Int
  timestamp : Nat
  outcome : Outcome
  deriving DecidableEq

/-- A buffer write of a value outside the buffer's range. -/
structure RangeError where
  value : Int
  deriving DecidableEq

def writeBigUInt64BE (value : Nat) : Except RangeError Bytes :=
  if value < 2 ^ 64 then .ok (beBytes 8 value) else .error ⟨value⟩

def writeBigInt64BE (value : Int) : Except RangeError Bytes :=
  if -2 ^ 63 ≤ value ∧ value < 2 ^ 63 then .ok (beBytes 8 (value % 2 ^ 64).toNat)
  else .error ⟨value⟩

def outcomeBit : Outcome → Bytes
  | .yes => ascii ['1']
  | .no => ascii ['0']

/-- The bytes `signOutcome` signs. The price is written into the low half of sixteen zero bytes. -/
def outcomeMessage (data : OutcomeData) : Except RangeError Bytes := do
  let callIdBytes ← writeBigUInt64BE data.callId
  let priceLow ← writeBigInt64BE data.scaledPrice
  let priceBytes := List.replicate 8 0 ++ priceLow
  let timestampBytes ← writeBigUInt64BE data.timestamp
  return messagePrefix ++ callIdBytes ++ ascii [':'] ++ outcomeBit data.outcome ++ ascii [':'] ++
    priceBytes ++ ascii [':'] ++ timestampBytes

/-- What the health log keeps of a signature. -/
structure SignOperation (Key : Type*) where
  oracleKey : Key
  callId : Nat
  success : Bool
  errorMessage : Option RangeError

/-- The service's key pair. -/
structure Keypair (Key Signature : Type*) where
  publicKey : Key
  sign : Bytes → Signature

def signOutcome {Key Signature : Type*} (oracleKeypair : Keypair Key Signature)
    (data : OutcomeData) : SignOperation Key × Except RangeError Signature :=
  match outcomeMessage data with
  | .ok message =>
    (⟨oracleKeypair.publicKey, data.callId, true, none⟩, .ok (oracleKeypair.sign message))
  | .error error => (⟨oracleKeypair.publicKey, data.callId, false, some error⟩, .error error)

@[simp] theorem length_outcomeBit (outcome : Outcome) : (outcomeBit outcome).length = 1 := by
  cases outcome <;> rfl

/-- The price field agrees with the contract's where the price is not negative. -/
theorem price_bytes_eq_iff {price : Int} (hlow : -2 ^ 63 ≤ price) (hhigh : price < 2 ^ 63) :
    List.replicate 8 0 ++ beBytes 8 (price % 2 ^ 64).toNat = i128Bytes price ↔ 0 ≤ price := by
  have hsplit := beBytes_add 8 8 (price % 2 ^ 128).toNat
  have htop : (price % 2 ^ 128).toNat / 256 ^ 8 < 256 ^ 8 := by omega
  rw [i128Bytes, hsplit, ← beBytes_zero]
  constructor
  · intro h
    have hzero := beBytes_injective (by decide) htop (List.append_inj h (by simp)).1
    omega
  · intro hprice
    have hzero : (price % 2 ^ 128).toNat / 256 ^ 8 = 0 := by omega
    have hvalue : (price % 2 ^ 64).toNat = (price % 2 ^ 128).toNat := by omega
    rw [hzero, hvalue]

section Messages

variable {data other : OutcomeData} {message : Bytes}

/-- What a signed message is, and which values are signed at all. -/
theorem outcome_message_ok : outcomeMessage data = .ok message ↔
    data.callId < 2 ^ 64 ∧ (-2 ^ 63 ≤ data.scaledPrice ∧ data.scaledPrice < 2 ^ 63) ∧
      data.timestamp < 2 ^ 64 ∧
      messagePrefix ++ beBytes 8 data.callId ++ ascii [':'] ++ outcomeBit data.outcome ++
        ascii [':'] ++ (List.replicate 8 0 ++ beBytes 8 (data.scaledPrice % 2 ^ 64).toNat) ++
        ascii [':'] ++ beBytes 8 data.timestamp = message := by
  simp only [outcomeMessage, writeBigUInt64BE, writeBigInt64BE]
  split
  · split
    · split <;> simp_all [bind, Except.bind, pure, Except.pure]
    · simp_all [bind, Except.bind]
  · simp_all [bind, Except.bind]

theorem fields_of_message {id id' bit bit' price price' time time' : Bytes}
    (hid : id.length = id'.length) (hbit : bit.length = bit'.length)
    (hprice : price.length = price'.length)
    (h : messagePrefix ++ id ++ ascii [':'] ++ bit ++ ascii [':'] ++ price ++ ascii [':'] ++ time =
      messagePrefix ++ id' ++ ascii [':'] ++ bit' ++ ascii [':'] ++ price' ++ ascii [':'] ++
        time') : id = id' ∧ bit = bit' ∧ price = price' ∧ time = time' := by
  obtain ⟨h, htime⟩ := List.append_inj h (by simp [hid, hbit, hprice])
  obtain ⟨h, -⟩ := List.append_inj h (by simp [hid, hbit, hprice])
  obtain ⟨h, hprice⟩ := List.append_inj h (by simp [hid, hbit])
  obtain ⟨h, -⟩ := List.append_inj h (by simp [hid, hbit])
  obtain ⟨h, hbit⟩ := List.append_inj h (by simp [hid])
  obtain ⟨h, -⟩ := List.append_inj h (by simp [hid])
  exact ⟨(List.append_inj h rfl).2, hbit, hprice, htime⟩

theorem outcome_bit_injective {outcome outcome' : Outcome}
    (h : outcomeBit outcome = outcomeBit outcome') : outcome = outcome' := by
  cases outcome <;> cases outcome'
  · rfl
  · exact absurd h (by decide)
  · exact absurd h (by decide)
  · rfl

/-- Whatever two decisions sign, the signed message determines the decision. -/
theorem outcome_message_injective (h : outcomeMessage data = .ok message)
    (hother : outcomeMessage other = .ok message) : other = data := by
  obtain ⟨hcall, hprice, htime, rfl⟩ := outcome_message_ok.mp h
  obtain ⟨hcall', hprice', htime', hmessage⟩ := outcome_message_ok.mp hother
  obtain ⟨hid, hbit, hvalue, hstamp⟩ := fields_of_message (by simp) (by simp) (by simp) hmessage
  have hscaled := beBytes_injective (by omega) (by omega) (List.append_inj hvalue rfl).2
  have hcalls := beBytes_injective (by simpa using hcall') (by simpa using hcall) hid
  have htimes := beBytes_injective (by simpa using htime') (by simpa using htime) hstamp
  have hprices : other.scaledPrice = data.scaledPrice := by omega
  exact OutcomeData.ext hcalls hprices htimes (outcome_bit_injective hbit)

/-- No outcome the contract accepts has the message of a NO. -/
theorem no_message_unverifiable (h : outcomeMessage data = .ok message)
    (hno : data.outcome = .no) (callId outcome : Nat) (price : Int) (timestamp : Nat) :
    message ≠ buildMessage callId outcome price timestamp := by
  rintro rfl
  obtain ⟨-, -, -, hmessage⟩ := outcome_message_ok.mp h
  have hlength : (if outcome = outcomeUp then ascii ['1'] else ascii ['2']).length = 1 := by
    split <;> rfl
  obtain ⟨-, hbit, -, -⟩ := fields_of_message (by simp) (by simp [hlength]) (by simp) hmessage
  rw [hno] at hbit
  split at hbit
  · exact absurd hbit (by decide)
  · exact absurd hbit (by decide)

end Messages

end Backit.Oracle
