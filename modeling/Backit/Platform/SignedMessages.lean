import Backit.CallRegistry.Admin
import Backit.OutcomeManager.Reports

/-!
# The messages that are signed

The contracts verify signatures of four kinds of messages: outcomes, start prices, observations of
a price and proofs of a home domain. Each kind starts with a tag of its own, and no tag is the
beginning of another, so the bytes tell the kind. Within a kind the bytes tell the fields.
-/

namespace Backit.Platform

open Soroban Shared OutcomeManager

/-- A message that a contract verifies a signature of. -/
inductive SignedMessage where
  | outcome (callId outcome : Nat) (price : Int) (timestamp : Nat)
  | startPrice (callId : Nat) (price : Int)
  | observation (callId : Nat) (observation : PriceObservation)
  | homeDomain (validUntil : Nat) (domain : Bytes)

/-- The kinds of signed messages. -/
inductive SignedKind where
  | outcome
  | startPrice
  | observation
  | homeDomain
  deriving DecidableEq

/-- What a message of the kind starts with. -/
def SignedKind.tag : SignedKind → Bytes
  | .outcome => messagePrefix
  | .startPrice => ascii ['s', 't', 'a', 'r', 't', '_', 'p', 'r', 'i', 'c', 'e', ':']
  | .observation => ascii ['t', 'w', 'a', 'p', '_', 'o', 'b', 's', ':']
  | .homeDomain => ascii ['B', 'A', 'C', 'K', 'i', 't', ':', 'S', 'E', 'P', '1', '0', ':']

namespace SignedMessage

def kind : SignedMessage → SignedKind
  | .outcome .. => .outcome
  | .startPrice .. => .startPrice
  | .observation .. => .observation
  | .homeDomain .. => .homeDomain

/-- The bytes that are signed. -/
def bytes : SignedMessage → Bytes
  | .outcome callId stated price timestamp => buildMessage callId stated price timestamp
  | .startPrice callId price => CallRegistry.buildStartPriceMessage callId price
  | .observation callId seen => observationMessage callId seen
  | .homeDomain validUntil domain => CallRegistry.buildSep10Message validUntil domain

/-- The fields are values of their types, and an outcome is one of the two. -/
def Valid : SignedMessage → Prop
  | .outcome callId stated price timestamp =>
    callId < 2 ^ 64 ∧ isValidOutcome stated = true ∧ InI128 price ∧ timestamp < 2 ^ 64
  | .startPrice callId price => callId < 2 ^ 64 ∧ InI128 price
  | .observation callId seen => callId < 2 ^ 64 ∧ InI128 seen.price ∧ seen.timestamp < 2 ^ 64
  | .homeDomain validUntil _ => validUntil < 2 ^ 32

theorem tag_starts (m : SignedMessage) : List.IsPrefix m.kind.tag m.bytes := by
  cases m with
  | outcome => simp [bytes, buildMessage, kind, SignedKind.tag, List.append_assoc]
  | startPrice => simp [bytes, CallRegistry.buildStartPriceMessage, kind, SignedKind.tag]
  | observation => simp [bytes, observationMessage, kind, SignedKind.tag]
  | homeDomain => simp [bytes, CallRegistry.buildSep10Message, kind, SignedKind.tag]

end SignedMessage

theorem SignedKind.tag_incomparable {k k' : SignedKind} (h : List.IsPrefix k.tag k'.tag) :
    k = k' := by
  cases k <;> cases k' <;> first | rfl | exact absurd h (by decide)

namespace SignedMessage

theorem kind_eq {m m' : SignedMessage} (h : m.bytes = m'.bytes) : m.kind = m'.kind := by
  obtain hleft | hright := List.prefix_or_prefix_of_prefix m.tag_starts (h ▸ m'.tag_starts)
  · exact SignedKind.tag_incomparable hleft
  · exact (SignedKind.tag_incomparable hright).symm

theorem start_price_injective {callId callId' : Nat} {price price' : Int}
    (hvalid : (startPrice callId price).Valid) (hvalid' : (startPrice callId' price').Valid)
    (h : (startPrice callId price).bytes = (startPrice callId' price').bytes) :
    callId = callId' ∧ price = price' := by
  obtain ⟨h, hprice⟩ := List.append_inj h (by simp)
  obtain ⟨-, hcall⟩ := List.append_inj h rfl
  exact ⟨beBytes_injective (by simpa using hvalid.1) (by simpa using hvalid'.1) hcall,
    i128_bytes_injective hvalid.2 hvalid'.2 hprice⟩

theorem observation_injective {callId callId' : Nat} {o o' : PriceObservation}
    (hvalid : (observation callId o).Valid) (hvalid' : (observation callId' o').Valid)
    (h : (observation callId o).bytes = (observation callId' o').bytes) :
    callId = callId' ∧ o = o' := by
  obtain ⟨hcall, hprice, htime⟩ := hvalid
  obtain ⟨hcall', hprice', htime'⟩ := hvalid'
  obtain ⟨h, hts⟩ := List.append_inj h (by simp)
  obtain ⟨h, hpr⟩ := List.append_inj h (by simp)
  obtain ⟨-, hid⟩ := List.append_inj h rfl
  have hprices := i128_bytes_injective hprice hprice' hpr
  have htimes := beBytes_injective (by simpa using htime) (by simpa using htime') hts
  obtain ⟨price, timestamp⟩ := o
  obtain ⟨price', timestamp'⟩ := o'
  subst hprices htimes
  exact ⟨beBytes_injective (by simpa using hcall) (by simpa using hcall') hid, rfl⟩

theorem home_domain_injective {validUntil validUntil' : Nat} {domain domain' : Bytes}
    (hvalid : validUntil < 2 ^ 32) (hvalid' : validUntil' < 2 ^ 32)
    (h : (homeDomain validUntil domain).bytes = (homeDomain validUntil' domain').bytes) :
    validUntil = validUntil' ∧ domain = domain' := by
  obtain ⟨h, hdomain⟩ := List.append_inj h (by simp)
  obtain ⟨h, -⟩ := List.append_inj h (by simp)
  obtain ⟨-, huntil⟩ := List.append_inj h rfl
  exact ⟨beBytes_injective (by simpa using hvalid) (by simpa using hvalid') huntil, hdomain⟩

theorem bytes_injective : Set.InjOn bytes {m | m.Valid} := by
  intro m hvalid m' hvalid' h
  have hkind := kind_eq h
  cases m <;> cases m' <;> cases hkind
  case outcome.outcome.refl =>
    obtain ⟨hcall, houtcome, hprice, htime⟩ := hvalid
    obtain ⟨hcall', houtcome', hprice', htime'⟩ := hvalid'
    obtain ⟨rfl, rfl, rfl, rfl⟩ := build_message_injective hcall hcall' houtcome houtcome' hprice
      hprice' htime htime' h
    rfl
  case startPrice.startPrice.refl =>
    obtain ⟨rfl, rfl⟩ := start_price_injective hvalid hvalid' h
    rfl
  case observation.observation.refl =>
    obtain ⟨rfl, rfl⟩ := observation_injective hvalid hvalid' h
    rfl
  case homeDomain.homeDomain.refl =>
    obtain ⟨rfl, rfl⟩ := home_domain_injective hvalid hvalid' h
    rfl

end SignedMessage

/-- The bytes of a valid message determine it, and the bytes of an outcome, valid or not, are those
of no message of another kind. -/
theorem outcome_messages_unambiguous : Set.InjOn SignedMessage.bytes {m | m.Valid} ∧
      ∀ (callId stated : Nat) (price : Int) (timestamp : Nat) (other : SignedMessage),
        other.kind ≠ .outcome → buildMessage callId stated price timestamp ≠ other.bytes := by
  refine ⟨SignedMessage.bytes_injective, fun callId stated price timestamp other hkind h => ?_⟩
  exact hkind (SignedMessage.kind_eq (m := .outcome callId stated price timestamp) h).symm

end Backit.Platform
