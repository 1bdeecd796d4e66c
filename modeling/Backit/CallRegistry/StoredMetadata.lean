import Backit.CallRegistry.Executions
import Backit.Lib.Base64
import Backit.Lib.Digits

/-!
# Reading the data entries of a call back

The encoder writes into a buffer of 128 characters, which hold 96 bytes. What is longer is cut off
there without an error, so the text under a call's CID key decodes to the CID exactly when the CID
has at most 96 bytes. The metadata hash always fits.
-/

namespace Backit.CallRegistry

open Soroban Contract Lib

/-- The characters of the encoder are those of the standard alphabet. -/
theorem base64Char_eq {n : Nat} (h : n < 64) : base64Char n = Base64.symbol n := by
  have hall : ∀ n < 64, base64Char n = Base64.symbol n := by decide +kernel
  exact hall n h

theorem base64_group_eq (n : Nat) : base64Group n =
    [Base64.symbol (n / 2 ^ 18 % 64), Base64.symbol (n / 2 ^ 12 % 64),
      Base64.symbol (n / 2 ^ 6 % 64), Base64.symbol (n % 64)] := by
  unfold base64Group
  rw [base64Char_eq (by omega), base64Char_eq (by omega), base64Char_eq (by omega),
    base64Char_eq (by omega)]

theorem three_bytes_eq (b0 b1 b2 : UInt8) :
    Base64.threeBytes ((b0.toNat * 2 ^ 16 + b1.toNat * 2 ^ 8 + b2.toNat) / 2 ^ 18 % 64)
      ((b0.toNat * 2 ^ 16 + b1.toNat * 2 ^ 8 + b2.toNat) / 2 ^ 12 % 64)
      ((b0.toNat * 2 ^ 16 + b1.toNat * 2 ^ 8 + b2.toNat) / 2 ^ 6 % 64)
      ((b0.toNat * 2 ^ 16 + b1.toNat * 2 ^ 8 + b2.toNat) % 64) = [b0, b1, b2] := by
  have h0 := b0.toNat_lt_size
  have h1 := b1.toNat_lt_size
  have h2 := b2.toNat_lt_size
  simp only [UInt8.size] at h0 h1 h2
  have hbyte : ∀ (x : Nat) (b : UInt8), x = b.toNat → UInt8.ofNat x = b := by
    rintro _ b rfl
    exact UInt8.ofNat_toNat
  unfold Base64.threeBytes
  rw [hbyte _ b0 (by omega), hbyte _ b1 (by omega), hbyte _ b2 (by omega)]

/-- What the encoder writes into the places left of its buffer decodes to as many of the bytes as
these hold. -/
theorem decode_encodeBase64From (groups outIdx : Nat) (hroom : outIdx + 4 * groups = 128)
    (input : Bytes) :
    Base64.decode (encodeBase64From outIdx input) = some (input.take (3 * groups)) := by
  induction groups generalizing outIdx input with
  | zero =>
    obtain rfl : outIdx = 128 := by omega
    match input with
    | [] => rfl
    | [b0] => rfl
    | [b0, b1] => rfl
    | b0 :: b1 :: b2 :: rest => rfl
  | succ groups ih =>
    match input with
    | [] => rfl
    | [b0] =>
      have h0 := b0.toNat_lt_size
      simp only [UInt8.size] at h0
      rw [encodeBase64From, if_pos (by omega), base64_group_eq]
      refine (Base64.decode_one (by omega) (by omega) (by omega)).trans ?_
      have hbyte : b0.toNat * 2 ^ 16 / 2 ^ 18 % 64 * 4 + b0.toNat * 2 ^ 16 / 2 ^ 12 % 64 / 16 =
          b0.toNat := by omega
      rw [hbyte, UInt8.ofNat_toNat, List.take_of_length_le (by simp; omega)]
    | [b0, b1] =>
      have h0 := b0.toNat_lt_size
      have h1 := b1.toNat_lt_size
      simp only [UInt8.size] at h0 h1
      rw [encodeBase64From, if_pos (by omega), base64_group_eq]
      refine (Base64.decode_two (by omega) (by omega) (by omega) (by omega)).trans ?_
      have hfirst : (b0.toNat * 2 ^ 16 + b1.toNat * 2 ^ 8) / 2 ^ 18 % 64 * 4 +
          (b0.toNat * 2 ^ 16 + b1.toNat * 2 ^ 8) / 2 ^ 12 % 64 / 16 = b0.toNat := by omega
      have hsecond : (b0.toNat * 2 ^ 16 + b1.toNat * 2 ^ 8) / 2 ^ 12 % 64 % 16 * 16 +
          (b0.toNat * 2 ^ 16 + b1.toNat * 2 ^ 8) / 2 ^ 6 % 64 / 4 = b1.toNat := by omega
      rw [hfirst, hsecond, UInt8.ofNat_toNat, UInt8.ofNat_toNat,
        List.take_of_length_le (by simp; omega)]
    | b0 :: b1 :: b2 :: rest =>
      rw [encodeBase64From, if_neg (by omega), base64_group_eq, List.cons_append,
        List.cons_append, List.cons_append, List.cons_append, List.nil_append,
        Base64.decode_group (by omega) (by omega) (by omega) (by omega),
        ih (outIdx + 4) (by omega), three_bytes_eq]
      rfl

theorem decode_encodeBase64 (input : Bytes) :
    Base64.decode (encodeBase64 input) = some (input.take 96) :=
  decode_encodeBase64From 32 0 rfl input

theorem decode_encodeBase64_iff {input : Bytes} :
    Base64.decode (encodeBase64 input) = some input ↔ input.length ≤ 96 := by
  rw [decode_encodeBase64, Option.some.injEq]
  exact List.take_eq_self_iff _

/-- The digits are those of the printed number. -/
theorem digits_eq {room temp : Nat} (hpos : 0 < temp) (h : temp < 10 ^ room) :
    (digits room temp).map List.reverse = some (ascii (Nat.toDigits 10 temp)) := by
  induction room generalizing temp with
  | zero => omega
  | succ room ih =>
    have hdigit : (Nat.digitChar (temp % 10)).toNat = 48 + temp % 10 :=
      Nat.toNat_digitChar_of_lt_ten (Nat.mod_lt _ (by decide))
    rw [digits, if_neg hpos.ne', Option.map_map]
    rcases Nat.lt_or_ge temp 10 with hlt | hge
    · have hrest : digits room (temp / 10) = some [] := by
        rw [Nat.div_eq_of_lt hlt]
        cases room <;> rfl
      rw [Nat.mod_eq_of_lt hlt] at hdigit
      simp [hrest, Nat.toDigits_of_lt_base hlt, ascii, hdigit, Nat.mod_eq_of_lt hlt]
    · obtain ⟨number, hnumber, hreverse⟩ := Option.map_eq_some_iff.mp
        (@ih (temp / 10) (by omega) (by rw [pow_succ] at h; omega))
      rw [Nat.toDigits_of_base_le (by decide) hge, hnumber, ascii, List.map_append]
      simp only [Option.map_some, Function.comp_apply, List.reverse_cons, hreverse, ascii,
        List.map_cons, hdigit, List.map_nil]

/-- The key of every call number fits: the prefix, the printed number and the suffix. -/
theorem format_key_eq {id : Nat} {suffix : Bytes} (h : id < 2 ^ 64) (hsuffix : suffix.length ≤ 5) :
    formatKey keyPrefix id suffix = some (keyPrefix ++ ascii (Nat.toDigits 10 id) ++ suffix) ∧
      (keyPrefix ++ ascii (Nat.toDigits 10 id) ++ suffix).length ≤ 64 := by
  have hlength : (Nat.toDigits 10 id).length ≤ 20 :=
    (Nat.length_toDigits_le_iff (by decide) (by decide)).mpr (by omega)
  have hbefore : keyPrefix.length = 5 := rfl
  have hfits : (keyPrefix ++ ascii (Nat.toDigits 10 id) ++ suffix).length ≤ 64 := by
    simp only [List.length_append, ascii, List.length_map]
    omega
  refine ⟨?_, hfits⟩
  rcases Nat.eq_zero_or_pos id with rfl | hpos
  · exact if_pos hfits
  · rw [formatKey, if_neg hpos.ne', digits_eq hpos (by omega)]
    exact if_pos hfits

/-- What is before an underscore in the number and a suffix is the number. -/
theorem takeWhile_number (id : Nat) {suffix : Bytes} (h : suffix ∈ [cidSuffix, hashSuffix]) :
    (ascii (Nat.toDigits 10 id) ++ suffix).takeWhile (· ≠ 95) = ascii (Nat.toDigits 10 id) := by
  have hdigits : ∀ b ∈ ascii (Nat.toDigits 10 id), decide (b ≠ 95) = true := by
    intro b hb
    obtain ⟨c, hc, rfl⟩ := List.mem_map.mp hb
    obtain ⟨hlow, hhigh⟩ := digit_bounds (allDigits_toDigits id c hc)
    rw [decide_eq_true_eq]
    intro heq
    have hnat := congrArg UInt8.toNat heq
    rw [UInt8.toNat_ofNat', Nat.mod_eq_of_lt (by omega)] at hnat
    simp at hnat
    omega
  have hsuffix : suffix.takeWhile (· ≠ 95) = [] := by
    rcases List.mem_cons.mp h with rfl | h
    · decide
    · rw [List.mem_singleton.mp h]
      decide
  rw [List.takeWhile_append_of_pos hdigits, hsuffix, List.append_nil]

theorem number_injective {id id' : Nat}
    (h : ascii (Nat.toDigits 10 id) = ascii (Nat.toDigits 10 id')) : id = id' := by
  have hread : ∀ n, (ascii (Nat.toDigits 10 n)).map (fun b => Char.ofNat b.toNat) =
      Nat.toDigits 10 n := by
    intro n
    rw [ascii, List.map_map]
    refine (List.map_congr_left fun c hc => ?_).trans (List.map_id _)
    have hhigh := (digit_bounds (allDigits_toDigits n c hc)).2
    rw [Function.comp_apply, UInt8.toNat_ofNat', Nat.mod_eq_of_lt (by omega), Char.ofNat_toNat]
    rfl
  have hdigits := congrArg (List.map fun b => Char.ofNat b.toNat) h
  rw [hread, hread] at hdigits
  rw [← Nat.ofDigitChars_ten_toDigits (n := id), hdigits, Nat.ofDigitChars_ten_toDigits]

/-- Every call has its two keys, which no other call has. -/
theorem metadata_keys_distinct : (∀ id < 2 ^ 64, ∀ suffix ∈ [cidSuffix, hashSuffix],
      formatKey keyPrefix id suffix = some (keyPrefix ++ ascii (Nat.toDigits 10 id) ++ suffix) ∧
        (keyPrefix ++ ascii (Nat.toDigits 10 id) ++ suffix).length ≤ 64) ∧
      ∀ id < 2 ^ 64, ∀ id' < 2 ^ 64, ∀ suffix ∈ [cidSuffix, hashSuffix],
        ∀ suffix' ∈ [cidSuffix, hashSuffix],
        formatKey keyPrefix id suffix = formatKey keyPrefix id' suffix' →
          id = id' ∧ suffix = suffix' := by
  have hlength : ∀ suffix ∈ [cidSuffix, hashSuffix], suffix.length ≤ 5 := by decide
  refine ⟨fun id hid suffix hsuffix => format_key_eq hid (hlength suffix hsuffix), ?_⟩
  intro id hid id' hid' suffix hsuffix suffix' hsuffix' h
  rw [(format_key_eq hid (hlength _ hsuffix)).1, (format_key_eq hid' (hlength _ hsuffix')).1,
    Option.some.injEq, List.append_assoc, List.append_assoc, List.append_cancel_left_eq] at h
  have hnumber := congrArg (List.takeWhile (· ≠ 95)) h
  rw [takeWhile_number id hsuffix, takeWhile_number id' hsuffix'] at hnumber
  rw [hnumber, List.append_cancel_left_eq] at h
  exact ⟨number_injective hnumber, h⟩

section Entries

variable {T : Type} {env : Env} {f f' : Frame Storage T Event}

/-- The text under a call's key decodes to the given bytes. -/
def Storage.EntryDecodes (s : Storage) (callId : Nat) (suffix original : Bytes) : Prop :=
  ∃ key text, formatKey keyPrefix callId suffix = some key ∧
    s.profiles.dataEntries key = some text ∧ Base64.decode text = some original

/-- A key is the prefix, a number that depends on the call alone, and the suffix. -/
theorem format_key_number (before : Bytes) (id : Nat) :
    ∃ number, ∀ {suffix key : Bytes}, formatKey before id suffix = some key →
      key = before ++ number ++ suffix := by
  rcases eq_or_ne id 0 with rfl | hid
  · refine ⟨[48], fun {suffix key} h => ?_⟩
    simp [formatKey] at h
    simp [h.2]
  · cases hdigits : digits 20 id with
    | none => exact ⟨[], fun h => by simp [formatKey, hid, hdigits] at h⟩
    | some number =>
      refine ⟨number.reverse, fun {suffix key} h => ?_⟩
      simp [formatKey, hid, hdigits] at h
      simp [h.2]

theorem entry_keys_ne {callId : Nat} {keyCid keyHash : Bytes}
    (hcid : formatKey keyPrefix callId cidSuffix = some keyCid)
    (hhash : formatKey keyPrefix callId hashSuffix = some keyHash) : keyCid ≠ keyHash := by
  obtain ⟨number, hnumber⟩ := format_key_number keyPrefix callId
  rw [hnumber hcid, hnumber hhash, Ne, List.append_cancel_left_eq]
  decide

/-- Writing the data entries leaves the encoded CID and the encoded hash under the keys. -/
theorem run_write_data_entries {callId : Nat} {args : CallInitArgs} {u : Unit}
    (h : run (writeDataEntries callId args) env f = .ok (u, f')) :
    ∃ keyCid keyHash, formatKey keyPrefix callId cidSuffix = some keyCid ∧
      formatKey keyPrefix callId hashSuffix = some keyHash ∧
      f'.store.profiles.dataEntries keyCid = some (encodeBase64 args.ipfsCid) ∧
      f'.store.profiles.dataEntries keyHash = some (encodeBase64 args.metadataHash.bytes) := by
  simp only [writeDataEntries, run_steps] at h
  obtain ⟨keyCid, hcid, keyHash, hhash, rfl⟩ := h
  refine ⟨keyCid, keyHash, hcid, hhash, ?_, ?_⟩
  · show Function.update (Function.update _ keyCid _) keyHash _ keyCid = _
    rw [Function.update_of_ne (entry_keys_ne hcid hhash), Function.update_self]
  · show Function.update _ keyHash _ keyHash = _
    rw [Function.update_self]

theorem create_call_entries [Tokens T] [Crypto] {creator : Address} {args : CallInitArgs}
    {call : Call} (h : run (createCall creator args) env f = .ok (call, f')) :
    ∃ keyCid keyHash, formatKey keyPrefix call.id cidSuffix = some keyCid ∧
      formatKey keyPrefix call.id hashSuffix = some keyHash ∧
      f'.store.profiles.dataEntries keyCid = some (encodeBase64 args.ipfsCid) ∧
      f'.store.profiles.dataEntries keyHash = some (encodeBase64 args.metadataHash.bytes) := by
  simp only [createCall, run_steps, run_reentrancyGuard_bind, run_requireConfig_bind,
    assertDurationWithinLimit, Contract.bind_assoc, nextCallId] at h
  obtain ⟨-, -, _, -, -, -, -, -, -, -, -, _, -, -, -, h⟩ := h
  rw [run_bind] at h
  obtain ⟨shareTokens, f₁, -, h⟩ := h
  simp only [run_modifyStore_bind] at h
  rw [run_bind] at h
  obtain ⟨_, f₂, -, h⟩ := h
  rw [run_bind] at h
  obtain ⟨_, f₃, -, h⟩ := h
  rw [run_bind] at h
  obtain ⟨_, f₄, -, h⟩ := h
  simp only [run_publish_bind] at h
  rw [run_bind] at h
  obtain ⟨_, f₅, hentries, h⟩ := h
  simp only [run_releaseLock_bind, run_pure, Except.ok.injEq, Prod.mk.injEq] at h
  obtain ⟨rfl, rfl⟩ := h
  obtain ⟨keyCid, keyHash, hcid, hhash, hentry, hentry'⟩ := run_write_data_entries hentries
  exact ⟨keyCid, keyHash, hcid, hhash, hentry, hentry'⟩

/-- The text under a call's key decodes to what was encoded exactly when it fits the buffer. -/
theorem entry_decodes_iff {s : Storage} {callId : Nat} {suffix key original : Bytes}
    (hkey : formatKey keyPrefix callId suffix = some key)
    (hentry : s.profiles.dataEntries key = some (encodeBase64 original)) :
    s.EntryDecodes callId suffix original ↔ original.length ≤ 96 := by
  rw [← decode_encodeBase64_iff]
  constructor
  · rintro ⟨key', text, hkey', hentry', hdecodes⟩
    obtain rfl := Option.some.inj (hkey'.symm.trans hkey)
    obtain rfl := Option.some.inj (hentry'.symm.trans hentry)
    exact hdecodes
  · exact fun hdecodes => ⟨key, _, hkey, hentry, hdecodes⟩

section Created

variable [Tokens T] [Crypto] {creator : Address} {args : CallInitArgs} {call : Call}

/-- The CID of a created call can be read back exactly when it fits the buffer. -/
theorem created_cid_decodes_iff (h : run (createCall creator args) env f = .ok (call, f')) :
    f'.store.EntryDecodes call.id cidSuffix args.ipfsCid ↔ args.ipfsCid.length ≤ 96 := by
  obtain ⟨keyCid, -, hcid, -, hentry, -⟩ := create_call_entries h
  exact entry_decodes_iff hcid hentry

/-- The metadata hash of a created call can always be read back. -/
theorem created_hash_decodes (h : run (createCall creator args) env f = .ok (call, f')) :
    f'.store.EntryDecodes call.id hashSuffix args.metadataHash.bytes := by
  obtain ⟨-, keyHash, -, hhash, -, hentry⟩ := create_call_entries h
  rw [entry_decodes_iff hhash hentry, args.metadataHash.size_eq]
  decide

/-- What a call's creation leaves under its keys decodes to the CID and the metadata hash exactly
when the CID has at most 96 bytes. -/
theorem stored_metadata_decodes_iff
    (h : run (createCall creator args) env f = .ok (call, f')) :
    (f'.store.EntryDecodes call.id cidSuffix args.ipfsCid ∧
      f'.store.EntryDecodes call.id hashSuffix args.metadataHash.bytes) ↔
      args.ipfsCid.length ≤ 96 :=
  (and_iff_left (created_hash_decodes h)).trans (created_cid_decodes_iff h)

end Created

end Entries

section Scenario

theorem eq_ok_of_toOption {α ε : Type} {x : Except ε α} (h : x.toOption.isSome = true) :
    x = .ok (x.toOption.get h) := by
  cases x with
  | error e => cases h
  | ok a => rfl

attribute [local instance] noCrypto

def openingRun : Replayed (T := StandardLedger) home anything :=
  .of freshWorld fresh_world_empty openingScript (by decide +kernel)

/-- Alice creates a call after the opening. -/
def creation (args : CallInitArgs) :
    Except (Failure CallRegistryError) (Call × Frame Storage StandardLedger Event) :=
  run (createCall alice args) ⟨home, 4, 4, [alice]⟩ openingRun.world.frame

/-- The arguments of a call with a CID of the given length. -/
def callWithCid (length : Nat) : CallInitArgs :=
  { sampleCall with ipfsCid := List.replicate length 65 }

theorem full_creation_succeeds : (creation (callWithCid 96)).toOption.isSome = true := by
  decide +kernel

theorem long_creation_succeeds : (creation (callWithCid 97)).toOption.isSome = true := by
  decide +kernel

/-- A CID as long as the buffer holds. -/
def fullCreation : Call × Frame Storage StandardLedger Event :=
  (creation (callWithCid 96)).toOption.get full_creation_succeeds

theorem full_cid_decodes :
    fullCreation.2.store.EntryDecodes fullCreation.1.id cidSuffix (List.replicate 96 65) ∧
      fullCreation.2.store.EntryDecodes fullCreation.1.id hashSuffix zeroHash.bytes :=
  (stored_metadata_decodes_iff (eq_ok_of_toOption full_creation_succeeds)).mpr (by decide)

/-- A CID that is one byte longer. -/
def longCreation : Call × Frame Storage StandardLedger Event :=
  (creation (callWithCid 97)).toOption.get long_creation_succeeds

/-- The call is created, and the text under its key does not decode to its CID. -/
theorem long_cid_cut_off :
    (registry home fun _ _ => False).Run openingRun.history openingRun.world ∧
      creation (callWithCid 97) = .ok longCreation ∧
      ¬ longCreation.2.store.EntryDecodes longCreation.1.id cidSuffix (List.replicate 97 65) := by
  have hcreated : creation (callWithCid 97) = .ok longCreation :=
    eq_ok_of_toOption long_creation_succeeds
  refine ⟨openingRun.run anything_allowed, hcreated, fun hdecodes => ?_⟩
  exact absurd ((created_cid_decodes_iff hcreated).mp hdecodes) (by decide)

end Scenario

end Backit.CallRegistry
