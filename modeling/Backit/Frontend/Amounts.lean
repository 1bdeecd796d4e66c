import Backit.Frontend.Portfolio
import Backit.Lib.Digits
import Mathlib.Data.Rat.Floor

/-!
# Amounts as texts

An accepted text is a decimal: a sign, digits and possibly decimals. Its stroops are its value times
the scale, truncated toward zero. A printed amount is parsed back exactly, and the text in the
amount field is the shortest that is.
-/

namespace Backit.Frontend

open Lib

/-- Stroops with all their decimals. -/
def fromStroops (stroops : Int) : String :=
  let abs := stroops.natAbs
  let whole := Nat.toDigits 10 (abs / scale)
  let fraction := paddedDigits assetDecimals (abs % scale)
  .ofList ((if stroops < 0 then ['-'] else []) ++ whole ++ '.' :: fraction)

def trimTrailingZeros (decimal : String) : String :=
  let text := decimal.toList
  if '.' ∈ text then
    let zeroless := withoutZeros text
    let trimmed := if zeroless.getLast? = some '.' then zeroless.dropLast else zeroless
    if trimmed = [] ∨ trimmed = ['-'] then "0" else .ofList trimmed
  else decimal

/-- The amount field's text of an amount. -/
def toAmountInputValue (stroops : Int) : String := trimTrailingZeros (fromStroops stroops)

/-- A sign, digits and decimals. -/
structure Decimal where
  negative : Bool
  whole : List Char
  fraction : List Char
  whole_ne_nil : whole ≠ []
  whole_digits : AllDigits whole
  fraction_digits : AllDigits fraction

/-- The decimals with the point in front. -/
def decimals (fraction : List Char) : List Char := if fraction = [] then [] else '.' :: fraction

theorem length_decimals (fraction : List Char) :
    (decimals fraction).length = if fraction = [] then 0 else fraction.length + 1 := by
  unfold decimals
  split <;> rfl

namespace Decimal

variable (d : Decimal)

def unsigned : List Char := d.whole ++ decimals d.fraction

def text : List Char := if d.negative then '-' :: d.unsigned else d.unsigned

/-- The number that the text denotes. -/
def value : ℚ :=
  (if d.negative then -1 else 1) *
    (digitsValue d.whole + digitsValue d.fraction / 10 ^ d.fraction.length)

/-- The first seven decimals. -/
def padded : List Char := (d.fraction ++ List.replicate assetDecimals '0').take assetDecimals

def magnitude : Nat := digitsValue d.whole * scale + digitsValue d.padded

def stroops : Int := if d.negative then -d.magnitude else d.magnitude

theorem unsigned_head : ∃ c, isAsciiDigit c = true ∧ d.unsigned.head? = some c := by
  obtain ⟨c, rest, hwhole⟩ := List.exists_cons_of_ne_nil d.whole_ne_nil
  refine ⟨c, d.whole_digits c (by rw [hwhole]; exact List.mem_cons_self), ?_⟩
  rw [unsigned, hwhole]
  rfl

theorem head_iff : d.text.head? = some '-' ↔ d.negative = true := by
  obtain ⟨c, hc, hhead⟩ := d.unsigned_head
  unfold text
  split
  · next h => simp [h]
  · next h =>
    rw [hhead, Option.some.injEq]
    exact iff_of_false (digit_ne hc (by decide)) h

theorem withoutSign_text : Frontend.withoutSign d.text = d.unsigned := by
  simp only [Frontend.withoutSign, head_iff]
  split
  · next h => simp [text, h]
  · next h => simp [text, h]

/-- What ends with the digits in front of the point. -/
theorem takeWhile_unsigned {p : Char → Bool} (hdigit : ∀ c, isAsciiDigit c = true → p c = true)
    (hpoint : p '.' = false) :
    d.unsigned.takeWhile p = d.whole ∧ d.unsigned.dropWhile p = decimals d.fraction := by
  have hall : ∀ c ∈ d.whole, p c = true := fun c hc => hdigit c (d.whole_digits c hc)
  rw [unsigned, List.takeWhile_append_of_pos hall, List.dropWhile_append_of_pos hall, decimals]
  split
  · exact ⟨List.append_nil _, rfl⟩
  · simp [hpoint]

theorem all_ne_point (c : Char) (hc : isAsciiDigit c = true) : decide (c ≠ '.') = true :=
  decide_eq_true (digit_ne hc (by decide))

theorem isDecimal_text : isDecimal d.text = true := by
  obtain ⟨hwhole, hrest⟩ := d.takeWhile_unsigned (fun _ h => h) (by decide)
  simp only [isDecimal, withoutSign_text, hwhole, hrest, decimals]
  have hdigits : d.fraction.all isAsciiDigit = true := List.all_eq_true.mpr d.fraction_digits
  split
  · next h => simp [d.whole_ne_nil]
  · next h => simp [d.whole_ne_nil, h, hdigits]

theorem mem_text {c : Char} (h : c ∈ d.text) : c = '-' ∨ c = '.' ∨ isAsciiDigit c = true := by
  have hunsigned : c ∈ d.unsigned → c = '.' ∨ isAsciiDigit c = true := by
    intro hc
    rcases List.mem_append.mp hc with hc | hc
    · exact .inr (d.whole_digits c hc)
    · unfold decimals at hc
      split at hc
      · cases hc
      · rcases List.mem_cons.mp hc with rfl | hc
        · exact .inl rfl
        · exact .inr (d.fraction_digits c hc)
  unfold text at h
  split at h
  · rcases List.mem_cons.mp h with rfl | h
    · exact .inl rfl
    · exact .inr (hunsigned h)
  · exact .inr (hunsigned h)

end Decimal

theorem trimText_of_none {text : List Char} (h : ∀ c ∈ text, isTrimmed c = false) :
    trimText text = text := by
  have hdrop : ∀ l : List Char, (∀ c ∈ l, isTrimmed c = false) → l.dropWhile isTrimmed = l := by
    rintro (- | ⟨c, l⟩) h
    · rfl
    · rw [List.dropWhile_cons_of_neg (by simp [h c List.mem_cons_self])]
  rw [trimText, hdrop text h, hdrop _ (fun c hc => h c (List.mem_reverse.mp hc)),
    List.reverse_reverse]

namespace Decimal

variable (d : Decimal)

theorem trim_text : trimText d.text = d.text := by
  refine trimText_of_none fun c hc => ?_
  rcases d.mem_text hc with rfl | rfl | hc
  · decide
  · decide
  · obtain ⟨hlow, hhigh⟩ := digit_bounds hc
    rw [Bool.eq_false_iff]
    intro htrimmed
    simp only [isTrimmed, Bool.or_eq_true, Bool.and_eq_true, decide_eq_true_eq, List.mem_cons,
      List.not_mem_nil, or_false] at htrimmed
    omega

theorem exists_of_isDecimal {text : List Char} (h : isDecimal text = true) :
    ∃ d : Decimal, text = d.text := by
  simp only [isDecimal, Bool.and_eq_true, Bool.or_eq_true, Bool.not_eq_true',
    List.isEmpty_eq_false_iff, beq_iff_eq] at h
  obtain ⟨hwhole, hrest⟩ := h
  have hall : AllDigits ((Frontend.withoutSign text).takeWhile isAsciiDigit) := fun c hc =>
    List.mem_takeWhile_imp hc
  have hsplit := List.takeWhile_append_dropWhile (p := isAsciiDigit) (l := Frontend.withoutSign text)
  have hsign : text = if text.head? = some '-' then '-' :: Frontend.withoutSign text
      else Frontend.withoutSign text := by
    unfold Frontend.withoutSign
    cases text with
    | nil => rfl
    | cons c text => grind
  rcases hrest with hempty | ⟨⟨hpoint, hne⟩, hdigits⟩
  · rw [List.isEmpty_iff.mp hempty, List.append_nil] at hsplit
    refine ⟨⟨decide (text.head? = some '-'), _, [], hwhole, hall, by simp [AllDigits]⟩, ?_⟩
    conv_lhs => rw [hsign]
    simp [Decimal.text, unsigned, decimals, hsplit]
  · obtain ⟨c, fraction, hrest⟩ := List.exists_cons_of_ne_nil
      (l := (Frontend.withoutSign text).dropWhile isAsciiDigit) (by
        intro h
        simp [h] at hpoint)
    rw [hrest] at hsplit hpoint hne hdigits
    obtain rfl := Option.some.inj hpoint
    refine ⟨⟨decide (text.head? = some '-'), _, fraction, hwhole, hall,
      List.all_eq_true.mp hdigits⟩, ?_⟩
    conv_lhs => rw [hsign]
    simp only [List.tail_cons] at hne
    simp [Decimal.text, unsigned, decimals, hsplit, hne]

theorem padded_length : d.padded.length = assetDecimals := by
  simp [padded]

theorem padded_digits : AllDigits d.padded :=
  (d.fraction_digits.append (allDigits_zeros _)).of_subset (List.take_subset _ _)

theorem digitsValue_padded :
    digitsValue d.padded = digitsValue d.fraction * scale / 10 ^ d.fraction.length := by
  have h := ofDigitChars_take (d.fraction_digits.append (allDigits_zeros assetDecimals))
    assetDecimals
  rw [ofDigitChars_append, Nat.ofDigitChars_replicate_zero, List.length_append,
    List.length_replicate, Nat.add_sub_cancel, Nat.mul_zero, Nat.add_zero, Nat.mul_comm] at h
  exact h

end Decimal

/-- A text is accepted exactly when it is a decimal, with white space around it. -/
theorem toStroops_eq_some {s : String} {x : Int} :
    toStroops s = some x ↔ ∃ d : Decimal, trimText s.toList = d.text ∧ d.stroops = x := by
  have hdecimal : ∀ d : Decimal, trimText s.toList = d.text → toStroops s = some d.stroops := by
    intro d h
    obtain ⟨hwhole, hrest⟩ := d.takeWhile_unsigned Decimal.all_ne_point (by decide)
    have hfraction : (decimals d.fraction).drop 1 = d.fraction := by
      unfold decimals
      split
      · next h => rw [h]; rfl
      · rfl
    simp only [toStroops, h, d.isDecimal_text, if_true, d.withoutSign_text, hwhole, hrest,
      hfraction, d.head_iff, Decimal.stroops, Decimal.magnitude, Decimal.padded]
  constructor
  · intro h
    have hcase : isDecimal (trimText s.toList) = true := by
      by_contra hnot
      simp [toStroops, hnot] at h
    obtain ⟨d, hd⟩ := Decimal.exists_of_isDecimal hcase
    exact ⟨d, hd, Option.some.inj ((hdecimal d hd).symm.trans h)⟩
  · rintro ⟨d, hd, rfl⟩
    exact hdecimal d hd

/-- The text is a decimal of this value. -/
def Denotes (s : String) (q : ℚ) : Prop := ∃ d : Decimal, trimText s.toList = d.text ∧ d.value = q

/-- The integer that is left of a number when its decimals are dropped. -/
def truncate (q : ℚ) : Int := if 0 ≤ q then ⌊q⌋ else ⌈q⌉

theorem truncate_of_nonneg {q : ℚ} (h : 0 ≤ q) : truncate q = ⌊q⌋ := if_pos h

theorem truncate_neg {q : ℚ} (h : 0 ≤ q) : truncate (-q) = -⌊q⌋ := by
  rcases h.eq_or_lt with rfl | h
  · simp [truncate]
  · rw [truncate, if_neg (by linarith), Int.ceil_neg]

namespace Decimal

variable (d : Decimal)

/-- The stroops are the value without what is beyond the seventh decimal. -/
theorem stroops_eq : d.stroops = truncate (d.value * scale) := by
  have hscaled : ((digitsValue d.whole : ℚ) + digitsValue d.fraction / 10 ^ d.fraction.length) *
      scale = (digitsValue d.whole * scale : Nat) +
        ((digitsValue d.fraction * scale : Nat) : ℚ) / (10 ^ d.fraction.length : Nat) := by
    push_cast
    field_simp
  have hfloor : ⌊((digitsValue d.whole : ℚ) + digitsValue d.fraction / 10 ^ d.fraction.length) *
      scale⌋ = (d.magnitude : Int) := by
    rw [hscaled, Int.floor_natCast_add, Rat.floor_natCast_div_natCast, magnitude,
      digitsValue_padded]
    push_cast
    rfl
  have hnonneg : 0 ≤ ((digitsValue d.whole : ℚ) + digitsValue d.fraction / 10 ^ d.fraction.length) *
      scale := by positivity
  unfold stroops value
  split
  · rw [neg_one_mul, neg_mul, truncate_neg hnonneg, hfloor]
  · rw [one_mul, truncate_of_nonneg hnonneg, hfloor]

/-- Up to seven decimals are all counted. -/
theorem value_eq (h : d.fraction.length ≤ assetDecimals) : d.value = d.stroops / scale := by
  have hpadded : digitsValue d.padded =
      digitsValue d.fraction * 10 ^ (assetDecimals - d.fraction.length) := by
    rw [digitsValue_padded]
    refine Nat.div_eq_of_eq_mul_left (Nat.pow_pos (by decide)) ?_
    rw [Nat.mul_assoc, ← Nat.pow_add, Nat.sub_add_cancel h]
    rfl
  have hscale : (scale : ℚ) = 10 ^ (assetDecimals - d.fraction.length) * 10 ^ d.fraction.length := by
    rw [← pow_add, Nat.sub_add_cancel h]
    norm_num [scale, assetDecimals]
  have hmagnitude : (d.magnitude : ℚ) / scale =
      digitsValue d.whole + digitsValue d.fraction / 10 ^ d.fraction.length := by
    rw [magnitude, hpadded]
    push_cast
    rw [hscale]
    field_simp
  unfold stroops value
  split
  · push_cast
    rw [neg_div, hmagnitude, neg_one_mul]
  · rw [one_mul, ← hmagnitude]
    rfl

end Decimal

/-- The decimal that is printed for these stroops. -/
def Decimal.ofStroops (stroops : Int) : Decimal where
  negative := stroops < 0
  whole := Nat.toDigits 10 (stroops.natAbs / scale)
  fraction := paddedDigits assetDecimals (stroops.natAbs % scale)
  whole_ne_nil := Nat.toDigits_ne_nil
  whole_digits := allDigits_toDigits _
  fraction_digits := allDigits_padded _ _

/-- The decimal that the amount field has for these stroops. -/
def Decimal.ofAmount (stroops : Nat) : Decimal where
  negative := false
  whole := Nat.toDigits 10 (stroops / scale)
  fraction := withoutZeros (paddedDigits assetDecimals (stroops % scale))
  whole_ne_nil := Nat.toDigits_ne_nil
  whole_digits := allDigits_toDigits _
  fraction_digits := (allDigits_padded _ _).of_subset (withoutZeros_starts _).subset

theorem length_fraction (n : Nat) : (paddedDigits assetDecimals (n % scale)).length = assetDecimals :=
  length_padded (by decide) (Nat.mod_lt _ (by decide))

theorem fraction_ne_nil (n : Nat) : paddedDigits assetDecimals (n % scale) ≠ [] := by
  intro h
  have hlength := length_fraction n
  rw [h] at hlength
  cases hlength

namespace Decimal

variable (d : Decimal)

theorem padded_ofStroops (stroops : Int) : (ofStroops stroops).padded =
    paddedDigits assetDecimals (stroops.natAbs % scale) :=
  List.take_left' (length_fraction _)

theorem padded_ofAmount (n : Nat) :
    (ofAmount n).padded = paddedDigits assetDecimals (n % scale) := by
  obtain ⟨k, hk⟩ := withoutZeros_padded (paddedDigits assetDecimals (n % scale))
  have hlength := length_fraction n
  rw [hk, List.length_append, List.length_replicate] at hlength
  have hzeros : assetDecimals - (withoutZeros (paddedDigits assetDecimals (n % scale))).length = k :=
    by omega
  conv_rhs => rw [hk]
  rw [padded, List.take_append, List.take_of_length_le (by simp only [ofAmount]; omega),
    List.take_replicate]
  simp only [ofAmount, hzeros]
  rw [min_eq_left (by omega)]

theorem stroops_of_padded {n : Nat} (hwhole : d.whole = Nat.toDigits 10 (n / scale))
    (hpadded : d.padded = paddedDigits assetDecimals (n % scale)) : d.magnitude = n := by
  have hdigits : ∀ l, digitsValue l = Nat.ofDigitChars 10 l 0 := fun _ => rfl
  rw [magnitude, hwhole, hpadded, hdigits, hdigits, ofDigitChars_padded,
    Nat.ofDigitChars_ten_toDigits]
  exact Nat.div_add_mod' n scale

theorem stroops_ofStroops (x : Int) : (ofStroops x).stroops = x := by
  have hmagnitude := (ofStroops x).stroops_of_padded rfl (padded_ofStroops x)
  have hnegative : (ofStroops x).negative = decide (x < 0) := rfl
  simp only [stroops, hmagnitude, hnegative, decide_eq_true_eq]
  split <;> omega

theorem stroops_ofAmount (n : Nat) : (ofAmount n).stroops = n := by
  have hmagnitude := (ofAmount n).stroops_of_padded rfl (padded_ofAmount n)
  simp only [stroops, hmagnitude]
  rfl

end Decimal

theorem decimals_of_ne {fraction : List Char} (h : fraction ≠ []) :
    decimals fraction = '.' :: fraction := if_neg h

theorem fromStroops_eq (x : Int) : fromStroops x = .ofList (Decimal.ofStroops x).text := by
  simp only [fromStroops, Decimal.text, Decimal.unsigned, Decimal.ofStroops,
    decimals_of_ne (fraction_ne_nil x.natAbs), decide_eq_true_eq]
  split <;> rfl

theorem toAmountInputValue_eq (n : Nat) :
    toAmountInputValue n = .ofList (Decimal.ofAmount n).text := by
  obtain ⟨whole, hwhole⟩ : ∃ whole, whole = (Decimal.ofAmount n).whole := ⟨_, rfl⟩
  obtain ⟨fraction, hfraction⟩ : ∃ f, f = (Decimal.ofAmount n).fraction := ⟨_, rfl⟩
  have hne : whole ≠ [] := hwhole ▸ Decimal.whole_ne_nil _
  have hdigits : AllDigits whole := hwhole ▸ Decimal.whole_digits _
  have hzeroless : withoutZeros (fromStroops n).toList = whole ++ '.' :: fraction := by
    rw [hwhole, hfraction, Decimal.ofAmount, ← withoutZeros_cons _ (by decide), fromStroops,
      String.toList_ofList]
    rfl
  have hpoint : '.' ∈ (fromStroops n).toList := by simp [fromStroops]
  have htext : (Decimal.ofAmount n).text = whole ++ decimals fraction := by
    rw [hwhole, hfraction]
    rfl
  rw [toAmountInputValue, trimTrailingZeros, if_pos hpoint, hzeroless, htext]
  by_cases hempty : fraction = []
  · have hlast : (whole ++ '.' :: fraction).getLast? = some '.' := by simp [hempty]
    have hminus : whole ≠ ['-'] := by
      rintro rfl
      exact absurd (hdigits '-' List.mem_cons_self) (by decide)
    simp [hempty, decimals, hne, hminus]
  · have hlast : (whole ++ '.' :: fraction).getLast? ≠ some '.' := by
      intro h
      have hmem : '.' ∈ fraction := by
        rw [List.getLast?_append_cons, List.getLast?_cons_of_ne_nil hempty] at h
        exact List.mem_of_getLast? h
      rw [hfraction] at hmem
      exact absurd (Decimal.fraction_digits _ _ hmem) (by decide)
    have hlong : whole ++ '.' :: fraction ≠ ['-'] := by
      intro h
      have hlength := congrArg List.length h
      have hpos := List.length_pos_iff.mpr hne
      simp at hlength
      omega
    have hkept : ¬ (whole ++ '.' :: fraction = [] ∨ whole ++ '.' :: fraction = ['-']) := by
      simp [hlong]
    simp only [if_neg hlast, if_neg hkept, decimals_of_ne hempty]

theorem toStroops_text (d : Decimal) : toStroops (.ofList d.text) = some d.stroops :=
  toStroops_eq_some.mpr ⟨d, by rw [String.toList_ofList, d.trim_text], rfl⟩

theorem trimText_sublist (text : List Char) : (trimText text).Sublist text := by
  have hlast := List.dropWhile_sublist (l := (text.dropWhile isTrimmed).reverse) isTrimmed
  rw [← List.reverse_sublist, List.reverse_reverse] at hlast
  exact hlast.trans (List.dropWhile_sublist isTrimmed)

/-- No other text that is parsed as an amount is as short as the one in the amount field. -/
theorem amount_shortest {s : String} {n : Nat} (h : toStroops s = some (n : Int)) :
    s = toAmountInputValue n ∨ (toAmountInputValue n).length < s.length := by
  obtain ⟨d, htrim, hstroops⟩ := toStroops_eq_some.mp h
  have hmagnitude : d.magnitude = n := by
    unfold Decimal.stroops at hstroops
    split at hstroops <;> omega
  have hpadded_lt : digitsValue d.padded < scale := by
    have hlt := ofDigitChars_lt d.padded_digits
    rw [d.padded_length] at hlt
    exact hlt
  have hwhole_value : n / scale = digitsValue d.whole := by
    rw [← hmagnitude, Decimal.magnitude, Nat.mul_comm, Nat.mul_add_div (by decide),
      Nat.div_eq_of_lt hpadded_lt, Nat.add_zero]
  have hpadded : d.padded = paddedDigits assetDecimals (n % scale) := by
    refine eq_of_ofDigitChars d.padded_digits (allDigits_padded _ _)
      (d.padded_length.trans (length_fraction n).symm) ?_
    rw [ofDigitChars_padded, ← hmagnitude, Decimal.magnitude, Nat.mul_comm, Nat.mul_add_mod]
    exact (Nat.mod_eq_of_lt hpadded_lt).symm
  -- Both parts of the printed amount are the shortest with their values.
  have hwhole : (Decimal.ofAmount n).whole = d.whole ∨
      (Decimal.ofAmount n).whole.length < d.whole.length := by
    have hshort := toDigits_shortest d.whole_digits d.whole_ne_nil
    simp only [Decimal.ofAmount, hwhole_value]
    exact hshort
  have hfraction : (Decimal.ofAmount n).fraction = d.fraction ∨
      (Decimal.ofAmount n).fraction.length < d.fraction.length := by
    have hstarts : (Decimal.ofAmount n).fraction <+: d.fraction := by
      simp only [Decimal.ofAmount, ← hpadded, Decimal.padded, List.take_append,
        List.take_replicate, withoutZeros_append]
      exact (withoutZeros_starts _).trans (List.take_prefix _ _)
    rcases hstarts.length_le.eq_or_lt with heq | hlt
    · exact .inl (hstarts.eq_of_length heq)
    · exact .inr hlt
  have hlength : ∀ e : Decimal, e.text.length =
      (if e.negative then 1 else 0) + e.whole.length +
        if e.fraction = [] then 0 else e.fraction.length + 1 := by
    intro e
    unfold Decimal.text
    split
    · rw [List.length_cons, Decimal.unsigned, List.length_append, length_decimals]
      omega
    · rw [Decimal.unsigned, List.length_append, length_decimals]
      omega
  have hshorter : (Decimal.ofAmount n).text = d.text ∨
      (Decimal.ofAmount n).text.length < d.text.length := by
    have hpositive : (Decimal.ofAmount n).negative = false := rfl
    rw [hlength, hlength, hpositive]
    rcases hwhole with hwhole | hwhole <;> rcases hfraction with hfraction | hfraction
    · cases hnegative : d.negative with
      | false => exact .inl (by simp [Decimal.text, Decimal.unsigned, hpositive, hnegative, hwhole,
          hfraction])
      | true => exact .inr (by simp [hwhole, hfraction])
    all_goals
      have hne : (Decimal.ofAmount n).fraction.length < d.fraction.length → d.fraction ≠ [] := by
        rintro hlt hempty
        simp [hempty] at hlt
      right
      grind
  have hsublist := htrim ▸ trimText_sublist s.toList
  have htext : (toAmountInputValue n).length = (Decimal.ofAmount n).text.length := by
    rw [toAmountInputValue_eq, ← String.length_toList, String.toList_ofList]
  rw [htext, ← String.length_toList, toAmountInputValue_eq]
  rcases hshorter with heq | hlt
  · rcases hsublist.length_le.eq_or_lt with hlength | hlt
    · exact .inl (by rw [heq, hsublist.eq_of_length hlength, String.ofList_toList])
    · exact .inr (heq ▸ hlt)
  · exact .inr (hlt.trans_le hsublist.length_le)

/-- Printed amounts are parsed back, the amount field's text is the shortest that is, and an
accepted text counts for its value up to the seventh decimal. -/
theorem stroops_round_trip : (∀ x, toStroops (fromStroops x) = some x) ∧
      (∀ n : Nat, toStroops (toAmountInputValue n) = some (n : Int) ∧
        Denotes (toAmountInputValue n) (n / scale) ∧
        ∀ s, toStroops s = some (n : Int) →
          s = toAmountInputValue n ∨ (toAmountInputValue n).length < s.length) ∧
      (∀ s x, toStroops s = some x → ∃ q, Denotes s q) ∧
      ∀ s q, Denotes s q → ∃ x, toStroops s = some x ∧ x = truncate (q * scale) ∧
        Denotes (fromStroops x) (x / scale) := by
  have hprinted : ∀ d : Decimal, d.fraction.length ≤ assetDecimals →
      Denotes (.ofList d.text) (d.stroops / scale) := fun d hlength =>
    ⟨d, by rw [String.toList_ofList, d.trim_text], d.value_eq hlength⟩
  refine ⟨fun x => ?_, fun n => ⟨?_, ?_, fun s h => amount_shortest h⟩, fun s x h => ?_,
    fun s q hq => ?_⟩
  · rw [fromStroops_eq, toStroops_text, Decimal.stroops_ofStroops]
  · rw [toAmountInputValue_eq, toStroops_text, Decimal.stroops_ofAmount]
  · have h := hprinted (.ofAmount n)
      ((withoutZeros_starts _).length_le.trans_eq (length_fraction n))
    rw [Decimal.stroops_ofAmount, Int.cast_natCast] at h
    rwa [toAmountInputValue_eq]
  · obtain ⟨d, htrim, -⟩ := toStroops_eq_some.mp h
    exact ⟨d.value, d, htrim, rfl⟩
  · obtain ⟨d, htrim, rfl⟩ := hq
    have hfrom := hprinted (.ofStroops d.stroops) (length_fraction _).le
    rw [Decimal.stroops_ofStroops] at hfrom
    exact ⟨d.stroops, toStroops_eq_some.mpr ⟨d, htrim, rfl⟩, d.stroops_eq, by rwa [fromStroops_eq]⟩

section Field

/-- What is left of what is typed: digits, one point, and at most seven decimals. -/
def sanitizeAmountInput (raw : String) : String :=
  let cleaned := raw.toList.filter fun c => isAsciiDigit c || c == '.'
  match cleaned.splitOn '.' with
  | [] => ""
  | [whole] => .ofList whole
  | whole :: rest =>
    .ofList ((if whole = [] then ['0'] else whole) ++ '.' :: rest.flatten.take assetDecimals)

/-- The field's text is parsed, has at most seven decimals, and none of it is dropped. -/
def Staked (text : String) : Prop :=
  ∃ d : Decimal, text.toList = d.text ∧ d.fraction.length ≤ assetDecimals ∧
    ∃ x, toStroops text = some x ∧ d.value = x / scale

/-- There is no point, or a digit somewhere behind the first one. -/
def PointFollowed (text : List Char) : Prop :=
  '.' ∈ text → ∃ c ∈ text.dropWhile (· ≠ '.'), isAsciiDigit c = true

theorem flatten_splitOn (text : List Char) : (text.splitOn '.').flatten = text.filter (· ≠ '.') := by
  induction text with
  | nil => rfl
  | cons c text ih =>
    rw [List.splitOn_cons_eq_if_modifyHead]
    split
    · next h => simp [ih, eq_of_beq h]
    · next h =>
      have hne : c ≠ '.' := fun heq => h (beq_iff_eq.mpr heq)
      obtain ⟨head, tail, hsplit⟩ := List.exists_cons_of_ne_nil (List.splitOn_ne_nil '.' text)
      rw [hsplit] at ih ⊢
      rw [List.modifyHead_cons, List.flatten_cons, List.cons_append, ← List.flatten_cons, ih,
        List.filter_cons_of_pos (by simpa using hne)]

variable {pre post whole fraction : List Char}

theorem filter_pointless (h : '.' ∉ pre) :
    pre.filter (fun c => isAsciiDigit c || c == '.') = pre.filter isAsciiDigit := by
  refine List.filter_congr fun c hc => ?_
  have hne : c ≠ '.' := fun heq => h (heq ▸ hc)
  simp [hne]

theorem not_mem_digits (pre : List Char) : '.' ∉ pre.filter isAsciiDigit := by
  intro h
  exact absurd (List.mem_filter.mp h).2 (by decide)

theorem sanitize_pointless (h : '.' ∉ pre) :
    sanitizeAmountInput (.ofList pre) = .ofList (pre.filter isAsciiDigit) := by
  rw [sanitizeAmountInput, String.toList_ofList, filter_pointless h,
    List.splitOn_eq_singleton (not_mem_digits pre)]

theorem sanitize_point (h : '.' ∉ pre) : sanitizeAmountInput (.ofList (pre ++ '.' :: post)) =
    .ofList ((if pre.filter isAsciiDigit = [] then ['0'] else pre.filter isAsciiDigit) ++
      '.' :: (post.filter isAsciiDigit).take assetDecimals) := by
  have hdigits : ((post.filter fun c => isAsciiDigit c || c == '.').splitOn '.').flatten =
      post.filter isAsciiDigit := by
    rw [flatten_splitOn, List.filter_filter]
    refine List.filter_congr fun c _ => ?_
    by_cases heq : c = '.'
    · subst heq
      decide
    · simp [heq]
  obtain ⟨first, rest, hsplit⟩ := List.exists_cons_of_ne_nil
    (List.splitOn_ne_nil '.' (post.filter fun c => isAsciiDigit c || c == '.'))
  rw [sanitizeAmountInput, String.toList_ofList, List.filter_append, filter_pointless h,
    List.filter_cons_of_pos (by decide),
    List.splitOn_append_cons_self_of_not_mem (not_mem_digits pre), ← hdigits, hsplit]

theorem filter_digits (h : AllDigits pre) : pre.filter isAsciiDigit = pre :=
  List.filter_eq_self.mpr h

theorem point_not_mem (h : AllDigits pre) : '.' ∉ pre := fun hmem =>
  absurd (h _ hmem) (by decide)

/-- What is made of digits as it should be stays. -/
theorem sanitize_decimal (hne : whole ≠ []) (hwhole : AllDigits whole) (hfraction : AllDigits fraction)
    (hlength : fraction.length ≤ assetDecimals) :
    sanitizeAmountInput (.ofList (whole ++ '.' :: fraction)) = .ofList (whole ++ '.' :: fraction) := by
  rw [sanitize_point (point_not_mem hwhole), filter_digits hwhole, filter_digits hfraction,
    if_neg hne, List.take_of_length_le hlength]

theorem staked_of_decimal (d : Decimal) (h : d.fraction.length ≤ assetDecimals) :
    Staked (.ofList d.text) :=
  ⟨d, String.toList_ofList, h, d.stroops, toStroops_text d, d.value_eq h⟩

theorem not_staked_of_point (hne : whole ≠ []) (hwhole : AllDigits whole) :
    ¬ Staked (.ofList (whole ++ ['.'])) := by
  rintro ⟨d, htext, -⟩
  rw [String.toList_ofList] at htext
  have hdecimal := d.isDecimal_text
  have hsign : Frontend.withoutSign (whole ++ ['.']) = whole ++ ['.'] := by
    obtain ⟨c, rest, rfl⟩ := List.exists_cons_of_ne_nil hne
    exact if_neg fun h => digit_ne (hwhole c List.mem_cons_self) (by decide) (Option.some.inj h)
  rw [← htext, isDecimal, hsign, List.dropWhile_append_of_pos hwhole] at hdecimal
  simp [isAsciiDigit] at hdecimal

/-- What is left is digits, or digits around a point. -/
theorem sanitize_cases (raw : String) :
    ('.' ∉ raw.toList ∧ sanitizeAmountInput raw = .ofList (raw.toList.filter isAsciiDigit)) ∨
      '.' ∈ raw.toList ∧ ∃ whole fraction, whole ≠ [] ∧ AllDigits whole ∧ AllDigits fraction ∧
        fraction.length ≤ assetDecimals ∧
        sanitizeAmountInput raw = .ofList (whole ++ '.' :: fraction) ∧
        (fraction ≠ [] ↔ ∃ c ∈ raw.toList.dropWhile (· ≠ '.'), isAsciiDigit c = true) := by
  have hraw : raw = .ofList raw.toList := String.ofList_toList.symm
  have hfilter : ∀ text : List Char, AllDigits (text.filter isAsciiDigit) := fun _ _ hc =>
    (List.mem_filter.mp hc).2
  by_cases hpoint : '.' ∈ raw.toList
  · obtain ⟨pre, post, hsplit, hpre⟩ := List.eq_append_cons_of_mem hpoint
    have hbehind : raw.toList.dropWhile (· ≠ '.') = '.' :: post := by
      have hnone : ∀ c ∈ pre, decide (c ≠ '.') = true := fun c hc =>
        decide_eq_true fun heq => hpre (heq ▸ hc)
      rw [hsplit, List.dropWhile_append_of_pos hnone]
      rfl
    refine .inr ⟨hpoint, _, _, ?_, ?_, (hfilter post).of_subset (List.take_subset assetDecimals _),
      List.length_take_le _ _, by rw [hraw, hsplit, sanitize_point hpre], ?_⟩
    · split
      · decide
      · assumption
    · split
      · intro c hc
        rw [List.mem_singleton.mp hc]
        rfl
      · exact hfilter pre
    · rw [hbehind, ne_eq, List.take_eq_nil_iff, List.filter_eq_nil_iff]
      simp [assetDecimals, isAsciiDigit]
  · exact .inl ⟨hpoint, by conv_lhs => rw [hraw, sanitize_pointless hpoint]⟩

/-- What the field makes of a text that has a digit is parsed and staked to the last digit, exactly
when a point in the text is followed by a digit. Making it again changes nothing, and neither does
making it of a printed amount. -/
theorem amount_field_parses_iff (raw : String) (n : Nat) :
    ((∃ c ∈ raw.toList, isAsciiDigit c = true) →
      (Staked (sanitizeAmountInput raw) ↔ PointFollowed raw.toList)) ∧
    sanitizeAmountInput (sanitizeAmountInput raw) = sanitizeAmountInput raw ∧
      sanitizeAmountInput (toAmountInputValue n) = toAmountInputValue n := by
  have hdigits : AllDigits (raw.toList.filter isAsciiDigit) := fun _ hc =>
    (List.mem_filter.mp hc).2
  refine ⟨fun ⟨c, hmem, hc⟩ => ?_, ?_, ?_⟩
  · rcases sanitize_cases raw with ⟨hpoint, heq⟩ | ⟨hpoint, whole, fraction, hne, hwhole, hfraction,
      hlength, heq, hbehind⟩
    · refine iff_of_true ?_ fun h => absurd h hpoint
      have hstaked := staked_of_decimal ⟨false, raw.toList.filter isAsciiDigit, [],
        List.ne_nil_of_mem (List.mem_filter.mpr ⟨hmem, hc⟩), hdigits, by simp [AllDigits]⟩
        (Nat.zero_le _)
      rw [heq]
      simpa [Decimal.text, Decimal.unsigned, decimals] using hstaked
    · rw [PointFollowed, imp_iff_right hpoint, ← hbehind, heq]
      refine ⟨?_, fun hsome => ?_⟩
      · rintro hstaked rfl
        exact not_staked_of_point hne hwhole hstaked
      · have hstaked := staked_of_decimal ⟨false, whole, fraction, hne, hwhole, hfraction⟩ hlength
        simpa [Decimal.text, Decimal.unsigned, decimals, hsome] using hstaked
  · rcases sanitize_cases raw with ⟨-, heq⟩ | ⟨-, whole, fraction, hne, hwhole, hfraction,
      hlength, heq, -⟩
    · rw [heq, sanitize_pointless (not_mem_digits _), filter_digits hdigits]
    · rw [heq, sanitize_decimal hne hwhole hfraction hlength]
  · obtain ⟨d, hd⟩ : ∃ d, d = Decimal.ofAmount n := ⟨_, rfl⟩
    have hlength : d.fraction.length ≤ assetDecimals := by
      rw [hd]
      exact (withoutZeros_starts _).length_le.trans_eq (length_fraction n)
    have htext : d.text = d.whole ++ decimals d.fraction := by
      rw [hd]
      rfl
    rw [toAmountInputValue_eq, ← hd, htext]
    by_cases hempty : d.fraction = []
    · rw [hempty, decimals, if_pos rfl, List.append_nil,
        sanitize_pointless (point_not_mem d.whole_digits), filter_digits d.whole_digits]
    · rw [decimals_of_ne hempty,
        sanitize_decimal d.whole_ne_nil d.whole_digits d.fraction_digits hlength]

/-- A point with nothing behind it stays, and the text is not parsed. -/
theorem point_not_parsed : (∃ c ∈ "5.".toList, isAsciiDigit c = true) ∧
      toStroops (sanitizeAmountInput "5.") = none ∧ ¬ Staked (sanitizeAmountInput "5.") := by
  have heq : sanitizeAmountInput "5." = .ofList (['5'] ++ ['.']) := by decide +kernel
  have hnone : toStroops (.ofList (['5'] ++ ['.'])) = none := by
    rw [toStroops, String.toList_ofList]
    decide +kernel
  refine ⟨⟨'5', by decide, by decide⟩, heq ▸ hnone, ?_⟩
  rintro ⟨-, -, -, x, hx, -⟩
  rw [heq, hnone] at hx
  cases hx

end Field

end Backit.Frontend
