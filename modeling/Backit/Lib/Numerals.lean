import Backit.Lib.Json
import Backit.Lib.JsText
import Mathlib.Algebra.Order.Ring.Int
import Mathlib.Data.List.TakeWhile

/-!
# Numbers and their texts

A printed number is an integer times a power of ten, so it can be compared with a natural number
exactly. A natural number is printed with its decimal digits.
-/

namespace Backit.Lib.Numeral

/-- The digits after a point, and what follows them. -/
def fraction : List Char → List Char × List Char
  | '.' :: rest => (rest.takeWhile isAsciiDigit, rest.dropWhile isAsciiDigit)
  | rest => ([], rest)

/-- The number behind an `e`. -/
def exponent : List Char → Int
  | 'e' :: '-' :: digits => -Nat.ofDigitChars 10 digits 0
  | 'e' :: '+' :: digits => Nat.ofDigitChars 10 digits 0
  | 'e' :: digits => Nat.ofDigitChars 10 digits 0
  | _ => 0

/-- The text without a minus sign, and whether it had one. -/
def signed : List Char → Bool × List Char
  | '-' :: rest => (true, rest)
  | rest => (false, rest)

/-- The integer and the power of ten whose product is printed. -/
def scientific (n : Numeral) : Int × Int :=
  let (negative, text) := signed n.text
  let whole := text.takeWhile isAsciiDigit
  let (decimals, rest) := fraction (text.dropWhile isAsciiDigit)
  let mantissa : Int := Nat.ofDigitChars 10 (whole ++ decimals) 0
  (if negative then -mantissa else mantissa, exponent rest - decimals.length)

/-- The number is less than a natural number. -/
def below (n : Numeral) (bound : Nat) : Bool :=
  let (mantissa, power) := n.scientific
  if 0 ≤ power then mantissa * 10 ^ power.toNat < bound
  else mantissa < bound * 10 ^ (-power).toNat

theorem isAsciiDigit_of_isDigit {c : Char} (h : c.isDigit = true) : isAsciiDigit c = true := by
  simp only [Char.isDigit, Bool.and_eq_true, decide_eq_true_eq] at h
  simp only [isAsciiDigit, Bool.and_eq_true, decide_eq_true_eq]
  exact h

theorem digit_mem {c : Char} (h : c.isDigit = true) : c ∈ numeralChars := by
  simp only [Char.isDigit, Bool.and_eq_true, decide_eq_true_eq] at h
  have hlow : 48 ≤ c.toNat := h.1
  have hhigh : c.toNat ≤ 57 := h.2
  have hall : ∀ k : Fin 10, Char.ofNat (48 + k) ∈ numeralChars := by decide
  have hmem := hall ⟨c.toNat - 48, by omega⟩
  rwa [Nat.add_sub_cancel' hlow, Char.ofNat_toNat] at hmem

/-- A natural number. -/
def ofNat (n : Nat) : Numeral where
  text := Nat.toDigits 10 n
  nonempty := Nat.toDigits_ne_nil
  numeric := fun _ hc => digit_mem (Nat.isDigit_of_mem_toDigits (by decide) (by decide) hc)

theorem scientific_ofNat (n : Nat) : (ofNat n).scientific = ((n : Int), 0) := by
  have hdigits : ∀ c ∈ Nat.toDigits 10 n, isAsciiDigit c = true := fun c hc =>
    isAsciiDigit_of_isDigit (Nat.isDigit_of_mem_toDigits (by decide) (by decide) hc)
  have hsigned : signed (Nat.toDigits 10 n) = (false, Nat.toDigits 10 n) := by
    unfold signed
    split
    · next rest htext =>
      rw [htext] at hdigits
      exact absurd (hdigits '-' List.mem_cons_self) (by decide)
    · rfl
  have hwhole : (Nat.toDigits 10 n).takeWhile isAsciiDigit = Nat.toDigits 10 n :=
    List.takeWhile_eq_self_iff.mpr hdigits
  have hrest : (Nat.toDigits 10 n).dropWhile isAsciiDigit = [] :=
    List.dropWhile_eq_nil_iff.mpr hdigits
  simp only [scientific, ofNat, hsigned, hwhole, hrest, fraction, exponent, List.append_nil,
    Nat.ofDigitChars_ten_toDigits]
  rfl

/-- Printed natural numbers compare as they are. -/
theorem below_ofNat (n bound : Nat) : (ofNat n).below bound = decide (n < bound) := by
  simp [below, scientific_ofNat]

end Backit.Lib.Numeral
