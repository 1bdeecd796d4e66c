import Mathlib.Data.List.Basic

/-!
# Base64 decoding

The standard decoding of base64 text. Every four characters stand for three bytes, and the last four
may end with padding and stand for one or two. The characters of six-bit values decode to the bytes
that the values were cut from.
-/

namespace Backit.Lib.Base64

/-- The characters of the six-bit values, in order. -/
def alphabet : List UInt8 :=
  "ABCDEFGHIJKLMNOPQRSTUVWXYZabcdefghijklmnopqrstuvwxyz0123456789+/".toList.map
    fun c => UInt8.ofNat c.toNat

/-- The character that fills up the last four. -/
def padding : UInt8 := 61

/-- The six-bit value of a character. -/
def value (c : UInt8) : Option Nat := alphabet.idxOf? c

/-- The character of a six-bit value. -/
def symbol (n : Nat) : UInt8 := alphabet[n]?.getD padding

/-- The bytes of four six-bit values. -/
def threeBytes (a b c d : Nat) : List UInt8 :=
  [UInt8.ofNat (a * 4 + b / 16), UInt8.ofNat (b % 16 * 16 + c / 4), UInt8.ofNat (c % 4 * 64 + d)]

/-- The bytes of the last characters before a padding. The bits that no byte takes are zero. -/
def decodeLast (a b c : UInt8) : Option (List UInt8) := do
  let a ← value a
  let b ← value b
  if c = padding then
    if b % 16 = 0 then some [UInt8.ofNat (a * 4 + b / 16)] else none
  else do
    let c ← value c
    if c % 4 = 0 then some [UInt8.ofNat (a * 4 + b / 16), UInt8.ofNat (b % 16 * 16 + c / 4)]
    else none

/-- The bytes that a text stands for, if it is base64. -/
def decode : List UInt8 → Option (List UInt8)
  | [] => some []
  | a :: b :: c :: d :: rest =>
    if d = padding then
      if rest = [] then decodeLast a b c else none
    else do
      let bytes := threeBytes (← value a) (← value b) (← value c) (← value d)
      let others ← decode rest
      some (bytes ++ others)
  | _ => none

theorem value_symbol {n : Nat} (h : n < 64) : value (symbol n) = some n := by
  have hall : ∀ n < 64, value (symbol n) = some n := by decide +kernel
  exact hall n h

theorem symbol_ne_padding {n : Nat} (h : n < 64) : symbol n ≠ padding := by
  have hall : ∀ n < 64, symbol n ≠ padding := by decide +kernel
  exact hall n h

section Groups

variable {a b c d : Nat} (ha : a < 64) (hb : b < 64)

include ha hb

/-- Four characters without padding are three bytes before the rest. -/
theorem decode_group (hc : c < 64) (hd : d < 64) (rest : List UInt8) :
    decode (symbol a :: symbol b :: symbol c :: symbol d :: rest) =
      (decode rest).map (threeBytes a b c d ++ ·) := by
  rw [decode, if_neg (symbol_ne_padding hd)]
  simp only [value_symbol ha, value_symbol hb, value_symbol hc, value_symbol hd,
    Option.bind_eq_bind, Option.bind_some]
  cases decode rest <;> rfl

/-- Two characters and two paddings are one byte. -/
theorem decode_one (hzero : b % 16 = 0) :
    decode [symbol a, symbol b, padding, padding] = some [UInt8.ofNat (a * 4 + b / 16)] := by
  simp [decode, decodeLast, value_symbol ha, value_symbol hb, hzero]

/-- Three characters and a padding are two bytes. -/
theorem decode_two (hc : c < 64) (hzero : c % 4 = 0) :
    decode [symbol a, symbol b, symbol c, padding] =
      some [UInt8.ofNat (a * 4 + b / 16), UInt8.ofNat (b % 16 * 16 + c / 4)] := by
  simp [decode, decodeLast, value_symbol ha, value_symbol hb, value_symbol hc,
    symbol_ne_padding hc, hzero]

end Groups

end Backit.Lib.Base64
