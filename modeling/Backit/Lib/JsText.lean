import Mathlib.Data.List.Basic

/-!
# Texts as JavaScript reads them

White space, digits, the texts that `Number` does not turn into `NaN`, and code units.
-/

namespace Backit.Lib

/-- White space and line ends, as `trim` removes them. -/
def isTrimmed (c : Char) : Bool :=
  c.toNat ∈ [0x9, 0xA, 0xB, 0xC, 0xD, 0x20, 0xA0, 0x1680, 0x2028, 0x2029, 0x202F, 0x205F, 0x3000,
    0xFEFF] || (0x2000 ≤ c.toNat && c.toNat ≤ 0x200A)

def trimText (text : List Char) : List Char :=
  ((text.dropWhile isTrimmed).reverse.dropWhile isTrimmed).reverse

def isAsciiDigit (c : Char) : Bool := '0' ≤ c && c ≤ '9'

/-- The text without a sign in front. -/
def unsigned (text : List Char) : List Char :=
  match text with
  | '+' :: rest => rest
  | '-' :: rest => rest
  | _ => text

/-- Nothing, or an exponent. -/
def isExponent (text : List Char) : Bool :=
  match text with
  | [] => true
  | e :: rest =>
    (e == 'e' || e == 'E') && !(unsigned rest).isEmpty && (unsigned rest).all isAsciiDigit

/-- Digits, possibly with a point before, between or behind them, and possibly an exponent. -/
def isUnsignedDecimal (text : List Char) : Bool :=
  let whole := text.takeWhile isAsciiDigit
  match text.dropWhile isAsciiDigit with
  | '.' :: rest =>
    !(whole ++ rest.takeWhile isAsciiDigit).isEmpty && isExponent (rest.dropWhile isAsciiDigit)
  | rest => !whole.isEmpty && isExponent rest

/-- Digits of a base after its mark. -/
def isRadixLiteral (text : List Char) : Bool :=
  match text with
  | '0' :: mark :: digits =>
    let digit : Char → Bool :=
      if mark == 'b' || mark == 'B' then fun c => '0' ≤ c && c ≤ '1'
      else if mark == 'o' || mark == 'O' then fun c => '0' ≤ c && c ≤ '7'
      else if mark == 'x' || mark == 'X' then fun c =>
        isAsciiDigit c || ('a' ≤ c && c ≤ 'f') || ('A' ≤ c && c ≤ 'F')
      else fun _ => false
    !digits.isEmpty && digits.all digit
  | _ => false

/-- `Number(text)` is not `NaN`. -/
def isNumeric (text : String) : Bool :=
  let trimmed := trimText text.toList
  trimmed.isEmpty || unsigned trimmed == "Infinity".toList ||
    isUnsignedDecimal (unsigned trimmed) || isRadixLiteral trimmed

example : ["0.12", " 7 ", ".5e-3", "0x1F", "-Infinity"].all isNumeric = true := by decide

example : ["1,2", "1e", "0x", "--1", "Infinity7"].any isNumeric = false := by decide

/-- The code units of a character: one above the basic plane is a pair of surrogates. -/
def codeUnits (c : Char) : List UInt16 :=
  if c.toNat < 0x10000 then [UInt16.ofNat c.toNat]
  else
    let rest := c.toNat - 0x10000
    [UInt16.ofNat (0xD800 + rest / 0x400), UInt16.ofNat (0xDC00 + rest % 0x400)]

/-- The code units of a text. -/
def utf16 (s : String) : List UInt16 := s.toList.flatMap codeUnits

example : (utf16 "a€").length = 2 ∧ (utf16 "😀").length = 2 := by decide

end Backit.Lib
