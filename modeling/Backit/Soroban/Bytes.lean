import Mathlib.Tactic.Linarith
import Backit.Soroban.Contract

/-!
# Bytes and their digests

## Byte strings

Big-endian encodings of fixed-width integers and the bytes of ASCII text.
-/

namespace Backit.Soroban

/-- The bytes of ASCII text. -/
def ascii (text : List Char) : Bytes := text.map fun c => UInt8.ofNat c.toNat

/-- `x.to_be_bytes()` for an unsigned integer of the given number of bytes. -/
def beBytes : Nat → Nat → Bytes
  | 0, _ => []
  | width + 1, x => beBytes width (x / 256) ++ [UInt8.ofNat (x % 256)]

/-- `x.to_be_bytes()` for an `i128`, in two's complement. -/
def i128Bytes (x : Int) : Bytes := beBytes 16 (x % 2 ^ 128).toNat

@[simp] theorem length_beBytes (width x : Nat) : (beBytes width x).length = width := by
  induction width generalizing x with
  | zero => rfl
  | succ width ih => simp [beBytes, ih]

@[simp] theorem length_i128Bytes (x : Int) : (i128Bytes x).length = 16 := length_beBytes _ _

/-- The encoding of a value that fits its width determines the value. -/
theorem beBytes_injective {width x y : Nat} (hx : x < 256 ^ width) (hy : y < 256 ^ width)
    (h : beBytes width x = beBytes width y) : x = y := by
  induction width generalizing x y with
  | zero => simp at hx hy; omega
  | succ width ih =>
    obtain ⟨hhigh, hlow⟩ := List.append_inj h (by simp)
    rw [Nat.pow_succ] at hx hy
    have hquot : x / 256 = y / 256 :=
      ih (Nat.div_lt_of_lt_mul (by omega)) (Nat.div_lt_of_lt_mul (by omega)) hhigh
    have hrem : x % 256 = y % 256 := by
      simpa [UInt8.toNat_ofNat'] using congrArg (List.map UInt8.toNat) hlow
    omega

theorem beBytes_zero (width : Nat) : beBytes width 0 = List.replicate width 0 := by
  induction width with
  | zero => rfl
  | succ width ih => simp [beBytes, ih, List.replicate_succ']

/-- The low bytes of a wide encoding are the narrow encoding, and the rest encodes the quotient. -/
theorem beBytes_add (high low x : Nat) :
    beBytes (high + low) x = beBytes high (x / 256 ^ low) ++ beBytes low x := by
  induction low generalizing x with
  | zero => simp [beBytes]
  | succ low ih =>
    have hquot : x / 256 / 256 ^ low = x / 256 ^ (low + 1) := by
      rw [Nat.div_div_eq_div_mul, Nat.pow_succ, Nat.mul_comm]
    rw [← Nat.add_assoc]
    simp only [beBytes]
    rw [ih, hquot, List.append_assoc]

end Backit.Soroban

/-!
## SHA-256

An executable SHA-256, for scenarios that hash. Words are natural numbers below 2^32.
-/

namespace Backit.Soroban.Sha256

/-- The round constants. -/
def roundConstants : List Nat :=
  [0x428a2f98, 0x71374491, 0xb5c0fbcf, 0xe9b5dba5, 0x3956c25b, 0x59f111f1, 0x923f82a4, 0xab1c5ed5,
   0xd807aa98, 0x12835b01, 0x243185be, 0x550c7dc3, 0x72be5d74, 0x80deb1fe, 0x9bdc06a7, 0xc19bf174,
   0xe49b69c1, 0xefbe4786, 0x0fc19dc6, 0x240ca1cc, 0x2de92c6f, 0x4a7484aa, 0x5cb0a9dc, 0x76f988da,
   0x983e5152, 0xa831c66d, 0xb00327c8, 0xbf597fc7, 0xc6e00bf3, 0xd5a79147, 0x06ca6351, 0x14292967,
   0x27b70a85, 0x2e1b2138, 0x4d2c6dfc, 0x53380d13, 0x650a7354, 0x766a0abb, 0x81c2c92e, 0x92722c85,
   0xa2bfe8a1, 0xa81a664b, 0xc24b8b70, 0xc76c51a3, 0xd192e819, 0xd6990624, 0xf40e3585, 0x106aa070,
   0x19a4c116, 0x1e376c08, 0x2748774c, 0x34b0bcb5, 0x391c0cb3, 0x4ed8aa4a, 0x5b9cca4f, 0x682e6ff3,
   0x748f82ee, 0x78a5636f, 0x84c87814, 0x8cc70208, 0x90befffa, 0xa4506ceb, 0xbef9a3f7, 0xc67178f2]

/-- A state of the compression function. -/
structure Digest where
  a : Nat
  b : Nat
  c : Nat
  d : Nat
  e : Nat
  f : Nat
  g : Nat
  h : Nat

def initial : Digest where
  a := 0x6a09e667
  b := 0xbb67ae85
  c := 0x3c6ef372
  d := 0xa54ff53a
  e := 0x510e527f
  f := 0x9b05688c
  g := 0x1f83d9ab
  h := 0x5be0cd19

def add (x y : Nat) : Nat := (x + y) % 4294967296

def rotateRight (x n : Nat) : Nat := (x >>> n) ||| ((x <<< (32 - n)) % 4294967296)

def smallSigma0 (x : Nat) : Nat := rotateRight x 7 ^^^ rotateRight x 18 ^^^ (x >>> 3)

def smallSigma1 (x : Nat) : Nat := rotateRight x 17 ^^^ rotateRight x 19 ^^^ (x >>> 10)

def bigSigma0 (x : Nat) : Nat := rotateRight x 2 ^^^ rotateRight x 13 ^^^ rotateRight x 22

def bigSigma1 (x : Nat) : Nat := rotateRight x 6 ^^^ rotateRight x 11 ^^^ rotateRight x 25

/-- One round, with the sum of the round constant and the schedule word. -/
def round (s : Digest) (word : Nat) : Digest :=
  let choice := (s.e &&& s.f) ^^^ ((4294967295 - s.e) &&& s.g)
  let majority := (s.a &&& s.b) ^^^ (s.a &&& s.c) ^^^ (s.b &&& s.c)
  let t1 := add s.h (add (bigSigma1 s.e) (add choice word))
  let t2 := add (bigSigma0 s.a) majority
  ⟨add t1 t2, s.a, s.b, s.c, add s.d t1, s.e, s.f, s.g⟩

/-- The rounds with the given constants, from a window of the message schedule of 16 words. -/
def rounds : List Nat → List Nat → Digest → Digest
  | k :: ks, w :: window, s =>
    let word := add (smallSigma1 (window.getD 13 0))
      (add (window.getD 8 0) (add (smallSigma0 (window.getD 0 0)) w))
    rounds ks (window ++ [word]) (round s (add k w))
  | _, _, s => s

/-- Compress one block of 16 words. -/
def compress (s : Digest) (block : List Nat) : Digest :=
  let t := rounds roundConstants block s
  ⟨add s.a t.a, add s.b t.b, add s.c t.c, add s.d t.d, add s.e t.e, add s.f t.f, add s.g t.g,
    add s.h t.h⟩

/-- The message with its padding and its length in bits. -/
def pad (message : Bytes) : Bytes :=
  message ++ [0x80] ++ List.replicate ((119 - message.length % 64) % 64) 0 ++
    beBytes 8 (8 * message.length)

/-- The big-endian words of the bytes. -/
def words : Bytes → List Nat
  | a :: b :: c :: d :: rest =>
    (a.toNat <<< 24 ||| b.toNat <<< 16 ||| c.toNat <<< 8 ||| d.toNat) :: words rest
  | _ => []

/-- Compress the blocks of a padded message. -/
def blocks : Nat → List Nat → Digest → Digest
  | 0, _, s => s
  | n + 1, message, s => blocks n (message.drop 16) (compress s (message.take 16))

def digestBytes (s : Digest) : Bytes :=
  beBytes 4 s.a ++ beBytes 4 s.b ++ beBytes 4 s.c ++ beBytes 4 s.d ++ beBytes 4 s.e ++
    beBytes 4 s.f ++ beBytes 4 s.g ++ beBytes 4 s.h

def sha256 (message : Bytes) : BytesN 32 where
  bytes :=
    let padded := words (pad message)
    digestBytes (blocks (padded.length / 16) padded initial)
  size_eq := by simp [digestBytes]

example : (sha256 (ascii ['a', 'b', 'c'])).bytes =
    beBytes 32 0xba7816bf8f01cfea414140de5dae2223b00361a396177a9cb410ff61f20015ad := by
  decide +kernel

/-- Messages with digests computed in advance. -/
structure Table where
  entries : List (Bytes × BytesN 32)
  correct : ∀ entry ∈ entries, sha256 entry.1 = entry.2

/-- SHA-256, by lookup for the messages of the table. -/
def Table.sha256 (table : Table) (message : Bytes) : BytesN 32 :=
  match table.entries.find? (·.1 == message) with
  | some entry => entry.2
  | none => Sha256.sha256 message

end Backit.Soroban.Sha256
