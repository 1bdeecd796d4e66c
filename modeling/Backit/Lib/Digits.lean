import Backit.Lib.Numerals
import Mathlib.Data.List.DropRight

/-!
# Decimal digits

What a list of decimal digits says about its number: its size, its leading digits, and that no
shorter list without padding has the same number.
-/

namespace Backit.Lib

/-- Every character is a decimal digit. -/
def AllDigits (text : List Char) : Prop := ∀ c ∈ text, isAsciiDigit c = true

variable {l m : List Char}

theorem AllDigits.append (hl : AllDigits l) (hm : AllDigits m) : AllDigits (l ++ m) := by
  intro c hc
  rcases List.mem_append.mp hc with h | h
  · exact hl c h
  · exact hm c h

theorem AllDigits.of_subset (hl : AllDigits l) (h : m ⊆ l) : AllDigits m := fun c hc => hl c (h hc)

theorem allDigits_toDigits (n : Nat) : AllDigits (Nat.toDigits 10 n) := fun _ hc =>
  Numeral.isAsciiDigit_of_isDigit (Nat.isDigit_of_mem_toDigits (by decide) (by decide) hc)

theorem allDigits_zeros (k : Nat) : AllDigits (List.replicate k '0') := by
  intro c hc
  rw [List.eq_of_mem_replicate hc]
  decide

theorem digit_bounds {c : Char} (h : isAsciiDigit c = true) : 48 ≤ c.toNat ∧ c.toNat ≤ 57 := by
  simp only [isAsciiDigit, Bool.and_eq_true, decide_eq_true_eq] at h
  exact h

theorem digit_ne {c d : Char} (h : isAsciiDigit c = true) (hd : isAsciiDigit d = false) : c ≠ d := by
  rintro rfl
  rw [h] at hd
  cases hd

theorem ofDigitChars_append (l m : List Char) : Nat.ofDigitChars 10 (l ++ m) 0 =
      10 ^ m.length * Nat.ofDigitChars 10 l 0 + Nat.ofDigitChars 10 m 0 := by
  rw [Nat.ofDigitChars_append, Nat.ofDigitChars_eq_ofDigitChars_zero]

theorem ofDigitChars_cons (c : Char) (l : List Char) :
    Nat.ofDigitChars 10 (c :: l) 0 = 10 ^ l.length * (c.toNat - 48) + Nat.ofDigitChars 10 l 0 := by
  rw [Nat.ofDigitChars_cons, Nat.ofDigitChars_eq_ofDigitChars_zero]
  simp

theorem ofDigitChars_lt (h : AllDigits l) : Nat.ofDigitChars 10 l 0 < 10 ^ l.length := by
  induction l with
  | nil => decide
  | cons c l ih =>
    have hc := digit_bounds (h c List.mem_cons_self)
    have hl := ih (h.of_subset (List.subset_cons_self c l))
    rw [ofDigitChars_cons, List.length_cons, Nat.pow_succ]
    have hle : 10 ^ l.length * (c.toNat - 48) ≤ 10 ^ l.length * 9 :=
      Nat.mul_le_mul_left _ (by omega)
    omega

/-- The leading digits are the number without its last digits. -/
theorem ofDigitChars_take (h : AllDigits l) (k : Nat) :
    Nat.ofDigitChars 10 (l.take k) 0 = Nat.ofDigitChars 10 l 0 / 10 ^ (l.length - k) := by
  have hdrop := ofDigitChars_lt (h.of_subset (List.drop_subset k l))
  have hall := ofDigitChars_append (l.take k) (l.drop k)
  rw [List.take_append_drop, List.length_drop] at hall
  rw [List.length_drop] at hdrop
  rw [hall, Nat.mul_add_div (Nat.pow_pos (by decide)), Nat.div_eq_of_lt hdrop, Nat.add_zero]

/-- Digits of one number and of one length are the same. -/
theorem eq_of_ofDigitChars (hl : AllDigits l) (hm : AllDigits m) (hlength : l.length = m.length)
    (h : Nat.ofDigitChars 10 l 0 = Nat.ofDigitChars 10 m 0) : l = m := by
  induction l generalizing m with
  | nil => exact (List.length_eq_zero_iff.mp hlength.symm).symm
  | cons c l ih =>
    obtain ⟨d, m, rfl⟩ := List.exists_cons_of_length_eq_add_one hlength.symm
    have hrest_length : l.length = m.length := by simpa using hlength
    have hl' := hl.of_subset (List.subset_cons_self c l)
    have hm' := hm.of_subset (List.subset_cons_self d m)
    have hc := digit_bounds (hl c List.mem_cons_self)
    have hd := digit_bounds (hm d List.mem_cons_self)
    rw [ofDigitChars_cons, ofDigitChars_cons, hrest_length] at h
    have hfirst := congrArg (· / 10 ^ m.length) h
    have hrest := congrArg (· % 10 ^ m.length) h
    simp only [Nat.mul_add_div (Nat.pow_pos (by decide : 0 < 10)), Nat.mul_add_mod,
      Nat.div_eq_of_lt (hrest_length ▸ ofDigitChars_lt hl'), Nat.div_eq_of_lt (ofDigitChars_lt hm'),
      Nat.mod_eq_of_lt (hrest_length ▸ ofDigitChars_lt hl'), Nat.mod_eq_of_lt (ofDigitChars_lt hm')]
      at hfirst hrest
    obtain rfl : c = d := Char.toNat_inj.mp (by omega)
    rw [ih hl' hm' hrest_length hrest]

/-- The printed number is the shortest list of its digits. -/
theorem toDigits_shortest (h : AllDigits l) (hne : l ≠ []) :
    Nat.toDigits 10 (Nat.ofDigitChars 10 l 0) = l ∨
      (Nat.toDigits 10 (Nat.ofDigitChars 10 l 0)).length < l.length := by
  have hle := (Nat.length_toDigits_le_iff (by decide) (List.length_pos_iff.mpr hne)).mpr
    (ofDigitChars_lt h)
  rcases hle.lt_or_eq with hlt | heq
  · exact .inr hlt
  · exact .inl (eq_of_ofDigitChars (allDigits_toDigits _) h heq Nat.ofDigitChars_ten_toDigits)

/-- The digits of a number after as many zeros as give them this length. -/
def paddedDigits (k n : Nat) : List Char := List.leftpad k '0' (Nat.toDigits 10 n)

theorem allDigits_padded (k n : Nat) : AllDigits (paddedDigits k n) :=
  (allDigits_zeros _).append (allDigits_toDigits n)

theorem length_padded {k n : Nat} (hk : 0 < k) (hn : n < 10 ^ k) : (paddedDigits k n).length = k := by
  rw [paddedDigits, List.length_leftpad]
  exact max_eq_left ((Nat.length_toDigits_le_iff (by decide) hk).mpr hn)

theorem ofDigitChars_padded (k n : Nat) : Nat.ofDigitChars 10 (paddedDigits k n) 0 = n := by
  rw [paddedDigits, List.leftpad, ofDigitChars_append, Nat.ofDigitChars_replicate_zero,
    Nat.mul_zero, Nat.mul_zero, Nat.zero_add, Nat.ofDigitChars_ten_toDigits]

/-- The list without its last zeros. -/
def withoutZeros (l : List Char) : List Char := l.rdropWhile (· == '0')

theorem withoutZeros_starts (l : List Char) : withoutZeros l <+: l := List.rdropWhile_prefix _ _

theorem withoutZeros_append (l : List Char) (k : Nat) :
    withoutZeros (l ++ List.replicate k '0') = withoutZeros l := by
  induction k with
  | zero => simp
  | succ k ih =>
    rw [List.replicate_succ', ← List.append_assoc, withoutZeros, List.rdropWhile_concat_pos _ _ _ rfl]
    exact ih

theorem withoutZeros_cons (l : List Char) {c : Char} (hc : c ≠ '0') :
    withoutZeros (m ++ c :: l) = m ++ c :: withoutZeros l := by
  simp only [withoutZeros, List.rdropWhile, List.reverse_append, List.reverse_cons,
    List.append_assoc, List.singleton_append, List.dropWhile_append]
  split
  · next h => simp [List.isEmpty_iff.mp h, hc]
  · simp

theorem withoutZeros_padded (l : List Char) :
    ∃ k, l = withoutZeros l ++ List.replicate k '0' := by
  refine ⟨(l.rtakeWhile (· == '0')).length, ?_⟩
  conv_lhs => rw [← List.rdropWhile_append_rtakeWhile (p := (· == '0')) (l := l)]
  rw [withoutZeros, List.append_cancel_left_eq]
  exact List.eq_replicate_iff.mpr ⟨rfl, fun c hc => by simpa using List.mem_rtakeWhile_imp hc⟩

end Backit.Lib
