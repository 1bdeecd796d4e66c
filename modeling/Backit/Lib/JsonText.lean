import Backit.Lib.Json

/-!
# The text of a JSON value

The text of a value without white space, and that a value is read from it in one way only.
-/

namespace Backit.Lib.Json

def hexDigits : List Char :=
  ['0', '1', '2', '3', '4', '5', '6', '7', '8', '9', 'a', 'b', 'c', 'd', 'e', 'f']

def hexDigit (n : Nat) : Char := hexDigits.getD n '0'

/-- A character of a string. Quotes, backslashes and control characters are escaped. -/
def escape (c : Char) : List Char :=
  if c = '"' then ['\\', '"']
  else if c = '\\' then ['\\', '\\']
  else if c = '\x08' then ['\\', 'b']
  else if c = '\x0c' then ['\\', 'f']
  else if c = '\n' then ['\\', 'n']
  else if c = '\r' then ['\\', 'r']
  else if c = '\t' then ['\\', 't']
  else if c.toNat < 32 then
    ['\\', 'u', '0', '0', hexDigit (c.toNat / 16), hexDigit (c.toNat % 16)]
  else [c]

/-- The rest of a string, up to its closing quote. -/
def quotedRest : List Char → List Char
  | [] => ['"']
  | c :: cs => escape c ++ quotedRest cs

def quoted (s : String) : List Char := '"' :: quotedRest s.toList

/-- Texts between commas, up to a closing bracket. -/
def separated (close : Char) : List (List Char) → List Char
  | [] => [close]
  | [text] => text ++ [close]
  | text :: rest => text ++ ',' :: separated close rest

def scalarText : Json → List Char
  | .null => ['n', 'u', 'l', 'l']
  | .bool true => ['t', 'r', 'u', 'e']
  | .bool false => ['f', 'a', 'l', 's', 'e']
  | .num n => n.text
  | .str s => quoted s
  | .arr _ => []
  | .obj _ => []

/-- The text of a member, given that of its value. -/
def memberText (m : String × List Char) : List Char := quoted m.1 ++ ':' :: m.2

/-- The characters of `JSON.stringify(value)`. -/
def text : Json → List Char :=
  fold scalarText (fun elements => '[' :: separated ']' elements)
    fun members => '\x7b' :: separated '\x7d' (members.map memberText)

/-- `JSON.stringify(value)`. -/
def stringify (value : Json) : String := String.ofList value.text

/-- The character that an escape stands for. -/
def unescaped (c : Char) : Char :=
  if c = 'b' then '\x08'
  else if c = 'f' then '\x0c'
  else if c = 'n' then '\n'
  else if c = 'r' then '\r'
  else if c = 't' then '\t'
  else c

def hexValue (c : Char) : Nat := hexDigits.idxOf c

/-- Reads a character of a string. -/
def readChar : List Char → Option (Char × List Char)
  | '\\' :: 'u' :: _ :: _ :: high :: low :: rest =>
    some (Char.ofNat (16 * hexValue high + hexValue low), rest)
  | '\\' :: c :: rest => some (unescaped c, rest)
  | c :: rest => some (c, rest)
  | [] => none

theorem hexValue_hexDigit {n : Nat} (h : n < 16) : hexValue (hexDigit n) = n := by
  have hall : ∀ k : Fin 16, hexValue (hexDigit k) = k := by decide
  exact hall ⟨n, h⟩

/-- An escaped character is read back. -/
theorem readChar_escape (c : Char) (rest : List Char) :
    readChar (escape c ++ rest) = some (c, rest) := by
  unfold escape
  split
  · next h => subst h; rfl
  split
  · next h => subst h; rfl
  split
  · next h => subst h; rfl
  split
  · next h => subst h; rfl
  split
  · next h => subst h; rfl
  split
  · next h => subst h; rfl
  split
  · next h => subst h; rfl
  split
  · next h =>
    have hchar : Char.ofNat (16 * (c.toNat / 16) + c.toNat % 16) = c := by
      rw [Nat.div_add_mod]
      exact Char.ofNat_toNat c
    simp only [List.cons_append, List.nil_append, readChar]
    rw [hexValue_hexDigit (by omega), hexValue_hexDigit (by omega), hchar]
  · next hbackslash _ _ _ _ _ _ =>
    simp only [List.cons_append, List.nil_append]
    unfold readChar
    split
    · next heq => exact absurd (List.cons.inj heq).1 hbackslash
    · next heq => exact absurd (List.cons.inj heq).1 hbackslash
    · next heq =>
      obtain ⟨rfl, rfl⟩ := List.cons.inj heq
      rfl
    · next heq => cases heq

/-- No character's text starts with a quote. -/
theorem escape_ne_quote (c : Char) (r s : List Char) : escape c ++ r ≠ '"' :: s := by
  unfold escape
  repeat' split
  all_goals simp_all

/-- A string and what follows it are read in one way. -/
theorem quotedRest_readable {cs ds r s : List Char} (h : quotedRest cs ++ r = quotedRest ds ++ s) :
    cs = ds ∧ r = s := by
  induction cs generalizing ds with
  | nil =>
    cases ds with
    | nil => exact ⟨rfl, (List.cons.inj h).2⟩
    | cons d ds =>
      rw [quotedRest, quotedRest, List.append_assoc] at h
      exact absurd h.symm (escape_ne_quote _ _ _)
  | cons c cs ih =>
    cases ds with
    | nil =>
      rw [quotedRest, quotedRest, List.append_assoc] at h
      exact absurd h (escape_ne_quote _ _ _)
    | cons d ds =>
      rw [quotedRest, quotedRest, List.append_assoc, List.append_assoc] at h
      have hread := congrArg readChar h
      rw [readChar_escape, readChar_escape] at hread
      obtain ⟨rfl, hrest⟩ := Prod.mk.inj (Option.some.inj hread)
      obtain ⟨rfl, hrs⟩ := ih hrest
      exact ⟨rfl, hrs⟩

theorem quoted_readable {a b : String} {r s : List Char} (h : quoted a ++ r = quoted b ++ s) :
    a = b ∧ r = s := by
  obtain ⟨hchars, hrest⟩ := quotedRest_readable (List.cons.inj h).2
  exact ⟨String.toList_inj.mp hchars, hrest⟩

/-- What may follow a value. -/
def Ends : List Char → Prop
  | [] => True
  | c :: _ => c = ',' ∨ c = ']' ∨ c = '\x7d'

/-- A text and what follows it are read in one way. -/
def Readable {α : Type} (text : α → List Char) (x : α) : Prop :=
  ∀ (y : α) (r s : List Char), Ends r → Ends s → text x ++ r = text y ++ s → x = y ∧ r = s

theorem takeWhile_numeral {n : Numeral} {r : List Char} (hr : Ends r) :
    (n.text ++ r).takeWhile (· ∈ numeralChars) = n.text := by
  rw [List.takeWhile_append_of_pos (by simpa using n.numeric)]
  cases r with
  | nil => simp
  | cons c r =>
    have hc : c ∉ numeralChars := by obtain rfl | rfl | rfl := hr <;> decide
    simp [hc]

theorem numeral_readable (n : Numeral) : Readable Numeral.text n := by
  intro m r s hr hs h
  have htext : n.text = m.text := by rw [← takeWhile_numeral hr, h, takeWhile_numeral hs]
  rw [htext] at h
  obtain ⟨nt, _, _⟩ := n
  obtain ⟨mt, _, _⟩ := m
  exact ⟨by simpa using htext, List.append_cancel_left h⟩

section Lists

variable {α : Type} {texts : α → List Char} {close : Char}

/-- What follows a text between commas. -/
def following (close : Char) : List (List Char) → List Char
  | [] => [close]
  | text :: rest => ',' :: separated close (text :: rest)

theorem separated_cons (t : List Char) (ts : List (List Char)) :
    separated close (t :: ts) = t ++ following close ts := by
  cases ts <;> rfl

/-- Texts between commas are read in one way if each of them is and none starts with the closing
bracket. -/
theorem separated_readable (hclose : close = ']' ∨ close = '\x7d')
    (hfirst : ∀ y, ∃ c t, texts y = c :: t ∧ c ≠ close) (xs : List α)
    (hxs : ∀ x ∈ xs, Readable texts x) (ys : List α) (r s : List Char)
    (h : separated close (xs.map texts) ++ r = separated close (ys.map texts) ++ s) :
    xs = ys ∧ r = s := by
  have hends : ∀ ts r, Ends (following close ts ++ r) := fun ts r => by
    cases ts with
    | nil => exact .inr hclose
    | cons t ts => exact .inl rfl
  have hcomma : close ≠ ',' := by rcases hclose with rfl | rfl <;> decide
  induction xs generalizing ys with
  | nil =>
    cases ys with
    | nil => exact ⟨rfl, (List.cons.inj h).2⟩
    | cons y ys =>
      obtain ⟨c, t, hy, hc⟩ := hfirst y
      rw [List.map_cons, separated_cons, hy] at h
      exact absurd (List.cons.inj h).1.symm hc
  | cons x xs ih =>
    cases ys with
    | nil =>
      obtain ⟨c, t, hx, hc⟩ := hfirst x
      rw [List.map_cons, separated_cons, hx] at h
      exact absurd (List.cons.inj h).1 hc
    | cons y ys =>
      rw [List.map_cons, List.map_cons, separated_cons, separated_cons, List.append_assoc,
        List.append_assoc] at h
      obtain ⟨rfl, hrest⟩ := hxs x (.head _) y _ _ (hends _ r) (hends _ s) h
      cases xs with
      | nil =>
        cases ys with
        | nil => exact ⟨rfl, (List.cons.inj hrest).2⟩
        | cons y ys => exact absurd (List.cons.inj hrest).1 hcomma
      | cons x' xs =>
        cases ys with
        | nil => exact absurd (List.cons.inj hrest).1.symm hcomma
        | cons y ys =>
          obtain ⟨hxy, hrs⟩ := ih (fun x hx => hxs x (.tail _ hx)) (y :: ys)
            (List.cons.inj hrest).2
          exact ⟨by rw [hxy], hrs⟩

end Lists

/-- The kind of a value, which the first character of its text shows. -/
inductive Kind where
  | null
  | bool (b : Bool)
  | number
  | string
  | array
  | object
  | close
  deriving DecidableEq

def kind : Json → Kind
  | .null => .null
  | .bool b => .bool b
  | .num _ => .number
  | .str _ => .string
  | .arr _ => .array
  | .obj _ => .object

def leading (c : Char) : Kind :=
  if c = 'n' then .null
  else if c = 't' then .bool true
  else if c = 'f' then .bool false
  else if c = '"' then .string
  else if c = '[' then .array
  else if c = '\x7b' then .object
  else if c ∈ numeralChars then .number
  else .close

theorem text_arr (elements : List Json) :
    text (.arr elements) = '[' :: separated ']' (elements.map text) := by
  simp [text]

theorem text_obj (members : List (String × Json)) : text (.obj members) =
      '\x7b' :: separated '\x7d' (members.map fun m => memberText (onValue text m)) := by
  simp only [text, fold_obj, List.map_map]
  rfl

theorem text_leading (value : Json) : ∃ c t, value.text = c :: t ∧ leading c = value.kind := by
  cases value with
  | null => exact ⟨_, _, by simp [text, fold, scalarText]; exact ⟨rfl, rfl⟩, rfl⟩
  | bool b => cases b <;> exact ⟨_, _, by simp [text, fold, scalarText]; exact ⟨rfl, rfl⟩, rfl⟩
  | num n =>
    obtain ⟨numeral, hne, hnumeric⟩ := n
    obtain ⟨c, t, rfl⟩ := List.exists_cons_of_ne_nil hne
    refine ⟨c, t, by simp [text, fold, scalarText], ?_⟩
    have hall : ∀ c ∈ numeralChars, leading c = .number := by simp [numeralChars, leading]
    exact hall c (hnumeric c (.head _))
  | str s => exact ⟨_, _, by simp [text, fold, scalarText, quoted]; exact ⟨rfl, rfl⟩, rfl⟩
  | arr elements => exact ⟨_, _, text_arr elements, rfl⟩
  | obj members => exact ⟨_, _, text_obj members, rfl⟩

theorem kind_eq {x y : Json} {r s : List Char} (h : x.text ++ r = y.text ++ s) :
    x.kind = y.kind := by
  obtain ⟨c, t, hx, hc⟩ := text_leading x
  obtain ⟨d, u, hy, hd⟩ := text_leading y
  rw [hx, hy] at h
  rw [← hc, ← hd, (List.cons.inj h).1]

/-- No value's text starts with a closing bracket. -/
theorem text_start {close : Char} (hclose : close = ']' ∨ close = '\x7d') (value : Json) :
    ∃ c t, value.text = c :: t ∧ c ≠ close := by
  obtain ⟨c, t, htext, hc⟩ := text_leading value
  refine ⟨c, t, htext, ?_⟩
  rintro rfl
  have hbracket : leading c = .close := by rcases hclose with rfl | rfl <;> decide
  rw [hbracket] at hc
  cases value <;> cases hc

theorem scalar_readable {value : Json} (hscalar : value.isComposite = false) :
    Readable text value := by
  intro y r s hr hs h
  have hkind := kind_eq h
  cases value with
  | null =>
    cases y <;> cases hkind
    exact ⟨rfl, List.append_cancel_left h⟩
  | bool b =>
    cases y <;> cases hkind
    exact ⟨rfl, List.append_cancel_left h⟩
  | num n =>
    cases y with
    | num m =>
      simp only [text, fold, scalarText] at h
      obtain ⟨rfl, hrs⟩ := numeral_readable n m r s hr hs h
      exact ⟨rfl, hrs⟩
    | _ => cases hkind
  | str a =>
    cases y with
    | str b =>
      simp only [text, fold, scalarText] at h
      obtain ⟨rfl, hrs⟩ := quoted_readable h
      exact ⟨rfl, hrs⟩
    | _ => cases hkind
  | arr | obj => cases hscalar

/-- A member is read in one way if its value is. -/
theorem member_readable {m : String × Json} (hvalue : Readable text m.2) :
    Readable (fun m : String × Json => memberText (onValue text m)) m := by
  intro n r s hr hs h
  simp only [memberText, onValue, List.append_assoc] at h
  obtain ⟨hkey, hrest⟩ := quoted_readable h
  obtain ⟨hval, hrs⟩ := hvalue n.2 r s hr hs (List.cons.inj hrest).2
  exact ⟨Prod.ext hkey hval, hrs⟩

/-- A value and what follows it are read in one way. -/
theorem text_readable (value : Json) : Readable text value := by
  induction value using induct with
  | scalar value hscalar => exact scalar_readable hscalar
  | arr elements ih =>
    intro y r s hr hs h
    have hkind := kind_eq h
    cases y with
    | arr elements' =>
      rw [text_arr, text_arr] at h
      obtain ⟨rfl, hrs⟩ := separated_readable (.inl rfl) (text_start (.inl rfl)) elements ih
        elements' r s (List.cons.inj h).2
      exact ⟨rfl, hrs⟩
    | _ => cases hkind
  | obj members ih =>
    intro y r s hr hs h
    have hkind := kind_eq h
    cases y with
    | obj members' =>
      rw [text_obj, text_obj] at h
      have hquote : ∀ m : String × Json, ∃ c t, memberText (onValue text m) = c :: t ∧
          c ≠ '\x7d' := fun m => ⟨'"', _, rfl, by decide⟩
      obtain ⟨rfl, hrs⟩ := separated_readable (.inr rfl) hquote members
        (fun m hm => member_readable (ih m hm)) members' r s (List.cons.inj h).2
      exact ⟨rfl, hrs⟩
    | _ => cases hkind

/-- A value is determined by its text. -/
theorem stringify_injective {x y : Json} (h : x.stringify = y.stringify) : x = y := by
  have htext : x.text = y.text := String.ofList_inj.mp h
  have h' : x.text ++ [] = y.text ++ [] := by rw [htext]
  exact (text_readable x y [] [] trivial trivial h').1

end Backit.Lib.Json
