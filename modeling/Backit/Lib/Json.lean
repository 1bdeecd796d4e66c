import Mathlib.Data.List.Pairwise
import Mathlib.Data.List.Sort

/-!
# JSON values

Objects list their members in the order of the text. A number is what `JSON.stringify` prints for
it.
-/

namespace Backit.Lib

/-- The characters of a printed number. -/
def numeralChars : List Char :=
  ['0', '1', '2', '3', '4', '5', '6', '7', '8', '9', '-', '+', '.', 'e']

/-- A number, by its shortest text. -/
structure Numeral where
  text : List Char
  nonempty : text ≠ []
  numeric : ∀ c ∈ text, c ∈ numeralChars
  deriving DecidableEq

inductive Json where
  | null
  | bool (b : Bool)
  | num (n : Numeral)
  | str (s : String)
  | arr (elements : List Json)
  | obj (members : List (String × Json))

namespace Json

/-- Arrays and objects. -/
def isComposite : Json → Bool
  | .arr _ => true
  | .obj _ => true
  | _ => false

/-- The entries of an array, with their indices as keys. -/
def indexed (elements : List Json) : List (String × Json) :=
  elements.mapIdx fun i x => (toString i, x)

/-- `Object.entries(value)` of an array or an object. -/
def entries : Json → List (String × Json)
  | .arr elements => indexed elements
  | .obj members => members
  | _ => []

end Json

end Backit.Lib

/-!
## Recursion over JSON values

Functions of a JSON value that are given by what they make of a scalar, of an array of results and
of members with results, and induction over the values.
-/

namespace Backit.Lib.Json

section Induction

variable {P : Json → Prop}

mutual

/-- A property of scalars that arrays inherit from their elements and objects from their members
holds of every value. -/
@[elab_as_elim]
theorem induct (scalar : ∀ value : Json, value.isComposite = false → P value)
    (arr : ∀ elements, (∀ x ∈ elements, P x) → P (.arr elements))
    (obj : ∀ members : List (String × Json), (∀ m ∈ members, P m.2) → P (.obj members)) :
    ∀ value, P value
  | .null => scalar .null rfl
  | .bool b => scalar (.bool b) rfl
  | .num n => scalar (.num n) rfl
  | .str s => scalar (.str s) rfl
  | .arr elements => arr elements (induct_elements scalar arr obj elements)
  | .obj members => obj members (induct_members scalar arr obj members)

theorem induct_elements (scalar : ∀ value : Json, value.isComposite = false → P value)
    (arr : ∀ elements, (∀ x ∈ elements, P x) → P (.arr elements))
    (obj : ∀ members : List (String × Json), (∀ m ∈ members, P m.2) → P (.obj members)) :
    ∀ elements : List Json, ∀ x ∈ elements, P x
  | [] => by simp
  | x :: rest => List.forall_mem_cons.mpr
      ⟨induct scalar arr obj x, induct_elements scalar arr obj rest⟩

theorem induct_members (scalar : ∀ value : Json, value.isComposite = false → P value)
    (arr : ∀ elements, (∀ x ∈ elements, P x) → P (.arr elements))
    (obj : ∀ members : List (String × Json), (∀ m ∈ members, P m.2) → P (.obj members)) :
    ∀ members : List (String × Json), ∀ m ∈ members, P m.2
  | [] => by simp
  | (_, value) :: rest => List.forall_mem_cons.mpr
      ⟨induct scalar arr obj value, induct_members scalar arr obj rest⟩

end

end Induction

section Fold

variable {α : Type} (scalar : Json → α) (arr : List α → α) (obj : List (String × α) → α)

mutual

def fold : Json → α
  | .null => scalar .null
  | .bool b => scalar (.bool b)
  | .num n => scalar (.num n)
  | .str s => scalar (.str s)
  | .arr elements => arr (foldElements elements)
  | .obj members => obj (foldMembers members)

def foldElements : List Json → List α
  | [] => []
  | x :: rest => fold x :: foldElements rest

def foldMembers : List (String × Json) → List (String × α)
  | [] => []
  | (k, v) :: rest => (k, fold v) :: foldMembers rest

end

/-- A function on the value of a member. -/
def onValue {α β : Type} (f : α → β) (m : String × α) : String × β := (m.1, f m.2)

@[simp] theorem onValue_fst {α β : Type} (f : α → β) (m : String × α) : (onValue f m).1 = m.1 := rfl

@[simp] theorem onValue_snd {α β : Type} (f : α → β) (m : String × α) : (onValue f m).2 = f m.2 := rfl

theorem fold_scalar {value : Json} (h : value.isComposite = false) :
    fold scalar arr obj value = scalar value := by
  cases value with
  | null | bool | num | str => simp [fold]
  | arr | obj => cases h

@[simp] theorem fold_arr (elements : List Json) :
    fold scalar arr obj (.arr elements) = arr (elements.map (fold scalar arr obj)) := by
  have h : ∀ xs : List Json, foldElements scalar arr obj xs = xs.map (fold scalar arr obj) := by
    intro xs
    induction xs with
    | nil => simp [foldElements]
    | cons x xs ih => simp [foldElements, ih]
  rw [fold, h]

@[simp] theorem fold_obj (members : List (String × Json)) :
    fold scalar arr obj (.obj members) = obj (members.map (onValue (fold scalar arr obj))) := by
  have h : ∀ ms : List (String × Json),
      foldMembers scalar arr obj ms = ms.map (onValue (fold scalar arr obj)) := by
    intro ms
    induction ms with
    | nil => simp [foldMembers]
    | cons m ms ih => simp [foldMembers, onValue, ih]
  rw [fold, h]

end Fold

end Backit.Lib.Json

/-!
## The order of keys

Members sorted by their keys, and JSON values up to the order of the keys of their objects.
-/

namespace Backit.Lib.Json

section Sorting

variable {α : Type} (order : String → String → Ordering)

/-- Members sorted by their keys, those with keys of one place as they stand. -/
def sortByKey (members : List (String × α)) : List (String × α) :=
  members.insertionSort fun a b => (order a.1 b.1).isLE = true

theorem sortByKey_perm (members : List (String × α)) : (sortByKey order members).Perm members :=
  List.perm_insertionSort _ members

/-- The keys have different places in the order. -/
def Distinct (members : List (String × α)) : Prop :=
  (members.map (·.1)).Pairwise fun a b => order a b ≠ .eq

instance (members : List (String × α)) : Decidable (Distinct order members) :=
  inferInstanceAs (Decidable (List.Pairwise _ _))

variable {order}

theorem distinct_onValue {β : Type} (f : α → β) {members : List (String × α)} :
    Distinct order (members.map (onValue f)) ↔ Distinct order members := by
  simp only [Distinct, List.map_map]
  rfl

variable [Std.TransCmp order]

theorem sortByKey_sorted (members : List (String × α)) :
    (sortByKey order members).Pairwise fun a b => (order a.1 b.1).isLE = true := by
  let le := fun a b : String × α => (order a.1 b.1).isLE = true
  have htotal : Std.Total le := ⟨fun a b => by
    by_cases h : (order a.1 b.1).isLE = true
    · exact .inl h
    · exact .inr (Ordering.isLE_of_eq_lt (Std.OrientedCmp.lt_of_not_isLE h))⟩
  have htrans : IsTrans (String × α) le := ⟨fun a b c hab hbc => Std.TransCmp.isLE_trans hab hbc⟩
  exact List.pairwise_insertionSort le members

omit [Std.TransCmp order] in
/-- Members whose keys have one place are the same, where the keys are distinct. -/
theorem Distinct.eq_of_tie [Std.OrientedCmp order] {members : List (String × α)}
    (h : Distinct order members) {a b : String × α} (ha : a ∈ members) (hb : b ∈ members)
    (htie : order a.1 b.1 = .eq) : a = b := by
  by_contra hne
  have hsymm : Std.Symm fun a b : String × α => order a.1 b.1 ≠ .eq :=
    ⟨fun a b hab hba => hab (Std.OrientedCmp.eq_symm hba)⟩
  exact (List.pairwise_map.mp h).forall ha hb hne htie

/-- Sorting by distinct keys gives one list for all orders of the members. -/
theorem sortByKey_eq {members members' : List (String × α)} (hperm : members.Perm members')
    (hdistinct : Distinct order members) :
    sortByKey order members = sortByKey order members' := by
  refine List.Perm.eq_of_pairwise (fun a b ha hb hab hba => ?_) (sortByKey_sorted members)
    (sortByKey_sorted members')
    ((sortByKey_perm order members).trans (hperm.trans (sortByKey_perm order members').symm))
  have ha' := (sortByKey_perm order members).mem_iff.mp ha
  have hb' := hperm.mem_iff.mpr ((sortByKey_perm order members').mem_iff.mp hb)
  exact hdistinct.eq_of_tie ha' hb' (Std.OrientedCmp.isLE_antisymm hab hba)

end Sorting

/-- A value with the members of every object in the order of their keys. -/
def normal : Json → Json := fold id .arr fun members => .obj (sortByKey compare members)

/-- Values are the same up to the order of keys. -/
def Same (a b : Json) : Prop := a.normal = b.normal

/-- A value with every array as an object that has the indices as keys. -/
def arraysAsObjects : Json → Json := fold id (fun elements => .obj (indexed elements)) .obj

/-- The keys of every object have different places in the order. -/
def distinctKeys (order : String → String → Ordering) : Json → Bool :=
  fold (fun _ => true) (fun elements => elements.all id)
    fun members => decide (Distinct order members) && members.all (·.2)

theorem normal_scalar {value : Json} (h : value.isComposite = false) : value.normal = value :=
  fold_scalar _ _ _ h

theorem normal_arr (elements : List Json) : normal (.arr elements) = .arr (elements.map normal) :=
  fold_arr _ _ _ elements

theorem normal_obj (members : List (String × Json)) :
    normal (.obj members) = .obj (sortByKey compare (members.map (onValue normal))) :=
  fold_obj _ _ _ members

theorem distinctKeys_arr {order : String → String → Ordering} {elements : List Json} :
    distinctKeys order (.arr elements) = true ↔ ∀ x ∈ elements, x.distinctKeys order = true := by
  simp [distinctKeys]

theorem distinctKeys_obj {order : String → String → Ordering} {members : List (String × Json)} :
    distinctKeys order (.obj members) = true ↔
      Distinct order members ∧ ∀ m ∈ members, m.2.distinctKeys order = true := by
  simp only [distinctKeys, fold_obj, Bool.and_eq_true, decide_eq_true_eq, List.all_map,
    List.all_eq_true, Function.comp_apply, onValue_snd]
  rw [distinct_onValue]

/-- Objects with distinct keys are the same if their members are, in some order, and only then. -/
theorem same_obj_iff {members members' : List (String × Json)} (h : Distinct compare members) :
    Same (.obj members) (.obj members') ↔
      (members.map (onValue normal)).Perm (members'.map (onValue normal)) := by
  unfold Same
  rw [normal_obj, normal_obj]
  constructor
  · intro hsame
    have hsorted := Json.obj.inj hsame
    have hperm := sortByKey_perm compare (members.map (onValue normal))
    rw [hsorted] at hperm
    exact hperm.symm.trans (sortByKey_perm compare _)
  · intro hperm
    rw [sortByKey_eq hperm ((distinct_onValue normal).mpr h)]

theorem toString_injective {m n : Nat} (h : toString m = toString n) : m = n := by
  have hdigits := congrArg String.toList h
  simp only [Nat.toString_eq_ofList_toDigits, String.toList_ofList] at hdigits
  rw [← Nat.ofDigitChars_ten_toDigits (n := m), hdigits, Nat.ofDigitChars_ten_toDigits]

theorem indexed_onValue (f : Json → Json) (elements : List Json) :
    (indexed elements).map (onValue f) = indexed (elements.map f) := by
  unfold indexed
  apply List.ext_getElem
  · simp
  · intro i hi hi'
    simp [onValue]

/-- The indices of an array are distinct keys. -/
theorem distinct_indexed (elements : List Json) : Distinct compare (indexed elements) := by
  rw [Distinct, List.pairwise_iff_getElem]
  intro i j hi hj hlt htie
  simp only [indexed, List.getElem_map, List.getElem_mapIdx] at htie
  have := toString_injective (Std.LawfulEqCmp.eq_of_compare htie)
  omega

end Backit.Lib.Json
