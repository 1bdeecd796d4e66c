import Backit.Lib.Digits
import Mathlib.Data.Char
import Mathlib.Data.List.Dedup
import Mathlib.Data.List.Lex

/-!
# The partitions of the event log

Maintenance moves the rows of the default partition into partitions of their own, and creates those
of the highest ledger and of some more. A partition is known by its number, printed with seven
digits: it is there when its name is, and the order of the names is that of the ranges, as long as
no number has more digits than that.
-/

namespace Backit.EventLogs

open Lib

/-- `PARTITION_SIZE`. -/
def partitionSize : Nat := 100000

/-- A row of the log, with what else it holds. -/
structure EventLog (R : Type) where
  ledger : UInt32
  content : R
  deriving DecidableEq

/-- A partition for the ledgers from `start` on. -/
structure Partition (R : Type) where
  name : List Char
  start : Nat
  rows : List (EventLog R)
  deriving DecidableEq

/-- The table: its partitions, and the rows of the default one. -/
structure Table (R : Type) where
  partitions : List (Partition R)
  stranded : List (EventLog R)
  deriving DecidableEq

/-- The text with zeros in front, or cut, to `length` characters. -/
def lpad (text : List Char) (length : Nat) : List Char := (List.leftpad length '0' text).take length

def nameOf (number : Nat) : List Char := "event_logs_p".toList ++ lpad (Nat.toDigits 10 number) 7

variable {R : Type}

/-- The number of the partition that a row belongs to. -/
def EventLog.number (row : EventLog R) : Nat := row.ledger.toNat / partitionSize

def covers (start : Nat) (row : EventLog R) : Bool :=
  start ≤ row.ledger.toNat && row.ledger.toNat < start + partitionSize

namespace Table

variable (table : Table R)

def rows : List (EventLog R) := table.partitions.flatMap (·.rows) ++ table.stranded

/-- A row goes into the partition of its range, or else into the default one. -/
def insert (row : EventLog R) : Table R :=
  if table.partitions.any (covers ·.start row) then
    { table with
      partitions := table.partitions.map fun p =>
        if covers p.start row then { p with rows := p.rows ++ [row] } else p }
  else { table with stranded := table.stranded ++ [row] }

/-- `ATTACH PARTITION` refuses a range that another partition has part of, and one of which the
default partition still has rows. -/
def attach (p : Partition R) : Option (Table R) :=
  if table.partitions.any (fun q =>
        q.start < p.start + partitionSize && p.start < q.start + partitionSize) ||
      table.stranded.any (covers p.start) then none
  else some { table with partitions := table.partitions ++ [p] }

/-- Whether the partition was created, and the table after that. -/
def createPartition (pStart : Int) : Option (Bool × Table R) :=
  let vStart := pStart.tdiv partitionSize * partitionSize
  let vName := nameOf (vStart.tdiv partitionSize).toNat
  if vStart < 0 then some (false, table)
  else if table.partitions.any (·.name = vName) then some (false, table)
  else do
    let moved := table.stranded.filter (covers vStart.toNat)
    let left := { table with stranded := table.stranded.filter (!covers vStart.toNat ·) }
    let attached ← left.attach ⟨vName, vStart.toNat, moved⟩
    some (true, attached)

/-- Partitions are created one after the other; how many were new. -/
def createAll (table : Table R) : List Int → Option (Nat × Table R)
  | [] => some (0, table)
  | start :: starts => do
      let (isNew, table') ← table.createPartition start
      let (created, final) ← table'.createAll starts
      some ((if isNew then 1 else 0) + created, final)

/-- `MAX("ledger")`. -/
def maxLedgerOf (rows : List (EventLog R)) : Option Nat := (rows.map (·.ledger.toNat)).max?

/-- The highest ledger of the table, or the one that the caller knows of. -/
def head (current : Option UInt32) : Nat :=
  max ((maxLedgerOf table.rows).getD 0) ((current.map (·.toNat)).getD 0)

def strandedStarts : List Int :=
  (table.stranded.map fun row => ((row.number * partitionSize : Nat) : Int)).dedup

def headStarts (pLookahead : Int) (current : Option UInt32) : List Int :=
  (List.range ((max pLookahead 0).toNat + 1)).map fun i =>
    ((table.head current / partitionSize + i) * partitionSize : Nat)

/-- The number of partitions created, and the table after that. -/
def maintainPartitions (pLookahead : Int) (current : Option UInt32) : Option (Nat × Table R) := do
  let (rescued, table') ← table.createAll table.strandedStarts
  let (created, final) ← table'.createAll (table'.headStarts pLookahead current)
  some (rescued + created, final)

/-- The partitions are probed from the last name on. -/
def maxLedger : Option Nat :=
  let vDefault := maxLedgerOf table.stranded
  let probed := table.partitions.mergeSort fun p q => decide (q.name ≤ p.name)
  match probed.findSome? fun p => maxLedgerOf p.rows with
  | some v => some (max v (vDefault.getD v))
  | none => vDefault

end Table

/-- What happens to the table. -/
inductive Action (R : Type) where
  | insert (row : EventLog R)
  | maintain (pLookahead : Int) (current : Option UInt32)

def Action.next (table : Table R) : Action R → Option (Table R)
  | .insert row => some (table.insert row)
  | .maintain pLookahead current => (table.maintainPartitions pLookahead current).map (·.2)

/-- The table after some actions, if none of them failed. -/
def tableAfter (actions : List (Action R)) : Option (Table R) := actions.foldlM Action.next ⟨[], []⟩

example : (tableAfter (R := Unit) [.insert ⟨250000, ()⟩, .maintain 1 none]).map
    (·.partitions.map (·.start)) = some [200000, 300000] := by decide +kernel

theorem name_eq {number : Nat} (h : number < 10 ^ 7) :
    nameOf number = "event_logs_p".toList ++ paddedDigits 7 number :=
  congrArg _ (List.take_of_length_le (length_padded (by decide) h).le)

/-- Digits of one length are in the order of their numbers. -/
theorem lt_of_ofDigitChars {l m : List Char} (hl : AllDigits l) (hm : AllDigits m)
    (hlength : l.length = m.length)
    (h : Nat.ofDigitChars 10 l 0 < Nat.ofDigitChars 10 m 0) : l < m := by
  induction l generalizing m with
  | nil => simp [List.length_eq_zero_iff.mp hlength.symm] at h
  | cons c l ih =>
    obtain ⟨d, m, rfl⟩ := List.exists_cons_of_length_eq_add_one hlength.symm
    have hrest_length : l.length = m.length := by simpa using hlength
    have hm' := ofDigitChars_lt (hm.of_subset (List.subset_cons_self d m))
    rw [ofDigitChars_cons, ofDigitChars_cons, hrest_length] at h
    rcases lt_trichotomy c d with hlt | rfl | hgt
    · exact .rel hlt
    · exact .cons (ih (hl.of_subset (List.subset_cons_self c l))
        (hm.of_subset (List.subset_cons_self c m)) hrest_length (by omega))
    · have hcd : d.toNat < c.toNat := hgt
      have hd := (digit_bounds (hm d List.mem_cons_self)).1
      have hle : 10 ^ m.length * (d.toNat - 48 + 1) ≤ 10 ^ m.length * (c.toNat - 48) :=
        Nat.mul_le_mul_left _ (by omega)
      rw [Nat.mul_add] at hle
      omega

/-- Up to seven digits, names are ordered as the numbers. -/
theorem name_lt {number larger : Nat} (hlt : number < larger) (h : larger < 10 ^ 7) :
    nameOf number < nameOf larger := by
  have hsmall := Nat.lt_trans hlt h
  have hpadded : paddedDigits 7 number < paddedDigits 7 larger := by
    refine lt_of_ofDigitChars (allDigits_padded _ _) (allDigits_padded _ _) ?_ ?_
    · rw [length_padded (by decide) h, length_padded (by decide) hsmall]
    · rwa [ofDigitChars_padded, ofDigitChars_padded]
  rw [name_eq h, name_eq hsmall]
  exact List.Lex.append_left _ hpadded _

theorem name_injective {number other : Nat} (h : number < 10 ^ 7) (h' : other < 10 ^ 7)
    (heq : nameOf number = nameOf other) : number = other := by
  rcases lt_trichotomy number other with hlt | heq' | hgt
  · exact absurd heq (name_lt hlt h').ne
  · exact heq'
  · exact absurd heq.symm (name_lt hgt h).ne

section Ranges

theorem covers_iff {number : Nat} {row : EventLog R} :
    covers (number * partitionSize) row = true ↔ row.number = number := by
  simp only [covers, Bool.and_eq_true, decide_eq_true_eq]
  unfold EventLog.number partitionSize
  omega

theorem number_lt (row : EventLog R) : row.number < 42950 := by
  have h := row.ledger.toNat_lt
  unfold EventLog.number partitionSize
  omega

/-- The partition of a number is there. -/
def Table.Has (table : Table R) (number : Nat) : Prop :=
  ∃ p ∈ table.partitions, p.start = number * partitionSize

/-- A partition with the name of a number is there. -/
def Table.Named (table : Table R) (number : Nat) : Prop :=
  ∃ p ∈ table.partitions, p.name = nameOf number

/-- Partitions have different names, their own ranges' rows, and every row of these. -/
structure Table.Formed (table : Table R) : Prop where
  named : ∀ p ∈ table.partitions, ∃ number, p.name = nameOf number ∧ p.start = number * partitionSize
  distinct : (table.partitions.map (·.name)).Nodup
  placed : ∀ p ∈ table.partitions, ∀ row ∈ p.rows, covers p.start row = true
  apart : ∀ row ∈ table.stranded, ¬ table.Has row.number

/-- No partition has a number of more than seven digits. -/
def Table.Bounded (table : Table R) : Prop := ∀ number, table.Has number → number < 10 ^ 7

/-- What the creation of partitions keeps. -/
structure Table.Grows (table table' : Table R) : Prop where
  formed : table'.Formed
  rows : table'.rows.Perm table.rows
  kept : table.partitions ⊆ table'.partitions
  stranded : table'.stranded ⊆ table.stranded

variable {table table' : Table R}

theorem start_injective {number other : Nat}
    (h : number * partitionSize = other * partitionSize) : number = other :=
  Nat.eq_of_mul_eq_mul_right (by decide) h

/-- One name is of one partition. -/
theorem Table.Formed.eq_of_name (h : table.Formed) {p q : Partition R} (hp : p ∈ table.partitions)
    (hq : q ∈ table.partitions) (heq : p.name = q.name) : p = q :=
  List.inj_on_of_nodup_map h.distinct hp hq heq

theorem Table.Formed.eq_of_start (h : table.Formed) {p q : Partition R} (hp : p ∈ table.partitions)
    (hq : q ∈ table.partitions) (heq : p.start = q.start) : p = q := by
  obtain ⟨number, hname, hstart⟩ := h.named p hp
  obtain ⟨other, hname', hstart'⟩ := h.named q hq
  obtain rfl := start_injective (hstart.symm.trans (heq.trans hstart'))
  exact h.eq_of_name hp hq (hname.trans hname'.symm)

/-- A partition is there already, or is created with the rows of its range. -/
theorem create_cases (h : table.Formed) (number : Nat) :
    ∃ isNew table', table.createPartition (number * partitionSize : Nat) = some (isNew, table') ∧
      table.Grows table' ∧
      (∀ other, table'.Has other → table.Has other ∨ other = number) ∧ table'.Named number ∧
      (table.Named number → isNew = false ∧ table' = table) := by
  have hstart : ((number * partitionSize : Nat) : Int).tdiv partitionSize = number := by
    push_cast
    exact Int.mul_tdiv_cancel _ (by decide)
  have hnat : ((number : Int) * partitionSize).toNat = number * partitionSize := by
    exact_mod_cast Int.toNat_natCast (number * partitionSize)
  have hback : ((number : Int) * partitionSize).tdiv partitionSize = number :=
    Int.mul_tdiv_cancel _ (by decide)
  have hnonneg : ¬ (number : Int) * partitionSize < 0 := by
    have hpos := Int.mul_nonneg (Int.natCast_nonneg number) (Int.natCast_nonneg partitionSize)
    omega
  rw [Table.createPartition]
  simp only [hstart, hback, hnat, Int.toNat_natCast, if_neg hnonneg]
  by_cases hthere : table.partitions.any (·.name = nameOf number) = true
  · simp only [hthere, if_true]
    obtain ⟨p, hp, hname⟩ := List.any_eq_true.mp hthere
    exact ⟨false, table, rfl, ⟨h, .refl _, fun _ h => h, fun _ h => h⟩, fun _ h => .inl h,
      ⟨p, hp, of_decide_eq_true hname⟩, fun _ => ⟨rfl, rfl⟩⟩
  · have hnew : ∀ p ∈ table.partitions, p.name ≠ nameOf number := fun p hp heq =>
      hthere (List.any_eq_true.mpr ⟨p, hp, decide_eq_true heq⟩)
    have hapart : (table.partitions.any (fun q =>
        q.start < number * partitionSize + partitionSize &&
          number * partitionSize < q.start + partitionSize) ||
        (table.stranded.filter (!covers (number * partitionSize) ·)).any
          (covers (number * partitionSize))) = false := by
      rw [Bool.or_eq_false_iff, List.any_eq_false, List.any_eq_false]
      refine ⟨fun q hq hoverlap => ?_, fun row hrow hcovers => ?_⟩
      · obtain ⟨other, hname, hstart⟩ := h.named q hq
        simp only [hstart, Bool.and_eq_true, decide_eq_true_eq] at hoverlap
        have hsame : other = number := by
          unfold partitionSize at hoverlap
          omega
        exact hnew q hq (hsame ▸ hname)
      · simpa [hcovers] using (List.mem_filter.mp hrow).2
    have hmem : ∀ p, p ∈ table.partitions ++ [⟨nameOf number, number * partitionSize,
        table.stranded.filter (covers (number * partitionSize))⟩] ↔ p ∈ table.partitions ∨
          p = ⟨nameOf number, number * partitionSize,
            table.stranded.filter (covers (number * partitionSize))⟩ := fun p => by simp
    simp only [if_neg hthere, Table.attach, hapart, Bool.false_eq_true, if_false]
    refine ⟨true, _, rfl, ⟨⟨?_, ?_, ?_, ?_⟩, ?_, List.subset_append_left _ _,
      List.filter_subset_self _⟩, ?_, ⟨_, (hmem _).mpr (.inr rfl), rfl⟩, fun ⟨p, hp, hname⟩ =>
        absurd hname (hnew p hp)⟩
    · intro p hp
      rcases (hmem p).mp hp with hp | rfl
      · exact h.named p hp
      · exact ⟨number, rfl, rfl⟩
    · rw [List.map_append, List.map_singleton]
      refine List.Nodup.append h.distinct (List.nodup_singleton _) fun name hold hname => ?_
      obtain ⟨p, hp, rfl⟩ := List.mem_map.mp hold
      exact hnew p hp (List.mem_singleton.mp hname)
    · intro p hp row hrow
      rcases (hmem p).mp hp with hp | rfl
      · exact h.placed p hp row hrow
      · exact (List.mem_filter.mp hrow).2
    · rintro row hrow ⟨p, hp, hstart⟩
      obtain ⟨hrow, hcovers⟩ := List.mem_filter.mp hrow
      rcases (hmem p).mp hp with hp | rfl
      · exact h.apart row hrow ⟨p, hp, hstart⟩
      · have hcovered := covers_iff.mpr (start_injective hstart).symm
        simp [hcovered] at hcovers
    · have hparts := List.filter_append_perm (covers (number * partitionSize)) table.stranded
      simp only [Table.rows, List.flatMap_append, List.flatMap_singleton, List.append_assoc]
      exact hparts.append_left _
    · rintro other ⟨p, hp, hstart⟩
      rcases (hmem p).mp hp with hp | rfl
      · exact .inl ⟨p, hp, hstart⟩
      · exact .inr (start_injective hstart).symm

theorem Table.Grows.trans {table'' : Table R} (h : table.Grows table') (h' : table'.Grows table'') :
    table.Grows table'' :=
  ⟨h'.formed, h'.rows.trans h.rows, List.Subset.trans h.kept h'.kept,
    List.Subset.trans h'.stranded h.stranded⟩

theorem Table.Named.mono {number : Nat} (h : table.Named number)
    (hkept : table.partitions ⊆ table'.partitions) : table'.Named number := by
  obtain ⟨p, hp, hname⟩ := h
  exact ⟨p, hkept hp, hname⟩

/-- Creating partitions in turn. -/
theorem create_all_cases (h : table.Formed) (numbers : List Nat) :
    ∃ created table',
      table.createAll (numbers.map fun number => ((number * partitionSize : Nat) : Int)) =
        some (created, table') ∧ table.Grows table' ∧
      (∀ other, table'.Has other → table.Has other ∨ other ∈ numbers) ∧
      (∀ number ∈ numbers, table'.Named number) ∧
      ((∀ number ∈ numbers, table.Named number) → created = 0 ∧ table' = table) := by
  induction numbers generalizing table with
  | nil => exact ⟨0, table, rfl, ⟨h, .refl _, fun _ h => h, fun _ h => h⟩, fun _ h => .inl h,
      by simp, fun _ => ⟨rfl, rfl⟩⟩
  | cons number numbers ih =>
    obtain ⟨isNew, table₁, hcreate, hgrows, honly, hnamed, hsame⟩ := create_cases h number
    obtain ⟨created, table₂, hall, hgrows', honly', hnamed', hsame'⟩ := ih hgrows.formed
    refine ⟨(if isNew then 1 else 0) + created, table₂, ?_, hgrows.trans hgrows', ?_, ?_, ?_⟩
    · rw [List.map_cons, Table.createAll, hcreate]
      simp only [Option.bind_eq_bind, Option.bind_some, hall]
    · intro other hother
      rcases honly' other hother with hother | hother
      · rcases honly other hother with hother | rfl
        · exact .inl hother
        · exact .inr (.head _)
      · exact .inr (.tail _ hother)
    · intro n hn
      rcases List.mem_cons.mp hn with rfl | hn
      · exact hnamed.mono hgrows'.kept
      · exact hnamed' n hn
    · intro hnames
      obtain ⟨rfl, rfl⟩ := hsame (hnames number (.head _))
      obtain ⟨rfl, rfl⟩ := hsame' fun n hn => hnames n (.tail _ hn)
      exact ⟨rfl, rfl⟩

/-- With at most seven digits a name is of one number. -/
theorem Table.Formed.has_of_named (h : table.Formed) (hbounded : table.Bounded) {number : Nat}
    (hnumber : number < 10 ^ 7) (hnamed : table.Named number) : table.Has number := by
  obtain ⟨p, hp, hname⟩ := hnamed
  obtain ⟨other, hname', hstart⟩ := h.named p hp
  obtain rfl := name_injective (hbounded other ⟨p, hp, hstart⟩) hnumber (hname'.symm.trans hname)
  exact ⟨p, hp, hstart⟩

end Ranges

section Ledgers

variable {table table' : Table R} {rows : List (EventLog R)}

theorem maxLedgerOf_eq_some {m : Nat} : Table.maxLedgerOf rows = some m ↔
    (∃ row ∈ rows, row.ledger.toNat = m) ∧ ∀ row ∈ rows, row.ledger.toNat ≤ m := by
  rw [Table.maxLedgerOf, List.max?_eq_some_iff]
  simp

theorem maxLedgerOf_perm {rows' : List (EventLog R)} (h : rows'.Perm rows) :
    Table.maxLedgerOf rows' = Table.maxLedgerOf rows := by
  refine Option.ext fun m => ?_
  simp only [maxLedgerOf_eq_some, h.mem_iff]

theorem head_perm (h : table'.rows.Perm table.rows) (current : Option UInt32) :
    table'.head current = table.head current := by
  rw [Table.head, maxLedgerOf_perm h, Table.head]

theorem maxLedgerOf_lt (rows : List (EventLog R)) : (Table.maxLedgerOf rows).getD 0 < 2 ^ 32 := by
  cases hmax : Table.maxLedgerOf rows with
  | none => decide
  | some m =>
    obtain ⟨⟨row, -, rfl⟩, -⟩ := maxLedgerOf_eq_some.mp hmax
    exact row.ledger.toNat_lt

theorem head_lt (table : Table R) (current : Option UInt32) :
    table.head current / partitionSize < 42950 := by
  have hrows := maxLedgerOf_lt table.rows
  have hcurrent : (current.map (·.toNat)).getD 0 < 2 ^ 32 := by
    cases current with
    | none => decide
    | some ledger => exact ledger.toNat_lt
  have hhead : table.head current < 2 ^ 32 := max_lt hrows hcurrent
  unfold partitionSize
  omega

/-- In the order of the names, no row is above those of an earlier partition. -/
theorem ledger_le_of_name (h : table.Formed) (hbounded : table.Bounded) {p q : Partition R}
    (hp : p ∈ table.partitions) (hq : q ∈ table.partitions) (hname : q.name ≤ p.name)
    {v : Nat} (hv : Table.maxLedgerOf p.rows = some v) : ∀ row ∈ q.rows, row.ledger.toNat ≤ v := by
  obtain ⟨number, hpname, hpstart⟩ := h.named p hp
  obtain ⟨other, hqname, hqstart⟩ := h.named q hq
  obtain ⟨⟨top, htop, rfl⟩, hle⟩ := maxLedgerOf_eq_some.mp hv
  have hplaced := h.placed p hp top htop
  rw [hpstart, covers_iff] at hplaced
  intro row hrow
  have hrow_placed := h.placed q hq row hrow
  rw [hqstart, covers_iff] at hrow_placed
  rcases lt_trichotomy other number with hlt | rfl | hgt
  · unfold EventLog.number partitionSize at hplaced hrow_placed
    omega
  · obtain rfl := h.eq_of_start hp hq (hpstart.trans hqstart.symm)
    exact hle row hrow
  · rw [hqname, hpname] at hname
    exact absurd hname (not_le.mpr (name_lt hgt (hbounded other ⟨q, hq, hqstart⟩)))

/-- The probe finds the highest ledger when the names are in the order of the ranges. -/
theorem maxLedger_eq (h : table.Formed) (hbounded : table.Bounded) :
    table.maxLedger = Table.maxLedgerOf table.rows := by
  have hperm := List.mergeSort_perm table.partitions fun p q => decide (q.name ≤ p.name)
  have hsorted : (table.partitions.mergeSort fun p q => decide (q.name ≤ p.name)).Pairwise
      fun p q => q.name ≤ p.name := by
    simpa using @List.pairwise_mergeSort _ (fun p q : Partition R => decide (q.name ≤ p.name))
      (fun a b c hab hbc => by simpa using (of_decide_eq_true hbc).trans (of_decide_eq_true hab))
      (fun a b => by simpa using le_total b.name a.name) table.partitions
  have hmem : ∀ row, row ∈ table.rows ↔
      (∃ p ∈ table.partitions, row ∈ p.rows) ∨ row ∈ table.stranded := by simp [Table.rows]
  have hnone : ∀ p : Partition R, Table.maxLedgerOf p.rows = none → ∀ row, row ∉ p.rows := by
    intro p hp row hrow
    simp [List.map_eq_nil_iff.mp (List.max?_eq_none_iff.mp hp)] at hrow
  rw [Table.maxLedger]
  split
  · next v hfind =>
    obtain ⟨before, p, after, hsplit, hv, hbefore⟩ := List.findSome?_eq_some_iff.mp hfind
    have hparts : ∀ {q}, q ∈ table.partitions ↔ q ∈ before ∨ q = p ∨ q ∈ after := by
      intro q
      rw [← hperm.mem_iff, hsplit]
      simp
    rw [hsplit] at hsorted
    have hafter := (List.pairwise_cons.mp (List.pairwise_append.mp hsorted).2.1).1
    have hp : p ∈ table.partitions := hparts.mpr (.inr (.inl rfl))
    have hle : ∀ q ∈ table.partitions, ∀ row ∈ q.rows, row.ledger.toNat ≤ v := by
      intro q hq row hrow
      rcases hparts.mp hq with hin | rfl | hin
      · exact absurd hrow (hnone q (hbefore q hin) row)
      · exact (maxLedgerOf_eq_some.mp hv).2 row hrow
      · exact ledger_le_of_name h hbounded hp hq (hafter q hin) hv row hrow
    obtain ⟨top, htop, hledger⟩ := (maxLedgerOf_eq_some.mp hv).1
    refine (maxLedgerOf_eq_some.mpr ?_).symm
    cases hdefault : Table.maxLedgerOf table.stranded with
    | none =>
      have hempty : table.stranded = [] :=
        List.map_eq_nil_iff.mp (List.max?_eq_none_iff.mp hdefault)
      simp only [Option.getD_none, max_self, hmem, hempty, List.not_mem_nil, or_false]
      exact ⟨⟨top, ⟨p, hp, htop⟩, hledger⟩, fun row ⟨q, hq, hrow⟩ => hle q hq row hrow⟩
    | some d =>
      obtain ⟨⟨last, hlast, hd⟩, hdle⟩ := maxLedgerOf_eq_some.mp hdefault
      simp only [Option.getD_some, hmem]
      refine ⟨?_, ?_⟩
      · rcases le_total v d with hvd | hvd
        · exact ⟨last, .inr hlast, by rw [hd, max_eq_right hvd]⟩
        · exact ⟨top, .inl ⟨p, hp, htop⟩, by rw [hledger, max_eq_left hvd]⟩
      · rintro row (⟨q, hq, hrow⟩ | hrow)
        · exact (hle q hq row hrow).trans (le_max_left _ _)
        · exact (hdle row hrow).trans (le_max_right _ _)
  · next hfind =>
    refine Option.ext fun m => ?_
    have hrows : ∀ row, row ∈ table.rows ↔ row ∈ table.stranded := by
      intro row
      rw [hmem, or_iff_right]
      rintro ⟨p, hp, hrow⟩
      exact hnone p (List.findSome?_eq_none_iff.mp hfind p (hperm.mem_iff.mpr hp)) row hrow
    simp only [maxLedgerOf_eq_some, hrows]

end Ledgers

section Maintenance

variable {table table' : Table R} {pLookahead : Int} {current : Option UInt32}

/-- A maintenance loses no row and leaves each in the one partition of its range, the partitions of
the head and of the lookahead are there, and there is nothing left to do. -/
structure Maintained (table : Table R) (pLookahead : Int) (current : Option UInt32)
    (table' : Table R) : Prop where
  rows : table'.rows.Perm table.rows
  stranded : table'.stranded = []
  placed : ∀ row ∈ table'.rows, ∃ p ∈ table'.partitions, row ∈ p.rows ∧ covers p.start row = true ∧
    ∀ q ∈ table'.partitions, covers q.start row = true → q = p
  ahead : ∀ i ≤ (max pLookahead 0).toNat, table'.Has (table.head current / partitionSize + i)
  again : table'.maintainPartitions pLookahead current = some (0, table')

/-- The numbers of the partitions ahead. -/
def Table.numbersAhead (table : Table R) (pLookahead : Int) (current : Option UInt32) : List Nat :=
  (List.range ((max pLookahead 0).toNat + 1)).map (table.head current / partitionSize + ·)

theorem headStarts_eq (table : Table R) (pLookahead : Int) (current : Option UInt32) :
    table.headStarts pLookahead current = (table.numbersAhead pLookahead current).map
      fun number => ((number * partitionSize : Nat) : Int) := by
  rw [Table.numbersAhead, List.map_map]
  rfl

theorem strandedStarts_eq (table : Table R) :
    table.strandedStarts = (table.stranded.map EventLog.number).dedup.map
      fun number => ((number * partitionSize : Nat) : Int) := by
  have hinj : Function.Injective fun number => ((number * partitionSize : Nat) : Int) :=
    fun _ _ h => start_injective (Int.ofNat_inj.mp h)
  rw [← List.dedup_map_of_injective hinj, List.map_map]
  rfl

theorem numbersAhead_perm (h : table'.rows.Perm table.rows) :
    table'.numbersAhead pLookahead current = table.numbersAhead pLookahead current := by
  rw [Table.numbersAhead, head_perm h, Table.numbersAhead]

/-- The maintenance creates the partitions of the stranded rows and those ahead. -/
theorem maintain_cases (h : table.Formed) (pLookahead : Int) (current : Option UInt32) :
    ∃ created table', table.maintainPartitions pLookahead current = some (created, table') ∧
      table.Grows table' ∧
      (∀ other, table'.Has other → table.Has other ∨
        other ∈ table.stranded.map EventLog.number ++ table.numbersAhead pLookahead current) ∧
      (∀ number ∈ table.stranded.map EventLog.number ++ table.numbersAhead pLookahead current,
        table'.Named number) ∧
      (table.stranded = [] → (∀ number ∈ table.numbersAhead pLookahead current,
        table.Named number) → created = 0 ∧ table' = table) := by
  obtain ⟨rescued, table₁, hrescue, hgrows, honly, hnamed, hsame⟩ :=
    create_all_cases h (table.stranded.map EventLog.number).dedup
  obtain ⟨created, table₂, hcreate, hgrows', honly', hnamed', hsame'⟩ :=
    create_all_cases hgrows.formed (table.numbersAhead pLookahead current)
  refine ⟨rescued + created, table₂, ?_, hgrows.trans hgrows', ?_, ?_, ?_⟩
  · rw [Table.maintainPartitions, strandedStarts_eq, hrescue]
    simp only [Option.bind_eq_bind, Option.bind_some, headStarts_eq, numbersAhead_perm hgrows.rows,
      hcreate]
  · intro other hother
    rw [List.mem_append]
    rcases honly' other hother with hother | hother
    · rcases honly other hother with hother | hother
      · exact .inl hother
      · exact .inr (.inl (List.mem_dedup.mp hother))
    · exact .inr (.inr hother)
  · intro number hnumber
    rcases List.mem_append.mp hnumber with hnumber | hnumber
    · exact (hnamed number (List.mem_dedup.mpr hnumber)).mono hgrows'.kept
    · exact hnamed' number hnumber
  · intro hempty hthere
    obtain ⟨rfl, rfl⟩ := hsame (by rw [hempty]; simp)
    obtain ⟨rfl, rfl⟩ := hsame' hthere
    exact ⟨rfl, rfl⟩

/-- The numbers ahead have at most seven digits. -/
def Fits (table : Table R) (pLookahead : Int) (current : Option UInt32) : Prop :=
  table.head current / partitionSize + (max pLookahead 0).toNat < 10 ^ 7

theorem numbers_fit (hfits : Fits table pLookahead current) :
    ∀ number ∈ table.stranded.map EventLog.number ++ table.numbersAhead pLookahead current,
      number < 10 ^ 7 := by
  intro number hnumber
  rcases List.mem_append.mp hnumber with hnumber | hnumber
  · obtain ⟨row, -, rfl⟩ := List.mem_map.mp hnumber
    exact (number_lt row).trans (by decide)
  · obtain ⟨i, hi, rfl⟩ := List.mem_map.mp hnumber
    have hi := List.mem_range.mp hi
    unfold Fits at hfits
    omega

theorem maintained_of_fits (h : table.Formed) (hbounded : table.Bounded)
    (hfits : Fits table pLookahead current) :
    ∃ created table', table.maintainPartitions pLookahead current = some (created, table') ∧
      table'.Bounded ∧ Maintained table pLookahead current table' := by
  obtain ⟨created, table', hmaintain, hgrows, honly, hnamed, -⟩ :=
    maintain_cases h pLookahead current
  have hbounded' : table'.Bounded := by
    intro number hnumber
    rcases honly number hnumber with hold | hnew
    · exact hbounded number hold
    · exact numbers_fit hfits number hnew
  have hhas : ∀ number ∈ table.stranded.map EventLog.number ++
      table.numbersAhead pLookahead current, table'.Has number := fun number hnumber =>
    hgrows.formed.has_of_named hbounded' (numbers_fit hfits number hnumber) (hnamed number hnumber)
  have hstranded : table'.stranded = [] := by
    refine List.eq_nil_iff_forall_not_mem.mpr fun row hrow => ?_
    refine hgrows.formed.apart row hrow (hhas _ (List.mem_append_left _ ?_))
    exact List.mem_map_of_mem (hgrows.stranded hrow)
  have hahead : ∀ number ∈ table.numbersAhead pLookahead current, table'.Named number :=
    fun number hnumber => hnamed number (List.mem_append_right _ hnumber)
  obtain ⟨created', table'', hagain, -, -, -, hsame⟩ :=
    maintain_cases hgrows.formed pLookahead current
  rw [numbersAhead_perm hgrows.rows] at hsame
  obtain ⟨rfl, rfl⟩ := hsame hstranded hahead
  refine ⟨created, table'', hmaintain, hbounded', hgrows.rows, hstranded, ?_, fun i hi => ?_,
    hagain⟩
  · intro row hrow
    obtain ⟨p, hp, hrow⟩ : ∃ p ∈ table''.partitions, row ∈ p.rows := by
      simpa [Table.rows, hstranded] using hrow
    refine ⟨p, hp, hrow, hgrows.formed.placed p hp row hrow, fun q hq hcovers => ?_⟩
    have hplaced := hgrows.formed.placed p hp row hrow
    obtain ⟨number, -, hstart⟩ := hgrows.formed.named p hp
    obtain ⟨other, -, hstart'⟩ := hgrows.formed.named q hq
    rw [hstart, covers_iff] at hplaced
    rw [hstart', covers_iff] at hcovers
    exact hgrows.formed.eq_of_start hq hp (by rw [hstart, hstart', ← hplaced, ← hcovers])
  · refine hhas _ (List.mem_append_right _ (List.mem_map.mpr ⟨i, ?_, rfl⟩))
    exact List.mem_range.mpr (Nat.lt_succ_of_le hi)

/-- The name of the partition after the last one with seven digits is that of another one. -/
theorem fits_of_maintained (h : table.Formed)
    {created : Nat} (hmaintain : table.maintainPartitions pLookahead current = some (created, table'))
    (hmaintained : Maintained table pLookahead current table') : Fits table pLookahead current := by
  by_contra hover
  have hhead := head_lt table current
  have hhas : ∀ number, table.head current / partitionSize ≤ number → number ≤ 10 ^ 7 →
      table'.Has number := by
    intro number hle hnumber
    have hahead := hmaintained.ahead (number - table.head current / partitionSize)
      (by unfold Fits at hover; omega)
    rwa [Nat.add_sub_cancel' hle] at hahead
  obtain ⟨created', table'', hsame, hgrows, -⟩ := maintain_cases h pLookahead current
  obtain ⟨-, rfl⟩ := Prod.mk.inj (Option.some.inj (hmaintain.symm.trans hsame))
  obtain ⟨p, hp, hpstart⟩ := hhas (10 ^ 6) (by omega) (by decide)
  obtain ⟨q, hq, hqstart⟩ := hhas (10 ^ 7) (by omega) (by decide)
  obtain ⟨number, hpname, hpnumber⟩ := hgrows.formed.named p hp
  obtain ⟨other, hqname, hqnumber⟩ := hgrows.formed.named q hq
  obtain rfl := start_injective (hpnumber.symm.trans hpstart)
  obtain rfl := start_injective (hqnumber.symm.trans hqstart)
  have hcut : nameOf (10 ^ 6) = nameOf (10 ^ 7) := by decide +kernel
  obtain rfl := hgrows.formed.eq_of_name hp hq (by rw [hpname, hqname, hcut])
  exact absurd (start_injective (hpstart.symm.trans hqstart)) (by decide)

end Maintenance

section Runs

variable {table table' : Table R}

/-- A row goes into partitions that keep their names and ranges, or is stranded outside of these. -/
theorem insert_cases (table : Table R) (row : EventLog R) :
    ∃ place : Partition R → Partition R,
      (table.insert row).partitions = table.partitions.map place ∧
      (∀ p, (place p).name = p.name ∧ (place p).start = p.start) ∧
      (∀ p, ∀ r ∈ (place p).rows, r ∈ p.rows ∨ r = row ∧ covers p.start row = true) ∧
      ∀ r ∈ (table.insert row).stranded,
        r ∈ table.stranded ∨ r = row ∧ ∀ p ∈ table.partitions, ¬ covers p.start row = true := by
  unfold Table.insert
  split
  · refine ⟨_, rfl, fun p => ?_, fun p r hr => ?_, fun r hr => .inl hr⟩
    · split <;> exact ⟨rfl, rfl⟩
    · split at hr
      · next hcovers =>
        rcases List.mem_append.mp hr with hr | hr
        · exact .inl hr
        · exact .inr ⟨List.mem_singleton.mp hr, hcovers⟩
      · exact .inl hr
  · next hout =>
    refine ⟨id, (List.map_id _).symm, fun p => ⟨rfl, rfl⟩, fun p r hr => .inl hr, fun r hr => ?_⟩
    rcases List.mem_append.mp hr with hr | hr
    · exact .inl hr
    · exact .inr ⟨List.mem_singleton.mp hr,
        fun p hp hcovers => hout (List.any_eq_true.mpr ⟨p, hp, hcovers⟩)⟩

theorem has_insert {number : Nat} (row : EventLog R) :
    (table.insert row).Has number ↔ table.Has number := by
  obtain ⟨place, hparts, hsame, -, -⟩ := insert_cases table row
  simp only [Table.Has, hparts, List.mem_map, exists_exists_and_eq_and, (hsame _).2]

theorem Table.Formed.insert (h : table.Formed) (row : EventLog R) : (table.insert row).Formed := by
  obtain ⟨place, hparts, hsame, hplaced, hstranded⟩ := insert_cases table row
  refine ⟨?_, ?_, ?_, fun r hr hhas => ?_⟩
  · intro p hp
    obtain ⟨q, hq, rfl⟩ := List.mem_map.mp (hparts ▸ hp)
    rw [(hsame q).1, (hsame q).2]
    exact h.named q hq
  · have hnames : (table.partitions.map place).map (·.name) = table.partitions.map (·.name) := by
      rw [List.map_map]
      exact List.map_congr_left fun p _ => (hsame p).1
    rw [hparts, hnames]
    exact h.distinct
  · intro p hp r hr
    obtain ⟨q, hq, rfl⟩ := List.mem_map.mp (hparts ▸ hp)
    rw [(hsame q).2]
    rcases hplaced q r hr with hr | ⟨rfl, hcovers⟩
    · exact h.placed q hq r hr
    · exact hcovers
  · rw [has_insert] at hhas
    rcases hstranded r hr with hr | ⟨rfl, hout⟩
    · exact h.apart r hr hhas
    · obtain ⟨p, hp, hstart⟩ := hhas
      exact hout p hp (hstart ▸ covers_iff.mpr rfl)

theorem formed_empty : (⟨[], []⟩ : Table R).Formed := ⟨by simp, List.nodup_nil, by simp, by simp⟩

/-- A maintenance at which the numbers ahead fit. -/
def Action.Fits (table : Table R) : Action R → Prop
  | .insert _ => True
  | .maintain pLookahead current => EventLogs.Fits table pLookahead current

theorem formed_next {action : Action R} (h : table.Formed)
    (hnext : action.next table = some table') : table'.Formed := by
  cases action with
  | insert row =>
    obtain rfl := Option.some.inj hnext
    exact h.insert row
  | maintain pLookahead current =>
    obtain ⟨created, table₁, hmaintain, hgrows, -⟩ := maintain_cases h pLookahead current
    simp only [Action.next, hmaintain, Option.map_some, Option.some.injEq] at hnext
    exact hnext ▸ hgrows.formed

theorem bounded_next {action : Action R} (h : table.Formed) (hbounded : table.Bounded)
    (hfits : action.Fits table) (hnext : action.next table = some table') : table'.Bounded := by
  cases action with
  | insert row =>
    obtain rfl := Option.some.inj hnext
    exact fun number hnumber => hbounded number ((has_insert row).mp hnumber)
  | maintain pLookahead current =>
    obtain ⟨created, table₁, hmaintain, hbounded', -⟩ := maintained_of_fits h hbounded hfits
    simp only [Action.next, hmaintain, Option.map_some, Option.some.injEq] at hnext
    exact hnext ▸ hbounded'

theorem tableAfter_snoc (actions : List (Action R)) (action : Action R) :
    tableAfter (actions ++ [action]) = (tableAfter actions).bind action.next := by
  simp [tableAfter, List.foldlM_append]

theorem formed_after (actions : List (Action R)) (h : tableAfter actions = some table) :
    table.Formed := by
  induction actions using List.reverseRecOn generalizing table with
  | nil => exact Option.some.inj h ▸ formed_empty
  | append_singleton actions action ih =>
    rw [tableAfter_snoc] at h
    obtain ⟨earlier, hearlier, hnext⟩ := Option.bind_eq_some_iff.mp h
    exact formed_next (ih hearlier) hnext

/-- Every maintenance of the run has numbers ahead that fit. -/
def AllFit (actions : List (Action R)) : Prop :=
  ∀ before action after table, actions = before ++ action :: after →
    tableAfter before = some table → action.Fits table

theorem bounded_after (actions : List (Action R)) (hfits : AllFit actions)
    (h : tableAfter actions = some table) : table.Bounded := by
  induction actions using List.reverseRecOn generalizing table with
  | nil =>
    obtain rfl := Option.some.inj h
    rintro number ⟨p, hp, -⟩
    exact absurd hp List.not_mem_nil
  | append_singleton actions action ih =>
    rw [tableAfter_snoc] at h
    obtain ⟨earlier, hearlier, hnext⟩ := Option.bind_eq_some_iff.mp h
    refine bounded_next (formed_after actions hearlier) (ih (fun before a after table hsplit =>
      hfits before a (after ++ [action]) table (by rw [hsplit]; simp)) hearlier) ?_ hnext
    exact hfits actions action [] earlier rfl hearlier

/-- The highest ledger is found at every moment of the run, and every maintenance succeeds and does
what it is there for. -/
def Upkept (actions : List (Action R)) : Prop :=
  ∀ before after table, actions = before ++ after → tableAfter before = some table →
    table.maxLedger = Table.maxLedgerOf table.rows ∧
    ∀ pLookahead current rest, after = .maintain pLookahead current :: rest →
      ∃ created table', table.maintainPartitions pLookahead current = some (created, table') ∧
        Maintained table pLookahead current table'

/-- The partitions are kept up when none of those ahead has a number of more digits than a name. -/
theorem partitions_upkept_iff (actions : List (Action R)) : Upkept actions ↔ AllFit actions := by
  constructor
  · intro hupkept before action after table hsplit htable
    cases action with
    | insert row => trivial
    | maintain pLookahead current =>
      obtain ⟨created, table', hmaintain, hmaintained⟩ :=
        (hupkept before _ table hsplit htable).2 pLookahead current after rfl
      exact fits_of_maintained (formed_after before htable) hmaintain hmaintained
  · intro hfits before after table hsplit htable
    have hformed := formed_after before htable
    have hbounded : table.Bounded := bounded_after before (fun earlier action later t hparts =>
      hfits earlier action (later ++ after) t (by rw [hsplit, hparts]; simp)) htable
    refine ⟨maxLedger_eq hformed hbounded, ?_⟩
    rintro pLookahead current rest rfl
    obtain ⟨created, table', hmaintain, -, hmaintained⟩ := maintained_of_fits hformed hbounded
      (hfits before _ rest table hsplit htable)
    exact ⟨created, table', hmaintain, hmaintained⟩

/-- With ten million partitions ahead, the last one's name is cut to that of the millionth. -/
theorem cut_name_taken : ¬ Upkept (R := Unit) [.maintain 10000000 none] := by
  intro hupkept
  obtain ⟨created, table', hmaintain, hmaintained⟩ :=
    (hupkept [] _ ⟨[], []⟩ rfl rfl).2 10000000 none [] rfl
  have hfits := fits_of_maintained formed_empty hmaintain hmaintained
  revert hfits
  unfold Fits
  decide +kernel

end Runs

end Backit.EventLogs
