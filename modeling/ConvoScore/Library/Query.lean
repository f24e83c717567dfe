import Mathlib.Algebra.Ring.Int.Defs
import Mathlib.Data.List.Sort
import Mathlib.Data.Rat.Defs

namespace ConvoScore.Library.Query

/-- A condition over a null column is neither true nor false. -/
abbrev Truth := Option Bool

def Truth.and : Truth → Truth → Truth
  | some false, _ | _, some false => some false
  | some true, some true => some true
  | _, _ => none

/-- A comparison with a null column has no truth value. -/
def compare {Value : Type*} (test : Value → Bool) (column : Option Value) : Truth := column.map test

section Selection
variable {Row : Type*} {conditions : List (Row → Truth)} {row : Row}

/-- A query keeps the rows of which its whole condition is true. -/
def selects (conditions : List (Row → Truth)) (row : Row) : Bool :=
  conditions.foldl (fun truth condition => Truth.and truth (condition row)) (some true) = some true

theorem Truth.and_eq_true {first second : Truth} :
    Truth.and first second = some true ↔ first = some true ∧ second = some true := by
  rcases first with _ | _ | _ <;> rcases second with _ | _ | _ <;> simp [Truth.and]

/-- A row is kept exactly when every condition is true of it. -/
theorem selects_iff :
    selects conditions row = true ↔ ∀ condition ∈ conditions, condition row = some true := by
  have general : ∀ start : Truth,
      conditions.foldl (fun truth condition => Truth.and truth (condition row)) start = some true ↔
        start = some true ∧ ∀ condition ∈ conditions, condition row = some true := by
    induction conditions with
    | nil => simp
    | cons condition rest ih =>
        intro start
        rw [List.foldl_cons, ih, Truth.and_eq_true, List.forall_mem_cons, and_assoc]
  simpa [selects] using general (some true)

theorem compare_eq_true {Value : Type*} {test : Value → Bool} {column : Option Value} :
    compare test column = some true ↔ ∃ value, column = some value ∧ test value = true := by
  simp [compare]

end Selection

section Order
variable {Row Key : Type*} [LinearOrder Key] {key : Row → Key} {rows others : List Row}

/-- Rows come with the largest key first. -/
def orderDescending (key : Row → Key) (rows : List Row) : List Row :=
  rows.mergeSort fun first second => decide (key second ≤ key first)

theorem orderDescending_perm (key : Row → Key) (rows : List Row) :
    (orderDescending key rows).Perm rows :=
  List.mergeSort_perm rows _

theorem mem_orderDescending {row : Row} : row ∈ orderDescending key rows ↔ row ∈ rows :=
  (orderDescending_perm key rows).mem_iff

/-- Rows with distinct keys have strictly descending keys. -/
theorem orderDescending_strict (distinct : (rows.map key).Nodup) :
    (orderDescending key rows).Pairwise fun first second => key second < key first := by
  have sorted : (orderDescending key rows).Pairwise fun first second =>
      decide (key second ≤ key first) = true := by
    refine List.pairwise_mergeSort ?_ ?_ rows
    · intro first second third
      simpa using fun above below => le_trans below above
    · intro first second
      simpa using le_total (key second) (key first)
  have different : (orderDescending key rows).Pairwise fun first second =>
      key first ≠ key second :=
    List.pairwise_map.mp (((orderDescending_perm key rows).map key).nodup_iff.mpr distinct)
  refine (sorted.and different).imp ?_
  intro first second ⟨atMost, unequal⟩
  exact lt_of_le_of_ne (of_decide_eq_true atMost) unequal.symm

/-- Two descending lists of the same rows are equal. -/
theorem descending_unique
    (descending : rows.Pairwise fun first second => key second < key first)
    (alsoDescending : others.Pairwise fun first second => key second < key first)
    (same : ∀ row, row ∈ rows ↔ row ∈ others) : rows = others := by
  have nodup : ∀ {list : List Row}, (list.Pairwise fun first second => key second < key first) →
      list.Nodup := by
    intro list ordered
    exact ordered.imp fun below equal => absurd (equal ▸ below) (lt_irrefl _)
  have permuted : rows.Perm others :=
    (List.perm_ext_iff_of_nodup (nodup descending) (nodup alsoDescending)).mpr same
  refine permuted.eq_of_pairwise ?_ descending alsoDescending
  intro first second _ _ below above
  exact absurd (lt_trans below above) (lt_irrefl _)

end Order

section Window
variable {Row : Type*} {rows : List Row} {limit : Nat}

/-- An `OFFSET` skips rows before a `LIMIT` counts them. -/
def window (limit offset : Nat) (rows : List Row) : List Row := (rows.drop offset).take limit

/-- Consecutive windows put together are the rows up to the end of the last one. -/
theorem windows_flatMap (count : Nat) :
    ((List.range count).flatMap fun number => window limit (number * limit) rows) =
      rows.take (count * limit) := by
  induction count with
  | zero => simp
  | succ count ih =>
      rw [List.range_succ, List.flatMap_append, ih, List.flatMap_singleton, window,
        Nat.succ_mul, List.take_add]

end Window

section Aggregates
variable {Row Key : Type*} [DecidableEq Key]

/-- A grouped count has an entry for each key that occurs. -/
def countBy (column : Row → Option Key) (rows : List Row) (key : Key) : Option Nat :=
  let count := rows.countP fun row => column row = some key
  if count = 0 then none else some count

/-- Null columns do not count, and a sum over no rows is 0. -/
def sum {Number : Type*} [AddMonoid Number] (column : Row → Option Number) (rows : List Row) :
    Number :=
  (rows.filterMap column).sum

@[simp] theorem sum_nil {Number : Type*} [AddMonoid Number] (column : Row → Option Number) :
    sum column [] = 0 := rfl

@[simp] theorem sum_cons {Number : Type*} [AddMonoid Number] (column : Row → Option Number)
    (row : Row) (rows : List Row) :
    sum column (row :: rows) = (column row).getD 0 + sum column rows := by
  cases value : column row <;> simp [sum, value]

def average (column : Row → Option Int) (rows : List Row) : Option Rat :=
  match rows.filterMap column with
  | [] => none
  | values => some (values.sum / values.length)

def maximum (column : Row → Option Int) (rows : List Row) : Option Int :=
  (rows.filterMap column).max?

/-- A group that is missing has no rows. -/
theorem countBy_getD (column : Row → Option Key) (rows : List Row) (key : Key) :
    (countBy column rows key).getD 0 = rows.countP fun row => column row = some key := by
  rw [countBy]
  split
  · rename_i zero
    exact zero.symm
  · rfl

end Aggregates
end ConvoScore.Library.Query
