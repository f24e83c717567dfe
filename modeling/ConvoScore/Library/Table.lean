import Mathlib.Logic.Function.Basic

namespace ConvoScore.Library

/-- A table stores at most one row under each primary key. -/
abbrev Table (Key Row : Type*) := Key → Option Row

namespace Table
variable {Key Row : Type*} [DecidableEq Key]

def empty : Table Key Row := fun _ => none

/-- An insert fails when the primary key already exists. -/
def insert (table : Table Key Row) (key : Key) (row : Row) : Option (Table Key Row) :=
  if (table key).isNone then some (Function.update table key (some row)) else none

/-- A conditional update writes one row when its guard holds and tells if it did. -/
def updateWhere (table : Table Key Row) (key : Key) (guard : Row → Bool) (set : Row → Row) :
    Table Key Row × Bool :=
  match table key with
  | none => (table, false)
  | some row =>
      if guard row then (Function.update table key (some (set row)), true) else (table, false)

/-- A checked update raises and is rolled back when the table rejects the new row. -/
def updateChecked (table : Table Key Row) (key : Key) (guard : Row → Bool) (set : Row → Row)
    (storable : Row → Bool) : Option (Table Key Row × Bool) :=
  match table key with
  | none => some (table, false)
  | some row =>
      if guard row then
        if storable (set row) then some (Function.update table key (some (set row)), true) else none
      else some (table, false)

variable {table next : Table Key Row} {key other : Key} {guard : Row → Bool} {set : Row → Row}
  {row : Row}

theorem insert_eq (inserted : table.insert key row = some next) :
    table key = none ∧ next = Function.update table key (some row) := by
  unfold insert at inserted
  split at inserted
  · rename_i absent
    exact ⟨Option.isNone_iff_eq_none.mp absent, (Option.some.inj inserted).symm⟩
  · simp at inserted

/-- An update changes the row when it is there and the guard accepts it. -/
theorem updateWhere_accepts (present : table key = some row) (accepted : guard row = true) :
    table.updateWhere key guard set = (Function.update table key (some (set row)), true) := by
  simp [updateWhere, present, accepted]

/-- An update of a stored row tells what its guard says. -/
theorem updateWhere_changed (present : table key = some row) :
    (table.updateWhere key guard set).2 = guard row := by
  cases accepted : guard row <;> simp [updateWhere, present, accepted]

/-- An update without an accepted row changes nothing and tells so. -/
theorem updateWhere_rejects (rejected : ∀ row, table key = some row → guard row = false) :
    table.updateWhere key guard set = (table, false) := by
  unfold updateWhere
  split
  · rfl
  · rename_i row present
    simp [rejected row present]

/-- An update either writes its accepted row or leaves the table as it was. -/
theorem updateWhere_cases (table : Table Key Row) (key : Key) (guard : Row → Bool)
    (set : Row → Row) :
    (∃ row, table key = some row ∧ guard row = true ∧
      table.updateWhere key guard set = (Function.update table key (some (set row)), true)) ∨
    ((∀ row, table key = some row → guard row = false) ∧
      table.updateWhere key guard set = (table, false)) := by
  cases present : table key with
  | none =>
      have rejected : ∀ row, table key = some row → guard row = false := by simp [present]
      exact .inr ⟨by simp, updateWhere_rejects rejected⟩
  | some row =>
      cases accepted : guard row with
      | true => exact .inl ⟨row, rfl, accepted, updateWhere_accepts present accepted⟩
      | false =>
          have rejected : ∀ found, table key = some found → guard found = false := by
            intro found same
            rw [present, Option.some.injEq] at same
            exact same ▸ accepted
          exact .inr ⟨by simpa [present] using rejected, updateWhere_rejects rejected⟩

/-- An update keeps every row under another key. -/
theorem updateWhere_other (different : other ≠ key) :
    (table.updateWhere key guard set).1 other = table other := by
  rcases table.updateWhere_cases key guard set with ⟨_, _, _, equal⟩ | ⟨_, equal⟩
  · simp only [equal, Function.update_of_ne different]
  · simp only [equal]

/-- An update keeps the set of stored keys. -/
theorem updateWhere_isSome : ((table.updateWhere key guard set).1 other).isSome =
    (table other).isSome := by
  rcases table.updateWhere_cases key guard set with ⟨row, present, _, equal⟩ | ⟨_, equal⟩
  · rw [equal]
    by_cases same : other = key
    · subst same
      simp [present]
    · simp only [Function.update_of_ne same]
  · simp only [equal]

/-- An accepted row is written exactly when the table accepts what becomes of it. -/
theorem updateChecked_accepts {storable : Row → Bool} (present : table key = some row) (accepted : guard row = true) :
    table.updateChecked key guard set storable =
      if storable (set row) then some (Function.update table key (some (set row)), true)
      else none := by
  simp [updateChecked, present, accepted]

/-- A checked update that does not raise is the plain update. -/
theorem updateWhere_of_checked {storable : Row → Bool} {result : Table Key Row × Bool}
    (updated : table.updateChecked key guard set storable = some result) :
    table.updateWhere key guard set = result := by
  cases present : table key with
  | none =>
      simp only [updateChecked, present, Option.some.injEq] at updated
      simp only [updateWhere, present, updated]
  | some row =>
      by_cases accepted : guard row = true
      · rw [updateChecked_accepts present accepted] at updated
        split at updated
        · cases updated
          exact updateWhere_accepts present accepted
        · cases updated
      · simp only [updateChecked, present, if_neg accepted, Option.some.injEq] at updated
        simp only [updateWhere, present, if_neg accepted, updated]

end Table
end ConvoScore.Library
