import Mathlib.Data.List.Basic

namespace ConvoScore.Library
variable {Value Other Symbol : Type*}

/-- Where a code starts, the symbols tell its value and where it ends. -/
def SelfDelimiting (code : Value → List Symbol) : Prop :=
  ∀ first second left right, code first ++ left = code second ++ right →
    first = second ∧ left = right

/-- A code never starts in the same way as a text. -/
def Avoids (code : Value → List Symbol) (text : List Symbol) : Prop :=
  ∀ value left right, code value ++ left ≠ text ++ right

/-- A separated row is its first code and the others, each after a separator. -/
theorem intercalate_map_cons (separator : List Symbol) (code : Value → List Symbol) (value : Value)
    (rest : List Value) : separator.intercalate ((value :: rest).map code) =
      code value ++ rest.flatMap fun next => separator ++ code next := by
  induction rest generalizing value with
  | nil => simp [List.intercalate]
  | cons next rest ih =>
      have tail := ih next
      simp only [List.map_cons] at tail ⊢
      rw [List.intercalate_cons_cons, tail]
      simp

namespace SelfDelimiting
variable {code : Value → List Symbol} {other : Other → List Symbol}

/-- A code that some reader undoes is self-delimiting. -/
theorem of_read {read : List Symbol → Option (Value × List Symbol)}
    (undoes : ∀ value rest, read (code value ++ rest) = some (value, rest)) :
    SelfDelimiting code := by
  intro first second left right same
  have read := undoes first left
  rw [same, undoes second right, Option.some.injEq, Prod.mk.injEq] at read
  exact ⟨read.1.symm, read.2.symm⟩

theorem injective (delimited : SelfDelimiting code) : Function.Injective code := by
  intro first second same
  exact (delimited first second [] [] (by rw [same])).1

/-- A value may be coded through an injective view of it. -/
theorem comap (delimited : SelfDelimiting code) {view : Other → Value}
    (injective : Function.Injective view) : SelfDelimiting fun value => code (view value) := by
  intro first second left right same
  obtain ⟨found, rest⟩ := delimited _ _ left right same
  exact ⟨injective found, rest⟩

/-- Fixed symbols around a code keep it self-delimiting. -/
theorem surround (delimited : SelfDelimiting code) (before after : List Symbol) :
    SelfDelimiting fun value => before ++ code value ++ after := by
  intro first second left right same
  simp only [List.append_assoc, List.append_cancel_left_eq] at same
  obtain ⟨rfl, rest⟩ := delimited first second _ _ same
  exact ⟨rfl, List.append_cancel_left rest⟩

/-- Two codes with fixed symbols around and between them code a pair. -/
theorem pair (delimited : SelfDelimiting code) (alsoDelimited : SelfDelimiting other)
    (before between after : List Symbol) : SelfDelimiting fun values : Value × Other =>
      before ++ code values.1 ++ between ++ other values.2 ++ after := by
  rintro ⟨first, one⟩ ⟨second, two⟩ left right same
  simp only [List.append_assoc, List.append_cancel_left_eq] at same
  obtain ⟨rfl, rest⟩ := delimited first second _ _ same
  obtain ⟨rfl, ends⟩ := alsoDelimited one two _ _ (List.append_cancel_left rest)
  exact ⟨rfl, List.append_cancel_left ends⟩

/-- A row of codes ends at a text that no code starts with. -/
theorem terminated (delimited : SelfDelimiting code) {stop : List Symbol}
    (stops : Avoids code stop) :
    SelfDelimiting fun values : List Value => values.flatMap code ++ stop := by
  intro first
  induction first with
  | nil =>
      intro second left right same
      cases second with
      | nil => exact ⟨rfl, by simpa using same⟩
      | cons value rest =>
          simp only [List.flatMap_nil, List.nil_append, List.flatMap_cons, List.append_assoc] at same
          exact absurd same.symm (stops value _ _)
  | cons value rest ih =>
      intro second left right same
      cases second with
      | nil =>
          simp only [List.flatMap_nil, List.nil_append, List.flatMap_cons, List.append_assoc] at same
          exact absurd same (stops value _ _)
      | cons another more =>
          simp only [List.flatMap_cons, List.append_assoc] at same
          obtain ⟨rfl, tails⟩ := delimited value another _ _ same
          obtain ⟨rfl, ends⟩ := ih more left right (by simpa using tails)
          exact ⟨rfl, ends⟩

/-- A separated row of codes ends at a text that differs from the separator
and that no code starts with. -/
theorem separated (delimited : SelfDelimiting code) (separator : List Symbol) {stop : List Symbol}
    (stops : Avoids code stop) (differs : ∀ left right, separator ++ left ≠ stop ++ right) :
    SelfDelimiting fun values : List Value => separator.intercalate (values.map code) ++ stop := by
  -- The induction is on the codes that are still to come after the first one.
  have later : SelfDelimiting fun values : List Value =>
      values.flatMap (fun value => separator ++ code value) ++ stop := by
    refine terminated (by simpa using delimited.surround separator []) ?_
    intro value left right same
    rw [List.append_assoc] at same
    exact differs _ _ same
  intro first second left right same
  cases first with
  | nil =>
      cases second with
      | nil => exact ⟨rfl, by simpa [List.intercalate] using same⟩
      | cons value rest =>
          dsimp only at same
          rw [intercalate_map_cons] at same
          simp only [List.map_nil, List.intercalate_nil, List.nil_append, List.append_assoc] at same
          exact absurd same.symm (stops value _ _)
  | cons value rest =>
      cases second with
      | nil =>
          dsimp only at same
          rw [intercalate_map_cons] at same
          simp only [List.map_nil, List.intercalate_nil, List.nil_append, List.append_assoc] at same
          exact absurd same (stops value _ _)
      | cons another more =>
          dsimp only at same
          rw [intercalate_map_cons, intercalate_map_cons] at same
          simp only [List.append_assoc] at same
          obtain ⟨rfl, tails⟩ := delimited value another _ _ same
          obtain ⟨rfl, ends⟩ := later rest more left right (by simpa using tails)
          exact ⟨rfl, ends⟩

end SelfDelimiting
end ConvoScore.Library
