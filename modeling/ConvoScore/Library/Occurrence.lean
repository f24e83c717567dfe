import Mathlib.Data.List.Basic
import Mathlib.Data.List.Infix

namespace ConvoScore.Library

section Occurrence
variable {Symbol : Type*} {pattern left right before after : List Symbol} {separator : Symbol}

/-- An occurrence of a pattern lies on one side of a symbol that is not in the pattern. -/
theorem occurrence_cases (avoids : separator ∉ pattern)
    (occurs : left ++ separator :: right = before ++ pattern ++ after) :
    (∃ rest, left = before ++ pattern ++ rest) ∨ ∃ rest, right = rest ++ pattern ++ after := by
  rcases List.append_eq_append_iff.mp occurs with ⟨middle, inside, tail⟩ | ⟨middle, inside, _⟩
  · cases middle with
    | nil => exact .inl ⟨[], by simpa using inside.symm⟩
    | cons symbol middle =>
        obtain ⟨rfl, rfl⟩ := List.cons.inj tail
        rcases List.append_eq_append_iff.mp inside with ⟨rest, _, inPattern⟩ | ⟨rest, _, inMiddle⟩
        · exact absurd (inPattern ▸ by simp) avoids
        · cases rest with
          | nil =>
              rw [List.nil_append] at inMiddle
              exact absurd (inMiddle ▸ List.mem_cons_self) avoids
          | cons symbol rest =>
              obtain ⟨rfl, rfl⟩ := List.cons.inj inMiddle
              exact .inr ⟨rest, rfl⟩
  · exact .inl ⟨middle, inside⟩

/-- A pattern does not start around a symbol that is not in it. -/
theorem prefix_append_cons (avoids : separator ∉ pattern) :
    pattern <+: left ++ separator :: right ↔ pattern <+: left := by
  constructor
  · rintro ⟨rest, whole⟩
    rcases List.append_eq_append_iff.mp whole with ⟨middle, inside, _⟩ | ⟨middle, inside, tail⟩
    · exact ⟨middle, inside.symm⟩
    · cases middle with
      | nil => exact ⟨[], by simpa using inside⟩
      | cons symbol middle =>
          obtain ⟨rfl, _⟩ := List.cons.inj tail
          exact absurd (inside ▸ by simp) avoids
  · intro starts
    exact starts.trans (List.prefix_append _ _)

/-- A pattern does not occur around a symbol that is not in it. -/
theorem infix_append_cons (avoids : separator ∉ pattern) :
    pattern <:+: left ++ separator :: right ↔ pattern <:+: left ∨ pattern <:+: right := by
  constructor
  · rintro ⟨before, after, occurs⟩
    rcases occurrence_cases avoids occurs.symm with ⟨rest, inLeft⟩ | ⟨rest, inRight⟩
    · exact .inl ⟨before, rest, inLeft.symm⟩
    · exact .inr ⟨rest, after, inRight.symm⟩
  · rintro (inLeft | inRight)
    · exact List.infix_append_of_infix_left inLeft
    · exact List.infix_append_of_infix_right (List.infix_cons inRight)

/-- A pattern occurs in joined parts exactly when it occurs in one of them. -/
theorem infix_intercalate (avoids : separator ∉ pattern) (nonempty : pattern ≠ [])
    (parts : List (List Symbol)) :
    pattern <:+: [separator].intercalate parts ↔ ∃ part ∈ parts, pattern <:+: part := by
  induction parts with
  | nil => simpa using nonempty
  | cons part rest ih =>
      cases rest with
      | nil => simp
      | cons next rest =>
          rw [List.intercalate_cons_cons, List.append_assoc, List.singleton_append,
            infix_append_cons avoids, ih, List.exists_mem_cons_iff (a := part)]

/-- Joined parts with one more separator in front have a separator before each part. -/
theorem cons_intercalate (separator : Symbol) {parts : List (List Symbol)} (nonempty : parts ≠ []) :
    separator :: [separator].intercalate parts = parts.flatMap (separator :: ·) := by
  induction parts with
  | nil => exact absurd rfl nonempty
  | cons part rest ih =>
      cases rest with
      | nil => simp
      | cons next rest =>
          rw [List.intercalate_cons_cons, List.append_assoc, List.singleton_append,
            ih (List.cons_ne_nil _ _)]
          rfl

end Occurrence

section Parts
variable {Symbol : Type*} [DecidableEq Symbol] {separator : Symbol}

/-- Parts without the separator are determined by their number and their joined text. -/
theorem flatMap_cons_inj {parts others : List (List Symbol)}
    (clean : ∀ part ∈ parts, separator ∉ part) (alsoClean : ∀ part ∈ others, separator ∉ part)
    (same : parts.flatMap (separator :: ·) = others.flatMap (separator :: ·)) : parts = others := by
  by_cases empty : parts = [] ∨ others = []
  · rcases empty with rfl | rfl
    · cases others with
      | nil => rfl
      | cons part rest => simp at same
    · cases parts with
      | nil => rfl
      | cons part rest => simp at same
  · obtain ⟨nonempty, alsoNonempty⟩ := not_or.mp empty
    rw [← cons_intercalate separator nonempty, ← cons_intercalate separator alsoNonempty] at same
    have split := congrArg (List.splitOn separator) (List.cons.inj same).2
    rwa [List.splitOn_intercalate separator clean nonempty,
      List.splitOn_intercalate separator alsoClean alsoNonempty] at split

end Parts

section Replace
variable {Symbol : Type*} [DecidableEq Symbol] {old new text left right : List Symbol}
  {separator : Symbol} {parts before : List (List Symbol)}

/-- Only the leftmost occurrence is replaced; an empty text occurs at the start. -/
def replaceFirst (old new : List Symbol) : List Symbol → List Symbol
  | [] => if old = [] then new else []
  | symbol :: rest =>
      if old.isPrefixOf (symbol :: rest) then new ++ (symbol :: rest).drop old.length
      else symbol :: replaceFirst old new rest

/-- The first part with an occurrence has it replaced. -/
def replaceInFirst (old new : List Symbol) : List (List Symbol) → List (List Symbol)
  | [] => []
  | part :: rest =>
      if old <:+: part then replaceFirst old new part :: rest
      else part :: replaceInFirst old new rest

theorem replaceFirst_prefix (nonempty : old ≠ []) (tail : List Symbol) :
    replaceFirst old new (old ++ tail) = new ++ tail := by
  cases old with
  | nil => exact absurd rfl nonempty
  | cons symbol old =>
      have starts : (symbol :: old).isPrefixOf (symbol :: (old ++ tail)) = true :=
        List.isPrefixOf_iff_prefix.mpr (List.prefix_append _ _)
      rw [List.cons_append, replaceFirst, if_pos starts]
      simp

/-- A replaced occurrence leaves the new text behind. -/
theorem occurs_replaceFirst (occurs : old <:+: text) : new <:+: replaceFirst old new text := by
  induction text with
  | nil =>
      rw [List.infix_nil.mp occurs]
      simp [replaceFirst]
  | cons symbol rest ih =>
      rw [replaceFirst]
      split
      · exact List.infix_append_left
      · rename_i notHere
        rcases List.infix_cons_iff.mp occurs with here | later
        · exact absurd (List.isPrefixOf_iff_prefix.mpr here) notHere
        · exact List.infix_cons (ih later)

theorem replaceFirst_separator (avoids : separator ∉ old) (nonempty : old ≠ [])
    (right : List Symbol) : replaceFirst old new (separator :: right) =
      separator :: replaceFirst old new right := by
  rw [replaceFirst, if_neg]
  intro here
  obtain ⟨tail, starts⟩ := List.isPrefixOf_iff_prefix.mp here
  cases old with
  | nil => exact nonempty rfl
  | cons first old => exact avoids ((List.cons.inj starts).1 ▸ List.mem_cons_self)

/-- What stands before the first occurrence stays as it is. -/
theorem replaceFirst_skip (avoids : separator ∉ old) (nonempty : old ≠ [])
    (absent : ¬ old <:+: left) (right : List Symbol) :
    replaceFirst old new (left ++ separator :: right) =
      left ++ separator :: replaceFirst old new right := by
  induction left with
  | nil => exact replaceFirst_separator avoids nonempty right
  | cons symbol rest ih =>
      rw [List.cons_append, replaceFirst, if_neg, ih fun later => absent (List.infix_cons later),
        List.cons_append]
      intro here
      rw [← List.cons_append, List.isPrefixOf_iff_prefix, prefix_append_cons avoids] at here
      exact absent here.isInfix

theorem replaceFirst_of_absent (nonempty : old ≠ []) (absent : ¬ old <:+: text) :
    replaceFirst old new text = text := by
  induction text with
  | nil => simp [replaceFirst, nonempty]
  | cons symbol rest ih =>
      rw [replaceFirst, if_neg, ih fun later => absent (List.infix_cons later)]
      intro here
      exact absent (List.isPrefixOf_iff_prefix.mp here).isInfix

/-- The leftmost occurrence is inside the left part when the left part has one. -/
theorem replaceFirst_left (occurs : old <:+: left) :
    replaceFirst old new (left ++ right) = replaceFirst old new left ++ right := by
  induction left with
  | nil =>
      rw [List.infix_nil.mp occurs]
      cases right <;> simp [replaceFirst]
  | cons symbol rest ih =>
      rw [List.cons_append, replaceFirst, replaceFirst]
      have fits := occurs.length_le
      have sameStart : old.isPrefixOf (symbol :: (rest ++ right)) = old.isPrefixOf (symbol :: rest) := by
        rw [Bool.eq_iff_iff, List.isPrefixOf_iff_prefix, List.isPrefixOf_iff_prefix]
        constructor
        · intro starts
          exact List.prefix_of_prefix_length_le starts (List.prefix_append (symbol :: rest) right) fits
        · intro starts
          exact starts.trans (List.prefix_append (symbol :: rest) right)
      rw [sameStart]
      split
      · rw [← List.cons_append, List.drop_append_of_le_length fits, List.append_assoc]
      · rename_i notHere
        rcases List.infix_cons_iff.mp occurs with here | later
        · exact absurd (List.isPrefixOf_iff_prefix.mpr here) notHere
        · rw [ih later, List.cons_append]

/-- In joined parts the first part with an occurrence has it replaced. -/
theorem replaceFirst_flatMap (avoids : separator ∉ old) (nonempty : old ≠ []) :
    replaceFirst old new (parts.flatMap (separator :: ·)) =
      (replaceInFirst old new parts).flatMap (separator :: ·) := by
  induction parts with
  | nil =>
      exact replaceFirst_of_absent nonempty fun occurs => nonempty (List.infix_nil.mp occurs)
  | cons part rest ih =>
      rw [List.flatMap_cons, List.cons_append, replaceFirst_separator avoids nonempty,
        replaceInFirst]
      split
      · rename_i occurs
        rw [replaceFirst_left occurs, List.flatMap_cons, List.cons_append]
      · rename_i notHere
        cases rest with
        | nil => simp [replaceFirst_of_absent nonempty notHere, replaceInFirst]
        | cons next rest =>
            rw [List.flatMap_cons, List.cons_append] at ih ⊢
            rw [replaceFirst_skip avoids nonempty notHere,
              ← replaceFirst_separator avoids nonempty, ih, List.flatMap_cons, List.cons_append]

/-- A replacement skips the parts without an occurrence. -/
theorem replaceInFirst_skip (absent : ∀ part ∈ before, ¬ old <:+: part) :
    replaceInFirst old new (before ++ parts) = before ++ replaceInFirst old new parts := by
  induction before with
  | nil => rfl
  | cons part rest ih =>
      obtain ⟨first, others⟩ := List.forall_mem_cons.mp absent
      rw [List.cons_append, replaceInFirst, if_neg first, ih others, List.cons_append]

/-- A part that is the replaced text becomes the new text. -/
theorem replaceInFirst_self : replaceInFirst old new (old :: parts) = new :: parts := by
  have whole : replaceFirst old new old = new := by
    cases old with
    | nil => simp [replaceFirst]
    | cons symbol old => simpa using replaceFirst_prefix (List.cons_ne_nil symbol old) []
  rw [replaceInFirst, if_pos List.infix_rfl, whole]

/-- A replacement in an earlier part keeps the later ones. -/
theorem replaceInFirst_early (new : List Symbol) (parts : List (List Symbol))
    (occurs : ∃ part ∈ before, old <:+: part) : ∃ changed, changed.length = before.length ∧
      replaceInFirst old new (before ++ parts) = changed ++ parts := by
  induction before with
  | nil => simp at occurs
  | cons part rest ih =>
      rw [List.cons_append, replaceInFirst]
      split
      · exact ⟨replaceFirst old new part :: rest, rfl, rfl⟩
      · rename_i notHere
        have later : ∃ part ∈ rest, old <:+: part := by
          simpa [notHere] using occurs
        obtain ⟨changed, sameLength, replaced⟩ := ih later
        exact ⟨part :: changed, congrArg (· + 1) sameLength, by rw [replaced, List.cons_append]⟩

/-- A replacement leaves a part alone, or leaves the new text in it. -/
theorem replaceInFirst_part (old new : List Symbol) (before after : List (List Symbol)) (part : List Symbol) :
    ∃ earlier changed later, replaceInFirst old new (before ++ part :: after) =
      earlier ++ changed :: later ∧ earlier.length = before.length ∧
        (changed = part ∨ new <:+: changed) := by
  by_cases early : ∃ other ∈ before, old <:+: other
  · obtain ⟨changed, sameLength, replaced⟩ := replaceInFirst_early new (part :: after) early
    exact ⟨changed, part, after, replaced, sameLength, .inl rfl⟩
  · have absent : ∀ other ∈ before, ¬ old <:+: other := by
      intro other member occurs
      exact early ⟨other, member, occurs⟩
    rw [replaceInFirst_skip absent, replaceInFirst]
    split
    · rename_i occurs
      exact ⟨before, _, after, rfl, rfl, .inr (occurs_replaceFirst occurs)⟩
    · exact ⟨before, part, _, rfl, rfl, .inl rfl⟩

/-- A replacement brings in no symbol that the new text does not have. -/
theorem replaceFirst_avoids (clean : separator ∉ text) (alsoClean : separator ∉ new) :
    separator ∉ replaceFirst old new text := by
  induction text with
  | nil =>
      rw [replaceFirst]
      split
      · exact alsoClean
      · exact List.not_mem_nil
  | cons symbol rest ih =>
      rw [replaceFirst]
      split
      · rw [List.mem_append, not_or]
        exact ⟨alsoClean, fun member => clean (List.mem_of_mem_drop member)⟩
      · obtain ⟨first, others⟩ := List.ne_and_not_mem_of_not_mem_cons clean
        exact List.not_mem_cons_of_ne_of_not_mem first (ih others)

theorem replaceInFirst_avoids (clean : ∀ part ∈ parts, separator ∉ part)
    (alsoClean : separator ∉ new) : ∀ part ∈ replaceInFirst old new parts, separator ∉ part := by
  induction parts with
  | nil => simp [replaceInFirst]
  | cons part rest ih =>
      obtain ⟨first, others⟩ := List.forall_mem_cons.mp clean
      rw [replaceInFirst]
      split
      · exact List.forall_mem_cons.mpr ⟨replaceFirst_avoids first alsoClean, others⟩
      · exact List.forall_mem_cons.mpr ⟨first, ih others⟩

end Replace
end ConvoScore.Library
