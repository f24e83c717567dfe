import ConvoScore.Library.Occurrence

namespace ConvoScore.Library.Marks
variable {Symbol Mark : Type*} {start : Symbol} {body : Mark → List Symbol} {marks : List Mark}
  {text : List Symbol} {mark : Mark}

/-- The parts of a text are joined by their marks. -/
def join (start : Symbol) (body : Mark → List Symbol)
    (parts : List Symbol × List (Mark × List Symbol)) : List Symbol :=
  parts.1 ++ parts.2.flatMap fun part => start :: body part.1 ++ part.2

/-- Every mark is in the list, no start symbol is inside a mark and no mark starts another. -/
structure Separates (start : Symbol) (body : Mark → List Symbol) (marks : List Mark) : Prop where
  listed : ∀ mark, mark ∈ marks
  fresh : ∀ mark, start ∉ body mark
  prefixFree : ∀ mark other, body mark <+: body other → mark = other

@[simp] theorem join_mark (parts : List Symbol × List (Mark × List Symbol)) :
    join start body ([], (mark, parts.1) :: parts.2) =
      start :: (body mark ++ join start body parts) := by
  simp [join]

@[simp] theorem join_cons (symbol : Symbol) (parts : List Symbol × List (Mark × List Symbol)) :
    join start body (symbol :: parts.1, parts.2) = symbol :: join start body parts := by
  simp [join]

variable [DecidableEq Symbol]

/-- A mark is the start symbol and its body; this is the mark whose body starts the text. -/
def markOf (body : Mark → List Symbol) (marks : List Mark) (text : List Symbol) : Option Mark :=
  marks.find? fun mark => (body mark).isPrefixOf text

/-- A text is cut at its marks: the text before the first mark, and each mark with the text
after it. The symbols of a mark's body are skipped. -/
def cut (start : Symbol) (body : Mark → List Symbol) (marks : List Mark) :
    Nat → List Symbol → List Symbol × List (Mark × List Symbol)
  | _, [] => ([], [])
  | skip + 1, _ :: rest => cut start body marks skip rest
  | 0, symbol :: rest =>
      match if symbol = start then markOf body marks rest else none with
      | some mark =>
          let later := cut start body marks (body mark).length rest
          ([], (mark, later.1) :: later.2)
      | none =>
          let later := cut start body marks 0 rest
          (symbol :: later.1, later.2)

theorem markOf_eq_some (found : markOf body marks text = some mark) : body mark <+: text := by
  have starts : (body mark).isPrefixOf text = true := by
    simpa using List.find?_some found
  exact List.isPrefixOf_iff_prefix.mp starts

/-- Joining the cut parts gives the text back. -/
theorem join_cut (marks : List Mark) (skip : Nat) (text : List Symbol) :
    join start body (cut start body marks skip text) = text.drop skip := by
  induction text generalizing skip with
  | nil => simp [cut, join]
  | cons symbol rest ih =>
      cases skip with
      | succ skip => simpa [cut] using ih skip
      | zero =>
          rw [cut]
          split
          · rename_i mark found
            split at found
            · rename_i same
              obtain ⟨tail, rfl⟩ := markOf_eq_some found
              rw [join_mark, ih, List.drop_left, same, List.drop_zero]
            · cases found
          · rw [join_cons, ih, List.drop_zero, List.drop_zero]

/-- Skipped symbols are dropped. -/
theorem cut_drop (skip : Nat) (text : List Symbol) :
    cut start body marks skip text = cut start body marks 0 (text.drop skip) := by
  induction text generalizing skip with
  | nil => simp [cut]
  | cons symbol rest ih =>
      cases skip with
      | zero => rfl
      | succ skip => simpa [cut] using ih skip

/-- A text without marks is not cut. -/
theorem cut_of_unmarked (unmarked : ∀ mark, ¬ start :: body mark <:+: text) :
    cut start body marks 0 text = (text, []) := by
  induction text with
  | nil => rfl
  | cons symbol rest ih =>
      have later := ih fun mark inside => unmarked mark (List.infix_cons inside)
      rw [cut]
      split
      · rename_i mark found
        split at found
        · rename_i same
          obtain ⟨tail, rfl⟩ := markOf_eq_some found
          exact absurd ⟨[], tail, by simp [same]⟩ (unmarked mark)
        · cases found
      · simp only [later]

namespace Separates

theorem markOf_append (separates : Separates start body marks) (mark : Mark) (text : List Symbol) :
    markOf body marks (body mark ++ text) = some mark := by
  have starts : body mark <+: body mark ++ text := List.prefix_append _ _
  cases found : markOf body marks (body mark ++ text) with
  | none =>
      have fails := List.find?_eq_none.mp found mark (separates.listed mark)
      exact absurd (List.isPrefixOf_iff_prefix.mpr starts) fails
  | some other =>
      rcases List.prefix_or_prefix_of_prefix (markOf_eq_some found) starts with first | first
      · rw [separates.prefixFree _ _ first]
      · rw [separates.prefixFree _ _ first]

/-- A mark after the text does not change which mark starts the text. -/
theorem markOf_append_start (separates : Separates start body marks) (text tail : List Symbol) :
    markOf body marks (text ++ start :: tail) = markOf body marks text := by
  have same : ∀ mark, (body mark).isPrefixOf (text ++ start :: tail) =
      (body mark).isPrefixOf text := by
    intro mark
    rw [Bool.eq_iff_iff, List.isPrefixOf_iff_prefix, List.isPrefixOf_iff_prefix]
    exact prefix_append_cons (separates.fresh mark)
  simp only [markOf, same]

/-- A mark after a text is always cut, whatever the text and the rest are. -/
theorem cut_append (separates : Separates start body marks) (mark : Mark) (tail : List Symbol)
    (skip : Nat) (text : List Symbol) (inside : skip ≤ text.length) :
    cut start body marks skip (text ++ start :: (body mark ++ tail)) =
      ((cut start body marks skip text).1, (cut start body marks skip text).2 ++
        (mark, (cut start body marks 0 tail).1) :: (cut start body marks 0 tail).2) := by
  induction text generalizing skip with
  | nil =>
      obtain rfl : skip = 0 := Nat.le_zero.mp inside
      simp only [List.nil_append, cut, if_true, separates.markOf_append]
      rw [cut_drop, List.drop_left]
  | cons symbol rest ih =>
      cases skip with
      | succ skip => exact ih skip (Nat.le_of_succ_le_succ inside)
      | zero =>
          simp only [List.cons_append, cut, separates.markOf_append_start]
          split
          · rename_i inner found
            split at found
            · rw [ih _ (markOf_eq_some found).length_le]
              rfl
            · cases found
          · rw [ih 0 (Nat.zero_le _)]

/-- Joined parts are cut part by part. -/
theorem cut_join (separates : Separates start body marks) (first : List Symbol)
    (others : List (Mark × List Symbol)) :
    cut start body marks 0 (join start body (first, others)) =
      ((cut start body marks 0 first).1, (cut start body marks 0 first).2 ++
        others.flatMap fun part => (part.1, (cut start body marks 0 part.2).1) ::
          (cut start body marks 0 part.2).2) := by
  induction others generalizing first with
  | nil => simp [join]
  | cons part others ih =>
      have joined : join start body (first, part :: others) =
          first ++ start :: (body part.1 ++ join start body (part.2, others)) := by
        simp [join]
      rw [joined, separates.cut_append _ _ _ _ (Nat.zero_le _), ih]
      simp

end Separates
end ConvoScore.Library.Marks
