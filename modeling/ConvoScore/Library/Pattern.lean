import Mathlib.Data.List.Basic

namespace ConvoScore.Library

/-- A pattern matches the start of a text; a repetition repeats one symbol of a class. -/
inductive Pattern (Symbol : Type*)
  | empty
  | one (accepts : Symbol → Bool)
  | many (accepts : Symbol → Bool)
  | seq (first second : Pattern Symbol)
  | either (first second : Pattern Symbol)
  | capture (index : Nat) (inner : Pattern Symbol)
  | finish

/-- A match has the captured texts and the text after it. -/
structure Match (Symbol : Type*) where
  captures : List (Nat × List Symbol)
  rest : List Symbol
  deriving DecidableEq

namespace Pattern
variable {Symbol : Type*}

/-- A greedy repetition tries the longest run first; these are the texts after the runs. -/
def runs (accepts : Symbol → Bool) : List Symbol → List (List Symbol)
  | [] => [[]]
  | symbol :: rest =>
      if accepts symbol then runs accepts rest ++ [symbol :: rest] else [symbol :: rest]

/-- A backtracking matcher tries these matches in this order. -/
def successes : Pattern Symbol → List Symbol → List (Match Symbol)
  | empty, text => [⟨[], text⟩]
  | one accepts, text =>
      match text with
      | [] => []
      | symbol :: rest => if accepts symbol then [⟨[], rest⟩] else []
  | many accepts, text => (runs accepts text).map fun rest => ⟨[], rest⟩
  | seq first second, text => (first.successes text).flatMap fun found =>
      (second.successes found.rest).map fun later =>
        ⟨found.captures ++ later.captures, later.rest⟩
  | either first second, text => first.successes text ++ second.successes text
  | capture index inner, text => (inner.successes text).map fun found =>
      ⟨found.captures ++ [(index, text.take (text.length - found.rest.length))], found.rest⟩
  | finish, text => if text.isEmpty then [⟨[], []⟩] else []

/-- The first match counts. -/
def exec (pattern : Pattern Symbol) (text : List Symbol) : Option (Match Symbol) :=
  (pattern.successes text).head?

/-- The symbols of a word are compared one by one. -/
def word (same : Symbol → Symbol → Bool) (letters : List Symbol) : Pattern Symbol :=
  letters.foldr (fun letter rest => .seq (.one (same letter)) rest) .empty

variable {accepts : Symbol → Bool} {first second : Pattern Symbol} {text rest : List Symbol}
  {captures : List (Nat × List Symbol)}

/-- A part with one match fixes where the next part starts. -/
theorem successes_seq (single : first.successes text = [⟨captures, rest⟩]) :
    (seq first second).successes text = (second.successes rest).map fun later =>
      ⟨captures ++ later.captures, later.rest⟩ := by
  rw [successes, single, List.flatMap_singleton]

/-- A repetition does not start at a symbol outside its class. -/
theorem successes_many_stop {symbol : Symbol} (refused : accepts symbol = false) :
    (many accepts).successes (symbol :: rest) = [⟨[], symbol :: rest⟩] := by
  simp [successes, runs, refused]

/-- Only the run over the whole text ends at its end. -/
theorem runs_finish {Result : Type*} (accepts : Symbol → Bool) (text : List Symbol)
    (result : List Symbol → List Result) :
    ((runs accepts text).flatMap fun rest => if rest.isEmpty then result rest else []) =
      if text.all accepts then result [] else [] := by
  induction text with
  | nil => simp [runs]
  | cons symbol rest ih =>
      rw [runs]
      split
      · rename_i accepted
        rw [List.flatMap_append, ih, List.all_cons, accepted]
        simp
      · rename_i refused
        simp [refused]

/-- A repetition up to the end captures the whole text, when its class has every symbol. -/
theorem successes_rest (index : Nat) :
    (seq (capture index (many accepts)) finish).successes text =
      if text.all accepts then [⟨[(index, text)], []⟩] else [] := by
  have whole := runs_finish accepts text fun rest =>
    [(⟨[(index, text.take (text.length - rest.length))], []⟩ : Match Symbol)]
  rw [List.length_nil, Nat.sub_zero, List.take_length] at whole
  rw [← whole, successes, successes, successes, List.map_map, List.flatMap_map]
  congr 1
  funext rest
  simp only [Function.comp_apply, successes]
  split <;> rfl

end Pattern
end ConvoScore.Library
