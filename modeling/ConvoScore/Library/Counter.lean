import Mathlib.Data.List.Count

namespace ConvoScore.Library
namespace Counter

/-- A counter is replaced as a whole, or one is taken from it. -/
inductive Command
  | keep
  | set (count : Int)
  | take
  deriving DecidableEq

/-- A counter has no value before it is first set. -/
def Command.apply : Command → Option Int → Option Int
  | .keep, value => value
  | .set count, _ => some count
  | .take, value => value.map fun held => held - 1

/-- A legal command sets no negative count and takes only what is there. -/
def Command.Legal : Command → Option Int → Prop
  | .keep, _ => True
  | .set count, _ => 0 ≤ count
  | .take, value => ∃ held, value = some held ∧ 0 < held

/-- A legal command leads from one value to another. -/
structure Command.Leads (command : Command) (before after : Option Int) : Prop where
  legal : command.Legal before
  applied : after = command.apply before

theorem Command.leads_keep {held : Option Int} : Command.keep.Leads held held := ⟨trivial, rfl⟩

/-- The value after a list of commands, the latest one first. -/
def value : List Command → Option Int
  | [] => none
  | command :: earlier => command.apply (value earlier)

/-- Every command is legal at the value that it finds. -/
def Legal : List Command → Prop
  | [] => True
  | command :: earlier => Legal earlier ∧ command.Legal (value earlier)

variable {later earlier commands : List Command} {count held : Int}

/-- The next legal command keeps the counter legal and gives it its next value. -/
theorem legal_cons {command : Command} {after : Option Int} (legal : Legal commands)
    (leads : command.Leads (value commands) after) :
    Legal (command :: commands) ∧ after = value (command :: commands) :=
  ⟨⟨legal, leads.legal⟩, leads.applied⟩

/-- A counter that is used legally never goes below zero. -/
theorem value_nonneg (legal : Legal commands) (found : value commands = some held) : 0 ≤ held := by
  induction commands generalizing held with
  | nil => cases found
  | cons command earlier ih =>
      obtain ⟨before, fine⟩ := legal
      rw [value] at found
      cases command with
      | keep => exact ih before found
      | set count => exact Option.some.inj found ▸ fine
      | take =>
          obtain ⟨rest, present, positive⟩ := fine
          rw [present] at found
          have lowered : rest - 1 = held := Option.some.inj found
          omega

/-- What was taken since a counter was last set is what is missing from it. -/
theorem value_since_set (unset : ∀ other, Command.set other ∉ later) :
    value (later ++ .set count :: earlier) = some (count - (later.count .take : Nat)) := by
  induction later with
  | nil => simp [value, Command.apply]
  | cons command rest ih =>
      have known := ih fun other member => unset other (List.mem_cons_of_mem _ member)
      rw [List.cons_append, value, known]
      cases command with
      | keep => simp [Command.apply]
      | set other => exact absurd List.mem_cons_self (unset other)
      | take =>
          rw [Command.apply, Option.map_some, List.count_cons_self]
          congr 1
          omega

/-- No more is taken from a counter than it was last set to. -/
theorem taken_le (legal : Legal (later ++ .set count :: earlier))
    (unset : ∀ other, Command.set other ∉ later) : (later.count .take : Nat) ≤ count := by
  have rest := value_nonneg legal (value_since_set unset)
  omega

end Counter
end ConvoScore.Library
