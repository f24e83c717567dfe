import Mathlib.Algebra.BigOperators.Group.Finset.Basic
import Mathlib.Data.List.Perm.Basic

namespace ConvoScore.Library

/-- A mark picks the events that count and the key that each of them counts for. -/
abbrev Mark (Event Key : Type*) := Event → Option Key

namespace Mark
variable {Event Key : Type*} [DecidableEq Key]

/-- The number of events that count for one key. -/
def tally (mark : Mark Event Key) (events : List Event) (key : Key) : Nat :=
  (events.filterMap mark).count key

omit [DecidableEq Key] in
/-- The number of events that count for any key. -/
def total (mark : Mark Event Key) (events : List Event) : Nat := (events.filterMap mark).length

/-- What one event adds for a key. -/
def unit (mark : Mark Event Key) (event : Event) (key : Key) : Nat :=
  if mark event = some key then 1 else 0

variable {mark other : Mark Event Key} {event : Event} {events : List Event} {key : Key}

@[simp] theorem tally_nil : mark.tally [] key = 0 := rfl

theorem tally_cons : mark.tally (event :: events) key = mark.tally events key + mark.unit event key := by
  unfold tally unit
  cases marked : mark event with
  | none => simp [List.filterMap_cons_none marked]
  | some found => simp [List.filterMap_cons_some marked, List.count_cons]

omit [DecidableEq Key] in
theorem total_cons_none (unmarked : mark event = none) :
    mark.total (event :: events) = mark.total events := by
  rw [total, List.filterMap_cons_none unmarked, total]

omit [DecidableEq Key] in
theorem total_cons_some (marked : mark event = some key) :
    mark.total (event :: events) = mark.total events + 1 := by
  rw [total, List.filterMap_cons_some marked, List.length_cons, total]

omit [DecidableEq Key] in
/-- One more event never lowers a total. -/
theorem total_le_cons : mark.total events ≤ mark.total (event :: events) := by
  cases marked : mark event with
  | none => exact Nat.le_of_eq (total_cons_none marked).symm
  | some key =>
      rw [total_cons_some marked]
      exact Nat.le_succ _

theorem unit_none (unmarked : mark event = none) : mark.unit event key = 0 := by
  simp [unit, unmarked]

theorem unit_self (marked : mark event = some key) : mark.unit event key = 1 := by
  simp [unit, marked]

theorem unit_of_ne (different : mark event ≠ some key) : mark.unit event key = 0 :=
  if_neg different

/-- One mark counts at most as often as another when it does so for each key. -/
theorem total_le (each : ∀ key, mark.tally events key ≤ other.tally events key) :
    mark.total events ≤ other.total events := by
  have contained : (events.filterMap mark).Subperm (events.filterMap other) :=
    List.subperm_ext_iff.mpr fun key _ => each key
  exact contained.length_le

/-- The tallies of keys that include all with a nonzero tally add up to the total. -/
theorem total_eq_sum {keys : Finset Key} (nothing : ∀ key, key ∉ keys → mark.tally events key = 0) :
    mark.total events = ∑ key ∈ keys, mark.tally events key := by
  have covers : ∀ key ∈ (events.filterMap mark : Multiset Key), key ∈ keys := by
    intro key member
    by_contra outside
    have counted := List.count_pos_iff.mpr (Multiset.mem_coe.mp member)
    exact Nat.ne_of_gt counted (nothing key outside)
  have summed := Multiset.sum_count_eq_card covers
  simpa only [Multiset.coe_count, Multiset.coe_card, total, tally] using summed.symm

/-- A key holds tokens: the events of `other` hand them out, and those of `mark` use them up. -/
def Covered (mark other : Mark Event Key) (events : List Event) (held : Key → Nat) : Prop :=
  ∀ key, mark.tally events key + held key ≤ other.tally events key

theorem Covered.cons {held later : Key → Nat} (covered : Covered mark other events held)
    (step : ∀ key, mark.unit event key + later key ≤ other.unit event key + held key) :
    Covered mark other (event :: events) later := by
  intro key
  rw [tally_cons, tally_cons]
  have before := covered key
  have change := step key
  omega

/-- No more tokens are used up than were handed out. -/
theorem Covered.total_le {held : Key → Nat} (covered : Covered mark other events held) :
    mark.total events ≤ other.total events :=
  Mark.total_le fun key => Nat.le_trans (Nat.le_add_right _ _) (covered key)

/-- In a balanced list every token that was handed out is used up or still held. -/
def Balanced (mark other : Mark Event Key) (events : List Event) (held : Key → Nat) : Prop :=
  ∀ key, mark.tally events key + held key = other.tally events key

theorem Balanced.cons {held later : Key → Nat} (balanced : Balanced mark other events held)
    (step : ∀ key, mark.unit event key + later key = other.unit event key + held key) :
    Balanced mark other (event :: events) later := by
  intro key
  rw [tally_cons, tally_cons]
  have before := balanced key
  have change := step key
  omega

end Mark
end ConvoScore.Library
