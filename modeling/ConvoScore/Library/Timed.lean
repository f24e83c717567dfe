import Mathlib.Algebra.Order.Ring.Rat
import Mathlib.Tactic.Linarith
import Mathlib.Tactic.Ring

namespace ConvoScore.Library

/-- A cached value carries the reading of the clock at which it was stored. -/
structure Timed (Value : Type*) where
  stamp : Rat
  value : Value
  deriving DecidableEq

namespace Timed
variable {Value : Type*} {lifetime start now : Rat} {entry : Option (Timed Value)}
  {value : Value} {delayed count : Nat}

/-- The value of an entry is used while the entry is younger than its lifetime. -/
def fresh (lifetime now : Rat) (entry : Option (Timed Value)) : Option Value :=
  entry.bind fun found => if now - found.stamp < lifetime then some found.value else none

/-- No entry comes from the future. -/
def Past (now : Rat) (entry : Option (Timed Value)) : Prop :=
  ∀ found, entry = some found → found.stamp ≤ now

/-- A reader that has renewed an entry so many times since the start has left a lifetime for each
time but the first, and but for the times that an older entry has replaced a newer one. -/
def Paced (lifetime start : Rat) (delayed count : Nat) (now : Rat) (entry : Option (Timed Value)) :
    Prop :=
  lifetime * count ≤ lifetime * delayed + (now - start) ∨
    ∃ found, entry = some found ∧ lifetime * count ≤ lifetime * (delayed + 1) + (found.stamp - start)

theorem fresh_some (used : fresh lifetime now entry = some value) :
    ∃ found, entry = some found ∧ found.value = value ∧ now < found.stamp + lifetime := by
  cases entry with
  | none => cases used
  | some found =>
      simp only [fresh, Option.bind_some] at used
      split at used
      · rename_i young
        exact ⟨found, rfl, Option.some.inj used, by linarith⟩
      · cases used

theorem Past.mono {next : Rat} (past : Past now entry) (ordered : now ≤ next) : Past next entry :=
  fun found same => (past found same).trans ordered

theorem paced_zero (positive : 0 ≤ lifetime) (begun : start ≤ now) :
    Paced lifetime start delayed 0 now entry := by
  refine .inl ?_
  have room : 0 ≤ lifetime * delayed := mul_nonneg positive (Nat.cast_nonneg delayed)
  push_cast
  linarith

theorem Paced.mono {next : Rat} (paced : Paced lifetime start delayed count now entry)
    (ordered : now ≤ next) : Paced lifetime start delayed count next entry := by
  rcases paced with spaced | held
  · exact .inl (by linarith)
  · exact .inr held

theorem Paced.more {further : Nat} (paced : Paced lifetime start delayed count now entry)
    (positive : 0 ≤ lifetime) (ordered : delayed ≤ further) :
    Paced lifetime start further count now entry := by
  have room : lifetime * delayed ≤ lifetime * further :=
    mul_le_mul_of_nonneg_left (Nat.cast_le.mpr ordered) positive
  rcases paced with spaced | ⟨found, same, spaced⟩
  · exact .inl (by linarith)
  · exact .inr ⟨found, same, by linarith⟩

/-- An entry that is not used is older than its lifetime. -/
theorem Paced.stale (paced : Paced lifetime start delayed count now entry)
    (unused : fresh lifetime now entry = none) :
    lifetime * count ≤ lifetime * delayed + (now - start) := by
  rcases paced with spaced | ⟨found, rfl, spaced⟩
  · exact spaced
  · simp only [fresh, Option.bind_some, ite_eq_right_iff, reduceCtorEq, imp_false, not_lt] at unused
    linarith

/-- The reader that renews the entry counts once more. -/
theorem paced_renew {stamp : Rat}
    (spaced : lifetime * count ≤ lifetime * delayed + (stamp - start)) :
    Paced lifetime start delayed (count + 1) now (some ⟨stamp, value⟩) := by
  refine .inr ⟨_, rfl, ?_⟩
  push_cast
  linarith

/-- A newer entry leaves the other readers at their pace. -/
theorem Paced.newer {found : Timed Value} (paced : Paced lifetime start delayed count now entry)
    (newer : ∀ old, entry = some old → old.stamp ≤ found.stamp) :
    Paced lifetime start delayed count now (some found) := by
  rcases paced with spaced | ⟨old, same, spaced⟩
  · exact .inl spaced
  · have ordered := newer old same
    exact .inr ⟨found, rfl, by linarith⟩

/-- A late entry lets every reader renew it once more. -/
theorem Paced.late (paced : Paced lifetime start delayed count now entry) (past : Past now entry)
    (positive : 0 ≤ lifetime) : lifetime * count ≤ lifetime * (delayed + 1 : Nat) + (now - start) := by
  push_cast
  rcases paced with spaced | ⟨found, same, spaced⟩
  · linarith
  · have ordered := past found same
    linarith

end Timed
end ConvoScore.Library
