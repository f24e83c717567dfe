import Mathlib.Algebra.BigOperators.Group.Finset.Basic
import Mathlib.Algebra.BigOperators.Group.Finset.Piecewise
import Mathlib.Algebra.Ring.Int.Defs

namespace ConvoScore.Library

/-- A book enters an amount under a key for some of the events. -/
abbrev Book (Event Key Amount : Type*) := Event → Option (Key × Amount)

namespace Book
variable {Event Key Amount : Type*} [DecidableEq Key] [AddCommMonoid Amount]

/-- What one event enters under a key. -/
def entry (book : Book Event Key Amount) (event : Event) (key : Key) : Amount :=
  match book event with
  | none => 0
  | some (found, amount) => if found = key then amount else 0

/-- The sum of the amounts that are entered under a key. -/
def share (book : Book Event Key Amount) (events : List Event) (key : Key) : Amount :=
  (events.map fun event => book.entry event key).sum

omit [DecidableEq Key] in
/-- The sum of all amounts. -/
def total (book : Book Event Key Amount) (events : List Event) : Amount :=
  (events.map fun event => ((book event).map (·.2)).getD 0).sum

variable {book : Book Event Key Amount} {event : Event} {events : List Event} {key : Key}
  {amount : Amount}

@[simp] theorem share_nil : book.share [] key = 0 := rfl

@[simp] theorem share_cons :
    book.share (event :: events) key = book.entry event key + book.share events key := rfl

theorem entry_none (unbooked : book event = none) : book.entry event key = 0 := by
  rw [entry, unbooked]

theorem entry_self (booked : book event = some (key, amount)) :
    book.entry event key = amount := by
  rw [entry, booked]
  exact if_pos rfl

theorem entry_other {found : Key} (booked : book event = some (found, amount))
    (different : found ≠ key) : book.entry event key = 0 := by
  rw [entry, booked]
  exact if_neg different

/-- The shares of keys that include all booked ones add up to the total. -/
theorem total_eq_sum {keys : Finset Key}
    (covers : ∀ event ∈ events, ∀ found, book event = some found → found.1 ∈ keys) :
    book.total events = ∑ key ∈ keys, book.share events key := by
  induction events with
  | nil => simp [total]
  | cons event rest ih =>
      have tail := ih fun later member => covers later (List.mem_cons_of_mem _ member)
      have head : ((book event).map (·.2)).getD 0 = ∑ key ∈ keys, book.entry event key := by
        cases booked : book event with
        | none => simp [entry, booked]
        | some found =>
            have listed := covers event List.mem_cons_self found booked
            simp [entry, booked, listed]
      simp only [share_cons, Finset.sum_add_distrib, ← head, ← tail]
      rfl

omit [DecidableEq Key] [AddCommMonoid Amount] in
/-- The key of every entry. -/
def booked (book : Book Event Key Amount) (events : List Event) : List Key :=
  events.filterMap fun event => (book event).map (·.1)

/-- The keys of all entries of a list of events. -/
def keys (book : Book Event Key Amount) (events : List Event) : Finset Key :=
  (book.booked events).toFinset

omit [AddCommMonoid Amount] in
theorem mem_keys {found : Key × Amount} (member : event ∈ events)
    (entered : book event = some found) : found.1 ∈ book.keys events := by
  rw [keys, List.mem_toFinset, booked, List.mem_filterMap]
  exact ⟨event, member, by rw [entered]; rfl⟩

/-- The shares of keys that include all with a nonzero share add up to the total. -/
theorem total_eq_sum_of_zero {keys : Finset Key}
    (nothing : ∀ key, key ∉ keys → book.share events key = 0) :
    book.total events = ∑ key ∈ keys, book.share events key := by
  have covers : ∀ event ∈ events, ∀ found, book event = some found →
      found.1 ∈ keys ∪ book.keys events :=
    fun _ member _ booked => Finset.mem_union_right _ (mem_keys member booked)
  rw [total_eq_sum covers]
  refine (Finset.sum_subset Finset.subset_union_left ?_).symm
  intro key _ absent
  exact nothing key absent

/-- The totals of several books are the sums of their shares over keys that include all entries. -/
theorem totals_eq_sum {books : List (Book Event Key Amount)} {keys : Finset Key}
    (covers : ∀ book ∈ books, book.keys events ⊆ keys) :
    (books.map fun book => book.total events).sum =
      ∑ key ∈ keys, (books.map fun book => book.share events key).sum := by
  induction books with
  | nil => simp
  | cons book rest ih =>
      have tail := ih fun later member => covers later (List.mem_cons_of_mem _ member)
      have head : book.total events = ∑ key ∈ keys, book.share events key :=
        total_eq_sum fun _ member _ booked =>
          covers book List.mem_cons_self (mem_keys member booked)
      simp only [List.map_cons, List.sum_cons, Finset.sum_add_distrib, head, tail]

/-- Where for each key the shares of some books are those of others and a rest, so are the totals. -/
theorem totals_eq {left right : List (Book Event Key Amount)} {rest : Key → Amount}
    {holders : Finset Key} (nothing : ∀ key, key ∉ holders → rest key = 0)
    (each : ∀ key, (left.map fun book => book.share events key).sum =
      (right.map fun book => book.share events key).sum + rest key) :
    (left.map fun book => book.total events).sum =
      (right.map fun book => book.total events).sum + ∑ key ∈ holders, rest key := by
  let all := holders ∪ ((left ++ right).flatMap fun book => book.booked events).toFinset
  have covers : ∀ book ∈ left ++ right, book.keys events ⊆ all := by
    intro book member key found
    refine Finset.mem_union_right _ (List.mem_toFinset.mpr (List.mem_flatMap.mpr ⟨book, member, ?_⟩))
    exact List.mem_toFinset.mp found
  have remaining : ∑ key ∈ holders, rest key = ∑ key ∈ all, rest key :=
    Finset.sum_subset Finset.subset_union_left fun key _ absent => nothing key absent
  rw [totals_eq_sum fun book member => covers book (List.mem_append_left _ member),
    totals_eq_sum fun book member => covers book (List.mem_append_right _ member), remaining,
    ← Finset.sum_add_distrib]
  exact Finset.sum_congr rfl fun key _ => each key

end Book
end ConvoScore.Library
