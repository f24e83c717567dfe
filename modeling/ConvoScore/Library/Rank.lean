import ConvoScore.Library.Query
import Mathlib.Data.Set.Card
import Mathlib.Order.Interval.Finset.Nat

namespace ConvoScore.Library
variable {Key : Type*} [LinearOrder Key]

/-- The rank of a key counts the larger keys. -/
noncomputable def rank (keys : Set Key) (key : Key) : ℕ∞ := {other ∈ keys | key < other}.encard

/-- A rank grows with its keys. -/
theorem rank_mono {keys later : Set Key} (grown : keys ⊆ later) (key : Key) :
    rank keys key ≤ rank later key :=
  Set.encard_le_encard fun _ ⟨member, above⟩ => ⟨grown member, above⟩

/-- The rank among finitely many keys is a number. -/
theorem rank_coe (keys : Finset Key) (key : Key) :
    rank (keys : Set Key) key = ((keys.filter (key < ·)).card : ℕ∞) := by
  rw [rank, ← Set.encard_coe_eq_coe_finsetCard]
  congr 1
  ext other
  simp

/-- Not many keys have a large rank. -/
theorem card_behind {keys some : Finset Key} {bound : Nat} (included : some ⊆ keys)
    (behind : ∀ key ∈ some, (bound : ℕ∞) ≤ rank (keys : Set Key) key) :
    some.card ≤ keys.card - bound := by
  let place (key : Key) : Nat := (keys.filter (key < ·)).card
  have ranged : ∀ key ∈ some, place key ∈ Finset.Ico bound keys.card := by
    intro key member
    have least := behind key member
    rw [rank_coe, Nat.cast_le] at least
    have inside : key ∈ keys := included member
    refine Finset.mem_Ico.mpr ⟨least, Finset.card_lt_card ?_⟩
    exact Finset.filter_ssubset.mpr ⟨key, inside, lt_irrefl key⟩
  -- Of two keys the larger one has the smaller rank.
  have ordered : ∀ first ∈ some, ∀ second ∈ some, first < second → place second < place first := by
    intro first _ second member below
    have inside : second ∈ keys.filter (first < ·) :=
      Finset.mem_filter.mpr ⟨included member, below⟩
    refine Finset.card_lt_card ⟨?_, fun back => ?_⟩
    · intro key above
      obtain ⟨listed, larger⟩ := Finset.mem_filter.mp above
      exact Finset.mem_filter.mpr ⟨listed, below.trans larger⟩
    · exact lt_irrefl second (Finset.mem_filter.mp (back inside)).2
  have distinct : Set.InjOn place some := by
    intro first member second listed same
    rcases lt_trichotomy first second with below | equal | above
    · have apart := ordered first member second listed below
      omega
    · exact equal
    · have apart := ordered second listed first member above
      omega
  calc some.card ≤ (Finset.Ico bound keys.card).card :=
        Finset.card_le_card_of_injOn place ranged distinct
    _ = keys.card - bound := Nat.card_Ico bound keys.card

section Listings
variable {Row : Type*} {key : Row → Key} {listing : List Row} {row : Row} {limit offset place : Nat}

/-- Exactly the rows before a row of a descending listing have larger keys. -/
theorem countP_above (descending : listing.Pairwise fun first second => key second < key first)
    (found : listing[place]? = some row) :
    (listing.countP fun other => key row < key other) = place := by
  induction listing generalizing place with
  | nil => simp at found
  | cons head rest ih =>
      obtain ⟨largest, ordered⟩ := List.pairwise_cons.mp descending
      cases place with
      | zero =>
          rw [List.getElem?_cons_zero, Option.some.injEq] at found
          subst found
          rw [List.countP_eq_zero]
          intro other member
          rcases List.mem_cons.mp member with rfl | later
          · simp
          · simpa using (largest other later).le
      | succ before =>
          rw [List.getElem?_cons_succ] at found
          have below := largest row (List.mem_of_getElem? found)
          rw [List.countP_cons, ih ordered found, if_pos (by simpa using below)]

/-- The place of a row in a descending listing is the rank of its key. -/
theorem rank_listed (descending : listing.Pairwise fun first second => key second < key first)
    (found : listing[place]? = some row) :
    rank ((listing.map key).toFinset : Set Key) (key row) = place := by
  have distinct : (listing.map key).Nodup := by
    rw [List.Nodup, List.pairwise_map]
    exact descending.imp fun below => below.ne'
  have filtered : (listing.map key).toFinset.filter (key row < ·) =
      ((listing.map key).filter fun other => key row < other).toFinset := by
    ext other
    simp
  rw [rank_coe, filtered, List.toFinset_card_of_nodup (distinct.filter _),
    ← List.countP_eq_length_filter, List.countP_map]
  exact congrArg _ (countP_above descending found)

/-- A window shows the rows whose rank it covers. -/
theorem mem_window (descending : listing.Pairwise fun first second => key second < key first)
    (member : row ∈ listing)
    (reached : (offset : ℕ∞) ≤ rank ((listing.map key).toFinset : Set Key) (key row))
    (within : rank ((listing.map key).toFinset : Set Key) (key row) < (offset + limit : Nat)) :
    row ∈ Query.window limit offset listing := by
  obtain ⟨place, found⟩ := List.mem_iff_getElem?.mp member
  rw [rank_listed descending found, Nat.cast_le] at reached
  rw [rank_listed descending found, Nat.cast_lt] at within
  refine List.mem_of_getElem? (i := place - offset) ?_
  rw [Query.window, List.getElem?_take_of_lt (by omega), List.getElem?_drop,
    Nat.add_sub_cancel' reached, found]

end Listings

end ConvoScore.Library
