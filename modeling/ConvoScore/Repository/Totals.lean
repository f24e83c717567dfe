import ConvoScore.Library.Book
import ConvoScore.Repository.Queries

namespace ConvoScore
open Library

variable {jobs : Jobs} {rows : List Conversation} {job : Uuid}

/-- The ids of some rows. -/
def rowIds (rows : List Conversation) : Finset Uuid := (rows.map (·.id)).toFinset

/-- A scan misses no row. -/
theorem Scan.absent (scan : Scan jobs rows) (unlisted : job ∉ rowIds rows) : jobs job = none := by
  by_contra stored
  obtain ⟨row, present⟩ := Option.ne_none_iff_exists'.mp stored
  obtain ⟨listed, same⟩ := (scan.stored job row).mp present
  exact unlisted (List.mem_toFinset.mpr (List.mem_map.mpr ⟨row, listed, same⟩))

/-- The ids of a scan are those of the stored rows. -/
theorem Scan.mem_ids (scan : Scan jobs rows) : job ∈ rowIds rows ↔ jobs job ≠ none := by
  constructor
  · intro listed
    obtain ⟨row, member, same⟩ := List.mem_map.mp (List.mem_toFinset.mp listed)
    rw [(scan.stored job row).mpr ⟨member, same⟩]
    exact Option.some_ne_none row
  · intro stored
    by_contra unlisted
    exact stored (scan.absent unlisted)

theorem Scan.card_ids (scan : Scan jobs rows) : (rowIds rows).card = rows.length := by
  rw [rowIds, List.toFinset_card_of_nodup scan.distinct, List.length_map]

/-- A sum over the rows of a scan is a sum over the table. -/
theorem Scan.sum_eq {Number : Type*} [AddCommMonoid Number] {column : Conversation → Option Number}
    (scan : Scan jobs rows) :
    ∑ job ∈ rowIds rows, ((jobs job).bind column).getD 0 = Query.sum column rows := by
  have each : ∀ row ∈ rows, ((jobs row.id).bind column).getD 0 = (column row).getD 0 := by
    intro row listed
    rw [(scan.stored row.id row).mpr ⟨listed, rfl⟩, Option.bind_some]
  have summed : Query.sum column rows = (rows.map fun row => (column row).getD 0).sum := by
    clear each scan
    induction rows with
    | nil => rfl
    | cons row rest ih => rw [Query.sum_cons, ih, List.map_cons, List.sum_cons]
  rw [summed, rowIds, List.sum_toFinset _ scan.distinct, List.map_map]
  exact congrArg List.sum (List.map_congr_left each)

/-- Rows with different keys are a scan of the table that holds them and no other row. -/
theorem Scan.of_rows (distinct : (rows.map (·.id)).Nodup)
    (stored : ∀ row ∈ rows, jobs row.id = some row)
    (absent : ∀ job, job ∉ rows.map (·.id) → jobs job = none) : Scan jobs rows := by
  refine ⟨distinct, fun job row => ⟨fun present => ?_, fun ⟨listed, same⟩ => same ▸ stored row listed⟩⟩
  have keyed : job ∈ rows.map (·.id) := by
    by_contra unlisted
    rw [absent job unlisted] at present
    cases present
  obtain ⟨found, listed, same⟩ := List.mem_map.mp keyed
  have equal : found = row := Option.some.inj ((same ▸ stored found listed).symm.trans present)
  exact equal ▸ ⟨listed, same⟩

/-- A count over a scan is the number of the ids of the rows that it counts. -/
theorem Scan.countP_eq (scan : Scan jobs rows) (test : Conversation → Bool) :
    rows.countP test = (rowIds (rows.filter test)).card := by
  have distinct : ((rows.filter test).map (·.id)).Nodup :=
    scan.distinct.sublist (List.filter_sublist.map _)
  rw [rowIds, List.toFinset_card_of_nodup distinct, List.length_map, List.countP_eq_length_filter]

/-- These ids are those of the rows of the table that pass the test. -/
theorem Scan.mem_rowIds (scan : Scan jobs rows) {test : Conversation → Bool} :
    job ∈ rowIds (rows.filter test) ↔ ∃ row, jobs job = some row ∧ test row = true := by
  rw [rowIds, List.mem_toFinset, List.mem_map]
  constructor
  · rintro ⟨row, listed, same⟩
    obtain ⟨found, passed⟩ := List.mem_filter.mp listed
    exact ⟨row, (scan.stored job row).mpr ⟨found, same⟩, passed⟩
  · rintro ⟨row, present, passed⟩
    obtain ⟨found, same⟩ := (scan.stored job row).mp present
    exact ⟨row, List.mem_filter.mpr ⟨found, passed⟩, same⟩

/-- A count does not exceed a later one if each row that it counts is counted then. -/
theorem Scan.countP_le {laterJobs : Jobs} {laterRows : List Conversation} (scan : Scan jobs rows)
    (later : Scan laterJobs laterRows) {test laterTest : Conversation → Bool}
    (grows : ∀ job row, jobs job = some row → test row = true →
      ∃ found, laterJobs job = some found ∧ laterTest found = true) :
    rows.countP test ≤ laterRows.countP laterTest := by
  rw [scan.countP_eq, later.countP_eq]
  refine Finset.card_le_card fun job counted => ?_
  obtain ⟨row, present, passed⟩ := scan.mem_rowIds.mp counted
  exact later.mem_rowIds.mpr (grows job row present passed)

/-- A grouped count is a sum of ones. -/
theorem countBy_sum {Key : Type*} [DecidableEq Key] (column : Conversation → Option Key)
    (rows : List Conversation) (key : Key) :
    ((Query.countBy column rows key).getD 0 : Int) =
      Query.sum (fun row => if column row = some key then some (1 : Int) else none) rows := by
  rw [Query.countBy_getD]
  induction rows with
  | nil => rfl
  | cons row rest ih =>
      rw [Query.sum_cons, ← ih, List.countP_cons]
      by_cases same : column row = some key
      · simp [same, add_comm]
      · simp [same]

/-- The groups of all keys together have the rows whose column is not null. -/
theorem countBy_total {Key : Type*} [DecidableEq Key] (keys : Finset Key)
    (complete : ∀ key, key ∈ keys) (column : Conversation → Option Key)
    (rows : List Conversation) :
    ∑ key ∈ keys, (Query.countBy column rows key).getD 0 =
      rows.countP fun row => (column row).isSome := by
  simp only [Query.countBy_getD]
  induction rows with
  | nil => simp
  | cons row rest ih =>
      simp only [List.countP_cons, Finset.sum_add_distrib, ih]
      cases value : column row with
      | none => simp
      | some key => simp [complete key]

end ConvoScore
