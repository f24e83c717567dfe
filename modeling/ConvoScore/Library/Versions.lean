import ConvoScore.Library.Table

namespace ConvoScore.Library

/-- A row has a committed version and at most one uncommitted version.
The transaction that wrote the uncommitted one holds the lock of the row. -/
structure Versions (Client Key Row : Type*) where
  committed : Table Key Row
  written : Table Key (Client × Row)

namespace Versions
variable {Client Key Row : Type*}

def empty : Versions Client Key Row := ⟨Table.empty, Table.empty⟩

/-- Every uncommitted version satisfies what its owner knows of it,
which may be about the committed version under it. -/
def Guarded (versions : Versions Client Key Row)
    (knows : Client → Key → Option Row → Row → Prop) : Prop :=
  ∀ key owner row, versions.written key = some (owner, row) →
    knows owner key (versions.committed key) row

variable {versions next : Versions Client Key Row} {client owner : Client} {key other : Key}
  {row : Row} {knows later : Client → Key → Option Row → Row → Prop}

/-- A client that has written nothing may come to know anything. -/
theorem Guarded.idle (guarded : versions.Guarded knows)
    (others : ∀ other, other ≠ client → later other = knows other)
    (nothing : ∀ key committed row, ¬ knows client key committed row) :
    versions.Guarded later := by
  intro key owner row wrote
  have known := guarded key owner row wrote
  have different : owner ≠ client := by
    rintro rfl
    exact nothing _ _ _ known
  rwa [others owner different]

section End
variable [DecidableEq Client]

/-- A transaction sees its own writes over the committed rows. -/
def view (versions : Versions Client Key Row) (client : Client) : Table Key Row := fun key =>
  match versions.written key with
  | some (owner, row) => if owner = client then some row else versions.committed key
  | none => versions.committed key

/-- The end of a transaction gives its locks back. -/
def release (versions : Versions Client Key Row) (client : Client) : Table Key (Client × Row) :=
  fun key => (versions.written key).filter fun version => decide (version.1 ≠ client)

def commit (versions : Versions Client Key Row) (client : Client) : Versions Client Key Row where
  committed := versions.view client
  written := versions.release client

def rollback (versions : Versions Client Key Row) (client : Client) :
    Versions Client Key Row where
  committed := versions.committed
  written := versions.release client

@[simp] theorem commit_committed : (versions.commit client).committed = versions.view client := rfl

@[simp] theorem rollback_committed :
    (versions.rollback client).committed = versions.committed := rfl

theorem view_own (wrote : versions.written key = some (client, row)) :
    versions.view client key = some row := by
  simp [view, wrote]

/-- A transaction sees the committed version of every row that it has not written. -/
theorem view_committed (unwritten : ∀ row, versions.written key ≠ some (client, row)) :
    versions.view client key = versions.committed key := by
  unfold view
  split
  · rename_i owner row wrote
    refine if_neg ?_
    rintro rfl
    exact unwritten row wrote
  · rfl

/-- The other transactions keep their locks. -/
theorem release_eq : versions.release client key = some (owner, row) ↔
    versions.written key = some (owner, row) ∧ owner ≠ client := by
  simp [release, Option.filter_eq_some_iff]

/-- What one transaction commits is never a row that another one has locked. -/
theorem Guarded.commit (guarded : versions.Guarded knows)
    (others : ∀ other, other ≠ client → later other = knows other) :
    (versions.commit client).Guarded later := by
  intro key owner row found
  obtain ⟨wrote, different⟩ := release_eq.mp found
  have unwritten : ∀ row, versions.written key ≠ some (client, row) := by
    intro row own
    rw [wrote, Option.some.injEq, Prod.mk.injEq] at own
    exact different own.1
  rw [commit_committed, view_committed unwritten, others owner different]
  exact guarded key owner row wrote

theorem Guarded.rollback (guarded : versions.Guarded knows)
    (others : ∀ other, other ≠ client → later other = knows other) :
    (versions.rollback client).Guarded later := by
  intro key owner row found
  obtain ⟨wrote, different⟩ := release_eq.mp found
  rw [rollback_committed, others owner different]
  exact guarded key owner row wrote

end End

section Write
variable [DecidableEq Client] [DecidableEq Key]

/-- A write waits while another transaction holds the lock of the row. -/
def write (versions : Versions Client Key Row) (client : Client) (key : Key) (row : Row) :
    Option (Versions Client Key Row) :=
  if (versions.written key).all fun version => decide (version.1 = client) then
    some {versions with written := Function.update versions.written key (some (client, row))}
  else none

/-- A write keeps what is committed, and changes one uncommitted version that it may change. -/
theorem write_eq (wrote : versions.write client key row = some next) :
    (∀ owner held, versions.written key = some (owner, held) → owner = client) ∧
      next.committed = versions.committed ∧
      next.written = Function.update versions.written key (some (client, row)) := by
  unfold write at wrote
  split at wrote
  · rename_i unlocked
    cases wrote
    refine ⟨?_, rfl, rfl⟩
    intro owner held found
    simpa [found] using unlocked
  · cases wrote

/-- A write leaves the locks of the other transactions alone. -/
theorem write_keeps {held : Row} (wrote : versions.write client key row = some next)
    (found : versions.written other = some (owner, held)) (different : owner ≠ client) :
    next.written other = some (owner, held) := by
  obtain ⟨unlocked, _, written⟩ := write_eq wrote
  rw [written, Function.update_of_ne, found]
  rintro rfl
  exact different (unlocked owner held found)

/-- A client knows what it writes, and keeps what it knows of its other rows. -/
theorem Guarded.write (guarded : versions.Guarded knows)
    (wrote : versions.write client key row = some next)
    (others : ∀ other, other ≠ client → later other = knows other)
    (own : later client key (versions.committed key) row)
    (kept : ∀ other committed held, other ≠ key → knows client other committed held →
      later client other committed held) : next.Guarded later := by
  obtain ⟨_, committed, written⟩ := write_eq wrote
  intro other owner held found
  rw [written, Function.update_apply] at found
  rw [committed]
  split at found
  · rename_i same
    cases found
    exact same ▸ own
  · rename_i different
    have known := guarded other owner held found
    by_cases same : owner = client
    · subst same
      exact kept other _ held different known
    · rwa [others owner same]

end Write
end Versions
end ConvoScore.Library
