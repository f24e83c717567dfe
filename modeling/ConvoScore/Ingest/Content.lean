import ConvoScore.Ingest.ExactlyOnce

namespace ConvoScore.Ingest.Replicas

/-- The object and the conversation that a replica is turning into a job. -/
def Phase.content : Phase → Option (StoredObject × ConversationInput)
  | .creating stored conversation | .inserted stored conversation _ _
  | .recorded stored conversation _ _ _ => some (stored, conversation)
  | _ => none

variable {env : Environment} {state next : State} {id : ReplicaId} {action : ReplicaAction}
  {stored : StoredObject} {conversation : ConversationInput}

/-- A rollback leaves no object in work. -/
theorem content_rolledBack {rest : List StoredObject} :
    ((state.rolledBack id rest).replicas id).phase.content = none := by
  rw [State.rolledBack, withReplica_self]
  rfl

/-- The insert of a record keeps the object of its phase or rolls back. -/
theorem insertRecord_content {rest : List StoredObject} {record : IngestedObject} {phase : Phase}
    (stepped : state.insertRecord id rest record phase = some next) :
    (next.replicas id).phase.content = none ∨ (next.replicas id).phase = phase := by
  unfold State.insertRecord at stepped
  split at stepped
  · cases stepped
    exact .inl content_rolledBack
  · cases stepped
    exact .inl content_rolledBack
  · split at stepped
    · cases stepped
      exact .inr (by rw [State.opened, withReplica_self])
    · cases stepped

/-- A read starts the work on the conversation that it parses to. -/
theorem afterRead_content {rest : List StoredObject} {object : StoredObject}
    {raw : Except Text Bytes}
    (held : (env.afterRead rest object raw).phase.content = some (stored, conversation)) :
    object = stored ∧ ∃ bytes, raw = .ok bytes ∧
      parse env.codec bytes = some (.conversation conversation) := by
  unfold Environment.afterRead at held
  split at held
  · cases held
  · split at held
    · cases held
    · cases held
    · rename_i parsed
      cases held
      exact ⟨rfl, _, rfl, parsed⟩

/-- Between two objects a replica has none in work. -/
theorem content_idle (phase : (state.replicas id).phase = .idle)
    (stepped : replicaStep env state id action = some next) :
    (next.replicas id).phase.content = none := by
  cases action with
  | poll contents =>
      simp only [replicaStep, phase] at stepped
      split at stepped
      · cases stepped
        rw [withReplica_self]
        rfl
      · cases stepped
        rw [withReplica_self]
        rfl
      · cases stepped
  | check =>
      simp only [replicaStep, phase] at stepped
      split at stepped
      · cases stepped
      · split at stepped <;> cases stepped <;> rw [withReplica_self] <;> rfl
  | stop =>
      simp only [replicaStep, phase] at stepped
      cases stepped
      exact content_rolledBack
  | _ => simp [replicaStep, phase] at stepped

/-- The insert of a job goes on with its conversation or rolls back. -/
theorem content_createJob {job : Uuid} {clock : Timestamp}
    (phase : (state.replicas id).phase = .creating stored conversation)
    (stepped : replicaStep env state id (.createJob job clock) = some next) :
    (next.replicas id).phase.content = none ∨
      (next.replicas id).phase = .inserted stored conversation job clock := by
  simp only [replicaStep, phase] at stepped
  split at stepped
  · split at stepped
    · split at stepped
      · cases stepped
        exact .inr (by rw [withReplica_self])
      · cases stepped
        exact .inl content_rolledBack
    · cases stepped
      exact .inl content_rolledBack
  · cases stepped

/-- A replica that stops has no object in work. -/
theorem content_stop (stepped : replicaStep env state id .stop = some next) :
    (next.replicas id).phase.content = none := by
  cases phase : (state.replicas id).phase with
  | publishing =>
      simp only [replicaStep, phase] at stepped
      cases stepped
  | _ =>
      simp only [replicaStep, phase] at stepped
      cases stepped
      exact content_rolledBack

/-- A replica works on the conversation that it had in work or has just read. -/
theorem content_own (stepped : replicaStep env state id action = some next)
    (held : (next.replicas id).phase.content = some (stored, conversation)) :
    (state.replicas id).phase.content = some (stored, conversation) ∨
      ∃ raw, action = .read (.ok raw) ∧ (state.replicas id).phase = .reading stored ∧
        parse env.codec raw = some (.conversation conversation) := by
  obtain ⟨current, phase, enabled⟩ := replicaStep_enables stepped
  cases enabled with
  | poll | check =>
      rw [content_idle phase stepped] at held
      cases held
  | stop =>
      rw [content_stop stepped] at held
      cases held
  | @read object raw =>
      simp only [replicaStep, phase] at stepped
      cases stepped
      rw [withReplica_self] at held
      obtain ⟨rfl, bytes, rfl, parsed⟩ := afterRead_content held
      exact .inr ⟨bytes, rfl, phase, parsed⟩
  | createJob =>
      rcases content_createJob phase stepped with none | same
      · rw [none] at held
        cases held
      · rw [same] at held
        exact .inl (by rw [phase]; exact held)
  | recordInvalid =>
      simp only [replicaStep, phase] at stepped
      rcases insertRecord_content stepped with none | same
      · rw [none] at held
        cases held
      · rw [same] at held
        cases held
  | recordJob =>
      simp only [replicaStep, phase] at stepped
      rcases insertRecord_content stepped with none | same
      · rw [none] at held
        cases held
      · rw [same] at held
        exact .inl (by rw [phase]; exact held)
  | commitInvalid =>
      simp only [replicaStep, phase] at stepped
      cases stepped
      rw [State.commitRecord, withReplica_self] at held
      cases held
  | commitJob =>
      simp only [replicaStep, phase] at stepped
      obtain ⟨pipeline, _, rfl⟩ := Option.map_eq_some_iff.mp stepped
      rw [State.commitRecord, withReplica_self] at held
      cases held
  | @publication _ _ call =>
      simp only [replicaStep, phase] at stepped
      obtain ⟨pipeline, _, rfl⟩ := Option.map_eq_some_iff.mp stepped
      rw [withReplica_self] at held
      cases call <;> cases held

/-- A replica turns an object into a job that it was already at, or that it has just read. -/
theorem content_source {action : Action} (stepped : step env state action = some next)
    (held : (next.replicas id).phase.content = some (stored, conversation)) :
    (state.replicas id).phase.content = some (stored, conversation) ∨
      ∃ raw, action = .replica id (.read (.ok raw)) ∧
        (state.replicas id).phase = .reading stored ∧
        parse env.codec raw = some (.conversation conversation) := by
  cases action with
  | pipeline =>
      cases step_cases stepped with
      | pipeline => exact .inl held
  | replica actor act =>
      by_cases same : id = actor
      · subst same
        rcases content_own stepped held with earlier | ⟨raw, rfl, reading, parsed⟩
        · exact .inl earlier
        · exact .inr ⟨raw, rfl, reading, parsed⟩
      · rw [move_other (replicaStep_move stepped) same] at held
        exact .inl held

/-- A record that names a job is an old one, or the commit of the job has just inserted it. -/
theorem named_source {action : Action} (step : Step env state action next)
    {record : IngestedObject} {job : Uuid} (member : record ∈ next.records)
    (named : ingestedJob record = some job) :
    record ∈ state.records ∨ ∃ id stored conversation clock discovered,
      action = .replica id .commit ∧
      (state.replicas id).phase = .recorded stored conversation job clock discovered ∧
      record = env.ingestedRecord stored job discovered := by
  cases step with
  | pipeline => exact .inl member
  | replica move =>
      cases move with
      | committedInvalid =>
          rcases List.mem_cons.mp member with rfl | member
          · cases named
          · exact .inl member
      | committedJob phase =>
          rcases List.mem_cons.mp member with rfl | member
          · cases named
            exact .inr ⟨_, _, _, _, _, rfl, phase, rfl⟩
          · exact .inl member
      | _ => exact .inl member

/-- The commit of a new job writes its row and its record. -/
theorem commit_recorded {job : Uuid} {clock discovered : Timestamp}
    (phase : (state.replicas id).phase = .recorded stored conversation job clock discovered)
    (stepped : replicaStep env state id .commit = some next) :
    state.pipeline.origins job = .unused ∧
      next.pipeline.shared.jobs job = some (env.jobRow id stored conversation job clock) ∧
      next.records = env.ingestedRecord stored job discovered :: state.records := by
  simp only [replicaStep, phase] at stepped
  obtain ⟨pipeline, created, rfl⟩ := Option.map_eq_some_iff.mp stepped
  cases Pipeline.step_cases created with
  | createJob unused => exact ⟨unused, Shared.write_jobs_self, rfl⟩

/-- A step keeps what the request of every stored job has written. -/
theorem sameRequest_step {action : Action} (step : Step env state action next) {job : Uuid}
    {row : Conversation} (present : state.pipeline.shared.jobs job = some row) :
    ∃ later, next.pipeline.shared.jobs job = some later ∧ Pipeline.SameRequest row later := by
  have kept : ∀ {act pipeline}, Pipeline.step env.pipeline state.pipeline act = some pipeline →
      ∃ later, pipeline.shared.jobs job = some later ∧ Pipeline.SameRequest row later := by
    intro act pipeline stepped
    have change := Pipeline.row_change (Pipeline.step_cases stepped) job
    obtain ⟨later, found⟩ :=
      Option.isSome_iff_exists.mp (change.present (by rw [present]; rfl))
    exact ⟨later, found, change.sameRequest present found⟩
  cases step with
  | pipeline _ stepped => exact kept stepped
  | replica move =>
      cases move with
      | committedJob _ stepped | published _ stepped => exact kept stepped
      | _ => exact ⟨row, present, ⟨rfl, rfl, rfl, rfl, rfl, rfl, rfl⟩⟩

end ConvoScore.Ingest.Replicas
