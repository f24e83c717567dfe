import ConvoScore.Pipeline.Consistency

namespace ConvoScore.Pipeline
open Library

/-- A history stores every transition of a run, the latest one first. -/
abbrev History := List (System.Taken State Action)

/-- The worker whose `claim_job` succeeded in a transition, with its new attempt. -/
def claimOf (taken : System.Taken State Action) : Option (WorkerId × Worker.Attempt) :=
  match taken.action with
  | .worker id (.claim _) =>
      match taken.after.workers id with
      | .claimed attempt => some (id, attempt)
      | _ => none
  | _ => none

/-- The worker that committed a finishing update in a transition, with the attempt it ended. -/
def finishOf (taken : System.Taken State Action) : Option (WorkerId × Worker.Attempt) :=
  match taken.action with
  | .worker id action =>
      (Worker.finishing taken.before.shared.jobs (taken.before.workers id) action).map
        fun call => (id, call.1)
  | _ => none

/-- The worker whose successful claim on the job was the most recent one. -/
def latestClaimer : History → Uuid → Option WorkerId
  | [], _ => none
  | taken :: earlier, job =>
      match claimOf taken with
      | some (id, attempt) => if attempt.job = job then some id else latestClaimer earlier job
      | none => latestClaimer earlier job

/-- The expiry of the worker's latest claim on the job, until it commits a finishing update. -/
def openClaim : History → Uuid → WorkerId → Option Timestamp
  | [], _, _ => none
  | taken :: earlier, job, id =>
      match claimOf taken with
      | some (claimer, attempt) =>
          if claimer = id ∧ attempt.job = job then some attempt.expiry
          else openClaim earlier job id
      | none =>
          match finishOf taken with
          | some (finisher, attempt) =>
              if finisher = id ∧ attempt.job = job then none else openClaim earlier job id
          | none => openClaim earlier job id

variable {env : Environment} {state next : State} {action : Action} {history : History}
  {taken : System.Taken State Action} {job : Uuid} {id : WorkerId} {attempt : Worker.Attempt}

/-- A successful claim opens one claim and closes none. -/
theorem openClaim_claimed (claimed : claimOf taken = some (id, attempt)) :
    openClaim (taken :: history) attempt.job =
      Function.update (openClaim history attempt.job) id (some attempt.expiry) := by
  funext other
  simp only [openClaim, claimed, and_true, Function.update_apply]
  by_cases same : id = other
  · simp [same]
  · rw [if_neg same, if_neg (Ne.symm same)]

/-- A finishing update closes the claim of its own worker. -/
theorem openClaim_finished (unclaimed : claimOf taken = none)
    (finished : finishOf taken = some (id, attempt)) :
    openClaim (taken :: history) attempt.job =
      Function.update (openClaim history attempt.job) id none := by
  funext other
  simp only [openClaim, unclaimed, finished, and_true, Function.update_apply]
  by_cases same : id = other
  · simp [same]
  · rw [if_neg same, if_neg (Ne.symm same)]

/-- A transition keeps every claim that it neither opens nor closes. -/
theorem openClaim_kept (unclaimed : ∀ id attempt, claimOf taken = some (id, attempt) →
      attempt.job ≠ job)
    (unfinished : ∀ id attempt, finishOf taken = some (id, attempt) → attempt.job ≠ job) :
    openClaim (taken :: history) job = openClaim history job := by
  funext other
  simp only [openClaim]
  split
  · rename_i claimer attempt claimed
    rw [if_neg (fun both => unclaimed claimer attempt claimed both.2)]
  · split
    · rename_i finisher attempt finished
      rw [if_neg (fun both => unfinished finisher attempt finished both.2)]
    · rfl

/-- Only the worker that steps claims a job. -/
theorem claimOf_actor (claimed : claimOf taken = some (id, attempt)) :
    ∃ start, taken.action = .worker id (.claim start) := by
  unfold claimOf at claimed
  split at claimed
  · rename_i same
    split at claimed
    · cases claimed
      exact ⟨_, same⟩
    · cases claimed
  · cases claimed

/-- Only the worker that steps finishes an attempt. -/
theorem finishOf_actor (finished : finishOf taken = some (id, attempt)) :
    ∃ call, taken.action = .worker id call := by
  unfold finishOf at finished
  split at finished
  · rename_i same
    obtain ⟨call, made, equal⟩ := Option.map_eq_some_iff.mp finished
    cases equal
    exact ⟨_, same⟩
  · cases finished

/-- A transition keeps the claims of every worker that does not step. -/
theorem openClaim_bystander (idle : ∀ call, taken.action ≠ .worker id call) :
    openClaim (taken :: history) job id = openClaim history job id := by
  simp only [openClaim]
  split
  · rename_i claimer attempt claimed
    obtain ⟨start, same⟩ := claimOf_actor claimed
    rw [if_neg]
    rintro ⟨rfl, _⟩
    exact idle _ same
  · split
    · rename_i finisher attempt finished
      obtain ⟨call, same⟩ := finishOf_actor finished
      rw [if_neg]
      rintro ⟨rfl, _⟩
      exact idle _ same
    · rfl

/-- An open claim was open before or has just been made. -/
theorem openClaim_source {expiry : Timestamp}
    (opened : openClaim (taken :: history) job id = some expiry) :
    openClaim history job id = some expiry ∨
      ∃ attempt, claimOf taken = some (id, attempt) ∧ attempt.job = job ∧
        attempt.expiry = expiry := by
  unfold openClaim at opened
  split at opened
  · rename_i claimer attempt claimed
    split at opened
    · rename_i both
      obtain ⟨rfl, same⟩ := both
      exact .inr ⟨attempt, claimed, same, Option.some.inj opened⟩
    · exact .inl opened
  · split at opened
    · split at opened
      · cases opened
      · exact .inl opened
    · exact .inl opened

/-- A claim in a transition leaves its worker in the claimed phase. -/
theorem claimOf_phase (claimed : claimOf taken = some (id, attempt)) :
    taken.after.workers id = .claimed attempt := by
  unfold claimOf at claimed
  split at claimed
  · split at claimed
    · rename_i held
      cases claimed
      exact held
    · cases claimed
  · cases claimed

/-- A worker that enters the claimed phase has taken the free row of its job. -/
theorem claim_entered {start : Timestamp} (step : Step env state (.worker id (.claim start)) next)
    (entered : next.workers id = .claimed attempt) :
    ∃ since row, state.workers id = .received attempt.message since ∧
      state.shared.jobs attempt.job = some row ∧ row.claimable start = true ∧
      attempt.expiry = claimExpiry start (env.settings id).visibilityTimeoutSeconds ∧
      next.shared.jobs attempt.job = some (row.withClaim start attempt.expiry) := by
  cases step with
  | worker move =>
      rw [withWorker_workers, if_pos rfl] at entered
      subst entered
      generalize state.workers id = before at move
      cases move with
      | claimed delivery _ _ present free =>
          exact ⟨_, _, rfl, present, free, rfl, Shared.write_jobs_self⟩

section Worker
variable {call : Worker.Action} {shared : Shared} {phase : Worker.Phase}

theorem claimOf_worker {start : Timestamp} : claimOf ⟨state, .worker id (.claim start),
    state.withWorker shared id (.claimed attempt)⟩ = some (id, attempt) := by
  simp [claimOf]

/-- A worker that does not enter the claimed phase has claimed nothing. -/
theorem claimOf_worker_none (different : ∀ attempt, phase ≠ .claimed attempt) :
    claimOf ⟨state, .worker id call, state.withWorker shared id phase⟩ = none := by
  unfold claimOf
  split
  · rename_i same
    cases same
    split
    · rename_i entered
      rw [withWorker_workers, if_pos rfl] at entered
      exact absurd entered (different _)
    · rfl
  · rfl

theorem finishOf_worker {result : Jobs × Bool}
    (finished : Worker.finishing state.shared.jobs (state.workers id) call =
      some (attempt, result)) : finishOf ⟨state, .worker id call, next⟩ = some (id, attempt) := by
  simp [finishOf, finished]

theorem finishOf_worker_none
    (unfinished : Worker.finishing state.shared.jobs (state.workers id) call = none) :
    finishOf ⟨state, .worker id call, next⟩ = none := by
  simp [finishOf, unfinished]

end Worker

/-- Every state of a recorded run is consistent. -/
theorem run_consistent {allowed : System.Condition (History × State) Action}
    {run : History × State} (reached : (system env).recorded.Reached allowed run) :
    Consistent run.2 :=
  reached_consistent (System.recorded_reachable reached)

end ConvoScore.Pipeline
