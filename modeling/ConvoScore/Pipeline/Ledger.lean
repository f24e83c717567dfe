import ConvoScore.Library.Tally
import ConvoScore.Pipeline.History

namespace ConvoScore.Pipeline
open Library

/-- The row of an open request is a new row that its publish may have marked. -/
inductive Draft (sha256 : Text → Text) : Conversation → Prop
  | created {job : Uuid} {clock : Timestamp} {conversation : ConversationInput}
      {maxAttempts : Nat} :
      Draft sha256 (ConvoScore.createJob sha256 job clock conversation .api maxAttempts none)
  | enqueued {row : Conversation} {start : Timestamp} (draft : Draft sha256 row) :
      Draft sha256 (row.withEnqueued start)
  | enqueueFailed {row : Conversation} {start : Timestamp} {error : Text}
      (draft : Draft sha256 row) : Draft sha256 (row.withEnqueueFailed start error)

/-- Every request that has not ended holds a draft. -/
def DraftRows (env : Environment) (state : State) : Prop :=
  ∀ job request row, state.origins job = .api request → request.phase.openRow = some row →
    Draft env.sha256 row

/-- What a step does to the attempts of a job, with the one who claims it. -/
inductive AttemptChange {Key : Type} : Option Conversation → Option Conversation → Option Key → Prop
  | absent : AttemptChange none none none
  | appeared {row : Conversation} (fresh : row.attemptCount = 0) :
      AttemptChange none (some row) none
  | kept {row later : Conversation} (same : later.attemptCount = row.attemptCount) :
      AttemptChange (some row) (some later) none
  | claimed {key : Key} {row : Conversation} {start expiry : Timestamp}
      (free : row.claimable start = true) :
      AttemptChange (some row) (some (row.withClaim start expiry)) (some key)

/-- The history counts every attempt of a job, and nobody starts more scores than the claims
that are theirs; `held` are the claims that a score may still follow. -/
structure Counted {Event Key : Type} [DecidableEq Key] (claims starts : Mark Event Key)
    (stored : Option Conversation) (held : Key → Nat) (history : List Event) : Prop where
  attempts : ∀ row, stored = some row → row.attemptCount = claims.total history
  absent : stored = none → claims.total history = 0
  covered : starts.Covered claims history held

/-- The worker whose `claim_job` on the job succeeds in a transition. -/
def claimerOf (job : Uuid) : Mark (System.Taken State Action) WorkerId := fun taken =>
  match claimOf taken with
  | some (id, attempt) => if attempt.job = job then some id else none
  | none => none

/-- The worker that calls `provider.score` for the job after a transition. -/
def starterOf (job : Uuid) : Mark (System.Taken State Action) WorkerId := fun taken =>
  match taken.action with
  | .worker id .readJob =>
      match taken.after.workers id with
      | .scoring attempt _ => if attempt.job = job then some id else none
      | _ => none
  | _ => none

/-- The worker has claimed the job and has not called its provider yet. -/
def Unscored (job : Uuid) (phase : Worker.Phase) : Prop :=
  ∃ attempt, phase = .claimed attempt ∧ attempt.job = job

instance (job : Uuid) (phase : Worker.Phase) : Decidable (Unscored job phase) :=
  match phase with
  | .claimed attempt => decidable_of_iff (attempt.job = job) (by simp [Unscored])
  | .idle | .received _ _ | .unclaimed _ | .scoring _ _ | .persisting _ _ _ | .releasing _ _ _ _
  | .failing _ _ _ _ | .extending _ _ | .acknowledging _ _ | .stopped =>
      .isFalse (by simp [Unscored])

/-- A worker that has claimed the job owes one call of its provider. -/
def unscored (job : Uuid) (state : State) (id : WorkerId) : Nat :=
  if Unscored job (state.workers id) then 1 else 0

variable {env : Environment} {state next : State} {action : Action} {job : Uuid} {id : WorkerId}

theorem AttemptChange.of_kept {Key : Type} {stored : Option Conversation} :
    @AttemptChange Key stored stored none := by
  cases stored with
  | none => exact .absent
  | some row => exact .kept rfl

/-- A claim counts an attempt under any name of its claimer. -/
theorem AttemptChange.map {Key Other : Type} {before after : Option Conversation}
    {claimer : Option Key} (change : AttemptChange before after claimer) (rename : Key → Other) :
    AttemptChange before after (claimer.map rename) := by
  cases change with
  | absent => exact .absent
  | appeared fresh => exact .appeared fresh
  | kept same => exact .kept same
  | claimed free => exact .claimed free

section Counted
variable {Event Key : Type} [DecidableEq Key] {claims starts : Mark Event Key}
  {before after : Option Conversation} {held later : Key → Nat} {history : List Event}
  {event : Event}

theorem Counted.nil (nothing : ∀ key, held key = 0) : Counted claims starts none held [] where
  attempts row present := by cases present
  absent _ := rfl
  covered key := by simp [nothing key]

/-- One more event counts one more attempt exactly when it claims the job. -/
theorem Counted.cons (counted : Counted claims starts before held history)
    (change : AttemptChange before after (claims event))
    (paid : ∀ key, starts.unit event key + later key ≤ claims.unit event key + held key) :
    Counted claims starts after later (event :: history) := by
  have covered := counted.covered.cons paid
  generalize claimer : claims event = found at change
  cases change with
  | absent =>
      refine ⟨?_, fun missing => ?_, covered⟩
      · intro row present
        cases present
      · rw [Mark.total_cons_none claimer, counted.absent missing]
  | appeared fresh =>
      refine ⟨?_, fun missing => ?_, covered⟩
      · intro row present
        cases present
        rw [Mark.total_cons_none claimer, counted.absent rfl, fresh]
      · cases missing
  | kept same =>
      refine ⟨?_, fun missing => ?_, covered⟩
      · intro row present
        cases present
        rw [Mark.total_cons_none claimer, same, counted.attempts _ rfl]
      · cases missing
  | claimed =>
      refine ⟨?_, fun missing => ?_, covered⟩
      · intro row present
        cases present
        rw [Mark.total_cons_some claimer, ← counted.attempts _ rfl]
        rfl
      · cases missing

end Counted

theorem Draft.attemptCount {sha256 : Text → Text} {row : Conversation} (draft : Draft sha256 row) :
    row.attemptCount = 0 := by
  induction draft with
  | created => rfl
  | enqueued _ ih => exact ih
  | enqueueFailed _ ih => exact ih

/-- The row of an open request has not been claimed. -/
theorem Draft.unclaimed {sha256 : Text → Text} {row : Conversation} (draft : Draft sha256 row) :
    row.status ≠ .processing := by
  induction draft with
  | created => nofun
  | enqueued _ ih => exact ih
  | enqueueFailed => nofun

theorem draftRows_step (drafts : DraftRows env state) (step : Step env state action next) :
    DraftRows env next := by
  intro job request row
  exact openRow_keeps (fun _ _ _ _ => .created) (fun _ _ => .enqueued) (fun _ _ _ => .enqueueFailed)
    drafts step

/-- The row that a request commits is a draft. -/
theorem DraftRows.submitted (drafts : DraftRows env state) {request : Api.Request}
    {row : Conversation} (origin : state.origins job = .api request)
    (opened : request.phase = .committing row ∨ request.phase = .rejecting row) :
    Draft env.sha256 row :=
  drafts job request row origin (Api.Phase.openRow_of_opened opened)

theorem draftRows_initial (now : Timestamp) : DraftRows env (initial now) := by
  intro job request row origin
  cases origin

/-- A successful claim writes the row of its job. -/
theorem claimOf_written (step : Step env state action next) {attempt : Worker.Attempt}
    (claimed : claimOf ⟨state, action, next⟩ = some (id, attempt)) :
    ∃ row start, state.shared.jobs attempt.job = some row ∧ row.claimable start = true ∧
      next.shared.jobs attempt.job = some (row.withClaim start attempt.expiry) := by
  obtain ⟨start, rfl⟩ := claimOf_actor claimed
  obtain ⟨_, row, _, present, free, _, written⟩ := claim_entered step (claimOf_phase claimed)
  exact ⟨row, start, present, free, written⟩

/-- A step without a claim on the job keeps its attempts. -/
theorem unclaimed_change (drafts : DraftRows env state) (step : Step env state action next)
    (unclaimed : claimerOf job ⟨state, action, next⟩ = none) :
    AttemptChange (state.shared.jobs job) (next.shared.jobs job)
      (claimerOf job ⟨state, action, next⟩) := by
  rw [unclaimed]
  cases row_change step job with
  | kept same =>
      rw [same]
      exact .of_kept
  | @submitted _ row origin opened absent written =>
      rw [absent, written]
      exact .appeared (drafts.submitted origin opened).attemptCount
  | created _ absent written =>
      rw [absent, written]
      exact .appeared rfl
  | claimed _ same _ _ _ _ _ entered => simp [claimerOf, claimOf, entered, same] at unclaimed
  | completed _ _ present _ written | released _ _ present _ written
  | failed _ _ present _ written | enqueued present written | enqueueFailed present written =>
      rw [present, written]
      exact .kept rfl

/-- Every step changes the attempts of a job in one of the listed ways. -/
theorem attempt_change (drafts : DraftRows env state) (step : Step env state action next)
    (job : Uuid) : AttemptChange (state.shared.jobs job) (next.shared.jobs job)
      (claimerOf job ⟨state, action, next⟩) := by
  cases claimer : claimerOf job ⟨state, action, next⟩ with
  | none => exact claimer ▸ unclaimed_change drafts step claimer
  | some id =>
      unfold claimerOf at claimer
      split at claimer
      · rename_i actor attempt claimed
        split at claimer
        · rename_i same
          obtain ⟨row, start, present, free, written⟩ := claimOf_written step claimed
          subst same
          rw [present, written]
          exact .claimed free
        · cases claimer
      · cases claimer

/-- No step takes an attempt back. -/
theorem attempts_monotone (drafts : DraftRows env state) (step : Step env state action next)
    {row later : Conversation} (present : state.shared.jobs job = some row)
    (written : next.shared.jobs job = some later) : row.attemptCount ≤ later.attemptCount := by
  have change := attempt_change drafts step job
  rw [present, written] at change
  generalize claimerOf job ⟨state, action, next⟩ = claimer at change
  cases change with
  | kept same => exact Nat.le_of_eq same.symm
  | claimed => exact Nat.le_succ _

/-- A worker that owes a call owed it before or has just claimed the job. -/
theorem unscored_source (step : Step env state action next)
    (owes : Unscored job (next.workers id)) :
    Unscored job (state.workers id) ∨ claimerOf job ⟨state, action, next⟩ = some id := by
  obtain ⟨attempt, entered, same⟩ := owes
  cases step with
  | @worker target call shared phase move =>
      have held := entered
      rw [withWorker_workers] at held
      split at held
      · rename_i actor
        subst held actor
        generalize state.workers id = before at move
        cases move with
        | claimed =>
            refine .inr ?_
            rw [claimerOf, claimOf_worker]
            exact if_pos same
      · exact .inl ⟨attempt, held, same⟩
  | _ => exact .inl ⟨attempt, entered, same⟩

/-- A worker calls its provider right after the phase that owes the call. -/
theorem starterOf_source (step : Step env state action next)
    (started : starterOf job ⟨state, action, next⟩ = some id) :
    Unscored job (state.workers id) ∧ ¬ Unscored job (next.workers id) := by
  unfold starterOf at started
  split at started
  · rename_i actor call
    subst call
    split at started
    · rename_i attempt row entered
      split at started
      · rename_i same
        cases started
        have paid : ¬ Unscored job (next.workers id) := by
          rintro ⟨other, held, _⟩
          have scoring : next.workers id = .scoring attempt row := entered
          rw [scoring] at held
          cases held
        refine ⟨?_, paid⟩
        cases step with
        | worker move =>
            rw [withWorker_workers, if_pos rfl] at entered
            generalize state.workers id = before at move
            cases move with
            | read =>
                cases entered
                exact ⟨attempt, rfl, same⟩
            | vanished => cases entered
      · cases started
    · cases started
  · cases started

/-- Each call of the provider pays for a claim of the same worker. -/
theorem unscored_step (step : Step env state action next) (id : WorkerId) :
    (starterOf job).unit ⟨state, action, next⟩ id + unscored job next id ≤
      (claimerOf job).unit ⟨state, action, next⟩ id + unscored job state id := by
  by_cases started : starterOf job ⟨state, action, next⟩ = some id
  · obtain ⟨owed, paid⟩ := starterOf_source step started
    rw [Mark.unit_self started, unscored, unscored, if_neg paid, if_pos owed]
    exact Nat.le_add_left _ _
  · rw [Mark.unit_of_ne started, Nat.zero_add, unscored]
    split
    · rename_i owes
      rcases unscored_source step owes with owed | claimed
      · rw [unscored, if_pos owed]
        exact Nat.le_add_left _ _
      · rw [Mark.unit_self claimed]
        exact Nat.le_add_right _ _
    · exact Nat.zero_le _

/-- The latest claimer of a job is the worker whose claim was counted last. -/
theorem latestClaimer_claimed {taken : System.Taken State Action} {history : History}
    (claimed : claimerOf job taken = some id) : latestClaimer (taken :: history) job = some id := by
  unfold claimerOf at claimed
  split at claimed
  · rename_i found
    rw [latestClaimer, found]
    split at claimed
    · rename_i same
      cases claimed
      exact if_pos same
    · cases claimed
  · cases claimed

theorem latestClaimer_unclaimed {taken : System.Taken State Action} {history : History}
    (unclaimed : claimerOf job taken = none) :
    latestClaimer (taken :: history) job = latestClaimer history job := by
  unfold claimerOf at unclaimed
  split at unclaimed
  · rename_i found
    rw [latestClaimer, found]
    split at unclaimed
    · cases unclaimed
    · rename_i different
      exact if_neg different
  · rename_i found
    rw [latestClaimer, found]

/-- In every reached state, the open requests hold drafts. -/
theorem reached_drafts {allowed : System.Condition State Action}
    (reached : (system env).Reached allowed state) : DraftRows env state := by
  refine reached.invariant ?_ ?_
  · rintro _ ⟨now, rfl⟩
    exact draftRows_initial now
  · intro before action after drafts stepped _
    exact draftRows_step drafts (step_cases stepped)

/-- In every run, the open requests hold drafts. -/
theorem run_drafts {allowed : System.Condition (History × State) Action}
    {run : History × State} (reached : (system env).recorded.Reached allowed run) :
    DraftRows env run.2 :=
  reached_drafts (System.recorded_reachable reached)

/-- In every run, the history counts the attempts of every job. -/
theorem run_counted {allowed : System.Condition (History × State) Action}
    {run : History × State} (reached : (system env).recorded.Reached allowed run) (job : Uuid) :
    Counted (claimerOf job) (starterOf job) (run.2.shared.jobs job) (unscored job run.2) run.1 := by
  refine reached.historyInvariant (motive := fun history state =>
    Counted (claimerOf job) (starterOf job) (state.shared.jobs job) (unscored job state)
      history) ?_ ?_
  · rintro _ ⟨now, rfl⟩
    exact .nil fun _ => rfl
  · intro history before action after earlier counted stepped _
    have step := step_cases stepped
    exact counted.cons (attempt_change (run_drafts earlier) step job) (unscored_step step)

end ConvoScore.Pipeline
