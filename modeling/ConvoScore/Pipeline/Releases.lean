import ConvoScore.Pipeline.Ledger

namespace ConvoScore.Pipeline
open Library

/-- The worker whose claim leaves the job with a number of attempts below the cap. -/
def earlyClaimer (cap : Nat) (job : Uuid) : Mark (System.Taken State Action) WorkerId := fun taken =>
  if (taken.after.shared.jobs job).any (fun row => row.attemptCount < cap) then claimerOf job taken
  else none

/-- The worker that commits a release of the job, whether it finds the row or not. -/
def releaserOf (job : Uuid) : Mark (System.Taken State Action) WorkerId := fun taken =>
  match taken.action with
  | .worker id (.release _) =>
      match taken.before.workers id with
      | .releasing attempt _ _ _ => if attempt.job = job then some id else none
      | _ => none
  | _ => none

/-- The worker has claimed the job before. -/
def Claimed (job : Uuid) (history : History) (id : WorkerId) : Prop :=
  ∃ taken ∈ history, claimerOf job taken = some id

/-- Each worker that attempts the job has claimed it. -/
def AttemptsClaimed (job : Uuid) (history : History) (state : State) : Prop :=
  ∀ id attempt, (state.workers id).attempt = some attempt → attempt.job = job →
    Claimed job history id

/-- A worker may still release the job when it claimed or read it below the cap. -/
def mayRelease (cap : Nat) (job : Uuid) (stored : Option Conversation) : Worker.Phase → Bool
  | .claimed attempt =>
      decide (attempt.job = job) && stored.any fun row => row.attemptCount < cap
  | .scoring attempt read => decide (attempt.job = job) && decide (read.attemptCount < cap)
  | .releasing attempt _ _ _ => decide (attempt.job = job)
  | _ => false

/-- A worker that may release the job owes at most one release. -/
def releasable (cap : Nat) (job : Uuid) (state : State) (id : WorkerId) : Nat :=
  (mayRelease cap job (state.shared.jobs job) (state.workers id)).toNat

/-- Early claims are attempts below the cap. -/
structure Early (cap : Nat) (job : Uuid) (stored : Option Conversation) (history : History) :
    Prop where
  below : (earlyClaimer cap job).total history < cap
  counted : ∀ row, stored = some row → (earlyClaimer cap job).total history ≤ row.attemptCount
  absent : stored = none → (earlyClaimer cap job).total history = 0

variable {env : Environment} {state next : State} {action : Action} {job : Uuid} {id : WorkerId}
  {cap : Nat} {history : History}

theorem Claimed.cons {taken : System.Taken State Action} (claimed : Claimed job history id) :
    Claimed job (taken :: history) id := by
  obtain ⟨earlier, member, claims⟩ := claimed
  exact ⟨earlier, List.mem_cons_of_mem _ member, claims⟩

/-- An attempt starts with a claim in a transition. -/
theorem attemptsClaimed_step (claimed : AttemptsClaimed job history state)
    (step : Step env state action next) :
    AttemptsClaimed job (⟨state, action, next⟩ :: history) next := by
  intro id attempt held same
  rcases worker_source step id with unmoved | ⟨call, rfl, move⟩
  · exact (claimed id attempt (unmoved ▸ held) same).cons
  · rcases move.attempt_source held with earlier | ⟨start, rfl, entered, _⟩
    · exact (claimed id attempt earlier same).cons
    · refine ⟨_, List.mem_cons_self, ?_⟩
      simp only [claimerOf, claimOf, entered, same, if_true]

theorem earlyClaimer_none {taken : System.Taken State Action}
    (unclaimed : claimerOf job taken = none) : earlyClaimer cap job taken = none := by
  unfold earlyClaimer
  split
  · exact unclaimed
  · rfl

/-- Without an early claim the count stays within the attempts of the row. -/
theorem Early.unmarked {taken : System.Taken State Action} {before after : Option Conversation}
    (early : Early cap job before history) (unmarked : earlyClaimer cap job taken = none)
    (counted : ∀ row, after = some row →
      (earlyClaimer cap job).total history ≤ row.attemptCount)
    (absent : after = none → before = none) : Early cap job after (taken :: history) where
  below := by
    rw [Mark.total_cons_none unmarked]
    exact early.below
  counted row present := by
    rw [Mark.total_cons_none unmarked]
    exact counted row present
  absent missing := by
    rw [Mark.total_cons_none unmarked]
    exact early.absent (absent missing)

/-- A claim is early when the attempt that it starts is below the cap. -/
theorem early_step (drafts : DraftRows env state) (step : Step env state action next)
    (early : Early cap job (state.shared.jobs job) history) :
    Early cap job (next.shared.jobs job) (⟨state, action, next⟩ :: history) := by
  have change := attempt_change drafts step job
  have unclaimed : claimerOf job ⟨state, action, next⟩ = none →
      earlyClaimer cap job ⟨state, action, next⟩ = none := earlyClaimer_none
  have marked : earlyClaimer cap job ⟨state, action, next⟩ =
      if (next.shared.jobs job).any (fun row => row.attemptCount < cap)
        then claimerOf job ⟨state, action, next⟩ else none := rfl
  generalize claimerOf job ⟨state, action, next⟩ = claimer at change unclaimed marked
  generalize state.shared.jobs job = before at early change
  generalize next.shared.jobs job = after at change marked
  cases change with
  | absent =>
      refine early.unmarked (unclaimed rfl) ?_ (fun _ => rfl)
      intro row present
      cases present
  | appeared =>
      refine early.unmarked (unclaimed rfl) ?_ nofun
      intro row _
      rw [early.absent rfl]
      exact Nat.zero_le _
  | kept same =>
      refine early.unmarked (unclaimed rfl) ?_ nofun
      intro row present
      cases present
      rw [same]
      exact early.counted _ rfl
  | @claimed id row =>
      have counted := early.counted row rfl
      by_cases below : row.attemptCount + 1 < cap
      · have claimed : earlyClaimer cap job ⟨state, action, next⟩ = some id := by
          rw [marked]
          exact if_pos (decide_eq_true below)
        refine ⟨?_, ?_, nofun⟩
        · rw [Mark.total_cons_some claimed]
          omega
        · intro later present
          cases present
          rw [Mark.total_cons_some claimed]
          exact Nat.succ_le_succ counted
      · have late : earlyClaimer cap job ⟨state, action, next⟩ = none := by
          rw [marked]
          exact if_neg (by simpa [Conversation.withClaim] using below)
        refine early.unmarked late ?_ nofun
        intro later present
        cases present
        exact Nat.le_succ_of_le counted

/-- A release comes from a worker that owed one. -/
theorem releaserOf_source (released : releaserOf job ⟨state, action, next⟩ = some id) :
    ∃ start attempt decision error since, action = .worker id (.release start) ∧
      state.workers id = .releasing attempt decision error since ∧ attempt.job = job := by
  unfold releaserOf at released
  split at released
  · rename_i actor start call
    split at released
    · rename_i attempt decision error since held
      split at released
      · rename_i same
        cases released
        exact ⟨start, attempt, decision, error, since, call, held, same⟩
      · cases released
    · cases released
  · cases released

/-- A worker that steps owes a release only for an early claim, and it pays each of them once. -/
theorem released_moved {call : Worker.Action}
    (settings : ∀ attempt, (state.workers id).attempt = some attempt → attempt.job = job →
      (env.settings id).maxAttempts ≤ cap)
    (step : Step env state (.worker id call) next) :
    (releaserOf job).unit ⟨state, .worker id call, next⟩ id + releasable cap job next id ≤
      (earlyClaimer cap job).unit ⟨state, .worker id call, next⟩ id +
        releasable cap job state id := by
  cases step with
  | @worker _ _ shared phase move =>
      simp only [releasable, withWorker_workers, withWorker_shared, if_true]
      generalize held : state.workers id = before at move settings
      cases move with
      | @claimed delivery since start row timed past present free =>
          by_cases same : delivery.job = job
          · subst same
            by_cases below : row.attemptCount + 1 < cap
            · simp [Mark.unit, releaserOf, mayRelease, earlyClaimer, claimerOf, claimOf,
                Conversation.withClaim, below]
            · simp [Mark.unit, releaserOf, mayRelease, Conversation.withClaim, below]
          · simp [Mark.unit, releaserOf, mayRelease, same]
      | @read attempt row present =>
          by_cases same : attempt.job = job
          · subst same
            simp [Mark.unit, releaserOf, mayRelease, present]
          · simp [Mark.unit, releaserOf, mayRelease, same]
      | @retry attempt row error jitter decision decided again =>
          subst decided
          by_cases same : attempt.job = job
          · have below := Nat.lt_of_lt_of_le (decideRetry_below again) (settings attempt rfl same)
            simp [Mark.unit, releaserOf, mayRelease, below]
          · simp [Mark.unit, releaserOf, mayRelease, same]
      | @released attempt | @releaseMissed attempt =>
          by_cases same : attempt.job = job <;> simp [Mark.unit, releaserOf, mayRelease, held, same]
      | _ => simp [Mark.unit, releaserOf, mayRelease]

/-- A worker that does not step owes no new release. -/
theorem releasable_unmoved (consistent : Consistent state) (drafts : DraftRows env state)
    (step : Step env state action next) (unmoved : next.workers id = state.workers id) :
    releasable cap job next id ≤ releasable cap job state id := by
  rw [releasable, releasable, unmoved]
  refine Bool.toNat_le_toNat ?_
  cases held : state.workers id with
  | claimed attempt =>
      intro may
      simp only [mayRelease, Bool.and_eq_true, decide_eq_true_eq, Option.any_eq_true] at may ⊢
      obtain ⟨same, later, written, below⟩ := may
      obtain ⟨row, present⟩ := inWindow_row consistent (by rw [held]; rfl) same
      exact ⟨same, row, present,
        Nat.lt_of_le_of_lt (attempts_monotone drafts step present written) below⟩
  | _ => exact le_rfl

/-- No worker releases the job more often than it claimed it early. -/
theorem released_step (settings : ∀ id attempt, (state.workers id).attempt = some attempt →
      attempt.job = job → (env.settings id).maxAttempts ≤ cap)
    (consistent : Consistent state) (drafts : DraftRows env state)
    (step : Step env state action next) (id : WorkerId) :
    (releaserOf job).unit ⟨state, action, next⟩ id + releasable cap job next id ≤
      (earlyClaimer cap job).unit ⟨state, action, next⟩ id + releasable cap job state id := by
  by_cases own : ∃ call, action = .worker id call
  · obtain ⟨call, rfl⟩ := own
    exact released_moved (settings id) step
  · have unreleased : releaserOf job ⟨state, action, next⟩ ≠ some id := by
      intro released
      obtain ⟨start, _, _, _, _, call, _⟩ := releaserOf_source released
      exact own ⟨_, call⟩
    rcases worker_source step id with unmoved | ⟨call, same, _⟩
    · rw [Mark.unit_of_ne unreleased, Nat.zero_add]
      exact Nat.le_trans (releasable_unmoved consistent drafts step unmoved) (Nat.le_add_left _ _)
    · exact absurd ⟨call, same⟩ own

/-- Workers release a job less often than the caps of those that have claimed it allow attempts. -/
theorem releases_below {allowed : System.Condition (History × State) Action} {run : History × State}
    (reached : (system env).recorded.Reached allowed run) (positive : 0 < cap)
    (settings : ∀ id, Claimed job run.1 id → (env.settings id).maxAttempts ≤ cap) :
    (releaserOf job).total run.1 < cap := by
  have counted : AttemptsClaimed job run.1 run.2 ∧
      ((∀ id, Claimed job run.1 id → (env.settings id).maxAttempts ≤ cap) →
        Early cap job (run.2.shared.jobs job) run.1 ∧
          (releaserOf job).Covered (earlyClaimer cap job) run.1 (releasable cap job run.2)) := by
    refine reached.historyInvariant (motive := fun history state =>
      AttemptsClaimed job history state ∧
        ((∀ id, Claimed job history id → (env.settings id).maxAttempts ≤ cap) →
          Early cap job (state.shared.jobs job) history ∧
            (releaserOf job).Covered (earlyClaimer cap job) history (releasable cap job state))) ?_ ?_
    · rintro _ ⟨now, rfl⟩
      refine ⟨nofun, fun _ => ⟨⟨positive, ?_, fun _ => rfl⟩, fun _ => Nat.le_refl _⟩⟩
      intro row present
      cases present
    · intro history before action after earlier ⟨claimed, counted⟩ stepped _
      have step := step_cases stepped
      refine ⟨attemptsClaimed_step claimed step, fun settings => ?_⟩
      obtain ⟨early, covered⟩ := counted fun id had => settings id had.cons
      have capped : ∀ id attempt, (before.workers id).attempt = some attempt → attempt.job = job →
          (env.settings id).maxAttempts ≤ cap :=
        fun id attempt held same => settings id (claimed id attempt held same).cons
      exact ⟨early_step (run_drafts earlier) step early,
        covered.cons (released_step capped (run_consistent earlier) (run_drafts earlier) step)⟩
  obtain ⟨early, covered⟩ := counted.2 settings
  exact Nat.lt_of_le_of_lt covered.total_le early.below

end ConvoScore.Pipeline
