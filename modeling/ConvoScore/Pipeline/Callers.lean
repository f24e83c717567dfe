import ConvoScore.Pipeline.Ledger
import ConvoScore.Repository.Calls

namespace ConvoScore.Pipeline
open Library

def State.withJobs (state : State) (jobs : Jobs) : State :=
  {state with shared := {state.shared with jobs}}

namespace Callers

/-- Any caller may call a repository function between two steps of the pipeline. -/
inductive Action
  | pipeline (action : Pipeline.Action)
  | call (job : Uuid) (start : Timestamp) (call : Call)

/-- A call commits on its own, after it has taken its `now()`. -/
def step (env : Environment) (state : State) : Action → Option State
  | .pipeline action => Pipeline.step env state action
  | .call job start call =>
      if start ≤ state.shared.now then
        some (state.withJobs (call.run env.sha256 start state.shared.jobs job))
      else none

def system (env : Environment) : System State Action where
  start state := ∃ now, state = initial now
  step := step env

/-- A history of this system also stores the calls. -/
abbrev History := List (System.Taken State Action)

/-- A claim belongs to a worker or to another caller. -/
inductive Claimer
  | worker (id : WorkerId)
  | caller
  deriving DecidableEq

/-- The one whose `claim_job` on the job succeeds in a transition. -/
def claimerOf (job : Uuid) : Mark (System.Taken State Action) Claimer := fun taken =>
  match taken.action with
  | .pipeline action =>
      (Pipeline.claimerOf job ⟨taken.before, action, taken.after⟩).map Claimer.worker
  | .call target start (.claimJob visibilityTimeoutSeconds) =>
      if target = job ∧ (claimJob start taken.before.shared.jobs job
        visibilityTimeoutSeconds).2 = .claimed then some .caller else none
  | .call _ _ _ => none

/-- Only workers call `provider.score`. -/
def starterOf (job : Uuid) : Mark (System.Taken State Action) Claimer := fun taken =>
  match taken.action with
  | .pipeline action =>
      (Pipeline.starterOf job ⟨taken.before, action, taken.after⟩).map Claimer.worker
  | .call _ _ _ => none

/-- The claims that a score may still follow are those of workers. -/
def unscored (job : Uuid) (state : State) : Claimer → Nat
  | .worker id => Pipeline.unscored job state id
  | .caller => 0

variable {env : Environment} {state next : State} {action : Action} {job target : Uuid}
  {start : Timestamp} {call : Call} {history : History}

/-- A step is a step of the pipeline or a call. -/
inductive Step (env : Environment) (state : State) : Action → State → Prop
  | pipeline {action : Pipeline.Action} {next : State}
      (step : Pipeline.Step env state action next) : Step env state (.pipeline action) next
  | call {job : Uuid} {start : Timestamp} {call : Call} (past : start ≤ state.shared.now) :
      Step env state (.call job start call)
        (state.withJobs (call.run env.sha256 start state.shared.jobs job))

theorem step_cases (stepped : step env state action = some next) : Step env state action next := by
  cases action with
  | pipeline action => exact .pipeline (Pipeline.step_cases stepped)
  | call job start call =>
      simp only [step] at stepped
      split at stepped
      · rename_i past
        cases stepped
        exact .call past
      · cases stepped

/-- A call that claims nothing keeps the attempts of a row. -/
theorem effect_change {before after : Option Conversation}
    (effect : Call.Effect env.sha256 job start call before after)
    (other : ∀ visibilityTimeoutSeconds, call ≠ .claimJob visibilityTimeoutSeconds) :
    @AttemptChange Claimer before after none := by
  cases effect with
  | kept => exact .of_kept
  | created => exact .appeared rfl
  | claimed => exact absurd rfl (other _)
  | enqueued | enqueueFailed | completed | released | failed => exact .kept rfl

/-- A call claims the job exactly when it counts one more attempt. -/
theorem call_change (state : State) (job target : Uuid) (start : Timestamp) (call : Call) :
    AttemptChange (state.shared.jobs job) (call.run env.sha256 start state.shared.jobs target job)
      (claimerOf job ⟨state, .call target start call, next⟩) := by
  by_cases same : target = job
  · subst same
    by_cases claims : ∃ visibilityTimeoutSeconds, call = .claimJob visibilityTimeoutSeconds
    · obtain ⟨visibilityTimeoutSeconds, rfl⟩ := claims
      simp only [claimerOf, Call.run, true_and]
      rcases claimJob_cases start state.shared.jobs target visibilityTimeoutSeconds with
        ⟨row, present, free, claimed⟩ | ⟨kept, unclaimed⟩
      · simp only [claimed, if_true, present, Function.update_self]
        exact .claimed free
      · rw [kept, if_neg unclaimed]
        exact .of_kept
    · have other : ∀ visibilityTimeoutSeconds, call ≠ .claimJob visibilityTimeoutSeconds :=
        fun seconds equal => claims ⟨seconds, equal⟩
      have unclaimed : claimerOf target ⟨state, .call target start call, next⟩ = none := by
        cases call with
        | claimJob seconds => exact absurd rfl (other seconds)
        | _ => rfl
      rw [unclaimed]
      exact effect_change (Call.run_effect call) other
  · have unclaimed : claimerOf job ⟨state, .call target start call, next⟩ = none := by
      cases call with
      | claimJob seconds => exact if_neg fun both => same both.1
      | _ => rfl
    rw [unclaimed, Call.run_other call (Ne.symm same)]
    exact .of_kept

/-- Every step changes the attempts of a job in one of the listed ways. -/
theorem attempt_change (drafts : DraftRows env state) (step : Step env state action next)
    (job : Uuid) : AttemptChange (state.shared.jobs job) (next.shared.jobs job)
      (claimerOf job ⟨state, action, next⟩) := by
  cases step with
  | pipeline step => exact (Pipeline.attempt_change drafts step job).map Claimer.worker
  | call => exact call_change state job _ _ _

theorem draftRows_step (drafts : DraftRows env state) (step : Step env state action next) :
    DraftRows env next := by
  cases step with
  | pipeline step => exact Pipeline.draftRows_step drafts step
  | call => exact drafts

/-- Each call of a provider pays for a claim of the same worker. -/
theorem unscored_step (step : Step env state action next) (claimer : Claimer) :
    (starterOf job).unit ⟨state, action, next⟩ claimer + unscored job next claimer ≤
      (claimerOf job).unit ⟨state, action, next⟩ claimer + unscored job state claimer := by
  cases step with
  | pipeline step =>
      cases claimer with
      | worker id =>
          simpa [Mark.unit, starterOf, claimerOf, unscored] using Pipeline.unscored_step step id
      | caller => simp [Mark.unit, starterOf, unscored]
  | @call target start call past =>
      have unstarted : starterOf job ⟨state, .call target start call,
          state.withJobs (call.run env.sha256 start state.shared.jobs target)⟩ = none := rfl
      rw [Mark.unit_none unstarted, Nat.zero_add]
      exact Nat.le_add_left (unscored job state claimer) _

/-- A finished job stays finished and nobody claims it. -/
theorem finished_step (step : Step env state action next) {row : Conversation}
    (present : state.shared.jobs job = some row) (ended : row.status.terminal = true) :
    ∃ later, next.shared.jobs job = some later ∧ later.status.terminal = true := by
  cases step with
  | pipeline step => exact (row_change step job).terminal present ended
  | @call target start call =>
      by_cases same : target = job
      · subst same
        have effect : Call.Effect env.sha256 target start call (some row)
            (call.run env.sha256 start state.shared.jobs target target) :=
          present ▸ Call.run_effect call
        exact effect.terminal ended
      · exact ⟨row, (Call.run_other call (Ne.symm same)).trans present, ended⟩

theorem finished_unclaimed {claimer : Option Claimer} {row : Conversation}
    {after : Option Conversation} (change : AttemptChange (some row) after claimer)
    (ended : row.status.terminal = true) : claimer = none := by
  cases change with
  | kept => rfl
  | claimed free =>
      rw [(Conversation.claimable_iff.mp free).1] at ended
      cases ended

variable {allowed : System.Condition (History × State) Action} {run : History × State}

theorem run_drafts (reached : (system env).recorded.Reached allowed run) : DraftRows env run.2 := by
  refine reached.historyInvariant (motive := fun _ state => DraftRows env state) ?_ ?_
  · rintro _ ⟨now, rfl⟩
    exact draftRows_initial now
  · intro history before action after _ drafts stepped _
    exact draftRows_step drafts (step_cases stepped)

/-- Every run counts the attempts of a job, whoever claims it. -/
theorem run_counted (reached : (system env).recorded.Reached allowed run) (job : Uuid) :
    Counted (claimerOf job) (starterOf job) (run.2.shared.jobs job) (unscored job run.2) run.1 := by
  refine reached.historyInvariant (motive := fun history state =>
    Counted (claimerOf job) (starterOf job) (state.shared.jobs job) (unscored job state)
      history) ?_ ?_
  · rintro _ ⟨now, rfl⟩
    exact .nil fun claimer => by cases claimer <;> rfl
  · intro history before action after earlier counted stepped _
    have step := step_cases stepped
    exact counted.cons (attempt_change (run_drafts earlier) step job) (unscored_step step)

/-- After a job has ended, nobody claims it, and each score that starts for it
follows a claim that was there before. -/
structure Ended (env : Environment) (job : Uuid) (run later : History × State) : Prop where
  drafts : DraftRows env later.2
  finished : ∃ row, later.2.shared.jobs job = some row ∧ row.status.terminal = true
  unclaimed : (claimerOf job).total later.1 = (claimerOf job).total run.1
  paid : ∀ claimer, (starterOf job).tally later.1 claimer + unscored job later.2 claimer ≤
    (starterOf job).tally run.1 claimer + unscored job run.2 claimer

theorem ended_step {before : History × State} (ended : Ended env job run before)
    (step : Step env before.2 action next) :
    Ended env job run (⟨before.2, action, next⟩ :: before.1, next) := by
  obtain ⟨row, present, finished⟩ := ended.finished
  have change := attempt_change ended.drafts step job
  rw [present] at change
  have unclaimed := finished_unclaimed change finished
  refine ⟨draftRows_step ended.drafts step, finished_step step present finished, ?_, ?_⟩
  · rw [Mark.total_cons_none unclaimed, ended.unclaimed]
  · intro claimer
    let taken : System.Taken State Action := ⟨before.2, action, next⟩
    have paid : (starterOf job).unit taken claimer + unscored job next claimer ≤
        (claimerOf job).unit taken claimer + unscored job before.2 claimer :=
      unscored_step step claimer
    rw [Mark.unit_none unclaimed, Nat.zero_add] at paid
    calc (starterOf job).tally (taken :: before.1) claimer + unscored job next claimer
        = (starterOf job).tally before.1 claimer +
            ((starterOf job).unit taken claimer + unscored job next claimer) := by
          rw [Mark.tally_cons, Nat.add_assoc]
      _ ≤ (starterOf job).tally before.1 claimer + unscored job before.2 claimer :=
          Nat.add_le_add_left paid _
      _ ≤ (starterOf job).tally run.1 claimer + unscored job run.2 claimer := ended.paid claimer

/-- In every run of any callers, the attempts of a job are its successful claims, of which every
call of a provider takes one; and once the job has ended, no claim succeeds any more and
a worker only scores it if it still held an unscored claim. -/
theorem attempts_exact (reached : (system env).recorded.Reached System.anyStep run) (job : Uuid) :
    (∀ row, run.2.shared.jobs job = some row →
      row.attemptCount = (claimerOf job).total run.1 ∧
      (starterOf job).total run.1 ≤ row.attemptCount) ∧
    ∀ row later, run.2.shared.jobs job = some row → row.status.terminal = true →
      (system env).recorded.Path System.anyStep run later →
      (claimerOf job).total later.1 = (claimerOf job).total run.1 ∧
      ∀ claimer, (starterOf job).tally later.1 claimer ≤
        (starterOf job).tally run.1 claimer + unscored job run.2 claimer := by
  constructor
  · intro row present
    have counted := run_counted reached job
    have attempts := counted.attempts row present
    exact ⟨attempts, attempts ▸ counted.covered.total_le⟩
  · intro row later present finished path
    have ended : Ended env job run later := by
      refine path.keeps ⟨run_drafts reached, ⟨row, present, finished⟩, rfl, fun _ => Nat.le_refl _⟩ ?_
      intro before action after ended stepped _
      obtain ⟨state, taken, rfl⟩ := System.recorded_next stepped
      exact ended_step ended (step_cases taken)
    refine ⟨ended.unclaimed, ?_⟩
    intro claimer
    exact Nat.le_trans (Nat.le_add_right _ _) (ended.paid claimer)

/-- A worker claims the job, and another caller claims it after the expiry and completes it. -/
def takenOverSchedule : List Action :=
  [.pipeline (.createJob 1 .smallest 3 "s3://incoming/a.json".toList 0),
    .pipeline (.ingest 1 (.publish .delivered)), .pipeline (.worker 0 (.receive ⟨0, some 1⟩)),
    .pipeline (.worker 0 (.claim 0)), .pipeline (.tick 90000001),
    .call 1 90000001 (.claimJob 90), .call 1 90000001 (.completeJob ScoringOutcome.calm.columns)]

/-- The stale worker still scores the completed job, and a duplicate delivery claims nothing. -/
def afterwardsSchedule : List Action :=
  [.pipeline (.worker 0 .readJob), .pipeline (.worker 1 (.receive ⟨0, some 1⟩)),
    .pipeline (.worker 1 (.claim 90000001)), .call 1 90000001 (.claimJob 90)]

/-- Both claims on the job are counted, and the only score follows the first one. -/
theorem attempts_exact_takenOver : ∃ run later row,
    (system sampleEnvironment).recorded.Reached System.anyStep run ∧
    (system sampleEnvironment).recorded.Path System.anyStep run later ∧
    run.2.shared.jobs 1 = some row ∧ row.status = .completed ∧ row.attemptCount = 2 ∧
    (starterOf 1).total later.1 = 1 ∧
    row.attemptCount = (claimerOf 1).total run.1 ∧
    (claimerOf 1).total later.1 = (claimerOf 1).total run.1 ∧
    ∀ claimer, (starterOf 1).tally later.1 claimer ≤
      (starterOf 1).tally run.1 claimer + unscored 1 run.2 claimer := by
  have ran : ((system sampleEnvironment).recorded.run ([], initial 0) takenOverSchedule).map
      (fun run => ((run.2.shared.jobs 1).map fun row => (row.status, row.attemptCount),
        ((system sampleEnvironment).recorded.run run afterwardsSchedule).map fun later =>
          (starterOf 1).total later.1)) = some (some (.completed, 2), some 1) := by rfl
  obtain ⟨run, path, seen⟩ := System.run_observed System.anyStep ran (fun _ _ _ _ => trivial)
  obtain ⟨stored, afterwards⟩ := Prod.mk.inj seen
  obtain ⟨row, present, columns⟩ := Option.map_eq_some_iff.mp stored
  obtain ⟨completed, attempts⟩ := Prod.mk.inj columns
  obtain ⟨later, onwards, started⟩ :=
    System.run_observed System.anyStep afterwards (fun _ _ _ _ => trivial)
  have reached : (system sampleEnvironment).recorded.Reached System.anyStep run :=
    ⟨_, ⟨rfl, ⟨0, rfl⟩⟩, path⟩
  obtain ⟨counted, ended⟩ := attempts_exact reached 1
  obtain ⟨unclaimed, paid⟩ := ended row later present (by rw [completed]; rfl) onwards
  exact ⟨run, later, row, reached, onwards, present, completed, attempts, started,
    (counted row present).1, unclaimed, paid⟩

end Callers
end ConvoScore.Pipeline
