import ConvoScore.Library.System
import Mathlib.Algebra.Order.Ring.Rat
import Mathlib.Tactic.Linarith

namespace ConvoScore.Loop
open Library

/-- A pass of a loop counts errors and sleeps as its handler says; the argument of `time.sleep`
is made from the time that is left. -/
structure Handlers (Outcome : Type) where
  after : Outcome → Nat → Nat × Option Rat
  duration : Rat → Rat

/-- A call of `run_once` returns or raises an exception of one of these classes. -/
inductive WorkerOutcome
  | handled
  | queueUnavailable
  | databaseError
  | unexpected
  deriving DecidableEq

/-- Only an unavailable queue is counted, and only a pass without an error resets the count. -/
def workerHandlers : Handlers WorkerOutcome where
  after
    | .handled, _ => (0, none)
    | .queueUnavailable, errors => (errors + 1, some (min 30 (2 ^ (errors + 1))))
    | .databaseError, errors => (errors, some 5)
    | .unexpected, errors => (errors, some 5)
  duration left := min (1 / 2) left

/-- A call of `poll_once` returns or raises an exception of one of these classes. -/
inductive IngestorOutcome
  | polled
  | storageUnavailable
  | databaseError
  | unexpected
  deriving DecidableEq

/-- The ingestor sleeps after every pass, and not for less than no time. -/
def ingestorHandlers (pollIntervalSeconds : Nat) : Handlers IngestorOutcome where
  after _ errors := (errors, some pollIntervalSeconds)
  duration left := min (1 / 2) (max 0 left)

variable {Outcome : Type}

/-- A loop is before its test or in its pass, or in one of the three places of `_sleep`. -/
inductive Point
  | testing
  | passing
  | sleeping (seconds : Rat)
  | waiting (deadline : Rat)
  | pausing (deadline : Rat)
  | returned
  | raised
  deriving DecidableEq

structure State where
  point : Point
  stop : Bool
  clock : Rat
  errors : Nat
  slept : List Rat
  deriving DecidableEq

/-- A stop is requested at any time; readings of the clock come from outside. -/
inductive Action (Outcome : Type)
  | requestStop
  | testStop
  | finishPass (outcome : Outcome)
  | setDeadline (reading : Rat)
  | testDeadline (reading : Rat)
  | pause (reading : Rat)
  deriving DecidableEq

def afterPass (handlers : Handlers Outcome) (outcome : Outcome) (state : State) : State :=
  let next := handlers.after outcome state.errors
  {state with
    errors := next.1
    point := match next.2 with
      | none => .testing
      | some seconds => .sleeping seconds}

/-- `time.sleep` raises on a negative argument, and the exception leaves the loop. -/
def afterPause (handlers : Handlers Outcome) (deadline reading : Rat) (state : State) : State :=
  let duration := handlers.duration (deadline - reading)
  {state with
    clock := reading
    slept := duration :: state.slept
    point := if duration < 0 then .raised else .waiting deadline}

/-- Readings do not decrease; the deadline is not read again once a stop is requested. -/
def step (handlers : Handlers Outcome) (state : State) : Action Outcome → Option State
  | .requestStop => some {state with stop := true}
  | .testStop =>
      match state.point with
      | .testing => some {state with point := if state.stop then .returned else .passing}
      | _ => none
  | .finishPass outcome =>
      match state.point with
      | .passing => some (afterPass handlers outcome state)
      | _ => none
  | .setDeadline reading =>
      match state.point with
      | .sleeping seconds =>
          if state.clock ≤ reading then
            some {state with clock := reading, point := .waiting (reading + seconds)}
          else none
      | _ => none
  | .testDeadline reading =>
      match state.point with
      | .waiting deadline =>
          if state.stop then some {state with point := .testing}
          else if state.clock ≤ reading then
            some {state with
              clock := reading
              point := if reading < deadline then .pausing deadline else .testing}
          else none
      | _ => none
  | .pause reading =>
      match state.point with
      | .pausing deadline =>
          if state.clock ≤ reading then some (afterPause handlers deadline reading state) else none
      | _ => none

def initial (clock : Rat) : State := ⟨.testing, false, clock, 0, []⟩

def system (handlers : Handlers Outcome) : System State (Action Outcome) where
  start state := ∃ clock, state = initial clock
  step := step handlers

/-- A run is where the loop is and the steps that led there, the latest one first. -/
abbrev Run (Outcome : Type) := List (System.Taken State (Action Outcome)) × State

/-- The loop has raised nothing, has returned only after a request, and has slept for no
negative time. -/
structure Survives (run : Run Outcome) : Prop where
  neverRaised : run.2.point ≠ .raised
  stopped : run.2.point = .returned → ∃ taken ∈ run.1, taken.action = .requestStop
  durations : ∀ duration ∈ run.2.slept, 0 ≤ duration

/-- A pause gives `time.sleep` a duration that it accepts. -/
def accepted (handlers : Handlers Outcome) (taken : System.Taken State (Action Outcome)) : Bool :=
  match taken.before.point, taken.action with
  | .pausing deadline, .pause reading => decide (0 ≤ handlers.duration (deadline - reading))
  | _, _ => true

/-- The second reading of a pass of `_sleep` is not after the deadline. -/
def inTime (taken : System.Taken State (Action Outcome)) : Bool :=
  match taken.before.point, taken.action with
  | .pausing deadline, .pause reading => decide (reading ≤ deadline)
  | _, _ => true

/-- What a run has done so far agrees with where it is. -/
structure Coherent (handlers : Handlers Outcome)
    (history : List (System.Taken State (Action Outcome))) (state : State) : Prop where
  requested : state.stop = true → ∃ taken ∈ history, taken.action = .requestStop
  returned : state.point = .returned → state.stop = true
  raised : state.point = .raised → ∃ duration ∈ state.slept, duration < 0
  durations : (∀ duration ∈ state.slept, 0 ≤ duration) ↔
    ∀ taken ∈ history, accepted handlers taken = true

variable {handlers : Handlers Outcome} {before after : State} {action : Action Outcome}
  {history : List (System.Taken State (Action Outcome))}

/-- A step requests a stop, pauses, or moves between the places of the loop. -/
theorem step_cases (taken : step handlers before action = some after) :
    (action = .requestStop ∧ after = {before with stop := true}) ∨
    (∃ deadline reading, action = .pause reading ∧ before.point = .pausing deadline ∧
      after = afterPause handlers deadline reading before) ∨
    ((∀ reading, action ≠ .pause reading) ∧ after.stop = before.stop ∧
      after.slept = before.slept ∧ after.point ≠ .raised ∧
      (after.point = .returned → before.stop = true)) := by
  cases action with
  | requestStop => exact .inl ⟨rfl, (Option.some.inj taken).symm⟩
  | testStop =>
      cases point : before.point <;> simp only [step, point] at taken <;> cases taken
      refine .inr (.inr ⟨nofun, rfl, rfl, ?_, ?_⟩)
      · dsimp only
        split <;> nofun
      · dsimp only
        split
        · rename_i stopped
          exact fun _ => stopped
        · nofun
  | finishPass outcome =>
      cases point : before.point <;> simp only [step, point] at taken <;> cases taken
      refine .inr (.inr ⟨nofun, rfl, rfl, ?_, ?_⟩)
      · simp only [afterPass]
        split <;> nofun
      · simp only [afterPass]
        split <;> nofun
  | setDeadline reading =>
      cases point : before.point <;> simp only [step, point] at taken <;> try cases taken
      split at taken
      · cases taken
        exact .inr (.inr ⟨nofun, rfl, rfl, nofun, nofun⟩)
      · cases taken
  | testDeadline reading =>
      cases point : before.point <;> simp only [step, point] at taken <;> try cases taken
      split at taken
      · cases taken
        exact .inr (.inr ⟨nofun, rfl, rfl, nofun, nofun⟩)
      · split at taken
        · cases taken
          refine .inr (.inr ⟨nofun, rfl, rfl, ?_, ?_⟩)
          · dsimp only
            split <;> nofun
          · dsimp only
            split <;> nofun
        · cases taken
  | pause reading =>
      cases point : before.point <;> simp only [step, point] at taken <;> try cases taken
      split at taken
      · cases taken
        exact .inr (.inl ⟨_, reading, rfl, rfl, rfl⟩)
      · cases taken

theorem accepted_of_noPause {taken : System.Taken State (Action Outcome)}
    (noPause : ∀ reading, taken.action ≠ .pause reading) : accepted handlers taken = true := by
  unfold accepted
  split
  · rename_i reading _ paused
    exact absurd paused (noPause _)
  · rfl

theorem accepted_pause {deadline reading : Rat} (point : before.point = .pausing deadline) :
    accepted handlers ⟨before, .pause reading, after⟩ =
      decide (0 ≤ handlers.duration (deadline - reading)) := by
  simp only [accepted, point]

/-- Steps that do not pause keep the durations and what is said about the pauses. -/
theorem Coherent.durations_keep (coherent : Coherent handlers history before)
    (noPause : ∀ reading, action ≠ .pause reading) (sameSlept : after.slept = before.slept) :
    (∀ duration ∈ after.slept, 0 ≤ duration) ↔
      ∀ taken ∈ ⟨before, action, after⟩ :: history, accepted handlers taken = true := by
  have first : accepted handlers ⟨before, action, after⟩ = true := accepted_of_noPause noPause
  rw [sameSlept, List.forall_mem_cons, and_iff_right first]
  exact coherent.durations

/-- Every recorded run is coherent. -/
theorem coherent_of_reached {run : Run Outcome}
    (reached : (system handlers).recorded.Reached System.anyStep run) :
    Coherent handlers run.1 run.2 := by
  refine reached.historyInvariant (motive := Coherent handlers) ?_ ?_
  · rintro origin ⟨clock, rfl⟩
    exact ⟨nofun, nofun, nofun, by simp [initial]⟩
  · intro history before action after _ coherent taken _
    rcases step_cases taken with ⟨rfl, rfl⟩ | ⟨deadline, reading, rfl, point, rfl⟩ |
      ⟨noPause, sameStop, sameSlept, notRaised, returned⟩
    · exact ⟨fun _ => ⟨_, List.mem_cons_self, rfl⟩, fun _ => rfl, coherent.raised,
        coherent.durations_keep nofun rfl⟩
    · refine ⟨?_, ?_, ?_, ?_⟩
      · intro stopped
        obtain ⟨request, member, requested⟩ := coherent.requested stopped
        exact ⟨request, List.mem_cons_of_mem _ member, requested⟩
      · simp only [afterPause]
        split <;> nofun
      · simp only [afterPause]
        split
        · rename_i negative
          exact fun _ => ⟨_, List.mem_cons_self, negative⟩
        · nofun
      · simp only [afterPause, List.forall_mem_cons, accepted_pause point, decide_eq_true_eq,
          coherent.durations]
    · refine ⟨?_, ?_, ?_, coherent.durations_keep noPause sameSlept⟩
      · intro stopped
        obtain ⟨request, member, requested⟩ := coherent.requested (sameStop ▸ stopped)
        exact ⟨request, List.mem_cons_of_mem _ member, requested⟩
      · intro ended
        exact sameStop.trans (returned ended)
      · intro failed
        exact absurd failed notRaised

/-- A run survives exactly when `time.sleep` accepts the duration of every pause. -/
theorem survives_iff {run : Run Outcome}
    (reached : (system handlers).recorded.Reached System.anyStep run) :
    Survives run ↔ ∀ taken ∈ run.1, accepted handlers taken = true := by
  have coherent := coherent_of_reached reached
  constructor
  · intro survives
    exact coherent.durations.mp survives.durations
  · intro all
    have durations := coherent.durations.mpr all
    refine ⟨?_, fun ended => coherent.requested (coherent.returned ended), durations⟩
    intro failed
    obtain ⟨duration, member, negative⟩ := coherent.raised failed
    exact absurd (durations duration member) (not_le.mpr negative)

/-- The worker's pause is accepted exactly when it is measured before the deadline. -/
theorem accepted_worker (taken : System.Taken State (Action WorkerOutcome)) :
    accepted workerHandlers taken = inTime taken := by
  unfold accepted inTime
  split
  · rw [decide_eq_decide]
    simp only [workerHandlers, le_inf_iff, sub_nonneg]
    norm_num
  · rfl

/-- The ingestor's pause is always accepted. -/
theorem accepted_ingestor (seconds : Nat) (taken : System.Taken State (Action IngestorOutcome)) :
    accepted (ingestorHandlers seconds) taken = true := by
  unfold accepted
  split
  · rw [decide_eq_true_eq]
    exact le_min (by norm_num) (le_max_left _ _)
  · rfl

/-- The worker loop survives a run exactly when no pass of `_sleep` reads the clock a second
time after its deadline. -/
theorem runForever_survives_iff {run : Run WorkerOutcome}
    (reached : (system workerHandlers).recorded.Reached System.anyStep run) :
    Survives run ↔ ∀ taken ∈ run.1, inTime taken = true := by
  simp only [survives_iff reached, accepted_worker]

/-- The ingestor's loop survives every run. -/
theorem ingestor_survives {seconds : Nat} {run : Run IngestorOutcome}
    (reached : (system (ingestorHandlers seconds)).recorded.Reached System.anyStep run) :
    Survives run :=
  (survives_iff reached).mpr fun taken _ => accepted_ingestor seconds taken

/-- A queue error is slept over; then a stop is requested. -/
def patientSchedule : List (Action WorkerOutcome) :=
  [.testStop, .finishPass .queueUnavailable, .setDeadline 0, .testDeadline 1, .pause 1,
    .testDeadline 2, .testStop, .requestStop, .finishPass .handled, .testStop]

/-- The patient run returns, and it survives because its pause is measured in time. -/
theorem runForever_survives_patient : ∃ run : Run WorkerOutcome,
    (system workerHandlers).recorded.Reached System.anyStep run ∧
    run.2.point = .returned ∧ Survives run := by
  have ran : ((system workerHandlers).recorded.run ([], initial 0) patientSchedule).map
      (fun run => (run.2.point, run.1.all inTime)) = some (.returned, true) := by
    decide +kernel
  obtain ⟨run, path, seen⟩ := System.run_observed System.anyStep ran (fun _ _ _ _ => trivial)
  obtain ⟨returned, inTime⟩ := Prod.mk.inj seen
  have reached : (system workerHandlers).recorded.Reached System.anyStep run :=
    ⟨_, ⟨rfl, ⟨0, rfl⟩⟩, path⟩
  exact ⟨run, reached, returned,
    (runForever_survives_iff reached).mpr (List.all_eq_true.mp inTime)⟩

/-- The deadline 5 passes between the two readings of one pass. -/
def straddlingSchedule : List (Action WorkerOutcome) :=
  [.testStop, .finishPass .databaseError, .setDeadline 0, .testDeadline 4, .pause 6]

/-- A database error ends the loop without a stop request. -/
theorem straddling_raised : ¬ ∀ run : Run WorkerOutcome,
    (system workerHandlers).recorded.Reached System.anyStep run → Survives run := by
  have ran : ((system workerHandlers).recorded.run ([], initial 0) straddlingSchedule).map
      (fun run => run.2.point) = some .raised := by
    decide +kernel
  obtain ⟨run, path, raised⟩ := System.run_observed System.anyStep ran (fun _ _ _ _ => trivial)
  intro survives
  exact (survives run ⟨_, ⟨rfl, ⟨0, rfl⟩⟩, path⟩).neverRaised raised

end ConvoScore.Loop
