import ConvoScore.Worker.Loop

namespace ConvoScore.Heartbeat
open Library

/-- A host lets a pass end in time, and no other step of a loop and no sleep takes longer than
it should by more than the slack. -/
structure Timing where
  pass : Rat
  slack : Rat
  passNonneg : 0 ≤ pass
  slackNonneg : 0 ≤ slack

variable {Outcome : Type}

/-- A loop with the time of its host, the time of its heartbeat file, and the time by which the
host lets it take its next step. -/
structure State where
  loop : Loop.State
  now : Rat
  touched : Option Rat
  due : Rat
  deriving DecidableEq

/-- Time passes, or the loop takes a step; the file of a new pass is written unless the disk is
full. -/
inductive Action (Outcome : Type)
  | elapse (seconds : Rat)
  | advance (action : Loop.Action Outcome) (written : Bool)
  deriving DecidableEq

/-- The clock reading of a step. -/
def reading : Loop.Action Outcome → Option Rat
  | .setDeadline reading | .testDeadline reading | .pause reading => some reading
  | .requestStop | .testStop | .finishPass _ => none

/-- The time that the host gives a loop for its next step. -/
def allowance (timing : Timing) (loop : Loop.State) : Loop.Action Outcome → Rat
  | .pause _ => loop.slept.headD 0 + timing.slack
  | _ => match loop.point with
      | .passing => timing.pass
      | _ => timing.slack

/-- `run_once` and `poll_once` first touch the file; a failure to do so is ignored. -/
def touch (loop : Loop.State) (written : Bool) (now : Rat) (touched : Option Rat) : Option Rat :=
  match loop.point with
  | .passing => if written then some now else touched
  | _ => touched

/-- A request to stop interrupts nothing. -/
def advanced (timing : Timing) (state : State) (loop : Loop.State) (written : Bool) :
    Loop.Action Outcome → State
  | .requestStop => {state with loop}
  | action => {state with
      loop
      touched := touch loop written state.now state.touched
      due := state.now + allowance timing loop action}

/-- Every clock reading is the time of the host: the wall clock of the file and of its probe and the
monotonic clock of the sleeps are one clock here. -/
def step (handlers : Loop.Handlers Outcome) (timing : Timing) (state : State) :
    Action Outcome → Option State
  | .elapse seconds =>
      if 0 ≤ seconds then some {state with now := state.now + seconds} else none
  | .advance action written =>
      if (reading action).all fun clock => clock = state.now then
        (Loop.step handlers state.loop action).map fun loop =>
          advanced timing state loop written action
      else none

/-- A container starts without a heartbeat file. -/
def initial (timing : Timing) (now : Rat) : State :=
  ⟨Loop.initial now, now, none, now + timing.slack⟩

def system (handlers : Loop.Handlers Outcome) (timing : Timing) :
    System State (Action Outcome) where
  start state := ∃ now, state = initial timing now
  step := step handlers timing

/-- The process of a loop that has returned or raised has exited. -/
def State.running (state : State) : Bool :=
  match state.loop.point with
  | .returned | .raised => false
  | _ => true

/-- The host keeps its times and the file can be written. -/
def prompt : System.Condition State (Action Outcome) := fun before action _ =>
  match action with
  | .elapse seconds => before.running = true → before.now + seconds ≤ before.due
  | .advance _ written => written = true

/-- The age of the heartbeat file, when there is one. -/
def ageSeconds (state : State) : Option Rat :=
  state.touched.map fun touched => max 0 (state.now - touched)

/-- The exit code of the probe. -/
def main (maxAge : Rat) (state : State) : Nat :=
  match ageSeconds state with
  | none => 1
  | some age => if maxAge < age then 1 else 0

/-- The limits that the charts give the probes. -/
def workerMaxAge : Rat := 180
def ingestorMaxAge : Rat := 120

/-- Every sleep of the loop is bounded, and no pause goes beyond its deadline. -/
structure Sleeps (handlers : Loop.Handlers Outcome) (longest : Rat) : Prop where
  nonneg : 0 ≤ longest
  bounded : ∀ outcome errors seconds, (handlers.after outcome errors).2 = some seconds →
    0 ≤ seconds ∧ seconds ≤ longest
  paused : ∀ left, handlers.duration left ≤ max 0 left

theorem worker_sleeps : Sleeps Loop.workerHandlers 30 := by
  refine ⟨by norm_num, fun outcome errors seconds slept => ?_, fun left => ?_⟩
  · cases outcome with
    | handled => cases slept
    | queueUnavailable =>
        cases slept
        exact ⟨le_min (by norm_num) (by positivity), min_le_left _ _⟩
    | databaseError | unexpected =>
        cases slept
        norm_num
  · exact (min_le_right _ _).trans (le_max_right _ _)

theorem ingestor_sleeps (seconds : Nat) : Sleeps (Loop.ingestorHandlers seconds) seconds := by
  refine ⟨Nat.cast_nonneg _, fun outcome errors slept same => ?_, fun left => min_le_right _ _⟩
  cases same
  exact ⟨Nat.cast_nonneg _, le_refl _⟩

/-- What a step of a loop does, with the place where it is taken. -/
inductive Move (handlers : Loop.Handlers Outcome) (loop : Loop.State) :
    Loop.Action Outcome → Loop.State → Prop
  | requestStop : Move handlers loop .requestStop {loop with stop := true}
  | leave (point : loop.point = .testing) (stop : loop.stop = true) :
      Move handlers loop .testStop {loop with point := .returned}
  | enter (point : loop.point = .testing) (stop : loop.stop = false) :
      Move handlers loop .testStop {loop with point := .passing}
  | finishPass (outcome : Outcome) (point : loop.point = .passing) :
      Move handlers loop (.finishPass outcome) (Loop.afterPass handlers outcome loop)
  | setDeadline (seconds clock : Rat) (point : loop.point = .sleeping seconds) :
      Move handlers loop (.setDeadline clock)
        {loop with clock := clock, point := .waiting (clock + seconds)}
  | interrupt (deadline clock : Rat) (point : loop.point = .waiting deadline)
      (stop : loop.stop = true) : Move handlers loop (.testDeadline clock) {loop with point := .testing}
  | goOn (deadline clock : Rat) (point : loop.point = .waiting deadline) (early : clock < deadline) :
      Move handlers loop (.testDeadline clock)
        {loop with clock := clock, point := .pausing deadline}
  | wake (deadline clock : Rat) (point : loop.point = .waiting deadline) (past : deadline ≤ clock) :
      Move handlers loop (.testDeadline clock) {loop with clock := clock, point := .testing}
  | pause (deadline clock : Rat) (point : loop.point = .pausing deadline) :
      Move handlers loop (.pause clock) (Loop.afterPause handlers deadline clock loop)

variable {handlers : Loop.Handlers Outcome} {timing : Timing} {loop moved : Loop.State}
  {action : Loop.Action Outcome} {state next : State} {longest : Rat}

theorem move_of_step (stepped : Loop.step handlers loop action = some moved) :
    Move handlers loop action moved := by
  cases action with
  | requestStop => exact Option.some.inj stepped ▸ .requestStop
  | testStop =>
      cases point : loop.point <;> simp only [Loop.step, point] at stepped <;> cases stepped
      by_cases stop : loop.stop = true
      · rw [if_pos stop]
        exact .leave point stop
      · rw [if_neg stop]
        exact .enter point (Bool.eq_false_iff.mpr stop)
  | finishPass outcome =>
      cases point : loop.point <;> simp only [Loop.step, point] at stepped <;> cases stepped
      exact .finishPass outcome point
  | setDeadline clock =>
      cases point : loop.point <;> simp only [Loop.step, point] at stepped <;> try cases stepped
      split at stepped
      · cases stepped
        exact .setDeadline _ clock point
      · cases stepped
  | testDeadline clock =>
      cases point : loop.point <;> simp only [Loop.step, point] at stepped <;> try cases stepped
      split at stepped
      · rename_i stop
        cases stepped
        exact .interrupt _ clock point stop
      · split at stepped
        · cases stepped
          rename_i deadline _ _
          by_cases early : clock < deadline
          · rw [if_pos early]
            exact .goOn _ clock point early
          · rw [if_neg early]
            exact .wake _ clock point (not_lt.mp early)
        · cases stepped
  | pause clock =>
      cases point : loop.point <;> simp only [Loop.step, point] at stepped <;> try cases stepped
      split at stepped
      · cases stepped
        exact .pause _ clock point
      · cases stepped

/-- Where a loop is bounds how long its heartbeat has been waiting. -/
def Alive (timing : Timing) (longest touched due : Rat) : Loop.Point → Prop
  | .testing => due ≤ touched + timing.pass + longest + 4 * timing.slack
  | .passing => due ≤ touched + timing.pass
  | .sleeping seconds => 0 ≤ seconds ∧ seconds ≤ longest ∧
      due ≤ touched + timing.pass + timing.slack
  | .waiting deadline => deadline ≤ touched + timing.pass + timing.slack + longest ∧
      due ≤ deadline + 2 * timing.slack
  | .pausing deadline => deadline ≤ touched + timing.pass + timing.slack + longest ∧
      due ≤ deadline + timing.slack
  | .returned | .raised => True

/-- A loop that has touched its file takes its next step in time. -/
structure Timely (timing : Timing) (longest : Rat) (state : State) : Prop where
  inTime : state.running = true → state.now ≤ state.due
  alive : ∀ touched, state.touched = some touched →
    Alive timing longest touched state.due state.loop.point

/-- A step of the loop gives it time for the next one, and bounds that time. -/
theorem timely_advanced (sleeps : Sleeps handlers longest) (timely : Timely timing longest state)
    (move : Move handlers state.loop action moved)
    (now : ∀ clock, reading action = some clock → clock = state.now) :
    Timely timing longest (advanced timing state moved true action) := by
  have slack := timing.slackNonneg
  have pass := timing.passNonneg
  have nonneg := sleeps.nonneg
  obtain ⟨inTime, alive⟩ := timely
  simp only [State.running] at inTime
  cases move with
  | requestStop => exact ⟨inTime, alive⟩
  | leave point stop => exact ⟨nofun, fun _ _ => trivial⟩
  | enter point stop =>
      refine ⟨fun _ => le_add_of_nonneg_right pass, fun touched same => ?_⟩
      cases same
      exact le_refl _
  | finishPass outcome point =>
      rw [point] at inTime alive
      have arrived := inTime rfl
      cases slept : (handlers.after outcome state.loop.errors).2 with
      | none =>
          have testing : (Loop.afterPass handlers outcome state.loop).point = .testing := by
            simp only [Loop.afterPass, slept]
          simp only [advanced, allowance, touch, testing]
          refine ⟨fun _ => le_add_of_nonneg_right slack, fun touched same => ?_⟩
          have bound := alive touched same
          simp only [testing, Alive] at bound ⊢
          linarith
      | some seconds =>
          obtain ⟨positive, short⟩ := sleeps.bounded outcome _ seconds slept
          have sleeping : (Loop.afterPass handlers outcome state.loop).point = .sleeping seconds := by
            simp only [Loop.afterPass, slept]
          simp only [advanced, allowance, touch, sleeping]
          refine ⟨fun _ => le_add_of_nonneg_right slack, fun touched same => ?_⟩
          have bound := alive touched same
          simp only [sleeping, Alive] at bound ⊢
          exact ⟨positive, short, by linarith⟩
  | setDeadline seconds clock point =>
      obtain rfl := now clock rfl
      rw [point] at inTime alive
      have arrived := inTime rfl
      refine ⟨fun _ => le_add_of_nonneg_right slack, fun touched same => ?_⟩
      obtain ⟨positive, short, bound⟩ := alive touched same
      simp only [advanced, allowance, Alive]
      exact ⟨by linarith, by linarith⟩
  | interrupt deadline clock point stop =>
      rw [point] at inTime alive
      have arrived := inTime rfl
      refine ⟨fun _ => le_add_of_nonneg_right slack, fun touched same => ?_⟩
      obtain ⟨near, bound⟩ := alive touched same
      simp only [advanced, allowance, Alive]
      linarith
  | goOn deadline clock point early =>
      obtain rfl := now clock rfl
      rw [point] at inTime alive
      refine ⟨fun _ => le_add_of_nonneg_right slack, fun touched same => ?_⟩
      obtain ⟨near, _⟩ := alive touched same
      simp only [advanced, allowance, Alive]
      exact ⟨near, by linarith⟩
  | wake deadline clock point past =>
      rw [point] at inTime alive
      have arrived := inTime rfl
      refine ⟨fun _ => le_add_of_nonneg_right slack, fun touched same => ?_⟩
      obtain ⟨near, bound⟩ := alive touched same
      simp only [advanced, allowance, Alive]
      linarith
  | pause deadline clock point =>
      obtain rfl := now clock rfl
      rw [point] at inTime alive
      have arrived := inTime rfl
      have short := sleeps.paused (deadline - state.now)
      by_cases negative : handlers.duration (deadline - state.now) < 0
      · have raised : (Loop.afterPause handlers deadline state.now state.loop).point = .raised := by
          simp only [Loop.afterPause, if_pos negative]
        refine ⟨fun running => ?_, fun touched same => ?_⟩
        · simp only [advanced, State.running, raised, Bool.false_eq_true] at running
        · simp only [advanced, raised, Alive]
      · have waiting : (Loop.afterPause handlers deadline state.now state.loop).point =
            .waiting deadline := by
          simp only [Loop.afterPause, if_neg negative]
        simp only [advanced, allowance, touch, waiting]
        simp only [Loop.afterPause, List.headD_cons]
        refine ⟨fun _ => by dsimp only; linarith, fun touched same => ?_⟩
        obtain ⟨near, bound⟩ := alive touched same
        simp only [if_neg negative, Alive]
        refine ⟨near, ?_⟩
        -- The pause ends at its deadline, or at once when the deadline is past.
        rcases le_total 0 (deadline - state.now) with early | past
        · rw [max_eq_right early] at short
          linarith
        · rw [max_eq_left past] at short
          linarith

theorem timely_step (sleeps : Sleeps handlers longest) {action : Action Outcome}
    (timely : Timely timing longest state) (stepped : step handlers timing state action = some next)
    (fine : prompt state action next) : Timely timing longest next := by
  cases action with
  | elapse seconds =>
      simp only [step] at stepped
      split at stepped
      · cases stepped
        exact ⟨fine, timely.alive⟩
      · cases stepped
  | advance action written =>
      obtain rfl : written = true := fine
      simp only [step] at stepped
      split at stepped
      · rename_i clocks
        obtain ⟨moved, walked, rfl⟩ := Option.map_eq_some_iff.mp stepped
        refine timely_advanced sleeps timely (move_of_step walked) fun clock read => ?_
        rw [read] at clocks
        simpa using clocks
      · cases stepped

/-- In every run on a prompt host, the heartbeat of a running loop is as young as its longest pass
and its longest sleep allow. -/
theorem heartbeat_young (sleeps : Sleeps handlers longest) {touched : Rat}
    (reached : (system handlers timing).Reached prompt state) (running : state.running = true)
    (same : state.touched = some touched) :
    state.now - touched ≤ timing.pass + longest + 4 * timing.slack := by
  have timely : Timely timing longest state := by
    refine reached.invariant (motive := Timely timing longest) ?_ ?_
    · rintro origin ⟨now, rfl⟩
      exact ⟨fun _ => le_add_of_nonneg_right timing.slackNonneg, nofun⟩
    · intro before action after timely stepped fine
      exact timely_step sleeps timely stepped fine
  have slack := timing.slackNonneg
  have nonneg := sleeps.nonneg
  have arrived := timely.inTime running
  have alive := timely.alive touched same
  cases point : state.loop.point with
  | returned | raised => simp [State.running, point] at running
  | testing | passing =>
      simp only [point, Alive] at alive
      linarith
  | sleeping seconds =>
      simp only [point, Alive] at alive
      linarith [alive.2.2]
  | waiting deadline | pausing deadline =>
      simp only [point, Alive] at alive
      linarith [alive.1, alive.2]

/-- The probe accepts a heartbeat that is young enough. -/
theorem main_zero {maxAge touched : Rat} (nonneg : 0 ≤ maxAge) (same : state.touched = some touched)
    (young : state.now - touched ≤ maxAge) : main maxAge state = 0 := by
  simp only [main, ageSeconds, same, Option.map_some]
  rw [if_neg (not_lt.mpr (max_le nonneg young))]

/-- On a prompt host whose wall clock runs like its monotonic clock, the probe of a running loop
passes from its first pass on: for the worker when a pass with four slacks fits into 150 seconds,
and for the ingestor when it fits into 120 seconds with the interval of its polls. -/
theorem probes_pass {seconds : Nat} (running : state.running = true) (begun : state.touched ≠ none) :
    (timing.pass + 4 * timing.slack ≤ 150 →
      (system Loop.workerHandlers timing).Reached prompt state → main workerMaxAge state = 0) ∧
    (timing.pass + seconds + 4 * timing.slack ≤ 120 →
      (system (Loop.ingestorHandlers seconds) timing).Reached prompt state →
        main ingestorMaxAge state = 0) := by
  obtain ⟨touched, same⟩ := Option.ne_none_iff_exists'.mp begun
  constructor
  · intro fits reached
    have young := heartbeat_young worker_sleeps reached running same
    refine main_zero (by norm_num [workerMaxAge]) same ?_
    rw [workerMaxAge]
    linarith
  · intro fits reached
    have young := heartbeat_young (ingestor_sleeps seconds) reached running same
    refine main_zero (by norm_num [ingestorMaxAge]) same ?_
    rw [ingestorMaxAge]
    linarith

/-- A pass may take as long as a long poll and an answer of the provider together. -/
def sampleTiming : Timing := ⟨50, 1, by norm_num, by norm_num⟩

/-- The steps that a prompt host allows. -/
def punctual (state : State) : Action Outcome → Bool
  | .elapse seconds => decide (state.now + seconds ≤ state.due)
  | .advance _ written => written

theorem prompt_of_punctual (before : State) (action : Action Outcome) (after : State)
    (checked : punctual before action = true) : prompt before action after := by
  cases action with
  | elapse seconds => exact fun _ => of_decide_eq_true checked
  | advance action written => exact checked

/-- The queue is unavailable after the longest pass, and the loop sleeps for two seconds. -/
def backoffSchedule : List (Action Loop.WorkerOutcome) :=
  [.advance .testStop true, .elapse 50, .advance (.finishPass .queueUnavailable) true, .elapse 1,
    .advance (.setDeadline 51) true, .advance (.testDeadline 51) true, .elapse 1,
    .advance (.pause 52) true, .elapse 1]

/-- The worker is between two passes, and its probe passes. -/
theorem probes_pass_backoff : ∃ state,
    (system Loop.workerHandlers sampleTiming).Reached prompt state ∧
    state.loop.point = .waiting 53 ∧ state.now = 53 ∧ main workerMaxAge state = 0 := by
  have ran : (((system Loop.workerHandlers sampleTiming).guarded punctual).run
      (initial sampleTiming 0) backoffSchedule).map (fun state =>
        (state.loop.point, state.now, state.running, state.touched)) =
      some (.waiting 53, 53, true, some 0) := by
    decide +kernel
  obtain ⟨state, path, seen⟩ := System.guarded_observed ran prompt_of_punctual
  simp only [Prod.mk.injEq] at seen
  obtain ⟨waiting, now, running, touched⟩ := seen
  have reached : (system Loop.workerHandlers sampleTiming).Reached prompt state :=
    ⟨_, ⟨0, rfl⟩, path⟩
  have begun : state.touched ≠ none := by rw [touched]; exact Option.some_ne_none _
  have fits : sampleTiming.pass + 4 * sampleTiming.slack ≤ 150 := by norm_num [sampleTiming]
  exact ⟨state, reached, waiting, now, (@probes_pass _ _ 10 running begun).1 fits reached⟩

section Slow

/-- Where the ingestor is says how long its heartbeat has been waiting at least. -/
def Waited (interval now touched : Rat) : Loop.Point → Prop
  | .testing => touched + interval ≤ now
  | .passing => touched ≤ now
  | .sleeping seconds => seconds = interval ∧ touched ≤ now
  | .waiting deadline | .pausing deadline => touched + interval ≤ deadline
  | .returned | .raised => True

variable {seconds : Nat} {now later touched : Rat} {point : Loop.Point}
  {walk : Loop.Action Loop.IngestorOutcome}

theorem Waited.mono (waited : Waited seconds now touched point) (ordered : now ≤ later) :
    Waited seconds later touched point := by
  cases point with
  | testing | passing => exact le_trans waited ordered
  | sleeping slept => exact ⟨waited.1, waited.2.trans ordered⟩
  | waiting | pausing | returned | raised => exact waited

/-- An ingestor that nobody stops sleeps for its whole interval. -/
theorem waited_advanced {written : Bool}
    (waited : state.loop.stop = false → ∀ touched, state.touched = some touched →
      Waited seconds state.now touched state.loop.point)
    (move : Move (Loop.ingestorHandlers seconds) state.loop walk moved)
    (clocks : ∀ clock, reading walk = some clock → clock = state.now)
    (goesOn : moved.stop = false) (same : (advanced timing state moved written walk).touched =
      some touched) : Waited seconds state.now touched moved.point := by
  cases move with
  | requestStop => cases goesOn
  | leave point stop => trivial
  | enter point stop =>
      rw [point] at waited
      cases written with
      | true =>
          cases same
          exact le_refl _
      | false =>
          have passed := waited stop touched same
          have nonneg : (0 : Rat) ≤ seconds := Nat.cast_nonneg seconds
          simp only [Waited] at passed ⊢
          linarith
  | finishPass outcome point =>
      rw [point] at waited
      exact ⟨rfl, waited goesOn touched same⟩
  | setDeadline slept clock point =>
      obtain rfl := clocks clock rfl
      rw [point] at waited
      obtain ⟨rfl, begun⟩ := waited goesOn touched same
      exact add_le_add_left begun _
  | interrupt deadline clock point stop =>
      rw [stop] at goesOn
      cases goesOn
  | goOn deadline clock point early =>
      rw [point] at waited
      exact waited goesOn touched same
  | wake deadline clock point past =>
      obtain rfl := clocks clock rfl
      rw [point] at waited
      exact (waited goesOn touched same).trans past
  | pause deadline clock point =>
      rw [point] at waited
      have duration : ¬ (Loop.ingestorHandlers seconds).duration (deadline - clock) < 0 :=
        not_lt.mpr (le_min (by norm_num) (le_max_left _ _))
      have waiting : (Loop.afterPause (Loop.ingestorHandlers seconds) deadline clock
          state.loop).point = .waiting deadline := by
        simp only [Loop.afterPause, if_neg duration]
      simp only [advanced, touch, waiting] at same ⊢
      exact waited goesOn touched same

theorem reached_waited
    (reached : (system (Loop.ingestorHandlers seconds) timing).Reached System.anyStep state) :
    state.loop.stop = false → ∀ touched, state.touched = some touched →
      Waited seconds state.now touched state.loop.point := by
  refine reached.invariant (motive := fun state => state.loop.stop = false → ∀ touched,
    state.touched = some touched → Waited seconds state.now touched state.loop.point) ?_ ?_
  · rintro origin ⟨now, rfl⟩ _ touched same
    cases same
  · intro before action after waited stepped _ goesOn touched same
    cases action with
    | elapse elapsed =>
        simp only [system, step] at stepped
        split at stepped
        · rename_i forward
          cases stepped
          exact (waited goesOn touched same).mono (le_add_of_nonneg_right forward)
        · cases stepped
    | advance walk written =>
        simp only [system, step] at stepped
        split at stepped
        · rename_i clocks
          obtain ⟨moved, walked, rfl⟩ := Option.map_eq_some_iff.mp stepped
          have arrived : (advanced timing before moved written walk).loop = moved := by
            cases walk <;> rfl
          have unhurried : (advanced timing before moved written walk).now = before.now := by
            cases walk <;> rfl
          rw [arrived] at goesOn
          rw [arrived, unhurried]
          refine waited_advanced waited (move_of_step walked) (fun clock read => ?_) goesOn same
          rw [read] at clocks
          simpa using clocks
        · cases stepped

/-- An ingestor that polls less often than every 120 seconds fails its probe before each of its
polls, on every host whose wall clock runs like its monotonic clock; before the first one, and as
long as no pass could write the file, it fails for want of it. -/
theorem slow_ingestor_fails (slow : 120 < seconds)
    (reached : (system (Loop.ingestorHandlers seconds) timing).Reached System.anyStep state)
    (testing : state.loop.point = .testing) (goesOn : state.loop.stop = false) :
    main ingestorMaxAge state = 1 := by
  cases same : state.touched with
  | none => simp only [main, ageSeconds, same, Option.map_none]
  | some touched =>
      have waited := reached_waited reached goesOn touched same
      rw [testing] at waited
      have interval : (120 : Rat) < seconds := by exact_mod_cast slow
      have old : ingestorMaxAge < max 0 (state.now - touched) := by
        rw [ingestorMaxAge]
        refine lt_max_of_lt_right ?_
        simp only [Waited] at waited
        linarith
      simp only [main, ageSeconds, same, Option.map_some, if_pos old]

/-- The ingestor polls every 300 seconds. -/
def slowSchedule : List (Action Loop.IngestorOutcome) :=
  [.advance .testStop true, .advance (.finishPass .polled) true, .advance (.setDeadline 0) true,
    .advance (.testDeadline 0) true, .advance (.pause 0) true, .elapse 300,
    .advance (.testDeadline 300) true]

/-- The probe fails before the second poll. -/
theorem slow_ingestor_fails_second : ∃ state,
    (system (Loop.ingestorHandlers 300) sampleTiming).Reached System.anyStep state ∧
    state.now = 300 ∧ state.touched = some 0 ∧ main ingestorMaxAge state = 1 := by
  have ran : ((system (Loop.ingestorHandlers 300) sampleTiming).run (initial sampleTiming 0)
      slowSchedule).map (fun state =>
        (state.loop.point, state.loop.stop, state.now, state.touched)) =
      some (.testing, false, 300, some 0) := by
    decide +kernel
  obtain ⟨state, path, seen⟩ := System.run_observed System.anyStep ran fun _ _ _ _ => trivial
  simp only [Prod.mk.injEq] at seen
  obtain ⟨testing, goesOn, now, touched⟩ := seen
  have reached : (system (Loop.ingestorHandlers 300) sampleTiming).Reached System.anyStep state :=
    ⟨_, ⟨0, rfl⟩, path⟩
  exact ⟨state, reached, now, touched, slow_ingestor_fails (by decide) reached testing goesOn⟩

end Slow

end ConvoScore.Heartbeat
