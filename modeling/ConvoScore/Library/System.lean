import Mathlib.Logic.Basic

namespace ConvoScore.Library

/-- A system steps to at most one state once its action is chosen. -/
structure System (State Action : Type*) where
  start : State → Prop
  step : State → Action → Option State

namespace System
variable {State Action : Type*} {system : System State Action}

/-- A condition on a step reads both states and the action. -/
abbrev Condition (State Action : Type*) := State → Action → State → Prop

/-- A path takes only the steps that its condition allows. -/
inductive Path (system : System State Action) (allowed : Condition State Action)
    (origin : State) : State → Prop
  | refl : Path system allowed origin origin
  | tail {before after : State} (action : Action)
      (path : Path system allowed origin before)
      (step : system.step before action = some after)
      (fine : allowed before action after) : Path system allowed origin after

/-- A reached state ends an allowed path from a start state. -/
def Reached (system : System State Action) (allowed : Condition State Action)
    (state : State) : Prop :=
  ∃ origin, system.start origin ∧ system.Path allowed origin state

/-- This condition allows every step. -/
def anyStep : Condition State Action := fun _ _ _ => True

theorem Path.trans {allowed : Condition State Action} {first middle last : State}
    (before : system.Path allowed first middle) (after : system.Path allowed middle last) :
    system.Path allowed first last := by
  induction after with
  | refl => exact before
  | tail action _ step fine ih => exact ih.tail action step fine

/-- A weaker condition allows every path of a stronger one. -/
theorem Path.weaken {strong weak : Condition State Action} {first last : State}
    (path : system.Path strong first last)
    (implied : ∀ before action after, strong before action after → weak before action after) :
    system.Path weak first last := by
  induction path with
  | refl => exact .refl
  | tail action _ step fine ih => exact ih.tail action step (implied _ _ _ fine)

theorem Reached.weaken {strong weak : Condition State Action} {state : State}
    (reached : system.Reached strong state)
    (implied : ∀ before action after, strong before action after → weak before action after) :
    system.Reached weak state := by
  obtain ⟨origin, started, path⟩ := reached
  exact ⟨origin, started, path.weaken implied⟩

theorem Reached.extend {allowed : Condition State Action} {state later : State}
    (reached : system.Reached allowed state) (path : system.Path allowed state later) :
    system.Reached allowed later := by
  obtain ⟨origin, started, before⟩ := reached
  exact ⟨origin, started, before.trans path⟩

theorem Reached.next {allowed : Condition State Action} {before after : State}
    (reached : system.Reached allowed before) (action : Action)
    (step : system.step before action = some after) (fine : allowed before action after) :
    system.Reached allowed after :=
  reached.extend (Path.refl.tail action step fine)

/-- A property that each allowed step keeps holds along a whole path. -/
theorem Path.keeps {allowed : Condition State Action} {first last : State}
    {motive : State → Prop} (path : system.Path allowed first last) (holds : motive first)
    (kept : ∀ before action after, motive before → system.step before action = some after →
      allowed before action after → motive after) : motive last := by
  induction path with
  | refl => exact holds
  | tail action _ step fine ih => exact kept _ action _ ih step fine

/-- An inductive property holds in every reached state. -/
theorem Reached.invariant {allowed : Condition State Action} {state : State}
    {motive : State → Prop} (reached : system.Reached allowed state)
    (initial : ∀ origin, system.start origin → motive origin)
    (kept : ∀ before action after, motive before → system.step before action = some after →
      allowed before action after → motive after) : motive state := by
  obtain ⟨origin, started, path⟩ := reached
  exact path.keeps (initial origin started) kept

/-- Each step of an inductive proof may use what reached states satisfy. -/
theorem Reached.invariantWithin {allowed : Condition State Action} {state : State}
    {motive : State → Prop} (reached : system.Reached allowed state)
    (initial : ∀ origin, system.start origin → motive origin)
    (kept : ∀ before action after, system.Reached allowed before → motive before →
      system.step before action = some after → allowed before action after → motive after) :
    motive state := by
  have both := reached.invariant
    (motive := fun state => system.Reached allowed state ∧ motive state)
    (fun origin started => ⟨⟨origin, started, .refl⟩, initial origin started⟩)
    (fun before action after holds step fine =>
      ⟨holds.1.next action step fine, kept before action after holds.1 holds.2 step fine⟩)
  exact both.2

/-- A run moves to another condition when each of its steps meets that one too. -/
theorem Reached.convert {left right : Condition State Action} {state : State}
    (reached : system.Reached left state)
    (implied : ∀ before action after, system.Reached left before →
      system.step before action = some after → left before action after →
      right before action after) : system.Reached right state := by
  refine reached.invariantWithin (fun origin started => ⟨origin, started, .refl⟩) ?_
  intro before action after earlier holds step fine
  exact holds.next action step (implied before action after earlier step fine)

/-- A schedule runs its actions in order and stops at the first disabled one. -/
def run (system : System State Action) : State → List Action → Option State
  | state, [] => some state
  | state, action :: rest => (system.step state action).bind fun next => system.run next rest

/-- A schedule in two parts runs one after the other. -/
theorem run_append {first : State} (schedule rest : List Action) :
    system.run first (schedule ++ rest) =
      (system.run first schedule).bind fun middle => system.run middle rest := by
  induction schedule generalizing first with
  | nil => rfl
  | cons action later ih => simp only [List.cons_append, run, ih, Option.bind_assoc]

/-- A schedule whose actions are all allowed gives an allowed path. -/
theorem run_path {allowed : Condition State Action} {first last : State}
    (schedule : List Action) (ran : system.run first schedule = some last)
    (fine : ∀ action ∈ schedule, ∀ before after, allowed before action after) :
    system.Path allowed first last := by
  induction schedule generalizing first with
  | nil =>
      simp only [run, Option.some.injEq] at ran
      exact ran ▸ .refl
  | cons action rest ih =>
      simp only [run, Option.bind_eq_some_iff] at ran
      obtain ⟨next, step, ran⟩ := ran
      have head : system.Path allowed first next :=
        Path.refl.tail action step (fine action (by simp) first next)
      exact head.trans (ih ran fun later member => fine later (by simp [member]))

/-- What a schedule shows at its end is true of a state that an allowed path reaches. -/
theorem run_observed {Observation : Type*} (allowed : Condition State Action) {first : State}
    {schedule : List Action} {observe : State → Observation} {seen : Observation}
    (ran : (system.run first schedule).map observe = some seen)
    (fine : ∀ action ∈ schedule, ∀ before after, allowed before action after) :
    ∃ last, system.Path allowed first last ∧ observe last = seen := by
  obtain ⟨last, ran, same⟩ := Option.map_eq_some_iff.mp ran
  exact ⟨last, run_path schedule ran fine, same⟩

/-- A guarded system takes only the steps that its check accepts. -/
def guarded (system : System State Action) (check : State → Action → Bool) :
    System State Action where
  start := system.start
  step state action := if check state action then system.step state action else none

/-- A path of the guarded system is a path whose steps all pass the check. -/
theorem guarded_path {check : State → Action → Bool} {allowed : Condition State Action}
    {first last : State} (path : (system.guarded check).Path anyStep first last)
    (sound : ∀ before action after, check before action = true → allowed before action after) :
    system.Path allowed first last := by
  induction path with
  | refl => exact .refl
  | tail action _ step _ ih =>
      simp only [guarded] at step
      split at step
      · rename_i checked
        exact ih.tail action step (sound _ _ _ checked)
      · cases step

/-- What a checked schedule shows at its end is true of a state that an allowed path reaches. -/
theorem guarded_observed {Observation : Type*} {check : State → Action → Bool}
    {allowed : Condition State Action} {first : State} {schedule : List Action}
    {observe : State → Observation} {seen : Observation}
    (ran : ((system.guarded check).run first schedule).map observe = some seen)
    (sound : ∀ before action after, check before action = true → allowed before action after) :
    ∃ last, system.Path allowed first last ∧ observe last = seen := by
  obtain ⟨last, path, same⟩ := run_observed anyStep ran fun _ _ _ _ => trivial
  exact ⟨last, guarded_path path sound, same⟩

/-- A transition stores the action with the states around it. -/
structure Taken (State Action : Type*) where
  before : State
  action : Action
  after : State

/-- The recorded system keeps every transition, the latest one first. -/
def recorded (system : System State Action) :
    System (List (Taken State Action) × State) Action where
  start pair := pair.1 = [] ∧ system.start pair.2
  step pair action := (system.step pair.2 action).map fun next =>
    (⟨pair.2, action, next⟩ :: pair.1, next)

/-- A condition on the states alone also restricts the recorded system. -/
abbrev onStates (allowed : Condition State Action) :
    Condition (List (Taken State Action) × State) Action :=
  fun before action after => allowed before.2 action after.2

theorem recorded_next {pair next : List (Taken State Action) × State} {action : Action}
    (step : system.recorded.step pair action = some next) :
    ∃ state, system.step pair.2 action = some state ∧
      next = (⟨pair.2, action, state⟩ :: pair.1, state) := by
  simp only [recorded, Option.map_eq_some_iff] at step
  obtain ⟨state, step, rfl⟩ := step
  exact ⟨state, step, rfl⟩

theorem recorded_step {pair next : List (Taken State Action) × State} {action : Action}
    (step : system.recorded.step pair action = some next) :
    system.step pair.2 action = some next.2 := by
  obtain ⟨state, taken, rfl⟩ := recorded_next step
  exact taken

/-- A property of states and their histories holds in every recorded run
when each transition keeps it. -/
theorem Reached.historyInvariant {allowed : Condition (List (Taken State Action) × State) Action}
    {run : List (Taken State Action) × State} {motive : List (Taken State Action) → State → Prop}
    (reached : system.recorded.Reached allowed run)
    (initial : ∀ origin, system.start origin → motive [] origin)
    (kept : ∀ history before action after, system.recorded.Reached allowed (history, before) →
      motive history before → system.step before action = some after →
      allowed (history, before) action (⟨before, action, after⟩ :: history, after) →
      motive (⟨before, action, after⟩ :: history) after) : motive run.1 run.2 := by
  refine reached.invariantWithin (motive := fun run => motive run.1 run.2) ?_ ?_
  · rintro ⟨_, origin⟩ ⟨rfl, started⟩
    exact initial origin started
  · rintro ⟨history, before⟩ action after earlier holds stepped fine
    obtain ⟨next, taken, rfl⟩ := recorded_next stepped
    exact kept history before action next earlier holds taken fine

/-- The recorded system reaches only states that the system reaches. -/
theorem recorded_reached {allowed : Condition State Action}
    {pair : List (Taken State Action) × State}
    (reached : system.recorded.Reached (onStates allowed) pair) :
    system.Reached allowed pair.2 := by
  refine reached.invariant (motive := fun pair => system.Reached allowed pair.2)
    (fun origin started => ⟨_, started.2, .refl⟩) ?_
  intro before action after holds step fine
  exact holds.next action (recorded_step step) fine

/-- Every recorded run ends in a state that the system reaches. -/
theorem recorded_reachable {allowed : Condition (List (Taken State Action) × State) Action}
    {run : List (Taken State Action) × State} (reached : system.recorded.Reached allowed run) :
    system.Reached anyStep run.2 :=
  recorded_reached (reached.weaken fun _ _ _ _ => trivial)

/-- When every step has its image in another system, every run has: the same actions lead to the
image of its last state. -/
theorem recorded_simulated {Image Operation : Type*} {target : System Image Operation}
    (view : State → Image) (operation : Action → Operation)
    (starts : ∀ origin, system.start origin → target.start (view origin))
    (steps : ∀ history before action after, system.recorded.Reached anyStep (history, before) →
      system.step before action = some after →
      target.step (view before) (operation action) = some (view after))
    {run : List (Taken State Action) × State} (reached : system.recorded.Reached anyStep run) :
    ∃ image, target.recorded.Reached anyStep image ∧ image.2 = view run.2 ∧
      image.1.map (·.action) = run.1.map fun taken => operation taken.action := by
  refine reached.historyInvariant (motive := fun history state =>
    ∃ image, target.recorded.Reached anyStep image ∧ image.2 = view state ∧
      image.1.map (·.action) = history.map fun taken => operation taken.action) ?_ ?_
  · intro origin started
    exact ⟨([], view origin), ⟨_, ⟨rfl, starts origin started⟩, .refl⟩, rfl, rfl⟩
  · rintro history before action after earlier ⟨image, imageReached, same, actions⟩ stepped _
    have imageStep := steps history before action after earlier stepped
    refine ⟨(⟨image.2, operation action, view after⟩ :: image.1, view after),
      imageReached.next (operation action) ?_ trivial, rfl, ?_⟩
    · simp only [recorded, same, imageStep, Option.map_some]
    · rw [List.map_cons, List.map_cons, actions]

end System
end ConvoScore.Library
