import ConvoScore.Library.Chain
import ConvoScore.Library.System
import Mathlib.Logic.Function.Basic

namespace ConvoScore.Migrations
open Library

/-- A revision of `alembic/versions` with the tables that its `upgrade` creates. -/
abbrev Revision := Script String String

/-- The database has the revision of `alembic_version` and its tables. -/
abbrev Database := Schema String String

def initialRevision : Revision := ⟨"0001", none, ["conversations"]⟩

def ingestedObjects : Revision := ⟨"0002", some "0001", ["ingested_objects"]⟩

def demoFailureTokens : Revision := ⟨"0003", some "0002", ["demo_failure_tokens"]⟩

def revisions : List Revision := [initialRevision, ingestedObjects, demoFailureTokens]

theorem revisions_chain : Chain revisions where
  linked := by decide
  distinct := by decide
  fresh := by decide

/-- The walk of Alembic from the revision of the database to the head of the scripts directory. -/
abbrev Walk := Option String → List Revision

/-- A replica is one run of the `migrate` init container. -/
abbrev ReplicaId := Nat

/-- A waiter is a worker or an ingestor that has started. -/
abbrev WaiterId := Nat

/-- The place in `run_migrations` between two steps that other processes can observe.
`aborted` holds the lock until its session ends; `unlocked` has given it back early. -/
inductive Phase
  | connecting
  | waiting
  | locked
  | upgrading (work : Database) (rest : List Revision)
  | committed
  | aborted
  | unlocked
  | succeeded
  | failed

/-- The sessions that hold the advisory lock. -/
def Phase.locks : Phase → Bool
  | .locked | .upgrading _ _ | .committed | .aborted => true
  | .connecting | .waiting | .unlocked | .succeeded | .failed => false

inductive Waiter
  | probing
  | ready
  | timedOut
  deriving DecidableEq

/-- Every process sees the committed database and the holder of the advisory lock. -/
structure State where
  database : Database
  holder : Option ReplicaId
  replicas : ReplicaId → Phase
  waiters : WaiterId → Waiter

/-- An action names the process that steps and what PostgreSQL answers. -/
inductive Action
  | connect (id : ReplicaId)
  | giveUp (id : ReplicaId)
  | lock (id : ReplicaId)
  | begin (id : ReplicaId)
  | apply (id : ReplicaId)
  | error (id : ReplicaId)
  | interrupt (id : ReplicaId)
  | commit (id : ReplicaId)
  | loseCommit (id : ReplicaId)
  | unlock (id : ReplicaId)
  | disconnect (id : ReplicaId)
  | restart (id : ReplicaId)
  | probe (id : WaiterId)
  | expire (id : WaiterId)

def State.enter (state : State) (id : ReplicaId) (phase : Phase) : State :=
  {state with replicas := Function.update state.replicas id phase}

/-- The session of the replica ends, and PostgreSQL takes its lock away. -/
def State.close (state : State) (id : ReplicaId) (phase : Phase) : State :=
  {state.enter id phase with
    holder := if state.holder = some id then none else state.holder}

def State.wait (state : State) (id : WaiterId) (waiter : Waiter) : State :=
  {state with waiters := Function.update state.waiters id waiter}

/-- One step of a replica or of a waiter.
All revisions run in the transaction that began when the lock was asked for, so `apply` changes
only what the replica itself sees; it raises for a table that is already there. -/
def step (walk : Walk) (state : State) : Action → Option State
  | .connect id =>
      match state.replicas id with
      | .connecting => some (state.enter id .waiting)
      | _ => none
  | .giveUp id =>
      match state.replicas id with
      | .connecting => some (state.enter id .failed)
      | _ => none
  | .lock id =>
      match state.replicas id, state.holder with
      | .waiting, none => some {state.enter id .locked with holder := some id}
      | _, _ => none
  | .begin id =>
      match state.replicas id with
      | .locked => some (state.enter id
          (.upgrading state.database (walk state.database.version)))
      | _ => none
  | .apply id =>
      match state.replicas id with
      | .upgrading work (revision :: rest) =>
          match work.apply revision with
          | some next => some (state.enter id (.upgrading next rest))
          | none => some (state.enter id .aborted)
      | _ => none
  | .error id =>
      match state.replicas id with
      | .locked | .upgrading _ _ | .committed => some (state.enter id .aborted)
      | _ => none
  | .interrupt id =>
      match state.replicas id with
      | .locked | .upgrading _ _ => some (state.close id .unlocked)
      | _ => none
  | .commit id =>
      match state.replicas id with
      | .upgrading work [] => some {state.enter id .committed with database := work}
      | _ => none
  | .loseCommit id =>
      match state.replicas id with
      | .upgrading work [] => some {state.close id .failed with database := work}
      | _ => none
  | .unlock id =>
      match state.replicas id with
      | .committed => some (state.close id .succeeded)
      | _ => none
  | .disconnect id =>
      match state.replicas id with
      | .succeeded | .failed => none
      | _ => some (state.close id .failed)
  | .restart id =>
      match state.replicas id with
      | .succeeded | .failed => some (state.enter id .connecting)
      | _ => none
  | .probe id =>
      match state.waiters id with
      | .probing =>
          if "conversations" ∈ state.database.objects then some (state.wait id .ready)
          else some state
      | _ => none
  | .expire id =>
      match state.waiters id with
      | .probing => some (state.wait id .timedOut)
      | _ => none

/-- Before the first replica starts, some revisions may have been applied by an earlier release. -/
def initial (installed : List Revision) : State where
  database := .after installed
  holder := none
  replicas _ := .connecting
  waiters _ := .probing

def system (walk : Walk) (installed : List Revision) : System State Action where
  start state := state = initial installed
  step := step walk

/-- A plain phase has neither uncommitted work nor a finished upgrade. -/
def Phase.plain : Phase → Bool
  | .upgrading _ _ | .committed | .succeeded => false
  | .connecting | .waiting | .locked | .aborted | .unlocked | .failed => true

/-- A step has one of these effects. -/
inductive Step (walk : Walk) (state : State) : State → Prop
  | enter {id : ReplicaId} {after : Phase} (plain : after.plain = true)
      (same : after.locks = (state.replicas id).locks) : Step walk state (state.enter id after)
  | lock {id : ReplicaId} (free : state.holder = none) :
      Step walk state {state.enter id .locked with holder := some id}
  | begin {id : ReplicaId} (held : state.replicas id = .locked) :
      Step walk state (state.enter id
        (.upgrading state.database (walk state.database.version)))
  | apply {id : ReplicaId} {work next : Database} {revision : Revision} {rest : List Revision}
      (held : state.replicas id = .upgrading work (revision :: rest))
      (applied : work.apply revision = some next) :
      Step walk state (state.enter id (.upgrading next rest))
  | commit {id : ReplicaId} {work : Database} (held : state.replicas id = .upgrading work []) :
      Step walk state {state.enter id .committed with database := work}
  | loseCommit {id : ReplicaId} {work : Database} (held : state.replicas id = .upgrading work []) :
      Step walk state {state.close id .failed with database := work}
  | unlock {id : ReplicaId} (held : state.replicas id = .committed) :
      Step walk state (state.close id .succeeded)
  | close {id : ReplicaId} {after : Phase} (plain : after.plain = true)
      (unlocked : after.locks = false) : Step walk state (state.close id after)
  | ready {id : WaiterId} (present : "conversations" ∈ state.database.objects) :
      Step walk state (state.wait id .ready)
  | timedOut {id : WaiterId} : Step walk state (state.wait id .timedOut)
  | idle : Step walk state state

variable {walk : Walk} {order installed : List Revision} {state next : State} {action : Action}
  {id other : ReplicaId}

/-- Every step has one of the listed effects. -/
theorem step_cases (stepped : step walk state action = some next) : Step walk state next := by
  cases action with
  | connect id | giveUp id | error id | restart id =>
      simp only [step] at stepped
      split at stepped
      all_goals
        cases stepped
        try
          rename_i held
          exact .enter rfl (by rw [held]; rfl)
  | lock id =>
      simp only [step] at stepped
      split at stepped
      · rename_i free
        cases stepped
        exact .lock free
      · cases stepped
  | begin id =>
      simp only [step] at stepped
      split at stepped
      · rename_i held
        cases stepped
        exact .begin held
      · cases stepped
  | apply id =>
      simp only [step] at stepped
      split at stepped
      · rename_i held
        split at stepped
        · rename_i applied
          cases stepped
          exact .apply held applied
        · cases stepped
          exact .enter rfl (by rw [held]; rfl)
      · cases stepped
  | interrupt id | disconnect id =>
      simp only [step] at stepped
      split at stepped
      all_goals
        cases stepped
        try exact .close rfl rfl
  | commit id =>
      simp only [step] at stepped
      split at stepped
      · rename_i held
        cases stepped
        exact .commit held
      · cases stepped
  | loseCommit id =>
      simp only [step] at stepped
      split at stepped
      · rename_i held
        cases stepped
        exact .loseCommit held
      · cases stepped
  | unlock id =>
      simp only [step] at stepped
      split at stepped
      · rename_i held
        cases stepped
        exact .unlock held
      · cases stepped
  | probe id =>
      simp only [step] at stepped
      split at stepped
      · split at stepped
        · rename_i present
          cases stepped
          exact .ready present
        · cases stepped
          exact .idle
      · cases stepped
  | expire id =>
      simp only [step] at stepped
      split at stepped
      · cases stepped
        exact .timedOut
      · cases stepped

@[simp] theorem enter_replicas {phase : Phase} :
    (state.enter id phase).replicas other = if other = id then phase else state.replicas other := by
  simp only [State.enter, Function.update_apply]

@[simp] theorem close_replicas {phase : Phase} :
    (state.close id phase).replicas other = if other = id then phase else state.replicas other :=
  enter_replicas

theorem close_holder {phase : Phase} :
    (state.close id phase).holder = some other ↔ other ≠ id ∧ state.holder = some other := by
  simp only [State.close]
  split
  · rename_i held
    simp [held, eq_comm]
  · rename_i unheld
    refine ⟨fun held => ⟨?_, held⟩, fun both => both.2⟩
    rintro rfl
    exact unheld held

/-- Only the session that holds the lock works on the schema, from the committed revision on,
and the committed schema is the one of the installed revisions or the newest one. -/
structure Safe (order installed : List Revision) (state : State) : Prop where
  lock : ∀ id, (state.replicas id).locks = true ↔ state.holder = some id
  database : state.database = .after installed ∨ state.database = .after order
  working : ∀ id work rest, state.replicas id = .upgrading work rest → ∃ before done,
    order = before ++ done ++ rest ∧ state.database = .after before ∧ work = .after (before ++ done)
  finished : ∀ id, state.replicas id = .committed ∨ state.replicas id = .succeeded →
    state.database = .after order
  ready : ∀ id, state.waiters id = .ready → "conversations" ∈ state.database.objects

/-- The lock has one holder. -/
theorem Safe.holder_unique (safe : Safe order installed state)
    (first : (state.replicas id).locks = true) (second : (state.replicas other).locks = true) :
    id = other :=
  Option.some.inj (((safe.lock id).mp first).symm.trans ((safe.lock other).mp second))

/-- A replica that has run every revision has the newest schema. -/
theorem Safe.worked (safe : Safe order installed state) {work : Database}
    (held : state.replicas id = .upgrading work []) : work = .after order := by
  obtain ⟨before, done, split, _, rfl⟩ := safe.working id work [] held
  rw [split, List.append_nil]

/-- The newest schema has every table of an older one. -/
theorem Safe.grows (safe : Safe order installed state) {work : Database} {rest : List Revision}
    (held : state.replicas id = .upgrading work rest) {table : String}
    (present : table ∈ state.database.objects) : table ∈ (Schema.after order).objects := by
  obtain ⟨before, done, rfl, same, _⟩ := safe.working id work rest held
  rw [same] at present
  simp only [Schema.after, List.flatMap_append]
  exact List.mem_append_left _ (List.mem_append_left _ present)

theorem safe_initial : Safe order installed (initial installed) where
  lock id := by simp [initial, Phase.locks]
  database := .inl rfl
  working id work rest held := by cases held
  finished id held := by rcases held with held | held <;> cases held
  ready id held := by cases held

/-- A step that keeps the database and the lock changes one phase to a plain one. -/
theorem safe_enter (safe : Safe order installed state) {after : Phase} (plain : after.plain = true)
    (same : after.locks = (state.replicas id).locks) :
    Safe order installed (state.enter id after) where
  lock other := by
    rw [enter_replicas]
    split
    · rename_i equal
      rw [same, equal]
      exact safe.lock id
    · exact safe.lock other
  database := safe.database
  working other work rest held := by
    rw [enter_replicas] at held
    split at held
    · subst held
      cases plain
    · exact safe.working other work rest held
  finished other held := by
    rw [enter_replicas] at held
    split at held
    · rcases held with rfl | rfl <;> cases plain
    · exact safe.finished other held
  ready := safe.ready

/-- The holder of the lock goes on with its work. -/
theorem safe_work (safe : Safe order installed state) {work : Database} {rest : List Revision}
    (held : (state.replicas id).locks = true)
    (works : ∃ before done, order = before ++ done ++ rest ∧ state.database = .after before ∧
      work = .after (before ++ done)) :
    Safe order installed (state.enter id (.upgrading work rest)) where
  lock other := by
    rw [enter_replicas]
    split
    · rename_i equal
      subst equal
      exact ⟨fun _ => (safe.lock other).mp held, fun _ => rfl⟩
    · exact safe.lock other
  database := safe.database
  working other work rest found := by
    rw [enter_replicas] at found
    split at found
    · cases found
      exact works
    · exact safe.working other work rest found
  finished other found := by
    rw [enter_replicas] at found
    split at found
    · rcases found with found | found <;> cases found
    · exact safe.finished other found
  ready := safe.ready

/-- A replica takes the lock when nobody holds it. -/
theorem safe_lock (safe : Safe order installed state) (free : state.holder = none) :
    Safe order installed {state.enter id .locked with holder := some id} where
  lock other := by
    show ((state.enter id .locked).replicas other).locks = true ↔ some id = some other
    rw [enter_replicas]
    split
    · rename_i equal
      subst equal
      exact ⟨fun _ => rfl, fun _ => rfl⟩
    · rename_i different
      have unheld := safe.lock other
      rw [free] at unheld
      refine ⟨fun locks => absurd (unheld.mp locks) (by simp), ?_⟩
      intro same
      exact absurd (Option.some.inj same).symm different
  database := safe.database
  working other work rest held := by
    have phase : (state.enter id .locked).replicas other = .upgrading work rest := held
    rw [enter_replicas] at phase
    split at phase
    · cases phase
    · exact safe.working other work rest phase
  finished other held := by
    have phase : (state.enter id .locked).replicas other = .committed ∨
        (state.enter id .locked).replicas other = .succeeded := held
    rw [enter_replicas] at phase
    split at phase
    · rcases phase with phase | phase <;> cases phase
    · exact safe.finished other phase
  ready := safe.ready

/-- A session that ends gives up the lock and its uncommitted work. -/
theorem safe_close (safe : Safe order installed state) {after : Phase} (unlocked : after.locks = false)
    (fine : after.plain = true ∨ after = .succeeded ∧ state.database = .after order) :
    Safe order installed (state.close id after) where
  lock other := by
    rw [close_holder, close_replicas]
    split
    · rename_i equal
      simp [unlocked, equal]
    · rename_i different
      exact (safe.lock other).trans ⟨fun held => ⟨different, held⟩, fun both => both.2⟩
  database := safe.database
  working other work rest held := by
    rw [close_replicas] at held
    split at held
    · subst held
      rcases fine with plain | ⟨same, _⟩
      · cases plain
      · cases same
    · exact safe.working other work rest held
  finished other held := by
    rw [close_replicas] at held
    split at held
    · rcases fine with plain | ⟨_, newest⟩
      · rcases held with rfl | rfl <;> cases plain
      · exact newest
    · exact safe.finished other held
  ready := safe.ready

/-- The commit of the holder publishes the newest schema. -/
theorem safe_commit (safe : Safe order installed state) {work : Database}
    (held : state.replicas id = .upgrading work []) :
    Safe order installed {state.enter id .committed with database := work} where
  lock other := by
    have locks : (state.replicas id).locks = true := by rw [held]; rfl
    show ((state.enter id .committed).replicas other).locks = true ↔ state.holder = some other
    rw [enter_replicas]
    split
    · rename_i equal
      subst equal
      exact ⟨fun _ => (safe.lock other).mp locks, fun _ => rfl⟩
    · exact safe.lock other
  database := .inr (safe.worked held)
  working other found rest working := by
    have locks : (state.replicas id).locks = true := by rw [held]; rfl
    have phase : (state.enter id .committed).replicas other = .upgrading found rest := working
    rw [enter_replicas] at phase
    split at phase
    · cases phase
    · rename_i different
      have also : (state.replicas other).locks = true := by rw [phase]; rfl
      exact absurd (safe.holder_unique also locks) different
  finished _ _ := safe.worked held
  ready waiter found := by
    rw [safe.worked held]
    exact safe.grows held (safe.ready waiter found)

/-- Every step keeps the migrations safe. -/
theorem safe_step (chain : Chain order) (follows : Follows walk order) (contained : installed <+: order)
    (safe : Safe order installed state) (step : Step walk state next) :
    Safe order installed next := by
  cases step with
  | enter plain same => exact safe_enter safe plain same
  | lock free => exact safe_lock safe free
  | begin held =>
      refine safe_work safe (by rw [held]; rfl) ?_
      obtain ⟨rest, whole⟩ := contained
      rcases safe.database with same | same
      · have path := follows installed rest whole.symm
        refine ⟨installed, [], ?_, same, ?_⟩
        · rw [same, path, List.append_nil, whole]
        · rw [same, List.append_nil]
      · have path := follows order [] (List.append_nil order).symm
        refine ⟨order, [], ?_, same, ?_⟩
        · rw [same, path, List.append_nil, List.append_nil]
        · rw [same, List.append_nil]
  | @apply id work later revision rest held applied =>
      refine safe_work safe (by rw [held]; rfl) ?_
      obtain ⟨before, done, split, same, rfl⟩ := safe.working id work _ held
      have next := (split ▸ chain : Chain (before ++ done ++ revision :: rest)).apply_eq
      rw [applied, Option.some.injEq] at next
      refine ⟨before, done ++ [revision], ?_, same, ?_⟩
      · rw [split]
        simp
      · rw [next, List.append_assoc]
  | commit held => exact safe_commit safe held
  | @loseCommit id work held =>
      have same : ({state.enter id .committed with database := work} : State).close id .failed =
          {state.close id .failed with database := work} := by
        simp only [State.close, State.enter, Function.update_idem]
        rfl
      exact same ▸ safe_close (safe_commit safe held) rfl (.inl rfl)
  | @unlock id held =>
      exact safe_close safe rfl (.inr ⟨rfl, safe.finished id (.inl held)⟩)
  | close plain unlocked => exact safe_close safe unlocked (.inl plain)
  | @ready id present =>
      refine ⟨safe.lock, safe.database, safe.working, safe.finished, ?_⟩
      intro other _
      exact present
  | @timedOut id =>
      refine ⟨safe.lock, safe.database, safe.working, safe.finished, ?_⟩
      intro other found
      have waiter : (state.wait id .timedOut).waiters other = .ready := found
      simp only [State.wait, Function.update_apply] at waiter
      split at waiter
      · cases waiter
      · exact safe.ready other waiter
  | idle => exact safe

theorem reached_safe (follows : Follows walk revisions) (contained : installed <+: revisions)
    (reached : (system walk installed).Reached System.anyStep state) :
    Safe revisions installed state := by
  refine reached.invariant ?_ ?_
  · rintro origin rfl
    exact safe_initial
  · intro before action after safe stepped _
    exact safe_step revisions_chain follows contained safe (step_cases stepped)

/-- However many replicas migrate at once and wherever they fail, at most one of them holds the
lock, nobody ever sees a part of the revisions, no revision finds its tables already there, and a
replica that succeeds leaves the newest schema. -/
theorem migrations_safe (follows : Follows walk revisions) (contained : installed <+: revisions)
    (reached : (system walk installed).Reached System.anyStep state) :
    (∀ first second, (state.replicas first).locks = true → (state.replicas second).locks = true →
      first = second) ∧
    (state.database = .after installed ∨ state.database = .after revisions) ∧
    (∀ id work revision rest, state.replicas id = .upgrading work (revision :: rest) →
      ∃ next, work.apply revision = some next) ∧
    ∀ id, state.replicas id = .succeeded → state.database = .after revisions := by
  have safe := reached_safe follows contained reached
  refine ⟨fun _ _ => safe.holder_unique, safe.database, ?_, fun id held => safe.finished id (.inr held)⟩
  intro id work revision rest held
  obtain ⟨before, done, split, _, rfl⟩ := safe.working id work _ held
  have chain : Chain (before ++ done ++ revision :: rest) := split ▸ revisions_chain
  exact ⟨_, chain.apply_eq⟩

/-- The first replica is interrupted in its work and starts again behind the second one. -/
def contendedSchedule : List Action :=
  [.connect 0, .connect 1, .lock 0, .begin 0, .apply 0, .interrupt 0, .lock 1, .begin 1, .apply 1,
    .disconnect 0, .restart 0, .connect 0, .apply 1, .commit 1, .unlock 1, .lock 0, .begin 0,
    .commit 0, .probe 0]

/-- Two replicas bring an installation of the first revision to the newest one, in whatever order
the files are listed. -/
theorem migrations_safe_contended : ∃ state,
    (system (upgradePath revisions.reverse) [initialRevision]).Reached System.anyStep state ∧
    state.database = .after revisions ∧ (state.replicas 0).locks = true ∧
    (∀ other, (state.replicas other).locks = true → other = 0) ∧
    ∀ id, state.replicas id = .succeeded → state.database = .after revisions := by
  have ran : ((system (upgradePath revisions.reverse) [initialRevision]).run (initial [initialRevision])
      contendedSchedule).map (fun state => (state.database, (state.replicas 0).locks)) =
      some (.after revisions, true) := by rfl
  obtain ⟨state, path, seen⟩ := System.run_observed System.anyStep ran fun _ _ _ _ => trivial
  obtain ⟨newest, locked⟩ := Prod.mk.inj seen
  have reached : (system (upgradePath revisions.reverse) [initialRevision]).Reached System.anyStep state :=
    ⟨_, rfl, path⟩
  obtain ⟨single, _, _, succeeded⟩ := migrations_safe
    (revisions_chain.upgradePath_follows (List.reverse_perm _))
    ⟨[ingestedObjects, demoFailureTokens], rfl⟩ reached
  exact ⟨state, reached, newest, locked, fun other held => single other 0 held locked, succeeded⟩

/-- The first revision creates the table that `wait_for_schema` looks for. -/
theorem conversations_present (contained : installed <+: revisions) :
    "conversations" ∈ (Schema.after installed : Database).objects ↔ installed ≠ [] := by
  obtain ⟨rest, whole⟩ := contained
  cases installed with
  | nil => simp [Schema.after]
  | cons revision others =>
      have first : revision = initialRevision := (List.cons.inj whole).1
      simp [Schema.after, first, initialRevision]

/-- Only all of the revisions give the newest schema. -/
theorem newest_iff (contained : installed <+: revisions) :
    (Schema.after installed : Database) = .after revisions ↔ installed = revisions := by
  refine ⟨fun same => ?_, fun same => by rw [same]⟩
  have single : ∀ revision ∈ revisions, revision.creates.length = 1 := by decide
  have counted : ∀ some : List Revision, some <+: revisions →
      (Schema.after some : Database).objects.length = some.length := by
    intro some part
    have each : some.map (fun revision => revision.creates.length) = some.map fun _ => 1 :=
      List.map_congr_left fun revision member => single revision (part.subset member)
    simp [Schema.after, List.length_flatMap, each]
  have lengths := congrArg (fun database : Database => database.objects.length) same
  simp only [counted installed contained, counted revisions (List.prefix_refl _)] at lengths
  exact contained.eq_of_length lengths

/-- A process that has passed `wait_for_schema` always finds the newest schema exactly when the
revisions were installed all at once or none of them were. -/
theorem ready_newest_iff (follows : Follows walk revisions) (contained : installed <+: revisions) :
    (∀ state, (system walk installed).Reached System.anyStep state →
      ∀ id, state.waiters id = .ready → state.database = .after revisions) ↔
    installed = [] ∨ installed = revisions := by
  constructor
  · intro newest
    by_cases empty : installed = []
    · exact .inl empty
    · have present := (conversations_present contained).mpr empty
      have probed : (system walk installed).step (initial installed) (.probe 0) =
          some ((initial installed).wait 0 .ready) := if_pos present
      have reached : (system walk installed).Reached System.anyStep
          ((initial installed).wait 0 .ready) :=
        ⟨_, rfl, System.Path.refl.tail (.probe 0) probed trivial⟩
      exact .inr ((newest_iff contained).mp (newest _ reached 0 rfl))
  · intro whole state reached id ready
    have safe := reached_safe follows contained reached
    rcases safe.database with same | same
    · rcases whole with rfl | rfl
      · have present := safe.ready id ready
        rw [same, conversations_present contained] at present
        exact absurd rfl present
      · exact same
    · exact same

/-- An installation of the first revision lets a process start before it is upgraded. -/
theorem ready_newest_upgrade : ∃ state,
    (system (upgradePath revisions) [initialRevision]).Reached System.anyStep state ∧
    ∃ id, state.waiters id = .ready ∧ state.database ≠ .after revisions := by
  have contained : [initialRevision] <+: revisions := ⟨[ingestedObjects, demoFailureTokens], rfl⟩
  by_contra none
  have whole := (ready_newest_iff (revisions_chain.upgradePath_follows (.refl _)) contained).mp <| by
    intro state reached id ready
    by_contra old
    exact none ⟨state, reached, id, ready, old⟩
  revert whole
  decide

end ConvoScore.Migrations
