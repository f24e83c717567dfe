import ConvoScore.Library.System
import ConvoScore.Library.Tally
import ConvoScore.Schema.Conversation
import Mathlib.Data.Bool.Basic
import Mathlib.Logic.Function.Basic

namespace ConvoScore.Connection
open Library

abbrev QueueUrl := Text

/-- Each `SqsQueue` object has its own cached URL. -/
abbrev ConnectionId := Nat

/-- The threads of a process share its `SqsQueue` objects. -/
abbrev ThreadId := Nat

/-- These are the operations of `SqsQueue` that send a request. -/
inductive Request
  | send
  | receive
  | delete
  | changeVisibility
  | attributes
  deriving DecidableEq

/-- A failed `change_visibility` is only logged; every other failure forgets the URL and raises. -/
def Request.forgets : Request → Bool
  | .changeVisibility => false
  | .send | .receive | .delete | .attributes => true

structure Call where
  connection : ConnectionId
  request : Request
  deriving DecidableEq

/-- The place of a thread in an operation. `queue_url` reads the cached URL twice: once to see
whether the name must be resolved, and once to return it. -/
inductive Phase
  | idle
  | resolving (call : Call)
  | storing (call : Call) (url : QueueUrl)
  | loading (call : Call)
  | sending (call : Call) (url : QueueUrl)
  | failed (call : Call)
  deriving DecidableEq

/-- An exception in an operation, also one of `queue_url`, ends in its handler. -/
def Call.fail (call : Call) : Phase := if call.request.forgets then .failed call else .idle

/-- A step of a thread; the name resolves and the request is accepted unless something else
fails. Between two operations a thread may forget a URL, as the loop of the worker does. -/
inductive Step
  | call (call : Call)
  | resolve (resolves : Bool)
  | store
  | load
  | reply (accepts : Bool)
  | forget
  | forgetUrl (connection : ConnectionId)
  deriving DecidableEq

abbrev Cache := ConnectionId → Option QueueUrl

def stepThread (current : Option QueueUrl) (cached : Cache) : Phase → Step → Option (Cache × Phase)
  | .idle, .call call =>
      some (cached, if (cached call.connection).isNone then .resolving call else .loading call)
  | .resolving call, .resolve resolves =>
      match if resolves then current else none with
      | some url => some (cached, .storing call url)
      | none => some (cached, call.fail)
  | .storing call url, .store =>
      some (Function.update cached call.connection (some url), .loading call)
  | .loading call, .load =>
      match cached call.connection with
      | some url => some (cached, .sending call url)
      -- another thread has forgotten the URL, and the client rejects the missing parameter
      | none => some (cached, call.fail)
  | .sending call url, .reply accepts =>
      some (cached, if accepts = true ∧ current = some url then .idle else call.fail)
  | .failed call, .forget => some (Function.update cached call.connection none, .idle)
  | .idle, .forgetUrl connection => some (Function.update cached connection none, .idle)
  | _, _ => none

/-- The queue is found under its current URL, or not at all. -/
structure State where
  cached : Cache
  current : Option QueueUrl
  phase : ThreadId → Phase

inductive Action
  | thread (id : ThreadId) (step : Step)
  | move (current : Option QueueUrl)

def step (state : State) : Action → Option State
  | .thread id step =>
      (stepThread state.current state.cached (state.phase id) step).map fun next =>
        {state with cached := next.1, phase := Function.update state.phase id next.2}
  | .move current => some {state with current}

/-- No object has resolved the name of the queue yet. -/
def system : System State Action where
  start state := (∀ connection, state.cached connection = none) ∧ ∀ id, state.phase id = .idle
  step := step

/-- An operation of the thread fails under an outdated URL, although the queue is there and nothing
else fails. -/
def staleOf (thread : ThreadId) (connection : ConnectionId) :
    Mark (System.Taken State Action) Unit := fun taken =>
  match taken.action with
  | .thread actor (.reply true) =>
      match taken.before.phase actor with
      | .sending call url =>
          if actor = thread ∧ call.connection = connection ∧ call.request.forgets = true ∧
              taken.before.current ≠ none ∧ taken.before.current ≠ some url then some ()
          else none
      | _ => none
  | _ => none

/-- The queue is deleted, created again, lost or found again, or a thread stores a URL that it
resolved before such a move. -/
def outdatingOf (connection : ConnectionId) : Mark (System.Taken State Action) Unit := fun taken =>
  match taken.action with
  | .move _ => some ()
  | .thread actor .store =>
      match taken.before.phase actor with
      | .storing call url =>
          if call.connection = connection ∧ taken.before.current ≠ some url then some () else none
      | _ => none
  | _ => none

/-- A connection is stale when it has cached a URL under which the queue is not found. -/
def State.stale (state : State) (connection : ConnectionId) : Bool :=
  (state.cached connection).any fun url => decide (state.current ≠ some url)

/-- A thread at this place can still fail under an outdated URL before it forgets one. -/
def Phase.exposed (connection : ConnectionId) (current : Option QueueUrl) (stale : Bool) :
    Phase → Bool
  | .failed call => !decide (call.connection = connection) && stale
  | .sending call url =>
      decide (call.connection = connection) && decide (current ≠ some url) || stale
  | _ => stale

def State.exposed (state : State) (thread : ThreadId) (connection : ConnectionId) : Bool :=
  (state.phase thread).exposed connection state.current (state.stale connection)

/-- What a step of a thread does. -/
inductive Move (current : Option QueueUrl) (cached : Cache) : Phase → Step → Cache → Phase → Prop
  | resolves {call : Call} (missing : cached call.connection = none) :
      Move current cached .idle (.call call) cached (.resolving call)
  | reuses {call : Call} {url : QueueUrl} (known : cached call.connection = some url) :
      Move current cached .idle (.call call) cached (.loading call)
  | resolved {call : Call} {url : QueueUrl} {resolves : Bool} (found : current = some url) :
      Move current cached (.resolving call) (.resolve resolves) cached (.storing call url)
  | unresolved {call : Call} {resolves : Bool} :
      Move current cached (.resolving call) (.resolve resolves) cached call.fail
  | stored {call : Call} {url : QueueUrl} : Move current cached (.storing call url) .store
      (Function.update cached call.connection (some url)) (.loading call)
  | loaded {call : Call} {url : QueueUrl} (known : cached call.connection = some url) :
      Move current cached (.loading call) .load cached (.sending call url)
  | lost {call : Call} (missing : cached call.connection = none) :
      Move current cached (.loading call) .load cached call.fail
  | answered {call : Call} {url : QueueUrl} (found : current = some url) :
      Move current cached (.sending call url) (.reply true) cached .idle
  | rejected {call : Call} {url : QueueUrl} {accepts : Bool}
      (failed : ¬(accepts = true ∧ current = some url)) :
      Move current cached (.sending call url) (.reply accepts) cached call.fail
  | forgot {call : Call} : Move current cached (.failed call) .forget
      (Function.update cached call.connection none) .idle
  | dropped {connection : ConnectionId} : Move current cached .idle (.forgetUrl connection)
      (Function.update cached connection none) .idle

variable {current : Option QueueUrl} {cached later : Cache} {before after : Phase} {call : Call}
  {connection : ConnectionId} {thread actor : ThreadId} {state next : State} {action : Action}
  {taken : System.Taken State Action} {run : List (System.Taken State Action) × State}

theorem stepThread_cases {step : Step}
    (stepped : stepThread current cached before step = some (later, after)) :
    Move current cached before step later after := by
  unfold stepThread at stepped
  split at stepped
  · rename_i call
    cases known : cached call.connection with
    | none =>
        rw [known] at stepped
        cases stepped
        exact .resolves known
    | some url =>
        rw [known] at stepped
        cases stepped
        exact .reuses known
  · rename_i call resolves
    split at stepped
    · rename_i url found
      cases stepped
      rw [Option.ite_none_right_eq_some] at found
      exact .resolved found.2
    · cases stepped
      exact .unresolved
  · cases stepped
    exact .stored
  · split at stepped
    · rename_i known
      cases stepped
      exact .loaded known
    · rename_i missing
      cases stepped
      exact .lost missing
  · rename_i call url accepts
    cases stepped
    split
    · rename_i succeeded
      obtain ⟨rfl, found⟩ := succeeded
      exact .answered found
    · rename_i failed
      exact .rejected failed
  · cases stepped
    exact .forgot
  · cases stepped
    exact .dropped
  · cases stepped

theorem thread_step {step : Step}
    (stepped : system.step state (.thread actor step) = some next) :
    Move state.current state.cached (state.phase actor) step next.cached (next.phase actor) ∧
      next.current = state.current ∧ ∀ other, other ≠ actor → next.phase other = state.phase other := by
  obtain ⟨⟨cached, phase⟩, moved, rfl⟩ := Option.map_eq_some_iff.mp stepped
  refine ⟨?_, rfl, fun other different => Function.update_of_ne different ..⟩
  dsimp only
  rw [Function.update_self]
  exact stepThread_cases moved

/-- A failure is handled by a thread that has not forgotten the URL yet, or has only logged it. -/
theorem Call.fail_cases (call : Call) : call.fail = .failed call ∨ call.fail = .idle := by
  unfold Call.fail
  split
  · exact .inl rfl
  · exact .inr rfl

/-- A thread whose operation has failed is not more exposed than its connection is stale. -/
theorem Call.fail_exposed {stale : Bool}
    (exposed : call.fail.exposed connection current stale = true) : stale = true := by
  rcases call.fail_cases with failed | logged
  · rw [failed, Phase.exposed, Bool.and_eq_true] at exposed
    exact exposed.2
  · rw [logged] at exposed
    exact exposed

/-- A place is exposed when it sends under an outdated URL, or when its connection is stale. -/
theorem Phase.exposed_mono {stale fresh : Bool} (fewer : fresh = true → stale = true)
    (exposed : before.exposed connection current fresh = true) :
    before.exposed connection current stale = true := by
  cases before with
  | failed call =>
      rw [Phase.exposed, Bool.and_eq_true] at exposed ⊢
      exact ⟨exposed.1, fewer exposed.2⟩
  | sending call url =>
      rw [Phase.exposed, Bool.or_eq_true] at exposed ⊢
      exact exposed.imp id fewer
  | idle | resolving | storing | loading => exact fewer exposed

/-- To forget the URL of a connection makes none stale. -/
theorem stale_forgotten {forgotten : ConnectionId}
    (stale : (Function.update cached forgotten none connection).any
      (fun url => decide (current ≠ some url)) = true) :
    (cached connection).any (fun url => decide (current ≠ some url)) = true := by
  by_cases same : connection = forgotten
  · subst same
    rw [Function.update_self] at stale
    cases stale
  · rw [Function.update_of_ne same] at stale
    exact stale

/-- A connection turns stale when the queue moves or when an outdated URL is stored. -/
theorem stale_step {step : Step} (stepped : system.step state (.thread actor step) = some next)
    (stale : next.stale connection = true) :
    state.stale connection = true ∨
      outdatingOf connection ⟨state, .thread actor step, next⟩ = some () := by
  obtain ⟨move, current, _⟩ := thread_step stepped
  rw [State.stale, current] at stale
  generalize holds : state.phase actor = before at move
  generalize ends : next.phase actor = after at move
  generalize caches : next.cached = later at move stale
  cases move with
  | @stored call url =>
      by_cases same : call.connection = connection
      · subst same
        rw [Function.update_self, Option.any_some, decide_eq_true_eq] at stale
        exact .inr (by simp [outdatingOf, holds, stale])
      · rw [Function.update_of_ne (Ne.symm same)] at stale
        exact .inl stale
  | forgot | dropped => exact .inl (stale_forgotten stale)
  | _ => exact .inl stale

/-- A thread becomes exposed in no other way. -/
theorem exposed_step {step : Step} (stepped : system.step state (.thread actor step) = some next)
    (exposed : next.exposed thread connection = true) :
    state.exposed thread connection = true ∨
      outdatingOf connection ⟨state, .thread actor step, next⟩ = some () := by
  by_cases outdating : outdatingOf connection ⟨state, .thread actor step, next⟩ = some ()
  · exact .inr outdating
  have fewer : next.stale connection = true → state.stale connection = true :=
    fun stale => (stale_step stepped stale).resolve_right outdating
  refine .inl ?_
  obtain ⟨move, current, others⟩ := thread_step stepped
  unfold State.exposed at exposed ⊢
  rw [current] at exposed
  have same := Phase.exposed_mono fewer exposed
  by_cases acts : thread = actor
  · subst acts
    generalize state.phase thread = before at move ⊢
    generalize ends : next.phase thread = after at move same
    generalize caches : next.cached = later at move
    cases move with
    | resolves | reuses | resolved | stored | dropped => exact same
    | answered =>
        rw [Phase.exposed, Bool.or_eq_true]
        exact .inr same
    | unresolved => exact Call.fail_exposed same
    | lost => exact Call.fail_exposed same
    | rejected =>
        rw [Phase.exposed, Bool.or_eq_true]
        exact .inr (Call.fail_exposed same)
    | @loaded call url known =>
        rw [Phase.exposed, Bool.or_eq_true] at same
        rcases same with sends | stale
        · rw [Bool.and_eq_true, decide_eq_true_eq, decide_eq_true_eq] at sends
          obtain ⟨rfl, outdated⟩ := sends
          have stale : state.stale call.connection = true := by
            rw [State.stale, known, Option.any_some]
            exact decide_eq_true outdated
          exact stale
        · exact stale
    | @forgot call =>
        rw [ends] at exposed
        have stale : next.stale connection = true := exposed
        rw [Phase.exposed, Bool.and_eq_true]
        refine ⟨?_, fewer stale⟩
        by_contra forgets
        have own : call.connection = connection := by simpa using forgets
        rw [State.stale, caches, own, Function.update_self] at stale
        cases stale
  · rw [others thread acts] at same
    exact same

/-- A counted failure ends the exposure of its thread, which forgets the URL next. -/
theorem counted_step (stepped : system.step state action = some next)
    (counted : staleOf thread connection ⟨state, action, next⟩ = some ()) :
    state.exposed thread connection = true ∧ next.exposed thread connection = false ∧
      ∃ call, next.phase thread = .failed call ∧ call.connection = connection := by
  unfold staleOf at counted
  split at counted
  · rename_i actor same
    obtain rfl : action = .thread actor (.reply true) := same
    split at counted
    · rename_i call url holds
      rw [Option.ite_none_right_eq_some] at counted
      obtain ⟨⟨rfl, rfl, forgets, there, outdated⟩, _⟩ := counted
      have held : state.phase actor = .sending call url := holds
      have other : state.current ≠ some url := outdated
      obtain ⟨move, _⟩ := thread_step stepped
      have failed : next.phase actor = .failed call := by
        rw [held] at move
        generalize next.phase actor = after at move ⊢
        generalize next.cached = later at move
        cases move with
        | answered found => exact absurd found other
        | rejected => exact if_pos forgets
      refine ⟨?_, ?_, call, failed, rfl⟩
      · simp [State.exposed, held, Phase.exposed, other]
      · simp [State.exposed, failed, Phase.exposed]
    · cases counted
  · cases counted

/-- A counted failure uses up the exposure that a move or an outdated store has brought. -/
theorem exposure_step (stepped : system.step state action = some next) :
    (staleOf thread connection).unit ⟨state, action, next⟩ () +
        (next.exposed thread connection).toNat ≤
      (outdatingOf connection).unit ⟨state, action, next⟩ () +
        (state.exposed thread connection).toNat := by
  by_cases counted : staleOf thread connection ⟨state, action, next⟩ = some ()
  · obtain ⟨exposed, ended, _⟩ := counted_step stepped counted
    rw [Mark.unit_self counted, exposed, ended]
    exact Nat.le_add_left _ _
  · rw [Mark.unit_of_ne counted, Nat.zero_add]
    cases exposed : next.exposed thread connection with
    | false => exact Nat.zero_le _
    | true =>
        have brought : state.exposed thread connection = true ∨
            outdatingOf connection ⟨state, action, next⟩ = some () := by
          cases action with
          | thread actor step => exact exposed_step stepped exposed
          | move current => exact .inr rfl
        rcases brought with before | outdating
        · rw [before]
          exact Nat.le_add_left _ _
        · rw [Mark.unit_self outdating]
          exact Nat.le_add_right _ _

/-- A thread whose operation has failed forgets the URL before it does anything else. -/
theorem failed_forgets {step : Step} (stepped : system.step state (.thread thread step) = some next)
    (failed : state.phase thread = .failed call) :
    next.cached call.connection = none ∧ next.phase thread = .idle := by
  obtain ⟨move, _⟩ := thread_step stepped
  rw [failed] at move
  generalize next.phase thread = after at move ⊢
  generalize next.cached = later at move ⊢
  cases move with
  | forgot => exact ⟨Function.update_self .., rfl⟩

/-- Whatever the other threads and connections do, the operations of a thread on a connection fail
under an outdated URL at most as often as the queue moves or somebody stores a URL that a move has
outdated meanwhile; and after each such failure the thread first forgets the URL. -/
theorem stale_failures_bounded {first : State} (blank : first.cached connection = none)
    (idle : first.phase thread = .idle)
    (path : system.recorded.Path System.anyStep ([], first) run) :
    (staleOf thread connection).total run.1 ≤ (outdatingOf connection).total run.1 ∧
      (∀ taken ∈ run.1, staleOf thread connection taken = some () →
        ∃ call, taken.after.phase thread = .failed call ∧ call.connection = connection) ∧
      ∀ taken ∈ run.1, ∀ call step, taken.before.phase thread = .failed call →
        taken.action = .thread thread step →
        taken.after.cached call.connection = none ∧ taken.after.phase thread = .idle := by
  have unexposed : first.exposed thread connection = false := by
    rw [State.exposed, idle, Phase.exposed, State.stale, blank]
    · rfl
    all_goals nofun
  obtain ⟨covered, failing, forgetting⟩ := path.keeps (motive := fun run =>
    (staleOf thread connection).Covered (outdatingOf connection) run.1
        (fun _ => (run.2.exposed thread connection).toNat) ∧
      (∀ taken ∈ run.1, staleOf thread connection taken = some () →
        ∃ call, taken.after.phase thread = .failed call ∧ call.connection = connection) ∧
      ∀ taken ∈ run.1, ∀ call step, taken.before.phase thread = .failed call →
        taken.action = .thread thread step →
        taken.after.cached call.connection = none ∧ taken.after.phase thread = .idle)
    ⟨fun _ => by simp [unexposed], nofun, nofun⟩ <| by
      rintro before action after ⟨covered, failing, forgetting⟩ stepped _
      obtain ⟨next, moved, rfl⟩ := System.recorded_next stepped
      refine ⟨covered.cons fun _ => exposure_step moved, ?_, ?_⟩
      · intro taken member counted
        rcases List.mem_cons.mp member with rfl | earlier
        · exact (counted_step moved counted).2.2
        · exact failing taken earlier counted
      · intro taken member call step failed acts
        rcases List.mem_cons.mp member with rfl | earlier
        · obtain rfl : action = .thread thread step := acts
          exact failed_forgets moved failed
        · exact forgetting taken earlier call step failed acts
  exact ⟨covered.total_le, failing, forgetting⟩

/-- The worker finds the queue, and the queue is created again while the worker and the thread of
the gauges both send their requests. -/
def movedSchedule : List Action :=
  [.thread 0 (.call ⟨0, .receive⟩), .thread 0 (.resolve true), .thread 0 .store, .thread 0 .load,
    .thread 0 (.reply true), .thread 0 (.call ⟨0, .delete⟩), .thread 0 .load,
    .thread 1 (.call ⟨0, .attributes⟩), .thread 1 .load, .move (some "b".toList),
    .thread 0 (.reply true), .thread 1 (.reply true), .thread 0 .forget, .thread 1 .forget]

/-- Each of the two threads fails once for one move. -/
theorem stale_failures_bounded_moved : ∃ run : List (System.Taken State Action) × State,
    (staleOf 0 0).total run.1 = 1 ∧ (staleOf 1 0).total run.1 = 1 ∧
    (outdatingOf 0).total run.1 = 1 ∧ run.2.cached 0 = none ∧
    (staleOf 1 0).total run.1 ≤ (outdatingOf 0).total run.1 := by
  let first : State := ⟨fun _ => none, some "a".toList, fun _ => .idle⟩
  have ran : (system.recorded.run ([], first) movedSchedule).map (fun run =>
      ((staleOf 0 0).total run.1, (staleOf 1 0).total run.1, (outdatingOf 0).total run.1,
        run.2.cached 0)) = some (1, 1, 1, none) := by rfl
  obtain ⟨run, path, seen⟩ := System.run_observed System.anyStep ran fun _ _ _ _ => trivial
  simp only [Prod.mk.injEq] at seen
  obtain ⟨worker, scrape, moved, url⟩ := seen
  have blank : first.cached 0 = none := rfl
  have idle : first.phase 1 = .idle := rfl
  exact ⟨run, worker, scrape, moved, url, (stale_failures_bounded blank idle path).1⟩

end ConvoScore.Connection
