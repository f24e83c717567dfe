import ConvoScore.Api.Observability
import ConvoScore.Library.Book
import ConvoScore.Library.System
import Mathlib.Algebra.BigOperators.Ring.Finset
import Mathlib.Algebra.Order.Ring.Int

namespace ConvoScore.MetricsMiddleware
open Library

/-- The probes and the scrape itself are not measured. -/
def excludedPaths : List Text := ["/metrics".toList, "/healthz".toList, "/readyz".toList]

abbrev RequestId := Nat

/-- The labels of `http_requests_total`. -/
structure Label where
  method : Text
  route : Text
  status : Text
  deriving DecidableEq

/-- A phase is a place in `dispatch`; a scrape on another thread may come between any two. -/
inductive Phase
  | waiting
  | passing
  | passed
  | handling (method path : Text)
  | answered (label : Label)
  | released (label : Label)
  | raised (label : Label)
  | recorded (label : Label)
  | interrupted
  | ended (label : Label)
  | cancelled
  deriving DecidableEq

/-- The router fills in the route and its parameters before the response or the exception.
`cancel` is an exception that is no `Exception`. -/
inductive Call
  | dispatch (method path : Text)
  | pass
  | respond (route : Option Route) (pathParams : Option (List (Text × Text))) (statusCode : Nat)
  | raise (route : Option Route) (pathParams : Option (List (Text × Text)))
  | cancel
  | release
  | record

structure Action where
  id : RequestId
  call : Call

abbrev State := RequestId → Phase

def Label.of (method path : Text) (route : Option Route)
    (pathParams : Option (List (Text × Text))) (status : Text) : Label :=
  ⟨method, routeTemplate ⟨path, route, pathParams⟩, status⟩

/-- A response is released before it is recorded, and an exception after it. -/
def stepRequest : Phase → Call → Option Phase
  | .waiting, .dispatch method path =>
      some (if path ∈ excludedPaths then .passing else .handling method path)
  | .passing, .pass => some .passed
  | .handling method path, .respond route pathParams statusCode =>
      some (.answered (.of method path route pathParams (toString statusCode).toList))
  | .handling method path, .raise route pathParams =>
      some (.raised (.of method path route pathParams "500".toList))
  | .handling _ _, .cancel => some .interrupted
  | .answered label, .release => some (.released label)
  | .released label, .record => some (.ended label)
  | .raised label, .record => some (.recorded label)
  | .recorded label, .release => some (.ended label)
  | .interrupted, .release => some .cancelled
  | _, _ => none

def step (state : State) (action : Action) : Option State :=
  (stepRequest (state action.id) action.call).map fun phase =>
    Function.update state action.id phase

def system : System State Action where
  start state := ∀ id, state id = .waiting
  step := step

/-- What a step adds to `http_requests_in_progress`. -/
def gaugeOf : Phase → Call → Int
  | .waiting, .dispatch _ path => if path ∈ excludedPaths then 0 else 1
  | _, .release => -1
  | _, _ => 0

/-- The labels under which a step counts a request. -/
def recordOf : Phase → Call → Option Label
  | .released label, .record | .raised label, .record => some label
  | _, _ => none

/-- The book of the gauge. -/
def gauge : Book (System.Taken State Action) RequestId Int := fun taken =>
  some (taken.action.id, gaugeOf (taken.before taken.action.id) taken.action.call)

/-- The book of one series of `http_requests_total`. -/
def requestsTotal (label : Label) : Book (System.Taken State Action) RequestId Int := fun taken =>
  some (taken.action.id,
    (decide (recordOf (taken.before taken.action.id) taken.action.call = some label)).toInt)

/-- The sum of all series of `http_requests_total`. -/
def allRequests : Book (System.Taken State Action) RequestId Int := fun taken =>
  some (taken.action.id,
    (recordOf (taken.before taken.action.id) taken.action.call).isSome.toInt)

/-- A request is measured when its path is not excluded. -/
def beginOf : Phase → Call → Int
  | .waiting, .dispatch _ path => if path ∈ excludedPaths then 0 else 1
  | _, _ => 0

/-- The number of requests that were ever measured. -/
def begun : Book (System.Taken State Action) RequestId Int := fun taken =>
  some (taken.action.id, beginOf (taken.before taken.action.id) taken.action.call)

/-- A request is in progress until its `finally` block has run. -/
def Phase.inProgress : Phase → Bool
  | .handling _ _ | .answered _ | .raised _ | .recorded _ | .interrupted => true
  | .waiting | .passing | .passed | .released _ | .ended _ | .cancelled => false

/-- The labels under which a request has been counted. -/
def Phase.counted : Phase → Option Label
  | .recorded label | .ended label => some label
  | _ => none

def Phase.measured : Phase → Bool
  | .waiting | .passing | .passed => false
  | _ => true

/-- Neither metric shows this request. -/
def Phase.missed : Phase → Bool
  | .released _ | .cancelled => true
  | _ => false

/-- Both metrics show this request. -/
def Phase.shownTwice : Phase → Bool
  | .recorded _ => true
  | _ => false

variable {phase after : Phase} {call : Call} {label : Label} {before next : State}
  {action : Action} {run : List (System.Taken State Action) × State}

/-- The gauge follows the phase of a request. -/
theorem gauge_step (stepped : stepRequest phase call = some after) :
    gaugeOf phase call + phase.inProgress.toInt = after.inProgress.toInt := by
  unfold stepRequest at stepped
  split at stepped
  case h_1 =>
    cases stepped
    simp only [gaugeOf]
    split <;> rfl
  all_goals cases stepped <;> rfl

/-- A series follows the phase of a request. -/
theorem record_step (label : Label) (stepped : stepRequest phase call = some after) :
    (decide (recordOf phase call = some label)).toInt +
        (decide (phase.counted = some label)).toInt = (decide (after.counted = some label)).toInt := by
  unfold stepRequest at stepped
  split at stepped
  case h_1 =>
    cases stepped
    split <;> rfl
  all_goals cases stepped <;> simp [recordOf, Phase.counted]

theorem begin_step (stepped : stepRequest phase call = some after) :
    beginOf phase call + phase.measured.toInt = after.measured.toInt := by
  unfold stepRequest at stepped
  split at stepped
  case h_1 =>
    cases stepped
    simp only [beginOf]
    split <;> rfl
  all_goals cases stepped <;> rfl

theorem allRequests_step (stepped : stepRequest phase call = some after) :
    (recordOf phase call).isSome.toInt + phase.counted.isSome.toInt =
      after.counted.isSome.toInt := by
  unfold stepRequest at stepped
  split at stepped
  case h_1 =>
    cases stepped
    split <;> rfl
  all_goals cases stepped <;> rfl

/-- A measured request is shown by one of the two metrics, by none or by both. -/
theorem measured_eq (phase : Phase) : phase.measured.toInt + phase.shownTwice.toInt =
    phase.inProgress.toInt + phase.counted.isSome.toInt + phase.missed.toInt := by
  cases phase <;> rfl

section Follow
variable {book : Book (System.Taken State Action) RequestId Int} {flag : Phase → Bool}
  {amount : Phase → Call → Int}

/-- A book whose entries follow the phases holds for each request what its phase says. -/
theorem share_follows (reached : system.recorded.Reached System.anyStep run)
    (booked : ∀ taken, book taken =
      some (taken.action.id, amount (taken.before taken.action.id) taken.action.call))
    (nothing : flag .waiting = false)
    (follows : ∀ phase call after, stepRequest phase call = some after →
      amount phase call + (flag phase).toInt = (flag after).toInt) (id : RequestId) :
    book.share run.1 id = (flag (run.2 id)).toInt := by
  refine reached.historyInvariant
    (motive := fun history state => ∀ id, book.share history id = (flag (state id)).toInt) ?_ ?_ id
  · intro origin started id
    rw [started id, nothing]
    rfl
  · intro history before action after _ shares stepped _ id
    obtain ⟨phase, moved, rfl⟩ := Option.map_eq_some_iff.mp stepped
    rw [Book.share_cons, shares id]
    by_cases same : action.id = id
    · subst same
      rw [Book.entry_self (booked _), Function.update_self]
      exact follows _ _ _ moved
    · rw [Book.entry_other (booked _) same, Function.update_of_ne (Ne.symm same), zero_add]

/-- The requests in the phases of a flag, as a sum. -/
theorem card_eq_sum (flag : Phase → Bool) (requests : Finset RequestId) (state : State) :
    ((requests.filter fun id => flag (state id) = true).card : Int) =
      ∑ id ∈ requests, (flag (state id)).toInt := by
  have each : ∀ id, (flag (state id)).toInt = if flag (state id) = true then 1 else 0 := by
    intro id
    cases flag (state id) <;> rfl
  rw [Finset.sum_congr rfl fun id _ => each id, Finset.sum_boole]

/-- The total of such a book is the number of requests in the phases that it follows. -/
theorem total_follows (reached : system.recorded.Reached System.anyStep run)
    (booked : ∀ taken, book taken =
      some (taken.action.id, amount (taken.before taken.action.id) taken.action.call))
    (nothing : flag .waiting = false)
    (follows : ∀ phase call after, stepRequest phase call = some after →
      amount phase call + (flag phase).toInt = (flag after).toInt)
    {requests : Finset RequestId} (others : ∀ id, id ∉ requests → run.2 id = .waiting) :
    book.total run.1 = (requests.filter fun id => flag (run.2 id) = true).card := by
  have shares := share_follows reached booked nothing follows
  have total : book.total run.1 = ∑ id ∈ requests, book.share run.1 id := by
    refine Book.total_eq_sum_of_zero fun id outside => ?_
    rw [shares id, others id outside, nothing]
    rfl
  rw [total, card_eq_sum flag]
  exact Finset.sum_congr rfl fun id _ => shares id

end Follow

/-- At every moment at which a scrape may come, the gauge is the number of requests in progress and
each series the number of requests counted under its labels; together they show all requests but
those between their release and their record, the cancelled ones, and some twice. -/
theorem requests_measured (reached : system.recorded.Reached System.anyStep run)
    (requests : Finset RequestId) (others : ∀ id, id ∉ requests → run.2 id = .waiting) :
    gauge.total run.1 = (requests.filter fun id => (run.2 id).inProgress = true).card ∧
    (∀ label, (requestsTotal label).total run.1 =
      (requests.filter fun id => (run.2 id).counted = some label).card) ∧
    begun.total run.1 + (requests.filter fun id => (run.2 id).shownTwice = true).card =
      gauge.total run.1 + allRequests.total run.1 +
        (requests.filter fun id => (run.2 id).missed = true).card := by
  have inProgress : gauge.total run.1 =
      (requests.filter fun id => (run.2 id).inProgress = true).card :=
    total_follows reached (fun _ => rfl) rfl (fun _ _ _ => gauge_step) others
  have counted : allRequests.total run.1 =
      (requests.filter fun id => (run.2 id).counted.isSome = true).card :=
    total_follows reached (fun _ => rfl) rfl (fun _ _ _ => allRequests_step) others
  have measured : begun.total run.1 =
      (requests.filter fun id => (run.2 id).measured = true).card :=
    total_follows reached (fun _ => rfl) rfl (fun _ _ _ => begin_step) others
  refine ⟨inProgress, fun label => ?_, ?_⟩
  · have total : (requestsTotal label).total run.1 =
        (requests.filter fun id => decide ((run.2 id).counted = some label) = true).card :=
      total_follows reached (fun _ => rfl) rfl (fun _ _ _ => record_step label) others
    simpa only [decide_eq_true_eq] using total
  · rw [inProgress, counted, measured]
    rw [card_eq_sum Phase.inProgress, card_eq_sum fun phase => phase.counted.isSome,
      card_eq_sum Phase.measured, card_eq_sum Phase.shownTwice, card_eq_sum Phase.missed]
    rw [← Finset.sum_add_distrib, ← Finset.sum_add_distrib, ← Finset.sum_add_distrib]
    exact Finset.sum_congr rfl fun id _ => measured_eq (run.2 id)

/-- One request is released but not recorded, one has failed and is recorded but not released,
one is a probe and one was cancelled. -/
def scrapedSchedule : List Action :=
  [⟨1, .dispatch "GET".toList "/api/stats".toList⟩, ⟨2, .dispatch "GET".toList "/x".toList⟩,
    ⟨3, .dispatch "GET".toList "/healthz".toList⟩, ⟨4, .dispatch "GET".toList "/y".toList⟩,
    ⟨1, .respond none none 404⟩, ⟨1, .release⟩, ⟨2, .raise none none⟩, ⟨2, .record⟩, ⟨3, .pass⟩,
    ⟨4, .cancel⟩, ⟨4, .release⟩]

/-- Only the request that failed is shown, by both metrics. -/
theorem requests_measured_scraped : ∃ run : List (System.Taken State Action) × State,
    system.recorded.Reached System.anyStep run ∧ gauge.total run.1 = 1 ∧
    allRequests.total run.1 = 1 ∧ begun.total run.1 = 3 ∧
    gauge.total run.1 =
      ((Finset.range 5).filter fun id => (run.2 id).inProgress = true).card := by
  let first : State := fun _ => .waiting
  have ran : (system.recorded.run ([], first) scrapedSchedule).map (fun run =>
      (gauge.total run.1, allRequests.total run.1, begun.total run.1)) = some (1, 1, 3) := by rfl
  have below : ∀ action ∈ scrapedSchedule, action.id < 5 := by simp [scrapedSchedule]
  obtain ⟨run, path, seen⟩ := System.run_observed (fun _ action _ => action.id < 5) ran
    fun action member _ _ => below action member
  simp only [Prod.mk.injEq] at seen
  obtain ⟨progress, counted, began⟩ := seen
  have reached : system.recorded.Reached System.anyStep run :=
    ⟨_, ⟨rfl, fun _ => rfl⟩, path.weaken fun _ _ _ _ => trivial⟩
  have others : ∀ id, id ∉ Finset.range 5 → run.2 id = .waiting := by
    intro id outside
    refine path.keeps (motive := fun run => run.2 id = .waiting) rfl ?_
    intro before action after waiting stepped below
    obtain ⟨next, moved, rfl⟩ := System.recorded_next stepped
    obtain ⟨phase, _, rfl⟩ := Option.map_eq_some_iff.mp moved
    have different : id ≠ action.id := fun same => outside (Finset.mem_range.mpr (same ▸ below))
    exact (Function.update_of_ne different _ _).trans waiting
  exact ⟨run, reached, progress, counted, began, (requests_measured reached _ others).1⟩

end ConvoScore.MetricsMiddleware
