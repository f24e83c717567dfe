import ConvoScore.Demo.Counters

namespace ConvoScore.Demo
open Library

variable {Input Answer : Type}

/-- The steps of a client since its latest score call began, the latest one first. -/
def callOf (client : ClientId) : History Input Answer → History Input Answer
  | [] => []
  | taken :: earlier =>
      if taken.action.client = client then
        match taken.action.call with
        | .score _ => [taken]
        | _ => taken :: callOf client earlier
      else callOf client earlier

/-- The conversation that a score call is made with. -/
def scoredOf (taken : System.Taken (State Input Answer) (Action Input Answer)) : Option Input :=
  match taken.action.call with
  | .score conversation => some conversation
  | _ => none

/-- A call of the inner provider, with its argument and its answer. -/
def innerOf (taken : System.Taken (State Input Answer) (Action Input Answer)) :
    Option (Input × Answer) :=
  match phaseOf taken, taken.action.call with
  | .passing conversation, .answer answer => some (conversation, answer)
  | _, _ => none

/-- The mode that `consume` checks, with the count that is committed for it. -/
def checkOf (taken : System.Taken (State Input Answer) (Action Input Answer)) :
    Option (FailureMode × Int) :=
  match phaseOf taken, taken.action.call with
  | .checking _ (mode :: _), .check => some (mode, state taken.before.tokens.committed mode)
  | _, _ => none

/-- What the steps of a score call have done so far. -/
structure Trace (Input Answer : Type) where
  scored : List Input
  consumed : List FailureMode
  inner : List (Input × Answer)
  checked : List (FailureMode × Int)

def traceOf (call : History Input Answer) : Trace Input Answer where
  scored := call.filterMap scoredOf
  consumed := call.filterMap consumptionOf
  inner := call.filterMap innerOf
  checked := call.filterMap checkOf

/-- `consume` has found no token for any mode before the rest. -/
def Trace.Passed (trace : Trace Input Answer) (rest : List FailureMode) : Prop :=
  ∃ passed, FailureMode.all = passed ++ rest ∧ ∀ mode ∈ passed, (mode, 0) ∈ trace.checked

/-- A score call has neither consumed a token nor called the inner provider. -/
structure Trace.Pending (trace : Trace Input Answer) (conversation : Input) : Prop where
  scored : trace.scored = [conversation]
  consumed : trace.consumed = []
  inner : trace.inner = []

/-- A score call has committed one consumption and called nobody. -/
structure Trace.Injected (trace : Trace Input Answer) (mode : FailureMode) : Prop where
  consumed : trace.consumed = [mode]
  inner : trace.inner = []

/-- A score call has consumed nothing and called the inner provider once with its argument. -/
structure Trace.Passes (trace : Trace Input Answer) (answer : Answer) : Prop where
  scored : ∃ conversation, trace.scored = [conversation] ∧ trace.inner = [(conversation, answer)]
  consumed : trace.consumed = []

/-- A score call consumes a token or calls the inner provider, once and not both. -/
def Trace.Ended (trace : Trace Input Answer) : Prop :=
  trace.consumed.length + trace.inner.length ≤ 1

/-- A call that has returned is one of the two kinds. -/
def Settled (explanation : Text) (trace : Trace Input Answer) : Outcome Answer → Prop
  | .inner answer => trace.Passes answer
  | .raised error => ∃ mode, trace.Injected mode ∧
      injected explanation mode = (.raised error : Outcome Answer)
  | .unreachable => False

/-- What the steps of a call have done when the client is at some place. -/
def Progress (explanation : Text) (trace : Trace Input Answer) : Phase Input Answer → Prop
  | .opening conversation => trace.Pending conversation
  | .checking conversation modes => trace.Pending conversation ∧ trace.Passed modes
  | .consumed conversation none => trace.Pending conversation ∧ trace.Passed []
  | .consumed conversation (some mode) =>
      trace.Pending conversation ∧ ∃ rest, trace.Passed (mode :: rest)
  | .passing conversation => trace.Pending conversation
  | .raising mode => trace.Injected mode
  | .returned outcome => Settled explanation trace outcome
  | .idle | .arming _ _ | .armed _ _ | .clearing _ => trace.Ended

/-- What one more step of the client adds to the trace of its call. -/
def Trace.next (trace : Trace Input Answer) (committed : Table FailureMode Int) :
    Phase Input Answer → Call Input Answer → Trace Input Answer
  | _, .score conversation => ⟨[conversation], [], [], []⟩
  | .consumed _ (some mode), .commit => {trace with consumed := mode :: trace.consumed}
  | .passing conversation, .answer answer =>
      {trace with inner := (conversation, answer) :: trace.inner}
  | .checking _ (mode :: _), .check =>
      {trace with checked := (mode, state committed mode) :: trace.checked}
  | _, _ => trace

variable {explanation : Text} {tokens next : Tokens} {client : ClientId} {mode : FailureMode}
  {phase after : Phase Input Answer} {call : Call Input Answer} {conversation : Input}
  {trace : Trace Input Answer} {committed : Table FailureMode Int}
  {taken : System.Taken (State Input Answer) (Action Input Answer)}
  {history : History Input Answer}

/-- The steps of another client are no part of a call. -/
theorem callOf_other (other : taken.action.client ≠ client) :
    callOf client (taken :: history) = callOf client history := if_neg other

theorem Trace.next_score :
    trace.next committed phase (.score conversation) = ⟨[conversation], [], [], []⟩ := by
  cases phase <;> rfl

/-- The trace of a call grows with the steps of its client. -/
theorem traceOf_callOf {state later : State Input Answer} :
    traceOf (callOf client (⟨state, ⟨client, call⟩, later⟩ :: history)) =
      (traceOf (callOf client history)).next state.tokens.committed (state.phases client) call := by
  rw [callOf, if_pos rfl]
  unfold traceOf
  cases call with
  | score conversation =>
      rw [Trace.next_score]
      simp only [List.filterMap_cons, List.filterMap_nil, scoredOf, consumptionOf, innerOf, checkOf,
        phaseOf]
      cases state.phases client with
      | checking _ modes => cases modes <;> rfl
      | _ => rfl
  | _ =>
      simp only [List.filterMap_cons, scoredOf, consumptionOf, innerOf, checkOf, phaseOf]
      cases state.phases client with
      | consumed _ mode => cases mode <;> rfl
      | checking _ modes => cases modes <;> rfl
      | _ => rfl

/-- A failure, a crash and the other two functions add nothing to a trace. -/
theorem Trace.next_keep
    (aside : call = .fail ∨ call = .crash ∨ call = .clear ∨ ∃ mode count, call = .arm mode count) :
    trace.next committed phase call = trace := by
  rcases aside with rfl | rfl | rfl | ⟨mode, count, rfl⟩ <;> cases phase <;> rfl

theorem Trace.Pending.ended (pending : trace.Pending conversation) : trace.Ended := by
  simp [Trace.Ended, pending.consumed, pending.inner]

theorem Trace.Injected.ended (injected : trace.Injected mode) : trace.Ended := by
  simp [Trace.Ended, injected.consumed, injected.inner]

/-- At no place has a call both consumed a token and called the inner provider. -/
theorem progress_ended (progress : Progress explanation trace phase) : trace.Ended := by
  cases phase with
  | opening | passing => exact Trace.Pending.ended progress
  | checking => exact progress.1.ended
  | consumed _ mode => cases mode <;> exact progress.1.ended
  | raising => exact Trace.Injected.ended progress
  | returned outcome =>
      cases outcome with
      | inner answer =>
          obtain ⟨conversation, _, inner⟩ := progress.scored
          simp [Trace.Ended, progress.consumed, inner]
      | raised error =>
          obtain ⟨mode, injected, _⟩ := progress
          exact injected.ended
      | unreachable => cases progress
  | idle | arming | armed | clearing => exact progress

/-- Every failure mode has an error. -/
theorem injected_raised (mode : FailureMode) :
    ∃ error, injected explanation mode = (.raised error : Outcome Answer) := by
  cases mode with
  | timeout | http500 => exact ⟨_, rfl⟩
  | malformed =>
      rw [injected, malformedResponse_rejected]
      exact ⟨_, rfl⟩

/-- A check that finds no token passes its mode. -/
theorem Trace.Passed.check {rest : List FailureMode} (passed : trace.Passed (mode :: rest)) :
    Trace.Passed {trace with checked := (mode, 0) :: trace.checked} rest := by
  obtain ⟨before, order, checked⟩ := passed
  refine ⟨before ++ [mode], by rw [order, List.append_assoc, List.singleton_append], ?_⟩
  intro other member
  rcases List.mem_append.mp member with earlier | last
  · exact List.mem_cons_of_mem _ (checked other earlier)
  · exact List.mem_singleton.mp last ▸ List.mem_cons_self

/-- A later check takes nothing away from what has been checked. -/
theorem Trace.Passed.keep {rest : List FailureMode} {check : FailureMode × Int}
    (passed : trace.Passed rest) :
    Trace.Passed {trace with checked := check :: trace.checked} rest := by
  obtain ⟨before, order, checked⟩ := passed
  exact ⟨before, order, fun other member => List.mem_cons_of_mem _ (checked other member)⟩

/-- A step of a client keeps its call on the way that leads to one of the two ends. -/
theorem Move.progress (move : Move explanation tokens client phase call next after)
    (seen : ∀ conversation modes, phase = .checking conversation modes →
      tokens.view client = tokens.committed)
    (nonnegative : ∀ mode, 0 ≤ state tokens.committed mode)
    (progress : Progress explanation trace phase) :
    Progress explanation (trace.next tokens.committed phase call) after := by
  cases move with
  | scored =>
      rw [Trace.next_score]
      exact ⟨rfl, rfl, rfl⟩
  | connected => exact ⟨progress, [], rfl, nofun⟩
  | took found positive wrote =>
      obtain ⟨pending, passed⟩ := progress
      exact ⟨⟨pending.scored, pending.consumed, pending.inner⟩, _, passed.keep⟩
  | @unarmed _ mode _ nothing =>
      obtain ⟨pending, passed⟩ := progress
      have spent : state tokens.committed mode = 0 := by
        rw [seen _ _ rfl] at nothing
        exact le_antisymm nothing (nonnegative mode)
      rw [Trace.next, spent]
      exact ⟨⟨pending.scored, pending.consumed, pending.inner⟩, passed.check⟩
  | exhausted => exact progress
  | committedNone => exact progress.1
  | committedTaken =>
      obtain ⟨pending, _⟩ := progress
      exact ⟨congrArg _ pending.consumed, pending.inner⟩
  | unopened => exact progress
  | degraded opened =>
      rw [Trace.next_keep (.inl rfl)]
      rcases opened with ⟨modes, rfl⟩ | ⟨mode, rfl⟩
      · exact progress.1
      · cases mode <;> exact progress.1
  | answered =>
      exact ⟨⟨_, progress.scored, congrArg _ progress.inner⟩, progress.consumed⟩
  | @raised mode =>
      obtain ⟨error, same⟩ : ∃ error, injected explanation mode = (.raised error : Outcome Answer) :=
        injected_raised mode
      rw [same]
      exact ⟨mode, progress, same⟩
  | armed | armCommitted | cleared | clearCommitted => exact progress
  | arming | clearing | aborted | crashed =>
      rw [Trace.next_keep (by simp)]
      exact progress_ended progress

/-- No count of a run is negative, whether it is committed or not. -/
theorem run_nonnegative
    {allowed : System.Condition (History Input Answer × State Input Answer) (Action Input Answer)}
    {run : History Input Answer × State Input Answer}
    (reached : (system explanation).recorded.Reached allowed run) :
    (∀ mode remaining, run.2.tokens.committed mode = some remaining → 0 ≤ remaining) ∧
      ∀ mode owner remaining, run.2.tokens.written mode = some (owner, remaining) → 0 ≤ remaining := by
  refine ⟨?_, ?_⟩
  · intro mode remaining found
    obtain ⟨legal, value⟩ := run_counted reached mode
    exact Counter.value_nonneg legal (value.symm.trans found)
  · intro mode owner remaining wrote
    have known : Knows (run.2.phases owner) mode _ remaining :=
      (run_locked reached).guarded mode owner remaining wrote
    exact known.nonneg

/-- Every client is as far in its call as its phase says. -/
def Progressing (explanation : Text) (history : History Input Answer) (state : State Input Answer) :
    Prop :=
  ∀ client, Progress explanation (traceOf (callOf client history)) (state.phases client)

theorem progressing_step {state later : State Input Answer} {action : Action Input Answer}
    (locked : Locked state) (nonnegative : ∀ mode, 0 ≤ Demo.state state.tokens.committed mode)
    (progressing : Progressing explanation history state)
    (step : Step explanation state action later) :
    Progressing explanation (⟨state, action, later⟩ :: history) later := by
  intro client
  by_cases same : action.client = client
  · subst same
    obtain ⟨client, call⟩ := action
    rw [traceOf_callOf]
    refine step.move.progress ?_ nonnegative (progressing client)
    intro conversation modes checking
    refine view_unwritten locked.guarded ?_
    intro mode committed remaining known
    rw [checking] at known
    exact known
  · rw [callOf_other same, step.others client (Ne.symm same)]
    exact progressing client

theorem run_progressing
    {allowed : System.Condition (History Input Answer × State Input Answer) (Action Input Answer)}
    {run : History Input Answer × State Input Answer}
    (reached : (system explanation).recorded.Reached allowed run) :
    Progressing explanation run.1 run.2 := by
  refine reached.historyInvariant ?_ ?_
  · rintro _ rfl client
    exact Nat.zero_le 1
  · intro history before action after earlier progressing stepped _
    refine progressing_step (run_locked earlier) ?_ progressing (step_cases stepped)
    intro mode
    rw [Demo.state]
    cases found : before.tokens.committed mode with
    | none => exact le_rfl
    | some remaining => exact (run_nonnegative earlier).1 mode remaining found

/-- In every run, injected failures are conserved: no count is negative, the tokens of a mode are
consumed or they remain, every score call consumes one token and fails or passes its conversation
on, and `consume` takes the first token in its order. -/
theorem injections_conserved {run : History Input Answer × State Input Answer}
    (reached : (system explanation).recorded.Reached System.anyStep run) :
    (∀ mode remaining, run.2.tokens.committed mode = some remaining → 0 ≤ remaining) ∧
    (∀ since taken earlier mode count, run.1 = since ++ taken :: earlier →
      armOf taken = some (mode, count) → (∀ other ∈ since, ¬ Replaces mode other) →
      (consumptionOf.tally since mode : Int) = count - Demo.state run.2.tokens.committed mode ∧
        (consumptionOf.tally since mode : Int) ≤ count) ∧
    (∀ client, (traceOf (callOf client run.1)).Ended ∧
      ∀ outcome, run.2.phases client = .returned outcome →
        Settled explanation (traceOf (callOf client run.1)) outcome) ∧
    (∀ client conversation mode, run.2.phases client = .consumed conversation (some mode) →
      ∃ rest, (traceOf (callOf client run.1)).Passed (mode :: rest)) := by
  have progressing := run_progressing reached
  refine ⟨(run_nonnegative reached).1, ?_, ?_, ?_⟩
  · intro since taken earlier mode count split armed kept
    exact consumed_since_armed reached split armed kept
  · intro client
    have progress := progressing client
    refine ⟨progress_ended progress, ?_⟩
    intro outcome returned
    rw [returned] at progress
    exact progress
  · intro client conversation mode yielded
    have progress := progressing client
    rw [yielded] at progress
    exact progress.2

/-- One timeout is armed, and two workers check for it at the same time. -/
def contendedSchedule : List (Action Nat Nat) :=
  [⟨0, .arm .timeout 1⟩, ⟨0, .write⟩, ⟨0, .commit⟩, ⟨1, .score 7⟩, ⟨2, .score 8⟩, ⟨1, .connect⟩,
    ⟨2, .connect⟩, ⟨1, .check⟩, ⟨1, .commit⟩, ⟨2, .check⟩, ⟨2, .check⟩, ⟨2, .check⟩, ⟨2, .check⟩,
    ⟨2, .commit⟩, ⟨1, .raise⟩, ⟨2, .answer 42⟩]

/-- One worker fails with the armed error, and the other one gets the answer it asked for. -/
theorem injections_conserved_contended : ∃ run : History Nat Nat × State Nat Nat,
    (system []).recorded.Reached System.anyStep run ∧
    (∃ since taken earlier, run.1 = since ++ taken :: earlier ∧
      armOf taken = some (.timeout, 1) ∧ consumptionOf.tally since .timeout = 1) ∧
    run.2.phases 1 = .returned (injected [] .timeout) ∧
    (traceOf (callOf 1 run.1)).inner = [] ∧
    run.2.phases 2 = .returned (.inner 42) ∧ (traceOf (callOf 2 run.1)).consumed = [] := by
  have ran : (((system []).recorded.run ([], initial) contendedSchedule).map fun run =>
      (run.1.map fun taken => (armOf taken, clears taken),
        Demo.state run.2.tokens.committed .timeout, run.2.phases 1, run.2.phases 2)) =
      some (List.replicate 13 (none, false) ++ (some (.timeout, 1), false) ::
          List.replicate 2 (none, false),
        0, .returned (injected [] .timeout), .returned (.inner 42)) := by rfl
  obtain ⟨run, path, seen⟩ := System.run_observed System.anyStep ran fun _ _ _ _ => trivial
  simp only [Prod.mk.injEq] at seen
  obtain ⟨events, spent, first, second⟩ := seen
  have reached : (system []).recorded.Reached System.anyStep run :=
    ⟨([], initial), ⟨rfl, rfl⟩, path⟩
  obtain ⟨_, conserved, calls, _⟩ := injections_conserved reached
  obtain ⟨since, rest, split, quiet, last⟩ := List.map_eq_append_iff.mp events
  obtain ⟨taken, earlier, rfl, armed, _⟩ := List.map_eq_cons_iff.mp last
  have arms : armOf taken = some (.timeout, 1) := congrArg Prod.fst armed
  have kept : ∀ other ∈ since, ¬ Replaces .timeout other := by
    intro other member
    have event : (armOf other, clears other) ∈ List.replicate 13 (none, false) :=
      quiet ▸ List.mem_map_of_mem member
    obtain ⟨unarmed, uncleared⟩ := Prod.mk.inj (List.eq_of_mem_replicate event)
    simp [Replaces, unarmed, uncleared]
  have count := (conserved since taken earlier .timeout 1 split arms kept).1
  rw [spent] at count
  have raised := (calls 1).2 _ first
  have passed := (calls 2).2 _ second
  obtain ⟨mode, injection, _⟩ := raised
  exact ⟨run, reached, ⟨since, taken, earlier, split, arms, by omega⟩, first, injection.inner, second,
    passed.consumed⟩

end ConvoScore.Demo
