import ConvoScore.Demo.Tokens
import ConvoScore.Library.Counter
import ConvoScore.Library.Tally

namespace ConvoScore.Demo
open Library

variable {Input Answer : Type}

/-- A history stores every transition of a run, the latest one first. -/
abbrev History (Input Answer : Type) :=
  List (System.Taken (State Input Answer) (Action Input Answer))

/-- What the owner of an uncommitted version knows of it and of the committed one under its lock. -/
def Knows (phase : Phase Input Answer) (mode : FailureMode) (committed : Option Int)
    (remaining : Int) : Prop :=
  match phase with
  | .consumed _ (some taken) => taken = mode ∧ committed = some (remaining + 1) ∧ 0 ≤ remaining
  | .armed armed count => armed = mode ∧ remaining = count ∧ 0 ≤ remaining
  | .clearing _ => remaining = 0
  | _ => False

/-- The row that a phase is about to commit. -/
def Phase.owned : Phase Input Answer → Option FailureMode
  | .consumed _ mode => mode
  | .armed mode _ => some mode
  | _ => none

/-- Every uncommitted version belongs to a client that knows it, and is there when it is needed. -/
structure Locked (state : State Input Answer) : Prop where
  guarded : state.tokens.Guarded fun client => Knows (state.phases client)
  owned : ∀ client mode, (state.phases client).owned = some mode →
    ∃ remaining, state.tokens.written mode = some (client, remaining)

variable {explanation : Text} {tokens next : Tokens} {client owner : ClientId}
  {mode : FailureMode} {remaining : Int} {phase after : Phase Input Answer}
  {call : Call Input Answer} {state later : State Input Answer} {action : Action Input Answer}

theorem Phase.free_knows (free : phase.free = true) {committed : Option Int} :
    ¬ Knows phase mode committed remaining := by
  cases phase <;> simp_all [Phase.free, Knows]

/-- No client writes a negative count. -/
theorem Knows.nonneg {committed : Option Int} (known : Knows phase mode committed remaining) :
    0 ≤ remaining := by
  cases phase with
  | consumed conversation found =>
      cases found with
      | none => cases known
      | some taken => exact known.2.2
  | armed => exact known.2.2
  | clearing => exact le_of_eq (Eq.symm known)
  | _ => cases known

/-- A client that knows of no own write sees the committed rows. -/
theorem view_unwritten {phases : ClientId → Phase Input Answer}
    (guarded : tokens.Guarded fun client => Knows (phases client))
    (nothing : ∀ mode committed remaining, ¬ Knows (phases client) mode committed remaining) :
    tokens.view client = tokens.committed := by
  funext mode
  apply Versions.view_committed
  intro remaining wrote
  exact nothing _ _ _ (guarded mode client remaining wrote)

/-- A step of one client leaves the uncommitted versions of the others alone. -/
theorem Move.keeps (move : Move explanation tokens client phase call next after)
    (found : tokens.written mode = some (owner, remaining)) (different : owner ≠ client) :
    next.written mode = some (owner, remaining) := by
  cases move with
  | took _ _ wrote | armed _ wrote | cleared _ wrote =>
      exact Versions.write_keeps wrote found different
  | committedNone | committedTaken | armCommitted | clearCommitted | degraded | aborted | crashed =>
      exact Versions.release_eq.mpr ⟨found, different⟩
  | _ => exact found

/-- A phase that owns a row has just written it. -/
theorem Move.owns (move : Move explanation tokens client phase call next after)
    (owns : after.owned = some mode) : ∃ remaining, next.written mode = some (client, remaining) := by
  cases move with
  | took _ _ wrote | armed _ wrote =>
      cases owns
      obtain ⟨_, _, written⟩ := Versions.write_eq wrote
      exact ⟨_, by rw [written, Function.update_self]⟩
  | _ => cases owns

/-- A step keeps what every owner knows of its uncommitted versions. -/
theorem Move.guarded {phases changed : ClientId → Phase Input Answer}
    (move : Move explanation tokens client (phases client) call next (changed client))
    (guarded : tokens.Guarded fun client => Knows (phases client))
    (others : ∀ other, other ≠ client → changed other = phases other) :
    next.Guarded fun client => Knows (changed client) := by
  have same : ∀ other, other ≠ client → Knows (changed other) = Knows (phases other) := by
    intro other different
    rw [others other different]
  have unwritten : (∀ mode committed remaining,
      ¬ Knows (phases client) mode committed remaining) → tokens.view client = tokens.committed :=
    view_unwritten guarded
  generalize before : phases client = phase at move unwritten
  generalize entered : changed client = after at move
  cases move with
  | scored free | arming free | clearing free =>
      refine guarded.idle same ?_
      intro mode committed remaining known
      rw [before] at known
      exact Phase.free_knows free known
  | connected | unarmed | exhausted | unopened | answered | raised =>
      refine guarded.idle same ?_
      intro mode committed remaining known
      rw [before] at known
      exact known
  | committedNone | committedTaken | armCommitted | clearCommitted => exact guarded.commit same
  | degraded | aborted | crashed => exact guarded.rollback same
  | took found positive wrote =>
      rw [unwritten fun _ _ _ known => known] at found
      refine guarded.write wrote same ?_ ?_
      · rw [entered, found]
        exact ⟨rfl, by rw [Int.sub_add_cancel], Int.sub_nonneg_of_le positive⟩
      · intro other committed held _ known
        rw [before] at known
        cases known
  | armed nonnegative wrote =>
      refine guarded.write wrote same ?_ ?_
      · rw [entered]
        exact ⟨rfl, rfl, nonnegative⟩
      · intro other committed held _ known
        rw [before] at known
        cases known
  | cleared _ wrote =>
      refine guarded.write wrote same ?_ ?_
      · rw [entered]
        exact rfl
      · intro other committed held _ known
        rw [before] at known
        rw [entered]
        exact known

theorem owned_step (locked : Locked state) (step : Step explanation state action later)
    (owns : (later.phases client).owned = some mode) :
    ∃ remaining, later.tokens.written mode = some (client, remaining) := by
  by_cases same : client = action.client
  · subst same
    exact step.move.owns owns
  · rw [step.others client same] at owns
    obtain ⟨remaining, wrote⟩ := locked.owned client mode owns
    exact ⟨remaining, step.move.keeps wrote same⟩

theorem locked_step (locked : Locked state) (step : Step explanation state action later) :
    Locked later where
  guarded := step.move.guarded locked.guarded step.others
  owned _ _ := owned_step locked step

theorem locked_initial : Locked (initial : State Input Answer) where
  guarded _ _ _ wrote := by cases wrote
  owned _ _ owns := by cases owns

/-- In every reached state the locks are as the clients know them. -/
theorem reached_locked {allowed : System.Condition (State Input Answer) (Action Input Answer)}
    (reached : (system explanation).Reached allowed state) : Locked state := by
  refine reached.invariant ?_ ?_
  · rintro _ rfl
    exact locked_initial
  · intro before action after locked stepped _
    exact locked_step locked (step_cases stepped)

/-- In every state of a recorded run the locks are as the clients know them. -/
theorem run_locked
    {allowed : System.Condition (History Input Answer × State Input Answer) (Action Input Answer)}
    {run : History Input Answer × State Input Answer}
    (reached : (system explanation).recorded.Reached allowed run) : Locked run.2 :=
  reached_locked (System.recorded_reachable reached)

/-- What a step does to the counter of a mode: only a commit changes it. -/
def commandOn (tokens : Tokens) (client : ClientId) (mode : FailureMode) :
    Phase Input Answer → Call Input Answer → Counter.Command
  | .consumed _ (some taken), .commit => if taken = mode then .take else .keep
  | .armed armed count, .commit => if armed = mode then .set count else .keep
  | .clearing _, .commit =>
      if (tokens.written mode).any fun version => decide (version.1 = client) then .set 0 else .keep
  | _, _ => .keep

theorem commandOn_keep (uncommitted : call ≠ .commit) :
    commandOn tokens client mode phase call = .keep := by
  unfold commandOn
  split
  case h_4 => rfl
  all_goals exact absurd rfl uncommitted

/-- A commit keeps the count of a mode that its client has not written. -/
theorem commit_unwritten {command : Counter.Command} (keeping : command = .keep)
    (unwritten : ∀ remaining, tokens.written mode ≠ some (client, remaining)) :
    command.Leads (tokens.committed mode) (tokens.view client mode) := by
  rw [keeping, Versions.view_committed unwritten]
  exact Counter.Command.leads_keep

/-- The commit of a consumption takes the token that was there when the row was locked. -/
theorem commit_taken {taken : FailureMode} {conversation : Input}
    (known : ∀ mode remaining, tokens.written mode = some (client, remaining) →
      Knows (.consumed conversation (some taken) : Phase Input Answer) mode
        (tokens.committed mode) remaining)
    (wrote : ∃ remaining, tokens.written taken = some (client, remaining)) :
    (commandOn tokens client mode (.consumed conversation (some taken) : Phase Input Answer)
      .commit).Leads (tokens.committed mode) (tokens.view client mode) := by
  by_cases same : taken = mode
  · subst same
    obtain ⟨remaining, wrote⟩ := wrote
    obtain ⟨_, committed, nonnegative⟩ := known taken remaining wrote
    rw [commandOn, if_pos rfl, Versions.view_own wrote, committed]
    refine ⟨⟨remaining + 1, rfl, Int.lt_add_one_of_le nonnegative⟩, ?_⟩
    rw [Counter.Command.apply, Option.map_some, Int.add_sub_cancel]
  · apply commit_unwritten (if_neg same)
    intro remaining wrote
    exact same (known mode remaining wrote).1

/-- The commit of `arm` replaces the count of its own mode. -/
theorem commit_armed {armed : FailureMode} {count : Int}
    (known : ∀ mode remaining, tokens.written mode = some (client, remaining) →
      Knows (.armed armed count : Phase Input Answer) mode (tokens.committed mode) remaining)
    (wrote : ∃ remaining, tokens.written armed = some (client, remaining)) :
    (commandOn tokens client mode (.armed armed count : Phase Input Answer) .commit).Leads
      (tokens.committed mode) (tokens.view client mode) := by
  by_cases same : armed = mode
  · subst same
    obtain ⟨remaining, wrote⟩ := wrote
    obtain ⟨_, rfl, nonnegative⟩ := known armed remaining wrote
    rw [commandOn, if_pos rfl, Versions.view_own wrote]
    exact ⟨nonnegative, rfl⟩
  · apply commit_unwritten (if_neg same)
    intro remaining wrote
    exact same (known mode remaining wrote).1

/-- The commit of `clear` sets the rows to zero that it has seen. -/
theorem commit_cleared {modes : List FailureMode}
    (known : ∀ mode remaining, tokens.written mode = some (client, remaining) →
      Knows (.clearing modes : Phase Input Answer) mode (tokens.committed mode) remaining) :
    (commandOn tokens client mode (.clearing modes : Phase Input Answer) .commit).Leads
      (tokens.committed mode) (tokens.view client mode) := by
  by_cases wrote : ∃ remaining, tokens.written mode = some (client, remaining)
  · obtain ⟨remaining, wrote⟩ := wrote
    have zero : remaining = 0 := known mode remaining wrote
    have own : (tokens.written mode).any (fun version => decide (version.1 = client)) = true := by
      rw [wrote]
      simp
    rw [commandOn, if_pos own, Versions.view_own wrote, zero]
    exact ⟨le_rfl, rfl⟩
  · have unwritten : ∀ remaining, tokens.written mode ≠ some (client, remaining) :=
      fun remaining own => wrote ⟨remaining, own⟩
    refine commit_unwritten (if_neg ?_) unwritten
    rw [Option.any_eq_true]
    rintro ⟨⟨owner, remaining⟩, found, own⟩
    obtain rfl : owner = client := of_decide_eq_true own
    exact unwritten remaining found

/-- A step of a client changes the committed count of a mode as its command says. -/
theorem Move.refines (move : Move explanation tokens client phase call next after)
    (known : ∀ mode remaining, tokens.written mode = some (client, remaining) →
      Knows phase mode (tokens.committed mode) remaining)
    (owned : ∀ mode, phase.owned = some mode →
      ∃ remaining, tokens.written mode = some (client, remaining)) (mode : FailureMode) :
    (commandOn tokens client mode phase call).Leads (tokens.committed mode)
      (next.committed mode) := by
  have kept (uncommitted : call ≠ .commit) (same : next.committed = tokens.committed) :
      (commandOn tokens client mode phase call).Leads (tokens.committed mode)
        (next.committed mode) := by
    rw [commandOn_keep uncommitted, same]
    exact Counter.Command.leads_keep
  cases move with
  | committedNone => exact commit_unwritten rfl fun _ wrote => known _ _ wrote
  | committedTaken => exact commit_taken known (owned _ rfl)
  | armCommitted => exact commit_armed known (owned _ rfl)
  | clearCommitted => exact commit_cleared known
  | took _ _ wrote | armed _ wrote | cleared _ wrote =>
      exact kept nofun (Versions.write_eq wrote).2.1
  | _ => exact kept nofun rfl

/-- A transition reads the phase of its own client. -/
abbrev phaseOf (taken : System.Taken (State Input Answer) (Action Input Answer)) :
    Phase Input Answer :=
  taken.before.phases taken.action.client

/-- The mode whose token a score call consumes with the commit in a transition. -/
def consumptionOf : Mark (System.Taken (State Input Answer) (Action Input Answer)) FailureMode :=
  fun taken =>
    match phaseOf taken, taken.action.call with
    | .consumed _ mode, .commit => mode
    | _, _ => none

/-- The mode and the count of the `arm` that commits in a transition. -/
def armOf (taken : System.Taken (State Input Answer) (Action Input Answer)) :
    Option (FailureMode × Int) :=
  match phaseOf taken, taken.action.call with
  | .armed mode count, .commit => some (mode, count)
  | _, _ => none

/-- A `clear` commits in the transition. -/
def clears (taken : System.Taken (State Input Answer) (Action Input Answer)) : Bool :=
  match phaseOf taken, taken.action.call with
  | .clearing _, .commit => true
  | _, _ => false

/-- What a transition does to the counter of a mode. -/
def commandOf (mode : FailureMode)
    (taken : System.Taken (State Input Answer) (Action Input Answer)) : Counter.Command :=
  commandOn taken.before.tokens taken.action.client mode (phaseOf taken) taken.action.call

section Commands
variable {taken : System.Taken (State Input Answer) (Action Input Answer)}
  {history : History Input Answer} {count : Int}

/-- The counter of a mode is taken from exactly when a consumption of the mode commits. -/
theorem commandOf_take : commandOf mode taken = .take ↔ consumptionOf taken = some mode := by
  unfold commandOf commandOn consumptionOf
  generalize phaseOf taken = phase
  generalize taken.action.call = call
  cases phase with
  | consumed conversation found =>
      cases call <;> cases found <;> simp
  | armed | clearing =>
      cases call <;> simp
      split <;> simp
  | _ => cases call <;> simp

theorem commandOf_armed (armed : armOf taken = some (mode, count)) :
    commandOf mode taken = .set count := by
  unfold armOf at armed
  split at armed
  · rename_i phase committed
    cases armed
    unfold commandOf
    rw [phase, committed]
    exact if_pos rfl
  · cases armed

/-- Nothing but `arm` and `clear` replaces the count of a mode. -/
theorem commandOf_set (replaced : commandOf mode taken = .set count) :
    armOf taken = some (mode, count) ∨ clears taken = true := by
  unfold commandOf commandOn at replaced
  unfold armOf clears
  generalize phaseOf taken = phase at replaced ⊢
  generalize taken.action.call = call at replaced ⊢
  split at replaced
  · split at replaced <;> cases replaced
  · split at replaced
    · rename_i same
      cases replaced
      exact .inl (by rw [same])
    · cases replaced
  · exact .inr rfl
  · cases replaced

/-- The history counts the tokens that its commands take. -/
theorem tally_consumptions :
    consumptionOf.tally history mode = (history.map (commandOf mode)).count .take := by
  induction history with
  | nil => rfl
  | cons taken earlier ih =>
      rw [Mark.tally_cons, List.map_cons, List.count_cons, ih, Mark.unit]
      congr 1
      by_cases consumed : consumptionOf taken = some mode
      · rw [if_pos consumed, commandOf_take.mpr consumed]
        rfl
      · have other : commandOf mode taken ≠ .take := fun same => consumed (commandOf_take.mp same)
        rw [if_neg consumed, if_neg (by simpa using other)]

end Commands

/-- The counters of a run are legal, and the committed rows hold their values. -/
def Counted (history : History Input Answer) (state : State Input Answer) : Prop :=
  ∀ mode, Counter.Legal (history.map (commandOf mode)) ∧
    state.tokens.committed mode = Counter.value (history.map (commandOf mode))

theorem counted_step {history : History Input Answer} (locked : Locked state)
    (counted : Counted history state) (step : Step explanation state action later) :
    Counted (⟨state, action, later⟩ :: history) later := by
  intro mode
  obtain ⟨legal, value⟩ := counted mode
  have leads := step.move.refines
    (fun mode remaining wrote => locked.guarded mode action.client remaining wrote)
    (locked.owned action.client) mode
  rw [value] at leads
  exact Counter.legal_cons legal leads

/-- In every run the committed rows are the counters of their modes. -/
theorem run_counted
    {allowed : System.Condition (History Input Answer × State Input Answer) (Action Input Answer)}
    {run : History Input Answer × State Input Answer}
    (reached : (system explanation).recorded.Reached allowed run) : Counted run.1 run.2 := by
  refine reached.historyInvariant ?_ ?_
  · rintro _ rfl mode
    exact ⟨trivial, rfl⟩
  · intro history before action after earlier counted stepped _
    exact counted_step (run_locked earlier) counted (step_cases stepped)

/-- A committed `arm` or `clear` may replace the count of a mode. -/
def Replaces (mode : FailureMode)
    (taken : System.Taken (State Input Answer) (Action Input Answer)) : Prop :=
  (∃ count, armOf taken = some (mode, count)) ∨ clears taken = true

/-- Since its last `arm`, the tokens of a mode are consumed or they remain. -/
theorem consumed_since_armed
    {allowed : System.Condition (History Input Answer × State Input Answer) (Action Input Answer)}
    {run : History Input Answer × State Input Answer}
    (reached : (system explanation).recorded.Reached allowed run)
    {since earlier : History Input Answer}
    {taken : System.Taken (State Input Answer) (Action Input Answer)} {count : Int}
    (split : run.1 = since ++ taken :: earlier) (armed : armOf taken = some (mode, count))
    (kept : ∀ other ∈ since, ¬ Replaces mode other) :
    (consumptionOf.tally since mode : Int) =
        count - Demo.state run.2.tokens.committed mode ∧
      (consumptionOf.tally since mode : Int) ≤ count := by
  obtain ⟨legal, value⟩ := run_counted reached mode
  rw [split, List.map_append, List.map_cons, commandOf_armed armed] at legal value
  have unset : ∀ other, Counter.Command.set other ∉ since.map (commandOf mode) := by
    intro other member
    obtain ⟨event, present, command⟩ := List.mem_map.mp member
    refine kept event present ?_
    rcases commandOf_set command with rearmed | cleared
    · exact .inl ⟨other, rearmed⟩
    · exact .inr cleared
  rw [Counter.value_since_set unset] at value
  rw [tally_consumptions, Demo.state, value, Option.getD_some]
  exact ⟨by omega, Counter.taken_le legal unset⟩

end ConvoScore.Demo
