import ConvoScore.Library.System
import ConvoScore.Library.Tally
import ConvoScore.Library.Timed
import Mathlib.Logic.Function.Basic

namespace ConvoScore.Gauges
open Library

/-- A worker shows the queue that it reads and the one where messages are given up. -/
inductive QueueLabel
  | main
  | dlq
  deriving DecidableEq

inductive MessageState
  | visible
  | inFlight
  deriving DecidableEq

/-- These are the counts that `attributes` returns. -/
structure Counts where
  visible : Nat
  inFlight : Nat
  deriving DecidableEq

/-- The metrics server runs each scrape in a thread. -/
abbrev ThreadId := Nat

/-- The counts that a scrape has put into its result, in the order of the loop. -/
abbrev Result := List (QueueLabel × Counts)

/-- A scrape is in one of the places of `depths`, or `collect` has shown or dropped the family. -/
inductive Scrape
  | idle
  | looking (label : QueueLabel) (result : Result)
  | testing (label : QueueLabel) (cached : Option (Timed Counts)) (result : Result)
  | probing (label : QueueLabel) (result : Result)
  | stamping (label : QueueLabel) (counts : Counts) (result : Result)
  | storing (label : QueueLabel) (entry : Timed Counts) (result : Result)
  | shown (result : Result)
  | dropped
  deriving DecidableEq

/-- The attributes of a queue are cached for ten seconds. -/
def lifetime : Rat := 10

/-- All threads of a worker share its cache; the queues change as they like. -/
structure State where
  clock : Rat
  depths : QueueLabel → Counts
  cache : QueueLabel → Option (Timed Counts)
  scrapes : ThreadId → Scrape

/-- Each call is one step of a scrape; `attributes` answers or raises. -/
inductive Call
  | scrape
  | look
  | test
  | answer
  | fail
  | stamp
  | store
  deriving DecidableEq

inductive Action
  | elapse (seconds : Rat)
  | change (label : QueueLabel) (counts : Counts)
  | call (id : ThreadId) (call : Call)
  deriving DecidableEq

/-- The loop goes on with the dead-letter queue, and ends after it. -/
def collected (label : QueueLabel) (counts : Counts) (result : Result) : Scrape :=
  match label with
  | .main => .looking .dlq (result ++ [(.main, counts)])
  | .dlq => .shown (result ++ [(.dlq, counts)])

/-- A thread may scrape again after its scrape has ended. -/
def stepScrape (state : State) : Scrape → Call → Option Scrape
  | .idle, .scrape | .shown _, .scrape | .dropped, .scrape => some (.looking .main [])
  | .looking label result, .look => some (.testing label (state.cache label) result)
  | .testing label cached result, .test =>
      match Timed.fresh lifetime state.clock cached with
      | some counts => some (collected label counts result)
      | none => some (.probing label result)
  | .probing label result, .answer => some (.stamping label (state.depths label) result)
  | .probing _ _, .fail => some .dropped
  | .stamping label counts result, .stamp => some (.storing label ⟨state.clock, counts⟩ result)
  | .storing label entry result, .store => some (collected label entry.value result)
  | _, _ => none

/-- What a step puts into the cache. -/
def stored : Scrape → Call → Option (QueueLabel × Timed Counts)
  | .storing label entry _, .store => some (label, entry)
  | _, _ => none

/-- The cache after a step of a scrape. -/
def keep (cache : QueueLabel → Option (Timed Counts)) :
    Option (QueueLabel × Timed Counts) → QueueLabel → Option (Timed Counts)
  | none => cache
  | some (label, entry) => Function.update cache label (some entry)

/-- The clock does not go backwards. -/
def step (state : State) : Action → Option State
  | .elapse seconds =>
      if 0 ≤ seconds then some {state with clock := state.clock + seconds} else none
  | .change label counts =>
      some {state with depths := Function.update state.depths label counts}
  | .call id call =>
      (stepScrape state (state.scrapes id) call).map fun scrape => {state with
        cache := keep state.cache (stored (state.scrapes id) call)
        scrapes := Function.update state.scrapes id scrape}

/-- A process starts with an empty cache. -/
def initial (clock : Rat) (depths : QueueLabel → Counts) : State :=
  ⟨clock, depths, fun _ => none, fun _ => .idle⟩

def system : System State Action where
  start state := ∃ clock depths, state = initial clock depths
  step := step

/-- The samples of an ended scrape; a callback that raised shows none. -/
def Scrape.samples : Scrape → Option (List ((QueueLabel × MessageState) × Nat))
  | .shown result => some (result.flatMap fun (label, counts) =>
      [((label, .visible), counts.visible), ((label, .inFlight), counts.inFlight)])
  | .dropped => some []
  | _ => none

/-- The thread whose step read the counts of a queue. -/
def answersOf (label : QueueLabel) : Mark (System.Taken State Action) ThreadId := fun taken =>
  match taken.action with
  | .call id .answer =>
      match taken.before.scrapes id with
      | .probing probed _ => if probed = label then some id else none
      | _ => none
  | _ => none

/-- The thread whose step read the clock for the counts of a queue. -/
def stampsOf (label : QueueLabel) : Mark (System.Taken State Action) ThreadId := fun taken =>
  match taken.action with
  | .call id .stamp =>
      match taken.before.scrapes id with
      | .stamping probed _ _ => if probed = label then some id else none
      | _ => none
  | _ => none

abbrev History := List (System.Taken State Action)

/-- One probe of a queue has read these counts off it and then this stamp off the clock; its thread
has done nothing else in between. -/
def Observed (history : History) (label : QueueLabel) (entry : Timed Counts) : Prop :=
  ∃ id answer stamped between, stamped :: (between ++ [answer]) <:+: history ∧
    (∀ taken ∈ between, ∀ call, taken.action ≠ .call id call) ∧
    answersOf label answer = some id ∧ stampsOf label stamped = some id ∧
    answer.before.depths label = entry.value ∧ stamped.before.clock = entry.stamp

/-- A scrape may show an entry that was younger than its lifetime when the scrape began. -/
def Recent (history : History) (id : ThreadId) (entry : Timed Counts) : Prop :=
  ∀ taken ∈ history, taken.action = .call id .scrape → taken.before.clock < entry.stamp + lifetime

/-- The result of a scrape has these labels, with counts that were observed recently. -/
def Collected (history : History) (id : ThreadId) (labels : List QueueLabel) (result : Result) :
    Prop :=
  result.map Prod.fst = labels ∧ ∀ pair ∈ result, ∃ entry : Timed Counts,
    entry.value = pair.2 ∧ Observed history pair.1 entry ∧ Recent history id entry

/-- The labels that come before one in the loop. -/
def QueueLabel.earlier : QueueLabel → List QueueLabel
  | .main => []
  | .dlq => [.main]

/-- Where a scrape is agrees with what its thread has done. -/
def Sound (history : History) (id : ThreadId) : Scrape → Prop
  | .idle | .dropped => True
  | .looking label result | .probing label result => Collected history id label.earlier result
  | .testing label cached result => Collected history id label.earlier result ∧
      ∀ entry, cached = some entry → Observed history label entry
  | .stamping label counts result => Collected history id label.earlier result ∧
      ∃ answer between, between ++ [answer] <+: history ∧
        (∀ taken ∈ between, ∀ call, taken.action ≠ .call id call) ∧
        answersOf label answer = some id ∧ answer.before.depths label = counts
  | .storing label entry result => Collected history id label.earlier result ∧
      Observed history label entry ∧ Recent history id entry
  | .shown result => Collected history id [.main, .dlq] result

/-- What a worker has cached and collected was on its queues, and its clock does not go back. -/
structure Honest (history : History) (state : State) : Prop where
  past : ∀ taken ∈ history, taken.before.clock ≤ state.clock
  cached : ∀ label entry, state.cache label = some entry → Observed history label entry
  scrapes : ∀ id, Sound history id (state.scrapes id)

variable {history : History} {state next : State} {taken : System.Taken State Action}
  {action : Action} {call : Call} {id : ThreadId} {label : QueueLabel} {labels : List QueueLabel}
  {entry : Timed Counts} {counts : Counts} {result : Result} {scrape : Scrape}

theorem Observed.cons (observed : Observed history label entry) :
    Observed (taken :: history) label entry := by
  obtain ⟨id, answer, stamped, between, order, rest⟩ := observed
  exact ⟨id, answer, stamped, between, List.infix_cons order, rest⟩

/-- Only the begin of a new scrape asks for younger entries. -/
theorem Recent.cons (recent : Recent history id entry) (goesOn : taken.action ≠ .call id .scrape) :
    Recent (taken :: history) id entry := by
  intro begun member begins
  rcases List.mem_cons.mp member with rfl | earlier
  · exact absurd begins goesOn
  · exact recent begun earlier begins

theorem Collected.cons (collected : Collected history id labels result)
    (goesOn : taken.action ≠ .call id .scrape) : Collected (taken :: history) id labels result := by
  refine ⟨collected.1, fun pair member => ?_⟩
  obtain ⟨entry, same, observed, recent⟩ := collected.2 pair member
  exact ⟨entry, same, observed.cons, recent.cons goesOn⟩

/-- The steps of the others keep a scrape sound. -/
theorem Sound.cons (sound : Sound history id scrape) (other : ∀ call, taken.action ≠ .call id call) :
    Sound (taken :: history) id scrape := by
  have goesOn := other .scrape
  cases scrape with
  | idle | dropped => trivial
  | looking label result | probing label result | shown result =>
      exact Collected.cons sound goesOn
  | testing label cached result =>
      exact ⟨sound.1.cons goesOn, fun entry same => (sound.2 entry same).cons⟩
  | stamping label counts result =>
      obtain ⟨collected, answer, between, latest, quiet, answered⟩ := sound
      exact ⟨collected.cons goesOn, answer, taken :: between, List.prefix_cons_inj taken |>.mpr latest,
        List.forall_mem_cons.mpr ⟨other, quiet⟩, answered⟩
  | storing label entry result =>
      exact ⟨sound.1.cons goesOn, sound.2.1.cons, sound.2.2.cons goesOn⟩

/-- The counts of a label are added to those of the labels before it. -/
theorem sound_collected (before : Collected history id label.earlier result)
    (observed : Observed history label entry) (recent : Recent history id entry) :
    Sound history id (collected label entry.value result) := by
  have added : Collected history id (label.earlier ++ [label]) (result ++ [(label, entry.value)]) := by
    refine ⟨by rw [List.map_append, before.1, List.map_singleton], fun pair member => ?_⟩
    rcases List.mem_append.mp member with earlier | last
    · exact before.2 pair earlier
    · obtain rfl := List.mem_singleton.mp last
      exact ⟨entry, rfl, observed, recent⟩
  cases label with
  | main => exact added
  | dlq => exact added

/-- A step of a scrape keeps it sound. -/
theorem sound_step (honest : Honest history state)
    (stepped : stepScrape state (state.scrapes id) call = some scrape) :
    Sound (⟨state, .call id call, next⟩ :: history) id scrape := by
  have sound := honest.scrapes id
  unfold stepScrape at stepped
  split at stepped
  · cases stepped
    exact ⟨rfl, nofun⟩
  · cases stepped
    exact ⟨rfl, nofun⟩
  · cases stepped
    exact ⟨rfl, nofun⟩
  · rename_i label result phase
    cases stepped
    rw [phase] at sound
    refine ⟨Collected.cons sound (by simp), fun entry same => (honest.cached label entry same).cons⟩
  · rename_i label cached result phase
    rw [phase] at sound
    have collected : Collected (⟨state, .call id .test, next⟩ :: history) id label.earlier result :=
      sound.1.cons (by simp)
    split at stepped
    · rename_i counts used
      cases stepped
      obtain ⟨entry, same, rfl, young⟩ := Timed.fresh_some used
      refine sound_collected collected (sound.2 entry same).cons ?_
      have recent : Recent history id entry := fun begun member _ =>
        lt_of_le_of_lt (honest.past begun member) young
      exact recent.cons (by simp)
    · cases stepped
      exact collected
  · rename_i label result phase
    cases stepped
    rw [phase] at sound
    refine ⟨Collected.cons sound (by simp), _, [], ⟨history, rfl⟩, nofun, ?_, rfl⟩
    simp [answersOf, phase]
  · cases stepped
    trivial
  · rename_i label counts result phase
    cases stepped
    rw [phase] at sound
    obtain ⟨collected, answer, between, latest, quiet, answered, same⟩ := sound
    refine ⟨collected.cons (by simp),
      ⟨id, answer, ⟨state, .call id .stamp, next⟩, between, ?_, quiet, answered, ?_, same, rfl⟩, ?_⟩
    · exact ((List.prefix_cons_inj _).mpr latest).isInfix
    · simp [stampsOf, phase]
    · have recent : Recent history id ⟨state.clock, counts⟩ := fun begun member _ =>
        lt_of_le_of_lt (honest.past begun member) (by norm_num [lifetime])
      exact recent.cons (by simp)
  · rename_i label entry result phase
    cases stepped
    rw [phase] at sound
    exact sound_collected (sound.1.cons (by simp)) sound.2.1.cons (sound.2.2.cons (by simp))
  · cases stepped

/-- A step changes the time or the queues, or it is a step of one scrape. -/
theorem step_cases (stepped : step state action = some next) :
    (∃ seconds, action = .elapse seconds ∧ 0 ≤ seconds ∧
      next = {state with clock := state.clock + seconds}) ∨
    (∃ label counts, action = .change label counts ∧
      next = {state with depths := Function.update state.depths label counts}) ∨
    ∃ id call scrape, action = .call id call ∧
      stepScrape state (state.scrapes id) call = some scrape ∧
      next = {state with
        cache := keep state.cache (stored (state.scrapes id) call)
        scrapes := Function.update state.scrapes id scrape} := by
  cases action with
  | elapse seconds =>
      simp only [step] at stepped
      split at stepped
      · rename_i forward
        exact .inl ⟨seconds, rfl, forward, (Option.some.inj stepped).symm⟩
      · cases stepped
  | change label counts => exact .inr (.inl ⟨label, counts, rfl, (Option.some.inj stepped).symm⟩)
  | call id call =>
      simp only [step, Option.map_eq_some_iff] at stepped
      obtain ⟨scrape, moved, rfl⟩ := stepped
      exact .inr (.inr ⟨id, call, scrape, rfl, moved, rfl⟩)

/-- What is stored was observed by its thread. -/
theorem stored_observed (honest : Honest history state)
    (found : stored (state.scrapes id) call = some (label, entry)) :
    Observed history label entry := by
  have sound := honest.scrapes id
  unfold stored at found
  split at found
  · rename_i phase
    cases found
    rw [phase] at sound
    exact sound.2.1
  · cases found

theorem honest_step (honest : Honest history state) (stepped : step state action = some next) :
    Honest (⟨state, action, next⟩ :: history) next := by
  rcases step_cases stepped with ⟨seconds, rfl, forward, rfl⟩ | ⟨label, counts, rfl, rfl⟩ |
    ⟨id, call, scrape, rfl, moved, rfl⟩
  · refine ⟨?_, fun label entry same => (honest.cached label entry same).cons,
      fun id => (honest.scrapes id).cons nofun⟩
    intro begun member
    have later : state.clock ≤ state.clock + seconds := le_add_of_nonneg_right forward
    rcases List.mem_cons.mp member with rfl | earlier
    · exact later
    · exact (honest.past begun earlier).trans later
  · refine ⟨?_, fun label entry same => (honest.cached label entry same).cons,
      fun id => (honest.scrapes id).cons nofun⟩
    exact List.forall_mem_cons.mpr ⟨le_refl _, honest.past⟩
  · refine ⟨List.forall_mem_cons.mpr ⟨le_refl _, honest.past⟩, ?_, ?_⟩
    · intro label entry same
      cases found : stored (state.scrapes id) call with
      | none =>
          rw [found] at same
          exact (honest.cached label entry same).cons
      | some pair =>
          obtain ⟨kept, fresh⟩ := pair
          rw [found] at same
          by_cases here : label = kept
          · subst here
            obtain rfl : fresh = entry := by simpa [keep] using same
            exact (stored_observed honest found).cons
          · refine (honest.cached label entry ?_).cons
            simpa [keep, Function.update_of_ne here] using same
    · intro other
      by_cases acts : other = id
      · subst acts
        dsimp only
        rw [Function.update_self]
        exact sound_step honest moved
      · dsimp only
        rw [Function.update_of_ne acts]
        refine (honest.scrapes other).cons fun call steps => ?_
        exact acts (Action.call.inj steps).1.symm

theorem reached_honest {run : History × State}
    (reached : system.recorded.Reached System.anyStep run) : Honest run.1 run.2 := by
  refine reached.historyInvariant ?_ ?_
  · rintro origin ⟨clock, depths, rfl⟩
    exact ⟨nofun, nofun, fun _ => trivial⟩
  · intro history before action after _ honest stepped _
    exact honest_step honest stepped

/-- A scrape shows nothing, or for both queues what a probe has read off the queue that ended less
than ten seconds before the scrape began, or later. -/
theorem depths_fresh {run : History × State} {samples : List ((QueueLabel × MessageState) × Nat)}
    (reached : system.recorded.Reached System.anyStep run)
    (ended : (run.2.scrapes id).samples = some samples) :
    samples = [] ∨ ∃ entries : QueueLabel → Timed Counts,
      samples = [((.main, .visible), (entries .main).value.visible),
        ((.main, .inFlight), (entries .main).value.inFlight),
        ((.dlq, .visible), (entries .dlq).value.visible),
        ((.dlq, .inFlight), (entries .dlq).value.inFlight)] ∧
      ∀ label, Observed run.1 label (entries label) ∧ Recent run.1 id (entries label) := by
  have sound := (reached_honest reached).scrapes id
  unfold Scrape.samples at ended
  split at ended
  · rename_i result phase
    rw [phase] at sound
    cases ended
    obtain ⟨labels, backed⟩ := sound
    match result, labels with
    | [(.main, main), (.dlq, dlq)], _ =>
        obtain ⟨first, rfl, ofMain⟩ := backed (.main, main) List.mem_cons_self
        obtain ⟨second, rfl, ofDlq⟩ := backed (.dlq, dlq) (List.mem_cons_of_mem _ List.mem_cons_self)
        refine .inr ⟨fun label => QueueLabel.rec first second label, rfl, fun label => ?_⟩
        cases label with
        | main => exact ofMain
        | dlq => exact ofDlq
  · cases ended
    exact .inl rfl
  · cases ended

/-- The calls of a scrape that probes a queue. -/
def probe (id : ThreadId) : List Action :=
  [.call id .look, .call id .test, .call id .answer, .call id .stamp, .call id .store]

/-- The first thread probes both queues; four seconds later the second one uses its counts. -/
def cachedSchedule : List Action :=
  [.change .main ⟨3, 1⟩, .call 0 .scrape] ++ probe 0 ++ probe 0 ++
    [.change .main ⟨9, 0⟩, .elapse 4, .call 1 .scrape, .call 1 .look, .call 1 .test, .call 1 .look,
      .call 1 .test]

/-- The second thread shows the counts of the first one although the queue has changed. -/
theorem depths_fresh_cached : ∃ run : History × State,
    system.recorded.Reached System.anyStep run ∧ run.2.depths .main = ⟨9, 0⟩ ∧
    ∃ entry, entry.value.visible = 3 ∧ Observed run.1 .main entry ∧ Recent run.1 1 entry := by
  let first := initial 0 fun _ => ⟨0, 0⟩
  let shown : List ((QueueLabel × MessageState) × Nat) :=
    [((.main, .visible), 3), ((.main, .inFlight), 1), ((.dlq, .visible), 0), ((.dlq, .inFlight), 0)]
  have ran : (system.recorded.run ([], first) cachedSchedule).map
      (fun run => (run.2.depths .main, (run.2.scrapes 1).samples)) = some (⟨9, 0⟩, some shown) := by
    decide +kernel
  obtain ⟨run, path, seen⟩ := System.run_observed System.anyStep ran fun _ _ _ _ => trivial
  obtain ⟨depth, ended⟩ := Prod.mk.inj seen
  have reached : system.recorded.Reached System.anyStep run := ⟨_, ⟨rfl, ⟨0, _, rfl⟩⟩, path⟩
  rcases depths_fresh reached ended with none | ⟨entries, samples, honest⟩
  · exact absurd none (List.cons_ne_nil _ _)
  · have visible : 3 = (entries .main).value.visible := by
      have head := congrArg List.head? samples
      exact congrArg Prod.snd (Option.some.inj head)
    exact ⟨run, reached, depth, entries .main, visible.symm, honest .main⟩

end ConvoScore.Gauges
