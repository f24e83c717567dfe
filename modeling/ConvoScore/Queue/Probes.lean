import ConvoScore.Queue.Gauges
import Mathlib.Algebra.BigOperators.Ring.Finset
import Mathlib.Algebra.Order.BigOperators.Group.Finset

namespace ConvoScore.Gauges
open Library

/-- The thread whose step stored the counts of a queue. -/
def storesOf (label : QueueLabel) : Mark (System.Taken State Action) ThreadId := fun taken =>
  match taken.action with
  | .call id call => (stored (taken.before.scrapes id) call).bind fun found =>
      if found.1 = label then some id else none
  | _ => none

/-- An older entry replaces a newer one when its thread was slow to store it. -/
def lateOf (label : QueueLabel) : Mark (System.Taken State Action) ThreadId := fun taken =>
  match taken.action with
  | .call id call => (stored (taken.before.scrapes id) call).bind fun found =>
      if found.1 = label ∧ (taken.before.cache label).any fun entry => found.2.stamp < entry.stamp
      then some id else none
  | _ => none

/-- A scrape that will store the counts of a label has waited for the lifetime of the entry. -/
def Held (start : Rat) (label : QueueLabel) (delayed count : Nat) (clock : Rat) : Scrape → Prop
  | .idle => count = 0
  | .looking _ _ | .shown _ | .dropped => True
  | .testing probed cached _ =>
      probed = label → Timed.Paced lifetime start delayed count clock cached
  | .probing probed _ | .stamping probed _ _ =>
      probed = label → lifetime * count ≤ lifetime * delayed + (clock - start)
  | .storing probed entry _ => entry.stamp ≤ clock ∧
      (probed = label → lifetime * count ≤ lifetime * delayed + (entry.stamp - start))

/-- Every thread keeps to the pace that the lifetime of the entry sets. -/
structure Regular (start : Rat) (label : QueueLabel) (history : History) (state : State) :
    Prop where
  begun : start ≤ state.clock
  past : Timed.Past state.clock (state.cache label)
  cached : ∀ id, Timed.Paced lifetime start ((lateOf label).total history)
    ((storesOf label).tally history id) state.clock (state.cache label)
  held : ∀ id, Held start label ((lateOf label).total history)
    ((storesOf label).tally history id) state.clock (state.scrapes id)

variable {history : History} {state next : State} {taken : System.Taken State Action}
  {action : Action} {call : Call} {id : ThreadId} {label : QueueLabel} {entry : Timed Counts}
  {counts : Counts} {result : Result} {scrape : Scrape} {start clock later : Rat}
  {delayed further count : Nat}

theorem lifetime_nonneg : (0 : Rat) ≤ lifetime := by
  norm_num [lifetime]

theorem Held.mono (held : Held start label delayed count clock scrape) (ordered : clock ≤ later)
    (atLeast : delayed ≤ further) : Held start label further count later scrape := by
  have room : lifetime * (delayed : Rat) ≤ lifetime * further :=
    mul_le_mul_of_nonneg_left (Nat.cast_le.mpr atLeast) lifetime_nonneg
  cases scrape with
  | idle => exact held
  | looking label result | shown result | dropped => trivial
  | testing probed cached result =>
      exact fun same => ((held same).mono ordered).more lifetime_nonneg atLeast
  | probing probed result | stamping probed counts result =>
      intro same
      have spaced := held same
      linarith
  | storing probed entry result =>
      refine ⟨held.1.trans ordered, fun same => ?_⟩
      have spaced := held.2 same
      linarith

theorem held_collected {probed : QueueLabel} :
    Held start label delayed count clock (collected probed counts result) := by
  cases probed <;> trivial

/-- A step that does not store the counts of the label leaves its thread at the pace. -/
theorem held_step
    (cached : Timed.Paced lifetime start delayed count state.clock (state.cache label))
    (held : Held start label delayed count state.clock scrape) {after : Scrape}
    (stepped : stepScrape state scrape call = some after) :
    Held start label delayed count state.clock after := by
  unfold stepScrape at stepped
  split at stepped
  · cases stepped
    trivial
  · cases stepped
    trivial
  · cases stepped
    trivial
  · cases stepped
    rintro rfl
    exact cached
  · split at stepped
    · cases stepped
      exact held_collected
    · rename_i unused
      cases stepped
      exact fun same => (held same).stale unused
  · cases stepped
    exact held
  · cases stepped
    trivial
  · cases stepped
    exact ⟨le_refl _, held⟩
  · cases stepped
    exact held_collected
  · cases stepped

theorem storesOf_call :
    storesOf label ⟨state, .call id call, next⟩ = (stored (state.scrapes id) call).bind fun found =>
      if found.1 = label then some id else none := rfl

theorem lateOf_call :
    lateOf label ⟨state, .call id call, next⟩ = (stored (state.scrapes id) call).bind fun found =>
      if found.1 = label ∧ (state.cache label).any fun entry => found.2.stamp < entry.stamp
      then some id else none := rfl

/-- A step that stores nothing for the label leaves the counts as they are. -/
theorem counts_keep (history : History) (unstored : storesOf label taken = none) (onTime : lateOf label taken = none) :
    (lateOf label).total (taken :: history) = (lateOf label).total history ∧
      ∀ id, (storesOf label).tally (taken :: history) id = (storesOf label).tally history id := by
  refine ⟨Mark.total_cons_none onTime, fun id => ?_⟩
  rw [Mark.tally_cons, Mark.unit_none unstored, Nat.add_zero]

/-- A step of a scrape that stores nothing for the label does not count and keeps the entry. -/
theorem keep_unstored (other : ∀ entry, stored (state.scrapes id) call ≠ some (label, entry)) :
    storesOf label ⟨state, .call id call, next⟩ = none ∧
      lateOf label ⟨state, .call id call, next⟩ = none ∧
      keep state.cache (stored (state.scrapes id) call) label = state.cache label := by
  rw [storesOf_call, lateOf_call]
  cases found : stored (state.scrapes id) call with
  | none => exact ⟨rfl, rfl, rfl⟩
  | some pair =>
      obtain ⟨kept, entry⟩ := pair
      have different : kept ≠ label := by
        rintro rfl
        exact other entry found
      refine ⟨?_, ?_, Function.update_of_ne different.symm _ _⟩
      · rw [Option.bind_some, if_neg different]
      · rw [Option.bind_some, if_neg fun late => different late.1]

theorem stored_cases {found : QueueLabel × Timed Counts}
    (same : stored scrape call = some found) :
    call = .store ∧ ∃ result, scrape = .storing found.1 found.2 result := by
  unfold stored at same
  split at same
  · cases same
    exact ⟨rfl, _, rfl⟩
  · cases same

/-- The thread that stores an entry counts once more, and everyone keeps to the pace. -/
theorem regular_store (regular : Regular start label history state)
    (found : stored (state.scrapes id) call = some (label, entry))
    (stepped : stepScrape state (state.scrapes id) call = some scrape)
    (cache : next.cache label = some entry)
    (scrapes : next.scrapes = Function.update state.scrapes id scrape)
    (clock : next.clock = state.clock) :
    Regular start label (⟨state, .call id call, next⟩ :: history) next := by
  obtain ⟨rfl, result, phase⟩ := stored_cases found
  have stores : storesOf label ⟨state, .call id .store, next⟩ = some id := by
    rw [storesOf_call, found, Option.bind_some, if_pos rfl]
  have held := regular.held id
  rw [phase] at held stepped
  obtain ⟨past, spaced⟩ := held
  have paced := spaced rfl
  have next_scrape : scrape = collected label entry.value result := (Option.some.inj stepped).symm
  have atLeast : (lateOf label).total history ≤
      (lateOf label).total (⟨state, .call id .store, next⟩ :: history) := Mark.total_le_cons
  refine ⟨clock ▸ regular.begun, ?_, fun other => ?_, fun other => ?_⟩
  · intro kept same
    rw [cache] at same
    cases same
    exact clock ▸ past
  · rw [cache, clock, Mark.tally_cons]
    by_cases acts : id = other
    · subst acts
      rw [Mark.unit_self stores]
      exact (Timed.paced_renew paced).more lifetime_nonneg atLeast
    · have others : storesOf label ⟨state, .call id .store, next⟩ ≠ some other := by
        rw [stores]
        exact fun same => acts (Option.some.inj same)
      rw [Mark.unit_of_ne others, Nat.add_zero]
      by_cases late : (state.cache label).any fun old => entry.stamp < old.stamp
      · have marked : lateOf label ⟨state, .call id .store, next⟩ = some id := by
          rw [lateOf_call, found, Option.bind_some, if_pos ⟨rfl, late⟩]
        rw [Mark.total_cons_some marked]
        exact .inl ((regular.cached other).late regular.past lifetime_nonneg)
      · refine ((regular.cached other).newer ?_).more lifetime_nonneg atLeast
        intro old same
        rw [same] at late
        simpa using late
  · rw [scrapes, clock]
    by_cases acts : other = id
    · subst acts
      rw [Function.update_self, next_scrape]
      exact held_collected
    · have others : storesOf label ⟨state, .call id .store, next⟩ ≠ some other := by
        rw [stores]
        exact fun same => acts (Option.some.inj same).symm
      rw [Function.update_of_ne acts, Mark.tally_cons, Mark.unit_of_ne others, Nat.add_zero]
      exact (regular.held other).mono (le_refl _) atLeast

theorem regular_step (regular : Regular start label history state)
    (stepped : step state action = some next) :
    Regular start label (⟨state, action, next⟩ :: history) next := by
  rcases step_cases stepped with ⟨seconds, rfl, forward, rfl⟩ | ⟨changed, counts, rfl, rfl⟩ |
    ⟨id, call, scrape, rfl, moved, rfl⟩
  · have later : state.clock ≤ state.clock + seconds := le_add_of_nonneg_right forward
    have unstored : storesOf label
        ⟨state, .elapse seconds, {state with clock := state.clock + seconds}⟩ = none := rfl
    obtain ⟨late, tally⟩ := counts_keep history unstored rfl
    refine ⟨regular.begun.trans later, regular.past.mono later, fun id => ?_, fun id => ?_⟩
    · rw [late, tally]
      exact (regular.cached id).mono later
    · rw [late, tally]
      exact (regular.held id).mono later (Nat.le_refl _)
  · have unstored : storesOf label ⟨state, .change changed counts,
        {state with depths := Function.update state.depths changed counts}⟩ = none := rfl
    obtain ⟨late, tally⟩ := counts_keep history unstored rfl
    refine ⟨regular.begun, regular.past, fun id => ?_, fun id => ?_⟩
    · rw [late, tally]
      exact regular.cached id
    · rw [late, tally]
      exact regular.held id
  · by_cases stores : ∃ entry, stored (state.scrapes id) call = some (label, entry)
    · obtain ⟨entry, found⟩ := stores
      refine regular_store regular found moved ?_ rfl rfl
      rw [found]
      exact Function.update_self ..
    · have other : ∀ entry, stored (state.scrapes id) call ≠ some (label, entry) :=
        fun entry found => stores ⟨entry, found⟩
      obtain ⟨unstored, onTime, kept⟩ := keep_unstored other
      obtain ⟨late, tally⟩ := counts_keep history unstored onTime
      refine ⟨regular.begun, ?_, fun actor => ?_, fun actor => ?_⟩
      · dsimp only
        rw [kept]
        exact regular.past
      · rw [late, tally]
        dsimp only
        rw [kept]
        exact regular.cached actor
      · rw [late, tally]
        dsimp only
        by_cases acts : actor = id
        · subst acts
          rw [Function.update_self]
          exact held_step (regular.cached actor) (regular.held actor) moved
        · rw [Function.update_of_ne acts]
          exact regular.held actor

/-- The threads of a worker read each queue at most once and once more for every ten seconds,
and once more whenever a late entry has replaced a newer one. -/
theorem probes_bounded {depths : QueueLabel → Counts} {run : History × State}
    (path : system.recorded.Path System.anyStep ([], initial start depths) run)
    (threads : Finset ThreadId) (others : ∀ id, id ∉ threads → run.2.scrapes id = .idle)
    (label : QueueLabel) :
    lifetime * (storesOf label).total run.1 ≤
      threads.card * (lifetime * ((lateOf label).total run.1 + 1 : Nat) + (run.2.clock - start)) := by
  have regular : Regular start label run.1 run.2 := by
    refine path.keeps (motive := fun run => Regular start label run.1 run.2) ?_ ?_
    · exact ⟨le_refl _, nofun, fun _ => Timed.paced_zero lifetime_nonneg (le_refl _), fun _ => rfl⟩
    · rintro before action after regular stepped _
      obtain ⟨next, moved, rfl⟩ := System.recorded_next stepped
      exact regular_step regular moved
  have covered : (storesOf label).total run.1 = ∑ id ∈ threads, (storesOf label).tally run.1 id := by
    refine Mark.total_eq_sum fun id outside => ?_
    have held := regular.held id
    rw [others id outside] at held
    exact held
  have each : ∀ id ∈ threads, lifetime * ((storesOf label).tally run.1 id : Rat) ≤
      lifetime * ((lateOf label).total run.1 + 1 : Nat) + (run.2.clock - start) :=
    fun id _ => (regular.cached id).late regular.past lifetime_nonneg
  have summed := Finset.sum_le_card_nsmul threads _ _ each
  rw [covered, Nat.cast_sum, Finset.mul_sum]
  simpa only [nsmul_eq_mul] using summed

/-- The second thread is slow to store its older entry, and the first one probes again. -/
def lateSchedule : List Action :=
  [.call 0 .scrape, .call 1 .scrape, .call 0 .look, .call 1 .look, .call 0 .test, .call 1 .test,
    .call 1 .answer, .call 1 .stamp, .elapse 5, .call 0 .answer, .call 0 .stamp, .call 0 .store,
    .call 1 .store, .elapse 6, .call 0 .look, .call 0 .test, .call 0 .fail, .call 0 .scrape] ++ probe 0

/-- This step is not one of a thread beyond the second. -/
def Action.ofTwo : Action → Bool
  | .call id _ => decide (id < 2)
  | .elapse _ | .change _ _ => true

/-- The threads beyond the second stay idle. -/
theorem others_idle {first run : History × State}
    (path : system.recorded.Path (fun _ action _ => action.ofTwo = true) first run)
    (idle : ∀ id, 2 ≤ id → first.2.scrapes id = .idle) : ∀ id, 2 ≤ id → run.2.scrapes id = .idle := by
  refine path.keeps (motive := fun run => ∀ id, 2 ≤ id → run.2.scrapes id = .idle) idle ?_
  rintro before action after still stepped fine id beyond
  rcases step_cases (System.recorded_step stepped) with ⟨_, rfl, _, same⟩ | ⟨_, _, rfl, same⟩ |
    ⟨actor, call, scrape, rfl, _, same⟩
  · rw [same]
    exact still id beyond
  · rw [same]
    exact still id beyond
  · have other : id ≠ actor := by
      rintro rfl
      exact absurd (of_decide_eq_true fine) (Nat.not_lt.mpr beyond)
    rw [same]
    exact (Function.update_of_ne other _ _).trans (still id beyond)

/-- Two threads store the counts of the scoring queue three times in eleven seconds. -/
theorem probes_bounded_late : ∃ run : History × State,
    (storesOf .main).total run.1 = 3 ∧ (lateOf .main).total run.1 = 1 ∧ run.2.clock = 11 ∧
    lifetime * (storesOf .main).total run.1 ≤
      (Finset.range 2).card * (lifetime * ((lateOf .main).total run.1 + 1 : Nat) +
        (run.2.clock - 0)) := by
  have ran : (system.recorded.run ([], initial 0 fun _ => ⟨0, 0⟩) lateSchedule).map (fun run =>
      ((storesOf .main).total run.1, (lateOf .main).total run.1, run.2.clock)) =
      some (3, 1, 11) := by
    decide +kernel
  have below : ∀ action ∈ lateSchedule, action.ofTwo = true := by decide
  obtain ⟨run, path, seen⟩ := System.run_observed (fun _ action _ => action.ofTwo = true) ran
    fun action member _ _ => below action member
  simp only [Prod.mk.injEq] at seen
  obtain ⟨stores, late, clock⟩ := seen
  have idle := others_idle path fun _ _ => rfl
  refine ⟨run, stores, late, clock, ?_⟩
  refine probes_bounded (path.weaken fun _ _ _ _ => trivial) (Finset.range 2) ?_ .main
  intro id outside
  exact idle id (Nat.not_lt.mp (mt Finset.mem_range.mpr outside))

end ConvoScore.Gauges
