import ConvoScore.Api.Stats
import ConvoScore.Pipeline.Coherence
import ConvoScore.Pipeline.Sources

namespace ConvoScore

/-- A completed row has a sentiment, and a row with a sentiment is finished. -/
structure Conversation.Rated (row : Conversation) : Prop where
  scored : row.status = .completed → row.sentiment ≠ none
  ended : row.sentiment ≠ none → row.status.terminal = true

/-- A later row has the same request, stays finished and keeps its sentiment. -/
structure Conversation.Outgrown (row later : Conversation) : Prop where
  source : later.source = row.source
  createdAt : later.createdAt = row.createdAt
  ended : row.status.terminal = true → later.status.terminal = true
  rated : ∀ sentiment, row.sentiment = some sentiment → later.sentiment = some sentiment

theorem Conversation.Outgrown.refl (row : Conversation) : row.Outgrown row :=
  ⟨rfl, rfl, fun ended => ended, fun _ same => same⟩

theorem Conversation.Outgrown.trans {row middle later : Conversation} (first : row.Outgrown middle)
    (second : middle.Outgrown later) : row.Outgrown later where
  source := second.source.trans first.source
  createdAt := second.createdAt.trans first.createdAt
  ended := second.ended ∘ first.ended
  rated sentiment same := second.rated sentiment (first.rated sentiment same)

/-- A row of the usual shape is rated. -/
theorem Conversation.Shaped.rated {row : Conversation} (shaped : row.Shaped) : row.Rated where
  scored := shaped.sentiment.mpr
  ended present := by rw [shaped.sentiment.mp present]; rfl

theorem Conversation.Rated.of_unset {row : Conversation} (incomplete : row.status ≠ .completed)
    (unset : row.sentiment = none) : row.Rated :=
  ⟨fun completed => absurd completed incomplete, fun set => absurd unset set⟩

/-- An unfinished row has no sentiment yet. -/
theorem Conversation.Rated.unset {row : Conversation} (rated : row.Rated)
    (unfinished : row.status.terminal = false) : row.sentiment = none := by
  by_contra set
  rw [rated.ended set] at unfinished
  cases unfinished

namespace Pipeline
open Library

/-- Every stored row is rated. -/
def RatedRows (state : State) : Prop :=
  ∀ job row, state.shared.jobs job = some row → row.Rated

variable {env : Environment} {state next first last : State} {action : Action} {job : Uuid}

/-- Every step keeps all rows rated. -/
theorem ratedRows_step (drafts : DraftRows env state) (rated : RatedRows state)
    (step : Step env state action next) : RatedRows next := by
  intro job later found
  cases row_change step job with
  | kept same => exact rated job later (same ▸ found)
  | submitted origin opened _ written =>
      rw [written, Option.some.injEq] at found
      exact found ▸ (drafts.submitted origin opened).shaped.rated
  | created _ _ written =>
      rw [written, Option.some.injEq] at found
      exact found ▸ Conversation.Shaped.createJob.rated
  | claimed _ _ _ _ present free written =>
      rw [written, Option.some.injEq] at found
      have unset := (rated job _ present).unset (Conversation.claimable_iff.mp free).1
      exact found ▸ .of_unset (by simp [Conversation.withClaim]) unset
  | completed _ _ _ _ written =>
      rw [written, Option.some.injEq] at found
      exact found ▸ ⟨fun _ => Option.some_ne_none _, fun _ => rfl⟩
  | released _ _ present accepted written =>
      rw [written, Option.some.injEq] at found
      have unset := (rated job _ present).unset (by simp [accepted])
      exact found ▸ .of_unset (by simp [Conversation.withRelease]) unset
  | failed _ _ _ _ written | enqueueFailed _ written =>
      rw [written, Option.some.injEq] at found
      exact found ▸ ⟨fun completed => JobStatus.noConfusion completed, fun _ => rfl⟩
  | enqueued present written =>
      rw [written, Option.some.injEq] at found
      exact found ▸ ⟨(rated job _ present).scored, (rated job _ present).ended⟩

/-- A step lets every row of before outgrow itself. -/
theorem RowChange.outgrown (change : RowChange env state next job action)
    (rated : RatedRows state) {row : Conversation} (present : state.shared.jobs job = some row) :
    ∃ later, next.shared.jobs job = some later ∧ row.Outgrown later := by
  have stays := change.present (by rw [present]; rfl)
  obtain ⟨later, found⟩ := Option.isSome_iff_exists.mp stays
  have request := change.sameRequest present found
  refine ⟨later, found, request.source, request.createdAt, ?_, ?_⟩
  · intro ended
    obtain ⟨last, same, terminal⟩ := change.terminal present ended
    rw [found, Option.some.injEq] at same
    exact same ▸ terminal
  · intro sentiment set
    have ended := (rated job row present).ended (by simp [set])
    cases change with
    | kept same =>
        rw [same, present, Option.some.injEq] at found
        exact found ▸ set
    | submitted _ _ absent | created _ absent =>
        rw [absent] at present
        cases present
    | claimed _ _ _ _ held free =>
        rw [present, Option.some.injEq] at held
        subst held
        simp [(Conversation.claimable_iff.mp free).1] at ended
    | completed _ _ held accepted | released _ _ held accepted =>
        rw [present, Option.some.injEq] at held
        subst held
        simp [accepted] at ended
    | failed _ _ held _ written | enqueued held written | enqueueFailed held written =>
        rw [present, Option.some.injEq] at held
        subst held
        rw [written, Option.some.injEq] at found
        exact found ▸ set

/-- All rows of reached states are rated, and open requests hold drafts. -/
theorem reached_rated (reached : (system env).Reached System.anyStep state) :
    DraftRows env state ∧ RatedRows state := by
  refine reached.invariant (motive := fun state => DraftRows env state ∧ RatedRows state) ?_ ?_
  · rintro _ ⟨now, rfl⟩
    exact ⟨draftRows_initial now, fun _ _ found => by cases found⟩
  · intro before action after ⟨drafts, rated⟩ stepped _
    have step := step_cases stepped
    exact ⟨draftRows_step drafts step, ratedRows_step drafts rated step⟩

/-- A run lets every row of its first state outgrow itself. -/
theorem path_outgrown (reached : (system env).Reached System.anyStep first)
    (path : (system env).Path System.anyStep first last) :
    ∀ job row, first.shared.jobs job = some row →
      ∃ later, last.shared.jobs job = some later ∧ row.Outgrown later := by
  intro job row present
  induction path with
  | refl => exact ⟨row, present, .refl row⟩
  | tail action path stepped _ ih =>
      obtain ⟨middle, found, grown⟩ := ih
      have rated := (reached_rated (reached.extend path)).2
      obtain ⟨later, written, outgrown⟩ := (row_change (step_cases stepped) job).outgrown rated found
      exact ⟨later, written, grown.trans outgrown⟩

/-- The statements of one request read the rows of four states of a run, one after another. -/
structure StatsRequest (env : Environment) (first last : State) where
  second : State
  third : State
  statuses : List Conversation
  sources : List Conversation
  sentiments : List Conversation
  totals : List Conversation
  toSecond : (system env).Path System.anyStep first second
  toThird : (system env).Path System.anyStep second third
  toLast : (system env).Path System.anyStep third last
  statusScan : Scan first.shared.jobs statuses
  sourceScan : Scan second.shared.jobs sources
  sentimentScan : Scan third.shared.jobs sentiments
  totalScan : Scan last.shared.jobs totals

namespace StatsRequest
variable {request : StatsRequest env first last}

def response (request : StatsRequest env first last) : StatsResponse :=
  getStats (statsOver request.statuses request.sources request.sentiments request.totals)

theorem fromFirst (request : StatsRequest env first last) :
    (system env).Path System.anyStep first last :=
  (request.toSecond.trans request.toThird).trans request.toLast

/-- Nothing happens while the four statements run. -/
def atOnce {rows : List Conversation} (scan : Scan state.shared.jobs rows) :
    StatsRequest env state state where
  second := state
  third := state
  statuses := rows
  sources := rows
  sentiments := rows
  totals := rows
  toSecond := .refl
  toThird := .refl
  toLast := .refl
  statusScan := scan
  sourceScan := scan
  sentimentScan := scan
  totalScan := scan

end StatsRequest

section Samples

/-- The ingestor creates this row at the start of the clock. -/
def arrivedRow (job : Uuid) : Conversation :=
  ConvoScore.createJob sampleEnvironment.sha256 job 0 .smallest .s3 3 (some "s3://calls".toList)

def State.arrive (state : State) (job : Uuid) : State :=
  state.withOrigin
    {state.shared with jobs := Function.update state.shared.jobs job (some (arrivedRow job))} job
    (.s3 .publishing)

def oneArrived : State := (initial 0).arrive 1

def twoArrived : State := oneArrived.arrive 2

theorem oneArrived_reached : (system sampleEnvironment).Reached System.anyStep oneArrived :=
  ⟨initial 0, ⟨0, rfl⟩, System.Path.refl.tail
    (.createJob 1 .smallest 3 "s3://calls".toList 0) rfl trivial⟩

theorem twoArrived_path :
    (system sampleEnvironment).Path System.anyStep oneArrived twoArrived :=
  System.Path.refl.tail (.createJob 2 .smallest 3 "s3://calls".toList 0) rfl trivial

theorem oneArrived_scan : Scan oneArrived.shared.jobs [arrivedRow 1] := by
  refine .of_rows (List.nodup_singleton _) (List.forall_mem_singleton.mpr rfl) ?_
  intro job unlisted
  have other : job ≠ 1 := by simpa [arrivedRow, ConvoScore.createJob] using unlisted
  exact Function.update_of_ne other _ _

theorem twoArrived_scan : Scan twoArrived.shared.jobs [arrivedRow 1, arrivedRow 2] := by
  refine .of_rows (by decide) ?_ ?_
  · intro row listed
    rcases List.mem_pair.mp listed with rfl | rfl <;> rfl
  · intro job unlisted
    have others : job ≠ 1 ∧ job ≠ 2 := by simpa [arrivedRow, ConvoScore.createJob] using unlisted
    exact (Function.update_of_ne others.2 _ _).trans (Function.update_of_ne others.1 _ _)

/-- A job arrives between the first and the second statement. -/
def arrivalRequest : StatsRequest sampleEnvironment oneArrived twoArrived where
  second := twoArrived
  third := twoArrived
  statuses := [arrivedRow 1]
  sources := [arrivedRow 1, arrivedRow 2]
  sentiments := [arrivedRow 1, arrivedRow 2]
  totals := [arrivedRow 1, arrivedRow 2]
  toSecond := twoArrived_path
  toThird := .refl
  toLast := .refl
  statusScan := oneArrived_scan
  sourceScan := twoArrived_scan
  sentimentScan := twoArrived_scan
  totalScan := twoArrived_scan

end Samples

section Counts
variable {rows later : List Conversation} {test laterTest : Conversation → Bool}

/-- A test that rows never stop to pass counts no more rows now than in a later state. -/
theorem countP_grows (reached : (system env).Reached System.anyStep first)
    (path : (system env).Path System.anyStep first last) (scan : Scan first.shared.jobs rows)
    (laterScan : Scan last.shared.jobs later)
    (kept : ∀ row found, row.Rated → row.Outgrown found → test row = true → laterTest found = true) :
    rows.countP test ≤ later.countP laterTest := by
  refine scan.countP_le laterScan fun job row present passed => ?_
  obtain ⟨found, stored, grown⟩ := path_outgrown reached path job row present
  exact ⟨found, stored, kept row found ((reached_rated reached).2 job row present) grown passed⟩

/-- No row is ever deleted. -/
theorem length_grows (reached : (system env).Reached System.anyStep first)
    (path : (system env).Path System.anyStep first last) (scan : Scan first.shared.jobs rows)
    (laterScan : Scan last.shared.jobs later) : rows.length ≤ later.length := by
  have counted : (rows.countP fun _ => true) ≤ later.countP fun _ => true :=
    countP_grows reached path scan laterScan fun _ _ _ _ passed => passed
  simpa using counted

end Counts

/-- Whatever happens between the four statements of a request, its counts fit together:
the statuses miss exactly the jobs that arrived meanwhile, the sources miss some of them,
and there are at least as many sentiments as completed jobs. -/
theorem overview_consistent (reached : (system env).Reached System.anyStep first)
    (request : StatsRequest env first last) :
    request.response.byStatus.total ≤ request.response.sourced ∧
    request.response.sourced ≤ request.response.totalJobs ∧
    request.response.byStatus.completed ≤ request.response.scored ∧
    request.response.scored ≤ request.response.totalJobs ∧
    ∃ arrived : Finset Uuid,
      (∀ job, job ∈ arrived ↔ first.shared.jobs job = none ∧ last.shared.jobs job ≠ none) ∧
      request.response.totalJobs = request.response.byStatus.total + arrived.card := by
  have reachedSecond := reached.extend request.toSecond
  have reachedThird := reachedSecond.extend request.toThird
  have statuses : request.response.byStatus.total = request.statuses.length := byStatus_total
  have sources : request.response.sourced = request.sources.length := sourced_eq
  have scored : request.response.scored =
      request.sentiments.countP fun row => row.sentiment.isSome := scored_eq
  have totals : request.response.totalJobs = request.totals.length := rfl
  have completed : request.response.byStatus.completed =
      request.statuses.countP fun row => some row.status = some .completed :=
    Query.countBy_getD _ _ _
  refine ⟨?_, ?_, ?_, ?_, rowIds request.totals \ rowIds request.statuses, ?_, ?_⟩
  · rw [statuses, sources]
    exact length_grows reached request.toSecond request.statusScan request.sourceScan
  · rw [sources, totals]
    exact length_grows reachedSecond (request.toThird.trans request.toLast) request.sourceScan
      request.totalScan
  · rw [completed, scored]
    refine countP_grows reached (request.toSecond.trans request.toThird) request.statusScan
      request.sentimentScan fun row found rated grown passed => ?_
    obtain ⟨sentiment, set⟩ :=
      Option.ne_none_iff_exists'.mp (rated.scored (Option.some.inj (of_decide_eq_true passed)))
    simp [grown.rated sentiment set]
  · rw [scored, totals]
    calc request.sentiments.countP (fun row => row.sentiment.isSome)
        ≤ request.sentiments.length := List.countP_le_length
      _ ≤ request.totals.length :=
        length_grows reachedThird request.toLast request.sentimentScan request.totalScan
  · intro job
    rw [Finset.mem_sdiff, request.totalScan.mem_ids, request.statusScan.mem_ids, not_not, and_comm]
  · have stayed : rowIds request.statuses ⊆ rowIds request.totals := by
      intro job stored
      rw [request.statusScan.mem_ids] at stored
      obtain ⟨row, present⟩ := Option.ne_none_iff_exists'.mp stored
      obtain ⟨later, found, _⟩ := path_outgrown reached request.fromFirst job row present
      rw [request.totalScan.mem_ids, found]
      exact Option.some_ne_none later
    have parts := Finset.card_sdiff_add_card_eq_card stayed
    rw [request.totalScan.card_ids, request.statusScan.card_ids] at parts
    rw [totals, statuses, ← parts, add_comm]

/-- The statuses miss the job that arrived after them. -/
theorem overview_consistent_arrival :
    arrivalRequest.response.byStatus.total = 1 ∧ arrivalRequest.response.totalJobs = 2 ∧
    ∃ arrived : Finset Uuid,
      (∀ job, job ∈ arrived ↔ oneArrived.shared.jobs job = none ∧ twoArrived.shared.jobs job ≠ none) ∧
      arrivalRequest.response.totalJobs = arrivalRequest.response.byStatus.total + arrived.card :=
  ⟨rfl, rfl, (overview_consistent oneArrived_reached arrivalRequest).2.2.2.2⟩

/-- A count of the rows of one key does not shrink when the key of a row stays. -/
theorem countBy_grows {Key : Type*} [DecidableEq Key] {column : Conversation → Option Key}
    {rows later : List Conversation} (reached : (system env).Reached System.anyStep first)
    (path : (system env).Path System.anyStep first last) (scan : Scan first.shared.jobs rows)
    (laterScan : Scan last.shared.jobs later) (key : Key)
    (kept : ∀ row found, row.Outgrown found → column row = some key → column found = some key) :
    (Query.countBy column rows key).getD 0 ≤ (Query.countBy column later key).getD 0 := by
  rw [Query.countBy_getD, Query.countBy_getD]
  refine countP_grows reached path scan laterScan fun row found _ grown passed => ?_
  exact decide_eq_true (kept row found grown (of_decide_eq_true passed))

/-- The completed and the failed jobs are the finished ones. -/
theorem finished_eq (rows : List Conversation) :
    jobsByStatus rows .completed + jobsByStatus rows .failed =
      rows.countP fun row => row.status.terminal := by
  rw [jobsByStatus, jobsByStatus, countByStatus, Query.countBy_getD, Query.countBy_getD]
  induction rows with
  | nil => rfl
  | cons row rest ih =>
      simp only [List.countP_cons, ← ih]
      cases row.status <;> simp <;> omega

/-- A page that is refreshed never shows fewer jobs, fewer of a source, fewer of a sentiment or
fewer finished ones than before. -/
theorem overview_grows {start finish : State} (reached : (system env).Reached System.anyStep first)
    (earlier : StatsRequest env first last) (path : (system env).Path System.anyStep last start)
    (later : StatsRequest env start finish) :
    earlier.response.totalJobs ≤ later.response.totalJobs ∧
    earlier.response.byStatus.completed + earlier.response.byStatus.failed ≤
      later.response.byStatus.completed + later.response.byStatus.failed ∧
    (∀ source, (earlier.response.bySource source).getD 0 ≤
      (later.response.bySource source).getD 0) ∧
    ∀ sentiment, (earlier.response.bySentiment sentiment).getD 0 ≤
      (later.response.bySentiment sentiment).getD 0 := by
  have reachedSecond := reached.extend earlier.toSecond
  have reachedThird := reachedSecond.extend earlier.toThird
  have reachedLast := reachedThird.extend earlier.toLast
  refine ⟨?_, ?_, fun source => ?_, fun sentiment => ?_⟩
  · exact length_grows reachedLast (path.trans later.fromFirst) earlier.totalScan later.totalScan
  · show jobsByStatus earlier.statuses .completed + jobsByStatus earlier.statuses .failed ≤
      jobsByStatus later.statuses .completed + jobsByStatus later.statuses .failed
    rw [finished_eq, finished_eq]
    exact countP_grows reached (earlier.fromFirst.trans path) earlier.statusScan later.statusScan
      fun row found _ grown ended => grown.ended ended
  · refine countBy_grows reachedSecond ?_ earlier.sourceScan later.sourceScan source ?_
    · exact (earlier.toThird.trans earlier.toLast).trans (path.trans later.toSecond)
    · intro row found grown same
      rw [grown.source]
      exact same
  · refine countBy_grows reachedThird ?_ earlier.sentimentScan later.sentimentScan sentiment ?_
    · exact earlier.toLast.trans (path.trans (later.toSecond.trans later.toThird))
    · intro row found grown same
      exact grown.rated sentiment same

theorem overview_grows_arrival :
    arrivalRequest.response.byStatus.total = 1 ∧
    arrivalRequest.response.totalJobs ≤ (StatsRequest.atOnce twoArrived_scan :
      StatsRequest sampleEnvironment twoArrived twoArrived).response.totalJobs :=
  ⟨rfl, (overview_grows oneArrived_reached arrivalRequest .refl (.atOnce twoArrived_scan)).1⟩

/-- A threshold is exceeded exactly by the jobs that are unfinished for longer. It stays exceeded
until all of them have finished, and the age grows as fast as the clock until some job has. -/
theorem backlog_age_tracks {rows later : List Conversation} {now laterNow : Timestamp}
    (reached : (system env).Reached System.anyStep first)
    (path : (system env).Path System.anyStep first last) (scan : Scan first.shared.jobs rows)
    (laterScan : Scan last.shared.jobs later) (ordered : now ≤ laterNow) (threshold : Nat) :
    ((threshold : Int) < oldestPendingAge rows now ↔ ∃ job row, first.shared.jobs job = some row ∧
      row.status.terminal = false ∧ row.createdAt + threshold < now) ∧
    (oldestPendingAge later laterNow ≤ threshold → ∀ job row, first.shared.jobs job = some row →
      row.createdAt + threshold < now →
        ∃ found, last.shared.jobs job = some found ∧ found.status.terminal = true) ∧
    (oldestPendingAge later laterNow < oldestPendingAge rows now + (laterNow - now : Nat) →
      oldestPendingAge rows now = 0 ∨ ∃ job row found, first.shared.jobs job = some row ∧
        row.status.terminal = false ∧ last.shared.jobs job = some found ∧
        found.status.terminal = true) := by
  -- An unfinished job that stays unfinished is as old in the later scrape as its creation tells.
  have stillOld : ∀ job row, first.shared.jobs job = some row → ∀ older : Nat,
      oldestPendingAge later laterNow ≤ older → row.createdAt + older < laterNow →
        ∃ found, last.shared.jobs job = some found ∧ found.status.terminal = true := by
    intro job row present older young past
    obtain ⟨found, stored, grown⟩ := path_outgrown reached path job row present
    refine ⟨found, stored, ?_⟩
    by_contra unended
    have exceeded := (oldestPendingAge_exceeds laterScan laterNow older).mpr
      ⟨job, found, stored, by simpa using unended, by rw [grown.createdAt]; exact past⟩
    omega
  refine ⟨oldestPendingAge_exceeds scan now threshold, ?_, ?_⟩
  · intro young job row present past
    exact stillOld job row present threshold young (Nat.lt_of_lt_of_le past ordered)
  · intro slower
    obtain ⟨age, aged⟩ := Int.eq_ofNat_of_zero_le (oldestPendingAge_nonneg rows now)
    cases age with
    | zero => exact .inl aged
    | succ below =>
        have exceeded : (below : Int) < oldestPendingAge rows now := by omega
        obtain ⟨job, row, present, unfinished, past⟩ :=
          (oldestPendingAge_exceeds scan now below).mp exceeded
        obtain ⟨elapsed, reachedNow⟩ := Nat.exists_eq_add_of_le ordered
        have grownPast : row.createdAt + (below + elapsed) < laterNow := by
          rw [reachedNow, ← Nat.add_assoc]
          exact Nat.add_lt_add_right past elapsed
        have younger : oldestPendingAge later laterNow ≤ (below + elapsed : Nat) := by
          rw [reachedNow, Nat.add_sub_cancel_left] at slower
          rw [reachedNow]
          push_cast
          omega
        obtain ⟨found, stored, ended⟩ := stillOld job row present _ younger grownPast
        exact .inr ⟨job, row, found, present, unfinished, stored, ended⟩

/-- The job that waits for 5 microseconds is older than 4, and so it is until it finishes. -/
theorem backlog_age_tracks_waiting :
    4 < oldestPendingAge [arrivedRow 1] 5 ∧
    (oldestPendingAge [arrivedRow 1, arrivedRow 2] 8 ≤ 4 → ∀ job row,
      oneArrived.shared.jobs job = some row → row.createdAt + 4 < 5 →
        ∃ found, twoArrived.shared.jobs job = some found ∧ found.status.terminal = true) := by
  have tracks := backlog_age_tracks oneArrived_reached twoArrived_path oneArrived_scan
    twoArrived_scan (show (5 : Timestamp) ≤ 8 by decide) 4
  refine ⟨tracks.1.mpr ⟨1, arrivedRow 1, rfl, rfl, by decide⟩, tracks.2.1⟩

end Pipeline
end ConvoScore
