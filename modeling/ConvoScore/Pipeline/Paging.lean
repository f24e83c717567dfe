import ConvoScore.Frontend.Conversations
import ConvoScore.Pipeline.Listings

namespace ConvoScore.Paging
open Library Frontend Pipeline

structure State where
  pipeline : Pipeline.State
  page : Page

inductive Action
  | pipeline (action : Pipeline.Action)
  | page (action : Frontend.Action)

/-- The pipeline goes on while somebody reads the page. -/
def step (env : Environment) (state : State) : Action → Option State
  | .pipeline action => (Pipeline.step env state.pipeline action).map fun pipeline =>
      {state with pipeline}
  | .page action => (state.page.step action).map fun page => {state with page}

def system (env : Environment) : System State Action where
  start state := (Pipeline.system env).Reached System.anyStep state.pipeline ∧
    ∃ params, params.offset = 0 ∧ state.page = .opened params
  step := step env

/-- Each statement of a request scans the rows that are committed. -/
def Scanned : System.Condition State Action := fun before action _ => ∀ key rows,
  action = .page (.count key rows) ∨ action = .page (.list key rows) →
    Scan before.pipeline.shared.jobs rows

/-- The reader has not seen this row, which matched the filters when the page was opened. -/
structure Unseen (opening : Pipeline.State) (viewed : List Uuid) (filters : ConversationFilters)
    (row : Conversation) : Prop where
  stored : opening.shared.jobs row.id = some row
  matched : Satisfies filters row
  unseen : row.id ∉ viewed

/-- All unseen rows are listed behind an offset. -/
def Ahead (opening now : Pipeline.State) (viewed : List Uuid) (key : Key) : Prop :=
  key.filters.Stable → ∀ row, Unseen opening viewed key.filters row →
    (key.offset : ℕ∞) ≤ rank (listedKeys now key.filters) (creationKey row)

/-- A cached answer was read at two moments, and its page began before all unseen rows. -/
def Answered (env : Environment) (opening now : Pipeline.State) (viewed : List Uuid) (key : Key)
    (response : ConversationListResponse) : Prop :=
  ∃ counted listed countedRows listedRows,
    (Pipeline.system env).Path System.anyStep opening counted ∧
    (Pipeline.system env).Path System.anyStep counted listed ∧
    (Pipeline.system env).Path System.anyStep listed now ∧
    Scan counted.shared.jobs countedRows ∧ Scan listed.shared.jobs listedRows ∧
    browseConversations countedRows listedRows key.query = .ok response ∧
    Ahead opening listed viewed key

/-- An entry of the cache asks for a page that begins before all unseen rows. -/
structure Entry (env : Environment) (opening now : Pipeline.State) (viewed : List Uuid) (key : Key)
    (query : QueryState) : Prop where
  sent : query.fetch ≠ .idle → Ahead opening now viewed key
  counted : ∀ rows, query.fetch = .counted rows →
    ∃ counted, (Pipeline.system env).Path System.anyStep opening counted ∧
      (Pipeline.system env).Path System.anyStep counted now ∧ Scan counted.shared.jobs rows
  answered : ∀ response, query.data = some response → Answered env opening now viewed key response

/-- Every visited address and every entry begins before all unseen rows. -/
structure Tracked (env : Environment) (opening now : Pipeline.State) (page : Page) : Prop where
  path : (Pipeline.system env).Path System.anyStep opening now
  current : page.params ∈ page.visited
  visited : ∀ params ∈ page.visited, Ahead opening now page.viewed params.key
  entries : ∀ key, Entry env opening now page.viewed key (page.queries key)

/-- The reader has seen what the page shows. -/
def Shown (page : Page) : Prop :=
  ∀ response, page.display = .table response → ∀ item ∈ response.items, item.id ∈ page.viewed

variable {env : Environment} {opening now last : Pipeline.State} {viewed more : List Uuid}
  {key : Key} {page next : Page} {response : ConversationListResponse} {rows : List Conversation}

/-- Time and views leave the unseen rows behind the offset. -/
theorem Ahead.later (ahead : Ahead opening now viewed key)
    (reached : (Pipeline.system env).Reached System.anyStep now)
    (path : (Pipeline.system env).Path System.anyStep now last) (seen : viewed ⊆ more) :
    Ahead opening last more key := by
  intro stable row unseen
  have before := ahead stable row ⟨unseen.stored, unseen.matched, fun old => unseen.unseen (seen old)⟩
  exact before.trans (rank_mono (listedKeys_grow reached path stable) _)

theorem Ahead.of_le {filters : ConversationFilters} {first second : Nat}
    (ahead : Ahead opening now viewed ⟨filters, second⟩) (least : first ≤ second) :
    Ahead opening now viewed ⟨filters, first⟩ :=
  fun stable row unseen => (Nat.cast_le.mpr least).trans (ahead stable row unseen)

theorem Ahead.zero {filters : ConversationFilters} : Ahead opening now viewed ⟨filters, 0⟩ :=
  fun _ _ _ => bot_le

/-- A page that the reader has seen moves all unseen rows behind its end. -/
theorem Ahead.passed {listed : Pipeline.State} (ahead : Ahead opening listed viewed key)
    (reached : (Pipeline.system env).Reached System.anyStep opening)
    (path : (Pipeline.system env).Path System.anyStep opening listed)
    (scan : Scan listed.shared.jobs rows)
    (shown : ∀ row ∈ Query.window pageSize key.offset (listing key.filters rows),
      row.id ∈ viewed) : Ahead opening listed viewed ⟨key.filters, key.offset + pageSize⟩ := by
  intro stable row unseen
  by_contra within
  obtain ⟨later, found, remains⟩ := path_remains reached path unseen.stored
  have member : later ∈ listing key.filters rows :=
    (mem_listing scan).mpr ⟨remains.id ▸ found, remains.satisfies stable unseen.matched⟩
  have least := ahead stable row unseen
  rw [← remains.creationKey, ← listing_keys scan] at least within
  have windowed := mem_window (listing_descending scan) member least (not_le.mp within)
  exact unseen.unseen (remains.id ▸ shown later windowed)

/-- The rows of the window of an answer are its items. -/
theorem window_shown {counted : List Conversation}
    (answered : browseConversations counted rows key.query = .ok response)
    (shown : ∀ item ∈ response.items, item.id ∈ viewed) :
    ∀ row ∈ Query.window pageSize key.offset (listing key.filters rows), row.id ∈ viewed := by
  intro row windowed
  obtain ⟨_, made, _⟩ := browseConversations_ok answered
  rw [listing_window] at made
  obtain ⟨item, listed, summary⟩ := (summaries_mem made).1 row windowed
  obtain ⟨_, _, rfl⟩ := toSummary_eq summary
  exact shown _ listed

/-- A table shows the answer of the current entry. -/
theorem display_table {query : QueryState} (table : query.display = .table response) :
    query.data = some response := by
  obtain ⟨data, failed, fetch⟩ := query
  cases data with
  | none => cases fetch <;> cases failed <;> cases table
  | some stored =>
      cases failed with
      | true => cases fetch <;> cases table
      | false =>
          have split : (if stored.items = [] then Display.empty else .table stored) =
              .table response := by
            cases fetch <;> exact table
          by_cases nothing : stored.items = []
          · rw [if_pos nothing] at split
            cases split
          · rw [if_neg nothing] at split
            cases split
            rfl

/-- An answer with items is shown as a table when no later request has failed. -/
theorem display_answer {query : QueryState} (stored : query.data = some response)
    (intact : query.failed = false) (nonempty : response.items ≠ []) :
    query.display = .table response := by
  unfold QueryState.display
  rw [stored, intact]
  cases query.fetch <;> exact if_neg nonempty

/-- The rows behind a page without a next one are at most those that its total has missed. -/
theorem behind_end {counted : List Conversation}
    (made : browseConversations counted rows key.query = .ok response)
    (last : response.items = [] ∨ response.total ≤ key.offset + pageSize) :
    (listing key.filters rows).length - (key.offset + pageSize) ≤
      (listing key.filters rows).length - (listing key.filters counted).length := by
  obtain ⟨_, items, total⟩ := browseConversations_ok made
  rw [listing_window] at items total
  rcases last with nothing | fits
  · rw [nothing] at items
    have short : (Query.window pageSize key.offset (listing key.filters rows)).length = 0 :=
      (summaries_forall₂ items).length_eq
    rw [Query.window, List.length_take, List.length_drop] at short
    have positive : 0 < pageSize := by decide
    omega
  · have atMost : response.total = (listing key.filters counted).length := total
    omega

/-- A table without a next page ends with its total. -/
theorem table_end (table : page.display = .table response) (last : page.step .next = none) :
    response.total ≤ page.params.offset + pageSize := by
  by_contra more
  rw [Page.step, Page.update, table] at last
  simp only [if_neg more] at last
  cases last

theorem Answered.extend (answered : Answered env opening now viewed key response)
    (path : (Pipeline.system env).Path System.anyStep now last) :
    Answered env opening last viewed key response := by
  obtain ⟨counted, listed, countedRows, listedRows, first, second, third, rest⟩ := answered
  exact ⟨counted, listed, countedRows, listedRows, first, second, third.trans path, rest⟩

theorem Answered.views (reached : (Pipeline.system env).Reached System.anyStep opening)
    (answered : Answered env opening now viewed key response) (seen : viewed ⊆ more) :
    Answered env opening now more key response := by
  obtain ⟨counted, listed, countedRows, listedRows, first, second, third, scan, listScan, made,
    ahead⟩ := answered
  exact ⟨counted, listed, countedRows, listedRows, first, second, third, scan, listScan, made,
    ahead.later (reached.extend (first.trans second)) .refl seen⟩

/-- Once the reader has seen an answer, all unseen rows are behind its end. -/
theorem Answered.passed (reached : (Pipeline.system env).Reached System.anyStep opening)
    (answered : Answered env opening now viewed key response)
    (shown : ∀ item ∈ response.items, item.id ∈ viewed) :
    Ahead opening now viewed ⟨key.filters, key.offset + pageSize⟩ := by
  obtain ⟨counted, listed, countedRows, listedRows, first, second, third, _, scan, made, ahead⟩ :=
    answered
  have path := first.trans second
  exact (ahead.passed reached path scan (window_shown made shown)).later (reached.extend path) third
    fun _ member => member

theorem Entry.extend {query : QueryState} (entry : Entry env opening now viewed key query)
    (reached : (Pipeline.system env).Reached System.anyStep now)
    (path : (Pipeline.system env).Path System.anyStep now last) :
    Entry env opening last viewed key query where
  sent running := (entry.sent running).later reached path fun _ seen => seen
  counted rows running := by
    obtain ⟨counted, before, after, scan⟩ := entry.counted rows running
    exact ⟨counted, before, after.trans path, scan⟩
  answered response stored := (entry.answered response stored).extend path

namespace Tracked

/-- The pipeline keeps a page tracked. -/
theorem extend (tracked : Tracked env opening now page)
    (reached : (Pipeline.system env).Reached System.anyStep opening)
    (path : (Pipeline.system env).Path System.anyStep now last) : Tracked env opening last page where
  path := tracked.path.trans path
  current := tracked.current
  visited params member :=
    (tracked.visited params member).later (reached.extend tracked.path) path fun _ seen => seen
  entries key := (tracked.entries key).extend (reached.extend tracked.path) path

/-- A page stays tracked when its reader sees more. -/
theorem views (tracked : Tracked env opening now page)
    (reached : (Pipeline.system env).Reached System.anyStep opening) (seen : page.viewed ⊆ more) :
    Tracked env opening now {page with viewed := more} where
  path := tracked.path
  current := tracked.current
  visited params member :=
    (tracked.visited params member).later (reached.extend tracked.path) .refl seen
  entries key :=
    { sent := fun running =>
        ((tracked.entries key).sent running).later (reached.extend tracked.path) .refl seen
      counted := (tracked.entries key).counted
      answered := fun response stored =>
        ((tracked.entries key).answered response stored).views reached seen }

theorem render (tracked : Tracked env opening now page)
    (reached : (Pipeline.system env).Reached System.anyStep opening) :
    Tracked env opening now page.render := by
  unfold Page.render
  split
  · exact tracked.views reached (List.subset_append_left _ _)
  · exact tracked

/-- A page may go to an address that begins before all unseen rows. -/
theorem goTo (tracked : Tracked env opening now page) {params : Params}
    (ahead : Ahead opening now page.viewed params.key) :
    Tracked env opening now (page.goTo params) where
  path := tracked.path
  current := List.mem_cons_self
  visited other member := by
    rcases List.mem_cons.mp member with rfl | before
    · exact ahead
    · exact tracked.visited other before
  entries := tracked.entries

theorem setQuery (tracked : Tracked env opening now page) {query : QueryState}
    (entry : Entry env opening now page.viewed key query) :
    Tracked env opening now (page.setQuery key query) where
  path := tracked.path
  current := tracked.current
  visited := tracked.visited
  entries other := by
    show Entry env opening now page.viewed other (Function.update page.queries key query other)
    by_cases same : other = key
    · subst same
      rw [Function.update_self]
      exact entry
    · rw [Function.update_of_ne same]
      exact tracked.entries other

/-- What the reader and the cache do keeps a page tracked. -/
theorem update (tracked : Tracked env opening now page) (shown : Shown page)
    (reached : (Pipeline.system env).Reached System.anyStep opening) {action : Frontend.Action}
    (updated : page.update action = some next)
    (scanned : ∀ key rows, action = .count key rows ∨ action = .list key rows →
      Scan now.shared.jobs rows) : Tracked env opening now next := by
  have current := tracked.visited page.params tracked.current
  cases action with
  | setFilter change =>
      cases updated
      refine tracked.goTo ?_
      cases change <;> exact .zero
  | clear =>
      simp only [Page.update, Option.ite_none_right_eq_some, Option.some.injEq] at updated
      obtain ⟨_, rfl⟩ := updated
      exact tracked.goTo .zero
  | previous =>
      simp only [Page.update] at updated
      split at updated
      · rw [Option.ite_none_left_eq_some, Option.some.injEq] at updated
        obtain ⟨_, rfl⟩ := updated
        exact tracked.goTo (Ahead.of_le current (Nat.sub_le _ _))
      · cases updated
  | next =>
      simp only [Page.update] at updated
      split at updated
      · rename_i response table
        rw [Option.ite_none_left_eq_some, Option.some.injEq] at updated
        obtain ⟨_, rfl⟩ := updated
        have answered := (tracked.entries page.params.key).answered response (display_table table)
        exact tracked.goTo (answered.passed reached (shown response table))
      · cases updated
  | back params =>
      simp only [Page.update, Option.ite_none_right_eq_some, Option.some.injEq] at updated
      obtain ⟨member, rfl⟩ := updated
      exact tracked.goTo (tracked.visited params member)
  | fetch =>
      simp only [Page.update] at updated
      split at updated
      · cases updated
        exact tracked.setQuery ⟨fun _ => current, nofun, (tracked.entries _).answered⟩
      · cases updated
  | count key rows =>
      simp only [Page.update] at updated
      split at updated
      · rename_i sent
        cases updated
        have before := tracked.entries key
        refine tracked.setQuery ⟨fun _ => before.sent (by rw [sent]; exact nofun), ?_, before.answered⟩
        rintro _ ⟨⟩
        exact ⟨now, tracked.path, .refl, scanned key rows (.inl rfl)⟩
      · cases updated
  | list key rows =>
      simp only [Page.update] at updated
      split at updated
      · rename_i countedRows running
        have before := tracked.entries key
        split at updated
        · rename_i response made
          cases updated
          refine tracked.setQuery ⟨fun busy => absurd rfl busy, nofun, ?_⟩
          rintro _ ⟨⟩
          obtain ⟨counted, first, second, scan⟩ := before.counted countedRows running
          exact ⟨counted, now, countedRows, rows, first, second, .refl, scan,
            scanned key rows (.inr rfl), made, before.sent (by rw [running]; exact nofun)⟩
        · cases updated
          exact tracked.setQuery ⟨fun busy => absurd rfl busy, nofun, before.answered⟩
      · cases updated
  | retry key =>
      simp only [Page.update] at updated
      split at updated
      · cases updated
      · rename_i busy
        cases updated
        have before := tracked.entries key
        exact tracked.setQuery ⟨fun _ => before.sent busy, nofun, before.answered⟩
  | fail key =>
      simp only [Page.update] at updated
      split at updated
      · cases updated
      · cases updated
        have before := tracked.entries key
        exact tracked.setQuery ⟨fun busy => absurd rfl busy, nofun, before.answered⟩
  | forget key =>
      simp only [Page.update] at updated
      split at updated
      · rw [Option.ite_none_left_eq_some, Option.some.injEq] at updated
        obtain ⟨_, rfl⟩ := updated
        exact tracked.setQuery ⟨fun busy => absurd rfl busy, nofun, nofun⟩
      · cases updated

end Tracked

/-- What a page renders, its reader has seen. -/
theorem shown_render (page : Page) : Shown page.render := by
  intro response table item listed
  have same : page.render.display = page.display := by
    unfold Page.render
    split <;> rfl
  rw [same] at table
  rw [Page.render, table]
  exact List.mem_append_right _ (List.mem_map.mpr ⟨item, listed, rfl⟩)

/-- In every run the page stays tracked, and its reader has seen what it shows. -/
theorem path_tracked {params : Params} {state : State}
    (reached : (Pipeline.system env).Reached System.anyStep opening) (start : params.offset = 0)
    (path : (system env).Path Scanned ⟨opening, .opened params⟩ state) :
    Tracked env opening state.pipeline state.page ∧ Shown state.page := by
  induction path with
  | refl =>
      refine ⟨⟨.refl, List.mem_cons_self, ?_, ?_⟩, nofun⟩
      · intro other member
        have same : other = params := List.mem_singleton.mp member
        have first : params.key = ⟨params.key.filters, 0⟩ := congrArg (Key.mk _) start
        rw [same, first]
        exact .zero
      · intro key
        exact ⟨fun busy => absurd rfl busy, nofun, nofun⟩
  | @tail before after action _ stepped fine ih =>
      obtain ⟨tracked, shown⟩ := ih
      cases action with
      | pipeline action =>
          obtain ⟨next, moved, rfl⟩ := Option.map_eq_some_iff.mp stepped
          exact ⟨tracked.extend reached (System.Path.refl.tail action moved trivial), shown⟩
      | page action =>
          obtain ⟨next, moved, rfl⟩ := Option.map_eq_some_iff.mp stepped
          obtain ⟨updated, changed, rfl⟩ := Option.map_eq_some_iff.mp moved
          have still := tracked.update shown reached changed fun key rows statement =>
            fine key rows (statement.imp (congrArg _) (congrArg _))
          exact ⟨still.render reached, shown_render updated⟩

/-- A job matches the filters in a state of the pipeline. -/
def Matches (state : Pipeline.State) (filters : ConversationFilters) (job : Uuid) : Prop :=
  ∃ row, state.shared.jobs job = some row ∧ Satisfies filters row

/-- Under stable filters a job that matches goes on to match. -/
theorem Matches.later {filters : ConversationFilters} {job : Uuid} (matched : Matches now filters job)
    (stable : filters.Stable) (reached : (Pipeline.system env).Reached System.anyStep now)
    (path : (Pipeline.system env).Path System.anyStep now last) : Matches last filters job := by
  obtain ⟨row, present, satisfied⟩ := matched
  obtain ⟨later, found, remains⟩ := path_remains reached path present
  exact ⟨later, found, remains.satisfies stable satisfied⟩

theorem mem_listing_ids {filters : ConversationFilters} {job : Uuid} (scan : Scan now.shared.jobs rows) :
    job ∈ rowIds (listing filters rows) ↔ Matches now filters job := by
  rw [rowIds, List.mem_toFinset, List.mem_map]
  constructor
  · rintro ⟨row, listed, rfl⟩
    obtain ⟨present, satisfied⟩ := (mem_listing scan).mp listed
    exact ⟨row, present, satisfied⟩
  · rintro ⟨row, present, satisfied⟩
    have keyed := ((scan.stored job row).mp present).2
    exact ⟨row, (mem_listing scan).mpr ⟨keyed ▸ present, satisfied⟩, keyed⟩

theorem card_listing_ids {filters : ConversationFilters} (scan : Scan now.shared.jobs rows) :
    (rowIds (listing filters rows)).card = (listing filters rows).length := by
  have distinct : ((listing filters rows).map (·.id)).Nodup := by
    have kept := scan.distinct.sublist
      ((List.filter_sublist (p := Query.selects (applyFilters filters))).map _)
    exact (((Query.orderDescending_perm _ _).map _).nodup_iff).mpr kept
  rw [rowIds, List.toFinset_card_of_nodup distinct, List.length_map]

/-- As many jobs are behind a place of the listing as the listing has rows there. -/
theorem card_missed {filters : ConversationFilters} {offset : Nat} {missed : Finset Uuid}
    (reached : (Pipeline.system env).Reached System.anyStep opening)
    (path : (Pipeline.system env).Path System.anyStep opening now)
    (scan : Scan now.shared.jobs rows) (stable : filters.Stable)
    (ahead : Ahead opening now viewed ⟨filters, offset⟩)
    (unseen : ∀ job ∈ missed, Matches opening filters job ∧ job ∉ viewed) :
    missed.card ≤ (listing filters rows).length - offset := by
  let keys := ((listing filters rows).map creationKey).toFinset
  let owner (key : Timestamp ×ₗ Uuid) : Uuid := (ofLex key).2
  have keyed : (keys : Set (Timestamp ×ₗ Uuid)) = listedKeys now filters := listing_keys scan
  have later : ∀ job ∈ missed, ∃ row ∈ listing filters rows, row.id = job ∧
      (offset : ℕ∞) ≤ rank (keys : Set (Timestamp ×ₗ Uuid)) (creationKey row) := by
    intro job member
    obtain ⟨⟨old, stored, matched⟩, new⟩ := unseen job member
    obtain ⟨row, found, remains⟩ := path_remains reached path stored
    have own : row.id = job := ((scan.stored job row).mp found).2
    have oldOwn : old.id = job := remains.id.symm.trans own
    refine ⟨row, (mem_listing scan).mpr ⟨own ▸ found, remains.satisfies stable matched⟩, own, ?_⟩
    rw [keyed, remains.creationKey]
    exact ahead stable old ⟨oldOwn ▸ stored, matched, oldOwn ▸ new⟩
  have covered : missed ⊆ (keys.filter fun key =>
      (offset : ℕ∞) ≤ rank (keys : Set (Timestamp ×ₗ Uuid)) key).image owner := by
    intro job member
    obtain ⟨row, listed, own, behind⟩ := later job member
    refine Finset.mem_image.mpr ⟨creationKey row, Finset.mem_filter.mpr ⟨?_, behind⟩, own⟩
    exact List.mem_toFinset.mpr (List.mem_map.mpr ⟨row, listed, rfl⟩)
  calc missed.card ≤ _ := (Finset.card_le_card covered).trans Finset.card_image_le
    _ ≤ keys.card - offset :=
      card_behind (Finset.filter_subset _ _) fun key member => (Finset.mem_filter.mp member).2
    _ ≤ (listing filters rows).length - offset := by
      have atMost : keys.card ≤ (listing filters rows).length := by
        simpa using List.toFinset_card_le ((listing filters rows).map creationKey)
      omega

open Classical in
/-- Once a page has no next one, its reader has seen every job that matched its filters when the
page was opened, except for as many as have come to match between the two statements of the
answer that the page shows. -/
theorem paging_misses_few {params : Params} {state : State}
    (reached : (Pipeline.system env).Reached System.anyStep opening) (start : params.offset = 0)
    (path : (system env).Path Scanned ⟨opening, .opened params⟩ state)
    (stable : state.page.params.key.filters.Stable)
    (stored : (state.page.queries state.page.params.key).data = some response)
    (intact : (state.page.queries state.page.params.key).failed = false)
    (last : state.page.step .next = none) :
    ∃ counted listed countedRows listedRows,
      (Pipeline.system env).Path System.anyStep opening counted ∧
      (Pipeline.system env).Path System.anyStep counted listed ∧
      (Pipeline.system env).Path System.anyStep listed state.pipeline ∧
      Scan counted.shared.jobs countedRows ∧ Scan listed.shared.jobs listedRows ∧
      browseConversations countedRows listedRows state.page.params.key.query = .ok response ∧
      ∃ missed arrived : Finset Uuid,
        (∀ job, job ∈ missed ↔ Matches opening state.page.params.key.filters job ∧
          job ∉ state.page.viewed) ∧
        (∀ job, job ∈ arrived ↔ Matches listed state.page.params.key.filters job ∧
          ¬ Matches counted state.page.params.key.filters job) ∧
        missed.card ≤ arrived.card := by
  obtain ⟨tracked, shown⟩ := path_tracked reached start path
  obtain ⟨counted, listed, countedRows, listedRows, first, second, third, countScan, listScan, made,
    ahead⟩ := (tracked.entries state.page.params.key).answered response stored
  let filters := state.page.params.key.filters
  let offset := state.page.params.key.offset
  refine ⟨counted, listed, countedRows, listedRows, first, second, third, countScan, listScan, made,
    (rowIds (listing filters listedRows)).filter fun job =>
      Matches opening filters job ∧ job ∉ state.page.viewed,
    rowIds (listing filters listedRows) \ rowIds (listing filters countedRows), ?_, ?_, ?_⟩
  · intro job
    rw [Finset.mem_filter, mem_listing_ids listScan, and_iff_right_iff_imp]
    rintro ⟨matched, _⟩
    exact matched.later stable reached (first.trans second)
  · intro job
    rw [Finset.mem_sdiff, mem_listing_ids listScan, mem_listing_ids countScan]
  · have ended : response.items = [] ∨ response.total ≤ offset + pageSize :=
      or_iff_not_imp_left.mpr fun nonempty =>
        table_end (display_answer stored intact nonempty) last
    have seen : ∀ item ∈ response.items, item.id ∈ state.page.viewed := fun item member =>
      shown response (display_answer stored intact (List.ne_nil_of_mem member)) item member
    have passed := ahead.passed reached (first.trans second) listScan (window_shown made seen)
    have stays : rowIds (listing filters countedRows) ⊆ rowIds (listing filters listedRows) := by
      intro job member
      have matched := (mem_listing_ids countScan).mp member
      exact (mem_listing_ids listScan).mpr (matched.later stable (reached.extend first) second)
    calc _ ≤ (listing filters listedRows).length - (offset + pageSize) :=
          card_missed reached (first.trans second) listScan stable passed fun job member =>
            (Finset.mem_filter.mp member).2
      _ ≤ (listing filters listedRows).length - (listing filters countedRows).length :=
          behind_end made ended
      _ = _ := by
          rw [Finset.card_sdiff_of_subset stays, card_listing_ids listScan,
            card_listing_ids countScan]

section Samples

def bareParams : Params := ⟨none, none, none, none, 0⟩

def askedPage : Page :=
  {Page.opened bareParams with
    queries := Function.update (fun _ => .empty) bareParams.key ⟨none, false, .sent⟩}

def countedPage : Page :=
  {askedPage with
    queries := Function.update askedPage.queries bareParams.key
      ⟨none, false, .counted [arrivedRow 1]⟩}

def listedPage : Page :=
  {countedPage with
    queries := Function.update countedPage.queries bareParams.key
      ⟨some ⟨[arrivedSummary], 1, 25, 0⟩, false, .idle⟩
    viewed := [1]}

theorem listedPage_step :
    countedPage.step (.list bareParams.key [arrivedRow 1]) = some listedPage := by
  have answered : browseConversations [arrivedRow 1] [arrivedRow 1] bareParams.key.query =
      .ok ⟨[arrivedSummary], 1, 25, 0⟩ := arrived_answer (by decide) (by decide)
  have updated : countedPage.update (.list bareParams.key [arrivedRow 1]) =
      some (countedPage.setQuery bareParams.key ⟨some ⟨[arrivedSummary], 1, 25, 0⟩, false, .idle⟩) := by
    simp only [Page.update, countedPage, Function.update_self, answered]
  rw [Page.step, updated]
  rfl

/-- A reader opens the page, sees the one job that is there, and another one arrives. -/
theorem listedPage_path : (system sampleEnvironment).Path Scanned
    ⟨oneArrived, .opened bareParams⟩ ⟨twoArrived, listedPage⟩ := by
  have asked : (system sampleEnvironment).Path Scanned ⟨oneArrived, .opened bareParams⟩
      ⟨oneArrived, askedPage⟩ := by
    refine .tail (.page .fetch) .refl rfl ?_
    rintro _ _ (other | other) <;> cases other
  have counted : (system sampleEnvironment).Path Scanned ⟨oneArrived, .opened bareParams⟩
      ⟨oneArrived, countedPage⟩ := by
    refine .tail (.page (.count bareParams.key [arrivedRow 1])) asked ?_ ?_
    · exact congrArg (Option.map fun page => State.mk oneArrived page)
        (show askedPage.step (.count bareParams.key [arrivedRow 1]) = some countedPage from rfl)
    · rintro _ _ (same | other)
      · cases same
        exact oneArrived_scan
      · cases other
  have listed : (system sampleEnvironment).Path Scanned ⟨oneArrived, .opened bareParams⟩
      ⟨oneArrived, listedPage⟩ := by
    refine .tail (.page (.list bareParams.key [arrivedRow 1])) counted ?_ ?_
    · exact congrArg (Option.map fun page => State.mk oneArrived page) listedPage_step
    · rintro _ _ (other | same)
      · cases other
      · cases same
        exact oneArrived_scan
  refine .tail (.pipeline (.createJob 2 .smallest 3 "s3://calls".toList 0)) listed rfl ?_
  rintro _ _ (other | other) <;> cases other

/-- The reader has seen the only job that was there when the page was opened. -/
theorem paging_misses_few_arrival : ∃ counted listed missed arrived,
    (∀ job, job ∈ missed ↔ Matches oneArrived bareParams.key.filters job ∧ job ∉ [1]) ∧
    (∀ job, job ∈ arrived ↔ Matches listed bareParams.key.filters job ∧
      ¬ Matches counted bareParams.key.filters job) ∧
    (missed : Finset Uuid).card ≤ (arrived : Finset Uuid).card ∧
    twoArrived.shared.jobs 2 ≠ none := by
  obtain ⟨counted, listed, _, _, _, _, _, _, _, _, missed, arrived, few⟩ :=
    paging_misses_few oneArrived_reached rfl listedPage_path (fun _ given => nomatch given) rfl rfl rfl
  exact ⟨counted, listed, missed, arrived, few.1, few.2.1, few.2.2, Option.some_ne_none _⟩

end Samples

end ConvoScore.Paging
