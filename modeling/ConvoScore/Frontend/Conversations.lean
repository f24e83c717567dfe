import ConvoScore.Api.Browse
import Mathlib.Logic.Function.Basic

namespace ConvoScore.Frontend

def pageSize : Nat := 25

/-- The address of the page holds its filters and its offset. -/
structure Params where
  status : Option Text
  source : Option Text
  sentiment : Option Text
  minRisk : Option Int
  offset : Nat
  deriving DecidableEq

/-- The cache of queries is indexed by the filters and the offset of a page. -/
structure Key where
  filters : ConversationFilters
  offset : Nat
  deriving DecidableEq

def Key.query (key : Key) : BrowseQuery where
  filters := key.filters
  limit := pageSize
  offset := key.offset

/-- An empty text in the address is no filter. -/
def Params.key (params : Params) : Key where
  filters :=
    { status := params.status.filter (· ≠ [])
      source := params.source.filter (· ≠ [])
      sentiment := params.sentiment.filter (· ≠ [])
      minRisk := params.minRisk }
  offset := params.offset

/-- Each filter has a select, and an empty value takes the filter out of the address. -/
inductive Change
  | status (value : Text)
  | source (value : Text)
  | sentiment (value : Text)
  | minRisk (value : Option Int)

/-- A new filter means a new first page. -/
def Params.setFilter (params : Params) : Change → Params
  | .status value => {params with status := if value = [] then none else some value, offset := 0}
  | .source value => {params with source := if value = [] then none else some value, offset := 0}
  | .sentiment value =>
      {params with sentiment := if value = [] then none else some value, offset := 0}
  | .minRisk value => {params with minRisk := value, offset := 0}

/-- A minimum of 0 does not count as a filter here. -/
def Params.hasFilters (params : Params) : Bool :=
  params.key.filters.status.isSome || params.key.filters.source.isSome ||
    params.key.filters.sentiment.isSome || params.minRisk.any (· ≠ 0)

/-- A request is sent, its first statement runs, and its second statement makes the answer. -/
inductive Fetch
  | idle
  | sent
  | counted (rows : List Conversation)

/-- One entry of the cache keeps its last answer through later errors. -/
structure QueryState where
  data : Option ConversationListResponse
  failed : Bool
  fetch : Fetch

def QueryState.empty : QueryState := ⟨none, false, .idle⟩

/-- The browser keeps the visited addresses, and the reader the jobs that a table has shown. -/
structure Page where
  params : Params
  visited : List Params
  queries : Key → QueryState
  viewed : List Uuid

/-- Before an answer the page shows that it is loading, after one a table unless it is empty. -/
inductive Display
  | loading
  | error
  | empty
  | table (response : ConversationListResponse)

def QueryState.display (query : QueryState) : Display :=
  match query.data, query.fetch with
  | none, .sent | none, .counted _ => .loading
  | data, _ =>
      if query.failed then .error
      else match data with
        | none => .empty
        | some response => if response.items = [] then .empty else .table response

def Page.display (page : Page) : Display := (page.queries page.params.key).display

/-- The reader sees the items of a table. -/
def Page.render (page : Page) : Page :=
  match page.display with
  | .table response => {page with viewed := page.viewed ++ response.items.map (·.id)}
  | _ => page

def Page.goTo (page : Page) (params : Params) : Page :=
  {page with params, visited := params :: page.visited}

def Page.setQuery (page : Page) (key : Key) (query : QueryState) : Page :=
  {page with queries := Function.update page.queries key query}

inductive Action
  | setFilter (change : Change)
  | clear
  | previous
  | next
  | back (params : Params)
  | fetch
  | count (key : Key) (rows : List Conversation)
  | list (key : Key) (rows : List Conversation)
  | retry (key : Key)
  | fail (key : Key)
  | forget (key : Key)

/-- What the reader does changes the address, and what the cache does changes an entry.
Buttons that the page does not show, or shows disabled, have no step. -/
def Page.update (page : Page) : Action → Option Page
  | .setFilter change => some (page.goTo (page.params.setFilter change))
  | .clear =>
      if page.params.hasFilters then some (page.goTo ⟨none, none, none, none, 0⟩) else none
  | .previous =>
      match page.display with
      | .table _ =>
          if page.params.offset = 0 then none
          else some (page.goTo {page.params with offset := page.params.offset - pageSize})
      | _ => none
  | .next =>
      match page.display with
      | .table response =>
          if response.total ≤ page.params.offset + pageSize then none
          else some (page.goTo {page.params with offset := page.params.offset + pageSize})
      | _ => none
  | .back params => if params ∈ page.visited then some (page.goTo params) else none
  | .fetch =>
      let query := page.queries page.params.key
      match query.fetch with
      | .idle => some (page.setQuery page.params.key {query with fetch := .sent})
      | _ => none
  | .count key rows =>
      match (page.queries key).fetch with
      | .sent => some (page.setQuery key {page.queries key with fetch := .counted rows})
      | _ => none
  | .list key rows =>
      match (page.queries key).fetch with
      | .counted counted =>
          match browseConversations counted rows key.query with
          | .ok response => some (page.setQuery key ⟨some response, false, .idle⟩)
          | .error _ => some (page.setQuery key {page.queries key with failed := true, fetch := .idle})
      | _ => none
  -- The first error of a request only sends it again.
  | .retry key =>
      match (page.queries key).fetch with
      | .idle => none
      | _ => some (page.setQuery key {page.queries key with fetch := .sent})
  | .fail key =>
      match (page.queries key).fetch with
      | .idle => none
      | _ => some (page.setQuery key {page.queries key with failed := true, fetch := .idle})
  -- An entry that no page shows is dropped after a while.
  | .forget key =>
      match (page.queries key).fetch with
      | .idle => if key = page.params.key then none else some (page.setQuery key .empty)
      | _ => none

def Page.step (page : Page) (action : Action) : Option Page := (page.update action).map Page.render

/-- A page opens with an empty cache. -/
def Page.opened (params : Params) : Page := ⟨params, [params], fun _ => .empty, []⟩

end ConvoScore.Frontend
