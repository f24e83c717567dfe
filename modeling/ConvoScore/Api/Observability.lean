import ConvoScore.Library.Occurrence
import ConvoScore.Schema.Conversation

namespace ConvoScore
open Library

/-- A path parameter is named by an identifier. -/
def isIdentifier : Text → Bool
  | [] => false
  | first :: rest => (first.isAlpha || first == '_') && rest.all fun letter =>
      letter.isAlphanum || letter == '_'

/-- This text is a parameter in a template. -/
def placeholderText (name : Text) : Text := '\x7b' :: (name ++ ['\x7d'])

inductive Segment
  | literal (text : Text)
  | placeholder (name : Text)
  deriving DecidableEq

def Segment.text : Segment → Text
  | .literal text => text
  | .placeholder name => placeholderText name

/-- A request has a value in the place of a parameter. -/
def Segment.matched (value : Text → Text) : Segment → Text
  | .literal text => text
  | .placeholder name => value name

def Segment.name : Segment → Option Text
  | .literal _ => none
  | .placeholder name => some name

/-- A route is a list of segments; its parameters have different names, and a segment that
contains a parameter is not literal. -/
structure Route where
  segments : List Segment
  identifiers : ∀ name, .placeholder name ∈ segments → isIdentifier name = true
  distinct : (segments.filterMap Segment.name).Nodup
  literals : ∀ text, .literal text ∈ segments →
    '/' ∉ text ∧ ∀ name, isIdentifier name = true → ¬ placeholderText name <:+: text

/-- The label that the metrics are meant to have. -/
def Route.template (route : Route) : Text :=
  route.segments.flatMap fun segment => '/' :: segment.text

/-- These fields of a request are what the label is made from. -/
structure RequestScope where
  path : Text
  route : Option Route
  pathParams : Option (List (Text × Text))

/-- The captured values are replaced one after another, each at its first occurrence. -/
def routeTemplate (scope : RequestScope) : Text :=
  match scope.route with
  | none => "unmatched".toList
  | some _ => (scope.pathParams.getD []).foldl
      (fun template param => replaceFirst param.2 (placeholderText param.1) template) scope.path

/-- A matched request has a value for each parameter, not empty and inside its segment. -/
structure MatchedRequest where
  route : Route
  value : Text → Text
  nonempty : ∀ name, .placeholder name ∈ route.segments → value name ≠ []
  oneSegment : ∀ name, .placeholder name ∈ route.segments → '/' ∉ value name

/-- The parameters come in the order of their segments. -/
def captures (value : Text → Text) (segments : List Segment) : List (Text × Text) :=
  (segments.filterMap Segment.name).map fun name => (name, value name)

def MatchedRequest.scope (request : MatchedRequest) : RequestScope where
  path := request.route.segments.flatMap fun segment => '/' :: segment.matched request.value
  route := some request.route
  pathParams := some (captures request.value request.route.segments)

/-- The replacements on the list of the segments. -/
def relabel (params : List (Text × Text)) (parts : List Text) : List Text :=
  params.foldl (fun parts param => replaceInFirst param.2 (placeholderText param.1) parts) parts

theorem isIdentifier_avoids {name : Text} {symbol : Char} (identifier : isIdentifier name = true)
    (other : (symbol.isAlphanum || symbol == '_') = false) : symbol ∉ name := by
  have letters : ∀ letter ∈ name, (letter.isAlphanum || letter == '_') = true := by
    cases name with
    | nil => simp
    | cons first rest =>
        simp only [isIdentifier, Bool.and_eq_true, Bool.or_eq_true, List.all_eq_true] at identifier
        refine List.forall_mem_cons.mpr ⟨?_, by simpa using identifier.2⟩
        rcases identifier.1 with alpha | underscore
        · simp [Char.isAlphanum, alpha]
        · simp [underscore]
  intro member
  exact absurd (letters symbol member) (by simp [other])

/-- No parameter is inside another one. -/
theorem placeholderText_infix {name other : Text} (identifier : isIdentifier other = true)
    (occurs : placeholderText name <:+: placeholderText other) : name = other := by
  have noOpen : '\x7b' ∉ other := isIdentifier_avoids identifier (by decide)
  have noClose : '\x7d' ∉ other := isIdentifier_avoids identifier (by decide)
  rcases List.infix_cons_iff.mp occurs with starts | later
  · have starts := (List.cons_prefix_cons.mp starts).2
    rcases List.prefix_concat_iff.mp starts with whole | inside
    · exact List.append_cancel_right whole
    · exact absurd (inside.subset (by simp)) noClose
  · have opens : '\x7b' ∈ other ++ ['\x7d'] := later.subset (by simp [placeholderText])
    rcases List.mem_append.mp opens with member | close
    · exact absurd member noOpen
    · exact absurd close (by decide)

theorem slash_not_mem_placeholderText {name : Text} (identifier : isIdentifier name = true) :
    '/' ∉ placeholderText name := by
  have noSlash := isIdentifier_avoids identifier (by decide : ('/'.isAlphanum || '/' == '_') = false)
  simp [placeholderText, noSlash]

section Relabel
variable {params : List (Text × Text)} {parts : List Text}

/-- Replacing in the path replaces in its segments. -/
theorem replaceFirst_path (clean : ∀ param ∈ params, '/' ∉ param.2 ∧ param.2 ≠ []) :
    params.foldl (fun template param => replaceFirst param.2 (placeholderText param.1) template)
      (parts.flatMap ('/' :: ·)) = (relabel params parts).flatMap ('/' :: ·) := by
  induction params generalizing parts with
  | nil => rfl
  | cons param rest ih =>
      obtain ⟨⟨noSlash, nonempty⟩, others⟩ := List.forall_mem_cons.mp clean
      rw [List.foldl_cons, replaceFirst_flatMap noSlash nonempty, ih others]
      rfl

theorem relabel_avoids (clean : ∀ part ∈ parts, '/' ∉ part)
    (identifiers : ∀ param ∈ params, isIdentifier param.1 = true) :
    ∀ part ∈ relabel params parts, '/' ∉ part := by
  induction params generalizing parts with
  | nil => exact clean
  | cons param rest ih =>
      obtain ⟨first, others⟩ := List.forall_mem_cons.mp identifiers
      exact ih (replaceInFirst_avoids clean (slash_not_mem_placeholderText first)) others

/-- After all replacements a segment is what it was, or contains a replaced parameter. -/
theorem relabel_part (params : List (Text × Text)) (before after : List Text) (part : Text) :
    ∃ earlier changed later, relabel params (before ++ part :: after) =
      earlier ++ changed :: later ∧ earlier.length = before.length ∧
        (changed = part ∨ ∃ param ∈ params, placeholderText param.1 <:+: changed) := by
  induction params generalizing before part after with
  | nil => exact ⟨before, part, after, rfl, rfl, .inl rfl⟩
  | cons param rest ih =>
      obtain ⟨earlier, changed, later, step, sameLength, first⟩ :=
        replaceInFirst_part param.2 (placeholderText param.1) before after part
      obtain ⟨earliest, last, latest, run, stillLength, others⟩ := ih earlier later changed
      refine ⟨earliest, last, latest, ?_, stillLength.trans sameLength, ?_⟩
      · rw [← run, ← step]
        rfl
      · rcases others with same | ⟨other, member, inside⟩
        · rcases first with unchanged | replaced
          · exact .inl (same.trans unchanged)
          · exact .inr ⟨param, List.mem_cons_self, same ▸ replaced⟩
        · exact .inr ⟨other, List.mem_cons_of_mem _ member, inside⟩

/-- A segment that no parameter in question can become is not replaced as it should be. -/
theorem relabel_ne {before earlier : List Text} {part target : Text} (after later : List Text)
    (sameLength : earlier.length = before.length) (different : part ≠ target)
    (foreign : ∀ param ∈ params, ¬ placeholderText param.1 <:+: target) :
    relabel params (before ++ part :: after) ≠ earlier ++ target :: later := by
  obtain ⟨first, changed, last, run, firstLength, kept⟩ := relabel_part params before after part
  intro same
  obtain ⟨_, tails⟩ := List.append_inj (run.symm.trans same) (firstLength.trans sameLength.symm)
  obtain ⟨rfl, _⟩ := List.cons.inj tails
  rcases kept with unchanged | ⟨param, member, inside⟩
  · exact different unchanged.symm
  · exact foreign param member inside

end Relabel

/-- No parameter's value occurs in a segment before it. -/
def ValuesApart (value : Text → Text) (done : List Text) (segments : List Segment) : Prop :=
  ∀ before name after, segments = before ++ .placeholder name :: after →
    ∀ part ∈ done ++ before.map Segment.text, ¬ value name <:+: part

section Segments
variable {value : Text → Text} {done : List Text} {segments : List Segment} {name text : Text}

/-- A captured value belongs to a parameter of the route. -/
theorem mem_captures {param : Text × Text} (member : param ∈ captures value segments) :
    .placeholder param.1 ∈ segments ∧ param.2 = value param.1 := by
  obtain ⟨name, named, rfl⟩ := List.mem_map.mp member
  obtain ⟨segment, listed, same⟩ := List.mem_filterMap.mp named
  cases segment with
  | literal text => cases same
  | placeholder other =>
      cases same
      exact ⟨listed, rfl⟩

theorem captures_literal : captures value (.literal text :: segments) = captures value segments := rfl

theorem valuesApart_nil : ValuesApart value done [] := by
  intro before name after split
  simp at split

theorem valuesApart_literal : ValuesApart value done (.literal text :: segments) ↔
    ValuesApart value (done ++ [text]) segments := by
  constructor
  · intro apart before name after split
    have earlier := apart (.literal text :: before) name after (by rw [split]; rfl)
    simpa [Segment.text] using earlier
  · intro apart before name after split
    cases before with
    | nil => simp at split
    | cons first before =>
        obtain ⟨rfl, rest⟩ := List.cons.inj split
        simpa [Segment.text] using apart before name after rest

theorem valuesApart_placeholder : ValuesApart value done (.placeholder name :: segments) ↔
    (∀ part ∈ done, ¬ value name <:+: part) ∧
      ValuesApart value (done ++ [placeholderText name]) segments := by
  constructor
  · intro apart
    refine ⟨?_, ?_⟩
    · simpa using apart [] name segments rfl
    · intro before other after split
      have earlier := apart (.placeholder name :: before) other after (by rw [split]; rfl)
      simpa [Segment.text] using earlier
  · rintro ⟨first, apart⟩ before other after split
    cases before with
    | nil =>
        obtain ⟨same, _⟩ := List.cons.inj split
        cases same
        simpa using first
    | cons segment before =>
        obtain ⟨rfl, rest⟩ := List.cons.inj split
        simpa [Segment.text] using apart before other after rest

/-- A part that contains none of the later parameters keeps the done ones fresh. -/
theorem fresh_concat {segment : Segment} {last : Text}
    (fresh : ∀ name, .placeholder name ∈ segment :: segments → ∀ part ∈ done,
      ¬ placeholderText name <:+: part)
    (own : ∀ name, .placeholder name ∈ segments → ¬ placeholderText name <:+: last) :
    ∀ name, .placeholder name ∈ segments → ∀ part ∈ done ++ [last],
      ¬ placeholderText name <:+: part := by
  intro name member
  refine List.forall_mem_append.mpr ⟨fresh name (List.mem_cons_of_mem _ member), ?_⟩
  intro part same
  rw [List.mem_singleton.mp same]
  exact own name member

/-- A value that occurs in an earlier part stays in its own segment, which is then never the
parameter again. -/
theorem relabel_early {params : List (Text × Text)} (after later : List Text)
    (early : ∃ part ∈ done, value name <:+: part)
    (fresh : ∀ part ∈ done, ¬ placeholderText name <:+: part)
    (foreign : ∀ param ∈ params, ¬ placeholderText param.1 <:+: placeholderText name) :
    relabel ((name, value name) :: params) (done ++ value name :: after) ≠
      done ++ placeholderText name :: later := by
  obtain ⟨changed, sameLength, step⟩ :=
    replaceInFirst_early (placeholderText name) (value name :: after) early
  have different : value name ≠ placeholderText name := by
    intro equal
    obtain ⟨part, member, occurs⟩ := early
    exact fresh part member (equal ▸ occurs)
  have never := relabel_ne after later sameLength.symm different foreign
  rw [← step] at never
  exact never

/-- The replacements give the template exactly when each value first occurs in its own segment. -/
theorem relabel_eq_iff (value : Text → Text) (done : List Text)
    (identifiers : ∀ name, .placeholder name ∈ segments → isIdentifier name = true)
    (distinct : (segments.filterMap Segment.name).Nodup)
    (literals : ∀ text, .literal text ∈ segments →
      ∀ name, isIdentifier name = true → ¬ placeholderText name <:+: text)
    (fresh : ∀ name, .placeholder name ∈ segments → ∀ part ∈ done,
      ¬ placeholderText name <:+: part) :
    relabel (captures value segments) (done ++ segments.map (Segment.matched value)) =
      done ++ segments.map Segment.text ↔ ValuesApart value done segments := by
  induction segments generalizing done with
  | nil => exact ⟨fun _ => valuesApart_nil, fun _ => rfl⟩
  | cons segment rest ih =>
      have laterIdentifiers : ∀ name, .placeholder name ∈ rest → isIdentifier name = true := by
        intro name member
        exact identifiers name (List.mem_cons_of_mem _ member)
      have laterLiterals : ∀ text, .literal text ∈ rest →
          ∀ name, isIdentifier name = true → ¬ placeholderText name <:+: text := by
        intro text member
        exact literals text (List.mem_cons_of_mem _ member)
      cases segment with
      | literal text =>
          have stillFresh := fresh_concat fresh fun name member =>
            literals text List.mem_cons_self name (laterIdentifiers name member)
          have run := ih (done ++ [text]) laterIdentifiers distinct laterLiterals stillFresh
          simp only [List.append_assoc, List.singleton_append] at run
          rw [valuesApart_literal, ← run, captures_literal]
          rfl
      | placeholder name =>
          obtain ⟨unique, laterDistinct⟩ := List.nodup_cons.mp distinct
          have otherName : ∀ other, .placeholder other ∈ rest →
              ¬ placeholderText other <:+: placeholderText name := by
            intro other member inside
            have same := placeholderText_infix (identifiers name List.mem_cons_self) inside
            exact unique (List.mem_filterMap.mpr ⟨_, member, same ▸ rfl⟩)
          by_cases early : ∃ part ∈ done, value name <:+: part
          · have foreign : ∀ param ∈ captures value rest,
                ¬ placeholderText param.1 <:+: placeholderText name :=
              fun param member => otherName _ (mem_captures member).1
            have never := relabel_early (rest.map (Segment.matched value))
              (rest.map Segment.text) early (fresh name List.mem_cons_self) foreign
            refine ⟨fun same => absurd same never, ?_⟩
            intro apart
            obtain ⟨part, member, occurs⟩ := early
            exact absurd occurs ((valuesApart_placeholder.mp apart).1 part member)
          · have absent : ∀ part ∈ done, ¬ value name <:+: part := by
              intro part member occurs
              exact early ⟨part, member, occurs⟩
            have step : replaceInFirst (value name) (placeholderText name)
                (done ++ value name :: rest.map (Segment.matched value)) =
                  (done ++ [placeholderText name]) ++ rest.map (Segment.matched value) := by
              rw [replaceInFirst_skip absent, replaceInFirst_self, List.append_assoc]
              rfl
            have run := ih (done ++ [placeholderText name]) laterIdentifiers laterDistinct
              laterLiterals (fresh_concat fresh otherName)
            rw [← step] at run
            rw [valuesApart_placeholder, and_iff_right absent, ← run, List.append_assoc]
            rfl

/-- No part of a matched path has a slash. -/
theorem MatchedRequest.matched_clean (request : MatchedRequest) :
    ∀ part ∈ request.route.segments.map (Segment.matched request.value), '/' ∉ part := by
  intro part member
  obtain ⟨segment, listed, rfl⟩ := List.mem_map.mp member
  cases segment with
  | literal text => exact (request.route.literals text listed).1
  | placeholder name => exact request.oneSegment name listed

/-- No part of a template has a slash. -/
theorem Route.text_clean (route : Route) :
    ∀ part ∈ route.segments.map Segment.text, '/' ∉ part := by
  intro part member
  obtain ⟨segment, listed, rfl⟩ := List.mem_map.mp member
  cases segment with
  | literal text => exact (route.literals text listed).1
  | placeholder name => exact slash_not_mem_placeholderText (route.identifiers name listed)

/-- A route's label is its template exactly when no captured value occurs in an earlier segment
of the template, by itself or as a part of it. -/
theorem routeTemplate_eq_iff (request : MatchedRequest) :
    routeTemplate request.scope = request.route.template ↔
      ∀ before name after, request.route.segments = before ++ .placeholder name :: after →
        ∀ segment ∈ before, ¬ request.value name <:+: segment.text := by
  have clean : ∀ param ∈ captures request.value request.route.segments,
      '/' ∉ param.2 ∧ param.2 ≠ [] := by
    intro param member
    obtain ⟨listed, same⟩ := mem_captures member
    rw [same]
    exact ⟨request.oneSegment _ listed, request.nonempty _ listed⟩
  have identifiers : ∀ param ∈ captures request.value request.route.segments,
      isIdentifier param.1 = true := by
    intro param member
    exact request.route.identifiers _ (mem_captures member).1
  have label : routeTemplate request.scope = (relabel
      (captures request.value request.route.segments)
      (request.route.segments.map (Segment.matched request.value))).flatMap ('/' :: ·) := by
    rw [← replaceFirst_path clean, List.flatMap_map]
    rfl
  have template : request.route.template =
      (request.route.segments.map Segment.text).flatMap ('/' :: ·) := by
    rw [List.flatMap_map]
    rfl
  have segments := relabel_eq_iff request.value []
    request.route.identifiers request.route.distinct
    (fun text listed => (request.route.literals text listed).2) (by simp)
  have apart : ValuesApart request.value [] request.route.segments ↔
      ∀ before name after, request.route.segments = before ++ .placeholder name :: after →
        ∀ segment ∈ before, ¬ request.value name <:+: segment.text := by
    simp only [ValuesApart, List.nil_append, List.forall_mem_map]
  rw [← apart, ← segments, label, template]
  constructor
  · intro same
    exact flatMap_cons_inj (relabel_avoids request.matched_clean identifiers)
      request.route.text_clean same
  · intro same
    exact congrArg (List.flatMap ('/' :: ·)) same

/-- A segment without a brace contains no parameter. -/
theorem placeholderText_not_infix (noBrace : '\x7b' ∉ text) : ¬ placeholderText name <:+: text := by
  intro inside
  exact noBrace (inside.subset List.mem_cons_self)

/-- This route serves the status of a job. -/
def jobRoute : Route where
  segments := [.literal "api".toList, .literal "jobs".toList, .placeholder "job_id".toList]
  identifiers := by
    intro name listed
    obtain rfl : name = "job_id".toList := by simpa using listed
    decide
  distinct := by decide
  literals := by
    intro text listed
    have either : text = "api".toList ∨ text = "jobs".toList := by simpa using listed
    rcases either with rfl | rfl
    · exact ⟨by decide, fun name _ => placeholderText_not_infix (by decide)⟩
    · exact ⟨by decide, fun name _ => placeholderText_not_infix (by decide)⟩

/-- The id of this request is not a UUID, but the route matches it. -/
def unlabelledRequest : MatchedRequest where
  route := jobRoute
  value := fun _ => "api".toList
  nonempty := by
    intro _ _
    decide
  oneSegment := by
    intro _ _
    decide

/-- The first segment of the path is replaced instead of the id. -/
theorem unlabelledRequest_label : ¬ routeTemplate unlabelledRequest.scope =
    unlabelledRequest.route.template := by
  decide +kernel

end Segments
end ConvoScore
