import ConvoScore.Schema.Conversation

namespace ConvoScore.Ingest

/-- What `json.loads` builds. A Python string may hold lone surrogates, so it stores code points;
a number fits no field of the schema, so only its presence matters. -/
inductive Json
  | null
  | bool (value : Bool)
  | number
  | string (codes : List Nat)
  | array (items : List Json)
  | object (fields : List (List Nat × Json))

/-- A raised `ValueError` carries its text; a `RecursionError` is no `ValueError`. -/
inductive Loaded
  | value (json : Json)
  | valueError (text : Text)
  | recursionError

abbrev Bytes := List UInt8

/-- The codec is the code outside the repository: `json.loads` and the text of a validation error. -/
structure Codec where
  loads : Bytes → Loaded
  validationText : List (List Nat × Json) → Text

/-- A code point becomes a character unless it is a surrogate. -/
def decodeCode (code : Nat) : Option Char :=
  if code.isValidChar then some (Char.ofNat code) else none

/-- The schema accepts a string only when it is well-formed Unicode. -/
def decodeText (codes : List Nat) : Option Text := codes.mapM decodeCode

def encodeText (text : Text) : List Nat := text.map Char.toNat

/-- The value under a key of a dictionary, whose keys are distinct. -/
def field (fields : List (List Nat × Json)) (name : Text) : Option Json :=
  (fields.find? fun pair => pair.1 = encodeText name).map (·.2)

/-- `extra="forbid"` rejects every other key. -/
def onlyFields (fields : List (List Nat × Json)) (names : List Text) : Bool :=
  fields.all fun pair => names.any fun name => pair.1 = encodeText name

/-- A `str` field with a maximum length. -/
def validText (bound : Nat) : Json → Option {text : Text // text.length ≤ bound}
  | .string codes =>
      match decodeText codes with
      | some text => if bounded : text.length ≤ bound then some ⟨text, bounded⟩ else none
      | none => none
  | _ => none

def validRole : Json → Option Role
  | .string codes =>
      if codes = encodeText Role.customer.value then some .customer
      else if codes = encodeText Role.agent.value then some .agent
      else none
  | _ => none

/-- `Message.model_validate` needs both fields and allows no other. -/
def validMessage : Json → Option Message
  | .object fields =>
      if onlyFields fields ["role".toList, "content".toList] then
        match (field fields "role".toList).bind validRole,
            (field fields "content".toList).bind (validText maxMessageChars) with
        | some role, some content =>
            if nonempty : 1 ≤ content.1.length then some ⟨role, content.1, nonempty, content.2⟩
            else none
        | _, _ => none
      else none
  | _ => none

/-- An optional text defaults to none and may be null. -/
def validOptionalText (bound : Nat) (value : Option Json) :
    Option {text : Option Text // ∀ inner ∈ text, inner.length ≤ bound} :=
  match value with
  | none | some .null => some ⟨none, by simp⟩
  | some json => (validText bound json).map fun text => ⟨some text.1, by simpa using text.2⟩

/-- The tags default to the empty list and may not be null. -/
def validTags (value : Option Json) :
    Option {tags : List Text // (∀ tag ∈ tags, tag.length ≤ maxTagChars) ∧ tags.length ≤ maxTags} :=
  match value with
  | none => some ⟨[], by simp, by simp⟩
  | some (.array items) =>
      match items.mapM (validText maxTagChars) with
      | some tags =>
          if bounded : tags.length ≤ maxTags then
            some ⟨tags.map Subtype.val, by simp +contextual, by simpa using bounded⟩
          else none
      | none => none
  | some _ => none

/-- `ConversationMetadata.model_validate`; a missing field takes its default. -/
def validMetadata (value : Option Json) : Option ConversationMetadata :=
  match value with
  | none => some .empty
  | some (.object fields) =>
      if onlyFields fields ["channel".toList, "tags".toList, "external_id".toList] then
        match validOptionalText maxChannelChars (field fields "channel".toList),
            validTags (field fields "tags".toList),
            validOptionalText maxExternalIdChars (field fields "external_id".toList) with
        | some channel, some tags, some externalId =>
            some ⟨channel.1, tags.1, externalId.1, channel.2, tags.2.1, tags.2.2, externalId.2⟩
        | _, _, _ => none
      else none
  | some _ => none

/-- `ConversationInput.model_validate` of a dictionary, with its model validator at the end. -/
def modelValidate (fields : List (List Nat × Json)) : Option ConversationInput :=
  if onlyFields fields ["messages".toList, "metadata".toList] then
    match field fields "messages".toList, validMetadata (field fields "metadata".toList) with
    | some (.array items), some metadata =>
        match items.mapM validMessage with
        | some messages =>
            if rules : 1 ≤ messages.length ∧ messages.length ≤ maxMessages ∧
                totalChars messages ≤ maxTotalChars ∧
                ∃ message ∈ messages, message.role = .customer then
              some ⟨messages, metadata, rules.1, rules.2.1, rules.2.2.1, rules.2.2.2⟩
            else none
        | none => none
    | _, _ => none
  else none

def maxObjectBytes : Nat := 256 * 1024

/-- An object is a conversation or has a problem that its record keeps. -/
inductive Parsed
  | conversation (conversation : ConversationInput)
  | problem (text : Text)

/-- `_parse` catches value errors and validation errors; a recursion error leaves it, as none. -/
def parse (codec : Codec) (raw : Bytes) : Option Parsed :=
  if maxObjectBytes < raw.length then
    some (.problem ("object is ".toList ++ (toString raw.length).toList ++ " bytes, limit is ".toList ++
      (toString maxObjectBytes).toList))
  else
    match codec.loads raw with
    | .recursionError => none
    | .valueError text => some (.problem ("not valid JSON: ".toList ++ text))
    | .value (.object fields) =>
        match modelValidate fields with
        | some conversation => some (.conversation conversation)
        | none => some (.problem
            ("does not match the conversation schema: ".toList ++ codec.validationText fields))
    | .value _ => some (.problem "expected a JSON object with a 'messages' array".toList)

/-- Every problem has a text. -/
theorem parse_problem_nonempty {codec : Codec} {raw : Bytes} {text : Text}
    (parsed : parse codec raw = some (.problem text)) : text ≠ [] := by
  unfold parse at parsed
  split at parsed
  · cases parsed
    simp
  · split at parsed
    · cases parsed
    · cases parsed
      simp
    · split at parsed
      · cases parsed
      · cases parsed
        simp
    · cases parsed
      simp

end ConvoScore.Ingest
