import ConvoScore.Ingest.Parse
import ConvoScore.Library.Json
import ConvoScore.Pipeline.Callers
import ConvoScore.Pipeline.Sources
import ConvoScore.Schema.Canonical
import Mathlib.Algebra.Group.Action.Defs
import Mathlib.Algebra.Order.BigOperators.Group.List

namespace ConvoScore
open Library.Json

/-- The keys of the dictionaries that `normalized` builds. -/
def payloadKey (name : String) : Codes := codesOf name.toList

def payloadText (text : Text) : Value := .string (codesOf text)

def payloadMessage (message : Role × Text) : Value :=
  .object [(payloadKey "role", payloadText message.1.value),
    (payloadKey "content", payloadText message.2)]

/-- A text that is none has no field. -/
def payloadOptional (name : String) (text : Option Text) : List (Codes × Value) :=
  (text.map fun text => (payloadKey name, payloadText text)).toList

/-- The fields of the metadata in the order of the model, without those that are none. -/
def payloadMetadata (channel : Option Text) (tags : List Text) (externalId : Option Text) :
    List (Codes × Value) :=
  payloadOptional "channel" channel ++ (payloadKey "tags", .array (tags.map payloadText)) ::
    payloadOptional "external_id" externalId

/-- The stored payload as the value that `json.dumps` writes. -/
def NormalizedConversation.value (payload : NormalizedConversation) : Value :=
  .object [(payloadKey "messages", .array (payload.messages.map payloadMessage)),
    (payloadKey "metadata",
      .object (payloadMetadata payload.channel payload.tags payload.externalId))]

/-- The bytes of the payload when it is written as a JSON object. -/
def NormalizedConversation.bytes (payload : NormalizedConversation) : Ingest.Bytes :=
  (dumps asciiStyle payload.value).map UInt8.ofNat

namespace Ingest

mutual

/-- What `_parse` reads of a value; a number fits no field. -/
def jsonOf : Value → Json
  | .null => .null
  | .bool value => .bool value
  | .number _ => .number
  | .string codes => .string codes
  | .array items => .array (jsonsOf items)
  | .object fields => .object (jsonFieldsOf fields)

def jsonsOf : List Value → List Json
  | [] => []
  | item :: rest => jsonOf item :: jsonsOf rest

def jsonFieldsOf : List (Codes × Value) → List (List Nat × Json)
  | [] => []
  | (key, value) :: rest => (key, jsonOf value) :: jsonFieldsOf rest

end

/-- `json.loads` reads an ASCII text that nests at most so deep. -/
def Codec.ReadsAscii (codec : Codec) (depth : Nat) : Prop :=
  ∀ codes : Codes, (∀ code ∈ codes, IsAscii code) → ∀ value,
    Library.Json.loads depth codes = .ok value → codec.loads (codes.map UInt8.ofNat) = .value (jsonOf value)

theorem decodeCode_toNat (letter : Char) : decodeCode letter.toNat = some letter := by
  have valid : letter.toNat.isValidChar := letter.valid
  rw [decodeCode, if_pos valid, Char.ofNat_toNat]

theorem decodeText_codesOf (text : Text) : decodeText (codesOf text) = some text := by
  induction text with
  | nil => rfl
  | cons letter rest ih =>
      rw [decodeText, codesOf] at ih
      rw [decodeText, codesOf, List.map_cons, List.mapM_cons, ih, decodeCode_toNat]
      rfl

theorem validText_payload {bound : Nat} {text : Text} (bounded : text.length ≤ bound) :
    validText bound (jsonOf (payloadText text)) = some ⟨text, bounded⟩ := by
  rw [payloadText, jsonOf, validText, decodeText_codesOf]
  exact dif_pos bounded

theorem validRole_payload (role : Role) : validRole (jsonOf (payloadText role.value)) = some role := by
  cases role <;> rfl

theorem validMessage_payload (message : Message) :
    validMessage (jsonOf (payloadMessage (message.role, message.content))) = some message := by
  have role := validRole_payload message.role
  have content := validText_payload message.bounded
  have fields : jsonOf (payloadMessage (message.role, message.content)) =
      .object [(payloadKey "role", jsonOf (payloadText message.role.value)),
        (payloadKey "content", jsonOf (payloadText message.content))] := by
    simp only [payloadMessage, jsonOf, jsonFieldsOf]
  have known : onlyFields [(payloadKey "role", jsonOf (payloadText message.role.value)),
      (payloadKey "content", jsonOf (payloadText message.content))]
      ["role".toList, "content".toList] = true := rfl
  have first : field [(payloadKey "role", jsonOf (payloadText message.role.value)),
      (payloadKey "content", jsonOf (payloadText message.content))] "role".toList =
      some (jsonOf (payloadText message.role.value)) := rfl
  have second : field [(payloadKey "role", jsonOf (payloadText message.role.value)),
      (payloadKey "content", jsonOf (payloadText message.content))] "content".toList =
      some (jsonOf (payloadText message.content)) := rfl
  simp only [fields, validMessage, known, if_true, first, second, Option.bind_some, role, content]
  exact dif_pos message.nonempty

theorem mapM_validMessage (messages : List Message) :
    (jsonsOf (messages.map fun message => payloadMessage (message.role, message.content))).mapM
      validMessage = some messages := by
  induction messages with
  | nil => rfl
  | cons message rest ih =>
      rw [List.map_cons, jsonsOf, List.mapM_cons, validMessage_payload, ih]
      rfl

/-- A text that is none, or that is there, is read as it is. -/
theorem validOptionalText_payload {bound : Nat} {text : Option Text}
    (bounded : ∀ inner ∈ text, inner.length ≤ bound) :
    validOptionalText bound (text.map fun text => jsonOf (payloadText text)) =
      some ⟨text, bounded⟩ := by
  cases text with
  | none => rfl
  | some text =>
      have read := validText_payload (bounded text rfl)
      rw [payloadText, jsonOf] at read
      simp only [Option.map_some, payloadText, jsonOf, validOptionalText, read]

theorem mapM_validText {bound : Nat} {texts : List Text} (bounded : ∀ text ∈ texts, text.length ≤ bound) :
    (jsonsOf (texts.map payloadText)).mapM (validText bound) =
      some (texts.attach.map fun text => ⟨text.1, bounded text.1 text.2⟩) := by
  induction texts with
  | nil => rfl
  | cons text rest ih =>
      obtain ⟨first, later⟩ := List.forall_mem_cons.mp bounded
      rw [List.map_cons, jsonsOf, List.mapM_cons, validText_payload first, ih later]
      simp

theorem validTags_payload {tags : List Text} (bounded : ∀ tag ∈ tags, tag.length ≤ maxTagChars)
    (few : tags.length ≤ maxTags) :
    validTags (some (.array (jsonsOf (tags.map payloadText)))) = some ⟨tags, bounded, few⟩ := by
  have same : (tags.attach.map fun tag =>
      (⟨tag.1, bounded tag.1 tag.2⟩ : {text : Text // text.length ≤ maxTagChars})).map Subtype.val =
      tags := by
    simp
  simp only [validTags, mapM_validText bounded]
  rw [dif_pos (by simpa using few)]
  simp only [same]

/-- The metadata has no other field, and each of its fields is found. -/
theorem payloadMetadata_fields (channel : Option Text) (tags : List Text)
    (externalId : Option Text) :
    let fields := jsonFieldsOf (payloadMetadata channel tags externalId)
    onlyFields fields ["channel".toList, "tags".toList, "external_id".toList] = true ∧
    field fields "channel".toList = channel.map (fun text => jsonOf (payloadText text)) ∧
    field fields "tags".toList = some (.array (jsonsOf (tags.map payloadText))) ∧
    field fields "external_id".toList = externalId.map fun text => jsonOf (payloadText text) := by
  cases channel <;> cases externalId <;> exact ⟨rfl, rfl, rfl, rfl⟩

theorem validMetadata_payload (metadata : ConversationMetadata) :
    validMetadata (some (.object
      (jsonFieldsOf (payloadMetadata metadata.channel metadata.tags metadata.externalId)))) =
      some metadata := by
  obtain ⟨known, channel, tags, externalId⟩ :=
    payloadMetadata_fields metadata.channel metadata.tags metadata.externalId
  simp only [validMetadata, known, if_true, channel, tags, externalId,
    validOptionalText_payload metadata.channelBounded,
    validTags_payload metadata.tagBounded metadata.tagsBounded,
    validOptionalText_payload metadata.externalIdBounded]

/-- The stored payload of a conversation is validated as that conversation. -/
theorem modelValidate_payload (conversation : ConversationInput) :
    ∃ fields, jsonOf conversation.normalized.value = .object fields ∧
      modelValidate fields = some conversation := by
  have metadata := validMetadata_payload conversation.metadata
  have messages := mapM_validMessage conversation.messages
  refine ⟨[(payloadKey "messages", .array (jsonsOf (conversation.messages.map fun message =>
      payloadMessage (message.role, message.content)))),
    (payloadKey "metadata", .object (jsonFieldsOf (payloadMetadata conversation.metadata.channel
      conversation.metadata.tags conversation.metadata.externalId)))], ?_, ?_⟩
  · simp only [NormalizedConversation.value, ConversationInput.normalized, jsonOf, jsonFieldsOf,
      List.map_map, Function.comp_def]
  · generalize jsonsOf (conversation.messages.map fun message =>
      payloadMessage (message.role, message.content)) = items at messages
    generalize jsonFieldsOf (payloadMetadata conversation.metadata.channel
      conversation.metadata.tags conversation.metadata.externalId) = rest at metadata
    have known : onlyFields [(payloadKey "messages", .array items),
        (payloadKey "metadata", .object rest)] ["messages".toList, "metadata".toList] = true := rfl
    have first : field [(payloadKey "messages", .array items),
        (payloadKey "metadata", .object rest)] "messages".toList = some (.array items) := rfl
    have second : field [(payloadKey "messages", .array items),
        (payloadKey "metadata", .object rest)] "metadata".toList = some (.object rest) := rfl
    simp only [modelValidate, known, if_true, first, second, metadata, messages]
    exact dif_pos ⟨conversation.nonempty, conversation.bounded, conversation.totalBounded,
      conversation.hasCustomer⟩

section Size

theorem payloadText_length (text : Text) :
    (dumps asciiStyle (payloadText text)).length ≤ 12 * text.length + 2 := by
  have bound := asciiStyle_string_length (codesOf text)
  rw [payloadText, dumps]
  simpa [codesOf] using bound

/-- An array takes its items, what stands between them and two brackets. -/
theorem array_length (items : List Value) : (dumps asciiStyle (.array items)).length ≤
    ((items.map (dumps asciiStyle)).map List.length).sum + 2 * items.length + 2 := by
  have joined := asciiStyle_join_length (items.map (dumps asciiStyle))
  rw [dumps, dumpsItems_eq]
  simp only [List.length_cons, List.length_append, List.length_nil, List.length_map] at joined ⊢
  omega

/-- The lengths of the fields of an object, one by one. -/
def fieldLengths (fields : List (Codes × Value)) : List Nat :=
  fields.map fun field =>
    (asciiStyle.string field.1).length + 2 + (dumps asciiStyle field.2).length

theorem object_length (fields : List (Codes × Value)) :
    (dumps asciiStyle (.object fields)).length ≤
      (fieldLengths fields).sum + 2 * fields.length + 2 := by
  have joined := asciiStyle_join_length
    (fields.map fun field => asciiStyle.field field.1 (dumps asciiStyle field.2))
  rw [dumps, dumpsFields_eq]
  simp only [fieldLengths, List.length_cons, List.length_append, List.length_nil, List.length_map,
    List.map_map, Function.comp_def, asciiStyle_field_length] at joined ⊢
  omega

theorem payloadMessage_length (message : Role × Text) :
    (dumps asciiStyle (payloadMessage message)).length ≤ 12 * message.2.length + 125 := by
  have role : message.1.value.length ≤ 8 := by cases message.1 <;> decide
  have roleBound := payloadText_length message.1.value
  have contentBound := payloadText_length message.2
  have roleKey : (asciiStyle.string (payloadKey "role")).length = 6 := rfl
  have contentKey : (asciiStyle.string (payloadKey "content")).length = 9 := rfl
  have whole := object_length [(payloadKey "role", payloadText message.1.value),
    (payloadKey "content", payloadText message.2)]
  rw [payloadMessage]
  simp only [fieldLengths, List.map_cons, List.map_nil, List.sum_cons, List.sum_nil,
    List.length_cons, List.length_nil, roleKey, contentKey] at whole
  omega

theorem payloadMessages_length (messages : List Message) :
    ((messages.map fun message => dumps asciiStyle
      (payloadMessage (message.role, message.content))).map List.length).sum ≤
      12 * totalChars messages + 125 * messages.length := by
  induction messages with
  | nil => exact Nat.zero_le _
  | cons message rest ih =>
      have first : (dumps asciiStyle (payloadMessage (message.role, message.content))).length ≤
          12 * message.content.length + 125 := payloadMessage_length (message.role, message.content)
      simp only [totalChars, List.map_cons, List.sum_cons, List.length_cons] at ih ⊢
      omega

theorem payloadTags_length {tags : List Text} (bounded : ∀ tag ∈ tags, tag.length ≤ maxTagChars)
    (few : tags.length ≤ maxTags) :
    (dumps asciiStyle (.array (tags.map payloadText))).length ≤ 7722 := by
  have whole := array_length (tags.map payloadText)
  have each : ∀ length ∈ ((tags.map payloadText).map (dumps asciiStyle)).map List.length,
      length ≤ 770 := by
    intro length member
    simp only [List.map_map, List.mem_map, Function.comp_apply] at member
    obtain ⟨tag, inside, rfl⟩ := member
    have bound := payloadText_length tag
    have short : tag.length ≤ 64 := bounded tag inside
    omega
  have sum := List.sum_le_card_nsmul _ 770 each
  have count : tags.length ≤ 10 := few
  simp only [List.length_map, smul_eq_mul] at whole sum
  omega

theorem payloadOptional_length {text : Option Text} {bound : Nat} (name : String)
    (bounded : ∀ inner ∈ text, inner.length ≤ bound) :
    (fieldLengths (payloadOptional name text)).sum ≤
      (asciiStyle.string (payloadKey name)).length + 12 * bound + 4 ∧
    (payloadOptional name text).length ≤ 1 := by
  cases text with
  | none => exact ⟨Nat.zero_le _, Nat.zero_le _⟩
  | some text =>
      have written := payloadText_length text
      have short := bounded text rfl
      refine ⟨?_, Nat.le_refl _⟩
      simp only [fieldLengths, payloadOptional, Option.map_some, Option.toList_some, List.map_cons,
        List.map_nil, List.sum_cons, List.sum_nil]
      omega

theorem payloadMetadata_length (metadata : ConversationMetadata) :
    (dumps asciiStyle (.object (payloadMetadata metadata.channel metadata.tags
      metadata.externalId))).length ≤ 10100 := by
  obtain ⟨channel, oneChannel⟩ := payloadOptional_length "channel" metadata.channelBounded
  obtain ⟨externalId, oneId⟩ := payloadOptional_length "external_id" metadata.externalIdBounded
  have tags := payloadTags_length metadata.tagBounded metadata.tagsBounded
  have channelKey : (asciiStyle.string (payloadKey "channel")).length = 9 := rfl
  have tagsKey : (asciiStyle.string (payloadKey "tags")).length = 6 := rfl
  have idKey : (asciiStyle.string (payloadKey "external_id")).length = 13 := rfl
  have whole := object_length
    (payloadMetadata metadata.channel metadata.tags metadata.externalId)
  have sum : (fieldLengths (payloadMetadata metadata.channel metadata.tags
      metadata.externalId)).sum = (fieldLengths (payloadOptional "channel" metadata.channel)).sum +
        (6 + 2 + (dumps asciiStyle (.array (metadata.tags.map payloadText))).length +
          (fieldLengths (payloadOptional "external_id" metadata.externalId)).sum) := by
    simp only [fieldLengths, payloadMetadata, List.map_append, List.map_cons, List.sum_append,
      List.sum_cons, tagsKey]
  have count : (payloadMetadata metadata.channel metadata.tags metadata.externalId).length =
      (payloadOptional "channel" metadata.channel).length +
        ((payloadOptional "external_id" metadata.externalId).length + 1) := by
    simp only [payloadMetadata, List.length_append, List.length_cons]
  have channelBound : maxChannelChars = 64 := rfl
  have idBound : maxExternalIdChars = 128 := rfl
  omega

/-- A payload is smaller than the largest object that is read. -/
theorem payload_length (conversation : ConversationInput) :
    conversation.normalized.bytes.length ≤ maxObjectBytes := by
  have metadata := payloadMetadata_length conversation.metadata
  have messages := payloadMessages_length conversation.messages
  have array := array_length (conversation.normalized.messages.map payloadMessage)
  have whole := object_length [(payloadKey "messages",
      .array (conversation.normalized.messages.map payloadMessage)),
    (payloadKey "metadata", .object (payloadMetadata conversation.metadata.channel
      conversation.metadata.tags conversation.metadata.externalId))]
  have messagesKey : (asciiStyle.string (payloadKey "messages")).length = 10 := rfl
  have metadataKey : (asciiStyle.string (payloadKey "metadata")).length = 10 := rfl
  have few : conversation.messages.length ≤ 50 := conversation.bounded
  have total : totalChars conversation.messages ≤ 8000 := conversation.totalBounded
  have largest : maxObjectBytes = 262144 := rfl
  simp only [ConversationInput.normalized, List.map_map, Function.comp_def, List.length_map]
    at array messages
  simp only [fieldLengths, List.map_cons, List.map_nil, List.sum_cons, List.sum_nil,
    List.length_cons, List.length_nil, messagesKey, metadataKey, ConversationInput.normalized,
    List.map_map, Function.comp_def] at whole
  rw [NormalizedConversation.bytes, List.length_map, NormalizedConversation.value]
  simp only [ConversationInput.normalized, List.map_map, Function.comp_def]
  omega

end Size

theorem payloadText_writable (text : Text) {depth : Nat} : Writable depth (payloadText text) :=
  .string (codesOf_valid text)

theorem payloadMessage_writable (message : Role × Text) {depth : Nat} :
    Writable (depth + 1) (payloadMessage message) := by
  refine .object ?_ ?_ ?_
  · intro field member
    rcases List.mem_pair.mp member with rfl | rfl <;> exact codesOf_valid _
  · show [payloadKey "role", payloadKey "content"].Nodup
    decide
  · intro field member
    rcases List.mem_pair.mp member with rfl | rfl <;> exact payloadText_writable _

theorem payloadMetadata_writable (channel : Option Text) (tags : List Text)
    (externalId : Option Text) {depth : Nat} :
    Writable (depth + 2) (.object (payloadMetadata channel tags externalId)) := by
  have optional : ∀ name text, ∀ field ∈ payloadOptional name text,
      field.1 = payloadKey name ∧ Writable (depth + 1) field.2 := by
    intro name text field member
    obtain ⟨inner, _, rfl⟩ := Option.map_eq_some_iff.mp (Option.mem_toList.mp member)
    exact ⟨rfl, payloadText_writable inner⟩
  have fields : ∀ field ∈ payloadMetadata channel tags externalId,
      (∃ name : String, field.1 = payloadKey name) ∧ Writable (depth + 1) field.2 := by
    intro field member
    simp only [payloadMetadata, List.mem_append, List.mem_cons] at member
    rcases member with first | rfl | last
    · exact ⟨⟨_, (optional _ _ field first).1⟩, (optional _ _ field first).2⟩
    · refine ⟨⟨_, rfl⟩, .array fun item inside => ?_⟩
      obtain ⟨tag, _, rfl⟩ := List.mem_map.mp inside
      exact payloadText_writable tag
    · exact ⟨⟨_, (optional _ _ field last).1⟩, (optional _ _ field last).2⟩
  refine .object ?_ ?_ fun field member => (fields field member).2
  · intro field member
    obtain ⟨⟨name, key⟩, _⟩ := fields field member
    rw [key]
    exact codesOf_valid _
  · have distinct : [payloadKey "channel", payloadKey "tags", payloadKey "external_id"].Nodup := by
      decide
    refine List.Nodup.sublist ?_ distinct
    have single : ∀ name text,
        ((payloadOptional name text).map Prod.fst).Sublist [payloadKey name] := by
      intro name text
      cases text with
      | none => exact List.nil_sublist _
      | some text => exact List.Sublist.refl _
    rw [payloadMetadata, List.map_append, List.map_cons]
    exact (single "channel" channel).append ((single "external_id" externalId).cons_cons _)

/-- A payload nests three times. -/
theorem payload_writable (payload : NormalizedConversation) {depth : Nat} :
    Writable (depth + 3) payload.value := by
  refine .object ?_ ?_ ?_
  · intro field member
    rcases List.mem_pair.mp member with rfl | rfl <;> exact codesOf_valid _
  · show [payloadKey "messages", payloadKey "metadata"].Nodup
    decide
  · intro field member
    rcases List.mem_pair.mp member with rfl | rfl
    · refine .array fun item inside => ?_
      obtain ⟨message, _, rfl⟩ := List.mem_map.mp inside
      exact payloadMessage_writable message
    · exact payloadMetadata_writable _ _ _

variable {codec : Codec} {depth : Nat}

/-- The payload of a conversation, written as an object, is read as that conversation. -/
theorem parse_payload (reads : codec.ReadsAscii depth) (deep : 3 ≤ depth)
    (conversation : ConversationInput) :
    parse codec conversation.normalized.bytes = some (.conversation conversation) := by
  obtain ⟨more, rfl⟩ := Nat.exists_eq_add_of_le' deep
  have writable : Writable (more + 3) conversation.normalized.value := payload_writable _
  have loaded := reads _ (dumps_ascii writable) _ (loads_dumps asciiStyle_readable writable)
  obtain ⟨fields, object, valid⟩ := modelValidate_payload conversation
  rw [object] at loaded
  rw [parse, if_neg (Nat.not_lt.mpr (payload_length conversation)), NormalizedConversation.bytes,
    loaded]
  simp only [valid]

end Ingest

namespace Pipeline
open Library

/-- A row holds the payload, the hash and the count of a conversation that was accepted. -/
structure Received (sha256 : Text → Text) (row : Conversation) (conversation : ConversationInput) :
    Prop where
  payload : row.conversation = conversation.normalized
  hash : row.conversationHash = conversation.contentHash sha256
  count : row.messageCount = conversation.messages.length

variable {env : Environment} {state next : State} {action : Action} {job : Uuid} {row : Conversation}

theorem Draft.received {sha256 : Text → Text} (draft : Draft sha256 row) :
    ∃ conversation, Received sha256 row conversation := by
  induction draft with
  | @created _ _ conversation => exact ⟨conversation, rfl, rfl, rfl⟩
  | enqueued _ ih | enqueueFailed _ ih =>
      obtain ⟨conversation, received⟩ := ih
      exact ⟨conversation, received.payload, received.hash, received.count⟩

/-- Every row of a run comes from an accepted conversation. -/
theorem reached_received (reached : (system env).Reached System.anyStep state)
    (present : state.shared.jobs job = some row) :
    ∃ conversation, Received env.sha256 row conversation := by
  refine reached.invariantWithin (motive := fun state => ∀ job row,
    state.shared.jobs job = some row → ∃ conversation, Received env.sha256 row conversation)
    ?_ ?_ job row present
  · rintro _ ⟨now, rfl⟩ job row found
    cases found
  · intro before action after earlier received stepped _ job row found
    have change := row_change (step_cases stepped) job
    cases known : before.shared.jobs job with
    | some first =>
        obtain ⟨conversation, same⟩ := received job first known
        have request := change.sameRequest known found
        exact ⟨conversation, request.conversation.trans same.payload,
          request.conversationHash.trans same.hash, request.messageCount.trans same.count⟩
    | none =>
        rcases change.appeared known found with ⟨request, origin, opened, _⟩ |
          ⟨_, conversation, _, _, _, _, rfl⟩
        · exact ((reached_drafts earlier).submitted origin opened).received
        · exact ⟨conversation, rfl, rfl, rfl⟩

/-- The payload of every job of a run can be written as an object again: it is read as the
conversation that was accepted, whose next job has the same payload, hash and count. -/
theorem payload_reingested {codec : Ingest.Codec} {depth : Nat} (reads : codec.ReadsAscii depth)
    (deep : 3 ≤ depth) (reached : (system env).Reached System.anyStep state)
    (present : state.shared.jobs job = some row) : ∃ conversation,
    Ingest.parse codec row.conversation.bytes = some (.conversation conversation) ∧
    ∀ other clock maxAttempts sourceRef,
      let again := ConvoScore.createJob env.sha256 other clock conversation .s3 maxAttempts sourceRef
      again.conversation = row.conversation ∧ again.conversationHash = row.conversationHash ∧
        again.messageCount = row.messageCount := by
  obtain ⟨conversation, received⟩ := reached_received reached present
  refine ⟨conversation, ?_, fun _ _ _ _ => ?_⟩
  · rw [received.payload]
    exact Ingest.parse_payload reads deep conversation
  · exact ⟨received.payload.symm, received.hash.symm, received.count.symm⟩

/-- This codec takes each byte for a code point and has no texts of its own. -/
def asciiCodec : Ingest.Codec where
  loads bytes :=
    match Library.Json.loads 3 (bytes.map UInt8.toNat) with
    | .ok value => .value (Ingest.jsonOf value)
    | .error .invalid => .valueError []
    | .error .tooDeep => .recursionError
  validationText _ := []

theorem asciiCodec_reads : asciiCodec.ReadsAscii 3 := by
  intro codes ascii value loaded
  have same : (codes.map UInt8.ofNat).map UInt8.toNat = codes := by
    rw [List.map_map]
    refine (List.map_congr_left fun code member => ?_).trans (List.map_id _)
    have small := (ascii code member).2
    exact UInt8.toNat_ofNat_of_lt' (Nat.lt_trans small (by decide))
  simp only [asciiCodec, same, loaded]

/-- The payload of a job that was ingested with a channel is ingested again. -/
theorem payload_reingested_routed : ∃ state row conversation,
    (system sampleEnvironment).Reached System.anyStep state ∧
    state.shared.jobs 1 = some row ∧ row.conversation = ConversationInput.routed.normalized ∧
    Ingest.parse asciiCodec row.conversation.bytes = some (.conversation conversation) := by
  have ran : ((system sampleEnvironment).run (initial 0)
      [.createJob 1 .routed 3 "s3://incoming/a.json".toList 0]).map
      (fun state => (state.shared.jobs 1).map (·.conversation)) =
      some (some ConversationInput.routed.normalized) := by
    decide +kernel
  obtain ⟨state, path, seen⟩ := System.run_observed System.anyStep ran (fun _ _ _ _ => trivial)
  obtain ⟨row, present, payload⟩ := Option.map_eq_some_iff.mp seen
  have reached : (system sampleEnvironment).Reached System.anyStep state := ⟨_, ⟨0, rfl⟩, path⟩
  obtain ⟨conversation, parsed, _⟩ :=
    payload_reingested asciiCodec_reads (by decide) reached present
  exact ⟨state, row, conversation, reached, present, payload, parsed⟩

end Pipeline
end ConvoScore
