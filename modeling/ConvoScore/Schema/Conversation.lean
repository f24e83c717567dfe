import Mathlib.Algebra.GroupWithZero.Nat
import Mathlib.Data.Rat.Defs

namespace ConvoScore

/-- A Python text is the list of its code points. -/
abbrev Text := List Char

/-- This number identifies one job and its conversation. -/
abbrev Uuid := Nat

/-- A database time counts microseconds, the resolution of a PostgreSQL timestamp. -/
abbrev Timestamp := Nat

def microsecondsPerSecond : Nat := 1000000

inductive JobStatus
  | pending
  | processing
  | completed
  | failed
  deriving DecidableEq, Repr

/-- This set is `TERMINAL_STATUSES`. -/
def JobStatus.terminal : JobStatus → Bool
  | .completed | .failed => true
  | .pending | .processing => false

@[simp] theorem JobStatus.terminal_pending : JobStatus.pending.terminal = false := rfl

@[simp] theorem JobStatus.terminal_processing : JobStatus.processing.terminal = false := rfl

@[simp] theorem JobStatus.terminal_completed : JobStatus.completed.terminal = true := rfl

@[simp] theorem JobStatus.terminal_failed : JobStatus.failed.terminal = true := rfl

/-- A worker may claim or fail a job in one of these statuses. -/
def JobStatus.unfinished : JobStatus → Bool
  | .pending | .processing => true
  | .completed | .failed => false

@[simp] theorem JobStatus.unfinished_eq_not_terminal (status : JobStatus) :
    status.unfinished = !status.terminal := by
  cases status <;> rfl

inductive JobSource
  | api
  | s3
  deriving DecidableEq, Repr

inductive ErrorType
  | timeout
  | rateLimited
  | serverError
  | connectionError
  | invalidLlmResponse
  | clientError
  | enqueueFailed
  | maxAttemptsExhausted
  | internalError
  deriving DecidableEq, Repr

inductive Sentiment
  | positive
  | neutral
  | negative
  deriving DecidableEq, Repr

inductive Role
  | customer
  | agent
  deriving DecidableEq, Repr

def Role.value : Role → Text
  | .customer => "customer".toList
  | .agent => "agent".toList

def maxMessages : Nat := 50
def maxTotalChars : Nat := 8000
def maxMessageChars : Nat := 4000
def maxChannelChars : Nat := 64
def maxTagChars : Nat := 64
def maxTags : Nat := 10
def maxExternalIdChars : Nat := 128

/-- A message has some content, but not more than the schema allows. -/
structure Message where
  role : Role
  content : Text
  nonempty : 1 ≤ content.length
  bounded : content.length ≤ maxMessageChars
  deriving DecidableEq

structure ConversationMetadata where
  channel : Option Text
  tags : List Text
  externalId : Option Text
  channelBounded : ∀ text ∈ channel, text.length ≤ maxChannelChars
  tagBounded : ∀ tag ∈ tags, tag.length ≤ maxTagChars
  tagsBounded : tags.length ≤ maxTags
  externalIdBounded : ∀ text ∈ externalId, text.length ≤ maxExternalIdChars

/-- The default metadata has no channel, no tags and no external id. -/
def ConversationMetadata.empty : ConversationMetadata where
  channel := none
  tags := []
  externalId := none
  channelBounded := by simp
  tagBounded := by simp
  tagsBounded := by simp
  externalIdBounded := by simp

def totalChars (messages : List Message) : Nat :=
  (messages.map fun message => message.content.length).sum

/-- An accepted conversation satisfies every rule of the input schema. -/
structure ConversationInput where
  messages : List Message
  metadata : ConversationMetadata
  nonempty : 1 ≤ messages.length
  bounded : messages.length ≤ maxMessages
  totalBounded : totalChars messages ≤ maxTotalChars
  hasCustomer : ∃ message ∈ messages, message.role = .customer

/-- The smallest conversation is one short message of a customer. -/
def ConversationInput.smallest : ConversationInput where
  messages := [⟨.customer, "hi".toList, by decide, by decide⟩]
  metadata := .empty
  nonempty := by decide
  bounded := by decide
  totalBounded := by decide
  hasCustomer := ⟨_, List.mem_cons_self, rfl⟩

/-- The stored payload keeps the roles, the contents and the metadata that is present. -/
structure NormalizedConversation where
  messages : List (Role × Text)
  channel : Option Text
  tags : List Text
  externalId : Option Text
  deriving DecidableEq

def ConversationInput.normalized (conversation : ConversationInput) : NormalizedConversation where
  messages := conversation.messages.map fun message => (message.role, message.content)
  channel := conversation.metadata.channel
  tags := conversation.metadata.tags
  externalId := conversation.metadata.externalId

def hexDigit (value : Nat) : Char :=
  if value < 10 then Char.ofNat (48 + value) else Char.ofNat (87 + value)

/-- `json.dumps` escapes quotes, backslashes and control characters and nothing else. -/
def jsonEscape (letter : Char) : Text :=
  if letter = Char.ofNat 34 then "\\\"".toList
  else if letter = Char.ofNat 92 then "\\\\".toList
  else if letter = Char.ofNat 10 then "\\n".toList
  else if letter = Char.ofNat 13 then "\\r".toList
  else if letter = Char.ofNat 9 then "\\t".toList
  else if letter = Char.ofNat 12 then "\\f".toList
  else if letter = Char.ofNat 8 then "\\b".toList
  else if letter.toNat < 32 then
    "\\u00".toList ++ [hexDigit (letter.toNat / 16), hexDigit (letter.toNat % 16)]
  else [letter]

def jsonString (text : Text) : Text :=
  "\"".toList ++ text.flatMap jsonEscape ++ "\"".toList

def jsonMessage (message : Role × Text) : Text :=
  "\x7b\"role\":".toList ++ jsonString message.1.value ++ ",\"content\":".toList ++
    jsonString message.2 ++ "\x7d".toList

/-- This text is what `content_hash` hashes; the metadata is left out. -/
def ConversationInput.canonical (conversation : ConversationInput) : Text :=
  "[".toList ++ List.intercalate ",".toList (conversation.normalized.messages.map jsonMessage) ++
    "]".toList

def ConversationInput.contentHash (sha256 : Text → Text) (conversation : ConversationInput) : Text :=
  sha256 conversation.canonical

/-- One row of `conversations` is one scoring job. -/
structure Conversation where
  id : Uuid
  source : JobSource
  sourceRef : Option Text
  conversation : NormalizedConversation
  conversationHash : Text
  messageCount : Nat
  status : JobStatus
  attemptCount : Nat
  maxAttempts : Nat
  lockedUntil : Option Timestamp
  lastErrorType : Option ErrorType
  lastError : Option Text
  sentiment : Option Sentiment
  riskScore : Option Int
  rationale : Option Text
  model : Option Text
  promptVersion : Option Text
  schemaVersion : Option Text
  promptTokens : Option Int
  completionTokens : Option Int
  totalTokens : Option Int
  llmLatencyMs : Option Int
  estimatedCostUsd : Option Rat
  pricingVersion : Option Text
  createdAt : Timestamp
  enqueuedAt : Option Timestamp
  startedAt : Option Timestamp
  completedAt : Option Timestamp
  updatedAt : Timestamp
  deriving DecidableEq

def lastErrorMaxChars : Nat := 1000

inductive IngestStatus
  | ingested
  | invalid
  | failed
  deriving DecidableEq, Repr

/-- One row of `ingested_objects` records one object version. -/
structure IngestedObject where
  bucket : Text
  key : Text
  etag : Text
  sizeBytes : Option Nat
  conversationId : Option Uuid
  status : IngestStatus
  error : Option Text
  discoveredAt : Timestamp
  deriving DecidableEq

end ConvoScore
