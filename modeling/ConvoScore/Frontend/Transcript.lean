import ConvoScore.Library.Pattern
import ConvoScore.Schema.Conversation

namespace ConvoScore
open Library

/-- A JavaScript string is a list of UTF-16 code units. -/
abbrev Units := List UInt16

def units (text : String) : Units := text.toList.map fun letter => UInt16.ofNat letter.toNat

/-- A dot does not match one of these. -/
def isLineTerminator (unit : UInt16) : Bool := [10, 13, 0x2028, 0x2029].contains unit

/-- The whitespace of a pattern is what trimming removes. -/
def isSpace (unit : UInt16) : Bool :=
  isLineTerminator unit || [9, 11, 12, 32, 0xA0, 0x1680, 0x202F, 0x205F, 0x3000, 0xFEFF].contains unit ||
    (0x2000 ≤ unit && unit ≤ 0x200A)

def trim (text : Units) : Units :=
  ((text.dropWhile isSpace).reverse.dropWhile isSpace).reverse

/-- Only the letters of ASCII have another case in an alias. -/
def lowerUnit (unit : UInt16) : UInt16 := if 65 ≤ unit && unit ≤ 90 then unit + 32 else unit

def speakerWord (letters : String) : Pattern UInt16 :=
  .word (fun letter unit => lowerUnit unit == letter) (units letters)

def speakerNames : Pattern UInt16 :=
  .capture 1 (.either (speakerWord "customer") (.either (speakerWord "agent")
    (.either (speakerWord "user") (.either (speakerWord "support")
      (.either (speakerWord "client") (speakerWord "rep"))))))

/-- This is `SPEAKER_PATTERN`; a match starts at the start of its line. -/
def speakerPattern : Pattern UInt16 :=
  .seq (.many isSpace)
    (.seq speakerNames
      (.seq (.many isSpace)
        (.seq (.one (· == 58))
          (.seq (.many isSpace)
            (.seq (.capture 2 (.many fun unit => !isLineTerminator unit)) .finish)))))

/-- An alias that the table does not list has no role. -/
def roleAliases : List (Units × Role) :=
  [(units "customer", .customer), (units "user", .customer), (units "client", .customer),
    (units "agent", .agent), (units "support", .agent), (units "rep", .agent)]

structure ParsedMessage where
  role : Option Role
  content : Units
  deriving DecidableEq

structure ParseResult where
  messages : List ParsedMessage
  error : Option Text
  deriving DecidableEq

def speakerError : Text :=
  "Each line needs a speaker, for example: \"Customer: my order is late\".".toList

def emptyError : Text := "Add at least one message.".toList

def customerError : Text := "A conversation needs at least one customer message.".toList

/-- A line with a speaker starts a message. -/
def startMessage (line : Units) : Option ParsedMessage :=
  (speakerPattern.exec line).map fun found => {
    role := (found.captures.lookup 1).bind fun name => roleAliases.lookup (name.map lowerUnit)
    content := trim ((found.captures.lookup 2).getD []) }

def continueMessage (message : ParsedMessage) (continuation : Units) : ParsedMessage :=
  {message with
    content := if message.content.isEmpty then continuation
      else message.content ++ [32] ++ continuation}

/-- The loop keeps the finished messages and the current one; it stops at a line without a speaker. -/
def parseLines : List Units → List ParsedMessage → Option ParsedMessage →
    Option (List ParsedMessage)
  | [], messages, current => some (messages ++ current.toList)
  | line :: rest, messages, current =>
      match startMessage line with
      | some message => parseLines rest (messages ++ current.toList) (some message)
      | none =>
          let continuation := trim line
          if continuation.isEmpty then parseLines rest messages current
          else
            match current with
            | none => none
            | some message => parseLines rest messages (some (continueMessage message continuation))

def parseTranscript (raw : Units) : ParseResult :=
  match parseLines (raw.splitOn 10) [] none with
  | none => ⟨[], some speakerError⟩
  | some messages =>
      let nonEmpty := messages.filter fun message => !message.content.isEmpty
      if nonEmpty.isEmpty then ⟨[], some emptyError⟩
      else if !nonEmpty.any fun message => message.role == some .customer then
        ⟨[], some customerError⟩
      else ⟨nonEmpty, none⟩

/-- A message that fits on one line is not empty, trimmed and without a line feed. -/
structure LineMessage where
  role : Role
  content : Units
  nonempty : content ≠ []
  trimmed : trim content = content
  oneLine : 10 ∉ content

/-- A transcript has a message of the customer. -/
structure WrittenTranscript where
  messages : List LineMessage
  hasCustomer : ∃ message ∈ messages, message.role = .customer

def LineMessage.label (message : LineMessage) : Units :=
  match message.role with
  | .customer => units "Customer"
  | .agent => units "Agent"

def LineMessage.line (message : LineMessage) : Units := message.label ++ units ": " ++ message.content

def LineMessage.parsed (message : LineMessage) : ParsedMessage := ⟨some message.role, message.content⟩

/-- The content of a message fits on its line for the pattern as well. -/
def LineMessage.matchable (message : LineMessage) : Bool :=
  message.content.all fun unit => !isLineTerminator unit

/-- The lines are joined by line feeds. -/
def WrittenTranscript.text (transcript : WrittenTranscript) : Units :=
  [10].intercalate (transcript.messages.map LineMessage.line)

/-- Parsing gives exactly the messages that were written. -/
def RoundTrips (transcript : WrittenTranscript) : Prop :=
  parseTranscript transcript.text = ⟨transcript.messages.map LineMessage.parsed, none⟩

/-- A trimmed text starts with no whitespace. -/
theorem trim_head {unit : UInt16} {rest : Units} (trimmed : trim (unit :: rest) = unit :: rest) :
    isSpace unit = false := by
  by_contra space
  rw [Bool.not_eq_false] at space
  have shorter : (trim (unit :: rest)).length ≤ rest.length := by
    rw [trim, List.dropWhile_cons_of_pos space, List.length_reverse]
    calc ((rest.dropWhile isSpace).reverse.dropWhile isSpace).length
        ≤ (rest.dropWhile isSpace).reverse.length := (List.dropWhile_sublist _).length_le
      _ = (rest.dropWhile isSpace).length := List.length_reverse
      _ ≤ rest.length := (List.dropWhile_sublist _).length_le
  rw [trimmed, List.length_cons] at shorter
  omega

/-- The speaker of a written line is found where it was written. -/
theorem speaker_successes (message : LineMessage) :
    speakerNames.successes message.line =
      [⟨[(1, message.label)], units ": " ++ message.content⟩] := by
  cases role : message.role with
  | customer =>
      simp [speakerNames, LineMessage.line, LineMessage.label, role, speakerWord, Pattern.word,
        Pattern.successes, units, lowerUnit]
  | agent =>
      simp [speakerNames, LineMessage.line, LineMessage.label, role, speakerWord, Pattern.word,
        Pattern.successes, units, lowerUnit]

/-- No whitespace stands before the speaker. -/
theorem indent_successes (message : LineMessage) :
    (Pattern.many isSpace).successes message.line = [⟨[], message.line⟩] := by
  cases role : message.role with
  | customer =>
      rw [LineMessage.line, LineMessage.label, role]
      exact Pattern.successes_many_stop (by decide)
  | agent =>
      rw [LineMessage.line, LineMessage.label, role]
      exact Pattern.successes_many_stop (by decide)

/-- The blank after the colon belongs to the pattern or to the content, in this order. -/
theorem blank_successes (message : LineMessage) :
    (Pattern.many isSpace).successes (32 :: message.content) =
      [⟨[], message.content⟩, ⟨[], 32 :: message.content⟩] := by
  have trimmed := message.trimmed
  have nonempty := message.nonempty
  cases content : message.content with
  | nil => exact absurd content nonempty
  | cons unit rest =>
      rw [content] at trimmed
      have blank : isSpace 32 = true := by decide
      simp [Pattern.successes, Pattern.runs, blank, trim_head trimmed]

/-- A written line matches the pattern exactly when a dot matches all of its content. -/
theorem speakerPattern_exec (message : LineMessage) : speakerPattern.exec message.line =
    if message.matchable then
      some ⟨[(1, message.label), (2, message.content)], []⟩ else none := by
  have colon : (Pattern.one (· == (58 : UInt16))).successes (58 :: 32 :: message.content) =
      [⟨[], 32 :: message.content⟩] := by
    rfl
  have noIndent : (Pattern.many isSpace).successes (58 :: 32 :: message.content) =
      [⟨[], 58 :: 32 :: message.content⟩] :=
    Pattern.successes_many_stop (by decide)
  have separator : units ": " ++ message.content = 58 :: 32 :: message.content := rfl
  rw [Pattern.exec, speakerPattern, Pattern.successes_seq (indent_successes message),
    Pattern.successes_seq (speaker_successes message), separator,
    Pattern.successes_seq noIndent, Pattern.successes_seq colon]
  rw [Pattern.successes, blank_successes]
  simp only [List.flatMap_cons, List.flatMap_nil, Pattern.successes_rest]
  have blank : (32 :: message.content).all (fun unit => !isLineTerminator unit) =
      message.matchable := by
    rfl
  rw [blank, ← LineMessage.matchable]
  split <;> rfl

/-- A written line starts its message exactly when a dot matches all of its content. -/
theorem startMessage_line (message : LineMessage) : startMessage message.line =
    if message.matchable then some message.parsed else none := by
  have role : roleAliases.lookup (message.label.map lowerUnit) = some message.role := by
    cases role : message.role <;> rw [LineMessage.label, role] <;> decide
  rw [startMessage, speakerPattern_exec]
  split
  · simp [List.lookup_cons, role, message.trimmed, LineMessage.parsed]
  · rfl

/-- Lines that all start a message give their messages in order. -/
theorem parseLines_written {written : List LineMessage}
    (matchable : ∀ message ∈ written, message.matchable = true) (finished : List ParsedMessage)
    (current : Option ParsedMessage) :
    parseLines (written.map LineMessage.line) finished current =
      some (finished ++ current.toList ++ written.map LineMessage.parsed) := by
  induction written generalizing finished current with
  | nil => simp [parseLines]
  | cons message rest ih =>
      obtain ⟨first, others⟩ := List.forall_mem_cons.mp matchable
      have started : startMessage message.line = some message.parsed :=
        (startMessage_line message).trans (if_pos first)
      rw [List.map_cons, parseLines, started]
      simp only
      rw [ih others]
      simp

/-- Every message of the result was started by its own line. -/
theorem parseLines_length {lines : List Units} {finished result : List ParsedMessage}
    {current : Option ParsedMessage} (parsed : parseLines lines finished current = some result) :
    result.length ≤ finished.length + current.toList.length +
      lines.countP fun line => (startMessage line).isSome := by
  induction lines generalizing finished current with
  | nil =>
      rw [parseLines] at parsed
      rw [← Option.some.inj parsed]
      simp
  | cons line rest ih =>
      rw [parseLines] at parsed
      rw [List.countP_cons]
      split at parsed
      · rename_i started
        have bound := ih parsed
        simp only [List.length_append, Option.toList_some, List.length_singleton] at bound
        simp only [started, Option.isSome_some, if_true]
        omega
      · rename_i unstarted
        simp only at parsed
        split at parsed
        · have bound := ih parsed
          omega
        · split at parsed
          · cases parsed
          · have bound := ih parsed
            simp only [Option.toList_some, List.length_singleton] at bound ⊢
            omega

/-- The lines of a written transcript are read back. -/
theorem splitOn_text (transcript : WrittenTranscript) :
    transcript.text.splitOn 10 = transcript.messages.map LineMessage.line := by
  refine List.splitOn_intercalate 10 ?_ ?_
  · intro line member
    obtain ⟨message, _, rfl⟩ := List.mem_map.mp member
    have noBreak : 10 ∉ message.label ++ units ": " := by
      cases role : message.role <;> rw [LineMessage.label, role] <;> decide
    rw [LineMessage.line, List.mem_append, not_or]
    exact ⟨noBreak, message.oneLine⟩
  · obtain ⟨message, member, _⟩ := transcript.hasCustomer
    exact List.ne_nil_of_mem (List.mem_map_of_mem member)

/-- Every line of a transcript that is parsed back starts a message. -/
theorem matchable_of_roundTrips {transcript : WrittenTranscript}
    (roundTrips : RoundTrips transcript) {message : LineMessage}
    (member : message ∈ transcript.messages) : message.matchable = true := by
  rw [RoundTrips, parseTranscript, splitOn_text] at roundTrips
  cases parsed : parseLines (transcript.messages.map LineMessage.line) [] none with
  | none =>
      rw [parsed] at roundTrips
      exact absurd (congrArg ParseResult.error roundTrips) (by simp)
  | some result =>
      simp only [parsed] at roundTrips
      split at roundTrips
      · exact absurd (congrArg ParseResult.error roundTrips) (by simp)
      · split at roundTrips
        · exact absurd (congrArg ParseResult.error roundTrips) (by simp)
        · have kept := congrArg (fun result => result.messages.length) roundTrips
          simp only [List.length_map] at kept
          have filtered := List.length_filter_le (fun message => !message.content.isEmpty) result
          have bound := parseLines_length parsed
          rw [List.length_nil, Option.toList_none, List.length_nil] at bound
          -- As many lines start a message as there are lines.
          have every : ((transcript.messages.map LineMessage.line).countP
              fun line => (startMessage line).isSome) =
                (transcript.messages.map LineMessage.line).length := by
            refine le_antisymm List.countP_le_length ?_
            rw [List.length_map]
            omega
          have started := List.countP_eq_length.mp every _ (List.mem_map_of_mem member)
          rw [startMessage_line] at started
          by_contra unmatchable
          rw [if_neg unmatchable] at started
          cases started

/-- Contents that a dot matches are parsed back. -/
theorem roundTrips_of_matchable {transcript : WrittenTranscript}
    (matchable : ∀ message ∈ transcript.messages, message.matchable = true) :
    RoundTrips transcript := by
  have kept : (transcript.messages.map LineMessage.parsed).filter
      (fun message => !message.content.isEmpty) = transcript.messages.map LineMessage.parsed := by
    refine List.filter_eq_self.mpr ?_
    intro parsed member
    obtain ⟨message, _, rfl⟩ := List.mem_map.mp member
    simpa [LineMessage.parsed] using message.nonempty
  obtain ⟨message, member, customer⟩ := transcript.hasCustomer
  have nonempty : (transcript.messages.map LineMessage.parsed).isEmpty = false := by
    rw [List.isEmpty_eq_false_iff]
    exact List.ne_nil_of_mem (List.mem_map_of_mem member)
  have served : ((transcript.messages.map LineMessage.parsed).any
      fun message => message.role == some .customer) = true := by
    rw [List.any_eq_true]
    exact ⟨message.parsed, List.mem_map_of_mem member, by simp [LineMessage.parsed, customer]⟩
  rw [RoundTrips, parseTranscript, splitOn_text, parseLines_written matchable]
  simp only [Option.toList_none, List.nil_append, kept, nonempty, served]
  rfl

/-- A transcript is parsed back exactly when no content has a line terminator of the pattern:
besides the line feed these are U+000D, U+2028 and U+2029. -/
theorem parseTranscript_text_iff (transcript : WrittenTranscript) : RoundTrips transcript ↔
    ∀ message ∈ transcript.messages, ∀ unit ∈ message.content,
      unit ≠ 13 ∧ unit ≠ 0x2028 ∧ unit ≠ 0x2029 := by
  have matchable : ∀ message : LineMessage, message.matchable = true ↔
      ∀ unit ∈ message.content, unit ≠ 13 ∧ unit ≠ 0x2028 ∧ unit ≠ 0x2029 := by
    intro message
    rw [LineMessage.matchable, List.all_eq_true]
    refine forall₂_congr fun unit member => ?_
    have feed : unit ≠ 10 := fun same => message.oneLine (same ▸ member)
    simp [isLineTerminator, feed]
  simp only [← matchable]
  constructor
  · intro roundTrips message member
    exact matchable_of_roundTrips roundTrips member
  · exact roundTrips_of_matchable

/-- U+2028 separates lines for the pattern only. -/
def separatedTranscript : WrittenTranscript where
  messages := [
    ⟨.customer, units "one", by decide, by decide, by decide⟩,
    ⟨.agent, units "two" ++ [0x2028] ++ units "three", by decide, by decide, by decide⟩]
  hasCustomer := ⟨_, List.mem_cons_self, rfl⟩

/-- The words of the agent are appended to the message of the customer. -/
theorem separatedTranscript_merged : ¬ RoundTrips separatedTranscript := by
  unfold RoundTrips
  decide +kernel

end ConvoScore
