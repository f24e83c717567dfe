import ConvoScore.Library.Occurrence
import ConvoScore.Scoring.OpenAi
import ConvoScore.Scoring.Prompt

namespace ConvoScore
open Library

/-- `str.lower` turns only two letters beyond ASCII into ASCII ones; the case of the others is
kept here, since no keyword has such a letter. -/
def lowerLetter (letter : Char) : Text :=
  if letter.toNat = 0x130 then ['i', Char.ofNat 0x307]
  else if letter.toNat = 0x212a then ['k']
  else [letter.toLower]

def lower (text : Text) : Text := text.flatMap lowerLetter

def mentions (words : List Text) (text : Text) : Bool := words.any fun word => decide (word <:+: text)

def urgentWords : List Text :=
  ["cancel".toList, "lawyer".toList, "legal".toList, "breach".toList, "sue".toList]

def highWords : List Text :=
  ["refund".toList, "manager".toList, "supervisor".toList, "unacceptable".toList]

def moderateWords : List Text :=
  ["still".toList, "again".toList, "third time".toList, "waiting".toList]

/-- The digest of SHA-256 has 32 bytes. -/
abbrev Digest := Fin 32 → UInt8

/-- The keywords choose the range of the score, and the digest chooses the score. -/
def fakeRisk (digest : Digest) (lowered : Text) : Nat :=
  if mentions urgentWords lowered then 76 + (digest 1).toNat % 24
  else if mentions highWords lowered then 51 + (digest 1).toNat % 25
  else if mentions moderateWords lowered then 26 + (digest 1).toNat % 25
  else (digest 0).toNat % 40

def fakeSentiment (digest : Digest) (risk : Nat) : Sentiment :=
  if 51 ≤ risk then .negative
  else if 26 ≤ risk then .neutral
  else if (digest 2).toNat % 2 ≠ 0 then .positive
  else .neutral

def fakeRationale : Text :=
  "Deterministic fake score derived from the conversation content (no model was called).".toList

theorem fakeRisk_le (digest : Digest) (lowered : Text) : fakeRisk digest lowered ≤ 99 := by
  unfold fakeRisk
  split_ifs <;> omega

structure FakeProvider where
  model : Text
  latencyMs : Int

def FakeProvider.default : FakeProvider := ⟨"fake-model".toList, 5⟩

def fakeResult (digest : Digest) (transcript : Text) : ScoringResult where
  sentiment := fakeSentiment digest (fakeRisk digest (lower transcript))
  riskScore := fakeRisk digest (lower transcript)
  rationale := fakeRationale
  riskFloor := Int.natCast_nonneg _
  riskCeiling := by
    have bound := fakeRisk_le digest (lower transcript)
    omega
  rationaleNonempty := by decide
  rationaleBounded := by decide

/-- The result is validated when it is built, and it always passes. -/
def FakeProvider.score (sha256 : Text → Digest) (provider : FakeProvider)
    (conversation : NormalizedConversation) : ScoringOutcome :=
  let transcript := buildUserInput conversation
  let promptTokens := max 1 (transcript.length / 4)
  let completionTokens := 40
  { result := fakeResult (sha256 transcript) transcript
    model := provider.model
    promptTokens := some promptTokens
    completionTokens := some completionTokens
    totalTokens := some (promptTokens + completionTokens)
    latencyMs := provider.latencyMs
    estimatedCostUsd := some 0
    promptVersion := currentPromptVersion
    schemaVersion := currentSchemaVersion
    pricingVersion := currentPricingVersion }

/-- A keyword lies within a message when it has no mark of the transcript's layout. -/
structure Keyword (word : Text) : Prop where
  nonempty : word ≠ []
  noBreak : '\n' ∉ word
  noColon : ':' ∉ word
  noBlank : word.head? ≠ some ' '

theorem keywords (word : Text) (member : word ∈ urgentWords ++ highWords ++ moderateWords) :
    Keyword word := by
  have nonempty : ∀ word ∈ urgentWords ++ highWords ++ moderateWords, word ≠ [] := by decide
  have noBreak : ∀ word ∈ urgentWords ++ highWords ++ moderateWords, '\n' ∉ word := by decide
  have noColon : ∀ word ∈ urgentWords ++ highWords ++ moderateWords, ':' ∉ word := by decide
  have noBlank : ∀ word ∈ urgentWords ++ highWords ++ moderateWords, word.head? ≠ some ' ' := by
    decide
  exact ⟨nonempty word member, noBreak word member, noColon word member, noBlank word member⟩

theorem lower_append (first second : Text) : lower (first ++ second) = lower first ++ lower second :=
  List.flatMap_append

/-- A transcript is lowered line by line. -/
theorem lower_lines (lines : List Text) : lower ("\n".toList.intercalate lines) =
    "\n".toList.intercalate (lines.map lower) := by
  have lineBreak : lower "\n".toList = "\n".toList := by decide
  induction lines with
  | nil => rfl
  | cons line rest ih =>
      cases rest with
      | nil => simp
      | cons next rest =>
          rw [List.intercalate_cons_cons, lower_append, lower_append, lineBreak, ih]
          simp only [List.map_cons, List.intercalate_cons_cons]

variable {word : Text} {conversation : NormalizedConversation}

/-- The text around the messages does not mention any keyword. -/
theorem header_unmentioned (member : word ∈ urgentWords ++ highWords ++ moderateWords) :
    ¬ word <:+: lower transcriptHeader ∧ ¬ word <:+: lower closingDelimiter ∧
      ∀ role, ¬ word <:+: lower (speaker role) := by
  have header : ∀ word ∈ urgentWords ++ highWords ++ moderateWords,
      ¬ word <:+: lower transcriptHeader := by decide +kernel
  have closing : ∀ word ∈ urgentWords ++ highWords ++ moderateWords,
      ¬ word <:+: lower closingDelimiter := by decide +kernel
  have customer : ∀ word ∈ urgentWords ++ highWords ++ moderateWords,
      ¬ word <:+: lower (speaker .customer) := by decide +kernel
  have agent : ∀ word ∈ urgentWords ++ highWords ++ moderateWords,
      ¬ word <:+: lower (speaker .agent) := by decide +kernel
  refine ⟨header word member, closing word member, ?_⟩
  intro role
  cases role with
  | customer => exact customer word member
  | agent => exact agent word member

/-- A keyword occurs in the line of a message exactly when its content mentions it. -/
theorem word_infix_line (member : word ∈ urgentWords ++ highWords ++ moderateWords)
    (message : Role × Text) :
    word <:+: lower (speakerPrefix message.1 ++ message.2) ↔ word <:+: lower message.2 := by
  have keyword := keywords word member
  have marks : lower ": ".toList = [':', ' '] := by decide
  have line : lower (speakerPrefix message.1 ++ message.2) =
      lower (speaker message.1) ++ ':' :: ' ' :: lower message.2 := by
    rw [speakerPrefix, lower_append, lower_append, marks, List.append_assoc]
    rfl
  have notSpeaker := (header_unmentioned member).2.2 message.1
  rw [line, infix_append_cons keyword.noColon, List.infix_cons_iff]
  simp only [notSpeaker, false_or, or_iff_right_iff_imp]
  rintro ⟨rest, starts⟩
  cases word with
  | nil => exact absurd rfl keyword.nonempty
  | cons letter word =>
      have blank := (List.cons.inj starts).1
      exact absurd (congrArg some blank) keyword.noBlank

/-- A keyword occurs in the lowered input exactly when some message mentions it. -/
theorem word_infix_input (member : word ∈ urgentWords ++ highWords ++ moderateWords) :
    word <:+: lower (buildUserInput conversation) ↔
      ∃ message ∈ conversation.messages, word <:+: lower message.2 := by
  have keyword := keywords word member
  obtain ⟨notHeader, notClosing, _⟩ := header_unmentioned member
  have lineBreak : lower "\n".toList = "\n".toList := by decide
  have header : lower transcriptHeader = (lower transcriptHeader).dropLast ++ ['\n'] := by
    decide +kernel
  have notLine : ¬ word <:+: (lower transcriptHeader).dropLast := fun inside =>
    notHeader (inside.trans (List.dropLast_prefix _).isInfix)
  have whole : lower (buildUserInput conversation) = (lower transcriptHeader).dropLast ++ '\n' ::
      (lower (renderTranscript conversation) ++ '\n' :: lower closingDelimiter) := by
    rw [buildUserInput, lower_append, lower_append, lower_append, lineBreak, header]
    simp
  rw [whole, infix_append_cons keyword.noBreak, infix_append_cons keyword.noBreak]
  simp only [notLine, notClosing, false_or, or_false]
  rw [renderTranscript, lower_lines, List.map_map]
  have lines := infix_intercalate keyword.noBreak keyword.nonempty
    (conversation.messages.map (lower ∘ fun message => speakerPrefix message.1 ++ message.2))
  refine lines.trans ?_
  simp only [List.mem_map, exists_exists_and_eq_and, Function.comp_apply]
  exact exists_congr fun message => and_congr_right fun _ => word_infix_line member message

/-- The keywords of the input are the keywords of its messages. -/
theorem mentions_input {words : List Text}
    (known : ∀ word ∈ words, word ∈ urgentWords ++ highWords ++ moderateWords) :
    mentions words (lower (buildUserInput conversation)) = true ↔
      ∃ message ∈ conversation.messages, mentions words (lower message.2) = true := by
  simp only [mentions, List.any_eq_true, decide_eq_true_eq]
  constructor
  · rintro ⟨word, member, occurs⟩
    obtain ⟨message, sent, inside⟩ := (word_infix_input (known word member)).mp occurs
    exact ⟨message, sent, word, member, inside⟩
  · rintro ⟨message, sent, word, member, inside⟩
    exact ⟨word, member, (word_infix_input (known word member)).mpr ⟨message, sent, inside⟩⟩

theorem mentions_append (first second : List Text) (text : Text) :
    mentions (first ++ second) text = (mentions first text || mentions second text) :=
  List.any_append

/-- The score lies in one of the two upper bands exactly when a message mentions one of their
keywords. -/
theorem fakeRisk_upper_iff (digest : Digest) :
    51 ≤ fakeRisk digest (lower (buildUserInput conversation)) ↔
      ∃ message ∈ conversation.messages, mentions (urgentWords ++ highWords) (lower message.2) := by
  rw [← mentions_input fun word member => List.mem_append_left _ member, mentions_append,
    Bool.or_eq_true]
  unfold fakeRisk
  split_ifs with urgent high moderate
  · simp only [urgent, true_or, iff_true]
    omega
  · simp only [high, or_true, iff_true]
    omega
  · simp only [urgent, high, or_self, iff_false, not_le, Bool.false_eq_true]
    omega
  · simp only [urgent, high, or_self, iff_false, not_le, Bool.false_eq_true]
    omega

/-- The sentiment is negative exactly for a score in one of the two upper bands. -/
theorem fakeSentiment_negative_iff (digest : Digest) (risk : Nat) :
    fakeSentiment digest risk = .negative ↔ 51 ≤ risk := by
  unfold fakeSentiment
  split_ifs <;> simp [*]

/-- The provider sees the messages of a conversation and nothing else. -/
theorem FakeProvider.score_messages (sha256 : Text → Digest) (provider : FakeProvider)
    {first second : NormalizedConversation} (same : first.messages = second.messages) :
    provider.score sha256 first = provider.score sha256 second := by
  have input : buildUserInput first = buildUserInput second := by
    rw [buildUserInput, buildUserInput, renderTranscript, renderTranscript, same]
  rw [FakeProvider.score, FakeProvider.score, input]

end ConvoScore
