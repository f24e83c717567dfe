import ConvoScore.Library.Codes
import ConvoScore.Schema.Conversation

namespace ConvoScore
open Library

def hexValue (digit : Char) : Nat :=
  if digit.toNat < 58 then digit.toNat - 48 else digit.toNat - 87

/-- This reader takes one escaped letter off a JSON text. -/
def jsonUnescape : Text → Option (Char × Text)
  | '\\' :: '"' :: rest => some ('"', rest)
  | '\\' :: '\\' :: rest => some ('\\', rest)
  | '\\' :: 'n' :: rest => some (Char.ofNat 10, rest)
  | '\\' :: 'r' :: rest => some (Char.ofNat 13, rest)
  | '\\' :: 't' :: rest => some (Char.ofNat 9, rest)
  | '\\' :: 'f' :: rest => some (Char.ofNat 12, rest)
  | '\\' :: 'b' :: rest => some (Char.ofNat 8, rest)
  | '\\' :: 'u' :: _ :: _ :: high :: low :: rest =>
      some (Char.ofNat (16 * hexValue high + hexValue low), rest)
  | letter :: rest => some (letter, rest)
  | [] => none

theorem hexValue_hexDigit : ∀ value < 16, hexValue (hexDigit value) = value := by decide

/-- Reading undoes escaping, whatever follows. -/
theorem jsonUnescape_jsonEscape (letter : Char) (rest : Text) :
    jsonUnescape (jsonEscape letter ++ rest) = some (letter, rest) := by
  unfold jsonEscape
  split_ifs with quote backslash newline carriage tab feed backspace control
  · exact quote ▸ rfl
  · exact backslash ▸ rfl
  · exact newline ▸ rfl
  · exact carriage ▸ rfl
  · exact tab ▸ rfl
  · exact feed ▸ rfl
  · exact backspace ▸ rfl
  · have read : jsonUnescape ("\\u00".toList ++ [hexDigit (letter.toNat / 16),
        hexDigit (letter.toNat % 16)] ++ rest) =
        some (Char.ofNat (16 * hexValue (hexDigit (letter.toNat / 16)) +
          hexValue (hexDigit (letter.toNat % 16))), rest) := rfl
    rw [read, hexValue_hexDigit _ (by omega), hexValue_hexDigit _ (by omega), Nat.div_add_mod,
      Char.ofNat_toNat]
  · have plain : letter ≠ '\\' := backslash
    unfold jsonUnescape
    split <;> simp_all

/-- No escaped letter looks like the quote that ends a string. -/
theorem jsonEscape_avoids_quote : Avoids jsonEscape "\"".toList := by
  intro letter left right same
  have read := jsonUnescape_jsonEscape letter left
  rw [same] at read
  have quote : jsonUnescape ("\"".toList ++ right) = some ('"', right) := rfl
  rw [quote, Option.some.injEq, Prod.mk.injEq] at read
  obtain ⟨rfl, rfl⟩ := read
  have length := congrArg List.length same
  simp [jsonEscape] at length

theorem jsonString_selfDelimiting : SelfDelimiting jsonString := by
  have letters := (SelfDelimiting.of_read jsonUnescape_jsonEscape).terminated
    jsonEscape_avoids_quote
  have quoted := letters.surround "\"".toList []
  simp only [← List.append_assoc, List.append_nil] at quoted
  exact quoted

theorem Role.value_injective : Function.Injective Role.value := by
  intro first second same
  cases first <;> cases second <;> first | rfl | exact absurd same (by decide)

/-- The object of a message tells its role and its content. -/
theorem jsonMessage_selfDelimiting : SelfDelimiting jsonMessage :=
  (jsonString_selfDelimiting.comap Role.value_injective).pair jsonString_selfDelimiting _ _ _

theorem jsonMessage_avoids_bracket : Avoids jsonMessage "]".toList := by
  intro message left right same
  obtain ⟨tail, object⟩ : ∃ tail, jsonMessage message = '\x7b' :: tail := ⟨_, rfl⟩
  rw [object] at same
  exact absurd (List.cons.inj same).1 (by decide)

/-- The array of the messages ends at its closing bracket. -/
theorem jsonMessages_selfDelimiting :
    SelfDelimiting fun messages : List (Role × Text) =>
      "[".toList ++ (",".toList).intercalate (messages.map jsonMessage) ++ "]".toList := by
  have rows := jsonMessage_selfDelimiting.separated ",".toList jsonMessage_avoids_bracket
    (by simp)
  have array := rows.surround "[".toList []
  simp only [← List.append_assoc, List.append_nil] at array
  exact array

/-- Two conversations have the same canonical text exactly when their stored messages agree; so
their hashes agree exactly then, unless the two texts are a collision of the digest. -/
theorem canonical_eq_iff (first second : ConversationInput) :
    (first.canonical = second.canonical ↔
      first.normalized.messages = second.normalized.messages) ∧
    ∀ sha256 : Text → Text,
      (sha256 first.canonical = sha256 second.canonical → first.canonical = second.canonical) →
      (first.contentHash sha256 = second.contentHash sha256 ↔
        first.normalized.messages = second.normalized.messages) := by
  have injective := jsonMessages_selfDelimiting.injective
  have texts : first.canonical = second.canonical ↔
      first.normalized.messages = second.normalized.messages := by
    constructor
    · intro same
      exact injective same
    · intro same
      rw [ConversationInput.canonical, ConversationInput.canonical, same]
  refine ⟨texts, ?_⟩
  intro sha256 noCollision
  constructor
  · intro same
    exact texts.mp (noCollision same)
  · intro same
    exact congrArg sha256 (texts.mpr same)

/-- The smallest conversation with a channel. -/
def ConversationInput.routed : ConversationInput where
  messages := ConversationInput.smallest.messages
  metadata := {ConversationMetadata.empty with
    channel := some "email".toList
    channelBounded := by decide}
  nonempty := ConversationInput.smallest.nonempty
  bounded := ConversationInput.smallest.bounded
  totalBounded := ConversationInput.smallest.totalBounded
  hasCustomer := ConversationInput.smallest.hasCustomer

/-- The channel of a conversation does not change its hash. -/
theorem canonical_eq_iff_routed :
    ConversationInput.smallest.normalized ≠ ConversationInput.routed.normalized ∧
      ConversationInput.smallest.contentHash (fun _ =>
        "5187cee8ed7155b526c9ea25aa640cf54482da5ef346644ed843116a8654fc32".toList) =
      ConversationInput.routed.contentHash (fun _ =>
        "5187cee8ed7155b526c9ea25aa640cf54482da5ef346644ed843116a8654fc32".toList) :=
  ⟨by decide, ((canonical_eq_iff .smallest .routed).2 _ fun _ => rfl).mpr rfl⟩

end ConvoScore
