import ConvoScore.Library.Json
import ConvoScore.Schema.Conversation
import Mathlib.Data.List.TakeWhile

namespace ConvoScore.Uuids
open Library Json

/-- A UUID has 128 bits. -/
def bound : Nat := 2 ^ 128

/-- The lowest hexadecimal digits of a number, the highest one first. -/
def hexDigits (value : Nat) : Nat → Codes
  | 0 => []
  | width + 1 => hexDigits (value / 16) width ++ [hexCode (value % 16)]

/-- `str` of a UUID. -/
def text (id : Uuid) : Codes :=
  let hex := hexDigits id 32
  hex.take 8 ++ 0x2d :: ((hex.drop 8).take 4 ++ 0x2d :: ((hex.drop 12).take 4 ++
    0x2d :: ((hex.drop 16).take 4 ++ 0x2d :: hex.drop 20)))

/-- What the Unicode tables say of the code points beyond ASCII. -/
structure UnicodeTable where
  isSpace : Nat → Bool
  decimal : Nat → Option Nat

/-- Spaces and decimal digits beyond ASCII become ASCII ones, and other code points a question
mark. -/
def UnicodeTable.toAscii (table : UnicodeTable) (code : Nat) : Nat :=
  if code < 0x7f then code
  else if table.isSpace code then 0x20
  else match table.decimal code with
    | some digit => 0x30 + digit
    | none => 0x3f

def isBlank (code : Nat) : Bool := decide (code = 0x20) || (decide (9 ≤ code) && decide (code ≤ 13))

/-- No minus sign is left when the digits are read. -/
def dropSign : Codes → Codes
  | 0x2b :: rest => rest
  | codes => codes

/-- The base may stand before the digits, with an underscore after it. -/
def dropBase : Codes → Codes
  | 0x30 :: mark :: rest =>
      if mark = 0x78 ∨ mark = 0x58 then if rest.head? = some 0x5f then rest.tail else rest
      else 0x30 :: mark :: rest
  | codes => codes

/-- A digit, or an underscore between digits. -/
def isDigit16 (code : Nat) : Bool := (hexValue code).isSome || decide (code = 0x5f)

/-- Single underscores may stand between two digits. -/
def wellSpaced (digits : Codes) : Bool :=
  decide (digits ≠ []) && decide (digits.head? ≠ some 0x5f) && decide (digits.getLast? ≠ some 0x5f) &&
    !decide ([0x5f, 0x5f] <:+: digits)

def valueOf (digits : Codes) : Nat :=
  (digits.filterMap hexValue).foldl (fun value digit => 16 * value + digit) 0

/-- `int` of a text in base 16. -/
def intBase16 (table : UnicodeTable) (codes : Codes) : Option Nat :=
  let codes := dropBase (dropSign ((codes.map table.toAscii).dropWhile isBlank))
  let digits := codes.takeWhile isDigit16
  if wellSpaced digits && (codes.dropWhile isDigit16).all isBlank then some (valueOf digits) else none

/-- `replace` of a text by the empty one; the number of codes that are still to be skipped is
part of the state. -/
def removeAll (old : Codes) : Nat → Codes → Codes
  | _, [] => []
  | skipped + 1, _ :: rest => removeAll old skipped rest
  | 0, code :: rest =>
      if old.isPrefixOf (code :: rest) then removeAll old (old.length - 1) rest
      else code :: removeAll old 0 rest

def strip (marked : Nat → Bool) (codes : Codes) : Codes :=
  ((codes.dropWhile marked).reverse.dropWhile marked).reverse

def isBrace (code : Nat) : Bool := decide (code = 0x7b) || decide (code = 0x7d)

/-- `UUID` of a text; every error is a `ValueError`. -/
def parse (table : UnicodeTable) (codes : Codes) : Option Uuid :=
  let hex := (strip isBrace (removeAll (codesOf "uuid:".toList) 0
    (removeAll (codesOf "urn:".toList) 0 codes))).filter fun code => decide (code ≠ 0x2d)
  if hex.length = 32 then (intBase16 table hex).filter fun value => decide (value < bound) else none

/-- A lower-case hexadecimal digit. -/
def IsHex (code : Nat) : Prop := ∃ digit < 16, code = hexCode digit

variable {id : Uuid} {codes : Codes} {table : UnicodeTable}

theorem IsHex.cases {code : Nat} (hex : IsHex code) :
    (0x30 ≤ code ∧ code ≤ 0x39) ∨ (0x61 ≤ code ∧ code ≤ 0x66) := by
  obtain ⟨digit, bounded, rfl⟩ := hex
  unfold hexCode
  split <;> omega

theorem hexDigits_length (value width : Nat) : (hexDigits value width).length = width := by
  induction width generalizing value with
  | zero => rfl
  | succ width ih => simp [hexDigits, ih]

theorem hexDigits_hex (value width : Nat) : ∀ code ∈ hexDigits value width, IsHex code := by
  induction width generalizing value with
  | zero => exact fun code member => absurd member List.not_mem_nil
  | succ width ih =>
      intro code member
      rcases List.mem_append.mp member with earlier | last
      · exact ih (value / 16) code earlier
      · exact ⟨value % 16, Nat.mod_lt _ (by decide), List.mem_singleton.mp last⟩

/-- The digits of a number stand for its lowest part. -/
theorem valueOf_hexDigits (value width : Nat) :
    valueOf (hexDigits value width) = value % 16 ^ width := by
  induction width generalizing value with
  | zero => simp [hexDigits, valueOf, Nat.mod_one]
  | succ width ih =>
      have last : hexValue (hexCode (value % 16)) = some (value % 16) :=
        hexValue_hexCode _ (Nat.mod_lt _ (by decide))
      have earlier := ih (value / 16)
      rw [valueOf] at earlier ⊢
      rw [hexDigits, List.filterMap_append, List.foldl_append, earlier]
      simp only [List.filterMap_cons, last, List.filterMap_nil, List.foldl_cons, List.foldl_nil]
      rw [Nat.pow_succ', Nat.mod_mul]
      omega

theorem dropWhile_none {marked : Nat → Bool} (unmarked : ∀ code ∈ codes, marked code = false) :
    codes.dropWhile marked = codes := by
  cases codes with
  | nil => rfl
  | cons code rest => exact List.dropWhile_cons_of_neg (by simp [unmarked code List.mem_cons_self])

theorem strip_none {marked : Nat → Bool} (unmarked : ∀ code ∈ codes, marked code = false) :
    strip marked codes = codes := by
  have reversed : ∀ code ∈ codes.reverse, marked code = false := by
    simpa using unmarked
  rw [strip, dropWhile_none unmarked, dropWhile_none reversed, List.reverse_reverse]

/-- A text stays when it does not contain the first code of what is removed. -/
theorem removeAll_absent {first : Nat} {others : Codes} (absent : first ∉ codes) :
    removeAll (first :: others) 0 codes = codes := by
  induction codes with
  | nil => rfl
  | cons code rest ih =>
      have different : first ≠ code := fun same => absent (same ▸ List.mem_cons_self)
      rw [removeAll, if_neg (by simp [List.isPrefixOf, different]),
        ih fun member => absent (List.mem_cons_of_mem _ member)]

/-- The text of a UUID is made of its digits and of hyphens. -/
theorem text_codes : ∀ code ∈ text id, IsHex code ∨ code = 0x2d := by
  have digits := hexDigits_hex id 32
  intro code member
  simp only [text, List.mem_append, List.mem_cons] at member
  rcases member with part | rfl | part | rfl | part | rfl | part | rfl | part
  · exact .inl (digits code (List.mem_of_mem_take part))
  · exact .inr rfl
  · exact .inl (digits code (List.mem_of_mem_drop (List.mem_of_mem_take part)))
  · exact .inr rfl
  · exact .inl (digits code (List.mem_of_mem_drop (List.mem_of_mem_take part)))
  · exact .inr rfl
  · exact .inl (digits code (List.mem_of_mem_drop (List.mem_of_mem_take part)))
  · exact .inr rfl
  · exact .inl (digits code (List.mem_of_mem_drop part))

/-- Without its hyphens the text is the digits again. -/
theorem text_unhyphenated :
    (text id).filter (fun code => decide (code ≠ 0x2d)) = hexDigits id 32 := by
  have keep : ∀ part : Codes, (∀ code ∈ part, code ∈ hexDigits id 32) →
      part.filter (fun code => decide (code ≠ 0x2d)) = part := by
    intro part inside
    refine List.filter_eq_self.mpr fun code member => ?_
    have range := (hexDigits_hex id 32 code (inside code member)).cases
    simp only [ne_eq, decide_not, Bool.not_eq_eq_eq_not, Bool.not_true, decide_eq_false_iff_not]
    omega
  have sliced : ∀ start length : Nat, ∀ code ∈ ((hexDigits id 32).drop start).take length,
      code ∈ hexDigits id 32 :=
    fun start length code member => List.mem_of_mem_drop (List.mem_of_mem_take member)
  have joined : ∀ start length : Nat, ((hexDigits id 32).drop start).take length ++
      (hexDigits id 32).drop (start + length) = (hexDigits id 32).drop start := by
    intro start length
    rw [← List.drop_drop, List.take_append_drop]
  have hyphen : ∀ rest : Codes, (0x2d :: rest).filter (fun code => decide (code ≠ 0x2d)) =
      rest.filter fun code => decide (code ≠ 0x2d) := fun rest => by simp
  simp only [text, List.filter_append, hyphen]
  rw [keep _ fun code member => List.mem_of_mem_take member, keep _ (sliced 8 4),
    keep _ (sliced 12 4), keep _ (sliced 16 4),
    keep _ fun code member => List.mem_of_mem_drop member, joined 16 4, joined 12 4, joined 8 4,
    List.take_append_drop]

/-- Digits are read as they stand. -/
theorem intBase16_hexDigits (id : Uuid) :
    intBase16 table (hexDigits id 32) = some (valueOf (hexDigits id 32)) := by
  have hex := hexDigits_hex id 32
  have ascii : (hexDigits id 32).map table.toAscii = hexDigits id 32 := by
    refine (List.map_congr_left fun code member => ?_).trans (List.map_id _)
    have range := (hex code member).cases
    exact if_pos (by omega)
  have solid : ∀ code ∈ hexDigits id 32, isBlank code = false := by
    intro code member
    have range := (hex code member).cases
    simp [isBlank]
    omega
  have digit : ∀ code ∈ hexDigits id 32, isDigit16 code = true := by
    intro code member
    obtain ⟨value, bounded, rfl⟩ := hex code member
    simp [isDigit16, hexValue_hexCode value bounded]
  have noUnderscore : 0x5f ∉ hexDigits id 32 := by
    intro member
    have range := (hex _ member).cases
    omega
  have signless : dropSign (hexDigits id 32) = hexDigits id 32 := by
    unfold dropSign
    split
    · rename_i rest same
      have range := (hex 0x2b (same ▸ List.mem_cons_self)).cases
      omega
    · rfl
  have baseless : dropBase (hexDigits id 32) = hexDigits id 32 := by
    unfold dropBase
    split
    · rename_i mark rest same
      have range := (hex mark (same ▸ List.mem_cons_of_mem _ List.mem_cons_self)).cases
      rw [if_neg (by omega), same]
    · rfl
  have nonempty : hexDigits id 32 ≠ [] := by
    intro empty
    have length := hexDigits_length id 32
    rw [empty] at length
    cases length
  have spaced : wellSpaced (hexDigits id 32) = true := by
    have noHead : (hexDigits id 32).head? ≠ some 0x5f :=
      fun same => noUnderscore (List.mem_of_mem_head? same)
    have noLast : (hexDigits id 32).getLast? ≠ some 0x5f :=
      fun same => noUnderscore (List.mem_of_mem_getLast? same)
    have noPair : ¬ [0x5f, 0x5f] <:+: hexDigits id 32 :=
      fun inside => noUnderscore (inside.subset List.mem_cons_self)
    simp [wellSpaced, nonempty, noHead, noLast, noPair]
  simp only [intBase16, ascii, dropWhile_none solid, signless, baseless,
    List.takeWhile_eq_self_iff.mpr digit, List.dropWhile_eq_nil_iff.mpr digit, spaced,
    List.all_nil, Bool.and_self, if_true]

/-- The text of a UUID is read as that UUID. -/
theorem parse_text (bounded : id < bound) : parse table (text id) = some id := by
  have range : ∀ code ∈ text id, (0x30 ≤ code ∧ code ≤ 0x39) ∨ (0x61 ≤ code ∧ code ≤ 0x66) ∨
      code = 0x2d := by
    intro code member
    rcases text_codes code member with hex | hyphen
    · rcases hex.cases with number | letter
      · exact .inl number
      · exact .inr (.inl letter)
    · exact .inr (.inr hyphen)
  have noUrn : 0x75 ∉ text id := by
    intro member
    have inside := range _ member
    omega
  have braceless : ∀ code ∈ text id, isBrace code = false := by
    intro code member
    have inside := range code member
    simp [isBrace]
    omega
  have value : valueOf (hexDigits id 32) = id := by
    rw [valueOf_hexDigits]
    exact Nat.mod_eq_of_lt bounded
  have urn : removeAll (codesOf "urn:".toList) 0 (text id) = text id := removeAll_absent noUrn
  have uuid : removeAll (codesOf "uuid:".toList) 0 (text id) = text id := removeAll_absent noUrn
  simp only [parse, urn, uuid, strip_none braceless, text_unhyphenated, hexDigits_length, if_true,
    intBase16_hexDigits, value, Option.filter_some, bounded, decide_true]

/-- Whatever is read is a UUID. -/
theorem parse_bounded (read : parse table codes = some id) : id < bound := by
  simp only [parse] at read
  split at read
  · obtain ⟨_, bounded⟩ := Option.filter_eq_some_iff.mp read
    exact of_decide_eq_true bounded
  · cases read

end ConvoScore.Uuids
