import Mathlib.Algebra.GroupWithZero.Nat
import Mathlib.Data.List.Nodup
import Mathlib.Data.List.Infix

namespace ConvoScore.Library.Json

/-- A text is the list of its code points; lone surrogates are allowed. -/
abbrev Codes := List Nat

inductive Value
  | null
  | bool (value : Bool)
  | number (literal : Codes)
  | string (codes : Codes)
  | array (items : List Value)
  | object (fields : List (Codes × Value))

/-- A text is not JSON, or it nests deeper than the reader recurses. -/
inductive Failure
  | invalid
  | tooDeep
  deriving DecidableEq

/-- A reader takes a value off the text and leaves the rest. -/
abbrev Reader (Result : Type) := Codes → Except Failure (Result × Codes)

def codesOf (text : List Char) : Codes := text.map Char.toNat

section Read

def isSpace (code : Nat) : Bool := [0x20, 0x09, 0x0a, 0x0d].contains code

def skipSpace (codes : Codes) : Codes := codes.dropWhile isSpace

/-- The letter after a backslash, except for the one that starts four hexadecimal digits. -/
def escaped (code : Nat) : Option Nat :=
  ([(0x22, 0x22), (0x5c, 0x5c), (0x2f, 0x2f), (0x62, 0x08), (0x66, 0x0c), (0x6e, 0x0a),
    (0x72, 0x0d), (0x74, 0x09)] : List (Nat × Nat)).lookup code

def hexValue (code : Nat) : Option Nat :=
  if 0x30 ≤ code ∧ code ≤ 0x39 then some (code - 0x30)
  else if 0x61 ≤ code ∧ code ≤ 0x66 then some (code - 0x57)
  else if 0x41 ≤ code ∧ code ≤ 0x46 then some (code - 0x37)
  else none

def readHex : Codes → Option (Nat × Codes)
  | first :: second :: third :: fourth :: rest => do
      let first ← hexValue first
      let second ← hexValue second
      let third ← hexValue third
      let fourth ← hexValue fourth
      some (((first * 16 + second) * 16 + third) * 16 + fourth, rest)
  | _ => none

/-- A high surrogate is joined with the low one that is escaped right after it. -/
def readUnicode (codes : Codes) : Option (Nat × Codes) := do
  let (unit, rest) ← readHex codes
  if 0xd800 ≤ unit ∧ unit ≤ 0xdbff then
    match rest with
    | 0x5c :: 0x75 :: later => do
        let (low, after) ← readHex later
        if 0xdc00 ≤ low ∧ low ≤ 0xdfff then
          some (0x10000 + (unit - 0xd800) * 0x400 + (low - 0xdc00), after)
        else some (unit, rest)
    | _ => some (unit, rest)
  else some (unit, rest)

def readEscape : Codes → Option (Nat × Codes)
  | [] => none
  | code :: rest =>
      if code = 0x75 then readUnicode rest else (escaped code).map fun letter => (letter, rest)

/-- A string holds no control character and no quote that is not escaped. -/
def readUnit : Codes → Option (Nat × Codes)
  | [] => none
  | code :: rest =>
      if code = 0x5c then readEscape rest
      else if code < 0x20 ∨ code = 0x22 then none
      else some (code, rest)

/-- The rest of a string after its opening quote; the fuel counts letters. -/
def readString : Nat → Codes → Option (Codes × Codes)
  | 0, _ => none
  | fuel + 1, codes =>
      if codes.head? = some 0x22 then some ([], codes.tail)
      else do
        let (unit, rest) ← readUnit codes
        let (units, after) ← readString fuel rest
        some (unit :: units, after)

def isDigit (code : Nat) : Bool := decide (0x30 ≤ code) && decide (code ≤ 0x39)

/-- The digits of an integer do not start with a zero, unless it is the only one. -/
def readInteger (codes : Codes) : Option (Codes × Codes) :=
  match codes with
  | 0x30 :: rest => some ([0x30], rest)
  | _ => if codes.takeWhile isDigit = [] then none
      else some (codes.takeWhile isDigit, codes.dropWhile isDigit)

/-- A mark and the digits after it are taken together or not at all. -/
def readPart (starts : Codes → Option (Codes × Codes)) (codes : Codes) : Codes × Codes :=
  match starts codes with
  | none => ([], codes)
  | some (mark, rest) =>
      if rest.takeWhile isDigit = [] then ([], codes)
      else (mark ++ rest.takeWhile isDigit, rest.dropWhile isDigit)

def fractionStart : Codes → Option (Codes × Codes)
  | 0x2e :: rest => some ([0x2e], rest)
  | _ => none

def exponentStart : Codes → Option (Codes × Codes)
  | mark :: sign :: rest =>
      if mark = 0x65 ∨ mark = 0x45 then
        if sign = 0x2b ∨ sign = 0x2d then some ([mark, sign], rest) else some ([mark], sign :: rest)
      else none
  | _ => none

/-- An integer with more digits than this is rejected. -/
def maxDigits : Nat := 4300

def readNumber (codes : Codes) : Option (Codes × Codes) := do
  let (sign, body) := match codes with
    | 0x2d :: rest => ([0x2d], rest)
    | _ => (([] : Codes), codes)
  let (digits, rest) ← readInteger body
  let (fraction, rest) := readPart fractionStart rest
  let (exponent, rest) := readPart exponentStart rest
  if fraction = [] ∧ exponent = [] ∧ maxDigits < digits.length then none
  else some (sign ++ digits ++ fraction ++ exponent, rest)

/-- The names that stand for a value. -/
def names : List (Codes × Value) :=
  [(codesOf "null".toList, .null), (codesOf "true".toList, .bool true),
    (codesOf "false".toList, .bool false), (codesOf "NaN".toList, .number (codesOf "NaN".toList)),
    (codesOf "Infinity".toList, .number (codesOf "Infinity".toList)),
    (codesOf "-Infinity".toList, .number (codesOf "-Infinity".toList))]

def readName (codes : Codes) : Except Failure (Value × Codes) :=
  match names.find? fun name => name.1.isPrefixOf codes with
  | some (name, value) => .ok (value, codes.drop name.length)
  | none =>
      match readNumber codes with
      | some (literal, rest) => .ok (.number literal, rest)
      | none => .error .invalid

/-- One or more items with commas between them, up to the closing code. -/
def readItems {Result : Type} (read : Reader Result) (close : Nat) : Nat → Reader (List Result)
  | 0, _ => .error .invalid
  | fuel + 1, codes => do
      let (item, rest) ← read codes
      match skipSpace rest with
      | [] => .error .invalid
      | code :: rest =>
          if code = close then .ok ([item], rest)
          else if code = 0x2c then do
            let (items, rest) ← readItems read close fuel (skipSpace rest)
            .ok (item :: items, rest)
          else .error .invalid

/-- The items of an array or of an object after its opening code. -/
def readSequence {Result : Type} (read : Reader Result) (close : Nat) : Reader (List Result) :=
  fun codes =>
    match skipSpace codes with
    | [] => .error .invalid
    | code :: rest =>
        if code = close then .ok ([], rest)
        else readItems read close codes.length (code :: rest)

def readField (read : Reader Value) : Reader (Codes × Value)
  | [] => .error .invalid
  | code :: rest =>
      if code = 0x22 then
        match readString rest.length rest with
        | none => .error .invalid
        | some (key, rest) =>
            match skipSpace rest with
            | [] => .error .invalid
            | code :: rest =>
                if code = 0x3a then do
                  let (value, rest) ← read (skipSpace rest)
                  .ok ((key, value), rest)
                else .error .invalid
      else .error .invalid

/-- A key that is set again keeps its place and takes the new value. -/
def setItem (fields : List (Codes × Value)) (field : Codes × Value) : List (Codes × Value) :=
  if fields.any fun earlier => decide (earlier.1 = field.1) then
    fields.map fun earlier => if earlier.1 = field.1 then field else earlier
  else fields ++ [field]

def dict (fields : List (Codes × Value)) : List (Codes × Value) := fields.foldl setItem []

/-- Arrays and objects recurse; without a reader for what they hold they are too deep. -/
def readTerm (nested : Option (Reader Value)) : Reader Value
  | [] => .error .invalid
  | code :: rest =>
      if code = 0x22 then
        match readString rest.length rest with
        | some (codes, rest) => .ok (.string codes, rest)
        | none => .error .invalid
      else if code = 0x7b then
        match nested with
        | none => .error .tooDeep
        | some read => do
            let (fields, rest) ← readSequence (readField read) 0x7d rest
            .ok (.object (dict fields), rest)
      else if code = 0x5b then
        match nested with
        | none => .error .tooDeep
        | some read => do
            let (items, rest) ← readSequence read 0x5d rest
            .ok (.array items, rest)
      else readName (code :: rest)

def readValue : Nat → Reader Value
  | 0 => readTerm none
  | depth + 1 => readTerm (some (readValue depth))

/-- A text is one value with blanks around it; a byte order mark before it is rejected. -/
def loads (depth : Nat) (codes : Codes) : Except Failure Value :=
  if codes.head? = some 0xfeff then .error .invalid
  else do
    let (value, rest) ← readValue depth (skipSpace codes)
    if skipSpace rest = [] then .ok value else .error .invalid

end Read

section Write

/-- How letters are escaped, and what stands after a comma and after a colon. -/
structure Style where
  escape : Nat → Codes
  afterComma : Codes
  afterColon : Codes

def Style.string (style : Style) (codes : Codes) : Codes :=
  0x22 :: (codes.flatMap style.escape ++ [0x22])

def Style.join (style : Style) (parts : List Codes) : Codes :=
  (0x2c :: style.afterComma).intercalate parts

/-- A key and its value. -/
def Style.field (style : Style) (key written : Codes) : Codes :=
  style.string key ++ 0x3a :: (style.afterColon ++ written)

mutual

def dumps (style : Style) : Value → Codes
  | .null => codesOf "null".toList
  | .bool true => codesOf "true".toList
  | .bool false => codesOf "false".toList
  | .number literal => literal
  | .string codes => style.string codes
  | .array items => 0x5b :: (style.join (dumpsItems style items) ++ [0x5d])
  | .object fields => 0x7b :: (style.join (dumpsFields style fields) ++ [0x7d])

def dumpsItems (style : Style) : List Value → List Codes
  | [] => []
  | item :: rest => dumps style item :: dumpsItems style rest

def dumpsFields (style : Style) : List (Codes × Value) → List Codes
  | [] => []
  | (key, value) :: rest => style.field key (dumps style value) :: dumpsFields style rest

end

/-- The lists of the writer are maps of it. -/
theorem dumpsItems_eq (style : Style) (items : List Value) :
    dumpsItems style items = items.map (dumps style) := by
  induction items with
  | nil => rw [dumpsItems, List.map_nil]
  | cons item rest ih => rw [dumpsItems, ih, List.map_cons]

theorem dumpsFields_eq (style : Style) (fields : List (Codes × Value)) :
    dumpsFields style fields =
      fields.map fun field => style.field field.1 (dumps style field.2) := by
  induction fields with
  | nil => rw [dumpsFields, List.map_nil]
  | cons field rest ih => rw [dumpsFields, ih, List.map_cons]

end Write

theorem codesOf_valid (text : List Char) : ∀ code ∈ codesOf text, code.isValidChar := by
  intro code member
  obtain ⟨letter, _, rfl⟩ := List.mem_map.mp member
  exact letter.valid

section RoundTrip

/-- The reader undoes the escapes of a style and skips its blanks. -/
structure Style.Readable (style : Style) : Prop where
  escape : ∀ code, code.isValidChar → ∀ rest, readUnit (style.escape code ++ rest) = some (code, rest)
  afterComma : ∀ code ∈ style.afterComma, isSpace code = true
  afterColon : ∀ code ∈ style.afterColon, isSpace code = true

/-- A value of bounded depth whose texts are well-formed, whose keys are distinct and which holds
no number. -/
inductive Writable : Nat → Value → Prop
  | null {depth : Nat} : Writable depth .null
  | bool {depth : Nat} {value : Bool} : Writable depth (.bool value)
  | string {depth : Nat} {codes : Codes} (valid : ∀ code ∈ codes, code.isValidChar) :
      Writable depth (.string codes)
  | array {depth : Nat} {items : List Value} (each : ∀ item ∈ items, Writable depth item) :
      Writable (depth + 1) (.array items)
  | object {depth : Nat} {fields : List (Codes × Value)}
      (valid : ∀ field ∈ fields, ∀ code ∈ field.1, code.isValidChar)
      (distinct : (fields.map Prod.fst).Nodup) (each : ∀ field ∈ fields, Writable depth field.2) :
      Writable (depth + 1) (.object fields)

/-- A written value starts with a code that is no blank, no closing bracket and no byte order mark. -/
structure Opens (codes : Codes) : Prop where
  starts : ∃ head tail, codes = head :: tail ∧ isSpace head = false ∧ head ≠ 0x5d ∧ head ≠ 0x7d ∧
    head ≠ 0xfeff

/-- The reader takes off exactly what the writer wrote, whatever follows. -/
structure Writes {Item : Type} (read : Reader Item) (write : Item → Codes) (item : Item) :
    Prop where
  opens : Opens (write item)
  reads : ∀ rest, read (write item ++ rest) = .ok (item, rest)

variable {style : Style} {codes : Codes} {depth : Nat}

theorem skipSpace_cons {code : Nat} {rest : Codes} (solid : isSpace code = false) :
    skipSpace (code :: rest) = code :: rest := by
  rw [skipSpace, List.dropWhile_cons_of_neg (by simp [solid])]

/-- Blanks are skipped before a code that is no blank. -/
theorem skipSpace_blanks {blanks rest : Codes} (blank : ∀ code ∈ blanks, isSpace code = true)
    {code : Nat} (solid : isSpace code = false) : skipSpace (blanks ++ code :: rest) = code :: rest := by
  rw [skipSpace, List.dropWhile_append_of_pos blank]
  exact skipSpace_cons solid

/-- A unit of a string never starts with a quote. -/
theorem readUnit_quote (rest : Codes) : readUnit (0x22 :: rest) = none := by
  simp [readUnit]

/-- An escaped letter is not empty and does not start with a quote. -/
theorem Style.Readable.escape_starts (readable : style.Readable) {code : Nat}
    (valid : code.isValidChar) : ∃ head tail, style.escape code = head :: tail ∧ head ≠ 0x22 := by
  cases written : style.escape code with
  | nil =>
      have read := readable.escape code valid []
      rw [written] at read
      cases read
  | cons head tail =>
      refine ⟨head, tail, rfl, ?_⟩
      rintro rfl
      have read := readable.escape code valid []
      rw [written, List.cons_append, readUnit_quote] at read
      cases read

theorem Style.Readable.length_le (readable : style.Readable)
    (valid : ∀ code ∈ codes, code.isValidChar) :
    codes.length ≤ (codes.flatMap style.escape).length := by
  induction codes with
  | nil => exact Nat.le_refl _
  | cons code rest ih =>
      obtain ⟨first, later⟩ := List.forall_mem_cons.mp valid
      obtain ⟨head, tail, written, _⟩ := readable.escape_starts first
      have shorter := ih later
      simp only [List.flatMap_cons, written, List.length_append, List.length_cons]
      omega

/-- The letters of a string are read up to its closing quote. -/
theorem readString_written (readable : style.Readable) (valid : ∀ code ∈ codes, code.isValidChar)
    (fuel : Nat) (enough : codes.length < fuel) (rest : Codes) :
    readString fuel (codes.flatMap style.escape ++ 0x22 :: rest) = some (codes, rest) := by
  induction codes generalizing fuel with
  | nil =>
      obtain ⟨fuel, rfl⟩ := Nat.exists_eq_add_one_of_ne_zero (Nat.ne_of_gt enough)
      simp [readString]
  | cons code codes ih =>
      obtain ⟨first, later⟩ := List.forall_mem_cons.mp valid
      obtain ⟨fuel, rfl⟩ := Nat.exists_eq_add_one_of_ne_zero (Nat.ne_of_gt (Nat.zero_lt_of_lt enough))
      obtain ⟨head, tail, written, noQuote⟩ := readable.escape_starts first
      have unit := readable.escape code first (codes.flatMap style.escape ++ 0x22 :: rest)
      have others := ih later fuel (by simpa using enough)
      have opens : (style.escape code ++ (codes.flatMap style.escape ++ 0x22 :: rest)).head? ≠
          some 0x22 := by
        simpa [written] using noQuote
      rw [List.flatMap_cons, List.append_assoc, readString, if_neg opens, unit]
      simp only [Option.bind_eq_bind, Option.bind_some, others]

/-- A written string is read from its opening quote on. -/
theorem readString_string (readable : style.Readable)
    (valid : ∀ code ∈ codes, code.isValidChar) (rest : Codes) :
    readString (codes.flatMap style.escape ++ [0x22] ++ rest).length
      (codes.flatMap style.escape ++ [0x22] ++ rest) = some (codes, rest) := by
  have longer := readable.length_le valid
  rw [List.append_assoc, List.singleton_append]
  refine readString_written readable valid _ ?_ rest
  simp only [List.length_append, List.length_cons]
  omega

theorem join_single (part : Codes) : style.join [part] = part := by simp [Style.join]

theorem join_cons_cons (part next : Codes) (parts : List Codes) :
    style.join (part :: next :: parts) =
      part ++ 0x2c :: (style.afterComma ++ style.join (next :: parts)) := by
  simp [Style.join, List.intercalate_cons_cons]

theorem length_le_join (style : Style) {parts : List Codes} (nonempty : ∀ part ∈ parts, part ≠ []) :
    parts.length ≤ (style.join parts).length := by
  induction parts with
  | nil => exact Nat.zero_le _
  | cons part rest ih =>
      obtain ⟨first, later⟩ := List.forall_mem_cons.mp nonempty
      have positive := List.length_pos_iff.mpr first
      have shorter := ih later
      cases rest with
      | nil =>
          rw [join_single]
          exact positive
      | cons next rest =>
          rw [join_cons_cons]
          simp only [List.length_append, List.length_cons] at shorter ⊢
          omega

/-- A joined row starts as its first part does. -/
theorem join_starts (style : Style) (part : Codes) (parts : List Codes) :
    ∃ more, style.join (part :: parts) = part ++ more := by
  cases parts with
  | nil => exact ⟨[], by rw [join_single, List.append_nil]⟩
  | cons next parts => exact ⟨_, join_cons_cons part next parts⟩

/-- A code of a joined row is in one of its parts or between two of them. -/
theorem mem_join {parts : List Codes} {code : Nat} (member : code ∈ style.join parts) :
    code = 0x2c ∨ code ∈ style.afterComma ∨ ∃ part ∈ parts, code ∈ part := by
  induction parts with
  | nil => exact absurd member List.not_mem_nil
  | cons part rest ih =>
      cases rest with
      | nil =>
          rw [join_single] at member
          exact .inr (.inr ⟨part, List.mem_cons_self, member⟩)
      | cons next rest =>
          rw [join_cons_cons] at member
          simp only [List.mem_append, List.mem_cons] at member
          rcases member with first | comma | blank | later
          · exact .inr (.inr ⟨part, List.mem_cons_self, first⟩)
          · exact .inl comma
          · exact .inr (.inl blank)
          · rcases ih later with comma | blank | ⟨other, inside, found⟩
            · exact .inl comma
            · exact .inr (.inl blank)
            · exact .inr (.inr ⟨other, List.mem_cons_of_mem _ inside, found⟩)

section Items
variable {Item : Type} {read : Reader Item} {write : Item → Codes} {items : List Item} {close : Nat}

/-- A row of items is read up to its closing bracket. -/
theorem readItems_written (readable : style.Readable) (nonempty : items ≠ [])
    (each : ∀ item ∈ items, Writes read write item) (solid : isSpace close = false)
    (noComma : close ≠ 0x2c) (fuel : Nat) (enough : items.length ≤ fuel)
    (rest : Codes) :
    readItems read close fuel (style.join (items.map write) ++ close :: rest) =
      .ok (items, rest) := by
  induction items generalizing fuel with
  | nil => exact absurd rfl nonempty
  | cons item items ih =>
      obtain ⟨first, later⟩ := List.forall_mem_cons.mp each
      obtain ⟨fuel, rfl⟩ := Nat.exists_eq_add_one_of_ne_zero
        (Nat.ne_of_gt (Nat.lt_of_lt_of_le (Nat.succ_pos _) enough))
      cases items with
      | nil =>
          rw [List.map_singleton, join_single, readItems, first.reads]
          simp only [bind, Except.bind, skipSpace_cons solid, if_true]
      | cons next items =>
          obtain ⟨head, tail, written, headSolid, _⟩ :=
            (later next List.mem_cons_self).opens.starts
          obtain ⟨more, opened⟩ := join_starts style (write next) (items.map write)
          have others := ih (by simp) later fuel (by simpa using enough)
          have blanks : skipSpace (style.afterComma ++ (style.join ((next :: items).map write) ++
              close :: rest)) = style.join ((next :: items).map write) ++ close :: rest := by
            rw [List.map_cons, opened, written, List.cons_append, List.cons_append]
            exact skipSpace_blanks readable.afterComma headSolid
          rw [List.map_cons, List.map_cons, join_cons_cons, ← List.map_cons, List.append_assoc,
            readItems, first.reads]
          simp only [bind, Except.bind, List.cons_append, List.append_assoc,
            skipSpace_cons (show isSpace 0x2c = false by decide), if_neg (Ne.symm noComma), if_true,
            blanks, others]

/-- A sequence is read up to its closing bracket. -/
theorem readSequence_written (readable : style.Readable)
    (each : ∀ item ∈ items, Writes read write item) (closes : close = 0x5d ∨ close = 0x7d)
    (rest : Codes) :
    readSequence read close (style.join (items.map write) ++ close :: rest) = .ok (items, rest) := by
  have solid : isSpace close = false := by
    rcases closes with rfl | rfl <;> decide
  have noComma : close ≠ 0x2c := by
    rcases closes with rfl | rfl <;> decide
  have nonempty : ∀ part ∈ items.map write, part ≠ [] := by
    intro part member
    obtain ⟨item, inside, rfl⟩ := List.mem_map.mp member
    obtain ⟨head, tail, written, _⟩ := (each item inside).opens.starts
    simp [written]
  have bound := length_le_join style nonempty
  cases items with
  | nil =>
      have empty : style.join (([] : List Item).map write) = [] := rfl
      rw [empty, List.nil_append, readSequence, skipSpace_cons solid]
      exact if_pos rfl
  | cons item items =>
      obtain ⟨head, tail, written, headSolid, noSquare, noBrace, _⟩ :=
        (each item List.mem_cons_self).opens.starts
      obtain ⟨more, opened⟩ := join_starts style (write item) (items.map write)
      have joined : style.join ((item :: items).map write) = head :: (tail ++ more) := by
        rw [List.map_cons, opened, written, List.cons_append]
      have differs : head ≠ close := by
        rcases closes with rfl | rfl
        · exact noSquare
        · exact noBrace
      have enough : (item :: items).length ≤
          (style.join ((item :: items).map write) ++ close :: rest).length := by
        rw [List.length_map] at bound
        rw [List.length_append]
        omega
      have all := readItems_written readable (List.cons_ne_nil item items) each solid noComma _ enough
        rest
      rw [readSequence]
      rw [joined, List.cons_append] at all ⊢
      rw [skipSpace_cons headSolid]
      simp only [if_neg differs]
      exact all

end Items

theorem setItem_new {fields : List (Codes × Value)} {field : Codes × Value}
    (new : field.1 ∉ fields.map Prod.fst) : setItem fields field = fields ++ [field] := by
  refine if_neg ?_
  simp only [List.any_eq_true, decide_eq_true_eq, not_exists, not_and]
  intro earlier member same
  exact new (List.mem_map.mpr ⟨earlier, member, same⟩)

/-- Fields with distinct keys are a dictionary as they are. -/
theorem dict_distinct {fields : List (Codes × Value)} (distinct : (fields.map Prod.fst).Nodup) :
    dict fields = fields := by
  have all : ∀ before after : List (Codes × Value), ((before ++ after).map Prod.fst).Nodup →
      after.foldl setItem before = before ++ after := by
    intro before after
    induction after generalizing before with
    | nil => simp
    | cons field rest ih =>
        intro distinct
        have new : field.1 ∉ before.map Prod.fst := by
          rw [List.map_append, List.map_cons] at distinct
          intro earlier
          exact (List.nodup_append.mp distinct).2.2 _ earlier _ List.mem_cons_self rfl
        rw [List.foldl_cons, setItem_new new, ih _ (by simpa using distinct)]
        simp
  exact all [] fields (by simpa using distinct)

theorem readTerm_string (readable : style.Readable) (valid : ∀ code ∈ codes, code.isValidChar)
    (nested : Option (Reader Value)) (rest : Codes) :
    readTerm nested (style.string codes ++ rest) = .ok (.string codes, rest) := by
  have read := readString_string readable valid rest
  simp only [Style.string, List.cons_append, readTerm, if_true, read]

/-- A field is read when its value is. -/
theorem readField_written (readable : style.Readable) {read : Reader Value} {value : Value}
    {key : Codes} (valid : ∀ code ∈ key, code.isValidChar)
    (written : Writes read (dumps style) value) :
    Writes (readField read) (fun field => style.field field.1 (dumps style field.2)) (key, value) := by
  refine ⟨⟨0x22, _, rfl, by decide, by decide, by decide, by decide⟩, ?_⟩
  intro rest
  obtain ⟨head, tail, opened, solid, _⟩ := written.opens.starts
  have blanks : skipSpace (style.afterColon ++ (dumps style value ++ rest)) =
      dumps style value ++ rest := by
    rw [opened, List.cons_append]
    exact skipSpace_blanks readable.afterColon solid
  have string := readString_string readable valid
    (0x3a :: (style.afterColon ++ dumps style value) ++ rest)
  simp only [Style.field, Style.string, List.cons_append, List.append_assoc] at string ⊢
  rw [readField, if_pos rfl, string]
  simp only [skipSpace_cons (show isSpace 0x3a = false by decide), if_true, blanks, written.reads,
    bind, Except.bind]

/-- A name is read by any reader of values. -/
theorem readTerm_name (nested : Option (Reader Value)) (rest : Codes) :
    readTerm nested (codesOf "null".toList ++ rest) = .ok (.null, rest) ∧
    readTerm nested (codesOf "true".toList ++ rest) = .ok (.bool true, rest) ∧
    readTerm nested (codesOf "false".toList ++ rest) = .ok (.bool false, rest) :=
  ⟨rfl, rfl, rfl⟩

theorem readValue_eq (depth : Nat) :
    ∃ nested, readValue depth = readTerm nested := by
  cases depth with
  | zero => exact ⟨none, rfl⟩
  | succ depth => exact ⟨_, rfl⟩

/-- A written value is read back. -/
theorem readValue_written (readable : style.Readable) {value : Value}
    (writable : Writable depth value) : Writes (readValue depth) (dumps style) value := by
  induction writable with
  | @null depth =>
      obtain ⟨nested, terms⟩ := readValue_eq depth
      refine ⟨⟨_, _, rfl, by decide⟩, fun rest => ?_⟩
      rw [terms, dumps]
      exact (readTerm_name nested rest).1
  | @bool depth value =>
      obtain ⟨nested, terms⟩ := readValue_eq depth
      cases value with
      | true =>
          refine ⟨⟨_, _, rfl, by decide⟩, fun rest => ?_⟩
          rw [terms, dumps]
          exact (readTerm_name nested rest).2.1
      | false =>
          refine ⟨⟨_, _, rfl, by decide⟩, fun rest => ?_⟩
          rw [terms, dumps]
          exact (readTerm_name nested rest).2.2
  | @string depth codes valid =>
      obtain ⟨nested, terms⟩ := readValue_eq depth
      refine ⟨⟨_, _, rfl, by decide⟩, fun rest => ?_⟩
      rw [terms, dumps]
      exact readTerm_string readable valid nested rest
  | @array depth items each ih =>
      refine ⟨⟨_, _, rfl, by decide⟩, fun rest => ?_⟩
      have read := readSequence_written readable ih (.inl rfl) rest
      rw [dumps, dumpsItems_eq, List.cons_append, List.append_assoc, List.singleton_append,
        readValue]
      simp [readTerm, read, bind, Except.bind]
  | @object depth fields valid distinct each ih =>
      refine ⟨⟨_, _, rfl, by decide⟩, fun rest => ?_⟩
      have fieldwise : ∀ field ∈ fields, Writes (readField (readValue depth))
          (fun field => style.field field.1 (dumps style field.2)) field := by
        rintro ⟨key, value⟩ member
        exact readField_written readable (valid _ member) (ih _ member)
      have read := readSequence_written readable fieldwise (.inr rfl) rest
      rw [dumps, dumpsFields_eq, List.cons_append, List.append_assoc, List.singleton_append,
        readValue]
      simp [readTerm, read, bind, Except.bind, dict_distinct distinct]

/-- Reading undoes writing. -/
theorem loads_dumps (readable : style.Readable) {value : Value} (writable : Writable depth value) :
    loads depth (dumps style value) = .ok value := by
  have written := readValue_written readable writable
  obtain ⟨head, tail, opened, solid, _, _, noMark⟩ := written.opens.starts
  have read := written.reads []
  rw [List.append_nil] at read
  have unmarked : (dumps style value).head? ≠ some 0xfeff := by
    simpa [opened] using noMark
  have unskipped : skipSpace (dumps style value) = dumps style value := by
    rw [opened, skipSpace_cons solid]
  rw [loads, if_neg unmarked, unskipped, read]
  simp only [bind, Except.bind]
  exact if_pos rfl

end RoundTrip

section Ascii

def hexCode (digit : Nat) : Nat := if digit < 10 then 0x30 + digit else 0x57 + digit

def hex4 (unit : Nat) : Codes :=
  [hexCode (unit / 4096 % 16), hexCode (unit / 256 % 16), hexCode (unit / 16 % 16),
    hexCode (unit % 16)]

/-- Quotes, backslashes, control characters and everything beyond ASCII are escaped; beyond the
basic plane a letter is a pair of surrogates. -/
def escapeAscii (code : Nat) : Codes :=
  if code = 0x22 ∨ code = 0x5c then [0x5c, code]
  else if code = 0x0a then [0x5c, 0x6e]
  else if code = 0x0d then [0x5c, 0x72]
  else if code = 0x09 then [0x5c, 0x74]
  else if code = 0x0c then [0x5c, 0x66]
  else if code = 0x08 then [0x5c, 0x62]
  else if 0x20 ≤ code ∧ code ≤ 0x7e then [code]
  else if code < 0x10000 then 0x5c :: 0x75 :: hex4 code
  else 0x5c :: 0x75 :: (hex4 (0xd800 + (code - 0x10000) / 0x400) ++
    0x5c :: 0x75 :: hex4 (0xdc00 + (code - 0x10000) % 0x400))

/-- The style that `json.dumps` has by default. -/
def asciiStyle : Style := ⟨escapeAscii, [0x20], [0x20]⟩

theorem hexValue_hexCode : ∀ digit < 16, hexValue (hexCode digit) = some digit := by decide

theorem readHex_hex4 {unit : Nat} (bounded : unit < 0x10000) (rest : Codes) :
    readHex (hex4 unit ++ rest) = some (unit, rest) := by
  have whole : ((unit / 4096 % 16 * 16 + unit / 256 % 16) * 16 + unit / 16 % 16) * 16 + unit % 16 =
      unit := by omega
  simp only [hex4, List.cons_append, List.nil_append, readHex,
    hexValue_hexCode _ (Nat.mod_lt _ (by decide : 0 < 16)), Option.bind_eq_bind, Option.bind_some,
    whole]

/-- The escape of a letter of the basic plane stands for that letter. -/
theorem readUnicode_plain {code : Nat} (plain : code < 0xd800 ∨ 0xdfff < code)
    (bounded : code < 0x10000) (rest : Codes) :
    readUnicode (hex4 code ++ rest) = some (code, rest) := by
  have noSurrogate : ¬ (0xd800 ≤ code ∧ code ≤ 0xdbff) := by omega
  rw [readUnicode, readHex_hex4 bounded]
  simp only [Option.bind_eq_bind, Option.bind_some, if_neg noSurrogate]

/-- The escapes of two surrogates stand for the letter that they make. -/
theorem readUnicode_pair {high low : Nat} (isHigh : 0xd800 ≤ high ∧ high ≤ 0xdbff)
    (isLow : 0xdc00 ≤ low ∧ low ≤ 0xdfff) (rest : Codes) :
    readUnicode (hex4 high ++ 0x5c :: 0x75 :: (hex4 low ++ rest)) =
      some (0x10000 + (high - 0xd800) * 0x400 + (low - 0xdc00), rest) := by
  rw [readUnicode, readHex_hex4 (by omega)]
  simp only [Option.bind_eq_bind, Option.bind_some, if_pos isHigh]
  rw [readHex_hex4 (by omega)]
  simp only [Option.bind_some, if_pos isLow]

theorem asciiStyle_readable : asciiStyle.Readable where
  escape code valid rest := by
    have scalar : (code < 0xd800 ∨ 0xdfff < code) ∧ code < 0x110000 := by
      rcases valid with low | high <;> omega
    show readUnit (escapeAscii code ++ rest) = some (code, rest)
    unfold escapeAscii
    split_ifs with mark newline carriage tab feed backspace printable basic
    · rcases mark with rfl | rfl <;> rfl
    · rw [newline]; rfl
    · rw [carriage]; rfl
    · rw [tab]; rfl
    · rw [feed]; rfl
    · rw [backspace]; rfl
    · have noMark := not_or.mp mark
      have plain : ¬ (code < 0x20 ∨ code = 0x22) := by omega
      simp only [List.cons_append, List.nil_append, readUnit, if_neg noMark.2, if_neg plain]
    · exact readUnicode_plain scalar.1 basic rest
    · obtain ⟨high, isHigh, sameHigh⟩ : ∃ high, (0xd800 ≤ high ∧ high ≤ 0xdbff) ∧
          high = 0xd800 + (code - 0x10000) / 0x400 := ⟨_, by omega, rfl⟩
      obtain ⟨low, isLow, sameLow⟩ : ∃ low, (0xdc00 ≤ low ∧ low ≤ 0xdfff) ∧
          low = 0xdc00 + (code - 0x10000) % 0x400 := ⟨_, by omega, rfl⟩
      have joined : 0x10000 + (high - 0xd800) * 0x400 + (low - 0xdc00) = code := by omega
      have pair := readUnicode_pair isHigh isLow rest
      rw [joined] at pair
      rw [← sameHigh, ← sameLow]
      simpa [readUnit, readEscape] using pair
  afterComma := by decide
  afterColon := by decide

/-- An ASCII code that is not zero. -/
abbrev IsAscii (code : Nat) : Prop := 0 < code ∧ code < 0x80

theorem escapeUnit_ascii (unit : Nat) : ∀ code ∈ 0x5c :: 0x75 :: hex4 unit, IsAscii code := by
  have digit : ∀ value < 16, IsAscii (hexCode value) := by decide
  intro code member
  simp only [hex4, List.mem_cons, List.not_mem_nil, or_false] at member
  rcases member with rfl | rfl | rfl | rfl | rfl | rfl
  · decide
  · decide
  all_goals exact digit _ (Nat.mod_lt _ (by decide))

theorem escapeAscii_ascii (letter : Nat) : ∀ code ∈ escapeAscii letter, IsAscii code := by
  unfold escapeAscii
  split_ifs with mark newline carriage tab feed backspace printable basic
  · rcases mark with rfl | rfl <;> decide
  · decide
  · decide
  · decide
  · decide
  · decide
  · intro code member
    rw [List.mem_singleton.mp member]
    exact ⟨by omega, by omega⟩
  · exact escapeUnit_ascii letter
  · rw [← List.cons_append, ← List.cons_append]
    exact List.forall_mem_append.mpr ⟨escapeUnit_ascii _, escapeUnit_ascii _⟩

theorem escapeAscii_length (letter : Nat) : (escapeAscii letter).length ≤ 12 := by
  unfold escapeAscii
  split_ifs <;> simp [hex4]

theorem asciiStyle_string_ascii (codes : Codes) : ∀ code ∈ asciiStyle.string codes, IsAscii code := by
  rw [Style.string, List.forall_mem_cons, List.forall_mem_append]
  refine ⟨by decide, ?_, by decide⟩
  intro code member
  obtain ⟨letter, _, inside⟩ := List.mem_flatMap.mp member
  exact escapeAscii_ascii letter code inside

theorem asciiStyle_join_ascii {parts : List Codes}
    (ascii : ∀ part ∈ parts, ∀ code ∈ part, IsAscii code) :
    ∀ code ∈ asciiStyle.join parts, IsAscii code := by
  have blank : ∀ code ∈ asciiStyle.afterComma, IsAscii code := by decide
  intro code member
  rcases mem_join member with rfl | inside | ⟨part, inside, found⟩
  · decide
  · exact blank code inside
  · exact ascii part inside code found

/-- The default style writes ASCII. -/
theorem dumps_ascii {value : Value} (writable : Writable depth value) :
    ∀ code ∈ dumps asciiStyle value, IsAscii code := by
  induction writable with
  | null =>
      rw [dumps]
      decide
  | @bool _ value =>
      cases value <;>
      · rw [dumps]
        decide
  | string =>
      rw [dumps]
      exact asciiStyle_string_ascii _
  | array _ ih =>
      rw [dumps, dumpsItems_eq, List.forall_mem_cons, List.forall_mem_append]
      refine ⟨by decide, asciiStyle_join_ascii ?_, by decide⟩
      intro part member
      obtain ⟨item, inside, rfl⟩ := List.mem_map.mp member
      exact ih item inside
  | object _ _ _ ih =>
      rw [dumps, dumpsFields_eq, List.forall_mem_cons, List.forall_mem_append]
      refine ⟨by decide, asciiStyle_join_ascii ?_, by decide⟩
      intro part member
      obtain ⟨field, inside, rfl⟩ := List.mem_map.mp member
      rw [Style.field, List.forall_mem_append, List.forall_mem_cons, List.forall_mem_append]
      exact ⟨asciiStyle_string_ascii _, by decide, by decide, ih field inside⟩

theorem asciiStyle_string_length (codes : Codes) :
    (asciiStyle.string codes).length ≤ 12 * codes.length + 2 := by
  have letters : (codes.flatMap escapeAscii).length ≤ 12 * codes.length := by
    induction codes with
    | nil => exact Nat.le_refl _
    | cons code rest ih =>
        have first := escapeAscii_length code
        rw [List.flatMap_cons, List.length_append, List.length_cons]
        omega
  have whole : (asciiStyle.string codes).length = (codes.flatMap escapeAscii).length + 2 := by
    simp [Style.string, asciiStyle]
  omega

theorem asciiStyle_field_length (key written : Codes) :
    (asciiStyle.field key written).length = (asciiStyle.string key).length + 2 + written.length := by
  simp only [Style.field, asciiStyle, List.length_append, List.length_cons, List.length_nil]
  omega

theorem asciiStyle_join_length (parts : List Codes) :
    (asciiStyle.join parts).length ≤ (parts.map List.length).sum + 2 * parts.length := by
  induction parts with
  | nil => exact Nat.zero_le _
  | cons part rest ih =>
      cases rest with
      | nil =>
          rw [join_single, List.map_singleton, List.sum_singleton]
          exact Nat.le_add_right _ _
      | cons next rest =>
          rw [join_cons_cons, List.map_cons, List.sum_cons]
          simp only [List.length_append, List.length_cons, asciiStyle, List.length_nil] at ih ⊢
          omega

end Ascii

end ConvoScore.Library.Json
