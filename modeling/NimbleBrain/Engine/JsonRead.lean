import NimbleBrain.Engine.JsonObject

/- A text is read as a JSON value. What follows the value does not change how it is read. -/

namespace NimbleBrain.Engine

open Library

/-- The white space of JSON. -/
def isWhite (unit : UInt16) : Bool := unit = 32 || unit = 9 || unit = 10 || unit = 13

def skipWhite (text : Utf16) : Utf16 := text.dropWhile isWhite

/-- The text after a unit that may stand behind white space. -/
def expect (unit : UInt16) (text : Utf16) : Option Utf16 :=
  match skipWhite text with
  | [] => none
  | first :: rest => if first = unit then some rest else none

def hexDigit? (unit : UInt16) : Option Nat :=
  if 48 ≤ unit.toNat ∧ unit.toNat ≤ 57 then some (unit.toNat - 48)
  else if 97 ≤ unit.toNat ∧ unit.toNat ≤ 102 then some (unit.toNat - 87)
  else if 65 ≤ unit.toNat ∧ unit.toNat ≤ 70 then some (unit.toNat - 55)
  else none

def hexUnit? (first second third fourth : UInt16) : Option UInt16 :=
  match hexDigit? first, hexDigit? second, hexDigit? third, hexDigit? fourth with
  | some first, some second, some third, some fourth =>
      some (UInt16.ofNat (4096 * first + 256 * second + 16 * third + fourth))
  | _, _, _, _ => none

/-- The letters that may follow a backslash, besides the one for a code. -/
def escapeLetters : List UInt16 := [34, 92, 47, 98, 102, 110, 114, 116]

/-- The rest of a string behind its opening mark. -/
def readString : Utf16 → Option (Utf16 × Utf16)
  | [] => none
  | unit :: rest =>
      if unit = 34 then some ([], rest)
      else if unit = 92 then
        match rest with
        | [] => none
        | letter :: rest =>
            if letter = 117 then
              match rest with
              | first :: second :: third :: fourth :: rest =>
                  (hexUnit? first second third fourth).bind fun unit =>
                    (readString rest).map fun read => (unit :: read.1, read.2)
              | _ => none
            else if letter ∈ escapeLetters then
              (readString rest).map fun read => (Utf16.readEscape letter :: read.1, read.2)
            else none
      else if unit.toNat < 32 then none
      else (readString rest).map fun read => (unit :: read.1, read.2)

/-- The units that the text of a number is made of. -/
def isNumberUnit (unit : UInt16) : Bool := isNumeric unit || unit = 69

def isDigit (unit : UInt16) : Bool := 48 ≤ unit.toNat && unit.toNat ≤ 57

/-- The text after one digit or more. -/
def afterDigits (text : Utf16) : Option Utf16 :=
  if (text.takeWhile isDigit).isEmpty then none else some (text.dropWhile isDigit)

def afterSign (signs : List UInt16) : Utf16 → Utf16
  | [] => []
  | first :: rest => if first ∈ signs then rest else first :: rest

/-- A whole part has no leading zero. -/
def afterWhole : Utf16 → Option Utf16
  | [] => none
  | first :: rest => if first = 48 then some rest else afterDigits (first :: rest)

def afterFraction : Utf16 → Option Utf16
  | [] => some []
  | first :: rest => if first = 46 then afterDigits rest else some (first :: rest)

def afterExponent : Utf16 → Option Utf16
  | [] => some []
  | first :: rest => if first = 101 ∨ first = 69 then afterDigits (afterSign [43, 45] rest) else some (first :: rest)

/-- The grammar of the numbers of JSON. -/
def isNumberText (text : Utf16) : Bool :=
  ((afterWhole (afterSign [45] text)).bind afterFraction).bind afterExponent = some []

section Values

variable (number : Utf16 → JsonNumber)

def readWord (word : Utf16) (value : Json) (text : Utf16) : Option (Json × Utf16) :=
  if word <+: text then some (value, text.drop word.length) else none

/-- A number goes on as long as its units do. -/
def readNumber (text : Utf16) : Option (Json × Utf16) :=
  if isNumberText (text.takeWhile isNumberUnit) then
    some (.number (number (text.takeWhile isNumberUnit)), text.dropWhile isNumberUnit)
  else none

mutual

/-- The value at the front of a text and what follows it. A key that comes again takes the later value. -/
def readValue : Nat → Utf16 → Option (Json × Utf16)
  | 0, _ => none
  | fuel + 1, text =>
      match skipWhite text with
      | [] => none
      | first :: rest =>
          if first = 123 then
            match expect 125 rest with
            | some after => some (.object [], after)
            | none => (readEntries fuel rest).map fun read => (.object (fieldsOf read.1).entries, read.2)
          else if first = 91 then
            match expect 93 rest with
            | some after => some (.array [], after)
            | none => (readItems fuel rest).map fun read => (.array read.1, read.2)
          else if first = 34 then (readString rest).map fun read => (.string read.1, read.2)
          else if first = 110 then readWord (Utf16.ofString "null") .null (first :: rest)
          else if first = 116 then readWord (Utf16.ofString "true") (.bool true) (first :: rest)
          else if first = 102 then readWord (Utf16.ofString "false") (.bool false) (first :: rest)
          else readNumber number (first :: rest)

def readItems : Nat → Utf16 → Option (List Json × Utf16)
  | 0, _ => none
  | fuel + 1, text =>
      (readValue fuel text).bind fun item =>
        match expect 93 item.2 with
        | some after => some ([item.1], after)
        | none =>
            (expect 44 item.2).bind fun rest => (readItems fuel rest).map fun read => (item.1 :: read.1, read.2)

def readEntries : Nat → Utf16 → Option (List (Utf16 × Json) × Utf16)
  | 0, _ => none
  | fuel + 1, text =>
      ((expect 34 text).bind readString).bind fun key =>
        ((expect 58 key.2).bind (readValue fuel)).bind fun value =>
          match expect 125 value.2 with
          | some after => some ([(key.1, value.1)], after)
          | none =>
              (expect 44 value.2).bind fun rest =>
                (readEntries fuel rest).map fun read => ((key.1, value.1) :: read.1, read.2)

end

/-- Every value inside takes a unit at least and two calls at most. -/
def enoughFuel (text : Utf16) : Nat := 2 * text.length + 2

/-- The value of a whole text. White space may follow it, and nothing else. -/
def jsonParse (text : Utf16) : Option Json :=
  (readValue number (enoughFuel text) text).bind fun read => if read.2.all isWhite then some read.1 else none

end Values

variable {text rest more : Utf16} {unit : UInt16} {value : Json} {fuel larger : Nat} {items : List Json}
  {entries : List (Utf16 × Json)}

attribute [grind =] expect readString readValue readItems readEntries

theorem skipWhite_append (some : skipWhite text ≠ []) (more : Utf16) :
    skipWhite (text ++ more) = skipWhite text ++ more := by
  rw [skipWhite, List.dropWhile_append, if_neg]
  · rfl
  · rwa [List.isEmpty_iff]

theorem skipWhite_ne_nil_of_expect (read : expect unit text = some rest) :
    skipWhite text ≠ [] := by
  intro empty
  rw [expect, empty] at read
  exact nomatch read

theorem expect_append (some : skipWhite text ≠ []) (unit : UInt16) (more : Utf16) :
    expect unit (text ++ more) = (expect unit text).map (· ++ more) := by
  rw [expect, expect, skipWhite_append some]
  cases shape : skipWhite text with
  | nil => exact absurd shape some
  | cons first rest =>
      by_cases same : first = unit
      · simp [same]
      · simp [same]

theorem expect_append_of_some (read : expect unit text = some rest) (more : Utf16) :
    expect unit (text ++ more) = some (rest ++ more) := by
  rw [expect_append (skipWhite_ne_nil_of_expect read), read, Option.map_some]

theorem readString_mark (rest : Utf16) : readString (34 :: rest) = some ([], rest) := by
  rw [readString.eq_def]
  rfl

theorem readString_code (first second third fourth : UInt16) (rest : Utf16) :
    readString (92 :: 117 :: first :: second :: third :: fourth :: rest) =
      (hexUnit? first second third fourth).bind fun unit =>
        (readString rest).map fun read => (unit :: read.1, read.2) := by
  rw [readString.eq_def]
  rfl

theorem readString_letter {letter : UInt16} (noCode : letter ≠ 117) (listed : letter ∈ escapeLetters) (rest : Utf16) :
    readString (92 :: letter :: rest) =
      (readString rest).map fun read => (Utf16.readEscape letter :: read.1, read.2) := by
  rw [readString.eq_def]
  change (if letter = 117 then _ else if letter ∈ escapeLetters then _ else _) = _
  rw [if_neg noCode, if_pos listed]

theorem readString_plain (noMark : unit ≠ 34) (noEscape : unit ≠ 92) (printed : ¬ unit.toNat < 32) (rest : Utf16) :
    readString (unit :: rest) = (readString rest).map fun read => (unit :: read.1, read.2) := by
  rw [readString.eq_def]
  change (if unit = 34 then _ else if unit = 92 then _ else if unit.toNat < 32 then _ else _) = _
  rw [if_neg noMark, if_neg noEscape, if_neg printed]

theorem readString_append {value : Utf16} (read : readString text = some (value, rest)) (more : Utf16) :
    readString (text ++ more) = some (value, rest ++ more) := by
  fun_induction readString text generalizing value rest with
  | case1 => exact nomatch read
  | case2 after =>
      obtain ⟨rfl, rfl⟩ := Prod.mk.inj (Option.some.inj read)
      exact readString_mark _
  | case3 => exact nomatch read
  | case4 first second third fourth after _ ih =>
      obtain ⟨unit, code, later⟩ := Option.bind_eq_some_iff.mp read
      obtain ⟨⟨inside, after'⟩, found, same⟩ := Option.map_eq_some_iff.mp later
      obtain ⟨rfl, rfl⟩ := Prod.mk.inj same
      simp only [List.cons_append, readString_code, code, ih found, Option.bind_some, Option.map_some]
  | case5 => exact nomatch read
  | case6 letter after noCode listed _ ih =>
      obtain ⟨⟨inside, after'⟩, found, same⟩ := Option.map_eq_some_iff.mp read
      obtain ⟨rfl, rfl⟩ := Prod.mk.inj same
      simp only [List.cons_append, readString_letter noCode listed, ih found, Option.map_some]
  | case7 => exact nomatch read
  | case8 => exact nomatch read
  | case9 unit after noMark noEscape printed ih =>
      obtain ⟨⟨inside, after'⟩, found, same⟩ := Option.map_eq_some_iff.mp read
      obtain ⟨rfl, rfl⟩ := Prod.mk.inj same
      simp only [List.cons_append, readString_plain noMark noEscape printed, ih found, Option.map_some]

/-- A text behind a number that does not continue it. -/
def StopsNumber (after : Utf16) : Prop := ∀ unit ∈ after.head?, isNumberUnit unit = false

theorem takeWhile_append_of_stops (stops : text.dropWhile isNumberUnit = [] → StopsNumber more) :
    (text ++ more).takeWhile isNumberUnit = text.takeWhile isNumberUnit ∧
      (text ++ more).dropWhile isNumberUnit = text.dropWhile isNumberUnit ++ more := by
  induction text with
  | nil =>
      cases more with
      | nil => exact ⟨rfl, rfl⟩
      | cons first rest =>
          have stop : isNumberUnit first = false := stops rfl first rfl
          simp [stop]
  | cons first rest ih =>
      by_cases unit : isNumberUnit first = true
      · simp only [List.dropWhile_cons, unit, if_true] at stops
        obtain ⟨same, same'⟩ := ih stops
        simp [unit, same, same']
      · simp [unit]

variable {number : Utf16 → JsonNumber}

theorem readNumber_append (read : readNumber number text = some (value, rest))
    (stops : rest = [] → StopsNumber more) :
    readNumber number (text ++ more) = some (value, rest ++ more) := by
  simp only [readNumber] at read ⊢
  split at read
  · next grammar =>
      obtain ⟨rfl, rfl⟩ := Prod.mk.inj (Option.some.inj read)
      obtain ⟨same, same'⟩ := takeWhile_append_of_stops stops
      rw [same, same', if_pos grammar]
  · exact nomatch read

theorem readWord_append {word : Utf16} {found : Json} (read : readWord word value text = some (found, rest))
    (more : Utf16) :
    readWord word value (text ++ more) = some (found, rest ++ more) := by
  simp only [readWord] at read ⊢
  split at read
  · next front =>
      obtain ⟨rfl, rfl⟩ := Prod.mk.inj (Option.some.inj read)
      rw [if_pos (front.trans (List.prefix_append text more)), List.drop_append_of_le_length front.length_le]
  · exact nomatch read

/-- What is read stays so before more text and with more fuel. Only a number could go on. -/
structure Extends (number : Utf16 → JsonNumber) (fuel : Nat) : Prop where
  values : ∀ {text rest more : Utf16} {value : Json} {larger : Nat}, fuel ≤ larger →
    readValue number fuel text = some (value, rest) →
    (∀ numeral, value = .number numeral → rest = [] → StopsNumber more) →
    readValue number larger (text ++ more) = some (value, rest ++ more)
  items : ∀ {text rest more : Utf16} {items : List Json} {larger : Nat}, fuel ≤ larger →
    readItems number fuel text = some (items, rest) →
    readItems number larger (text ++ more) = some (items, rest ++ more)
  entries : ∀ {text rest more : Utf16} {entries : List (Utf16 × Json)} {larger : Nat}, fuel ≤ larger →
    readEntries number fuel text = some (entries, rest) →
    readEntries number larger (text ++ more) = some (entries, rest ++ more)

/-- A value begins with a unit that is not white. -/
theorem skipWhite_ne_nil_of_readValue (read : readValue number fuel text = some (value, rest)) :
    skipWhite text ≠ [] := by
  intro empty
  cases fuel with
  | zero => exact nomatch read
  | succ fuel =>
      rw [readValue, empty] at read
      exact nomatch read

theorem skipWhite_ne_nil_of_readItems (read : readItems number fuel text = some (items, rest)) :
    skipWhite text ≠ [] := by
  cases fuel with
  | zero => exact nomatch read
  | succ fuel =>
      rw [readItems] at read
      obtain ⟨item, first, -⟩ := Option.bind_eq_some_iff.mp read
      exact skipWhite_ne_nil_of_readValue first

theorem skipWhite_ne_nil_of_readEntries (read : readEntries number fuel text = some (entries, rest)) :
    skipWhite text ≠ [] := by
  cases fuel with
  | zero => exact nomatch read
  | succ fuel =>
      rw [readEntries] at read
      obtain ⟨key, first, -⟩ := Option.bind_eq_some_iff.mp read
      obtain ⟨rest, mark, -⟩ := Option.bind_eq_some_iff.mp first
      exact skipWhite_ne_nil_of_expect mark

/-- A bracket behind a value keeps a number from going on. -/
theorem ne_nil_of_skipWhite (some : skipWhite text ≠ []) : text ≠ [] := by
  rintro rfl
  exact some rfl

theorem Extends.items_step (inner : Extends number fuel) (fits : fuel + 1 ≤ larger)
    (read : readItems number (fuel + 1) text = some (items, rest)) :
    readItems number larger (text ++ more) = some (items, rest ++ more) := by
  obtain ⟨larger, rfl⟩ := Nat.exists_eq_add_of_le' fits
  have within : fuel ≤ larger + fuel := Nat.le_add_left fuel larger
  rw [readItems] at read
  obtain ⟨⟨item, after⟩, first, later⟩ := Option.bind_eq_some_iff.mp read
  rw [show larger + (fuel + 1) = larger + fuel + 1 from rfl, readItems]
  cases close : expect 93 after with
  | some end' =>
      rw [close] at later
      obtain ⟨rfl, rfl⟩ := Prod.mk.inj (Option.some.inj later)
      have behind := skipWhite_ne_nil_of_expect close
      rw [inner.values within first fun _ _ empty => absurd empty (ne_nil_of_skipWhite behind), Option.bind_some]
      simp only [expect_append_of_some close]
  | none =>
      rw [close] at later
      obtain ⟨next, comma, others⟩ := Option.bind_eq_some_iff.mp later
      obtain ⟨⟨items', rest'⟩, found, same⟩ := Option.map_eq_some_iff.mp others
      obtain ⟨rfl, rfl⟩ := Prod.mk.inj same
      have behind := skipWhite_ne_nil_of_expect comma
      rw [inner.values within first fun _ _ empty => absurd empty (ne_nil_of_skipWhite behind), Option.bind_some]
      simp only [expect_append behind, close, comma, Option.map_none, Option.map_some, Option.bind_some,
        inner.items within found]

theorem Extends.entries_step (inner : Extends number fuel) (fits : fuel + 1 ≤ larger)
    (read : readEntries number (fuel + 1) text = some (entries, rest)) :
    readEntries number larger (text ++ more) = some (entries, rest ++ more) := by
  obtain ⟨larger, rfl⟩ := Nat.exists_eq_add_of_le' fits
  have within : fuel ≤ larger + fuel := Nat.le_add_left fuel larger
  rw [readEntries] at read
  obtain ⟨⟨key, afterKey⟩, first, second⟩ := Option.bind_eq_some_iff.mp read
  obtain ⟨afterMark, mark, string⟩ := Option.bind_eq_some_iff.mp first
  obtain ⟨⟨value, after⟩, valued, later⟩ := Option.bind_eq_some_iff.mp second
  obtain ⟨afterColon, colon, own⟩ := Option.bind_eq_some_iff.mp valued
  rw [show larger + (fuel + 1) = larger + fuel + 1 from rfl, readEntries, expect_append_of_some mark,
    Option.bind_some, readString_append string, Option.bind_some]
  simp only [expect_append_of_some colon, Option.bind_some]
  cases close : expect 125 after with
  | some end' =>
      rw [close] at later
      obtain ⟨rfl, rfl⟩ := Prod.mk.inj (Option.some.inj later)
      have behind := skipWhite_ne_nil_of_expect close
      rw [inner.values within own fun _ _ empty => absurd empty (ne_nil_of_skipWhite behind), Option.bind_some]
      simp only [expect_append_of_some close]
  | none =>
      rw [close] at later
      obtain ⟨next, comma, others⟩ := Option.bind_eq_some_iff.mp later
      obtain ⟨⟨entries', rest'⟩, found, same⟩ := Option.map_eq_some_iff.mp others
      obtain ⟨rfl, rfl⟩ := Prod.mk.inj same
      have behind := skipWhite_ne_nil_of_expect comma
      rw [inner.values within own fun _ _ empty => absurd empty (ne_nil_of_skipWhite behind), Option.bind_some]
      simp only [expect_append behind, close, comma, Option.map_none, Option.map_some, Option.bind_some,
        inner.entries within found]

theorem Extends.values_step (inner : Extends number fuel) (fits : fuel + 1 ≤ larger)
    (read : readValue number (fuel + 1) text = some (value, rest))
    (stops : ∀ numeral, value = .number numeral → rest = [] → StopsNumber more) :
    readValue number larger (text ++ more) = some (value, rest ++ more) := by
  obtain ⟨larger, rfl⟩ := Nat.exists_eq_add_of_le' fits
  have within : fuel ≤ larger + fuel := Nat.le_add_left fuel larger
  have begun := skipWhite_ne_nil_of_readValue read
  rw [readValue] at read
  rw [show larger + (fuel + 1) = larger + fuel + 1 from rfl, readValue, skipWhite_append begun]
  cases shape : skipWhite text with
  | nil => exact absurd shape begun
  | cons first behind =>
      simp only [shape, List.cons_append] at read ⊢
      split_ifs at read ⊢ with object array string null yes no
      · cases close : expect 125 behind with
        | some after =>
            rw [close] at read
            obtain ⟨rfl, rfl⟩ := Prod.mk.inj (Option.some.inj read)
            simp only [expect_append_of_some close]
        | none =>
            rw [close] at read
            obtain ⟨⟨entries, after⟩, found, same⟩ := Option.map_eq_some_iff.mp read
            obtain ⟨rfl, rfl⟩ := Prod.mk.inj same
            simp only [expect_append (skipWhite_ne_nil_of_readEntries found), close, Option.map_none,
              inner.entries within found, Option.map_some]
      · cases close : expect 93 behind with
        | some after =>
            rw [close] at read
            obtain ⟨rfl, rfl⟩ := Prod.mk.inj (Option.some.inj read)
            simp only [expect_append_of_some close]
        | none =>
            rw [close] at read
            obtain ⟨⟨items, after⟩, found, same⟩ := Option.map_eq_some_iff.mp read
            obtain ⟨rfl, rfl⟩ := Prod.mk.inj same
            simp only [expect_append (skipWhite_ne_nil_of_readItems found), close, Option.map_none,
              inner.items within found, Option.map_some]
      · obtain ⟨⟨inside, after⟩, found, same⟩ := Option.map_eq_some_iff.mp read
        obtain ⟨rfl, rfl⟩ := Prod.mk.inj same
        rw [readString_append found, Option.map_some]
      · exact readWord_append read more
      · exact readWord_append read more
      · exact readWord_append read more
      · obtain ⟨numeral, rfl⟩ : ∃ numeral, value = .number numeral := by
          simp only [readNumber] at read
          split at read
          · exact ⟨_, (Prod.mk.inj (Option.some.inj read)).1.symm⟩
          · exact nomatch read
        exact readNumber_append read (stops numeral rfl)

/-- The calls with less fuel carry the ones with more. -/
theorem extends_fuel (number : Utf16 → JsonNumber) (fuel : Nat) : Extends number fuel := by
  induction fuel with
  | zero => exact ⟨fun _ read => (nomatch read), fun _ read => (nomatch read), fun _ read => (nomatch read)⟩
  | succ fuel inner => exact ⟨inner.values_step, inner.items_step, inner.entries_step⟩

end NimbleBrain.Engine
