import NimbleBrain.Engine.JsonCut

/- A value that is written as JSON is read back. -/

namespace NimbleBrain.Engine

open Library

mutual

/-- The text that JSON writes for a value. The entries of an object keep their order. -/
def stringify : Json → Utf16
  | .null => Utf16.ofString "null"
  | .bool true => Utf16.ofString "true"
  | .bool false => Utf16.ofString "false"
  | .number value => value.text
  | .string value => Utf16.quote value
  | .array items => 91 :: joinComma (stringifyItems items) ++ [93]
  | .object entries => 123 :: joinComma (stringifyEntries entries) ++ [125]

def stringifyItems : List Json → List Utf16
  | [] => []
  | item :: rest => stringify item :: stringifyItems rest

def stringifyEntries : List (Utf16 × Json) → List Utf16
  | [] => []
  | (key, value) :: rest => entryText (key, stringify value) :: stringifyEntries rest

end

/-- A value as a script has it: keys come once, and the text of a number is read as that number. -/
inductive Json.Readable (number : Utf16 → JsonNumber) : Json → Prop where
  | null : Json.null.Readable number
  | bool (value : Bool) : (Json.bool value).Readable number
  | number {value : JsonNumber} (grammar : isNumberText value.text = true) (same : number value.text = value) :
      (Json.number value).Readable number
  | string (value : Utf16) : (Json.string value).Readable number
  | array {items : List Json} (inside : ∀ item ∈ items, item.Readable number) : (Json.array items).Readable number
  | object {entries : List (Utf16 × Json)} (keys : (entries.map Prod.fst).Nodup)
      (inside : ∀ entry ∈ entries, entry.2.Readable number) : (Json.object entries).Readable number

theorem hexDigit?_hexDigit : ∀ value < 16, hexDigit? (Utf16.hexDigit value) = some value := by decide

theorem hexUnit?_unicodeEscape (unit : UInt16) :
    hexUnit? (Utf16.hexDigit (unit.toNat / 4096)) (Utf16.hexDigit (unit.toNat / 256 % 16))
      (Utf16.hexDigit (unit.toNat / 16 % 16)) (Utf16.hexDigit (unit.toNat % 16)) = some unit := by
  have bound : unit.toNat < 65536 := unit.toNat_lt
  have whole : 4096 * (unit.toNat / 4096) + 256 * (unit.toNat / 256 % 16) + 16 * (unit.toNat / 16 % 16) +
      unit.toNat % 16 = unit.toNat := by omega
  rw [hexUnit?, hexDigit?_hexDigit _ (by omega), hexDigit?_hexDigit _ (by omega), hexDigit?_hexDigit _ (by omega),
    hexDigit?_hexDigit _ (by omega)]
  dsimp only
  rw [whole, UInt16.ofNat_toNat]

/-- An escaped unit is read as the unit. -/
theorem readString_escapeUnit (unit : UInt16) (rest : Utf16) :
    readString (Utf16.escapeUnit unit ++ rest) = (readString rest).map fun read => (unit :: read.1, read.2) := by
  have letter : ∀ letter : UInt16, letter ≠ 117 → letter ∈ escapeLetters → Utf16.readEscape letter = unit →
      readString ([92, letter] ++ rest) = (readString rest).map fun read => (unit :: read.1, read.2) := by
    intro letter noCode listed same
    rw [List.cons_append, List.singleton_append, readString_letter noCode listed, same]
  rw [Utf16.escapeUnit]
  split_ifs with quote backslash backspace tab newline feed return' special
  · exact letter 34 (by decide) (by decide) quote.symm
  · exact letter 92 (by decide) (by decide) backslash.symm
  · exact letter 98 (by decide) (by decide) backspace.symm
  · exact letter 116 (by decide) (by decide) tab.symm
  · exact letter 110 (by decide) (by decide) newline.symm
  · exact letter 102 (by decide) (by decide) feed.symm
  · exact letter 114 (by decide) (by decide) return'.symm
  · simp only [Utf16.unicodeEscape, List.cons_append, List.nil_append, readString_code, hexUnit?_unicodeEscape,
      Option.bind_some]
  · simp only [Bool.or_eq_true, decide_eq_true_eq, not_or] at special
    rw [List.singleton_append, readString_plain quote backslash special.1.1]

theorem readString_token {token : Utf16.Token} (valid : token.Valid) (rest : Utf16) :
    readString (token.text ++ rest) = (readString rest).map fun read => (token.units ++ read.1, read.2) := by
  cases token with
  | single unit => exact readString_escapeUnit unit rest
  | pair lead trail =>
      have high : 55296 ≤ lead.toNat ∧ 55296 ≤ trail.toNat := by
        have first := valid.1
        have second := valid.2
        simp only [Utf16.isLead, Utf16.isTrail, Bool.and_eq_true, decide_eq_true_eq] at first second
        omega
      have plain : ∀ unit : UInt16, 55296 ≤ unit.toNat → unit ≠ 34 ∧ unit ≠ 92 ∧ ¬ unit.toNat < 32 := by
        intro unit large
        refine ⟨?_, ?_, by omega⟩
        all_goals
          rintro rfl
          exact absurd large (by decide)
      obtain ⟨noMark, noEscape, printed⟩ := plain lead high.1
      obtain ⟨noMark', noEscape', printed'⟩ := plain trail high.2
      rw [Utf16.Token.text, List.cons_append, List.singleton_append, readString_plain noMark noEscape printed,
        readString_plain noMark' noEscape' printed', Option.map_map]
      rfl

/-- A text in quotes is read as the text. -/
theorem readString_quote (text rest : Utf16) :
    readString ((Utf16.tokens text).flatMap Utf16.Token.text ++ 34 :: rest) = some (text, rest) := by
  have inside : ∀ tokens : List Utf16.Token, (∀ token ∈ tokens, token.Valid) →
      readString (tokens.flatMap Utf16.Token.text ++ 34 :: rest) = some (tokens.flatMap Utf16.Token.units, rest) := by
    intro tokens valid
    induction tokens with
    | nil => exact readString_mark rest
    | cons token tokens ih =>
        obtain ⟨own, later⟩ := List.forall_mem_cons.mp valid
        rw [List.flatMap_cons, List.append_assoc, readString_token own, ih later, Option.map_some, List.flatMap_cons]
  rw [inside _ (Utf16.tokens_valid text), Utf16.units_tokens]

/-- The units that JSON writes are all printed, so that a written value is one line. -/
def Printed (text : Utf16) : Prop := ∀ unit ∈ text, 32 ≤ unit.toNat

theorem Printed.append {first second : Utf16} (printed : Printed first) (printed' : Printed second) :
    Printed (first ++ second) := List.forall_mem_append.mpr ⟨printed, printed'⟩

variable {text : Utf16}

theorem Printed.cons {unit : UInt16} (printed : 32 ≤ unit.toNat) (rest : Printed text) :
    Printed (unit :: text) := List.forall_mem_cons.mpr ⟨printed, rest⟩

theorem Printed.nil : Printed [] := nofun

theorem printed_iff_all : Printed text ↔ text.all (fun unit => 32 ≤ unit.toNat) = true := by
  simp [Printed]

theorem printed_hexDigit : ∀ value < 16, 32 ≤ (Utf16.hexDigit value).toNat := by decide

theorem printed_escapeUnit (unit : UInt16) : Printed (Utf16.escapeUnit unit) := by
  have bound : unit.toNat < 65536 := unit.toNat_lt
  rw [Utf16.escapeUnit]
  split_ifs with quote backslash backspace tab newline feed return' special
  all_goals first
    | exact .cons (by decide) (.cons (by decide) .nil)
    | skip
  · exact .cons (by decide) (.cons (by decide) (.cons (printed_hexDigit _ (by omega))
      (.cons (printed_hexDigit _ (by omega)) (.cons (printed_hexDigit _ (by omega))
        (.cons (printed_hexDigit _ (by omega)) .nil)))))
  · simp only [Bool.or_eq_true, decide_eq_true_eq, not_or, Nat.not_lt] at special
    exact .cons special.1.1 .nil

theorem printed_quote (text : Utf16) : Printed (Utf16.quote text) := by
  have inside : ∀ tokens : List Utf16.Token, (∀ token ∈ tokens, token.Valid) →
      Printed (tokens.flatMap Utf16.Token.text) := by
    intro tokens valid
    induction tokens with
    | nil => exact .nil
    | cons token tokens ih =>
        obtain ⟨own, later⟩ := List.forall_mem_cons.mp valid
        refine .append ?_ (ih later)
        cases token with
        | single unit => exact printed_escapeUnit unit
        | pair lead trail =>
            have first := own.1
            have second := own.2
            simp only [Utf16.isLead, Utf16.isTrail, Bool.and_eq_true, decide_eq_true_eq] at first second
            exact .cons (by omega) (.cons (by omega) .nil)
  rw [Utf16.quote, List.cons_append]
  exact .cons (by decide) ((inside _ (Utf16.tokens_valid text)).append (.cons (by decide) .nil))

theorem printed_joinComma {texts : List Utf16} (each : ∀ text ∈ texts, Printed text) :
    Printed (joinComma texts) := by
  cases texts with
  | nil => exact .nil
  | cons text rest =>
      rw [joinComma_cons]
      obtain ⟨own, later⟩ := List.forall_mem_cons.mp each
      refine own.append fun unit member => ?_
      obtain ⟨other, listed, inside⟩ := List.mem_flatMap.mp member
      rcases List.mem_cons.mp inside with rfl | inside
      · decide
      · exact later other listed unit inside

theorem stringifyItems_eq (items : List Json) : stringifyItems items = items.map stringify := by
  induction items with
  | nil => rfl
  | cons item rest ih => rw [stringifyItems, ih, List.map_cons]

theorem stringifyEntries_eq (entries : List (Utf16 × Json)) :
    stringifyEntries entries = entries.map fun entry => entryText (entry.1, stringify entry.2) := by
  induction entries with
  | nil => rfl
  | cons entry rest ih =>
      obtain ⟨key, value⟩ := entry
      rw [stringifyEntries, ih, List.map_cons]

theorem printed_stringify (value : Json) : Printed (stringify value) := by
  induction value using Json.induction with
  | null => exact printed_iff_all.mpr (by decide)
  | bool value => cases value <;> exact printed_iff_all.mpr (by decide)
  | number value =>
      intro unit member
      have numeric := value.numeric unit member
      simp only [isNumeric, Bool.or_eq_true, Bool.and_eq_true, decide_eq_true_eq] at numeric
      rcases numeric with (((⟨low, -⟩ | rfl) | rfl) | rfl) | rfl
      all_goals first
        | omega
        | decide
  | string value => exact printed_quote value
  | array items ih =>
      rw [stringify, stringifyItems_eq, List.cons_append]
      refine .cons (by decide) (.append (printed_joinComma fun text member => ?_) (.cons (by decide) .nil))
      obtain ⟨item, listed, rfl⟩ := List.mem_map.mp member
      exact ih item listed
  | object entries ih =>
      rw [stringify, stringifyEntries_eq, List.cons_append]
      refine .cons (by decide) (.append (printed_joinComma fun text member => ?_) (.cons (by decide) .nil))
      obtain ⟨entry, listed, rfl⟩ := List.mem_map.mp member
      exact (printed_quote entry.1).append (.cons (by decide) (ih entry listed))

/-- What JSON writes has no half of a pair. -/
theorem clean_stringify (value : Json) : Utf16.Clean (stringify value) := by
  induction value using Json.induction with
  | null => exact .of_all (by decide)
  | bool value => cases value <;> exact .of_all (by decide)
  | number value => exact .of_plain fun unit member => numeric_plain (value.numeric unit member)
  | string value => exact Utf16.clean_quote value
  | array items ih =>
      rw [stringify, stringifyItems_eq, List.cons_append]
      exact .cons (by decide) (by decide) ((clean_joinComma (List.forall_mem_map.mpr ih)).append (.of_all (by decide)))
  | object entries ih =>
      rw [stringify, stringifyEntries_eq, List.cons_append]
      refine .cons (by decide) (by decide) ((clean_joinComma ?_).append (.of_all (by decide)))
      refine List.forall_mem_map.mpr fun entry listed => ?_
      exact (Utf16.clean_quote entry.1).append (.cons (by decide) (by decide) (ih entry listed))

section RoundTrip

variable {number : Utf16 → JsonNumber}

/-- A written value begins with a unit that is neither white nor a bracket that closes. -/
theorem stringify_head (value : Json) :
    ∃ first tail, stringify value = first :: tail ∧ isWhite first = false ∧ first ≠ 93 := by
  cases value with
  | null => exact ⟨110, _, rfl, by decide, by decide⟩
  | bool value => cases value <;> exact ⟨_, _, rfl, by decide, by decide⟩
  | number value =>
      obtain ⟨first, tail, shape⟩ := List.exists_cons_of_ne_nil value.some
      have numeric := value.numeric first (shape ▸ List.mem_cons_self)
      have apart : ∀ unit : UInt16, isNumeric unit = true → isWhite unit = false ∧ unit ≠ 93 := by
        intro unit numeric
        constructor
        · rw [Bool.eq_false_iff]
          intro white
          simp only [isWhite, Bool.or_eq_true, decide_eq_true_eq] at white
          rcases white with ((rfl | rfl) | rfl) | rfl
          all_goals exact absurd numeric (by decide)
        · rintro rfl
          exact absurd numeric (by decide)
      exact ⟨first, tail, shape, apart first numeric⟩
  | string value => exact ⟨34, _, rfl, by decide, by decide⟩
  | array items => exact ⟨91, _, rfl, by decide, by decide⟩
  | object entries => exact ⟨123, _, rfl, by decide, by decide⟩

variable {first : UInt16} {rest : Utf16} {value : Json} {items : List Json} {entries : List (Utf16 × Json)}

theorem skipWhite_of_head (printed : isWhite first = false) :
    skipWhite (first :: rest) = first :: rest := by
  rw [skipWhite, List.dropWhile_cons_of_neg (by rw [printed]; exact Bool.false_ne_true)]

theorem expect_head (printed : isWhite first = false) (unit : UInt16) :
    expect unit (first :: rest) = if first = unit then some rest else none := by
  rw [expect, skipWhite_of_head printed]

/-- The value is read from its text, whatever follows that ends it. -/
def ReadsBack (number : Utf16 → JsonNumber) (value : Json) : Prop :=
  ∀ fuel after, 2 * (stringify value).length ≤ fuel → StopsNumber after →
    readValue number fuel (stringify value ++ after) = some (value, after)

theorem stopsNumber_cons {unit : UInt16} {after : Utf16} (stops : isNumberUnit unit = false) :
    StopsNumber (unit :: after) := fun _ first => Option.some.inj first ▸ stops

theorem takeWhile_number {value : JsonNumber} {after : Utf16} (stops : StopsNumber after) :
    (value.text ++ after).takeWhile isNumberUnit = value.text ∧
      (value.text ++ after).dropWhile isNumberUnit = after := by
  have units : ∀ unit ∈ value.text, isNumberUnit unit = true := by
    intro unit member
    rw [isNumberUnit, value.numeric unit member]
    rfl
  rw [List.takeWhile_append_of_pos units, List.dropWhile_append_of_pos units]
  cases after with
  | nil => simp
  | cons first rest =>
      have stop : isNumberUnit first = false := stops first rfl
      simp [stop]

theorem readsBack_number {value : JsonNumber} (grammar : isNumberText value.text = true)
    (same : number value.text = value) : ReadsBack number (.number value) := by
  intro fuel after enough stops
  obtain ⟨first, tail, shape⟩ := List.exists_cons_of_ne_nil value.some
  have numeric := value.numeric first (shape ▸ List.mem_cons_self)
  have positive := List.length_pos_iff.mpr value.some
  obtain ⟨fuel, rfl⟩ : ∃ less, fuel = less + 1 := ⟨fuel - 1, by rw [stringify] at enough; omega⟩
  have apart : ∀ unit : UInt16, isNumeric unit = false → first ≠ unit := by
    rintro unit other rfl
    rw [numeric] at other
    exact nomatch other
  obtain ⟨token, rest⟩ := @takeWhile_number value after stops
  have read : readNumber number (first :: (tail ++ after)) = some (.number value, after) := by
    rw [← List.cons_append, ← shape, readNumber, token, rest, if_pos grammar, same]
  have white : isWhite first = false := by
    obtain ⟨first', tail', shape', printed, -⟩ := stringify_head (.number value)
    rw [stringify, shape] at shape'
    rwa [(List.cons_eq_cons.mp shape').1]
  rw [stringify, shape, List.cons_append, readValue, skipWhite_of_head white]
  dsimp only
  rw [if_neg (apart 123 (by decide)), if_neg (apart 91 (by decide)), if_neg (apart 34 (by decide)),
    if_neg (apart 110 (by decide)), if_neg (apart 116 (by decide)), if_neg (apart 102 (by decide)), read]

theorem readsBack_word {word : Utf16} (text : stringify value = word)
    (read : ∀ fuel after, readValue number (fuel + 1) (word ++ after) = some (value, after)) (filled : word ≠ []) :
    ReadsBack number value := by
  intro fuel after enough _
  have positive := List.length_pos_iff.mpr filled
  rw [text] at enough ⊢
  obtain ⟨fuel, rfl⟩ : ∃ less, fuel = less + 1 := ⟨fuel - 1, by omega⟩
  exact read fuel after

theorem readsBack_string (value : Utf16) : ReadsBack number (.string value) := by
  refine readsBack_word rfl (fun fuel after => ?_) (List.cons_ne_nil _ _)
  have text : Utf16.quote value ++ after =
      34 :: ((Utf16.tokens value).flatMap Utf16.Token.text ++ 34 :: after) := by
    simp [Utf16.quote]
  change readValue number (fuel + 1) (Utf16.quote value ++ after) = _
  rw [text, readValue, skipWhite_of_head (by decide)]
  simp [readString_quote]

/-- The items are read up to the bracket. -/
theorem readItems_joinComma (filled : items ≠ []) (each : ∀ item ∈ items, ReadsBack number item) :
    ∀ fuel after, 2 * (joinComma (items.map stringify)).length + 1 ≤ fuel →
      readItems number fuel (joinComma (items.map stringify) ++ 93 :: after) = some (items, after) := by
  induction items with
  | nil => exact absurd rfl filled
  | cons item rest ih =>
      intro fuel after enough
      obtain ⟨own, later⟩ := List.forall_mem_cons.mp each
      obtain ⟨fuel, rfl⟩ : ∃ less, fuel = less + 1 := ⟨fuel - 1, by omega⟩
      cases rest with
      | nil =>
          change 2 * (stringify item).length + 1 ≤ fuel + 1 at enough
          change readItems number (fuel + 1) (stringify item ++ 93 :: after) = _
          rw [readItems, own fuel _ (by omega) (stopsNumber_cons (by decide)), Option.bind_some]
          dsimp only
          rw [expect_head (by decide), if_pos rfl]
      | cons next rest =>
          have text : joinComma ((item :: next :: rest).map stringify) ++ 93 :: after =
              stringify item ++ 44 :: (joinComma ((next :: rest).map stringify) ++ 93 :: after) := by
            simp [joinComma]
          have length : (joinComma ((item :: next :: rest).map stringify)).length =
              (stringify item).length + (joinComma ((next :: rest).map stringify)).length + 1 := by
            simp [joinComma]
            omega
          rw [text, readItems, own fuel _ (by omega) (stopsNumber_cons (by decide)), Option.bind_some]
          dsimp only
          rw [expect_head (by decide), if_neg (by decide), expect_head (by decide), if_pos rfl, Option.bind_some,
            ih (List.cons_ne_nil _ _) later fuel after (by omega), Option.map_some]

/-- The entries are read up to the brace. -/
theorem readEntries_joinComma (filled : entries ≠ []) (each : ∀ entry ∈ entries, ReadsBack number entry.2) :
    ∀ fuel after, 2 * (joinComma (stringifyEntries entries)).length + 1 ≤ fuel →
      readEntries number fuel (joinComma (stringifyEntries entries) ++ 125 :: after) = some (entries, after) := by
  induction entries with
  | nil => exact absurd rfl filled
  | cons entry rest ih =>
      intro fuel after enough
      obtain ⟨key, value⟩ := entry
      obtain ⟨own, later⟩ : ReadsBack number value ∧ ∀ entry ∈ rest, ReadsBack number entry.2 :=
        List.forall_mem_cons.mp each
      obtain ⟨fuel, rfl⟩ : ∃ less, fuel = less + 1 := ⟨fuel - 1, by omega⟩
      have opened : ∀ behind, entryText (key, stringify value) ++ behind =
          34 :: ((Utf16.tokens key).flatMap Utf16.Token.text ++ 34 :: 58 :: (stringify value ++ behind)) := by
        intro behind
        simp [entryText, Utf16.quote]
      have shorter : (stringify value).length ≤ (entryText (key, stringify value)).length := by
        simp [entryText]
        omega
      cases rest with
      | nil =>
          change 2 * (entryText (key, stringify value)).length + 1 ≤ fuel + 1 at enough
          change readEntries number (fuel + 1) (entryText (key, stringify value) ++ 125 :: after) = _
          rw [opened, readEntries, expect_head (by decide), if_pos rfl, Option.bind_some, readString_quote,
            Option.bind_some]
          dsimp only
          rw [expect_head (by decide), if_pos rfl, Option.bind_some,
            own fuel _ (by omega) (stopsNumber_cons (by decide)), Option.bind_some]
          dsimp only
          rw [expect_head (by decide), if_pos rfl]
      | cons next rest =>
          have text : joinComma (stringifyEntries ((key, value) :: next :: rest)) ++ 125 :: after =
              entryText (key, stringify value) ++
                44 :: (joinComma (stringifyEntries (next :: rest)) ++ 125 :: after) := by
            simp [joinComma, stringifyEntries]
          have length : (joinComma (stringifyEntries ((key, value) :: next :: rest))).length =
              (entryText (key, stringify value)).length + (joinComma (stringifyEntries (next :: rest))).length + 1 := by
            simp [joinComma, stringifyEntries]
            omega
          rw [text, opened, readEntries, expect_head (by decide), if_pos rfl, Option.bind_some, readString_quote,
            Option.bind_some]
          dsimp only
          rw [expect_head (by decide), if_pos rfl, Option.bind_some,
            own fuel _ (by omega) (stopsNumber_cons (by decide)), Option.bind_some]
          dsimp only
          rw [expect_head (by decide), if_neg (by decide), expect_head (by decide), if_pos rfl, Option.bind_some,
            ih (List.cons_ne_nil _ _) later fuel after (by omega), Option.map_some]

theorem readsBack_array (each : ∀ item ∈ items, ReadsBack number item) :
    ReadsBack number (.array items) := by
  intro fuel after enough _
  have text : stringify (.array items) ++ after = 91 :: (joinComma (items.map stringify) ++ 93 :: after) := by
    simp [stringify, stringifyItems_eq]
  have length : (stringify (.array items)).length = (joinComma (items.map stringify)).length + 2 := by
    simp [stringify, stringifyItems_eq]
  obtain ⟨fuel, rfl⟩ : ∃ less, fuel = less + 1 := ⟨fuel - 1, by omega⟩
  rw [text, readValue, skipWhite_of_head (by decide)]
  dsimp only
  rw [if_neg (by decide), if_pos rfl]
  cases items with
  | nil =>
      have closed : expect 93 (joinComma (List.map stringify []) ++ 93 :: after) = some after := by
        rw [List.map_nil, joinComma, List.nil_append, expect_head (by decide), if_pos rfl]
      rw [closed]
  | cons item rest =>
      obtain ⟨first, tail, shape, white, other⟩ := stringify_head item
      have opened : expect 93 (joinComma ((item :: rest).map stringify) ++ 93 :: after) = none := by
        rw [List.map_cons, joinComma_cons, shape, List.cons_append, List.cons_append, expect_head white, if_neg other]
      rw [opened]
      dsimp only
      rw [readItems_joinComma (List.cons_ne_nil _ _) each fuel after (by omega), Option.map_some]

theorem readsBack_object (keys : (entries.map Prod.fst).Nodup) (each : ∀ entry ∈ entries, ReadsBack number entry.2) :
    ReadsBack number (.object entries) := by
  intro fuel after enough _
  have text : stringify (.object entries) ++ after = 123 :: (joinComma (stringifyEntries entries) ++ 125 :: after) := by
    simp [stringify]
  have length : (stringify (.object entries)).length = (joinComma (stringifyEntries entries)).length + 2 := by
    simp [stringify]
  obtain ⟨fuel, rfl⟩ : ∃ less, fuel = less + 1 := ⟨fuel - 1, by omega⟩
  rw [text, readValue, skipWhite_of_head (by decide)]
  dsimp only
  rw [if_pos rfl]
  cases entries with
  | nil =>
      have closed : expect 125 (joinComma (stringifyEntries []) ++ 125 :: after) = some after := by
        rw [stringifyEntries, joinComma, List.nil_append, expect_head (by decide), if_pos rfl]
      rw [closed]
  | cons entry rest =>
      obtain ⟨key, value⟩ := entry
      have opened : expect 125 (joinComma (stringifyEntries ((key, value) :: rest)) ++ 125 :: after) = none := by
        rw [stringifyEntries, joinComma_cons, entryText, Utf16.quote, List.cons_append, List.cons_append,
          List.cons_append, List.cons_append, expect_head (by decide), if_neg (by decide)]
      rw [opened]
      dsimp only
      rw [readEntries_joinComma (List.cons_ne_nil _ _) each fuel after (by omega), Option.map_some,
        fieldsOf_entries keys]

/-- Every value of a script is read back from what is written for it. -/
theorem readsBack_of_readable (readable : value.Readable number) : ReadsBack number value := by
  induction readable with
  | null =>
      refine readsBack_word rfl (fun fuel after => ?_) (by decide)
      rw [show stringify Json.null ++ after = 110 :: 117 :: 108 :: 108 :: after from rfl, readValue,
        skipWhite_of_head (by decide)]
      simp [readWord, Utf16.ofString, Utf16.unitsOf]
  | bool value =>
      cases value with
      | true =>
          refine readsBack_word rfl (fun fuel after => ?_) (by decide)
          rw [show stringify (Json.bool true) ++ after = 116 :: 114 :: 117 :: 101 :: after from rfl, readValue,
            skipWhite_of_head (by decide)]
          simp [readWord, Utf16.ofString, Utf16.unitsOf]
      | false =>
          refine readsBack_word rfl (fun fuel after => ?_) (by decide)
          rw [show stringify (Json.bool false) ++ after = 102 :: 97 :: 108 :: 115 :: 101 :: after from rfl, readValue,
            skipWhite_of_head (by decide)]
          simp [readWord, Utf16.ofString, Utf16.unitsOf]
  | number grammar same => exact readsBack_number grammar same
  | string value => exact readsBack_string value
  | array inside ih => exact readsBack_array ih
  | object keys inside ih => exact readsBack_object keys ih

theorem jsonParse_stringify (readable : value.Readable number) :
    jsonParse number (stringify value) = some value := by
  have read := readsBack_of_readable readable (enoughFuel (stringify value)) [] (by rw [enoughFuel]; omega) nofun
  rw [List.append_nil] at read
  exact jsonParse_eq_some_iff.mpr ⟨[], read, rfl⟩

/-- A written object that is cut off is no value, whatever is shown of a character that is cut. -/
theorem jsonParse_torn (readable : (Json.object entries).Readable number) {front cut : Utf16}
    (whole : stringify (.object entries) = front ++ cut) (some : cut ≠ []) :
    jsonParse number front = none := by
  cases found : jsonParse number front with
  | none => rfl
  | some value =>
      have parsed := jsonParse_stringify readable
      rw [whole] at parsed
      have white := (jsonParse_cut parsed found).2
      have last : cut.getLast some = 125 := by
        have ends : (front ++ cut).getLast (by simp [some]) = 125 := by
          simp only [← whole]
          simp [stringify]
        rwa [List.getLast_append_of_ne_nil _ some] at ends
      have blank := List.all_eq_true.mp white _ (List.getLast_mem some)
      rw [last] at blank
      exact absurd blank (by decide)

end RoundTrip

end NimbleBrain.Engine

/- A natural number is written in JSON by its digits. -/

namespace NimbleBrain.Engine

open Library

def digit (value : Nat) : UInt16 := UInt16.ofNat (48 + value)

/-- The digits of a number. Only zero begins with a zero. -/
def decimal (value : Nat) : Utf16 :=
  if value < 10 then [digit value] else decimal (value / 10) ++ [digit (value % 10)]

/-- What a row of digits is worth. -/
def digitsValue (text : Utf16) : Nat := text.foldl (fun value unit => 10 * value + (unit.toNat - 48)) 0

variable {value : Nat}

theorem digit_toNat (small : value < 10) : (digit value).toNat = 48 + value :=
  UInt16.toNat_ofNat_of_lt' (by change 48 + value < 65536; omega)

theorem isDigit_digit (small : value < 10) : isDigit (digit value) = true := by
  simp only [isDigit, digit_toNat small, Bool.and_eq_true, decide_eq_true_eq]
  omega

theorem isDigit_decimal (value : Nat) : ∀ unit ∈ decimal value, isDigit unit = true := by
  fun_induction decimal value with
  | case1 value small => exact List.forall_mem_singleton.mpr (isDigit_digit small)
  | case2 value large ih =>
      exact List.forall_mem_append.mpr ⟨ih, List.forall_mem_singleton.mpr (isDigit_digit (by omega))⟩

theorem digitsValue_decimal (value : Nat) : digitsValue (decimal value) = value := by
  fun_induction decimal value with
  | case1 value small =>
      rw [digitsValue, List.foldl_cons, List.foldl_nil, digit_toNat small]
      omega
  | case2 value large ih =>
      rw [digitsValue, List.foldl_append, ← digitsValue, ih, List.foldl_cons, List.foldl_nil,
        digit_toNat (by omega)]
      omega

/-- A number takes as many digits as the power of ten that is beyond it. -/
theorem length_decimal {value digits : Nat} (below : value < 10 ^ (digits + 1)) :
    (decimal value).length ≤ digits + 1 := by
  induction digits generalizing value with
  | zero =>
      rw [decimal, if_pos (by omega)]
      exact le_rfl
  | succ digits ih =>
      rw [decimal]
      split
      · exact Nat.le_add_left 1 _
      · have shorter := @ih (value / 10) (by rw [Nat.div_lt_iff_lt_mul (by decide)]; rwa [← Nat.pow_succ])
        rw [List.length_append, List.length_singleton]
        omega

theorem decimal_head (value : Nat) :
    ∃ first rest, decimal value = first :: rest ∧ (first = 48 → rest = []) := by
  have positive : ∀ value, 0 < value → ∃ first rest, decimal value = first :: rest ∧ first ≠ 48 := by
    intro value
    fun_induction decimal value with
    | case1 value small =>
        intro some
        refine ⟨_, _, rfl, fun zero => ?_⟩
        have same := congrArg UInt16.toNat zero
        rw [digit_toNat small, show (48 : UInt16).toNat = 48 from rfl] at same
        omega
    | case2 value large ih =>
        intro _
        obtain ⟨first, rest, shape, other⟩ := ih (by omega)
        exact ⟨first, rest ++ [_], by rw [shape, List.cons_append], other⟩
  rcases Nat.eq_zero_or_pos value with rfl | some
  · exact ⟨48, [], by decide +kernel, fun _ => rfl⟩
  · obtain ⟨first, rest, shape, other⟩ := positive value some
    exact ⟨first, rest, shape, fun zero => absurd zero other⟩

theorem isNumberText_digits {first : UInt16} {rest : Utf16} (digits : ∀ unit ∈ first :: rest, isDigit unit = true)
    (noZero : first = 48 → rest = []) : isNumberText (first :: rest) = true := by
  have unsigned : first ≠ 45 := by
    rintro rfl
    exact absurd (digits 45 List.mem_cons_self) (by decide)
  have whole : afterWhole (first :: rest) = some [] := by
    rw [afterWhole]
    split
    · next zero => rw [noZero zero]
    · rw [afterDigits, List.takeWhile_eq_self_iff.mpr digits, List.dropWhile_eq_nil_iff.mpr digits]
      rfl
  rw [isNumberText, afterSign, if_neg (by simpa using unsigned), whole]
  rfl

theorem isNumberText_decimal (value : Nat) : isNumberText (decimal value) = true := by
  obtain ⟨first, rest, shape, noZero⟩ := decimal_head value
  rw [shape]
  exact isNumberText_digits (shape ▸ isDigit_decimal value) noZero

/-- A natural number as JSON writes it. -/
def natural (value : Nat) : JsonNumber where
  text := decimal value
  some := by
    obtain ⟨first, rest, shape, -⟩ := decimal_head value
    rw [shape]
    exact List.cons_ne_nil _ _
  numeric := by
    intro unit member
    have listed := isDigit_decimal value unit member
    simp only [isDigit, Bool.and_eq_true, decide_eq_true_eq] at listed
    simp [isNumeric, listed]

theorem natural_inj {other : Nat} (same : natural value = natural other) : value = other := by
  have texts : decimal value = decimal other := congrArg JsonNumber.text same
  rw [← digitsValue_decimal value, texts, digitsValue_decimal]

end NimbleBrain.Engine
