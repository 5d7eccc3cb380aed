import Mathlib.Algebra.Ring.Nat
import Mathlib.Data.List.Basic

/- A text is a list of UTF-16 code units. Quoting writes it as a JSON string that can be read back. -/

namespace NimbleBrain.Library

abbrev Utf16 := List UInt16

instance lawfulBEq_utf16 : LawfulBEq Utf16 := inferInstance

namespace Utf16

/-- A character beyond the basic plane takes two units. -/
def unitsOf (character : Char) : Utf16 :=
  if character.toNat < 65536 then [UInt16.ofNat character.toNat]
  else
    [UInt16.ofNat (55296 + (character.toNat - 65536) / 1024), UInt16.ofNat (56320 + (character.toNat - 65536) % 1024)]

def ofString (text : String) : Utf16 := text.toList.flatMap unitsOf

def isLead (unit : UInt16) : Bool := 55296 ≤ unit.toNat && unit.toNat < 56320

def isTrail (unit : UInt16) : Bool := 56320 ≤ unit.toNat && unit.toNat < 57344

def hexDigit (value : Nat) : UInt16 := UInt16.ofNat (if value < 10 then 48 + value else 87 + value)

/-- A backslash, the letter u and four digits. -/
def unicodeEscape (unit : UInt16) : Utf16 :=
  [92, 117, hexDigit (unit.toNat / 4096), hexDigit (unit.toNat / 256 % 16), hexDigit (unit.toNat / 16 % 16),
    hexDigit (unit.toNat % 16)]

/-- A surrogate that is escaped stands alone. -/
def escapeUnit (unit : UInt16) : Utf16 :=
  if unit = 34 then [92, 34]
  else if unit = 92 then [92, 92]
  else if unit = 8 then [92, 98]
  else if unit = 9 then [92, 116]
  else if unit = 10 then [92, 110]
  else if unit = 12 then [92, 102]
  else if unit = 13 then [92, 114]
  else if unit.toNat < 32 || isLead unit || isTrail unit then unicodeEscape unit
  else [unit]

/-- One or two units that are written together. -/
inductive Token where
  | single (unit : UInt16)
  | pair (lead trail : UInt16)
  deriving DecidableEq

def Token.units : Token → Utf16
  | .single unit => [unit]
  | .pair lead trail => [lead, trail]

def Token.text : Token → Utf16
  | .single unit => escapeUnit unit
  | .pair lead trail => [lead, trail]

def tokens : Utf16 → List Token
  | [] => []
  | [unit] => [.single unit]
  | first :: second :: rest =>
      if isLead first && isTrail second then .pair first second :: tokens rest
      else .single first :: tokens (second :: rest)

/-- The text as a JSON string. -/
def quote (text : Utf16) : Utf16 := 34 :: (tokens text).flatMap Token.text ++ [34]

def hexValue (digit : UInt16) : Nat := if digit.toNat < 58 then digit.toNat - 48 else digit.toNat - 87

def readUnicode (first second third fourth : UInt16) : UInt16 :=
  UInt16.ofNat (4096 * hexValue first + 256 * hexValue second + 16 * hexValue third + hexValue fourth)

/-- The unit that a backslash and another unit stand for. -/
def readEscape (letter : UInt16) : UInt16 :=
  if letter = 98 then 8
  else if letter = 116 then 9
  else if letter = 110 then 10
  else if letter = 102 then 12
  else if letter = 114 then 13
  else letter

def readEscaped : Utf16 → Token
  | 117 :: first :: second :: third :: fourth :: _ => .single (readUnicode first second third fourth)
  | letter :: _ => .single (readEscape letter)
  | [] => .single 0

/-- The token at the front of a quoted text. -/
def readToken : Utf16 → Option Token
  | [] => none
  | first :: rest =>
      some (if first = 92 then readEscaped rest else if isLead first then .pair first (rest.headD 0) else .single first)

theorem hexValue_hexDigit : ∀ value < 16, hexValue (hexDigit value) = value := by decide

theorem readUnicode_escape (unit : UInt16) :
    readUnicode (hexDigit (unit.toNat / 4096)) (hexDigit (unit.toNat / 256 % 16))
      (hexDigit (unit.toNat / 16 % 16)) (hexDigit (unit.toNat % 16)) = unit := by
  have bound : unit.toNat < 65536 := unit.toNat_lt
  rw [readUnicode, hexValue_hexDigit _ (by omega), hexValue_hexDigit _ (by omega), hexValue_hexDigit _ (by omega),
    hexValue_hexDigit _ (by omega)]
  have whole : 4096 * (unit.toNat / 4096) + 256 * (unit.toNat / 256 % 16) + 16 * (unit.toNat / 16 % 16) +
      unit.toNat % 16 = unit.toNat := by omega
  rw [whole, UInt16.ofNat_toNat]

/-- A pair is a lead and a trail surrogate. -/
def Token.Valid : Token → Prop
  | .single _ => True
  | .pair lead trail => isLead lead = true ∧ isTrail trail = true

theorem readToken_single (unit : UInt16) (after : Utf16) :
    readToken (escapeUnit unit ++ after) = some (.single unit) := by
  by_cases quote : unit = 34
  · rw [quote]; rfl
  by_cases backslash : unit = 92
  · rw [backslash]; rfl
  by_cases backspace : unit = 8
  · rw [backspace]; rfl
  by_cases tab : unit = 9
  · rw [tab]; rfl
  by_cases newline : unit = 10
  · rw [newline]; rfl
  by_cases feed : unit = 12
  · rw [feed]; rfl
  by_cases return' : unit = 13
  · rw [return']; rfl
  rw [escapeUnit, if_neg quote, if_neg backslash, if_neg backspace, if_neg tab, if_neg newline, if_neg feed,
    if_neg return']
  split
  · exact congrArg (fun read => some (Token.single read)) (readUnicode_escape unit)
  · next plain =>
      have noLead : isLead unit = false := by
        simp only [Bool.or_eq_true, not_or, Bool.not_eq_true] at plain
        exact plain.1.2
      rw [List.singleton_append, readToken, if_neg backslash, noLead]
      rfl

variable {token : Token} {after other first second : Utf16} {unit : UInt16}

theorem readToken_text (valid : token.Valid) (after : Utf16) :
    readToken (token.text ++ after) = some token := by
  cases token with
  | single unit => exact readToken_single unit after
  | pair lead trail =>
      have other : lead ≠ 92 := by
        rintro rfl
        exact absurd valid.1 (by decide)
      rw [Token.text, List.cons_append, readToken, if_neg other, if_pos valid.1]
      rfl

theorem tokens_valid (text : Utf16) : ∀ token ∈ tokens text, token.Valid := by
  fun_induction tokens text with
  | case1 => exact nofun
  | case2 unit => exact fun token member => List.mem_singleton.mp member ▸ trivial
  | case3 first second rest paired ih =>
      exact List.forall_mem_cons.mpr ⟨Bool.and_eq_true_iff.mp paired, ih⟩
  | case4 first second rest alone ih => exact List.forall_mem_cons.mpr ⟨trivial, ih⟩

/-- The tokens are the whole text. -/
theorem units_tokens (text : Utf16) : (tokens text).flatMap Token.units = text := by
  fun_induction tokens text with
  | case1 => rfl
  | case2 unit => rfl
  | case3 first second rest paired ih => rw [List.flatMap_cons, ih]; rfl
  | case4 first second rest alone ih => rw [List.flatMap_cons, ih]; rfl

/-- No token is written as a quotation mark. -/
theorem text_head (valid : token.Valid) : ∃ first rest, token.text = first :: rest ∧ first ≠ 34 := by
  cases token with
  | single unit =>
      by_cases mark : unit = 34
      · exact ⟨92, [34], by rw [mark]; rfl, by decide⟩
      · rw [show Token.text (.single unit) = escapeUnit unit from rfl, escapeUnit, if_neg mark]
        split_ifs
        all_goals first
          | exact ⟨92, _, rfl, by decide⟩
          | exact ⟨unit, [], rfl, mark⟩
  | pair lead trail =>
      refine ⟨lead, [trail], rfl, ?_⟩
      rintro rfl
      exact absurd valid.1 (by decide)

/-- Quoted tokens up to the closing mark are read in one way. -/
theorem flatMap_text_inj {first second : List Token} (valid : ∀ token ∈ first, token.Valid)
    (valid' : ∀ token ∈ second, token.Valid)
    (same : first.flatMap Token.text ++ 34 :: after = second.flatMap Token.text ++ 34 :: other) :
    first = second ∧ after = other := by
  induction first generalizing second with
  | nil =>
      cases second with
      | nil => exact ⟨rfl, (List.cons_eq_cons.mp same).2⟩
      | cons token rest =>
          obtain ⟨head, tail, text, differs⟩ := text_head (valid' token List.mem_cons_self)
          rw [List.flatMap_nil, List.flatMap_cons, text] at same
          exact absurd (List.cons_eq_cons.mp same).1.symm differs
  | cons token rest ih =>
      have own := valid token List.mem_cons_self
      cases second with
      | nil =>
          obtain ⟨head, tail, text, differs⟩ := text_head own
          rw [List.flatMap_nil, List.flatMap_cons, text] at same
          exact absurd (List.cons_eq_cons.mp same).1 differs
      | cons token' rest' =>
          rw [List.flatMap_cons, List.flatMap_cons, List.append_assoc, List.append_assoc] at same
          have read := congrArg readToken same
          rw [readToken_text own, readToken_text (valid' token' List.mem_cons_self)] at read
          obtain rfl := Option.some.inj read
          obtain ⟨rfl, rfl⟩ := ih (fun token member => valid token (List.mem_cons_of_mem _ member))
            (fun token member => valid' token (List.mem_cons_of_mem _ member)) (List.append_cancel_left same)
          exact ⟨rfl, rfl⟩

/-- A quoted text at the front of a text is read in one way. -/
theorem quote_inj (same : quote first ++ after = quote second ++ other) :
    first = second ∧ after = other := by
  simp only [quote, List.cons_append, List.append_assoc, List.cons.injEq, true_and, List.nil_append] at same
  obtain ⟨tokens, rest⟩ := flatMap_text_inj (tokens_valid first) (tokens_valid second) same
  refine ⟨?_, rest⟩
  rw [← units_tokens first, tokens, units_tokens]

/-- A half of a pair that stands alone is read as the replacement character. -/
def Token.scalar : Token → Token
  | .single unit => if isLead unit || isTrail unit then .single 65533 else .single unit
  | .pair lead trail => .pair lead trail

/-- The characters that an encoder writes. -/
def scalars (text : Utf16) : List Token := (tokens text).map Token.scalar

def isPlain (unit : UInt16) : Bool := !isLead unit && !isTrail unit

theorem tokens_append_plain (plain : isPlain unit = true) (text rest : Utf16) :
    tokens (text ++ unit :: rest) = tokens text ++ .single unit :: tokens rest := by
  have lead : isLead unit = false := by simpa [isPlain] using (Bool.and_eq_true_iff.mp plain).1
  have trail : isTrail unit = false := by simpa [isPlain] using (Bool.and_eq_true_iff.mp plain).2
  fun_induction tokens text with
  | case1 =>
      cases rest with
      | nil => rfl
      | cons next rest => simp [tokens, lead]
  | case2 first =>
      cases rest with
      | nil => simp [tokens, trail]
      | cons next rest => simp [tokens, lead, trail]
  | case3 first second rest' paired ih => simp [tokens, paired, ih]
  | case4 first second rest' alone ih =>
      rw [List.cons_append, List.cons_append, tokens, if_neg alone, ← List.cons_append, ih, List.cons_append]

/-- A unit that is no surrogate stands between two texts. -/
theorem scalars_append_plain (plain : isPlain unit = true) (text rest : Utf16) :
    scalars (text ++ unit :: rest) = scalars text ++ .single unit :: scalars rest := by
  have own : Token.scalar (.single unit) = .single unit := by
    simp only [isPlain, Bool.and_eq_true, Bool.not_eq_true'] at plain
    simp [Token.scalar, plain.1, plain.2]
  rw [scalars, tokens_append_plain plain, List.map_append, List.map_cons, own]
  rfl

/-- A character other than the null character. -/
def Token.Clean : Token → Prop
  | .single unit => unit ≠ 0 ∧ isPlain unit = true
  | .pair lead trail => isLead lead = true ∧ isTrail trail = true

/-- A text of whole characters without the null character. -/
def Clean (text : Utf16) : Prop := ∃ characters : List Token, (∀ token ∈ characters, token.Clean) ∧
  characters.flatMap Token.units = text

theorem tokens_flatMap_units {characters : List Token} (clean : ∀ token ∈ characters, token.Clean) :
    tokens (characters.flatMap Token.units) = characters := by
  induction characters with
  | nil => rfl
  | cons token rest ih =>
      have own := clean token List.mem_cons_self
      have later := ih fun token member => clean token (List.mem_cons_of_mem _ member)
      cases token with
      | single unit => exact (tokens_append_plain own.2 [] _).trans (congrArg (Token.single unit :: ·) later)
      | pair lead trail =>
          rw [List.flatMap_cons, Token.units, List.cons_append, List.singleton_append, tokens, if_pos, later]
          exact Bool.and_eq_true_iff.mpr own

theorem scalar_of_clean (clean : token.Clean) : token.scalar = token := by
  cases token with
  | single unit =>
      have plain := clean.2
      simp only [isPlain, Bool.and_eq_true, Bool.not_eq_true'] at plain
      simp [Token.scalar, plain.1, plain.2]
  | pair lead trail => rfl

/-- An encoder writes a clean text as it is. -/
theorem Clean.units_scalars {text : Utf16} (clean : Clean text) : (scalars text).flatMap Token.units = text := by
  obtain ⟨characters, each, rfl⟩ := clean
  rw [scalars, tokens_flatMap_units each, List.map_congr_left fun token member => scalar_of_clean (each token member),
    List.map_id']

theorem Clean.null_not_mem {text : Utf16} (clean : Clean text) : Token.single 0 ∉ scalars text := by
  obtain ⟨characters, each, rfl⟩ := clean
  rw [scalars, tokens_flatMap_units each, List.map_congr_left fun token member => scalar_of_clean (each token member),
    List.map_id']
  exact fun member => (each _ member).1 rfl

theorem Clean.nil : Clean [] := ⟨[], nofun, rfl⟩

theorem Clean.append (clean : Clean first) (clean' : Clean second) :
    Clean (first ++ second) := by
  obtain ⟨characters, each, rfl⟩ := clean
  obtain ⟨characters', each', rfl⟩ := clean'
  refine ⟨characters ++ characters', ?_, List.flatMap_append⟩
  exact List.forall_mem_append.mpr ⟨each, each'⟩

theorem Clean.cons {text : Utf16} (some : unit ≠ 0) (plain : isPlain unit = true) (clean : Clean text) :
    Clean (unit :: text) := by
  obtain ⟨characters, each, rfl⟩ := clean
  exact ⟨.single unit :: characters, List.forall_mem_cons.mpr ⟨⟨some, plain⟩, each⟩, rfl⟩

theorem Clean.of_plain {text : Utf16} (plain : ∀ unit ∈ text, unit ≠ 0 ∧ isPlain unit = true) : Clean text := by
  induction text with
  | nil => exact .nil
  | cons unit rest ih =>
      obtain ⟨own, later⟩ := List.forall_mem_cons.mp plain
      exact .cons own.1 own.2 (ih later)

/-- A short text is checked unit by unit. -/
theorem Clean.of_all {text : Utf16} (plain : (text.all fun unit => decide (unit ≠ 0) && isPlain unit) = true) :
    Clean text := by
  apply Clean.of_plain
  intro unit member
  simpa using List.all_eq_true.mp plain unit member

theorem hexDigit_plain : ∀ value < 16, hexDigit value ≠ 0 ∧ isPlain (hexDigit value) = true := by decide

theorem clean_escapeUnit (unit : UInt16) : Clean (escapeUnit unit) := by
  have bound : unit.toNat < 65536 := unit.toNat_lt
  rw [escapeUnit]
  split_ifs with quote backslash backspace tab newline feed return' special
  all_goals first
    | exact .of_all (by decide)
    | skip
  · refine .of_plain ?_
    simp only [unicodeEscape, List.forall_mem_cons, List.not_mem_nil, false_implies, implies_true, and_true]
    exact ⟨by decide, by decide, hexDigit_plain _ (by omega), hexDigit_plain _ (by omega),
      hexDigit_plain _ (by omega), hexDigit_plain _ (by omega)⟩
  · simp only [Bool.or_eq_true, decide_eq_true_eq, not_or, Bool.not_eq_true] at special
    refine .cons ?_ (by simp [isPlain, special.1.2, special.2]) .nil
    rintro rfl
    exact special.1.1 (by decide)

/-- A text in quotes has no half of a pair and no null character. -/
theorem clean_quote (text : Utf16) : Clean (quote text) := by
  have inside : ∀ tokens : List Token, (∀ token ∈ tokens, token.Valid) → Clean (tokens.flatMap Token.text) := by
    intro tokens valid
    induction tokens with
    | nil => exact .nil
    | cons token rest ih =>
        obtain ⟨own, later⟩ := List.forall_mem_cons.mp valid
        refine .append ?_ (ih later)
        cases token with
        | single unit => exact clean_escapeUnit unit
        | pair lead trail => exact ⟨[.pair lead trail], List.forall_mem_singleton.mpr own, rfl⟩
  rw [quote, List.cons_append]
  exact .cons (by decide) (by decide) ((inside _ (tokens_valid text)).append (.of_all (by decide)))

end Utf16

end NimbleBrain.Library
