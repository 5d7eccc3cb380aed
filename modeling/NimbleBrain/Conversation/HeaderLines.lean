import NimbleBrain.Conversation.HeaderFile

/- A conversation file in the middle of an append is a front of the file. Its lines are those of the whole file, save
for the last one. -/

namespace NimbleBrain.Conversation.HeaderFile

open Engine Library

theorem unitsOf_cons (character : Char) (rest : List Char) :
    Utf8.unitsOf (character :: rest) = Utf16.unitsOf character ++ Utf8.unitsOf rest := rfl

variable {character : Char} {content front : List Char} {count : Nat} {torn : List UInt8}

theorem newline_not_mem (other : character ≠ '\n') : newline ∉ Utf16.unitsOf character := by
  have scalar := Utf8.scalar_of_char character
  intro member
  rw [Utf16.unitsOf] at member
  split at member
  · next small =>
      have same := congrArg UInt16.toNat (List.mem_singleton.mp member)
      rw [UInt16.toNat_ofNat_of_lt' small] at same
      exact other (Char.toNat_inj.mp same.symm)
  · simp only [List.mem_cons, List.not_mem_nil, or_false] at member
    rcases member with same | same
    all_goals
      have same := congrArg UInt16.toNat same
      simp only [newline, UInt16.toNat_ofNat', UInt16.reduceToNat] at same
      omega

/-- The lines of the text are those of its characters. -/
theorem splitOn_unitsOf (characters : List Char) :
    (Utf8.unitsOf characters).splitOn newline = (characters.splitOn '\n').map Utf8.unitsOf := by
  induction characters with
  | nil => rfl
  | cons character rest ih =>
      obtain ⟨next, others, split⟩ := exists_splitOn_cons '\n' rest
      rw [split, List.map_cons] at ih
      by_cases line : character = '\n'
      · subst line
        rw [show Utf8.unitsOf ('\n' :: rest) = [] ++ newline :: Utf8.unitsOf rest from rfl,
          List.splitOn_append_cons_self, show '\n' :: rest = [] ++ '\n' :: rest from rfl,
          List.splitOn_append_cons_self, ih, split]
        rfl
      · have alone : '\n' ∉ [character] := fun member => line (List.mem_singleton.mp member).symm
        have whole : (character :: rest).splitOn '\n' = ([character] ++ next) :: others :=
          splitOn_append_of_not_mem alone split
        rw [unitsOf_cons, splitOn_append_of_not_mem (newline_not_mem line) ih, whole]
        rfl

theorem unitsOf_eq_nil_iff {characters : List Char} : Utf8.unitsOf characters = [] ↔ characters = [] := by
  cases characters with
  | nil => simp [Utf8.unitsOf]
  | cons character rest =>
      rw [unitsOf_cons, Utf16.unitsOf]
      split <;> simp

/-- A character of several bytes is beyond the basic ones. -/
theorem foreign_of_cut {begun cut : List UInt8} (bytes : String.utf8EncodeChar character = begun ++ cut)
    (some : begun ≠ []) (some' : cut ≠ []) :
    128 ≤ character.toNat := by
  by_contra small
  have length := congrArg List.length bytes
  have one : String.utf8EncodeChar character = [UInt8.ofNat character.toNat] := by
    rw [String.utf8EncodeChar]
    exact if_pos (show character.toNat ≤ 127 by omega)
  rw [one, List.length_singleton, List.length_append] at length
  have first := List.length_pos_iff.mpr some
  have second := List.length_pos_iff.mpr some'
  omega

theorem foreign_unit (foreign : 128 ≤ character.toNat) :
    ∃ unit more, Utf16.unitsOf character = unit :: more ∧ 128 ≤ unit.toNat := by
  rw [Utf16.unitsOf]
  split
  · next small => exact ⟨_, _, rfl, by rwa [UInt16.toNat_ofNat_of_lt' small]⟩
  · refine ⟨_, _, rfl, ?_⟩
    have scalar := Utf8.scalar_of_char character
    rw [UInt16.toNat_ofNat']
    omega

theorem not_white_of_foreign {unit : UInt16} (foreign : 128 ≤ unit.toNat) : isWhite unit = false := by
  rw [Bool.eq_false_iff]
  intro white
  simp only [isWhite, Bool.or_eq_true, decide_eq_true_eq] at white
  rcases white with ((rfl | rfl) | rfl) | rfl
  all_goals exact absurd foreign (by decide)

/-- The bytes of a front of the file are a front of its characters and a character that is cut off. -/
structure Front (content front : List Char) (torn : List UInt8) : Prop where
  begins : front <+: content
  cut : torn = [] ∨ Utf8.decode torn = [Utf8.replacement] ∧
    ∃ character, front ++ [character] <+: content ∧ 128 ≤ character.toNat

/-- So many bytes of the file show this front of it. -/
structure Shows (content : List Char) (count : Nat) (front : List Char) (torn : List UInt8) : Prop where
  bytes : (Utf8.encode content).take count = Utf8.encode front ++ torn
  seen : Front content front torn
  most : ∀ other, other <+: content → (Utf8.encode other).length ≤ count → other <+: front

theorem prefix_of_fits {other : List Char}
    (bytes : (Utf8.encode content).take count = Utf8.encode front ++ torn) (begins : front <+: content)
    (next : torn = [] ∨ ∃ character later, front ++ character :: later = content ∧
      torn.length < (String.utf8EncodeChar character).length)
    (inside : other <+: content) (fits : (Utf8.encode other).length ≤ count) : other <+: front := by
  rcases List.prefix_or_prefix_of_prefix inside begins with shorter | ⟨extra, rfl⟩
  · exact shorter
  cases extra with
  | nil => simp
  | cons character' extra =>
      obtain ⟨rest, same⟩ := inside
      have whole : (Utf8.encode (front ++ character' :: extra)).length ≤ (Utf8.encode content).length := by
        rw [← same, Utf8.encode_append _ rest, List.length_append]
        omega
      have length := congrArg List.length bytes
      rw [List.length_take, List.length_append] at length
      rw [Utf8.encode_append, List.length_append, show Utf8.encode (character' :: extra) =
        String.utf8EncodeChar character' ++ Utf8.encode extra from rfl, List.length_append] at whole fits
      have some : 0 < (String.utf8EncodeChar character').length := by
        rw [String.length_utf8EncodeChar]
        exact Char.utf8Size_pos character'
      rcases next with rfl | ⟨character, later, shape, short⟩
      · rw [List.length_nil] at length
        omega
      · rw [← shape, List.append_assoc, List.cons_append] at same
        obtain ⟨rfl, -⟩ := List.cons_eq_cons.mp (List.append_cancel_left same)
        omega

/-- Any number of bytes shows a front. -/
theorem exists_shows (content : List Char) (count : Nat) : ∃ front torn, Shows content count front torn := by
  obtain ⟨front, behind, rfl, same | ⟨character, later, begun, cut, rfl, bytes, some, some', same⟩⟩ :=
    Utf8.encode_take content count
  · have bytes : (Utf8.encode (front ++ behind)).take count = Utf8.encode front ++ [] := by rw [same, List.append_nil]
    refine ⟨front, [], bytes, ⟨List.prefix_append _ _, .inl rfl⟩, fun other inside fits => ?_⟩
    exact prefix_of_fits bytes (List.prefix_append _ _) (.inl rfl) inside fits
  · refine ⟨front, begun, same, ⟨List.prefix_append _ _, .inr ⟨?_, character, ⟨later, ?_⟩, ?_⟩⟩, ?_⟩
    · exact (Utf8.leads_character character).decodeFrom_cut bytes some some'
    · rw [List.append_assoc, List.singleton_append]
    · exact foreign_of_cut bytes some some'
    · intro other inside fits
      refine prefix_of_fits same (List.prefix_append _ _) (.inr ⟨character, later, rfl, ?_⟩) inside fits
      have positive := List.length_pos_iff.mpr some'
      rw [bytes, List.length_append]
      omega

/-- More bytes show more. -/
theorem Shows.mono {later : List Char} {torn' : List UInt8} {count' : Nat} (first : Shows content count front torn)
    (second : Shows content count' later torn') (grows : count ≤ count') :
    front <+: later := by
  apply second.most front first.seen.begins
  have length := congrArg List.length first.bytes
  rw [List.length_take, List.length_append] at length
  omega

theorem decode_front (front : List Char) (torn : List UInt8) :
    Utf8.decode (Utf8.encode front ++ torn) = Utf8.unitsOf front ++ Utf8.decode torn :=
  Utf8.decode_encode_append front torn

/-- What is shown of a character that is cut off holds no newline. -/
theorem Front.newline_not_mem (seen : Front content front torn) :
    newline ∉ Utf8.decode torn := by
  rcases seen.cut with rfl | ⟨shown, -⟩
  · exact List.not_mem_nil
  · rw [shown]
    decide

section Lines

variable {Amount : Type} (host : Host Amount)

def parseLine (line : List Char) : Option Json := jsonParse host.number (Utf8.unitsOf line)

def isObject : Option Json → Bool
  | some (.object _) => true
  | _ => false

/-- Every line is blank or an object. -/
def WellFormed (content : List Char) : Prop :=
  ∀ line ∈ content.splitOn '\n', (Utf8.unitsOf line).all isWhite = true ∨ isObject (parseLine host line) = true

instance (content : List Char) : Decidable (WellFormed host content) :=
  inferInstanceAs (Decidable (∀ line ∈ content.splitOn '\n', _))

/-- The header and what comes after it. Empty lines before it are skipped. -/
def headerLines (front : List Char) : List (List Char) := (front.splitOn '\n').dropWhile List.isEmpty

def headerOf (front : List Char) : Option Json := (headerLines front).head?.bind (parseLine host)

def valuesOf (front : List Char) : List Json := (front.splitOn '\n').filterMap (parseLine host)

def eventsOf (front : List Char) : List Json := (headerLines front).tail.filterMap (parseLine host)

variable {host}

theorem parseLine_nil : parseLine host [] = none := jsonParse_white rfl

variable {line content : List Char} {parts : List (List Char)}

/-- A line that is cut off in a front goes on in the whole. -/
theorem exists_line {first second : List Char} {others : List (List Char)}
    (split : first.splitOn '\n' = parts ++ line :: others) :
    ∃ more, line ++ more ∈ (first ++ second).splitOn '\n' := by
  obtain ⟨next, rest, split'⟩ := exists_splitOn_cons '\n' second
  rcases List.eq_nil_or_concat others with rfl | ⟨middle, last, rfl⟩
  · exact ⟨next, by rw [splitOn_append split split']; simp⟩
  · have split : first.splitOn '\n' = (parts ++ line :: middle) ++ [last] := by simpa using split
    exact ⟨[], by rw [splitOn_append split split']; simp⟩

/-- Only white space follows an object in its line. -/
theorem WellFormed.cut {cut : List Char} {value : Json} (wellFormed : WellFormed host content)
    (listed : line ++ cut ∈ content.splitOn '\n') (found : parseLine host line = some value) :
    parseLine host (line ++ cut) = some value ∧ (Utf8.unitsOf cut).all isWhite = true := by
  rcases wellFormed _ listed with blank | object
  · rw [Utf8.unitsOf_append, List.all_append, Bool.and_eq_true] at blank
    rw [parseLine, jsonParse_white blank.1] at found
    exact nomatch found
  · cases whole : parseLine host (line ++ cut) with
    | none =>
        rw [whole] at object
        exact nomatch object
    | some value' =>
        rw [whole] at object
        cases value' with
        | object entries =>
            rw [parseLine, Utf8.unitsOf_append] at whole
            obtain ⟨rfl, white⟩ := jsonParse_cut whole found
            exact ⟨rfl, white⟩
        | null => exact nomatch object
        | bool => exact nomatch object
        | number => exact nomatch object
        | string => exact nomatch object
        | array => exact nomatch object

theorem parseLine_white (white : (Utf8.unitsOf line).all isWhite = true) :
    parseLine host line = none := jsonParse_white white

/-- The line of a character that is cut off is no value yet. -/
theorem WellFormed.parseLine_cut {front last : List Char} {character : Char} (wellFormed : WellFormed host content)
    (begins : front ++ [character] <+: content) (foreign : 128 ≤ character.toNat)
    (split : front.splitOn '\n' = parts ++ [last]) : parseLine host last = none := by
  cases found : parseLine host last with
  | none => rfl
  | some value =>
      obtain ⟨behind, rfl⟩ := begins
      have alone : [character].splitOn '\n' = [[character]] := by
        apply List.splitOn_eq_singleton
        intro member
        rw [← List.mem_singleton.mp member] at foreign
        exact absurd foreign (by decide)
      obtain ⟨more, listed⟩ : ∃ more, last ++ [character] ++ more ∈ (front ++ [character] ++ behind).splitOn '\n' :=
        exists_line (splitOn_append split alone)
      rw [List.append_assoc last] at listed
      have white := (wellFormed.cut listed found).2
      obtain ⟨unit, units, shape, foreign'⟩ := foreign_unit foreign
      rw [List.singleton_append, unitsOf_cons, shape, List.cons_append, List.all_cons,
        not_white_of_foreign foreign'] at white
      exact nomatch white

end Lines

end NimbleBrain.Conversation.HeaderFile

/- A scan stops at the end of a line, or at the end of a last line that is JSON. From there the rest is folded as if the
file had been read from the start. -/

namespace NimbleBrain.Conversation.HeaderFile

open Engine Library

variable {Amount : Type} {host : Host Amount} {content : List Char}

/-- The place where a scan may stop. The header is read, and the line there is empty or a value. -/
structure Boundary (host : Host Amount) (front : List Char) (raw : Json) : Prop where
  ends : ∃ parts last, front.splitOn '\n' = parts ++ [last] ∧ (last = [] ∨ (parseLine host last).isSome = true)
  header : headerOf host front = some raw

variable {front last rest before : List Char} {parts : List (List Char)} {raw : Json} {line shown : Utf16}

/-- White space goes on in the line of a value, and nothing else. -/
theorem WellFormed.line_goes_on (wellFormed : WellFormed host content) {next : List Char}
    {others : List (List Char)} (begins : front ++ rest <+: content) (split : front.splitOn '\n' = parts ++ [last])
    (split' : rest.splitOn '\n' = next :: others) (parsed : (parseLine host last).isSome = true) :
    parseLine host (last ++ next) = parseLine host last ∧ parseLine host next = none := by
  obtain ⟨value, found⟩ := Option.isSome_iff_exists.mp parsed
  obtain ⟨behind, rfl⟩ := begins
  obtain ⟨more, listed⟩ : ∃ more, last ++ next ++ more ∈ (front ++ rest ++ behind).splitOn '\n' :=
    exists_line (splitOn_append split split')
  rw [List.append_assoc last] at listed
  have white := (wellFormed.cut listed found).2
  rw [Utf8.unitsOf_append, List.all_append, Bool.and_eq_true] at white
  refine ⟨?_, parseLine_white white.1⟩
  have whole := (wellFormed.cut listed found).1
  rw [← List.append_assoc] at listed whole
  rcases wellFormed _ listed with blank | object
  · rw [parseLine_white blank] at whole
    exact nomatch whole
  · rw [whole] at object
    cases value with
    | object entries =>
        rw [found, parseLine, Utf8.unitsOf_append]
        exact jsonParse_append_white found white.1
    | null => exact nomatch object
    | bool => exact nomatch object
    | number => exact nomatch object
    | string => exact nomatch object
    | array => exact nomatch object

/-- Behind a boundary the lines are read for themselves. -/
theorem Boundary.append (boundary : Boundary host front raw) (wellFormed : WellFormed host content)
    (begins : front ++ rest <+: content) :
    headerOf host (front ++ rest) = some raw ∧
      eventsOf host (front ++ rest) = eventsOf host front ++ valuesOf host rest := by
  obtain ⟨parts, last, split, ends⟩ := boundary.ends
  obtain ⟨next, others, split'⟩ := exists_splitOn_cons '\n' rest
  have header := boundary.header
  rw [headerOf, headerLines, split, List.dropWhile_append] at header
  rw [headerOf, eventsOf, eventsOf, valuesOf, headerLines, headerLines, splitOn_append split split', split', split,
    List.dropWhile_append, List.dropWhile_append]
  rcases ends with rfl | parsed
  · cases skipped : parts.dropWhile List.isEmpty with
    | nil =>
        rw [skipped] at header
        exact nomatch header
    | cons first more =>
        rw [skipped] at header
        refine ⟨header, ?_⟩
        simp [parseLine_nil]
  · obtain ⟨same, none⟩ := wellFormed.line_goes_on begins split split' parsed
    have some : last ≠ [] := by
      rintro rfl
      rw [parseLine_nil] at parsed
      exact nomatch parsed
    cases skipped : parts.dropWhile List.isEmpty with
    | nil =>
        rw [skipped] at header
        simp only [List.isEmpty_nil, if_true, List.dropWhile_cons, List.isEmpty_iff, some, List.append_eq_nil_iff,
          false_and, if_false, List.head?_cons, Option.bind_some, List.tail_cons, List.filterMap_nil] at header ⊢
        exact ⟨same.trans header, by rw [List.filterMap_cons_none none, List.nil_append]⟩
    | cons first more =>
        rw [skipped] at header
        refine ⟨header, ?_⟩
        simp only [List.isEmpty_cons, Bool.false_eq_true, if_false, List.cons_append, List.tail_cons,
          List.filterMap_append, List.filterMap_cons, same, none, List.append_assoc]
        cases parseLine host last <;> rfl

def foldValues (host : Host Amount) (scan : Folded Amount) (values : List Json) : Option (Folded Amount) :=
  values.foldlM (foldHeaderValue host) scan

theorem foldValues_append (scan : Folded Amount) (first second : List Json) :
    foldValues host scan (first ++ second) = (foldValues host scan first).bind fun scan => foldValues host scan second :=
  List.foldlM_append

theorem foldHeaderLine_none (scan : Folded Amount) (skipped : jsonParse host.number line = none) :
    foldHeaderLine host scan line = some (scan, false) := by
  rw [foldHeaderLine, skipped]

theorem foldHeaderLine_some {value : Json} (scan : Folded Amount) (found : jsonParse host.number line = some value) :
    foldHeaderLine host scan line = (foldHeaderValue host scan value).map fun scan => (scan, true) := by
  rw [foldHeaderLine, found]

/-- An empty line is no JSON, and neither is any other line that is skipped. -/
theorem foldHeaderLines_unitsOf (scan : Folded Amount) (lines : List (List Char)) :
    foldHeaderLines host scan (lines.map Utf8.unitsOf) = foldValues host scan (lines.filterMap (parseLine host)) := by
  induction lines generalizing scan with
  | nil => rfl
  | cons line rest ih =>
      rw [List.map_cons, foldHeaderLines, List.foldlM_cons, List.filterMap_cons]
      by_cases empty : line = []
      · subst empty
        rw [parseLine_nil]
        exact ih scan
      rw [if_neg fun none => empty (unitsOf_eq_nil_iff.mp none)]
      cases found : parseLine host line with
      | none =>
          rw [foldHeaderLine_none scan found]
          exact ih scan
      | some value =>
          rw [foldHeaderLine_some scan found, foldValues, List.foldlM_cons]
          cases foldHeaderValue host scan value with
          | none => rfl
          | some scan => exact ih scan

theorem splitOn_torn (free : newline ∉ shown) (split : rest.splitOn '\n' = parts ++ [last]) :
    (Utf8.unitsOf rest ++ shown).splitOn newline = parts.map Utf8.unitsOf ++ [Utf8.unitsOf last ++ shown] := by
  apply splitOn_append
  · rw [splitOn_unitsOf, split, List.map_append]
    rfl
  · exact List.splitOn_eq_singleton free

/-- The lines of a text are folded, and the text is consumed up to the last line or with it. -/
theorem foldHeaderText_unitsOf (scan : Folded Amount) (split : (before ++ last).splitOn '\n' = parts ++ [last])
    (cut : shown = [] ∨ shown = [Utf8.replacement] ∧ parseLine host last = none) :
    foldHeaderText host scan (Utf8.unitsOf (before ++ last) ++ shown) =
      (foldValues host scan (valuesOf host (before ++ last))).map fun folded =>
        (folded, (Utf8.unitsOf (if (parseLine host last).isSome then before ++ last else before)).length) := by
  have free : newline ∉ shown := by
    rcases cut with rfl | ⟨rfl, -⟩
    · exact List.not_mem_nil
    · decide
  have lines := splitOn_torn free split
  have tail : lastLine (Utf8.unitsOf (before ++ last) ++ shown) = Utf8.unitsOf last ++ shown := by
    simp [lastLine, lines]
  have consumed : (Utf8.unitsOf (before ++ last) ++ shown).length - (Utf8.unitsOf last ++ shown).length =
      (Utf8.unitsOf before).length := by
    rw [Utf8.unitsOf_append]
    simp only [List.length_append]
    omega
  rw [foldHeaderText, tail, consumed, lines, List.dropLast_concat, foldHeaderLines_unitsOf, valuesOf, split,
    List.filterMap_append, foldValues_append, Option.map_bind]
  congr 1
  funext folded
  by_cases empty : Utf8.unitsOf last ++ shown = []
  · obtain ⟨none, rfl⟩ := List.append_eq_nil_iff.mp empty
    obtain rfl := unitsOf_eq_nil_iff.mp none
    rw [if_pos empty]
    simp [parseLine_nil, foldValues]
  rw [if_neg empty]
  rcases cut with rfl | ⟨rfl, skipped⟩
  · simp only [List.append_nil]
    cases found : parseLine host last with
    | none =>
        rw [foldHeaderLine_none folded found]
        simp [found, foldValues]
    | some value =>
        rw [foldHeaderLine_some folded found]
        simp only [Function.comp, found, List.filterMap_cons, List.filterMap_nil, foldValues, List.foldlM_cons,
          List.foldlM_nil]
        cases foldHeaderValue host folded value <;> simp
  · rw [foldHeaderLine_none folded (jsonParse_foreign (by decide) (Utf8.unitsOf last))]
    simp [skipped, foldValues]

/-- What a scan stops behind is a boundary again. -/
structure Takes (host : Host Amount) (front rest taken : List Char) (raw : Json) (shown : Utf16) : Prop where
  begins : taken <+: rest
  boundary : Boundary host (front ++ taken) raw
  events : eventsOf host (front ++ taken) = eventsOf host (front ++ rest)
  folds : ∀ scan, foldHeaderText host scan (Utf8.unitsOf rest ++ shown) =
    (foldValues host scan (valuesOf host rest)).map fun folded => (folded, (Utf8.unitsOf taken).length)

/-- A last line that is a value is a line of its own. -/
theorem Boundary.last_parsed (boundary : Boundary host front raw) (wellFormed : WellFormed host content)
    (begins : front ++ rest <+: content) (split : rest.splitOn '\n' = parts ++ [last])
    (parsed : (parseLine host last).isSome = true) :
    ∃ lines, (front ++ rest).splitOn '\n' = lines ++ [last] := by
  obtain ⟨before, own, split', ends⟩ := boundary.ends
  cases parts with
  | nil =>
      rcases ends with rfl | parsed'
      · exact ⟨before, splitOn_append split' split⟩
      · rw [(wellFormed.line_goes_on begins split' split parsed').2] at parsed
        exact nomatch parsed
  | cons next parts =>
      exact ⟨before ++ (own ++ next) :: parts, by rw [splitOn_append split' split, List.append_assoc]; rfl⟩

/-- Behind complete lines there is a boundary again. -/
theorem Boundary.append_complete (boundary : Boundary host front raw) (wellFormed : WellFormed host content)
    (begins : front ++ before <+: content) (split : before.splitOn '\n' = parts ++ [[]]) :
    Boundary host (front ++ before) raw := by
  refine ⟨?_, (boundary.append wellFormed begins).1⟩
  obtain ⟨lines, own, split', ends⟩ := boundary.ends
  cases parts with
  | nil => exact ⟨lines, own, by rw [splitOn_append split' split, List.append_nil], ends⟩
  | cons next parts =>
      exact ⟨lines ++ (own ++ next) :: parts, [], by rw [splitOn_append split' split, List.append_assoc]; rfl, .inl rfl⟩

/-- From a boundary on, a scan of what was seen stops at a boundary. -/
theorem Boundary.takes {torn : List UInt8} (boundary : Boundary host front raw)
    (wellFormed : WellFormed host content) (seen : Front content (front ++ rest) torn) :
    ∃ taken, Takes host front rest taken raw (Utf8.decode torn) := by
  obtain ⟨before, last, parts, rfl, -, split, split'⟩ := exists_append_of_splitOn '\n' rest
  have cut : Utf8.decode torn = [] ∨ Utf8.decode torn = [Utf8.replacement] ∧ parseLine host last = none := by
    rcases seen.cut with rfl | ⟨shown, character, begins, foreign⟩
    · exact .inl rfl
    refine .inr ⟨shown, ?_⟩
    by_contra parsed
    have parsed := Option.isSome_iff_ne_none.mpr parsed
    obtain ⟨lines, whole⟩ := boundary.last_parsed wellFormed seen.begins split parsed
    rw [wellFormed.parseLine_cut begins foreign whole] at parsed
    exact nomatch parsed
  have folds := fun scan => foldHeaderText_unitsOf scan split cut
  by_cases parsed : (parseLine host last).isSome = true
  · simp only [if_pos parsed] at folds
    obtain ⟨lines, whole⟩ := boundary.last_parsed wellFormed seen.begins split parsed
    have header := (boundary.append wellFormed seen.begins).1
    exact ⟨before ++ last, List.prefix_rfl, ⟨⟨lines, last, whole, .inr parsed⟩, header⟩, rfl, folds⟩
  · simp only [if_neg parsed] at folds
    have inside : front ++ before <+: content := by
      refine List.IsPrefix.trans ?_ seen.begins
      rw [← List.append_assoc]
      exact List.prefix_append _ _
    have skipped : parseLine host last = none := Option.not_isSome_iff_eq_none.mp parsed
    refine ⟨before, List.prefix_append _ _, boundary.append_complete wellFormed inside split', ?_, folds⟩
    rw [(boundary.append wellFormed inside).2, (boundary.append wellFormed seen.begins).2, valuesOf, valuesOf, split,
      split', List.filterMap_append, List.filterMap_append, List.filterMap_cons_none skipped,
      List.filterMap_cons_none parseLine_nil]

end NimbleBrain.Conversation.HeaderFile
