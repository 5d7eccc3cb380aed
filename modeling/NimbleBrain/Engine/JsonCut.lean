import NimbleBrain.Engine.JsonRead

/- A text that is cut off is no value, save for the white space behind it. -/

namespace NimbleBrain.Engine

open Library

/-- What is read of the text ends in a basic unit. -/
def ReadTo (text rest : Utf16) : Prop := ∃ front last, text = front ++ last :: rest ∧ last.toNat < 128

variable {rest text : Utf16} {unit : UInt16} {value : Json} {fuel : Nat}

theorem ReadTo.trans {middle : Utf16} (first : ReadTo text middle) (second : ReadTo middle rest) :
    ReadTo text rest := by
  obtain ⟨front, last, rfl, -⟩ := first
  obtain ⟨front', last', rfl, small⟩ := second
  exact ⟨front ++ last :: front', last', by rw [List.append_assoc, List.cons_append], small⟩

theorem ReadTo.cons (read : ReadTo text rest) (unit : UInt16) : ReadTo (unit :: text) rest := by
  obtain ⟨front, last, rfl, small⟩ := read
  exact ⟨unit :: front, last, rfl, small⟩

theorem ReadTo.behind_white {first : Utf16} (shape : skipWhite text = first) (read : ReadTo first rest) :
    ReadTo text rest := by
  obtain ⟨front, last, rfl, small⟩ := read
  refine ⟨text.takeWhile isWhite ++ front, last, ?_, small⟩
  rw [List.append_assoc, ← shape, skipWhite, List.takeWhile_append_dropWhile]

theorem readTo_expect (small : unit.toNat < 128) (read : expect unit text = some rest) : ReadTo text rest := by
  rw [expect] at read
  split at read
  · cases read
  · next first after shape =>
      split at read
      · next same =>
          obtain rfl := Option.some.inj read
          exact .behind_white shape ⟨[], first, rfl, by rwa [same]⟩
      · cases read

theorem readTo_readString {value : Utf16} (read : readString text = some (value, rest)) :
    ReadTo text rest := by
  fun_induction readString text generalizing value rest with
  | case1 => cases read
  | case2 after =>
      obtain ⟨rfl, rfl⟩ := Prod.mk.inj (Option.some.inj read)
      exact ⟨[], 34, rfl, by decide⟩
  | case3 => cases read
  | case4 first second third fourth after _ ih =>
      obtain ⟨unit, code, later⟩ := Option.bind_eq_some_iff.mp read
      obtain ⟨⟨inside, after'⟩, found, same⟩ := Option.map_eq_some_iff.mp later
      obtain ⟨rfl, rfl⟩ := Prod.mk.inj same
      exact ((((((ih found).cons fourth).cons third).cons second).cons first).cons 117).cons 92
  | case5 => cases read
  | case6 letter after noCode listed _ ih =>
      obtain ⟨⟨inside, after'⟩, found, same⟩ := Option.map_eq_some_iff.mp read
      obtain ⟨rfl, rfl⟩ := Prod.mk.inj same
      exact ((ih found).cons letter).cons 92
  | case7 => cases read
  | case8 => cases read
  | case9 unit after noMark noEscape printed ih =>
      obtain ⟨⟨inside, after'⟩, found, same⟩ := Option.map_eq_some_iff.mp read
      obtain ⟨rfl, rfl⟩ := Prod.mk.inj same
      exact (ih found).cons unit

theorem toNat_lt_of_isNumberUnit (numeral : isNumberUnit unit = true) : unit.toNat < 128 := by
  simp only [isNumberUnit, isNumeric, Bool.or_eq_true, Bool.and_eq_true, decide_eq_true_eq] at numeral
  rcases numeral with ((((⟨-, small⟩ | rfl) | rfl) | rfl) | rfl) | rfl
  all_goals first
    | omega
    | decide

variable {number : Utf16 → JsonNumber}

theorem readTo_readNumber (read : readNumber number text = some (value, rest)) :
    ReadTo text rest := by
  simp only [readNumber] at read
  split at read
  · next grammar =>
      obtain ⟨-, rfl⟩ := Prod.mk.inj (Option.some.inj read)
      have token : text.takeWhile isNumberUnit ≠ [] := by
        intro empty
        rw [empty] at grammar
        exact absurd grammar (by decide)
      have last := List.getLast_mem token
      refine ⟨(text.takeWhile isNumberUnit).dropLast, (text.takeWhile isNumberUnit).getLast token, ?_,
        toNat_lt_of_isNumberUnit (List.mem_takeWhile_imp last)⟩
      rw [List.append_cons, List.dropLast_concat_getLast, List.takeWhile_append_dropWhile]
  · cases read

theorem readTo_readWord {front text rest : Utf16} {last : UInt16} {value found : Json} (small : last.toNat < 128)
    (read : readWord (front ++ [last]) value text = some (found, rest)) : ReadTo text rest := by
  simp only [readWord] at read
  split at read
  · next begins =>
      obtain ⟨-, rfl⟩ := Prod.mk.inj (Option.some.inj read)
      obtain ⟨behind, rfl⟩ := begins
      exact ⟨front, last, by rw [List.drop_left, List.append_assoc, List.singleton_append], small⟩
  · cases read

/-- Whatever is read ends in a basic unit. -/
structure Closes (number : Utf16 → JsonNumber) (fuel : Nat) : Prop where
  values : ∀ {text rest : Utf16} {value : Json}, readValue number fuel text = some (value, rest) → ReadTo text rest
  items : ∀ {text rest : Utf16} {items : List Json}, readItems number fuel text = some (items, rest) →
    ReadTo text rest
  entries : ∀ {text rest : Utf16} {entries : List (Utf16 × Json)},
    readEntries number fuel text = some (entries, rest) → ReadTo text rest

theorem Closes.items_step (inner : Closes number fuel) {items : List Json}
    (read : readItems number (fuel + 1) text = some (items, rest)) : ReadTo text rest := by
  rw [readItems] at read
  obtain ⟨⟨item, after⟩, first, later⟩ := Option.bind_eq_some_iff.mp read
  refine (inner.values first).trans ?_
  cases close : expect 93 after with
  | some end' =>
      rw [close] at later
      obtain ⟨-, rfl⟩ := Prod.mk.inj (Option.some.inj later)
      exact readTo_expect (by decide) close
  | none =>
      rw [close] at later
      obtain ⟨next, comma, others⟩ := Option.bind_eq_some_iff.mp later
      obtain ⟨⟨items', rest'⟩, found, same⟩ := Option.map_eq_some_iff.mp others
      obtain ⟨-, rfl⟩ := Prod.mk.inj same
      exact (readTo_expect (by decide) comma).trans (inner.items found)

theorem Closes.entries_step (inner : Closes number fuel) {entries : List (Utf16 × Json)}
    (read : readEntries number (fuel + 1) text = some (entries, rest)) :
    ReadTo text rest := by
  rw [readEntries] at read
  obtain ⟨⟨key, afterKey⟩, first, second⟩ := Option.bind_eq_some_iff.mp read
  obtain ⟨afterMark, mark, string⟩ := Option.bind_eq_some_iff.mp first
  obtain ⟨⟨value, after⟩, valued, later⟩ := Option.bind_eq_some_iff.mp second
  obtain ⟨afterColon, colon, own⟩ := Option.bind_eq_some_iff.mp valued
  have begun := ((readTo_expect (by decide) mark).trans (readTo_readString string)).trans
    ((readTo_expect (by decide) colon).trans (inner.values own))
  refine begun.trans ?_
  cases close : expect 125 after with
  | some end' =>
      rw [close] at later
      obtain ⟨-, rfl⟩ := Prod.mk.inj (Option.some.inj later)
      exact readTo_expect (by decide) close
  | none =>
      rw [close] at later
      obtain ⟨next, comma, others⟩ := Option.bind_eq_some_iff.mp later
      obtain ⟨⟨entries', rest'⟩, found, same⟩ := Option.map_eq_some_iff.mp others
      obtain ⟨-, rfl⟩ := Prod.mk.inj same
      exact (readTo_expect (by decide) comma).trans (inner.entries found)

theorem Closes.values_step (inner : Closes number fuel)
    (read : readValue number (fuel + 1) text = some (value, rest)) : ReadTo text rest := by
  rw [readValue] at read
  cases shape : skipWhite text with
  | nil =>
      rw [shape] at read
      exact nomatch read
  | cons first behind =>
      apply ReadTo.behind_white shape
      simp only [shape] at read
      split_ifs at read with object array string null yes no
      · refine ReadTo.cons ?_ first
        cases close : expect 125 behind with
        | some after =>
            rw [close] at read
            obtain ⟨-, rfl⟩ := Prod.mk.inj (Option.some.inj read)
            exact readTo_expect (by decide) close
        | none =>
            rw [close] at read
            obtain ⟨⟨entries, after⟩, found, same⟩ := Option.map_eq_some_iff.mp read
            obtain ⟨-, rfl⟩ := Prod.mk.inj same
            exact inner.entries found
      · refine ReadTo.cons ?_ first
        cases close : expect 93 behind with
        | some after =>
            rw [close] at read
            obtain ⟨-, rfl⟩ := Prod.mk.inj (Option.some.inj read)
            exact readTo_expect (by decide) close
        | none =>
            rw [close] at read
            obtain ⟨⟨items, after⟩, found, same⟩ := Option.map_eq_some_iff.mp read
            obtain ⟨-, rfl⟩ := Prod.mk.inj same
            exact inner.items found
      · obtain ⟨⟨inside, after⟩, found, same⟩ := Option.map_eq_some_iff.mp read
        obtain ⟨-, rfl⟩ := Prod.mk.inj same
        exact (readTo_readString found).cons first
      · exact @readTo_readWord (Utf16.ofString "nul") _ _ 108 _ _ (by decide) read
      · exact @readTo_readWord (Utf16.ofString "tru") _ _ 101 _ _ (by decide) read
      · exact @readTo_readWord (Utf16.ofString "fals") _ _ 101 _ _ (by decide) read
      · exact readTo_readNumber read

theorem closes_fuel (number : Utf16 → JsonNumber) (fuel : Nat) : Closes number fuel := by
  induction fuel with
  | zero => exact ⟨fun read => (nomatch read), fun read => (nomatch read), fun read => (nomatch read)⟩
  | succ fuel inner => exact ⟨inner.values_step, inner.items_step, inner.entries_step⟩

variable {entries : List (Utf16 × Json)}

/-- Only a brace opens an object. -/
theorem brace_of_readValue (read : readValue number fuel text = some (.object entries, rest)) :
    (skipWhite text).head? = some 123 := by
  cases fuel with
  | zero => cases read
  | succ fuel =>
      rw [readValue] at read
      cases shape : skipWhite text with
      | nil =>
          rw [shape] at read
          cases read
      | cons first behind =>
          simp only [shape] at read
          split_ifs at read with object array string null yes no
          · rw [object, List.head?_cons]
          · split at read
            · cases read
            · obtain ⟨_, -, same⟩ := Option.map_eq_some_iff.mp read
              cases (Prod.mk.inj same).1
          · obtain ⟨_, -, same⟩ := Option.map_eq_some_iff.mp read
            cases (Prod.mk.inj same).1
          all_goals
            simp only [readWord, readNumber] at read
            split at read
            · cases (Prod.mk.inj (Option.some.inj read)).1
            · cases read

/-- A brace opens nothing but an object. -/
theorem object_of_readValue (read : readValue number fuel text = some (value, rest))
    (brace : (skipWhite text).head? = some 123) :
    ∃ entries, value = .object entries := by
  cases fuel with
  | zero => exact nomatch read
  | succ fuel =>
      rw [readValue] at read
      obtain ⟨behind, shape⟩ := List.head?_eq_some_iff.mp brace
      simp only [shape, if_true] at read
      split at read
      · exact ⟨[], (Prod.mk.inj (Option.some.inj read)).1.symm⟩
      · obtain ⟨found, -, same⟩ := Option.map_eq_some_iff.mp read
        exact ⟨_, (Prod.mk.inj same).1.symm⟩

theorem jsonParse_eq_some_iff :
    jsonParse number text = some value ↔
      ∃ rest, readValue number (enoughFuel text) text = some (value, rest) ∧ rest.all isWhite = true := by
  rw [jsonParse, Option.bind_eq_some_iff]
  constructor
  · rintro ⟨⟨found, rest⟩, read, kept⟩
    split at kept
    · next white =>
        obtain rfl := Option.some.inj kept
        exact ⟨rest, read, white⟩
    · exact nomatch kept
  · rintro ⟨rest, read, white⟩
    exact ⟨(value, rest), read, if_pos white⟩

/-- White space alone is no value. -/
theorem jsonParse_white (white : text.all isWhite = true) : jsonParse number text = none := by
  cases found : jsonParse number text with
  | none => rfl
  | some value =>
      obtain ⟨rest, read, -⟩ := jsonParse_eq_some_iff.mp found
      exact absurd (List.dropWhile_eq_nil_iff.mpr (List.all_eq_true.mp white)) (skipWhite_ne_nil_of_readValue read)

theorem enoughFuel_append (first second : Utf16) : enoughFuel first ≤ enoughFuel (first ++ second) := by
  rw [enoughFuel, enoughFuel, List.length_append]
  omega

/-- No value ends in a unit beyond the basic ones. -/
theorem jsonParse_foreign {unit : UInt16} (foreign : 128 ≤ unit.toNat) (text : Utf16) :
    jsonParse number (text ++ [unit]) = none := by
  cases found : jsonParse number (text ++ [unit]) with
  | none => rfl
  | some value =>
      obtain ⟨rest, read, white⟩ := jsonParse_eq_some_iff.mp found
      obtain ⟨front, last, same, small⟩ := (closes_fuel number _).values read
      rcases List.eq_nil_or_concat rest with rfl | ⟨before, other, rfl⟩
      · obtain ⟨-, same⟩ := List.append_inj' same rfl
        rw [List.cons.inj same |>.1] at foreign
        omega
      · have same : text ++ [unit] = (front ++ last :: before) ++ [other] := by simpa using same
        obtain ⟨-, same⟩ := List.append_inj' same rfl
        obtain rfl := (List.cons.inj same).1
        have blank : isWhite unit = true := List.all_eq_true.mp white unit (by simp)
        simp only [isWhite, Bool.or_eq_true, decide_eq_true_eq] at blank
        rcases blank with ((rfl | rfl) | rfl) | rfl
        all_goals exact absurd foreign (by decide)

/-- White space behind an object says nothing. -/
theorem jsonParse_append_white {white : Utf16} (found : jsonParse number text = some (.object entries))
    (blank : white.all isWhite = true) :
    jsonParse number (text ++ white) = some (.object entries) := by
  obtain ⟨rest, read, white'⟩ := jsonParse_eq_some_iff.mp found
  refine jsonParse_eq_some_iff.mpr ⟨rest ++ white, ?_, by rw [List.all_append, white', blank]; rfl⟩
  exact (extends_fuel number _).values (enoughFuel_append text white) read nofun

/-- When the front of an object's text is a value, it is the whole object and only white space is cut off. -/
theorem jsonParse_cut {cut : Utf16} (whole : jsonParse number (text ++ cut) = some (.object entries))
    (found : jsonParse number text = some value) :
    value = .object entries ∧ cut.all isWhite = true := by
  obtain ⟨rest, read, white⟩ := jsonParse_eq_some_iff.mp whole
  obtain ⟨rest', read', white'⟩ := jsonParse_eq_some_iff.mp found
  have begun := skipWhite_ne_nil_of_readValue read'
  have brace := brace_of_readValue read
  rw [skipWhite_append begun, List.head?_append_of_ne_nil _ begun] at brace
  obtain ⟨entries', rfl⟩ := object_of_readValue read' brace
  have longer : readValue number (enoughFuel (text ++ cut)) (text ++ cut) = some (.object entries', rest' ++ cut) :=
    (extends_fuel number _).values (enoughFuel_append text cut) read' nofun
  obtain ⟨same, rfl⟩ := Prod.mk.inj (Option.some.inj (read.symm.trans longer))
  rw [List.all_append, Bool.and_eq_true] at white
  exact ⟨same.symm, white.2⟩

end NimbleBrain.Engine
