import Mathlib.Data.List.Lex
import Mathlib.Data.List.Perm.Subperm
import Mathlib.Data.List.Sort
import Mathlib.Data.List.TakeWhile
import NimbleBrain.Library.JsonText

/- The input of a call is written with sorted keys, so that equal inputs have one text. -/

namespace NimbleBrain.Engine

open Library

/-- The units of a number in JSON. -/
def isNumeric (unit : UInt16) : Bool :=
  48 ≤ unit.toNat && unit.toNat ≤ 57 || unit = 43 || unit = 45 || unit = 46 || unit = 101

/-- A finite number is the shortest text that JSON writes for it. -/
structure JsonNumber where
  text : Utf16
  some : text ≠ []
  numeric : ∀ unit ∈ text, isNumeric unit = true
  deriving DecidableEq

inductive Json where
  | null
  | bool (value : Bool)
  | number (value : JsonNumber)
  | string (value : Utf16)
  | array (items : List Json)
  | object (entries : List (Utf16 × Json))
  deriving Inhabited

/-- No object holds a key twice. -/
inductive Json.Distinct : Json → Prop where
  | null : Json.null.Distinct
  | bool (value : Bool) : (Json.bool value).Distinct
  | number (value : JsonNumber) : (Json.number value).Distinct
  | string (value : Utf16) : (Json.string value).Distinct
  | array {items : List Json} (inside : ∀ item ∈ items, item.Distinct) : (Json.array items).Distinct
  | object {entries : List (Utf16 × Json)} (keys : (entries.map Prod.fst).Nodup)
      (inside : ∀ entry ∈ entries, entry.2.Distinct) : (Json.object entries).Distinct

/-- Equal as JSON values: the order of the keys of an object does not count. -/
inductive Json.Same : Json → Json → Prop where
  | null : Json.null.Same .null
  | bool (value : Bool) : (Json.bool value).Same (.bool value)
  | number (value : JsonNumber) : (Json.number value).Same (.number value)
  | string (value : Utf16) : (Json.string value).Same (.string value)
  | array {items others : List Json} (length : items.length = others.length)
      (each : ∀ pair ∈ items.zip others, pair.1.Same pair.2) : (Json.array items).Same (.array others)
  | object {entries others : List (Utf16 × Json)} (length : entries.length = others.length)
      (value : Utf16 × Json → Json) (listed : ∀ entry ∈ entries, (entry.1, value entry) ∈ others)
      (each : ∀ entry ∈ entries, entry.2.Same (value entry)) : (Json.object entries).Same (.object others)

variable {items : List Json} {entries others : List (Utf16 × Json)} {unit : UInt16} {after after' : Utf16}
  {first second : Json} {entry : Utf16 × Utf16}

theorem sizeOf_item_lt {item : Json} (listed : item ∈ items) :
    sizeOf item < sizeOf (Json.array items) := by
  have smaller := List.sizeOf_lt_of_mem listed
  simp only [Json.array.sizeOf_spec]
  omega

theorem sizeOf_entry_lt {entry : Utf16 × Json} (listed : entry ∈ entries) :
    sizeOf entry.2 < sizeOf (Json.object entries) := by
  have smaller := List.sizeOf_lt_of_mem listed
  obtain ⟨key, value⟩ := entry
  simp only [Prod.mk.sizeOf_spec, Json.object.sizeOf_spec] at smaller ⊢
  omega

/-- A value is reached through its items and entries. -/
theorem Json.induction {Holds : Json → Prop} (null : Holds .null) (bool : ∀ value, Holds (.bool value))
    (number : ∀ value, Holds (.number value)) (string : ∀ value, Holds (.string value))
    (array : ∀ items, (∀ item ∈ items, Holds item) → Holds (.array items))
    (object : ∀ entries, (∀ entry ∈ entries, Holds entry.2) → Holds (.object entries)) : ∀ value, Holds value
  | .null => null
  | .bool value => bool value
  | .number value => number value
  | .string value => string value
  | .array items => array items fun item _ => Json.induction null bool number string array object item
  | .object entries =>
      object entries fun entry _ => Json.induction null bool number string array object entry.2
decreasing_by
  · exact sizeOf_item_lt ‹_ ∈ items›
  · exact sizeOf_entry_lt ‹_ ∈ entries›

def joinComma : List Utf16 → Utf16
  | [] => []
  | [text] => text
  | text :: rest => text ++ 44 :: joinComma rest

def keyBefore (first second : Utf16 × Utf16) : Bool :=
  first.1.map UInt16.toNat ≤ second.1.map UInt16.toNat

def entryText (entry : Utf16 × Utf16) : Utf16 := Utf16.quote entry.1 ++ 58 :: entry.2

mutual

/-- The values are written before the entries are sorted by their keys. -/
def canonicalJson : Json → Utf16
  | .null => Utf16.ofString "null"
  | .bool true => Utf16.ofString "true"
  | .bool false => Utf16.ofString "false"
  | .number value => value.text
  | .string value => Utf16.quote value
  | .array items => 91 :: joinComma (canonicalItems items) ++ [93]
  | .object entries =>
      123 :: joinComma (((canonicalEntries entries).insertionSort fun first second => keyBefore first second).map
        entryText) ++ [125]

def canonicalItems : List Json → List Utf16
  | [] => []
  | item :: rest => canonicalJson item :: canonicalItems rest

def canonicalEntries : List (Utf16 × Json) → List (Utf16 × Utf16)
  | [] => []
  | (key, value) :: rest => (key, canonicalJson value) :: canonicalEntries rest

end

theorem canonicalItems_eq (items : List Json) : canonicalItems items = items.map canonicalJson := by
  induction items with
  | nil => rfl
  | cons item rest ih => rw [canonicalItems, ih, List.map_cons]

theorem canonicalEntries_eq (entries : List (Utf16 × Json)) :
    canonicalEntries entries = entries.map fun entry => (entry.1, canonicalJson entry.2) := by
  induction entries with
  | nil => rfl
  | cons entry rest ih =>
      obtain ⟨key, value⟩ := entry
      rw [canonicalEntries, ih, List.map_cons]

section Reading

/-- The end of a number is seen from what follows it. -/
def EndsNumber (after : Utf16) : Prop := ∀ unit ∈ after.head?, isNumeric unit = false

variable {after after' : Utf16} {others texts : List Utf16}

theorem endsNumber_cons {unit : UInt16} (ends : isNumeric unit = false) : EndsNumber (unit :: after) :=
  fun _ first => Option.some.inj first ▸ ends

/-- A text that can be told from all codes that it may stand for. -/
def ReadsIn (Code : Utf16 → Prop) (text : Utf16) : Prop :=
  ∀ other after after', Code other → EndsNumber after → EndsNumber after' → text ++ after = other ++ after' →
    text = other ∧ after = after'

def commaTail (texts : List Utf16) : Utf16 := texts.flatMap fun text => 44 :: text

theorem joinComma_cons (text : Utf16) (rest : List Utf16) : joinComma (text :: rest) = text ++ commaTail rest := by
  induction rest generalizing text with
  | nil => exact (List.append_nil text).symm
  | cons next rest ih =>
      rw [show joinComma (text :: next :: rest) = text ++ 44 :: joinComma (next :: rest) from rfl, ih, commaTail,
        commaTail, List.flatMap_cons, List.cons_append]

variable {Code : Utf16 → Prop} {close : UInt16}

theorem endsNumber_commaTail (ends : isNumeric close = false) (texts : List Utf16) (after : Utf16) :
    EndsNumber (commaTail texts ++ close :: after) := by
  cases texts with
  | nil => exact endsNumber_cons ends
  | cons text rest =>
      rw [commaTail, List.flatMap_cons, List.cons_append, List.cons_append]
      exact endsNumber_cons (by decide)

theorem commaTail_inj (ends : isNumeric close = false) (noComma : close ≠ 44)
    (reads : ∀ text ∈ texts, ReadsIn Code text) (codes : ∀ other ∈ others, Code other)
    (same : commaTail texts ++ close :: after = commaTail others ++ close :: after') :
    texts = others ∧ after = after' := by
  induction texts generalizing others with
  | nil =>
      cases others with
      | nil => exact ⟨rfl, (List.cons_eq_cons.mp same).2⟩
      | cons other rest => exact absurd (List.cons_eq_cons.mp same).1 noComma
  | cons text rest ih =>
      cases others with
      | nil => exact absurd (List.cons_eq_cons.mp same).1.symm noComma
      | cons other rest' =>
          have tail : text ++ (commaTail rest ++ close :: after) = other ++ (commaTail rest' ++ close :: after') := by
            simpa [commaTail] using same
          obtain ⟨rfl, later⟩ := reads text List.mem_cons_self other _ _ (codes other List.mem_cons_self)
            (endsNumber_commaTail ends rest after) (endsNumber_commaTail ends rest' after') tail
          obtain ⟨rfl, rfl⟩ := ih (fun text member => reads text (List.mem_cons_of_mem _ member))
            (fun other member => codes other (List.mem_cons_of_mem _ member)) later
          exact ⟨rfl, rfl⟩

/-- A list of codes between commas is read in one way, up to what closes it. -/
theorem joinComma_inj (ends : isNumeric close = false) (noComma : close ≠ 44)
    (open' : ∀ text, Code text → ∃ first rest, text = first :: rest ∧ first ≠ close)
    (own : ∀ text ∈ texts, Code text) (reads : ∀ text ∈ texts, ReadsIn Code text)
    (codes : ∀ other ∈ others, Code other)
    (same : joinComma texts ++ close :: after = joinComma others ++ close :: after') :
    texts = others ∧ after = after' := by
  cases texts with
  | nil =>
      cases others with
      | nil => exact ⟨rfl, (List.cons_eq_cons.mp same).2⟩
      | cons other rest =>
          obtain ⟨first, tail, shape, differs⟩ := open' other (codes other List.mem_cons_self)
          rw [joinComma_cons, shape] at same
          exact absurd (List.cons_eq_cons.mp same).1.symm differs
  | cons text rest =>
      cases others with
      | nil =>
          obtain ⟨first, tail, shape, differs⟩ := open' text (own text List.mem_cons_self)
          rw [joinComma_cons, shape] at same
          exact absurd (List.cons_eq_cons.mp same).1 differs
      | cons other rest' =>
          have tail : commaTail (text :: rest) ++ close :: after = commaTail (other :: rest') ++ close :: after' := by
            rw [joinComma_cons, joinComma_cons] at same
            simpa [commaTail] using same
          exact commaTail_inj ends noComma reads codes tail

end Reading

/-- What the first unit of a code says about its value. -/
inductive Kind where
  | null | true' | false' | number | string | array | object | none
  deriving DecidableEq

def kindOf (unit : UInt16) : Kind :=
  if unit = 110 then .null
  else if unit = 116 then .true'
  else if unit = 102 then .false'
  else if unit = 34 then .string
  else if unit = 91 then .array
  else if unit = 123 then .object
  else if isNumeric unit then .number
  else .none

def Json.kind : Json → Kind
  | .null => .null
  | .bool true => .true'
  | .bool false => .false'
  | .number _ => .number
  | .string _ => .string
  | .array _ => .array
  | .object _ => .object

/-- The values of a kind. -/
def Json.Is (value : Json) : Kind → Prop
  | .null => value = .null
  | .true' => value = .bool true
  | .false' => value = .bool false
  | .number => ∃ number, value = .number number
  | .string => ∃ text, value = .string text
  | .array => ∃ items, value = .array items
  | .object => ∃ entries, value = .object entries
  | .none => False

theorem Json.is_kind (value : Json) : value.Is value.kind := by
  match value with
  | .null | .bool true | .bool false => exact rfl
  | .number digits => exact ⟨digits, rfl⟩
  | .string units => exact ⟨units, rfl⟩
  | .array items => exact ⟨items, rfl⟩
  | .object entries => exact ⟨entries, rfl⟩

theorem kindOf_numeric (numeric : isNumeric unit = true) : kindOf unit = .number := by
  unfold kindOf
  split_ifs with null true' false' string array object
  · rw [null] at numeric
    exact absurd numeric (by decide)
  · rw [true'] at numeric
    exact absurd numeric (by decide)
  · rw [false'] at numeric
    exact absurd numeric (by decide)
  · rw [string] at numeric
    exact absurd numeric (by decide)
  · rw [array] at numeric
    exact absurd numeric (by decide)
  · rw [object] at numeric
    exact absurd numeric (by decide)
  · rfl

theorem canonicalJson_head (value : Json) :
    ∃ first rest, canonicalJson value = first :: rest ∧ kindOf first = value.kind := by
  match value with
  | .null => exact ⟨110, _, by rw [canonicalJson]; rfl, rfl⟩
  | .bool true => exact ⟨116, _, by rw [canonicalJson]; rfl, rfl⟩
  | .bool false => exact ⟨102, _, by rw [canonicalJson]; rfl, rfl⟩
  | .string value => exact ⟨34, _, by rw [canonicalJson, Utf16.quote, List.cons_append], rfl⟩
  | .array items => exact ⟨91, _, by rw [canonicalJson, List.cons_append], rfl⟩
  | .object entries => exact ⟨123, _, by rw [canonicalJson, List.cons_append], rfl⟩
  | .number value =>
      obtain ⟨first, rest, shape⟩ := List.exists_cons_of_ne_nil value.some
      exact ⟨first, rest, by rw [canonicalJson, shape],
        kindOf_numeric (value.numeric first (shape ▸ List.mem_cons_self))⟩

/-- Codes with the same front are codes of values of one kind. -/
theorem is_kind_of_same (same : canonicalJson first ++ after = canonicalJson second ++ after') :
    second.Is first.kind := by
  obtain ⟨head, rest, shape, kind⟩ := canonicalJson_head first
  obtain ⟨head', rest', shape', kind'⟩ := canonicalJson_head second
  rw [shape, shape'] at same
  rw [← kind, (List.cons_eq_cons.mp same).1, kind']
  exact second.is_kind

def IsJsonCode (text : Utf16) : Prop := ∃ value, text = canonicalJson value

def IsEntryCode (text : Utf16) : Prop := ∃ key value, text = entryText (key, canonicalJson value)

theorem isJsonCode_head {close : UInt16} (closes : kindOf close = .none) (text : Utf16) (code : IsJsonCode text) :
    ∃ first rest, text = first :: rest ∧ first ≠ close := by
  obtain ⟨value, rfl⟩ := code
  obtain ⟨first, rest, shape, kind⟩ := canonicalJson_head value
  refine ⟨first, rest, shape, ?_⟩
  rintro rfl
  rw [closes] at kind
  match value with
  | .null | .bool true | .bool false | .number _ | .string _ | .array _ | .object _ => exact nomatch kind

theorem isEntryCode_head (text : Utf16) (code : IsEntryCode text) :
    ∃ first rest, text = first :: rest ∧ first ≠ 125 := by
  obtain ⟨key, value, rfl⟩ := code
  exact ⟨34, _, by rw [entryText, Utf16.quote, List.cons_append, List.cons_append], by decide⟩

theorem entryText_inj {other : Utf16 × Utf16} (same : entryText entry ++ after = entryText other ++ after') :
    entry.1 = other.1 ∧ entry.2 ++ after = other.2 ++ after' := by
  simp only [entryText, List.append_assoc, List.cons_append] at same
  obtain ⟨key, rest⟩ := Utf16.quote_inj same
  exact ⟨key, (List.cons_eq_cons.mp rest).2⟩

theorem numeric_inj {first second : Utf16} (numeric : ∀ unit ∈ first, isNumeric unit = true)
    (numeric' : ∀ unit ∈ second, isNumeric unit = true) (ends : EndsNumber after) (ends' : EndsNumber after')
    (same : first ++ after = second ++ after') : first = second ∧ after = after' := by
  have takes {text rest : Utf16} (inside : ∀ unit ∈ text, isNumeric unit = true) (ends : EndsNumber rest) :
      (text ++ rest).takeWhile isNumeric = text := by
    rw [List.takeWhile_append_of_pos inside]
    cases rest with
    | nil => exact List.append_nil text
    | cons next rest => rw [List.takeWhile_cons_of_neg (by simp [ends next rfl]), List.append_nil]
  have equal : first = second := by rw [← takes numeric ends, same, takes numeric' ends']
  subst equal
  exact ⟨rfl, List.append_cancel_left same⟩

def sortedEntries (entries : List (Utf16 × Json)) : List (Utf16 × Utf16) :=
  (entries.map fun entry => (entry.1, canonicalJson entry.2)).insertionSort fun first second => keyBefore first second

theorem mem_sortedEntries :
    entry ∈ sortedEntries entries ↔ ∃ own ∈ entries, (own.1, canonicalJson own.2) = entry := by
  rw [sortedEntries, List.mem_insertionSort, List.mem_map]

theorem canonicalJson_array (items : List Json) :
    canonicalJson (.array items) = 91 :: joinComma (items.map canonicalJson) ++ [93] := by
  rw [canonicalJson, canonicalItems_eq]

theorem canonicalJson_object (entries : List (Utf16 × Json)) :
    canonicalJson (.object entries) = 123 :: joinComma ((sortedEntries entries).map entryText) ++ [125] := by
  rw [canonicalJson, canonicalEntries_eq, sortedEntries]

/-- The codes of two arrays are equal when those of their items are. -/
theorem array_reads {others : List Json} (reads : ∀ item ∈ items, ReadsIn IsJsonCode (canonicalJson item))
    (same : canonicalJson (.array items) ++ after = canonicalJson (.array others) ++ after') :
    items.map canonicalJson = others.map canonicalJson ∧ after = after' := by
  simp only [canonicalJson_array, List.cons_append, List.append_assoc, List.cons.injEq, true_and,
    List.nil_append] at same
  refine joinComma_inj (by decide) (by decide) (isJsonCode_head rfl) ?_ ?_ ?_ same
  · exact List.forall_mem_map.mpr fun item _ => ⟨item, rfl⟩
  · exact List.forall_mem_map.mpr reads
  · exact List.forall_mem_map.mpr fun item _ => ⟨item, rfl⟩

/-- The codes of two objects are equal when their sorted entries are. -/
theorem object_reads (reads : ∀ entry ∈ entries, ReadsIn IsJsonCode (canonicalJson entry.2))
    (same : canonicalJson (.object entries) ++ after = canonicalJson (.object others) ++ after') :
    sortedEntries entries = sortedEntries others ∧ after = after' := by
  have codes (entries : List (Utf16 × Json)) :
      ∀ text ∈ (sortedEntries entries).map entryText, IsEntryCode text := by
    intro text listed
    obtain ⟨entry, sorted, rfl⟩ := List.mem_map.mp listed
    obtain ⟨own, -, rfl⟩ := mem_sortedEntries.mp sorted
    exact ⟨own.1, own.2, rfl⟩
  simp only [canonicalJson_object, List.cons_append, List.append_assoc, List.cons.injEq, true_and,
    List.nil_append] at same
  obtain ⟨texts, rest⟩ := joinComma_inj (by decide) (by decide) isEntryCode_head (codes entries) (by
    rintro text listed _ after after' ⟨key, value, rfl⟩ ends ends' same
    obtain ⟨entry, sorted, rfl⟩ := List.mem_map.mp listed
    obtain ⟨own, member, rfl⟩ := mem_sortedEntries.mp sorted
    obtain ⟨keys, values⟩ := entryText_inj same
    obtain ⟨code, rest⟩ := reads own member _ after after' ⟨value, rfl⟩ ends ends' values
    exact ⟨congrArg entryText (Prod.ext keys code), rest⟩) (codes others) same
  refine ⟨List.map_injective_iff.mpr ?_ texts, rest⟩
  intro entry other equal
  obtain ⟨keys, values⟩ := entryText_inj (congrArg (· ++ []) equal)
  exact Prod.ext keys (List.append_cancel_right values)

/-- A code at the front of a text is read in one way. -/
theorem canonicalJson_reads (value : Json) : ReadsIn IsJsonCode (canonicalJson value) := by
  induction value using Json.induction with
  | null =>
      rintro _ after after' ⟨other, rfl⟩ - - same
      obtain rfl : other = .null := is_kind_of_same same
      exact ⟨rfl, List.append_cancel_left same⟩
  | bool value =>
      rintro _ after after' ⟨other, rfl⟩ - - same
      obtain rfl : other = .bool value := by
        cases value with
        | true => exact is_kind_of_same same
        | false => exact is_kind_of_same same
      exact ⟨rfl, List.append_cancel_left same⟩
  | number value =>
      rintro _ after after' ⟨other, rfl⟩ ends ends' same
      obtain ⟨number, rfl⟩ : ∃ number, other = .number number := is_kind_of_same same
      simp only [canonicalJson] at same ⊢
      exact numeric_inj value.numeric number.numeric ends ends' same
  | string value =>
      rintro _ after after' ⟨other, rfl⟩ - - same
      obtain ⟨text, rfl⟩ : ∃ text, other = .string text := is_kind_of_same same
      simp only [canonicalJson] at same ⊢
      obtain ⟨rfl, rest⟩ := Utf16.quote_inj same
      exact ⟨rfl, rest⟩
  | array items ih =>
      rintro _ after after' ⟨other, rfl⟩ - - same
      obtain ⟨others, rfl⟩ : ∃ others, other = .array others := is_kind_of_same same
      obtain ⟨codes, rest⟩ := array_reads ih same
      rw [canonicalJson_array, canonicalJson_array, codes]
      exact ⟨rfl, rest⟩
  | object entries ih =>
      rintro _ after after' ⟨other, rfl⟩ - - same
      obtain ⟨others, rfl⟩ : ∃ others, other = .object others := is_kind_of_same same
      obtain ⟨codes, rest⟩ := object_reads ih same
      rw [canonicalJson_object, canonicalJson_object, codes]
      exact ⟨rfl, rest⟩

theorem same_of_canonicalJson_eq (equal : canonicalJson first = canonicalJson second) :
    first.Same second := by
  have same {first second : Json} (equal : canonicalJson first = canonicalJson second) :
      canonicalJson first ++ [] = canonicalJson second ++ [] := congrArg (· ++ []) equal
  induction first using Json.induction generalizing second with
  | null =>
      obtain rfl : second = .null := is_kind_of_same (same equal)
      exact .null
  | bool value =>
      obtain rfl : second = .bool value := by
        cases value with
        | true => exact is_kind_of_same (same equal)
        | false => exact is_kind_of_same (same equal)
      exact .bool value
  | number value =>
      obtain ⟨number, rfl⟩ : ∃ number, second = .number number := is_kind_of_same (same equal)
      simp only [canonicalJson] at equal
      obtain rfl : value = number := by
        cases value
        cases number
        exact (JsonNumber.mk.injEq ..).mpr equal
      exact .number value
  | string value =>
      obtain ⟨text, rfl⟩ : ∃ text, second = .string text := is_kind_of_same (same equal)
      simp only [canonicalJson] at equal
      obtain ⟨rfl, -⟩ := Utf16.quote_inj (congrArg (· ++ []) equal)
      exact .string value
  | array items ih =>
      obtain ⟨others, rfl⟩ : ∃ others, second = .array others := is_kind_of_same (same equal)
      have codes := (array_reads (fun item _ => canonicalJson_reads item) (same equal)).1
      refine .array (by simpa using congrArg List.length codes) ?_
      rintro ⟨item, other⟩ listed
      apply ih item (List.of_mem_zip listed).1
      obtain ⟨place, inside, at'⟩ := List.mem_iff_getElem.mp listed
      rw [List.getElem_zip, Prod.mk.injEq] at at'
      obtain ⟨rfl, rfl⟩ := at'
      rw [List.length_zip] at inside
      have codes := congrArg (fun list => list[place]?) codes
      simpa [List.getElem?_map, List.getElem?_eq_getElem (show place < items.length by omega),
        List.getElem?_eq_getElem (show place < others.length by omega)] using codes
  | object entries ih =>
      obtain ⟨others, rfl⟩ : ∃ others, second = .object others := is_kind_of_same (same equal)
      have codes := (object_reads (fun entry _ => canonicalJson_reads entry.2) (same equal)).1
      have found (entry : Utf16 × Json) (listed : entry ∈ entries) :
          ∃ value, (entry.1, value) ∈ others ∧ canonicalJson value = canonicalJson entry.2 := by
        obtain ⟨⟨key, value⟩, member, own⟩ :=
          mem_sortedEntries.mp (codes ▸ mem_sortedEntries.mpr ⟨entry, listed, rfl⟩)
        obtain ⟨rfl, code⟩ := Prod.mk.inj own
        exact ⟨value, member, code⟩
      choose! value listed code using found
      refine .object ?_ value listed fun entry member => ih entry member (code entry member).symm
      have length := congrArg List.length codes
      simpa [sortedEntries] using length

instance : IsTrans (Utf16 × Utf16) fun first second => keyBefore first second = true where
  trans first second third before after := by
    simp only [keyBefore, decide_eq_true_eq] at before after ⊢
    exact before.trans after

instance : Std.Total fun first second : Utf16 × Utf16 => keyBefore first second = true where
  total first second := by
    simp only [keyBefore, decide_eq_true_eq]
    exact le_total _ _

theorem keys_inj {first second : Utf16} (equal : first.map UInt16.toNat = second.map UInt16.toNat) : first = second :=
  List.map_injective_iff.mpr (fun _ _ => UInt16.toNat_inj.mp) equal

/-- The sorted entries of two objects with the same entries are equal. -/
theorem sortedEntries_eq (keys : (entries.map Prod.fst).Nodup) (keys' : (others.map Prod.fst).Nodup)
    (length : entries.length = others.length)
    (found : ∀ entry ∈ entries, ∃ value, (entry.1, value) ∈ others ∧ canonicalJson entry.2 = canonicalJson value) :
    sortedEntries entries = sortedEntries others := by
  let code (entry : Utf16 × Json) : Utf16 × Utf16 := (entry.1, canonicalJson entry.2)
  have distinct : (entries.map code).Nodup := List.Nodup.of_map Prod.fst (by rwa [List.map_map])
  have distinct' : ((others.map code).map Prod.fst).Nodup := by rwa [List.map_map]
  have inside : entries.map code ⊆ others.map code := by
    intro text listed
    obtain ⟨entry, member, rfl⟩ := List.mem_map.mp listed
    obtain ⟨value, present, equal⟩ := found entry member
    exact List.mem_map.mpr ⟨(entry.1, value), present, Prod.ext rfl equal.symm⟩
  have same : (entries.map code).Perm (others.map code) :=
    (List.subperm_of_subset distinct inside).perm_of_length_le (by simp [length])
  apply @List.Perm.eq_of_pairwise _ fun first second => keyBefore first second = true
  · intro first second listed listed' before after
    rw [sortedEntries, List.mem_insertionSort] at listed listed'
    simp only [keyBefore, decide_eq_true_eq] at before after
    exact List.inj_on_of_nodup_map distinct' (same.subset listed) listed' (keys_inj (le_antisymm before after))
  · exact List.pairwise_insertionSort _ _
  · exact List.pairwise_insertionSort _ _
  · exact (List.perm_insertionSort _ _).trans (same.trans (List.perm_insertionSort _ _).symm)

/-- Equal values have one text. -/
theorem canonicalJson_eq_of_same (same : first.Same second) (distinct : first.Distinct)
    (distinct' : second.Distinct) : canonicalJson first = canonicalJson second := by
  induction first using Json.induction generalizing second with
  | null =>
      cases same
      rfl
  | bool value =>
      cases same
      rfl
  | number value =>
      cases same
      rfl
  | string value =>
      cases same
      rfl
  | array items ih =>
      cases same with
      | @array _ others length each =>
          cases distinct with | array inside =>
          cases distinct' with | array inside' =>
          rw [canonicalJson_array, canonicalJson_array]
          have codes : items.map canonicalJson = others.map canonicalJson := by
            apply List.ext_getElem (by simp [length])
            intro place here there
            rw [List.length_map] at here there
            rw [List.getElem_map, List.getElem_map]
            have paired : place < (items.zip others).length := by
              rw [List.length_zip]
              omega
            have member := List.getElem_mem paired
            rw [List.getElem_zip] at member
            exact ih _ (List.getElem_mem here) (each _ member) (inside _ (List.getElem_mem here))
              (inside' _ (List.getElem_mem there))
          rw [codes]
  | object entries ih =>
      cases same with
      | @object _ others length value listed each =>
          cases distinct with | object keys inside =>
          cases distinct' with | object keys' inside' =>
          have code (entry : Utf16 × Json) (member : entry ∈ entries) :
              canonicalJson entry.2 = canonicalJson (value entry) :=
            ih entry member (each entry member) (inside entry member) (inside' _ (listed entry member))
          rw [canonicalJson_object, canonicalJson_object, sortedEntries_eq keys keys' length fun entry member =>
            ⟨value entry, listed entry member, code entry member⟩]

theorem numeric_plain (numeric : isNumeric unit = true) : unit ≠ 0 ∧ Utf16.isPlain unit = true := by
  have low : 43 ≤ unit.toNat ∧ unit.toNat ≤ 101 := by
    simp only [isNumeric, Bool.or_eq_true, Bool.and_eq_true, decide_eq_true_eq] at numeric
    rcases numeric with (((digit | rfl) | rfl) | rfl) | rfl
    · omega
    all_goals decide
  constructor
  · rintro rfl
    exact absurd low.1 (by decide)
  · simp only [Utf16.isPlain, Utf16.isLead, Utf16.isTrail, Bool.and_eq_true, Bool.not_eq_true', Bool.and_eq_false_iff,
      decide_eq_false_iff_not]
    omega

theorem clean_joinComma {texts : List Utf16} (each : ∀ text ∈ texts, Utf16.Clean text) :
    Utf16.Clean (joinComma texts) := by
  fun_induction joinComma texts with
  | case1 => exact .nil
  | case2 text => exact each text List.mem_cons_self
  | case3 text rest more ih =>
      obtain ⟨own, later⟩ := List.forall_mem_cons.mp each
      exact own.append (.cons (by decide) (by decide) (ih later))

/-- The text of an input has no null character and no half of a pair. -/
theorem clean_canonicalJson (value : Json) : Utf16.Clean (canonicalJson value) := by
  induction value using Json.induction with
  | null =>
      rw [canonicalJson]
      exact .of_all (by decide)
  | bool value =>
      cases value
      all_goals
        rw [canonicalJson]
        exact .of_all (by decide)
  | number value =>
      rw [canonicalJson]
      exact .of_plain fun unit member => numeric_plain (value.numeric unit member)
  | string value =>
      rw [canonicalJson]
      exact Utf16.clean_quote value
  | array items ih =>
      rw [canonicalJson_array, List.cons_append]
      refine .cons (by decide) (by decide) ((clean_joinComma ?_).append (.of_all (by decide)))
      exact List.forall_mem_map.mpr ih
  | object entries ih =>
      rw [canonicalJson_object, List.cons_append]
      refine .cons (by decide) (by decide) ((clean_joinComma ?_).append (.of_all (by decide)))
      refine List.forall_mem_map.mpr fun entry listed => ?_
      obtain ⟨own, member, rfl⟩ := mem_sortedEntries.mp listed
      exact (Utf16.clean_quote own.1).append (.cons (by decide) (by decide) (ih own member))

end NimbleBrain.Engine
