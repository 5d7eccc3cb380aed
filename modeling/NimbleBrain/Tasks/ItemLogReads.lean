import NimbleBrain.Tasks.ItemLog

/- A log that is whole folds to the items that were written. A line that is torn off is skipped. -/

namespace NimbleBrain.Tasks.ItemLog

open Engine Library

section Lines

theorem clean_lineOf (item : Fields) : Utf16.Clean (lineOf item) := clean_stringify _

variable {text : Utf16}

theorem newline_not_mem_of_printed (printed : Printed text) : newline ∉ text :=
  fun member => absurd (printed newline member) (by decide)

theorem newline_not_mem_lineOf (item : Fields) : newline ∉ lineOf item :=
  newline_not_mem_of_printed (printed_stringify _)

theorem lineOf_ne_nil (item : Fields) : lineOf item ≠ [] := List.cons_ne_nil _ _

theorem clean_append_newline (clean : Utf16.Clean text) : Utf16.Clean (text ++ [newline]) :=
  clean.append (.of_all (by decide))

/-- The text ends with its last line, or has none. -/
def Ended (text : Utf16) : Prop := ∃ parts, text.splitOn newline = parts ++ [[]]

theorem Ended.nil : Ended [] := ⟨[], rfl⟩

theorem splitOn_line {line : Utf16} (free : newline ∉ line) : (line ++ [newline]).splitOn newline = [line, []] := by
  rw [List.splitOn_append_cons_self_of_not_mem free, List.splitOn_nil]

theorem splitOn_append_line {line : Utf16} {parts : List Utf16} (split : text.splitOn newline = parts ++ [[]])
    (free : newline ∉ line) : (text ++ (line ++ [newline])).splitOn newline = parts ++ [line] ++ [[]] := by
  rw [splitOn_append split (splitOn_line free), List.nil_append, List.append_assoc]
  rfl

theorem Ended.line {line : Utf16} (ended : Ended text) (free : newline ∉ line) :
    Ended (text ++ (line ++ [newline])) := by
  obtain ⟨parts, split⟩ := ended
  exact ⟨parts ++ [line], splitOn_append_line split free⟩

variable (numbers : Numbers)

theorem foldLine_nil (byIndex : OrderedMap JsonNumber Fields) : foldLine numbers byIndex [] = byIndex := if_pos rfl

/-- A further line is folded upon the others. -/
theorem Ended.foldText_line {line : Utf16} (ended : Ended text) (free : newline ∉ line) :
    foldText numbers (text ++ (line ++ [newline])) = foldLine numbers (foldText numbers text) line := by
  obtain ⟨parts, split⟩ := ended
  rw [foldText, splitOn_append_line split free, List.foldl_append, List.foldl_append, foldText, split, List.foldl_append]
  simp only [List.foldl_cons, List.foldl_nil, foldLine_nil]

/-- What is left of a line is folded as it stands. -/
theorem Ended.foldText_tail {tail : Utf16} (ended : Ended text) (free : newline ∉ tail) :
    foldText numbers (text ++ tail) = foldLine numbers (foldText numbers text) tail := by
  obtain ⟨parts, split⟩ := ended
  rw [foldText, splitOn_append split (List.splitOn_eq_singleton free), List.nil_append, List.foldl_append, foldText,
    split, List.foldl_append]
  simp only [List.foldl_cons, List.foldl_nil, foldLine_nil]

theorem foldText_nil : foldText numbers [] = ∅ := by
  rw [foldText, List.splitOn_nil, List.foldl_cons, List.foldl_nil, foldLine_nil]

end Lines

/-- The file holds whole lines, and behind them a line that is cut off. -/
structure Shape (file : List UInt8) (text : Utf16) (cut : List UInt8) : Prop where
  bytes : file = Utf8.write text ++ cut
  clean : Utf16.Clean text
  ended : Ended text
  torn : cut = [] ∨ Utf8.decode cut ≠ [] ∧ newline ∉ Utf8.decode cut

variable {file cut : List UInt8} {text : Utf16}

theorem Shape.decoded (shape : Shape file text cut) : Utf8.decode file = text ++ Utf8.decode cut := by
  rw [shape.bytes, Utf8.decode_write_append shape.clean]

theorem Shape.text_of_whole (shape : Shape file text []) : Utf8.decode file = text := by
  rw [shape.decoded, show Utf8.decode [] = [] from rfl, List.append_nil]

theorem Shape.fold (numbers : Numbers) (shape : Shape file text cut) :
    foldText numbers (Utf8.decode file) = foldLine numbers (foldText numbers text) (Utf8.decode cut) := by
  rw [shape.decoded]
  rcases shape.torn with rfl | ⟨-, free⟩
  · rw [show Utf8.decode [] = [] from rfl, List.append_nil, foldLine_nil]
  · exact shape.ended.foldText_tail numbers free

/-- Nothing is torn off a file that ends whole. -/
theorem Shape.whole (shape : Shape file text cut) (whole : endsWhole file = true) : cut = [] := by
  rcases shape.torn with none | ⟨filled, free⟩
  · exact none
  · rw [endsWhole, shape.decoded, List.getLast?_append_of_ne_nil _ filled, List.getLast?_eq_some_getLast filled] at whole
    have last : (Utf8.decode cut).getLast filled = newline := by simpa using whole
    exact absurd (last ▸ List.getLast_mem filled) free

theorem Shape.nil : Shape [] [] [] := ⟨rfl, .nil, .nil, .inl rfl⟩

/-- An append to whole lines leaves whole lines. -/
theorem Shape.append (shape : Shape file text []) (item : Fields) :
    Shape (appendBatchItem file item) (text ++ (lineOf (item.delete inputKey) ++ [newline])) [] where
  bytes := by
    rw [appendBatchItem, shape.bytes, List.append_nil, List.append_nil,
      Utf8.write_append shape.clean (clean_append_newline (clean_lineOf _))]
  clean := shape.clean.append (clean_append_newline (clean_lineOf _))
  ended := shape.ended.line (newline_not_mem_lineOf _)
  torn := .inl rfl

def wholeText (items : List Fields) : Utf16 := items.flatMap fun item => lineOf item ++ [newline]

theorem writeBatchItems_eq (items : List Fields) : writeBatchItems items = Utf8.write (wholeText items) := by
  have joined : ∀ item rest, [newline].intercalate ((item :: rest).map lineOf) ++ [newline] =
      wholeText (item :: rest) := by
    intro item rest
    induction rest generalizing item with
    | nil => simp [wholeText]
    | cons next rest ih =>
        rw [List.map_cons, List.map_cons, List.intercalate_cons_cons, List.append_assoc, List.append_assoc,
          ← List.map_cons, ih next]
        simp [wholeText]
  cases items with
  | nil => rfl
  | cons item rest =>
      have filled : 0 < ([newline].intercalate ((item :: rest).map lineOf)).length := by
        have first := List.length_pos_iff.mpr (lineOf_ne_nil item)
        cases rest with
        | nil => simpa using first
        | cons next rest =>
            rw [List.map_cons, List.map_cons, List.intercalate_cons_cons]
            simp only [List.length_append]
            omega
      rw [writeBatchItems, if_pos filled, joined]

theorem wholeText_concat (items : List Fields) (item : Fields) :
    wholeText (items ++ [item]) = wholeText items ++ (lineOf item ++ [newline]) := by
  rw [wholeText, List.flatMap_append, List.flatMap_singleton, wholeText]

theorem shape_writeBatchItems (items : List Fields) : Shape (writeBatchItems items) (wholeText items) [] where
  bytes := by rw [writeBatchItems_eq, List.append_nil]
  clean := by
    induction items using List.reverseRecOn with
    | nil => exact .nil
    | append_singleton items item ih =>
        rw [wholeText_concat]
        exact ih.append (clean_append_newline (clean_lineOf item))
  ended := by
    induction items using List.reverseRecOn with
    | nil => exact .nil
    | append_singleton items item ih =>
        rw [wholeText_concat]
        exact ih.line (newline_not_mem_lineOf item)
  torn := .inl rfl

end NimbleBrain.Tasks.ItemLog

/- The lines of a batch fold to one item for each index. A line that is cut off changes no item. -/

namespace NimbleBrain.Tasks.ItemLog

open Engine Library

section Items

/-- Equal as objects: the order of the keys does not count. -/
def Same (first second : Fields) : Prop := ∀ key, first.get? key = second.get? key

/-- What the driver writes for an index. -/
structure IsItem (numbers : Numbers) (index : Nat) (item : Fields) : Prop where
  indexed : item.get? indexKey = some (.number (natural index))
  given : (item.get? inputKey).isSome = true
  readable : (Json.object item.entries).Readable numbers.read

def Numbered (numbers : Numbers) (items : List Fields) : Prop :=
  ∀ index item, items[index]? = some item → IsItem numbers index item

variable {numbers : Numbers} {index : Nat} {item other : Fields}

theorem Same.refl (item : Fields) : Same item item := fun _ => rfl

theorem Same.symm (same : Same item other) : Same other item := fun key => (same key).symm

theorem Same.trans {third : Fields} (same : Same item other) (same' : Same other third) : Same item third :=
  fun key => (same key).trans (same' key)

/-- Some of the properties of an object are read back as all of them are. -/
theorem readable_of_subset (readable : (Json.object item.entries).Readable numbers.read)
    (inside : ∀ key value, other.get? key = some value → item.get? key = some value) :
    (Json.object other.entries).Readable numbers.read := by
  cases readable with
  | object keys each =>
      refine .object other.distinct fun entry member => each entry ?_
      exact OrderedMap.get?_eq_some_iff.mp (inside _ _ (OrderedMap.get?_eq_some_iff.mpr member))

theorem IsItem.of_same (isItem : IsItem numbers index item) (same : Same other item) :
    IsItem numbers index other where
  indexed := (same indexKey).trans isItem.indexed
  given := (same inputKey).symm ▸ isItem.given
  readable := readable_of_subset isItem.readable fun key _ found => (same key).symm.trans found

theorem inputKey_ne_indexKey : indexKey ≠ inputKey := by decide

theorem IsItem.readable_delete (isItem : IsItem numbers index item) :
    (Json.object (item.delete inputKey).entries).Readable numbers.read := by
  refine readable_of_subset isItem.readable fun key _ found => ?_
  rw [OrderedMap.get?_delete] at found
  split at found
  · exact nomatch found
  · exact found

theorem IsItem.placeOf (isItem : IsItem numbers index item) (bounded : index < maxBatchItems) :
    placeOf numbers item = index := by
  rw [ItemLog.placeOf, indexOf?, isItem.indexed]
  exact numbers.counts index bounded

end Items

section Fold

variable {numbers : Numbers} {index : Nat} {item base : Fields} {byIndex : OrderedMap JsonNumber Fields}

/-- A line that was written is folded by what was written. -/
theorem foldLine_lineOf (readable : (Json.object item.entries).Readable numbers.read) :
    foldLine numbers byIndex (lineOf item) = foldParsed byIndex item := by
  have same : fieldsOf item.entries = item := OrderedMap.ext (fieldsOf_entries item.distinct)
  rw [foldLine, if_neg (lineOf_ne_nil item), lineOf, jsonParse_stringify readable]
  dsimp only
  rw [same]

/-- A whole item takes the place of its index. -/
theorem foldLine_whole (isItem : IsItem numbers index item) :
    foldLine numbers byIndex (lineOf item) = byIndex.set (natural index) item := by
  obtain ⟨input, given⟩ := Option.isSome_iff_exists.mp isItem.given
  rw [foldLine_lineOf isItem.readable, foldParsed, indexOf?, isItem.indexed]
  dsimp only
  rw [given]
  dsimp only
  rw [OrderedMap.set_get? given]

/-- An appended state takes the place of its index, with the input that was there. -/
theorem foldLine_state (isItem : IsItem numbers index item) (found : byIndex.get? (natural index) = some base)
    (sameInput : base.get? inputKey = item.get? inputKey) :
    ∃ folded, foldLine numbers byIndex (lineOf (item.delete inputKey)) = byIndex.set (natural index) folded ∧
      Same folded item := by
  obtain ⟨input, given⟩ := Option.isSome_iff_exists.mp isItem.given
  refine ⟨(item.delete inputKey).set inputKey input, ?_, fun key => ?_⟩
  · rw [foldLine_lineOf isItem.readable_delete, foldParsed, indexOf?, OrderedMap.get?_delete,
      if_neg inputKey_ne_indexKey, isItem.indexed]
    dsimp only
    rw [OrderedMap.get?_delete, if_pos rfl]
    dsimp only
    rw [found]
    dsimp only
    rw [sameInput, given]
    rfl
  · rw [OrderedMap.get?_set]
    split
    · next same => rw [same, given]
    · next different => rw [OrderedMap.get?_delete, if_neg different]

/-- A line that is cut off is no item. -/
theorem foldLine_torn (readable : (Json.object item.entries).Readable numbers.read) {count : Nat}
    (cut : count < (Utf8.write (lineOf item)).length) :
    foldLine numbers byIndex (Utf8.decode ((Utf8.write (lineOf item)).take count)) = byIndex ∧
      newline ∉ Utf8.decode ((Utf8.write (lineOf item)).take count) := by
  obtain ⟨front, behind, whole, filled, shown⟩ := Utf8.decode_take_write (clean_lineOf item) cut
  have free : newline ∉ front := by
    have printed := newline_not_mem_lineOf item
    rw [whole] at printed
    exact fun member => printed (List.mem_append_left _ member)
  rcases shown with shown | shown
  · rw [shown]
    exact ⟨by rw [foldLine, jsonParse_torn readable whole filled, ite_self], free⟩
  · rw [shown]
    refine ⟨by rw [foldLine, jsonParse_foreign (by decide), ite_self], fun member => ?_⟩
    rcases List.mem_append.mp member with member | member
    · exact free member
    · exact absurd (List.mem_singleton.mp member) (by decide)

end Fold

/-- The folded lines are the items under their indices, in order. -/
def Holds (byIndex : OrderedMap JsonNumber Fields) (items : List Fields) : Prop :=
  byIndex.entries = items.mapIdx fun index item => (natural index, item)

variable {numbers : Numbers} {byIndex : OrderedMap JsonNumber Fields} {items : List Fields} {index : Nat}

theorem Holds.empty : Holds ∅ [] := rfl

theorem Holds.get? (holds : Holds byIndex items) (index : Nat) : byIndex.get? (natural index) = items[index]? := by
  apply Option.ext
  intro item
  rw [OrderedMap.get?_eq_some_iff, holds, List.mem_mapIdx]
  constructor
  · rintro ⟨place, bound, same⟩
    obtain ⟨index', rfl⟩ := Prod.mk.inj same
    obtain rfl := natural_inj index'
    exact List.getElem?_eq_getElem bound
  · intro found
    obtain ⟨bound, rfl⟩ := List.getElem?_eq_some_iff.mp found
    exact ⟨index, bound, rfl⟩

theorem Holds.set (holds : Holds byIndex items) (bound : index < items.length) (item : Fields) :
    Holds (byIndex.set (natural index) item) (items.set index item) := by
  have place : byIndex.entries[index]? = some (natural index, items[index]) := by
    rw [holds, List.getElem?_mapIdx, List.getElem?_eq_getElem bound, Option.map_some]
  have replaced := OrderedMap.setEntry_of_getElem? byIndex.distinct place item
  rw [Holds, List.mapIdx_set, ← holds]
  exact replaced

theorem Holds.concat (holds : Holds byIndex items) (item : Fields) :
    Holds (byIndex.set (natural items.length) item) (items ++ [item]) := by
  have fresh : natural items.length ∉ byIndex.entries.map Prod.fst := by
    intro member
    rw [← OrderedMap.isSome_get?_iff, holds.get?, List.getElem?_eq_none le_rfl] at member
    exact nomatch member
  rw [Holds, List.mapIdx_concat, ← holds]
  exact OrderedMap.setEntry_fresh fresh item

theorem Holds.values (holds : Holds byIndex items) : byIndex.values = items := by
  rw [OrderedMap.values, holds]
  apply List.ext_getElem?
  intro index
  rw [List.getElem?_map, List.getElem?_mapIdx, Option.map_map]
  exact Option.map_id'

theorem Holds.inj {other : OrderedMap JsonNumber Fields} (holds : Holds byIndex items) (holds' : Holds other items) :
    byIndex = other := OrderedMap.ext (holds.trans holds'.symm)

/-- Items in their order are left in it. -/
theorem Holds.sorted (holds : Holds byIndex items) (numbered : Numbered numbers items)
    (bounded : items.length ≤ maxBatchItems) :
    (byIndex.values.insertionSort fun first second => placeOf numbers first ≤ placeOf numbers second) = items := by
  rw [holds.values]
  apply List.Pairwise.insertionSort_eq
  rw [List.pairwise_iff_getElem]
  intro first second bound bound' before
  rw [(numbered first _ (List.getElem?_eq_getElem bound)).placeOf (by omega),
    (numbered second _ (List.getElem?_eq_getElem bound')).placeOf (by omega)]
  exact_mod_cast before.le

theorem Numbered.append {item : Fields} (numbered : Numbered numbers (items ++ [item])) :
    Numbered numbers items ∧ IsItem numbers items.length item := by
  refine ⟨fun index other found => numbered index other ?_, numbered _ _ List.getElem?_concat_length⟩
  obtain ⟨bound, -⟩ := List.getElem?_eq_some_iff.mp found
  rw [List.getElem?_append_left bound, found]

/-- What is written whole is folded to the items. -/
theorem Numbered.holds (numbered : Numbered numbers items) : Holds (foldText numbers (wholeText items)) items := by
  induction items using List.reverseRecOn with
  | nil =>
      rw [wholeText, List.flatMap_nil, foldText_nil]
      exact .empty
  | append_singleton items item ih =>
      obtain ⟨earlier, own⟩ := numbered.append
      rw [wholeText_concat, (shape_writeBatchItems items).ended.foldText_line numbers (newline_not_mem_lineOf item),
        foldLine_whole own]
      exact (ih earlier).concat item

end NimbleBrain.Tasks.ItemLog
