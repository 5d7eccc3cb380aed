import NimbleBrain.Tasks.ItemLogReads

/- The log of a batch agrees with what was written, as long as no change is appended behind a line that is torn. -/

namespace NimbleBrain.Tasks.ItemLog

open Engine Library

section Agreement

/-- The items agree index by index. -/
structure SameItems (first second : List Fields) : Prop where
  length : first.length = second.length
  each : ∀ (index : Nat) (item other : Fields), first[index]? = some item → second[index]? = some other → Same item other

/-- One item for each index, in order, with the input that it was given. -/
structure ItemsOf (numbers : Numbers) (inputs : List Json) (items : List Fields) : Prop where
  length : items.length = inputs.length
  numbered : Numbered numbers items
  inputs : ∀ (index : Nat) (item : Fields), items[index]? = some item → item.get? inputKey = inputs[index]?

/-- What is read is what was written last, in memory and on disk, and a compaction changes nothing about it. -/
structure Agrees (numbers : Numbers) (world : World) : Prop where
  read : ItemsOf numbers world.inputs (readBatchItems numbers world.file)
  written : SameItems (readBatchItems numbers world.file) world.written
  memory : ∀ live ∈ world.live, SameItems live.items world.written
  compacted : ∀ changes : List Fields, changes = [] ∨ endsWhole world.file = true →
    readBatchItems numbers (changes.foldl appendBatchItem (compactBatchItems numbers world.file).1) =
      readBatchItems numbers (changes.foldl appendBatchItem world.file)

def Action.appends {numbers : Numbers} : Action numbers → Bool
  | .setItem _ => true
  | _ => false

/-- No change is appended behind a line that is torn. -/
def AppendsWhole (numbers : Numbers) : System.Guard World (Action numbers) := fun world action =>
  action.appends = true → endsWhole world.file = true

instance (numbers : Numbers) (world : World) (action : Action numbers) : Decidable (AppendsWhole numbers world action) :=
  inferInstanceAs (Decidable (_ → _))

variable {numbers : Numbers} {inputs : List Json} {items others : List Fields} {file : List UInt8}

theorem SameItems.refl (items : List Fields) : SameItems items items := by
  refine ⟨rfl, fun index item other found found' => ?_⟩
  obtain rfl := Option.some.inj (found.symm.trans found')
  exact .refl item

theorem SameItems.symm (same : SameItems items others) : SameItems others items :=
  ⟨same.length.symm, fun index item other found found' => (same.each index other item found' found).symm⟩

variable {index : Nat} {item : Fields}

theorem SameItems.get (same : SameItems items others) (found : items[index]? = some item) :
    ∃ other, others[index]? = some other ∧ Same item other := by
  obtain ⟨bound, -⟩ := List.getElem?_eq_some_iff.mp found
  have bound' : index < others.length := same.length ▸ bound
  have found' : others[index]? = some others[index] := List.getElem?_eq_getElem bound'
  exact ⟨_, found', same.each index item _ found found'⟩

theorem SameItems.trans {third : List Fields} (same : SameItems items others) (same' : SameItems others third) :
    SameItems items third := by
  refine ⟨same.length.trans same'.length, fun index item last found found' => ?_⟩
  obtain ⟨other, between, first⟩ := same.get found
  exact first.trans (same'.each index other last between found')

theorem SameItems.set (same : SameItems items others) {other : Fields} (new : Same item other) :
    SameItems (items.set index item) (others.set index other) := by
  refine ⟨by rw [List.length_set, List.length_set, same.length], fun place first second found found' => ?_⟩
  rw [List.getElem?_set] at found found'
  split at found
  · next here =>
      rw [if_pos here] at found'
      split at found
      · next bound =>
          rw [if_pos (same.length ▸ bound)] at found'
          rw [← Option.some.inj found, ← Option.some.inj found']
          exact new
      · exact nomatch found
  · next there =>
      rw [if_neg there] at found'
      exact same.each place first second found found'

theorem ItemsOf.of_same (itemsOf : ItemsOf numbers inputs others) (same : SameItems items others) :
    ItemsOf numbers inputs items where
  length := same.length.trans itemsOf.length
  numbered := by
    intro index item found
    obtain ⟨other, found', same⟩ := same.get found
    exact (itemsOf.numbered index other found').of_same same
  inputs := by
    intro index item found
    obtain ⟨other, found', same⟩ := same.get found
    exact (same inputKey).trans (itemsOf.inputs index other found')

theorem ItemsOf.set (itemsOf : ItemsOf numbers inputs items) (isItem : IsItem numbers index item)
    (given : item.get? inputKey = inputs[index]?) :
    ItemsOf numbers inputs (items.set index item) where
  length := by rw [List.length_set, itemsOf.length]
  numbered := by
    intro place other found
    rw [List.getElem?_set] at found
    split at found
    · next here =>
        split at found
        · rw [← Option.some.inj found, ← here]
          exact isItem
        · exact nomatch found
    · exact itemsOf.numbered place other found
  inputs := by
    intro place other found
    rw [List.getElem?_set] at found
    split at found
    · next here =>
        split at found
        · rw [← Option.some.inj found, ← here]
          exact given
        · exact nomatch found
    · exact itemsOf.inputs place other found

end Agreement

section Logs

/-- The file folds to the items that were written. -/
def Logs (numbers : Numbers) (file : List UInt8) (written : List Fields) : Prop :=
  ∃ text cut held, Shape file text cut ∧ Holds (foldText numbers (Utf8.decode file)) held ∧ SameItems held written

variable {numbers : Numbers} {inputs : List Json} {written items : List Fields} {file : List UInt8}

theorem logs_nil : Logs numbers [] [] :=
  ⟨[], [], [], .nil, foldText_nil numbers ▸ .empty, .refl []⟩

theorem logs_writeBatchItems (numbered : Numbered numbers items) : Logs numbers (writeBatchItems items) items := by
  have shape := shape_writeBatchItems items
  exact ⟨_, _, items, shape, shape.text_of_whole ▸ numbered.holds, .refl items⟩

/-- What is read is what the lines fold to. -/
theorem Logs.read (logs : Logs numbers file written) (itemsOf : ItemsOf numbers inputs written)
    (bounded : inputs.length ≤ maxBatchItems) :
    Holds (foldText numbers (Utf8.decode file)) (readBatchItems numbers file) ∧
      SameItems (readBatchItems numbers file) written := by
  obtain ⟨text, cut, held, -, holds, same⟩ := logs
  have own := itemsOf.of_same same
  have read : readBatchItems numbers file = held := holds.sorted own.numbered (own.length ▸ bounded)
  exact ⟨read ▸ holds, read ▸ same⟩

variable {index : Nat} {item prev : Fields}

/-- An appended change is read, with the input that its item was given. -/
theorem Logs.append (logs : Logs numbers file written) (whole : endsWhole file = true)
    (isItem : IsItem numbers index item) (found : written[index]? = some prev)
    (given : prev.get? inputKey = item.get? inputKey) :
    Logs numbers (appendBatchItem file item) (written.set index item) := by
  obtain ⟨text, cut, held, shape, holds, same⟩ := logs
  obtain rfl := shape.whole whole
  obtain ⟨base, found', same'⟩ := same.symm.get found
  have place := (holds.get? index).trans found'
  rw [shape.text_of_whole] at place holds
  obtain ⟨folded, fold, like⟩ := foldLine_state isItem place ((same' inputKey).symm.trans given)
  refine ⟨_, _, held.set index folded, shape.append item, ?_, same.set like⟩
  rw [(shape.append item).text_of_whole, shape.ended.foldText_line numbers (newline_not_mem_lineOf _), fold]
  exact holds.set (List.getElem?_eq_some_iff.mp found').1 folded

/-- A change that is cut off leaves the items as they were. -/
theorem Logs.torn (logs : Logs numbers file written) (whole : endsWhole file = true)
    (isItem : IsItem numbers index item) {count : Nat}
    (cut : count < (Utf8.write (lineOf (item.delete inputKey))).length) :
    Logs numbers (file ++ (Utf8.write (lineOf (item.delete inputKey))).take count) written := by
  obtain ⟨text, none, held, shape, holds, same⟩ := logs
  obtain rfl := shape.whole whole
  obtain ⟨skipped, free⟩ := @foldLine_torn numbers (item.delete inputKey) (foldText numbers text) isItem.readable_delete
    count cut
  have torn : Shape (file ++ (Utf8.write (lineOf (item.delete inputKey))).take count) text
      ((Utf8.write (lineOf (item.delete inputKey))).take count) := by
    refine ⟨by rw [shape.bytes, List.append_nil], shape.clean, shape.ended, ?_⟩
    by_cases empty : (Utf8.write (lineOf (item.delete inputKey))).take count = []
    · exact .inl empty
    · exact .inr ⟨Utf8.decode_ne_nil empty, free⟩
  refine ⟨_, _, held, torn, ?_, same⟩
  rw [torn.fold, skipped, ← shape.text_of_whole]
  exact holds

/-- A change without its line break is read. -/
theorem Logs.unbroken (logs : Logs numbers file written) (whole : endsWhole file = true)
    (isItem : IsItem numbers index item) (found : written[index]? = some prev)
    (given : prev.get? inputKey = item.get? inputKey) :
    Logs numbers (file ++ Utf8.write (lineOf (item.delete inputKey))) (written.set index item) := by
  obtain ⟨text, cut, held, shape, holds, same⟩ := logs
  obtain rfl := shape.whole whole
  obtain ⟨base, found', same'⟩ := same.symm.get found
  have place := (holds.get? index).trans found'
  rw [shape.text_of_whole] at place holds
  obtain ⟨folded, fold, like⟩ := foldLine_state isItem place ((same' inputKey).symm.trans given)
  have read : Utf8.decode (Utf8.write (lineOf (item.delete inputKey))) = lineOf (item.delete inputKey) := by
    have shown := Utf8.decode_write_append (clean_lineOf (item.delete inputKey)) []
    rwa [List.append_nil, show Utf8.decode [] = [] from rfl, List.append_nil] at shown
  have open' : Shape (file ++ Utf8.write (lineOf (item.delete inputKey))) text
      (Utf8.write (lineOf (item.delete inputKey))) := by
    refine ⟨by rw [shape.bytes, List.append_nil], shape.clean, shape.ended, .inr ?_⟩
    rw [read]
    exact ⟨lineOf_ne_nil _, newline_not_mem_lineOf _⟩
  refine ⟨_, _, held.set index folded, open', ?_, same.set like⟩
  rw [open'.fold, read, fold]
  exact holds.set (List.getElem?_eq_some_iff.mp found').1 folded

/-- Files that fold alike are read alike, whatever is appended to both. -/
theorem read_appended {other : List UInt8} {text text' : Utf16} (shape : Shape file text [])
    (shape' : Shape other text' []) (same : foldText numbers text = foldText numbers text') (changes : List Fields) :
    readBatchItems numbers (changes.foldl appendBatchItem file) =
      readBatchItems numbers (changes.foldl appendBatchItem other) := by
  induction changes generalizing file other text text' with
  | nil =>
      rw [List.foldl_nil, List.foldl_nil, readBatchItems, readBatchItems, shape.text_of_whole, shape'.text_of_whole,
        same]
  | cons change rest ih =>
      refine ih (shape.append change) (shape'.append change) ?_
      rw [shape.ended.foldText_line numbers (newline_not_mem_lineOf _),
        shape'.ended.foldText_line numbers (newline_not_mem_lineOf _), same]

/-- A compaction changes nothing about what is read later. -/
theorem Logs.compacted (logs : Logs numbers file written) (itemsOf : ItemsOf numbers inputs written)
    (bounded : inputs.length ≤ maxBatchItems) (changes : List Fields) (clear : changes = [] ∨ endsWhole file = true) :
    readBatchItems numbers (changes.foldl appendBatchItem (compactBatchItems numbers file).1) =
      readBatchItems numbers (changes.foldl appendBatchItem file) := by
  obtain ⟨holds, same⟩ := logs.read itemsOf bounded
  have shape := shape_writeBatchItems (readBatchItems numbers file)
  have folds : foldText numbers (wholeText (readBatchItems numbers file)) = foldText numbers (Utf8.decode file) :=
    (itemsOf.of_same same).numbered.holds.inj holds
  simp only [compactBatchItems]
  rcases clear with rfl | whole
  · rw [List.foldl_nil, List.foldl_nil, readBatchItems, shape.text_of_whole, folds, readBatchItems]
  · obtain ⟨text, cut, held, shape', -, -⟩ := logs
    obtain rfl := shape'.whole whole
    exact read_appended shape shape' (folds.trans (congrArg _ shape'.text_of_whole)) changes

end Logs

end NimbleBrain.Tasks.ItemLog

/- Every run that appends behind whole lines keeps the log of a batch and its items alike. -/

namespace NimbleBrain.Tasks.ItemLog

open Engine Library

section Sound

variable {numbers : Numbers} {world after : World}

/-- The last line is a change of an item, appended to a file that ended whole. -/
structure Appended.Sound (numbers : Numbers) (world : World) (appended : Appended) (index : Nat)
    (item prev : Fields) : Prop where
  isItem : IsItem numbers index item
  line : appended.line = lineOf (item.delete inputKey)
  whole : endsWhole appended.before = true
  logs : Logs numbers appended.before appended.previous
  items : ItemsOf numbers world.inputs appended.previous
  found : appended.previous[index]? = some prev
  given : prev.get? inputKey = item.get? inputKey
  file : world.file = appendBatchItem appended.before item
  written : world.written = appended.previous.set index item

/-- What holds in every state that is reached. -/
structure Sound (numbers : Numbers) (world : World) : Prop where
  bounded : world.inputs.length ≤ maxBatchItems
  items : ItemsOf numbers world.inputs world.written
  logs : Logs numbers world.file world.written
  memory : ∀ live ∈ world.live, SameItems live.items world.written
  last : ∀ appended ∈ world.last, ∃ index item prev, appended.Sound numbers world index item prev

theorem Sound.agrees (sound : Sound numbers world) : Agrees numbers world := by
  obtain ⟨-, same⟩ := sound.logs.read sound.items sound.bounded
  exact ⟨sound.items.of_same same, same, sound.memory, sound.logs.compacted sound.items sound.bounded⟩

theorem sound_initial : Sound numbers {} where
  bounded := Nat.zero_le _
  items := ⟨rfl, nofun, nofun⟩
  logs := logs_nil
  memory := nofun
  last := nofun

theorem get?_pendingItem (index : Nat) (input : Json) :
    (pendingItem index input).get? indexKey = some (.number (natural index)) ∧
      (pendingItem index input).get? inputKey = some input := by
  refine ⟨rfl, ?_⟩
  rw [pendingItem, OrderedMap.get?_set, if_neg (by decide), OrderedMap.get?_set_self]

variable {index : Nat} {inputs : List Json} {items : List Fields}

theorem isItem_pendingItem {input : Json} (bounded : index < maxBatchItems) (readable : input.Readable numbers.read) :
    IsItem numbers index (pendingItem index input) where
  indexed := (get?_pendingItem index input).1
  given := by rw [(get?_pendingItem index input).2, Option.isSome_some]
  readable := by
    refine .object (pendingItem index input).distinct fun entry member => ?_
    have listed : entry ∈ [(indexKey, Json.number (natural index)), (inputKey, input),
        (stateKey, .string (Utf16.ofString "pending"))] := member
    simp only [List.mem_cons, List.not_mem_nil, or_false] at listed
    rcases listed with rfl | rfl | rfl
    · exact .number (isNumberText_decimal index) (numbers.reads index bounded)
    · exact readable
    · exact .string _

theorem itemsOf_pending (bounded : inputs.length ≤ maxBatchItems)
    (readable : ∀ input ∈ inputs, input.Readable numbers.read) :
    ItemsOf numbers inputs (inputs.mapIdx pendingItem) where
  length := List.length_mapIdx
  numbered := by
    intro index item found
    rw [List.getElem?_mapIdx, Option.map_eq_some_iff] at found
    obtain ⟨input, listed, rfl⟩ := found
    obtain ⟨inside, -⟩ := List.getElem?_eq_some_iff.mp listed
    exact isItem_pendingItem (by omega) (readable input (List.mem_of_getElem? listed))
  inputs := by
    intro index item found
    rw [List.getElem?_mapIdx, Option.map_eq_some_iff] at found
    obtain ⟨input, listed, rfl⟩ := found
    rw [(get?_pendingItem index input).2, listed]

theorem Sound.create {saved : Bool} (readable : ∀ input ∈ inputs, input.Readable numbers.read)
    (stepped : world.create inputs saved = some after) : Sound numbers after := by
  rw [World.create] at stepped
  split at stepped
  · next fresh =>
      simp only [Bool.and_eq_true, decide_eq_true_eq] at fresh
      have items := itemsOf_pending fresh.2 readable
      cases saved with
      | true =>
          obtain rfl := Option.some.inj stepped
          exact ⟨fresh.2, items, logs_writeBatchItems items.numbered,
            fun live held => Option.some.inj held ▸ .refl _, nofun⟩
      | false =>
          obtain rfl := Option.some.inj stepped
          have absent : world.live = none := Option.isNone_iff_eq_none.mp fresh.1.1.1.2
          refine ⟨fresh.2, items, logs_writeBatchItems items.numbered, fun live held => ?_, nofun⟩
          exact nomatch absent.symm.trans held
  · exact nomatch stepped

/-- An input that is written alike is the same input. -/
theorem get?_of_sameInput {first second : Fields} {index' : Nat} (isItem : IsItem numbers index first)
    (isItem' : IsItem numbers index' second) (same : sameInput first second = true) :
    first.get? inputKey = second.get? inputKey := by
  have inside : ∀ {item : Fields} {place : Nat} {input : Json}, IsItem numbers place item →
      item.get? inputKey = some input → jsonParse numbers.read (stringify input) = some input := by
    intro item place input isItem given
    cases isItem.readable with
    | object _ each => exact jsonParse_stringify (each _ (OrderedMap.get?_eq_some_iff.mp given))
  obtain ⟨input, given⟩ := Option.isSome_iff_exists.mp isItem.given
  obtain ⟨input', given'⟩ := Option.isSome_iff_exists.mp isItem'.given
  rw [sameInput, given, given', Option.map_some, Option.map_some, decide_eq_true_eq] at same
  have read := inside isItem given
  rw [Option.some.inj same, inside isItem' given'] at read
  rw [given, given', read]

theorem Item.isItem (next : Item numbers) : IsItem numbers next.index next.fields :=
  ⟨next.indexed, next.given, next.readable⟩

theorem Sound.setItem (sound : Sound numbers world) (whole : endsWhole world.file = true) {next : Item numbers}
    (stepped : world.setItem next = some after) : Sound numbers after := by
  obtain ⟨live, held, stepped⟩ := Option.bind_eq_some_iff.mp stepped
  have same := sound.memory live held
  cases found : live.items[next.index]? with
  | none =>
      rw [found] at stepped
      exact Option.some.inj stepped ▸ sound
  | some prev =>
      rw [found] at stepped
      dsimp only at stepped
      split at stepped
      · next kept =>
          obtain rfl := Option.some.inj stepped
          obtain ⟨prev', found', like⟩ := same.get found
          have isPrev := (sound.items.numbered next.index prev' found').of_same like
          have given : prev'.get? inputKey = next.fields.get? inputKey :=
            (like inputKey).symm.trans (get?_of_sameInput isPrev next.isItem kept)
          have items : ItemsOf numbers world.inputs (world.written.set next.index next.fields) :=
            sound.items.set next.isItem (given.symm.trans (sound.items.inputs next.index prev' found'))
          refine ⟨sound.bounded, items, sound.logs.append whole next.isItem found' given, ?_, ?_⟩
          · intro live' held'
            exact Option.some.inj held' ▸ same.set (.refl _)
          · intro appended last
            obtain rfl := Option.some.inj last
            exact ⟨next.index, next.fields, prev', next.isItem, rfl, whole, sound.logs, sound.items, found', given,
              rfl, rfl⟩
      · exact nomatch stepped

/-- A live batch that is changed outside its items keeps what was written. -/
theorem Sound.of_memory (sound : Sound numbers world) (file : after.file = world.file)
    (inputs : after.inputs = world.inputs) (written : after.written = world.written)
    (last : after.last = world.last) (memory : ∀ live ∈ after.live, SameItems live.items world.written) :
    Sound numbers after where
  bounded := inputs ▸ sound.bounded
  items := inputs ▸ written ▸ sound.items
  logs := file ▸ written ▸ sound.logs
  memory := written ▸ memory
  last := by
    intro appended held
    obtain ⟨index, item, prev, own⟩ := sound.last appended (last ▸ held)
    exact ⟨index, item, prev, own.isItem, own.line, own.whole, own.logs, inputs ▸ own.items, own.found, own.given,
      file ▸ own.file, written ▸ own.written⟩

/-- Items that are written whole are what is read from then on. -/
theorem Sound.rewritten (sound : Sound numbers world) (itemsOf : ItemsOf numbers world.inputs items)
    (file : after.file = writeBatchItems items) (inputs : after.inputs = world.inputs)
    (written : SameItems items after.written) (last : after.last = none)
    (memory : ∀ live ∈ after.live, SameItems live.items after.written) : Sound numbers after where
  bounded := inputs ▸ sound.bounded
  items := inputs ▸ itemsOf.of_same written.symm
  logs := by
    obtain ⟨text, cut, held, shape, holds, same⟩ := logs_writeBatchItems itemsOf.numbered
    rw [file]
    exact ⟨text, cut, held, shape, holds, same.trans written⟩
  memory := memory
  last := by rw [last]; exact nofun

theorem Sound.complete (sound : Sound numbers world) (stepped : world.complete = some after) :
    Sound numbers after := by
  obtain ⟨live, held, rfl⟩ := Option.map_eq_some_iff.mp stepped
  refine sound.rewritten (sound.items.of_same (sound.memory live held)) rfl rfl (.refl _) rfl fun live' held' => ?_
  exact Option.some.inj held' ▸ .refl _

theorem Sound.load (sound : Sound numbers world) (stepped : world.load numbers = some after) :
    Sound numbers after := by
  rw [World.load] at stepped
  split at stepped
  · obtain ⟨stored, -, rfl⟩ := Option.map_eq_some_iff.mp stepped
    refine sound.of_memory rfl rfl rfl rfl fun live held => ?_
    exact Option.some.inj held ▸ (sound.logs.read sound.items sound.bounded).2
  · exact nomatch stepped

theorem crash_of_last {appended : Appended} (last : world.last = some appended) (count : Nat) :
    world.crash (some count) =
      { world with
        file := appended.before ++ (Utf8.write (appended.line ++ [newline])).take count
        live := none
        booted := false
        written := if count < (Utf8.write appended.line).length then appended.previous else world.written
        last := none } := by
  simp only [World.crash, last]

theorem crash_of_none (last : world.last = none) (kept : Option Nat) :
    world.crash kept = { world with live := none, booted := false, last := none } := by
  cases kept <;> simp only [World.crash, last]

theorem Sound.crash (sound : Sound numbers world) (kept : Option Nat) : Sound numbers (world.crash kept) := by
  have stopped : Sound numbers { world with live := none, booted := false, last := none } :=
    ⟨sound.bounded, sound.items, sound.logs, nofun, nofun⟩
  cases kept with
  | none => exact stopped
  | some count =>
      cases last : world.last with
      | none =>
          rw [crash_of_none last]
          exact stopped
      | some appended =>
          obtain ⟨index, item, prev, own⟩ := sound.last appended last
          have broken : Utf8.write (appended.line ++ [newline]) = Utf8.write appended.line ++ Utf8.write [newline] := by
            rw [own.line]
            exact Utf8.write_append (clean_lineOf _) (.of_all (by decide))
          rw [crash_of_last last, broken, List.take_append]
          by_cases torn : count < (Utf8.write appended.line).length
          · rw [if_pos torn, Nat.sub_eq_zero_of_le torn.le, List.take_zero, List.append_nil]
            refine ⟨sound.bounded, own.items, ?_, nofun, nofun⟩
            rw [own.line] at torn ⊢
            exact own.logs.torn own.whole own.isItem torn
          · rw [if_neg torn, List.take_of_length_le (Nat.not_lt.mp torn)]
            refine ⟨sound.bounded, sound.items, ?_, nofun, nofun⟩
            have one : Utf8.write [newline] = [10] := by decide +kernel
            by_cases exact' : count = (Utf8.write appended.line).length
            · rw [exact', Nat.sub_self, List.take_zero, List.append_nil, own.line, own.written]
              exact own.logs.unbroken own.whole own.isItem own.found own.given
            · have all : (Utf8.write [newline]).take (count - (Utf8.write appended.line).length) =
                  Utf8.write [newline] := by
                rw [List.take_of_length_le]
                rw [one, List.length_singleton]
                omega
              have same : world.file = appended.before ++
                  Utf8.write (lineOf (item.delete inputKey) ++ [newline]) := own.file
              rw [all, ← broken, own.line]
              exact same ▸ sound.logs

theorem itemsOf_settleLost (itemsOf : ItemsOf numbers inputs items) (settled : List (Item numbers)) :
    ItemsOf numbers inputs (settled.foldl settleLost items) := by
  induction settled generalizing items with
  | nil => exact itemsOf
  | cons next rest ih =>
      refine ih ?_
      rw [settleLost]
      split
      · next item found =>
          split
          · next replaced =>
              have kept := (Bool.and_eq_true_iff.mp replaced).2
              have given := get?_of_sameInput (itemsOf.numbered next.index item found) next.isItem kept
              exact itemsOf.set next.isItem (given.symm.trans (itemsOf.inputs next.index item found))
          · exact itemsOf
      · exact itemsOf

/-- An item that does not wait is not settled. -/
theorem settleLost_of_none_waiting (none : items.any isWaiting = false) (settled : List (Item numbers)) :
    settled.foldl settleLost items = items := by
  induction settled with
  | nil => rfl
  | cons next rest ih =>
      have kept : settleLost items next = items := by
        rw [settleLost]
        split
        · next item found =>
            have idle := List.any_eq_false.mp none item (List.mem_of_getElem? found)
            rw [Bool.not_eq_true] at idle
            rw [idle, Bool.false_and]
            exact if_neg Bool.false_ne_true
        · rfl
      rw [List.foldl_cons, kept, ih]

theorem Sound.start (sound : Sound numbers world) {settled : List (Item numbers)}
    (stepped : world.start settled = some after) : Sound numbers after := by
  have read := sound.items.of_same (sound.logs.read sound.items sound.bounded).2
  have items := itemsOf_settleLost read settled
  simp only [World.start, compactBatchItems] at stepped
  split at stepped
  · exact nomatch stepped
  · next away =>
      split at stepped
      · obtain rfl := Option.some.inj stepped
        exact sound.of_memory rfl rfl rfl rfl sound.memory
      · next stored _ =>
          split at stepped
          · obtain rfl := Option.some.inj stepped
            refine sound.rewritten items ?_ rfl (.refl _) rfl fun live held => Option.some.inj held ▸ .refl _
            by_cases waiting : (readBatchItems numbers world.file).any isWaiting = true
            · exact if_pos waiting
            · rw [settleLost_of_none_waiting (Bool.eq_false_iff.mpr waiting) settled]
              exact ite_self _
          · obtain rfl := Option.some.inj stepped
            exact sound.of_memory rfl rfl rfl rfl sound.memory

theorem Sound.startCut (sound : Sound numbers world) (stepped : world.startCut numbers = some after) :
    Sound numbers after := by
  have same := (sound.logs.read sound.items sound.bounded).2
  simp only [World.startCut, compactBatchItems] at stepped
  split at stepped
  · exact nomatch stepped
  · split at stepped
    · exact nomatch stepped
    · split at stepped
      · obtain rfl := Option.some.inj stepped
        exact sound.rewritten (sound.items.of_same same) (by dsimp only) rfl same rfl sound.memory
      · exact nomatch stepped

end Sound

variable {numbers : Numbers}

theorem Sound.step {world after : World} {action : Action numbers} (sound : Sound numbers world)
    (met : AppendsWhole numbers world action) (stepped : (system numbers).step world action = some after) :
    Sound numbers after := by
  cases action with
  | create inputs readable saved => exact .create readable stepped
  | setItem next => exact sound.setItem (met rfl) stepped
  | become state =>
      obtain ⟨live, held, rfl⟩ := Option.map_eq_some_iff.mp stepped
      exact sound.of_memory rfl rfl rfl rfl fun live' held' => Option.some.inj held' ▸ sound.memory live held
  | persistBatch =>
      obtain ⟨live, held, rfl⟩ := Option.map_eq_some_iff.mp stepped
      exact sound.of_memory rfl rfl rfl rfl sound.memory
  | complete => exact sound.complete stepped
  | settleIdle =>
      obtain ⟨live, held, stepped⟩ := Option.bind_eq_some_iff.mp stepped
      split at stepped
      · exact nomatch stepped
      · obtain rfl := Option.some.inj stepped
        exact sound.of_memory rfl rfl rfl rfl nofun
  | load => exact sound.load stepped
  | crash kept => exact Option.some.inj stepped ▸ sound.crash kept
  | start settled => exact sound.start stepped
  | startCut => exact sound.startCut stepped

/-- The log of a batch agrees with its items as long as no change is appended behind a line that is torn. -/
theorem agrees_of_reachedBy {world : World} (reached : (system numbers).ReachedBy (AppendsWhole numbers) world) :
    Agrees numbers world :=
  (reached.invariant (Sound numbers)
    (fun world first => by
      obtain rfl : world = {} := first
      exact sound_initial)
    fun _ _ _ sound met stepped => sound.step met stepped).agrees

/-- Numbers that are read as they are written. -/
theorem some_of_numeric {text : Utf16} (numeric : text ≠ [] ∧ text.all isNumeric = true) : text ≠ [] := numeric.1

theorem numeric_of_all {text : Utf16} (numeric : text ≠ [] ∧ text.all isNumeric = true) :
    ∀ unit ∈ text, isNumeric unit = true := List.all_eq_true.mp numeric.2

def sampleRead (text : Utf16) : JsonNumber :=
  if numeric : text ≠ [] ∧ text.all isNumeric = true then ⟨text, some_of_numeric numeric, numeric_of_all numeric⟩
  else natural 0

theorem sampleRead_decimal (index : Nat) : sampleRead (decimal index) = natural index :=
  dif_pos ⟨(natural index).some, List.all_eq_true.mpr (natural index).numeric⟩

def sampleNumbers : Numbers where
  read := sampleRead
  worth number := digitsValue number.text
  reads index _ := sampleRead_decimal index
  counts index _ := congrArg Nat.cast (digitsValue_decimal index)

def sampleInput : Json := .string [233]

theorem readable_sampleInput : ∀ input ∈ [sampleInput], input.Readable sampleNumbers.read :=
  List.forall_mem_singleton.mpr (.string _)

def sampleItem (state : String) : Item sampleNumbers where
  index := 0
  fields := (pendingItem 0 sampleInput).set stateKey (.string (Utf16.ofString state))
  indexed := rfl
  given := rfl
  readable := by
    have each : ∀ entry ∈ [(indexKey, Json.number (natural 0)), (inputKey, sampleInput),
        (stateKey, Json.string (Utf16.ofString state))], entry.2.Readable sampleNumbers.read := by
      refine List.forall_mem_cons.mpr ⟨.number (isNumberText_decimal 0) (sampleNumbers.reads 0 (by decide)), ?_⟩
      exact List.forall_mem_cons.mpr ⟨.string _, List.forall_mem_singleton.mpr (.string _)⟩
    exact .object (OrderedMap.distinct _) each

/-- A line is torn, the batch is compacted at boot, and its item changes again. -/
def mendedRun : List (Action sampleNumbers) :=
  [.start [], .create [sampleInput] readable_sampleInput true, .setItem (sampleItem "running"), .persistBatch,
    .setItem (sampleItem "done"), .crash (some 20), .start [sampleItem "pending"], .setItem (sampleItem "running")]

theorem mendedRun_agrees : ∃ world, (system sampleNumbers).ReachedBy (AppendsWhole sampleNumbers) world ∧
    world.written.map lineOf = [lineOf (sampleItem "running").fields] ∧ Agrees sampleNumbers world := by
  have ran : (((system sampleNumbers).run {} mendedRun).any fun world =>
      decide (world.written.map lineOf = [lineOf (sampleItem "running").fields])) = true := by decide +kernel
  obtain ⟨world, ran, written⟩ := Option.any_eq_true .. |>.mp ran
  have meets : (system sampleNumbers).Meets (AppendsWhole sampleNumbers) {} mendedRun := by decide +kernel
  have reached : (system sampleNumbers).ReachedBy (AppendsWhole sampleNumbers) world :=
    System.ReachedBy.run (.start _ rfl) meets ran
  exact ⟨world, reached, of_decide_eq_true written, agrees_of_reachedBy reached⟩

/-- A line is torn after the batch was completed. The boot leaves the file, and the next change is glued to the line. -/
def tornRun : List (Action sampleNumbers) :=
  [.start [], .create [sampleInput] readable_sampleInput true, .setItem (sampleItem "done"), .complete, .persistBatch,
    .settleIdle, .load, .setItem (sampleItem "pending"), .crash (some 20), .start [], .load,
    .setItem (sampleItem "pending")]

theorem tornRun_disagrees : ¬ ∀ world, (system sampleNumbers).Reachable world → Agrees sampleNumbers world := by
  intro all
  have ran : (((system sampleNumbers).run {} tornRun).any fun world =>
      (readBatchItems sampleNumbers world.file).any fun item =>
        world.written.all fun other =>
          decide ((item.get? stateKey).map stringify ≠ (other.get? stateKey).map stringify)) = true := by decide +kernel
  obtain ⟨world, ran, differ⟩ := Option.any_eq_true .. |>.mp ran
  obtain ⟨item, listed, differ⟩ := List.any_eq_true.mp differ
  obtain ⟨index, found⟩ := List.mem_iff_getElem?.mp listed
  obtain ⟨other, found', same⟩ := (all world (.run (.start _ rfl) ran)).written.get found
  have apart := List.all_eq_true.mp differ other (List.mem_of_getElem? found')
  exact of_decide_eq_true apart (congrArg _ (same stateKey))

end NimbleBrain.Tasks.ItemLog
