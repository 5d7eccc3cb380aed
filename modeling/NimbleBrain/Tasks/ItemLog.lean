import NimbleBrain.Engine.JsonWrite
import NimbleBrain.Library.Lines
import NimbleBrain.Library.Utf8
import NimbleBrain.Tasks.LiveBatch

/- The items of a batch are kept as a log. A change of an item is appended without its input, and a reader folds the
lines. -/

namespace NimbleBrain.Tasks.ItemLog

open Engine Library

def maxBatchItems : Nat := 10000

/-- How the script reads the text of a number, and what the number is worth. An index is read as it is written. -/
structure Numbers where
  read : Utf16 → JsonNumber
  worth : JsonNumber → ℚ
  reads : ∀ index < maxBatchItems, read (decimal index) = natural index
  counts : ∀ index < maxBatchItems, worth (natural index) = index

section Store

def newline : UInt16 := 10

def indexKey : Utf16 := Utf16.ofString "index"

def inputKey : Utf16 := Utf16.ofString "input"

def stateKey : Utf16 := Utf16.ofString "state"

def lineOf (item : Fields) : Utf16 := stringify (.object item.entries)

/-- The items are written whole, a line each. -/
def writeBatchItems (items : List Fields) : List UInt8 :=
  let body := [newline].intercalate (items.map lineOf)
  Utf8.write (if 0 < body.length then body ++ [newline] else [])

/-- Everything but the input of the item is appended. -/
def appendBatchItem (file : List UInt8) (item : Fields) : List UInt8 :=
  file ++ Utf8.write (lineOf (item.delete inputKey) ++ [newline])

variable (numbers : Numbers)

/-- The index of a line, if it is an object with a numeric one. -/
def indexOf? (parsed : Fields) : Option JsonNumber :=
  match parsed.get? indexKey with
  | some (.number index) => some index
  | _ => none

/-- A line with an input is a whole item. A line without one keeps the input of the item that it replaces. -/
def foldParsed (byIndex : OrderedMap JsonNumber Fields) (parsed : Fields) : OrderedMap JsonNumber Fields :=
  match indexOf? parsed with
  | none => byIndex
  | some index =>
      match parsed.get? inputKey with
      | some input => byIndex.set index (parsed.set inputKey input)
      | none =>
          match byIndex.get? index with
          | some base => byIndex.set index ((base.get? inputKey).elim parsed fun input => parsed.set inputKey input)
          | none => byIndex

/-- An empty line and a malformed one are skipped. -/
def foldLine (byIndex : OrderedMap JsonNumber Fields) (line : Utf16) : OrderedMap JsonNumber Fields :=
  if line = [] then byIndex
  else
    match jsonParse numbers.read line with
    | some (.object entries) => foldParsed byIndex (fieldsOf entries)
    | _ => byIndex

def foldText (text : Utf16) : OrderedMap JsonNumber Fields := (text.splitOn newline).foldl (foldLine numbers) ∅

def placeOf (item : Fields) : ℚ := ((indexOf? item).map numbers.worth).getD 0

def readBatchItems (file : List UInt8) : List Fields :=
  (foldText numbers (Utf8.decode file)).values.insertionSort fun first second =>
    placeOf numbers first ≤ placeOf numbers second

/-- The file is written again as it was read. -/
def compactBatchItems (file : List UInt8) : List UInt8 × List Fields :=
  let items := readBatchItems numbers file
  (writeBatchItems items, items)

/-- No line is torn. -/
def endsWhole (file : List UInt8) : Bool := (Utf8.decode file).getLast?.all (· = newline)

end Store

/-- What the record of the batch says on disk: its state, and whether items wait for runs. -/
structure Stored where
  state : BatchState
  unsettled : Bool

structure LiveBatch where
  items : List Fields
  state : BatchState

/-- The last line that was appended, with the file and the items before it. -/
structure Appended where
  before : List UInt8
  line : Utf16
  previous : List Fields

structure World where
  file : List UInt8 := []
  record : Option Stored := none
  live : Option LiveBatch := none
  booted : Bool := false
  written : List Fields := []
  inputs : List Json := []
  last : Option Appended := none

/-- An item as the driver has it. -/
structure Item (numbers : Numbers) where
  index : Nat
  fields : Fields
  indexed : fields.get? indexKey = some (.number (natural index))
  given : (fields.get? inputKey).isSome = true
  readable : (Json.object fields.entries).Readable numbers.read

def pendingItem (index : Nat) (input : Json) : Fields :=
  (((∅ : Fields).set indexKey (.number (natural index))).set inputKey input).set stateKey
    (.string (Utf16.ofString "pending"))

/-- The item waits for a run that is queued or running. -/
def isWaiting (item : Fields) : Bool :=
  match item.get? stateKey with
  | some (.string state) => state = Utf16.ofString "queued" || state = Utf16.ofString "running"
  | _ => false

def sameInput (first second : Fields) : Bool :=
  (first.get? inputKey).map stringify = (second.get? inputKey).map stringify

variable {numbers : Numbers}

/-- The items are written, then the record. -/
def World.create (world : World) (inputs : List Json) (saved : Bool) : Option World :=
  if world.booted && world.live.isNone && world.record.isNone && world.file.isEmpty &&
      inputs.length ≤ maxBatchItems then
    let items := inputs.mapIdx pendingItem
    let after := { world with file := writeBatchItems items, written := items, inputs, last := none }
    if saved then some { after with record := some ⟨.running, false⟩, live := some ⟨items, .running⟩ }
    else some { after with booted := false }
  else none

/-- The item is replaced in memory, and its new state is appended. Its input stays. -/
def World.setItem (world : World) (next : Item numbers) : Option World :=
  world.live.bind fun live =>
    match live.items[next.index]? with
    | none => some world
    | some prev =>
        if sameInput prev next.fields then
          some
            { world with
              file := appendBatchItem world.file next.fields
              live := some { live with items := live.items.set next.index next.fields }
              written := world.written.set next.index next.fields
              last := some ⟨world.file, lineOf (next.fields.delete inputKey), world.written⟩ }
        else none

/-- The driver pauses, resumes, cancels or runs again. -/
def World.become (world : World) (state : BatchState) : Option World :=
  world.live.map fun live => { world with live := some { live with state } }

def World.persistBatch (world : World) : Option World :=
  world.live.map fun live => { world with record := some ⟨live.state, live.items.any isWaiting⟩ }

def World.complete (world : World) : Option World :=
  world.live.map fun live =>
    { world with
      file := writeBatchItems live.items
      live := some { live with state := .completed }
      written := live.items
      last := none }

/-- A batch that is not running leaves memory. -/
def World.settleIdle (world : World) : Option World :=
  world.live.bind fun live => if live.state = .running then none else some { world with live := none }

/-- A batch is loaded from disk without driving it. -/
def World.load (numbers : Numbers) (world : World) : Option World :=
  if world.booted && world.live.isNone then
    world.record.map fun stored =>
      { world with live := some ⟨readBatchItems numbers world.file, stored.state⟩ }
  else none

/-- The process stops. What it appended last may be cut off behind some bytes. -/
def World.crash (world : World) (kept : Option Nat) : World :=
  let stopped := { world with live := none, booted := false, last := none }
  match kept, world.last with
  | some count, some last =>
      { stopped with
        file := last.before ++ (Utf8.write (last.line ++ [newline])).take count
        written := if count < (Utf8.write last.line).length then last.previous else world.written }
  | _, _ => stopped

def Stored.unfinished (stored : Stored) : Bool :=
  stored.state = .running || stored.state = .paused || stored.unsettled

/-- The outcome of a run that was lost with the process. -/
def settleLost (items : List Fields) (next : Item numbers) : List Fields :=
  match items[next.index]? with
  | some item => if isWaiting item && sameInput item next.fields then items.set next.index next.fields else items
  | none => items

/-- An unfinished batch is compacted and its lost runs are settled. Other batches are left on disk. -/
def World.start (world : World) (settled : List (Item numbers)) : Option World :=
  if world.booted || world.live.isSome then none
  else
    match world.record with
    | none => some { world with booted := true }
    | some stored =>
        if stored.unfinished then
          let compacted := compactBatchItems numbers world.file
          let items := settled.foldl settleLost compacted.2
          some
            { world with
              file := if compacted.2.any isWaiting then writeBatchItems items else compacted.1
              record := some ⟨stored.state, items.any isWaiting⟩
              live := some ⟨items, stored.state⟩
              booted := true
              written := items
              last := none }
        else some { world with booted := true }

/-- The process stops again behind the compaction. -/
def World.startCut (numbers : Numbers) (world : World) : Option World :=
  if world.booted || world.live.isSome then none
  else
    match world.record with
    | none => none
    | some stored =>
        if stored.unfinished then some { world with file := (compactBatchItems numbers world.file).1, last := none }
        else none

inductive Action (numbers : Numbers) where
  | create (inputs : List Json) (readable : ∀ input ∈ inputs, input.Readable numbers.read) (saved : Bool)
  | setItem (next : Item numbers)
  | become (state : BatchState)
  | persistBatch
  | complete
  | settleIdle
  | load
  | crash (kept : Option Nat)
  | start (settled : List (Item numbers))
  | startCut

def step (numbers : Numbers) (world : World) : Action numbers → Option World
  | .create inputs _ saved => world.create inputs saved
  | .setItem next => world.setItem next
  | .become state => world.become state
  | .persistBatch => world.persistBatch
  | .complete => world.complete
  | .settleIdle => world.settleIdle
  | .load => world.load numbers
  | .crash kept => some (world.crash kept)
  | .start settled => world.start settled
  | .startCut => world.startCut numbers

def system (numbers : Numbers) : System World (Action numbers) where
  initial world := world = {}
  step := step numbers

end NimbleBrain.Tasks.ItemLog
