import NimbleBrain.Engine.JsonCut
import NimbleBrain.Library.Lines
import NimbleBrain.Library.Utf8

/- A conversation is listed by its header, which is folded from the bytes of its file. A later read goes on where the
last one stopped. -/

namespace NimbleBrain.Conversation.HeaderFile

open Engine Library

/-- How the script reads a number, adds a value to a total and writes one as a text. -/
structure Host (Amount : Type) where
  number : Utf16 → JsonNumber
  zero : Amount
  add : Amount → Option Json → Amount
  display : Json → Utf16

abbrev Entries := List (Utf16 × Json)

def field (entries : Entries) (name : String) : Option Json := entries.lookup (Utf16.ofString name)

def isString (value : Option Json) (text : String) : Bool :=
  match value with
  | some (.string found) => found = Utf16.ofString text
  | _ => false

def truthy : Option Json → Bool
  | none => false
  | some .null => false
  | some (.bool value) => value
  | some (.number value) => value.text ≠ [48]
  | some (.string text) => text ≠ []
  | some (.array _) => true
  | some (.object _) => true

/-- What `??` keeps. -/
def present : Option Json → Option Json
  | some .null => none
  | value => value

/-- A property of null or of nothing throws. -/
def member (value : Option Json) (name : String) : Option (Option Json) :=
  match value with
  | none => none
  | some .null => none
  | some (.object entries) => some (field entries name)
  | some _ => some none

def zeroNumber : JsonNumber := ⟨[48], by decide, List.forall_mem_singleton.mpr (by decide)⟩

section Scan

variable (Amount : Type)

structure ConversationMeta where
  id : Utf16
  createdAt : Utf16
  updatedAt : Json
  title : Option Utf16
  totalInputTokens : Amount
  totalOutputTokens : Amount
  lastModel : Option Json
  model : Utf16
  ownerId : Option Json

structure DerivedMetrics where
  totalInputTokens : Amount
  totalOutputTokens : Amount
  lastModel : Option Json := some .null
  lastEventTs : Json := .null

/-- What is folded from the event lines. -/
structure Folded where
  preview : Utf16 := []
  title : Option Utf16 := none
  userMessages : Nat := 0
  runStarts : List Utf16 := []
  runsWithResponse : List Utf16 := []
  metrics : DerivedMetrics Amount

structure HeaderScan extends Folded Amount where
  metadata : ConversationMeta Amount
  line1 : Utf16
  ino : Nat
  offset : Nat

end Scan

variable {Amount : Type} (host : Host Amount)

/-- A null throws. Any other value has fields, if it has none of these. -/
def parseMeta : Json → Option (Option (ConversationMeta Amount))
  | .null => none
  | .object raw =>
      match field raw "id", field raw "createdAt", field raw "model" with
      | some (.string id), some (.string createdAt), some (.string model) =>
          if model = [] then some none
          else
            some (some
              { id, createdAt
                updatedAt := (present (field raw "updatedAt")).getD (.string createdAt)
                title := none
                totalInputTokens := host.zero
                totalOutputTokens := host.zero
                lastModel := some ((present (field raw "lastModel")).getD .null)
                model
                ownerId := (field raw "ownerId").filter fun owner => truthy (some owner) })
      | _, _, _ => some none
  | _ => some none

def partText (part : Json) : Utf16 :=
  match part with
  | .object part =>
      if isString (field part "type") "text" && truthy (field part "text") then
        match field part "text" with
        | some (.string text) => text
        | some other => host.display other
        | none => []
      else []
  | _ => []

/-- A part that is null throws. -/
def extractText (content : List Json) : Option Utf16 :=
  if content.any fun part => match part with | .null => true | _ => false then none
  else some (content.flatMap (partText host))

/-- A response without its usage throws. -/
def accumulateEventMetrics (event : Entries) (ts : Json) (metrics : DerivedMetrics Amount) :
    Option (DerivedMetrics Amount) :=
  let usage := field event "usage"
  if isString (field event "type") "llm.response" then
    (member usage "inputTokens").bind fun input =>
      (member usage "outputTokens").map fun output =>
        { totalInputTokens := host.add metrics.totalInputTokens input
          totalOutputTokens := host.add metrics.totalOutputTokens output
          lastModel := field event "model"
          lastEventTs := ts }
  else if isString (field event "type") "aux.usage" then
    let count := fun name => some ((present ((member usage name).getD none)).getD (.number zeroNumber))
    some
      { metrics with
        totalInputTokens := host.add metrics.totalInputTokens (count "inputTokens")
        totalOutputTokens := host.add metrics.totalOutputTokens (count "outputTokens")
        lastEventTs := ts }
  else some { metrics with lastEventTs := ts }

def addRun (runId : Utf16) (runs : List Utf16) : List Utf16 := if runId ∈ runs then runs else runs ++ [runId]

def runIdOf (event : Entries) : Option Utf16 :=
  match field event "runId" with
  | some (.string []) => none
  | some (.string runId) => some runId
  | _ => none

def previewOf (scan : Folded Amount) (event : Entries) : Option Utf16 :=
  if scan.preview ≠ [] then some scan.preview
  else
    match field event "content" with
    | some (.array content) => extractText host content
    | _ => some scan.preview

def foldHeaderEvent (scan : Folded Amount) (event : Entries) : Option (Folded Amount) :=
  let type := field event "type"
  if isString type "user.message" then
    (previewOf host scan event).map fun preview => { scan with userMessages := scan.userMessages + 1, preview }
  else if isString type "run.start" && (runIdOf event).isSome then
    some { scan with runStarts := scan.runStarts ++ (runIdOf event).toList }
  else if isString type "llm.response" && (runIdOf event).isSome then
    some { scan with runsWithResponse := (runIdOf event).toList.foldr addRun scan.runsWithResponse }
  else
    match isString type "metadata.title", field event "title" with
    | true, some (.string title) => some { scan with title := some title }
    | _, _ => some scan

/-- Only an object is an event. It counts for the totals when it has a time and a type. -/
def foldHeaderValue (scan : Folded Amount) : Json → Option (Folded Amount)
  | .object event =>
      (foldHeaderEvent host scan event).bind fun scan =>
        match field event "ts" with
        | none => some scan
        | some ts =>
            if truthy (some ts) && truthy (field event "type") then
              (accumulateEventMetrics host event ts scan.metrics).map fun metrics => { scan with metrics }
            else some scan
  | _ => some scan

/-- The flag tells whether the line is JSON. -/
def foldHeaderLine (scan : Folded Amount) (line : Utf16) : Option (Folded Amount × Bool) :=
  match jsonParse host.number line with
  | none => some (scan, false)
  | some parsed => (foldHeaderValue host scan parsed).map fun scan => (scan, true)

def newline : UInt16 := 10

/-- The text behind its last newline. -/
def lastLine (text : Utf16) : Utf16 := (text.splitOn newline).getLast (List.splitOn_ne_nil newline text)

def foldHeaderLines (scan : Folded Amount) (lines : List Utf16) : Option (Folded Amount) :=
  lines.foldlM (fun scan line => if line = [] then some scan else (foldHeaderLine host scan line).map Prod.fst) scan

/-- The complete lines are folded, and the last one if it is JSON. The number is how much of the text was consumed. -/
def foldHeaderText (scan : Folded Amount) (text : Utf16) : Option (Folded Amount × Nat) :=
  (foldHeaderLines host scan (text.splitOn newline).dropLast).bind fun scan =>
    if lastLine text = [] then some (scan, text.length)
    else
      (foldHeaderLine host scan (lastLine text)).map fun last =>
        (last.1, if last.2 then text.length else text.length - (lastLine text).length)

/-- The file when it was opened and when it is read. It may have grown in between. -/
structure OpenFile where
  ino : Nat
  size : Nat
  bytes : List UInt8

/-- The file is the one that was read before, and it only grew. -/
def HeaderScan.resumes (prior : HeaderScan Amount) (file : OpenFile) : Bool :=
  prior.ino = file.ino && prior.offset ≤ file.size &&
    Utf8.decode (file.bytes.take (Utf8.byteLength prior.line1)) = prior.line1

def resumeScan (prior : HeaderScan Amount) (file : OpenFile) : Option (HeaderScan Amount) :=
  if prior.offset < file.size then
    let text := Utf8.decode ((file.bytes.drop prior.offset).take (file.size - prior.offset))
    (foldHeaderText host prior.toFolded text).map fun read =>
      { prior with
        toFolded := read.1
        offset := prior.offset + Utf8.byteLength (text.take read.2) }
  else some prior

def noMetrics : DerivedMetrics Amount := { totalInputTokens := host.zero, totalOutputTokens := host.zero }

/-- The first line that is not empty is the header. The outer option is none when the read throws. -/
def scanText (ino : Nat) (content : Utf16) : Option (Option (HeaderScan Amount)) :=
  let leading := (content.takeWhile (· = newline)).length
  let line := (content.drop leading).takeWhile (· ≠ newline)
  let firstEnd := leading + line.length
  if firstEnd = leading then some none
  else
    match jsonParse host.number line with
    | none => some none
    | some raw =>
        (parseMeta host raw).bind fun found =>
          match found with
          | none => some none
          | some parsed =>
              let afterLine1 := min (firstEnd + 1) content.length
              (foldHeaderText host { metrics := noMetrics host } (content.drop afterLine1)).map fun read =>
                some
                  { toFolded := read.1
                    metadata := parsed
                    line1 := content.take firstEnd
                    ino
                    offset := Utf8.byteLength (content.take (afterLine1 + read.2)) }

def scanConversationHeader (prior : Option (HeaderScan Amount)) (file : OpenFile) :
    Option (Option (HeaderScan Amount)) :=
  match prior.filter fun prior => prior.resumes file with
  | some prior => (resumeScan host prior file).map some
  | none => scanText host file.ino (Utf8.decode file.bytes)

structure ConversationHeader (Amount : Type) where
  metadata : ConversationMeta Amount
  preview : Utf16
  messageCount : Nat

def applyDerivedMetrics (header : ConversationMeta Amount) (metrics : DerivedMetrics Amount) : ConversationMeta Amount :=
  { header with
    totalInputTokens := metrics.totalInputTokens
    totalOutputTokens := metrics.totalOutputTokens
    lastModel := metrics.lastModel
    updatedAt := if truthy (some metrics.lastEventTs) then metrics.lastEventTs else header.updatedAt }

def headerOfScan (scan : HeaderScan Amount) : ConversationHeader Amount where
  metadata := applyDerivedMetrics { scan.metadata with title := scan.title.or scan.metadata.title } scan.metrics
  preview := scan.preview
  messageCount := scan.userMessages + (scan.runStarts.filter (· ∈ scan.runsWithResponse)).length

end NimbleBrain.Conversation.HeaderFile
