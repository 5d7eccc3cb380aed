import NimbleBrain.Engine.CanonicalJson
import NimbleBrain.Library.OrderedMap

/- A supervisor watches the results of each tool in a run and trips a tool that is stuck. -/

namespace NimbleBrain.Engine.Supervisor

open Library

/-- A text block may name its audience. -/
inductive ContentBlock where
  | text (text : Utf16) (audience : Option (List String) := none)
  | other (json : String)
  deriving DecidableEq

/-- The two flags are read from the metadata of the result. -/
structure ToolResult where
  content : List ContentBlock
  isError : Bool := false
  infraError : Bool := false
  nonAdvancing : Bool := false
  deriving DecidableEq

/-- No object of the input holds a key twice. -/
structure JsonValue where
  json : Json
  distinct : json.Distinct

structure ToolCall where
  id : String
  name : Utf16
  input : JsonValue

def textContent (text : Utf16) : List ContentBlock := [.text text]

def isUserOnly : Option (List String) → Bool
  | none => false
  | some audience => audience.contains "user" && !audience.contains "assistant"

def ContentBlock.modelText? : ContentBlock → Option Utf16
  | .text words audience => if isUserOnly audience then none else some words
  | .other _ => none

def joinLines : List Utf16 → Utf16
  | [] => []
  | [text] => text
  | text :: rest => text ++ 10 :: joinLines rest

def extractTextForModel (blocks : List ContentBlock) : Utf16 := joinLines (blocks.filterMap ContentBlock.modelText?)

def isWhitespace (unit : UInt16) : Bool :=
  9 ≤ unit.toNat && unit.toNat ≤ 13 || 8192 ≤ unit.toNat && unit.toNat ≤ 8202 ||
    [32, 160, 5760, 8232, 8233, 8239, 8287, 12288, 65279].contains unit

def trim (text : Utf16) : Utf16 := ((text.dropWhile isWhitespace).reverse.dropWhile isWhitespace).reverse

/-- A run of whitespace becomes one space. -/
def collapse : Bool → Utf16 → Utf16
  | _, [] => []
  | inRun, unit :: rest =>
      if isWhitespace unit then if inRun then collapse true rest else 32 :: collapse true rest
      else unit :: collapse false rest

section Fingerprint

/-- What the supervisor uses of the language and its libraries. A text is hashed as its characters. -/
structure SupervisorHost where
  toLowerCase : Utf16 → Utf16
  sha1Hex : List Utf16.Token → String

structure SupervisorConfig where
  maxConsecutiveRepeats : Nat := 3
  fingerprintTextCap : Nat := 512
  maxNonAdvancingCalls : Nat := 6

variable (host : SupervisorHost) (config : SupervisorConfig)

def normalizeText (text : Utf16) : Utf16 := trim (collapse false (host.toLowerCase text))

mutual

/-- The keys of an object stay as they are. -/
def normalizeForRepeat : Json → Json
  | .string value => .string (normalizeText host value)
  | .array items => .array (normalizeItems items)
  | .object entries => .object (normalizeEntries entries)
  | .null => .null
  | .bool value => .bool value
  | .number value => .number value

def normalizeItems : List Json → List Json
  | [] => []
  | item :: rest => normalizeForRepeat item :: normalizeItems rest

def normalizeEntries : List (Utf16 × Json) → List (Utf16 × Json)
  | [] => []
  | (key, value) :: rest => (key, normalizeForRepeat value) :: normalizeEntries rest

end

def isAdvancingSuccess (result : ToolResult) : Bool := !result.isError && !result.infraError && !result.nonAdvancing

/-- The text that the model would see, up to the cap. -/
def cappedText (result : ToolResult) : Utf16 :=
  (trim (extractTextForModel result.content)).take config.fingerprintTextCap

def contentHash (result : ToolResult) : String := host.sha1Hex (Utf16.scalars (cappedText config result))

/-- The kind and the body of what is hashed, after the name of the tool. -/
def fingerprintBody (call : ToolCall) (result : ToolResult) : Utf16 :=
  if result.nonAdvancing then
    Utf16.ofString "NONADVANCING" ++ 0 :: canonicalJson (normalizeForRepeat host call.input.json)
  else if result.isError then Utf16.ofString "E" ++ 0 :: cappedText config result ++ [0]
  else Utf16.ofString "S" ++ 0 :: cappedText config result ++ 0 :: canonicalJson call.input.json

def fingerprint (call : ToolCall) (result : ToolResult) : String :=
  host.sha1Hex (Utf16.scalars (call.name ++ 0 :: fingerprintBody host config call result))

end Fingerprint

structure ToolState where
  lastFingerprint : Option String := none
  consecutiveRepeats : Nat := 0
  totalCalls : Nat := 0
  nonAdvancingCalls : Nat := 0
  tripped : Bool := false
  trippedContent : Option String := none
  trippedRepeats : Option Nat := none
  trippedInput : Option Utf16 := none
  deriving DecidableEq

inductive SupervisorVerdict where
  | pass
  | synth (replacement : ToolResult) (trippedTool : Utf16) (consecutiveRepeats : Nat)
  deriving DecidableEq

def synthReplacement (toolName originalText : Utf16) (repeats : Nat) : ToolResult where
  content := textContent
    (Utf16.ofString "[NB supervisor] Tool `" ++ toolName ++ Utf16.ofString "` made no progress " ++
      Utf16.ofString (toString repeats) ++ Utf16.ofString " times in a row and has been disabled.\n\n" ++
        Utf16.ofString "Underlying output (last call):\n" ++ originalText ++ Utf16.ofString "\n\n" ++
          Utf16.ofString "Other tools remain available. Consider an alternative approach or summarize current " ++
            Utf16.ofString "findings if no path forward exists.")
  isError := true

def probationReplacement (toolName : Utf16) (result : ToolResult) (originalText : Utf16) (repeats : Nat) :
    ToolResult where
  content := textContent
    (Utf16.ofString "[NB supervisor] This call to `" ++ toolName ++
      Utf16.ofString "` made no progress, so the tool was still withheld after it (it had made no progress " ++
        Utf16.ofString (toString repeats) ++ Utf16.ofString " times in a row earlier in this run).\n\n" ++
          Utf16.ofString "Underlying output (this call):\n" ++ originalText ++ Utf16.ofString "\n\n" ++
            Utf16.ofString "Other tools remain available. Consider an alternative approach or summarize current " ++
              Utf16.ofString "findings if no path forward exists.")
  isError := result.isError

variable (host : SupervisorHost) (config : SupervisorConfig)

def countBudget (state : ToolState) (result : ToolResult) : ToolState :=
  if result.nonAdvancing then { state with nonAdvancingCalls := state.nonAdvancingCalls + 1 }
  else if isAdvancingSuccess result then { state with nonAdvancingCalls := 0 }
  else state

def countStreak (state : ToolState) (print : String) : ToolState :=
  if some print = state.lastFingerprint then { state with consecutiveRepeats := state.consecutiveRepeats + 1 }
  else { state with consecutiveRepeats := 1, lastFingerprint := some print }

def recordObservation (state : ToolState) (call : ToolCall) (result : ToolResult) : ToolState :=
  countStreak (countBudget state result) (fingerprint host config call result)

/-- The streak is asked first. -/
def trippedAt (state : ToolState) : Option Nat :=
  if config.maxConsecutiveRepeats ≤ state.consecutiveRepeats then some state.consecutiveRepeats
  else if config.maxNonAdvancingCalls ≤ state.nonAdvancingCalls then some state.nonAdvancingCalls
  else none

/-- A tool that advanced with another text than the one it tripped on. -/
def recover (state : ToolState) (call : ToolCall) (result : ToolResult) : ToolState :=
  { state with
    tripped := false
    trippedContent := none
    trippedRepeats := none
    trippedInput := none
    consecutiveRepeats := 1
    nonAdvancingCalls := 0
    lastFingerprint := some (fingerprint host config call result) }

def trip (state : ToolState) (call : ToolCall) (result : ToolResult) (repeats : Nat) : ToolState :=
  { state with
    tripped := true
    trippedContent := some (contentHash host config result)
    trippedRepeats := some repeats
    trippedInput := if isAdvancingSuccess result then some (canonicalJson call.input.json) else none }

/-- One observation of a tool whose call was counted. -/
def observeCounted (state : ToolState) (call : ToolCall) (result : ToolResult) : ToolState × SupervisorVerdict :=
  if state.tripped then
    if isAdvancingSuccess result ∧ some (contentHash host config result) ≠ state.trippedContent then
      (recover host config state call result, .pass)
    else
      let repeats := state.trippedRepeats.getD state.consecutiveRepeats
      (state, .synth
        (probationReplacement call.name result (trim (extractTextForModel result.content)) repeats) call.name repeats)
  else if result.infraError then (state, .pass)
  else
    match trippedAt config (recordObservation host config state call result) with
    | none => (recordObservation host config state call result, .pass)
    | some repeats =>
        (trip host config (recordObservation host config state call result) call result repeats,
          .synth (synthReplacement call.name (trim (extractTextForModel result.content)) repeats) call.name repeats)

def observeTool (state : ToolState) (call : ToolCall) (result : ToolResult) : ToolState × SupervisorVerdict :=
  observeCounted host config { state with totalCalls := state.totalCalls + 1 } call result

abbrev ToolStates := OrderedMap Utf16 ToolState

/-- A tool without a state has the first one. -/
def getState (states : ToolStates) (toolName : Utf16) : ToolState := (states.get? toolName).getD {}

def observe (states : ToolStates) (call : ToolCall) (result : ToolResult) : ToolStates × SupervisorVerdict :=
  (states.set call.name (observeTool host config (getState states call.name) call result).1,
    (observeTool host config (getState states call.name) call result).2)

/-- The refusal of the call that a success trip was made of. -/
def repeatRefusal (states : ToolStates) (call : ToolCall) : Option ToolResult :=
  match states.get? call.name with
  | none => none
  | some state =>
      match state.tripped, state.trippedInput with
      | true, some input =>
          if canonicalJson call.input.json = input then
            some
              { content := textContent
                  (Utf16.ofString "[NB supervisor] This call to `" ++ call.name ++
                    Utf16.ofString "` was not run. The identical call (same tool, same input) already ran and " ++
                      Utf16.ofString "returned the same result " ++
                        Utf16.ofString ((state.trippedRepeats.map toString).getD "null") ++
                          Utf16.ofString " times in a row in this run, so it is not run again in this run, even " ++
                            Utf16.ofString "if its answer could have changed since. A call with different input " ++
                              Utf16.ofString "is not refused.\n\nOther tools remain available. Consider an " ++
                                Utf16.ofString "alternative approach or summarize current findings if no path " ++
                                  Utf16.ofString "forward exists.")
                isError := true }
          else none
      | _, _ => none

end NimbleBrain.Engine.Supervisor
