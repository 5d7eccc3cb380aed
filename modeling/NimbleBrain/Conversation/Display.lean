import NimbleBrain.Conversation.Reconstruct

/- A person reads one message for each turn. This reader scans the log on its own. -/

namespace NimbleBrain.Conversation

open Library Spend

structure DisplayToolResult where
  content : List String
  isError : Bool
  deriving DecidableEq

structure DisplayToolCall where
  id : String
  name : String
  appName : Option String
  ok : Bool
  ms : Nat
  input : Json
  result : DisplayToolResult
  resourceUri : Option String
  resourceLinks : List ResourceLink
  deriving DecidableEq

inductive DisplayBlock where
  | reasoning (text : String)
  | text (text : String)
  | tool (toolCalls : List DisplayToolCall)
  deriving DecidableEq

structure DisplaySkill where
  id : String
  name : String
  connector : Option String
  scope : String
  tokens : Nat
  loadedBy : String
  reason : String
  deriving DecidableEq

structure DisplaySkillsContext where
  skills : List DisplaySkill
  totalTokens : Nat
  deriving DecidableEq

/-- The usage of all answers of a run. A part that no answer used is absent. -/
structure DisplayUsage where
  inputTokens : Nat := 0
  outputTokens : Nat := 0
  cacheReadTokens : Nat := 0
  cacheWriteTokens : Nat := 0
  reasoningTokens : Nat := 0
  model : String := ""
  llmMs : Nat := 0
  deriving DecidableEq

inductive DisplayRole where
  | user | assistant
  deriving DecidableEq

structure DisplayMessage where
  role : DisplayRole
  content : String
  blocks : List DisplayBlock
  timestamp : Timestamp
  userId : Option String := none
  files : List Attachment := []
  toolCalls : List DisplayToolCall := []
  usage : Option DisplayUsage := none
  skillsLoaded : Option DisplaySkillsContext := none
  stopReason : Option String := none
  pending : Bool := false
  deriving DecidableEq

def DisplayBlock.text? : DisplayBlock → Option String
  | .text value => some value
  | _ => none

variable (host : Host)

def ContentPart.reasoning? : ContentPart → Option String
  | .reasoning value _ => some value
  | _ => none

def UserContentPart.text? : UserContentPart → Option String
  | .text value => some value
  | _ => none

/-- The text of the parts, without a break between them. -/
def joinText (texts : List String) : String := String.join (texts.filter (· ≠ ""))

namespace Display

def buildUserMessage (event : UserMessageEvent) : DisplayMessage :=
  let text := joinText (event.content.filterMap UserContentPart.text?)
  { role := .user
    content := text
    blocks := if text = "" then [] else [.text text]
    timestamp := event.ts
    userId := event.userId.filter (· ≠ "")
    files := event.files.getD [] }

def projectSkill (skill : LoadedSkill) : Option DisplaySkill :=
  skill.id.bind fun id => skill.name.map fun name =>
    { id := id
      name := name
      connector := skill.connector.filter (· ≠ "")
      scope := skill.scope.getD "org"
      tokens := skill.tokens.getD 0
      loadedBy := skill.loadedBy.getD ""
      reason := skill.reason.getD "" }

/-- A turn without skills shows none. -/
def projectSkillsLoaded (event : SkillsLoadedEvent) : Option DisplaySkillsContext :=
  let skills := event.skills.filterMap projectSkill
  if skills = [] then none
  else some ⟨skills, event.totalTokens.getD (skills.map DisplaySkill.tokens).sum⟩

/-- A run ends with its own terminator, or where another turn starts. -/
inductive RunBoundary where
  | terminal (endTs : Timestamp) (stopReason : String)
  | foreign
  deriving DecidableEq

def classifyRunBoundary (runId : String) : ConversationEvent → Option RunBoundary
  | .runDone event => if event.runId = runId then some (.terminal event.ts event.stopReason) else none
  | .runError event => if event.runId = runId then some (.terminal event.ts "error") else none
  | .userMessage _ => some .foreign
  | .runStart _ => some .foreign
  | _ => none

/-- The events of one run, how it ended, and the events past it. -/
structure RunScan where
  toolDones : Table String ToolDoneEvent := fun _ => none
  toolInputs : Table String Json := fun _ => none
  llmResponses : List LlmResponseEvent := []
  skillsLoaded : Option DisplaySkillsContext := none
  endTs : Timestamp
  stopReason : Option String := none
  terminated : Bool := false
  abandoned : Bool := false
  rest : List ConversationEvent := []

def collectRunContentEvent (runId : String) (scan : RunScan) : ConversationEvent → RunScan
  | .llmResponse event =>
      if event.runId = runId then { scan with llmResponses := scan.llmResponses ++ [event] } else scan
  | .toolStart event =>
      if event.runId = runId ∧ event.input.isSome then
        { scan with toolInputs := Function.update scan.toolInputs event.id event.input }
      else scan
  | .toolDone event =>
      if event.runId = runId then
        { scan with toolDones := Function.update scan.toolDones event.id (some event) }
      else scan
  | .skillsLoaded event =>
      if event.runId = runId then { scan with skillsLoaded := projectSkillsLoaded event } else scan
  | _ => scan

/-- A run that the end of the log cuts is neither terminated nor abandoned. -/
def scanRunEvents (runId : String) : List ConversationEvent → RunScan → RunScan
  | [], scan => { scan with rest := [] }
  | inner :: rest, scan =>
      match classifyRunBoundary runId inner with
      | some (.terminal endTs stopReason) =>
          { scan with endTs := endTs, stopReason := some stopReason, terminated := true, rest := rest }
      | some .foreign => { scan with abandoned := true, stopReason := some "interrupted", rest := inner :: rest }
      | none => scanRunEvents runId rest (collectRunContentEvent runId scan inner)

def extractAppName : List Char → List Char → Option String
  | before, '_' :: '_' :: _ => some (.ofList before.reverse)
  | before, char :: rest => extractAppName (char :: before) rest
  | _, [] => none

/-- An input that is no object is shown as an empty one. -/
def parseToolInput (input : Json) : Json :=
  let value :=
    match input with
    | .string text => (host.parseJson text).getD .emptyObject
    | value => value
  match value with
  | .object text => .object text
  | _ => .emptyObject

def wrapOutputAsResult (text : String) (isError : Bool) : DisplayToolResult :=
  ⟨if text = "" then [] else [text], isError⟩

def buildToolCall (toolDones : Table String ToolDoneEvent) (toolInputs : Table String Json)
    (call : ToolCallPart) : DisplayToolCall :=
  let done := toolDones call.toolCallId
  let input := ((toolInputs call.toolCallId).filter (· ≠ .scalar "null")).getD call.input
  let ok := (done.map ToolDoneEvent.ok).getD true
  { id := call.toolCallId
    name := call.toolName
    appName := (extractAppName [] call.toolName.toList).filter (· ≠ "")
    ok := ok
    ms := (done.map ToolDoneEvent.ms).getD 0
    input := parseToolInput host input
    result := wrapOutputAsResult ((done.map ToolDoneEvent.output).getD "") !ok
    resourceUri := (done.bind ToolDoneEvent.resourceUri).filter (· ≠ "")
    resourceLinks := (done.map ToolDoneEvent.resourceLinks).getD [] }

/-- A call that was held ran nothing, and the person sees it when it is made again. -/
def isHeld (toolDones : Table String ToolDoneEvent) (id : String) : Bool := (toolDones id).any ToolDoneEvent.held

def shownToolCalls (toolDones : Table String ToolDoneEvent) (toolInputs : Table String Json)
    (response : LlmResponseEvent) : List DisplayToolCall :=
  ((toolCallsOf response.content).filter fun call => !isHeld toolDones call.toolCallId).map
    (buildToolCall host toolDones toolInputs)

/-- The reasoning, the text and the calls of one answer. -/
def responseBlocks (toolDones : Table String ToolDoneEvent) (toolInputs : Table String Json)
    (response : LlmResponseEvent) : List DisplayBlock :=
  let reasoning := String.join (response.content.filterMap ContentPart.reasoning?)
  let text := joinText (response.content.filterMap ContentPart.text?)
  let tools := shownToolCalls host toolDones toolInputs response
  (if reasoning = "" then [] else [.reasoning reasoning]) ++ (if text = "" then [] else [.text text]) ++
    if tools = [] then [] else [.tool tools]

def addLlmUsage (acc : DisplayUsage) (response : LlmResponseEvent) : DisplayUsage where
  inputTokens := acc.inputTokens + response.usage.inputTokens
  outputTokens := acc.outputTokens + response.usage.outputTokens
  cacheReadTokens := acc.cacheReadTokens + response.usage.cacheReadTokens.getD 0
  cacheWriteTokens := acc.cacheWriteTokens + response.usage.cacheWriteTokens.getD 0
  reasoningTokens := acc.reasoningTokens + response.usage.reasoningTokens.getD 0
  model := response.model
  llmMs := acc.llmMs + response.llmMs

/-- A run without answers is no message. -/
def collectRun (start : RunStartEvent) (events : List ConversationEvent) : Option DisplayMessage × RunScan :=
  let scan := scanRunEvents start.runId events { endTs := start.ts }
  let blocks := scan.llmResponses.flatMap (responseBlocks host scan.toolDones scan.toolInputs)
  let message : DisplayMessage :=
    { role := .assistant
      content := String.join (blocks.filterMap DisplayBlock.text?)
      blocks := blocks
      timestamp := scan.endTs
      toolCalls := scan.llmResponses.flatMap (shownToolCalls host scan.toolDones scan.toolInputs)
      usage := some (scan.llmResponses.foldl addLlmUsage {})
      skillsLoaded := scan.skillsLoaded
      stopReason := scan.stopReason.filter fun reason => reason ≠ "" ∧ reason ≠ "complete"
      pending := !(scan.terminated || scan.abandoned) }
  (if scan.llmResponses = [] then none else some message, scan)

theorem scanRunEvents_rest_length (runId : String) (events : List ConversationEvent) (scan : RunScan) :
    (scanRunEvents runId events scan).rest.length ≤ events.length := by
  induction events generalizing scan with
  | nil => exact Nat.le_refl _
  | cons inner rest ih =>
      rw [scanRunEvents]
      split
      · exact Nat.le_succ _
      · exact Nat.le_refl _
      · exact (ih _).trans (Nat.le_succ _)

def reconstructFromEvents : List ConversationEvent → List DisplayMessage
  | [] => []
  | .userMessage event :: rest => buildUserMessage event :: reconstructFromEvents rest
  | .runStart start :: rest =>
      (collectRun host start rest).1.toList ++ reconstructFromEvents (collectRun host start rest).2.rest
  | _ :: rest => reconstructFromEvents rest
termination_by events => events.length
decreasing_by
  all_goals simp only [List.length_cons]
  · exact Nat.lt_succ_self _
  · exact Nat.lt_succ_of_le (scanRunEvents_rest_length ..)
  · exact Nat.lt_succ_self _

/-- A line without a time is no event to this reader. -/
def readableEvents (events : List ConversationEvent) : List ConversationEvent := events.filter (·.ts ≠ "")

/-- A trailing run that nothing generates any more was interrupted. -/
def settleTrailingRun (messages : List DisplayMessage) : List DisplayMessage :=
  match messages.getLast? with
  | some last =>
      if last.pending then
        messages.dropLast ++ [{ last with stopReason := some (last.stopReason.getD "interrupted"), pending := false }]
      else messages
  | none => messages

def readMessages (events : List ConversationEvent) (runActive : Bool) : List DisplayMessage :=
  let messages := reconstructFromEvents host (readableEvents events)
  if runActive then messages else settleTrailingRun messages

end Display

end NimbleBrain.Conversation
