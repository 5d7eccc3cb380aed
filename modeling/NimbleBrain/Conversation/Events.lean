import NimbleBrain.Conversation.Text
import NimbleBrain.Spend.Pricing

/- A conversation is a log of events. Its lines are read back as they were written. -/

namespace NimbleBrain.Conversation

open Spend

deriving instance DecidableEq for TokenUsage

/-- A moment as the log writes it. The texts are compared as texts. -/
abbrev Timestamp := String

/-- A JSON value by its kind. What is inside it is only passed on. -/
inductive Json where
  | string (text : String)
  | object (text : String)
  | array (text : String)
  | scalar (text : String)
  deriving DecidableEq

def Json.emptyObject : Json := .object "{}"

/-- The built-in readers of JSON and of dates. A text that cannot be read gives nothing. -/
structure Host where
  parseJson : String → Option Json
  parseDate : String → Option Int
  toISOString : Int → String

/-- The readers as they read an empty object, and texts that are no dates. -/
def plainHost : Host where
  parseJson text := if text = "{}" then some .emptyObject else none
  parseDate _ := none
  toISOString _ := ""

/-- An attached file, without its bytes. -/
structure Attachment where
  id : String
  filename : String
  mimeType : String
  size : Nat
  extracted : Bool
  deriving DecidableEq

inductive UserContentPart where
  | text (text : String)
  | resourceLink (uri mimeType name : String)
  | other (type : String)
  deriving DecidableEq

/-- What a provider sends with a part, and what it is sent back with it. -/
structure ProviderData where
  metadata : Option Json := none
  options : Option Json := none
  deriving DecidableEq

structure ToolCallPart where
  toolCallId : String
  toolName : String
  input : Json
  provider : ProviderData := {}
  deriving DecidableEq

/-- A block of a model's answer. The blocks of other types never enter a prompt. -/
inductive ContentPart where
  | text (text : String) (provider : ProviderData)
  | reasoning (text : String) (provider : ProviderData)
  | file (mediaType data : String) (provider : ProviderData)
  | toolCall (call : ToolCallPart)
  | other (type : String)
  deriving DecidableEq

def ContentPart.isText : ContentPart → Bool
  | .text .. => true
  | _ => false

def ContentPart.isReasoning : ContentPart → Bool
  | .reasoning .. => true
  | _ => false

def ContentPart.call? : ContentPart → Option ToolCallPart
  | .toolCall call => some call
  | _ => none

def ContentPart.text? : ContentPart → Option String
  | .text value _ => some value
  | _ => none

inductive FinishReason where
  | stop | length | contentFilter | toolCalls | error | other
  deriving DecidableEq

structure UserMessageEvent where
  ts : Timestamp
  content : List UserContentPart
  userId : Option String := none
  files : Option (List Attachment) := none
  deriving DecidableEq

structure RunStartEvent where
  ts : Timestamp
  runId : String
  model : String := ""
  deriving DecidableEq

structure LlmResponseEvent where
  ts : Timestamp
  runId : String
  model : String
  content : List ContentPart
  usage : TokenUsage
  llmMs : Nat
  finishReason : FinishReason
  deriving DecidableEq

structure ToolStartEvent where
  ts : Timestamp
  runId : String
  name : String
  id : String
  input : Option Json := none
  deriving DecidableEq

structure ResourceLink where
  uri : String
  name : Option String := none
  mimeType : Option String := none
  description : Option String := none
  deriving DecidableEq

/-- The bounded output is written only where it differs from the full one. A held call did not run. -/
structure ToolDoneEvent where
  ts : Timestamp
  runId : String
  name : String
  id : String
  ok : Bool
  ms : Nat
  output : String
  modelOutput : Option String := none
  resourceUri : Option String := none
  resourceLinks : List ResourceLink := []
  held : Bool := false
  deriving DecidableEq

structure RunDoneEvent where
  ts : Timestamp
  runId : String
  stopReason : String
  totalMs : Nat := 0
  deriving DecidableEq

structure RunErrorEvent where
  ts : Timestamp
  runId : String
  error : String := ""
  deriving DecidableEq

/-- What is recorded of a skill that was loaded for a turn. -/
structure LoadedSkill where
  id : Option String
  name : Option String
  connector : Option String := none
  scope : Option String := none
  tokens : Option Nat := none
  loadedBy : Option String := none
  reason : Option String := none
  deriving DecidableEq

structure SkillsLoadedEvent where
  ts : Timestamp
  runId : String
  skills : List LoadedSkill := []
  totalTokens : Option Nat := none
  deriving DecidableEq

/-- A skill's body that was delivered. The call is the one that was held for it. -/
structure ConnectorSkillInjectedEvent where
  ts : Timestamp
  toolName : String
  skillName : String
  skillBody : String
  scope : String
  heldToolCallId : Option String := none
  deriving DecidableEq

structure SkillActivatedEvent where
  ts : Timestamp
  runId : String
  toolCallId : String
  skillName : String
  deriving DecidableEq

structure TitleChangeEvent where
  ts : Timestamp
  title : Option String
  deriving DecidableEq

/-- The events before the boundary are represented by the summary. -/
structure HistoryCompactedEvent where
  ts : Timestamp
  summary : String
  compactedThroughTs : Timestamp
  summarizedMessageCount : Nat
  deriving DecidableEq

/-- The usage of a model call that is no turn. -/
structure AuxUsageEvent where
  ts : Timestamp
  source : String
  model : String
  usage : TokenUsage
  llmMs : Nat
  deriving DecidableEq

/-- The events of other types carry nothing that these readers use. -/
inductive ConversationEvent where
  | userMessage (event : UserMessageEvent)
  | runStart (event : RunStartEvent)
  | llmResponse (event : LlmResponseEvent)
  | toolStart (event : ToolStartEvent)
  | toolDone (event : ToolDoneEvent)
  | runDone (event : RunDoneEvent)
  | runError (event : RunErrorEvent)
  | skillsLoaded (event : SkillsLoadedEvent)
  | connectorSkillInjected (event : ConnectorSkillInjectedEvent)
  | skillActivated (event : SkillActivatedEvent)
  | titleChange (event : TitleChangeEvent)
  | historyCompacted (event : HistoryCompactedEvent)
  | auxUsage (event : AuxUsageEvent)
  | other (ts : Timestamp) (type : String)
  deriving DecidableEq

def ConversationEvent.ts : ConversationEvent → Timestamp
  | .userMessage event => event.ts
  | .runStart event => event.ts
  | .llmResponse event => event.ts
  | .toolStart event => event.ts
  | .toolDone event => event.ts
  | .runDone event => event.ts
  | .runError event => event.ts
  | .skillsLoaded event => event.ts
  | .connectorSkillInjected event => event.ts
  | .skillActivated event => event.ts
  | .titleChange event => event.ts
  | .historyCompacted event => event.ts
  | .auxUsage event => event.ts
  | .other ts _ => ts

def ConversationEvent.compaction? : ConversationEvent → Option HistoryCompactedEvent
  | .historyCompacted event => some event
  | _ => none

/-- The calls of an answer, in its order. -/
def toolCallsOf (content : List ContentPart) : List ToolCallPart := content.filterMap ContentPart.call?

def ConversationEvent.toolCallIds : ConversationEvent → List String
  | .llmResponse event => (toolCallsOf event.content).map ToolCallPart.toolCallId
  | _ => []

end NimbleBrain.Conversation
