import NimbleBrain.Conversation.Events

/- A stored message is what a prompt is built from. -/

namespace NimbleBrain.Conversation

open Spend

inductive ToolOutput where
  | text (value : String)
  | errorText (value : String)
  | json (value : Json)
  deriving DecidableEq

structure ToolResultPart where
  toolCallId : String
  toolName : String
  output : ToolOutput
  deriving DecidableEq

/-- The role of a message says what its content is. -/
inductive Body where
  | user (content : List UserContentPart)
  | assistant (content : List ContentPart)
  | tool (content : List ToolResultPart)
  deriving DecidableEq

/-- A tool call as the user interface shows it. -/
structure ToolCallMeta where
  id : String
  name : String
  input : Json
  output : String
  ok : Bool
  ms : Nat
  deriving DecidableEq

structure MessageMetadata where
  skill : Option String := none
  synthetic : Option String := none
  connectorSkills : Option (List String) := none
  toolCalls : Option (List ToolCallMeta) := none
  usage : Option TokenUsage := none
  model : Option String := none
  llmMs : Option Nat := none
  iterations : Option Nat := none
  finishReason : Option FinishReason := none
  files : Option (List Attachment) := none
  deriving DecidableEq

structure StoredMessage where
  body : Body
  timestamp : Timestamp
  userId : Option String := none
  metadata : MessageMetadata := {}
  deriving DecidableEq

inductive Role where
  | user | assistant | tool
  deriving DecidableEq

def StoredMessage.role (message : StoredMessage) : Role :=
  match message.body with
  | .user _ => .user
  | .assistant _ => .assistant
  | .tool _ => .tool

/-- The calls of an assistant message. -/
def StoredMessage.calls (message : StoredMessage) : List String :=
  match message.body with
  | .assistant content => (toolCallsOf content).map ToolCallPart.toolCallId
  | _ => []

/-- The calls that a tool message answers. -/
def StoredMessage.answers (message : StoredMessage) : List String :=
  match message.body with
  | .tool content => content.map ToolResultPart.toolCallId
  | _ => []

def connectorSkillSynthetic : String := "connector_skill_injected"

def skillActivatedSynthetic : String := "skill_activated"

/-- The message carries an overlay that had no tool result to ride. -/
def StoredMessage.isOverlay (message : StoredMessage) : Bool :=
  message.metadata.synthetic = some connectorSkillSynthetic

/-- The usage of a message that no model call produced. -/
def noUsage : TokenUsage := { inputTokens := 0, outputTokens := 0 }

/-- A message that replay adds where a turn has no answer. -/
def markerMessage (text : String) (timestamp : Timestamp) (finishReason : Option FinishReason) : StoredMessage where
  body := .assistant [.text text {}]
  timestamp := timestamp
  metadata :=
    { usage := some noUsage
      llmMs := some 0
      iterations := some 0
      finishReason := finishReason }

end NimbleBrain.Conversation
