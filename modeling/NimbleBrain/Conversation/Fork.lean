import NimbleBrain.Conversation.Reconstruct

/- A fork writes the messages of a conversation as the events of a new one. -/

namespace NimbleBrain.Conversation

def forkUserEvent (message : StoredMessage) (content : List UserContentPart) : UserMessageEvent where
  ts := message.timestamp
  content := content
  userId := message.userId.filter (· ≠ "")

/-- The reason that was recorded, or else the one that the content implies. -/
def synthesizedFinishReason (message : StoredMessage) (content : List ContentPart) : FinishReason :=
  message.metadata.finishReason.getD (if toolCallsOf content = [] then .stop else .toolCalls)

def forkResponse (message : StoredMessage) (content : List ContentPart) (runId : String) : LlmResponseEvent where
  ts := message.timestamp
  runId := runId
  model := message.metadata.model.getD "unknown"
  content := content
  usage := message.metadata.usage.getD noUsage
  llmMs := message.metadata.llmMs.getD 0
  finishReason := synthesizedFinishReason message content

/-- Replay emits an answer only inside of a run, so each answer is a run of its own. -/
def forkAssistantEvents (message : StoredMessage) (content : List ContentPart) (runId : String) :
    List ConversationEvent :=
  [.runStart { ts := message.timestamp, runId := runId, model := message.metadata.model.getD "unknown" },
    .llmResponse (forkResponse message content runId),
    .runDone
      { ts := message.timestamp, runId := runId, stopReason := "complete"
        totalMs := message.metadata.llmMs.getD 0 }]

def messagesToForkEvents : List StoredMessage → Nat → List ConversationEvent
  | [], _ => []
  | message :: rest, runCounter =>
      match message.body with
      | .user content => .userMessage (forkUserEvent message content) :: messagesToForkEvents rest runCounter
      | .assistant content =>
          forkAssistantEvents message content ("forked-" ++ toString runCounter) ++
            messagesToForkEvents rest (runCounter + 1)
      | .tool _ => messagesToForkEvents rest runCounter

/-- A number below zero leaves that many messages out at the end. -/
def sliceTo (messages : List StoredMessage) : Option Int → List StoredMessage
  | none => messages
  | some (.ofNat count) => messages.take count
  | some (.negSucc less) => messages.take (messages.length - (less + 1))

/-- The messages that a fork copies are those of the full history, not of the compacted one. -/
def messagesToCopy (host : Host) (events : List ConversationEvent) (atMessage : Option Int) : List StoredMessage :=
  sliceTo (reconstructMessages host events true) atMessage

/-- The events of the new conversation. -/
def fork (host : Host) (events : List ConversationEvent) (atMessage : Option Int) : List ConversationEvent :=
  messagesToForkEvents (messagesToCopy host events atMessage) 0

/-- What a copy keeps of a message, beside what is derived for it. -/
structure MessageCopy where
  body : Body
  timestamp : Timestamp
  userId : Option String
  files : Option (List Attachment)
  synthetic : Option String
  skill : Option String
  deriving DecidableEq

def StoredMessage.copy (message : StoredMessage) : MessageCopy where
  body := message.body
  timestamp := message.timestamp
  userId := message.userId
  files := message.metadata.files
  synthetic := message.metadata.synthetic
  skill := message.metadata.skill

/-- The message is no tool message and no overlay, and has no calls and no files. -/
def StoredMessage.isPlain (message : StoredMessage) : Bool :=
  message.role ≠ .tool ∧ message.calls = [] ∧ message.metadata.files = none ∧ message.isOverlay = false

end NimbleBrain.Conversation
