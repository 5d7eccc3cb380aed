import NimbleBrain.Conversation.Guidance
import NimbleBrain.Conversation.Retention
import NimbleBrain.Library.Separate

/- The messages of a conversation are rebuilt from its events when they are read. -/

namespace NimbleBrain.Conversation

open Library

/-- The text that stands in for a turn without content. -/
def truncationMarker : FinishReason → String
  | .length => "[Previous turn was cut off at the output-token limit before producing visible content.]"
  | .contentFilter => "[Previous turn was blocked by content filtering.]"
  | .error => "[Previous turn ended with a model error.]"
  | .toolCalls => "[Previous turn declared tool calls but emitted none.]"
  | .other => "[Previous turn ended without producing content.]"
  | .stop => "[Previous turn ended without producing content.]"

def orphanedToolCallsMarker : String :=
  "[Previous turn called tools but tool execution did not complete (the run was cut short before any tool returned). The tool calls were dropped on reload.]"

def cancelledRunMarker : String := "[This turn was stopped before it finished.]"

def abandonedRunMarker : String := "[Previous turn ended without producing any response.]"

def endedOnToolResultsMarker : String :=
  "[Previous turn ended after its tool calls, without a final response.]"

variable (host : Host)

def parseToolInput (input : Json) : Json :=
  match input with
  | .string text => (host.parseJson text).getD .emptyObject
  | .scalar _ => .emptyObject
  | value => value

/-- What the provider sent with a part is sent back with it. -/
def ProviderData.forReplay (data : ProviderData) : ProviderData :=
  { data with options := data.metadata.or data.options }

def normalizePart : ContentPart → Option ContentPart
  | .toolCall call =>
      let input :=
        match call.input with
        | .string text => (host.parseJson text).getD .emptyObject
        | value => value
      some (.toolCall { call with input := input, provider := call.provider.forReplay })
  | .text text provider => some (.text text provider.forReplay)
  | .reasoning text provider => some (.reasoning text provider.forReplay)
  | .file mediaType data provider => some (.file mediaType data provider.forReplay)
  | .other _ => none

/-- The blocks of an answer in the shape of a prompt. -/
def normalizeForReplay (content : List ContentPart) : List ContentPart := content.filterMap (normalizePart host)

/-- The events of one run. An overlay is placed by the number of answers before it. -/
structure RunCollections where
  llmResponses : List LlmResponseEvent := []
  toolDones : Table String ToolDoneEvent := fun _ => none
  toolInputs : Table String Json := fun _ => none
  connectorSkills : List (ConnectorSkillInjectedEvent × Nat) := []
  skillActivations : Table String SkillActivatedEvent := fun _ => none

/-- A collected run and the events past it. -/
structure CollectedRun extends RunCollections where
  rest : List ConversationEvent
  cancelledAt : Option Timestamp := none

def toUserContentPart : UserContentPart → Option UserContentPart
  | .text text => some (.text text)
  | .resourceLink uri mimeType name => some (.resourceLink uri mimeType name)
  | .other _ => none

def buildUserMessage (event : UserMessageEvent) : StoredMessage where
  body := .user (event.content.filterMap toUserContentPart)
  timestamp := event.ts
  userId := event.userId.filter (· ≠ "")
  metadata := { files := event.files }

def isExplicitRunTerminator (runId : String) : ConversationEvent → Bool
  | .runDone event => event.runId = runId
  | .runError event => event.runId = runId
  | _ => false

/-- A new turn ends a run that never closed. -/
def isImplicitRunEnd : ConversationEvent → Bool
  | .userMessage _ => true
  | .runStart _ => true
  | _ => false

def cancelledAt : ConversationEvent → Option Timestamp
  | .runDone event => if event.stopReason = "cancelled" then some event.ts else none
  | _ => none

def accumulateRunEvent (runId : String) (acc : RunCollections) : ConversationEvent → RunCollections
  | .llmResponse event =>
      if event.runId = runId then { acc with llmResponses := acc.llmResponses ++ [event] } else acc
  | .toolDone event =>
      if event.runId = runId then
        { acc with toolDones := Function.update acc.toolDones event.id (some event) }
      else acc
  | .toolStart event =>
      if event.runId = runId ∧ event.input.isSome then
        { acc with toolInputs := Function.update acc.toolInputs event.id event.input }
      else acc
  | .connectorSkillInjected event =>
      { acc with connectorSkills := acc.connectorSkills ++ [(event, acc.llmResponses.length)] }
  | .skillActivated event =>
      if event.runId = runId then
        { acc with skillActivations := Function.update acc.skillActivations event.toolCallId (some event) }
      else acc
  | _ => acc

/-- The run takes its own terminator. A new turn is left for the caller. -/
def collectRunEvents (runId : String) : List ConversationEvent → RunCollections → CollectedRun
  | [], acc => { acc with rest := [] }
  | inner :: rest, acc =>
      if isExplicitRunTerminator runId inner then { acc with rest := rest, cancelledAt := cancelledAt inner }
      else if isImplicitRunEnd inner then { acc with rest := inner :: rest }
      else collectRunEvents runId rest (accumulateRunEvent runId acc inner)

def baseResponseMetadata (response : LlmResponseEvent) (iterations : Nat) : MessageMetadata where
  usage := some response.usage
  model := some response.model
  llmMs := some response.llmMs
  iterations := some iterations
  finishReason := some response.finishReason

/-- The calls of an answer that have a result, with it. -/
def executedToolCalls (toolDones : Table String ToolDoneEvent) (content : List ContentPart) :
    List (ToolCallPart × ToolDoneEvent) :=
  (toolCallsOf content).filterMap fun call => (toolDones call.toolCallId).map fun done => (call, done)

def buildToolCallMeta (toolInputs : Table String Json) (call : ToolCallPart) (done : ToolDoneEvent) :
    ToolCallMeta where
  id := call.toolCallId
  name := call.toolName
  input := ((toolInputs call.toolCallId).filter (· ≠ .scalar "null")).getD (parseToolInput host call.input)
  output := done.output
  ok := done.ok
  ms := done.ms

/-- The model reads on replay what it read live. -/
def buildToolResultMessage (skillActivations : Table String SkillActivatedEvent) (call : ToolCallPart)
    (done : ToolDoneEvent) : StoredMessage where
  body := .tool
    [{ toolCallId := call.toolCallId
       toolName := call.toolName
       output := .text (done.modelOutput.getD (boundToolResultForModel done.output)) }]
  timestamp := done.ts
  metadata :=
    match skillActivations call.toolCallId with
    | some activation => { synthetic := some skillActivatedSynthetic, skill := some activation.skillName }
    | none => {}

/-- Reasoning that the provider takes back. -/
def ContentPart.roundTrips : ContentPart → Bool
  | .reasoning _ provider => provider.options.isSome
  | _ => false

/-- An honest message for a turn without content, where one is needed. -/
def buildPlaceholderMessage (response : LlmResponseEvent) (replayContent : List ContentPart)
    (hasOrphanedToolCalls : Bool) (metadata : MessageMetadata) : Option StoredMessage :=
  let reasoningWithMeta := replayContent.filter ContentPart.roundTrips
  if hasOrphanedToolCalls || replayContent.any ContentPart.isReasoning || response.finishReason ≠ .stop then
    let text := if hasOrphanedToolCalls then orphanedToolCallsMarker else truncationMarker response.finishReason
    let content :=
      if !hasOrphanedToolCalls && !reasoningWithMeta.isEmpty then reasoningWithMeta else [.text text {}]
    some { body := .assistant content, timestamp := response.ts, metadata := metadata }
  else none

/-- A call without a result is left out of a prompt. -/
def isAnswered (toolDones : Table String ToolDoneEvent) (part : ContentPart) : Bool :=
  part.call?.all fun call => (toolDones call.toolCallId).isSome

/-- The messages of one answer: itself, then a result for each call that has one. -/
def messagesForLlmResponse (response : LlmResponseEvent) (toolDones : Table String ToolDoneEvent)
    (toolInputs : Table String Json) (iterations : Nat) (skillActivations : Table String SkillActivatedEvent) :
    List StoredMessage :=
  let executed := executedToolCalls toolDones response.content
  let hasOrphanedToolCalls := decide (executed.length < (toolCallsOf response.content).length)
  let replayContent := normalizeForReplay host (response.content.filter (isAnswered toolDones))
  let metadata := baseResponseMetadata response iterations
  if replayContent.any ContentPart.isText || !executed.isEmpty then
    let toolCallsMeta := executed.map fun (call, done) => buildToolCallMeta host toolInputs call done
    { body := .assistant replayContent
      timestamp := response.ts
      metadata := { metadata with toolCalls := if toolCallsMeta = [] then none else some toolCallsMeta } } ::
      executed.map fun (call, done) => buildToolResultMessage skillActivations call done
  else (buildPlaceholderMessage response replayContent hasOrphanedToolCalls metadata).toList

def ConnectorSkillInjectedEvent.delivered (event : ConnectorSkillInjectedEvent) : DeliveredGuidance where
  skillName := event.skillName
  scope := event.scope
  skillBody := event.skillBody
  heldToolCallId := event.heldToolCallId

/-- An overlay without a tool result to ride is a message of its own. -/
def buildConnectorSkillMessage (event : ConnectorSkillInjectedEvent) : StoredMessage where
  body := .user [.text event.delivered.block]
  timestamp := event.ts
  metadata := { synthetic := some connectorSkillSynthetic, skill := some event.skillName }

/-- A tool message with the guidance of its results. -/
def carryGuidance (guidance : Table String CarriedGuidance) (message : StoredMessage) : StoredMessage :=
  match message.body with
  | .tool content =>
      let skills := content.flatMap fun part => ((guidance part.toolCallId).map CarriedGuidance.skills).getD []
      if skills = [] then message
      else
        { message with
          body := .tool (content.map fun part => withGuidance part (guidance part.toolCallId))
          metadata := { message.metadata with connectorSkills := some skills } }
  | _ => message

/-- The overlays of an iteration are put in its tool results, or after it where it has none. -/
def withConnectorSkills (emitted : List StoredMessage) (delivered : List ConnectorSkillInjectedEvent) :
    List StoredMessage :=
  if delivered = [] then emitted
  else
    let toolCallIds := emitted.flatMap StoredMessage.answers
    if toolCallIds = [] then emitted ++ delivered.map buildConnectorSkillMessage
    else
      emitted.map
        (carryGuidance (guidanceByToolCall toolCallIds (delivered.map ConnectorSkillInjectedEvent.delivered)))

/-- A stopped run ends with a marker, on its last message where that is text alone. -/
def appendCancelledMarker (messages : List StoredMessage) (ts : Timestamp) : List StoredMessage :=
  match messages.getLast? with
  | some last =>
      match last.body with
      | .assistant content =>
          if content.all ContentPart.isText then
            messages.dropLast ++ [{ last with body := .assistant (content ++ [.text cancelledRunMarker {}]) }]
          else messages
      | _ => messages ++ [markerMessage cancelledRunMarker ts none]
  | none => [markerMessage cancelledRunMarker ts none]

/-- The overlays that follow the given number of answers. -/
def RunCollections.deliveredAfter (run : RunCollections) (responses : Nat) : List ConnectorSkillInjectedEvent :=
  (run.connectorSkills.filter fun overlay => overlay.2 = responses).map Prod.fst

/-- The messages of one answer with its overlays. -/
def responseMessages (run : RunCollections) (response : LlmResponseEvent) (emitted : Nat) : List StoredMessage :=
  withConnectorSkills
    (messagesForLlmResponse host response run.toolDones run.toolInputs run.llmResponses.length
      run.skillActivations)
    (run.deliveredAfter emitted)

/-- The messages of one run. An overlay that precedes its answers comes at its end. -/
def runMessages (run : CollectedRun) : List StoredMessage :=
  let messages :=
    (run.llmResponses.zipIdx 1).flatMap
        (fun (response, emitted) => responseMessages host run.toRunCollections response emitted) ++
      (run.deliveredAfter 0).map buildConnectorSkillMessage
  match run.cancelledAt with
  | some ts => appendCancelledMarker messages ts
  | none => messages

theorem collectRunEvents_rest_length (runId : String) (events : List ConversationEvent) (acc : RunCollections) :
    (collectRunEvents runId events acc).rest.length ≤ events.length := by
  induction events generalizing acc with
  | nil => exact Nat.le_refl _
  | cons inner rest ih =>
      rw [collectRunEvents]
      split
      · exact Nat.le_succ _
      · split
        · exact Nat.le_refl _
        · exact (ih _).trans (Nat.le_succ _)

/-- Turns of the user and runs. The events outside of both are skipped. -/
def buildMessagesFromEvents : List ConversationEvent → List StoredMessage
  | [] => []
  | .userMessage event :: rest => buildUserMessage event :: buildMessagesFromEvents rest
  | .runStart start :: rest =>
      runMessages host (collectRunEvents start.runId rest {}) ++
        buildMessagesFromEvents (collectRunEvents start.runId rest {}).rest
  | _ :: rest => buildMessagesFromEvents rest
termination_by events => events.length
decreasing_by
  all_goals simp only [List.length_cons]
  · exact Nat.lt_succ_self _
  · exact Nat.lt_succ_of_le (collectRunEvents_rest_length ..)
  · exact Nat.lt_succ_self _

/-- The marker that is missing between two messages. -/
def markerBetween (before message : StoredMessage) : Option String :=
  if message.role ≠ .user then none
  else if before.role = .tool then some endedOnToolResultsMarker
  else if before.role = .user ∧ !(before.isOverlay && message.isOverlay) then some abandonedRunMarker
  else none

/-- A marker sorts between its neighbours, where their times can be read. -/
def placeholderTs (before message : StoredMessage) : Timestamp :=
  match host.parseDate before.timestamp, host.parseDate message.timestamp with
  | some earlier, some later => host.toISOString (min (earlier + 1) later)
  | _, _ => message.timestamp

def alternationMarker (before message : StoredMessage) : Option StoredMessage :=
  (markerBetween before message).map fun text =>
    markerMessage text (placeholderTs host before message) (some .other)

/-- No message of a user follows another one or a tool result, except for overlays. -/
def ensureRoleAlternation (messages : List StoredMessage) : List StoredMessage :=
  if messages.length < 2 then messages else separate (alternationMarker host) none messages

/-- A short history has no two neighbours, so the test on its length changes nothing. -/
theorem ensureRoleAlternation_eq (messages : List StoredMessage) :
    ensureRoleAlternation host messages = separate (alternationMarker host) none messages := by
  unfold ensureRoleAlternation
  split
  · rename_i short
    match messages, short with
    | [], _ => rw [separate]
    | [message], _ => rw [separate, separate]
    | first :: second :: rest, short => exact absurd short (by simp)
  · rfl

def lastCompaction (events : List ConversationEvent) : Option HistoryCompactedEvent :=
  (events.filterMap ConversationEvent.compaction?).getLast?

def withoutCompactions (events : List ConversationEvent) : List ConversationEvent :=
  events.filter fun event => event.compaction?.isNone

/-- The full history, or the history that the last compaction left for the model. -/
def reconstructMessages (events : List ConversationEvent) (ignoreCompaction : Bool) : List StoredMessage :=
  match (if ignoreCompaction then none else lastCompaction events) with
  | some compaction =>
      let boundary := compaction.compactedThroughTs
      let tail := events.filter fun event => event.compaction?.isNone ∧ boundary ≤ event.ts
      let retained := selectRetainedOperatorMessages (extractOperatorTurns events) boundary
      ensureRoleAlternation host
        (compactionSummaryMessages compaction.summary boundary retained ++ buildMessagesFromEvents host tail)
  | none => ensureRoleAlternation host (buildMessagesFromEvents host (withoutCompactions events))

/-- A run that was stopped between the results of its two calls. -/
def stoppedLog : List ConversationEvent :=
  [.userMessage { ts := "a", content := [.text "Send it"] },
    .runStart { ts := "b", runId := "r" },
    .llmResponse
      { ts := "c", runId := "r", model := "m", usage := noUsage, llmMs := 1, finishReason := .toolCalls
        content := [.toolCall ⟨"one", "mail__send", .string "{}", {}⟩, .toolCall ⟨"two", "mail__send", .string "{}", {}⟩] },
    .toolDone { ts := "d", runId := "r", name := "mail__send", id := "one", ok := true, ms := 1, output := "sent" },
    .runDone { ts := "e", runId := "r", stopReason := "cancelled" },
    .userMessage { ts := "f", content := [.text "And now?"] }]

end NimbleBrain.Conversation
