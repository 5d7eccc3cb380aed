import NimbleBrain.Conversation.Display

/- Four readers fold the same log into the totals, the title and the time of a conversation. -/

namespace NimbleBrain.Conversation

open Spend

/-- The first line of a log that every reader takes. -/
structure Header where
  id : String
  createdAt : Timestamp
  updatedAt : Option Timestamp := none
  ownerId : String
  model : String
  lastModel : Option String := none
  deriving DecidableEq

-- The rates of the models that the catalog knows.
variable (catalog : String → Option UsageRates)

def estimateCost (model : String) (usage : TokenUsage) : ℚ := spendIn .usd usage (catalog model)

/-- What the runtime's index folds from the events. A title may be set to none. -/
structure IndexMetrics where
  preview : String := ""
  messageCount : Nat := 0
  inputTokens : Nat := 0
  outputTokens : Nat := 0
  costUsd : ℚ := 0
  lastEventTs : Option Timestamp := none
  title : Option (Option String) := none
  deriving DecidableEq

def previewTextOf (content : List UserContentPart) : String :=
  ((content.filterMap UserContentPart.text?).head?).getD ""

def applyEventLine (metrics : IndexMetrics) (event : ConversationEvent) : IndexMetrics :=
  let metrics := if event.ts = "" then metrics else { metrics with lastEventTs := some event.ts }
  match event with
  | .userMessage event =>
      { metrics with
        messageCount := metrics.messageCount + 1
        preview := if metrics.preview = "" then previewTextOf event.content else metrics.preview }
  | .runDone _ => { metrics with messageCount := metrics.messageCount + 1 }
  | .llmResponse event =>
      { metrics with
        inputTokens := metrics.inputTokens + event.usage.inputTokens
        outputTokens := metrics.outputTokens + event.usage.outputTokens
        costUsd := metrics.costUsd + estimateCost catalog event.model event.usage }
  | .titleChange event => { metrics with title := some event.title }
  | _ => metrics

structure ConversationSummary where
  id : String
  createdAt : Timestamp
  updatedAt : Timestamp
  title : Option String
  messageCount : Nat
  preview : String
  totalInputTokens : Nat
  totalOutputTokens : Nat
  totalCostUsd : ℚ
  ownerId : String
  deriving DecidableEq

def parseFileHeader (header : Header) (events : List ConversationEvent) : ConversationSummary :=
  let metrics := events.foldl (applyEventLine catalog) {}
  { id := header.id
    createdAt := header.createdAt
    updatedAt := (metrics.lastEventTs.or header.updatedAt).getD header.createdAt
    title := metrics.title.join
    messageCount := metrics.messageCount
    preview := metrics.preview
    totalInputTokens := metrics.inputTokens
    totalOutputTokens := metrics.outputTokens
    totalCostUsd := metrics.costUsd
    ownerId := header.ownerId }

structure UsageMetrics where
  totalInputTokens : Nat := 0
  totalOutputTokens : Nat := 0
  totalCostUsd : ℚ := 0
  lastModel : Option String := none
  deriving DecidableEq

def addResponse (metrics : UsageMetrics) (event : ConversationEvent) : UsageMetrics :=
  match event with
  | .llmResponse event =>
      { totalInputTokens := metrics.totalInputTokens + event.usage.inputTokens
        totalOutputTokens := metrics.totalOutputTokens + event.usage.outputTokens
        totalCostUsd := metrics.totalCostUsd + estimateCost catalog event.model event.usage
        lastModel := some event.model }
  | _ => metrics

def deriveUsageMetrics (events : List ConversationEvent) : UsageMetrics := events.foldl (addResponse catalog) {}

/-- The last change of the title counts, also one to none. -/
def deriveConversationMeta (events : List ConversationEvent) (title : Option String) : Option String :=
  events.foldl (fun title event =>
    match event with
    | .titleChange change => change.title
    | _ => title) title

/-- The header with what is derived from the events. -/
structure LoadedConversation where
  title : Option String
  updatedAt : Timestamp
  lastModel : Option String
  usage : UsageMetrics
  deriving DecidableEq

def applyDerivedMeta (header : Header) (events : List ConversationEvent) : LoadedConversation :=
  let usage := deriveUsageMetrics catalog events
  { title := deriveConversationMeta events none
    updatedAt := (events.getLast?.map ConversationEvent.ts).getD (header.updatedAt.getD header.createdAt)
    lastModel := (usage.lastModel.filter (· ≠ "")).or header.lastModel
    usage := usage }

namespace Display

/-- Here the usage of calls that are no turns counts too. -/
structure DerivedMetrics where
  totalInputTokens : Nat := 0
  totalOutputTokens : Nat := 0
  lastModel : Option String := none
  lastEventTs : Option Timestamp := none
  deriving DecidableEq

def accumulateEventMetrics (acc : DerivedMetrics) (event : ConversationEvent) : DerivedMetrics :=
  let acc := { acc with lastEventTs := some event.ts }
  match event with
  | .llmResponse event =>
      { acc with
        totalInputTokens := acc.totalInputTokens + event.usage.inputTokens
        totalOutputTokens := acc.totalOutputTokens + event.usage.outputTokens
        lastModel := some event.model }
  | .auxUsage event =>
      { acc with
        totalInputTokens := acc.totalInputTokens + event.usage.inputTokens
        totalOutputTokens := acc.totalOutputTokens + event.usage.outputTokens }
  | _ => acc

structure ConversationMeta where
  id : String
  createdAt : Timestamp
  updatedAt : Timestamp
  title : Option String := none
  totalInputTokens : Nat := 0
  totalOutputTokens : Nat := 0
  lastModel : Option String
  model : String
  ownerId : String
  deriving DecidableEq

def parseMeta (header : Header) : ConversationMeta where
  id := header.id
  createdAt := header.createdAt
  updatedAt := header.updatedAt.getD header.createdAt
  lastModel := header.lastModel
  model := header.model
  ownerId := header.ownerId

def applyDerivedMetrics (conversation : ConversationMeta) (metrics : DerivedMetrics) : ConversationMeta :=
  { conversation with
    totalInputTokens := metrics.totalInputTokens
    totalOutputTokens := metrics.totalOutputTokens
    lastModel := metrics.lastModel
    updatedAt := (metrics.lastEventTs.filter (· ≠ "")).getD conversation.updatedAt }

/-- Only a text replaces the title. -/
def titleText? : ConversationEvent → Option String
  | .titleChange change => change.title
  | _ => none

def deriveTitleFromEvents (title : Option String) (events : List ConversationEvent) : Option String :=
  events.foldl (fun title event => (titleText? event).or title) title

structure ConversationFile where
  conversation : ConversationMeta
  messages : List DisplayMessage
  messageCount : Nat
  preview : String

def readConversation (host : Host) (header : Header) (events : List ConversationEvent) (runActive : Bool) :
    ConversationFile :=
  let messages := reconstructFromEvents host (readableEvents events)
  let metrics := (readableEvents events).foldl accumulateEventMetrics {}
  let conversation := applyDerivedMetrics (parseMeta header) metrics
  { conversation := { conversation with title := deriveTitleFromEvents conversation.title events }
    messages := if runActive then messages else settleTrailingRun messages
    messageCount := messages.length
    preview :=
      ((messages.filterMap fun message =>
        if message.role = .user ∧ message.content ≠ "" then some message.content else none).head?).getD "" }

/-- A header read in progress. -/
structure HeaderScan where
  conversation : ConversationMeta
  preview : String := ""
  title : Option String := none
  userMessages : Nat := 0
  runStarts : List String := []
  runsWithResponse : List String := []
  metrics : DerivedMetrics := {}
  deriving DecidableEq

def foldHeaderEvent (scan : HeaderScan) : ConversationEvent → HeaderScan
  | .userMessage event =>
      { scan with
        userMessages := scan.userMessages + 1
        preview :=
          if scan.preview = "" then joinText (event.content.filterMap UserContentPart.text?) else scan.preview }
  | .runStart event => if event.runId = "" then scan else { scan with runStarts := scan.runStarts ++ [event.runId] }
  | .llmResponse event =>
      if event.runId = "" then scan
      else { scan with runsWithResponse := scan.runsWithResponse.insert event.runId }
  | .titleChange change => { scan with title := change.title.or scan.title }
  | _ => scan

def foldHeaderLine (scan : HeaderScan) (event : ConversationEvent) : HeaderScan :=
  let scan := foldHeaderEvent scan event
  if event.ts = "" then scan else { scan with metrics := accumulateEventMetrics scan.metrics event }

def scanConversationHeader (header : Header) (events : List ConversationEvent) : HeaderScan :=
  events.foldl foldHeaderLine { conversation := parseMeta header }

structure ConversationHeader where
  conversation : ConversationMeta
  preview : String
  messageCount : Nat
  deriving DecidableEq

def headerOfScan (scan : HeaderScan) : ConversationHeader where
  conversation :=
    applyDerivedMetrics { scan.conversation with title := scan.title.or scan.conversation.title } scan.metrics
  preview := scan.preview
  messageCount := scan.userMessages + (scan.runStarts.filter (· ∈ scan.runsWithResponse)).length

end Display

end NimbleBrain.Conversation
