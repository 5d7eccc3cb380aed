import NimbleBrain.Conversation.Totals

/- The readers agree on a log exactly where its other model calls used nothing and its title was not cleared. -/

namespace NimbleBrain.Conversation

open Spend

/-- What every reader reports of a conversation. -/
structure Totals where
  inputTokens : Nat
  outputTokens : Nat
  title : Option String
  updatedAt : Timestamp
  deriving DecidableEq

def ConversationSummary.totals (summary : ConversationSummary) : Totals :=
  ⟨summary.totalInputTokens, summary.totalOutputTokens, summary.title, summary.updatedAt⟩

def LoadedConversation.totals (loaded : LoadedConversation) : Totals :=
  ⟨loaded.usage.totalInputTokens, loaded.usage.totalOutputTokens, loaded.title, loaded.updatedAt⟩

def Display.ConversationMeta.totals (conversation : Display.ConversationMeta) : Totals :=
  ⟨conversation.totalInputTokens, conversation.totalOutputTokens, conversation.title, conversation.updatedAt⟩

def ConversationEvent.responseUsage? : ConversationEvent → Option TokenUsage
  | .llmResponse event => some event.usage
  | _ => none

def ConversationEvent.auxUsage? : ConversationEvent → Option TokenUsage
  | .auxUsage event => some event.usage
  | _ => none

def ConversationEvent.title? : ConversationEvent → Option (Option String)
  | .titleChange change => some change.title
  | _ => none

/-- The usage of the turns, by one count of it. -/
def responseSum (count : TokenUsage → Nat) (events : List ConversationEvent) : Nat :=
  ((events.filterMap ConversationEvent.responseUsage?).map count).sum

/-- The usage of the calls that are no turns. -/
def auxSum (count : TokenUsage → Nat) (events : List ConversationEvent) : Nat :=
  ((events.filterMap ConversationEvent.auxUsage?).map count).sum

def lastTitle (events : List ConversationEvent) : Option (Option String) :=
  (events.filterMap ConversationEvent.title?).getLast?

def lastTitleText (events : List ConversationEvent) : Option String :=
  (events.filterMap Display.titleText?).getLast?

def lastTime (events : List ConversationEvent) : Option Timestamp := (events.map ConversationEvent.ts).getLast?

/-- The last title is none, and an earlier one was a text. -/
def titleCleared (events : List ConversationEvent) : Bool :=
  decide (lastTitle events = some none) && (lastTitleText events).isSome

variable (catalog : String → Option UsageRates) {events : List ConversationEvent}

variable {A B : Type}

theorem getLast?_cons_or (item : A) (rest : List A) (before : Option A) :
    (item :: rest).getLast?.or before = rest.getLast?.or (some item) := by
  cases rest with
  | nil => rfl
  | cons next more => simp [List.getLast?_cons]

/-- The last of the picked values, over an earlier one. -/
theorem getLast?_filterMap_cons (pick : A → Option B) (item : A) (rest : List A) (before : Option B) :
    ((item :: rest).filterMap pick).getLast?.or before =
      (rest.filterMap pick).getLast?.or ((pick item).or before) := by
  cases picked : pick item with
  | none => rw [List.filterMap_cons_none picked, Option.none_or]
  | some value => rw [List.filterMap_cons_some picked, getLast?_cons_or, Option.some_or]

theorem sum_filterMap_cons (pick : A → Option B) (count : B → Nat) (item : A) (rest : List A) :
    (((item :: rest).filterMap pick).map count).sum =
      ((pick item).map count).getD 0 + ((rest.filterMap pick).map count).sum := by
  cases picked : pick item with
  | none => simp [List.filterMap_cons_none picked]
  | some value => simp [List.filterMap_cons_some picked]

theorem applyEventLine_totals (metrics : IndexMetrics) (event : ConversationEvent) (timed : event.ts ≠ "") :
    let next := applyEventLine catalog metrics event
    next.inputTokens = metrics.inputTokens + (event.responseUsage?.map TokenUsage.inputTokens).getD 0 ∧
      next.outputTokens = metrics.outputTokens + (event.responseUsage?.map TokenUsage.outputTokens).getD 0 ∧
      next.title = event.title?.or metrics.title ∧
      next.lastEventTs = some event.ts := by
  simp only [applyEventLine, if_neg timed]
  cases event <;> exact ⟨rfl, rfl, rfl, rfl⟩

theorem foldl_applyEventLine (wellFormed : ∀ event ∈ events, event.ts ≠ "") (metrics : IndexMetrics) :
    let folded := events.foldl (applyEventLine catalog) metrics
    folded.inputTokens = metrics.inputTokens + responseSum TokenUsage.inputTokens events ∧
      folded.outputTokens = metrics.outputTokens + responseSum TokenUsage.outputTokens events ∧
      folded.title = (lastTitle events).or metrics.title ∧
      folded.lastEventTs = (lastTime events).or metrics.lastEventTs := by
  induction events generalizing metrics with
  | nil => exact ⟨rfl, rfl, rfl, rfl⟩
  | cons event rest ih =>
      obtain ⟨timed, wellFormed⟩ := List.forall_mem_cons.mp wellFormed
      obtain ⟨input, output, title, time⟩ := applyEventLine_totals catalog metrics event timed
      obtain ⟨inputs, outputs, titles, times⟩ := ih wellFormed (applyEventLine catalog metrics event)
      rw [input] at inputs
      rw [output] at outputs
      rw [title] at titles
      rw [time] at times
      refine ⟨?_, ?_, ?_, ?_⟩
      · rw [List.foldl_cons, inputs, responseSum, responseSum, sum_filterMap_cons, Nat.add_assoc]
      · rw [List.foldl_cons, outputs, responseSum, responseSum, sum_filterMap_cons, Nat.add_assoc]
      · rw [List.foldl_cons, titles, lastTitle, lastTitle, getLast?_filterMap_cons]
      · rw [List.foldl_cons, times, lastTime, lastTime, List.map_cons, getLast?_cons_or]

theorem addResponse_totals (metrics : UsageMetrics) (event : ConversationEvent) :
    let next := addResponse catalog metrics event
    next.totalInputTokens = metrics.totalInputTokens + (event.responseUsage?.map TokenUsage.inputTokens).getD 0 ∧
      next.totalOutputTokens =
        metrics.totalOutputTokens + (event.responseUsage?.map TokenUsage.outputTokens).getD 0 := by
  cases event <;> exact ⟨rfl, rfl⟩

theorem foldl_addResponse (events : List ConversationEvent) (metrics : UsageMetrics) :
    let folded := events.foldl (addResponse catalog) metrics
    folded.totalInputTokens = metrics.totalInputTokens + responseSum TokenUsage.inputTokens events ∧
      folded.totalOutputTokens = metrics.totalOutputTokens + responseSum TokenUsage.outputTokens events := by
  induction events generalizing metrics with
  | nil => exact ⟨rfl, rfl⟩
  | cons event rest ih =>
      obtain ⟨input, output⟩ := addResponse_totals catalog metrics event
      obtain ⟨inputs, outputs⟩ := ih (addResponse catalog metrics event)
      rw [input] at inputs
      rw [output] at outputs
      constructor
      · rw [List.foldl_cons, inputs, responseSum, responseSum, sum_filterMap_cons, Nat.add_assoc]
      · rw [List.foldl_cons, outputs, responseSum, responseSum, sum_filterMap_cons, Nat.add_assoc]

theorem deriveConversationMeta_eq (title : Option String) :
    deriveConversationMeta events title = (lastTitle events).getD title := by
  induction events generalizing title with
  | nil => rfl
  | cons event rest ih =>
      have step : deriveConversationMeta (event :: rest) title =
          deriveConversationMeta rest (event.title?.getD title) := by
        cases event <;> rfl
      have last := getLast?_filterMap_cons ConversationEvent.title? event rest none
      rw [Option.or_none, Option.or_none] at last
      rw [step, ih, lastTitle, lastTitle, last, Option.getD_or]

namespace Display

theorem accumulateEventMetrics_totals (metrics : DerivedMetrics) (event : ConversationEvent) :
    let next := accumulateEventMetrics metrics event
    next.totalInputTokens = metrics.totalInputTokens + ((event.responseUsage?.map TokenUsage.inputTokens).getD 0 +
        (event.auxUsage?.map TokenUsage.inputTokens).getD 0) ∧
      next.totalOutputTokens = metrics.totalOutputTokens + ((event.responseUsage?.map TokenUsage.outputTokens).getD 0 +
        (event.auxUsage?.map TokenUsage.outputTokens).getD 0) ∧
      next.lastEventTs = some event.ts := by
  cases event with
  | auxUsage event =>
      simp [accumulateEventMetrics, ConversationEvent.responseUsage?, ConversationEvent.auxUsage?,
        ConversationEvent.ts]
  | _ => exact ⟨rfl, rfl, rfl⟩

theorem foldl_accumulateEventMetrics (events : List ConversationEvent) (metrics : DerivedMetrics) :
    let folded := events.foldl accumulateEventMetrics metrics
    folded.totalInputTokens =
        metrics.totalInputTokens + (responseSum TokenUsage.inputTokens events + auxSum TokenUsage.inputTokens events) ∧
      folded.totalOutputTokens =
        metrics.totalOutputTokens +
          (responseSum TokenUsage.outputTokens events + auxSum TokenUsage.outputTokens events) ∧
      folded.lastEventTs = (lastTime events).or metrics.lastEventTs := by
  induction events generalizing metrics with
  | nil => exact ⟨rfl, rfl, rfl⟩
  | cons event rest ih =>
      obtain ⟨input, output, time⟩ := accumulateEventMetrics_totals metrics event
      obtain ⟨inputs, outputs, times⟩ := ih (accumulateEventMetrics metrics event)
      rw [input] at inputs
      rw [output] at outputs
      rw [time] at times
      refine ⟨?_, ?_, ?_⟩
      · rw [List.foldl_cons, inputs]
        simp only [responseSum, auxSum, sum_filterMap_cons]
        omega
      · rw [List.foldl_cons, outputs]
        simp only [responseSum, auxSum, sum_filterMap_cons]
        omega
      · rw [List.foldl_cons, times, lastTime, lastTime, List.map_cons, getLast?_cons_or]

theorem deriveTitleFromEvents_eq (title : Option String) :
    deriveTitleFromEvents title events = (lastTitleText events).or title := by
  induction events generalizing title with
  | nil => rfl
  | cons event rest ih =>
      show deriveTitleFromEvents ((titleText? event).or title) rest = _
      rw [ih, lastTitleText, lastTitleText, getLast?_filterMap_cons]

/-- The scan of a header folds the same usage, time and title as a whole read. -/
theorem foldl_foldHeaderLine (wellFormed : ∀ event ∈ events, event.ts ≠ "") (scan : HeaderScan) :
    let folded := events.foldl foldHeaderLine scan
    folded.metrics = events.foldl accumulateEventMetrics scan.metrics ∧
      folded.title = deriveTitleFromEvents scan.title events ∧
      folded.conversation = scan.conversation := by
  induction events generalizing scan with
  | nil => exact ⟨rfl, rfl, rfl⟩
  | cons event rest ih =>
      obtain ⟨timed, wellFormed⟩ := List.forall_mem_cons.mp wellFormed
      have folded : (foldHeaderLine scan event).metrics = accumulateEventMetrics scan.metrics event ∧
          (foldHeaderLine scan event).title = (titleText? event).or scan.title ∧
          (foldHeaderLine scan event).conversation = scan.conversation := by
        simp only [foldHeaderLine, if_neg timed, foldHeaderEvent]
        cases event <;> first | exact ⟨rfl, rfl, rfl⟩ | (dsimp only; split <;> exact ⟨rfl, rfl, rfl⟩)
      obtain ⟨metrics, title, conversation⟩ := ih wellFormed (foldHeaderLine scan event)
      rw [folded.1] at metrics
      rw [folded.2.1] at title
      rw [folded.2.2] at conversation
      exact ⟨metrics, title, conversation⟩

end Display

section Agreement

variable (host : Host) (header : Header) (runActive : Bool)

theorem lastTitleText_of_lastTitle :
    (∀ title, lastTitle events = some (some title) → lastTitleText events = some title) ∧
      (lastTitle events = none → lastTitleText events = none) := by
  have texts : events.filterMap Display.titleText? = (events.filterMap ConversationEvent.title?).filterMap id := by
    rw [List.filterMap_filterMap]
    exact List.filterMap_congr fun event _ => by cases event <;> rfl
  rw [lastTitle, lastTitleText, texts]
  constructor
  · intro title found
    obtain ⟨earlier, split⟩ := List.getLast?_eq_some_iff.mp found
    simp [split]
  · intro missing
    rw [List.getLast?_eq_none_iff.mp missing]
    rfl

/-- Only a title that was cleared is told apart by whether it must be a text. -/
theorem join_lastTitle_eq_iff : (lastTitle events).join = lastTitleText events ↔ titleCleared events = false := by
  cases last : lastTitle events with
  | none => simp [titleCleared, last, lastTitleText_of_lastTitle.2 last]
  | some title =>
      cases title with
      | none => cases text : lastTitleText events <;> simp [titleCleared, last, text]
      | some title => simp [titleCleared, last, lastTitleText_of_lastTitle.1 title last]

def updatedAtOf (events : List ConversationEvent) : Timestamp :=
  (lastTime events).getD (header.updatedAt.getD header.createdAt)

theorem parseFileHeader_totals (wellFormed : ∀ event ∈ events, event.ts ≠ "") :
    (parseFileHeader catalog header events).totals =
      ⟨responseSum TokenUsage.inputTokens events, responseSum TokenUsage.outputTokens events,
        (lastTitle events).join, updatedAtOf header events⟩ := by
  obtain ⟨input, output, title, time⟩ := foldl_applyEventLine catalog wellFormed {}
  simp only [ConversationSummary.totals, parseFileHeader, input, output, title, time, Nat.zero_add, Option.or_none,
    Option.getD_or, updatedAtOf]

theorem applyDerivedMeta_totals :
    (applyDerivedMeta catalog header events).totals =
      ⟨responseSum TokenUsage.inputTokens events, responseSum TokenUsage.outputTokens events,
        (lastTitle events).join, updatedAtOf header events⟩ := by
  obtain ⟨input, output⟩ := foldl_addResponse catalog events {}
  have title : (lastTitle events).getD none = (lastTitle events).join := by cases lastTitle events <;> rfl
  simp only [LoadedConversation.totals, applyDerivedMeta, deriveUsageMetrics, input, output, Nat.zero_add,
    deriveConversationMeta_eq, title, updatedAtOf, lastTime, List.getLast?_map]

/-- What both readers of the other process report. -/
def displayTotals (events : List ConversationEvent) : Totals where
  inputTokens := responseSum TokenUsage.inputTokens events + auxSum TokenUsage.inputTokens events
  outputTokens := responseSum TokenUsage.outputTokens events + auxSum TokenUsage.outputTokens events
  title := lastTitleText events
  updatedAt := updatedAtOf header events

theorem applyDerivedMetrics_totals (wellFormed : ∀ event ∈ events, event.ts ≠ "") (title : Option String) :
    let conversation := Display.applyDerivedMetrics (Display.parseMeta header)
      (events.foldl Display.accumulateEventMetrics {})
    ({ conversation with title := title } : Display.ConversationMeta).totals =
      { displayTotals header events with title := title } := by
  obtain ⟨input, output, time⟩ := Display.foldl_accumulateEventMetrics events {}
  have timed : (lastTime events).filter (· ≠ "") = lastTime events := by
    cases last : lastTime events with
    | none => rfl
    | some time =>
        obtain ⟨event, listed, rfl⟩ := List.mem_map.mp (List.mem_of_getLast? last)
        exact Option.filter_some_pos (by simpa using wellFormed event listed)
  simp only [Display.ConversationMeta.totals, Display.applyDerivedMetrics, displayTotals, updatedAtOf, input, output,
    time, Option.or_none, timed, Display.parseMeta, Nat.zero_add]

theorem readConversation_totals (wellFormed : ∀ event ∈ events, event.ts ≠ "") :
    (Display.readConversation host header events runActive).conversation.totals = displayTotals header events := by
  have readable : Display.readableEvents events = events :=
    List.filter_eq_self.mpr fun event listed => decide_eq_true (wellFormed event listed)
  have totals := applyDerivedMetrics_totals header wellFormed (lastTitleText events)
  simp only [Display.readConversation, readable, Display.deriveTitleFromEvents_eq, Display.applyDerivedMetrics,
    Display.parseMeta, Option.or_none]
  exact totals

theorem headerOfScan_totals (wellFormed : ∀ event ∈ events, event.ts ≠ "") :
    (Display.headerOfScan (Display.scanConversationHeader header events)).conversation.totals =
      displayTotals header events := by
  obtain ⟨metrics, title, conversation⟩ :=
    Display.foldl_foldHeaderLine wellFormed { conversation := Display.parseMeta header }
  have totals := applyDerivedMetrics_totals header wellFormed (lastTitleText events)
  rw [Display.deriveTitleFromEvents_eq, Option.or_none] at title
  rw [Display.scanConversationHeader, Display.headerOfScan, metrics, title, conversation]
  simp only [Display.applyDerivedMetrics, Display.parseMeta, Option.or_none]
  exact totals

/-- The index, the loaded conversation and the two readers of the other process agree on a log exactly where the
calls that are no turns used no tokens and no title was cleared. -/
theorem totals_agree_iff (wellFormed : ∀ event ∈ events, event.ts ≠ "") :
    ((parseFileHeader catalog header events).totals = (applyDerivedMeta catalog header events).totals ∧
        (applyDerivedMeta catalog header events).totals =
          (Display.readConversation host header events runActive).conversation.totals ∧
        (Display.readConversation host header events runActive).conversation.totals =
          (Display.headerOfScan (Display.scanConversationHeader header events)).conversation.totals) ↔
      auxSum TokenUsage.inputTokens events = 0 ∧ auxSum TokenUsage.outputTokens events = 0 ∧
        titleCleared events = false := by
  rw [parseFileHeader_totals catalog header wellFormed, applyDerivedMeta_totals,
    readConversation_totals host header runActive wellFormed, headerOfScan_totals header wellFormed,
    ← join_lastTitle_eq_iff]
  simp [displayTotals]

end Agreement

/-- A conversation whose first turn was answered. -/
def answeredLog : List ConversationEvent :=
  [.userMessage { ts := "a", content := [.text "Add them"] },
    .runStart { ts := "b", runId := "r" },
    .llmResponse
      { ts := "c", runId := "r", model := "m", usage := { inputTokens := 3, outputTokens := 2 }, llmMs := 1
        finishReason := .stop, content := [.text "Five" {}] },
    .runDone { ts := "d", runId := "r", stopReason := "complete" },
    .titleChange { ts := "e", title := some "Sums" }]

/-- The same conversation as it is written: the call that found the title is recorded too. -/
def titledLog : List ConversationEvent :=
  answeredLog ++
    [.auxUsage
      { ts := "f", source := "title", model := "m", usage := { inputTokens := 4, outputTokens := 1 }, llmMs := 1 }]

def sampleHeader : Header where
  id := "conv"
  createdAt := "0"
  ownerId := "owner"
  model := "m"

theorem totals_agree_answered :
    (parseFileHeader (fun _ => none) sampleHeader answeredLog).totals =
      (Display.readConversation plainHost sampleHeader answeredLog false).conversation.totals := by
  have agree := (@totals_agree_iff (fun _ => none) answeredLog plainHost sampleHeader false (by decide)).mpr (by decide)
  exact agree.1.trans agree.2.1

/-- The other call's tokens are counted by the readers of the other process alone, and a title that is cleared is
still shown there. -/
theorem title_call_counted_apart :
    (parseFileHeader (fun _ => none) sampleHeader titledLog).totals ≠
        (Display.headerOfScan (Display.scanConversationHeader sampleHeader titledLog)).conversation.totals ∧
      (parseFileHeader (fun _ => none) sampleHeader
          (answeredLog ++ [.titleChange { ts := "f", title := none }])).totals ≠
        (Display.headerOfScan (Display.scanConversationHeader sampleHeader
          (answeredLog ++ [.titleChange { ts := "f", title := none }]))).conversation.totals := by
  constructor
  · intro same
    have counted : (5 : Nat) = 5 + 5 := congrArg (fun totals => totals.inputTokens + totals.outputTokens) same
    omega
  · intro same
    have titled : (none : Option String) = some "Sums" := congrArg Totals.title same
    simp at titled

end NimbleBrain.Conversation
