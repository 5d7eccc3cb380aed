import NimbleBrain.Conversation.Display
import NimbleBrain.Conversation.ReplayContent
import NimbleBrain.Conversation.RunSpan

/- The two readers cut a log into the same turns, and show the same text and the same calls of each. -/

namespace NimbleBrain.Conversation

open Library

/-- A turn of the user, or a run with the events that follow its start. -/
inductive Turn where
  | user (event : UserMessageEvent)
  | run (start : RunStartEvent) (events : List ConversationEvent)

def turnsOf : List ConversationEvent → List Turn
  | [] => []
  | .userMessage event :: rest => .user event :: turnsOf rest
  | .runStart start :: rest => .run start rest :: turnsOf (collectRunEvents start.runId rest {}).rest
  | _ :: rest => turnsOf rest
termination_by events => events.length
decreasing_by
  all_goals simp only [List.length_cons]
  · exact Nat.lt_succ_self _
  · exact Nat.lt_succ_of_le (collectRunEvents_rest_length ..)
  · exact Nat.lt_succ_self _

def Turn.user? : Turn → Option UserMessageEvent
  | .user event => some event
  | .run .. => none

def ConversationEvent.user? : ConversationEvent → Option UserMessageEvent
  | .userMessage event => some event
  | _ => none

variable (host : Host)

/-- What replay makes of a turn. -/
def Turn.replayed : Turn → List StoredMessage
  | .user event => [buildUserMessage event]
  | .run start events => runMessages host (collectRunEvents start.runId events {})

/-- What a person sees of a turn. -/
def Turn.displayed : Turn → Option DisplayMessage
  | .user event => some (Display.buildUserMessage event)
  | .run start events => (Display.collectRun host start events).1

variable {host}

/-- The two scans of a run collect the same and stop at the same event. -/
theorem scanRunEvents_collectRunEvents (runId : String) (events : List ConversationEvent) (scan : Display.RunScan)
    (acc : RunCollections) (responses : scan.llmResponses = acc.llmResponses) (dones : scan.toolDones = acc.toolDones)
    (inputs : scan.toolInputs = acc.toolInputs) :
    let scanned := Display.scanRunEvents runId events scan
    let collected := collectRunEvents runId events acc
    scanned.llmResponses = collected.llmResponses ∧ scanned.toolDones = collected.toolDones ∧
      scanned.toolInputs = collected.toolInputs ∧ scanned.rest = collected.rest := by
  induction events generalizing scan acc with
  | nil => exact ⟨responses, dones, inputs, rfl⟩
  | cons inner rest ih =>
      dsimp only at ih ⊢
      rw [Display.scanRunEvents, collectRunEvents]
      cases inner with
      | runDone event | runError event =>
          by_cases own : event.runId = runId
          · simp [Display.classifyRunBoundary, isExplicitRunTerminator, own, responses, dones, inputs]
          · simpa [Display.classifyRunBoundary, isExplicitRunTerminator, isImplicitRunEnd, own,
              Display.collectRunContentEvent, accumulateRunEvent] using ih scan acc responses dones inputs
      | userMessage event | runStart event =>
          simp [Display.classifyRunBoundary, isExplicitRunTerminator, isImplicitRunEnd, responses, dones, inputs]
      | llmResponse event | toolStart event | toolDone event | skillsLoaded event | skillActivated event =>
          simp only [Display.classifyRunBoundary, isExplicitRunTerminator, isImplicitRunEnd, Bool.false_eq_true,
            if_false]
          apply ih <;> simp only [Display.collectRunContentEvent, accumulateRunEvent] <;> split <;> simp_all
      | _ =>
          simp only [Display.classifyRunBoundary, isExplicitRunTerminator, isImplicitRunEnd, Bool.false_eq_true,
            if_false]
          exact ih _ _ responses dones inputs

theorem buildMessagesFromEvents_turns (events : List ConversationEvent) :
    buildMessagesFromEvents host events = (turnsOf events).flatMap (Turn.replayed host) := by
  induction events using turnsOf.induct with
  | case1 => rw [turnsOf, buildMessagesFromEvents, List.flatMap_nil]
  | case2 event rest ih =>
      rw [turnsOf, buildMessagesFromEvents, List.flatMap_cons, ih]
      rfl
  | case3 start rest ih =>
      rw [turnsOf, buildMessagesFromEvents, List.flatMap_cons, ih]
      rfl
  | case4 event rest noUser noStart ih =>
      rw [turnsOf, buildMessagesFromEvents, ih] <;> assumption

theorem reconstructFromEvents_turns (events : List ConversationEvent) :
    Display.reconstructFromEvents host events = (turnsOf events).filterMap (Turn.displayed host) := by
  induction events using turnsOf.induct with
  | case1 => rw [turnsOf, Display.reconstructFromEvents, List.filterMap_nil]
  | case2 event rest ih =>
      rw [turnsOf, Display.reconstructFromEvents, ih]
      rfl
  | case3 start rest ih =>
      have same := (scanRunEvents_collectRunEvents start.runId rest { endTs := start.ts } {} rfl rfl rfl).2.2.2
      rw [turnsOf, Display.reconstructFromEvents, List.filterMap_cons, Turn.displayed]
      change _ ++ Display.reconstructFromEvents host (Display.scanRunEvents start.runId rest { endTs := start.ts }).rest = _
      rw [same, ih]
      cases (Display.collectRun host start rest).1 <;> rfl
  | case4 event rest noUser noStart ih =>
      rw [turnsOf, Display.reconstructFromEvents, ih] <;> assumption

/-- What is picked from users' messages and run starts is picked from the turns. -/
theorem turnsOf_pick {A : Type} (pickTurn : Turn → Option A) (pick : ConversationEvent → Option A)
    (user : ∀ event, pickTurn (.user event) = pick (.userMessage event))
    (run : ∀ start after, pickTurn (.run start after) = pick (.runStart start))
    (inner : ∀ event, isImplicitRunEnd event = false → pick event = none) (events : List ConversationEvent) :
    (turnsOf events).filterMap pickTurn = events.filterMap pick := by
  induction events using turnsOf.induct with
  | case1 => rw [turnsOf]; rfl
  | case2 event rest ih => rw [turnsOf, List.filterMap_cons, List.filterMap_cons, user, ih]
  | case3 start rest ih =>
      have within : (runSpan start.runId rest).filterMap pick = [] :=
        List.filterMap_eq_nil_iff.mpr fun event member => inner event (runSpan_inner _ _ event member)
      have whole : rest.filterMap pick = (collectRunEvents start.runId rest {}).rest.filterMap pick := by
        conv_lhs => rw [← runSpan_append_rest start.runId rest {}, List.filterMap_append, within, List.nil_append]
      rw [turnsOf, List.filterMap_cons, List.filterMap_cons, run, ih, whole]
  | case4 event rest noUser noStart ih =>
      rw [turnsOf, ih, List.filterMap_cons_none (inner event ?_)]
      · cases event <;> simp_all [isImplicitRunEnd]
      · exact noUser
      · exact noStart

/-- Every message of a user starts a turn, within a run or not. -/
theorem turnsOf_users (events : List ConversationEvent) :
    (turnsOf events).filterMap Turn.user? = events.filterMap ConversationEvent.user? := by
  refine turnsOf_pick _ _ (fun event => rfl) (fun start after => rfl) (fun event inner => ?_) events
  cases event <;> simp_all [isImplicitRunEnd, ConversationEvent.user?]

/-- Texts with markers of a replay among them. -/
inductive Marked : List String → List String → Prop where
  | nil : Marked [] []
  | own (text : String) {own texts : List String} (rest : Marked own texts) : Marked (text :: own) (text :: texts)
  | marker {text : String} {own texts : List String}
      (inserted : text = cancelledRunMarker ∨ text = orphanedToolCallsMarker ∨ ∃ reason, text = truncationMarker reason)
      (rest : Marked own texts) : Marked own (text :: texts)

namespace Marked

theorem refl : ∀ texts, Marked texts texts
  | [] => .nil
  | text :: rest => .own text (refl rest)

theorem append {own texts more moreTexts : List String} (first : Marked own texts) (second : Marked more moreTexts) :
    Marked (own ++ more) (texts ++ moreTexts) := by
  induction first with
  | nil => exact second
  | own text _ ih => exact .own text ih
  | marker inserted _ ih => exact .marker inserted ih

theorem flatMap {A : Type} {items : List A} {own texts : A → List String}
    (each : ∀ item ∈ items, Marked (own item) (texts item)) : Marked (items.flatMap own) (items.flatMap texts) := by
  induction items with
  | nil => exact .nil
  | cons item rest ih =>
      exact (each item (List.mem_cons_self ..)).append
        (ih fun other member => each other (List.mem_cons_of_mem _ member))

theorem trans {first second third : List String} (one : Marked first second) (other : Marked second third) :
    Marked first third := by
  induction other generalizing first with
  | nil => exact one
  | own text _ ih =>
      cases one with
      | own _ rest => exact .own text (ih rest)
      | marker inserted rest => exact .marker inserted (ih rest)
  | marker inserted _ ih => exact .marker inserted (ih one)

end Marked

variable {response : LlmResponseEvent} {toolDones : Table String ToolDoneEvent} {toolInputs : Table String Json}
  {iterations : Nat} {skillActivations : Table String SkillActivatedEvent}

theorem messagesForLlmResponse_texts :
    Marked (response.content.filterMap ContentPart.text?)
      ((messagesForLlmResponse host response toolDones toolInputs iterations skillActivations).flatMap
        StoredMessage.assistantTexts) := by
  unfold messagesForLlmResponse
  dsimp only
  split
  · have silent : ((executedToolCalls toolDones response.content).map fun entry =>
        buildToolResultMessage skillActivations entry.1 entry.2).flatMap StoredMessage.assistantTexts = [] := by
      simp [List.flatMap_map, buildToolResultMessage, StoredMessage.assistantTexts]
    rw [List.flatMap_cons, silent, List.append_nil]
    change Marked _ ((normalizeForReplay host (response.content.filter (isAnswered toolDones))).filterMap _)
    rw [texts_replayContent]
    exact .refl _
  · rename_i empty
    have none : response.content.filterMap ContentPart.text? = [] := by
      rw [← @texts_replayContent host toolDones, ← any_isText_iff]
      simp only [Bool.or_eq_true, not_or, Bool.not_eq_true] at empty
      exact empty.1
    rw [none]
    unfold buildPlaceholderMessage
    dsimp only
    split
    · rw [Option.toList_some, List.flatMap_singleton]
      dsimp only [StoredMessage.assistantTexts]
      split
      · have silent : ((normalizeForReplay host (response.content.filter (isAnswered toolDones))).filter
            ContentPart.roundTrips).filterMap ContentPart.text? = [] := by
          rw [List.filterMap_eq_nil_iff]
          intro part member
          have kept := (List.mem_filter.mp member).2
          cases part <;> simp_all [ContentPart.roundTrips, ContentPart.text?]
        rw [silent]
        exact .nil
      · refine .marker ?_ .nil
        split
        · exact .inr (.inl rfl)
        · exact .inr (.inr ⟨_, rfl⟩)
    · exact .nil

theorem messagesForLlmResponse_calls :
    (messagesForLlmResponse host response toolDones toolInputs iterations skillActivations).flatMap
        StoredMessage.resultCalls =
      ((toolCallsOf response.content).filter fun call => (toolDones call.toolCallId).isSome).map
        ToolCallPart.idAndName := by
  have results : ∀ executed : List (ToolCallPart × ToolDoneEvent),
      (executed.map fun entry => buildToolResultMessage skillActivations entry.1 entry.2).flatMap
        StoredMessage.resultCalls = (executed.map Prod.fst).map ToolCallPart.idAndName := by
    intro executed
    induction executed with
    | nil => rfl
    | cons entry rest ih =>
        rw [List.map_cons, List.flatMap_cons, ih]
        rfl
  rw [← executedToolCalls_fst]
  unfold messagesForLlmResponse
  dsimp only
  split
  · rw [List.flatMap_cons, results]
    rfl
  · rename_i empty
    simp only [Bool.or_eq_true, not_or, Bool.not_eq_true, Bool.not_eq_false', List.isEmpty_iff] at empty
    rw [empty.2]
    unfold buildPlaceholderMessage
    dsimp only
    split <;> rfl

variable {run : RunCollections}

/-- An overlay of its own is no text of the assistant and no result. -/
theorem overlays_silent (events : List ConnectorSkillInjectedEvent) :
    (events.map buildConnectorSkillMessage).flatMap StoredMessage.assistantTexts = [] ∧
      (events.map buildConnectorSkillMessage).flatMap StoredMessage.resultCalls = [] := by
  simp [List.flatMap_map, buildConnectorSkillMessage, StoredMessage.assistantTexts, StoredMessage.resultCalls]

theorem withConnectorSkills_same (emitted : List StoredMessage) (delivered : List ConnectorSkillInjectedEvent) :
    (withConnectorSkills emitted delivered).flatMap StoredMessage.assistantTexts =
        emitted.flatMap StoredMessage.assistantTexts ∧
      (withConnectorSkills emitted delivered).flatMap StoredMessage.resultCalls =
        emitted.flatMap StoredMessage.resultCalls := by
  obtain ⟨texts, calls⟩ := overlays_silent delivered
  unfold withConnectorSkills
  dsimp only
  split
  · exact ⟨rfl, rfl⟩
  · split
    · rw [List.flatMap_append, List.flatMap_append, texts, calls, List.append_nil, List.append_nil]
      exact ⟨rfl, rfl⟩
    · simp [List.flatMap_map, carryGuidance_assistantTexts, carryGuidance_resultCalls]

/-- The marker of a stopped run is the only change to what the run said. -/
theorem appendCancelledMarker_same (messages : List StoredMessage) (ts : Timestamp) :
    Marked (messages.flatMap StoredMessage.assistantTexts)
        ((appendCancelledMarker messages ts).flatMap StoredMessage.assistantTexts) ∧
      (appendCancelledMarker messages ts).flatMap StoredMessage.resultCalls =
        messages.flatMap StoredMessage.resultCalls := by
  have marker : Marked [] [cancelledRunMarker] := .marker (.inl rfl) .nil
  have pushed := (Marked.refl (messages.flatMap StoredMessage.assistantTexts)).append marker
  rw [List.append_nil] at pushed
  unfold appendCancelledMarker
  split
  · rename_i last found
    split
    · rename_i content body
      split
      · have whole : messages = messages.dropLast ++ [last] := by
          rw [List.dropLast_append_getLast? last found]
        have texts : messages.flatMap StoredMessage.assistantTexts =
            messages.dropLast.flatMap StoredMessage.assistantTexts ++ content.filterMap ContentPart.text? := by
          conv_lhs => rw [whole]
          simp [StoredMessage.assistantTexts, body]
        have calls : messages.flatMap StoredMessage.resultCalls =
            messages.dropLast.flatMap StoredMessage.resultCalls := by
          conv_lhs => rw [whole]
          simp [StoredMessage.resultCalls, body]
        refine ⟨?_, by simp [calls, StoredMessage.resultCalls]⟩
        rw [texts] at pushed ⊢
        simpa [StoredMessage.assistantTexts, ContentPart.text?] using pushed
      · exact ⟨.refl _, rfl⟩
    · refine ⟨by simpa [markerMessage, StoredMessage.assistantTexts, ContentPart.text?] using pushed, ?_⟩
      simp [markerMessage, StoredMessage.resultCalls]
  · rename_i empty
    cases List.getLast?_eq_none_iff.mp empty
    exact ⟨marker, rfl⟩

/-- The text of a replayed run is the text of its answers, with markers. Its results are those of their calls. -/
theorem runMessages_same (run : CollectedRun) :
    Marked (run.llmResponses.flatMap fun response => response.content.filterMap ContentPart.text?)
        ((runMessages host run).flatMap StoredMessage.assistantTexts) ∧
      (runMessages host run).flatMap StoredMessage.resultCalls =
        ((run.llmResponses.flatMap fun response => toolCallsOf response.content).filter
          fun call => (run.toolDones call.toolCallId).isSome).map ToolCallPart.idAndName := by
  obtain ⟨quiet, uncalled⟩ := overlays_silent (run.deliveredAfter 0)
  have answers : ∀ entries : List (LlmResponseEvent × Nat),
      Marked (entries.flatMap fun entry => entry.1.content.filterMap ContentPart.text?)
          ((entries.flatMap fun entry => responseMessages host run.toRunCollections entry.1 entry.2).flatMap
            StoredMessage.assistantTexts) ∧
        (entries.flatMap fun entry => responseMessages host run.toRunCollections entry.1 entry.2).flatMap
            StoredMessage.resultCalls =
          ((entries.flatMap fun entry => toolCallsOf entry.1.content).filter
            fun call => (run.toolDones call.toolCallId).isSome).map ToolCallPart.idAndName := by
    intro entries
    rw [List.flatMap_assoc, List.flatMap_assoc]
    refine ⟨.flatMap fun entry _ => ?_, ?_⟩
    · rw [responseMessages, (withConnectorSkills_same _ _).1]
      exact messagesForLlmResponse_texts
    · induction entries with
      | nil => rfl
      | cons entry rest ih =>
          rw [List.flatMap_cons, List.flatMap_cons, List.filter_append, List.map_append, ih, responseMessages,
            (withConnectorSkills_same _ _).2, messagesForLlmResponse_calls]
  have unzip {B : Type} (f : LlmResponseEvent → List B) :
      (run.llmResponses.zipIdx 1).flatMap (fun entry => f entry.1) = run.llmResponses.flatMap f := by
    conv_rhs => rw [← List.zipIdx_map_fst 1 run.llmResponses, List.flatMap_map]
  obtain ⟨texts, calls⟩ := answers (run.llmResponses.zipIdx 1)
  rw [unzip fun response => response.content.filterMap ContentPart.text?] at texts
  rw [unzip fun response => toolCallsOf response.content] at calls
  unfold runMessages
  dsimp only
  split
  · rename_i ts stopped
    obtain ⟨marked, same⟩ := appendCancelledMarker_same
      ((run.llmResponses.zipIdx 1).flatMap
        (fun entry => responseMessages host run.toRunCollections entry.1 entry.2) ++
      (run.deliveredAfter 0).map buildConnectorSkillMessage) ts
    rw [List.flatMap_append, quiet, List.append_nil] at marked
    rw [List.flatMap_append, uncalled, List.append_nil] at same
    exact ⟨texts.trans marked, same.trans calls⟩
  · rw [List.flatMap_append, List.flatMap_append, quiet, uncalled, List.append_nil, List.append_nil]
    exact ⟨texts, calls⟩

theorem join_append (first second : List String) :
    String.join (first ++ second) = String.join first ++ String.join second := by
  have from' : ∀ (texts : List String) (start : String),
      texts.foldl (· ++ ·) start = start ++ texts.foldl (· ++ ·) "" := by
    intro texts
    induction texts with
    | nil => simp
    | cons text rest ih =>
        intro start
        rw [List.foldl_cons, List.foldl_cons, ih, ih ("" ++ text), String.append_assoc, String.empty_append]
  rw [String.join, String.join, String.join, List.foldl_append, from' second]

theorem join_cons (text : String) (rest : List String) : String.join (text :: rest) = text ++ String.join rest := by
  rw [← List.singleton_append, join_append]
  simp [String.join]

/-- Empty texts add nothing. -/
theorem joinText_eq (texts : List String) : joinText texts = String.join texts := by
  unfold joinText
  induction texts with
  | nil => rfl
  | cons text rest ih =>
      by_cases empty : text = ""
      · rw [List.filter_cons_of_neg (by simp [empty]), ih, empty, join_cons, String.empty_append]
      · rw [List.filter_cons_of_pos (by simp [empty]), join_cons, ih, join_cons]

/-- The text of a displayed run is the text of its answers. -/
theorem join_responseBlocks (toolDones : Table String ToolDoneEvent) (toolInputs : Table String Json)
    (responses : List LlmResponseEvent) :
    String.join ((responses.flatMap (Display.responseBlocks host toolDones toolInputs)).filterMap
        DisplayBlock.text?) =
      String.join (responses.flatMap fun response => response.content.filterMap ContentPart.text?) := by
  induction responses with
  | nil => rfl
  | cons response rest ih =>
      rw [List.flatMap_cons, List.filterMap_append, join_append, ih, List.flatMap_cons, join_append]
      congr 1
      refine Eq.trans ?_ (joinText_eq _)
      unfold Display.responseBlocks
      dsimp only
      generalize joinText (response.content.filterMap ContentPart.text?) = text
      split_ifs <;> simp_all [List.filterMap_cons, DisplayBlock.text?, String.join]

/-- The calls that a person sees are those that were not held. -/
theorem shownToolCalls_calls (toolDones : Table String ToolDoneEvent) (toolInputs : Table String Json)
    (responses : List LlmResponseEvent) :
    ((responses.flatMap (Display.shownToolCalls host toolDones toolInputs)).filter
        fun call => (toolDones call.id).isSome).map (fun call => (call.id, call.name)) =
      ((((responses.flatMap fun response => toolCallsOf response.content).filter
        fun call => (toolDones call.toolCallId).isSome).map ToolCallPart.idAndName).filter
          fun call => !Display.isHeld toolDones call.1) := by
  induction responses with
  | nil => rfl
  | cons response rest ih =>
      simp only [List.flatMap_cons, List.filter_append, List.map_append, ih]
      congr 1
      unfold Display.shownToolCalls
      rw [List.filter_map, List.map_map, List.filter_map, List.filter_filter, List.filter_filter]
      refine congrArg₂ _ rfl (List.filter_congr fun call _ => ?_)
      simp [Display.buildToolCall, ToolCallPart.idAndName, Bool.and_comm]

/-- The text parts of a message of the user. -/
def StoredMessage.userTexts (message : StoredMessage) : List String :=
  match message.body with
  | .user content => content.filterMap UserContentPart.text?
  | _ => []

/-- A message of the user is shown with the text and the time of the replayed one. -/
structure UserAgrees (shown : DisplayMessage) (replayed : StoredMessage) : Prop where
  role : shown.role = .user
  text : shown.content = String.join replayed.userTexts
  timestamp : shown.timestamp = replayed.timestamp
  userId : shown.userId = replayed.userId

/-- A run is shown with the text and the answered calls of its replay. Markers and held calls are left out. -/
structure RunAgrees (toolDones : Table String ToolDoneEvent) (shown : DisplayMessage)
    (replayed : List StoredMessage) : Prop where
  role : shown.role = .assistant
  text : ∃ own, shown.content = String.join own ∧ Marked own (replayed.flatMap StoredMessage.assistantTexts)
  calls : (shown.toolCalls.filter fun call => (toolDones call.id).isSome).map (fun call => (call.id, call.name)) =
    (replayed.flatMap StoredMessage.resultCalls).filter fun call => !Display.isHeld toolDones call.1

def Turn.Agrees (host : Host) : Turn → Prop
  | .user event => UserAgrees (Display.buildUserMessage event) (buildUserMessage event)
  | .run start events => ∀ shown, Turn.displayed host (.run start events) = some shown →
      RunAgrees (collectRunEvents start.runId events {}).toolDones shown (Turn.replayed host (.run start events))

theorem Turn.agrees (turn : Turn) : turn.Agrees host := by
  cases turn with
  | user event =>
      refine ⟨rfl, ?_, rfl, rfl⟩
      have same : (event.content.filterMap toUserContentPart).filterMap UserContentPart.text? =
          event.content.filterMap UserContentPart.text? := by
        rw [List.filterMap_filterMap]
        refine List.filterMap_congr fun part _ => ?_
        cases part <;> rfl
      exact (joinText_eq _).trans (congrArg String.join same.symm)
  | run start events =>
      intro shown displayed
      obtain ⟨responses, dones, -, -⟩ :=
        scanRunEvents_collectRunEvents start.runId events { endTs := start.ts } {} rfl rfl rfl
      obtain ⟨texts, calls⟩ := @runMessages_same host (collectRunEvents start.runId events {})
      rw [Turn.displayed, Display.collectRun] at displayed
      split at displayed
      · cases displayed
      · cases Option.some.inj displayed
        rw [responses, dones]
        refine ⟨rfl, ⟨_, join_responseBlocks _ _ _, texts⟩, ?_⟩
        rw [Turn.replayed, calls]
        exact shownToolCalls_calls _ _ _

/-- What a trailing run shows apart from how it ended. -/
def DisplayMessage.shown (message : DisplayMessage) : DisplayMessage :=
  { message with stopReason := none, pending := false }

theorem settleTrailingRun_shown (messages : List DisplayMessage) :
    (Display.settleTrailingRun messages).map DisplayMessage.shown = messages.map DisplayMessage.shown := by
  unfold Display.settleTrailingRun
  split
  · rename_i last found
    split
    · conv_rhs => rw [← List.dropLast_append_getLast? last found]
      rw [List.map_append, List.map_append]
      rfl
    · rfl
  · rfl

end NimbleBrain.Conversation
