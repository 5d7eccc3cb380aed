import NimbleBrain.Conversation.PromptShape
import NimbleBrain.Conversation.ReplayContent

/- Each stage of a replay keeps the shape of a prompt. -/

namespace NimbleBrain.Conversation

open Library

variable {host : Host}

variable {toolDones : Table String ToolDoneEvent}

variable {content : List ContentPart} {response : LlmResponseEvent}

theorem calls_replayContent_nodup (distinct : ((toolCallsOf content).map ToolCallPart.toolCallId).Nodup) :
    (toolCallsOf (normalizeForReplay host
      (content.filter (isAnswered toolDones)))).map ToolCallPart.toolCallId |>.Nodup := by
  rw [calls_normalizeForReplay, toolCallsOf_filter]
  exact distinct.sublist (List.filter_sublist.map _)

/-- A placeholder has content and no calls. -/
theorem buildPlaceholderMessage_grouped {orphaned : Bool} {metadata : MessageMetadata} :
    Grouped (buildPlaceholderMessage response content orphaned metadata).toList := by
  unfold buildPlaceholderMessage
  dsimp only
  split
  · rw [Option.toList_some]
    refine .single rfl ?_ ?_
    · dsimp only
      split
      · rename_i reasoning
        intro empty
        simp [Body.assistant.inj empty] at reasoning
      · simp
    · dsimp only [StoredMessage.calls]
      split
      · have silent : toolCallsOf (content.filter ContentPart.roundTrips) = [] := by
          rw [toolCallsOf, List.filterMap_eq_nil_iff]
          intro part member
          have kept := (List.mem_filter.mp member).2
          cases part <;> simp_all [ContentPart.roundTrips, ContentPart.call?]
        rw [silent, List.map_nil]
      · rfl
  · exact .nil

theorem messagesForLlmResponse_grouped {toolInputs : Table String Json} {iterations : Nat}
    {skillActivations : Table String SkillActivatedEvent}
    (distinct : ((toolCallsOf response.content).map ToolCallPart.toolCallId).Nodup) :
    Grouped (messagesForLlmResponse host response toolDones toolInputs iterations skillActivations) := by
  unfold messagesForLlmResponse
  dsimp only
  split
  · rename_i real
    refine .one rfl ?_ ?_ ?_ (calls_replayContent_nodup distinct)
    · intro empty
      have empty := Body.assistant.inj empty
      rw [empty] at real
      have none := @calls_replayContent host toolDones response.content
      rw [empty] at none
      cases executed : executedToolCalls toolDones response.content <;> simp_all [toolCallsOf]
    · intro tool member
      obtain ⟨entry, -, rfl⟩ := List.mem_map.mp member
      rfl
    · change _ = List.map _ ((toolCallsOf (normalizeForReplay host _)).map ToolCallPart.toolCallId)
      rw [calls_replayContent, List.map_map, List.map_map]
      rfl
  · exact buildPlaceholderMessage_grouped

theorem overlays_grouped (events : List ConnectorSkillInjectedEvent) :
    Grouped (events.map buildConnectorSkillMessage) := by
  refine .users fun message member => ?_
  obtain ⟨event, -, rfl⟩ := List.mem_map.mp member
  rfl

theorem withConnectorSkills_grouped {emitted : List StoredMessage} (grouped : Grouped emitted)
    (delivered : List ConnectorSkillInjectedEvent) : Grouped (withConnectorSkills emitted delivered) := by
  unfold withConnectorSkills
  dsimp only
  split
  · exact grouped
  · split
    · exact grouped.append (overlays_grouped delivered)
    · exact grouped.map (carryGuidance_role _) (fun _ role => carryGuidance_assistant role)
        (carryGuidance_answers _)

theorem markerMessage_grouped (text : String) (ts : Timestamp) (finishReason : Option FinishReason) :
    Grouped [markerMessage text ts finishReason] := .single rfl (by simp [markerMessage]) rfl

variable {messages : List StoredMessage} {events : List ConversationEvent}

theorem appendCancelledMarker_grouped (grouped : Grouped messages) (ts : Timestamp) :
    Grouped (appendCancelledMarker messages ts) := by
  unfold appendCancelledMarker
  split
  · rename_i last found
    split
    · rename_i content body
      split
      · rename_i text
        refine grouped.replace found (by simp [StoredMessage.role, body]) (.single rfl (by simp) ?_)
        have silent : toolCallsOf content = [] := by
          rw [toolCallsOf, List.filterMap_eq_nil_iff]
          intro part member
          have isText := List.all_eq_true.mp text part member
          cases part <;> simp_all [ContentPart.isText, ContentPart.call?]
        change ((content ++ [_]).filterMap ContentPart.call?).map _ = []
        rw [List.filterMap_append, ← toolCallsOf, silent]
        rfl
      · exact grouped
    · exact grouped.append (markerMessage_grouped ..)
  · exact markerMessage_grouped ..

/-- The answers that a run collects are answers of the log. -/
theorem collectRunEvents_responses (runId : String) (events : List ConversationEvent) (acc : RunCollections) :
    ∀ response ∈ (collectRunEvents runId events acc).llmResponses,
      response ∈ acc.llmResponses ∨ .llmResponse response ∈ events := by
  induction events generalizing acc with
  | nil => exact fun response member => .inl member
  | cons inner rest ih =>
      intro response member
      rw [collectRunEvents] at member
      split at member
      · exact .inl member
      · split at member
        · exact .inl member
        · rcases ih _ response member with old | new
          · cases inner <;> simp only [accumulateRunEvent] at old <;> try split at old
            all_goals simp_all
            rcases old with old | rfl
            · exact .inl old
            · exact .inr (.inl rfl)
          · exact .inr (List.mem_cons_of_mem _ new)

theorem collectRunEvents_rest_subset (runId : String) (events : List ConversationEvent) (acc : RunCollections) :
    (collectRunEvents runId events acc).rest ⊆ events := by
  induction events generalizing acc with
  | nil => exact fun _ member => member
  | cons inner rest ih =>
      rw [collectRunEvents]
      split
      · exact List.subset_cons_self ..
      · split
        · exact List.Subset.refl _
        · exact List.Subset.trans (ih _) (List.subset_cons_self ..)

/-- No answer of the log names a call twice. -/
def DistinctCalls (events : List ConversationEvent) : Prop :=
  ∀ response, .llmResponse response ∈ events →
    ((toolCallsOf response.content).map ToolCallPart.toolCallId).Nodup

theorem runMessages_grouped {run : CollectedRun}
    (distinct : ∀ response ∈ run.llmResponses, ((toolCallsOf response.content).map ToolCallPart.toolCallId).Nodup) :
    Grouped (runMessages host run) := by
  have answers : Grouped ((run.llmResponses.zipIdx 1).flatMap
      fun entry => responseMessages host run.toRunCollections entry.1 entry.2) := by
    refine .flatMap fun entry member => withConnectorSkills_grouped (messagesForLlmResponse_grouped ?_) _
    exact distinct _ (List.fst_mem_of_mem_zipIdx member)
  have messages := answers.append (overlays_grouped (run.deliveredAfter 0))
  unfold runMessages
  dsimp only
  split
  · exact appendCancelledMarker_grouped messages _
  · exact messages

theorem buildMessagesFromEvents_grouped (distinct : DistinctCalls events) :
    Grouped (buildMessagesFromEvents host events) := by
  induction events using buildMessagesFromEvents.induct with
  | case1 => rw [buildMessagesFromEvents]; exact .nil
  | case2 event rest ih =>
      rw [buildMessagesFromEvents]
      exact .user rfl (ih fun response member => distinct response (List.mem_cons_of_mem _ member))
  | case3 start rest ih =>
      rw [buildMessagesFromEvents]
      refine .append (runMessages_grouped fun response member => ?_) (ih fun response member => ?_)
      · rcases collectRunEvents_responses _ _ _ response member with none | found
        · cases none
        · exact distinct response (List.mem_cons_of_mem _ found)
      · exact distinct response (List.mem_cons_of_mem _ (collectRunEvents_rest_subset _ _ _ member))
  | case4 event rest noUser noStart ih =>
      rw [buildMessagesFromEvents]
      · exact ih fun response member => distinct response (List.mem_cons_of_mem _ member)
      · exact noUser
      · exact noStart

/-- A marker goes before a message of the user only. -/
theorem separate_other {message : StoredMessage} {rest : List StoredMessage} (role : message.role ≠ .user)
    (before : Option StoredMessage) :
    separate (alternationMarker host) before (message :: rest) =
      message :: separate (alternationMarker host) (some message) rest := by
  cases before <;> simp [separate, alternationMarker, markerBetween, role]

theorem separate_results {tools : List StoredMessage} (results : ∀ tool ∈ tools, tool.role = .tool)
    (before : Option StoredMessage) (rest : List StoredMessage) :
    separate (alternationMarker host) before (tools ++ rest) =
      tools ++ separate (alternationMarker host) (tools.getLast?.or before) rest := by
  induction tools generalizing before with
  | nil => rfl
  | cons tool more ih =>
      have role : tool.role ≠ .user := by simp [results tool (List.mem_cons_self ..)]
      rw [List.cons_append, separate_other role,
        ih (fun other member => results other (List.mem_cons_of_mem _ member)), List.cons_append]
      cases more with
      | nil => rfl
      | cons next last => simp [List.getLast?_cons]

theorem separate_grouped (grouped : Grouped messages) :
    ∀ before, Grouped (separate (alternationMarker host) before messages) := by
  induction grouped with
  | nil => exact fun before => by rw [separate]; exact .nil
  | @user message rest role later ih =>
      intro before
      cases before with
      | none => exact .user role (ih _)
      | some before =>
          rw [separate]
          refine .append ?_ (.user role (ih _))
          unfold alternationMarker
          cases markerBetween before message with
          | none => exact .nil
          | some text => exact markerMessage_grouped ..
  | @turn message tools rest role content results answers distinct later ih =>
      intro before
      rw [separate_other (by simp [role]), separate_results results]
      exact .turn role content results answers distinct (ih _)

/-- A marker is an assistant message, and needs no marker beside it. -/
theorem separates_alternationMarker : Separates (alternationMarker host) where
  before first second separator needed := by
    obtain ⟨text, -, rfl⟩ := Option.map_eq_some_iff.mp needed
    simp [alternationMarker, markerBetween, markerMessage, StoredMessage.role]
  after first second separator needed := by
    obtain ⟨text, -, rfl⟩ := Option.map_eq_some_iff.mp needed
    simp [alternationMarker, markerBetween, markerMessage, StoredMessage.role]

theorem ensureRoleAlternation_grouped (grouped : Grouped messages) :
    Grouped (ensureRoleAlternation host messages) :=
  ensureRoleAlternation_eq host messages ▸ separate_grouped grouped none

theorem ensureRoleAlternation_isChain (messages : List StoredMessage) :
    (ensureRoleAlternation host messages).IsChain fun first second => alternationMarker host first second = none :=
  ensureRoleAlternation_eq host messages ▸ isChain_separate_none separates_alternationMarker messages

/-- Groups of messages that need no marker are a valid prompt. -/
theorem validPrompt_of_grouped (grouped : Grouped messages)
    (chain : messages.IsChain fun first second => alternationMarker host first second = none) :
    ValidPrompt messages := by
  have adjacent : ∀ before first second after, messages = before ++ first :: second :: after →
      markerBetween first second = none := by
    intro before first second after split
    rw [split] at chain
    have pair := (List.isChain_append.mp chain).2.1
    exact Option.map_eq_none_iff.mp (List.isChain_cons_cons.mp pair).1
  refine ⟨grouped.answered, grouped.follows, grouped.content, fun before first second after split role tool => ?_,
    fun before first second after split one other => ?_⟩
  · have unmarked := adjacent before first second after split
    simp [markerBetween, role, tool] at unmarked
  · have unmarked := adjacent before first second after split
    simpa [markerBetween, one, other] using unmarked

theorem compactionSummaryMessages_grouped (summary : String) (ts : Timestamp) (retained : RetainedOperatorSelection) :
    Grouped (compactionSummaryMessages summary ts retained) :=
  .user rfl (.single rfl (by simp) rfl)

/-- The calls of the whole log have different ids. -/
theorem distinctCalls_of_nodup (distinct : (events.flatMap ConversationEvent.toolCallIds).Nodup) :
    DistinctCalls events :=
  fun _ member => (List.nodup_flatMap.mp distinct).1 _ member

theorem DistinctCalls.subset {other : List ConversationEvent} (distinct : DistinctCalls events)
    (subset : other ⊆ events) : DistinctCalls other := fun response member => distinct response (subset member)

/-- Replayed history is a valid prompt, for every log whose calls have different ids. -/
theorem replayed_history_valid (host : Host) (events : List ConversationEvent) (ignoreCompaction : Bool)
    (distinct : (events.flatMap ConversationEvent.toolCallIds).Nodup) :
    ValidPrompt (reconstructMessages host events ignoreCompaction) := by
  have distinct := distinctCalls_of_nodup distinct
  suffices grouped : ∃ messages, Grouped messages ∧
      reconstructMessages host events ignoreCompaction = ensureRoleAlternation host messages by
    obtain ⟨messages, grouped, same⟩ := grouped
    rw [same]
    exact validPrompt_of_grouped (ensureRoleAlternation_grouped grouped) (ensureRoleAlternation_isChain messages)
  unfold reconstructMessages
  split
  · refine ⟨_, .append (compactionSummaryMessages_grouped ..) (buildMessagesFromEvents_grouped ?_), rfl⟩
    exact distinct.subset (List.filter_subset_self ..)
  · refine ⟨_, buildMessagesFromEvents_grouped ?_, rfl⟩
    exact distinct.subset (List.filter_subset_self ..)

theorem replayed_history_valid_stopped : ValidPrompt (reconstructMessages plainHost stoppedLog false) :=
  replayed_history_valid plainHost stoppedLog false (by decide)

end NimbleBrain.Conversation
