import NimbleBrain.Conversation.Fork
import NimbleBrain.Conversation.ReplayPrompt
import NimbleBrain.Conversation.RunSpan

/- A fork is a faithful copy exactly of messages without tools, files and overlays. -/

namespace NimbleBrain.Conversation

open Library

variable {host : Host}

/-- A content that replay leaves as it is. -/
structure Settled (host : Host) (content : List ContentPart) : Prop where
  fixed : ∀ part ∈ content, normalizePart host part = some part
  kept : content.any ContentPart.isText = true ∨ content ≠ [] ∧ ∀ part ∈ content, part.roundTrips = true

theorem normalizePart_fixed {part other : ContentPart} (normalized : normalizePart host part = some other)
    (noCall : other.call? = none) : normalizePart host other = some other := by
  cases part with
  | toolCall call =>
      obtain rfl := Option.some.inj normalized
      cases noCall
  | text value provider =>
      obtain rfl := Option.some.inj normalized
      cases provider with
      | mk metadata options => cases metadata <;> rfl
  | reasoning value provider =>
      obtain rfl := Option.some.inj normalized
      cases provider with
      | mk metadata options => cases metadata <;> rfl
  | file mediaType data provider =>
      obtain rfl := Option.some.inj normalized
      cases provider with
      | mk metadata options => cases metadata <;> rfl
  | other type => cases normalized

variable {content : List ContentPart}

theorem call?_eq_none (silent : toolCallsOf content = []) :
    ∀ part ∈ content, part.call? = none := List.filterMap_eq_nil_iff.mp silent

/-- The parts of a replayed answer that are no calls are in their final shape. -/
theorem normalizeForReplay_fixed (silent : toolCallsOf (normalizeForReplay host content) = []) :
    ∀ part ∈ normalizeForReplay host content, normalizePart host part = some part := by
  intro part member
  obtain ⟨original, -, normalized⟩ := List.mem_filterMap.mp member
  exact normalizePart_fixed normalized (call?_eq_none silent part member)

theorem normalizeForReplay_eq_self (fixed : ∀ part ∈ content, normalizePart host part = some part) :
    normalizeForReplay host content = content := by
  rw [normalizeForReplay, List.filterMap_congr fixed, List.filterMap_some]

/-- Without calls, nothing of an answer waits for a result. -/
theorem filter_isAnswered (silent : toolCallsOf content = []) (toolDones : Table String ToolDoneEvent) :
    content.filter (isAnswered toolDones) = content := by
  rw [List.filter_eq_self]
  intro part member
  rw [isAnswered, call?_eq_none silent part member]
  rfl

/-- What a message must be so that replay makes it again, where it is no tool message and has no calls. -/
def Copyable (host : Host) (message : StoredMessage) : Prop :=
  match message.body with
  | .user content =>
      content.filterMap toUserContentPart = content ∧ message.userId ≠ some "" ∧
        (message.isOverlay = true ∨ message.metadata.synthetic = none ∧ message.metadata.skill = none)
  | .assistant content =>
      message.userId = none ∧ message.metadata.files = none ∧ message.metadata.synthetic = none ∧
        message.metadata.skill = none ∧ (toolCallsOf content = [] → Settled host content)
  | .tool _ => True

theorem buildUserMessage_copyable (event : UserMessageEvent) : Copyable host (buildUserMessage event) := by
  refine ⟨?_, ?_, .inr ⟨rfl, rfl⟩⟩
  · refine (List.filterMap_congr fun part member => ?_).trans List.filterMap_some
    obtain ⟨original, -, shown⟩ := List.mem_filterMap.mp member
    cases original <;> cases shown <;> rfl
  · intro named
    simpa using (Option.filter_eq_some_iff.mp named).2

theorem markerMessage_copyable (text : String) (ts : Timestamp) (finishReason : Option FinishReason) :
    Copyable host (markerMessage text ts finishReason) :=
  ⟨rfl, rfl, rfl, rfl, fun _ => ⟨by simp [normalizePart, ProviderData.forReplay], .inl rfl⟩⟩

theorem buildConnectorSkillMessage_copyable (event : ConnectorSkillInjectedEvent) :
    Copyable host (buildConnectorSkillMessage event) :=
  ⟨rfl, by simp [buildConnectorSkillMessage], .inl (by simp [StoredMessage.isOverlay, buildConnectorSkillMessage])⟩

variable {message : StoredMessage}

theorem copyable_of_tool (tool : message.role = .tool) : Copyable host message := by
  unfold Copyable
  split
  · rename_i content body
    simp [StoredMessage.role, body] at tool
  · rename_i content body
    simp [StoredMessage.role, body] at tool
  · trivial

variable {toolDones : Table String ToolDoneEvent}

theorem buildPlaceholderMessage_copyable {response : LlmResponseEvent} {content : List ContentPart}
    (orphaned : Bool) (iterations : Nat) :
    ∀ message ∈ buildPlaceholderMessage response (normalizeForReplay host content) orphaned
      (baseResponseMetadata response iterations), Copyable host message := by
  intro message placed
  unfold buildPlaceholderMessage at placed
  dsimp only at placed
  split at placed
  · obtain rfl := Option.some.inj placed
    refine ⟨rfl, rfl, rfl, rfl, fun _ => ?_⟩
    split
    · rename_i reasoning
      have some_kept : (normalizeForReplay host content).filter ContentPart.roundTrips ≠ [] := by
        intro empty
        simp [empty] at reasoning
      refine ⟨fun part member => ?_, .inr ⟨some_kept, fun part member => (List.mem_filter.mp member).2⟩⟩
      obtain ⟨own, roundTrips⟩ := List.mem_filter.mp member
      obtain ⟨original, -, normalized⟩ := List.mem_filterMap.mp own
      refine normalizePart_fixed normalized ?_
      cases part <;> simp_all [ContentPart.roundTrips, ContentPart.call?]
    · exact ⟨by simp [normalizePart, ProviderData.forReplay], .inl rfl⟩
  · cases placed

theorem messagesForLlmResponse_copyable (response : LlmResponseEvent) (toolInputs : Table String Json)
    (iterations : Nat) (skillActivations : Table String SkillActivatedEvent) :
    ∀ message ∈ messagesForLlmResponse host response toolDones toolInputs iterations skillActivations,
      Copyable host message := by
  intro message emitted
  unfold messagesForLlmResponse at emitted
  dsimp only at emitted
  split at emitted
  · rename_i real
    rcases List.mem_cons.mp emitted with rfl | result
    · refine ⟨rfl, rfl, rfl, rfl, fun silent => ⟨normalizeForReplay_fixed silent, .inl ?_⟩⟩
      have none := @calls_replayContent host toolDones response.content
      rw [silent] at none
      cases executed : executedToolCalls toolDones response.content <;> simp_all
    · obtain ⟨entry, -, rfl⟩ := List.mem_map.mp result
      exact copyable_of_tool rfl
  · exact buildPlaceholderMessage_copyable _ _ message (Option.mem_toList.mp emitted)

theorem carryGuidance_copyable (guidance : Table String CarriedGuidance) (copyable : Copyable host message) :
    Copyable host (carryGuidance guidance message) := by
  by_cases tool : message.role = .tool
  · exact copyable_of_tool ((carryGuidance_role guidance message).trans tool)
  · have same : carryGuidance guidance message = message := by
      unfold carryGuidance
      split
      · rename_i content body
        simp [StoredMessage.role, body] at tool
      · rfl
    rw [same]
    exact copyable

theorem withConnectorSkills_copyable {emitted : List StoredMessage}
    (copyable : ∀ message ∈ emitted, Copyable host message) (delivered : List ConnectorSkillInjectedEvent) :
    ∀ message ∈ withConnectorSkills emitted delivered, Copyable host message := by
  unfold withConnectorSkills
  dsimp only
  split
  · exact copyable
  · split
    · intro message member
      rcases List.mem_append.mp member with own | overlay
      · exact copyable message own
      · obtain ⟨event, -, rfl⟩ := List.mem_map.mp overlay
        exact buildConnectorSkillMessage_copyable event
    · intro message member
      obtain ⟨original, own, rfl⟩ := List.mem_map.mp member
      exact carryGuidance_copyable _ (copyable original own)

theorem appendCancelledMarker_copyable {messages : List StoredMessage}
    (copyable : ∀ message ∈ messages, Copyable host message) (ts : Timestamp) :
    ∀ message ∈ appendCancelledMarker messages ts, Copyable host message := by
  unfold appendCancelledMarker
  split
  · rename_i last found
    have lastCopyable := copyable last (List.mem_of_getLast? found)
    split
    · rename_i content body
      split
      · rename_i text
        intro message member
        rcases List.mem_append.mp member with own | marked
        · exact copyable message (List.dropLast_subset _ own)
        · obtain rfl := List.mem_singleton.mp marked
          rw [Copyable, body] at lastCopyable
          obtain ⟨userId, files, synthetic, skill, settled⟩ := lastCopyable
          have silent : toolCallsOf content = [] := by
            rw [toolCallsOf, List.filterMap_eq_nil_iff]
            intro part member
            have isText := List.all_eq_true.mp text part member
            cases part <;> simp_all [ContentPart.isText, ContentPart.call?]
          refine ⟨userId, files, synthetic, skill, fun _ => ⟨?_, .inl (by simp [ContentPart.isText])⟩⟩
          exact List.forall_mem_append.mpr
            ⟨(settled silent).fixed, by simp [normalizePart, ProviderData.forReplay]⟩
      · exact copyable
    · intro message member
      rcases List.mem_append.mp member with own | marked
      · exact copyable message own
      · obtain rfl := List.mem_singleton.mp marked
        exact markerMessage_copyable ..
  · intro message member
    obtain rfl := List.mem_singleton.mp member
    exact markerMessage_copyable ..

theorem runMessages_copyable (run : CollectedRun) : ∀ message ∈ runMessages host run, Copyable host message := by
  have answers : ∀ message ∈ (run.llmResponses.zipIdx 1).flatMap
      (fun entry => responseMessages host run.toRunCollections entry.1 entry.2) ++
        (run.deliveredAfter 0).map buildConnectorSkillMessage, Copyable host message := by
    intro message member
    rcases List.mem_append.mp member with own | overlay
    · obtain ⟨entry, -, emitted⟩ := List.mem_flatMap.mp own
      exact withConnectorSkills_copyable (messagesForLlmResponse_copyable _ _ _ _) _ message emitted
    · obtain ⟨event, -, rfl⟩ := List.mem_map.mp overlay
      exact buildConnectorSkillMessage_copyable event
  unfold runMessages
  dsimp only
  split
  · exact appendCancelledMarker_copyable answers _
  · exact answers

theorem buildMessagesFromEvents_copyable (events : List ConversationEvent) :
    ∀ message ∈ buildMessagesFromEvents host events, Copyable host message := by
  intro message member
  obtain ⟨before, after, split⟩ := List.append_of_mem member
  rcases buildMessagesFromEvents_origin split with ⟨_, event, _, _, rfl, _⟩ | ⟨_, _, _, _, _, own, _⟩
  · exact buildUserMessage_copyable event
  · exact runMessages_copyable _ message own

theorem alternationMarker_copyable {before marker : StoredMessage}
    (missing : alternationMarker host before message = some marker) : Copyable host marker := by
  obtain ⟨text, -, rfl⟩ := Option.map_eq_some_iff.mp missing
  exact markerMessage_copyable ..

/-- Every message of the full history can be made again, but for tools. -/
theorem reconstructMessages_copyable (events : List ConversationEvent) :
    ∀ message ∈ reconstructMessages host events true, Copyable host message := by
  intro message member
  rw [reconstructMessages, ensureRoleAlternation_eq] at member
  rcases mem_separate member with own | ⟨before, after, missing⟩
  · exact buildMessagesFromEvents_copyable _ message own
  · exact alternationMarker_copyable missing

section Copy

/-- What replay makes of the events of one copied message. -/
def forkedMessages (host : Host) (message : StoredMessage) : List StoredMessage :=
  match message.body with
  | .user content => [buildUserMessage (forkUserEvent message content)]
  | .assistant content =>
      messagesForLlmResponse host (forkResponse message content "") (fun _ => none) (fun _ => none) 1 fun _ => none
  | .tool _ => []

/-- An answer is taken by the run that was written around it. -/
theorem buildMessagesFromEvents_forkAssistant (message : StoredMessage) (content : List ContentPart)
    (runId : String) (rest : List ConversationEvent) :
    buildMessagesFromEvents host (forkAssistantEvents message content runId ++ rest) =
      messagesForLlmResponse host (forkResponse message content "") (fun _ => none) (fun _ => none) 1
          (fun _ => none) ++ buildMessagesFromEvents host rest := by
  have collected : collectRunEvents runId
      (.llmResponse (forkResponse message content runId) ::
        .runDone
          { ts := message.timestamp, runId := runId, stopReason := "complete"
            totalMs := message.metadata.llmMs.getD 0 } :: rest) {} =
      { llmResponses := [forkResponse message content runId], rest := rest } := by
    simp [collectRunEvents, isExplicitRunTerminator, isImplicitRunEnd, accumulateRunEvent, cancelledAt,
      forkResponse]
  have shown : runMessages host { llmResponses := [forkResponse message content runId], rest := rest } =
      messagesForLlmResponse host (forkResponse message content "") (fun _ => none) (fun _ => none) 1
        fun _ => none := by
    simp [runMessages, responseMessages, RunCollections.deliveredAfter, withConnectorSkills]
    rfl
  rw [forkAssistantEvents, List.cons_append, buildMessagesFromEvents]
  dsimp only [List.cons_append, List.nil_append]
  rw [collected, shown]

theorem buildMessagesFromEvents_fork (messages : List StoredMessage) (runCounter : Nat) :
    buildMessagesFromEvents host (messagesToForkEvents messages runCounter) =
      messages.flatMap (forkedMessages host) := by
  induction messages generalizing runCounter with
  | nil => rw [messagesToForkEvents, buildMessagesFromEvents, List.flatMap_nil]
  | cons message rest ih =>
      rw [messagesToForkEvents, List.flatMap_cons, forkedMessages]
      cases message.body with
      | user content => exact (buildMessagesFromEvents.eq_2 ..).trans (congrArg _ (ih _))
      | assistant content => exact (buildMessagesFromEvents_forkAssistant ..).trans (congrArg _ (ih _))
      | tool content => exact ih _

theorem withoutCompactions_fork (messages : List StoredMessage) (runCounter : Nat) :
    withoutCompactions (messagesToForkEvents messages runCounter) = messagesToForkEvents messages runCounter := by
  rw [withoutCompactions, List.filter_eq_self]
  induction messages generalizing runCounter with
  | nil => simp [messagesToForkEvents]
  | cons message rest ih =>
      rw [messagesToForkEvents]
      cases message.body with
      | user content => exact List.forall_mem_cons.mpr ⟨rfl, ih _⟩
      | assistant content =>
          exact List.forall_mem_append.mpr
            ⟨by simp [forkAssistantEvents, ConversationEvent.compaction?], ih _⟩
      | tool content => exact ih _

theorem reconstructMessages_fork (messages : List StoredMessage) :
    reconstructMessages host (messagesToForkEvents messages 0) true =
      separate (alternationMarker host) none (messages.flatMap (forkedMessages host)) := by
  rw [reconstructMessages]
  dsimp only [Bool.true_eq_false, if_true]
  rw [withoutCompactions_fork, buildMessagesFromEvents_fork, ensureRoleAlternation_eq]
  rfl

variable {first second message : StoredMessage} {content : List ContentPart}

theorem role_of_copy_eq (same : first.copy = second.copy) :
    first.role = second.role := by
  have body : first.body = second.body := congrArg MessageCopy.body same
  rw [StoredMessage.role, StoredMessage.role, body]

theorem isOverlay_of_copy_eq (same : first.copy = second.copy) :
    first.isOverlay = second.isOverlay := by
  have synthetic : first.metadata.synthetic = second.metadata.synthetic := congrArg MessageCopy.synthetic same
  simp only [StoredMessage.isOverlay, synthetic]

theorem isPlain_of_copy_eq (same : first.copy = second.copy) :
    first.isPlain = second.isPlain := by
  have body : first.body = second.body := congrArg MessageCopy.body same
  have calls : first.calls = second.calls := by rw [StoredMessage.calls, StoredMessage.calls, body]
  have files : first.metadata.files = second.metadata.files := congrArg MessageCopy.files same
  simp only [StoredMessage.isPlain, role_of_copy_eq same, isOverlay_of_copy_eq same, calls, files]

theorem markerBetween_of_copy_eq {before other next : StoredMessage} (first : before.copy = other.copy)
    (second : message.copy = next.copy) : markerBetween before message = markerBetween other next := by
  simp only [markerBetween, role_of_copy_eq first, role_of_copy_eq second, isOverlay_of_copy_eq first,
    isOverlay_of_copy_eq second]

theorem executedToolCalls_none (content : List ContentPart) : executedToolCalls (fun _ => none) content = [] := by
  simp [executedToolCalls]

theorem buildPlaceholderMessage_plain {response : LlmResponseEvent} {orphaned : Bool} {iterations : Nat} :
    ∀ message ∈ buildPlaceholderMessage response content orphaned (baseResponseMetadata response iterations),
      message.isPlain = true := by
  intro message placed
  unfold buildPlaceholderMessage at placed
  dsimp only at placed
  split at placed
  · obtain rfl := Option.some.inj placed
    have silent : toolCallsOf (content.filter ContentPart.roundTrips) = [] := by
      rw [toolCallsOf, List.filterMap_eq_nil_iff]
      intro part member
      have kept := (List.mem_filter.mp member).2
      cases part <;> simp_all [ContentPart.roundTrips, ContentPart.call?]
    split
    · simp [StoredMessage.isPlain, StoredMessage.role, StoredMessage.calls, StoredMessage.isOverlay,
        baseResponseMetadata, silent]
    · rfl
  · cases placed

/-- A copied message has no tools, no files and no overlay any more. -/
theorem forkedMessages_plain (message : StoredMessage) :
    ∀ copied ∈ forkedMessages host message, copied.isPlain = true := by
  intro copied member
  unfold forkedMessages at member
  split at member
  · obtain rfl := List.mem_singleton.mp member
    simp [StoredMessage.isPlain, StoredMessage.role, StoredMessage.calls, StoredMessage.isOverlay, buildUserMessage,
      forkUserEvent]
  · rename_i content body
    unfold messagesForLlmResponse at member
    dsimp only at member
    split at member
    · rw [executedToolCalls_none, List.map_nil, List.map_nil] at member
      obtain rfl := List.mem_singleton.mp member
      have silent := @calls_replayContent host (fun _ => none)
        (forkResponse message content "").content
      rw [executedToolCalls_none] at silent
      simp [StoredMessage.isPlain, StoredMessage.role, StoredMessage.calls, StoredMessage.isOverlay,
        baseResponseMetadata, silent]
    · exact buildPlaceholderMessage_plain copied (Option.mem_toList.mp member)
  · cases member

theorem reconstructMessages_fork_plain (messages : List StoredMessage) :
    ∀ copied ∈ reconstructMessages host (messagesToForkEvents messages 0) true, copied.isPlain = true := by
  intro copied member
  rw [reconstructMessages_fork] at member
  rcases mem_separate member with own | ⟨before, after, missing⟩
  · obtain ⟨message, -, emitted⟩ := List.mem_flatMap.mp own
    exact forkedMessages_plain message copied emitted
  · obtain ⟨text, -, rfl⟩ := Option.map_eq_some_iff.mp missing
    rfl

/-- An answer that is settled replays as itself, by its text or as a placeholder of its reasoning. -/
theorem messagesForLlmResponse_settled (message : StoredMessage) (silent : toolCallsOf content = [])
    (fixed : ∀ part ∈ content, normalizePart host part = some part)
    (kept : content.any ContentPart.isText = true ∨ content ≠ [] ∧ ∀ part ∈ content, part.roundTrips = true) :
    messagesForLlmResponse host (forkResponse message content "") (fun _ => none) (fun _ => none) 1 (fun _ => none) =
      [{ body := .assistant content
         timestamp := message.timestamp
         metadata := baseResponseMetadata (forkResponse message content "") 1 }] := by
  have response : (forkResponse message content "").content = content := rfl
  unfold messagesForLlmResponse
  dsimp only
  rw [response, executedToolCalls_none, filter_isAnswered silent, normalizeForReplay_eq_self fixed, silent]
  by_cases text : content.any ContentPart.isText = true
  · rw [text]
    rfl
  · obtain ⟨some_kept, roundTrips⟩ := kept.resolve_left text
    have same : content.filter ContentPart.roundTrips = content := List.filter_eq_self.mpr roundTrips
    have reasoning : content.any ContentPart.isReasoning = true := by
      obtain ⟨part, rest, rfl⟩ := List.exists_cons_of_ne_nil some_kept
      have first := roundTrips part (List.mem_cons_self ..)
      cases part <;> simp_all [ContentPart.roundTrips, ContentPart.isReasoning]
    have long : content.isEmpty = false := by simpa using some_kept
    simp [text, buildPlaceholderMessage, reasoning, same, long]
    rfl

/-- A plain message of the full history is made again as it was. -/
theorem forkedMessages_copy (copyable : Copyable host message) (plain : message.isPlain = true) :
    ∃ copied, forkedMessages host message = [copied] ∧ copied.copy = message.copy := by
  obtain ⟨noTool, noCalls, noFiles, noOverlay⟩ := of_decide_eq_true plain
  unfold Copyable at copyable
  unfold forkedMessages
  split at copyable
  · rename_i content body
    obtain ⟨kept, named, marks⟩ := copyable
    have unmarked := marks.resolve_left (by simp [noOverlay])
    have user : message.userId.filter (· ≠ "") = message.userId := by
      cases found : message.userId with
      | none => rfl
      | some userId => exact Option.filter_some_pos (by simpa [found] using named)
    refine ⟨_, rfl, ?_⟩
    simp only [StoredMessage.copy, buildUserMessage, forkUserEvent, kept, user, body,
      noFiles, unmarked.1, unmarked.2]
  · rename_i content body
    obtain ⟨userId, files, synthetic, skill, settled⟩ := copyable
    have silent : toolCallsOf content = [] := by
      simpa [StoredMessage.calls, body] using noCalls
    obtain ⟨fixed, kept⟩ := settled silent
    exact ⟨_, messagesForLlmResponse_settled message silent fixed kept,
      by simp only [StoredMessage.copy, body, userId, files, synthetic, skill, baseResponseMetadata]⟩
  · rename_i content body
    simp [StoredMessage.role, body] at noTool

/-- Messages that are each made again need no marker where the copied ones needed none. -/
theorem separate_flatMap_forked {messages : List StoredMessage}
    (chain : messages.IsChain fun first second => alternationMarker host first second = none)
    (again : ∀ message ∈ messages, ∃ copied, forkedMessages host message = [copied] ∧ copied.copy = message.copy) :
    (separate (alternationMarker host) none (messages.flatMap (forkedMessages host))).map StoredMessage.copy =
      messages.map StoredMessage.copy := by
  obtain ⟨make, made⟩ : ∃ make : StoredMessage → StoredMessage,
      ∀ message ∈ messages, forkedMessages host message = [make message] ∧ (make message).copy = message.copy := by
    refine ⟨fun message => (forkedMessages host message).headD message, fun message member => ?_⟩
    obtain ⟨copied, one, same⟩ := again message member
    dsimp only
    rw [one]
    exact ⟨rfl, same⟩
  have mapped : messages.flatMap (forkedMessages host) = messages.map make := by
    rw [List.map_eq_flatMap]
    exact List.flatMap_congr fun message member => (made message member).1
  have still : (messages.map make).IsChain fun first second => alternationMarker host first second = none := by
    rw [List.isChain_map]
    refine chain.imp_of_mem_imp fun first second one other needless => ?_
    rw [alternationMarker, Option.map_eq_none_iff] at needless ⊢
    rw [markerBetween_of_copy_eq (made first one).2 (made second other).2]
    exact needless
  rw [mapped, (separate_of_isChain still).1, List.map_map]
  exact List.map_congr_left fun message member => (made message member).2

/-- The messages before a fork point need no marker between them. -/
theorem messagesToCopy_isChain (events : List ConversationEvent) (atMessage : Option Int) :
    (messagesToCopy host events atMessage).IsChain
      (fun first second => alternationMarker host first second = none) := by
  have chain : (reconstructMessages host events true).IsChain
      (fun first second => alternationMarker host first second = none) := by
    rw [reconstructMessages, ensureRoleAlternation_eq]
    exact isChain_separate_none separates_alternationMarker _
  unfold messagesToCopy sliceTo
  split
  · exact chain
  · exact chain.take _
  · exact chain.take _

theorem messagesToCopy_subset (events : List ConversationEvent) (atMessage : Option Int) :
    messagesToCopy host events atMessage ⊆ reconstructMessages host events true := by
  unfold messagesToCopy sliceTo
  split
  · exact List.Subset.refl _
  · exact List.take_subset ..
  · exact List.take_subset ..

variable (host)

/-- A fork reads as the messages that it copied exactly where each of them is plain. -/
theorem fork_faithful_iff (events : List ConversationEvent) (atMessage : Option Int) :
    (reconstructMessages host (fork host events atMessage) true).map StoredMessage.copy =
        (messagesToCopy host events atMessage).map StoredMessage.copy ↔
      ∀ message ∈ messagesToCopy host events atMessage, message.isPlain = true := by
  constructor
  · intro same message member
    have shown : message.copy ∈ (reconstructMessages host (fork host events atMessage) true).map StoredMessage.copy :=
      same ▸ List.mem_map_of_mem member
    obtain ⟨copied, read, equal⟩ := List.mem_map.mp shown
    rw [← isPlain_of_copy_eq equal]
    exact reconstructMessages_fork_plain _ copied read
  · intro plain
    have again : ∀ message ∈ messagesToCopy host events atMessage,
        ∃ copied, forkedMessages host message = [copied] ∧ copied.copy = message.copy := fun message member =>
      forkedMessages_copy (reconstructMessages_copyable events message (messagesToCopy_subset events atMessage member))
        (plain message member)
    rw [fork, reconstructMessages_fork, separate_flatMap_forked (messagesToCopy_isChain events atMessage) again]

end Copy

/-- The result of the call that ran is lost, and the call with it. -/
theorem fork_loses_tools :
    (reconstructMessages plainHost (fork plainHost stoppedLog none) true).map StoredMessage.copy ≠
        (messagesToCopy plainHost stoppedLog none).map StoredMessage.copy ∧
      (messagesToCopy plainHost stoppedLog none).map StoredMessage.role =
        [.user, .assistant, .tool, .assistant, .user] ∧
      (reconstructMessages plainHost (fork plainHost stoppedLog none) true).map StoredMessage.role =
        [.user, .assistant, .assistant, .user] := by
  decide +kernel

end NimbleBrain.Conversation
