import NimbleBrain.Conversation.Reconstruct

/- A run takes the events of its span. What it leaves in the history comes from these events. -/

namespace NimbleBrain.Conversation

open Library

variable {host : Host}

/-- The events that a run takes, with its own terminator. -/
def runSpan (runId : String) : List ConversationEvent → List ConversationEvent
  | [] => []
  | inner :: rest =>
      if isExplicitRunTerminator runId inner then [inner]
      else if isImplicitRunEnd inner then []
      else inner :: runSpan runId rest

theorem runSpan_append_rest (runId : String) (events : List ConversationEvent) (acc : RunCollections) :
    runSpan runId events ++ (collectRunEvents runId events acc).rest = events := by
  induction events generalizing acc with
  | nil => rfl
  | cons inner rest ih =>
      rw [runSpan, collectRunEvents]
      split
      · rfl
      · split
        · rfl
        · exact congrArg (inner :: ·) (ih _)

variable {event : ConversationEvent} {runId : String} {events : List ConversationEvent}
  {message : StoredMessage} {times : List Timestamp} {response : LlmResponseEvent} {run : RunCollections}

theorem isImplicitRunEnd_of_terminator (ends : isExplicitRunTerminator runId event = true) :
    isImplicitRunEnd event = false := by
  cases event <;> simp_all [isExplicitRunTerminator, isImplicitRunEnd]

/-- No turn starts within a run. -/
theorem runSpan_inner (runId : String) (events : List ConversationEvent) :
    ∀ event ∈ runSpan runId events, isImplicitRunEnd event = false := by
  induction events with
  | nil => simp [runSpan]
  | cons inner rest ih =>
      rw [runSpan]
      split
      · rename_i ends
        simpa using isImplicitRunEnd_of_terminator ends
      · split
        · simp
        · rename_i stays
          exact List.forall_mem_cons.mpr ⟨by simpa using stays, ih⟩

/-- Events outside of a run leave nothing. -/
theorem buildMessagesFromEvents_skip (rest : List ConversationEvent)
    (inner : ∀ event ∈ events, isImplicitRunEnd event = false) :
    buildMessagesFromEvents host (events ++ rest) = buildMessagesFromEvents host rest := by
  induction events with
  | nil => rfl
  | cons event more ih =>
      have own := inner event (List.mem_cons_self ..)
      have later := ih fun other member => inner other (List.mem_cons_of_mem _ member)
      rw [List.cons_append, buildMessagesFromEvents, later]
      · rintro message rfl
        cases own
      · rintro start rfl
        cases own

/-- Each message of a rebuilt history is a turn of the user, or comes from a run. -/
theorem buildMessagesFromEvents_origin {before after : List StoredMessage}
    (split : buildMessagesFromEvents host events = before ++ message :: after) :
    (∃ first event rest, events = first ++ .userMessage event :: rest ∧ message = buildUserMessage event ∧
      after = buildMessagesFromEvents host rest) ∨
    ∃ first start rest later, events = first ++ .runStart start :: rest ∧
      message ∈ runMessages host (collectRunEvents start.runId rest {}) ∧
      after = later ++ buildMessagesFromEvents host (collectRunEvents start.runId rest {}).rest := by
  induction events using buildMessagesFromEvents.induct generalizing before with
  | case1 => simp [buildMessagesFromEvents] at split
  | case2 event rest ih =>
      rw [buildMessagesFromEvents] at split
      cases before with
      | nil =>
          obtain ⟨rfl, rfl⟩ := List.cons.inj split
          exact .inl ⟨[], event, rest, rfl, rfl, rfl⟩
      | cons own more =>
          rcases ih (List.cons.inj split).2 with ⟨first, other, later, rfl, fine⟩ | ⟨first, start, later, last, rfl, fine⟩
          · exact .inl ⟨.userMessage event :: first, other, later, rfl, fine⟩
          · exact .inr ⟨.userMessage event :: first, start, later, last, rfl, fine⟩
  | case3 start rest ih =>
      rw [buildMessagesFromEvents] at split
      rcases split_append split with ⟨last, own, rfl⟩ | ⟨earlier, rfl, own⟩
      · exact .inr ⟨[], start, rest, last, rfl, by simp [own], rfl⟩
      · have whole := runSpan_append_rest start.runId rest {}
        rcases ih own with ⟨first, other, later, found, fine⟩ | ⟨first, next, later, last, found, fine⟩
        · refine .inl ⟨.runStart start :: (runSpan start.runId rest ++ first), other, later, ?_, fine⟩
          rw [List.cons_append, List.append_assoc, ← found, whole]
        · refine .inr ⟨.runStart start :: (runSpan start.runId rest ++ first), next, later, last, ?_, fine⟩
          rw [List.cons_append, List.append_assoc, ← found, whole]
  | case4 event rest noUser noStart ih =>
      rw [buildMessagesFromEvents] at split
      · rcases ih split with ⟨first, other, later, rfl, fine⟩ | ⟨first, start, later, last, rfl, fine⟩
        · exact .inl ⟨event :: first, other, later, rfl, fine⟩
        · exact .inr ⟨event :: first, start, later, last, rfl, fine⟩
      · exact noUser
      · exact noStart

/-- What a run collects has its times among these. -/
structure RunCollections.TimedBy (run : RunCollections) (times : List Timestamp) : Prop where
  responses : ∀ response ∈ run.llmResponses, response.ts ∈ times
  dones : ∀ id done, run.toolDones id = some done → done.ts ∈ times
  overlays : ∀ overlay ∈ run.connectorSkills, overlay.1.ts ∈ times

theorem RunCollections.timedBy_empty (times : List Timestamp) : ({} : RunCollections).TimedBy times where
  responses := by simp
  dones := by simp
  overlays := by simp

theorem accumulateRunEvent_timedBy {acc : RunCollections} (timed : acc.TimedBy times) (own : event.ts ∈ times) :
    (accumulateRunEvent runId acc event).TimedBy times := by
  cases event with
  | llmResponse response =>
      rw [accumulateRunEvent]
      split
      · refine ⟨fun other member => ?_, timed.dones, timed.overlays⟩
        rcases List.mem_append.mp member with old | new
        · exact timed.responses other old
        · exact List.mem_singleton.mp new ▸ own
      · exact timed
  | toolDone done =>
      rw [accumulateRunEvent]
      split
      · refine ⟨timed.responses, fun id other found => ?_, timed.overlays⟩
        change Function.update acc.toolDones done.id (some done) id = some other at found
        by_cases same : id = done.id
        · subst same
          rw [Function.update_self, Option.some.injEq] at found
          exact found ▸ own
        · rw [Function.update_of_ne same] at found
          exact timed.dones id other found
      · exact timed
  | connectorSkillInjected overlay =>
      refine ⟨timed.responses, timed.dones, fun other member => ?_⟩
      rcases List.mem_append.mp member with old | new
      · exact timed.overlays other old
      · exact List.mem_singleton.mp new ▸ own
  | toolStart _ | skillActivated _ =>
      rw [accumulateRunEvent]
      split
      · exact ⟨timed.responses, timed.dones, timed.overlays⟩
      · exact timed
  | _ => exact timed

theorem collectRunEvents_timedBy (runId : String) {events : List ConversationEvent} {acc : RunCollections}
    {times : List Timestamp} (timed : acc.TimedBy times)
    (own : ∀ event ∈ runSpan runId events, event.ts ∈ times) :
    (collectRunEvents runId events acc).TimedBy times ∧
      ∀ ts, (collectRunEvents runId events acc).cancelledAt = some ts → ts ∈ times := by
  induction events generalizing acc with
  | nil => exact ⟨timed, by simp [collectRunEvents]⟩
  | cons inner rest ih =>
      rw [runSpan] at own
      rw [collectRunEvents]
      split at own
      · rename_i ends
        rw [if_pos ends]
        refine ⟨timed, fun ts stopped => ?_⟩
        have at' : cancelledAt inner = some ts := stopped
        unfold cancelledAt at at'
        split at at'
        · split at at'
          · exact Option.some.inj at' ▸ own _ (List.mem_singleton_self _)
          · cases at'
        · cases at'
      · rename_i goesOn
        rw [if_neg goesOn]
        split at own
        · rename_i ends
          rw [if_pos ends]
          exact ⟨timed, by simp⟩
        · rename_i stays
          rw [if_neg stays]
          exact ih (accumulateRunEvent_timedBy timed (own _ (List.mem_cons_self ..)))
            fun event member => own event (List.mem_cons_of_mem _ member)

/-- A message of a run is no turn of the user, and has the time of one of the run's events. -/
structure OfRun (times : List Timestamp) (message : StoredMessage) : Prop where
  time : message.timestamp ∈ times
  overlay : message.role = .user → message.isOverlay = true

theorem messagesForLlmResponse_ofRun {toolDones : Table String ToolDoneEvent} {toolInputs : Table String Json}
    {iterations : Nat} {skillActivations : Table String SkillActivatedEvent} (own : response.ts ∈ times)
    (dones : ∀ id done, toolDones id = some done → done.ts ∈ times) :
    ∀ message ∈ messagesForLlmResponse host response toolDones toolInputs iterations skillActivations,
      OfRun times message := by
  unfold messagesForLlmResponse
  dsimp only
  split
  · refine List.forall_mem_cons.mpr ⟨⟨own, by simp [StoredMessage.role]⟩, fun message member => ?_⟩
    obtain ⟨entry, found, rfl⟩ := List.mem_map.mp member
    obtain ⟨call, -, done⟩ := List.mem_filterMap.mp found
    obtain ⟨event, at', rfl⟩ := Option.map_eq_some_iff.mp done
    exact ⟨dones _ _ at', by simp [buildToolResultMessage, StoredMessage.role]⟩
  · unfold buildPlaceholderMessage
    dsimp only
    split
    · simpa using ⟨own, by simp [StoredMessage.role]⟩
    · simp

theorem carryGuidance_ofRun {guidance : Table String CarriedGuidance} (ofRun : OfRun times message) :
    OfRun times (carryGuidance guidance message) := by
  unfold carryGuidance
  split
  · dsimp only
    split
    · exact ofRun
    · exact ⟨ofRun.time, by simp [StoredMessage.role]⟩
  · exact ofRun

theorem buildConnectorSkillMessage_ofRun (timed : run.TimedBy times) (responses : Nat) :
    ∀ message ∈ (run.deliveredAfter responses).map buildConnectorSkillMessage, OfRun times message := by
  intro message member
  obtain ⟨event, found, rfl⟩ := List.mem_map.mp member
  obtain ⟨overlay, listed, rfl⟩ := List.mem_map.mp found
  exact ⟨timed.overlays overlay (List.mem_filter.mp listed).1,
    fun _ => by simp [buildConnectorSkillMessage, StoredMessage.isOverlay]⟩

theorem responseMessages_ofRun (timed : run.TimedBy times) (own : response ∈ run.llmResponses) (emitted : Nat) :
    ∀ message ∈ responseMessages host run response emitted, OfRun times message := by
  have answers : ∀ message ∈ messagesForLlmResponse host response run.toolDones run.toolInputs
      run.llmResponses.length run.skillActivations, OfRun times message :=
    messagesForLlmResponse_ofRun (timed.responses _ own) timed.dones
  intro message member
  unfold responseMessages withConnectorSkills at member
  dsimp only at member
  split at member
  · exact answers message member
  · split at member
    · rcases List.mem_append.mp member with answer | overlay
      · exact answers message answer
      · exact buildConnectorSkillMessage_ofRun timed emitted message overlay
    · obtain ⟨answer, found, rfl⟩ := List.mem_map.mp member
      exact carryGuidance_ofRun (answers answer found)

theorem appendCancelledMarker_ofRun {messages : List StoredMessage} {ts : Timestamp}
    (ofRun : ∀ message ∈ messages, OfRun times message) (own : ts ∈ times) :
    ∀ message ∈ appendCancelledMarker messages ts, OfRun times message := by
  have marker : OfRun times (markerMessage cancelledRunMarker ts none) :=
    ⟨own, by simp [markerMessage, StoredMessage.role]⟩
  have pushed : ∀ message ∈ messages ++ [markerMessage cancelledRunMarker ts none], OfRun times message := by
    intro message member
    rcases List.mem_append.mp member with old | new
    · exact ofRun message old
    · exact List.mem_singleton.mp new ▸ marker
  unfold appendCancelledMarker
  split
  · rename_i last found
    have lastOf := ofRun last (List.mem_of_getLast? found)
    split
    · split
      · intro message member
        rcases List.mem_append.mp member with old | new
        · exact ofRun message (List.dropLast_subset _ old)
        · rw [List.mem_singleton.mp new]
          exact ⟨lastOf.time, by simp [StoredMessage.role]⟩
      · exact ofRun
    · exact pushed
  · simpa using marker

/-- The messages of a run come from the events of its span. -/
theorem runMessages_ofRun (runId : String) (events : List ConversationEvent) :
    ∀ message ∈ runMessages host (collectRunEvents runId events {}),
      OfRun ((runSpan runId events).map ConversationEvent.ts) message := by
  obtain ⟨timed, stopped⟩ := @collectRunEvents_timedBy runId events _ _
    (RunCollections.timedBy_empty ((runSpan runId events).map ConversationEvent.ts))
    fun event member => List.mem_map_of_mem member
  have messages : ∀ message ∈ ((collectRunEvents runId events {}).llmResponses.zipIdx 1).flatMap
      (fun entry =>
        responseMessages host (collectRunEvents runId events {}).toRunCollections entry.1 entry.2) ++
      ((collectRunEvents runId events {}).deliveredAfter 0).map buildConnectorSkillMessage,
      OfRun ((runSpan runId events).map ConversationEvent.ts) message := by
    intro message member
    rcases List.mem_append.mp member with answer | overlay
    · obtain ⟨entry, listed, found⟩ := List.mem_flatMap.mp answer
      exact responseMessages_ofRun timed (List.fst_mem_of_mem_zipIdx listed) _ message found
    · exact buildConnectorSkillMessage_ofRun timed 0 message overlay
  unfold runMessages
  dsimp only
  split
  · rename_i ts found
    exact appendCancelledMarker_ofRun messages (stopped ts found)
  · exact messages

end NimbleBrain.Conversation
