import NimbleBrain.Conversation.Reconstruct

/- What replay keeps of an answer: its text, and the calls that have a result. -/

namespace NimbleBrain.Conversation

open Library

variable {host : Host}

/-- The text parts of an assistant message. -/
def StoredMessage.assistantTexts (message : StoredMessage) : List String :=
  match message.body with
  | .assistant content => content.filterMap ContentPart.text?
  | _ => []

/-- The calls that a tool message answers, by id and name. -/
def StoredMessage.resultCalls (message : StoredMessage) : List (String × String) :=
  match message.body with
  | .tool content => content.map fun part => (part.toolCallId, part.toolName)
  | _ => []

def ToolCallPart.idAndName (call : ToolCallPart) : String × String := (call.toolCallId, call.toolName)

variable {toolDones : Table String ToolDoneEvent}

theorem calls_normalizeForReplay (content : List ContentPart) :
    (toolCallsOf (normalizeForReplay host content)).map ToolCallPart.toolCallId =
      (toolCallsOf content).map ToolCallPart.toolCallId := by
  induction content with
  | nil => rfl
  | cons part rest ih =>
      cases part <;>
        simpa [toolCallsOf, normalizeForReplay, normalizePart, List.filterMap_cons, ContentPart.call?] using ih

theorem toolCallsOf_filter (content : List ContentPart) :
    toolCallsOf (content.filter (isAnswered toolDones)) =
      (toolCallsOf content).filter fun call => (toolDones call.toolCallId).isSome := by
  induction content with
  | nil => rfl
  | cons part rest ih =>
      rw [toolCallsOf] at ih ⊢
      cases part with
      | toolCall call =>
          cases answered : (toolDones call.toolCallId).isSome <;>
            simpa [toolCallsOf, isAnswered, List.filter_cons, List.filterMap_cons, ContentPart.call?, answered]
              using ih
      | _ =>
          simpa [toolCallsOf, isAnswered, List.filter_cons, List.filterMap_cons, ContentPart.call?] using ih

theorem executedToolCalls_fst (content : List ContentPart) :
    (executedToolCalls toolDones content).map Prod.fst =
      (toolCallsOf content).filter fun call => (toolDones call.toolCallId).isSome := by
  rw [executedToolCalls]
  induction toolCallsOf content with
  | nil => rfl
  | cons call rest ih => cases found : toolDones call.toolCallId <;> simp [found, ih]

/-- The calls of the replayed answer are those that have a result. -/
theorem calls_replayContent (content : List ContentPart) :
    (toolCallsOf (normalizeForReplay host (content.filter (isAnswered toolDones)))).map ToolCallPart.toolCallId =
      (executedToolCalls toolDones content).map fun entry => entry.1.toolCallId := by
  rw [calls_normalizeForReplay, toolCallsOf_filter, ← executedToolCalls_fst, List.map_map]
  rfl

theorem texts_replayContent (toolDones : Table String ToolDoneEvent) (content : List ContentPart) :
    (normalizeForReplay host (content.filter (isAnswered toolDones))).filterMap ContentPart.text? =
      content.filterMap ContentPart.text? := by
  induction content with
  | nil => rfl
  | cons part rest ih =>
      rw [normalizeForReplay] at ih ⊢
      cases part with
      | toolCall call =>
          cases answered : (toolDones call.toolCallId).isSome <;>
            simpa [isAnswered, List.filter_cons, List.filterMap_cons, ContentPart.call?, ContentPart.text?, answered,
              normalizePart] using ih
      | _ =>
          simpa [isAnswered, List.filter_cons, List.filterMap_cons, ContentPart.call?, ContentPart.text?,
            normalizePart] using ih

theorem any_isText_iff (content : List ContentPart) :
    content.any ContentPart.isText = false ↔ content.filterMap ContentPart.text? = [] := by
  rw [List.any_eq_false, List.filterMap_eq_nil_iff]
  refine forall₂_congr fun part _ => ?_
  cases part <;> simp [ContentPart.isText, ContentPart.text?]

theorem withGuidance_toolCallId (part : ToolResultPart) (guidance : Option CarriedGuidance) :
    (withGuidance part guidance).toolCallId = part.toolCallId := by
  unfold withGuidance
  dsimp only
  split
  · rfl
  · split <;> rfl

theorem withGuidance_toolName (part : ToolResultPart) (guidance : Option CarriedGuidance) :
    (withGuidance part guidance).toolName = part.toolName := by
  unfold withGuidance
  dsimp only
  split
  · rfl
  · split <;> rfl

/-- Guidance changes what a result says, not which call it answers. -/
theorem carryGuidance_answers (guidance : Table String CarriedGuidance) (message : StoredMessage) :
    (carryGuidance guidance message).answers = message.answers := by
  unfold carryGuidance
  split
  · rename_i content found
    dsimp only
    split
    · rfl
    · simp [StoredMessage.answers, found, withGuidance_toolCallId]
  · rfl

theorem carryGuidance_role (guidance : Table String CarriedGuidance) (message : StoredMessage) :
    (carryGuidance guidance message).role = message.role := by
  unfold carryGuidance
  split
  · rename_i content found
    dsimp only
    split
    · rfl
    · simp [StoredMessage.role, found]
  · rfl

theorem carryGuidance_assistant {guidance : Table String CarriedGuidance} {message : StoredMessage}
    (role : message.role = .assistant) : carryGuidance guidance message = message := by
  unfold carryGuidance
  split
  · rename_i content found
    simp [StoredMessage.role, found] at role
  · rfl

theorem carryGuidance_assistantTexts (guidance : Table String CarriedGuidance) (message : StoredMessage) :
    (carryGuidance guidance message).assistantTexts = message.assistantTexts := by
  unfold carryGuidance
  split
  · rename_i content found
    dsimp only
    split
    · rfl
    · simp [StoredMessage.assistantTexts, found]
  · rfl

theorem carryGuidance_resultCalls (guidance : Table String CarriedGuidance) (message : StoredMessage) :
    (carryGuidance guidance message).resultCalls = message.resultCalls := by
  unfold carryGuidance
  split
  · rename_i content found
    dsimp only
    split
    · rfl
    · simp [StoredMessage.resultCalls, found, withGuidance_toolCallId, withGuidance_toolName]
  · rfl

end NimbleBrain.Conversation
