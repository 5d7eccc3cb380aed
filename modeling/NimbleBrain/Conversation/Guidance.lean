import NimbleBrain.Conversation.Messages
import NimbleBrain.Library.Table

/- Guidance that was delivered rides the tool results of its iteration. -/

namespace NimbleBrain.Conversation

open Library

/-- A delivered body, as the engine returns it and as replay reads it back. -/
structure DeliveredGuidance where
  skillName : String
  scope : String
  skillBody : String
  heldToolCallId : Option String := none
  deriving DecidableEq

/-- The guidance of one tool result. -/
structure CarriedGuidance where
  blocks : List String := []
  skills : List String := []
  deriving DecidableEq

def DeliveredGuidance.block (delivered : DeliveredGuidance) : String :=
  formatConnectorSkillBlock delivered.skillName delivered.scope delivered.skillBody
    delivered.heldToolCallId.isSome

/-- A body goes in the result of the call it held, and else in the last one. -/
def DeliveredGuidance.target (delivered : DeliveredGuidance) (toolCallIds : List String) (last : String) :
    String :=
  match delivered.heldToolCallId with
  | some held => if held ∈ toolCallIds then held else last
  | none => last

/-- Nothing is carried where the iteration has no tool result. -/
def guidanceByToolCall (toolCallIds : List String) (deliveries : List DeliveredGuidance) :
    Table String CarriedGuidance :=
  match toolCallIds.getLast? with
  | none => fun _ => none
  | some last =>
      deliveries.foldl (fun byCall delivered =>
        let target := delivered.target toolCallIds last
        let carried := (byCall target).getD {}
        Function.update byCall target
          (some ⟨carried.blocks ++ [delivered.block], carried.skills ++ [delivered.skillName]⟩)) fun _ => none

def appendBlocks (value : String) (blocks : List String) : String := "\n\n".intercalate (value :: blocks)

/-- A tool result with its guidance after its own text. -/
def withGuidance (part : ToolResultPart) (guidance : Option CarriedGuidance) : ToolResultPart :=
  let blocks := (guidance.map CarriedGuidance.blocks).getD []
  if blocks = [] then part
  else match part.output with
    | .text value => { part with output := .text (appendBlocks value blocks) }
    | .errorText value => { part with output := .errorText (appendBlocks value blocks) }
    | .json _ => part

end NimbleBrain.Conversation
