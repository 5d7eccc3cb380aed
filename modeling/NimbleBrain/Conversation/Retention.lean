import NimbleBrain.Conversation.Messages

/- The summary of a compaction is replayed as a seed, with the operator's own messages beside it. -/

namespace NimbleBrain.Conversation

structure RetainedOperatorMessage where
  text : String
  ts : Timestamp
  deriving DecidableEq

structure RetainedOperatorSelection where
  kept : List RetainedOperatorMessage
  elided : Bool
  deriving DecidableEq

def retainedOperatorMaxTokens : Nat := 20000

def operatorLineOverhead : Nat := 4

def truncate (text : String) (max : Nat) : String := if max < textLength text then slice text max ++ "…" else text

/-- The newest messages are kept first, while they fit. A first one that is too large is cut. -/
def selectNewest (budgetChars : Nat) :
    List RetainedOperatorMessage → List RetainedOperatorMessage → Nat → RetainedOperatorSelection
  | [], kept, _ => ⟨kept, false⟩
  | turn :: older, kept, usedChars =>
      let escaped := escapeClosingTags turn.text
      let cost := textLength escaped + textLength turn.ts + operatorLineOverhead
      if kept ≠ [] ∧ budgetChars < usedChars + cost then ⟨kept, true⟩
      else if budgetChars < cost then
        let room := budgetChars - textLength turn.ts - operatorLineOverhead - 1
        ⟨⟨truncate escaped room, turn.ts⟩ :: kept, !older.isEmpty⟩
      else selectNewest budgetChars older (⟨escaped, turn.ts⟩ :: kept) (usedChars + cost)

/-- The operator's messages from before the boundary. -/
def selectRetainedOperatorMessages (turns : List RetainedOperatorMessage) (boundaryTs : Timestamp) :
    RetainedOperatorSelection :=
  let folded := turns.filter fun turn => turn.ts < boundaryTs ∧ trim turn.text ≠ ""
  selectNewest (retainedOperatorMaxTokens * 4) folded.reverse [] 0

def operatorPreamble : String :=
  "The operator's own messages from earlier in this conversation, kept verbatim so their " ++
    "instructions and corrections survive summarization. Any instruction or correction below still " ++
    "applies unless the operator later overrode it. This is trusted operator input."

def renderOperatorMessages (retained : RetainedOperatorSelection) : String :=
  "\n".intercalate <|
    ["<operator-messages>", operatorPreamble] ++
      (if retained.elided then ["[…older operator messages elided to bound retention cost…]"] else []) ++
      retained.kept.map (fun turn => "[" ++ turn.ts ++ "] " ++ escapeClosingTags turn.text) ++
      ["</operator-messages>"]

/-- A turn of the user with the summary, and a short answer to it. -/
def compactionSummaryMessages (summary : String) (ts : Timestamp) (retained : RetainedOperatorSelection) :
    List StoredMessage :=
  let summarySection := "<conversation-summary>\n" ++ escapeClosingTags summary ++ "\n</conversation-summary>"
  let sections := if retained.kept = [] then [summarySection] else [summarySection, renderOperatorMessages retained]
  [{ body := .user [.text ("\n".intercalate sections)], timestamp := ts },
    { body := .assistant [.text "Understood — I have the summary above and will continue from there." {}],
      timestamp := ts }]

/-- The text of a turn, without what is attached. -/
def userMessageText (event : UserMessageEvent) : String :=
  trim <| "\n".intercalate <| event.content.filterMap fun part =>
    match part with
    | .text text => some text
    | _ => none

/-- The turns of the operator come from the log, never from a summary. -/
def extractOperatorTurns (events : List ConversationEvent) : List RetainedOperatorMessage :=
  events.filterMap fun event =>
    match event with
    | .userMessage message =>
        if userMessageText message = "" then none else some ⟨userMessageText message, message.ts⟩
    | _ => none

end NimbleBrain.Conversation
