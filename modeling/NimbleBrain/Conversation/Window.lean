import Mathlib.Data.List.Flatten
import Mathlib.Data.List.TakeWhile
import Mathlib.Tactic.Linarith

/- A prompt that is too long keeps its first message and its last groups. A group holds a call and its results. -/

namespace NimbleBrain.Conversation.Window

inductive Role where
  | system | user | assistant | tool
  deriving DecidableEq

/-- The other parts are their JSON text. -/
inductive Part where
  | toolCall (toolCallId toolName input : String)
  | toolResult (toolCallId toolName output : String)
  | other (type json : String)
  deriving DecidableEq

inductive Content where
  | text (text : String)
  | parts (parts : List Part)
  deriving DecidableEq

structure Message where
  role : Role
  content : Content
  deriving DecidableEq

def Content.partList : Content → List Part
  | .text _ => []
  | .parts list => list

def Part.callId? : Part → Option String
  | .toolCall toolCallId _ _ => some toolCallId
  | _ => none

def Part.resultId? : Part → Option String
  | .toolResult toolCallId _ _ => some toolCallId
  | _ => none

def Message.callIds (message : Message) : List String := message.content.partList.filterMap Part.callId?

def Message.resultIds (message : Message) : List String := message.content.partList.filterMap Part.resultId?

def hasToolUse (message : Message) : Bool := message.content.partList.any fun part => part.callId?.isSome

def hasToolResult (message : Message) : Bool := message.content.partList.any fun part => part.resultId?.isSome

def Message.isToolCall (message : Message) : Bool := message.role = .assistant && hasToolUse message

def Message.isToolResult (message : Message) : Bool := message.role = .tool && hasToolResult message

section Code

/-- An assistant message with calls and all tool results directly after it are one group. -/
def groupMessages : List Message → List (List Message)
  | [] => []
  | message :: rest =>
      if message.isToolCall && rest.head?.any Message.isToolResult then
        (message :: rest.takeWhile Message.isToolResult) :: groupMessages (rest.dropWhile Message.isToolResult)
      else [message] :: groupMessages rest
termination_by messages => messages.length
decreasing_by
  · exact Nat.lt_succ_of_le (List.dropWhile_sublist _).length_le
  · exact Nat.lt_succ_self _

variable (estimateTokens : Message → Nat)

def sizeOf (messages : List Message) : Nat := (messages.map estimateTokens).sum

/-- The walk goes from the newest group to the oldest and stops at the first that does not fit. -/
def keepFitting (budget : ℚ) : List (List Message) → List (List Message)
  | [] => []
  | group :: older =>
      if budget - sizeOf estimateTokens group < 0 then []
      else group :: keepFitting (budget - sizeOf estimateTokens group) older

/-- The groups before the last that are kept, the oldest first. -/
def keptGroups (budget : ℚ) (groups : List (List Message)) : List (List Message) :=
  (keepFitting estimateTokens budget groups.dropLast.reverse).reverse

def windowMessages (messages : List Message) (maxTokens : ℚ) : List Message :=
  match messages with
  | [] => []
  | first :: rest =>
      if (sizeOf estimateTokens messages : ℚ) ≤ maxTokens then messages
      else if messages.length ≤ 2 then messages
      else
        let groups := groupMessages rest
        let lastGroup := groups.getLast?.getD []
        let budget := maxTokens - estimateTokens first - sizeOf estimateTokens lastGroup
        first :: (keptGroups estimateTokens budget groups).flatten ++ lastGroup

end Code

section Claim

/-- A tool result follows the assistant message that holds its calls. Only certain messages stand between them. -/
def PairedThrough (between : Message → Prop) (messages : List Message) : Prop :=
  ∀ before message after, messages = before ++ message :: after → message.isToolResult = true →
    ∃ earlier assistant run, before = earlier ++ assistant :: run ∧ assistant.role = .assistant ∧
      message.resultIds ⊆ assistant.callIds ∧ ∀ other ∈ run, between other

/-- A tool result stands in the run of results directly after its call. -/
def Paired : List Message → Prop := PairedThrough fun message => message.isToolResult = true

/-- The same, where any tool message may stand in the run. -/
def PairedInTools : List Message → Prop := PairedThrough fun message => message.role = .tool

variable (estimateTokens : Message → Nat)

/-- What a window keeps: the first message and the last groups after it, as many as fit. -/
structure Windowed (messages : List Message) (maxTokens : ℚ) (window : List Message) : Prop where
  parts : ∃ first rest older kept last, messages = first :: rest ∧
    groupMessages rest = older ++ kept ++ [last] ∧ window = first :: kept.flatten ++ last ∧
      (sizeOf estimateTokens window : ℚ) ≤ max maxTokens (sizeOf estimateTokens (first :: last)) ∧
        ∀ group ∈ older.getLast?, maxTokens < sizeOf estimateTokens window + sizeOf estimateTokens group
  subsequence : window.Sublist messages
  paired : Paired window
  answered : ∀ before message after, window = before ++ message :: after → message.isToolCall = true →
    ∃ earlier, messages = earlier ++ message :: after

end Claim

variable {between : Message → Prop}

theorem PairedThrough.append {first second : List Message} (one : PairedThrough between first)
    (other : PairedThrough between second) : PairedThrough between (first ++ second) := by
  intro before message after split isResult
  rcases List.append_eq_append_iff.mp split with ⟨inside, rfl, found⟩ | ⟨inside, rfl, found⟩
  · obtain ⟨earlier, assistant, run, rfl, holds⟩ := other inside message after found isResult
    exact ⟨first ++ earlier, assistant, run, by rw [List.append_assoc], holds⟩
  · cases inside with
    | nil =>
        obtain ⟨earlier, assistant, run, same, holds⟩ := other [] message after found.symm isResult
        simp at same
    | cons next inside =>
        obtain ⟨rfl, rfl⟩ := List.cons_eq_cons.mp found
        exact one before message inside rfl isResult

theorem PairedThrough.single {message : Message} (plain : message.isToolResult = false) :
    PairedThrough between [message] := by
  intro before other after split isResult
  have member : other ∈ [message] := split ▸ List.mem_append_right before List.mem_cons_self
  rw [List.mem_singleton.mp member, plain] at isResult
  cases isResult

variable {assistant : Message}

/-- A call and the tool messages directly after it. -/
theorem PairedThrough.group {tools : List Message} (role : assistant.role = .assistant)
    (holds : ∀ tool ∈ tools, tool.resultIds ⊆ assistant.callIds) (inside : ∀ tool ∈ tools, between tool) :
    PairedThrough between (assistant :: tools) := by
  intro before message after split isResult
  cases before with
  | nil =>
      obtain ⟨rfl, -⟩ := List.cons_eq_cons.mp split
      rw [Message.isToolResult, role] at isResult
      cases isResult
  | cons first run =>
      obtain ⟨rfl, rfl⟩ := List.cons_eq_cons.mp split
      exact ⟨[], assistant, run, rfl, role, holds message (List.mem_append_right _ List.mem_cons_self),
        fun other member => inside other (List.mem_append_left _ member)⟩

theorem groupMessages_flatten (messages : List Message) : (groupMessages messages).flatten = messages := by
  fun_induction groupMessages messages with
  | case1 => rfl
  | case2 message rest opens ih =>
      rw [List.flatten_cons, ih, List.cons_append, List.takeWhile_append_dropWhile]
  | case3 message rest alone ih =>
      rw [List.flatten_cons, ih, List.singleton_append]

variable {messages : List Message}

theorem groupMessages_ne_nil (some : messages ≠ []) : groupMessages messages ≠ [] := by
  intro empty
  have flat := groupMessages_flatten messages
  rw [empty] at flat
  exact some flat.symm

/-- What follows a group does not begin with a result. -/
theorem head_dropWhile_isToolResult (messages : List Message) :
    ∀ message ∈ (messages.dropWhile Message.isToolResult).head?, message.isToolResult = false := by
  intro message first
  have stops := List.head?_dropWhile_not Message.isToolResult messages
  rw [Option.mem_def.mp first] at stops
  simpa using stops

theorem Message.isToolCall_of_results {result : Message} (role : assistant.role = .assistant)
    (isResult : result.isToolResult = true) (holds : result.resultIds ⊆ assistant.callIds) :
    assistant.isToolCall = true := by
  have has : hasToolResult result = true := (Bool.and_eq_true_iff.mp isResult).2
  obtain ⟨part, listed, some⟩ := List.any_eq_true.mp has
  obtain ⟨id, named⟩ := Option.isSome_iff_exists.mp some
  obtain ⟨call, present, called⟩ := List.mem_filterMap.mp (holds (List.mem_filterMap.mpr ⟨part, listed, named⟩))
  have uses : hasToolUse assistant = true := List.any_eq_true.mpr ⟨call, present, by rw [called]; rfl⟩
  rw [isToolCall, role, uses]
  rfl

/-- Without a group at its front, a list keeps its pairs, where the next message is no result of that group. -/
theorem Paired.dropGroup {message : Message} {run rest : List Message} (paired : Paired (message :: run ++ rest))
    (results : ∀ other ∈ run, other.isToolResult = true)
    (ends : message.isToolCall = true → ∀ next ∈ rest.head?, next.isToolResult = false) : Paired rest := by
  intro before result after split isResult
  obtain ⟨earlier, assistant, between, same, role, holds, between'⟩ :=
    paired (message :: run ++ before) result after (by rw [split, List.append_assoc]) isResult
  rcases List.append_eq_append_iff.mp same with ⟨inside, rfl, found⟩ | ⟨inside, group, found⟩
  · exact ⟨inside, assistant, between, found, role, holds, between'⟩
  · cases inside with
    | nil => exact ⟨[], assistant, between, found.symm, role, holds, between'⟩
    | cons first inside =>
        obtain ⟨rfl, rfl⟩ := List.cons_eq_cons.mp found
        cases earlier with
        | cons other earlier =>
            have member : assistant ∈ run := by
              rw [(List.cons_eq_cons.mp group).2]
              exact List.mem_append_right _ List.mem_cons_self
            have tool := (Bool.and_eq_true_iff.mp (results assistant member)).1
            rw [role] at tool
            cases tool
        | nil =>
            obtain ⟨rfl, -⟩ := List.cons_eq_cons.mp group
            have open' := ends (Message.isToolCall_of_results role isResult holds)
            cases before with
            | nil =>
                rw [open' result (by rw [split]; rfl)] at isResult
                cases isResult
            | cons next before =>
                have isResult : next.isToolResult = true := between' next (List.mem_append_right _ List.mem_cons_self)
                rw [open' next (by rw [split]; rfl)] at isResult
                cases isResult

/-- What stands after some of the groups keeps its pairs. -/
theorem Paired.dropGroups (paired : Paired messages) {older newer : List (List Message)}
    (groups : groupMessages messages = older ++ newer) : Paired newer.flatten := by
  induction messages using groupMessages.induct generalizing older with
  | case1 =>
      rw [groupMessages] at groups
      rw [(List.append_eq_nil_iff.mp groups.symm).2]
      exact paired
  | case2 message rest opens ih =>
      cases older with
      | nil =>
          rw [← show groupMessages (message :: rest) = newer from groups, groupMessages_flatten]
          exact paired
      | cons group older =>
          rw [groupMessages, if_pos opens] at groups
          refine ih ?_ (List.cons_eq_cons.mp groups).2
          apply @Paired.dropGroup message (rest.takeWhile Message.isToolResult)
          · rw [List.cons_append, List.takeWhile_append_dropWhile]
            exact paired
          · exact fun other member => List.mem_takeWhile_imp member
          · exact fun _ => head_dropWhile_isToolResult rest
  | case3 message rest alone ih =>
      cases older with
      | nil =>
          rw [← show groupMessages (message :: rest) = newer from groups, groupMessages_flatten]
          exact paired
      | cons group older =>
          rw [groupMessages, if_neg alone] at groups
          refine ih ?_ (List.cons_eq_cons.mp groups).2
          apply @Paired.dropGroup message []
          · exact paired
          · exact fun other member => nomatch member
          · intro isCall next first
            by_contra isResult
            apply alone
            rw [isCall, Bool.true_and]
            exact Option.any_eq_true .. |>.mpr ⟨next, first, by simpa using isResult⟩

section Walk

variable (estimateTokens : Message → Nat)

def groupsSize (groups : List (List Message)) : Nat := (groups.map (sizeOf estimateTokens)).sum

theorem sizeOf_cons (message : Message) (rest : List Message) :
    sizeOf estimateTokens (message :: rest) = estimateTokens message + sizeOf estimateTokens rest := by
  simp [sizeOf]

theorem sizeOf_append (first second : List Message) :
    sizeOf estimateTokens (first ++ second) = sizeOf estimateTokens first + sizeOf estimateTokens second := by
  simp [sizeOf]

theorem sizeOf_flatten (groups : List (List Message)) :
    sizeOf estimateTokens groups.flatten = groupsSize estimateTokens groups := by
  induction groups with
  | nil => rfl
  | cons group older ih => simp [groupsSize, sizeOf_append, ih]

theorem groupsSize_reverse (groups : List (List Message)) :
    groupsSize estimateTokens groups.reverse = groupsSize estimateTokens groups := by
  simp [groupsSize, List.sum_reverse]

/-- The kept groups fit and the first that is left out does not. -/
theorem keepFitting_spec (groups : List (List Message)) (budget : ℚ) :
    ∃ dropped, groups = keepFitting estimateTokens budget groups ++ dropped ∧
      (keepFitting estimateTokens budget groups = [] ∨
        (groupsSize estimateTokens (keepFitting estimateTokens budget groups) : ℚ) ≤ budget) ∧
      ∀ group ∈ dropped.head?,
        budget < groupsSize estimateTokens (keepFitting estimateTokens budget groups) + sizeOf estimateTokens group := by
  induction groups generalizing budget with
  | nil => exact ⟨[], rfl, .inl rfl, nofun⟩
  | cons group older ih =>
      rw [keepFitting]
      split
      · next above =>
          refine ⟨group :: older, rfl, .inl rfl, ?_⟩
          intro other first
          obtain rfl := Option.some.inj first
          simp only [groupsSize, List.map_nil, List.sum_nil, Nat.cast_zero, zero_add]
          linarith
      · next fits =>
          obtain ⟨dropped, parts, within, next⟩ := ih (budget - sizeOf estimateTokens group)
          refine ⟨dropped, congrArg (group :: ·) parts, .inr ?_, ?_⟩
          · rcases within with none | within
            · rw [none]
              simp only [groupsSize, List.map_cons, List.map_nil, List.sum_cons, List.sum_nil, add_zero]
              linarith
            · simp only [groupsSize, List.map_cons, List.sum_cons, Nat.cast_add] at within ⊢
              linarith
          · intro other first
            have above := next other first
            simp only [groupsSize, List.map_cons, List.sum_cons, Nat.cast_add] at above ⊢
            linarith

end Walk

variable (estimateTokens : Message → Nat) {first : Message} {rest : List Message} {maxTokens : ℚ}

/-- The walk keeps the groups that stand before the last one, from the newest on. -/
theorem keptGroups_spec (budget : ℚ) (groups : List (List Message)) :
    ∃ older, groups.dropLast = older ++ keptGroups estimateTokens budget groups ∧
      (keptGroups estimateTokens budget groups = [] ∨
        (groupsSize estimateTokens (keptGroups estimateTokens budget groups) : ℚ) ≤ budget) ∧
      ∀ group ∈ older.getLast?,
        budget < groupsSize estimateTokens (keptGroups estimateTokens budget groups) +
          sizeOf estimateTokens group := by
  obtain ⟨dropped, parts, within, next⟩ := keepFitting_spec estimateTokens groups.dropLast.reverse budget
  refine ⟨dropped.reverse, ?_, ?_, ?_⟩
  · rw [keptGroups, ← List.reverse_append, ← parts, List.reverse_reverse]
  · rw [keptGroups, List.reverse_eq_nil_iff, groupsSize_reverse]
    exact within
  · intro group last
    rw [List.getLast?_reverse] at last
    rw [keptGroups, groupsSize_reverse]
    exact next group last

/-- A window that is shorter than the list is its first message before some of its last groups. -/
theorem windowMessages_shorter (shorter : windowMessages estimateTokens (first :: rest) maxTokens ≠ first :: rest) :
    ∃ older kept last, groupMessages rest = older ++ kept ++ [last] ∧
      windowMessages estimateTokens (first :: rest) maxTokens = first :: kept.flatten ++ last ∧
        (kept = [] ∨ (groupsSize estimateTokens kept : ℚ) ≤
          maxTokens - estimateTokens first - sizeOf estimateTokens last) ∧
        ∀ group ∈ older.getLast?, maxTokens - estimateTokens first - sizeOf estimateTokens last <
          groupsSize estimateTokens kept + sizeOf estimateTokens group := by
  unfold windowMessages at shorter ⊢
  dsimp only at shorter ⊢
  split at shorter
  · exact absurd rfl shorter
  · next above =>
      split at shorter
      · exact absurd rfl shorter
      · next long =>
          have some : rest ≠ [] := by
            rintro rfl
            exact long (by decide : 1 ≤ 2)
          have last := List.getLast?_eq_some_getLast (groupMessages_ne_nil some)
          rw [if_neg above, if_neg long, last, Option.getD_some]
          obtain ⟨older, parts, within, next⟩ := keptGroups_spec estimateTokens
            (maxTokens - estimateTokens first -
              sizeOf estimateTokens ((groupMessages rest).getLast (groupMessages_ne_nil some))) (groupMessages rest)
          refine ⟨older, _, _, ?_, rfl, within, next⟩
          rw [← parts, List.dropLast_concat_getLast]

theorem sizeOf_window (kept : List (List Message)) (last : List Message) :
    sizeOf estimateTokens (first :: kept.flatten ++ last) =
      estimateTokens first + groupsSize estimateTokens kept + sizeOf estimateTokens last := by
  rw [sizeOf_append, sizeOf_cons, sizeOf_flatten]

/-- A window of a list whose calls and results are paired is the list, or its first message and its last groups. -/
theorem window_keeps_prompt (messages : List Message) (maxTokens : ℚ)
    (opens : ∀ first ∈ messages.head?, first.isToolCall = false ∧ first.isToolResult = false)
    (paired : Paired messages) :
    windowMessages estimateTokens messages maxTokens = messages ∨
      Windowed estimateTokens messages maxTokens (windowMessages estimateTokens messages maxTokens) := by
  by_cases whole : windowMessages estimateTokens messages maxTokens = messages
  · exact .inl whole
  · right
    cases messages with
    | nil => exact absurd rfl whole
    | cons first rest =>
        obtain ⟨noCall, noResult⟩ := opens first rfl
        obtain ⟨older, kept, last, groups, window, within, next⟩ := windowMessages_shorter estimateTokens whole
        have flat : rest = older.flatten ++ (kept.flatten ++ last) := by
          rw [← groupMessages_flatten rest, groups]
          simp
        have suffix : Paired (kept.flatten ++ last) := by
          have pairs : Paired (kept ++ [last]).flatten :=
            Paired.dropGroups (@Paired.dropGroup first [] rest paired nofun (by simp [noCall]))
              (by rw [groups, List.append_assoc])
          simpa using pairs
        rw [window]
        exact {
          parts := by
            refine ⟨first, rest, older, kept, last, rfl, groups, rfl, ?_, ?_⟩
            · rw [sizeOf_window, sizeOf_cons]
              rcases within with rfl | within
              · apply le_max_of_le_right
                simp [groupsSize]
              · apply le_max_of_le_left
                push_cast
                linarith
            · intro group member
              have above := next group member
              rw [sizeOf_window]
              push_cast
              linarith
          subsequence := by
            rw [flat]
            exact (List.sublist_append_right ..).cons_cons first
          paired := by
            intro before message after split isResult
            cases before with
            | nil =>
                obtain ⟨rfl, -⟩ := List.cons_eq_cons.mp split
                rw [noResult] at isResult
                cases isResult
            | cons other before =>
                obtain ⟨rfl, tail⟩ := List.cons_eq_cons.mp split
                obtain ⟨earlier, assistant, run, rfl, holds⟩ := suffix before message after tail isResult
                exact ⟨first :: earlier, assistant, run, rfl, holds⟩
          answered := by
            intro before message after split isCall
            cases before with
            | nil =>
                obtain ⟨rfl, -⟩ := List.cons_eq_cons.mp split
                rw [noCall] at isCall
                cases isCall
            | cons other before =>
                obtain ⟨rfl, tail⟩ := List.cons_eq_cons.mp split
                refine ⟨first :: older.flatten ++ before, ?_⟩
                have same : kept.flatten ++ last = before ++ message :: after := tail
                rw [flat, same]
                simp }

def asked : Message := ⟨.user, .text "What is the weather?"⟩

def called : Message := ⟨.assistant, .parts [.toolCall "c1" "weather" "{}"]⟩

def answer : Message := ⟨.tool, .parts [.toolResult "c1" "weather" "sunny"]⟩

theorem window_keeps_prompt_short :
    windowMessages (fun _ => 1) [asked, asked, called, answer] 3 = [asked, called, answer] ∧
      Windowed (fun _ => 1) [asked, asked, called, answer] 3 [asked, called, answer] := by
  have window : windowMessages (fun _ => 1) [asked, asked, called, answer] 3 = [asked, called, answer] := by
    norm_num [windowMessages, groupMessages, keptGroups, keepFitting, sizeOf, asked, called, answer,
      Message.isToolCall, Message.isToolResult, hasToolUse, hasToolResult, Content.partList, Part.callId?,
      Part.resultId?]
  have paired : Paired [asked, asked, called, answer] :=
    (PairedThrough.single rfl).append ((PairedThrough.single rfl).append
      (PairedThrough.group rfl (by decide) (by decide)))
  have keeps := window_keeps_prompt (fun _ => 1) [asked, asked, called, answer] 3 (by decide) paired
  rw [window] at keeps
  exact ⟨window, keeps.resolve_left (by decide)⟩

/-- A tool message without a result stands between the call and its result. -/
def approval : Message := ⟨.tool, .parts [.other "tool-approval-response" "{}"]⟩

theorem window_orphans_result :
    ¬ ∀ (estimateTokens : Message → Nat) (messages : List Message) (maxTokens : ℚ),
      (∀ first ∈ messages.head?, first.isToolCall = false ∧ first.isToolResult = false) →
        PairedInTools messages → windowMessages estimateTokens messages maxTokens = messages ∨
          PairedInTools (windowMessages estimateTokens messages maxTokens) := by
  intro all
  have window : windowMessages (fun _ => 1) [asked, called, approval, answer] 0 = [asked, answer] := by
    norm_num [windowMessages, groupMessages, keptGroups, keepFitting, sizeOf, asked, called, approval, answer,
      Message.isToolCall, Message.isToolResult, hasToolUse, hasToolResult, Content.partList, Part.callId?,
      Part.resultId?]
  have paired : PairedInTools [asked, called, approval, answer] :=
    (PairedThrough.single rfl).append (PairedThrough.group rfl (by decide) (by decide))
  have keeps := all (fun _ => 1) [asked, called, approval, answer] 0 (by decide) paired
  rw [window] at keeps
  obtain ⟨earlier, assistant, run, same, role, -⟩ := keeps.resolve_left (by decide) [asked] answer [] rfl rfl
  have member : assistant ∈ [asked] := same ▸ List.mem_append_right earlier List.mem_cons_self
  rw [List.mem_singleton.mp member] at role
  cases role

end NimbleBrain.Conversation.Window
