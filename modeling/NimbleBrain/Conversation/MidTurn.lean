import NimbleBrain.Conversation.Text
import NimbleBrain.Conversation.Window

/- A turn that grows past its budget folds its oldest groups into a summary. -/

namespace NimbleBrain.Conversation.Window

section Code

def midTurnTriggerRatio : ℚ := 1

def keepRatio : ℚ := 35 / 100

def minSummarizedMessages : Nat := 4

def summaryAck : String := "Understood — I have the summary above and will continue from there."

/-- The built-in writer of JSON gives the text of a part. -/
def textPart (stringify : String → String) (text : String) : Part := .other "text" (stringify text)

def summaryTurn (stringify : String → String) (summary : String) : Message :=
  ⟨.user, .parts [textPart stringify
    ("<conversation-summary>\n" ++ escapeClosingTags summary ++ "\n</conversation-summary>")]⟩

def summaryAnswer (stringify : String → String) : Message := ⟨.assistant, .parts [textPart stringify summaryAck]⟩

/-- A turn of the user with the summary, and a short answer to it. -/
def compactionSummaryMessages (stringify : String → String) (summary : String) : List Message :=
  [summaryTurn stringify summary, summaryAnswer stringify]

variable (estimateTokens : Message → Nat)

/-- The walk goes from the newest group to the oldest until enough is kept. It answers where the kept tail starts. -/
def walkGroups (keepTarget : ℚ) : List (List Message) → Nat → Nat → Nat
  | [], _, cut => cut
  | group :: older, kept, cut =>
      let kept := kept + sizeOf estimateTokens group
      let cut := cut - group.length
      if keepTarget ≤ kept then cut else walkGroups keepTarget older kept cut

/-- A tail does not open on a tool message. -/
def skipTools (messages : List Message) (cut : Nat) : Nat :=
  cut + ((messages.drop cut).takeWhile fun message => message.role = .tool).length

/-- The product of two doubles is the host's. -/
def planMidTurnFold (product : ℚ → ℚ → ℚ) (messages : List Message) (budget : ℚ) : Option Nat :=
  if sizeOf estimateTokens messages ≤ midTurnTriggerRatio * budget then none
  else
    let keepTarget := product keepRatio budget
    let cut := skipTools messages
      (walkGroups estimateTokens keepTarget (groupMessages messages).reverse 0 messages.length)
    if cut < minSummarizedMessages then none else some cut

/-- The answer to the summary stands only before a message of the user. -/
def foldedHistory (stringify : String → String) (summary : String) (tail : List Message) : List Message :=
  let seed := compactionSummaryMessages stringify summary
  let head := if tail.head?.any fun message => message.role = .user then seed else seed.take 1
  head ++ tail

/-- A turn that has stopped asking is not folded again. A summary may fail. -/
def rewriteHistory (stringify : String → String) (product : ℚ → ℚ → ℚ) (budget : ℚ)
    (summarize : List Message → Option String) (stopped : Bool) (messages : List Message) :
    Option (List Message) × Bool :=
  if stopped then (none, true)
  else match planMidTurnFold estimateTokens product messages budget with
    | none => (none, false)
    | some cut =>
        match summarize (messages.take cut) with
        | none => (none, true)
        | some summary =>
            let folded := foldedHistory stringify summary (messages.drop cut)
            (some folded, decide (midTurnTriggerRatio * budget < sizeOf estimateTokens folded))

end Code

/-- Every tool message belongs to the group of the assistant message that holds its calls. -/
def Grouped (messages : List Message) : Prop :=
  ∀ group ∈ groupMessages messages, ∀ message ∈ group, message.role = .tool →
    ∃ assistant run, group = assistant :: run ∧ assistant.role = .assistant ∧ message ∈ run ∧
      message.resultIds ⊆ assistant.callIds

/-- Two messages of the user, or one of the user and one of a tool. -/
def Clash (first second : Message) : Prop :=
  first.role = .user ∧ (second.role = .user ∨ second.role = .tool) ∨ first.role = .tool ∧ second.role = .user

/-- What a fold at a cut leaves. -/
structure Folded (messages : List Message) (cut : Nat) (folded : List Message) : Prop where
  boundary : ∃ older newer, groupMessages messages = older ++ newer ∧ newer ≠ [] ∧
    older.flatten = messages.take cut ∧ newer.flatten = messages.drop cut
  enough : minSummarizedMessages ≤ (messages.take cut).length
  opens : ∃ message, folded.head? = some message ∧ message.role = .user
  keeps : messages.drop cut <:+ folded
  answered : ∀ before message after, folded = before ++ message :: after → message.isToolCall = true →
    ∃ earlier, messages = earlier ++ message :: after
  paired : Paired folded
  apart : ∀ before first second after, folded = before ++ first :: second :: after → Clash first second →
    ∃ earlier, messages = earlier ++ first :: second :: after

section Cut

variable (estimateTokens : Message → Nat)

/-- The walk ends at the start of a group, past one group at least. -/
theorem walkGroups_spec (keepTarget : ℚ) (groups : List (List Message)) (kept : Nat) :
    ∃ newer older, groups = newer ++ older ∧ (groups ≠ [] → newer ≠ []) ∧
      walkGroups estimateTokens keepTarget groups kept groups.flatten.length = older.flatten.length := by
  induction groups generalizing kept with
  | nil => exact ⟨[], [], rfl, id, rfl⟩
  | cons group groups ih =>
      have rest : (group :: groups).flatten.length - group.length = groups.flatten.length := by simp
      rw [walkGroups, rest]
      split
      · exact ⟨[group], groups, rfl, fun _ => List.cons_ne_nil _ _, rfl⟩
      · obtain ⟨newer, older, parts, -, ends⟩ := ih (kept + sizeOf estimateTokens group)
        exact ⟨group :: newer, older, congrArg (group :: ·) parts, fun _ => List.cons_ne_nil _ _, ends⟩

variable {messages : List Message}

theorem groupMessages_mem {group : List Message} (member : group ∈ groupMessages messages) :
    ∃ head run, group = head :: run ∧ ∀ message ∈ run, message.isToolResult = true := by
  fun_induction groupMessages messages with
  | case1 => cases member
  | case2 message rest opens ih =>
      rcases List.mem_cons.mp member with rfl | later
      · exact ⟨message, _, rfl, fun _ => List.mem_takeWhile_imp⟩
      · exact ih later
  | case3 message rest alone ih =>
      rcases List.mem_cons.mp member with rfl | later
      · exact ⟨message, [], rfl, List.forall_mem_nil _⟩
      · exact ih later

/-- A group of a well-grouped history is one message, or an assistant message with its results. -/
theorem Grouped.group {group : List Message} (grouped : Grouped messages) (member : group ∈ groupMessages messages) :
    Paired group ∧ ∃ head run, group = head :: run ∧ head.role ≠ .tool := by
  obtain ⟨head, run, rfl, results⟩ := groupMessages_mem member
  have notTool : head.role ≠ .tool := by
    intro tool
    obtain ⟨assistant, others, same, role, -⟩ := grouped _ member head List.mem_cons_self tool
    rw [(List.cons.inj same).1, role] at tool
    cases tool
  refine ⟨?_, head, run, rfl, notTool⟩
  cases run with
  | nil => exact PairedThrough.single (by simp [Message.isToolResult, notTool])
  | cons first run =>
      have holds : ∀ tool ∈ first :: run, head.role = .assistant ∧ tool.resultIds ⊆ head.callIds := by
        intro tool listed
        have role : tool.role = .tool := of_decide_eq_true (Bool.and_eq_true_iff.mp (results tool listed)).1
        obtain ⟨assistant, others, same, isAssistant, -, ids⟩ :=
          grouped _ member tool (List.mem_cons_of_mem _ listed) role
        obtain ⟨rfl, -⟩ := List.cons.inj same
        exact ⟨isAssistant, ids⟩
      exact PairedThrough.group (holds first List.mem_cons_self).1 (fun tool listed => (holds tool listed).2) results

theorem Grouped.flatten (grouped : Grouped messages) {groups : List (List Message)}
    (listed : ∀ group ∈ groups, group ∈ groupMessages messages) : Paired groups.flatten := by
  induction groups with
  | nil =>
      intro before message after split
      cases before <;> cases split
  | cons group groups ih =>
      exact (grouped.group (listed group List.mem_cons_self)).1.append
        (ih fun other member => listed other (List.mem_cons_of_mem _ member))

/-- A planned cut stands between two groups of a history that is over its budget. -/
theorem planMidTurnFold_spec {product : ℚ → ℚ → ℚ} {budget : ℚ} {cut : Nat} (grouped : Grouped messages)
    (planned : planMidTurnFold estimateTokens product messages budget = some cut) :
    budget < sizeOf estimateTokens messages ∧ minSummarizedMessages ≤ cut ∧
      ∃ older newer, groupMessages messages = older ++ newer ∧ newer ≠ [] ∧
        older.flatten = messages.take cut ∧ newer.flatten = messages.drop cut ∧ cut = older.flatten.length := by
  unfold planMidTurnFold at planned
  split at planned
  · cases planned
  next above =>
  rw [midTurnTriggerRatio, one_mul, not_le] at above
  dsimp only at planned
  split at planned
  · cases planned
  next enough =>
  have flat := groupMessages_flatten messages
  have length : (groupMessages messages).reverse.flatten.length = messages.length := by
    rw [(List.reverse_perm (groupMessages messages)).flatten.length_eq, flat]
  obtain ⟨newest, oldest, parts, some, ends⟩ :=
    walkGroups_spec estimateTokens (product keepRatio budget) (groupMessages messages).reverse 0
  rw [length] at ends
  have groups : groupMessages messages = oldest.reverse ++ newest.reverse := by
    rw [← List.reverse_append, ← parts, List.reverse_reverse]
  have parted : messages = oldest.reverse.flatten ++ newest.reverse.flatten := by
    rw [← List.flatten_append, ← groups, flat]
  rw [← (List.reverse_perm oldest).flatten.length_eq] at ends
  rw [ends] at enough planned
  have nonempty : newest.reverse ≠ [] := by
    intro none
    have all : (groupMessages messages).reverse = [] := by
      by_contra more
      exact some more (List.reverse_eq_nil_iff.mp none)
    have empty : messages = [] := by rw [← flat, List.reverse_eq_nil_iff.mp all, List.flatten_nil]
    rw [all] at parts
    rw [empty, (List.append_eq_nil_iff.mp parts.symm).2] at enough
    exact enough (by decide)
  have stays : skipTools messages oldest.reverse.flatten.length = oldest.reverse.flatten.length := by
    have tail : messages.drop oldest.reverse.flatten.length = newest.reverse.flatten := by
      conv_lhs => rw [parted]
      exact List.drop_left
    rw [skipTools, tail]
    obtain ⟨group, later, first⟩ := List.exists_cons_of_ne_nil nonempty
    have member : group ∈ groupMessages messages := by
      rw [groups, first]
      exact List.mem_append_right _ List.mem_cons_self
    obtain ⟨-, head, run, rfl, notTool⟩ := grouped.group member
    rw [first, List.flatten_cons, List.cons_append, List.takeWhile_cons_of_neg (by simpa using notTool)]
    rfl
  rw [stays] at enough planned
  obtain rfl := Option.some.inj planned
  refine ⟨above, not_lt.mp enough, oldest.reverse, newest.reverse, groups, nonempty, ?_, ?_, rfl⟩
  · conv_rhs => rw [parted]
    exact List.take_left.symm
  · conv_rhs => rw [parted]
    exact List.drop_left.symm

end Cut

variable (stringify : String → String) (summary : String) {tail : List Message}

/-- The summary stands alone before the tail, or with its answer before a message of the user. -/
theorem foldedHistory_cases (tail : List Message) :
    (foldedHistory stringify summary tail = summaryTurn stringify summary :: tail ∧
        ∀ first ∈ tail.head?, first.role ≠ .user) ∨
      foldedHistory stringify summary tail = summaryTurn stringify summary :: summaryAnswer stringify :: tail := by
  unfold foldedHistory
  cases opens : tail.head?.any fun message => message.role = .user with
  | true => exact .inr rfl
  | false =>
      refine .inl ⟨rfl, fun first listed same => ?_⟩
      have some : tail.head?.any (fun message => decide (message.role = .user)) = true :=
        Option.any_eq_true .. |>.mpr ⟨first, listed, decide_eq_true same⟩
      exact Bool.false_ne_true (opens.symm.trans some)

variable {after before list : List Message} {front : Message}

/-- A message put before a list clashes with nothing in it, unless with its first message. -/
theorem clash_cons {first second : Message} (split : front :: list = before ++ first :: second :: after)
    (apart : ∀ next ∈ list.head?, ¬ Clash front next) (clash : Clash first second) :
    ∃ earlier, list = earlier ++ first :: second :: after := by
  cases before with
  | nil =>
      obtain ⟨rfl, rfl⟩ := List.cons.inj split
      exact absurd clash (apart second rfl)
  | cons _ before => exact ⟨before, (List.cons.inj split).2⟩

theorem call_cons {message : Message} (split : front :: list = before ++ message :: after)
    (plain : front.isToolCall = false) (isCall : message.isToolCall = true) :
    ∃ earlier, list = earlier ++ message :: after := by
  cases before with
  | nil =>
      obtain ⟨rfl, -⟩ := List.cons.inj split
      exact absurd (plain.symm.trans isCall) Bool.false_ne_true
  | cons _ before => exact ⟨before, (List.cons.inj split).2⟩

theorem paired_cons (notTool : front.role ≠ .tool) (paired : Paired list) :
    Paired (front :: list) :=
  (PairedThrough.single (by simp [Message.isToolResult, notTool])).append paired

variable (estimateTokens : Message → Nat)

/-- A fold inside a turn leaves a prompt that is in order, for any estimate of sizes and any summary. -/
theorem fold_keeps_prompt (product : ℚ → ℚ → ℚ) (messages : List Message) (budget : ℚ) (cut : Nat)
    (grouped : Grouped messages) (planned : planMidTurnFold estimateTokens product messages budget = some cut) :
    budget < sizeOf estimateTokens messages ∧
      Folded messages cut (foldedHistory stringify summary (messages.drop cut)) := by
  obtain ⟨above, enough, older, newer, groups, nonempty, front, back, place⟩ :=
    planMidTurnFold_spec estimateTokens grouped planned
  refine ⟨above, ?_⟩
  have listed : ∀ group ∈ newer, group ∈ groupMessages messages := fun group member => by
    rw [groups]
    exact List.mem_append_right _ member
  have paired : Paired (messages.drop cut) := back ▸ grouped.flatten listed
  have notTool : ∀ first ∈ (messages.drop cut).head?, first.role ≠ .tool := by
    intro first opens
    obtain ⟨group, later, rfl⟩ := List.exists_cons_of_ne_nil nonempty
    obtain ⟨-, head, run, rfl, notTool⟩ := grouped.group (listed group List.mem_cons_self)
    rw [← back] at opens
    obtain rfl := Option.some.inj opens
    exact notTool
  have whole : messages = messages.take cut ++ messages.drop cut := (List.take_append_drop cut messages).symm
  have kept : ∀ {first : Message} {before rest : List Message}, messages.drop cut = before ++ first :: rest →
      ∃ earlier, messages = earlier ++ first :: rest := fun {first before rest} split =>
    ⟨messages.take cut ++ before, by rw [List.append_assoc, ← split, ← whole]⟩
  obtain ⟨folds, other⟩ | folds := foldedHistory_cases stringify summary (messages.drop cut)
  · rw [folds]
    exact {
      boundary := ⟨older, newer, groups, nonempty, front, back⟩
      enough := by rwa [← front, ← place]
      opens := ⟨_, rfl, rfl⟩
      keeps := List.suffix_cons ..
      answered := fun before message after split isCall =>
        (call_cons split rfl isCall).elim fun _ => kept
      paired := paired_cons nofun paired
      apart := fun before first second after split clash => by
        have apart : ∀ next ∈ (messages.drop cut).head?, ¬ Clash (summaryTurn stringify summary) next := by
          rintro next opens (⟨-, role | role⟩ | ⟨role, -⟩)
          · exact other next opens role
          · exact notTool next opens role
          · cases role
        exact (clash_cons split apart clash).elim fun _ => kept }
  · rw [folds]
    exact {
      boundary := ⟨older, newer, groups, nonempty, front, back⟩
      enough := by rwa [← front, ← place]
      opens := ⟨_, rfl, rfl⟩
      keeps := (List.suffix_cons ..).trans (List.suffix_cons ..)
      answered := fun before message after split isCall => by
        obtain ⟨_, rest⟩ := call_cons split rfl isCall
        exact (call_cons rest rfl isCall).elim fun _ => kept
      paired := paired_cons nofun (paired_cons nofun paired)
      apart := fun before first second after split clash => by
        have seed : ∀ next ∈ (summaryAnswer stringify :: messages.drop cut).head?,
            ¬ Clash (summaryTurn stringify summary) next := by
          rintro next opens (⟨-, role | role⟩ | ⟨role, -⟩)
          · cases (Option.some.inj opens ▸ role : (summaryAnswer stringify).role = .user)
          · cases (Option.some.inj opens ▸ role : (summaryAnswer stringify).role = .tool)
          · cases role
        have apart : ∀ next ∈ (messages.drop cut).head?, ¬ Clash (summaryAnswer stringify) next := by
          rintro next - (⟨role, -⟩ | ⟨role, -⟩) <;> cases role
        obtain ⟨_, rest⟩ := clash_cons split seed clash
        exact (clash_cons rest apart clash).elim fun _ => kept }

/-- Two questions, each with a call and its result. -/
def longTurn : List Message := [asked, called, answer, asked, called, answer]

theorem longTurn_groups : groupMessages longTurn = [[asked], [called, answer], [asked], [called, answer]] := by
  simp [groupMessages, longTurn, asked, called, answer, Message.isToolCall, Message.isToolResult, hasToolUse,
    hasToolResult, Content.partList, Part.callId?, Part.resultId?]

theorem fold_keeps_prompt_long : planMidTurnFold (fun _ => 1) (· * ·) longTurn 5 = some 4 ∧
    Folded longTurn 4 (foldedHistory id "Asked twice." [called, answer]) := by
  have planned : planMidTurnFold (fun _ => 1) (· * ·) longTurn 5 = some 4 := by
    rw [planMidTurnFold, longTurn_groups]
    norm_num [walkGroups, skipTools, keepRatio, minSummarizedMessages, midTurnTriggerRatio, sizeOf, longTurn, called]
    decide
  have grouped : Grouped longTurn := by
    intro group member message inside tool
    rw [longTurn_groups] at member
    have calls : group = [called, answer] := by
      simp only [List.mem_cons, List.not_mem_nil, or_false] at member
      rcases member with rfl | rfl | rfl | rfl
      · rw [List.mem_singleton.mp inside] at tool
        cases tool
      · rfl
      · rw [List.mem_singleton.mp inside] at tool
        cases tool
      · rfl
    subst calls
    rcases List.mem_cons.mp inside with rfl | run
    · cases tool
    · exact ⟨called, [answer], rfl, rfl, run, by rw [List.mem_singleton.mp run]; decide⟩
  exact ⟨planned, (fold_keeps_prompt id "Asked twice." (fun _ => 1) (· * ·) longTurn 5 4 grouped planned).2⟩

/-- The hook of a turn answers with nothing but the fold at a planned cut. -/
theorem rewriteHistory_folds {product : ℚ → ℚ → ℚ} {budget : ℚ} {summarize : List Message → Option String}
    {stopped : Bool} {messages folded : List Message}
    (rewritten : (rewriteHistory estimateTokens stringify product budget summarize stopped messages).1 = some folded) :
    ∃ cut summary, planMidTurnFold estimateTokens product messages budget = some cut ∧
      summarize (messages.take cut) = some summary ∧
        folded = foldedHistory stringify summary (messages.drop cut) := by
  unfold rewriteHistory at rewritten
  split at rewritten
  · cases rewritten
  · split at rewritten
    · cases rewritten
    · next cut planned =>
        split at rewritten
        · cases rewritten
        · next summary summarized => exact ⟨cut, summary, planned, summarized, (Option.some.inj rewritten).symm⟩

end NimbleBrain.Conversation.Window
