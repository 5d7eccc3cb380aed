import Mathlib.Data.String.Basic
import NimbleBrain.Conversation.Compaction
import NimbleBrain.Conversation.RunSpan

/- A folded history against the history that is rebuilt from the log of the fold. -/

namespace NimbleBrain.Conversation

open Library

variable {host : Host} {events : List ConversationEvent}

/-- The events that a replay for the model reads. -/
def replayedEvents (events : List ConversationEvent) : List ConversationEvent :=
  match lastCompaction events with
  | some compaction =>
      events.filter fun event => event.compaction?.isNone ∧ compaction.compactedThroughTs ≤ event.ts
  | none => withoutCompactions events

/-- The seed of the last compaction, if there is one. -/
def replaySeed (events : List ConversationEvent) : List StoredMessage :=
  match lastCompaction events with
  | some compaction =>
      compactionSummaryMessages compaction.summary compaction.compactedThroughTs
        (selectRetainedOperatorMessages (extractOperatorTurns events) compaction.compactedThroughTs)
  | none => []

theorem reconstructMessages_eq (host : Host) (events : List ConversationEvent) :
    reconstructMessages host events false =
      separate (alternationMarker host) none
        (replaySeed events ++ buildMessagesFromEvents host (replayedEvents events)) := by
  unfold reconstructMessages replaySeed replayedEvents
  rw [if_neg Bool.false_ne_true]
  cases lastCompaction events <;> exact ensureRoleAlternation_eq ..

/-- An assistant message before a history adds no marker. -/
theorem separate_after_assistant {before : StoredMessage} (role : before.role = .assistant)
    (messages : List StoredMessage) :
    separate (alternationMarker host) (some before) messages = separate (alternationMarker host) none messages := by
  cases messages with
  | nil => rfl
  | cons message rest =>
      have unmarked : alternationMarker host before message = none := by
        simp [alternationMarker, markerBetween, role]
      rw [separate, separate, unmarked]
      rfl

theorem separate_seed (summary : String) (ts : Timestamp) (retained : RetainedOperatorSelection)
    (messages : List StoredMessage) :
    separate (alternationMarker host) none (compactionSummaryMessages summary ts retained ++ messages) =
      compactionSummaryMessages summary ts retained ++ separate (alternationMarker host) none messages := by
  rw [separate_append]
  have seed : separate (alternationMarker host) none (compactionSummaryMessages summary ts retained) =
      compactionSummaryMessages summary ts retained := by
    simp [compactionSummaryMessages, separate, alternationMarker, markerBetween, StoredMessage.role]
  rw [seed]
  exact congrArg _ (separate_after_assistant rfl messages)

/-- The events from one event on, in a log whose times increase. -/
theorem filter_from {before after : List ConversationEvent} {event : ConversationEvent}
    (increasing : (before ++ event :: after).Pairwise fun first second => first.ts < second.ts) :
    ((before ++ event :: after).filter fun other => event.ts ≤ other.ts) = event :: after := by
  obtain ⟨-, later, earlier⟩ := List.pairwise_append.mp increasing
  rw [List.filter_append, List.filter_cons_of_pos (by simp)]
  have gone : (before.filter fun other => decide (event.ts ≤ other.ts)) = [] := by
    rw [List.filter_eq_nil_iff]
    intro other member
    simpa using earlier other member event (List.mem_cons_self ..)
  have kept : (after.filter fun other => decide (event.ts ≤ other.ts)) = after := by
    rw [List.filter_eq_self]
    intro other member
    simpa using ((List.pairwise_cons.mp later).1 other member).le
  rw [gone, kept, List.nil_append]

/-- A later boundary cuts the replayed events as it cuts the log. -/
theorem filter_replayedEvents {event : ConversationEvent} (member : event ∈ replayedEvents events) :
    (events.filter fun other => other.compaction?.isNone ∧ event.ts ≤ other.ts) =
      (replayedEvents events).filter fun other => event.ts ≤ other.ts := by
  unfold replayedEvents at member ⊢
  split
  · rename_i compaction found
    rw [found] at member
    have after := (of_decide_eq_true (List.mem_filter.mp member).2).2
    rw [List.filter_filter]
    refine List.filter_congr fun other _ => ?_
    by_cases later : event.ts ≤ other.ts
    · simp [later, after.trans later]
    · simp [later]
  · rw [withoutCompactions, List.filter_filter]
    refine List.filter_congr fun other _ => ?_
    cases other.compaction? <;> simp

theorem replayedEvents_pairwise (increasing : events.Pairwise fun first second => first.ts < second.ts) :
    (replayedEvents events).Pairwise fun first second => first.ts < second.ts := by
  unfold replayedEvents
  split
  · exact increasing.sublist List.filter_sublist
  · exact increasing.sublist List.filter_sublist

/-- The history that is rebuilt once the fold is in the log. -/
theorem reconstructMessages_folded (host : Host) (events : List ConversationEvent) (fold : HistoryCompactedEvent) :
    reconstructMessages host (events ++ [.historyCompacted fold]) false =
      compactionSummaryMessages fold.summary fold.compactedThroughTs
          (selectRetainedOperatorMessages (extractOperatorTurns events) fold.compactedThroughTs) ++
        separate (alternationMarker host) none (buildMessagesFromEvents host
          (events.filter fun event => event.compaction?.isNone ∧ fold.compactedThroughTs ≤ event.ts)) := by
  have last : lastCompaction (events ++ [.historyCompacted fold]) = some fold := by
    simp [lastCompaction, ConversationEvent.compaction?]
  have turns : extractOperatorTurns (events ++ [.historyCompacted fold]) = extractOperatorTurns events := by
    simp [extractOperatorTurns]
  rw [reconstructMessages_eq, replaySeed, replayedEvents, last]
  dsimp only
  rw [separate_seed, turns, List.filter_append]
  simp [ConversationEvent.compaction?]

/-- The message that the fold keeps first is a turn of the operator, not an overlay or an earlier seed. -/
def foldsAtTurn (events : List ConversationEvent) (messages : List StoredMessage) (boundaryIndex : Nat) : Bool :=
  (messages[boundaryIndex]?.any fun message => decide (message.role = .user) && !message.isOverlay) &&
    (decide (0 < boundaryIndex) || (lastCompaction events).isNone)

variable {index : Nat}

/-- The message at the cut was there before the markers were added. -/
theorem cut_origin {items messages : List StoredMessage} {message : StoredMessage}
    (same : messages = separate (alternationMarker host) none items) (found : messages[index]? = some message)
    (turn : index = 0 ∨ message.role = .user) :
    ∃ earlier later, items = earlier ++ message :: later ∧
      messages.drop index = message :: separate (alternationMarker host) (some message) later ∧
      earlier.length ≤ index ∧ (earlier = [] → index = 0) := by
  have inside := List.getElem?_eq_some_iff.mp found
  obtain ⟨short, at'⟩ := inside
  have dropped : messages.drop index = message :: messages.drop (index + 1) := by
    rw [List.drop_eq_getElem_cons short, at']
  have whole : messages.take index ++ message :: messages.drop (index + 1) = messages := by
    rw [← dropped, List.take_append_drop]
  rcases turn with rfl | user
  · cases items with
    | nil => simp [same, separate] at short
    | cons item rest =>
        rw [List.take_zero, List.nil_append, same, separate] at whole
        obtain ⟨rfl, later⟩ := List.cons.inj whole
        refine ⟨[], rest, rfl, ?_, Nat.le_refl _, fun _ => rfl⟩
        rw [dropped, ← later, same, separate]
  · have own : ∀ first second, alternationMarker host first second ≠ some message := by
      intro first second marker
      obtain ⟨text, -, rfl⟩ := Option.map_eq_some_iff.mp marker
      cases user
    obtain ⟨earlier, later, split, follows, most, empty⟩ :=
      separate_split own none (same.symm.trans whole.symm)
    refine ⟨earlier, later, split, by rw [dropped, follows], most.trans ?_, fun none => ?_⟩
    · exact List.length_take_le _ _
    · have start := congrArg List.length (empty rfl none)
      rw [List.length_take, List.length_nil] at start
      omega

/-- A reload that keeps fewer messages keeps other ones. -/
theorem bodies_ne_of_length {seed kept reloaded : List StoredMessage} (shorter : reloaded.length < kept.length) :
    ¬ (seed ++ kept).map StoredMessage.body = (seed ++ reloaded).map StoredMessage.body := by
  intro same
  have lengths := congrArg List.length same
  simp only [List.length_map, List.length_append] at lengths
  omega

variable {earlier later : List StoredMessage} {message : StoredMessage}

/-- Where the cut stands: at the seed, at a turn of the operator, or within a run. -/
inductive CutAt (host : Host) (events : List ConversationEvent) (message : StoredMessage)
    (earlier later : List StoredMessage) : Prop where
  | seed (compaction : HistoryCompactedEvent) (found : lastCompaction events = some compaction)
      (first : earlier = []) (ts : message.timestamp = compaction.compactedThroughTs)
  | turn (first rest : List ConversationEvent) (event : UserMessageEvent)
      (split : replayedEvents events = first ++ .userMessage event :: rest) (same : message = buildUserMessage event)
      (follows : later = buildMessagesFromEvents host rest)
      (past : lastCompaction events = none ∨ earlier ≠ [])
  | run (first rest : List ConversationEvent) (start : RunStartEvent) (more : List StoredMessage)
      (split : replayedEvents events = first ++ .runStart start :: rest)
      (member : message ∈ runMessages host (collectRunEvents start.runId rest {}))
      (follows : later = more ++ buildMessagesFromEvents host (collectRunEvents start.runId rest {}).rest)

theorem cutAt_of_split
    (split : replaySeed events ++ buildMessagesFromEvents host (replayedEvents events) = earlier ++ message :: later)
    (turn : index = 0 ∨ message.role = .user) (most : earlier.length ≤ index) :
    CutAt host events message earlier later := by
  rcases split_append split with ⟨last, seed, -⟩ | ⟨inner, whole, messages⟩
  · unfold replaySeed at seed
    split at seed
    · rename_i compaction found
      cases earlier with
      | nil =>
          obtain ⟨rfl, -⟩ := List.cons.inj seed
          exact .seed compaction found rfl rfl
      | cons first rest =>
          exfalso
          obtain ⟨-, seed⟩ := List.cons.inj seed
          cases rest with
          | nil =>
              obtain ⟨rfl, -⟩ := List.cons.inj seed
              rcases turn with rfl | user
              · exact absurd most (by simp)
              · cases user
          | cons second more => simp at seed
    · simp at seed
  · rcases buildMessagesFromEvents_origin messages with ⟨first, event, rest, found, same, follows⟩ |
      ⟨first, start, rest, more, found, member, follows⟩
    · refine .turn first rest event found same follows ?_
      unfold replaySeed at whole
      split at whole
      · exact .inr (by simp [whole, compactionSummaryMessages])
      · rename_i none
        exact .inl none
    · exact .run first rest start more found member follows

variable {messages : List StoredMessage} {index : Nat}

/-- The history that a boundary leaves. -/
abbrev reloadFrom (host : Host) (events : List ConversationEvent) (boundary : Timestamp) : List StoredMessage :=
  separate (alternationMarker host) none (buildMessagesFromEvents host
    (events.filter fun event => event.compaction?.isNone ∧ boundary ≤ event.ts))

variable {first rest : List ConversationEvent}

/-- A cut at a turn of the operator is the cut of the log. -/
theorem reload_turn {event : UserMessageEvent}
    (increasing : events.Pairwise fun first second => first.ts < second.ts)
    (split : replayedEvents events = first ++ .userMessage event :: rest) :
    reloadFrom host events (buildUserMessage event).timestamp =
      buildUserMessage event ::
        separate (alternationMarker host) (some (buildUserMessage event)) (buildMessagesFromEvents host rest) := by
  have member : .userMessage event ∈ replayedEvents events := by simp [split]
  have kept := filter_replayedEvents member
  have increasing := replayedEvents_pairwise increasing
  rw [split] at increasing kept
  rw [filter_from increasing] at kept
  change (events.filter fun other => other.compaction?.isNone ∧ event.ts ≤ other.ts) = _ at kept
  change separate _ none (buildMessagesFromEvents host
    (events.filter fun other => other.compaction?.isNone ∧ event.ts ≤ other.ts)) = _
  rw [kept, buildMessagesFromEvents, separate]

/-- A cut within a run leaves only what follows the run. -/
theorem reload_run {start : RunStartEvent} (increasing : events.Pairwise fun first second => first.ts < second.ts)
    (split : replayedEvents events = first ++ .runStart start :: rest)
    (member : message ∈ runMessages host (collectRunEvents start.runId rest {})) :
    reloadFrom host events message.timestamp =
      separate (alternationMarker host) none
        (buildMessagesFromEvents host (collectRunEvents start.runId rest {}).rest) := by
  obtain ⟨event, own, time⟩ := List.mem_map.mp (runMessages_ofRun _ _ message member).time
  obtain ⟨before, after, span⟩ := List.append_of_mem own
  have whole := runSpan_append_rest start.runId rest {}
  generalize (collectRunEvents start.runId rest {}).rest = remaining at whole ⊢
  have split : replayedEvents events =
      (first ++ .runStart start :: before) ++ event :: (after ++ remaining) := by
    rw [split, ← whole, span]
    simp
  have kept := @filter_replayedEvents events event (by simp [split])
  have increasing := replayedEvents_pairwise increasing
  rw [split] at increasing kept
  rw [filter_from increasing] at kept
  have inner := runSpan_inner start.runId rest
  rw [span] at inner
  rw [reloadFrom, ← time, kept, ← List.cons_append, buildMessagesFromEvents_skip]
  exact fun other member => inner other (List.mem_append_right _ member)

theorem foldsAtTurn_eq (found : messages[index]? = some message) :
    foldsAtTurn events messages index =
      ((decide (message.role = .user) && !message.isOverlay) &&
        (decide (0 < index) || (lastCompaction events).isNone)) := by
  rw [foldsAtTurn, found, Option.any_some]

/-- The fold keeps what a reload keeps exactly when it cuts at a turn of the operator. -/
theorem reload_agrees_iff (increasing : events.Pairwise fun first second => first.ts < second.ts)
    (same : messages = reconstructMessages host events false) (found : messages[index]? = some message)
    (turn : index = 0 ∨ message.role = .user) (seed : List StoredMessage) :
    (seed ++ messages.drop index).map StoredMessage.body =
        (seed ++ reloadFrom host events message.timestamp).map StoredMessage.body ↔
      foldsAtTurn events messages index = true := by
  have rebuilt := same.trans (reconstructMessages_eq host events)
  obtain ⟨earlier, later, split, dropped, most, empty⟩ := cut_origin rebuilt found turn
  rw [foldsAtTurn_eq found]
  cases cutAt_of_split split turn most with
  | seed compaction compacted first ts =>
      have zero := empty first
      refine ⟨fun agrees => ?_, fun folds => by simp [zero, compacted] at folds⟩
      refine absurd agrees (bodies_ne_of_length ?_)
      have reloaded : (events.filter fun event => event.compaction?.isNone ∧ message.timestamp ≤ event.ts) =
          replayedEvents events := by rw [replayedEvents, compacted, ts]
      rw [reloadFrom, reloaded, zero, List.drop_zero, rebuilt, replaySeed, compacted]
      dsimp only
      rw [separate_seed, List.length_append]
      exact Nat.lt_add_of_pos_left (by simp [compactionSummaryMessages])
  | turn first rest event log own follows past =>
      subst own follows
      rw [reload_turn increasing log, dropped]
      refine ⟨fun _ => ?_, fun _ => rfl⟩
      have positive : 0 < index ∨ lastCompaction events = none := by
        rcases past with none | some
        · exact .inr none
        · exact .inl ((List.length_pos_iff.mpr some).trans_le most)
      rcases positive with positive | none
      · simp [buildUserMessage, StoredMessage.role, StoredMessage.isOverlay, positive]
      · simp [buildUserMessage, StoredMessage.role, StoredMessage.isOverlay, none]
  | run first rest start more log member follows =>
      have overlay := (runMessages_ofRun _ _ message member).overlay
      refine ⟨fun agrees => ?_, fun folds => ?_⟩
      · refine absurd agrees (bodies_ne_of_length ?_)
        rw [reload_run increasing log member, dropped, follows, List.length_cons, separate_append,
          List.length_append]
        have most := @length_separate_none_le _ (alternationMarker host)
          (more.getLast?.or (some message))
          (buildMessagesFromEvents host (collectRunEvents start.runId rest {}).rest)
        omega
      · by_cases user : message.role = .user <;> simp_all

/-- A folded history is the history that is rebuilt after the fold, exactly when the fold cuts at a turn of the
operator. -/
theorem compaction_agrees_with_reload (host : Host) (stringify : Body → String)
    (summarize : List StoredMessage → Option String) (events : List ConversationEvent) (opts : CompactionOptions)
    (now : Timestamp) (increasing : events.Pairwise fun first second => first.ts < second.ts)
    (turns : opts.retainedOperatorTurns = extractOperatorTurns events) (plan : CompactionPlan)
    (planned : planCompaction stringify (reconstructMessages host events false) opts = some plan)
    (fold : HistoryCompactedEvent)
    (folded : (compactConversationMessages stringify summarize (reconstructMessages host events false) opts now).event =
      some fold) :
    (compactConversationMessages stringify summarize (reconstructMessages host events false) opts now).messages.map
        StoredMessage.body =
      (reconstructMessages host (events ++ [.historyCompacted fold]) false).map StoredMessage.body ↔
    foldsAtTurn events (reconstructMessages host events false) plan.boundaryIndex = true := by
  obtain ⟨message, found, ts, turn⟩ := planCompaction_spec stringify planned
  unfold compactConversationMessages at folded ⊢
  rw [planned] at folded ⊢
  dsimp only at folded ⊢
  split at folded
  · cases folded
  · rename_i summary summarized
    cases Option.some.inj folded
    rw [reconstructMessages_folded]
    dsimp only
    rw [turns, ts]
    exact reload_agrees_iff increasing rfl found turn _

/-- An answer of text. -/
def answerWith (ts runId text : String) : LlmResponseEvent where
  ts := ts
  runId := runId
  model := "m"
  content := [.text text {}]
  usage := noUsage
  llmMs := 1
  finishReason := .stop

/-- The user asks, and a run answers. -/
def turnEvents (ts runId text : String) : List ConversationEvent :=
  [.userMessage { ts := ts ++ "a", content := [.text text] }, .runStart { ts := ts ++ "b", runId := runId },
    .llmResponse (answerWith (ts ++ "c") runId text),
    .runDone { ts := ts ++ "d", runId := runId, stopReason := "complete" }]

def threeTurns : List ConversationEvent :=
  turnEvents "a" "r" "Question one" ++ turnEvents "b" "s" "Question two" ++ turnEvents "c" "t" "Question three"

/-- Two turns, then a run that goes on after an overlay that no tool result carries. -/
def overlayLog : List ConversationEvent :=
  turnEvents "a" "r" "Question one" ++ turnEvents "b" "s" "Question two" ++
    [.userMessage { ts := "ca", content := [.text "Send it"] }, .runStart { ts := "cb", runId := "t" },
      .llmResponse (answerWith "cc" "t" "Sending now"),
      .connectorSkillInjected
        { ts := "cd", toolName := "mail__send", skillName := "mail", skillBody := "Be brief.", scope := "connector" },
      .llmResponse (answerWith "ce" "t" "It is sent"),
      .runDone { ts := "cf", runId := "t", stopReason := "complete" }]

/-- The JSON of a text without escapes. -/
def plainStringify : Body → String
  | .user [.text text] => "[\x7b\"type\":\"text\",\"text\":\"" ++ text ++ "\"\x7d]"
  | .assistant [.text text _] => "[\x7b\"type\":\"text\",\"text\":\"" ++ text ++ "\"\x7d]"
  | _ => "[]"

/-- A budget of ten tokens keeps the last message alone. -/
def tightBudget (events : List ConversationEvent) : CompactionOptions where
  budget := 10
  retainedOperatorTurns := extractOperatorTurns events

def shortSummary (_ : List StoredMessage) : Option String := some "Two questions"

def foldAt (ts : Timestamp) (count : Nat) : HistoryCompactedEvent := ⟨"d", "Two questions", ts, count⟩

theorem threeTurns_planned :
    planCompaction plainStringify (reconstructMessages plainHost threeTurns false) (tightBudget threeTurns) =
      some ⟨4, "ca"⟩ := by decide +kernel

theorem overlayLog_planned :
    planCompaction plainStringify (reconstructMessages plainHost overlayLog false) (tightBudget overlayLog) =
      some ⟨6, "cd"⟩ := by decide +kernel

theorem shortSummary_event {events : List ConversationEvent} {plan : CompactionPlan}
    (planned : planCompaction plainStringify (reconstructMessages plainHost events false) (tightBudget events) =
      some plan) :
    (compactConversationMessages plainStringify shortSummary (reconstructMessages plainHost events false)
      (tightBudget events) "d").event = some (foldAt plan.boundaryTs plan.boundaryIndex) := by
  rw [compactConversationMessages, planned]
  rfl

theorem compaction_agrees_threeTurns :
    (compactConversationMessages plainStringify shortSummary (reconstructMessages plainHost threeTurns false)
        (tightBudget threeTurns) "d").messages.map StoredMessage.body =
      (reconstructMessages plainHost (threeTurns ++ [.historyCompacted (foldAt "ca" 4)]) false).map
        StoredMessage.body ↔
    foldsAtTurn threeTurns (reconstructMessages plainHost threeTurns false) 4 = true :=
  compaction_agrees_with_reload plainHost plainStringify shortSummary threeTurns (tightBudget threeTurns) "d"
    (by decide +kernel) rfl ⟨4, "ca"⟩ threeTurns_planned (foldAt "ca" 4) (shortSummary_event threeTurns_planned)

/-- A fold that cuts at an overlay within a run keeps messages that a reload loses. -/
theorem overlay_cut_differs :
    ¬ ∀ (host : Host) (stringify : Body → String) (summarize : List StoredMessage → Option String)
      (events : List ConversationEvent) (opts : CompactionOptions) (now : Timestamp) (fold : HistoryCompactedEvent),
      events.Pairwise (fun first second => first.ts < second.ts) →
      opts.retainedOperatorTurns = extractOperatorTurns events →
      (compactConversationMessages stringify summarize (reconstructMessages host events false) opts now).event =
        some fold →
      (compactConversationMessages stringify summarize (reconstructMessages host events false) opts now).messages.map
          StoredMessage.body =
        (reconstructMessages host (events ++ [.historyCompacted fold]) false).map StoredMessage.body := by
  intro claim
  have agrees := claim plainHost plainStringify shortSummary overlayLog (tightBudget overlayLog) "d" (foldAt "cd" 6)
    (by decide +kernel) rfl (shortSummary_event overlayLog_planned)
  have lengths := congrArg List.length agrees
  rw [compactConversationMessages, overlayLog_planned] at lengths
  revert lengths
  decide +kernel

end NimbleBrain.Conversation
