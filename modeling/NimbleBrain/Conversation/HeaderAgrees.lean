import NimbleBrain.Conversation.DisplayReplay
import NimbleBrain.Conversation.TotalsAgree

/- The header scan counts a run that is answered anywhere in the log. The reader counts one that is answered in its span. -/

namespace NimbleBrain.Conversation

open Library

/-- A run is a turn where its start stands in the log. -/
theorem run_mem_turnsOf (start : RunStartEvent) (after events : List ConversationEvent) :
    Turn.run start after ∈ turnsOf events ↔ .runStart start :: after <:+ events := by
  induction events using turnsOf.induct with
  | case1 => simp [turnsOf]
  | case2 event rest ih => simp [turnsOf, ih, List.suffix_cons_iff]
  | case3 other rest ih =>
      rw [turnsOf, List.mem_cons, ih, List.suffix_cons_iff]
      have whole := runSpan_append_rest other.runId rest {}
      constructor
      · rintro (same | later)
        · obtain ⟨rfl, rfl⟩ := Turn.run.inj same
          exact .inl rfl
        · exact .inr (later.trans ⟨_, whole⟩)
      · rintro (same | ⟨before, later⟩)
        · obtain ⟨first, rfl⟩ := List.cons_eq_cons.mp same
          obtain rfl := ConversationEvent.runStart.inj first
          exact .inl rfl
        · refine .inr ?_
          rw [← whole] at later
          rcases List.append_eq_append_iff.mp later with ⟨more, span, tail⟩ | ⟨more, _, tail⟩
          · cases more with
            | nil => exact ⟨[], tail⟩
            | cons event more =>
                obtain ⟨rfl, _⟩ := List.cons_eq_cons.mp tail
                have inside : ConversationEvent.runStart start ∈ runSpan other.runId rest := by
                  rw [span]
                  simp
                exact absurd (runSpan_inner _ _ _ inside) (by simp [isImplicitRunEnd])
          · exact ⟨more, tail.symm⟩
  | case4 event rest noUser noStart ih =>
      rw [turnsOf, ih, List.suffix_cons_iff]
      · constructor
        · exact .inr
        · rintro (same | later)
          · exact absurd (List.cons_eq_cons.mp same).1.symm (noStart start)
          · exact later
      · exact noUser
      · exact noStart

variable {host : Host}

def ConversationEvent.answers (runId : String) : ConversationEvent → Bool
  | .llmResponse event => event.runId = runId
  | _ => false

/-- A response of the run is among the events. -/
def answered (runId : String) (events : List ConversationEvent) : Bool :=
  events.any (ConversationEvent.answers runId)

/-- The reader shows a run that is answered in its span. -/
def Turn.shown : Turn → Bool
  | .user _ => true
  | .run start after => answered start.runId (runSpan start.runId after)

/-- The header counts a run that is answered anywhere. -/
def Turn.counted (events : List ConversationEvent) : Turn → Bool
  | .user _ => true
  | .run start _ => answered start.runId events

theorem scanRunEvents_answered (runId : String) (events : List ConversationEvent) (scan : Display.RunScan) :
    (Display.scanRunEvents runId events scan).llmResponses = [] ↔
      scan.llmResponses = [] ∧ answered runId (runSpan runId events) = false := by
  induction events generalizing scan with
  | nil => simp [Display.scanRunEvents, runSpan, answered]
  | cons inner rest ih =>
      rw [Display.scanRunEvents, runSpan]
      cases inner with
      | runDone event | runError event =>
          by_cases own : event.runId = runId
          · simp [Display.classifyRunBoundary, isExplicitRunTerminator, own, answered, ConversationEvent.answers]
          · simpa [Display.classifyRunBoundary, isExplicitRunTerminator, isImplicitRunEnd, own, answered,
              Display.collectRunContentEvent, ConversationEvent.answers] using ih scan
      | userMessage event | runStart event =>
          simp [Display.classifyRunBoundary, isExplicitRunTerminator, isImplicitRunEnd, answered]
      | llmResponse event =>
          by_cases own : event.runId = runId
          · simp [Display.classifyRunBoundary, isExplicitRunTerminator, isImplicitRunEnd, answered,
              Display.collectRunContentEvent, ConversationEvent.answers, own, ih]
          · simpa [Display.classifyRunBoundary, isExplicitRunTerminator, isImplicitRunEnd, own, answered,
              Display.collectRunContentEvent, ConversationEvent.answers] using ih scan
      | _ =>
          simp only [Display.classifyRunBoundary, isExplicitRunTerminator, isImplicitRunEnd, Bool.false_eq_true,
            if_false, Display.collectRunContentEvent]
          rw [ih]
          simp only [answered, List.any_cons, ConversationEvent.answers, Bool.false_or]
          try split
          all_goals rfl

/-- The reader has a message for every turn that is shown. -/
theorem displayed_isSome (turn : Turn) : (turn.displayed host).isSome = turn.shown := by
  cases turn with
  | user event => rfl
  | run start after =>
      have empty := scanRunEvents_answered start.runId after { endTs := start.ts }
      simp only [Turn.displayed, Display.collectRun, Turn.shown]
      cases found : answered start.runId (runSpan start.runId after) with
      | true =>
          rw [if_neg fun none => by simp [found] at empty; exact empty none]
          rfl
      | false =>
          rw [if_pos (empty.mpr ⟨rfl, found⟩)]
          rfl

variable {events : List ConversationEvent} {header : Header}

def ConversationEvent.runId? : ConversationEvent → Option String
  | .runStart event => some event.runId
  | .llmResponse event => some event.runId
  | _ => none

/-- A well-formed event has a time, and a run has a name. -/
def ConversationEvent.WellFormed (event : ConversationEvent) : Prop := event.ts ≠ "" ∧ event.runId? ≠ some ""

instance : DecidablePred ConversationEvent.WellFormed := fun event =>
  inferInstanceAs (Decidable (event.ts ≠ "" ∧ event.runId? ≠ some ""))

def ConversationEvent.start? : ConversationEvent → Option String
  | .runStart event => some event.runId
  | _ => none

/-- The text of a message of the user, if it has any. -/
def ConversationEvent.userText? : ConversationEvent → Option String
  | .userMessage event =>
      let text := joinText (event.content.filterMap UserContentPart.text?)
      if text = "" then none else some text
  | _ => none

def firstText (events : List ConversationEvent) : String :=
  ((events.filterMap ConversationEvent.userText?).head?).getD ""

theorem firstText_cons (event : ConversationEvent) (rest : List ConversationEvent) :
    firstText (event :: rest) = (event.userText?).getD (firstText rest) := by
  rw [firstText, List.filterMap_cons]
  cases event.userText? <;> rfl

/-- What the scan of the header counts. -/
structure Scanned (scan : Display.HeaderScan) (events : List ConversationEvent) (folded : Display.HeaderScan) : Prop where
  users : folded.userMessages = scan.userMessages + (events.filterMap ConversationEvent.user?).length
  starts : folded.runStarts = scan.runStarts ++ events.filterMap ConversationEvent.start?
  responses : ∀ runId, runId ∈ folded.runsWithResponse ↔ runId ∈ scan.runsWithResponse ∨ answered runId events = true
  preview : folded.preview = if scan.preview = "" then firstText events else scan.preview

theorem scanned_line (scan : Display.HeaderScan) {event : ConversationEvent} (wellFormed : event.WellFormed) :
    Scanned scan [event] (Display.foldHeaderLine scan event) := by
  obtain ⟨timed, named⟩ := wellFormed
  rw [Display.foldHeaderLine, if_neg timed]
  cases event with
  | userMessage event =>
      refine ⟨rfl, (List.append_nil _).symm, fun runId => by simp [answered, ConversationEvent.answers,
        Display.foldHeaderEvent], ?_⟩
      simp only [Display.foldHeaderEvent, firstText, List.filterMap_cons, ConversationEvent.userText?]
      split
      · by_cases none : joinText (event.content.filterMap UserContentPart.text?) = "" <;> simp [none]
      · rfl
  | runStart event =>
      have own : event.runId ≠ "" := fun none => named (congrArg some none)
      simp only [Display.foldHeaderEvent, if_neg own]
      exact ⟨rfl, rfl, fun runId => by simp [answered, ConversationEvent.answers], by
        simp only [firstText]; split <;> simp_all [ConversationEvent.userText?]⟩
  | llmResponse event =>
      have own : event.runId ≠ "" := fun none => named (congrArg some none)
      simp only [Display.foldHeaderEvent, if_neg own]
      refine ⟨rfl, (List.append_nil _).symm, fun runId => ?_, by
        simp only [firstText]; split <;> simp_all [ConversationEvent.userText?]⟩
      simp only [List.mem_insert_iff, answered, List.any_cons, ConversationEvent.answers, List.any_nil, Bool.or_false,
        decide_eq_true_eq]
      constructor
      · rintro (same | before)
        · exact .inr same.symm
        · exact .inl before
      · rintro (before | same)
        · exact .inr before
        · exact .inl same.symm
  | _ =>
      refine ⟨rfl, (List.append_nil _).symm, fun runId => by simp [answered, ConversationEvent.answers,
        Display.foldHeaderEvent], ?_⟩
      simp only [Display.foldHeaderEvent, firstText]
      split <;> simp_all [ConversationEvent.userText?]

theorem scanned_fold (wellFormed : ∀ event ∈ events, event.WellFormed) (scan : Display.HeaderScan) :
    Scanned scan events (events.foldl Display.foldHeaderLine scan) := by
  induction events generalizing scan with
  | nil => exact ⟨rfl, (List.append_nil _).symm, fun runId => by simp [answered], by simp [firstText]⟩
  | cons event rest ih =>
      obtain ⟨own, wellFormed⟩ := List.forall_mem_cons.mp wellFormed
      have first := scanned_line scan own
      have later := ih wellFormed (Display.foldHeaderLine scan event)
      refine ⟨?_, ?_, fun runId => ?_, ?_⟩
      · rw [List.foldl_cons, later.users, first.users, Nat.add_assoc, ← List.length_append, ← List.filterMap_append]
        rfl
      · rw [List.foldl_cons, later.starts, first.starts, List.append_assoc, ← List.filterMap_append]
        rfl
      · rw [List.foldl_cons, later.responses, first.responses, or_assoc]
        simp [answered]
      · rw [List.foldl_cons, later.preview, first.preview, firstText_cons, firstText_cons]
        cases found : event.userText? with
        | none => split <;> simp_all [firstText]
        | some text =>
            have nonempty : text ≠ "" := by
              cases event with
              | userMessage event =>
                  simp only [ConversationEvent.userText?] at found
                  split at found
                  · cases found
                  next some => exact Option.some.inj found ▸ some
              | _ => cases found
            split <;> simp_all

/-- The header's picks: a message of the user counts, and so does a run that is answered anywhere. -/
def countedEvent? (all : List ConversationEvent) : ConversationEvent → Option Bool
  | .userMessage _ => some true
  | .runStart event => some (answered event.runId all)
  | _ => none

theorem count_countedEvent (all events : List ConversationEvent) :
    (events.filterMap (countedEvent? all)).count true = (events.filterMap ConversationEvent.user?).length +
      ((events.filterMap ConversationEvent.start?).filter fun runId => answered runId all).length := by
  induction events with
  | nil => rfl
  | cons event rest ih =>
      cases event with
      | userMessage event =>
          simp only [List.filterMap_cons, countedEvent?, ConversationEvent.user?, ConversationEvent.start?,
            List.count_cons_self, List.length_cons, ih]
          omega
      | runStart event =>
          simp only [List.filterMap_cons, countedEvent?, ConversationEvent.user?, ConversationEvent.start?,
            List.count_cons, List.filter_cons, ih]
          cases answered event.runId all <;> simp [Nat.add_assoc]
      | _ => simpa only [List.filterMap_cons, countedEvent?, ConversationEvent.user?, ConversationEvent.start?] using ih

/-- The header counts the turns of the log whose runs are answered anywhere. -/
theorem headerOfScan_messageCount (wellFormed : ∀ event ∈ events, event.WellFormed) (header : Header) :
    (Display.headerOfScan (Display.scanConversationHeader header events)).messageCount =
      (turnsOf events).countP (Turn.counted events) := by
  have scanned : Scanned _ events (Display.scanConversationHeader header events) := scanned_fold wellFormed _
  have picked : (turnsOf events).filterMap (fun turn => some (turn.counted events)) =
      events.filterMap (countedEvent? events) := by
    refine turnsOf_pick _ _ (fun event => rfl) (fun start after => rfl) (fun event inner => ?_) events
    cases event <;> simp_all [isImplicitRunEnd, countedEvent?]
  have listed : (turnsOf events).countP (Turn.counted events) = (events.filterMap (countedEvent? events)).count true := by
    rw [← picked, List.filterMap_eq_map', List.count, List.countP_map]
    exact List.countP_congr fun turn _ => by simp
  rw [listed, count_countedEvent]
  simp only [Display.headerOfScan, scanned.users, scanned.starts, List.nil_append, Nat.zero_add]
  refine congrArg (_ + ·) (congrArg List.length (List.filter_congr fun runId _ => ?_))
  have responded := scanned.responses runId
  simp only [List.not_mem_nil, false_or] at responded
  rw [Bool.eq_iff_iff, decide_eq_true_eq]
  exact responded

theorem readableEvents_eq (wellFormed : ∀ event ∈ events, event.WellFormed) : Display.readableEvents events = events :=
  List.filter_eq_self.mpr fun event listed => decide_eq_true (wellFormed event listed).1

/-- The reader counts the turns that it shows. -/
theorem readConversation_messageCount (wellFormed : ∀ event ∈ events, event.WellFormed) (runActive : Bool) :
    (Display.readConversation host header events runActive).messageCount = (turnsOf events).countP Turn.shown := by
  simp only [Display.readConversation, readableEvents_eq wellFormed, reconstructFromEvents_turns,
    List.length_filterMap_eq_countP, displayed_isSome]

/-- Both previews are the first text of the user. -/
theorem readConversation_preview (wellFormed : ∀ event ∈ events, event.WellFormed) (runActive : Bool) :
    (Display.readConversation host header events runActive).preview = firstText events := by
  have picked : (turnsOf events).filterMap (fun turn => (turn.displayed host).bind fun message =>
      if message.role = .user ∧ message.content ≠ "" then some message.content else none) =
      events.filterMap ConversationEvent.userText? := by
    refine turnsOf_pick _ _ (fun event => ?_) (fun start after => ?_) (fun event inner => ?_) events
    · simp only [Turn.displayed, Display.buildUserMessage, Option.bind_some, ConversationEvent.userText?, true_and]
      split <;> simp_all
    · simp only [Turn.displayed, Display.collectRun, ConversationEvent.userText?]
      split <;> simp
    · cases event <;> simp_all [isImplicitRunEnd, ConversationEvent.userText?]
  simp only [Display.readConversation, readableEvents_eq wellFormed, reconstructFromEvents_turns,
    List.filterMap_filterMap, picked, firstText]

theorem headerOfScan_preview (wellFormed : ∀ event ∈ events, event.WellFormed) (header : Header) :
    (Display.headerOfScan (Display.scanConversationHeader header events)).preview = firstText events :=
  (scanned_fold wellFormed { conversation := Display.parseMeta header }).preview

/-- The title, the totals, the model and the time come from the same fold. -/
theorem headerOfScan_conversation (wellFormed : ∀ event ∈ events, event.WellFormed) (header : Header) (runActive : Bool) :
    (Display.headerOfScan (Display.scanConversationHeader header events)).conversation =
      (Display.readConversation host header events runActive).conversation := by
  obtain ⟨metrics, title, conversation⟩ := Display.foldl_foldHeaderLine (fun event listed => (wellFormed event listed).1)
    { conversation := Display.parseMeta header }
  rw [Display.scanConversationHeader, Display.headerOfScan, metrics, title, conversation, Display.readConversation,
    readableEvents_eq wellFormed]
  simp only [Display.applyDerivedMetrics, Display.parseMeta, Option.or_none]

/-- The header says of a conversation what a full read says. -/
structure HeaderAgrees (read : Display.ConversationFile) (scanned : Display.ConversationHeader) : Prop where
  messageCount : scanned.messageCount = read.messageCount
  preview : scanned.preview = read.preview
  conversation : scanned.conversation = read.conversation

/-- Every run that is answered somewhere is answered in its span. -/
def AnsweredInSpan (events : List ConversationEvent) : Prop :=
  ∀ start after, .runStart start :: after <:+ events → answered start.runId events = true →
    answered start.runId (runSpan start.runId after) = true

theorem answered_of_span {runId : String} {after : List ConversationEvent} (within : after <:+ events)
    (found : answered runId (runSpan runId after) = true) : answered runId events = true := by
  obtain ⟨event, listed, answers⟩ := List.any_eq_true.mp found
  have whole := runSpan_append_rest runId after {}
  refine List.any_eq_true.mpr ⟨event, within.subset ?_, answers⟩
  rw [← whole]
  exact List.mem_append_left _ listed

/-- A turn that is shown is counted. -/
theorem counted_of_shown {turn : Turn} (listed : turn ∈ turnsOf events) (shown : turn.shown = true) :
    turn.counted events = true := by
  cases turn with
  | user event => rfl
  | run start after =>
      have within := (run_mem_turnsOf start after events).mp listed
      exact answered_of_span ((List.suffix_cons _ _).trans within) shown

/-- Both readers count the same turns exactly where every answered run is answered in its span. -/
theorem countP_turns_iff :
    (turnsOf events).countP (Turn.counted events) = (turnsOf events).countP Turn.shown ↔ AnsweredInSpan events := by
  constructor
  · intro same start after within found
    have listed := (run_mem_turnsOf start after events).mpr within
    have fewer : (turnsOf events).filter Turn.shown = ((turnsOf events).filter (Turn.counted events)).filter Turn.shown := by
      rw [List.filter_filter]
      refine List.filter_congr fun turn member => ?_
      cases shown : turn.shown with
      | false => rfl
      | true => rw [counted_of_shown member shown, Bool.and_self]
    have all := (List.filter_sublist (p := Turn.shown) (l := (turnsOf events).filter (Turn.counted events))).eq_of_length
      (by rw [← fewer, ← List.countP_eq_length_filter, ← List.countP_eq_length_filter, same])
    have kept : Turn.run start after ∈ ((turnsOf events).filter (Turn.counted events)).filter Turn.shown := by
      rw [all]
      exact List.mem_filter.mpr ⟨listed, found⟩
    exact (List.mem_filter.mp kept).2
  · intro inSpan
    refine List.countP_congr fun turn listed => ⟨fun counted => ?_, counted_of_shown listed⟩
    cases turn with
    | user event => rfl
    | run start after => exact inSpan start after ((run_mem_turnsOf start after events).mp listed) counted

/-- The header agrees with a full read exactly where every answered run is answered in its span. Lines that are no JSON
are read by neither. -/
theorem headerOfScan_agrees_iff (host : Host) (header : Header) (lines : List (Option ConversationEvent))
    (runActive : Bool) (wellFormed : ∀ event ∈ lines.reduceOption, event.WellFormed) :
    HeaderAgrees (Display.readConversation host header lines.reduceOption runActive)
        (Display.headerOfScan (Display.scanConversationHeader header lines.reduceOption)) ↔
      AnsweredInSpan lines.reduceOption := by
  rw [← countP_turns_iff]
  constructor
  · intro agrees
    rw [← headerOfScan_messageCount wellFormed header, agrees.messageCount, readConversation_messageCount wellFormed]
  · intro same
    refine ⟨?_, ?_, headerOfScan_conversation wellFormed header runActive⟩
    · rw [headerOfScan_messageCount wellFormed, readConversation_messageCount wellFormed, same]
    · rw [headerOfScan_preview wellFormed, readConversation_preview wellFormed]

theorem headerOfScan_agrees_answered :
    HeaderAgrees (Display.readConversation plainHost sampleHeader (answeredLog.map some).reduceOption false)
        (Display.headerOfScan (Display.scanConversationHeader sampleHeader (answeredLog.map some).reduceOption)) ↔
      AnsweredInSpan (answeredLog.map some).reduceOption :=
  headerOfScan_agrees_iff plainHost sampleHeader (answeredLog.map some) false (by decide)

/-- A message of the user cuts a run before its answer is recorded. -/
def cutLog : List (Option ConversationEvent) :=
  [some (.userMessage { ts := "a", content := [.text "Add them"] }),
    some (.runStart { ts := "b", runId := "r" }),
    some (.userMessage { ts := "c", content := [.text "Hurry"] }),
    some (.llmResponse
      { ts := "d", runId := "r", model := "m", usage := { inputTokens := 3, outputTokens := 2 }, llmMs := 1
        finishReason := .stop, content := [.text "Five" {}] })]

/-- The header counts the run that was cut, and the reader shows nothing of it. -/
theorem headerOfScan_counts_cut_run :
    ¬∀ (host : Host) (header : Header) (lines : List (Option ConversationEvent)) (runActive : Bool),
      (∀ event ∈ lines.reduceOption, event.WellFormed) →
        HeaderAgrees (Display.readConversation host header lines.reduceOption runActive)
          (Display.headerOfScan (Display.scanConversationHeader header lines.reduceOption)) := by
  intro agrees
  have counts := (agrees plainHost sampleHeader cutLog false (by decide)).messageCount
  rw [readConversation_messageCount (by decide)] at counts
  revert counts
  decide +kernel

end NimbleBrain.Conversation
