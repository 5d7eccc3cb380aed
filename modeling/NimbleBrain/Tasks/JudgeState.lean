import NimbleBrain.Engine.JsonWrite

/- The judge of a run reads its input, a summary of its calls and its deliverable, cut to a budget. -/

namespace NimbleBrain.Tasks.JudgeState

open Engine Library

def maxJudgeStateChars : Nat := 48000
def maxJudgeInputChars : Nat := 8000
def maxJudgeActivityChars : Nat := 8000
def activityFieldChars : Nat := 200

structure RunToolCall where
  name : Utf16
  ok : Bool
  input : Option Json := none
  output : Utf16 := []

structure TaskRunResult where
  output : Utf16
  structured : Option Json := none
  activityLog : List RunToolCall := []

structure ActivityEntry where
  tool : Utf16
  ok : Bool
  input : Option Utf16 := none
  error : Option Utf16 := none

inductive Activity where
  | call (entry : ActivityEntry)
  | omitted (count : Nat)

structure State where
  deliverable : Json := .null
  input : Option Json := none
  activity : Option (List Activity) := none

/-- An entry of an object that is left out when it has no value. -/
def entryOf (name : String) (value : Option Json) : List (Utf16 × Json) :=
  value.toList.map fun value => (Utf16.ofString name, value)

def ActivityEntry.toJson (entry : ActivityEntry) : Json :=
  .object (entryOf "tool" (some (.string entry.tool)) ++ entryOf "ok" (some (.bool entry.ok)) ++
    entryOf "input" (entry.input.map .string) ++ entryOf "error" (entry.error.map .string))

def Activity.toJson : Activity → Json
  | .call entry => entry.toJson
  | .omitted count => .object (entryOf "omitted" (some (.number (natural count))))

def State.toJson (state : State) : Json :=
  .object (entryOf "deliverable" (some state.deliverable) ++ entryOf "input" state.input ++
    entryOf "activity" (state.activity.map fun activity => .array (activity.map Activity.toJson)))

def marker (more : Nat) : Utf16 :=
  Utf16.ofString "…[truncated: " ++ decimal more ++ Utf16.ofString " more characters]"

def cut (text : Utf16) (max : Nat) : Utf16 × Bool :=
  if text.length ≤ max then (text, false) else (text.take max ++ marker (text.length - max), true)

def summarizeCall (tc : RunToolCall) : ActivityEntry where
  tool := tc.name
  ok := tc.ok
  input := tc.input.map fun input => (cut (stringify input) activityFieldChars).1
  error := if !tc.ok && !tc.output.isEmpty then some (cut tc.output activityFieldChars).1 else none

/-- A summary is counted with the comma behind it. -/
def sizeOfCall (tc : RunToolCall) : Nat := (stringify (summarizeCall tc).toJson).length + 1

/-- The calls are kept while they fit. The others become one entry. -/
def capFrom (max : Nat) : Nat → List RunToolCall → List Activity × Bool
  | _, [] => ([], false)
  | used, tc :: rest =>
      if max < used + sizeOfCall tc then ([.omitted (rest.length + 1)], true)
      else
        let later := capFrom max (used + sizeOfCall tc) rest
        (.call (summarizeCall tc) :: later.1, later.2)

def capActivity (log : List RunToolCall) (max : Nat) : List Activity × Bool := capFrom max 2 log

/-- The input as the judge reads it, the characters it takes, and whether it was cut. -/
def cappedInput : Option Json → Option Json × Nat × Bool
  | none => (none, 0, false)
  | some input =>
      let raw := stringify input
      let shown := if maxJudgeInputChars < raw.length then .string (cut raw maxJudgeInputChars).1 else input
      (some shown, min raw.length maxJudgeInputChars, maxJudgeInputChars < raw.length)

def cappedActivity (log : List RunToolCall) : Option (List Activity) × Nat × Bool :=
  if log.isEmpty then (none, 0, false)
  else
    let capped := capActivity log maxJudgeActivityChars
    (some capped.1, (stringify (.array (capped.1.map Activity.toJson))).length, capped.2)

/-- The deliverable is the structured value, or else the text. -/
def cappedDeliverable (result : TaskRunResult) (room : Nat) : Json × Bool :=
  match result.structured with
  | some structured =>
      let raw := stringify structured
      if room < raw.length then (.string (cut raw room).1, true) else (structured, false)
  | none => (.string (cut result.output room).1, (cut result.output room).2)

/-- What the input and the activity leave to the deliverable. -/
def roomOf (inputChars activityChars : Nat) : Nat := max 1000 (maxJudgeStateChars - inputChars - activityChars)

def buildJudgeState (input : Option Json) (result : TaskRunResult) : State × Bool :=
  let (shown, inputChars, inputCut) := cappedInput input
  let (activity, activityChars, activityCut) := cappedActivity result.activityLog
  let (deliverable, deliverableCut) := cappedDeliverable result (roomOf inputChars activityChars)
  (⟨deliverable, shown, activity⟩, inputCut || activityCut || deliverableCut)

/-- The characters that JSON adds to a text beside its quotes. -/
def escapes (text : Utf16) : Nat := (Utf16.quote text).length - (text.length + 2)

theorem length_token (token : Utf16.Token) : token.units.length ≤ token.text.length := by
  cases token with
  | single unit =>
      change 1 ≤ (Utf16.escapeUnit unit).length
      rw [Utf16.escapeUnit]
      split_ifs <;> simp [Utf16.unicodeEscape]
  | pair lead trail => exact le_rfl

theorem length_quote (text : Utf16) : (Utf16.quote text).length = text.length + 2 + escapes text := by
  have least : ∀ tokens : List Utf16.Token,
      (tokens.flatMap Utf16.Token.units).length ≤ (tokens.flatMap Utf16.Token.text).length := by
    intro tokens
    induction tokens with
    | nil => exact le_rfl
    | cons token rest ih =>
        have own := length_token token
        simp only [List.flatMap_cons, List.length_append]
        omega
  have written := least (Utf16.tokens text)
  have whole : (Utf16.quote text).length = ((Utf16.tokens text).flatMap Utf16.Token.text).length + 2 := by
    simp [Utf16.quote]
  rw [Utf16.units_tokens] at written
  rw [escapes]
  omega

theorem length_joinComma {texts : List Utf16} (filled : texts ≠ []) :
    (joinComma texts).length + 1 = (texts.map fun text => text.length + 1).sum := by
  induction texts with
  | nil => exact absurd rfl filled
  | cons text rest ih =>
      cases rest with
      | nil => simp [joinComma]
      | cons next rest =>
          have later := ih (List.cons_ne_nil _ _)
          rw [List.map_cons, List.sum_cons, ← later, joinComma, List.length_append, List.length_cons]
          · omega
          · exact List.cons_ne_nil _ _

theorem length_stringify_array {items : List Json} (filled : items ≠ []) :
    (stringify (.array items)).length = 1 + (items.map fun item => (stringify item).length + 1).sum := by
  have joined := @length_joinComma (items.map stringify) (by simpa using filled)
  rw [List.map_map] at joined
  rw [stringify, stringifyItems_eq, List.length_append, List.length_cons, List.length_singleton]
  change (joinComma (items.map stringify)).length + 1 =
    (items.map fun item => (stringify item).length + 1).sum at joined
  omega

theorem length_stringify_object {entries : List (Utf16 × Json)} (filled : entries ≠ []) :
    (stringify (.object entries)).length =
      1 + (entries.map fun entry => (Utf16.quote entry.1).length + (stringify entry.2).length + 2).sum := by
  have joined := @length_joinComma (stringifyEntries entries) (by rw [stringifyEntries_eq]; simpa using filled)
  rw [stringifyEntries_eq, List.map_map] at joined
  have each : ((fun text : Utf16 => text.length + 1) ∘
      fun entry : Utf16 × Json => entryText (entry.1, stringify entry.2)) =
      fun entry => (Utf16.quote entry.1).length + (stringify entry.2).length + 2 := by
    funext entry
    simp only [Function.comp_apply, entryText, List.length_append, List.length_cons]
    omega
  rw [each] at joined
  rw [stringify, stringifyEntries_eq, List.length_append, List.length_cons, List.length_singleton]
  omega

/-- The longest text or list of the script. -/
def maxLength : Nat := 2 ^ 53

theorem length_marker {more : Nat} (below : more < maxLength) : (marker more).length ≤ 46 := by
  have digits := @length_decimal more 15 (below.trans (by decide))
  have ends : (Utf16.ofString "…[truncated: ").length = 13 ∧ (Utf16.ofString " more characters]").length = 17 := by
    decide +kernel
  rw [marker, List.length_append, List.length_append, ends.1, ends.2]
  omega

theorem length_cut {text : Utf16} {max : Nat} (below : text.length < maxLength) :
    (cut text max).1.length ≤ min text.length max + 46 := by
  rw [cut]
  split
  · next fits =>
      rw [Nat.min_eq_left fits]
      exact Nat.le_add_right _ _
  · next beyond =>
      have added := @length_marker (text.length - max) (by omega)
      rw [List.length_append, List.length_take, Nat.min_comm]
      omega

/-- The calls are kept from the first one on while they fit. -/
theorem capFrom_spec {max used : Nat} (fits : used ≤ max) (log : List RunToolCall) :
    ∃ calls ≤ log.length,
      capFrom max used log = ((log.take calls).map (fun tc => .call (summarizeCall tc)) ++
        (if calls < log.length then [.omitted (log.length - calls)] else []), decide (calls < log.length)) ∧
      used + ((log.take calls).map sizeOfCall).sum ≤ max ∧
      (calls < log.length → max < used + ((log.take (calls + 1)).map sizeOfCall).sum) := by
  induction log generalizing used with
  | nil => exact ⟨0, le_rfl, rfl, fits, fun more => absurd more (Nat.lt_irrefl 0)⟩
  | cons tc rest ih =>
      rw [capFrom]
      by_cases beyond : max < used + sizeOfCall tc
      · refine ⟨0, Nat.zero_le _, ?_, by simpa using fits, fun _ => by simpa using beyond⟩
        simp [beyond]
      · obtain ⟨calls, bound, same, within, next⟩ := ih (Nat.not_lt.mp beyond)
        refine ⟨calls + 1, Nat.succ_le_succ bound, ?_, ?_, ?_⟩
        · simp [beyond, same]
        · rw [List.take_succ_cons, List.map_cons, List.sum_cons, ← Nat.add_assoc]
          exact within
        · intro more
          rw [List.take_succ_cons, List.map_cons, List.sum_cons, ← Nat.add_assoc]
          exact next (Nat.lt_of_succ_lt_succ more)

/-- The script holds no text and no list that is longer than the language allows. -/
structure InMemory (input : Option Json) (result : TaskRunResult) : Prop where
  input : ∀ value ∈ input, (stringify value).length < maxLength
  structured : ∀ value ∈ result.structured, (stringify value).length < maxLength
  output : result.output.length < maxLength
  activityLog : result.activityLog.length < maxLength

/-- The deliverable as it is measured. -/
def deliverableText (result : TaskRunResult) : Utf16 := (result.structured.map stringify).getD result.output

/-- A value is shown as it is when its text fits, and as the front of its text otherwise. -/
def Shown (value : Json) (text : Utf16) (limit : Nat) (shown : Json) : Prop :=
  if text.length ≤ limit then shown = value
  else shown = .string (text.take limit ++ marker (text.length - limit))

/-- The characters that the escapes of a cut input add. -/
def escapedInput (input : Option Json) : Nat :=
  match input with
  | some value => if (stringify value).length ≤ maxJudgeInputChars then 0 else
      escapes (cut (stringify value) maxJudgeInputChars).1
  | none => 0

/-- The characters that the escapes of a text deliverable add, or of a cut one. -/
def escapedDeliverable (result : TaskRunResult) (room : Nat) : Nat :=
  match result.structured with
  | some value => if (stringify value).length ≤ room then 0 else escapes (cut (stringify value) room).1
  | none => escapes (cut result.output room).1

/-- Room for the names of the fields, and for two markers with their quotes. -/
def overhead : Nat := 133

/-- What is sent is what there is, as far as each part fits its share of the budget. -/
structure Capped (input : Option Json) (result : TaskRunResult) (state : State) (truncated : Bool)
    (calls activityChars room : Nat) : Prop where
  given : match input with
    | some value => ∃ shown, state.input = some shown ∧ Shown value (stringify value) maxJudgeInputChars shown
    | none => state.input = none
  activity : match state.activity with
    | some entries => result.activityLog ≠ [] ∧
        activityChars = (stringify (.array (entries.map Activity.toJson))).length ∧
        entries = (result.activityLog.take calls).map (fun tc => .call (summarizeCall tc)) ++
          if calls < result.activityLog.length then [.omitted (result.activityLog.length - calls)] else []
    | none => result.activityLog = [] ∧ activityChars = 0
  fitting : 2 + ((result.activityLog.take calls).map sizeOfCall).sum ≤ maxJudgeActivityChars
  overfull : calls < result.activityLog.length →
    maxJudgeActivityChars < 2 + ((result.activityLog.take (calls + 1)).map sizeOfCall).sum
  shares : room + min ((input.map fun value => (stringify value).length).getD 0) maxJudgeInputChars + activityChars =
    maxJudgeStateChars
  deliverable : Shown (result.structured.getD (.string result.output)) (deliverableText result) room state.deliverable
  truncated : truncated = true ↔
    (∃ value ∈ input, maxJudgeInputChars < (stringify value).length) ∨ calls < result.activityLog.length ∨
      room < (deliverableText result).length
  bounded : (stringify state.toJson).length ≤
    maxJudgeStateChars + overhead + escapedInput input + escapedDeliverable result room

variable {input : Option Json} {result : TaskRunResult}

theorem length_omitted {count : Nat} (below : count < maxLength) :
    (stringify (Activity.omitted count).toJson).length ≤ 28 := by
  have digits := @length_decimal count 15 (below.trans (by decide))
  have name : (Utf16.quote (Utf16.ofString "omitted")).length = 9 := by decide +kernel
  have number : (stringify (.number (natural count))).length = (decimal count).length := rfl
  rw [Activity.toJson, length_stringify_object (by simp [entryOf])]
  simp only [entryOf, Option.toList_some, List.map_cons, List.map_nil, List.sum_cons, List.sum_nil, name, number]
  omega

/-- The summary of the calls takes its share, and little more for what is left out. -/
theorem cappedActivity_spec (inMemory : InMemory input result) :
    ∃ calls,
      (match (cappedActivity result.activityLog).1 with
        | some entries => result.activityLog ≠ [] ∧
            (cappedActivity result.activityLog).2.1 = (stringify (.array (entries.map Activity.toJson))).length ∧
            entries = (result.activityLog.take calls).map (fun tc => .call (summarizeCall tc)) ++
              if calls < result.activityLog.length then [.omitted (result.activityLog.length - calls)] else []
        | none => result.activityLog = [] ∧ (cappedActivity result.activityLog).2.1 = 0) ∧
      2 + ((result.activityLog.take calls).map sizeOfCall).sum ≤ maxJudgeActivityChars ∧
      (calls < result.activityLog.length →
        maxJudgeActivityChars < 2 + ((result.activityLog.take (calls + 1)).map sizeOfCall).sum) ∧
      (cappedActivity result.activityLog).2.2 = decide (calls < result.activityLog.length) ∧
      (cappedActivity result.activityLog).2.1 ≤ maxJudgeActivityChars + 28 := by
  obtain ⟨calls, bound, same, fitting, overfull⟩ := capFrom_spec (show 2 ≤ maxJudgeActivityChars by decide)
    result.activityLog
  rw [← capActivity] at same
  cases log : result.activityLog with
  | nil =>
      rw [log] at bound
      obtain rfl := Nat.le_zero.mp bound
      exact ⟨0, ⟨rfl, rfl⟩, by decide, fun more => absurd more (Nat.lt_irrefl 0), rfl, Nat.zero_le _⟩
  | cons first rest =>
      rw [log] at same fitting overfull bound
      have capped : cappedActivity (first :: rest) = (some (capActivity (first :: rest) maxJudgeActivityChars).1,
          (stringify (.array ((capActivity (first :: rest) maxJudgeActivityChars).1.map Activity.toJson))).length,
          (capActivity (first :: rest) maxJudgeActivityChars).2) := rfl
      refine ⟨calls, ?_, fitting, overfull, ?_, ?_⟩
      · rw [capped]
        exact ⟨List.cons_ne_nil _ _, rfl, by rw [same]⟩
      · rw [capped, same]
      · rw [capped, same]
        dsimp only
        have kept : (((first :: rest).take calls).map fun tc =>
            (stringify (Activity.call (summarizeCall tc)).toJson).length + 1).sum =
            (((first :: rest).take calls).map sizeOfCall).sum := rfl
        by_cases more : calls < (first :: rest).length
        · have short := @length_omitted ((first :: rest).length - calls) (by
            have := inMemory.activityLog
            rw [log] at this
            omega)
          rw [if_pos more, List.map_append, length_stringify_array (by simp), List.map_append, List.sum_append,
            List.map_map, List.map_map]
          simp only [Function.comp_def, List.map_cons, List.map_nil, List.sum_cons, List.sum_nil]
          rw [kept]
          omega
        · obtain rfl : calls = (first :: rest).length := by omega
          rw [List.take_length] at fitting kept ⊢
          rw [if_neg (Nat.lt_irrefl _), List.append_nil, length_stringify_array (by simp), List.map_map, List.map_map]
          simp only [Function.comp_def]
          rw [kept]
          omega

theorem length_shown {text : Utf16} {limit : Nat} (below : text.length < maxLength) :
    (Utf16.quote (cut text limit).1).length ≤ min text.length limit + 48 + escapes (cut text limit).1 := by
  have short := @length_cut text limit below
  rw [length_quote]
  omega

theorem shown_cut {value : Json} {text : Utf16} {limit : Nat} :
    Shown value text limit (if limit < text.length then .string (cut text limit).1 else value) := by
  rw [Shown]
  by_cases beyond : limit < text.length
  · rw [if_pos beyond, if_neg (by omega), cut, if_neg (by omega)]
  · rw [if_neg beyond, if_pos (by omega)]

/-- The input takes its share, a marker and what its escapes add. -/
theorem cappedInput_spec (inMemory : InMemory input result) :
    (match input with
      | some value => ∃ shown, (cappedInput input).1 = some shown ∧
          Shown value (stringify value) maxJudgeInputChars shown ∧
          (stringify shown).length ≤ (cappedInput input).2.1 + 48 + escapedInput input
      | none => (cappedInput input).1 = none) ∧
    (cappedInput input).2.1 = min ((input.map fun value => (stringify value).length).getD 0) maxJudgeInputChars ∧
    ((cappedInput input).2.2 = true ↔ ∃ value ∈ input, maxJudgeInputChars < (stringify value).length) := by
  cases input with
  | none => exact ⟨rfl, rfl, iff_of_false nofun nofun⟩
  | some value =>
      refine ⟨⟨_, rfl, shown_cut, ?_⟩, rfl, ?_⟩
      · have quoted := @length_shown (stringify value) maxJudgeInputChars (inMemory.input value rfl)
        change (stringify (if maxJudgeInputChars < (stringify value).length then _ else value)).length ≤
          min (stringify value).length maxJudgeInputChars + 48 + escapedInput (some value)
        rw [escapedInput]
        by_cases beyond : maxJudgeInputChars < (stringify value).length
        · rw [if_pos beyond, if_neg (by omega)]
          exact quoted
        · rw [if_neg beyond, if_pos (by omega)]
          omega
      · change decide _ = true ↔ _
        simp

theorem cappedDeliverable_spec (inMemory : InMemory input result) (room : Nat) :
    Shown (result.structured.getD (.string result.output)) (deliverableText result) room
        (cappedDeliverable result room).1 ∧
      ((cappedDeliverable result room).2 = true ↔ room < (deliverableText result).length) ∧
      (stringify (cappedDeliverable result room).1).length ≤ room + 48 + escapedDeliverable result room := by
  cases given : result.structured with
  | none =>
      have quoted := @length_shown result.output room inMemory.output
      have text : deliverableText result = result.output := by rw [deliverableText, given]; rfl
      have capped : cappedDeliverable result room =
          (.string (cut result.output room).1, (cut result.output room).2) := by
        rw [cappedDeliverable, given]
      have escaped : escapedDeliverable result room = escapes (cut result.output room).1 := by
        rw [escapedDeliverable, given]
      rw [capped, text, escaped]
      refine ⟨?_, ?_, quoted.trans (by omega)⟩
      · rw [Shown, cut]
        split <;> rfl
      · rw [cut]
        split
        · exact iff_of_false nofun (by omega)
        · exact iff_of_true rfl (by omega)
  | some structured =>
      have quoted := @length_shown (stringify structured) room (inMemory.structured structured given)
      have text : deliverableText result = stringify structured := by rw [deliverableText, given]; rfl
      have capped : cappedDeliverable result room =
          if room < (stringify structured).length then (.string (cut (stringify structured) room).1, true)
          else (structured, false) := by
        rw [cappedDeliverable, given]
      have escaped : escapedDeliverable result room =
          if (stringify structured).length ≤ room then 0 else escapes (cut (stringify structured) room).1 := by
        rw [escapedDeliverable, given]
      rw [capped, text, escaped]
      dsimp only [Option.getD_some]
      by_cases beyond : room < (stringify structured).length
      · rw [if_pos beyond, if_neg (by omega)]
        have shown := @shown_cut structured (stringify structured) room
        rw [if_pos beyond] at shown
        exact ⟨shown, iff_of_true rfl beyond, quoted.trans (by omega)⟩
      · rw [if_neg beyond, if_pos (by omega)]
        have shown := @shown_cut structured (stringify structured) room
        rw [if_neg beyond] at shown
        exact ⟨shown, iff_of_false nofun beyond, by dsimp only; omega⟩

theorem length_state (state : State) :
    (stringify state.toJson).length ≤ 16 + (stringify state.deliverable).length +
      ((state.input.map fun value => (stringify value).length + 9).getD 0) +
      ((state.activity.map fun entries => (stringify (.array (entries.map Activity.toJson))).length + 12).getD 0) := by
  have names : (Utf16.quote (Utf16.ofString "deliverable")).length = 13 ∧
      (Utf16.quote (Utf16.ofString "input")).length = 7 ∧ (Utf16.quote (Utf16.ofString "activity")).length = 10 := by
    decide +kernel
  rw [State.toJson, length_stringify_object (by simp [entryOf])]
  cases state.input with
  | none =>
      cases state.activity with
      | none => simp [entryOf, names]; omega
      | some entries => simp [entryOf, names]; omega
  | some value =>
      cases state.activity with
      | none => simp [entryOf, names]; omega
      | some entries => simp [entryOf, names]; omega

/-- A run that answers with one word, after a call that took a long text. -/
def longCall : TaskRunResult where
  output := Utf16.ofString "done"
  activityLog := [⟨Utf16.ofString "web__fetch", true, some (.string (List.replicate 300 112)), Utf16.ofString "ok"⟩]

end NimbleBrain.Tasks.JudgeState
