import NimbleBrain.Engine.LoopEvidence

/- A tool trips on its stated evidence and stays tripped until it advances with another text. -/

namespace NimbleBrain.Engine.Supervisor

open Library

section Step

variable (host : SupervisorHost) (config : SupervisorConfig)

def counting (state : ToolState) : ToolState := { state with totalCalls := state.totalCalls + 1 }

def Clears (state : ToolState) (latest : Observation) : Prop :=
  isAdvancingSuccess latest.2 = true ∧ some (contentHash host config latest.2) ≠ state.trippedContent

/-- What one observation does to the state of its tool. -/
inductive Observed (state : ToolState) (latest : Observation) : ToolState → SupervisorVerdict → Prop where
  | recovered (tripped : state.tripped = true) (clears : Clears host config state latest) :
      Observed state latest (recover host config (counting state) latest.1 latest.2) .pass
  | withheld (tripped : state.tripped = true) (stuck : ¬ Clears host config state latest)
      (replacement : ToolResult) (repeats : Nat) :
      Observed state latest (counting state) (.synth replacement latest.1.name repeats)
  | skipped (untripped : state.tripped = false) (infra : latest.2.infraError = true) :
      Observed state latest (counting state) .pass
  | passed (untripped : state.tripped = false) (counts : latest.2.infraError = false)
      (quiet : trippedAt config (recordObservation host config (counting state) latest.1 latest.2) = none) :
      Observed state latest (recordObservation host config (counting state) latest.1 latest.2) .pass
  | trips (untripped : state.tripped = false) (counts : latest.2.infraError = false) (repeats : Nat)
      (evidence : trippedAt config (recordObservation host config (counting state) latest.1 latest.2) = some repeats)
      (replacement : ToolResult) :
      Observed state latest
        (trip host config (recordObservation host config (counting state) latest.1 latest.2) latest.1 latest.2 repeats)
        (.synth replacement latest.1.name repeats)

theorem observed (state : ToolState) (latest : Observation) :
    Observed host config state latest (observeTool host config state latest.1 latest.2).1
      (observeTool host config state latest.1 latest.2).2 := by
  rw [observeTool, ← counting, observeCounted]
  cases tripped : state.tripped with
  | true =>
      rw [if_pos (show (counting state).tripped = true from tripped)]
      by_cases clears : Clears host config state latest
      · rw [if_pos (by exact clears)]
        exact .recovered tripped clears
      · rw [if_neg (by exact clears)]
        exact .withheld tripped clears _ _
  | false =>
      rw [if_neg (show ¬ (counting state).tripped = true by simp [counting, tripped])]
      cases infra : latest.2.infraError with
      | true =>
          rw [if_pos rfl]
          exact .skipped tripped infra
      | false =>
          rw [if_neg Bool.false_ne_true]
          cases evidence : trippedAt config (recordObservation host config (counting state) latest.1 latest.2) with
          | none => exact .passed tripped infra evidence
          | some repeats => exact .trips tripped infra repeats evidence _

theorem runTool_cons (latest : Observation) (earlier : List Observation) :
    runTool host config (latest :: earlier) =
      (observeTool host config (runTool host config earlier) latest.1 latest.2).1 := rfl

/-- Both counts leave the fields of a trip alone. -/
theorem recordObservation_eq (state : ToolState) (call : ToolCall) (result : ToolResult) :
    recordObservation host config state call result =
      { state with
        lastFingerprint := some (fingerprint host config call result)
        consecutiveRepeats :=
          if some (fingerprint host config call result) = state.lastFingerprint then state.consecutiveRepeats + 1 else 1
        nonAdvancingCalls :=
          if result.nonAdvancing then state.nonAdvancingCalls + 1
          else if isAdvancingSuccess result then 0
          else state.nonAdvancingCalls } := by
  unfold recordObservation countStreak countBudget
  split_ifs with flagged same advances same
  all_goals simp_all

/-- A call passes when its tool is not tripped after it. -/
theorem Observed.verdict {state next : ToolState} {latest : Observation} {verdict : SupervisorVerdict}
    (step : Observed host config state latest next verdict) : verdict = .pass ↔ next.tripped = false := by
  cases step with
  | recovered tripped clears => simp [recover]
  | withheld tripped stuck replacement repeats => simp [counting, tripped]
  | skipped untripped infra => simp [counting, untripped]
  | passed untripped counts quiet => simp [recordObservation_eq, counting, untripped]
  | trips untripped counts repeats evidence replacement => simp [trip]

end Step

section Evidence

variable (host : SupervisorHost) (config : SupervisorConfig)

/-- The calls show that the tool is stuck: it repeats itself, or its budget is spent. -/
def Stuck (own : List Observation) : Prop :=
  Repeats config.maxConsecutiveRepeats (prints host config (sinceRecovery host config own)) ∨
    config.maxNonAdvancingCalls ≤ nonAdvancingSince own

structure Untripped (own : List Observation) (state : ToolState) : Prop where
  repeats : state.consecutiveRepeats = streak (prints host config (sinceRecovery host config own))
  print : state.lastFingerprint = (prints host config (sinceRecovery host config own)).head?
  budget : state.nonAdvancingCalls = nonAdvancingSince own
  content : state.trippedContent = none
  count : state.trippedRepeats = none
  input : state.trippedInput = none

structure TrippedOn (own before : List Observation) (tripping : Observation) (state : ToolState) : Prop where
  calls : untilTrip host config own = tripping :: before
  counts : tripping.2.infraError = false
  stuck : Stuck host config (tripping :: before)
  content : state.trippedContent = some (contentHash host config tripping.2)
  input : state.trippedInput =
    if isAdvancingSuccess tripping.2 then some (canonicalJson tripping.1.input.json) else none

/-- The state of a tool agrees with its calls. -/
structure Agrees (own : List Observation) : Prop where
  untripped : (runTool host config own).tripped = false → Untripped host config own (runTool host config own)
  tripped : (runTool host config own).tripped = true →
    ∃ before tripping, TrippedOn host config own before tripping (runTool host config own)

variable {host config}

theorem prints_cons (latest : Observation) (earlier : List Observation) :
    prints host config (latest :: earlier) =
      if latest.2.infraError then prints host config earlier
      else fingerprint host config latest.1 latest.2 :: prints host config earlier := by
  cases infra : latest.2.infraError with
  | true => simp [prints, counted, infra]
  | false => simp [prints, counted, infra]

theorem not_infra_of_advancing {result : ToolResult} (advances : isAdvancingSuccess result = true) :
    result.infraError = false ∧ result.isError = false ∧ result.nonAdvancing = false := by
  simp only [isAdvancingSuccess, Bool.and_eq_true, Bool.not_eq_true'] at advances
  exact ⟨advances.1.2, advances.1.1, advances.2⟩

variable {latest : Observation} {own : List Observation}

theorem nonAdvancingSince_infra (infra : latest.2.infraError = true) (earlier : List Observation) :
    nonAdvancingSince (latest :: earlier) = nonAdvancingSince earlier := by
  simp [nonAdvancingSince, counted, infra]

theorem nonAdvancingSince_advancing (advances : isAdvancingSuccess latest.2 = true) (earlier : List Observation) :
    nonAdvancingSince (latest :: earlier) = 0 := by
  simp [nonAdvancingSince, counted, (not_infra_of_advancing advances).1, advances]

theorem nonAdvancingSince_counted (counts : latest.2.infraError = false)
    (stuck : isAdvancingSuccess latest.2 = false) (earlier : List Observation) :
    nonAdvancingSince (latest :: earlier) =
      if latest.2.nonAdvancing then nonAdvancingSince earlier + 1 else nonAdvancingSince earlier := by
  cases flagged : latest.2.nonAdvancing with
  | true => simp [nonAdvancingSince, counted, counts, stuck, flagged]
  | false => simp [nonAdvancingSince, counted, counts, stuck, flagged]

theorem sinceRecovery_untripped (untripped : (runTool host config own).tripped = false) (latest : Observation) :
    sinceRecovery host config (latest :: own) = latest :: sinceRecovery host config own := by
  simp [sinceRecovery, recovers, untripped]

theorem sinceRecovery_recovered (tripped : (runTool host config own).tripped = true)
    (cleared : (runTool host config (latest :: own)).tripped = false) :
    sinceRecovery host config (latest :: own) = [latest] := by
  simp [sinceRecovery, recovers, tripped, cleared]

theorem untilTrip_untripped (untripped : (runTool host config own).tripped = false) (latest : Observation) :
    untilTrip host config (latest :: own) = latest :: own := by
  simp [untilTrip, untripped]

theorem untilTrip_tripped (tripped : (runTool host config own).tripped = true) (latest : Observation) :
    untilTrip host config (latest :: own) = untilTrip host config own := by
  simp [untilTrip, tripped]

/-- A call that counts extends the two counts. -/
theorem Untripped.record (latest : Observation) (untripped : (runTool host config own).tripped = false)
    (holds : Untripped host config own (runTool host config own)) (counts : latest.2.infraError = false) :
    Untripped host config (latest :: own)
      (recordObservation host config (counting (runTool host config own)) latest.1 latest.2) := by
  have grows : prints host config (sinceRecovery host config (latest :: own)) =
      fingerprint host config latest.1 latest.2 :: prints host config (sinceRecovery host config own) := by
    rw [sinceRecovery_untripped untripped, prints_cons, counts, if_neg Bool.false_ne_true]
  have repeats : (counting (runTool host config own)).consecutiveRepeats = _ := holds.repeats
  have print : (counting (runTool host config own)).lastFingerprint = _ := holds.print
  have budget : (counting (runTool host config own)).nonAdvancingCalls = _ := holds.budget
  rw [recordObservation_eq]
  constructor
  · simp only [grows, streak_cons, repeats, print]
  · rw [grows, List.head?_cons]
  · cases advances : isAdvancingSuccess latest.2 with
    | true => simp [nonAdvancingSince_advancing advances, (not_infra_of_advancing advances).2.2]
    | false => simp [nonAdvancingSince_counted counts advances, budget]
  · exact holds.content
  · exact holds.count
  · exact holds.input

/-- A trip is asked of the counts alone. -/
theorem trippedAt_isSome (state : ToolState) :
    (trippedAt config state).isSome ↔
      config.maxConsecutiveRepeats ≤ state.consecutiveRepeats ∨ config.maxNonAdvancingCalls ≤ state.nonAdvancingCalls := by
  unfold trippedAt
  split_ifs with repeats budget
  · simp [repeats]
  · simp [budget]
  · simp [repeats, budget]

theorem Untripped.stuck_iff {state : ToolState} (holds : Untripped host config own state) :
    (trippedAt config state).isSome ↔ Stuck host config own := by
  rw [trippedAt_isSome, Stuck, repeats_iff_le_streak, holds.repeats, holds.budget]

theorem agrees_cons (agrees : Agrees host config own) :
    Agrees host config (latest :: own) := by
  have step := observed host config (runTool host config own) latest
  rw [← runTool_cons] at step
  generalize after : runTool host config (latest :: own) = next at step
  generalize (observeTool host config (runTool host config own) latest.1 latest.2).2 = verdict at step
  cases step with
  | recovered tripped clears =>
      have cleared : (runTool host config (latest :: own)).tripped = false := by rw [after]; rfl
      refine ⟨fun _ => ?_, fun still => by rw [cleared] at still; cases still⟩
      rw [after]
      have single : prints host config (sinceRecovery host config (latest :: own)) =
          [fingerprint host config latest.1 latest.2] := by
        rw [sinceRecovery_recovered tripped cleared, prints_cons, (not_infra_of_advancing clears.1).1]
        rfl
      exact
        { repeats := by rw [single]; rfl
          print := by rw [single]; rfl
          budget := (nonAdvancingSince_advancing clears.1 own).symm
          content := rfl
          count := rfl
          input := rfl }
  | withheld tripped stuck replacement repeats =>
      refine ⟨fun untripped => ?_, fun _ => ?_⟩
      · rw [after] at untripped
        exact absurd (untripped.symm.trans tripped) Bool.false_ne_true
      · obtain ⟨before, tripping, holds⟩ := agrees.tripped tripped
        rw [after]
        exact ⟨before, tripping,
          { calls := (untilTrip_tripped tripped latest).trans holds.calls
            counts := holds.counts
            stuck := holds.stuck
            content := holds.content
            input := holds.input }⟩
  | skipped untripped infra =>
      refine ⟨fun _ => ?_, fun tripped => ?_⟩
      · have holds := agrees.untripped untripped
        have same : prints host config (sinceRecovery host config (latest :: own)) =
            prints host config (sinceRecovery host config own) := by
          rw [sinceRecovery_untripped untripped, prints_cons, if_pos infra]
        rw [after]
        exact
          { repeats := holds.repeats.trans (by rw [same])
            print := holds.print.trans (by rw [same])
            budget := holds.budget.trans (nonAdvancingSince_infra infra own).symm
            content := holds.content
            count := holds.count
            input := holds.input }
      · rw [after] at tripped
        exact absurd (untripped.symm.trans tripped) Bool.false_ne_true
  | passed untripped counts quiet =>
      refine ⟨fun _ => ?_, fun tripped => ?_⟩
      · rw [after]
        exact (agrees.untripped untripped).record _ untripped counts
      · rw [after, recordObservation_eq] at tripped
        exact absurd (untripped.symm.trans tripped) Bool.false_ne_true
  | trips untripped counts repeats evidence replacement =>
      have recorded := (agrees.untripped untripped).record _ untripped counts
      refine ⟨fun still => ?_, fun _ => ?_⟩
      · rw [after] at still
        cases still
      · rw [after]
        exact ⟨own, latest,
          { calls := untilTrip_untripped untripped latest
            counts := counts
            stuck := recorded.stuck_iff.mp (by rw [evidence]; rfl)
            content := rfl
            input := rfl }⟩

/-- The state of a tool agrees with its calls after every history. -/
theorem agrees (own : List Observation) : Agrees host config own := by
  induction own with
  | nil => exact ⟨fun _ => ⟨rfl, rfl, rfl, rfl, rfl, rfl⟩, fun tripped => by cases tripped⟩
  | cons latest earlier ih => exact agrees_cons ih

/-- An untripped tool is not stuck, when one call is not enough to trip. -/
theorem not_stuck (several : 2 ≤ config.maxConsecutiveRepeats) (some : 1 ≤ config.maxNonAdvancingCalls)
    (untripped : (runTool host config own).tripped = false) :
    ¬ Stuck host config own := by
  rw [Stuck, repeats_iff_le_streak, ← (agrees own |>.untripped untripped).repeats,
    ← (agrees own |>.untripped untripped).budget]
  induction own with
  | nil =>
      simp only [runTool]
      omega
  | cons latest earlier ih =>
      have step := observed host config (runTool host config earlier) latest
      rw [← runTool_cons] at step
      generalize runTool host config (latest :: earlier) = next at step untripped
      generalize (observeTool host config (runTool host config earlier) latest.1 latest.2).2 = verdict at step
      cases step with
      | recovered tripped clears =>
          simp only [recover]
          omega
      | withheld tripped stuck replacement repeats =>
          exact absurd (untripped.symm.trans tripped) Bool.false_ne_true
      | skipped before infra => exact ih before
      | passed before counts quiet =>
          rw [← trippedAt_isSome, quiet]
          exact Bool.false_ne_true
      | trips before counts repeats evidence replacement => cases untripped

end Evidence

section Verdicts

variable (host : SupervisorHost) (config : SupervisorConfig)

def isTripped (history : List Observation) (tool : Utf16) : Bool :=
  (getState (statesAfter host config history) tool).tripped

def verdictOn (history : List Observation) (latest : Observation) : SupervisorVerdict :=
  (observe host config (statesAfter host config history) latest.1 latest.2).2

/-- One verdict of the supervisor rests on the stated evidence. -/
structure RestsOnEvidence (history : List Observation) (latest : Observation) : Prop where
  alone : ∀ other, ownCalls latest.1.name other = ownCalls latest.1.name history →
    verdictOn host config other latest = verdictOn host config history latest
  others : ∀ tool, tool ≠ latest.1.name →
    getState (statesAfter host config (latest :: history)) tool = getState (statesAfter host config history) tool
  passes : verdictOn host config history latest = .pass ↔ isTripped host config (latest :: history) latest.1.name = false
  trips : isTripped host config history latest.1.name = false →
    (isTripped host config (latest :: history) latest.1.name = true ↔
      latest.2.infraError = false ∧ Stuck host config (latest :: ownCalls latest.1.name history))
  several : 2 ≤ config.maxConsecutiveRepeats → 1 ≤ config.maxNonAdvancingCalls →
    isTripped host config history latest.1.name = false →
    (isTripped host config (latest :: history) latest.1.name = true ↔
      Stuck host config (latest :: ownCalls latest.1.name history))
  clears : isTripped host config history latest.1.name = true →
    (isTripped host config (latest :: history) latest.1.name = false ↔ isAdvancingSuccess latest.2 = true ∧
      ∃ before tripping, untilTrip host config (ownCalls latest.1.name history) = tripping :: before ∧
        cappedText config latest.2 ≠ cappedText config tripping.2)
  nulls : ∀ tool, isTripped host config history tool = false →
    (getState (statesAfter host config history) tool).trippedContent = none ∧
      (getState (statesAfter host config history) tool).trippedRepeats = none ∧
        (getState (statesAfter host config history) tool).trippedInput = none

/-- A tripped tool advances with a text that differs from the one it tripped on only in halves of pairs. -/
def Blurs (history : List Observation) (latest : Observation) : Prop :=
  isTripped host config history latest.1.name = true ∧ isAdvancingSuccess latest.2 = true ∧
    ∃ before tripping, untilTrip host config (ownCalls latest.1.name history) = tripping :: before ∧
      cappedText config latest.2 ≠ cappedText config tripping.2 ∧
        Utf16.scalars (cappedText config latest.2) = Utf16.scalars (cappedText config tripping.2)

variable {host config}

theorem isTripped_eq (history : List Observation) (tool : Utf16) :
    isTripped host config history tool = (runTool host config (ownCalls tool history)).tripped := by
  rw [isTripped, getState_statesAfter]

theorem ownCalls_cons (latest : Observation) (history : List Observation) :
    ownCalls latest.1.name (latest :: history) = latest :: ownCalls latest.1.name history := by
  simp [ownCalls]

theorem verdictOn_eq (history : List Observation) (latest : Observation) :
    verdictOn host config history latest =
      (observeTool host config (runTool host config (ownCalls latest.1.name history)) latest.1 latest.2).2 := by
  rw [verdictOn, observe, getState_statesAfter]

variable {latest : Observation} {own : List Observation}

/-- The trip of a tool that is not stuck follows its counts. -/
theorem trips_iff (untripped : (runTool host config own).tripped = false) :
    (runTool host config (latest :: own)).tripped = true ↔
      latest.2.infraError = false ∧ Stuck host config (latest :: own) := by
  have step := observed host config (runTool host config own) latest
  rw [← runTool_cons] at step
  generalize runTool host config (latest :: own) = next at step
  generalize (observeTool host config (runTool host config own) latest.1 latest.2).2 = verdict at step
  have recorded := ((agrees own).untripped untripped).record latest untripped
  cases step with
  | recovered tripped clears => exact absurd (untripped.symm.trans tripped) Bool.false_ne_true
  | withheld tripped stuck replacement repeats => exact absurd (untripped.symm.trans tripped) Bool.false_ne_true
  | skipped before infra => simp [counting, untripped, infra]
  | passed before counts quiet =>
      rw [recordObservation_eq, ← (recorded counts).stuck_iff, quiet]
      simp [counting, untripped]
  | trips before counts repeats evidence replacement =>
      rw [← (recorded counts).stuck_iff, evidence]
      simp [trip, counts]

theorem stuck_infra (untripped : (runTool host config own).tripped = false) (infra : latest.2.infraError = true) :
    Stuck host config (latest :: own) ↔ Stuck host config own := by
  rw [Stuck, Stuck, sinceRecovery_untripped untripped, prints_cons, if_pos infra, nonAdvancingSince_infra infra]

/-- A trip is cleared by what the hash of the content tells apart. -/
theorem clears_iff (separates : Function.Injective host.sha1Hex)
    (tripped : (runTool host config own).tripped = true) :
    (runTool host config (latest :: own)).tripped = false ↔ isAdvancingSuccess latest.2 = true ∧
      ∃ before tripping, untilTrip host config own = tripping :: before ∧
        Utf16.scalars (cappedText config latest.2) ≠ Utf16.scalars (cappedText config tripping.2) := by
  obtain ⟨before, tripping, holds⟩ := (agrees own).tripped tripped
  have clears : Clears host config (runTool host config own) latest ↔ isAdvancingSuccess latest.2 = true ∧
      Utf16.scalars (cappedText config latest.2) ≠ Utf16.scalars (cappedText config tripping.2) := by
    rw [Clears, holds.content, ne_eq, Option.some_inj, contentHash, contentHash, separates.eq_iff]
  have step := observed host config (runTool host config own) latest
  rw [← runTool_cons] at step
  generalize runTool host config (latest :: own) = next at step
  generalize (observeTool host config (runTool host config own) latest.1 latest.2).2 = verdict at step
  have cleared : next.tripped = false ↔ Clears host config (runTool host config own) latest := by
    cases step with
    | recovered _ clears => exact iff_of_true rfl clears
    | withheld _ stuck replacement repeats =>
        exact iff_of_false (fun untripped => by cases tripped.symm.trans untripped) stuck
    | skipped untripped infra => cases tripped.symm.trans untripped
    | passed untripped counts quiet => cases tripped.symm.trans untripped
    | trips untripped counts repeats evidence replacement => cases tripped.symm.trans untripped
  rw [cleared, clears, holds.calls]
  constructor
  · exact fun ⟨advances, differs⟩ => ⟨advances, before, tripping, rfl, differs⟩
  · rintro ⟨advances, before', tripping', same, differs⟩
    obtain ⟨rfl, rfl⟩ := List.cons_eq_cons.mp same
    exact ⟨advances, differs⟩

/-- Every verdict rests on the evidence, but where a text differs only in halves of pairs. -/
theorem restsOnEvidence_iff (separates : Function.Injective host.sha1Hex) (history : List Observation)
    (latest : Observation) : RestsOnEvidence host config history latest ↔ ¬ Blurs host config history latest := by
  constructor
  · rintro holds ⟨tripped, advances, before, tripping, calls, differs, same⟩
    have cleared := (holds.clears tripped).mpr ⟨advances, before, tripping, calls, differs⟩
    rw [isTripped_eq] at tripped
    rw [isTripped_eq, ownCalls_cons, clears_iff separates tripped] at cleared
    obtain ⟨_, before', tripping', calls', differs'⟩ := cleared
    obtain ⟨rfl, rfl⟩ := List.cons_eq_cons.mp (calls.symm.trans calls')
    exact differs' same
  · intro sharp
    constructor
    · intro other same
      rw [verdictOn_eq, verdictOn_eq, same]
    · intro tool foreign
      rw [getState_statesAfter, getState_statesAfter, ownCalls, List.filter_cons_of_neg (by simpa using foreign.symm)]
      rfl
    · rw [isTripped_eq, ownCalls_cons, verdictOn_eq]
      exact (observed host config _ latest).verdict
    · intro untripped
      rw [isTripped_eq] at untripped
      rw [isTripped_eq, ownCalls_cons, trips_iff untripped]
    · intro several some untripped
      rw [isTripped_eq] at untripped
      rw [isTripped_eq, ownCalls_cons, trips_iff untripped]
      cases infra : latest.2.infraError with
      | true =>
          rw [stuck_infra untripped infra]
          simp [not_stuck several some untripped]
      | false => simp
    · intro tripped
      rw [isTripped_eq] at tripped
      rw [isTripped_eq, ownCalls_cons, clears_iff separates tripped]
      refine and_congr_right fun advances => ?_
      constructor
      · rintro ⟨before, tripping, calls, differs⟩
        exact ⟨before, tripping, calls, fun same => differs (congrArg Utf16.scalars same)⟩
      · rintro ⟨before, tripping, calls, differs⟩
        exact ⟨before, tripping, calls, fun same =>
          sharp ⟨by rwa [isTripped_eq], advances, before, tripping, calls, differs, same⟩⟩
    · intro tool untripped
      rw [isTripped_eq] at untripped
      have holds := (agrees _).untripped untripped
      rw [getState_statesAfter]
      exact ⟨holds.content, holds.count, holds.input⟩

end Verdicts

/-- Two lines of a table that no other character shares. -/
def spellToken : Utf16.Token → List Char
  | .single unit => [Char.ofNat (65536 + unit.toNat)]
  | .pair lead trail => [Char.ofNat (131072 + lead.toNat), Char.ofNat (131072 + trail.toNat)]

/-- A hash that tells all texts apart. -/
def spell (characters : List Utf16.Token) : String := String.ofList (characters.flatMap spellToken)

theorem ofNat_inj {first second : Nat} (low : 65536 ≤ first ∧ first < 262144)
    (low' : 65536 ≤ second ∧ second < 262144) (same : Char.ofNat first = Char.ofNat second) : first = second := by
  have value {place : Nat} (inside : 65536 ≤ place ∧ place < 262144) : (Char.ofNat place).toNat = place := by
    have valid : place.isValidChar := .inr ⟨by omega, by omega⟩
    rw [Char.ofNat, dif_pos valid]
    rfl
  rw [← value low, same, value low']

theorem spellToken_inj {token other : Utf16.Token} {rest rest' : List Char}
    (same : spellToken token ++ rest = spellToken other ++ rest') : token = other ∧ rest = rest' := by
  have bound (unit : UInt16) : unit.toNat < 65536 := unit.toNat_lt
  cases token with
  | single unit =>
      cases other with
      | single unit' =>
          obtain ⟨first, rest⟩ := List.cons_eq_cons.mp same
          have equal := ofNat_inj (by have := bound unit; omega) (by have := bound unit'; omega) first
          rw [UInt16.toNat_inj.mp (Nat.add_left_cancel equal)]
          exact ⟨rfl, rest⟩
      | pair lead trail =>
          have equal := ofNat_inj (by have := bound unit; omega) (by have := bound lead; omega)
            (List.cons_eq_cons.mp same).1
          have := bound unit
          omega
  | pair lead trail =>
      cases other with
      | single unit =>
          have equal := ofNat_inj (by have := bound lead; omega) (by have := bound unit; omega)
            (List.cons_eq_cons.mp same).1
          have := bound unit
          omega
      | pair lead' trail' =>
          obtain ⟨first, later⟩ := List.cons_eq_cons.mp same
          obtain ⟨second, rest⟩ := List.cons_eq_cons.mp later
          have equal := ofNat_inj (by have := bound lead; omega) (by have := bound lead'; omega) first
          have equal' := ofNat_inj (by have := bound trail; omega) (by have := bound trail'; omega) second
          rw [UInt16.toNat_inj.mp (Nat.add_left_cancel equal), UInt16.toNat_inj.mp (Nat.add_left_cancel equal')]
          exact ⟨rfl, rest⟩

theorem spell_injective : Function.Injective spell := by
  intro first second same
  have same := String.ofList_injective same
  induction first generalizing second with
  | nil =>
      cases second with
      | nil => rfl
      | cons token rest => cases token <;> simp [spellToken] at same
  | cons token rest ih =>
      cases second with
      | nil => cases token <;> simp [spellToken] at same
      | cons other rest' =>
          rw [List.flatMap_cons, List.flatMap_cons] at same
          obtain ⟨rfl, later⟩ := spellToken_inj same
          rw [ih (congrArg String.ofList later) later]

def plainHost : SupervisorHost where
  toLowerCase := id
  sha1Hex := spell

def status : ToolCall := ⟨"call", Utf16.ofString "status", ⟨.object [], .object List.nodup_nil nofun⟩⟩

def answer (text : Utf16) : Observation := (status, { content := textContent text })

def pending : Observation := answer (Utf16.ofString "pending")

def done : Observation := answer (Utf16.ofString "done")

/-- A tool that answered the same three times advances with another answer. -/
theorem restsOnEvidence_done : isTripped plainHost {} (List.replicate 3 pending) done.1.name = true ∧
    RestsOnEvidence plainHost {} (List.replicate 3 pending) done := by
  refine ⟨by decide +kernel, (restsOnEvidence_iff spell_injective _ _).mpr ?_⟩
  rintro ⟨tripped, advances, before, tripping, calls, differs, same⟩
  have first : tripping = pending := (List.cons_eq_cons.mp calls).1.symm
  rw [first] at same
  exact absurd same (by decide +kernel)

/-- Two answers of half a pair are told apart by their text, but not by its hash. -/
theorem half_pair_stays_tripped : ¬ ∀ (host : SupervisorHost) (config : SupervisorConfig),
    Function.Injective host.sha1Hex → ∀ history latest, RestsOnEvidence host config history latest := by
  intro all
  have rests := all plainHost {} spell_injective (List.replicate 3 (answer [55357])) (answer [55356])
  have cleared := (rests.clears (by decide +kernel)).mpr
    ⟨by decide, List.replicate 2 (answer [55357]), answer [55357], rfl, by decide⟩
  exact absurd cleared (by decide +kernel)

end NimbleBrain.Engine.Supervisor
