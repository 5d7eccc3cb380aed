import NimbleBrain.Engine.SkillRuns

/- The guidance of a skill is delivered once in a run. -/

namespace NimbleBrain.Engine

open Library
open Conversation (textLength)

namespace SkillDelivery

/-- A hold leaves out only bodies whose claims no settle has taken. -/
def LeavesOutUntaken (delivery : SkillDelivery) : SkillStep → Prop
  | .resumeHold place => ∀ waiting ∈ delivery.holds[place]?,
      leavesOutTaken waiting.call.name waiting.claims
        { delivery with holds := delivery.holds.eraseIdx place } {} = false
  | _ => True

instance (delivery : SkillDelivery) : (step : SkillStep) → Decidable (delivery.LeavesOutUntaken step)
  | .resumeHold place => inferInstanceAs (Decidable (∀ waiting ∈ delivery.holds[place]?,
      leavesOutTaken waiting.call.name waiting.claims
        { delivery with holds := delivery.holds.eraseIdx place } {} = false))
  | .hold .. | .bodyArrives .. | .abortHold .. | .claimFor .. | .settle | .resumeSettle .. | .activated ..
  | .renamedPastHold .. => .isTrue trivial

/-- What a run promises of the guidance it delivers. -/
structure DeliversOnce (delivered : List String) (delivery : SkillDelivery) : Prop where
  injectedOnce : ∀ name : String, delivery.injectedNames.count name ≤ 1
  notAgain : ∀ name ∈ delivery.injectedNames, name ∉ delivered ∧ name ∉ delivery.activations
  heldOnce : ∀ name : String, delivery.holdsStarted.count name ≤ 1
  answered : ∀ answer ∈ delivery.answers, answer.delivered ≠ [] ∧ ∀ named ∈ answer.delivered, delivery.Keeps named ∧
    (named.2 ∈ delivery.pending ∨ (named.2, ClaimEnd.injected) ∈ delivery.ends ∧ named.1 ∈ delivery.injectedNames)
  endsOnce : ∀ id < delivery.claims.length, delivery.timesEnded id + delivery.pending.count id = 1
  settled : delivery.fetches = [] → delivery.settles = [] →
    ∀ id < delivery.claims.length, delivery.timesEnded id = 1

variable {toolMatches : String → String → Bool} {candidates : List ConnectorSkillCandidate}
  {delivered : List String} {delivery : SkillDelivery}

theorem Sound.start (delivered : List String) : Sound delivered { injected := delivered } where
  conserved _ := rfl
  distinct _ among := nomatch among
  listed _ among := nomatch among
  live _ among := nomatch among
  closed name among := by simpa [closedNames, injectedNames] using among
  once := List.nodup_nil
  apart _ among := nomatch among
  emitted _ among := nomatch among
  endings _ _ among := nomatch among
  kept _ _ found := nomatch found
  queuedNames _ among := nomatch among
  holdNames _ among := nomatch among
  startedOnce := List.nodup_nil
  started _ among := nomatch among
  answered _ among := nomatch among

theorem Sound.step {step : SkillStep} {next : SkillDelivery} (sound : delivery.Sound delivered)
    (met : delivery.LeavesOutUntaken step)
    (stepped : (skillSystem toolMatches candidates delivered).step delivery step = some next) :
    next.Sound delivered := by
  cases step with
  | hold call readOnly => exact Option.some.inj stepped ▸ sound.hold toolMatches candidates call readOnly
  | bodyArrives id body => exact sound.bodyArrives stepped
  | resumeHold place =>
      cases found : delivery.holds[place]? with
      | none =>
          change delivery.resumeHold place = some next at stepped
          rw [SkillDelivery.resumeHold, found] at stepped
          cases stepped
      | some waiting => exact sound.resumeHold found (met waiting found) stepped
  | abortHold place => exact sound.abortHold stepped
  | claimFor toolName => exact Option.some.inj stepped ▸ sound.claimFor toolMatches candidates toolName
  | settle => exact Option.some.inj stepped ▸ sound.settle
  | resumeSettle place => exact sound.resumeSettle stepped
  | activated name => exact Option.some.inj stepped ▸ sound.activated name
  | renamedPastHold toolName readOnly =>
      exact Option.some.inj stepped ▸ sound.renamedPastHold toolMatches candidates toolName readOnly

theorem Sound.of_reached
    (reached : (skillSystem toolMatches candidates delivered).ReachedBy LeavesOutUntaken delivery) :
    delivery.Sound delivered := by
  apply reached.invariant (Sound delivered)
  · intro state first
    obtain rfl := first
    exact .start delivered
  · exact fun before step after sound met stepped => sound.step met stepped

/-- Guidance is delivered once in every run whose holds leave out only what no settle has taken. -/
theorem guidance_delivered_once
    (reached : (skillSystem toolMatches candidates delivered).ReachedBy LeavesOutUntaken delivery) :
    delivery.DeliversOnce delivered := by
  have sound := Sound.of_reached reached
  have endsOnce : ∀ id < delivery.claims.length, delivery.timesEnded id + delivery.pending.count id = 1 := by
    intro id within
    exact (sound.conserved id).trans (if_pos within)
  constructor
  · exact List.nodup_iff_count_le_one.mp sound.once
  · intro name emitted
    have outside := sound.apart name emitted
    simp only [List.mem_append, not_or] at outside
    exact ⟨outside.1.1, outside.1.2⟩
  · exact List.nodup_iff_count_le_one.mp sound.startedOnce
  · intro answer listed
    obtain ⟨some', keeps⟩ := sound.answered answer listed
    refine ⟨some', fun named among => ⟨keeps named among, ?_⟩⟩
    obtain ⟨names, pending, found, kept⟩ := keeps named among
    rcases sound.kept_emitted found kept with waits | ended
    · exact .inl waits
    · exact .inr ⟨ended, sound.emitted named.2 ended named.1 names⟩
  · exact endsOnce
  · intro noFetches noSettles id within
    have total := endsOnce id within
    rw [SkillDelivery.pending, noFetches, noSettles] at total
    exact total

/-- Two skills of different tools share a second tool. -/
def sharedCandidates : List ConnectorSkillCandidate :=
  [{ name := "k", toolAffinity := ["t1"], loadsBody := true, priority := some 1 },
    { name := "x", toolAffinity := ["t0", "t1"], loadsBody := true }]

def sameTool (toolName pattern : String) : Bool := toolName = pattern

/-- A call waits for two bodies and is held. A settle then emits both. -/
def heldRun : List SkillStep :=
  [.claimFor "t0", .hold ⟨"c1", "t1"⟩ false, .bodyArrives 0 (some "b"), .bodyArrives 1 (some "a"), .resumeHold 0,
    .settle, .resumeSettle 0, .resumeSettle 0]

theorem guidance_delivered_once_held :
    ∃ delivery, (skillSystem sameTool sharedCandidates []).run { injected := [] } heldRun = some delivery ∧
      delivery.answers = [{ call := ⟨"c1", "t1"⟩, delivered := [("k", 1), ("x", 0)], left := [] }] ∧
      delivery.DeliversOnce [] := by
  have reached : (skillSystem sameTool sharedCandidates []).ReachedBy LeavesOutUntaken { injected := [] } :=
    .start _ rfl
  have meets : (skillSystem sameTool sharedCandidates []).Meets LeavesOutUntaken { injected := [] } heldRun := by
    decide +kernel
  obtain ⟨delivery, ran⟩ : ∃ delivery,
    (skillSystem sameTool sharedCandidates []).run { injected := [] } heldRun = some delivery := ⟨_, rfl⟩
  have answers : ((skillSystem sameTool sharedCandidates []).run { injected := [] } heldRun).all fun delivery =>
      decide (delivery.answers = [{ call := ⟨"c1", "t1"⟩, delivered := [("k", 1), ("x", 0)], left := [] }]) := by
    decide +kernel
  rw [ran, Option.all_some, decide_eq_true_eq] at answers
  exact ⟨delivery, ran, answers, guidance_delivered_once (reached.run meets ran)⟩

/-- A call joined a claim that a settle had taken, and the settle emitted it before the call resumes. -/
def settledState (long : String) : SkillDelivery where
  injected := ["k", "x"]
  queued := (∅ : OrderedMap String ClaimId).set "k" 1
  fetches := [1]
  held := ["k"]
  claims :=
    [{ toolName := "t0", skillName := "x", scope := "connector", priority := 50, body := some (some "b") },
      { toolName := "t1", skillName := "k", scope := "connector", heldToolCallId := some "c1", priority := 1,
        body := some (some long) }]
  holds := [{ call := ⟨"c1", "t1"⟩, claims := [("k", 1), ("x", 0)] }]
  events := [.injected { toolName := "t0", skillName := "x", scope := "connector", heldToolCallId := none,
                         skillBody := "b" }]
  ends := [(0, .injected)]
  holdsStarted := ["k"]

theorem settledRun_before (long : String) :
    (skillSystem sameTool sharedCandidates []).run { injected := [] }
      [.claimFor "t0", .settle, .hold ⟨"c1", "t1"⟩ false, .bodyArrives 0 (some "b"), .resumeSettle 0,
        .bodyArrives 1 (some long)] = some (settledState long) := rfl

theorem settledState_resumes {long : String} (large : textLength long = maxHeldGuidanceChars) :
    ((settledState long).resumeHold 0).map SkillDelivery.ends = some [(0, .injected), (0, .capped)] := by
  have short : 0 < textLength "b" := by decide
  simp [settledState, resumeHold, countHold, SkillDelivery.arrived, leaveOut, changeClaim, finishClaim, emit, large,
    short]

/-- The hold leaves out a body that a settle has emitted, and its claim ends twice. -/
theorem hold_leaves_out_emitted :
    ∃ delivery, (skillSystem sameTool sharedCandidates []).Reachable delivery ∧
      delivery.ends = [(0, .injected), (0, .capped)] ∧ delivery.timesEnded 0 = 2 := by
  obtain ⟨long, large⟩ : ∃ long : String, textLength long = maxHeldGuidanceChars :=
    ⟨String.ofList (List.replicate maxHeldGuidanceChars 'a'), by simp [textLength, Conversation.units]⟩
  obtain ⟨delivery, resumed, ends⟩ := Option.map_eq_some_iff.mp (settledState_resumes large)
  have reached : (skillSystem sameTool sharedCandidates []).Reachable (settledState long) :=
    System.Reachable.run (.start _ rfl) (settledRun_before long)
  refine ⟨delivery, .next _ _ (.resumeHold 0) reached trivial resumed, ends, ?_⟩
  rw [timesEnded, ends]
  rfl

end SkillDelivery

end NimbleBrain.Engine
