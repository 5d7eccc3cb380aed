import Mathlib.Data.Rat.Defs

/- A run record states how one run of a task ended. -/

namespace NimbleBrain.Tasks

/-- The number stands for the random part of a run identifier. -/
abbrev RunId := Nat

inductive RunStatus where
  | queued | running | success | degraded | failure | timeout | cancelled | skipped
  deriving DecidableEq

inductive RunExecution where
  | queued | running | skipped | cancelled | completed | incomplete | failed
  deriving DecidableEq

inductive StopReason where
  | complete | maxIterations | maxInputTokens | spendLimit | length | contentFilter | error | other
  deriving DecidableEq

inductive AssessmentVerdict where
  | pass | fail | uncertain | notAssessed
  deriving DecidableEq

inductive TaskRunTrigger where
  | scheduled | manual | event
  deriving DecidableEq

/-- A person's verdict stands beside the judge's. -/
structure RunAssessment where
  verdict : AssessmentVerdict
  human : Option AssessmentVerdict := none
  deriving DecidableEq

structure TaskRun where
  id : RunId
  startedAt : Nat := 0
  completedAt : Option Nat := none
  status : RunStatus
  inputTokens : Nat := 0
  outputTokens : Nat := 0
  error : Option String := none
  transient : Bool := false
  trigger : Option TaskRunTrigger := none
  resultPreview : Option String := none
  stopReason : Option StopReason := none
  spendAccountId : Option String := none
  unrecoveredToolFailures : List String := []
  assessment : Option RunAssessment := none
  batchId : Option String := none
  batchIndex : Option Nat := none
  costUsd : Option ℚ := none
  deriving DecidableEq

/-- These limits end a run that may still leave a deliverable. -/
def limitStops : List StopReason := [.maxIterations, .maxInputTokens, .spendLimit, .length]

/-- An empty preview counts as none. -/
def TaskRun.hasPreview (run : TaskRun) : Bool := run.resultPreview.any fun preview => preview != ""

def executionOf (run : TaskRun) : RunExecution :=
  match run.status with
  | .queued => .queued
  | .running => .running
  | .skipped => .skipped
  | .cancelled => .cancelled
  | .success => .completed
  | .degraded => .completed
  | .timeout => if run.hasPreview then .incomplete else .failed
  | .failure =>
      if run.stopReason.any (limitStops.contains ·) && run.hasPreview then .incomplete else .failed

def isAssessable (run : TaskRun) : Bool :=
  executionOf run = .completed || executionOf run = .incomplete

/-- A person's verdict replaces the judge's. -/
def effectiveVerdict (assessment : RunAssessment) : AssessmentVerdict :=
  assessment.human.getD assessment.verdict

/-- An open run is queued or running. -/
def isOpenRun (run : TaskRun) : Bool := run.status = .queued || run.status = .running

end NimbleBrain.Tasks
