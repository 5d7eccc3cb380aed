import NimbleBrain.Scheduler.Store

/- A person creates, edits and deletes a task. A refused edit writes nothing. -/

namespace NimbleBrain.Scheduler

/-- Why a create or an edit was refused. -/
inductive TaskError where
  | alreadyExists
  | noTask
  | atRequired
  | atPassed
  | unknownTimezone
  | intervalRequired
  | intervalTooShort
  | expressionRequired
  | invalidCron
  | noFutureDate
  | onceNotArmable
  deriving DecidableEq

/-- An absent field keeps the stored value. A null one removes it. -/
abbrev PatchField (α : Type) := Option (Option α)

/-- The last field stands for every field that the scheduler does not read. -/
structure UpdatePatch where
  schedule : PatchField ScheduleSpec := none
  enabled : Option Bool := none
  tokenBudget : PatchField TokenBudget := none
  otherFields : Bool := false
  deriving DecidableEq

structure CreateInput where
  schedule : Option ScheduleSpec := none
  enabled : Option Bool := none
  tokenBudget : Option TokenBudget := none
  deriving DecidableEq

variable (calendar : Calendar)

/-- A once time lies in the future. -/
def validateOnceSchedule (schedule : ScheduleSpec) (now : Nat) : Except TaskError Unit :=
  match schedule.onceAt with
  | none => .error .atRequired
  | some at' =>
      if at'.time ≤ now then .error .atPassed
      else if schedule.timezone.any fun zone => !calendar.knownTimezone zone then .error .unknownTimezone
      else .ok ()

def validateCronExpression (expression : String) (timezone : Option String) (now : Nat) :
    Except TaskError Unit :=
  match calendar.nextRun expression timezone now with
  | .error _ => .error .invalidCron
  | .ok none => .error .noFutureDate
  | .ok (some _) => .ok ()

def validateSchedule (schedule : ScheduleSpec) (now : Nat) : Except TaskError Unit :=
  match schedule.type with
  | .once => validateOnceSchedule calendar schedule now
  | .event => .ok ()
  | .interval =>
      match schedule.intervalMs with
      | none => .error .intervalRequired
      | some intervalMs => if intervalMs < 60000 then .error .intervalTooShort else .ok ()
  | .cron =>
      match schedule.expression with
      | none => .error .expressionRequired
      | some expression =>
          if expression = "" then .error .expressionRequired
          else validateCronExpression calendar expression schedule.timezone now

def budgetResetBoundary (task : Task) (now : Nat) : Option Nat :=
  (task.tokenBudget.bind TokenBudget.period).map fun period => calendar.resetAt period now

/-- A changed budget opens a fresh window. -/
def resetBudgetWindowIfChanged (task : Task) (prev next : Option TokenBudget) (now : Nat) : Task :=
  if next.isNone ∨ prev = next then task
  else { task with
    cumulativeInputTokens := 0
    cumulativeOutputTokens := 0
    budgetResetAt := budgetResetBoundary calendar task now }

def createTask (defs : Option Task) (input : CreateInput) (now : Nat) : Except TaskError Task :=
  if defs.isSome then .error .alreadyExists
  else
    let task : Task := {
      schedule := input.schedule
      enabled := input.enabled.getD true
      tokenBudget := input.tokenBudget }
    match computeNextRunAt calendar task now with
    | .error _ => .error .invalidCron
    | .ok next =>
        let placed := { task with nextRunAt := next }
        .ok { placed with budgetResetAt := budgetResetBoundary calendar placed now }

def applyPatchFields (task : Task) (patch : UpdatePatch) : Task :=
  { task with
    schedule := patch.schedule.getD task.schedule
    enabled := patch.enabled.getD task.enabled
    tokenBudget := patch.tokenBudget.getD task.tokenBudget
    budgetResetAt := if patch.tokenBudget = some none then none else task.budgetResetAt }

def UpdatePatch.changes (patch : UpdatePatch) : Bool :=
  patch.schedule.isSome || patch.enabled.isSome || patch.tokenBudget.isSome || patch.otherFields

/-- The task is on again, with no failing streak behind it. -/
def enableAgain (task : Task) : Task :=
  { task with enabled := true, consecutiveErrors := 0, transientErrors := 0, failureNoticeRunId := none }

/-- A new once time arms a retired once. -/
def applyOnceRearm (task : Task) (patch : UpdatePatch) (wasRetiredOnce : Bool) : Task :=
  let cleared := if patch.schedule.isSome then { task with onceDone := none } else task
  if !wasRetiredOnce || !isOnceSchedule patch.schedule.join || patch.enabled = some false then cleared
  else enableAgain cleared

/-- A once whose time has passed is not armed. -/
def assertOnceArmable (task : Task) (patch : UpdatePatch) (wasEnabled : Bool) (now : Nat) :
    Except TaskError Unit :=
  if !task.enabled || !isOnceSchedule task.schedule then .ok ()
  else if wasEnabled && patch.schedule.isNone then .ok ()
  else if task.scheduleAt.any fun at' => decide (now < at'.time) then .ok ()
  else .error .onceNotArmable

/-- A task turned on drops its disable state, and a moment that nothing will act on. -/
def clearDisabled (task : Task) (wasEnabled : Bool) (now : Nat) : Except TaskError Task :=
  let enabled := enableAgain task
  if wasEnabled then .ok enabled
  else match computeNextRunAt calendar enabled now with
    | .error _ => .error .invalidCron
    | .ok none => .ok (setNextRunAt enabled none)
    | .ok (some _) => .ok enabled

def reanchorNextRunAt (task : Task) (now : Nat) : Except TaskError Task :=
  match computeNextRunAt calendar task now with
  | .error _ => .error .invalidCron
  | .ok next => .ok (setNextRunAt task next)

def clearWhenEnabled (task : Task) (patch : UpdatePatch) (wasEnabled : Bool) (now : Nat) :
    Except TaskError Task :=
  if patch.enabled = some true then clearDisabled calendar task wasEnabled now else .ok task

def reanchorWhenScheduled (task : Task) (patch : UpdatePatch) (now : Nat) : Except TaskError Task :=
  if patch.schedule.isSome then reanchorNextRunAt calendar task now else .ok task

/-- The fields of the patch are on the task. -/
def patchTask (task : Task) (patch : UpdatePatch) : Task :=
  applyOnceRearm (applyPatchFields task patch) patch (onceRetirement task).isSome

/-- The edited task, or nothing when the patch changes no field. -/
def updateTask (defs : Option Task) (patch : UpdatePatch) (now : Nat) : Except TaskError (Option Task) :=
  match defs with
  | none => .error .noTask
  | some task => do
      assertOnceArmable (patchTask task patch) patch task.enabled now
      let cleared ← clearWhenEnabled calendar (patchTask task patch) patch task.enabled now
      if patch.changes then
        let anchored ← reanchorWhenScheduled calendar cleared patch now
        pure (some (resetBudgetWindowIfChanged calendar anchored task.tokenBudget patch.tokenBudget.join now))
      else pure none

/-- A null schedule has nothing to validate. -/
def validatePatch (schedule : Option ScheduleSpec) (now : Nat) : Except TaskError Unit :=
  schedule.elim (.ok ()) fun spec => validateSchedule calendar spec now

def handleCreate (defs : Option Task) (input : CreateInput) (now : Nat) : Except TaskError Task := do
  validatePatch calendar input.schedule now
  createTask calendar defs input now

def handleUpdate (defs : Option Task) (patch : UpdatePatch) (now : Nat) :
    Except TaskError (Option Task) := do
  validatePatch calendar patch.schedule.join now
  updateTask calendar defs patch now

theorem ok_of_bind {ε α β : Type} {first : Except ε α} {next : α → Except ε β} {result : β}
    (ok : (first >>= next) = .ok result) : ∃ value, first = .ok value ∧ next value = .ok result := by
  cases first with
  | error _ => cases ok
  | ok value => exact ⟨value, rfl, ok⟩

end NimbleBrain.Scheduler
