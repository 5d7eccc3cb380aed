import NimbleBrain.Tasks.Run

/- A schedule says when a task runs unattended. Moments are counted in milliseconds. -/

namespace NimbleBrain.Scheduler

open Tasks

inductive ScheduleType where
  | cron | interval | event | once
  deriving DecidableEq

/-- A timestamp names one moment. Two spellings of a moment are different values. -/
structure OnceTime where
  text : String
  time : Nat
  deriving DecidableEq

/-- The fields of every type stand side by side. -/
structure ScheduleSpec where
  type : ScheduleType
  expression : Option String := none
  timezone : Option String := none
  onceAt : Option OnceTime := none
  intervalMs : Option Nat := none
  deriving DecidableEq

inductive BudgetPeriod where
  | daily | monthly
  deriving DecidableEq

structure TokenBudget where
  maxInputTokens : Option Nat := none
  maxOutputTokens : Option Nat := none
  period : Option BudgetPeriod := none
  deriving DecidableEq

inductive OnceOutcome where
  | ran | missed
  deriving DecidableEq

structure OnceDone where
  settledAt : Nat
  outcome : OnceOutcome
  deriving DecidableEq

/-- The mark of a scheduled run that has started and is not recorded. -/
structure ScheduledRunInFlight where
  runId : RunId
  startedAt : Nat
  onceAt : Option OnceTime := none
  deriving DecidableEq

/-- The task as its file holds it. An absent count is zero. -/
structure Task where
  schedule : Option ScheduleSpec := none
  enabled : Bool := true
  nextRunAt : Option Nat := none
  lastRunAt : Option Nat := none
  runCount : Nat := 0
  consecutiveErrors : Nat := 0
  transientErrors : Nat := 0
  failureNoticeRunId : Option RunId := none
  cumulativeInputTokens : Nat := 0
  cumulativeOutputTokens : Nat := 0
  tokenBudget : Option TokenBudget := none
  budgetResetAt : Option Nat := none
  onceDone : Option OnceDone := none
  scheduledRunInFlight : Option ScheduledRunInFlight := none
  deriving DecidableEq

/-- The calendar answers for the cron library and for the timezones. A cron it cannot place throws. -/
structure Calendar where
  nextRun : String → Option String → Nat → Except Unit (Option Nat)
  isOccurrence : String → Option String → Nat → Bool
  resetAt : BudgetPeriod → Nat → Nat
  knownTimezone : String → Bool

/-- A calendar for schedules without crons. -/
def plainCalendar : Calendar where
  nextRun _ _ _ := .ok none
  isOccurrence _ _ _ := false
  resetAt _ now := now
  knownTimezone _ := true

def isEventSchedule (schedule : Option ScheduleSpec) : Bool := schedule.any fun spec => spec.type = .event

def isOnceSchedule (schedule : Option ScheduleSpec) : Bool := schedule.any fun spec => spec.type = .once

/-- An old schedule of another type may still carry a time. -/
def Task.scheduleAt (task : Task) : Option OnceTime := task.schedule.bind ScheduleSpec.onceAt

def onceRetirement (task : Task) : Option OnceOutcome :=
  if isOnceSchedule task.schedule then task.onceDone.map OnceDone.outcome else none

/-- A task is scheduled once at a time when its schedule has the type and names the time. -/
def Task.OnceAt (task : Task) (time : OnceTime) : Prop :=
  isOnceSchedule task.schedule = true ∧ task.scheduleAt = some time

instance (task : Task) (time : OnceTime) : Decidable (task.OnceAt time) :=
  inferInstanceAs (Decidable (_ ∧ _))

variable {task : Task} {time : OnceTime}

theorem Task.onceAt_iff :
    task.OnceAt time ↔
      ∃ spec, task.schedule = some spec ∧ spec.type = .once ∧ spec.onceAt = some time := by
  cases scheduled : task.schedule with
  | none => simp [OnceAt, isOnceSchedule, scheduled]
  | some spec => simp [OnceAt, isOnceSchedule, scheduleAt, scheduled]

theorem Task.OnceAt.congr {other : Task} (once : task.OnceAt time) (same : other.schedule = task.schedule) :
    other.OnceAt time := by
  simpa [OnceAt, scheduleAt, same] using once

variable (calendar : Calendar)

/-- A once schedule names its one moment, fired or not. -/
def computeNextRunAt (task : Task) (now : Nat) : Except Unit (Option Nat) :=
  match task.schedule with
  | none => .ok none
  | some schedule =>
      match schedule.type with
      | .event => .ok none
      | .cron =>
          match schedule.expression with
          | none => .ok none
          | some expression =>
              if expression = "" then .ok none
              else calendar.nextRun expression schedule.timezone now
      | .once => .ok (schedule.onceAt.map OnceTime.time)
      | .interval =>
          match schedule.intervalMs with
          | none => .ok none
          | some intervalMs =>
              if intervalMs = 0 then .ok none
              else .ok (some (task.lastRunAt.elim now fun last => last + intervalMs))

def setNextRunAt (task : Task) (nextRun : Option Nat) : Task := { task with nextRunAt := nextRun }

/-- A schedule that cannot be placed in time counts as one without a next run. -/
def nextRunOrNone (task : Task) (now : Nat) : Option Nat :=
  match computeNextRunAt calendar task now with
  | .ok next => next
  | .error _ => none

/-- The stored moment is one that the cron really fires at. -/
def isPendingOccurrence (task : Task) : Bool :=
  match task.schedule, task.nextRunAt with
  | some schedule, some nextRunAt =>
      schedule.type = .cron && schedule.expression.any fun expression =>
        expression != "" && calendar.isOccurrence expression schedule.timezone nextRunAt
  | _, _ => false

/-- Only an interval is due before it has a next run. -/
def dueWithoutNextRunAt (task : Task) : Bool := task.schedule.any fun spec => spec.type = .interval

def isDue (task : Task) (now : Nat) : Bool :=
  task.enabled && task.schedule.isSome && !isEventSchedule task.schedule &&
    task.nextRunAt.elim (dueWithoutNextRunAt task) fun next => decide (next ≤ now)

def isInBackoff (task : Task) (now : Nat) : Bool :=
  decide (0 < task.consecutiveErrors) && task.nextRunAt.any fun next => decide (now < next)

theorem once_nextRun (once : task.OnceAt time) (now : Nat) :
    computeNextRunAt calendar task now = .ok (some time.time) := by
  obtain ⟨spec, scheduled, kind, named⟩ := Task.onceAt_iff.mp once
  simp [computeNextRunAt, scheduled, kind, named]

theorem once_nextRunOrNone (once : task.OnceAt time) (now : Nat) :
    nextRunOrNone calendar task now = some time.time := by
  rw [nextRunOrNone, once_nextRun calendar once]

/-- A once task is due when it is enabled and its next run has come. -/
theorem OnceAt.due (once : task.OnceAt time) {now : Nat} (due : isDue task now = true) :
    task.enabled = true ∧ ∃ next, task.nextRunAt = some next ∧ next ≤ now := by
  obtain ⟨spec, scheduled, kind, -⟩ := Task.onceAt_iff.mp once
  cases stored : task.nextRunAt with
  | none => simp [isDue, stored, dueWithoutNextRunAt, scheduled, kind] at due
  | some next =>
      simp only [isDue, stored, Option.elim_some, Bool.and_eq_true, decide_eq_true_eq] at due
      exact ⟨due.1.1.1, next, rfl, due.2⟩

end NimbleBrain.Scheduler
