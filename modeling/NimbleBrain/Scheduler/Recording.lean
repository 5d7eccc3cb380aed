import NimbleBrain.Library.Writes
import NimbleBrain.Scheduler.Schedule

/- A recorded run updates its task: the counts, the failing streak, the schedule and the token budget. -/

namespace NimbleBrain.Scheduler

open Tasks

def backoffDelays : List Nat := [30000, 60000, 300000, 900000, 3600000]

def maxConsecutiveErrors : Nat := 10

def maxConsecutiveTransientErrors : Nat := 100

def backoffDelay (consecutiveErrors : Nat) : Nat :=
  if consecutiveErrors = 0 then 0
  else backoffDelays.getD (min (consecutiveErrors - 1) (backoffDelays.length - 1)) 0

inductive ErrorCode where
  | membershipRevoked | declaredToolsUnavailable | declaredSkillsUnavailable
  | agentConnectionLost | runDurationExceeded
  deriving DecidableEq

/-- What a run threw. A retryable error looks temporary, by its type or by its text. -/
structure ThrownError where
  aborted : Bool := false
  code : Option ErrorCode := none
  message : String := ""
  retryable : Bool := false
  deriving DecidableEq

structure RunFailure where
  status : RunStatus
  error : String
  transient : Bool
  deriving DecidableEq

def classifyRunFailure (thrown : ThrownError) : RunFailure :=
  if thrown.aborted then ⟨.cancelled, "Cancelled by user", false⟩
  else match thrown.code with
    | some .membershipRevoked => ⟨.skipped, thrown.message, false⟩
    | some .declaredToolsUnavailable => ⟨.failure, thrown.message, false⟩
    | some .declaredSkillsUnavailable => ⟨.failure, thrown.message, false⟩
    | some .agentConnectionLost => ⟨.failure, thrown.message, true⟩
    | some .runDurationExceeded => ⟨.timeout, thrown.message, false⟩
    | none =>
        if 1 < (thrown.message.splitOn "timed out").length then
          ⟨.timeout, thrown.message, thrown.retryable⟩
        else ⟨.failure, thrown.message, thrown.retryable⟩

/-- The run failed or timed out. -/
def countsAsError (run : TaskRun) : Bool := run.status = .failure || run.status = .timeout

/-- A transient error counts toward the larger limit only. -/
def streakReached (consecutiveErrors transientErrors : Nat) : Bool :=
  decide (maxConsecutiveErrors ≤ consecutiveErrors - transientErrors) ||
    decide (maxConsecutiveTransientErrors ≤ consecutiveErrors)

def applyConsecutiveErrors (task : Task) (run : TaskRun) : Task :=
  if run.status = .success ∨ run.status = .degraded then
    { task with consecutiveErrors := 0, transientErrors := 0, failureNoticeRunId := none }
  else if countsAsError run then
    let consecutiveErrors := task.consecutiveErrors + 1
    let transientErrors := task.transientErrors + if run.transient then 1 else 0
    { task with
      consecutiveErrors := consecutiveErrors
      transientErrors := transientErrors
      enabled := task.enabled && !streakReached consecutiveErrors transientErrors }
  else task

/-- A notice says whether the failure disabled the task. -/
structure RunFailedNotice where
  disabled : Bool
  deriving DecidableEq

/-- The run is the first of its failing stretch without a deliverable. -/
def isFirstFailed (task : Task) (run : TaskRun) : Bool :=
  decide (executionOf run = .failed) && task.failureNoticeRunId.isNone

/-- A failing stretch raises one notice. A run that disables its task raises one too. -/
def applyStreak (task : Task) (run : TaskRun) : Task × Option RunFailedNotice :=
  if run.batchId.isSome then (task, none)
  else
    let after := applyConsecutiveErrors task run
    let disabled := task.enabled && !after.enabled
    let first := isFirstFailed after run
    (if first then { after with failureNoticeRunId := some run.id } else after,
      if first || disabled then some ⟨disabled⟩ else none)

/-- A retired once is inert. Its schedule stays. -/
def retireOnce (task : Task) (outcome : OnceOutcome) (settledAt : Nat) : Task :=
  { task with enabled := false, nextRunAt := none, onceDone := some ⟨settledAt, outcome⟩ }

def onceGraceMs : Nat := 3600000

/-- The time of an armed once passed while no process ran. -/
def onceMissedWhileDown (task : Task) (now : Nat) : Bool :=
  task.enabled && task.onceDone.isNone && isOnceSchedule task.schedule &&
    task.scheduleAt.any fun at' => decide (at'.time + onceGraceMs < now)

inductive BudgetWindow where
  | current | elapsed | unseeded | lifetime
  deriving DecidableEq

def budgetWindow (task : Task) (now : Nat) : BudgetWindow :=
  match task.budgetResetAt with
  | some reset => if reset ≤ now then .elapsed else .current
  | none => if (task.tokenBudget.bind TokenBudget.period).isSome then .unseeded else .lifetime

variable (calendar : Calendar)

/-- An error streak pushes the next run out. -/
def applyNextRunAt (task : Task) (now : Nat) : Task :=
  setNextRunAt task <| (nextRunOrNone calendar task now).map fun nextRun =>
    if 0 < task.consecutiveErrors then max (now + backoffDelay task.consecutiveErrors) nextRun else nextRun

/-- A fresh window starts with the run that opens it. -/
def rollBudgetWindow (task : Task) (run : TaskRun) (now : Nat) : Task :=
  match task.tokenBudget with
  | none => task
  | some budget =>
      if budgetWindow task now = .elapsed ∨ budgetWindow task now = .unseeded then
        { task with
          cumulativeInputTokens := run.inputTokens
          cumulativeOutputTokens := run.outputTokens
          budgetResetAt := budget.period.map fun period => calendar.resetAt period now }
      else task

/-- The counters of a window that is over spend nothing. -/
def tokenBudgetExceeded (task : Task) (now : Nat) : Bool :=
  task.tokenBudget.any fun budget =>
    !(task.budgetResetAt.any fun reset => decide (reset ≤ now)) &&
      ((budget.maxInputTokens.any fun cap => decide (cap < task.cumulativeInputTokens)) ||
        budget.maxOutputTokens.any fun cap => decide (cap < task.cumulativeOutputTokens))

def budgetAccountPrefix : String := "task-budget:"

/-- One of the budget's own accounts stopped the run. -/
def isBudgetStop (run : TaskRun) : Bool :=
  decide (run.stopReason = some .spendLimit) &&
    run.spendAccountId.any fun account => budgetAccountPrefix.isPrefixOf account

/-- The run leaves no budget for the window. -/
def budgetSpent (task : Task) (run : TaskRun) (now : Nat) : Bool :=
  task.tokenBudget.isSome &&
    (tokenBudgetExceeded (rollBudgetWindow calendar task run now) now || isBudgetStop run)

def applyTokenBudget (task : Task) (run : TaskRun) (now : Nat) : Task :=
  if task.tokenBudget.isNone then task
  else
    let rolled := rollBudgetWindow calendar task run now
    { rolled with enabled := rolled.enabled && !budgetSpent calendar task run now }

/-- A disabled task whose budget is spent refuses Run now. -/
def runNowBudgetRefusal (task : Task) (now : Nat) : Bool :=
  !task.enabled && tokenBudgetExceeded task now

/-- A run is counted and its mark is cleared. -/
def countRun (task : Task) (run : TaskRun) (dispatchRunId : RunId) : Task :=
  { task with
    scheduledRunInFlight :=
      if task.scheduledRunInFlight.any fun mark => mark.runId = dispatchRunId then none
      else task.scheduledRunInFlight
    lastRunAt := some (run.completedAt.getD run.startedAt)
    runCount := task.runCount + 1
    cumulativeInputTokens := task.cumulativeInputTokens + run.inputTokens
    cumulativeOutputTokens := task.cumulativeOutputTokens + run.outputTokens }

/-- Only the occurrence that the stored schedule still names is retired. -/
def settleSchedule (task : Task) (run : TaskRun) (trigger : Option TaskRunTrigger)
    (firedOnceAt : Option OnceTime) (now : Nat) : Task :=
  if !isOnceSchedule task.schedule then applyNextRunAt calendar task now
  else if (trigger.or run.trigger) = some .scheduled ∧ task.scheduleAt = firedOnceAt then
    retireOnce task .ran run.startedAt
  else task

/-- The stored task once the run is recorded, with the notice to raise. -/
def afterRun (stored : Task) (run : TaskRun) (trigger : Option TaskRunTrigger)
    (firedOnceAt : Option OnceTime) (dispatchRunId : RunId) (now : Nat) : Task × Option RunFailedNotice :=
  let streaked := applyStreak (countRun stored run dispatchRunId) run
  let settled := settleSchedule calendar streaked.1 run trigger firedOnceAt now
  (applyTokenBudget calendar settled run now, streaked.2)

/-- The run ends a failing streak at its limit. -/
def streakDisables (task : Task) (run : TaskRun) : Bool :=
  run.batchId.isNone && countsAsError run &&
    streakReached (task.consecutiveErrors + 1) (task.transientErrors + if run.transient then 1 else 0)

/-- Recording the run turns the task off for its failures or for its budget. -/
def autoDisables (stored : Task) (run : TaskRun) (now : Nat) : Bool :=
  streakDisables stored run || budgetSpent calendar (countRun stored run run.id) run now

theorem countsAsError_ok {run : TaskRun} (fine : run.status = .success ∨ run.status = .degraded) :
    countsAsError run = false := by
  rcases fine with fine | fine <;> simp [countsAsError, fine]

theorem applyStreak_enabled (task : Task) (run : TaskRun) :
    (applyStreak task run).1.enabled = (task.enabled && !streakDisables task run) := by
  unfold applyStreak streakDisables
  cases run.batchId with
  | some _ => simp
  | none =>
      dsimp only
      have kept : (applyConsecutiveErrors task run).enabled = (task.enabled && !(countsAsError run &&
          streakReached (task.consecutiveErrors + 1)
            (task.transientErrors + if run.transient then 1 else 0))) := by
        unfold applyConsecutiveErrors
        split
        · simp [countsAsError_ok ‹_›]
        · split
          · simp [‹countsAsError run = true›]
          · simp [‹¬countsAsError run = true›]
      split <;> split <;> simp_all

/-- Both tasks have the same occurrence ahead, or the same one behind. -/
structure SameOccurrence (task other : Task) : Prop where
  schedule : other.schedule = task.schedule
  nextRunAt : other.nextRunAt = task.nextRunAt
  onceDone : other.onceDone = task.onceDone
  mark : other.scheduledRunInFlight = task.scheduledRunInFlight

/-- Both tasks stand alike in the same budget window. -/
structure SameBudget (task other : Task) : Prop where
  tokenBudget : other.tokenBudget = task.tokenBudget
  inputTokens : other.cumulativeInputTokens = task.cumulativeInputTokens
  outputTokens : other.cumulativeOutputTokens = task.cumulativeOutputTokens
  resetAt : other.budgetResetAt = task.budgetResetAt

theorem applyConsecutiveErrors_occurrence (task : Task) (run : TaskRun) :
    SameOccurrence task (applyConsecutiveErrors task run) := by
  unfold applyConsecutiveErrors
  split_ifs <;> constructor <;> rfl

theorem applyStreak_occurrence (task : Task) (run : TaskRun) :
    SameOccurrence task (applyStreak task run).1 := by
  have errors := applyConsecutiveErrors_occurrence task run
  unfold applyStreak
  split
  · exact ⟨rfl, rfl, rfl, rfl⟩
  · dsimp only
    split
    · exact ⟨errors.schedule, errors.nextRunAt, errors.onceDone, errors.mark⟩
    · exact errors

theorem applyConsecutiveErrors_budget (task : Task) (run : TaskRun) :
    SameBudget task (applyConsecutiveErrors task run) := by
  unfold applyConsecutiveErrors
  split_ifs <;> constructor <;> rfl

theorem applyStreak_budget (task : Task) (run : TaskRun) : SameBudget task (applyStreak task run).1 := by
  have errors := applyConsecutiveErrors_budget task run
  unfold applyStreak
  split
  · exact ⟨rfl, rfl, rfl, rfl⟩
  · dsimp only
    split
    · exact ⟨errors.tokenBudget, errors.inputTokens, errors.outputTokens, errors.resetAt⟩
    · exact errors

theorem rollBudgetWindow_occurrence (task : Task) (run : TaskRun) (now : Nat) :
    SameOccurrence task (rollBudgetWindow calendar task run now) := by
  unfold rollBudgetWindow
  split
  · exact ⟨rfl, rfl, rfl, rfl⟩
  · split_ifs <;> exact ⟨rfl, rfl, rfl, rfl⟩

theorem applyTokenBudget_occurrence (task : Task) (run : TaskRun) (now : Nat) :
    SameOccurrence task (applyTokenBudget calendar task run now) := by
  have rolled := rollBudgetWindow_occurrence calendar task run now
  unfold applyTokenBudget
  split_ifs
  · exact ⟨rfl, rfl, rfl, rfl⟩
  · exact ⟨rolled.schedule, rolled.nextRunAt, rolled.onceDone, rolled.mark⟩

theorem applyTokenBudget_enabled (task : Task) (run : TaskRun) (now : Nat) :
    (applyTokenBudget calendar task run now).enabled =
      (task.enabled && !budgetSpent calendar task run now) := by
  unfold applyTokenBudget
  split_ifs with none
  · simp [budgetSpent, Option.isNone_iff_eq_none.mp none]
  · have same : (rollBudgetWindow calendar task run now).enabled = task.enabled := by
      unfold rollBudgetWindow
      split
      · rfl
      · split_ifs <;> rfl
    simp [same]

/-- What a run leaves of the budget depends on the window alone. -/
theorem budgetSpent_congr {task other : Task} (same : SameBudget task other) (run : TaskRun) (now : Nat) :
    budgetSpent calendar other run now = budgetSpent calendar task run now := by
  obtain ⟨budget, input, output, reset⟩ := same
  have window : budgetWindow other now = budgetWindow task now := by
    simp [budgetWindow, budget, reset]
  have exceeded : tokenBudgetExceeded (rollBudgetWindow calendar other run now) now =
      tokenBudgetExceeded (rollBudgetWindow calendar task run now) now := by
    unfold rollBudgetWindow
    rw [budget]
    split
    · simp [tokenBudgetExceeded, budget, input, output, reset]
    · rw [window]
      split_ifs
      · simp [tokenBudgetExceeded]
      · simp [tokenBudgetExceeded, budget, input, output, reset]
  simp [budgetSpent, exceeded, budget]

theorem settleSchedule_budget (task : Task) (run : TaskRun) (trigger : Option TaskRunTrigger)
    (firedOnceAt : Option OnceTime) (now : Nat) :
    SameBudget task (settleSchedule calendar task run trigger firedOnceAt now) := by
  unfold settleSchedule applyNextRunAt
  split_ifs <;> exact ⟨rfl, rfl, rfl, rfl⟩

/-- The run is the occurrence that the task still names. -/
def IsOccurrence (task : Task) (run : TaskRun) (trigger : Option TaskRunTrigger)
    (firedOnceAt : Option OnceTime) : Prop :=
  isOnceSchedule task.schedule = true ∧ (trigger.or run.trigger) = some .scheduled ∧
    task.scheduleAt = firedOnceAt

variable (stored : Task) (run : TaskRun) (trigger : Option TaskRunTrigger)
  (firedOnceAt : Option OnceTime) (dispatchRunId : RunId) (now : Nat)

theorem afterRun_schedule :
    (afterRun calendar stored run trigger firedOnceAt dispatchRunId now).1.schedule = stored.schedule := by
  refine (applyTokenBudget_occurrence calendar _ run now).schedule.trans ?_
  refine Eq.trans ?_ (applyStreak_occurrence (countRun stored run dispatchRunId) run).schedule
  unfold settleSchedule applyNextRunAt
  split_ifs <;> rfl

theorem afterRun_mark :
    (afterRun calendar stored run trigger firedOnceAt dispatchRunId now).1.scheduledRunInFlight =
      if stored.scheduledRunInFlight.any fun mark => mark.runId = dispatchRunId then none
      else stored.scheduledRunInFlight := by
  refine (applyTokenBudget_occurrence calendar _ run now).mark.trans ?_
  refine Eq.trans ?_ (applyStreak_occurrence (countRun stored run dispatchRunId) run).mark
  unfold settleSchedule applyNextRunAt
  split_ifs <;> rfl

variable {stored run trigger firedOnceAt}

/-- Recording a run never turns its task on. -/
theorem afterRun_enabled {dispatchRunId : RunId} {now : Nat}
    (enabled : (afterRun calendar stored run trigger firedOnceAt dispatchRunId now).1.enabled = true) :
    stored.enabled = true := by
  have budget := (applyTokenBudget_enabled calendar _ run now).symm.trans enabled
  have settled := (Bool.and_eq_true_iff.mp budget).1
  have streaked : (applyStreak (countRun stored run dispatchRunId) run).1.enabled = true := by
    revert settled
    unfold settleSchedule applyNextRunAt retireOnce
    split_ifs <;> simp [setNextRunAt]
  rw [applyStreak_enabled] at streaked
  exact (Bool.and_eq_true_iff.mp streaked).1

/-- The occurrence that ran is retired. -/
theorem afterRun_retired (occurrence : IsOccurrence stored run trigger firedOnceAt) :
    (afterRun calendar stored run trigger firedOnceAt dispatchRunId now).1.enabled = false ∧
      (afterRun calendar stored run trigger firedOnceAt dispatchRunId now).1.nextRunAt = none := by
  obtain ⟨once, scheduled, named⟩ := occurrence
  have streak := applyStreak_occurrence (countRun stored run dispatchRunId) run
  have retired : settleSchedule calendar (applyStreak (countRun stored run dispatchRunId) run).1 run trigger
      firedOnceAt now = retireOnce (applyStreak (countRun stored run dispatchRunId) run).1 .ran
        run.startedAt := by
    have same : (applyStreak (countRun stored run dispatchRunId) run).1.schedule = stored.schedule :=
      streak.schedule
    simp only [Task.scheduleAt] at named
    simp [settleSchedule, Task.scheduleAt, same, once, scheduled, named]
  simp only [afterRun, retired]
  constructor
  · simp [applyTokenBudget_enabled, retireOnce]
  · exact (applyTokenBudget_occurrence calendar _ run now).nextRunAt

/-- Any other run leaves a once as it stands, unless it turns the task off. -/
theorem afterRun_other (once : isOnceSchedule stored.schedule = true)
    (other : ¬ IsOccurrence stored run trigger firedOnceAt) :
    let after := (afterRun calendar stored run trigger firedOnceAt dispatchRunId now).1
    after.nextRunAt = stored.nextRunAt ∧ after.onceDone = stored.onceDone ∧
      after.enabled = (stored.enabled && !autoDisables calendar stored run now) := by
  have streak := applyStreak_occurrence (countRun stored run dispatchRunId) run
  have same : (applyStreak (countRun stored run dispatchRunId) run).1.schedule = stored.schedule :=
    streak.schedule
  have unsettled : settleSchedule calendar (applyStreak (countRun stored run dispatchRunId) run).1 run
      trigger firedOnceAt now = (applyStreak (countRun stored run dispatchRunId) run).1 := by
    have apart : ¬ ((trigger.or run.trigger) = some .scheduled ∧
        (applyStreak (countRun stored run dispatchRunId) run).1.scheduleAt = firedOnceAt) := by
      rw [Task.scheduleAt, same]
      rintro ⟨scheduled, named⟩
      exact other ⟨once, scheduled, named⟩
    rw [settleSchedule, same, once, Bool.not_true, if_neg Bool.false_ne_true, if_neg apart]
  have budget : SameBudget (countRun stored run run.id) (applyStreak (countRun stored run dispatchRunId) run).1 :=
    have same := applyStreak_budget (countRun stored run dispatchRunId) run
    ⟨same.tokenBudget, same.inputTokens, same.outputTokens, same.resetAt⟩
  have occurrence := applyTokenBudget_occurrence calendar
    (applyStreak (countRun stored run dispatchRunId) run).1 run now
  simp only [afterRun, unsettled]
  refine ⟨occurrence.nextRunAt.trans streak.nextRunAt, occurrence.onceDone.trans streak.onceDone, ?_⟩
  rw [applyTokenBudget_enabled, applyStreak_enabled, budgetSpent_congr calendar budget, autoDisables,
    Bool.not_or, Bool.and_assoc]
  rfl

theorem applyStreak_runCount (task : Task) (run : TaskRun) :
    (applyStreak task run).1.runCount = task.runCount := by
  have errors : (applyConsecutiveErrors task run).runCount = task.runCount := by
    unfold applyConsecutiveErrors
    split_ifs <;> rfl
  unfold applyStreak
  split
  · rfl
  · dsimp only
    split
    · exact errors
    · exact errors

theorem applyTokenBudget_runCount (task : Task) (run : TaskRun) (now : Nat) :
    (applyTokenBudget calendar task run now).runCount = task.runCount := by
  have rolled : (rollBudgetWindow calendar task run now).runCount = task.runCount := by
    unfold rollBudgetWindow
    split
    · rfl
    · split_ifs <;> rfl
  unfold applyTokenBudget
  split_ifs
  · rfl
  · exact rolled

/-- A recorded run counts once. -/
theorem afterRun_runCount (dispatchRunId : RunId) (now : Nat) :
    (afterRun calendar stored run trigger firedOnceAt dispatchRunId now).1.runCount = stored.runCount + 1 := by
  refine (applyTokenBudget_runCount calendar _ run now).trans ?_
  refine Eq.trans ?_ (applyStreak_runCount (countRun stored run dispatchRunId) run)
  unfold settleSchedule applyNextRunAt
  split_ifs <;> rfl

end NimbleBrain.Scheduler
