import Mathlib.Data.List.Infix
import NimbleBrain.Library.Transition
import NimbleBrain.Scheduler.Edits

/- A failing streak is counted run by run. The counts tell the whole stretch of runs since the last success. -/

namespace NimbleBrain.Scheduler

open Library Tasks

/-- The run ran to completion. -/
def endsStreak (run : TaskRun) : Bool := run.status = .success || run.status = .degraded

/-- The runs of the task itself since the last that completed, latest first. An item answers to its batch. -/
def failingStretch (runs : List TaskRun) : List TaskRun :=
  (runs.filter fun run => run.batchId.isNone).takeWhile fun run => !endsStreak run

def errorsIn (runs : List TaskRun) : Nat := (failingStretch runs).countP countsAsError

def transientErrorsIn (runs : List TaskRun) : Nat :=
  (failingStretch runs).countP fun run => countsAsError run && run.transient

def limitReached (runs : List TaskRun) : Bool := streakReached (errorsIn runs) (transientErrorsIn runs)

/-- No earlier run of these reached a limit. -/
def FirstReached (runs : List TaskRun) : Prop :=
  limitReached runs = true ∧ ∀ past, past <:+ runs.tail → limitReached past = false

/-- The run is the first of its failing stretch that left no deliverable. -/
def FirstFailed (run : TaskRun) (earlier : List TaskRun) : Prop :=
  run.batchId = none ∧ executionOf run = .failed ∧
    ∀ other ∈ failingStretch earlier, executionOf other ≠ .failed

/-- One recorded run, with what it raised. Something else may have turned the task off before. -/
structure StreakEntry where
  run : TaskRun
  otherwiseOff : Bool
  notice : Option RunFailedNotice
  deriving DecidableEq

/-- A task since it was last turned on, with its recorded runs, latest first. -/
structure StreakLog where
  task : Task
  startedOn : Bool
  otherwiseOff : Bool := false
  entries : List StreakEntry := []
  deriving DecidableEq

def StreakLog.runs (log : StreakLog) : List TaskRun := log.entries.map StreakEntry.run

/-- A write that leaves the streak alone and does not turn the task on. -/
def KeepsStreak (task written : Task) : Prop :=
  written.consecutiveErrors = task.consecutiveErrors ∧ written.transientErrors = task.transientErrors ∧
    written.failureNoticeRunId = task.failureNoticeRunId ∧ (written.enabled = true → task.enabled = true)

instance (task written : Task) : Decidable (KeepsStreak task written) := inferInstanceAs (Decidable (_ ∧ _))

/-- The edit turns the task on, which starts its streak over. -/
def reenables (task : Task) (patch : UpdatePatch) : Bool :=
  patch.enabled = some true ||
    (onceRetirement task).isSome && isOnceSchedule patch.schedule.join && !decide (patch.enabled = some false)

inductive StreakAction where
  | record (run : TaskRun) (trigger : Option TaskRunTrigger) (firedOnceAt : Option OnceTime)
      (dispatchRunId : RunId) (now : Nat)
  | edit (patch : UpdatePatch) (now : Nat)
  | write (written : Task)
  deriving DecidableEq

variable (calendar : Calendar)

namespace StreakLog

/-- The run is recorded. Its schedule or its budget may turn the task off besides the streak. -/
def record (log : StreakLog) (run : TaskRun) (trigger : Option TaskRunTrigger) (firedOnceAt : Option OnceTime)
    (dispatchRunId : RunId) (now : Nat) : StreakLog :=
  let recorded := afterRun calendar log.task run trigger firedOnceAt dispatchRunId now
  let streaked := (applyStreak (countRun log.task run dispatchRunId) run).1
  { log with
    task := recorded.1
    otherwiseOff := log.otherwiseOff || streaked.enabled && !recorded.1.enabled
    entries := ⟨run, log.otherwiseOff, recorded.2⟩ :: log.entries }

/-- A write between two runs. -/
def write (log : StreakLog) (written : Task) : StreakLog :=
  { log with
    task := written
    otherwiseOff := log.otherwiseOff || log.task.enabled && !written.enabled }

/-- A refused edit writes nothing. One that turns the task on opens a new log. -/
def edit (log : StreakLog) (patch : UpdatePatch) (now : Nat) : StreakLog :=
  match updateTask calendar (some log.task) patch now with
  | .ok (some edited) =>
      if reenables log.task patch then { task := edited, startedOn := edited.enabled }
      else log.write edited
  | _ => log

end StreakLog

/-- A new task has no failures behind it. -/
def streakSystem : System StreakLog StreakAction where
  initial log := log.task.consecutiveErrors = 0 ∧ log.task.transientErrors = 0 ∧
    log.task.failureNoticeRunId = none ∧ log.startedOn = log.task.enabled ∧ log.otherwiseOff = false ∧
    log.entries = []
  step log
    | .record run trigger firedOnceAt dispatchRunId now =>
        some (log.record calendar run trigger firedOnceAt dispatchRunId now)
    | .edit patch now => some (log.edit calendar patch now)
    | .write written => if KeepsStreak log.task written then some (log.write written) else none

/-- Both tasks stand alike in their streak. -/
structure SameStreak (task other : Task) : Prop where
  errors : other.consecutiveErrors = task.consecutiveErrors
  transients : other.transientErrors = task.transientErrors
  notice : other.failureNoticeRunId = task.failureNoticeRunId

theorem SameStreak.trans {first second third : Task} (one : SameStreak first second)
    (two : SameStreak second third) : SameStreak first third :=
  ⟨two.errors.trans one.errors, two.transients.trans one.transients, two.notice.trans one.notice⟩

section Frame

variable (task : Task) (run : TaskRun) (trigger : Option TaskRunTrigger) (firedOnceAt : Option OnceTime)
  (dispatchRunId : RunId) (now : Nat)

theorem settleSchedule_streak :
    SameStreak task (settleSchedule calendar task run trigger firedOnceAt now) := by
  unfold settleSchedule applyNextRunAt
  split_ifs <;> exact ⟨rfl, rfl, rfl⟩

theorem settleSchedule_enabled
    (enabled : (settleSchedule calendar task run trigger firedOnceAt now).enabled = true) :
    task.enabled = true := by
  revert enabled
  unfold settleSchedule applyNextRunAt retireOnce
  split_ifs <;> simp [setNextRunAt]

theorem applyTokenBudget_streak : SameStreak task (applyTokenBudget calendar task run now) := by
  have rolled : SameStreak task (rollBudgetWindow calendar task run now) := by
    unfold rollBudgetWindow
    split
    · exact ⟨rfl, rfl, rfl⟩
    · split_ifs <;> exact ⟨rfl, rfl, rfl⟩
  unfold applyTokenBudget
  split_ifs
  · exact ⟨rfl, rfl, rfl⟩
  · exact ⟨rolled.errors, rolled.transients, rolled.notice⟩

/-- The schedule and the budget leave the streak of the task alone. -/
theorem afterRun_streak : SameStreak (applyStreak (countRun task run dispatchRunId) run).1
    (afterRun calendar task run trigger firedOnceAt dispatchRunId now).1 :=
  (settleSchedule_streak calendar _ run trigger firedOnceAt now).trans
    (applyTokenBudget_streak calendar _ run now)

theorem afterRun_streaked (enabled :
    (afterRun calendar task run trigger firedOnceAt dispatchRunId now).1.enabled = true) :
    (applyStreak (countRun task run dispatchRunId) run).1.enabled = true := by
  have budget := (applyTokenBudget_enabled calendar _ run now).symm.trans enabled
  exact settleSchedule_enabled calendar _ run trigger firedOnceAt now (Bool.and_eq_true_iff.mp budget).1

end Frame

section Stretch

variable {run : TaskRun} {runs : List TaskRun}

/-- An item leaves the stretch as it stands, a completed run ends it, and any other run joins it. -/
theorem failingStretch_cons (run : TaskRun) (runs : List TaskRun) :
    failingStretch (run :: runs) =
      if run.batchId.isSome then failingStretch runs
      else if endsStreak run then [] else run :: failingStretch runs := by
  unfold failingStretch
  cases batch : run.batchId with
  | some _ => simp [batch]
  | none => cases ended : endsStreak run <;> simp [batch, ended]

theorem countsAsError_of_failed (failed : executionOf run = .failed) : countsAsError run = true := by
  unfold executionOf at failed
  unfold countsAsError
  cases status : run.status <;> simp_all

theorem endsStreak_of_error (counts : countsAsError run = true) : endsStreak run = false := by
  unfold countsAsError at counts
  unfold endsStreak
  cases status : run.status <;> simp_all

theorem transientErrorsIn_le (runs : List TaskRun) : transientErrorsIn runs ≤ errorsIn runs :=
  List.countP_mono_left fun _ _ both => (Bool.and_eq_true_iff.mp both).1

/-- A run that is no error of the task itself counts in neither number, unless it ends the stretch. -/
theorem limitReached_of_other (other : run.batchId.isSome = true ∨ countsAsError run = false)
    (reached : limitReached (run :: runs) = true) : limitReached runs = true := by
  unfold limitReached errorsIn transientErrorsIn at reached ⊢
  rw [failingStretch_cons] at reached
  split_ifs at reached with batch ended
  · exact reached
  · exact absurd reached (by decide)
  · have quiet : countsAsError run = false := other.resolve_left batch
    simpa [List.countP_cons, quiet] using reached

/-- Some run of these reached a limit. -/
def everReached (runs : List TaskRun) : Bool := runs.tails.any limitReached

theorem everReached_cons (run : TaskRun) (runs : List TaskRun) :
    everReached (run :: runs) = (limitReached (run :: runs) || everReached runs) := by
  simp [everReached]

theorem everReached_of_reached (reached : limitReached runs = true) : everReached runs = true := by
  cases runs with
  | nil => exact absurd reached (by decide)
  | cons run runs => rw [everReached_cons, reached, Bool.true_or]

/-- Nothing but an error of the task itself reaches a limit first. -/
theorem everReached_record (run : TaskRun) (runs : List TaskRun) :
    everReached (run :: runs) =
      (everReached runs || (run.batchId.isNone && countsAsError run && limitReached (run :: runs))) := by
  rw [everReached_cons]
  cases reached : limitReached (run :: runs) with
  | false => simp
  | true =>
      by_cases other : run.batchId.isSome = true ∨ countsAsError run = false
      · rw [everReached_of_reached (limitReached_of_other other reached)]
        rfl
      · rw [not_or, Bool.not_eq_true, Bool.not_eq_false] at other
        have own : run.batchId.isNone = true := by simpa using other.1
        simp [own, other.2]

theorem everReached_eq_false :
    everReached runs = false ↔ ∀ past, past <:+ runs → limitReached past = false := by
  simp only [everReached, List.any_eq_false, List.mem_tails, Bool.not_eq_true]

end Stretch

/-- The stored counts of the task tell these runs. -/
structure Task.Tells (task : Task) (runs : List TaskRun) : Prop where
  errors : task.consecutiveErrors = errorsIn runs
  transients : task.transientErrors = transientErrorsIn runs
  notice : task.failureNoticeRunId.isSome = (failingStretch runs).any fun run => decide (executionOf run = .failed)

namespace Task.Tells

variable {task : Task} {runs : List TaskRun}

theorem congr {other : Task} (tells : task.Tells runs) (same : SameStreak task other) : other.Tells runs :=
  ⟨same.errors.trans tells.errors, same.transients.trans tells.transients,
    (congrArg Option.isSome same.notice).trans tells.notice⟩

theorem empty (errors : task.consecutiveErrors = 0) (transients : task.transientErrors = 0)
    (notice : task.failureNoticeRunId = none) : task.Tells [] := by
  refine ⟨errors, transients, ?_⟩
  rw [notice]
  rfl

/-- An error of the task adds one to each number it counts in. -/
theorem counted (tells : task.Tells runs) {run : TaskRun} (own : run.batchId.isSome = false)
    (counts : countsAsError run = true) :
    errorsIn (run :: runs) = task.consecutiveErrors + 1 ∧
      transientErrorsIn (run :: runs) = task.transientErrors + if run.transient then 1 else 0 := by
  have stretch : failingStretch (run :: runs) = run :: failingStretch runs := by
    rw [failingStretch_cons, own, endsStreak_of_error counts]
    rfl
  constructor
  · rw [tells.errors, errorsIn, stretch, List.countP_cons_of_pos counts]
    rfl
  · rw [tells.transients, transientErrorsIn, stretch, List.countP_cons, counts, Bool.true_and]
    rfl

/-- The streak turns a task off when this run reaches a limit. -/
theorem streakDisables_eq (tells : task.Tells runs) (run : TaskRun) :
    streakDisables task run = (run.batchId.isNone && countsAsError run && limitReached (run :: runs)) := by
  unfold streakDisables
  cases batch : run.batchId with
  | some _ => rfl
  | none =>
      cases counts : countsAsError run with
      | false => rfl
      | true =>
          obtain ⟨errors, transients⟩ := tells.counted (by rw [batch]; rfl) counts
          rw [limitReached, errors, transients]

/-- Before its notice is claimed, a run of the task itself counts and leaves the claim of the stretch. -/
theorem applyConsecutiveErrors (tells : task.Tells runs) {run : TaskRun} (own : run.batchId.isSome = false) :
    let after := Scheduler.applyConsecutiveErrors task run
    after.consecutiveErrors = errorsIn (run :: runs) ∧ after.transientErrors = transientErrorsIn (run :: runs) ∧
      after.failureNoticeRunId.isSome =
        (!endsStreak run && (failingStretch runs).any fun other => decide (executionOf other = .failed)) := by
  have stretch := failingStretch_cons run runs
  rw [own, if_neg Bool.false_ne_true] at stretch
  dsimp only
  unfold Scheduler.applyConsecutiveErrors
  by_cases ended : run.status = .success ∨ run.status = .degraded
  · have ends : endsStreak run = true := by simpa [endsStreak] using ended
    rw [if_pos ends] at stretch
    rw [if_pos ended, errorsIn, transientErrorsIn, stretch, ends]
    exact ⟨rfl, rfl, rfl⟩
  · have goesOn : endsStreak run = false := by simpa [endsStreak] using ended
    rw [goesOn, if_neg Bool.false_ne_true] at stretch
    rw [if_neg ended, goesOn]
    cases counts : countsAsError run with
    | true =>
        obtain ⟨errors, transients⟩ := tells.counted own counts
        exact ⟨errors.symm, transients.symm, tells.notice⟩
    | false =>
        have quiet : errorsIn (run :: runs) = errorsIn runs ∧
            transientErrorsIn (run :: runs) = transientErrorsIn runs := by
          simp [errorsIn, transientErrorsIn, stretch, counts]
        exact ⟨tells.errors.trans quiet.1.symm, tells.transients.trans quiet.2.symm, tells.notice⟩

/-- A run is the first failed one when the stretch has claimed no notice. -/
theorem isFirstFailed_iff (tells : task.Tells runs) {run : TaskRun} (own : run.batchId.isSome = false) :
    isFirstFailed (Scheduler.applyConsecutiveErrors task run) run = true ↔ FirstFailed run runs := by
  obtain ⟨-, -, claimed⟩ := tells.applyConsecutiveErrors own
  have none : run.batchId = none := Option.not_isSome_iff_eq_none.mp (by rw [own]; exact Bool.false_ne_true)
  rw [isFirstFailed, Bool.and_eq_true, decide_eq_true_iff, ← Option.not_isSome, claimed, FirstFailed]
  constructor
  · rintro ⟨failed, unclaimed⟩
    rw [endsStreak_of_error (countsAsError_of_failed failed)] at unclaimed
    exact ⟨none, failed, by simpa using unclaimed⟩
  · rintro ⟨-, failed, unclaimed⟩
    exact ⟨failed, by simpa using .inr unclaimed⟩

/-- Recording a run keeps the counts of the task true. -/
theorem applyStreak (tells : task.Tells runs) (run : TaskRun) :
    (Scheduler.applyStreak task run).1.Tells (run :: runs) := by
  have stretch := failingStretch_cons run runs
  unfold Scheduler.applyStreak
  cases batch : run.batchId with
  | some _ =>
      rw [batch] at stretch
      exact ⟨by rw [errorsIn, stretch]; exact tells.errors,
        by rw [transientErrorsIn, stretch]; exact tells.transients, by rw [stretch]; exact tells.notice⟩
  | none =>
      have own : run.batchId.isSome = false := by rw [batch]; rfl
      obtain ⟨errors, transients, claimed⟩ := tells.applyConsecutiveErrors own
      rw [own, if_neg Bool.false_ne_true] at stretch
      simp only [Option.isSome_none, Bool.false_eq_true, if_false]
      have failing : (Scheduler.applyConsecutiveErrors task run).failureNoticeRunId.isSome = true ∨
          isFirstFailed (Scheduler.applyConsecutiveErrors task run) run = true ↔
            (failingStretch (run :: runs)).any (fun run => decide (executionOf run = .failed)) = true := by
        rw [claimed, tells.isFirstFailed_iff own, stretch]
        cases ended : endsStreak run with
        | true =>
            have other : executionOf run ≠ .failed := fun failed =>
              Bool.false_ne_true ((endsStreak_of_error (countsAsError_of_failed failed)).symm.trans ended)
            simp [FirstFailed, other]
        | false =>
            simp only [FirstFailed, batch, Bool.not_false, Bool.true_and, if_neg Bool.false_ne_true,
              List.any_cons, Bool.or_eq_true, decide_eq_true_iff, List.any_eq_true, true_and]
            constructor
            · rintro (earlier | ⟨failed, -⟩)
              · exact .inr earlier
              · exact .inl failed
            · rintro (failed | earlier)
              · by_cases earlier : ∃ other ∈ failingStretch runs, executionOf other = .failed
                · exact .inl earlier
                · exact .inr ⟨failed, fun other member same => earlier ⟨other, member, same⟩⟩
              · exact .inl earlier
      split
      · exact ⟨errors, transients, (failing.mp (.inr ‹_›)).symm⟩
      · refine ⟨errors, transients, Bool.eq_iff_iff.mpr ⟨fun claimed => failing.mp (.inl claimed), ?_⟩⟩
        exact fun failed => (failing.mpr failed).resolve_right ‹_›

/-- A notice is raised for the first failed run of a stretch and for the run that turns the task off. -/
theorem applyStreak_notice (tells : task.Tells runs) (run : TaskRun) :
    ((Scheduler.applyStreak task run).2.isSome = true ↔
        FirstFailed run runs ∨ (task.enabled = true ∧ streakDisables task run = true)) ∧
      ((Scheduler.applyStreak task run).2.any RunFailedNotice.disabled = true ↔
        task.enabled = true ∧ streakDisables task run = true) := by
  have after := applyStreak_enabled task run
  unfold Scheduler.applyStreak at after ⊢
  cases batch : run.batchId with
  | some _ => simp [FirstFailed, streakDisables, batch]
  | none =>
      have own : run.batchId.isSome = false := by rw [batch]; rfl
      have first := tells.isFirstFailed_iff own
      have disabled : (Scheduler.applyConsecutiveErrors task run).enabled =
          (task.enabled && !streakDisables task run) := by
        simp only [batch, Option.isSome_none, Bool.false_eq_true, if_false] at after
        split at after
        · exact after
        · exact after
      simp only [Option.isSome_none, Bool.false_eq_true, if_false]
      rw [disabled]
      cases isFirst : isFirstFailed (Scheduler.applyConsecutiveErrors task run) run <;>
        cases task.enabled <;> cases streakDisables task run <;> simp_all

end Task.Tells

section Edits

variable {task after : Task} {patch : UpdatePatch} {now : Nat}

/-- Both tasks stand alike in their streak, and both are on or off. -/
structure SameStanding (task other : Task) : Prop extends SameStreak task other where
  enabled : other.enabled = task.enabled

theorem reanchorWhenScheduled_standing (ok : reanchorWhenScheduled calendar task patch now = .ok after) :
    SameStanding task after := by
  unfold reanchorWhenScheduled reanchorNextRunAt at ok
  split at ok
  · split at ok
    · cases ok
    · cases ok
      exact ⟨⟨rfl, rfl, rfl⟩, rfl⟩
  · cases ok
    exact ⟨⟨rfl, rfl, rfl⟩, rfl⟩

theorem resetBudgetWindowIfChanged_standing (task : Task) (prev next : Option TokenBudget) (now : Nat) :
    SameStanding task (resetBudgetWindowIfChanged calendar task prev next now) := by
  unfold resetBudgetWindowIfChanged
  split_ifs <;> exact ⟨⟨rfl, rfl, rfl⟩, rfl⟩

/-- The task has no failures behind it. -/
structure Cleared (task : Task) : Prop where
  errors : task.consecutiveErrors = 0
  transients : task.transientErrors = 0
  notice : task.failureNoticeRunId = none

theorem Cleared.congr {task other : Task} (cleared : Cleared task) (same : SameStreak task other) : Cleared other :=
  ⟨same.errors.trans cleared.errors, same.transients.trans cleared.transients, same.notice.trans cleared.notice⟩

theorem clearDisabled_cleared {wasEnabled : Bool}
    (ok : clearDisabled calendar task wasEnabled now = .ok after) : Cleared after := by
  unfold clearDisabled at ok
  dsimp only at ok
  split at ok
  · cases ok
    exact ⟨rfl, rfl, rfl⟩
  · split at ok
    · cases ok
    · cases ok
      exact ⟨rfl, rfl, rfl⟩
    · cases ok
      exact ⟨rfl, rfl, rfl⟩

/-- A patch that turns nothing on leaves the streak. A new time for a retired once clears it. -/
theorem patchTask_streak (task : Task) (patch : UpdatePatch) (notOn : patch.enabled ≠ some true) :
    if reenables task patch then Cleared (patchTask task patch) else KeepsStreak task (patchTask task patch) := by
  have rearms : reenables task patch = !(!(onceRetirement task).isSome || !isOnceSchedule patch.schedule.join ||
      decide (patch.enabled = some false)) := by
    rw [reenables, decide_eq_false notOn]
    cases (onceRetirement task).isSome <;> cases isOnceSchedule patch.schedule.join <;> rfl
  rw [rearms]
  unfold patchTask applyOnceRearm
  dsimp only
  cases (!(onceRetirement task).isSome || !isOnceSchedule patch.schedule.join ||
      decide (patch.enabled = some false)) with
  | false => exact ⟨rfl, rfl, rfl⟩
  | true =>
      have stays : (patch.enabled.getD task.enabled) = true → task.enabled = true := by
        cases given : patch.enabled with
        | none => exact id
        | some on => cases on with
            | false => intro on; cases on
            | true => exact absurd given notOn
      rw [Bool.not_true, if_neg Bool.false_ne_true, if_pos rfl]
      split <;> exact ⟨rfl, rfl, rfl, stays⟩

/-- An edit either turns the task on, with its streak cleared, or leaves its streak. -/
theorem updateTask_streak {edited : Task} (ok : updateTask calendar (some task) patch now = .ok (some edited)) :
    if reenables task patch then Cleared edited else KeepsStreak task edited := by
  unfold updateTask at ok
  obtain ⟨_, -, ok⟩ := ok_of_bind ok
  obtain ⟨cleared, clearing, ok⟩ := ok_of_bind ok
  split at ok
  · obtain ⟨anchored, anchoring, ok⟩ := ok_of_bind ok
    cases ok
    have anchor := reanchorWhenScheduled_standing calendar anchoring
    have reset := resetBudgetWindowIfChanged_standing calendar anchored task.tokenBudget patch.tokenBudget.join now
    have same := anchor.toSameStreak.trans reset.toSameStreak
    unfold clearWhenEnabled at clearing
    by_cases on : patch.enabled = some true
    · rw [if_pos on] at clearing
      have reenabled : reenables task patch = true := by rw [reenables, decide_eq_true on, Bool.true_or]
      rw [if_pos reenabled]
      exact (clearDisabled_cleared calendar clearing).congr same
    · rw [if_neg on] at clearing
      cases clearing
      have patched := patchTask_streak task patch on
      split at patched
      · rw [if_pos ‹_›]
        exact patched.congr same
      · rw [if_neg ‹_›]
        exact ⟨same.errors.trans patched.1, same.transients.trans patched.2.1, same.notice.trans patched.2.2.1,
          fun enabled => patched.2.2.2 ((reset.enabled.trans anchor.enabled).symm.trans enabled)⟩
  · cases ok

end Edits

/-- The notice of an entry follows from the runs before it. -/
structure StreakEntry.Right (entry : StreakEntry) (startedOn : Bool) (earlier : List TaskRun) : Prop where
  notice : entry.notice.isSome = true ↔
    FirstFailed entry.run earlier ∨ entry.notice.any RunFailedNotice.disabled = true
  disabled : entry.notice.any RunFailedNotice.disabled = true ↔
    startedOn = true ∧ entry.otherwiseOff = false ∧ FirstReached (entry.run :: earlier)

/-- The counts and the notices of the task tell its whole history since it was last turned on. -/
structure StreakLog.Told (log : StreakLog) : Prop where
  errors : log.task.consecutiveErrors = errorsIn log.runs
  transients : log.task.transientErrors = transientErrorsIn log.runs
  within : log.task.transientErrors ≤ log.task.consecutiveErrors
  enabled : log.task.enabled = true ↔ log.startedOn = true ∧ log.otherwiseOff = false ∧
    ∀ past, past <:+ log.runs → limitReached past = false
  entries : ∀ later entry earlier, log.entries = later ++ entry :: earlier →
    entry.Right log.startedOn (earlier.map StreakEntry.run)

namespace StreakLog

/-- What every step keeps. -/
structure Sound (log : StreakLog) : Prop where
  tells : log.task.Tells log.runs
  enabled : log.task.enabled = (log.startedOn && !log.otherwiseOff && !everReached log.runs)
  entries : ∀ later entry earlier, log.entries = later ++ entry :: earlier →
    entry.Right log.startedOn (earlier.map StreakEntry.run)

variable {log : StreakLog}

theorem Sound.told (sound : log.Sound) : log.Told where
  errors := sound.tells.errors
  transients := sound.tells.transients
  within := by
    rw [sound.tells.errors, sound.tells.transients]
    exact transientErrorsIn_le log.runs
  enabled := by
    rw [sound.enabled, ← everReached_eq_false]
    simp [and_assoc]
  entries := sound.entries

/-- A log starts at a task without failures behind it. -/
theorem Sound.fresh {task : Task} (cleared : Cleared task) :
    Sound { task := task, startedOn := task.enabled } where
  tells := Task.Tells.empty cleared.errors cleared.transients cleared.notice
  enabled := by
    have never : everReached [] = false := by decide
    simp [runs, never]
  entries later _ _ split := by simp at split

theorem Sound.write (sound : log.Sound) {written : Task} (keeps : KeepsStreak log.task written) :
    (log.write written).Sound where
  tells := sound.tells.congr ⟨keeps.1, keeps.2.1, keeps.2.2.1⟩
  enabled := by
    have never := keeps.2.2.2
    have before := sound.enabled
    change written.enabled =
      (log.startedOn && !(log.otherwiseOff || log.task.enabled && !written.enabled) && !everReached log.runs)
    cases on : written.enabled with
    | true =>
        rw [never on] at before
        simpa using before
    | false => cases startedOn : log.startedOn <;> simp_all
  entries := sound.entries

/-- The entry of a run is right when the log was sound before it. -/
theorem Sound.entry (sound : log.Sound) (run : TaskRun) (dispatchRunId : RunId) :
    StreakEntry.Right ⟨run, log.otherwiseOff, (applyStreak (countRun log.task run dispatchRunId) run).2⟩
      log.startedOn log.runs := by
  have tells : (countRun log.task run dispatchRunId).Tells log.runs := sound.tells.congr ⟨rfl, rfl, rfl⟩
  obtain ⟨raised, disabled⟩ := tells.applyStreak_notice run
  refine ⟨raised.trans (or_congr_right disabled.symm), disabled.trans ?_⟩
  rw [tells.streakDisables_eq run, FirstReached, List.tail_cons, ← everReached_eq_false]
  change log.task.enabled = true ∧ _ ↔ _
  rw [sound.enabled]
  have first := everReached_record run log.runs
  rw [everReached_cons] at first
  revert first
  generalize (run.batchId.isNone && countsAsError run && limitReached (run :: log.runs)) = reaches
  cases everReached log.runs with
  | true => simp
  | false =>
      rw [Bool.or_false, Bool.false_or]
      rintro rfl
      simp [and_assoc]

theorem Sound.record (sound : log.Sound) (run : TaskRun) (trigger : Option TaskRunTrigger)
    (firedOnceAt : Option OnceTime) (dispatchRunId : RunId) (now : Nat) :
    (log.record calendar run trigger firedOnceAt dispatchRunId now).Sound where
  tells :=
    have tells : (countRun log.task run dispatchRunId).Tells log.runs := sound.tells.congr ⟨rfl, rfl, rfl⟩
    (tells.applyStreak run).congr (afterRun_streak calendar log.task run trigger firedOnceAt dispatchRunId now)
  enabled := by
    have tells : (countRun log.task run dispatchRunId).Tells log.runs := sound.tells.congr ⟨rfl, rfl, rfl⟩
    have streaked := applyStreak_enabled (countRun log.task run dispatchRunId) run
    rw [tells.streakDisables_eq run] at streaked
    have before : (countRun log.task run dispatchRunId).enabled = _ := sound.enabled
    have kept := afterRun_streaked calendar log.task run trigger firedOnceAt dispatchRunId now
    change (afterRun calendar log.task run trigger firedOnceAt dispatchRunId now).1.enabled =
      (log.startedOn && !(log.otherwiseOff || (applyStreak (countRun log.task run dispatchRunId) run).1.enabled &&
        !(afterRun calendar log.task run trigger firedOnceAt dispatchRunId now).1.enabled) &&
        !everReached (run :: log.runs))
    rw [everReached_record]
    revert streaked
    generalize (run.batchId.isNone && countsAsError run && limitReached (run :: log.runs)) = reaches
    intro streaked
    cases on : (afterRun calendar log.task run trigger firedOnceAt dispatchRunId now).1.enabled with
    | true =>
        rw [kept on, before] at streaked
        simp_all
    | false =>
        rw [before] at streaked
        rw [streaked]
        cases log.startedOn <;> cases log.otherwiseOff <;> cases everReached log.runs <;> cases reaches <;> rfl
  entries later entry earlier split := by
    cases later with
    | nil =>
        obtain ⟨rfl, rfl⟩ := List.cons.inj split
        exact sound.entry run dispatchRunId
    | cons _ later => exact sound.entries later entry earlier (List.cons.inj split).2

theorem Sound.edit (sound : log.Sound) (patch : UpdatePatch) (now : Nat) :
    (log.edit calendar patch now).Sound := by
  unfold StreakLog.edit
  split
  · rename_i edited ok
    have streak := updateTask_streak calendar ok
    split at streak
    · rw [if_pos ‹_›]
      exact Sound.fresh streak
    · rw [if_neg ‹_›]
      exact sound.write streak
  · exact sound

theorem reachable_sound (reached : (streakSystem calendar).Reachable log) : log.Sound := by
  refine reached.invariant Sound ?_ ?_
  · rintro ⟨task, startedOn, otherwiseOff, entries⟩ ⟨errors, transients, notice, on, notOff, empty⟩
    dsimp only at errors transients notice on notOff empty
    subst on notOff empty
    exact Sound.fresh ⟨errors, transients, notice⟩
  · intro before action after sound stepped
    cases action with
    | record run trigger firedOnceAt dispatchRunId now =>
        cases stepped
        exact sound.record calendar run trigger firedOnceAt dispatchRunId now
    | edit patch now =>
        cases stepped
        exact sound.edit calendar patch now
    | write written =>
        obtain ⟨keeps, written⟩ := Option.ite_none_right_eq_some.mp stepped
        cases written
        exact sound.write keeps

end StreakLog

/-- A run that did not start, was cancelled or belongs to a batch. -/
def LeavesStreak (run : TaskRun) : Prop :=
  run.batchId.isSome = true ∨ run.status = .skipped ∨ run.status = .cancelled

theorem applyStreak_leaves (task : Task) {run : TaskRun} (leaves : LeavesStreak run) :
    (applyStreak task run).1.consecutiveErrors = task.consecutiveErrors ∧
      (applyStreak task run).1.transientErrors = task.transientErrors := by
  unfold applyStreak
  split
  · exact ⟨rfl, rfl⟩
  · have quiet : run.status = .skipped ∨ run.status = .cancelled := leaves.resolve_left ‹_›
    have same : applyConsecutiveErrors task run = task := by
      rcases quiet with status | status <;> simp [applyConsecutiveErrors, countsAsError, status]
    rw [same]
    dsimp only
    split <;> exact ⟨rfl, rfl⟩

/-- In every run of the scheduler the counts, the limits and the notices of a task tell its recorded runs. A run
that did not start, was cancelled or belongs to a batch changes neither count. -/
theorem streak_told {log : StreakLog} (reached : (streakSystem calendar).Reachable log) :
    log.Told ∧ ∀ run trigger firedOnceAt dispatchRunId now, LeavesStreak run →
      let recorded := log.record calendar run trigger firedOnceAt dispatchRunId now
      recorded.task.consecutiveErrors = log.task.consecutiveErrors ∧
        recorded.task.transientErrors = log.task.transientErrors := by
  refine ⟨(StreakLog.reachable_sound calendar reached).told, ?_⟩
  intro run trigger firedOnceAt dispatchRunId now leaves
  have frame := afterRun_streak calendar log.task run trigger firedOnceAt dispatchRunId now
  obtain ⟨errors, transients⟩ := applyStreak_leaves (countRun log.task run dispatchRunId) leaves
  exact ⟨frame.errors.trans errors, frame.transients.trans transients⟩

/-- A transient failure, a skipped run, and then failures enough to turn the task off. -/
def failingActions : List StreakAction :=
  .record { id := 0, status := .failure, transient := true } none none 0 0 ::
    .record { id := 1, status := .skipped } none none 1 1 ::
      (List.range 10).map fun place => .record { id := place + 2, status := .timeout } none none (place + 2) (place + 2)

def idleLog : StreakLog := { task := {}, startedOn := true }

def failingLog : StreakLog := ((streakSystem plainCalendar).run idleLog failingActions).getD idleLog

theorem streak_told_failing : failingLog.Told ∧ failingLog.task.consecutiveErrors = 11 ∧
    failingLog.task.transientErrors = 1 ∧ failingLog.task.enabled = false ∧
    failingLog.entries.map StreakEntry.notice =
      some ⟨true⟩ :: List.replicate 10 none ++ [some ⟨false⟩] := by
  have ran : (streakSystem plainCalendar).run idleLog failingActions = some failingLog := by decide +kernel
  have first : (streakSystem plainCalendar).initial idleLog := ⟨rfl, rfl, rfl, rfl, rfl, rfl⟩
  have reached := System.Reachable.run (.start idleLog first) ran
  exact ⟨(streak_told plainCalendar reached).1, by decide +kernel, by decide +kernel, by decide +kernel,
    by decide +kernel⟩

end NimbleBrain.Scheduler
