import NimbleBrain.Scheduler.Recording

/- The scheduler reads a task's file, works on it in memory and writes it back. Each write lands whole. -/

namespace NimbleBrain.Scheduler

open Library Tasks

/-- The files of one task, and the entry that the running process holds of it. -/
structure Store where
  task : Option Task := none
  definition : Option Task := none
  index : List TaskRun := []
  results : List RunId := []
  tickets : RunId → Option TaskRun := fun _ => none

/-- A callback changes nothing here, but it may throw. -/
inductive Effect where
  | saveRunResult (runId : RunId)
  | appendRun (run : TaskRun)
  | saveTask (task : Task)
  | deleteTask
  | setDefinition (definition : Option Task)
  | notifyRunFailed (run : TaskRun) (notice : RunFailedNotice)
  | saveRunTicket (runId : RunId) (run : TaskRun)
  | onRunRecorded
  deriving DecidableEq

def Store.apply (store : Store) : Effect → Store
  | .saveRunResult runId => { store with results := store.results.insert runId }
  | .appendRun run => { store with index := store.index ++ [run] }
  | .saveTask task => { store with task := some task }
  | .deleteTask => { store with task := none }
  | .setDefinition definition => { store with definition := definition }
  | .notifyRunFailed _ _ => store
  | .saveRunTicket runId run => { store with tickets := Function.update store.tickets runId (some run) }
  | .onRunRecorded => store

abbrev Store.after (store : Store) (effects : List Effect) : Store := effects.foldl Store.apply store

/-- What a batch names in the records of its runs. -/
structure BatchItemRef where
  batchId : String
  index : Nat
  deriving DecidableEq

structure RequestedRun where
  runId : RunId
  batch : Option BatchItemRef := none
  deriving DecidableEq

/-- A requested run is recorded under the id it was asked with. -/
def withRequest (requested : Option RequestedRun) (run : TaskRun) : TaskRun :=
  match requested with
  | none => run
  | some requested =>
      { run with
        id := requested.runId
        batchId := (requested.batch.map BatchItemRef.batchId).or run.batchId
        batchIndex := (requested.batch.map BatchItemRef.index).or run.batchIndex }

def writeTicket (requested : Option RequestedRun) (run : TaskRun) : List Effect :=
  match requested with
  | none => []
  | some requested => [.saveRunTicket requested.runId run]

variable (calendar : Calendar)

/-- The result lands before the record, and the record before the task. -/
def updateAfterRun (store : Store) (task : Task) (run : TaskRun) (trigger : Option TaskRunTrigger)
    (firedOnceAt : Option OnceTime) (dispatchRunId : RunId) (appendRecord : Bool) (now : Nat) :
    List Effect :=
  match store.task with
  | none => []
  | some stored =>
      let after := afterRun calendar stored run trigger (firedOnceAt.or task.scheduleAt) dispatchRunId now
      (if appendRecord then [.saveRunResult run.id, .appendRun run] else []) ++
        [.saveTask after.1, .setDefinition (some after.1)] ++
        after.2.toList.map fun notice => .notifyRunFailed run notice

def notStartedRun (runId : RunId) (cancelled : Bool) (now : Nat) : TaskRun where
  id := runId
  startedAt := now
  completedAt := some now
  status := if cancelled then .cancelled else .skipped

def writeNotStarted (requested : Option RequestedRun) (run : TaskRun) : List Effect :=
  [.saveRunResult run.id, .appendRun run] ++ writeTicket requested run

/-- The next run of a skipped occurrence lies in the future. -/
def skippedTask (fresh : Task) (now : Nat) : Task :=
  setNextRunAt fresh <| (nextRunOrNone calendar fresh now).map fun nextRun =>
    if now < nextRun then nextRun
    else now + ((fresh.schedule.bind ScheduleSpec.intervalMs).getD 60000)

/-- Only a skipped occurrence of the schedule moves the next run. -/
def recordSkipped (store : Store) (trigger : Option TaskRunTrigger) (requested : Option RequestedRun)
    (run : TaskRun) (now : Nat) : List Effect :=
  let advanced : List Effect :=
    if trigger.isSome ∧ trigger ≠ some .scheduled then []
    else match store.task with
      | none => []
      | some fresh =>
          let skipped := skippedTask calendar fresh now
          [.saveTask skipped, .setDefinition (some skipped)]
  writeNotStarted requested (withRequest requested run) ++ advanced ++ [.onRunRecorded]

/-- A once that is too late is recorded as skipped, and its task is left inert. -/
def recordMissedOnce (store : Store) (task : Task) (skipId : RunId) (now : Nat) : List Effect :=
  let retired := retireOnce (store.task.getD task) .missed now
  writeNotStarted none (notStartedRun skipId false now) ++
    [.saveTask retired, .setDefinition (some retired), .onRunRecorded]

def markScheduledRunInFlight (store : Store) (inFlight : ScheduledRunInFlight) : List Effect :=
  match store.task with
  | none => []
  | some fresh =>
      let marked := { fresh with scheduledRunInFlight := some inFlight }
      [.saveTask marked, .setDefinition (some marked)]

/-- A missing next run is seeded. A run that is still owed keeps its own. -/
def reconcileNextRunAt (task : Task) (now : Nat) : Option Task :=
  if isEventSchedule task.schedule || !task.enabled then none
  else
    let next := nextRunOrNone calendar task now
    let changed := if next.isNone then task.nextRunAt.isSome else task.nextRunAt.isNone
    if next.isNone && isPendingOccurrence calendar task then none
    else if changed then some (setNextRunAt task next)
    else none

def seedNextRunAt (store : Store) (now : Nat) : List Effect :=
  match store.definition.bind fun task => reconcileNextRunAt calendar task now with
  | none => []
  | some seeded => [.setDefinition (some seeded), .saveTask seeded]

/-- One list of effects goes on where the other ends. -/
def Store.followedBy (store : Store) (effects : List Effect) (next : Store → List Effect) : List Effect :=
  effects ++ next (store.after effects)

/-- The definitions are read again from the files. -/
def reload (store : Store) (now : Nat) : List Effect :=
  store.followedBy [.setDefinition store.task] fun store => seedNextRunAt calendar store now

def interruptedRunError : String :=
  "The runtime stopped while this run was in flight, so it did not finish. It was not " ++
    "started again, because it may already have done part of its work; the task runs " ++
    "next at its next scheduled time."

/-- The record of a run that the last process stopped under. -/
def interruptedRun (inFlight : ScheduledRunInFlight) (now : Nat) : TaskRun where
  id := inFlight.runId
  startedAt := inFlight.startedAt
  completedAt := some now
  status := .failure
  error := some interruptedRunError
  trigger := some .scheduled

/-- A run whose record is in the index is settled from it. -/
def settleInterruptedRuns (store : Store) (scheduledInFlight : List RunId) (now : Nat) : List Effect :=
  match store.definition with
  | none => []
  | some task =>
      match task.scheduledRunInFlight with
      | none => []
      | some inFlight =>
          if inFlight.runId ∈ scheduledInFlight then []
          else
            let recorded := store.index.find? fun run => run.id = inFlight.runId
            updateAfterRun calendar store task (recorded.getD (interruptedRun inFlight now))
                (some .scheduled) inFlight.onceAt inFlight.runId recorded.isNone now ++
              [.onRunRecorded]

def retireOncesMissedWhileDown (store : Store) (skipId : RunId) (now : Nat) : List Effect :=
  match store.definition with
  | none => []
  | some task => if onceMissedWhileDown task now then recordMissedOnce store task skipId now else []

/-- A process starts by reading the files. -/
def start (store : Store) (scheduledInFlight : List RunId) (skipId : RunId) (now : Nat) : List Effect :=
  store.followedBy [.setDefinition store.task] fun loaded =>
    loaded.followedBy (settleInterruptedRuns calendar loaded scheduledInFlight now) fun settled =>
      settled.followedBy (retireOncesMissedWhileDown settled skipId now) fun retired =>
        seedNextRunAt calendar retired now

end NimbleBrain.Scheduler
