import NimbleBrain.Scheduler.Store

/- A dispatched run is executed and recorded. A write or a callback that throws turns the recording
into the recording of a failure. -/

namespace NimbleBrain.Scheduler

open Library Tasks

/-- A batch run holds its slot under a key of its own. -/
inductive RunKey where
  | task
  | batch (runId : RunId)
  deriving DecidableEq

structure Dispatch where
  runKey : RunKey
  task : Task
  runId : RunId
  startedAt : Nat
  trigger : TaskRunTrigger
  firedOnceAt : Option OnceTime
  requested : Option RequestedRun
  deriving DecidableEq

/-- The once occurrence that a scheduled run of the task is. -/
def firedOnceAt (task : Task) (trigger : TaskRunTrigger) : Option OnceTime :=
  if trigger = .scheduled ∧ isOnceSchedule task.schedule then task.scheduleAt else none

/-- The places where recording a run may throw. -/
inductive Point where
  | result | append | save | notify | ticket | report
  deriving DecidableEq

/-- The definitions in memory are set without fail. -/
def Effect.point : Effect → Option Point
  | .saveRunResult _ => some .result
  | .appendRun _ => some .append
  | .saveTask _ => some .save
  | .deleteTask => some .save
  | .setDefinition _ => none
  | .notifyRunFailed _ _ => some .notify
  | .saveRunTicket _ _ => some .ticket
  | .onRunRecorded => some .report

/-- Where each of the two recordings throws, and what. The mark and the first ticket precede both. -/
structure Faults where
  starting : Point → Bool := fun _ => false
  first : Point → Bool := fun _ => false
  second : Point → Bool := fun _ => false
  error : ThrownError := {}

abbrev throwsAt (faults : Point → Bool) (effect : Effect) : Bool := effect.point.any faults

/-- How the executor ended. -/
inductive Execution where
  | returned (run : TaskRun)
  | threw (error : ThrownError)
  deriving DecidableEq

/-- The effects that happened, and whether the promise of the run was rejected. -/
structure Recorded where
  effects : List Effect
  rejected : Bool
  deriving DecidableEq

variable (calendar : Calendar)

/-- The record of a run that threw. -/
def failedRun (dispatch : Dispatch) (error : ThrownError) (now : Nat) : TaskRun :=
  let failure := classifyRunFailure error
  withRequest dispatch.requested
    { id := dispatch.runId
      startedAt := dispatch.startedAt
      completedAt := some now
      status := failure.status
      error := some failure.error
      transient := failure.transient
      trigger := some dispatch.trigger }

/-- The task that a dispatch leaves when it records a run. -/
def Dispatch.record (dispatch : Dispatch) (now : Nat) (task : Task) (run : TaskRun) : Task :=
  (afterRun calendar task run (some dispatch.trigger) (dispatch.firedOnceAt.or dispatch.task.scheduleAt)
    dispatch.runId now).1

/-- The task and its files, then the ticket, then the report. -/
def recordRun (store : Store) (dispatch : Dispatch) (run : TaskRun) (now : Nat) : List Effect :=
  updateAfterRun calendar store dispatch.task run (some dispatch.trigger) dispatch.firedOnceAt
      dispatch.runId true now ++
    writeTicket dispatch.requested run ++ [.onRunRecorded]

/-- The recording of a failure is the last one. What it throws rejects the promise. -/
def recordFailure (store : Store) (dispatch : Dispatch) (error : ThrownError) (faults : Faults)
    (now : Nat) : Recorded :=
  let effects := recordRun calendar store dispatch (failedRun dispatch error now) now
  ⟨attempt (throwsAt faults.second) effects, !completes (throwsAt faults.second) effects⟩

/-- A throw in the recording of a returned run records the run again, as a failure. -/
def recordExecution (store : Store) (dispatch : Dispatch) (execution : Execution) (faults : Faults)
    (now : Nat) : Recorded :=
  match execution with
  | .threw error => recordFailure calendar store dispatch error faults now
  | .returned run =>
      let effects := recordRun calendar store dispatch (withRequest dispatch.requested run) now
      let done := attempt (throwsAt faults.first) effects
      if completes (throwsAt faults.first) effects then ⟨done, false⟩
      else
        let failure := recordFailure calendar (store.after done) dispatch faults.error faults now
        ⟨done ++ failure.effects, failure.rejected⟩

/-- The ticket of a run that starts. -/
def runningTicket (dispatch : Dispatch) : List Effect :=
  writeTicket dispatch.requested
    { id := (dispatch.requested.map RequestedRun.runId).getD 0
      startedAt := dispatch.startedAt
      status := .running
      trigger := some dispatch.trigger }

/-- A scheduled run is marked before it starts. -/
def markDispatch (store : Store) (dispatch : Dispatch) : List Effect :=
  if dispatch.trigger = .scheduled then
    markScheduledRunInFlight store ⟨dispatch.runId, dispatch.startedAt, dispatch.firedOnceAt⟩
  else []

/-- A mark that cannot be written fails the run. The executor then never starts. -/
def executeAndRecord (store : Store) (dispatch : Dispatch) (execution : Execution) (faults : Faults)
    (now : Nat) : Recorded :=
  let ticket := runningTicket dispatch
  if !completes (throwsAt faults.starting) ticket then ⟨[], true⟩
  else
    let mark := markDispatch (store.after ticket) dispatch
    let begun := ticket ++ attempt (throwsAt faults.starting) mark
    let recorded :=
      if completes (throwsAt faults.starting) mark then
        recordExecution calendar (store.after begun) dispatch execution faults now
      else recordFailure calendar (store.after begun) dispatch faults.error faults now
    ⟨begun ++ recorded.effects, recorded.rejected⟩

end NimbleBrain.Scheduler
