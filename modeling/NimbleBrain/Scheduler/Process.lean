import NimbleBrain.Library.Transition
import NimbleBrain.Scheduler.Dispatch
import NimbleBrain.Scheduler.Edits

/- A process runs the scheduler of one task. It may stop at any write, and another one starts after it. -/

namespace NimbleBrain.Scheduler

open Library Tasks

structure QueuedRun where
  runKey : RunKey
  trigger : TaskRunTrigger
  requested : Option RequestedRun
  deriving DecidableEq

/-- What a process holds in memory beside the definition. -/
structure Process where
  active : List Dispatch := []
  queue : List QueuedRun := []
  scheduledInFlight : List RunId := []
  deriving DecidableEq

/-- The last two fields note which occurrences started and which were recorded. -/
structure World where
  now : Nat := 0
  store : Store := {}
  process : Option Process := none
  nextRunId : RunId := 0
  fired : List OnceTime := []
  recorded : List OnceTime := []

/-- What the door answers for a run that may wait. -/
inductive DoorAnswer where
  | started | queued | refused
  deriving DecidableEq

/-- The operations of a process. The door and the executor are free in what they answer. -/
inductive Operation where
  | boot
  | tick (freeSlot : Bool)
  | reload
  | create (input : CreateInput)
  | edit (patch : UpdatePatch)
  | delete
  | disableAtCeiling
  | requestRunNow (requested : Bool) (answer : DoorAnswer)
  | runFromEvent (answer : DoorAnswer)
  | requestBatchRun (item : BatchItemRef) (answer : DoorAnswer)
  | startQueued (place : Nat)
  | leaveQueue (place : Nat) (cancelled : Bool)
  | endRun (place : Nat) (execution : Execution) (faults : Faults)

inductive Action where
  | wait (ms : Nat)
  | complete (operation : Operation)
  | stopAfter (writes : Nat) (operation : Operation)

/-- What a completed operation does. -/
structure Turn where
  effects : List Effect := []
  process : Process
  fired : List OnceTime := []
  recorded : List OnceTime := []

namespace Process

/-- The task has a run of its own. -/
def isRunning (process : Process) : Bool := process.active.any fun run => run.runKey = .task

def isQueued (process : Process) : Bool := process.queue.any fun run => run.runKey = .task

end Process

/-- The mark of the last process names the occurrence that the next start records. -/
def interruptedOnce (file : Option Task) : List OnceTime :=
  match file.bind Task.scheduledRunInFlight with
  | none => []
  | some inFlight => inFlight.onceAt.toList

namespace World

variable (calendar : Calendar)

/-- The dispatch of the task for a trigger. -/
def dispatchOf (world : World) (runKey : RunKey) (task : Task) (trigger : TaskRunTrigger)
    (requested : Option RequestedRun) : Dispatch where
  runKey := runKey
  task := task
  runId := (requested.map RequestedRun.runId).getD world.nextRunId
  startedAt := world.now
  trigger := trigger
  firedOnceAt := firedOnceAt task trigger
  requested := requested

/-- The run takes its slot, and its executor starts. -/
def dispatchRun (world : World) (process : Process) (runKey : RunKey) (task : Task)
    (trigger : TaskRunTrigger) (requested : Option RequestedRun) : Turn :=
  let dispatch := world.dispatchOf runKey task trigger requested
  let ticket := runningTicket dispatch
  { effects := ticket ++ markDispatch (world.store.after ticket) dispatch
    process := { process with
      active := process.active ++ [dispatch]
      scheduledInFlight :=
        if trigger = .scheduled then dispatch.runId :: process.scheduledInFlight
        else process.scheduledInFlight }
    fired := dispatch.firedOnceAt.toList }

/-- A run that does not start is recorded. -/
def skipRun (world : World) (process : Process) (trigger : Option TaskRunTrigger)
    (requested : Option RequestedRun) (cancelled : Bool) : Turn :=
  { effects := recordSkipped calendar world.store trigger requested
      (notStartedRun world.nextRunId cancelled world.now) world.now
    process := process }

/-- A due task is dispatched when it has no run and the door has a slot. -/
def considerForDispatch (world : World) (process : Process) (task : Task) (freeSlot : Bool) : Turn :=
  if !task.enabled || !isDue task world.now || isInBackoff task world.now then { process := process }
  else if process.isRunning then world.skipRun calendar process none none false
  else if process.isQueued || !freeSlot then { process := process }
  else world.dispatchRun process .task task .scheduled none

/-- A manual or event run takes a slot, waits or is refused. -/
def askDoor (world : World) (process : Process) (task : Task) (trigger : TaskRunTrigger)
    (requested : Option RequestedRun) (answer : DoorAnswer) : Turn :=
  match answer with
  | .started => world.dispatchRun process .task task trigger requested
  | .queued => { process := { process with queue := process.queue ++ [⟨.task, trigger, requested⟩] } }
  | .refused => world.skipRun calendar process (some trigger) requested false

def requestRunNow (world : World) (process : Process) (task : Task) (requested : Option RequestedRun)
    (answer : DoorAnswer) : Turn :=
  if process.isRunning || process.isQueued || runNowBudgetRefusal task world.now then
    world.skipRun calendar process (some .manual) requested false
  else world.askDoor calendar process task .manual requested answer

def runFromEvent (world : World) (process : Process) (task : Task) (answer : DoorAnswer) : Turn :=
  if !task.enabled then { process := process }
  else if process.isRunning || process.isQueued then
    world.skipRun calendar process (some .event) none false
  else world.askDoor calendar process task .event none answer

/-- Nothing is written for a batch run that the door refuses. -/
def requestBatchRun (world : World) (process : Process) (task : Task) (requested : RequestedRun)
    (answer : DoorAnswer) : Turn :=
  if runNowBudgetRefusal task world.now then { process := process }
  else match answer with
    | .refused => { process := process }
    | .started =>
        world.dispatchRun process (.batch requested.runId) task .manual (some requested)
    | .queued =>
        { process := { process with
            queue := process.queue ++ [⟨.batch requested.runId, .manual, some requested⟩] } }

/-- A queued run that gets a slot is checked again. -/
def startQueued (world : World) (process : Process) (run : QueuedRun) : Turn :=
  match world.store.definition with
  | none => { process := process }
  | some task =>
      if run.trigger = .event ∧ task.enabled = false then
        world.skipRun calendar process (some run.trigger) run.requested false
      else if run.trigger = .manual ∧ run.runKey = .task ∧ runNowBudgetRefusal task world.now then
        world.skipRun calendar process (some run.trigger) run.requested false
      else world.dispatchRun process run.runKey task run.trigger run.requested

/-- The record of a run that leaves the queue is written where its task still is. -/
def leaveQueue (world : World) (process : Process) (run : QueuedRun) (cancelled : Bool) : Turn :=
  if world.store.definition.isNone then { process := process }
  else world.skipRun calendar process (some run.trigger) run.requested cancelled

/-- The recording ends the dispatch, whether or not it was rejected. -/
def endRun (world : World) (process : Process) (dispatch : Dispatch) (execution : Execution)
    (faults : Faults) : Turn :=
  { effects := (recordExecution calendar world.store dispatch execution faults world.now).effects
    process := { process with
      active := process.active.erase dispatch
      scheduledInFlight := process.scheduledInFlight.erase dispatch.runId }
    recorded := if world.store.task.isSome then dispatch.firedOnceAt.toList else [] }

/-- A tool writes the task and reloads the scheduler. -/
def writeAndReload (world : World) (process : Process) (write : Effect) : Turn :=
  { effects := world.store.followedBy [write] fun store => reload calendar store world.now
    process := process }

/-- The faults spare the files. -/
def sparesWrites (faults : Faults) : Bool :=
  !(faults.first .result || faults.first .append || faults.first .save || faults.first .ticket ||
    faults.second .result || faults.second .append || faults.second .save || faults.second .ticket)

/-- What an operation does in the running process. -/
def turn (world : World) (process : Process) : Operation → Option Turn
  | .boot => none
  | .tick freeSlot =>
      some (world.store.definition.elim { process := process } fun task =>
        world.considerForDispatch calendar process task freeSlot)
  | .reload => some { effects := reload calendar world.store world.now, process := process }
  | .create input =>
      match handleCreate calendar world.store.task input world.now with
      | .error _ => some { process := process }
      | .ok task => some (world.writeAndReload calendar process (.saveTask task))
  | .edit patch =>
      match handleUpdate calendar world.store.task patch world.now with
      | .error _ => some { process := process }
      | .ok none => some { process := process }
      | .ok (some task) => some (world.writeAndReload calendar process (.saveTask task))
  | .delete =>
      if world.store.task.isNone then some { process := process }
      else some (world.writeAndReload calendar process .deleteTask)
  | .disableAtCeiling =>
      match world.store.task with
      | none => some { process := process }
      | some task =>
          some (world.writeAndReload calendar process (.saveTask { task with enabled := false }))
  | .requestRunNow requested answer =>
      world.store.definition.map fun task =>
        world.requestRunNow calendar process task
          (if requested then some ⟨world.nextRunId, none⟩ else none) answer
  | .runFromEvent answer =>
      world.store.definition.map fun task => world.runFromEvent calendar process task answer
  | .requestBatchRun item answer =>
      world.store.definition.map fun task =>
        world.requestBatchRun process task ⟨world.nextRunId, some item⟩ answer
  | .startQueued place =>
      process.queue[place]?.map fun run =>
        world.startQueued calendar { process with queue := process.queue.eraseIdx place } run
  | .leaveQueue place cancelled =>
      process.queue[place]?.map fun run =>
        world.leaveQueue calendar { process with queue := process.queue.eraseIdx place } run cancelled
  | .endRun place execution faults =>
      if sparesWrites faults then
        process.active[place]?.map fun dispatch => world.endRun calendar process dispatch execution faults
      else none

/-- An operation needs a process, and a start needs that there is none. -/
def begin (world : World) (operation : Operation) : Option Turn :=
  match world.process, operation with
  | none, .boot =>
      some { effects := start calendar world.store [] world.nextRunId world.now
             process := {}
             recorded := interruptedOnce world.store.task }
  | none, _ => none
  | some process, operation => world.turn calendar process operation

/-- Every operation may use up one run identifier. -/
def finish (world : World) (turn : Turn) : World :=
  { world with
    store := world.store.after turn.effects
    process := some turn.process
    nextRunId := world.nextRunId + 1
    fired := world.fired ++ turn.fired
    recorded := world.recorded ++ turn.recorded }

/-- Only the files outlive the process. -/
def stop (world : World) (effects : List Effect) : World :=
  { world with
    store := { world.store.after effects with definition := none }
    process := none
    nextRunId := world.nextRunId + 1 }

def step (world : World) : Action → Option World
  | .wait ms => some { world with now := world.now + ms }
  | .complete operation => (world.begin calendar operation).map world.finish
  | .stopAfter writes operation =>
      (world.begin calendar operation).map fun turn => world.stop (turn.effects.take writes)

end World

/-- No task has been created, and no process runs. -/
def schedulerSystem (calendar : Calendar) : System World Action where
  initial world := world = {}
  step := World.step calendar

end NimbleBrain.Scheduler
