import NimbleBrain.Library.OrderedMap
import NimbleBrain.Library.Transition

/- A source holds a handle for each task of its server. The stream, live reads, cancels and the sweeper write it. -/

namespace NimbleBrain.McpSource.Tasks

open Library

section Handle

/-- A server may send any other text. -/
inductive TaskStatus
  | working
  | inputRequired
  | completed
  | failed
  | cancelled
  | other (text : String)
  deriving DecidableEq

def isTerminalStatus (status : TaskStatus) : Bool :=
  status = .completed || status = .failed || status = .cancelled

structure Task where
  taskId : String
  status : TaskStatus
  createdAt : String
  lastUpdatedAt : String
  ttl : Option Nat := none
  pollInterval : Option Nat := none
  statusMessage : Option String := none
  deriving DecidableEq

/-- The content is its JSON text. -/
structure CallToolResult where
  content : String
  isError : Bool := false
  deriving DecidableEq

inductive Outcome
  | result (result : CallToolResult)
  | error (message : String)
  deriving DecidableEq

structure TaskOwnerContext where
  workspaceId : String
  identityId : Option String := none
  originApp : Option String := none
  deriving DecidableEq

/-- What the stamp leaves out does not have to match. -/
def ownerMatches (stamped candidate : TaskOwnerContext) : Bool :=
  stamped.workspaceId = candidate.workspaceId &&
    (stamped.identityId = none || stamped.identityId = candidate.identityId) &&
      (stamped.originApp = none || stamped.originApp = candidate.originApp)

/-- The time in milliseconds and as text. -/
structure Clock where
  now : Nat
  iso : String

def DEFAULT_TASK_TTL_MS : Nat := 3600000

def TASK_HANDLE_GRACE_MS : Nat := 60000

/-- A handle remembers every status that was reported of its task, and what its awaiters got. -/
structure TaskHandle where
  taskId : String
  toolName : String
  ownerContext : TaskOwnerContext
  latestTask : Task
  terminal : Option Outcome := none
  terminalDeferred : Option Outcome := none
  aborted : Bool := false
  cancelRequested : Bool := false
  expiresAt : Nat
  draining : Bool := true
  reported : List TaskStatus := []
  received : List Outcome := []

-- How the host reads a date.
variable (parseDate : String → Option Nat)

def computeExpiry (task : Task) (now : Nat) : Nat :=
  (parseDate task.lastUpdatedAt).getD now + (task.ttl.filter (0 < ·)).getD DEFAULT_TASK_TTL_MS +
    TASK_HANDLE_GRACE_MS

def TaskHandle.report (handle : TaskHandle) : TaskHandle :=
  { handle with reported := handle.reported ++ [handle.latestTask.status] }

/-- Only the first outcome settles the promise. -/
def TaskHandle.settle (handle : TaskHandle) (outcome : Outcome) : TaskHandle :=
  { handle with terminal := some outcome, terminalDeferred := handle.terminalDeferred.or (some outcome) }

/-- A settled handle is kept for a while. -/
def TaskHandle.finish (handle : TaskHandle) (outcome : Outcome) (status : TaskStatus)
    (statusMessage : Option String) (clock : Clock) : TaskHandle :=
  { handle.settle outcome with
    latestTask := { handle.latestTask with status, statusMessage, lastUpdatedAt := clock.iso }
    expiresAt := clock.now + TASK_HANDLE_GRACE_MS
    draining := false }

def TaskHandle.refresh (handle : TaskHandle) (task : Task) (now : Nat) : TaskHandle :=
  { handle with latestTask := task, expiresAt := computeExpiry parseDate task now }

end Handle

section Drain

/-- What the stream of a task brings, its end and its errors. -/
inductive StreamMessage
  | taskStatus (task : Option Task)
  | taskCreated
  | result (result : Option CallToolResult)
  | error (message : Option String)
  | ended
  | threw (message : String)

variable (parseDate : String → Option Nat) (handle : TaskHandle) (clock : Clock)

/-- A status that carries no task is left out. -/
def applyTaskStatus (task : Option Task) : TaskHandle :=
  match task with
  | none => handle
  | some task => (handle.refresh parseDate task clock.now).report

/-- A result message without a result does not settle. -/
def settleTaskResult (result : Option CallToolResult) : TaskHandle :=
  match result with
  | none => handle
  | some result => handle.finish (.result result) .completed handle.latestTask.statusMessage clock

/-- A cancel that was asked for rejects. Any other error is a result. -/
def settleTaskError (error : Option String) : TaskHandle :=
  let message := error.getD ("Task " ++ handle.taskId ++ " failed")
  if handle.cancelRequested then
    handle.finish (.error ("Task " ++ handle.taskId ++ " cancelled: " ++ message)) .cancelled (some message) clock
  else
    handle.finish (.result { content := message, isError := true })
      (if handle.aborted then .cancelled else .failed) (some message) clock

def settleStreamEndedWithoutTerminal : TaskHandle :=
  let message := "Task " ++ handle.taskId ++ " stream ended without a terminal message"
  handle.finish (.error message) .failed (some message) clock

def settleDrainerThrow (message : String) : TaskHandle :=
  handle.finish (.error message) (if handle.aborted then .cancelled else .failed) (some message) clock

def drainTaskStream : StreamMessage → TaskHandle
  | .taskStatus task => applyTaskStatus parseDate handle clock task
  | .taskCreated => handle
  | .result result => settleTaskResult handle clock result
  | .error message => settleTaskError handle clock message
  | .ended => settleStreamEndedWithoutTerminal handle clock
  | .threw message => settleDrainerThrow handle clock message

end Drain

section State

/-- Handles have numbers, and the table names the one that a task id stands for. Calls wait on their handles. -/
structure State where
  handles : OrderedMap Nat TaskHandle := ∅
  taskHandles : OrderedMap String Nat := ∅
  connected : Bool := true
  awaiters : OrderedMap Nat Nat := ∅
  statusReads : OrderedMap Nat Nat := ∅
  cancels : OrderedMap Nat Nat := ∅

inductive TaskError
  | notFound (taskId : String)
  | alreadyTerminal (taskId : String) (status : TaskStatus)
  deriving DecidableEq

variable (parseDate : String → Option Nat) (state : State)

/-- Who does not own the task learns only that it is not found. -/
def lookupHandle (taskId : String) (context : TaskOwnerContext) : Except TaskError (Nat × TaskHandle) :=
  match (state.taskHandles.get? taskId).bind fun number => (state.handles.get? number).map (Prod.mk number) with
  | none => .error (.notFound taskId)
  | some (number, handle) =>
      if ownerMatches handle.ownerContext context then .ok (number, handle) else .error (.notFound taskId)

def State.put (number : Nat) (handle : TaskHandle) : State :=
  { state with handles := state.handles.set number handle }

/-- The first message of the stream made the task. -/
def startToolAsTask (number : Nat) (toolName : String) (ownerContext : TaskOwnerContext) (task : Task)
    (aborted : Bool) (now : Nat) : Option State :=
  match state.handles.get? number with
  | some _ => none
  | none =>
      some
        { state.put number
            { taskId := task.taskId, toolName, ownerContext, latestTask := task, aborted
              expiresAt := computeExpiry parseDate task now, reported := [task.status] } with
          taskHandles := state.taskHandles.set task.taskId number }

def drainNext (number : Nat) (message : StreamMessage) (clock : Clock) : Option State :=
  match state.handles.get? number with
  | some handle =>
      if handle.draining then some (state.put number (drainTaskStream parseDate handle clock message)) else none
  | none => none

def awaitToolTaskResult (call : Nat) (taskId : String) (context : TaskOwnerContext) : Except TaskError State :=
  (lookupHandle state taskId context).map fun found =>
    { state with awaiters := state.awaiters.set call found.1 }

/-- An awaiter goes on once the promise is settled. -/
def resume (call : Nat) : Option State :=
  (state.awaiters.get? call).bind fun number =>
    (state.handles.get? number).bind fun handle =>
      handle.terminalDeferred.map fun outcome =>
        { state.put number { handle with received := handle.received ++ [outcome] } with
          awaiters := state.awaiters.delete call }

/-- A task that is not over is asked for at the server. -/
def getTaskStatus (call : Nat) (taskId : String) (context : TaskOwnerContext) : Except TaskError State :=
  (lookupHandle state taskId context).map fun found =>
    if found.2.terminal.isSome || isTerminalStatus found.2.latestTask.status || !state.connected then
      state.put found.1 found.2.report
    else { state with statusReads := state.statusReads.set call found.1 }

/-- The answer of the server replaces the task. Without one, the last known task is reported. -/
def getTaskStatusAnswered (call : Nat) (upstream : Option Task) (now : Nat) : Option State :=
  (state.statusReads.get? call).bind fun number =>
    (state.handles.get? number).map fun handle =>
      let reading := match upstream with
        | some task => handle.refresh parseDate task now
        | none => handle
      { state.put number reading.report with statusReads := state.statusReads.delete call }

def cancelTask (call : Nat) (taskId : String) (context : TaskOwnerContext) : Except TaskError State :=
  (lookupHandle state taskId context).bind fun found =>
    if found.2.terminal.isSome || isTerminalStatus found.2.latestTask.status then
      .error (.alreadyTerminal taskId found.2.latestTask.status)
    else
      .ok
        { state.put found.1 { found.2 with cancelRequested := true, aborted := true } with
          cancels := state.cancels.set call found.1 }

/-- The status of a task that settled without one becomes cancelled. -/
def TaskHandle.normalize (handle : TaskHandle) (iso : String) : TaskHandle :=
  if isTerminalStatus handle.latestTask.status then handle
  else { handle with latestTask := { handle.latestTask with status := .cancelled, lastUpdatedAt := iso } }

def cancelTaskSettled (call : Nat) (iso : String) : Option State :=
  (state.cancels.get? call).bind fun number =>
    (state.handles.get? number).bind fun handle =>
      handle.terminalDeferred.map fun _ =>
        { state.put number (handle.normalize iso).report with cancels := state.cancels.delete call }

/-- A handle that is given up is settled, unless it is already. -/
def TaskHandle.giveUp (handle : TaskHandle) (message : String) : TaskHandle :=
  if handle.terminal.isSome then handle else { handle.settle (.error message) with aborted := true }

/-- Whether the table names the handle. -/
def State.Named (number : Nat) (handle : TaskHandle) : Prop := state.taskHandles.get? handle.taskId = some number

instance (number : Nat) (handle : TaskHandle) : Decidable (state.Named number handle) :=
  inferInstanceAs (Decidable (_ = some number))

def sweepExpiredTasks (now : Nat) : State :=
  { state with
    handles := state.handles.filterMap fun number handle =>
      some
        (if state.Named number handle ∧ handle.expiresAt ≤ now then
          handle.giveUp ("Task " ++ handle.taskId ++ " swept after ttl")
        else handle)
    taskHandles := state.taskHandles.filterMap fun _ number =>
      if (state.handles.get? number).any fun handle => handle.expiresAt ≤ now then none else some number }

/-- A stop aborts every stream and clears the table. -/
def stop : State :=
  { state with
    handles := state.handles.filterMap fun number handle =>
      some
        (if state.Named number handle then
          { handle.giveUp ("Task " ++ handle.taskId ++ " aborted: source stopped") with aborted := true }
        else handle)
    taskHandles := ∅
    connected := false }

/-- The signal of the caller aborts its own task. -/
def abort (number : Nat) : Option State :=
  (state.handles.get? number).map fun handle => state.put number { handle with aborted := true }

end State

inductive Action
  | startToolAsTask (number : Nat) (toolName : String) (ownerContext : TaskOwnerContext) (task : Task)
      (aborted : Bool) (now : Nat)
  | drainNext (number : Nat) (message : StreamMessage) (clock : Clock)
  | awaitToolTaskResult (call : Nat) (taskId : String) (context : TaskOwnerContext)
  | resume (call : Nat)
  | getTaskStatus (call : Nat) (taskId : String) (context : TaskOwnerContext)
  | getTaskStatusAnswered (call : Nat) (upstream : Option Task) (now : Nat)
  | cancelTask (call : Nat) (taskId : String) (context : TaskOwnerContext)
  | cancelTaskSettled (call : Nat) (iso : String)
  | sweepExpiredTasks (now : Nat)
  | stop
  | reconnect
  | abort (number : Nat)

variable (parseDate : String → Option Nat)

/-- No call of the number is waiting. -/
def State.Fresh (state : State) (call : Nat) : Prop :=
  state.awaiters.get? call = none ∧ state.statusReads.get? call = none ∧ state.cancels.get? call = none

instance (state : State) (call : Nat) : Decidable (state.Fresh call) :=
  inferInstanceAs (Decidable (_ = none ∧ _ = none ∧ _ = none))

/-- A call that throws leaves the state as it is. -/
def State.after (state : State) : Except TaskError State → State
  | .ok after => after
  | .error _ => state

def step (state : State) : Action → Option State
  | .startToolAsTask number toolName ownerContext task aborted now =>
      startToolAsTask parseDate state number toolName ownerContext task aborted now
  | .drainNext number message clock => drainNext parseDate state number message clock
  | .awaitToolTaskResult call taskId context =>
      if state.Fresh call then some (state.after (awaitToolTaskResult state call taskId context)) else none
  | .resume call => resume state call
  | .getTaskStatus call taskId context =>
      if state.Fresh call then some (state.after (getTaskStatus state call taskId context)) else none
  | .getTaskStatusAnswered call upstream now => getTaskStatusAnswered parseDate state call upstream now
  | .cancelTask call taskId context =>
      if state.Fresh call then some (state.after (cancelTask state call taskId context)) else none
  | .cancelTaskSettled call iso => cancelTaskSettled state call iso
  | .sweepExpiredTasks now => some (sweepExpiredTasks state now)
  | .stop => some (stop state)
  | .reconnect => some { state with connected := true }
  | .abort number => abort state number

def TaskSystem : System State Action where
  initial state := state = {}
  step := step parseDate

end NimbleBrain.McpSource.Tasks
