import NimbleBrain.EventRuns.Callbacks

/- Routes deliver the items of a workspace. Each target has a row in the ledger, which outlives the process. -/

namespace NimbleBrain.Notifications

open Library EventRuns

def maxRouteAttempts : Nat := 3

def routeRetryDelaysMs : List Int := [60000, 240000]

/-- A delay of the ladder, or its last one. -/
def backoffDelay (attempts : Nat) (ladder : List Int) : Int :=
  if attempts = 0 ∨ ladder = [] then 0 else ladder.getD (min (attempts - 1) (ladder.length - 1)) 0

def retryDelayMs (attempts : Nat) : Int := backoffDelay attempts routeRetryDelaysMs

inductive DeliverTarget where
  | tool (name : String)
  | agent (task : String)
  deriving DecidableEq

def DeliverTarget.kind : DeliverTarget → DeliveryTargetKind
  | .tool _ => .tool
  | .agent _ => .agent

def DeliverTarget.name : DeliverTarget → String
  | .tool name => name
  | .agent task => task

structure NotificationRoute where
  id : String
  createdBy : String
  expression : Option NotificationRouteMatch := none
  deliver : List DeliverTarget
  deriving DecidableEq

/-- The routes of a workspace record. The settings store no two routes of one id. -/
structure RouteList where
  routes : List NotificationRoute
  distinct : (routes.map NotificationRoute.id).Nodup
  deriving DecidableEq

/-- The identity of a ledger row across a restart. -/
abbrev RowKey := WakeRow

/-- A slot of a route that one item matched. -/
structure MatchedTarget where
  kind : DeliveryTargetKind
  wake : Wake
  deriving DecidableEq

abbrev MatchedTarget.key (target : MatchedTarget) : RowKey := target.wake.row

def routeMatches (route : NotificationRoute) (item : Notification) : Bool :=
  matchesNotification route.expression (matchSubject item)

def resolveTarget (wsId : String) (item : Notification) (route : NotificationRoute)
    (slot : DeliverTarget × Nat) : MatchedTarget where
  kind := slot.1.kind
  wake :=
    { wsId := wsId, item := item, routeId := route.id, createdBy := route.createdBy,
      target := slot.1.name, index := slot.2 }

/-- A test names one route, and every other evaluation takes all of them. -/
def selectRoutes (only : Option String) (routes : List NotificationRoute) : List NotificationRoute :=
  match only with
  | none => routes
  | some routeId => routes.filter (·.id = routeId)

/-- Every slot of every route that the item matches. -/
def matchTargets (wsId : String) (routes : List NotificationRoute) (item : Notification) : List MatchedTarget :=
  (routes.filter (routeMatches · item)).flatMap fun route =>
    route.deliver.zipIdx.map (resolveTarget wsId item route)

/-- The row of a target before anything has been attempted. -/
def seedRow (target : MatchedTarget) (now : Moment) : DeliveryRecord :=
  match target.kind with
  | .agent =>
      { routeId := target.wake.routeId, target := target.wake.target, index := some target.wake.index,
        kind := .agent, attempts := 0, outcome := .deferred, classification := some "awaiting_batch",
        updatedAt := now }
  | .tool =>
      { routeId := target.wake.routeId, target := target.wake.target, index := some target.wake.index,
        kind := .tool, attempts := 0, outcome := .pending, updatedAt := now, nextAttemptAt := some now }

inductive DispatchOutcome where
  | ok | denied | skipped | error
  deriving DecidableEq

/-- What the unattended door answers. -/
structure UnattendedDispatchResult where
  outcome : DispatchOutcome
  classification : Option String := none
  error : Option String := none
  deriving DecidableEq

/-- Only a call that did not complete is worth another attempt. -/
def ledgerOutcome (result : UnattendedDispatchResult) (attempts : Nat) : DeliveryOutcome :=
  match result.outcome with
  | .ok => .delivered
  | .denied => .denied
  | .skipped => .skipped
  | .error => if maxRouteAttempts ≤ attempts then .failed else .pending

def truncateError (message : String) : String :=
  if 500 < message.length then (message.take 500).toString ++ "…" else message

/-- A door that threw counts as a call that did not complete. -/
def doorResult (answer : Except String UnattendedDispatchResult) : UnattendedDispatchResult :=
  match answer with
  | .ok result => result
  | .error message => { outcome := .error, classification := some "tool_error", error := some message }

/-- An attempt at a tool target, after the attempts that the ledger counted. -/
structure Attempt where
  key : RowKey
  priorAttempts : Nat
  deriving DecidableEq

def attemptRow (attempt : Attempt) (result : UnattendedDispatchResult) (now : Moment) : DeliveryRecord :=
  let attempts := attempt.priorAttempts + 1
  let outcome := ledgerOutcome result attempts
  { routeId := attempt.key.routeId, target := attempt.key.target, index := some attempt.key.index,
    kind := .tool, attempts := attempts, outcome := outcome, updatedAt := now,
    classification := nonEmpty result.classification,
    lastError := (nonEmpty result.error).map truncateError,
    nextAttemptAt := if outcome = .pending then some (now + retryDelayMs attempts) else none }

def outcomeOfWake : WakeOutcome → DeliveryOutcome
  | .delivered => .delivered
  | .skipped => .skipped
  | .denied => .denied
  | .failed => .failed

/-- There is no second attempt at a batch. -/
def wakeRow (key : RowKey) (result : EventWakeSettlement) (now : Moment) : DeliveryRecord where
  routeId := key.routeId
  target := key.target
  index := some key.index
  kind := .agent
  attempts := 1
  outcome := outcomeOfWake result.outcome
  updatedAt := now
  classification := nonEmpty result.classification
  lastError := (nonEmpty result.reason).map truncateError
  runId := nonEmpty result.runId

/-- The batch of the row died with the process that opened it. -/
def lostBatchRow (row : DeliveryRecord) (now : Moment) : DeliveryRecord :=
  { row with
    outcome := .failed
    classification := some "batch_not_resumed"
    lastError := some ("the runtime restarted before this notification's batch reached its task; " ++
      "batches are not re-formed across a restart")
    updatedAt := now }

/-- An outstanding attempt in memory. -/
structure PendingAttempt where
  key : RowKey
  attempts : Nat
  dueAt : Moment
  deriving DecidableEq

def abandonedRow (entry : PendingAttempt) (reason : String) (now : Moment) : DeliveryRecord where
  routeId := entry.key.routeId
  target := entry.key.target
  index := some entry.key.index
  kind := .tool
  attempts := entry.attempts
  outcome := .failed
  classification := some "route_changed"
  lastError := some reason
  updatedAt := now

/-- The stored rule decides on every attempt. The slot must still name the target. -/
def retryTarget (routes : List NotificationRoute) (entry : PendingAttempt) : Except String RowKey :=
  match routes.find? (·.id = entry.key.routeId) with
  | none => .error "the route was changed or removed before the retry ran"
  | some route =>
      match route.deliver[entry.key.index]? with
      | some (.tool name) =>
          if name = entry.key.target then
            .ok { wsId := entry.key.wsId, ref := entry.key.ref, routeId := route.id, target := name,
                  index := entry.key.index }
          else .error "the route no longer delivers to this target"
      | _ => .error "the route no longer delivers to this target"

/-- A job of the workspace's chain. The first one runs, and waits between its steps. -/
inductive Job where
  | evaluate (item : Notification) (only : Option String)
  | evaluating (item : Notification) (only : Option String)
  | waking (agents : List Wake) (tools : List RowKey)
  | calling (attempt : Attempt) (tools : List RowKey)
  | answered (attempt : Attempt) (result : UnattendedDispatchResult) (tools : List RowKey)
  | retry (entry : PendingAttempt)
  | retrying (entry : PendingAttempt)
  deriving DecidableEq

/-- What a process holds for the workspace. Callbacks of the trigger wait to write their rows. -/
structure Dispatcher where
  pending : OrderedMap RowKey PendingAttempt := ∅
  jobs : List Job := []
  stopped : Bool := false
  scanned : Bool := false
  trigger : Trigger := {}
  callbacks : List (RowKey × EventWakeSettlement) := []
  deriving DecidableEq

/-- The ledger of a workspace, and the process that runs. The last four fields count. -/
structure Deliveries where
  arrived : List (String × String) := []
  rows : OrderedMap RowKey DeliveryRecord := ∅
  process : Option Dispatcher := none
  dispatched : List RowKey := []
  closed : List RowKey := []
  lost : List RowKey := []
  crashes : Nat := 0
  deriving DecidableEq

/-- The outcome is one that nothing is owed after. -/
def DeliveryRecord.isFinished (row : DeliveryRecord) : Bool :=
  decide (row.outcome ≠ .pending ∧ row.outcome ≠ .deferred)

/-- How the tasks side answers an offer. A runtime without tasks has no such side. -/
inductive WakeAnswer where
  | offered (auto : Option EventTask) (answers : FireAnswers)
  | unavailable
  | threw (reason : String)

def tasksUnavailable : EventWakeSettlement where
  outcome := .denied
  classification := some "tasks_unavailable"
  reason := some "this runtime has no tasks source, so nothing can be woken"

def wakeError (reason : String) : EventWakeSettlement where
  outcome := .failed
  classification := some "wake_error"
  reason := some reason

namespace Dispatcher

variable (process : Dispatcher)

def withJobs (jobs : List Job) : Dispatcher := { process with jobs := jobs }

/-- The trigger after a step of its own. The callbacks it made have rows to write. -/
def withTrigger (trigger : Trigger) : Dispatcher :=
  { process with
    trigger := trigger
    callbacks := process.callbacks ++
      (trigger.settled.drop process.trigger.settled.length).map fun call => (call.1.row, call.2) }

/-- A refusal is settled straight away. -/
def refuse (key : RowKey) (result : EventWakeSettlement) : Dispatcher :=
  { process with callbacks := process.callbacks ++ [(key, result)] }

def wake (wake : Wake) : WakeAnswer → Dispatcher
  | .unavailable => process.refuse wake.row tasksUnavailable
  | .threw reason => process.refuse wake.row (wakeError reason)
  | .offered auto answers =>
      let offered := process.trigger.offer wake auto answers
      match offered.2 with
      | .accepted => process.withTrigger offered.1
      | .refused result => (process.withTrigger offered.1).refuse wake.row result

/-- A retry that could not run is put back unless a newer entry is there. -/
def requeue (entry : PendingAttempt) (now : Moment) : Dispatcher :=
  if (process.pending.get? entry.key).isSome then process
  else { process with
    pending := process.pending.set entry.key
      { entry with dueAt := now + retryDelayMs (max entry.attempts 1) } }

/-- The entries that have come due leave the index and queue behind the chain. -/
def sweep (now : Moment) : Dispatcher :=
  let due := process.pending.values.filter fun entry => entry.dueAt ≤ now
  { process with
    pending := due.foldl (fun pending entry => pending.delete entry.key) process.pending
    jobs := process.jobs ++ due.map .retry }

/-- The entry that the boot scan makes of a row. -/
def index (key : RowKey) (row : DeliveryRecord) (now : Moment) : Dispatcher :=
  { process with
    pending := process.pending.set key
      { key := key, attempts := row.attempts, dueAt := row.nextAttemptAt.getD now } }

end Dispatcher

namespace Deliveries

variable (world : Deliveries)

def run (process : Dispatcher) : Deliveries := { world with process := some process }

/-- A row replaces the one of its slot. -/
def writeRow (key : RowKey) (row : DeliveryRecord) : Deliveries :=
  { world with
    rows := world.rows.set key row
    closed := world.closed ++ if row.isFinished then [key] else [] }

def seed (matched : List MatchedTarget) (now : Moment) : Deliveries :=
  matched.foldl (fun world target => world.writeRow target.key (seedRow target now)) world

def dispatch (key : RowKey) : Deliveries := { world with dispatched := world.dispatched ++ [key] }

/-- The job at the head of the chain takes up its work. -/
def startJob (process : Dispatcher) : Option Deliveries :=
  match process.jobs with
  | .evaluate item only :: rest => some (world.run (process.withJobs (.evaluating item only :: rest)))
  | .retry entry :: rest =>
      if process.stopped then some (world.run (process.withJobs rest))
      else some (world.run (process.withJobs (.retrying entry :: rest)))
  | _ => none

/-- The workspace record is read. A record that cannot be read ends an evaluation and puts a retry back. -/
def readRoutes (wsId : String) (process : Dispatcher) (routes : Option RouteList) (now : Moment) :
    Option Deliveries :=
  match process.jobs, routes with
  | .evaluating _ _ :: rest, none => some (world.run (process.withJobs rest))
  | .evaluating item only :: rest, some list =>
      let matched := matchTargets wsId (selectRoutes only list.routes) item
      let agents := (matched.filter (·.kind = .agent)).map MatchedTarget.wake
      let tools := (matched.filter (·.kind = .tool)).map MatchedTarget.key
      some ((world.seed matched now).run (process.withJobs (.waking agents tools :: rest)))
  | .retrying entry :: rest, none => some (world.run ((process.withJobs rest).requeue entry now))
  | .retrying entry :: rest, some list =>
      match retryTarget list.routes entry with
      | .error reason =>
          some ((world.writeRow entry.key (abandonedRow entry reason now)).run (process.withJobs rest))
      | .ok key =>
          some ((world.dispatch key).run
            (process.withJobs (.calling { key := key, priorAttempts := entry.attempts } [] :: rest)))
  | _, _ => none

/-- Agent targets come first, and none of them waits. -/
def wakeNext (process : Dispatcher) (answer : WakeAnswer) : Option Deliveries :=
  match process.jobs with
  | .waking (wake :: agents) tools :: rest =>
      some ((world.dispatch wake.row).run
        ((process.withJobs (.waking agents tools :: rest)).wake wake answer))
  | _ => none

/-- The tool targets are called one after the other. -/
def callNext (process : Dispatcher) : Option Deliveries :=
  match process.jobs with
  | .waking [] [] :: rest => some (world.run (process.withJobs rest))
  | .waking [] (key :: tools) :: rest =>
      if process.stopped then some (world.run (process.withJobs rest))
      else some ((world.dispatch key).run
        (process.withJobs (.calling { key := key, priorAttempts := 0 } tools :: rest)))
  | _ => none

/-- The door answers. The state of the route's author is reconciled before the row is written. -/
def answer (process : Dispatcher) (answer : Except String UnattendedDispatchResult) : Option Deliveries :=
  match process.jobs with
  | .calling attempt tools :: rest =>
      some (world.run (process.withJobs (.answered attempt (doorResult answer) tools :: rest)))
  | _ => none

def record (process : Dispatcher) (now : Moment) : Option Deliveries :=
  match process.jobs with
  | .answered attempt result tools :: rest =>
      let row := attemptRow attempt result now
      some ((world.writeRow attempt.key row).run
        { process with
          jobs := .waking [] tools :: rest
          pending :=
            if row.outcome = .pending then
              process.pending.set attempt.key
                { key := attempt.key, attempts := row.attempts, dueAt := now + retryDelayMs row.attempts }
            else process.pending })
  | _ => none

/-- A callback of the trigger writes the row of its wake. -/
def settleWake (process : Dispatcher) (now : Moment) : Option Deliveries :=
  match process.callbacks with
  | (key, result) :: rest =>
      some ((world.writeRow key (wakeRow key result now)).run { process with callbacks := rest })
  | [] => none

/-- One unfinished row of the boot scan. -/
def resumeRow (now : Moment) (world : Deliveries) (entry : RowKey × DeliveryRecord) : Deliveries :=
  match world.process with
  | none => world
  | some process =>
      match entry.2.kind with
      | .agent =>
          if entry.2.outcome = .deferred then world.writeRow entry.1 (lostBatchRow entry.2 now) else world
      | .tool =>
          if entry.2.outcome = .pending then world.run (process.index entry.1 entry.2 now) else world

/-- Every row that has not reached a terminal outcome. -/
def pendingDeliveries : List (RowKey × DeliveryRecord) :=
  world.rows.entries.filter fun entry => !entry.2.isFinished

/-- The scan takes one instant. It may be cut short by the end of the process. -/
def scanFirst (count : Nat) (process : Dispatcher) (now : Moment) : Deliveries :=
  (world.pendingDeliveries.take count).foldl (resumeRow now) (world.run { process with scanned := true })

/-- The dispatch that a job waits for. -/
def jobsInFlight : Job → List RowKey
  | .calling attempt _ => [attempt.key]
  | .answered attempt _ _ => [attempt.key]
  | _ => []

end Deliveries

/-- The rows whose wake is not settled in the ledger. -/
def Dispatcher.wakes (process : Dispatcher) : List RowKey :=
  process.callbacks.map Prod.fst ++ process.trigger.outstanding.map Settler.row

/-- The dispatches whose result is not in the ledger. -/
def Dispatcher.inFlight (process : Dispatcher) : List RowKey :=
  process.jobs.flatMap Deliveries.jobsInFlight ++ process.wakes

namespace Deliveries

variable (world : Deliveries)

def memory : Dispatcher := world.process.getD {}

/-- Only the ledger outlives the process. -/
def crash : Deliveries :=
  { world with
    process := none
    lost := world.lost ++ world.memory.inFlight
    crashes := world.crashes + 1 }

end Deliveries

/-- The steps of the trigger that no route takes. -/
inductive TriggerMove where
  | timer (key : String) (answers : FireAnswers)
  | runEnds (place : Nat) (promise : RunPromise)
  | stop

def TriggerMove.step : TriggerMove → TriggerStep
  | .timer key answers => .timer key answers
  | .runEnds place promise => .runEnds place promise
  | .stop => .stop

/-- What happens to the ledger, in any order that the chain of the workspace allows. -/
inductive DeliveryStep where
  | boot
  | arrive (item : Notification) (only : Option String)
  | startJob
  | readRoutes (routes : Option RouteList) (now : Moment)
  | wakeNext (answer : WakeAnswer)
  | callNext
  | answer (answer : Except String UnattendedDispatchResult)
  | record (now : Moment)
  | settleWake (now : Moment)
  | trigger (move : TriggerMove)
  | sweep (now : Moment)
  | scan (now : Moment)
  | scanFails
  | stopInScan (count : Nat) (now : Moment)
  | stop
  | crash

namespace Deliveries

/-- A new item is stored, and its evaluation queues behind the chain. -/
def arrive (world : Deliveries) (process : Dispatcher) (item : Notification) (only : Option String) : Deliveries :=
  { world with
    arrived := world.arrived ++ [item.pair]
    process := some (process.withJobs (process.jobs ++ [.evaluate item only])) }

/-- A step of the running process. An item is stored once, and evaluated by the call that stored it. -/
def processStep (wsId : String) (world : Deliveries) (process : Dispatcher) : DeliveryStep → Option Deliveries
  | .boot => none
  | .arrive item only =>
      if item.pair ∈ world.arrived then none
      else some (world.arrive process item only)
  | .startJob => world.startJob process
  | .readRoutes routes now => world.readRoutes wsId process routes now
  | .wakeNext answer => world.wakeNext process answer
  | .callNext => world.callNext process
  | .answer answer => world.answer process answer
  | .record now => world.record process now
  | .settleWake now => world.settleWake process now
  | .trigger move => (triggerSystem.step process.trigger move.step).map fun trigger =>
      world.run (process.withTrigger trigger)
  | .sweep now => some (world.run (process.sweep now))
  | .scan now =>
      if process.scanned then none else some (world.scanFirst world.pendingDeliveries.length process now)
  | .scanFails => if process.scanned then none else some (world.run { process with scanned := true })
  | .stopInScan count now => if process.scanned then none else some (world.scanFirst count process now).crash
  | .stop => some (world.run { process with stopped := true })
  | .crash => some world.crash

end Deliveries

/-- The ledger starts empty. Between two processes only a boot is possible. -/
def deliverySystem (wsId : String) : System Deliveries DeliveryStep where
  initial world := world = {}
  step world step :=
    match world.process, step with
    | none, .boot => some (world.run {})
    | none, _ => none
    | some process, step => world.processStep wsId process step

end NimbleBrain.Notifications
