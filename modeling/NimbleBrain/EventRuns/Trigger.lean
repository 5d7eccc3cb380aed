import NimbleBrain.Library.OrderedMap
import NimbleBrain.Library.Transition
import NimbleBrain.Notifications.Types

/- Routed items collect in one open batch for each task. A batch that closes starts one run. -/

namespace NimbleBrain.EventRuns

open Library Notifications

def fireWindowMs : Int := 3600000

def maxEventBatchItems : Nat := 50

def defaultEventDebounceMs : Int := 30000

def defaultEventMaxFiresPerHour : Int := 12

/-- The schedule of a task as the trigger reads it. -/
structure EventSchedule where
  isEvent : Bool := true
  expression : Option NotificationRouteMatch := none
  debounceMs : Option Int := none
  maxFiresPerHour : Option Int := none
  deriving DecidableEq

structure EventTask where
  schedule : Option EventSchedule := some {}
  enabled : Bool := true
  disabledReason : Option String := none
  deriving DecidableEq

namespace EventTask

def isEventSchedule (auto : EventTask) : Bool := auto.schedule.any EventSchedule.isEvent

def debounceMs (auto : EventTask) : Int :=
  ((auto.schedule.bind EventSchedule.debounceMs).filter fun declared => 0 < declared).getD
    defaultEventDebounceMs

def maxFiresPerHour (auto : EventTask) : Int :=
  ((auto.schedule.bind EventSchedule.maxFiresPerHour).filter fun declared => 0 < declared).getD
    defaultEventMaxFiresPerHour

end EventTask

/-- A missing match admits everything that a route sends. -/
def taskWants (auto : EventTask) (item : Notification) : Bool :=
  matchesNotification (auto.schedule.bind EventSchedule.expression) (matchSubject item)

/-- The outcomes of a delivery that a wake can end with. -/
inductive WakeOutcome where
  | delivered | skipped | denied | failed
  deriving DecidableEq

/-- Where the wake of one item ended up. -/
structure EventWakeSettlement where
  outcome : WakeOutcome
  classification : Option String := none
  reason : Option String := none
  runId : Option String := none
  deriving DecidableEq

inductive EventWakeAck where
  | accepted
  | refused (result : EventWakeSettlement)
  deriving DecidableEq

/-- The ledger row of an agent target: an item, and a slot of a route. -/
structure WakeRow where
  wsId : String
  ref : String × String
  routeId : String
  target : String
  index : Nat
  deriving DecidableEq

/-- A route offers an item to the task of its author. -/
structure Wake where
  wsId : String
  item : Notification
  routeId : String
  createdBy : String
  target : String
  index : Nat
  deriving DecidableEq

/-- The row that the settlement of the wake is written to. -/
def Wake.row (wake : Wake) : WakeRow where
  wsId := wake.wsId
  ref := wake.item.pair
  routeId := wake.routeId
  target := wake.target
  index := wake.index

/-- The callback of one offer. -/
structure Settler where
  offer : Nat
  row : WakeRow
  deriving DecidableEq

/-- The open batch of one task. Items and callbacks stand under the identifiers of the items. -/
structure PendingBatch where
  wsId : String
  ownerId : String
  taskId : String
  items : OrderedMap String Notification := ∅
  settlers : OrderedMap String Settler := ∅
  timer : Option Int := none
  deriving DecidableEq

/-- A dispatched batch waits for its run. -/
structure DispatchedBatch where
  key : String
  startedAt : Moment
  batch : PendingBatch
  deriving DecidableEq

/-- The last five fields note what was offered, called back and dispatched. -/
structure Trigger where
  batches : OrderedMap String PendingBatch := ∅
  inFlight : OrderedMap String (List Moment) := ∅
  stopped : Bool := false
  runs : List DispatchedBatch := []
  offers : Nat := 0
  accepted : List Settler := []
  settled : List (Settler × EventWakeSettlement) := []
  replaced : List (Settler × Settler) := []
  dispatched : List (List Notification) := []
  deriving DecidableEq

/-- What the scheduler and the clock answer while a batch closes. A history may be unreadable. -/
structure FireAnswers where
  task : Option EventTask
  eventRunsSince : Except String Nat := .ok 0
  checkedAt : Moment := 0
  startedAt : Moment := 0

inductive FireEnd where
  | noBatch | taskChanged
  | ceilingSpent (reason : String)
  | dispatched

/-- As much of a run's record as the trigger reads. -/
structure RunOutcome where
  id : String
  status : String
  error : Option String := none
  deriving DecidableEq

/-- How the promise of a run settles. -/
inductive RunPromise where
  | skipped (reason : String)
  | ran (run : RunOutcome)
  | rejected (reason : String)
  deriving DecidableEq

def batchKey (wsId ownerId taskId : String) : String := wsId ++ "/" ++ ownerId ++ "/" ++ taskId

def Wake.key (wake : Wake) : String := batchKey wake.wsId wake.createdBy wake.target

def notDispatched (reason : String) : EventWakeSettlement where
  outcome := .failed
  classification := some "batch_not_dispatched"
  reason := some reason

def taskChanged : EventWakeSettlement where
  outcome := .skipped
  classification := some "task_changed"
  reason := some "the task was disabled, deleted or rescheduled before the batch dispatched"

def ceilingReason (auto : EventTask) : String :=
  "Auto-disabled after firing " ++ toString auto.maxFiresPerHour ++ " times from events within an hour, which is " ++
    "this task's ceiling. A run whose own work produces the event that fires it " ++
    "again would otherwise never stop. Re-enable it once the loop is broken."

def ceilingSpentSettlement (reason : String) : EventWakeSettlement where
  outcome := .failed
  classification := some "event_fire_ceiling"
  reason := some reason

/-- A run that the runtime refused has a record too. A run that started and failed is a delivery. -/
def runSettlement : RunPromise → EventWakeSettlement
  | .skipped reason =>
      { outcome := .skipped, classification := some "run_not_started",
        reason := some ("the run did not start: " ++ reason) }
  | .ran run =>
      if run.status = "skipped" then
        { outcome := .skipped, classification := some "run_not_started",
          reason := some (run.error.getD "the runtime refused the run") }
      else { outcome := .delivered, runId := some run.id }
  | .rejected reason => { outcome := .failed, classification := some "run_error", reason := some reason }

namespace PendingBatch

/-- A batch that a wake opens. -/
def opened (wake : Wake) : PendingBatch where
  wsId := wake.wsId
  ownerId := wake.createdBy
  taskId := wake.target

/-- An item that comes again keeps its place, and its callback replaces the first. -/
def join (batch : PendingBatch) (item : Notification) (settler : Settler) : PendingBatch :=
  { batch with
    items := batch.items.set (notificationId item) item
    settlers := batch.settlers.set (notificationId item) settler }

/-- A full batch closes at once. -/
def isFull (batch : PendingBatch) : Bool := decide (maxEventBatchItems ≤ batch.items.size)

end PendingBatch

namespace Trigger

variable (trigger : Trigger)

/-- Every callback of the batch is called. -/
def settleAll (batch : PendingBatch) (result : EventWakeSettlement) : Trigger :=
  { trigger with settled := trigger.settled ++ batch.settlers.values.map fun settler => (settler, result) }

/-- The task that takes the offer, or why it is refused for good. -/
def taker (wake : Wake) (auto : Option EventTask) : Except EventWakeSettlement EventTask :=
  if trigger.stopped then .error (notDispatched "the runtime is shutting down")
  else match auto with
    | none =>
        .error { outcome := .denied, classification := some "unknown_task",
                 reason := some ("no task \"" ++ wake.target ++
                   "\" belongs to the route's author in this workspace") }
    | some auto =>
        if !auto.isEventSchedule then
          .error { outcome := .denied, classification := some "not_event_scheduled",
                   reason := some ("task \"" ++ wake.target ++
                     "\" does not run on events; give it an event schedule to wake it") }
        else if !auto.enabled then
          .error { outcome := .skipped, classification := some "task_disabled",
                   reason := some ((nonEmpty auto.disabledReason).elim "the task is disabled" fun reason =>
                     "the task is disabled: " ++ reason) }
        else if !taskWants auto wake.item then
          .error { outcome := .skipped, classification := some "match_declined",
                   reason := some "the task's own event match does not admit this notification" }
        else .ok auto

/-- The fires of the last hour that are recorded or in flight. An unknown history counts as spent. -/
def ceilingSpent (key : String) (auto : EventTask) (answers : FireAnswers) : Bool :=
  match answers.eventRunsSince with
  | .error _ => true
  | .ok fired =>
      let inFlight := ((trigger.inFlight.get? key).getD []).filter fun startedAt =>
        answers.checkedAt - fireWindowMs ≤ startedAt
      decide (auto.maxFiresPerHour ≤ (fired + inFlight.length : Nat))

def markInFlight (key : String) (startedAt : Moment) : OrderedMap String (List Moment) :=
  trigger.inFlight.set key ((trigger.inFlight.get? key).getD [] ++ [startedAt])

/-- Only the dispatch that ended is dropped. -/
def clearInFlight (key : String) (startedAt : Moment) : OrderedMap String (List Moment) :=
  match trigger.inFlight.get? key with
  | none => trigger.inFlight
  | some list =>
      if list.erase startedAt = [] then trigger.inFlight.delete key
      else trigger.inFlight.set key (list.erase startedAt)

/-- The batch leaves the open ones, and its run starts. -/
def dispatch (key : String) (batch : PendingBatch) (startedAt : Moment) : Trigger :=
  { trigger with
    inFlight := trigger.markInFlight key startedAt
    runs := trigger.runs ++ [{ key := key, startedAt := startedAt, batch := batch }]
    dispatched := trigger.dispatched ++ [batch.items.values] }

/-- The open batch of the key is taken out, whatever becomes of it. -/
def withoutBatch (key : String) : Trigger := { trigger with batches := trigger.batches.delete key }

def fire (key : String) (answers : FireAnswers) : Trigger × FireEnd :=
  match trigger.batches.get? key with
  | none => (trigger, .noBatch)
  | some batch =>
      let trigger := trigger.withoutBatch key
      match answers.task.filter fun auto => auto.isEventSchedule && auto.enabled with
      | none => (trigger.settleAll batch taskChanged, .taskChanged)
      | some auto =>
          if trigger.ceilingSpent (batchKey batch.wsId batch.ownerId batch.taskId) auto answers then
            (trigger.settleAll batch (ceilingSpentSettlement (ceilingReason auto)),
              .ceilingSpent (ceilingReason auto))
          else (trigger.dispatch key batch answers.startedAt, .dispatched)

/-- The batch of the task, or a new one. -/
def batchFor (wake : Wake) : PendingBatch := (trigger.batches.get? wake.key).getD (.opened wake)

def settlerFor (wake : Wake) : Settler := { offer := trigger.offers, row := wake.row }

/-- The batch as the wake leaves it. Its timer runs from the first item on. -/
def joined (wake : Wake) (auto : EventTask) : PendingBatch :=
  let batch := (trigger.batchFor wake).join wake.item (trigger.settlerFor wake)
  { batch with timer := if batch.isFull then none else some (batch.timer.getD auto.debounceMs) }

/-- The callback that the wake takes the place of. -/
def displaced (wake : Wake) : Option Settler :=
  (trigger.batchFor wake).settlers.get? (notificationId wake.item)

def take (wake : Wake) (auto : EventTask) : Trigger :=
  { trigger with
    batches := trigger.batches.set wake.key (trigger.joined wake auto)
    offers := trigger.offers + 1
    accepted := trigger.accepted ++ [trigger.settlerFor wake]
    replaced := trigger.replaced ++ (trigger.displaced wake).toList.map (·, trigger.settlerFor wake) }

def offer (wake : Wake) (auto : Option EventTask) (answers : FireAnswers) : Trigger × EventWakeAck :=
  match trigger.taker wake auto with
  | .error result => (trigger, .refused result)
  | .ok auto =>
      let taken := trigger.take wake auto
      if (trigger.joined wake auto).isFull then ((taken.fire wake.key answers).1, .accepted)
      else (taken, .accepted)

/-- The timer of an open batch runs out. -/
def timer (key : String) (answers : FireAnswers) : Option Trigger :=
  ((trigger.batches.get? key).filter fun batch => batch.timer.isSome).map fun _ => (trigger.fire key answers).1

def runEnds (place : Nat) (promise : RunPromise) : Option Trigger :=
  trigger.runs[place]?.map fun run =>
    { trigger.settleAll run.batch (runSettlement promise) with
      inFlight := trigger.clearInFlight run.key run.startedAt
      runs := trigger.runs.eraseIdx place }

def stoppedSettlement : EventWakeSettlement :=
  notDispatched "the runtime stopped before this batch's debounce window closed"

/-- Every open batch is settled as undelivered. -/
def stop : Trigger :=
  { trigger.batches.values.foldl (fun trigger batch => trigger.settleAll batch stoppedSettlement) trigger with
    batches := ∅
    stopped := true }

end Trigger

/-- The routes, the clock and the scheduler act on the trigger in any order. -/
inductive TriggerStep where
  | offer (wake : Wake) (auto : Option EventTask) (answers : FireAnswers)
  | timer (key : String) (answers : FireAnswers)
  | runEnds (place : Nat) (promise : RunPromise)
  | stop

def triggerSystem : System Trigger TriggerStep where
  initial trigger := trigger = {}
  step trigger
    | .offer wake auto answers => some (trigger.offer wake auto answers).1
    | .timer key answers => trigger.timer key answers
    | .runEnds place promise => trigger.runEnds place promise
    | .stop => some trigger.stop

end NimbleBrain.EventRuns
