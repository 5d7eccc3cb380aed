import Mathlib.Data.List.Sort
import NimbleBrain.Scheduler.OnceGuarantee

/- One timer serves every task of the scheduler. A due task takes a free slot or waits for one. -/

namespace NimbleBrain.Scheduler

open Library Tasks

def maxTimerMs : Nat := 60000

/-- What replaced a next run. A run may have turned its task off. -/
inductive Writer where
  | run (runId : RunId) (turnedOff : Bool)
  | skip
  | edit
  | reload
  deriving DecidableEq

/-- What happened to the occurrences of a task. They are numbered. -/
inductive SeatEvent where
  | dispatched (runId : RunId) (occurrence : Nat)
  | skipped (occurrence : Nat)
  | replaced (occurrence : Nat) (writer : Writer)
  | settled (moment : Nat) (task : Task)
  deriving DecidableEq

/-- One task of the scheduler, with the number of the occurrence that its next run holds. -/
structure Seat where
  store : Store := {}
  process : Process := {}
  occurrence : Nat := 0
  log : List SeatEvent := []

/-- The next run has come while the task is on. -/
def Task.owes (task : Task) (now : Nat) : Bool :=
  task.enabled && task.nextRunAt.any fun next => decide (next ≤ now)

namespace Seat

variable (calendar : Calendar) (seat : Seat) (now : Nat) (nextRunId : RunId)

def nextRunAt : Option Nat := seat.store.task.bind Task.nextRunAt

def owes : Bool := seat.store.task.any (·.owes now)

def world : World := { now, store := seat.store, process := some seat.process, nextRunId }

def isMoved (turn : Turn) : Bool := (seat.store.after turn.effects).task.bind Task.nextRunAt ≠ seat.nextRunAt

/-- A due next run that a turn replaces is noted. -/
def take (turn : Turn) (writer : Writer) (settles : Bool) (events : List SeatEvent) : Seat where
  store := seat.store.after turn.effects
  process := turn.process
  occurrence := if settles || seat.isMoved turn then seat.occurrence + 1 else seat.occurrence
  log :=
    (if settles then ((seat.store.after turn.effects).task.map (SeatEvent.settled now)).toList else []) ++
      (if seat.owes now && seat.isMoved turn then [.replaced seat.occurrence writer] else []) ++ events ++ seat.log

/-- A tick looks at a task. -/
def consider (freeSlot : Bool) : Seat :=
  match seat.store.definition with
  | none => seat
  | some task =>
      let turn := (seat.world now nextRunId).considerForDispatch calendar seat.process task freeSlot
      if seat.process.active.length < turn.process.active.length then
        seat.take now turn (.run nextRunId false) false [.dispatched nextRunId seat.occurrence]
      else if turn.effects.isEmpty then seat
      else seat.take now turn .skip true [.skipped seat.occurrence]

def reload : Seat :=
  seat.take now { effects := Scheduler.reload calendar seat.store now, process := seat.process } .reload false []

/-- A tool writes the task. -/
def edit (task : Task) : Seat :=
  seat.take now ((seat.world now nextRunId).writeAndReload calendar seat.process (.saveTask task)) .edit false []

/-- A run of the task is asked for, starts, or leaves the queue. -/
def operate (operation : Operation) : Option Seat :=
  ((seat.world now nextRunId).turn calendar seat.process operation).map fun turn =>
    seat.take now turn (.run nextRunId false) false []

/-- The recording of a run may turn its task off. -/
def endRun (place : Nat) (execution : Execution) (faults : Faults) : Option Seat :=
  seat.process.active[place]?.bind fun dispatch =>
    ((seat.world now nextRunId).turn calendar seat.process (.endRun place execution faults)).map fun turn =>
      seat.take now turn
        (.run dispatch.runId ((seat.store.after turn.effects).task.any fun task => !task.enabled))
        (dispatch.trigger = .scheduled) []

/-- How soon the timer is to look at the task. -/
def delay : Nat :=
  match seat.store.definition with
  | none => maxTimerMs
  | some task =>
      if !task.enabled || isEventSchedule task.schedule then maxTimerMs
      else match task.nextRunAt with
        | none => if dueWithoutNextRunAt task then 0 else maxTimerMs
        | some next => next - now

end Seat

/-- The schedule is a cron or an interval that names what it needs. -/
def Task.isTimed (task : Task) : Bool :=
  task.schedule.any fun spec =>
    match spec.type with
    | .cron => spec.expression.any (· ≠ "")
    | .interval => spec.intervalMs.any (0 < ·)
    | .event | .once => false

/-- A timer may be armed for a task that is due already. -/
structure Timer where
  fireAt : Nat
  isImmediate : Bool
  deriving DecidableEq

inductive FleetEvent where
  | armed (immediate : Bool)
  | ticked (progress : Bool)
  | other
  deriving DecidableEq

/-- A tick waits for its runs. The slots and waiting runs of other sources are counted only. -/
structure Fleet where
  now : Nat := 0
  seats : List Seat := []
  released : List RunId := []
  othersHold : Nat := 0
  othersWait : Nat := 0
  timer : Option Timer := none
  awaited : List (List RunId) := []
  nextRunId : RunId := 0
  log : List FleetEvent := []

/-- Other sources take and free slots as they like. -/
inductive FleetAction where
  | wait (ms : Nat)
  | tick
  | rearm (place : Nat)
  | reload
  | edit (place : Nat) (patch : UpdatePatch)
  | disableAtCeiling (place : Nat)
  | requestRunNow (place : Nat) (requested queueFull : Bool)
  | runFromEvent (place : Nat) (queueFull : Bool)
  | requestBatchRun (place : Nat) (item : BatchItemRef) (queueFull : Bool)
  | startQueued (place queued : Nat)
  | leaveQueue (place queued : Nat) (cancelled : Bool)
  | release (place run : Nat)
  | endRun (place run : Nat) (execution : Execution) (faults : Faults)
  | otherSources (hold wait : Nat)

namespace Fleet

variable (calendar : Calendar) (maxConcurrentRuns : Nat) (fleet : Fleet)

def activeIds : List RunId := fleet.seats.flatMap fun seat => seat.process.active.map Dispatch.runId

def held : Nat := fleet.othersHold + (fleet.activeIds.filter (· ∉ fleet.released)).length

def hasFreeSlot : Bool :=
  decide (fleet.held < maxConcurrentRuns) && decide (fleet.othersWait = 0) &&
    fleet.seats.all fun seat => seat.process.queue.isEmpty

/-- With no free slot the timer waits for the heartbeat. -/
def armTimer : Fleet :=
  let free := fleet.hasFreeSlot maxConcurrentRuns
  let delay :=
    if free then fleet.seats.foldr (fun seat delay => min (seat.delay fleet.now) delay) maxTimerMs else maxTimerMs
  { fleet with
    timer := some ⟨fleet.now + delay, free && delay == 0⟩
    log := .armed (free && delay == 0) :: fleet.log }

/-- Every operation may use up one run identifier. -/
def setSeat (place : Nat) (seat : Seat) : Fleet :=
  { fleet with seats := fleet.seats.set place seat, nextRunId := fleet.nextRunId + 1 }

def consider (place : Nat) : Fleet :=
  match fleet.seats[place]? with
  | none => fleet
  | some seat =>
      fleet.setSeat place
        (seat.consider calendar fleet.now fleet.nextRunId (fleet.hasFreeSlot maxConcurrentRuns))

/-- The oldest due run takes a free slot first. -/
def byNextRunAt : List Nat :=
  let at' (place : Nat) : Nat := ((fleet.seats[place]?.bind Seat.nextRunAt).getD 0)
  (List.range fleet.seats.length).insertionSort fun first second => at' first ≤ at' second

/-- A run started, or a next run moved. -/
def hasProgressed (before after : List Seat) : Bool :=
  (before.zip after).any fun (before, after) =>
    decide (before.process.active.length < after.process.active.length) || decide (after.nextRunAt ≠ before.nextRunAt)

def sweep (places : List Nat) : Fleet := places.foldl (consider calendar maxConcurrentRuns) fleet

/-- The timer is armed again when the runs of the tick are recorded. -/
def onTimer : Fleet :=
  let swept := ({ fleet with timer := none } : Fleet).sweep calendar maxConcurrentRuns fleet.byNextRunAt
  let logged := { swept with log := .ticked (hasProgressed fleet.seats swept.seats) :: swept.log }
  let dispatched := swept.activeIds.filter (· ∉ fleet.activeIds)
  if dispatched.isEmpty then logged.armTimer maxConcurrentRuns
  else { logged with awaited := logged.awaited ++ [dispatched] }

def note : Fleet := { fleet with log := .other :: fleet.log }

def reload : Fleet :=
  let reloaded : Fleet := { fleet with seats := fleet.seats.map (Seat.reload calendar · fleet.now) }
  reloaded.note.armTimer maxConcurrentRuns

/-- A tool writes one task, and every task is read again. -/
def writeAndReload (place : Nat) (seat : Seat) (task : Task) : Fleet :=
  let written : Fleet :=
    { fleet with
      seats := (fleet.seats.map (Seat.reload calendar · fleet.now)).set place
        (seat.edit calendar fleet.now fleet.nextRunId task) }
  written.note.armTimer maxConcurrentRuns

/-- A schedule stays a cron or an interval. -/
def edit (place : Nat) (patch : UpdatePatch) : Option Fleet :=
  fleet.seats[place]?.bind fun seat =>
    match handleUpdate calendar seat.store.task patch fleet.now with
    | .error _ | .ok none => some fleet.note
    | .ok (some task) =>
        if task.isTimed then some (fleet.writeAndReload calendar maxConcurrentRuns place seat task) else none

def disableAtCeiling (place : Nat) : Option Fleet :=
  fleet.seats[place]?.bind fun seat =>
    seat.store.task.map fun task =>
      fleet.writeAndReload calendar maxConcurrentRuns place seat { task with enabled := false }

def operate (place : Nat) (operation : Operation) : Option Fleet :=
  fleet.seats[place]?.bind fun seat =>
    (seat.operate calendar fleet.now fleet.nextRunId operation).map fun seat => (fleet.setSeat place seat).note

/-- A run starts in a free slot. Without one it waits, while the queue has room. -/
def answer (queueFull : Bool) : DoorAnswer :=
  if fleet.hasFreeSlot maxConcurrentRuns then .started else if queueFull then .refused else .queued

/-- The executor dates its run as it returns. -/
def isDated (now : Nat) : Execution → Bool
  | .returned run => run.completedAt = some now
  | .threw _ => true

def endRun (place run : Nat) (execution : Execution) (faults : Faults) : Option Fleet :=
  if isDated fleet.now execution then
    fleet.seats[place]?.bind fun seat =>
      (seat.endRun calendar fleet.now fleet.nextRunId run execution faults).map fun seat =>
        (fleet.setSeat place seat).note
  else none

/-- The executor frees the slot of its run before the run is recorded. -/
def release (place run : Nat) : Option Fleet :=
  fleet.seats[place]?.bind fun seat =>
    seat.process.active[run]?.map fun dispatch =>
      ({ fleet with released := dispatch.runId :: fleet.released } : Fleet).note

def rearm (place : Nat) : Option Fleet :=
  fleet.awaited[place]?.bind fun runs =>
    if runs.all (· ∉ fleet.activeIds) then
      some (({ fleet with awaited := fleet.awaited.eraseIdx place } : Fleet).armTimer maxConcurrentRuns)
    else none

def step : FleetAction → Option Fleet
  | .wait ms => some { fleet with now := fleet.now + ms }
  | .tick =>
      if fleet.timer.any (·.fireAt ≤ fleet.now) then some (fleet.onTimer calendar maxConcurrentRuns) else none
  | .rearm place => fleet.rearm maxConcurrentRuns place
  | .reload => some (fleet.reload calendar maxConcurrentRuns)
  | .edit place patch => fleet.edit calendar maxConcurrentRuns place patch
  | .disableAtCeiling place => fleet.disableAtCeiling calendar maxConcurrentRuns place
  | .requestRunNow place requested queueFull =>
      fleet.operate calendar place (.requestRunNow requested (fleet.answer maxConcurrentRuns queueFull))
  | .runFromEvent place queueFull =>
      fleet.operate calendar place (.runFromEvent (fleet.answer maxConcurrentRuns queueFull))
  | .requestBatchRun place item queueFull =>
      fleet.operate calendar place (.requestBatchRun item (fleet.answer maxConcurrentRuns queueFull))
  | .startQueued place queued =>
      if fleet.held < maxConcurrentRuns then fleet.operate calendar place (.startQueued queued) else none
  | .leaveQueue place queued cancelled => fleet.operate calendar place (.leaveQueue queued cancelled)
  | .release place run => fleet.release place run
  | .endRun place run execution faults => fleet.endRun calendar place run execution faults
  | .otherSources hold wait => some ({ fleet with othersHold := hold, othersWait := wait } : Fleet).note

end Fleet

/-- A task has been read from its file. Nothing has run. -/
structure Seat.Fresh (seat : Seat) : Prop where
  inSync : seat.store.definition = seat.store.task
  timed : seat.store.task.any Task.isTimed = true
  process : seat.process = {}
  occurrence : seat.occurrence = 0
  log : seat.log = []

/-- The scheduler runs with any set of cron and interval tasks. -/
def fleetSystem (calendar : Calendar) (maxConcurrentRuns : Nat) : System Fleet FleetAction where
  initial fleet := (∀ seat ∈ fleet.seats, seat.Fresh) ∧ fleet =
    { now := fleet.now, seats := fleet.seats, othersHold := fleet.othersHold, othersWait := fleet.othersWait }
  step := Fleet.step calendar maxConcurrentRuns

end NimbleBrain.Scheduler
