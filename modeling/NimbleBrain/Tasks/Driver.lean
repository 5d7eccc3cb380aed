import NimbleBrain.Tasks.Reconcile

/- The batch driver asks for the runs of a batch and follows their ends. -/

namespace NimbleBrain.Tasks

open Spend

inductive RunRefusal where
  | notFound | stopped | queueFull | budget
  deriving DecidableEq

inductive RunTicketState where
  | started | queued
  | refused (reason : RunRefusal)
  deriving DecidableEq

inductive BatchAction where
  | pause | resume | cancel | rerunFailed
  deriving DecidableEq

inductive ControlError where
  | budgetWithoutResume | notRunning | cancelled | completed | running | budgetNotMore | runsInFlight
  deriving DecidableEq

/-- The scheduler's answers during one event of the driver. -/
structure Door where
  requestBatchRun : RunId → RunTicketState
  withdrawQueuedRun : RunId → Bool
  cancelRunById : RunId → Bool

/-- A run reads its spend accounts when it is dispatched and opens them later. -/
inductive RunStage where
  | waiting
  | dispatched (accounts : List SpendAccount)
  | holding (hold : Nat)
  | over

/-- A run that was asked for and whose promise has not settled. -/
structure BatchRun where
  id : RunId
  index : Nat
  stage : RunStage

/-- The process holds one batch. It is resident while it is in the driver's memory. -/
structure Driver where
  live : LiveBatch
  resident : Bool := true
  stopping : Bool := false
  spend : SpendBalances := {}
  runs : List BatchRun := []
  asked : RunId := 0

namespace Driver

def onLive (driver : Driver) (change : LiveBatch → LiveBatch) : Driver :=
  { driver with live := change driver.live }

def onBatch (driver : Driver) (change : Batch → Batch) : Driver :=
  driver.onLive fun lb => { lb with batch := change lb.batch }

def setItem (driver : Driver) (next : BatchItem) : Driver := driver.onLive (·.setItem next)

def balance (driver : Driver) : Option ℚ := driver.spend.balance (batchAccountId driver.live.batch)

def releaseAnchor (driver : Driver) : Driver :=
  match driver.live.anchor with
  | none => driver
  | some index =>
      { driver with
        live := { driver.live with anchor := none }
        spend := match driver.spend.holds[index]? with
          | none => driver.spend
          | some hold => driver.spend.release index hold }

/-- The batch's account has nothing left for another run. -/
def budgetSpent (driver : Driver) : Bool :=
  match driver.live.batch.budgetUsd with
  | none => false
  | some budget => decide (driver.balance.getD (budget - driver.live.batch.costUsd) ≤ 0)

def clearTimer (driver : Driver) : Driver := driver.onLive fun lb => { lb with retryTimer := false }

/-- The batch leaves memory. -/
def unload (driver : Driver) : Driver := { driver.clearTimer.releaseAnchor with resident := false }

/-- A completed batch with nothing outstanding leaves memory at once. -/
def complete (driver : Driver) : Driver :=
  let completed := driver.onBatch fun batch => { batch with state := .completed }
  if completed.live.outstanding = [] then completed.unload else completed

/-- A batch that is not running and has no run in flight leaves memory. A paused one with nothing
left to run is completed first. -/
def settleIdle (driver : Driver) : Driver :=
  if driver.live.batch.state = .running ∨ driver.live.outstanding ≠ [] then driver
  else if driver.live.batch.state = .paused ∧ ¬ driver.live.items.any fun item => item.state = .pending then
    (driver.onBatch fun batch => { batch with pause := none }).complete.unload
  else driver.unload

/-- The queued runs of the batch that the door takes out of its queue. -/
def withdrawQueued (door : Door) (lb : LiveBatch) : List RunId :=
  lb.outstanding.filterMap fun index =>
    (lb.items[index]?.bind fun item => if item.state = .queued then item.runId else none).filter
      door.withdrawQueuedRun

/-- Only a running batch pauses. Its queued runs give their places back. -/
def pause (door : Door) (reason : BatchPauseReason) (driver : Driver) : Driver :=
  if driver.live.batch.state = .running then
    releaseAnchor (driver.onLive fun lb =>
      { lb with
        batch := { lb.batch with state := .paused, pause := some reason }
        retryTimer := false
        withdrawn := lb.withdrawn ++ withdrawQueued door lb })
  else driver

/-- A refused request leaves its item first in line. -/
def refuse (door : Door) (index : Nat) (reason : RunRefusal) (driver : Driver) : Driver :=
  let waiting := driver.onLive fun lb => { lb with pending := index :: lb.pending }
  match reason with
  | .queueFull => waiting.onLive fun lb => { lb with retryTimer := true }
  | .budget => waiting.pause door .budget
  | .notFound => waiting.pause door .unavailable
  | .stopped => waiting

/-- An admitted run is outstanding until its promise settles. -/
def admitItem (index : Nat) (item : BatchItem) (started : Bool) (driver : Driver) : Driver :=
  let runId := driver.asked
  let stage : RunStage := if started then .dispatched driver.live.accountsFor else .waiting
  let run : BatchRun := ⟨runId, index, stage⟩
  let asked := { driver with
    asked := runId + 1
    runs := driver.runs ++ [run]
    live := { driver.live with
      outstanding := driver.live.outstanding ++ [index]
      settledAtRequest := driver.live.settledAtRequest ++ [(runId, driver.live.settled)] } }
  asked.setItem { item with state := if started then .running else .queued, runId := some runId }

/-- The answer is false when the batch should stop asking for now. -/
def requestItem (door : Door) (index : Nat) (item : BatchItem) (driver : Driver) : Driver × Bool :=
  match door.requestBatchRun driver.asked with
  | .refused reason => ({ driver with asked := driver.asked + 1 }.refuse door index reason, false)
  | .started => (driver.admitItem index item true, true)
  | .queued => (driver.admitItem index item false, true)

def withPending (driver : Driver) (pending : List Nat) : Driver :=
  driver.onLive fun lb => { lb with pending := pending }

/-- Nothing outstanding and nothing pending completes the batch. -/
def finishPump (driver : Driver) : Driver :=
  if driver.live.outstanding = [] ∧ driver.live.pending = [] then driver.complete else driver

/-- The loop shifts the pending list. An index whose item is no longer pending is skipped. -/
def pumpLoop (door : Door) : List Nat → Driver → Driver
  | [], driver => (driver.withPending []).finishPump
  | index :: rest, driver =>
      if driver.live.outstanding.length < driver.live.batch.concurrency then
        match driver.live.items[index]? with
        | none => pumpLoop door rest driver
        | some item =>
            if item.state ≠ .pending then pumpLoop door rest driver
            else if driver.budgetSpent then (driver.withPending (index :: rest)).pause door .budget
            else
              let answer := (driver.withPending rest).requestItem door index item
              if answer.2 then pumpLoop door rest answer.1 else answer.1
      else (driver.withPending (index :: rest)).finishPump

/-- Items are asked for while the batch is under its concurrency. -/
def pump (door : Door) (driver : Driver) : Driver :=
  if driver.live.batch.state ≠ .running then driver.settleIdle
  else if driver.stopping || driver.live.retryTimer || driver.live.waitForSettle then driver
  else pumpLoop door driver.live.pending driver

/-- The account is held open while the batch runs. -/
def openAnchor (driver : Driver) : Driver :=
  if driver.live.batch.budgetUsd.isSome ∧ driver.live.anchor = none then
    { driver with
      spend := driver.spend.openAccounts driver.live.accountsFor none
      live := { driver.live with anchor := some driver.spend.holds.length } }
  else driver

def activate (door : Door) (driver : Driver) : Driver :=
  (driver.onLive fun lb => { lb with waitForSettle := false }).openAnchor.pump door

/-- A queued run took its slot. -/
def itemStarted (driver : Driver) (index : Nat) (runId : RunId) : Driver :=
  match driver.live.items[index]? with
  | none => driver
  | some item =>
      if item.runId ≠ some runId ∨ item.state ≠ .queued then driver
      else driver.setItem { item with state := .running }

/-- A stop by the batch's account came from the reservations of other runs rather than from spend. -/
def reservedOut (driver : Driver) (endedSince : Bool) : Bool :=
  match driver.live.batch.budgetUsd with
  | none => false
  | some budget =>
      (endedSince || driver.live.othersRunning) &&
        decide (0 < driver.balance.getD (budget - driver.live.batch.costUsd))

/-- The batch pauses when its pass rate fell below its stop rule. -/
def applyStopRule (door : Door) (driver : Driver) : Driver :=
  let batch := driver.live.batch
  match batch.stopWhen with
  | none => driver
  | some rule =>
      if batch.stopRuleDisarmed ∨ batch.state ≠ .running then driver
      else if batch.counts .pass + batch.counts .fail + batch.counts .uncertain < rule.afterItems then
        driver
      else match passRateOf batch.counts with
        | none => driver
        | some rate => if rule.minPassRate ≤ rate then driver else driver.pause door .passRate

/-- The run did not really have its turn when it was dropped from the queue, or when the batch's
account stopped it before it produced anything. -/
def runsAgain (stopping : Bool) (run : TaskRun) (batchStop withdrawn : Bool) : Bool :=
  (run.trigger.isNone && (stopping || withdrawn)) ||
    (batchStop && (executionOf run = .failed || executionOf run = .skipped))

/-- An item takes the outcome of its run, or goes back to run again. -/
def settleItem (driver : Driver) (index : Nat) (item : BatchItem) (run : TaskRun)
    (batchStop withdrawn : Bool) : Driver :=
  let settled := outcomeOf item run
  if !runsAgain driver.stopping run batchStop withdrawn then driver.setItem settled
  else if driver.live.batch.state = .cancelled then
    driver.setItem { backToPending settled with state := .done, execution := some .cancelled }
  else
    let again := driver.setItem (backToPending settled)
    if driver.stopping then again else again.withPending (index :: again.live.pending)

/-- The batch's own account stopped the run. -/
def isBatchStop (batch : Batch) (run : TaskRun) : Bool :=
  run.stopReason = some .spendLimit && run.spendAccountId = some (batchAccountId batch)

/-- The token budget of the task stopped the run. -/
def isTaskStop (run : TaskRun) : Bool :=
  run.stopReason = some .spendLimit && run.spendAccountId.any (·.startsWith budgetAccountPrefix)

/-- A run that settles is no longer outstanding, and its end may free what another one waits for. -/
def noteEnded (driver : Driver) (runId : RunId) (run : TaskRun) : Driver :=
  driver.onLive fun lb =>
    { lb with
      waitForSettle := false
      settledAtRequest := lb.settledAtRequest.filter fun entry => entry.1 ≠ runId
      settled := if 0 < run.inputTokens ∨ 0 < run.outputTokens then lb.settled + 1 else lb.settled }

/-- A batch run that made a model call ended after this one was asked for. -/
def endedSince (lb : LiveBatch) (runId : RunId) : Bool :=
  decide ((lb.settledAtRequest.lookup runId).getD lb.settled < lb.settled)

def forgetWithdrawn (driver : Driver) (runId : RunId) : Driver :=
  driver.onLive fun lb => { lb with withdrawn := lb.withdrawn.filter (· ≠ runId) }

/-- The batch waits for a reservation to free, or pauses, after its account refused a run. -/
def followStop (door : Door) (run : TaskRun) (reservedOut : Bool) (driver : Driver) : Driver :=
  if reservedOut then driver.onLive fun lb => { lb with waitForSettle := lb.othersRunning }
  else if isBatchStop driver.live.batch run then driver.pause door .budget
  else if isTaskStop run then driver.pause door .budget
  else driver

def leaveOutstanding (driver : Driver) (index : Nat) : Driver :=
  driver.onLive fun lb => { lb with outstanding := lb.outstanding.filter (· ≠ index) }

/-- The promise of a run resolves with its record. -/
def itemEnded (door : Door) (index : Nat) (runId : RunId) (run : TaskRun) (driver : Driver) : Driver :=
  let left := driver.leaveOutstanding index
  match left.live.items[index]? with
  | none => left
  | some item =>
      if item.runId ≠ some runId then left
      else
        let batchStop := isBatchStop left.live.batch run
        let since := endedSince left.live runId
        let noted := left.noteEnded runId run
        let reservedOut := batchStop && noted.reservedOut since
        let withdrawn := noted.live.withdrawn.contains runId
        let settled := (noted.forgetWithdrawn runId).settleItem index item run batchStop withdrawn
        ((settled.followStop door run reservedOut).applyStopRule door).pump door

/-- The promise of a run rejects. -/
def itemRejected (door : Door) (index : Nat) (runId : RunId) (error : String) (driver : Driver) :
    Driver :=
  let left := driver.leaveOutstanding index
  let settled := match left.live.items[index]? with
    | none => left
    | some current =>
        if current.runId = some runId then
          left.setItem { current with state := .done, execution := some .failed, error := some error }
        else left
  settled.pump door

/-- The timer after a full queue asks again. -/
def retry (door : Door) (driver : Driver) : Driver := driver.clearTimer.pump door

/-- The number counts the items the action touched. -/
abbrev ControlResult := Except ControlError (Driver × Nat)

def controlPause (door : Door) (driver : Driver) : ControlResult :=
  if driver.live.batch.state ≠ .running then .error .notRunning
  else .ok (driver.pause door .manual, 0)

/-- A new budget is refused while runs in flight share the balance of the old one. -/
def setBudget (driver : Driver) (budgetUsd : ℚ) : Except ControlError Driver :=
  if budgetUsd ≤ driver.live.batch.costUsd then .error .budgetNotMore
  else if driver.live.batch.budgetUsd = some budgetUsd then .ok driver
  else if driver.balance.isSome then .error .runsInFlight
  else .ok (driver.onBatch fun batch => { batch with budgetUsd := some budgetUsd })

/-- The batch runs again. A resume after the stop rule paused it disarms the rule. -/
def runAgain (driver : Driver) : Driver :=
  driver.onBatch fun batch =>
    { batch with
      stopRuleDisarmed := batch.stopRuleDisarmed || batch.pause = some .passRate
      state := .running
      pause := none }

def controlResume (door : Door) (budgetUsd : Option ℚ) (driver : Driver) : ControlResult :=
  match driver.live.batch.state with
  | .cancelled => .error .cancelled
  | .completed => .error .completed
  | .running => if budgetUsd.isSome then .error .running else .ok (driver, 0)
  | .paused =>
      match budgetUsd.elim (.ok driver) driver.setBudget with
      | .error error => .error error
      | .ok driver => .ok (driver.runAgain.activate door, 0)

def cancelPending (driver : Driver) : List BatchItem → Driver
  | [] => driver
  | item :: rest =>
      if item.state = .pending then
        cancelPending (driver.setItem { item with state := .done, execution := some .cancelled }) rest
      else cancelPending driver rest

/-- The outstanding runs that the scheduler withdraws or aborts. -/
def cancelledRuns (door : Door) (lb : LiveBatch) : Nat :=
  lb.outstanding.countP fun index =>
    lb.items[index]?.any fun item => item.runId.any door.cancelRunById

def controlCancel (door : Door) (driver : Driver) : ControlResult :=
  match driver.live.batch.state with
  | .cancelled => .ok (driver, 0)
  | .completed => .error .completed
  | _ =>
      let items := driver.live.items
      let cancelled := ((driver.onBatch fun batch =>
        { batch with state := .cancelled, pause := none }).clearTimer.cancelPending items).withPending []
      .ok (cancelled.releaseAnchor,
        items.countP (fun item => item.state = .pending) + cancelledRuns door cancelled.live)

/-- The failed items go to the end of the line. -/
def requeue (driver : Driver) : List BatchItem → Driver
  | [] => driver
  | item :: rest =>
      let again := driver.setItem (backToPending item)
      requeue (again.withPending (again.live.pending ++ [item.index])) rest

def controlRerun (door : Door) (driver : Driver) : ControlResult :=
  if driver.live.batch.state = .cancelled then .error .cancelled
  else
    let again := driver.live.items.filter isRerunnable
    if again = [] then .ok (driver, 0)
    else
      let queued := driver.requeue again
      let running := if queued.live.batch.state = .running then queued else queued.runAgain
      .ok (running.activate door, again.length)

/-- A batch that is not in memory is loaded from disk. -/
def load (driver : Driver) : Driver :=
  if driver.resident then driver
  else { driver with resident := true, live := loaded driver.live.batch driver.live.items }

/-- The budget goes with a resume. -/
def controlAction (door : Door) (action : BatchAction) (budgetUsd : Option ℚ) (driver : Driver) :
    ControlResult :=
  if budgetUsd.isSome ∧ action ≠ .resume then .error .budgetWithoutResume
  else match action with
    | .pause => driver.controlPause door
    | .resume => driver.controlResume door budgetUsd
    | .cancel => driver.controlCancel door
    | .rerunFailed => driver.controlRerun door

/-- A batch that an action leaves idle goes back to disk, also when the action is refused. -/
def control (door : Door) (action : BatchAction) (budgetUsd : Option ℚ) (driver : Driver) :
    Driver × Except ControlError Nat :=
  match driver.load.controlAction door action budgetUsd with
  | .ok (changed, affected) => (changed.settleIdle, .ok affected)
  | .error error => (driver.load.settleIdle, .error error)

/-- A run that was assessed again carries its verdict onto the item whose current run it is. -/
def syncRun (driver : Driver) (run : TaskRun) : Driver :=
  if run.batchId ≠ some driver.live.batch.id then driver
  else match run.batchIndex with
    | none => driver
    | some index =>
        let loaded := driver.load
        match loaded.live.items[index]? with
        | none => loaded
        | some item =>
            let verdict := if isAssessable run then itemVerdictOf run else none
            if item.runId ≠ some run.id ∨ item.state ≠ .done ∨ verdict = item.verdict then loaded
            else (loaded.setItem { item with verdict := verdict }).settleIdle

/-- No new item is asked for. Runs in flight end with the scheduler. -/
def stop (driver : Driver) : Driver :=
  if driver.resident then { driver.clearTimer.releaseAnchor with stopping := true }
  else { driver with stopping := true }

/-- A new process rebuilds an unfinished batch from its files and drives it again. -/
def boot (door : Door) (files : RunFiles) (now : Nat) (driver : Driver) : Driver :=
  let batch := driver.live.batch
  let fresh : Driver :=
    { driver with stopping := false, spend := {}, runs := [], live := { driver.live with anchor := none } }
  if batch.state ≠ .running ∧ batch.state ≠ .paused ∧
      batch.counts .queued + batch.counts .running ≤ 0 then
    { fresh with resident := false }
  else
    let reconciled : Driver :=
      { fresh with resident := true, live := (reconcile files batch driver.live.items now).2 }
    if batch.state = .running then reconciled.activate door else reconciled.settleIdle

/-- A new batch is driven at once. -/
def create (door : Door) (spec : NewBatch) : Driver :=
  activate door { live := createBatch spec }

end Driver

end NimbleBrain.Tasks
