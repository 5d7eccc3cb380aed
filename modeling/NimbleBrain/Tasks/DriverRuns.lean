import NimbleBrain.Tasks.Driver

/- A batch runs among the events of its runs, its operator, and its process. -/

namespace NimbleBrain.Tasks

open Library Spend

inductive DriverEvent where
  | control (action : BatchAction) (budgetUsd : Option ℚ)
  | runStarts (run : RunId)
  | runOpens (run : RunId) (own : List SpendAccount) (rates : Option UsageRates)
  | runChecks (run : RunId) (call : SpendCall)
  | runDebits (run : RunId) (usage : TokenUsage)
  | runReleases (run : RunId)
  | runEnds (run : RunId) (record : TaskRun)
  | runRejects (run : RunId) (error : String)
  | retryTimer
  | syncRun (record : TaskRun)
  | stop
  | boot (files : RunFiles) (now : Nat)

/-- The accounts that a dispatched run has read. -/
def RunStage.accounts : RunStage → List SpendAccount
  | .dispatched accounts => accounts
  | _ => []

structure DriverAction where
  event : DriverEvent
  door : Door

/-- The world adds up what the runs of the batch spend. -/
structure World where
  driver : Driver
  spent : ℚ := 0

namespace World

def withSpend (world : World) (spend : SpendBalances) : World :=
  { world with driver := { world.driver with spend := spend } }

def runOf (world : World) (id : RunId) : Option BatchRun := world.driver.runs.find? fun run => run.id = id

/-- The hold of a run between its open and its release. -/
def holdOf (world : World) (id : RunId) : Option (Nat × SpendHold) :=
  (world.runOf id).bind fun run =>
    match run.stage with
    | .holding hold => (world.driver.spend.holds[hold]?).map (hold, ·)
    | _ => none

def withStage (world : World) (id : RunId) (stage : RunStage) : World :=
  { world with driver := { world.driver with
      runs := world.driver.runs.map fun run => if run.id = id then { run with stage := stage } else run } }

def withoutRun (driver : Driver) (id : RunId) : Driver :=
  { driver with runs := driver.runs.filter fun run => run.id ≠ id }

/-- A run that waits at the door takes its slot and reads its accounts. -/
def runStarts (world : World) (id : RunId) : Option World :=
  (world.runOf id).bind fun run =>
    match run.stage with
    | .waiting =>
        let started := { world with driver := world.driver.itemStarted run.index id }
        some (started.withStage id (.dispatched started.driver.live.accountsFor))
    | _ => none

/-- The task's own accounts never carry the name of the batch's account. -/
def runOpens (world : World) (id : RunId) (own : List SpendAccount) (rates : Option UsageRates) :
    Option World :=
  (world.runOf id).bind fun run =>
    match run.stage with
    | .dispatched accounts =>
        if own.any fun account => account.id = batchAccountId world.driver.live.batch then none
        else some ((world.withSpend (world.driver.spend.openAccounts (own ++ accounts) rates)).withStage id
          (.holding world.driver.spend.holds.length))
    | _ => none

def runChecks (world : World) (id : RunId) (call : SpendCall) : Option World :=
  (world.holdOf id).map fun found =>
    world.withSpend (world.driver.spend.check found.1 found.2 call).1

def runDebits (world : World) (id : RunId) (usage : TokenUsage) : Option World :=
  (world.holdOf id).map fun found =>
    { world.withSpend (world.driver.spend.debit found.1 found.2 usage) with
      spent := world.spent + spendIn .usd usage found.2.rates }

def runReleases (world : World) (id : RunId) : Option World :=
  (world.holdOf id).map fun found =>
    (world.withSpend (world.driver.spend.release found.1 found.2)).withStage id .over

/-- The promise of a run settles once the run holds no account. -/
def settling (world : World) (id : RunId) : Option BatchRun :=
  (world.runOf id).bind fun run =>
    match run.stage with
    | .holding _ => none
    | _ => some run

def step (world : World) (action : DriverAction) : Option World :=
  match action.event with
  | .control request budgetUsd =>
      some { world with driver := (world.driver.control action.door request budgetUsd).1 }
  | .runStarts id => world.runStarts id
  | .runOpens id own rates => world.runOpens id own rates
  | .runChecks id call => world.runChecks id call
  | .runDebits id usage => world.runDebits id usage
  | .runReleases id => world.runReleases id
  | .runEnds id record =>
      (world.settling id).map fun run =>
        { world with driver := (withoutRun world.driver id).itemEnded action.door run.index id record }
  | .runRejects id error =>
      (world.settling id).map fun run =>
        { world with driver := (withoutRun world.driver id).itemRejected action.door run.index id error }
  | .retryTimer =>
      if world.driver.resident ∧ world.driver.live.retryTimer then
        some { world with driver := world.driver.retry action.door }
      else none
  | .syncRun record => some { world with driver := world.driver.syncRun record }
  | .stop => some { world with driver := world.driver.stop }
  | .boot files now => some { world with driver := world.driver.boot action.door files now }

end World

/-- A batch starts with its creation. -/
def batchSystem (door : Door) (spec : NewBatch) : System World DriverAction where
  initial world := world = { driver := Driver.create door spec }
  step := World.step

end NimbleBrain.Tasks
