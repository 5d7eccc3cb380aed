import NimbleBrain.Spend.Balances
import NimbleBrain.Tasks.BatchItems

/- A process holds a batch as its record, its items, and what it waits for. -/

namespace NimbleBrain.Tasks

open Spend

inductive BatchState where
  | running | paused | completed | cancelled
  deriving DecidableEq

inductive BatchPauseReason where
  | manual | budget | passRate | unavailable
  deriving DecidableEq

structure BatchStopRule where
  afterItems : Nat
  minPassRate : ℚ

structure Batch where
  id : String
  workspaceId : String
  ownerId : String
  concurrency : Nat
  budgetUsd : Option ℚ := none
  stopWhen : Option BatchStopRule := none
  stopRuleDisarmed : Bool := false
  state : BatchState
  pause : Option BatchPauseReason := none
  counts : BatchCounts
  costUsd : ℚ

/-- The anchor is the driver's own hold on the account of the batch. -/
structure LiveBatch where
  batch : Batch
  items : List BatchItem
  pending : List Nat
  outstanding : List Nat := []
  anchor : Option Nat := none
  retryTimer : Bool := false
  withdrawn : List RunId := []
  waitForSettle : Bool := false
  settled : Nat := 0
  settledAtRequest : List (RunId × Nat) := []

/-- The tool schema checks the concurrency and the budget of a new batch. -/
structure NewBatch where
  id : String
  workspaceId : String
  ownerId : String
  inputs : Nat
  concurrency : Nat
  concurrencyPositive : 0 < concurrency
  budgetUsd : Option ℚ := none
  budgetPositive : ∀ budget ∈ budgetUsd, 0 < budget
  stopWhen : Option BatchStopRule := none

def batchAccountPrefix : String := "task-batch:"

def budgetAccountPrefix : String := "task-budget:"

def batchAccountId (batch : Batch) : String :=
  batchAccountPrefix ++ batch.workspaceId ++ "/" ++ batch.ownerId ++ "/" ++ batch.id

def pendingIndices (items : List BatchItem) : List Nat :=
  (items.filter fun item => item.state = .pending).map (·.index)

/-- A loaded batch starts with nothing outstanding. -/
def loaded (batch : Batch) (items : List BatchItem) : LiveBatch where
  batch := batch
  items := items
  pending := pendingIndices items

def newItems (inputs : Nat) : List BatchItem :=
  (List.range inputs).map fun index => { index := index, state := .pending }

/-- A new batch runs at once with every item pending. -/
def createBatch (spec : NewBatch) : LiveBatch :=
  loaded
    { id := spec.id
      workspaceId := spec.workspaceId
      ownerId := spec.ownerId
      concurrency := spec.concurrency
      budgetUsd := spec.budgetUsd
      stopWhen := spec.stopWhen
      state := .running
      counts := emptyCounts.add .pending spec.inputs
      costUsd := 0 }
    (newItems spec.inputs)

namespace LiveBatch

/-- A replaced item keeps the counts and the cost of the batch in step. -/
def setItem (lb : LiveBatch) (next : BatchItem) : LiveBatch :=
  match lb.items[next.index]? with
  | none => lb
  | some prev =>
      { lb with
        items := lb.items.set next.index next
        batch := { lb.batch with
          counts := (lb.batch.counts.add (bucketOf prev) (-1)).add (bucketOf next) 1
          costUsd := lb.batch.costUsd + (next.cost - prev.cost) } }

/-- The spend accounts that a run of this batch names beyond the task's own. -/
def accountsFor (lb : LiveBatch) : List SpendAccount :=
  match lb.batch.budgetUsd with
  | none => []
  | some budget => [⟨batchAccountId lb.batch, .usd, max 0 (budget - lb.batch.costUsd)⟩]

def isPending (lb : LiveBatch) (index : Nat) : Bool :=
  lb.items[index]?.any fun item => item.state = .pending

/-- Another run of the batch is running and so may hold a reservation. -/
def othersRunning (lb : LiveBatch) : Bool :=
  lb.outstanding.any fun index => lb.items[index]?.any fun item => item.state = .running

end LiveBatch

end NimbleBrain.Tasks
