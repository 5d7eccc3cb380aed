import NimbleBrain.Tasks.LiveBatch

/- A new process settles the runs that the old one did not carry to their end. -/

namespace NimbleBrain.Tasks

/-- The files of the task that a reconcile reads: the tickets of its runs, its run index, and the ledger. -/
structure RunFiles where
  tickets : RunId → Option TaskRun := fun _ => none
  index : List TaskRun := []
  ledger : RunId → ℚ := fun _ => 0

namespace RunFiles

def recorded (files : RunFiles) (runId : RunId) : Option TaskRun :=
  files.index.find? fun run => run.id = runId

def writeTicket (files : RunFiles) (runId : RunId) (run : TaskRun) : RunFiles :=
  { files with tickets := Function.update files.tickets runId (some run) }

/-- A run that was running failed. A queued one never started. -/
def lostRecord (ticket : TaskRun) (now : Nat) : TaskRun :=
  { ticket with
    completedAt := some now
    status := if ticket.status = .running then .failure else .skipped
    error := some (if ticket.status = .running then
      "The runtime stopped while this run was in flight, so it did not finish."
      else "The runtime stopped before this queued run started.") }

/-- An open ticket is settled from the record of its run. Without one the run is recorded as ended. -/
def settleLostRun (files : RunFiles) (runId : RunId) (ticket : TaskRun) (now : Nat) : RunFiles × TaskRun :=
  if !isOpenRun ticket then (files, ticket)
  else match files.recorded runId with
    | some run => (files.writeTicket runId run, run)
    | none =>
        let run := lostRecord ticket now
        ({ files with index := files.index ++ [run] }.writeTicket runId run, run)

end RunFiles

structure SettledItem where
  item : BatchItem
  lostRunId : Option RunId := none

/-- A run that never started is asked for again, unless the batch was cancelled. -/
def settleLostItem (cancelled : Bool) (files : RunFiles) (item : BatchItem) (now : Nat) :
    RunFiles × SettledItem :=
  let again : BatchItem :=
    if cancelled then { backToPending item with state := .done, execution := some .cancelled }
    else backToPending item
  match item.runId.bind fun runId => (files.tickets runId).map (runId, ·) with
  | none => (files, ⟨again, none⟩)
  | some (runId, ticket) =>
      let lostRunId := if ticket.status = .running then some runId else none
      let settled := files.settleLostRun runId ticket now
      if settled.2.trigger.isSome then (settled.1, ⟨outcomeOf item settled.2, lostRunId⟩)
      else (settled.1, ⟨again, none⟩)

def isUnsettled (item : BatchItem) : Bool := item.state = .queued || item.state = .running

theorem isRerunnable_settled {item : BatchItem} (again : isRerunnable item = true) :
    isUnsettled item = false := by
  simp only [isRerunnable, Bool.and_eq_true, decide_eq_true_eq] at again
  simp [isUnsettled, again.1]

/-- The loop settles each unsettled item from position `i` on and collects the runs lost with the process. -/
def settleLostItems (cancelled : Bool) (now : Nat) :
    Nat → List BatchItem → RunFiles → RunFiles × List BatchItem × List (RunId × Nat)
  | _, [], files => (files, [], [])
  | i, item :: rest, files =>
      if isUnsettled item then
        let settled := settleLostItem cancelled files item now
        let others := settleLostItems cancelled now (i + 1) rest settled.1
        (others.1, settled.2.item :: others.2.1, settled.2.lostRunId.toList.map (·, i) ++ others.2.2)
      else
        let others := settleLostItems cancelled now (i + 1) rest files
        (others.1, item :: others.2.1, others.2.2)

/-- The ledger says what each lost run spent. -/
def chargeLostRuns (ledger : RunId → ℚ) (items : List BatchItem) (lost : List (RunId × Nat)) :
    List BatchItem :=
  lost.foldl (fun items entry =>
    match items[entry.2]? with
    | none => items
    | some item =>
        if 0 < ledger entry.1 then
          items.set entry.2 { item with costUsd := some (item.cost + ledger entry.1) }
        else items) items

/-- The batch is rebuilt from its items. -/
def reconcile (files : RunFiles) (stored : Batch) (items : List BatchItem) (now : Nat) :
    RunFiles × LiveBatch :=
  let settled := settleLostItems (stored.state = .cancelled) now 0 items files
  let charged := chargeLostRuns files.ledger settled.2.1 settled.2.2
  (settled.1, loaded { stored with counts := countItems charged, costUsd := sumCost charged } charged)

end NimbleBrain.Tasks
