import NimbleBrain.Tasks.Reconcile
import NimbleBrain.Tasks.RunVersions

/- The files of a batch and of its runs are written one at a time. A process may stop between two writes. -/

namespace NimbleBrain.Tasks

open Library

/-- The ledger and the started runs are facts about the runs. All else is read back by a reconcile. -/
structure Disk where
  files : RunFiles := {}
  stored : Batch
  items : List BatchItem
  asked : RunId := 0
  started : RunId → Bool := fun _ => false

/-- Each write lands whole. A reconcile is what the next process does first. -/
inductive DiskWrite where
  | requestTicket (trigger : Option TaskRunTrigger)
  | itemAsked (index : Nat)
  | startTicket (runId : RunId) (trigger : TaskRunTrigger)
  | itemStarted (index : Nat)
  | modelCall (runId : RunId) (cost : ℚ≥0)
  | appendRun (run : TaskRun)
  | rewriteTicket (runId : RunId)
  | assess (runId : RunId) (assessment : RunAssessment)
  | itemEnded (index : Nat) (again : Bool)
  | itemRejected (index : Nat) (error : String)
  | itemCancelled (index : Nat)
  | itemRequeued (index : Nat)
  | saveState (state : BatchState)
  | reconcile (now : Nat)

/-- The record of a run before its end. A trigger says that the run started. -/
def openRun (runId : RunId) (trigger : Option TaskRunTrigger) : TaskRun where
  id := runId
  status := if trigger.isSome then .running else .queued
  trigger := trigger

namespace RunFiles

def appendRun (files : RunFiles) (run : TaskRun) : RunFiles := { files with index := files.index ++ [run] }

def addCost (files : RunFiles) (runId : RunId) (cost : ℚ) : RunFiles :=
  { files with ledger := Function.update files.ledger runId (files.ledger runId + cost) }

/-- A verdict is written onto the line of its run. -/
def assessRun (files : RunFiles) (runId : RunId) (assessment : RunAssessment) : RunFiles :=
  { files with index := files.index.map fun run =>
      if run.id = runId then { run with assessment := some assessment } else run }

end RunFiles

namespace Disk

def setItem (disk : Disk) (index : Nat) (item : BatchItem) : Disk :=
  { disk with items := disk.items.set index item }

/-- The current ticket of an unsettled item. -/
def ticketOf (disk : Disk) (item : BatchItem) : Option TaskRun :=
  if isUnsettled item then item.runId.bind disk.files.tickets else none

/-- An item that runs again in a cancelled batch is cancelled. -/
def endedItem (cancelled again : Bool) (item : BatchItem) (run : TaskRun) : BatchItem :=
  if !again then outcomeOf item run
  else if cancelled then
    { backToPending (outcomeOf item run) with state := .done, execution := some .cancelled }
  else backToPending (outcomeOf item run)

/-- The run of an item is the one that was asked for last. -/
def itemAsked (disk : Disk) (index : Nat) : Option Disk :=
  disk.items[index]?.bind fun item =>
    let runId := disk.asked - 1
    if item.state = .pending ∧ disk.asked ≠ 0 ∧ ∀ other ∈ disk.items, other.runId ≠ some runId then
      (disk.files.tickets runId).map fun ticket =>
        disk.setItem index
          { item with state := if ticket.status = .running then .running else .queued, runId := some runId }
    else none

/-- A run starts once. Its ticket gets the trigger. -/
def startTicket (disk : Disk) (runId : RunId) (trigger : TaskRunTrigger) : Option Disk :=
  (disk.files.tickets runId).bind fun ticket =>
    if ticket.status = .queued ∧ disk.files.recorded runId = none then
      some { disk with
        files := disk.files.writeTicket runId (openRun runId (some trigger))
        started := Function.update disk.started runId true }
    else none

def itemStarted (disk : Disk) (index : Nat) : Option Disk :=
  disk.items[index]?.bind fun item =>
    (disk.ticketOf item).bind fun ticket =>
      if item.state = .queued ∧ ticket.status = .running then
        some (disk.setItem index { item with state := .running })
      else none

def modelCall (disk : Disk) (runId : RunId) (cost : ℚ) : Option Disk :=
  (disk.files.tickets runId).bind fun ticket =>
    if ticket.status = .running ∧ disk.files.recorded runId = none then
      some { disk with files := disk.files.addCost runId cost }
    else none

/-- One record ends a run. A run that did not start has neither trigger nor cost. -/
def appendRun (disk : Disk) (run : TaskRun) : Option Disk :=
  (disk.files.tickets run.id).bind fun ticket =>
    if isOpenRun ticket ∧ disk.files.recorded run.id = none ∧ isOpenRun run = false ∧
        run.trigger.isSome = ticket.trigger.isSome ∧ (run.trigger = none → run.costUsd = none) then
      some { disk with files := disk.files.appendRun run }
    else none

def rewriteTicket (disk : Disk) (runId : RunId) : Option Disk :=
  (disk.files.tickets runId).bind fun _ =>
    (disk.files.recorded runId).map fun run =>
      { disk with files := disk.files.writeTicket runId run }

/-- The promise of a run resolves after its ticket was rewritten. -/
def itemEnded (disk : Disk) (index : Nat) (again : Bool) : Option Disk :=
  disk.items[index]?.bind fun item =>
    (disk.ticketOf item).bind fun ticket =>
      if isOpenRun ticket then none
      else some (disk.setItem index (endedItem (disk.stored.state = .cancelled) again item ticket))

def itemRejected (disk : Disk) (index : Nat) (error : String) : Option Disk :=
  disk.items[index]?.bind fun item =>
    if isUnsettled item then
      some (disk.setItem index
        { item with state := .done, execution := some .failed, error := some error })
    else none

def itemCancelled (disk : Disk) (index : Nat) : Option Disk :=
  disk.items[index]?.bind fun item =>
    if item.state = .pending then
      some (disk.setItem index { item with state := .done, execution := some .cancelled })
    else none

def itemRequeued (disk : Disk) (index : Nat) : Option Disk :=
  disk.items[index]?.bind fun item =>
    if isRerunnable item then some (disk.setItem index (backToPending item)) else none

/-- The disk after the next process reconciled the batch. -/
def reconciled (disk : Disk) (now : Nat) : Disk :=
  let done := reconcile disk.files disk.stored disk.items now
  { disk with files := done.1, stored := done.2.batch, items := done.2.items }

def step (disk : Disk) : DiskWrite → Option Disk
  | .requestTicket trigger =>
      some { disk with
        files := disk.files.writeTicket disk.asked (openRun disk.asked trigger)
        asked := disk.asked + 1
        started := Function.update disk.started disk.asked trigger.isSome }
  | .itemAsked index => disk.itemAsked index
  | .startTicket runId trigger => disk.startTicket runId trigger
  | .itemStarted index => disk.itemStarted index
  | .modelCall runId cost => disk.modelCall runId cost
  | .appendRun run => disk.appendRun run
  | .rewriteTicket runId => disk.rewriteTicket runId
  | .assess runId assessment => some { disk with files := disk.files.assessRun runId assessment }
  | .itemEnded index again => disk.itemEnded index again
  | .itemRejected index error => disk.itemRejected index error
  | .itemCancelled index => disk.itemCancelled index
  | .itemRequeued index => disk.itemRequeued index
  | .saveState state => some { disk with stored := { disk.stored with state := state } }
  | .reconcile now => some (disk.reconciled now)

end Disk

/-- A new batch has no run. -/
def batchDisk (spec : NewBatch) : System Disk DiskWrite where
  initial disk := disk = { stored := (createBatch spec).batch, items := (createBatch spec).items }
  step := Disk.step

end NimbleBrain.Tasks

/- An append, a saved result and an update change what the files show of one run. -/

namespace NimbleBrain.Tasks

open Library

namespace RunHistory

variable {startOf : RunId → Nat} {latest : RunId → Option TaskRun} {result : RunId → Option TaskRunResult}
  {history : RunHistory}

/-- The versions once a record of its run is added. -/
def withRecord (latest : RunId → Option TaskRun) (run : TaskRun) (runId : RunId) : Option TaskRun :=
  if run.id = runId then some run else latest runId

variable {run updated : TaskRun} {lines after : List TaskRun} {runId : RunId} {update : TaskRun → TaskRun}

theorem Shows.appendIndex (shows : history.Shows startOf latest result) (own : run.startedAt = startOf run.id) :
    (history.perform (.appendIndex run)).Shows startOf (withRecord latest run) result := by
  refine { shows with started := ?_, lines := ?_ }
  · intro other among
    rcases List.mem_append.mp among with before | new
    · exact shows.started other before
    · exact List.mem_singleton.mp new ▸ own
  · intro runId
    change (latestOf (history.index ++ [run]) runId).or
      (latestOf (history.segment (slotOf startOf runId)).index runId) = _
    rw [latestOf_concat, withRecord, ← shows.lines runId]
    split <;> rfl

/-- An append that stops shows the new record as soon as its line is written. -/
theorem Shows.crashedAppend (shows : history.Shows startOf latest result) (own : run.startedAt = startOf run.id)
    (done : Nat) :
    (history.crashedAppend run (done + 1)).Shows startOf (withRecord latest run) result := by
  rw [RunHistory.crashedAppend, appendOps, List.take_succ_cons, performAll_cons]
  exact (shows.appendIndex own).rolls done

theorem Shows.appendRun (shows : history.Shows startOf latest result) (own : run.startedAt = startOf run.id) :
    (history.appendRun run).Shows startOf (withRecord latest run) result := by
  have whole := shows.crashedAppend own (history.appendOps run).length
  rwa [RunHistory.crashedAppend, List.take_of_length_le (Nat.le_succ _)] at whole

/-- The results once one is saved. -/
def withResult (result : RunId → Option TaskRunResult) (saved : TaskRunResult) (runId : RunId) : Option TaskRunResult :=
  if saved.runId = runId then some saved else result runId

theorem Shows.saveRunResult (shows : history.Shows startOf latest result) (saved : TaskRunResult) :
    (history.saveRunResult saved).Shows startOf latest (withResult result saved) := by
  refine { shows with results := ?_ }
  intro runId
  change ((history.results.set saved.runId saved).get? runId).or
    ((history.segment (slotOf startOf runId)).results.get? runId) = _
  rw [OrderedMap.get?_set, withResult, ← shows.results runId]
  by_cases same : runId = saved.runId
  · rw [if_pos same, if_pos same.symm]
    rfl
  · rw [if_neg same, if_neg (Ne.symm same)]

theorem lastLineOf_split {before later : List TaskRun} (last : ∀ other ∈ later, other.id ≠ run.id) :
    lastLineOf (before ++ run :: later) run.id = some before.length := by
  have behind : later.reverse.findIdx? (fun other => other.id = run.id) = none := by
    rw [List.findIdx?_eq_none_iff]
    exact fun other among => decide_eq_false (last other (List.mem_reverse.mp among))
  rw [lastLineOf, List.reverse_append, List.reverse_cons, List.append_assoc, List.findIdx?_append, behind,
    List.singleton_append, List.findIdx?_cons, if_pos (decide_eq_true rfl)]
  simp only [Option.map_some, Option.none_or, List.length_append, List.length_cons, List.length_reverse]
  exact congrArg some (by omega)

/-- The last line of a run is the one that is rewritten. -/
theorem rewriteRunLine_of_latest (found : latestOf lines runId = some run) :
    ∃ before later, lines = before ++ run :: later ∧ run.id = runId ∧ (∀ other ∈ later, other.id ≠ runId) ∧
      ∀ update : TaskRun → TaskRun,
        rewriteRunLine lines runId update = some (before ++ update run :: later, update run) := by
  obtain ⟨own, later, before, split, last⟩ := List.find?_eq_some_iff_append.mp found
  have same : run.id = runId := by simpa using own
  subst same
  have whole : lines = before.reverse ++ run :: later.reverse := by
    rw [← List.reverse_reverse lines, split]
    simp
  have behind : ∀ other ∈ later.reverse, other.id ≠ run.id := by
    intro other among
    simpa using last other (List.mem_reverse.mp among)
  refine ⟨before.reverse, later.reverse, whole, rfl, behind, fun update => ?_⟩
  rw [rewriteRunLine, whole, lastLineOf_split behind, Option.bind_some, List.getElem?_append_right le_rfl, Nat.sub_self,
    List.getElem?_cons_zero, Option.map_some, List.set_append_right _ _ le_rfl, Nat.sub_self, List.set_cons_zero]

theorem rewriteRunLine_of_none (none' : latestOf lines runId = none) (update : TaskRun → TaskRun) :
    rewriteRunLine lines runId update = none := by
  have nowhere : lines.reverse.findIdx? (fun run => run.id = runId) = none := by
    rw [List.findIdx?_eq_none_iff]
    exact fun run among => decide_eq_false (latestOf_eq_none.mp none' run (List.mem_reverse.mp among))
  rw [rewriteRunLine, lastLineOf, nowhere]
  rfl

/-- A rewritten line is the last one of its run. -/
theorem rewriteRunLine_spec (rewritten : rewriteRunLine lines runId update = some (after, updated)) :
    ∃ before run later, lines = before ++ run :: later ∧ run.id = runId ∧ (∀ other ∈ later, other.id ≠ runId) ∧
      after = before ++ update run :: later ∧ updated = update run := by
  cases found : latestOf lines runId with
  | none =>
      rw [rewriteRunLine_of_none found] at rewritten
      cases rewritten
  | some run =>
      obtain ⟨before, later, split, own, last, writes⟩ := rewriteRunLine_of_latest found
      rw [writes, Option.some.injEq, Prod.mk.injEq] at rewritten
      exact ⟨before, run, later, split, own, last, rewritten.1.symm, rewritten.2.symm⟩

/-- A rewritten line changes what its file shows of its run only. -/
theorem latestOf_rewritten (rewritten : rewriteRunLine lines runId update = some (after, updated))
    (same : updated.id = runId) (other : RunId) :
    latestOf after other = if runId = other then some updated else latestOf lines other := by
  obtain ⟨before, run, later, rfl, own, last, rfl, rfl⟩ := rewriteRunLine_spec rewritten
  have split (line : TaskRun) : latestOf (before ++ line :: later) other =
      (latestOf later other).or (if line.id = other then some line else latestOf before other) := by
    rw [← List.singleton_append, ← List.append_assoc, latestOf_append, latestOf_concat]
  rw [split, split, same, own]
  by_cases equal : runId = other
  · subst equal
    rw [latestOf_eq_none.mpr last, if_pos rfl, if_pos rfl]
    rfl
  · rw [if_neg equal, if_neg equal, if_neg equal]

/-- An update keeps the identity and the start of its run. -/
def KeepsRun (runId : RunId) (update : TaskRun → TaskRun) : Prop :=
  ∀ run : TaskRun, run.id = runId → (update run).id = runId ∧ (update run).startedAt = run.startedAt

/-- The lines of a file that is rewritten have the starts of their runs. -/
theorem rewritten_started {lines after : List TaskRun} {runId : RunId} {update : TaskRun → TaskRun}
    {updated : TaskRun} (rewritten : rewriteRunLine lines runId update = some (after, updated))
    (keeps : KeepsRun runId update) {Good : TaskRun → Prop}
    (good : ∀ first second : TaskRun, first.id = second.id → first.startedAt = second.startedAt → Good first → Good second)
    (all : ∀ run ∈ lines, Good run) : updated.id = runId ∧ ∀ run ∈ after, Good run := by
  obtain ⟨before, run, later, rfl, own, -, rfl, rfl⟩ := rewriteRunLine_spec rewritten
  obtain ⟨same, start⟩ := keeps run own
  refine ⟨same, fun other among => ?_⟩
  rcases List.mem_append.mp among with earlier | rest
  · exact all other (List.mem_append_left _ earlier)
  · rcases List.mem_cons.mp rest with rfl | behind
    · exact good run _ (own.trans same.symm) start.symm (all run (by simp))
    · exact all other (List.mem_append_right _ (List.mem_cons_of_mem _ behind))

/-- An update is shown wherever the line of its run is. -/
theorem Shows.updateRun (shows : history.Shows startOf latest result) (keeps : KeepsRun runId update)
    {after : RunHistory} (rewritten : history.updateRun runId update = some (after, updated)) :
    after.Shows startOf (withRecord latest updated) result := by
  rw [RunHistory.updateRun] at rewritten
  split at rewritten
  · next lines run hot =>
      obtain ⟨rfl, rfl⟩ := Prod.mk.inj (Option.some.inj rewritten)
      obtain ⟨own, started⟩ := @rewritten_started _ _ _ _ _ hot keeps (fun run => run.startedAt = startOf run.id)
        (fun first second same start before => by rw [← same, ← start, before]) shows.started
      refine { shows with started := started, lines := fun other => ?_ }
      change (latestOf lines other).or (latestOf (history.segment (slotOf startOf other)).index other) = _
      rw [latestOf_rewritten hot own, withRecord, ← shows.lines other, own]
      split <;> rfl
  · next cold =>
      obtain ⟨month, -, written⟩ := List.exists_of_findSome?_eq_some rewritten
      obtain ⟨⟨lines, run⟩, segment, made⟩ := Option.map_eq_some_iff.mp written
      obtain ⟨rfl, rfl⟩ := Prod.mk.inj made
      obtain ⟨own, started⟩ := @rewritten_started _ _ _ _ _ segment keeps
        (fun run => run.startedAt = startOf run.id ∧ month = slotOf startOf run.id)
        (fun first second same start before => by rw [← same, ← start]; exact before) (shows.placed month)
      obtain ⟨before, old, later, split, same, -, -, -⟩ := rewriteRunLine_spec segment
      have place : month = slotOf startOf runId := same ▸ (shows.placed month old (by rw [split]; simp)).2
      have unread : latestOf history.index runId = none := by
        by_contra some'
        obtain ⟨line, found⟩ := Option.ne_none_iff_exists'.mp some'
        obtain ⟨_, _, _, _, _, writes⟩ := rewriteRunLine_of_latest found
        rw [writes] at cold
        cases cold
      refine shows.setLines month started ?_ ?_
      · intro other elsewhere
        rw [withRecord, own, if_neg]
        rintro rfl
        exact elsewhere place.symm
      · intro other there
        rw [latestOf_rewritten segment own, withRecord, own, ← shows.lines other, there]
        by_cases equal : runId = other
        · subst equal
          rw [unread, if_pos rfl, if_pos rfl]
          rfl
        · rw [if_neg equal, if_neg equal]

end RunHistory

end NimbleBrain.Tasks
