import Mathlib.Data.List.Sort
import NimbleBrain.Library.Months
import NimbleBrain.Library.OrderedMap
import NimbleBrain.Tasks.Run

/- A task keeps the summaries of its runs. The newest are in a hot index, and older ones roll into month segments. -/

namespace NimbleBrain.Tasks

open Library

/-- The run summaries that the hot index holds. -/
def maxRunLines : Nat := 1000

/-- A run's deliverable. -/
structure TaskRunResult where
  runId : RunId
  content : String := ""
  deriving DecidableEq

/-- The archive of one month, with the results of its runs. -/
structure RunSegment where
  index : List TaskRun := []
  results : OrderedMap RunId TaskRunResult := ∅
  deriving DecidableEq

/-- The files of a task's runs: the hot index, the hot results and the archive months. -/
structure RunHistory where
  index : List TaskRun := []
  results : OrderedMap RunId TaskRunResult := ∅
  archive : OrderedMap Nat RunSegment := ∅
  deriving DecidableEq

/-- The archive month that a run summary belongs to. -/
def archiveSlotOf (run : TaskRun) : Nat := Months.monthOf run.startedAt

/-- The first instant after a month. -/
def monthEndMs (month : Nat) : Nat := Months.monthStart (month + 1)

/-- The file operations of the roll-over, of which each is atomic. -/
inductive RunFileOp where
  | appendIndex (run : TaskRun)
  | ensureSegment (month : Nat)
  | appendSegment (month : Nat) (lines : List TaskRun)
  | archiveRunResult (month : Nat) (runId : RunId)
  | rewriteIndex (lines : List TaskRun)
  deriving DecidableEq

namespace RunHistory

variable (history : RunHistory)

/-- A month without an archive reads as an empty one. -/
def segment (month : Nat) : RunSegment := (history.archive.get? month).getD {}

def setSegment (month : Nat) (segment : RunSegment) : RunHistory :=
  { history with archive := history.archive.set month segment }

def perform : RunFileOp → RunHistory
  | .appendIndex run => { history with index := history.index ++ [run] }
  | .ensureSegment month => history.setSegment month (history.segment month)
  | .appendSegment month lines =>
      history.setSegment month { history.segment month with index := (history.segment month).index ++ lines }
  | .archiveRunResult month runId =>
      match history.results.get? runId with
      | none => history
      | some result => { history.setSegment month { history.segment month with
          results := (history.segment month).results.set runId result } with
        results := history.results.delete runId }
  | .rewriteIndex lines => { history with index := lines }

def performAll (history : RunHistory) (ops : List RunFileOp) : RunHistory := ops.foldl perform history

/-- The rolled lines by the month of their runs. -/
def byMonth (rolled : List TaskRun) : OrderedMap Nat (List TaskRun) :=
  rolled.foldl (fun groups run =>
    groups.set (archiveSlotOf run) ((groups.get? (archiveSlotOf run)).getD [] ++ [run])) ∅

def archiveOps (entry : Nat × List TaskRun) : List RunFileOp :=
  .ensureSegment entry.1 :: .appendSegment entry.1 entry.2 :: entry.2.map fun run => .archiveRunResult entry.1 run.id

/-- The oldest lines roll into the archive, then the hot index is rewritten. -/
def rollOps (lines : List TaskRun) : List RunFileOp :=
  if lines.length ≤ maxRunLines then []
  else (byMonth (lines.take (lines.length - maxRunLines))).entries.flatMap archiveOps ++
    [.rewriteIndex (lines.drop (lines.length - maxRunLines))]

def appendOps (run : TaskRun) : List RunFileOp := .appendIndex run :: rollOps (history.index ++ [run])

def appendRun (run : TaskRun) : RunHistory := history.performAll (history.appendOps run)

/-- The process stops once so many file operations of the append are done. -/
def crashedAppend (run : TaskRun) (done : Nat) : RunHistory := history.performAll ((history.appendOps run).take done)

/-- The archive months, newest first. -/
def listRunSegmentMonths : List Nat := (history.archive.entries.map Prod.fst).insertionSort fun first second => second ≤ first

/-- The hot index, then each archive month. -/
def runIndexFiles : List (List TaskRun) :=
  history.index :: history.listRunSegmentMonths.map fun month => (history.segment month).index

def findRun (runId : RunId) : Option TaskRun :=
  history.runIndexFiles.findSome? fun lines => lines.reverse.find? fun run => run.id = runId

/-- The place of the last line that records the run. -/
def lastLineOf (lines : List TaskRun) (runId : RunId) : Option Nat :=
  (lines.reverse.findIdx? fun run => run.id = runId).map fun behind => lines.length - 1 - behind

def rewriteRunLine (lines : List TaskRun) (runId : RunId) (update : TaskRun → TaskRun) :
    Option (List TaskRun × TaskRun) :=
  (lastLineOf lines runId).bind fun place => (lines[place]?).map fun run => (lines.set place (update run), update run)

/-- The line of the run is rewritten in the first file that has it. -/
def updateRun (runId : RunId) (update : TaskRun → TaskRun) : Option (RunHistory × TaskRun) :=
  match rewriteRunLine history.index runId update with
  | some (lines, updated) => some ({ history with index := lines }, updated)
  | none => history.listRunSegmentMonths.findSome? fun month =>
      (rewriteRunLine (history.segment month).index runId update).map fun (lines, updated) =>
        (history.setSegment month { history.segment month with index := lines }, updated)

def saveRunResult (result : TaskRunResult) : RunHistory :=
  { history with results := history.results.set result.runId result }

/-- The result is in the hot directory, or in the first archive month that has one. -/
def readRunResult (runId : RunId) : Option TaskRunResult :=
  (history.results.get? runId).or
    (history.listRunSegmentMonths.findSome? fun month => (history.segment month).results.get? runId)

end RunHistory

/-- The filters of a read. A batch's items may be left out. -/
structure ReadRunsOptions where
  limit : Option Nat := none
  since : Option Nat := none
  status : Option RunStatus := none
  before : Option Nat := none
  excludeBatch : Bool := false
  deriving DecidableEq

/-- One page of runs, newest first, with the place where the next older page starts. -/
structure RunsPage where
  runs : List TaskRun
  nextBefore : Option Nat := none
  deriving DecidableEq

namespace ReadRunsOptions

variable (opts : ReadRunsOptions)

def pageLimit : Nat := max 1 (opts.limit.getD 20)

/-- Whether the filters let the run pass. An empty batch id counts as none. -/
def matchesRun (run : TaskRun) : Bool :=
  opts.since.all (fun since => decide (since ≤ run.startedAt)) && opts.status.all (fun status => run.status = status) &&
    !(opts.excludeBatch && run.batchId.any (· ≠ ""))

def wanted (run : TaskRun) : Bool := opts.before.all (fun before => decide (run.startedAt < before)) && opts.matchesRun run

/-- A wanted run is picked once. -/
def takeRuns (picked runs : List TaskRun) : List TaskRun :=
  runs.foldl (fun picked run =>
    if !opts.wanted run || picked.any (fun other => other.id = run.id) then picked else picked ++ [run]) picked

end ReadRunsOptions

namespace RunHistory

variable (history : RunHistory) (opts : ReadRunsOptions)

/-- Segments are read until no unread one can hold a run the page needs. The unread ones that may match are counted. -/
def walkSegments (before : Nat) : List Nat → List TaskRun → Nat × List TaskRun
  | [], picked => (0, picked)
  | month :: rest, picked =>
      if opts.since.any (fun since => decide (monthEndMs month ≤ since)) then (0, picked)
      else if before ≤ Months.monthStart month then walkSegments before rest picked
      else if opts.pageLimit ≤ (picked.filter fun run => decide (monthEndMs month ≤ run.startedAt)).length then
        (rest.length + 1, picked)
      else walkSegments before rest (opts.takeRuns picked (history.segment month).index)

/-- The page takes the runs up to the limit, and all that started with the last of them. -/
def cutPage (limit : Nat) (runs : List TaskRun) : List TaskRun × List TaskRun :=
  let tied := fun (run : TaskRun) => (runs.take limit).getLast?.any fun last => run.startedAt = last.startedAt
  (runs.take limit ++ (runs.drop limit).takeWhile tied, (runs.drop limit).dropWhile tied)

/-- The runs that were picked, newest first, are cut to a page. The page has a next one where more may be left. -/
def pageOf (limit unread : Nat) (picked : List TaskRun) : RunsPage :=
  let (runs, rest) := cutPage limit (picked.insertionSort fun first second => second.startedAt ≤ first.startedAt)
  if rest ≠ [] ∨ 0 < unread then { runs := runs, nextBefore := runs.getLast?.map TaskRun.startedAt } else { runs := runs }

/-- The first page reads no segment. A later one walks them, newest first. -/
def readRunsPage : RunsPage :=
  let hot := opts.takeRuns [] history.index
  let months := history.listRunSegmentMonths
  let (unread, picked) := match opts.before with
    | none => ((months.filter fun month => opts.since.all fun since => decide (since < monthEndMs month)).length, hot)
    | some before => history.walkSegments opts before months hot
  pageOf opts.pageLimit unread picked

/-- The pages from a place on, until a page has no next one. -/
def readPages (history : RunHistory) (opts : ReadRunsOptions) : Nat → Option Nat → Option (List RunsPage)
  | 0, _ => none
  | fuel + 1, before =>
      let page := history.readRunsPage { opts with before := before }
      match page.nextBefore with
      | none => some [page]
      | some next => (readPages history opts fuel (some next)).map (page :: ·)

end RunHistory

end NimbleBrain.Tasks
