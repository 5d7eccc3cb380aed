import NimbleBrain.Library.Table
import NimbleBrain.Tasks.Run
import Mathlib.Tactic.Ring

/- The items of a batch carry its outcomes. Its counts and cost are derived from them. -/

namespace NimbleBrain.Tasks

inductive BatchItemState where
  | pending | queued | running | done
  deriving DecidableEq

structure BatchItem where
  index : Nat
  state : BatchItemState
  runId : Option RunId := none
  previousRunIds : List RunId := []
  execution : Option RunExecution := none
  verdict : Option AssessmentVerdict := none
  degraded : Bool := false
  costUsd : Option ℚ := none
  error : Option String := none
  deriving DecidableEq

inductive Bucket where
  | pending | queued | running | pass | fail | uncertain | notAssessed | failed | skipped | cancelled
  deriving DecidableEq

def AssessmentVerdict.bucket : AssessmentVerdict → Bucket
  | .pass => .pass
  | .fail => .fail
  | .uncertain => .uncertain
  | .notAssessed => .notAssessed

/-- A done run with a deliverable counts by its verdict. -/
def bucketOf (item : BatchItem) : Bucket :=
  match item.state with
  | .pending => .pending
  | .queued => .queued
  | .running => .running
  | .done =>
      match item.execution with
      | some .failed => .failed
      | some .skipped => .skipped
      | some .cancelled => .cancelled
      | _ => (item.verdict.getD .notAssessed).bucket

abbrev BatchCounts := Bucket → ℤ

def emptyCounts : BatchCounts := fun _ => 0

def BatchCounts.add (counts : BatchCounts) (bucket : Bucket) (change : ℤ) : BatchCounts :=
  Function.update counts bucket (counts bucket + change)

def countItems (items : List BatchItem) : BatchCounts :=
  items.foldl (fun counts item => counts.add (bucketOf item) 1) emptyCounts

def BatchItem.cost (item : BatchItem) : ℚ := item.costUsd.getD 0

def sumCost (items : List BatchItem) : ℚ := items.foldl (fun total item => total + item.cost) 0

def itemVerdictOf (run : TaskRun) : Option AssessmentVerdict := run.assessment.map effectiveVerdict

/-- An item that is asked for again keeps its cost. Its current run becomes a previous one. -/
def backToPending (item : BatchItem) : BatchItem where
  index := item.index
  state := .pending
  costUsd := item.costUsd
  previousRunIds := item.previousRunIds ++ item.runId.toList

/-- A rerun puts back an item without a deliverable or with a failing one. -/
def isRerunnable (item : BatchItem) : Bool :=
  item.state = .done && (item.execution = some .failed || item.execution = some .skipped ||
    item.execution = some .cancelled || item.verdict = some .fail)

/-- The outcome of an item adds what its run cost. -/
def outcomeOf (item : BatchItem) (run : TaskRun) : BatchItem where
  index := item.index
  state := .done
  runId := some run.id
  previousRunIds := item.previousRunIds
  execution := some (executionOf run)
  verdict := if isAssessable run then itemVerdictOf run else none
  degraded := run.status = .degraded || !run.unrecoveredToolFailures.isEmpty
  costUsd := some (item.cost + run.costUsd.getD 0)
  error := run.error.filter (· != "")

/-- The pass rate leaves uncertain verdicts out. -/
def passRateOf (counts : BatchCounts) : Option ℚ :=
  if counts .pass + counts .fail = 0 then none
  else some (counts .pass / (counts .pass + counts .fail))

@[simp] theorem outcomeOf_cost (item : BatchItem) (run : TaskRun) :
    (outcomeOf item run).cost = item.cost + run.costUsd.getD 0 := rfl

theorem countItems_apply (items : List BatchItem) (bucket : Bucket) :
    countItems items bucket = (items.map fun item => if bucketOf item = bucket then (1 : ℤ) else 0).sum := by
  have general : ∀ counts : BatchCounts,
      items.foldl (fun counts item => counts.add (bucketOf item) 1) counts bucket =
        counts bucket + (items.map fun item => if bucketOf item = bucket then (1 : ℤ) else 0).sum := by
    induction items with
    | nil => simp
    | cons item rest ih =>
        intro counts
        rw [List.foldl_cons, ih, List.map_cons, List.sum_cons, BatchCounts.add]
        by_cases same : bucketOf item = bucket
        · subst same
          rw [Function.update_self, if_pos rfl]
          ring
        · rw [Function.update_of_ne (Ne.symm same), if_neg same]
          ring
  exact (general emptyCounts).trans (zero_add _)

/-- The counts say how many items are in each bucket. -/
theorem countItems_eq (items : List BatchItem) (bucket : Bucket) :
    countItems items bucket = items.countP fun item => bucketOf item = bucket := by
  rw [countItems_apply]
  induction items with
  | nil => rfl
  | cons item rest ih =>
      rw [List.map_cons, List.sum_cons, ih, List.countP_cons]
      split <;> simp_all [add_comm]

variable {items : List BatchItem} {index : Nat} {old : BatchItem}

theorem countItems_pos {item : BatchItem} (member : item ∈ items) :
    0 < countItems items (bucketOf item) := by
  rw [countItems_eq, Int.natCast_pos, List.countP_pos_iff]
  exact ⟨item, member, decide_eq_true rfl⟩

theorem sumCost_eq (items : List BatchItem) : sumCost items = (items.map BatchItem.cost).sum := by
  have general : ∀ start : ℚ, items.foldl (fun total item => total + item.cost) start =
      start + (items.map BatchItem.cost).sum := by
    induction items with
    | nil => simp
    | cons item rest ih =>
        intro start
        rw [List.foldl_cons, ih, List.map_cons, List.sum_cons]
        ring
  exact (general 0).trans (zero_add _)

/-- The counts follow one replaced item. -/
theorem countItems_set (found : items[index]? = some old) (new : BatchItem) :
    countItems (items.set index new) =
      ((countItems items).add (bucketOf old) (-1)).add (bucketOf new) 1 := by
  funext bucket
  rw [countItems_apply, Library.sum_map_set _ items index found new, ← countItems_apply,
    BatchCounts.add, BatchCounts.add]
  by_cases first : bucket = bucketOf new
  · subst first
    rw [Function.update_self, if_pos rfl]
    by_cases second : bucketOf new = bucketOf old
    · rw [second, Function.update_self, if_pos rfl]
      ring
    · rw [Function.update_of_ne second, if_neg (Ne.symm second)]
      ring
  · rw [Function.update_of_ne first, if_neg (Ne.symm first)]
    by_cases second : bucket = bucketOf old
    · subst second
      rw [Function.update_self, if_pos rfl]
      ring
    · rw [Function.update_of_ne second, if_neg (Ne.symm second)]
      ring

theorem sumCost_set (found : items[index]? = some old) (new : BatchItem) :
    sumCost (items.set index new) = sumCost items + (new.cost - old.cost) := by
  rw [sumCost_eq, Library.sum_map_set _ items index found new, ← sumCost_eq]
  ring

end NimbleBrain.Tasks
