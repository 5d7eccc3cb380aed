import Mathlib.Data.List.Find
import NimbleBrain.Tasks.RunPaging

/- The files of a run history show the latest version of every run and result, also after a crash. -/

namespace NimbleBrain.Tasks

open Library

namespace RunHistory

/-- The last line of a run. -/
def latestOf (lines : List TaskRun) (runId : RunId) : Option TaskRun := lines.reverse.find? fun run => run.id = runId

theorem latestOf_append (first second : List TaskRun) (runId : RunId) :
    latestOf (first ++ second) runId = (latestOf second runId).or (latestOf first runId) := by
  rw [latestOf, List.reverse_append, List.find?_append]
  rfl

theorem latestOf_concat (lines : List TaskRun) (run : TaskRun) (runId : RunId) :
    latestOf (lines ++ [run]) runId = if run.id = runId then some run else latestOf lines runId := by
  rw [latestOf_append, latestOf, List.reverse_singleton, List.find?_singleton]
  by_cases same : run.id = runId <;> simp [same]

variable {lines : List TaskRun} {runId : RunId}

theorem latestOf_eq_none :
    latestOf lines runId = none ↔ ∀ run ∈ lines, run.id ≠ runId := by
  simp [latestOf, List.find?_eq_none]

/-- The lines of a month show the latest version of a run whose lines are all of that month. -/
theorem latestOf_filter {kept : TaskRun → Bool} (all : ∀ run ∈ lines, run.id = runId → kept run = true) :
    latestOf (lines.filter kept) runId = latestOf lines runId := by
  rw [latestOf, latestOf, ← List.filter_reverse, List.find?_filter]
  apply List.find?_congr
  intro run among
  by_cases same : run.id = runId
  · simp [same, all run (List.mem_reverse.mp among) same]
  · simp [same]

/-- A value that one entry of a list has is found there. -/
theorem findSome?_only {Item Value : Type} {list : List Item} {find : Item → Option Value} {item : Item}
    (others : ∀ other ∈ list, other ≠ item → find other = none) (absent : item ∉ list → find item = none) :
    list.findSome? find = find item := by
  induction list with
  | nil => exact (absent List.not_mem_nil).symm
  | cons head rest ih =>
      have later : ∀ other ∈ rest, other ≠ item → find other = none := fun other among =>
        others other (List.mem_cons_of_mem _ among)
      rw [List.findSome?_cons]
      by_cases same : head = item
      · subst same
        cases found : find head with
        | some value => rfl
        | none =>
            dsimp only
            rw [ih later fun _ => found, found]
      · rw [others head List.mem_cons_self same]
        exact ih later fun unlisted => absent fun among =>
          unlisted ((List.mem_cons.mp among).resolve_left (Ne.symm same))

variable {startOf : RunId → Nat} {latest : RunId → Option TaskRun} {result : RunId → Option TaskRunResult}
  {history : RunHistory}

/-- The archive month of a run. -/
def slotOf (startOf : RunId → Nat) (runId : RunId) : Nat := Months.monthOf (startOf runId)

/-- The files show these versions. The lines and the results of a run are hot or in the month of its start. -/
structure Shows (startOf : RunId → Nat) (latest : RunId → Option TaskRun) (result : RunId → Option TaskRunResult)
    (history : RunHistory) : Prop where
  started : ∀ run ∈ history.index, run.startedAt = startOf run.id
  placed : ∀ month, ∀ run ∈ (history.segment month).index, run.startedAt = startOf run.id ∧ month = slotOf startOf run.id
  kept : ∀ month runId, ((history.segment month).results.get? runId).isSome = true → month = slotOf startOf runId
  lines : ∀ runId, (latestOf history.index runId).or
    (latestOf (history.segment (slotOf startOf runId)).index runId) = latest runId
  results : ∀ runId, (history.results.get? runId).or
    ((history.segment (slotOf startOf runId)).results.get? runId) = result runId

theorem Shows.slot (shows : history.Shows startOf latest result) {run : TaskRun} (among : run ∈ history.index) :
    archiveSlotOf run = slotOf startOf run.id := by
  rw [archiveSlotOf, shows.started run among, slotOf]

/-- The first file that has a line of the run shows its latest version. -/
theorem Shows.findRun (shows : history.Shows startOf latest result) (runId : RunId) :
    history.findRun runId = latest runId := by
  have months : history.listRunSegmentMonths.findSome? (fun month => latestOf (history.segment month).index runId) =
      latestOf (history.segment (slotOf startOf runId)).index runId := by
    apply findSome?_only
    · intro month _ other
      rw [latestOf_eq_none]
      rintro run inside rfl
      exact other (shows.placed month run inside).2
    · intro unlisted
      rw [segment_of_unlisted unlisted]
      rfl
  rw [← shows.lines runId, ← months, RunHistory.findRun, runIndexFiles, List.findSome?_cons, List.findSome?_map]
  cases hot : latestOf history.index runId with
  | none =>
      rw [latestOf] at hot
      rw [hot]
      rfl
  | some run =>
      rw [latestOf] at hot
      rw [hot]
      rfl

theorem Shows.readRunResult (shows : history.Shows startOf latest result) (runId : RunId) :
    history.readRunResult runId = result runId := by
  rw [← shows.results runId, RunHistory.readRunResult]
  congr 1
  apply findSome?_only
  · intro month _ other
    by_contra some'
    exact other (shows.kept month runId (Option.isSome_iff_ne_none.mpr some'))
  · intro unlisted
    rw [segment_of_unlisted unlisted]
    rfl

variable {rolled : List TaskRun} {month : Nat}

/-- A segment that is written with the same results and the given lines. -/
theorem Shows.setLines (shows : history.Shows startOf latest result) (month : Nat)
    {after : RunId → Option TaskRun}
    (placed : ∀ run ∈ lines, run.startedAt = startOf run.id ∧ month = slotOf startOf run.id)
    (same : ∀ runId, slotOf startOf runId ≠ month → after runId = latest runId)
    (own : ∀ runId, slotOf startOf runId = month →
      (latestOf history.index runId).or (latestOf lines runId) = after runId) :
    (history.setSegment month { history.segment month with index := lines }).Shows startOf after result where
  started := shows.started
  placed other run inside := by
    rw [segment_setSegment] at inside
    split at inside
    · next equal => exact equal ▸ placed run inside
    · exact shows.placed other run inside
  kept other runId some' := by
    rw [segment_setSegment] at some'
    split at some'
    · next equal => exact equal ▸ shows.kept month runId some'
    · exact shows.kept other runId some'
  lines runId := by
    rw [segment_setSegment]
    split
    · next equal => exact own runId equal
    · next other => exact (shows.lines runId).trans (same runId other).symm
  results runId := by
    rw [segment_setSegment]
    split
    · next equal =>
        rw [← shows.results runId, equal]
        rfl
    · exact shows.results runId

/-- A month's lines may grow by lines that are still in the hot index. -/
theorem Shows.appendSegment (shows : history.Shows startOf latest result) (hot : ∀ run ∈ lines, run ∈ history.index)
    (own : ∀ run ∈ lines, archiveSlotOf run = month) :
    (history.perform (.appendSegment month lines)).Shows startOf latest result := by
  apply shows.setLines month
  · intro run among
    rcases List.mem_append.mp among with before | new
    · exact shows.placed month run before
    · exact ⟨shows.started run (hot run new), (own run new).symm.trans (shows.slot (hot run new))⟩
  · exact fun _ _ => rfl
  · intro runId equal
    rw [← shows.lines runId, equal, latestOf_append]
    cases found : latestOf history.index runId with
    | some run => rfl
    | none =>
        rw [latestOf_eq_none] at found
        have fresh : latestOf lines runId = none :=
          latestOf_eq_none.mpr fun run among => found run (hot run among)
        rw [fresh]
        rfl

theorem Shows.ensureSegment (shows : history.Shows startOf latest result) (month : Nat) :
    (history.perform (.ensureSegment month)).Shows startOf latest result := by
  have own : ∀ runId, slotOf startOf runId = month →
      (latestOf history.index runId).or (latestOf (history.segment month).index runId) = latest runId := by
    intro runId equal
    rw [← shows.lines runId, equal]
  exact shows.setLines month (shows.placed month) (fun _ _ => rfl) own

/-- A moved result is found in the month of its run. -/
theorem Shows.archiveRunResult (shows : history.Shows startOf latest result) {runId : RunId}
    (own : month = slotOf startOf runId) :
    (history.perform (.archiveRunResult month runId)).Shows startOf latest result := by
  obtain ⟨index, segments⟩ := history.perform_archiveRunResult month runId
  have moved (other : RunId) : ((history.perform (.archiveRunResult month runId)).results.get? other).or
      (((history.perform (.archiveRunResult month runId)).segment (slotOf startOf other)).results.get? other) =
        (history.results.get? other).or ((history.segment (slotOf startOf other)).results.get? other) ∧
      ∀ place, (((history.perform (.archiveRunResult month runId)).segment place).results.get? other).isSome = true →
        place = slotOf startOf other := by
    rw [perform]
    cases found : history.results.get? runId with
    | none => exact ⟨rfl, fun place some' => shows.kept place other some'⟩
    | some value =>
        dsimp only
        change ((history.results.delete runId).get? other).or
            ((RunHistory.segment (history.setSegment month _) (slotOf startOf other)).results.get? other) = _ ∧
          ∀ place, ((RunHistory.segment (history.setSegment month _) place).results.get? other).isSome = true → _
        simp only [segment_setSegment, OrderedMap.get?_delete]
        by_cases same : other = runId
        · subst same
          refine ⟨?_, fun place some' => ?_⟩
          · rw [if_pos rfl, ← own, if_pos rfl, OrderedMap.get?_set_self, found]
            rfl
          · split at some'
            · next equal => exact equal.trans own
            · exact shows.kept place other some'
        · refine ⟨?_, fun place some' => ?_⟩
          · rw [if_neg same]
            split
            · next equal => rw [OrderedMap.get?_set, if_neg same, equal]
            · rfl
          · split at some'
            · next equal =>
                rw [OrderedMap.get?_set, if_neg same] at some'
                exact equal ▸ shows.kept month other some'
            · exact shows.kept place other some'
  constructor
  · rw [index]
    exact shows.started
  · intro other run inside
    rw [segments] at inside
    exact shows.placed other run inside
  · exact fun place other => (moved other).2 place
  · intro other
    rw [index, segments]
    exact shows.lines other
  · exact fun other => (moved other).1.trans (shows.results other)

/-- The operations before the hot index is rewritten move lines and results to their own months. -/
def MovesOwn (startOf : RunId → Nat) (lines : List TaskRun) : RunFileOp → Prop
  | .ensureSegment _ => True
  | .appendSegment month moved => (∀ run ∈ moved, run ∈ lines) ∧ ∀ run ∈ moved, archiveSlotOf run = month
  | .archiveRunResult month runId => month = slotOf startOf runId
  | _ => False

/-- Any number of these operations may be done when the process stops. -/
theorem Shows.moves (shows : history.Shows startOf latest result) {ops : List RunFileOp}
    (moves : ∀ op ∈ ops, MovesOwn startOf history.index op) :
    (history.performAll ops).Shows startOf latest result := by
  induction ops generalizing history with
  | nil => exact shows
  | cons op rest ih =>
      have own := moves op List.mem_cons_self
      have later : ∀ other ∈ rest, MovesOwn startOf history.index other := fun other among =>
        moves other (List.mem_cons_of_mem _ among)
      rw [performAll_cons]
      cases op with
      | appendIndex run => exact own.elim
      | rewriteIndex lines => exact own.elim
      | ensureSegment month => exact ih (shows.ensureSegment month) later
      | appendSegment month lines => exact ih (shows.appendSegment own.1 own.2) later
      | archiveRunResult month runId =>
          refine ih (shows.archiveRunResult own) ?_
          rw [(history.perform_archiveRunResult month runId).1]
          exact later

/-- The groups of the rolled lines are moved to their own months. -/
theorem Shows.groups (shows : history.Shows startOf latest result) (hot : ∀ run ∈ rolled, run ∈ history.index) :
    ∀ op ∈ (byMonth rolled).entries.flatMap archiveOps, MovesOwn startOf history.index op := by
  intro op among
  obtain ⟨entry, listed, own⟩ := List.mem_flatMap.mp among
  have group := byMonth_entries listed
  have inside : ∀ run ∈ entry.2, run ∈ rolled ∧ archiveSlotOf run = entry.1 := by
    intro run member
    rw [group, List.mem_filter, decide_eq_true_eq] at member
    exact member
  rcases List.mem_cons.mp own with rfl | own
  · trivial
  rcases List.mem_cons.mp own with rfl | own
  · exact ⟨fun run member => hot run (inside run member).1, fun run member => (inside run member).2⟩
  · obtain ⟨run, member, rfl⟩ := List.mem_map.mp own
    obtain ⟨listed, slot⟩ := inside run member
    exact slot.symm.trans (shows.slot (hot run listed))

/-- The hot index may lose lines that the archive shows in their latest version. -/
theorem Shows.rewriteIndex (shows : history.Shows startOf latest result)
    (split : history.index = rolled ++ lines)
    (archived : ∀ runId run, latestOf rolled runId = some run →
      latestOf (history.segment (slotOf startOf runId)).index runId = some run) :
    (history.perform (.rewriteIndex lines)).Shows startOf latest result := by
  refine { shows with started := ?_, lines := ?_ }
  · intro run among
    exact shows.started run (split ▸ List.mem_append_right _ among)
  · intro runId
    have before := shows.lines runId
    rw [split, latestOf_append] at before
    rw [← before]
    change (latestOf lines runId).or (latestOf (history.segment (slotOf startOf runId)).index runId) = _
    cases latestOf lines runId with
    | some run => rfl
    | none =>
        cases found : latestOf rolled runId with
        | none => rfl
        | some run => exact archived runId run found

/-- The roll-over shows the same versions wherever it stops. -/
theorem Shows.rolls (shows : history.Shows startOf latest result) (done : Nat) :
    (history.performAll ((rollOps history.index).take done)).Shows startOf latest result := by
  rw [rollOps]
  split
  · rw [List.take_nil]
    exact shows
  · generalize history.index.length - maxRunLines = spare
    have hot : ∀ run ∈ history.index.take spare, run ∈ history.index := fun run => List.mem_of_mem_take
    have moves := shows.groups hot
    rw [List.take_append, performAll_append]
    rcases Nat.lt_or_ge ((byMonth (history.index.take spare)).entries.flatMap archiveOps).length done with all | part
    · have moved := shows.moves moves
      obtain ⟨index, segments⟩ := history.performAll_groups (byMonth (history.index.take spare)).entries
      have last : [RunFileOp.rewriteIndex (history.index.drop spare)].take
          (done - ((byMonth (history.index.take spare)).entries.flatMap archiveOps).length) =
            [.rewriteIndex (history.index.drop spare)] := by
        apply List.take_of_length_le
        rw [List.length_singleton]
        omega
      rw [List.take_of_length_le all.le, last]
      apply moved.rewriteIndex (index.trans (List.take_append_drop spare history.index).symm)
      intro runId run found
      have own : latestOf ((history.index.take spare).filter fun run => archiveSlotOf run = slotOf startOf runId) runId =
          some run := by
        rw [latestOf_filter, found]
        rintro other among rfl
        exact decide_eq_true (shows.slot (hot other among))
      rw [segments, linesFor_byMonth, latestOf_append, own]
      rfl
    · rw [Nat.sub_eq_zero_of_le part, List.take_zero]
      exact shows.moves fun op among => moves op (List.mem_of_mem_take among)

end RunHistory

end NimbleBrain.Tasks
