import NimbleBrain.Tasks.RunDisk

/- Over any appends, crashes and updates the run history loses nothing, when the records of a run keep its start. -/

namespace NimbleBrain.Tasks

open Library

/-- The store of one task's runs is changed by one call at a time. A crash may stop an append. -/
inductive RunStep where
  | saveRunResult (result : TaskRunResult)
  | appendRun (run : TaskRun)
  | crashedAppend (run : TaskRun) (done : Nat)
  | updateRun (runId : RunId) (update : TaskRun → TaskRun)

/-- The files of a task's runs, with every record and every result that was written to them. -/
structure RunLog where
  history : RunHistory := {}
  recorded : List TaskRun := []
  saved : List TaskRunResult := []
  deriving DecidableEq

/-- A crash before the first file operation leaves nothing, and a later one leaves the record. -/
def runSystem : System RunLog RunStep where
  initial log := log = {}
  step log
    | .saveRunResult result => some { log with
        history := log.history.saveRunResult result, saved := log.saved ++ [result] }
    | .appendRun run => some { log with
        history := log.history.appendRun run, recorded := log.recorded ++ [run] }
    | .crashedAppend run done => some { log with
        history := log.history.crashedAppend run done
        recorded := if done = 0 then log.recorded else log.recorded ++ [run] }
    | .updateRun runId update => some (match log.history.updateRun runId update with
        | some (history, updated) => { log with history := history, recorded := log.recorded ++ [updated] }
        | none => log)

/-- A read of pages, each from the cursor of the one before. The files may change between two pages. -/
inductive PagedRead (states : RunHistory → Prop) (opts : ReadRunsOptions) : Option Nat → List RunsPage → Prop where
  | last (before : Option Nat) (history : RunHistory) (current : states history) :
      PagedRead states opts before [history.readRunsPage { opts with before := before }]
  | next (before : Option Nat) (history : RunHistory) (current : states history) (start : Nat)
      (cursor : (history.readRunsPage { opts with before := before }).nextBefore = some start) (pages : List RunsPage)
      (rest : PagedRead states opts (some start) pages) :
      PagedRead states opts before (history.readRunsPage { opts with before := before } :: pages)

/-- What a run history promises of the records and the results that were written to it. -/
structure RunLog.KeepsAll (states : RunHistory → Prop) (log : RunLog) : Prop where
  found : ∀ runId, log.history.findRun runId = log.recorded.reverse.find? fun run => run.id = runId
  result : ∀ runId, log.history.readRunResult runId = log.saved.reverse.find? fun result => result.runId = runId
  once : ∀ opts before pages, PagedRead states opts before pages →
    ((pages.flatMap RunsPage.runs).map TaskRun.id).Nodup

/-- Every record of a run has its start. -/
def KeepsStart (startOf : RunId → Nat) (_ : RunLog) : RunStep → Prop
  | .saveRunResult _ => True
  | .appendRun run | .crashedAppend run _ => run.startedAt = startOf run.id
  | .updateRun runId update => RunHistory.KeepsRun runId update

namespace RunHistory

variable {history : RunHistory} {opts : ReadRunsOptions} {Good : TaskRun → Prop}

/-- The runs that were picked are wanted and good, and none is picked twice. -/
structure Picked (opts : ReadRunsOptions) (Good : TaskRun → Prop) (picked : List TaskRun) : Prop where
  once : (picked.map TaskRun.id).Nodup
  good : ∀ run ∈ picked, Good run ∧ opts.wanted run = true

variable {picked : List TaskRun}

theorem Picked.takeRuns {runs : List TaskRun} (before : Picked opts Good picked) (good : ∀ run ∈ runs, Good run) :
    Picked opts Good (opts.takeRuns picked runs) := by
  rw [ReadRunsOptions.takeRuns]
  induction runs generalizing picked with
  | nil => exact before
  | cons run rest ih =>
      have later : ∀ other ∈ rest, Good other := fun other among => good other (List.mem_cons_of_mem _ among)
      rw [List.foldl_cons]
      split
      · exact ih before later
      · next fresh =>
          simp only [Bool.or_eq_true, Bool.not_eq_eq_eq_not, Bool.not_true, not_or, Bool.not_eq_false,
            List.any_eq_true, decide_eq_true_eq, not_exists, not_and] at fresh
          refine ih ⟨?_, fun other among => ?_⟩ later
          · rw [List.map_append, List.nodup_append]
            refine ⟨before.once, List.nodup_singleton _, ?_⟩
            intro id listed other new same
            obtain ⟨known, among, rfl⟩ := List.mem_map.mp listed
            rw [List.mem_singleton.mp new] at same
            exact fresh.2 known among same
          · rcases List.mem_append.mp among with known | new
            · exact before.good other known
            · rw [List.mem_singleton.mp new]
              exact ⟨good run List.mem_cons_self, fresh.1⟩

theorem Picked.walkSegments (good : ∀ month, ∀ run ∈ (history.segment month).index, Good run) (start : Nat)
    (months : List Nat) (before : Picked opts Good picked) :
    Picked opts Good (history.walkSegments opts start months picked).2 := by
  induction months generalizing picked with
  | nil => exact before
  | cons month rest ih =>
      rw [RunHistory.walkSegments]
      split
      · exact before
      · split
        · exact ih before
        · split
          · exact before
          · exact ih (before.takeRuns (good month))

/-- A page holds wanted runs once, and its cursor is where the oldest of them started. -/
theorem page_once (hot : ∀ run ∈ history.index, Good run)
    (good : ∀ month, ∀ run ∈ (history.segment month).index, Good run) :
    Picked opts Good (history.readRunsPage opts).runs ∧
      ∀ last, (history.readRunsPage opts).nextBefore = some last →
        (∀ run ∈ (history.readRunsPage opts).runs, last ≤ run.startedAt) ∧
          ∃ run ∈ (history.readRunsPage opts).runs, run.startedAt = last := by
  have empty : Picked opts Good [] := ⟨List.nodup_nil, fun _ among => (List.not_mem_nil among).elim⟩
  have first := empty.takeRuns hot
  obtain ⟨unread, picked, known, page⟩ : ∃ unread picked, Picked opts Good picked ∧
      history.readRunsPage opts = pageOf opts.pageLimit unread picked := by
    rw [readRunsPage]
    cases opts.before with
    | none => exact ⟨_, _, first, rfl⟩
    | some before => exact ⟨_, _, first.walkSegments good before history.listRunSegmentMonths, rfl⟩
  obtain ⟨rest, paged⟩ := pageOf_spec opts.pageLimit_pos unread picked
  rw [← page] at paged
  refine ⟨⟨?_, fun run among => ?_⟩, fun last cursor =>
    ⟨(paged.cursor last cursor).2.1, (paged.cursor last cursor).2.2.1⟩⟩
  · have all := (paged.parts.map TaskRun.id).nodup_iff.mpr known.once
    exact all.sublist ((List.sublist_append_left ..).map _)
  · exact known.good run (paged.parts.mem_iff.mp (List.mem_append_left _ among))

/-- The runs of all pages are before the first cursor, and none is read twice. -/
theorem pagedRead_once {startOf : RunId → Nat} {states : RunHistory → Prop}
    (started : ∀ history, states history → (∀ run ∈ history.index, run.startedAt = startOf run.id) ∧
      ∀ month, ∀ run ∈ (history.segment month).index, run.startedAt = startOf run.id)
    {before : Option Nat} {pages : List RunsPage} (read : PagedRead states opts before pages) :
    ((pages.flatMap RunsPage.runs).map TaskRun.id).Nodup ∧ ∀ run ∈ pages.flatMap RunsPage.runs,
      run.startedAt = startOf run.id ∧ before.all (fun before => decide (run.startedAt < before)) = true := by
  have single (before : Option Nat) (history : RunHistory) (current : states history) :=
    @page_once history { opts with before := before } _ (started history current).1 (started history current).2
  have inTime {before : Option Nat} {run : TaskRun} (wanted : ReadRunsOptions.wanted { opts with before := before } run = true) :
      before.all (fun before => decide (run.startedAt < before)) = true := by
    rw [ReadRunsOptions.wanted, Bool.and_eq_true] at wanted
    exact wanted.1
  induction read with
  | last before history current =>
      obtain ⟨picked, -⟩ := single before history current
      rw [List.flatMap_singleton]
      exact ⟨picked.once, fun run among => ⟨(picked.good run among).1, inTime (picked.good run among).2⟩⟩
  | next before history current start cursor pages rest ih =>
      obtain ⟨picked, newer⟩ := single before history current
      obtain ⟨once, older⟩ := ih
      obtain ⟨newest, oldest, inPage, ends⟩ := newer start cursor
      rw [List.flatMap_cons]
      have early : ∀ run ∈ pages.flatMap RunsPage.runs, run.startedAt < start := by
        intro run among
        simpa using (older run among).2
      constructor
      · rw [List.map_append, List.nodup_append]
        refine ⟨picked.once, once, ?_⟩
        intro id listed' other behind same
        obtain ⟨run, among, rfl⟩ := List.mem_map.mp listed'
        obtain ⟨later, listed, rfl⟩ := List.mem_map.mp behind
        have one := newest run among
        have two := early later listed
        rw [(picked.good run among).1, same] at one
        rw [(older later listed).1] at two
        omega
      · intro run among
        rcases List.mem_append.mp among with own | behind
        · exact ⟨(picked.good run own).1, inTime (picked.good run own).2⟩
        · refine ⟨(older run behind).1, ?_⟩
          have first := inTime (picked.good oldest inPage).2
          rw [ends] at first
          cases before with
          | none => rfl
          | some bound => exact decide_eq_true ((early run behind).trans (of_decide_eq_true first))

end RunHistory

open RunHistory

variable {startOf : RunId → Nat} {log : RunLog}

/-- The result that was saved last. -/
def savedResult (saved : List TaskRunResult) (runId : RunId) : Option TaskRunResult :=
  saved.reverse.find? fun result => result.runId = runId

theorem savedResult_concat (saved : List TaskRunResult) (result : TaskRunResult) :
    savedResult (saved ++ [result]) = withResult (savedResult saved) result := by
  funext runId
  rw [savedResult, List.reverse_append, List.reverse_singleton, List.singleton_append, List.find?_cons, withResult]
  by_cases same : result.runId = runId <;> simp [same, savedResult]

theorem latestOf_recorded (recorded : List TaskRun) (run : TaskRun) :
    latestOf (recorded ++ [run]) = withRecord (latestOf recorded) run :=
  funext fun runId => latestOf_concat recorded run runId

/-- The files of a run show the records and the results that were written to them. -/
def RunLog.Sound (startOf : RunId → Nat) (log : RunLog) : Prop :=
  log.history.Shows startOf (latestOf log.recorded) (savedResult log.saved)

theorem RunLog.Sound.step (sound : log.Sound startOf) {step : RunStep} {next : RunLog}
    (met : KeepsStart startOf log step) (stepped : runSystem.step log step = some next) : next.Sound startOf := by
  cases step with
  | saveRunResult result =>
      obtain rfl := Option.some.inj stepped
      rw [RunLog.Sound, savedResult_concat]
      exact sound.saveRunResult result
  | appendRun run =>
      obtain rfl := Option.some.inj stepped
      rw [RunLog.Sound, latestOf_recorded]
      exact sound.appendRun met
  | crashedAppend run done =>
      obtain rfl := Option.some.inj stepped
      cases done with
      | zero => exact sound
      | succ done =>
          rw [RunLog.Sound]
          dsimp only
          rw [if_neg (Nat.succ_ne_zero done), latestOf_recorded]
          exact sound.crashedAppend met done
  | updateRun runId update =>
      obtain rfl := Option.some.inj stepped
      cases updated : log.history.updateRun runId update with
      | none => exact sound
      | some written =>
          rw [RunLog.Sound]
          dsimp only
          rw [latestOf_recorded]
          exact sound.updateRun met updated

theorem RunLog.Sound.of_reached (reached : runSystem.ReachedBy (KeepsStart startOf) log) : log.Sound startOf := by
  apply reached.invariant (RunLog.Sound startOf)
  · rintro log rfl
    constructor
    · exact fun _ among => (List.not_mem_nil among).elim
    · exact fun _ _ among => (List.not_mem_nil among).elim
    · intro _ _ never
      cases never
    · exact fun _ => rfl
    · exact fun _ => rfl
  · exact fun before step after sound met stepped => sound.step met stepped

/-- The files of the states that such runs reach. -/
def StatesOf (guard : System.Guard RunLog RunStep) (history : RunHistory) : Prop :=
  ∃ log, runSystem.ReachedBy guard log ∧ log.history = history

/-- Nothing is lost in any run of appends, crashes and updates whose records keep the starts of their runs. -/
theorem history_keeps_all (reached : runSystem.ReachedBy (KeepsStart startOf) log) :
    log.KeepsAll (StatesOf (KeepsStart startOf)) := by
  have sound := RunLog.Sound.of_reached reached
  refine ⟨fun runId => sound.findRun runId, fun runId => sound.readRunResult runId, fun opts before pages read => ?_⟩
  have started : ∀ history, StatesOf (KeepsStart startOf) history →
      (∀ run ∈ history.index, run.startedAt = startOf run.id) ∧
        ∀ month, ∀ run ∈ (history.segment month).index, run.startedAt = startOf run.id := by
    rintro history ⟨other, there, rfl⟩
    have shown := RunLog.Sound.of_reached there
    exact ⟨shown.started, fun month run inside => (shown.placed month run inside).1⟩
  exact (pagedRead_once started read).1

theorem runSystem_total (log : RunLog) (steps : List RunStep) : ∃ after, runSystem.run log steps = some after := by
  induction steps generalizing log with
  | nil => exact ⟨log, rfl⟩
  | cons step rest ih => cases step <;> exact ih _

/-- A process stops in the roll-over, between the archive append and the rewrite. The run is judged, and rolls again. -/
def crashedRun (count : Nat) : List RunStep :=
  ((List.range count).map fun place => .appendRun { id := place, startedAt := place, status := .success }) ++
    [.crashedAppend { id := count, startedAt := count, status := .success } 3,
      .updateRun 0 (fun run => { run with assessment := some { verdict := .pass } }),
      .appendRun { id := count + 1, startedAt := count + 1, status := .success }]

theorem crashedRun_meets (count : Nat) : runSystem.Meets (KeepsStart id) {} (crashedRun count) := by
  apply System.meets_of_all
  intro step among log
  rcases List.mem_append.mp among with append | last
  · obtain ⟨place, -, rfl⟩ := List.mem_map.mp append
    rfl
  · simp only [List.mem_cons, List.not_mem_nil, or_false] at last
    rcases last with rfl | rfl | rfl
    · rfl
    · exact fun run same => ⟨same, rfl⟩
    · rfl

theorem history_keeps_all_crashed :
    ∃ log, runSystem.run {} (crashedRun maxRunLines) = some log ∧ log.KeepsAll (StatesOf (KeepsStart id)) := by
  generalize maxRunLines = count
  obtain ⟨log, ran⟩ := runSystem_total {} (crashedRun count)
  have reached : runSystem.ReachedBy (KeepsStart id) {} := .start _ rfl
  exact ⟨log, ran, history_keeps_all (reached.run (crashedRun_meets count) ran)⟩

/-- An append leads to its record at the end of the index, while that is short. -/
theorem reachable_append {lines recorded : List TaskRun}
    (reached : runSystem.Reachable { history := { index := lines }, recorded := recorded }) (run : TaskRun)
    (fits : (lines ++ [run]).length ≤ maxRunLines) :
    runSystem.Reachable { history := { index := lines ++ [run] }, recorded := recorded ++ [run] } := by
  have appended : ({ index := lines } : RunHistory).appendRun run = { index := lines ++ [run] } := appendRun_short fits
  have stepped : runSystem.step { history := { index := lines }, recorded := recorded } (.appendRun run) =
      some { history := { index := lines ++ [run] }, recorded := recorded ++ [run] } := by
    rw [← appended]
    rfl
  exact .next _ _ (.appendRun run) reached trivial stepped

/-- A run is recorded as it ended, and once more as failed with the start of its dispatch. -/
def recordedTwice : List TaskRun :=
  [{ id := 2, startedAt := 0, status := .success }, { id := 1, startedAt := 20, status := .success },
    { id := 1, startedAt := 10, status := .failure }]

theorem history_reads_twice :
    ¬ ∀ log, runSystem.Reachable log → log.KeepsAll (StatesOf fun _ _ => True) := by
  intro keeps
  have first : runSystem.Reachable { history := { index := [] }, recorded := [] } := .start _ rfl
  have reached : runSystem.Reachable { history := { index := recordedTwice }, recorded := recordedTwice } :=
    reachable_append (reachable_append (reachable_append first _ (by decide)) _ (by decide)) _ (by decide)
  have current : StatesOf (fun _ _ => True) { index := recordedTwice } := ⟨_, reached, rfl⟩
  have once := (keeps _ reached).once { limit := some 1 } none _
    (.next none _ current 20 (by decide +kernel) _ (.last (some 20) _ current))
  exact absurd once (by decide +kernel)

end NimbleBrain.Tasks
