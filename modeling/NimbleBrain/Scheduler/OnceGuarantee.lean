import NimbleBrain.Scheduler.OnceRuns

/- A once occurrence starts once. Its record leaves the task inert, and a new time armed. -/

namespace NimbleBrain.Scheduler

open Library Tasks

/-- A once is armed when the timer will fire it. -/
def Task.Armed (task : Task) (time : OnceTime) : Prop :=
  task.OnceAt time ∧ task.enabled = true ∧ task.nextRunAt.isSome = true

instance (task : Task) (time : OnceTime) : Decidable (task.Armed time) :=
  inferInstanceAs (Decidable (_ ∧ _ ∧ _))

variable (calendar : Calendar)

/-- The runs that the recording of a dispatch saves to its task. -/
def recordedRuns (store : Store) (dispatch : Dispatch) (execution : Execution) (faults : Faults)
    (now : Nat) : List TaskRun :=
  match execution with
  | .threw error => [failedRun dispatch error now]
  | .returned run =>
      let first := withRequest dispatch.requested run
      if completes (throwsAt faults.first) (recordRun calendar store dispatch first now) then [first]
      else [first, failedRun dispatch faults.error now]

/-- One of the recorded runs turns the task off, for its failures or for its budget. -/
def Dispatch.turnsOff (dispatch : Dispatch) (now : Nat) : Task → List TaskRun → Bool
  | _, [] => false
  | task, run :: rest =>
      autoDisables calendar task run now || dispatch.turnsOff now (dispatch.record calendar now task run) rest

/-- The mark of an interrupted run, as the dispatch that its record stands for. -/
def ScheduledRunInFlight.dispatch (inFlight : ScheduledRunInFlight) (task : Task) : Dispatch where
  runKey := .task
  task := task
  runId := inFlight.runId
  startedAt := inFlight.startedAt
  trigger := .scheduled
  firedOnceAt := inFlight.onceAt
  requested := none

/-- The record that a start settles an interrupted run from. -/
def settledRun (store : Store) (inFlight : ScheduledRunInFlight) (now : Nat) : TaskRun :=
  (store.index.find? fun run => run.id = inFlight.runId).getD (interruptedRun inFlight now)

/-- The step records the run of a once occurrence. -/
inductive World.Records (world : World) : Operation → Dispatch → List TaskRun → Prop
  | ended (process : Process) (place : Nat) (dispatch : Dispatch) (execution : Execution) (faults : Faults)
      (running : world.process = some process) (found : process.active[place]? = some dispatch) :
      Records world (.endRun place execution faults) dispatch
        (recordedRuns calendar world.store dispatch execution faults world.now)
  | settled (task : Task) (inFlight : ScheduledRunInFlight) (stopped : world.process = none)
      (stored : world.store.task = some task) (marked : task.scheduledRunInFlight = some inFlight) :
      Records world .boot (inFlight.dispatch task) [settledRun world.store inFlight world.now]

/-- A start finds that a time was missed while no process ran. -/
def Operation.misses (operation : Operation) (time : OnceTime) (now : Nat) : Prop :=
  match operation with
  | .boot => time.time + onceGraceMs < now
  | _ => False

section Armed

variable {calendar} {task stored : Task} {dispatch : Dispatch} {time other : OnceTime} {now : Nat}

/-- A recorded run of another occurrence leaves an armed once armed. -/
theorem Dispatch.record_armed {run : TaskRun} (fired : dispatch.firedOnceAt = some time) (armed : task.Armed other)
    (different : other ≠ time) (stays : autoDisables calendar task run now = false) :
    (dispatch.record calendar now task run).Armed other ∧
      (dispatch.record calendar now task run).nextRunAt = task.nextRunAt := by
  obtain ⟨once, on, next⟩ := armed
  have apart : ¬ IsOccurrence task run (some dispatch.trigger)
      (dispatch.firedOnceAt.or dispatch.task.scheduleAt) := by
    rintro ⟨-, -, named⟩
    rw [fired, Option.some_or, once.2, Option.some.injEq] at named
    exact different named
  obtain ⟨sameNext, -, sameOn⟩ := afterRun_other calendar dispatch.runId now once.1 apart
  have schedule := afterRun_schedule calendar task run (some dispatch.trigger)
    (dispatch.firedOnceAt.or dispatch.task.scheduleAt) dispatch.runId now
  refine ⟨⟨once.congr schedule, ?_, ?_⟩, sameNext⟩
  · exact sameOn.trans (by rw [on, stays]; rfl)
  · exact (congrArg Option.isSome sameNext).trans next

variable {runs : List TaskRun} {faults : Faults} {store : Store} {inFlight : ScheduledRunInFlight}

theorem Dispatch.records_armed (fired : dispatch.firedOnceAt = some time) (armed : task.Armed other)
    (different : other ≠ time) (stays : dispatch.turnsOff calendar now task runs = false) :
    (runs.foldl (dispatch.record calendar now) task).Armed other ∧
      (runs.foldl (dispatch.record calendar now) task).nextRunAt = task.nextRunAt := by
  induction runs generalizing task with
  | nil => exact ⟨armed, rfl⟩
  | cons run rest ih =>
      rw [Dispatch.turnsOff, Bool.or_eq_false_iff] at stays
      obtain ⟨one, same⟩ := dispatch.record_armed fired armed different stays.1
      obtain ⟨last, sameLast⟩ := ih one stays.2
      exact ⟨last, sameLast.trans same⟩

/-- The files hold the task with the recorded runs. -/
theorem recordExecution_task {execution : Execution} (first : sparesSave faults.first)
    (second : sparesSave faults.second) (inSync : store.definition = store.task) (found : store.task = some stored) :
    (store.after (recordExecution calendar store dispatch execution faults now).effects).task =
      some ((recordedRuns calendar store dispatch execution faults now).foldl
        (dispatch.record calendar now) stored) := by
  have recorded : ∀ (store : Store) (task : Task), store.definition = store.task → store.task = some task →
      ∀ points, sparesSave points → ∀ run, store.Passes
        (attempt (throwsAt points) (recordRun calendar store dispatch run now)) (fun _ => True)
        fun file => file = some (dispatch.record calendar now task run) := by
    intro store task inSync found points spares run
    refine recordRun_attempt_passes spares inSync trivial (fun gone => ?_) fun other same => ⟨trivial, ?_⟩
    · cases found.symm.trans gone
    · cases found.symm.trans same
      rfl
  unfold recordExecution recordedRuns
  cases execution with
  | threw error => exact (recorded store stored inSync found faults.second second _).ends
  | returned run =>
      dsimp only
      split
      · exact (recorded store stored inSync found faults.first first _).ends
      · have one := recorded store stored inSync found faults.first first (withRequest dispatch.requested run)
        have two := recorded _ _ one.inSync one.ends faults.second second
          (failedRun dispatch faults.error now)
        exact (one.append two).ends

/-- A new process settles the run that a mark names. -/
theorem settleInterruptedRuns_task (inSync : store.definition = store.task) (found : store.task = some task)
    (marked : task.scheduledRunInFlight = some inFlight) :
    store.Passes (settleInterruptedRuns calendar store [] now) (fun _ => True) fun file =>
      file = some ((inFlight.dispatch task).record calendar now task (settledRun store inFlight now)) := by
  unfold settleInterruptedRuns
  rw [inSync, found]
  simp only [marked, List.not_mem_nil, if_false]
  refine .thenFiling (updateAfterRun_passes inSync trivial (fun gone => ?_) fun other same => ⟨trivial, ?_⟩)
    (by simp [Effect.isFiling])
  · cases found.symm.trans gone
  · cases found.symm.trans same
    rfl

theorem Task.Armed.unmissed (armed : task.Armed time) (inTime : now ≤ time.time + onceGraceMs) :
    onceMissedWhileDown task now = false := by
  have unpassed : ¬ time.time + onceGraceMs < now := Nat.not_lt.mpr inTime
  rw [onceMissedWhileDown, armed.1.2, Option.any_some, decide_eq_false unpassed, Bool.and_false]

theorem Task.Armed.seeded (armed : task.Armed time) : reconcileNextRunAt calendar task now = none := by
  obtain ⟨once, on, next⟩ := armed
  obtain ⟨moment, placed⟩ := Option.isSome_iff_exists.mp next
  simp [reconcileNextRunAt, once_nextRunOrNone calendar once, placed]

/-- A start records the interrupted run. An armed once that was not missed keeps its next run. -/
theorem start_armed {skipId : RunId} (found : store.task = some task)
    (marked : task.scheduledRunInFlight = some inFlight) (fired : inFlight.onceAt = some time)
    (armed : task.Armed other) (different : other ≠ time)
    (stays : autoDisables calendar task (settledRun store inFlight now) now = false)
    (inTime : now ≤ other.time + onceGraceMs) :
    ∃ after, (store.after (start calendar store [] skipId now)).task = some after ∧ after.Armed other ∧
      after.nextRunAt = task.nextRunAt := by
  let after := (inFlight.dispatch task).record calendar now task (settledRun store inFlight now)
  obtain ⟨armedAfter, sameNext⟩ := (inFlight.dispatch task).record_armed fired armed different stays
  have settled : (store.apply (.setDefinition store.task)).Passes
      (settleInterruptedRuns calendar (store.apply (.setDefinition store.task)) [] now) (fun _ => True)
      fun file => file = some after := settleInterruptedRuns_task rfl found marked
  have missed : ∀ second : Store, second.task = some after → second.definition = second.task →
      second.Passes (retireOncesMissedWhileDown second skipId now) (fun _ => True)
        fun file => file = some after := by
    intro second same inSync
    unfold retireOncesMissedWhileDown
    rw [inSync, same]
    simp only [armedAfter.unmissed inTime, after, Bool.false_eq_true, if_false]
    exact .nothing trivial same inSync
  have seeded : ∀ third : Store, third.task = some after → third.definition = third.task →
      third.Passes (seedNextRunAt calendar third now) (fun _ => True) fun file => file = some after := by
    intro third same inSync
    refine seedNextRunAt_passes inSync trivial same fun task other found placed => ?_
    cases same.symm.trans found
    rw [armedAfter.seeded] at placed
    cases placed
  have rest := settled.followedBy fun second same inSync => (missed second same inSync).followedBy seeded
  exact ⟨after, rest.ends, armedAfter, sameNext⟩

theorem sparesWrites_save (spares : World.sparesWrites faults = true) :
    sparesSave faults.first ∧ sparesSave faults.second := by
  simp only [World.sparesWrites, Bool.not_eq_true', Bool.or_eq_false_iff] at spares
  obtain ⟨⟨⟨⟨⟨⟨⟨result, append⟩, save⟩, -⟩, result'⟩, append'⟩, save'⟩, -⟩ := spares
  exact ⟨⟨result, append, save⟩, ⟨result', append', save'⟩⟩

/-- The step that records an occurrence leaves another armed time armed, unless it turns the task off
or that time has been missed as well. -/
theorem World.Records.armed {world after : World} (reached : (schedulerSystem calendar).Reachable world)
    {operation : Operation} (records : world.Records calendar operation dispatch runs)
    (stepped : World.step calendar world (.complete operation) = some after)
    (fired : dispatch.firedOnceAt = some time) (found : world.store.task = some stored) (armed : stored.Armed other)
    (different : other ≠ time) (stays : dispatch.turnsOff calendar world.now stored runs = false)
    (inTime : ¬ operation.misses other world.now) :
    ∃ task, after.store.task = some task ∧ task.Armed other ∧ task.nextRunAt = stored.nextRunAt := by
  obtain ⟨turn, begun, rfl⟩ := Option.map_eq_some_iff.mp stepped
  cases records with
  | ended process place dispatch execution faults running active =>
      obtain ⟨-, inSync, -⟩ := (goodWorld_of_reachable reached).attended process running
      simp only [World.begin, running, World.turn] at begun
      split at begun
      · rename_i spares
        obtain ⟨first, second⟩ := sparesWrites_save spares
        rw [active, Option.map_some, Option.some.injEq] at begun
        subst begun
        exact ⟨_, recordExecution_task first second inSync found,
          dispatch.records_armed fired armed different stays⟩
      · cases begun
  | settled task inFlight stopped same marked =>
      cases found.symm.trans same
      simp only [World.begin, stopped, Option.some.injEq] at begun
      subst begun
      rw [Dispatch.turnsOff, Dispatch.turnsOff, Bool.or_false] at stays
      exact start_armed found marked fired armed different stays (Nat.not_lt.mp inTime)

end Armed

def firstTime : OnceTime := ⟨"1970-01-01T00:00:00.100Z", 100⟩

def secondTime : OnceTime := ⟨"1970-01-01T00:00:00.200Z", 200⟩

/-- A task with a budget of ten tokens fires, and its time is moved while the run is in flight. -/
def rearmActions : List Action :=
  [.complete .boot,
    .complete (.create { schedule := some { type := .once, onceAt := some firstTime },
                         tokenBudget := some { maxInputTokens := some 10 } }),
    .wait 100,
    .complete (.tick true),
    .complete (.edit { schedule := some (some { type := .once, onceAt := some secondTime }) })]

def rearmedWorld : World := (((schedulerSystem plainCalendar).run {} rearmActions).getD {})

def rearmedRun (inputTokens : Nat) : TaskRun where
  id := 2
  startedAt := 100
  completedAt := some 150
  status := .success
  inputTokens := inputTokens
  trigger := some .scheduled

def rearmedEnd (inputTokens : Nat) : Operation := .endRun 0 (.returned (rearmedRun inputTokens)) {}

def rearmedDispatch : Dispatch :=
  ((rearmedWorld.process.getD {}).active[0]?).getD ⟨.task, {}, 0, 0, .scheduled, none, none⟩

/-- What the run of these actions leaves, and what recording the first time's run does there. -/
theorem rearmedWorld_computed :
    ((schedulerSystem plainCalendar).run {} rearmActions).isSome = true ∧
    (rearmedWorld.process.map fun process => process.active[0]?) = some (some rearmedDispatch) ∧
    (rearmedWorld.store.task.any fun task => task.Armed secondTime) = true ∧
    rearmedDispatch.firedOnceAt = some firstTime ∧
    (rearmedWorld.store.task.any fun task => !rearmedDispatch.turnsOff plainCalendar rearmedWorld.now task
      (recordedRuns plainCalendar rearmedWorld.store rearmedDispatch (.returned (rearmedRun 5)) {}
        rearmedWorld.now)) = true ∧
    (World.step plainCalendar rearmedWorld (.complete (rearmedEnd 5))).isSome = true ∧
    ((World.step plainCalendar rearmedWorld (.complete (rearmedEnd 50))).map fun world =>
      world.store.task.any fun task => task.enabled) = some false := by decide +kernel

theorem rearmedWorld_reachable : (schedulerSystem plainCalendar).Reachable rearmedWorld := by
  obtain ⟨world, ran⟩ := Option.isSome_iff_exists.mp rearmedWorld_computed.1
  have same : rearmedWorld = world := by simp [rearmedWorld, ran]
  exact same ▸ System.Reachable.run (.start _ rfl) ran

theorem rearmedWorld_active :
    ∃ process, rearmedWorld.process = some process ∧ process.active[0]? = some rearmedDispatch :=
  Option.map_eq_some_iff.mp rearmedWorld_computed.2.1

theorem rearmedWorld_armed : ∃ task, rearmedWorld.store.task = some task ∧ task.Armed secondTime := by
  obtain ⟨task, found, armed⟩ := (Option.any_eq_true _ _).mp rearmedWorld_computed.2.2.1
  exact ⟨task, found, of_decide_eq_true armed⟩

theorem rearmedDispatch_fired : rearmedDispatch.firedOnceAt = some firstTime :=
  rearmedWorld_computed.2.2.2.1

theorem secondTime_ne : secondTime ≠ firstTime := by simp [secondTime, firstTime]

/-- The step that records the run of the first time. -/
theorem rearmedEnd_records (inputTokens : Nat) :
    ∃ runs, rearmedWorld.Records plainCalendar (rearmedEnd inputTokens) rearmedDispatch runs ∧
      runs = recordedRuns plainCalendar rearmedWorld.store rearmedDispatch
        (.returned (rearmedRun inputTokens)) {} rearmedWorld.now := by
  obtain ⟨process, running, active⟩ := rearmedWorld_active
  exact ⟨_, .ended process 0 rearmedDispatch _ _ running active, rfl⟩

/-- A once schedule fires at most once for each time. A recorded occurrence leaves its task off and without
a next run. A time set meanwhile stays armed, unless the recording turns the task off for its failures or
its budget, or the time was missed too. -/
theorem once_fires_once (calendar : Calendar) {world : World}
    (reached : (schedulerSystem calendar).Reachable world) :
    world.fired.Nodup ∧
    (∀ time ∈ world.recorded, ∀ task, world.store.task = some task → task.OnceAt time →
      task.enabled = false ∧ task.nextRunAt = none) ∧
    ∀ operation dispatch runs after time other stored, world.Records calendar operation dispatch runs →
      World.step calendar world (.complete operation) = some after →
      dispatch.firedOnceAt = some time → world.store.task = some stored →
      stored.Armed other → other ≠ time →
      dispatch.turnsOff calendar world.now stored runs = false →
      ¬ operation.misses other world.now →
      ∃ task, after.store.task = some task ∧ task.Armed other ∧ task.nextRunAt = stored.nextRunAt := by
  have good := goodWorld_of_reachable reached
  refine ⟨good.firedOnce, fun time member task found => (good.file task found).recorded time member, ?_⟩
  intro operation dispatch runs after time other stored records stepped fired found armed different stays
    inTime
  exact records.armed reached stepped fired found armed different stays inTime

/-- The recorded run of the first time leaves the second one armed, when the budget is kept. -/
theorem once_fires_once_rearmed :
    rearmedWorld.fired.Nodup ∧ ∃ after task,
      World.step plainCalendar rearmedWorld (.complete (rearmedEnd 5)) = some after ∧
      after.store.task = some task ∧ task.Armed secondTime := by
  obtain ⟨fired, -, armed⟩ := once_fires_once plainCalendar rearmedWorld_reachable
  obtain ⟨stored, found, ready⟩ := rearmedWorld_armed
  obtain ⟨runs, records, same⟩ := rearmedEnd_records 5
  obtain ⟨-, -, -, -, stays, steps, -⟩ := rearmedWorld_computed
  obtain ⟨after, stepped⟩ := Option.isSome_iff_exists.mp steps
  rw [found, Option.any_some, Bool.not_eq_true', ← same] at stays
  obtain ⟨task, last, armedLast, -⟩ := armed _ _ _ after firstTime secondTime stored records stepped
    rearmedDispatch_fired found ready secondTime_ne stays id
  exact ⟨fired, after, task, stepped, last, armedLast⟩

/-- A run that spends its task's budget turns the new occurrence off as well. -/
theorem once_rearmed_turned_off :
    ¬ ∀ (calendar : Calendar) (world : World), (schedulerSystem calendar).Reachable world →
      ∀ operation dispatch runs after time other stored, world.Records calendar operation dispatch runs →
        World.step calendar world (.complete operation) = some after →
        dispatch.firedOnceAt = some time → world.store.task = some stored →
        stored.Armed other → other ≠ time →
        ∃ task, after.store.task = some task ∧ task.Armed other := by
  intro claim
  obtain ⟨stored, found, ready⟩ := rearmedWorld_armed
  obtain ⟨runs, records, -⟩ := rearmedEnd_records 50
  obtain ⟨-, -, -, -, -, -, off⟩ := rearmedWorld_computed
  obtain ⟨after, stepped, -⟩ := Option.map_eq_some_iff.mp off
  obtain ⟨task, last, armed⟩ := claim plainCalendar rearmedWorld rearmedWorld_reachable _ _ _ after firstTime
    secondTime stored records stepped rearmedDispatch_fired found ready secondTime_ne
  rw [stepped, Option.map_some, last, Option.any_some, Option.some.injEq] at off
  exact Bool.false_ne_true (off.symm.trans armed.2.1)

end NimbleBrain.Scheduler
