import NimbleBrain.Scheduler.Fleet

/- What the turns of a scheduler do to the next run of a cron or interval task. -/

namespace NimbleBrain.Scheduler

open Library Tasks

/-- The cron library answers a later moment or none. -/
def Calendar.IsForward (calendar : Calendar) : Prop :=
  ∀ expression timezone now next, calendar.nextRun expression timezone now = .ok (some next) → now < next

/-- The next run lies ahead, or the task is not due without one. -/
structure Task.SettledAt (task : Task) (moment : Nat) : Prop where
  notDue : isDue task moment = false
  later : ∀ next, task.nextRunAt = some next → moment < next

section Tasks

variable {calendar : Calendar} {task other : Task} {now : Nat}

theorem Task.isTimed_congr (same : other.schedule = task.schedule) : other.isTimed = task.isTimed := by
  rw [isTimed, isTimed, same]

/-- A cron names its expression, and an interval its length. -/
theorem Task.isTimed_cases (timed : task.isTimed = true) :
    (∃ spec expression, task.schedule = some spec ∧ spec.type = .cron ∧ spec.expression = some expression ∧
      expression ≠ "") ∨
    ∃ spec intervalMs, task.schedule = some spec ∧ spec.type = .interval ∧ spec.intervalMs = some intervalMs ∧
      0 < intervalMs := by
  obtain ⟨spec, scheduled, timed⟩ := Option.any_eq_true .. |>.mp timed
  split at timed
  · next kind =>
      obtain ⟨expression, named, filled⟩ := Option.any_eq_true .. |>.mp timed
      exact .inl ⟨spec, expression, scheduled, kind, named, of_decide_eq_true filled⟩
  · next kind =>
      obtain ⟨intervalMs, named, positive⟩ := Option.any_eq_true .. |>.mp timed
      exact .inr ⟨spec, intervalMs, scheduled, kind, named, of_decide_eq_true positive⟩
  · cases timed
  · cases timed

theorem Task.isTimed_kind (timed : task.isTimed = true) :
    isEventSchedule task.schedule = false ∧ isOnceSchedule task.schedule = false ∧ task.schedule.isSome = true := by
  rcases task.isTimed_cases timed with ⟨spec, _, scheduled, kind, -⟩ | ⟨spec, _, scheduled, kind, -⟩ <;>
    simp [isEventSchedule, isOnceSchedule, scheduled, kind]

/-- A timed task is due when its next run has come, or when an interval has none yet. -/
theorem isDue_timed (timed : task.isTimed = true) :
    isDue task now = (task.enabled && task.nextRunAt.elim (dueWithoutNextRunAt task) fun next => decide (next ≤ now)) := by
  obtain ⟨event, -, some'⟩ := task.isTimed_kind timed
  simp [isDue, event, some']

/-- A due task is not in backoff. -/
theorem isInBackoff_of_isDue (due : isDue task now = true) : isInBackoff task now = false := by
  have come := (Bool.and_eq_true_iff.mp due).2
  cases placed : task.nextRunAt with
  | none => simp [isInBackoff, placed]
  | some next =>
      simp only [placed, Option.elim_some, decide_eq_true_eq] at come
      simp [isInBackoff, placed, Nat.not_lt.mpr come]

/-- A next run that lies ahead settles a task. A cron may also have none. -/
theorem Task.SettledAt.of_next (timed : task.isTimed = true)
    (later : ∀ next, task.nextRunAt = some next → now < next)
    (placed : dueWithoutNextRunAt task = true → task.nextRunAt.isSome = true) : task.SettledAt now where
  notDue := by
    rw [isDue_timed timed]
    cases found : task.nextRunAt with
    | none =>
        have cron : dueWithoutNextRunAt task = false := by
          by_contra interval
          simpa [found] using placed (by simpa using interval)
        simp [cron]
    | some next => simp [Nat.not_le.mpr (later next found)]
  later := later

/-- The next run of a cron lies ahead, and an interval runs again when its length has passed. -/
theorem nextRunOrNone_timed (now : Nat) (forward : calendar.IsForward) (timed : task.isTimed = true) :
    (dueWithoutNextRunAt task = false ∧ ∀ next, nextRunOrNone calendar task now = some next → now < next) ∨
      ∃ intervalMs, 0 < intervalMs ∧ task.schedule.bind ScheduleSpec.intervalMs = some intervalMs ∧
        nextRunOrNone calendar task now = some (task.lastRunAt.elim now (· + intervalMs)) := by
  rcases task.isTimed_cases timed with ⟨spec, expression, scheduled, kind, named, filled⟩ |
    ⟨spec, intervalMs, scheduled, kind, named, positive⟩
  · left
    refine ⟨by simp [dueWithoutNextRunAt, scheduled, kind], fun next placed => ?_⟩
    simp only [nextRunOrNone, computeNextRunAt, scheduled, kind, named, filled, if_false] at placed
    split at placed
    · next found => exact forward _ _ _ _ (found.trans (congrArg _ placed))
    · cases placed
  · right
    refine ⟨intervalMs, positive, by simp [scheduled, named], ?_⟩
    simp [nextRunOrNone, computeNextRunAt, scheduled, kind, named, Nat.ne_of_gt positive]

theorem skippedTask_settled (forward : calendar.IsForward) (timed : task.isTimed = true) :
    (skippedTask calendar task now).SettledAt now := by
  have timed' : (skippedTask calendar task now).isTimed = true := (Task.isTimed_congr rfl).trans timed
  rcases nextRunOrNone_timed now forward timed with ⟨cron, later⟩ | ⟨intervalMs, positive, length, placed⟩
  · refine .of_next timed' (fun next moved => ?_) fun interval => absurd (cron.symm.trans interval) Bool.false_ne_true
    obtain ⟨first, found, rfl⟩ := Option.map_eq_some_iff.mp moved
    rw [if_pos (later first found)]
    exact later first found
  · refine .of_next timed' (fun next moved => ?_) fun _ => by simp [skippedTask, setNextRunAt, placed]
    obtain ⟨first, -, rfl⟩ := Option.map_eq_some_iff.mp moved
    split
    · assumption
    · rw [length, Option.getD_some]
      omega

theorem reconcileNextRunAt_timed (timed : task.isTimed = true) :
    ((reconcileNextRunAt calendar task now).getD task).isTimed = true := by
  cases seeded : reconcileNextRunAt calendar task now with
  | none => exact timed
  | some other =>
      simp only [reconcileNextRunAt, Option.ite_none_left_eq_some, Option.ite_none_right_eq_some,
        Option.some.injEq] at seeded
      obtain ⟨-, -, -, rfl⟩ := seeded
      exact (Task.isTimed_congr rfl).trans timed

end Tasks

section Records

variable {calendar : Calendar} {task : Task} {dispatch : Dispatch} {run : TaskRun} {now : Nat}

theorem applyStreak_lastRunAt (task : Task) (run : TaskRun) : (applyStreak task run).1.lastRunAt = task.lastRunAt := by
  have errors : (applyConsecutiveErrors task run).lastRunAt = task.lastRunAt := by
    unfold applyConsecutiveErrors
    split_ifs <;> rfl
  unfold applyStreak
  split
  · rfl
  · dsimp only
    split <;> exact errors

theorem Dispatch.record_schedule (calendar : Calendar) (dispatch : Dispatch) (now : Nat) (task : Task) (run : TaskRun) :
    (dispatch.record calendar now task run).schedule = task.schedule :=
  afterRun_schedule calendar task run _ _ _ now

theorem Dispatch.record_timed (timed : task.isTimed = true) :
    (dispatch.record calendar now task run).isTimed = true :=
  (Task.isTimed_congr (dispatch.record_schedule calendar now task run)).trans timed

/-- A recorded run places the next run of a timed task. -/
theorem settleSchedule_timed (timed : task.isTimed = true) (trigger : Option TaskRunTrigger)
    (firedOnceAt : Option OnceTime) :
    settleSchedule calendar task run trigger firedOnceAt now = applyNextRunAt calendar task now := by
  simp [settleSchedule, (task.isTimed_kind timed).2.1]

theorem Dispatch.record_enabled (timed : task.isTimed = true) :
    (dispatch.record calendar now task run).enabled = (task.enabled && !autoDisables calendar task run now) := by
  have streak := applyStreak_occurrence (countRun task run dispatch.runId) run
  have timed' : (applyStreak (countRun task run dispatch.runId) run).1.isTimed = true :=
    (Task.isTimed_congr streak.schedule).trans timed
  have budget : SameBudget (countRun task run run.id)
      (applyNextRunAt calendar (applyStreak (countRun task run dispatch.runId) run).1 now) :=
    have same := applyStreak_budget (countRun task run dispatch.runId) run
    ⟨same.tokenBudget, same.inputTokens, same.outputTokens, same.resetAt⟩
  rw [record, afterRun, settleSchedule_timed timed', applyTokenBudget_enabled, budgetSpent_congr calendar budget,
    autoDisables, Bool.not_or, ← Bool.and_assoc]
  exact congrArg (· && _) (applyStreak_enabled (countRun task run dispatch.runId) run)

/-- A run that is recorded as it completes leaves the next run ahead. -/
theorem Dispatch.record_settled (forward : calendar.IsForward) (timed : task.isTimed = true)
    (dated : run.completedAt = some now) : (dispatch.record calendar now task run).SettledAt now := by
  have streak := applyStreak_occurrence (countRun task run dispatch.runId) run
  have timed' : (applyStreak (countRun task run dispatch.runId) run).1.isTimed = true :=
    (Task.isTimed_congr streak.schedule).trans timed
  have last : (applyStreak (countRun task run dispatch.runId) run).1.lastRunAt = some now := by
    rw [applyStreak_lastRunAt, countRun, dated, Option.getD_some]
  have next : (dispatch.record calendar now task run).nextRunAt =
      (applyNextRunAt calendar (applyStreak (countRun task run dispatch.runId) run).1 now).nextRunAt := by
    rw [record, afterRun, settleSchedule_timed timed']
    exact (applyTokenBudget_occurrence calendar _ run now).nextRunAt
  have kind : dueWithoutNextRunAt (dispatch.record calendar now task run) =
      dueWithoutNextRunAt (applyStreak (countRun task run dispatch.runId) run).1 := by
    rw [dueWithoutNextRunAt, dueWithoutNextRunAt, dispatch.record_schedule, streak.schedule]
    rfl
  rcases nextRunOrNone_timed now forward timed' with ⟨cron, later⟩ | ⟨intervalMs, positive, -, placed⟩
  · refine .of_next (dispatch.record_timed timed) (fun moment found => ?_) fun interval => ?_
    · obtain ⟨first, named, rfl⟩ := Option.map_eq_some_iff.mp (next.symm.trans found)
      have := later first named
      split <;> omega
    · exact absurd (cron.symm.trans (kind.symm.trans interval)) Bool.false_ne_true
  · rw [last, Option.elim_some] at placed
    refine .of_next (dispatch.record_timed timed) (fun moment found => ?_) fun _ => ?_
    · obtain ⟨first, named, rfl⟩ := Option.map_eq_some_iff.mp (next.symm.trans found)
      cases placed.symm.trans named
      split <;> omega
    · rw [next]
      simp [applyNextRunAt, setNextRunAt, placed]

variable {runs : List TaskRun}

/-- A run that turns its task off leaves it off. -/
theorem Dispatch.records_off (off : task.enabled = false) (timed : task.isTimed = true) :
    (runs.foldl (dispatch.record calendar now) task).enabled = false := by
  induction runs generalizing task with
  | nil => exact off
  | cons run rest ih =>
      refine ih ?_ (dispatch.record_timed timed)
      rw [dispatch.record_enabled timed, off, Bool.false_and]

theorem Dispatch.records_turnsOff (timed : task.isTimed = true)
    (off : dispatch.turnsOff calendar now task runs = true) :
    (runs.foldl (dispatch.record calendar now) task).enabled = false := by
  induction runs generalizing task with
  | nil => cases off
  | cons run rest ih =>
      rw [List.foldl_cons]
      rcases Bool.or_eq_true_iff.mp off with disables | later
      · refine dispatch.records_off ?_ (dispatch.record_timed timed)
        rw [dispatch.record_enabled timed, disables, Bool.not_true, Bool.and_false]
      · exact ih (dispatch.record_timed timed) later

theorem Dispatch.records_timed (timed : task.isTimed = true) :
    (runs.foldl (dispatch.record calendar now) task).isTimed = true := by
  induction runs generalizing task with
  | nil => exact timed
  | cons run rest ih => exact ih (dispatch.record_timed timed)

theorem Dispatch.records_settled (forward : calendar.IsForward) (timed : task.isTimed = true)
    (dated : ∀ run ∈ runs, run.completedAt = some now) (settled : runs = [] → task.SettledAt now) :
    (runs.foldl (dispatch.record calendar now) task).SettledAt now := by
  induction runs generalizing task with
  | nil => exact settled rfl
  | cons run rest ih =>
      refine ih (dispatch.record_timed timed) (fun other listed => dated other (List.mem_cons_of_mem _ listed)) fun _ => ?_
      exact dispatch.record_settled forward timed (dated run List.mem_cons_self)

/-- Every run that a recording saves is dated by it. -/
theorem recordedRuns_dated {store : Store} {execution : Execution} {faults : Faults}
    (dated : Fleet.isDated now execution = true) :
    recordedRuns calendar store dispatch execution faults now ≠ [] ∧
      ∀ run ∈ recordedRuns calendar store dispatch execution faults now, run.completedAt = some now := by
  have requested : ∀ run : TaskRun, run.completedAt = some now →
      (withRequest dispatch.requested run).completedAt = some now := by
    intro run own
    unfold withRequest
    split <;> exact own
  have failed : ∀ error, (failedRun dispatch error now).completedAt = some now := fun error => requested _ rfl
  unfold recordedRuns
  cases execution with
  | threw error => exact ⟨nofun, fun run listed => List.mem_singleton.mp listed ▸ failed error⟩
  | returned run =>
      have own := requested run (of_decide_eq_true dated)
      dsimp only
      split
      · exact ⟨nofun, fun run listed => List.mem_singleton.mp listed ▸ own⟩
      · refine ⟨nofun, fun run listed => ?_⟩
        rcases List.mem_cons.mp listed with rfl | listed
        · exact own
        · exact List.mem_singleton.mp listed ▸ failed _

end Records

end NimbleBrain.Scheduler

/- Most turns leave the file of a task as it is. -/

namespace NimbleBrain.Scheduler

open Library Tasks

/-- A turn leaves the file alone and takes away no run. -/
structure World.Calm (world : World) (process : Process) (turn : Turn) : Prop where
  passes : world.store.Passes turn.effects (fun _ => True) fun file => file = world.store.task
  active : ∀ dispatch ∈ process.active, dispatch ∈ turn.process.active
  queued : ∀ run ∈ turn.process.queue, run.trigger ≠ .scheduled

namespace World

variable {calendar : Calendar} {world : World} {process : Process} {task : Task}

section Calm

variable (inSync : world.store.definition = world.store.task) (queued : ∀ run ∈ process.queue, run.trigger ≠ .scheduled)

include inSync queued

theorem Calm.idle : world.Calm process { process := process } :=
  ⟨.nothing trivial rfl inSync, fun _ listed => listed, queued⟩

variable {trigger : TaskRunTrigger}

/-- A run that was asked for and not started moves nothing. -/
theorem Calm.skipRun (requested : Option RequestedRun) (cancelled : Bool) (unscheduled : trigger ≠ .scheduled) :
    world.Calm process (world.skipRun calendar process (some trigger) requested cancelled) where
  passes := recordSkipped_passes inSync trivial rfl (fun absent => nomatch absent) (by simpa using unscheduled)
  active := fun _ listed => listed
  queued := queued

theorem Calm.dispatchRun (runKey : RunKey) (task : Task) (requested : Option RequestedRun)
    (unscheduled : trigger ≠ .scheduled) :
    world.Calm process (world.dispatchRun process runKey task trigger requested) where
  passes := by
    have effects : (world.dispatchRun process runKey task trigger requested).effects =
        runningTicket (world.dispatchOf runKey task trigger requested) := by
      simp [World.dispatchRun, markDispatch, dispatchOf, unscheduled]
    rw [effects]
    exact .filing (writeTicket_filing _ _) trivial rfl inSync
  active := fun _ listed => List.mem_append_left _ listed
  queued := queued

/-- A run that waits is no scheduled one. -/
theorem Calm.enqueue {run : QueuedRun} (unscheduled : run.trigger ≠ .scheduled) :
    world.Calm process { process := { process with queue := process.queue ++ [run] } } where
  passes := .nothing trivial rfl inSync
  active := fun _ listed => listed
  queued := List.forall_mem_append.mpr ⟨queued, List.forall_mem_singleton.mpr unscheduled⟩

theorem Calm.askDoor (requested : Option RequestedRun) (answer : DoorAnswer) (unscheduled : trigger ≠ .scheduled) :
    world.Calm process (world.askDoor calendar process task trigger requested answer) := by
  cases answer with
  | started => exact .dispatchRun inSync queued .task task requested unscheduled
  | queued => exact .enqueue inSync queued unscheduled
  | refused => exact .skipRun inSync queued requested false unscheduled

theorem Calm.requestRunNow (requested : Option RequestedRun) (answer : DoorAnswer) :
    world.Calm process (world.requestRunNow calendar process task requested answer) := by
  unfold World.requestRunNow
  split
  · exact .skipRun inSync queued requested false (by simp)
  · exact .askDoor inSync queued requested answer (by simp)

theorem Calm.runFromEvent (answer : DoorAnswer) :
    world.Calm process (world.runFromEvent calendar process task answer) := by
  unfold World.runFromEvent
  split
  · exact .idle inSync queued
  · split
    · exact .skipRun inSync queued none false (by simp)
    · exact .askDoor inSync queued none answer (by simp)

theorem Calm.requestBatchRun (requested : RequestedRun) (answer : DoorAnswer) :
    world.Calm process (world.requestBatchRun process task requested answer) := by
  unfold World.requestBatchRun
  split
  · exact .idle inSync queued
  · cases answer with
    | refused => exact .idle inSync queued
    | started => exact .dispatchRun inSync queued (.batch requested.runId) task (some requested) (by simp)
    | queued => exact .enqueue inSync queued (by simp)

theorem Calm.startQueued {run : QueuedRun} (unscheduled : run.trigger ≠ .scheduled) :
    world.Calm process (world.startQueued calendar process run) := by
  unfold World.startQueued
  split
  · exact .idle inSync queued
  · split
    · exact .skipRun inSync queued run.requested false unscheduled
    · split
      · exact .skipRun inSync queued run.requested false unscheduled
      · exact .dispatchRun inSync queued run.runKey _ run.requested unscheduled

theorem Calm.leaveQueue {run : QueuedRun} (cancelled : Bool) (unscheduled : run.trigger ≠ .scheduled) :
    world.Calm process (world.leaveQueue calendar process run cancelled) := by
  unfold World.leaveQueue
  split
  · exact .idle inSync queued
  · exact .skipRun inSync queued run.requested cancelled unscheduled

end Calm

/-- A queue entry that leaves takes no run away. -/
theorem Calm.dequeue {place : Nat} {turn : Turn}
    (calm : world.Calm { process with queue := process.queue.eraseIdx place } turn) : world.Calm process turn :=
  ⟨calm.passes, calm.active, calm.queued⟩

/-- The operations on runs that are asked for are calm. -/
theorem Calm.turn {operation : Operation} {turn : Turn} (inSync : world.store.definition = world.store.task)
    (queued : ∀ run ∈ process.queue, run.trigger ≠ .scheduled)
    (asks : match operation with
      | .requestRunNow .. | .runFromEvent _ | .requestBatchRun .. | .startQueued _ | .leaveQueue .. => True
      | _ => False)
    (turned : world.turn calendar process operation = some turn) : world.Calm process turn := by
  cases operation with
  | requestRunNow requested answer =>
      obtain ⟨task, -, rfl⟩ := Option.map_eq_some_iff.mp turned
      exact .requestRunNow inSync queued _ answer
  | runFromEvent answer =>
      obtain ⟨task, -, rfl⟩ := Option.map_eq_some_iff.mp turned
      exact .runFromEvent inSync queued answer
  | requestBatchRun item answer =>
      obtain ⟨task, -, rfl⟩ := Option.map_eq_some_iff.mp turned
      exact .requestBatchRun inSync queued _ answer
  | startQueued place =>
      obtain ⟨run, found, rfl⟩ := Option.map_eq_some_iff.mp turned
      exact (Calm.startQueued inSync (fun other listed => queued other (List.mem_of_mem_eraseIdx listed))
        (queued run (List.mem_of_getElem? found))).dequeue
  | leaveQueue place cancelled =>
      obtain ⟨run, found, rfl⟩ := Option.map_eq_some_iff.mp turned
      exact (Calm.leaveQueue inSync (fun other listed => queued other (List.mem_of_mem_eraseIdx listed)) cancelled
        (queued run (List.mem_of_getElem? found))).dequeue
  | boot => exact asks.elim
  | tick _ => exact asks.elim
  | reload => exact asks.elim
  | create _ => exact asks.elim
  | edit _ => exact asks.elim
  | delete => exact asks.elim
  | disableAtCeiling => exact asks.elim
  | endRun _ _ _ => exact asks.elim

/-- A tick passes a task by, skips its occurrence, or dispatches it. -/
theorem considerForDispatch_cases (calendar : Calendar) (world : World) (process : Process) (task : Task)
    (freeSlot : Bool) :
    world.considerForDispatch calendar process task freeSlot = { process := process } ∨
      (isDue task world.now = true ∧ process.isRunning = true ∧
        world.considerForDispatch calendar process task freeSlot =
          world.skipRun calendar process none none false) ∨
      isDue task world.now = true ∧ process.isRunning = false ∧
        world.considerForDispatch calendar process task freeSlot =
          world.dispatchRun process .task task .scheduled none := by
  unfold World.considerForDispatch
  split
  · exact .inl rfl
  · next attended =>
      simp only [Bool.or_eq_true, not_or, Bool.not_eq_true', Bool.not_eq_false] at attended
      split
      · next running => exact .inr (.inl ⟨attended.1.2, running, rfl⟩)
      · next idle =>
          split
          · exact .inl rfl
          · exact .inr (.inr ⟨attended.1.2, by simpa using idle, rfl⟩)

/-- A due task that does not wait in the queue is not passed by while a slot is free. -/
theorem considerForDispatch_due (calendar : Calendar) (world : World) (due : isDue task world.now = true) (empty : process.isQueued = false) :
    world.considerForDispatch calendar process task true = world.skipRun calendar process none none false ∨
      world.considerForDispatch calendar process task true = world.dispatchRun process .task task .scheduled none := by
  have enabled : task.enabled = true := by
    simp only [isDue, Bool.and_eq_true] at due
    exact due.1.1.1
  unfold World.considerForDispatch
  rw [enabled, due, isInBackoff_of_isDue due, empty]
  cases process.isRunning with
  | true => exact .inl rfl
  | false => exact .inr rfl

theorem skipRun_passes (calendar : Calendar) (process : Process) (found : world.store.task = some task) :
    world.store.Passes (world.skipRun calendar process none none false).effects (fun _ => True)
      fun file => file = some (skippedTask calendar task world.now) := by
  have shape : (world.skipRun calendar process none none false).effects =
      writeNotStarted none (withRequest none (notStartedRun world.nextRunId false world.now)) ++
        [.saveTask (skippedTask calendar task world.now), .setDefinition (some (skippedTask calendar task world.now))] ++
        [.onRunRecorded] := by
    simp [World.skipRun, recordSkipped, found]
  rw [shape]
  exact .thenFiling (.fileThenSave (writeNotStarted_filing _ _) trivial trivial rfl) (by simp [Effect.isFiling])

/-- A dispatch marks its run on the file. -/
theorem dispatchRun_passes (process : Process) (found : world.store.task = some task) :
    world.store.Passes (world.dispatchRun process .task task .scheduled none).effects (fun _ => True)
      fun file => ∃ mark, file = some { task with scheduledRunInFlight := mark } := by
  have marks : ∃ mark, (world.dispatchRun process .task task .scheduled none).effects =
      [.saveTask { task with scheduledRunInFlight := mark },
        .setDefinition (some { task with scheduledRunInFlight := mark })] :=
    ⟨_, by simp [World.dispatchRun, runningTicket, writeTicket, dispatchOf, markDispatch, markScheduledRunInFlight,
      found]; rfl⟩
  obtain ⟨mark, shape⟩ := marks
  rw [shape]
  exact .save trivial trivial ⟨mark, rfl⟩

/-- The file holds the task with the recorded runs. -/
theorem endRun_passes {dispatch : Dispatch} {execution : Execution} {faults : Faults}
    (inSync : world.store.definition = world.store.task) (found : world.store.task = some task)
    (spares : sparesWrites faults = true) :
    world.store.Passes (world.endRun calendar process dispatch execution faults).effects (fun _ => True)
      fun file => file = some ((recordedRuns calendar world.store dispatch execution faults world.now).foldl
        (dispatch.record calendar world.now) task) := by
  obtain ⟨first, second⟩ := sparesWrites_save spares
  have passes : world.store.Passes (recordExecution calendar world.store dispatch execution faults world.now).effects
      (fun _ => True) fun _ => True :=
    recordExecution_passes first second inSync trivial (fun _ => trivial) (fun _ _ _ => trivial)
      (fun _ _ _ => trivial) fun _ _ => trivial
  exact ⟨passes.along, recordExecution_task first second inSync found, passes.inSync⟩

end World

/-- What a reload leaves of a task. -/
theorem reload_leaves {calendar : Calendar} {store : Store} {now : Nat} :
    store.Passes (reload calendar store now) (fun _ => True)
      fun file => file = (store.task.map fun task => (reconcileNextRunAt calendar task now).getD task) := by
  cases found : store.task with
  | none =>
      refine reload_passes trivial found fun task other same => ?_
      cases found.symm.trans same
  | some task =>
      have loaded : store.Passes [.setDefinition store.task] (fun _ => True) fun file => file = store.task :=
        ⟨by simp, rfl, rfl⟩
      refine loaded.followedBy fun between same inSync => ?_
      unfold seedNextRunAt
      rw [inSync, same, found, Option.bind_some]
      cases seeded : reconcileNextRunAt calendar task now with
      | none => exact .nothing trivial (by simp [same, found, seeded]) inSync
      | some other => exact ⟨by simp, by simp [Store.apply, seeded], rfl⟩

end NimbleBrain.Scheduler
