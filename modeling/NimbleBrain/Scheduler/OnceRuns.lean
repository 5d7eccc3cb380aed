import Mathlib.Data.List.Perm.Basic
import NimbleBrain.Scheduler.OnceInvariant

/- Each operation keeps the occurrences sound, completed or cut short. -/

namespace NimbleBrain.Scheduler

open Library Tasks

/-- What the world tracks of a task, whether or not a process runs. -/
structure World.Good (world : World) : Prop where
  firedOnce : world.fired.Nodup
  firedPast : ∀ time ∈ world.fired, time.time ≤ world.now
  recordedPast : ∀ time ∈ world.recorded, time.time ≤ world.now
  file : FileSound world.now world.fired world.recorded unattended world.store.task
  attended : ∀ process, world.process = some process →
    FileSound world.now world.fired world.recorded (attendedBy process.active) world.store.task ∧
      world.store.definition = world.store.task ∧ process.Orderly world.now world.nextRunId

/-- The file before an operation is sound wherever the operation stops, and the file after it is attended. -/
structure World.TurnGood (world : World) (turn : Turn) : Prop where
  passes : world.store.Passes turn.effects
    (FileSound world.now world.fired world.recorded unattended)
    (FileSound world.now (world.fired ++ turn.fired) (world.recorded ++ turn.recorded)
      (attendedBy turn.process.active))
  orderly : turn.process.Orderly world.now (world.nextRunId + 1)
  firedOnce : turn.fired.Nodup
  fired : ∀ time ∈ turn.fired, time ∉ world.fired ∧ time.time ≤ world.now
  recorded : ∀ time ∈ turn.recorded, time.time ≤ world.now

variable {now : Nat} {fired recorded : List OnceTime} {attends : Attends} {file : Option Task}

theorem FileSound.weaken (sound : FileSound now fired recorded attends file) {weaker : Attends}
    (weak : ∀ mark time, attends mark time → weaker mark time) : FileSound now fired recorded weaker file :=
  fun task found => (sound task found).weaken weak

theorem FileSound.unattended (sound : FileSound now fired recorded attends file) :
    FileSound now fired recorded Scheduler.unattended file := sound.weaken fun _ _ _ => trivial

theorem FileSound.forget {settled : List OnceTime} (sound : FileSound now fired (recorded ++ settled) attends file) :
    FileSound now fired recorded Scheduler.unattended file := fun task found =>
  ((sound task found).forget fun _ member => List.mem_append_left _ member).weaken fun _ _ _ => trivial

theorem FileSound.quiet {task other : Task} (sound : FileSound now fired recorded attends (some task))
    (quiet : Quiet now task other) (firedPast : ∀ time ∈ fired, time.time ≤ now)
    (recordedPast : ∀ time ∈ recorded, time.time ≤ now) :
    FileSound now fired recorded attends (some other) := by
  rintro _ ⟨⟩
  exact (sound task rfl).quiet quiet firedPast recordedPast

theorem FileSound.none : FileSound now fired recorded attends none := fun _ found => by cases found

namespace World

variable {calendar : Calendar} {world : World} {process : Process}

/-- The world while its process has nothing under way. -/
structure Attended (world : World) (process : Process) : Prop where
  firedPast : ∀ time ∈ world.fired, time.time ≤ world.now
  recordedPast : ∀ time ∈ world.recorded, time.time ≤ world.now
  file : FileSound world.now world.fired world.recorded (attendedBy process.active) world.store.task
  inSync : world.store.definition = world.store.task
  orderly : process.Orderly world.now world.nextRunId

/-- An operation that starts and records no occurrence. -/
theorem TurnGood.quiet {effects : List Effect} {after : Process}
    (passes : world.store.Passes effects (FileSound world.now world.fired world.recorded unattended)
      (FileSound world.now world.fired world.recorded (attendedBy after.active)))
    (orderly : after.Orderly world.now (world.nextRunId + 1)) :
    world.TurnGood { effects := effects, process := after } where
  passes := by simpa using passes
  orderly := orderly
  firedOnce := List.nodup_nil
  fired _ member := by cases member
  recorded _ member := by cases member

theorem queue_perm {queue : List QueuedRun} {run : QueuedRun} {place : Nat} (found : queue[place]? = some run) :
    queue.Perm (run :: queue.eraseIdx place) := by
  obtain ⟨bound, rfl⟩ := List.getElem?_eq_some_iff.mp found
  exact (List.getElem_cons_eraseIdx_perm bound).symm

namespace Attended

theorem idle (attended : world.Attended process) : world.TurnGood { process := process } :=
  .quiet (.nothing attended.file.unattended attended.file attended.inSync)
    (attended.orderly.later le_rfl (Nat.le_succ _))

variable {cancelled : Bool} {requested : Option RequestedRun} {task : Task} {trigger : TaskRunTrigger}
  {answer : DoorAnswer} {rest : List QueuedRun} {run : QueuedRun}

/-- A skip of a running task moves its next run. -/
theorem skipRun (attended : world.Attended process) {trigger : Option TaskRunTrigger}
    (unscheduled : trigger ≠ some .scheduled)
    (running : trigger = none → ∀ task, world.store.task = some task → task.enabled = true) :
    world.TurnGood (world.skipRun calendar process trigger requested cancelled) := by
  refine .quiet (recordSkipped_passes attended.inSync attended.file.unattended attended.file
    (fun due stored found => ?_) unscheduled) (attended.orderly.later le_rfl (Nat.le_succ _))
  have moved := (found ▸ attended.file).quiet (skippedTask_quiet calendar (running due stored found))
    attended.firedPast attended.recordedPast
  exact ⟨moved.unattended, moved⟩

theorem attendedBy_append {active more : List Dispatch} {mark : ScheduledRunInFlight} {time : OnceTime}
    (attends : attendedBy active mark time) : attendedBy (active ++ more) mark time :=
  let ⟨dispatch, member, rest⟩ := attends
  ⟨dispatch, List.mem_append_left _ member, rest⟩

/-- A run that is not scheduled leaves the file alone. -/
theorem dispatchQuietly (attended : world.Attended process) {runKey : RunKey}
    (unscheduled : trigger ≠ .scheduled)
    (orderly : (world.dispatchRun process runKey task trigger requested).process.Orderly world.now
      (world.nextRunId + 1)) :
    world.TurnGood (world.dispatchRun process runKey task trigger requested) := by
  have quiet : firedOnceAt task trigger = none := by simp [firedOnceAt, unscheduled]
  have effects : (world.dispatchRun process runKey task trigger requested).effects =
      runningTicket (world.dispatchOf runKey task trigger requested) := by
    simp [dispatchRun, markDispatch, dispatchOf, unscheduled]
  have fired : (world.dispatchRun process runKey task trigger requested).fired = [] := by
    simp [dispatchRun, dispatchOf, quiet]
  refine ⟨?_, orderly, by simp [fired], by simp [fired], fun _ member => by cases member⟩
  rw [effects, fired, List.append_nil]
  refine .filing (writeTicket_filing _ _) attended.file.unattended ?_ attended.inSync
  simp only [dispatchRun, List.append_nil]
  exact attended.file.weaken fun _ _ => attendedBy_append

/-- A due task has no run and no place in the queue, so its occurrence is new. -/
theorem dispatchScheduled (attended : world.Attended process) (found : world.store.task = some task)
    (due : isDue task world.now = true) (idle : process.isRunning = false) (empty : process.isQueued = false) :
    world.TurnGood (world.dispatchRun process .task task .scheduled none) := by
  have sound := attended.file task found
  have fresh : ∀ time, firedOnceAt task .scheduled = some time →
      task.OnceAt time ∧ time.time ≤ world.now ∧ time ∉ world.fired ∧ time ∉ world.recorded := by
    intro time fires
    simp only [firedOnceAt, true_and] at fires
    split at fires
    · rename_i once
      have once : task.OnceAt time := ⟨once, fires⟩
      obtain ⟨on, next, placed, passed⟩ := OnceAt.due once due
      refine ⟨once, (sound.due time once next placed).trans passed, fun member => ?_, fun member => ?_⟩
      · obtain ⟨-, -, -, dispatch, active, own, -⟩ := sound.fired time member once on
        have none := List.countP_eq_zero.mp (Process.isRunning_false.mp idle) dispatch active
        exact none (by simpa using own)
      · exact Bool.false_ne_true ((sound.recorded time member once).1.symm.trans on)
    · cases fires
  let dispatch := world.dispatchOf .task task .scheduled none
  let marked := { task with
    scheduledRunInFlight := some ⟨dispatch.runId, dispatch.startedAt, dispatch.firedOnceAt⟩ }
  have effects : (world.dispatchRun process .task task .scheduled none).effects =
      [.saveTask marked, .setDefinition (some marked)] := by
    simp [dispatchRun, runningTicket, writeTicket, markDispatch, markScheduledRunInFlight, dispatchOf, found,
      marked, dispatch]
  have on : ∀ time, marked.OnceAt time → firedOnceAt task .scheduled = some time := fun time once => by
    rw [firedOnceAt, if_pos ⟨rfl, once.1⟩]
    exact once.2
  have alone : ∀ attends : Attends, (∀ time, dispatch.firedOnceAt = some time →
      attends ⟨dispatch.runId, dispatch.startedAt, dispatch.firedOnceAt⟩ time) → ∀ moreFired : List OnceTime,
      marked.Sound world.now (world.fired ++ moreFired) world.recorded attends := by
    intro attends carried moreFired
    exact {
      due := fun time once => sound.due time once
      fired := fun time _ once _ => ⟨_, rfl, on time once, carried time (on time once)⟩
      recorded := fun time member once => absurd member (fresh time (on time once)).2.2.2
      marked := fun mark time same named => by
        cases same
        exact (fresh time named).2.1 }
  refine {
    passes := ?_
    orderly := attended.orderly.dispatch (fun _ => ⟨idle, empty⟩) rfl
      (fun time fires => ⟨(fresh time fires).2.1, rfl⟩) _
    firedOnce := by
      simp only [dispatchRun]
      cases world.dispatchOf .task task .scheduled none |>.firedOnceAt <;> simp
    fired := fun time member => by
      have named : firedOnceAt task .scheduled = some time := Option.mem_toList.mp member
      exact ⟨(fresh time named).2.2.1, (fresh time named).2.1⟩
    recorded := fun _ member => by cases member }
  rw [effects]
  refine .save attended.file.unattended ?_ ?_
  · rintro _ ⟨⟩
    simpa using alone unattended (fun _ _ => trivial) []
  · rintro _ ⟨⟩
    rw [dispatchRun, List.append_nil]
    exact alone _ (fun time fires => ⟨dispatch, by simp [dispatch], rfl, fires, rfl⟩) _

/-- A tick dispatches, skips or waits. -/
theorem considerForDispatch (attended : world.Attended process) (found : world.store.task = some task)
    (freeSlot : Bool) :
    world.TurnGood (world.considerForDispatch calendar process task freeSlot) := by
  unfold World.considerForDispatch
  split
  · exact attended.idle
  · rename_i ready
    simp only [Bool.or_eq_true, Bool.not_eq_true', not_or, Bool.not_eq_false] at ready
    split
    · refine attended.skipRun (by simp) fun _ stored same => ?_
      cases found.symm.trans same
      exact ready.1.1
    · rename_i idle
      split
      · exact attended.idle
      · rename_i free
        simp only [Bool.or_eq_true, Bool.not_eq_true', not_or, Bool.not_eq_true, Bool.not_eq_false] at free idle
        exact attended.dispatchScheduled found ready.1.2 idle free.1

/-- A free door starts or queues a run of its own identifier. -/
theorem askDoor (attended : world.Attended process) (unscheduled : trigger ≠ .scheduled)
    (new : ∀ run, requested = some run → run.runId = world.nextRunId) (idle : process.isRunning = false)
    (empty : process.isQueued = false) :
    world.TurnGood (world.askDoor calendar process task trigger requested answer) := by
  cases answer with
  | started =>
      refine attended.dispatchQuietly unscheduled
        (attended.orderly.dispatch (fun _ => ⟨idle, empty⟩) ?_ ?_ _)
      · cases requested with
        | none => rfl
        | some run => exact new run rfl
      · simp [dispatchOf, firedOnceAt, unscheduled]
  | queued =>
      exact .quiet (.nothing attended.file.unattended attended.file attended.inSync)
        (attended.orderly.enqueue (fun _ => ⟨idle, empty⟩) new unscheduled)
  | refused => exact attended.skipRun (by simpa using unscheduled) (by simp)

theorem requestRunNow (attended : world.Attended process)
    (new : ∀ run, requested = some run → run.runId = world.nextRunId) :
    world.TurnGood (world.requestRunNow calendar process task requested answer) := by
  unfold World.requestRunNow
  split
  · exact attended.skipRun (by simp) (by simp)
  · rename_i free
    simp only [Bool.or_eq_true, not_or, Bool.not_eq_true] at free
    exact attended.askDoor (by simp) new free.1.1 free.1.2

theorem runFromEvent (attended : world.Attended process) :
    world.TurnGood (world.runFromEvent calendar process task answer) := by
  unfold World.runFromEvent
  split
  · exact attended.idle
  · split
    · exact attended.skipRun (by simp) (by simp)
    · rename_i free
      simp only [Bool.or_eq_true, not_or, Bool.not_eq_true] at free
      exact attended.askDoor (by simp) (by simp) free.1 free.2

theorem requestBatchRun (attended : world.Attended process) {requested : RequestedRun}
    (new : requested.runId = world.nextRunId) :
    world.TurnGood (world.requestBatchRun process task requested answer) := by
  unfold World.requestBatchRun
  split
  · exact attended.idle
  · cases answer with
    | refused => exact attended.idle
    | started =>
        exact attended.dispatchQuietly (by simp)
          (attended.orderly.dispatch (fun own => by cases own) new (by simp [dispatchOf, firedOnceAt]) _)
    | queued =>
        refine .quiet (.nothing attended.file.unattended attended.file attended.inSync)
          (attended.orderly.enqueue (fun own => by cases own) (fun run same => ?_) (by simp))
        cases same
        exact new

theorem dequeue (attended : world.Attended process) (left : process.queue.Perm (run :: rest)) :
    world.Attended { process with queue := rest } :=
  { attended with orderly := attended.orderly.dequeue left }

theorem startQueued (attended : world.Attended process) (left : process.queue.Perm (run :: rest)) :
    world.TurnGood (world.startQueued calendar { process with queue := rest } run) := by
  have waiting := attended.dequeue left
  have unscheduled : run.trigger ≠ .scheduled := attended.orderly.queued run (left.mem_iff.mpr (by simp))
  unfold World.startQueued
  split
  · exact waiting.idle
  · rename_i task _
    split
    · exact waiting.skipRun (by simpa using unscheduled) (by simp)
    · split
      · exact waiting.skipRun (by simpa using unscheduled) (by simp)
      · exact waiting.dispatchQuietly unscheduled
          (attended.orderly.dispatchQueued left rfl rfl (by simp [dispatchOf, firedOnceAt, unscheduled]) _)

theorem leaveQueue (attended : world.Attended process) (left : process.queue.Perm (run :: rest)) :
    world.TurnGood (world.leaveQueue calendar { process with queue := rest } run cancelled) := by
  have waiting := attended.dequeue left
  have unscheduled : run.trigger ≠ .scheduled := attended.orderly.queued run (left.mem_iff.mpr (by simp))
  unfold World.leaveQueue
  split
  · exact waiting.idle
  · exact waiting.skipRun (by simpa using unscheduled) (by simp)

/-- The recording of a run retires the occurrence it was and spares every other. -/
theorem endRun (attended : world.Attended process) {dispatch : Dispatch} (active : dispatch ∈ process.active)
    {execution : Execution} {faults : Faults} (spares : sparesWrites faults = true) :
    world.TurnGood (world.endRun calendar process dispatch execution faults) := by
  have fires := attended.orderly.fires dispatch active
  have settles : ∀ time ∈ (if world.store.task.isSome then dispatch.firedOnceAt.toList else []),
      time.time ≤ world.now ∧ dispatch.trigger = .scheduled ∧
        dispatch.firedOnceAt.or dispatch.task.scheduleAt = some time := by
    intro time member
    split at member
    · have named := Option.mem_toList.mp member
      exact ⟨(fires time named).1, (fires time named).2, by rw [named, Option.some_or]⟩
    · cases member
  have carried : ∀ mark time, attendedBy process.active mark time →
      (dispatch.trigger = .scheduled ∧ dispatch.firedOnceAt.or dispatch.task.scheduleAt = some time) ∨
        (mark.runId ≠ dispatch.runId ∧ attendedBy (process.active.erase dispatch) mark time) := by
    rintro mark time ⟨other, member, own, named, same⟩
    by_cases it : other = dispatch
    · subst it
      exact .inl ⟨(fires time named).2, by rw [named, Option.some_or]⟩
    · exact .inr ⟨same ▸ attended.orderly.apart active member it,
        other, (List.mem_erase_of_ne it).mpr member, own, named, same⟩
  have others : ∀ mark time, attendedBy (process.active.erase dispatch) mark time →
      (dispatch.trigger = .scheduled ∧ dispatch.firedOnceAt.or dispatch.task.scheduleAt = some time) ∨
        (mark.runId ≠ dispatch.runId ∧ attendedBy (process.active.erase dispatch) mark time) := by
    rintro mark time ⟨other, member, own, named, same⟩
    have apart := (attended.orderly.active_nodup.mem_erase_iff).mp member
    exact .inr ⟨same ▸ attended.orderly.apart active apart.2 apart.1, other, member, own, named, same⟩
  simp only [sparesWrites, Bool.not_eq_true', Bool.or_eq_false_iff] at spares
  obtain ⟨⟨⟨⟨⟨⟨⟨result, append⟩, save⟩, -⟩, result'⟩, append'⟩, save'⟩, -⟩ := spares
  refine ⟨?_, (attended.orderly.endRun dispatch _).later le_rfl (Nat.le_succ _), List.nodup_nil,
    (fun _ member => by cases member), fun time member => (settles time member).1⟩
  simp only [World.endRun, List.append_nil]
  refine recordExecution_passes ⟨result, append, save⟩ ⟨result', append', save'⟩ attended.inSync
    attended.file.unattended (fun _ => .none) (fun stored run found => ?_) (fun stored run ended => ?_)
    fun _ ended => ended.forget
  · rintro _ ⟨⟩
    exact (attended.file stored found).afterRun carried settles
  · rintro _ ⟨⟩
    refine ((ended stored rfl).afterRun others settles).forget fun time member => ?_
    exact List.mem_append_left _ member

/-- A reload seeds the next run of a sound file. -/
theorem reloaded (attended : world.Attended process) {store : Store}
    (sound : FileSound world.now world.fired world.recorded (attendedBy process.active) store.task) :
    store.Passes (reload calendar store world.now)
      (FileSound world.now world.fired world.recorded unattended)
      (FileSound world.now world.fired world.recorded (attendedBy process.active)) :=
  reload_passes sound.unattended sound fun _ _ found placed =>
    have seeded := (found ▸ sound).quiet (reconcileNextRunAt_quiet calendar placed) attended.firedPast
      attended.recordedPast
    ⟨seeded.unattended, seeded⟩

/-- A tool's write that leaves the file sound is followed by a reload. -/
theorem writeAndReload (attended : world.Attended process) {write : Effect}
    (wrote : FileSound world.now world.fired world.recorded (attendedBy process.active) (world.store.apply write).task) :
    world.TurnGood (world.writeAndReload calendar process write) :=
  .quiet (.cons attended.file.unattended (attended.reloaded wrote))
    (attended.orderly.later le_rfl (Nat.le_succ _))

/-- A quiet write of the task. -/
theorem saveAndReload (attended : world.Attended process) {other : Task} (found : world.store.task = some task)
    (quiet : Quiet world.now task other) :
    world.TurnGood (world.writeAndReload calendar process (.saveTask other)) :=
  attended.writeAndReload ((found ▸ attended.file).quiet quiet attended.firedPast attended.recordedPast)

/-- A created once has not started, since its time is to come. -/
theorem created (attended : world.Attended process) {input : CreateInput}
    (created : handleCreate calendar world.store.task input world.now = .ok task) :
    world.TurnGood (world.writeAndReload calendar process (.saveTask task)) := by
  obtain ⟨due, unmarked, future⟩ := handleCreate_future created
  refine attended.writeAndReload ?_
  rintro _ ⟨⟩
  exact {
    due := due
    fired := fun time member once =>
      absurd (future time once) (Nat.not_lt.mpr (attended.firedPast time member))
    recorded := fun time member once =>
      absurd (future time once) (Nat.not_lt.mpr (attended.recordedPast time member))
    marked := fun mark time marked => by
      rw [unmarked] at marked
      cases marked }

/-- Every operation of a process keeps what is tracked. -/
theorem turn (attended : world.Attended process) {operation : Operation} {turn : Turn}
    (done : world.turn calendar process operation = some turn) : world.TurnGood turn := by
  cases operation with
  | boot => cases done
  | tick freeSlot =>
      simp only [World.turn, Option.some.injEq] at done
      subst done
      rw [attended.inSync]
      cases found : world.store.task with
      | none => exact attended.idle
      | some task => exact attended.considerForDispatch found freeSlot
  | reload =>
      cases done
      exact .quiet (attended.reloaded attended.file) (attended.orderly.later le_rfl (Nat.le_succ _))
  | create input =>
      simp only [World.turn] at done
      split at done <;> cases done
      · exact attended.idle
      · exact attended.created ‹_›
  | edit patch =>
      simp only [World.turn] at done
      split at done <;> cases done
      · exact attended.idle
      · exact attended.idle
      · rename_i edited
        cases found : world.store.task with
        | none =>
            rw [found] at edited
            obtain ⟨_, _, none⟩ := ok_of_bind edited
            cases none
        | some stored => exact attended.saveAndReload found (handleUpdate_quiet (found ▸ edited))
  | delete =>
      simp only [World.turn] at done
      split at done <;> cases done
      · exact attended.idle
      · exact attended.writeAndReload .none
  | disableAtCeiling =>
      simp only [World.turn] at done
      split at done <;> cases done
      · exact attended.idle
      · exact attended.saveAndReload ‹_› disabled_quiet
  | requestRunNow requested answer =>
      obtain ⟨task, -, rfl⟩ := Option.map_eq_some_iff.mp done
      refine attended.requestRunNow fun run same => ?_
      split at same <;> cases same
      rfl
  | runFromEvent answer =>
      obtain ⟨task, -, rfl⟩ := Option.map_eq_some_iff.mp done
      exact attended.runFromEvent
  | requestBatchRun item answer =>
      obtain ⟨task, -, rfl⟩ := Option.map_eq_some_iff.mp done
      exact attended.requestBatchRun rfl
  | startQueued place =>
      obtain ⟨run, found, rfl⟩ := Option.map_eq_some_iff.mp done
      exact attended.startQueued (queue_perm found)
  | leaveQueue place cancelled =>
      obtain ⟨run, found, rfl⟩ := Option.map_eq_some_iff.mp done
      exact attended.leaveQueue (queue_perm found)
  | endRun place execution faults =>
      simp only [World.turn] at done
      split at done
      · obtain ⟨dispatch, found, rfl⟩ := Option.map_eq_some_iff.mp done
        exact attended.endRun (List.mem_of_getElem? found) ‹_›
      · cases done

end Attended

/-- The mark on a file is the only one that a start has to answer for. -/
theorem marked_sound {task : Task} {inFlight : Option ScheduledRunInFlight}
    (sound : task.Sound now fired recorded unattended) (marked : task.scheduledRunInFlight = inFlight) :
    task.Sound now fired recorded fun mark time => inFlight = some mark ∧ mark.onceAt = some time where
  due := sound.due
  fired time member once on :=
    let ⟨mark, stored, named, _⟩ := sound.fired time member once on
    ⟨mark, stored, named, marked ▸ stored, named⟩
  recorded := sound.recorded
  marked := sound.marked

/-- The occurrence that the last process had in flight is retired by the next one. -/
theorem settleInterruptedRuns_passes {store : Store} (inSync : store.definition = store.task)
    (sound : FileSound now fired recorded unattended store.task) :
    store.Passes (settleInterruptedRuns calendar store [] now)
      (FileSound now fired recorded unattended)
      (FileSound now fired (recorded ++ interruptedOnce store.task) (attendedBy [])) := by
  unfold settleInterruptedRuns
  rw [inSync]
  cases found : store.task with
  | none => exact .nothing sound (by rw [found]; exact .none) inSync
  | some task =>
      have stored := sound task found
      cases marked : task.scheduledRunInFlight with
      | none =>
          simp only [marked, interruptedOnce, Option.bind_some, List.append_nil]
          refine .nothing sound ?_ inSync
          rw [found]
          rintro _ ⟨⟩
          exact (marked_sound stored marked).weaken fun _ _ attends => by cases attends.1
      | some inFlight =>
          simp only [List.not_mem_nil, if_false, Option.bind_some, marked, interruptedOnce]
          refine .thenFiling (updateAfterRun_passes inSync sound (fun gone => ?_) fun other same => ?_)
            (by simp [Effect.isFiling])
          · rw [found] at gone
            cases gone
          · cases found.symm.trans same
            have settled : (afterRun calendar task
                ((store.index.find? fun run => run.id = inFlight.runId).getD (interruptedRun inFlight now))
                (some .scheduled) (inFlight.onceAt.or task.scheduleAt) inFlight.runId now).1.Sound now fired
                (recorded ++ inFlight.onceAt.toList) (attendedBy []) := by
              refine (marked_sound stored marked).afterRun (fun mark time attends => .inl ⟨rfl, ?_⟩)
                fun time member => ?_
              · cases attends.1
                rw [attends.2, Option.some_or]
              · have named := Option.mem_toList.mp member
                exact ⟨stored.marked inFlight time marked named, rfl, by rw [named, Option.some_or]⟩
            constructor
            · rintro _ ⟨⟩
              exact (settled.forget fun _ member => List.mem_append_left _ member).weaken
                fun _ _ _ => trivial
            · rintro _ ⟨⟩
              exact settled

/-- A start leaves a sound file, wherever it is stopped. -/
theorem Good.boot (good : world.Good) :
    world.TurnGood {
      effects := start calendar world.store [] world.nextRunId world.now
      process := {}
      recorded := interruptedOnce world.store.task } := by
  have settledPast : ∀ time ∈ world.recorded ++ interruptedOnce world.store.task, time.time ≤ world.now := by
    intro time member
    rcases List.mem_append.mp member with before | settled
    · exact good.recordedPast time before
    · unfold interruptedOnce at settled
      split at settled
      · cases settled
      · rename_i inFlight marked
        obtain ⟨task, found, marked⟩ := Option.bind_eq_some_iff.mp marked
        exact (good.file task found).marked inFlight time marked (Option.mem_toList.mp settled)
  refine ⟨?_, ⟨by simp, by simp [Process.runIds], by simp [Process.runIds], by simp, by simp⟩,
    List.nodup_nil, (fun _ member => by cases member),
    fun time member => settledPast time (List.mem_append_right _ member)⟩
  simp only [List.append_nil, start]
  have loaded : world.store.Passes [.setDefinition world.store.task]
      (FileSound world.now world.fired world.recorded unattended) fun file => file = world.store.task :=
    ⟨by simpa [Store.apply] using good.file, rfl, rfl⟩
  refine loaded.followedBy fun first same inSync => ?_
  refine (settleInterruptedRuns_passes inSync (same ▸ good.file)).followedBy
    fun second settled inSync => ?_
  have settled : FileSound world.now world.fired (world.recorded ++ interruptedOnce world.store.task) (attendedBy [])
    second.task := same ▸ settled
  refine Store.Passes.followedBy (?_ : second.Passes _ _
    (FileSound world.now world.fired (world.recorded ++ interruptedOnce world.store.task) (attendedBy [])))
    fun third retired inSync => ?_
  · unfold retireOncesMissedWhileDown
    rw [inSync]
    cases found : second.task with
    | none => exact .nothing settled.forget settled inSync
    | some task =>
        dsimp only
        split
        · have inert := (found ▸ settled).quiet (retireOnce_quiet .missed world.now) good.firedPast
            settledPast
          exact recordMissedOnce_passes settled.forget found ⟨inert.forget, inert⟩
        · exact .nothing settled.forget settled inSync
  · refine seedNextRunAt_passes inSync retired.forget retired fun task other found placed => ?_
    have seeded := (found ▸ retired).quiet (reconcileNextRunAt_quiet calendar placed) good.firedPast
      settledPast
    exact ⟨seeded.forget, seeded⟩

/-- Whatever begins keeps what is tracked. -/
theorem Good.begin (good : world.Good) {operation : Operation} {turn : Turn}
    (begun : world.begin calendar operation = some turn) : world.TurnGood turn := by
  cases running : world.process with
  | none =>
      cases operation <;> simp only [World.begin, running, Option.some.injEq, reduceCtorEq] at begun
      subst begun
      exact good.boot
  | some process =>
      obtain ⟨file, inSync, orderly⟩ := good.attended process running
      have attended : world.Attended process :=
        ⟨good.firedPast, good.recordedPast, file, inSync, orderly⟩
      simp only [World.begin, running] at begun
      exact attended.turn begun

theorem TurnGood.finish (good : world.Good) {turn : Turn} (done : world.TurnGood turn) :
    (world.finish turn).Good where
  firedOnce := List.nodup_append.mpr ⟨good.firedOnce, done.firedOnce, fun time before other after same =>
    (done.fired other after).1 (same ▸ before)⟩
  firedPast time member := (List.mem_append.mp member).elim (good.firedPast time)
    fun fired => (done.fired time fired).2
  recordedPast time member := (List.mem_append.mp member).elim (good.recordedPast time)
    (done.recorded time)
  file := done.passes.ends.unattended
  attended process same := by
    cases same
    exact ⟨done.passes.ends, done.passes.inSync, done.orderly⟩

theorem TurnGood.stop (good : world.Good) {turn : Turn} (done : world.TurnGood turn) (writes : Nat) :
    (world.stop (turn.effects.take writes)).Good where
  firedOnce := good.firedOnce
  firedPast := good.firedPast
  recordedPast := good.recordedPast
  file := done.passes.along writes
  attended process same := by cases same

theorem Good.wait (good : world.Good) (ms : Nat) : { world with now := world.now + ms }.Good where
  firedOnce := good.firedOnce
  firedPast time member := (good.firedPast time member).trans (Nat.le_add_right _ _)
  recordedPast time member := (good.recordedPast time member).trans (Nat.le_add_right _ _)
  file task found := (good.file task found).later (Nat.le_add_right _ _)
  attended process running :=
    let ⟨file, inSync, orderly⟩ := good.attended process running
    ⟨fun task found => (file task found).later (Nat.le_add_right _ _), inSync,
      orderly.later (Nat.le_add_right _ _) le_rfl⟩

theorem Good.step (good : world.Good) {action : Action} {after : World}
    (stepped : World.step calendar world action = some after) : after.Good := by
  cases action with
  | wait ms =>
      cases stepped
      exact good.wait ms
  | complete operation =>
      obtain ⟨turn, begun, rfl⟩ := Option.map_eq_some_iff.mp stepped
      exact (good.begin begun).finish good
  | stopAfter writes operation =>
      obtain ⟨turn, begun, rfl⟩ := Option.map_eq_some_iff.mp stepped
      exact (good.begin begun).stop good writes

theorem Good.initial : World.Good {} where
  firedOnce := List.nodup_nil
  firedPast _ member := by cases member
  recordedPast _ member := by cases member
  file := .none
  attended _ running := by cases running

end World

/-- Every reachable world is sound. -/
theorem goodWorld_of_reachable {calendar : Calendar} {world : World}
    (reached : (schedulerSystem calendar).Reachable world) : world.Good := by
  refine reached.invariant World.Good ?_ fun before action after good stepped => good.step stepped
  rintro state rfl
  exact .initial

end NimbleBrain.Scheduler
