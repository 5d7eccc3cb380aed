import NimbleBrain.Scheduler.Dispatch
import NimbleBrain.Scheduler.Occurrence

/- What a list of effects leaves in the file of a task, at its end and wherever the process stops. -/

namespace NimbleBrain.Scheduler

open Library Tasks

/-- A property of a task's file. -/
abbrev FileProperty := Option Task → Prop

/-- The effects keep one property on the way and reach another. The memory agrees with the file at the end. -/
structure Store.Passes (store : Store) (effects : List Effect) (along atEnd : FileProperty) : Prop where
  along : Survives Store.apply (fun store => along store.task) store effects
  ends : atEnd (store.after effects).task
  inSync : (store.after effects).definition = (store.after effects).task

/-- The effect writes neither the task nor its definition. -/
def Effect.isFiling : Effect → Bool
  | .saveTask _ => false
  | .deleteTask => false
  | .setDefinition _ => false
  | _ => true

theorem Effect.filing_apply {effect : Effect} (filing : effect.isFiling = true) (store : Store) :
    (store.apply effect).task = store.task ∧ (store.apply effect).definition = store.definition := by
  cases effect <;> first | exact ⟨rfl, rfl⟩ | cases filing

variable {store : Store} {effects : List Effect}

theorem filing_after (store : Store) (filing : ∀ effect ∈ effects, effect.isFiling = true) :
    (store.after effects).task = store.task ∧ (store.after effects).definition = store.definition := by
  induction effects generalizing store with
  | nil => exact ⟨rfl, rfl⟩
  | cons effect rest ih =>
      obtain ⟨task, definition⟩ := Effect.filing_apply (filing effect (List.mem_cons_self ..)) store
      obtain ⟨restTask, restDefinition⟩ := ih (store.apply effect)
        fun other member => filing other (List.mem_cons_of_mem _ member)
      exact ⟨restTask.trans task, restDefinition.trans definition⟩

theorem filing_survives (filing : ∀ effect ∈ effects, effect.isFiling = true) {along : FileProperty}
    (holds : along store.task) : Survives Store.apply (fun store => along store.task) store effects := by
  refine survives_of_kept holds fun effect member store holds => ?_
  rw [(Effect.filing_apply (filing effect member) store).1]
  exact holds

namespace Store.Passes

variable {first second : List Effect} {along middle atEnd : FileProperty}

theorem nothing (holds : along store.task) (ends : atEnd store.task) (inSync : store.definition = store.task) :
    store.Passes [] along atEnd :=
  ⟨by simpa using holds, ends, inSync⟩

theorem filing (filing : ∀ effect ∈ effects, effect.isFiling = true) (holds : along store.task)
    (ends : atEnd store.task) (inSync : store.definition = store.task) :
    store.Passes effects along atEnd := by
  obtain ⟨task, definition⟩ := filing_after store filing
  exact ⟨filing_survives filing holds, task.symm ▸ ends, definition.trans (inSync.trans task.symm)⟩

theorem append (one : store.Passes first along middle) (two : (store.after first).Passes second along atEnd) :
    store.Passes (first ++ second) along atEnd := by
  obtain ⟨secondAlong, ends, inSync⟩ := two
  refine ⟨survives_append.mpr ⟨one.along, secondAlong⟩, ?_, ?_⟩ <;> rw [Store.after, List.foldl_append]
  · exact ends
  · exact inSync

theorem cons {effect : Effect} (before : along store.task) (rest : (store.apply effect).Passes effects along atEnd) :
    store.Passes (effect :: effects) along atEnd :=
  ⟨survives_cons.mpr ⟨before, rest.along⟩, rest.ends, rest.inSync⟩

/-- The next effects may depend on what the first ones leave. -/
theorem followedBy {next : Store → List Effect} (one : store.Passes first along middle)
    (two : ∀ between : Store, middle between.task → between.definition = between.task →
      between.Passes (next between) along atEnd) :
    store.Passes (store.followedBy first next) along atEnd :=
  one.append (two _ one.ends one.inSync)

/-- Effects on the files alone may follow. -/
theorem thenFiling (one : store.Passes first along atEnd) (filing : ∀ effect ∈ second, effect.isFiling = true) :
    store.Passes (first ++ second) along atEnd :=
  one.append (.filing filing one.along.last one.ends one.inSync)

variable {task : Task}

/-- A task is saved, and then its definition in memory. -/
theorem save (before : along store.task) (after : along (some task)) (ends : atEnd (some task)) :
    store.Passes [.saveTask task, .setDefinition (some task)] along atEnd :=
  ⟨by simpa [Store.apply] using ⟨before, after⟩, ends, rfl⟩

theorem fileThenSave (filing : ∀ effect ∈ first, effect.isFiling = true) (before : along store.task)
    (after : along (some task)) (ends : atEnd (some task)) :
    store.Passes (first ++ [.saveTask task, .setDefinition (some task)]) along atEnd := by
  have same := (filing_after store filing).1
  have last : (store.after first).Passes [.saveTask task, .setDefinition (some task)] along atEnd :=
    save (same.symm ▸ before) after ends
  obtain ⟨saved, ends, inSync⟩ := last
  refine ⟨survives_append.mpr ⟨filing_survives filing before, saved⟩, ?_, ?_⟩ <;>
    rw [Store.after, List.foldl_append]
  · exact ends
  · exact inSync

end Store.Passes

theorem writeTicket_filing (requested : Option RequestedRun) (run : TaskRun) :
    ∀ effect ∈ writeTicket requested run, effect.isFiling = true := by
  cases requested <;> simp [writeTicket, Effect.isFiling]

theorem writeNotStarted_filing (requested : Option RequestedRun) (run : TaskRun) :
    ∀ effect ∈ writeNotStarted requested run, effect.isFiling = true := by
  simp only [writeNotStarted, List.mem_append, List.mem_cons, List.not_mem_nil, or_false]
  rintro effect ((rfl | rfl) | ticket)
  · rfl
  · rfl
  · exact writeTicket_filing requested run effect ticket

variable {calendar : Calendar} {now : Nat}

variable {run : TaskRun} {trigger : Option TaskRunTrigger} {dispatch : Dispatch}

/-- Nothing is written for a task that is gone. -/
theorem updateAfterRun_passes
    {firedOnceAt : Option OnceTime} {dispatchRunId : RunId} {appendRecord : Bool}
    (inSync : store.definition = store.task) (before : along store.task)
    (gone : store.task = none → atEnd none)
    (after : ∀ stored, store.task = some stored →
      let updated := some (afterRun calendar stored run trigger (firedOnceAt.or task.scheduleAt)
        dispatchRunId now).1
      along updated ∧ atEnd updated) :
    store.Passes (updateAfterRun calendar store task run trigger firedOnceAt dispatchRunId appendRecord now)
      along atEnd := by
  unfold updateAfterRun
  split
  · rename_i absent
    exact .nothing before (absent ▸ gone absent) inSync
  · rename_i stored found
    obtain ⟨alongAfter, endAfter⟩ := after stored found
    refine .thenFiling (.fileThenSave ?_ before alongAfter endAfter) ?_
    · cases appendRecord <;> simp [Effect.isFiling]
    · simp [Effect.isFiling]

/-- The faults spare the writes before the task is saved, and the save. -/
def sparesSave (faults : Point → Bool) : Prop :=
  faults .result = false ∧ faults .append = false ∧ faults .save = false

/-- A callback that throws comes after the save. -/
theorem recordRun_attempt_passes {faults : Point → Bool}
    (spares : sparesSave faults) (inSync : store.definition = store.task) (before : along store.task)
    (gone : store.task = none → atEnd none)
    (after : ∀ stored, store.task = some stored →
      let updated := some (afterRun calendar stored run (some dispatch.trigger)
        (dispatch.firedOnceAt.or dispatch.task.scheduleAt) dispatch.runId now).1
      along updated ∧ atEnd updated) :
    store.Passes (attempt (throwsAt faults) (recordRun calendar store dispatch run now)) along atEnd := by
  obtain ⟨result, append, save⟩ := spares
  unfold recordRun updateAfterRun
  split
  · rename_i absent
    refine .filing (fun effect member => ?_) before (absent ▸ gone absent) inSync
    have member := mem_of_attempt member
    simp only [List.nil_append, List.mem_append, List.mem_singleton] at member
    rcases member with ticket | rfl
    · exact writeTicket_filing _ _ effect ticket
    · rfl
  · rename_i stored found
    obtain ⟨alongAfter, endAfter⟩ := after stored found
    dsimp only
    rw [List.append_assoc, List.append_assoc, attempt_append]
    · refine .thenFiling (.fileThenSave (by simp [Effect.isFiling]) before alongAfter endAfter) ?_
      intro effect member
      have member := mem_of_attempt member
      simp only [List.mem_append, List.mem_map, List.mem_singleton] at member
      rcases member with ⟨notice, -, rfl⟩ | ticket | rfl
      · rfl
      · exact writeTicket_filing _ _ effect ticket
      · rfl
    · simp [completes, throwsAt, Effect.point, result, append, save]

/-- A recording that throws ends in the recording of a failure. -/
theorem recordExecution_passes {execution : Execution} {faults : Faults}
    (first : sparesSave faults.first) (second : sparesSave faults.second)
    (inSync : store.definition = store.task) (before : along store.task)
    (gone : store.task = none → atEnd none)
    (after : ∀ stored run, store.task = some stored →
      atEnd (some (afterRun calendar stored run (some dispatch.trigger)
        (dispatch.firedOnceAt.or dispatch.task.scheduleAt) dispatch.runId now).1))
    (again : ∀ stored run, atEnd (some stored) →
      atEnd (some (afterRun calendar stored run (some dispatch.trigger)
        (dispatch.firedOnceAt.or dispatch.task.scheduleAt) dispatch.runId now).1))
    (weak : ∀ file, atEnd file → along file) :
    store.Passes (recordExecution calendar store dispatch execution faults now).effects along atEnd := by
  have recorded : ∀ points, sparesSave points → ∀ run, store.Passes
      (attempt (throwsAt points) (recordRun calendar store dispatch run now)) along atEnd :=
    fun points spares run => recordRun_attempt_passes spares inSync before gone
      fun stored found => ⟨weak _ (after stored run found), after stored run found⟩
  unfold recordExecution
  cases execution with
  | threw error => exact recorded faults.second second _
  | returned run =>
      dsimp only
      split
      · exact recorded faults.first first _
      · have one := recorded faults.first first (withRequest dispatch.requested run)
        refine one.append (recordRun_attempt_passes second one.inSync (weak _ one.ends)
          (fun absent => absent ▸ one.ends) fun stored found => ?_)
        have last := again stored (failedRun dispatch faults.error now) (found ▸ one.ends)
        exact ⟨weak _ last, last⟩

/-- A skipped occurrence of a running task is moved. Any other skip leaves the task alone. -/
theorem recordSkipped_passes {requested : Option RequestedRun}
    (inSync : store.definition = store.task) (before : along store.task)
    (unmoved : atEnd store.task)
    (moved : trigger = none → ∀ stored, store.task = some stored →
      along (some (skippedTask calendar stored now)) ∧ atEnd (some (skippedTask calendar stored now)))
    (unscheduled : trigger ≠ some .scheduled) :
    store.Passes (recordSkipped calendar store trigger requested run now) along atEnd := by
  unfold recordSkipped
  refine .thenFiling ?_ (by simp [Effect.isFiling])
  cases trigger with
  | some asked =>
      simp only [Option.isSome_some, true_and, unscheduled, ne_eq, not_false_eq_true, if_true,
        List.append_nil]
      exact .filing (writeNotStarted_filing _ _) before unmoved inSync
  | none =>
      simp only [Option.isSome_none, Bool.false_eq_true, false_and, if_false]
      split
      · rw [List.append_nil]
        exact .filing (writeNotStarted_filing _ _) before unmoved inSync
      · rename_i stored found
        obtain ⟨alongMoved, endMoved⟩ := moved rfl stored found
        exact .fileThenSave (writeNotStarted_filing _ _) before alongMoved endMoved

theorem recordMissedOnce_passes {skipId : RunId} (before : along store.task) (found : store.task = some task)
    (retired : along (some (retireOnce task .missed now)) ∧ atEnd (some (retireOnce task .missed now))) :
    store.Passes (recordMissedOnce store task skipId now) along atEnd := by
  have shape : recordMissedOnce store task skipId now =
      (writeNotStarted none (notStartedRun skipId false now) ++
        [.saveTask (retireOnce task .missed now), .setDefinition (some (retireOnce task .missed now))]) ++
        [.onRunRecorded] := by
    simp [recordMissedOnce, found]
  rw [shape]
  exact .thenFiling (.fileThenSave (writeNotStarted_filing _ _) before retired.1 retired.2)
    (by simp [Effect.isFiling])

theorem seedNextRunAt_passes (inSync : store.definition = store.task) (before : along store.task)
    (unseeded : atEnd store.task)
    (seeded : ∀ task other, store.task = some task → reconcileNextRunAt calendar task now = some other →
      along (some other) ∧ atEnd (some other)) :
    store.Passes (seedNextRunAt calendar store now) along atEnd := by
  unfold seedNextRunAt
  split
  · exact .nothing before unseeded inSync
  · rename_i other placed
    obtain ⟨task, found, placed⟩ := Option.bind_eq_some_iff.mp placed
    obtain ⟨alongSeeded, endSeeded⟩ := seeded task other (inSync ▸ found) placed
    exact ⟨by simpa [Store.apply] using ⟨before, alongSeeded⟩, endSeeded, rfl⟩

theorem reload_passes (before : along store.task) (unseeded : atEnd store.task)
    (seeded : ∀ task other, store.task = some task → reconcileNextRunAt calendar task now = some other →
      along (some other) ∧ atEnd (some other)) :
    store.Passes (reload calendar store now) along atEnd := by
  have loaded : store.Passes [.setDefinition store.task] along fun file => file = store.task :=
    ⟨by simpa [Store.apply] using before, rfl, rfl⟩
  refine loaded.followedBy fun between same inSync => seedNextRunAt_passes inSync ?_ ?_ ?_
  · exact same ▸ before
  · exact same ▸ unseeded
  · exact fun task other found => seeded task other (same ▸ found)

end NimbleBrain.Scheduler
