import NimbleBrain.Scheduler.Dispatch

/- When the recording of a dispatched run counts the run once. -/

namespace NimbleBrain.Scheduler

open Library Tasks

/-- The executor adopts the identifier of its dispatch, and a requested run is dispatched under its own. -/
structure Dispatch.Named (dispatch : Dispatch) (execution : Execution) : Prop where
  requested : ∀ requested, dispatch.requested = some requested → requested.runId = dispatch.runId
  returned : ∀ run, execution = .returned run → run.id = dispatch.runId

/-- The dispatch fails before its executor starts. -/
def startThrows (dispatch : Dispatch) (faults : Faults) : Bool :=
  (dispatch.requested.isSome && faults.starting .ticket) ||
    (decide (dispatch.trigger = .scheduled) && faults.starting .save)

/-- The index has one record of the run, the task counts it once, and a success is no failure. -/
structure CountedOnce (calendar : Calendar) (store after : Store) (dispatch : Dispatch)
    (execution : Execution) (faults : Faults) (now : Nat) : Prop where
  index : after.index.countP (fun run => run.id = dispatch.runId) ≤ 1
  task : ∀ stored, store.task = some stored → ∃ mark,
    after.task = some { stored with scheduledRunInFlight := mark } ∨
      ∃ run, after.task = some (dispatch.record calendar now { stored with scheduledRunInFlight := mark } run)
  runCount : ∀ stored task, store.task = some stored → after.task = some task →
    task.runCount ≤ stored.runCount + 1
  success : startThrows dispatch faults = false → ∀ run, execution = .returned run → run.status = .success →
    ∀ record ∈ after.index, record.id = dispatch.runId → record.status = .success

/-- A write or a callback of the first recording throws. A notice is raised only by some runs. -/
def firstThrows (stored : Task) (dispatch : Dispatch) (run : TaskRun) (faults : Faults) : Bool :=
  faults.first .result || faults.first .append || faults.first .save ||
    ((applyStreak stored run).2.isSome && faults.first .notify) ||
    (dispatch.requested.isSome && faults.first .ticket) || faults.first .report

/-- The record reaches the index. -/
def lands (faults : Point → Bool) : Bool := !(faults .result || faults .append)

/-- No throw makes a returned run recorded twice, or a success recorded as a failure. -/
def countsOnce (store : Store) (dispatch : Dispatch) (execution : Execution) (faults : Faults) : Bool :=
  match execution, store.task with
  | .threw _, _ => true
  | .returned _, none => true
  | .returned run, some stored =>
      startThrows dispatch faults ||
        !firstThrows stored dispatch (withRequest dispatch.requested run) faults ||
        !lands faults.second || (decide (run.status ≠ .success) && !lands faults.first)

def Effect.appended : Effect → Option TaskRun
  | .appendRun run => some run
  | _ => none

theorem after_index (store : Store) (effects : List Effect) :
    (store.after effects).index = store.index ++ effects.filterMap Effect.appended := by
  induction effects generalizing store with
  | nil => simp
  | cons effect rest ih =>
      refine (ih (store.apply effect)).trans ?_
      cases effect <;> simp [Store.apply, Effect.appended, List.filterMap_cons]

section Attempts

variable {calendar : Calendar} {store : Store} {dispatch : Dispatch} {run : TaskRun} {now : Nat}
  {stored : Task} {faults : Point → Bool}

/-- The effects after the save write no record and no task. -/
theorem attempt_tail (dispatch : Dispatch) (run : TaskRun) (faults : Point → Bool) (notices : List RunFailedNotice)
    (store : Store) :
    let tail := attempt (throwsAt faults) (notices.map (Effect.notifyRunFailed run) ++
      (writeTicket dispatch.requested run ++ [.onRunRecorded]))
    tail.filterMap Effect.appended = [] ∧ (store.after tail).task = store.task := by
  dsimp only
  have filing : ∀ effect ∈ attempt (throwsAt faults) (notices.map (Effect.notifyRunFailed run) ++
      (writeTicket dispatch.requested run ++ [.onRunRecorded])),
      effect.appended = none ∧ ∀ store : Store, (store.apply effect).task = store.task := by
    intro effect member
    have member := mem_of_attempt member
    simp only [List.mem_append, List.mem_map, List.mem_singleton] at member
    rcases member with ⟨notice, -, rfl⟩ | ticket | rfl
    · exact ⟨rfl, fun _ => rfl⟩
    · unfold writeTicket at ticket
      split at ticket
      · cases ticket
      · cases List.mem_singleton.mp ticket
        exact ⟨rfl, fun _ => rfl⟩
    · exact ⟨rfl, fun _ => rfl⟩
  generalize attempt (throwsAt faults) (notices.map (Effect.notifyRunFailed run) ++
    (writeTicket dispatch.requested run ++ [.onRunRecorded])) = tail at filing ⊢
  induction tail generalizing store with
  | nil => exact ⟨rfl, rfl⟩
  | cons effect rest ih =>
      obtain ⟨unrecorded, same⟩ := filing effect (List.mem_cons_self ..)
      obtain ⟨none, task⟩ := ih (store.apply effect) fun other member =>
        filing other (List.mem_cons_of_mem _ member)
      exact ⟨by rw [List.filterMap_cons_none unrecorded, none], task.trans (same store)⟩

/-- What one recording leaves, wherever it throws. -/
theorem attempt_recordRun (calendar : Calendar) (dispatch : Dispatch) (run : TaskRun) (now : Nat)
    (faults : Point → Bool) (found : store.task = some stored) :
    let effects := attempt (throwsAt faults) (recordRun calendar store dispatch run now)
    (effects.filterMap Effect.appended = if lands faults then [run] else []) ∧
      (store.after effects).task = some
        (if lands faults && !faults .save then dispatch.record calendar now stored run else stored) := by
  dsimp only
  have shape : recordRun calendar store dispatch run now =
      [.saveRunResult run.id, .appendRun run, .saveTask (dispatch.record calendar now stored run),
        .setDefinition (some (dispatch.record calendar now stored run))] ++
      ((afterRun calendar stored run (some dispatch.trigger)
          (dispatch.firedOnceAt.or dispatch.task.scheduleAt) dispatch.runId now).2.toList.map
          (Effect.notifyRunFailed run) ++ (writeTicket dispatch.requested run ++ [.onRunRecorded])) := by
    simp [recordRun, updateAfterRun, found, Dispatch.record]
  rw [shape]
  cases result : faults .result with
  | true => simp [attempt, throwsAt, Effect.point, lands, result, found]
  | false =>
      cases append : faults .append with
      | true =>
          simp [attempt, throwsAt, Effect.point, lands, result, append, found, Effect.appended, Store.apply]
      | false =>
          cases save : faults .save with
          | true =>
              simp [attempt, throwsAt, Effect.point, lands, result, append, save, found, List.filterMap_cons,
                Effect.appended, Store.apply]
          | false =>
              rw [attempt_append (by simp [completes, throwsAt, Effect.point, result, append, save])]
              obtain ⟨none, task⟩ := attempt_tail dispatch run faults
                (afterRun calendar stored run (some dispatch.trigger)
                  (dispatch.firedOnceAt.or dispatch.task.scheduleAt) dispatch.runId now).2.toList
                (store.after [.saveRunResult run.id, .appendRun run,
                  .saveTask (dispatch.record calendar now stored run),
                  .setDefinition (some (dispatch.record calendar now stored run))])
              rw [List.filterMap_append, none, Store.after, List.foldl_append]
              exact ⟨by simp [List.filterMap_cons, Effect.appended, lands, result, append],
                task.trans (by simp [Store.apply, lands, result, append])⟩

/-- The mark and the first ticket leave the records and the counts of the task as they are. -/
structure Begun (store begun : Store) : Prop where
  index : begun.index = store.index
  gone : store.task = none → begun.task = none
  task : ∀ stored, store.task = some stored →
    ∃ mark, begun.task = some { stored with scheduledRunInFlight := mark }

theorem Begun.refl (store : Store) : Begun store store :=
  ⟨rfl, id, fun stored found => ⟨stored.scheduledRunInFlight, found⟩⟩

theorem writeTicket_begun (requested : Option RequestedRun) (run : TaskRun) (store : Store) :
    Begun store (store.after (writeTicket requested run)) := by
  unfold writeTicket
  split
  · exact .refl store
  · exact ⟨rfl, id, fun stored found => ⟨stored.scheduledRunInFlight, found⟩⟩

theorem Begun.trans {first second third : Store} (one : Begun first second) (two : Begun second third) :
    Begun first third where
  index := two.index.trans one.index
  gone none := two.gone (one.gone none)
  task stored found := by
    obtain ⟨mark, marked⟩ := one.task stored found
    obtain ⟨last, remarked⟩ := two.task _ marked
    exact ⟨last, remarked⟩

theorem markDispatch_begun (throws : Point → Bool) (store : Store) (dispatch : Dispatch) :
    Begun store (store.after (attempt (throwsAt throws) (markDispatch store dispatch))) := by
  unfold markDispatch markScheduledRunInFlight
  split
  · split
    · exact .refl store
    · rename_i fresh found
      cases save : throws .save with
      | true => simpa [attempt, throwsAt, Effect.point, save] using Begun.refl store
      | false =>
          refine ⟨?_, fun none => ?_, fun stored same => ?_⟩
          · simp [attempt, throwsAt, Effect.point, save, Store.apply]
          · cases found.symm.trans none
          · cases found.symm.trans same
            exact ⟨_, by simp [attempt, throwsAt, Effect.point, save, Store.apply]; rfl⟩
  · exact .refl store

theorem failedRun_status (dispatch : Dispatch) (error : ThrownError) (now : Nat) :
    (failedRun dispatch error now).status ≠ .success := by
  have failure : (classifyRunFailure error).status ≠ .success := by
    unfold classifyRunFailure
    split
    · simp
    · split <;> try simp
      split <;> simp
  unfold failedRun withRequest
  cases dispatch.requested <;> exact failure

variable {execution : Execution}

theorem withRequest_id (named : dispatch.Named execution) (own : run.id = dispatch.runId) :
    (withRequest dispatch.requested run).id = dispatch.runId := by
  cases asked : dispatch.requested with
  | none => exact own
  | some requested => exact named.requested requested asked

theorem failedRun_id (named : dispatch.Named execution) (error : ThrownError) (now : Nat) :
    (failedRun dispatch error now).id = dispatch.runId := withRequest_id named rfl

/-- The notice of a run does not depend on the mark of its task. -/
theorem streak_notice (stored : Task) (mark : Option ScheduledRunInFlight) (run : TaskRun) (dispatchRunId : RunId) :
    (applyStreak (countRun { stored with scheduledRunInFlight := mark } run dispatchRunId) run).2 =
      (applyStreak stored run).2 := by
  unfold applyStreak applyConsecutiveErrors countRun isFirstFailed
  split
  · rfl
  · dsimp only
    split
    · rfl
    · split <;> rfl

/-- A recording comes to its end when none of its writes and callbacks throws. -/
theorem recordRun_completes (calendar : Calendar) (dispatch : Dispatch) (run : TaskRun) (now : Nat)
    (faults : Faults) {mark : Option ScheduledRunInFlight}
    (found : store.task = some { stored with scheduledRunInFlight := mark }) :
    completes (throwsAt faults.first) (recordRun calendar store dispatch run now) =
      !firstThrows stored dispatch run faults := by
  have notice := streak_notice stored mark run dispatch.runId
  simp only [recordRun, updateAfterRun, found, completes, if_true, firstThrows, ← notice, afterRun]
  generalize (applyStreak (countRun { stored with scheduledRunInFlight := mark } run dispatch.runId) run).2 =
    raised
  cases raised <;> cases asked : dispatch.requested <;>
    simp [throwsAt, Effect.point, writeTicket, Bool.and_assoc]

theorem countP_landed {index : List TaskRun} {runId : RunId} (fresh : ∀ run ∈ index, run.id ≠ runId)
    (more : List TaskRun) :
    (index ++ more).countP (fun run => run.id = runId) = more.countP fun run => run.id = runId := by
  rw [List.countP_append, List.countP_eq_zero.mpr (by simpa using fresh), Nat.zero_add]

/-- A recording that finds no task records nothing. -/
theorem attempt_gone (calendar : Calendar) (dispatch : Dispatch) (run : TaskRun) (now : Nat) (faults : Point → Bool)
    (gone : store.task = none) :
    let effects := attempt (throwsAt faults) (recordRun calendar store dispatch run now)
    effects.filterMap Effect.appended = [] ∧ (store.after effects).task = none := by
  obtain ⟨none, task⟩ := attempt_tail dispatch run faults [] store
  have shape : recordRun calendar store dispatch run now =
      ([] : List RunFailedNotice).map (Effect.notifyRunFailed run) ++
        (writeTicket dispatch.requested run ++ [.onRunRecorded]) := by
    simp [recordRun, updateAfterRun, gone]
  rw [shape]
  exact ⟨none, task.trans gone⟩

theorem gone_begun (calendar : Calendar) (dispatch : Dispatch) (run : TaskRun) (now : Nat) (faults : Point → Bool)
    (gone : store.task = none) :
    Begun store (store.after (attempt (throwsAt faults) (recordRun calendar store dispatch run now))) where
  index := by
    rw [after_index, (attempt_gone calendar dispatch run now faults gone).1, List.append_nil]
  gone _ := (attempt_gone calendar dispatch run now faults gone).2
  task stored found := by cases gone.symm.trans found

section Counted

variable {begun : Store} {execution : Execution} {faults : Faults}

variable {after : Store}

/-- Nothing recorded is nothing counted twice. -/
theorem unrecorded_counted (fresh : ∀ run ∈ store.index, run.id ≠ dispatch.runId) (began : Begun store after) :
    CountedOnce calendar store after dispatch execution faults now where
  index := by
    rw [began.index, List.countP_eq_zero.mpr (by simpa using fresh)]
    exact Nat.zero_le _
  task stored found := by
    obtain ⟨mark, marked⟩ := began.task stored found
    exact ⟨mark, .inl marked⟩
  runCount stored last found same := by
    obtain ⟨mark, marked⟩ := began.task stored found
    cases same.symm.trans marked
    exact Nat.le_succ _
  success _ _ _ _ record member own := absurd own (fresh record (began.index ▸ member))

/-- One record and one count of the task are not too many. -/
theorem recorded_counted (run : TaskRun) (mark : Option ScheduledRunInFlight)
    (fresh : ∀ run ∈ store.index, run.id ≠ dispatch.runId) (found : store.task = some stored)
    (index : after.index = store.index ++ [run]) (task : after.task =
        some { stored with scheduledRunInFlight := mark } ∨
      after.task = some (dispatch.record calendar now { stored with scheduledRunInFlight := mark } run))
    (success : startThrows dispatch faults = false → ∀ returned, execution = .returned returned →
      returned.status = .success → run.status = .success) :
    CountedOnce calendar store after dispatch execution faults now where
  index := by
    rw [index, countP_landed fresh]
    exact List.countP_le_length
  task other same := by
    cases found.symm.trans same
    exact ⟨mark, task.imp_right fun recorded => ⟨run, recorded⟩⟩
  runCount other last same left := by
    cases found.symm.trans same
    rcases task with kept | recorded
    · cases left.symm.trans kept
      exact Nat.le_succ _
    · cases left.symm.trans recorded
      exact (afterRun_runCount calendar dispatch.runId now).le
  success started returned ended fine record member own := by
    rw [index] at member
    rcases List.mem_append.mp member with old | new
    · exact absurd own (fresh record old)
    · cases List.mem_singleton.mp new
      exact success started returned ended fine

/-- A single recording counts the run at most once. -/
theorem single_counted {points : Point → Bool} (fresh : ∀ run ∈ store.index, run.id ≠ dispatch.runId)
    (began : Begun store begun)
    (success : startThrows dispatch faults = false → ∀ returned, execution = .returned returned →
      returned.status = .success → run.status = .success) :
    CountedOnce calendar store
      (begun.after (attempt (throwsAt points) (recordRun calendar begun dispatch run now))) dispatch execution
      faults now := by
  cases found : store.task with
  | none =>
      obtain ⟨none, task⟩ := attempt_gone calendar dispatch run now points (began.gone found)
      refine unrecorded_counted fresh ⟨?_, fun _ => task, fun stored same => ?_⟩
      · rw [after_index, none, List.append_nil, began.index]
      · cases found.symm.trans same
  | some stored =>
      obtain ⟨mark, marked⟩ := began.task stored found
      obtain ⟨appended, task⟩ := attempt_recordRun calendar dispatch run now points marked
      cases landed : lands points with
      | false =>
          refine unrecorded_counted fresh ⟨?_, fun none => ?_, fun other same => ?_⟩
          · rw [after_index, appended, landed, began.index]
            simp
          · cases found.symm.trans none
          · cases found.symm.trans same
            exact ⟨mark, by simpa [landed] using task⟩
      | true =>
          refine recorded_counted run mark fresh found ?_ ?_ success
          · rw [after_index, appended, landed, began.index]
            simp
          · rw [landed] at task
            cases save : points .save with
            | true => exact .inl (by simpa [save] using task)
            | false => exact .inr (by simpa [save] using task)

theorem CountedOnce.congr {other : Store} (counted : CountedOnce calendar store after dispatch execution faults now)
    (index : other.index = after.index) (task : other.task = after.task) :
    CountedOnce calendar store other dispatch execution faults now where
  index := index ▸ counted.index
  task stored found := by
    rw [task]
    exact counted.task stored found
  runCount stored last found same := counted.runCount stored last found (task ▸ same)
  success started returned ended fine record member :=
    counted.success started returned ended fine record (index ▸ member)

/-- What the recording of a failure adds to what the first recording left. -/
theorem failure_recorded (calendar : Calendar) (dispatch : Dispatch) (run : TaskRun) (now : Nat) (faults : Faults)
    {mark : Option ScheduledRunInFlight} (marked : begun.task = some { stored with scheduledRunInFlight := mark })
    (error : ThrownError) :
    let first := begun.after (attempt (throwsAt faults.first) (recordRun calendar begun dispatch run now))
    let after := first.after (recordFailure calendar first dispatch error faults now).effects
    after.index = first.index ++ (if lands faults.second then [failedRun dispatch error now] else []) ∧
      (lands faults.second = false → after.task = first.task) := by
  dsimp only
  obtain ⟨-, task⟩ := attempt_recordRun calendar dispatch run now faults.first marked
  obtain ⟨appended, last⟩ := attempt_recordRun calendar dispatch (failedRun dispatch error now) now
    faults.second task
  refine ⟨(after_index _ _).trans (congrArg _ appended), fun missed => ?_⟩
  rw [missed] at last
  exact last.trans task.symm

end Counted

end Attempts

section Iff

variable {store : Store} {dispatch : Dispatch} {execution : Execution} {faults : Faults}

theorem runningTicket_completes :
    completes (throwsAt faults.starting) (runningTicket dispatch) =
      !(dispatch.requested.isSome && faults.starting .ticket) := by
  cases asked : dispatch.requested <;>
    simp [runningTicket, writeTicket, asked, completes, throwsAt, Effect.point]

variable {begun : Store} {stored : Task} {calendar : Calendar} {now : Nat}

theorem markDispatch_completes (found : begun.task = some stored) :
    completes (throwsAt faults.starting) (markDispatch begun dispatch) =
      !(decide (dispatch.trigger = .scheduled) && faults.starting .save) := by
  by_cases scheduled : dispatch.trigger = .scheduled <;>
    simp [markDispatch, markScheduledRunInFlight, scheduled, found, completes, throwsAt, Effect.point]

/-- A dispatch is not begun, or is begun and fails, or is begun and executed. -/
theorem executeAndRecord_after (calendar : Calendar) (store : Store) (dispatch : Dispatch) (execution : Execution)
    (faults : Faults) (now : Nat) :
    ∃ begun, Begun store begun ∧
      let after := store.after (executeAndRecord calendar store dispatch execution faults now).effects
      (startThrows dispatch faults = true ∧ (after = begun ∨
          after = begun.after (recordFailure calendar begun dispatch faults.error faults now).effects)) ∨
        ((store.task = none ∨ startThrows dispatch faults = false) ∧
          after = begun.after (recordExecution calendar begun dispatch execution faults now).effects) := by
  dsimp only
  have ticketed : Begun store (store.after (runningTicket dispatch)) := writeTicket_begun ..
  cases ticket : completes (throwsAt faults.starting) (runningTicket dispatch) with
  | false =>
      have threw : startThrows dispatch faults = true := by
        simp [startThrows, by simpa using runningTicket_completes.symm.trans ticket]
      exact ⟨store, .refl store, .inl ⟨threw, .inl (by simp [executeAndRecord, ticket])⟩⟩
  | true =>
      have begun := ticketed.trans (markDispatch_begun faults.starting _ dispatch)
      refine ⟨_, begun, ?_⟩
      cases mark : completes (throwsAt faults.starting) (markDispatch (store.after (runningTicket dispatch)) dispatch)
        with
      | false =>
          refine .inl ⟨?_, .inr (by simp [executeAndRecord, ticket, mark, List.foldl_append])⟩
          cases found : store.task with
          | none =>
              have gone := ticketed.gone found
              simp [markDispatch, markScheduledRunInFlight, gone, completes] at mark
          | some stored =>
              obtain ⟨_, marked⟩ := ticketed.task stored found
              simp [startThrows, by simpa using (markDispatch_completes marked).symm.trans mark]
      | true =>
          refine .inr ⟨?_, by simp [executeAndRecord, ticket, mark, List.foldl_append]⟩
          cases found : store.task with
          | none => exact .inl rfl
          | some stored =>
              obtain ⟨_, marked⟩ := ticketed.task stored found
              have asked := Bool.not_eq_true' _ |>.mp (runningTicket_completes.symm.trans ticket)
              have scheduled := Bool.not_eq_true' _ |>.mp ((markDispatch_completes marked).symm.trans mark)
              exact .inr (by rw [startThrows, asked, scheduled]; rfl)

/-- The recording of a failure alone counts the run at most once. -/
theorem failure_counted (fresh : ∀ run ∈ store.index, run.id ≠ dispatch.runId) (began : Begun store begun)
    (error : ThrownError)
    (unfinished : startThrows dispatch faults = false → ∀ run, execution = .returned run → run.status ≠ .success) :
    CountedOnce calendar store (begun.after (recordFailure calendar begun dispatch error faults now).effects)
      dispatch execution faults now :=
  single_counted fresh began fun started run ended fine => absurd fine (unfinished started run ended)

/-- The store after the first recording of a returned run. -/
abbrev firstRecording (calendar : Calendar) (begun : Store) (dispatch : Dispatch) (run : TaskRun) (faults : Faults)
    (now : Nat) : Store :=
  begun.after (attempt (throwsAt faults.first)
    (recordRun calendar begun dispatch (withRequest dispatch.requested run) now))

/-- A returned run is recorded once, or a second time as a failure. -/
theorem recordExecution_after (calendar : Calendar) (begun : Store) (dispatch : Dispatch) (run : TaskRun)
    (faults : Faults) (now : Nat) :
    let first := firstRecording calendar begun dispatch run faults now
    begun.after (recordExecution calendar begun dispatch (.returned run) faults now).effects =
      if completes (throwsAt faults.first)
          (recordRun calendar begun dispatch (withRequest dispatch.requested run) now) then first
      else first.after (recordFailure calendar first dispatch faults.error faults now).effects := by
  simp only [recordExecution]
  split
  · rfl
  · exact List.foldl_append ..

/-- A returned run is counted once exactly when it is recorded once, or no success is recorded as a failure. -/
theorem returned_counted_iff {run : TaskRun} (fresh : ∀ run ∈ store.index, run.id ≠ dispatch.runId)
    (named : dispatch.Named (.returned run)) (began : Begun store begun) (found : store.task = some stored)
    (started : startThrows dispatch faults = false) :
    CountedOnce calendar store
        (begun.after (recordExecution calendar begun dispatch (.returned run) faults now).effects) dispatch
        (.returned run) faults now ↔ countsOnce store dispatch (.returned run) faults = true := by
  obtain ⟨mark, marked⟩ := began.task stored found
  have same : (withRequest dispatch.requested run).status = run.status := by
    unfold withRequest
    cases dispatch.requested <;> rfl
  have complete := recordRun_completes calendar dispatch (withRequest dispatch.requested run) now faults marked
  have once : CountedOnce calendar store (begun.after (attempt (throwsAt faults.first)
      (recordRun calendar begun dispatch (withRequest dispatch.requested run) now))) dispatch (.returned run)
      faults now := by
    refine single_counted fresh began fun _ other ended fine => ?_
    cases ended
    exact same.trans fine
  have recorded := recordExecution_after calendar begun dispatch run faults now
  rw [complete] at recorded
  rw [recorded]
  cases threw : firstThrows stored dispatch (withRequest dispatch.requested run) faults with
  | false => exact ⟨fun _ => by simp [countsOnce, found, threw], fun _ => once⟩
  | true =>
      simp only [Bool.not_true, Bool.false_eq_true, if_false]
      obtain ⟨index, task⟩ := failure_recorded calendar dispatch (withRequest dispatch.requested run) now
        faults marked faults.error
      have counts : countsOnce store dispatch (.returned run) faults =
          (!lands faults.second || (decide (run.status ≠ .success) && !lands faults.first)) := by
        simp [countsOnce, found, threw, started]
      rw [counts]
      cases second : lands faults.second with
      | false =>
          rw [second] at index task
          exact ⟨fun _ => rfl, fun _ => once.congr (by simpa using index) (task rfl)⟩
      | true =>
          rw [second, if_pos rfl] at index
          obtain ⟨appended, left⟩ := attempt_recordRun calendar dispatch (withRequest dispatch.requested run) now
            faults.first marked
          have total := (after_index begun _).trans (congrArg (begun.index ++ ·) appended)
          rw [began.index] at total
          cases first : lands faults.first with
          | false =>
              rw [first] at total left
              have still : Begun store (firstRecording calendar begun dispatch run faults now) :=
                ⟨by simpa using total, fun gone => (nomatch found.symm.trans gone), fun other same => by
                  cases found.symm.trans same
                  exact ⟨mark, left⟩⟩
              have failed := failedRun_id named faults.error now
              refine ⟨fun counted => ?_, fun fine => ?_⟩
              · by_cases fine : run.status = .success
                · have recorded := List.mem_append_right
                    (firstRecording calendar begun dispatch run faults now).index
                    (List.mem_singleton_self (failedRun dispatch faults.error now))
                  rw [← index] at recorded
                  exact (failedRun_status _ _ _ (counted.success started run rfl fine _ recorded failed)).elim
                · simp [fine]
              · refine failure_counted fresh still faults.error fun _ other ended => ?_
                cases ended
                simpa using fine
          | true =>
              refine ⟨fun counted => ?_, fun fine => by simp at fine⟩
              rw [first, if_pos rfl] at total
              have atMost := counted.index
              rw [index, total, List.append_assoc, countP_landed fresh] at atMost
              have own := withRequest_id named (named.returned run rfl)
              have failed := failedRun_id named faults.error now
              simp [own, failed] at atMost

/-- A dispatched run is counted once exactly when no throw makes the scheduler record it again. -/
theorem counted_once_iff (calendar : Calendar) (store : Store) (dispatch : Dispatch) (execution : Execution)
    (faults : Faults) (now : Nat) (fresh : ∀ run ∈ store.index, run.id ≠ dispatch.runId)
    (named : dispatch.Named execution) :
    CountedOnce calendar store (store.after (executeAndRecord calendar store dispatch execution faults now).effects)
        dispatch execution faults now ↔ countsOnce store dispatch execution faults = true := by
  have unfinished (threw : startThrows dispatch faults = true) : countsOnce store dispatch execution faults = true := by
    unfold countsOnce
    split <;> simp [threw]
  obtain ⟨begun, began, ⟨threw, same | same⟩ | ⟨started, same⟩⟩ :=
    executeAndRecord_after calendar store dispatch execution faults now
  · rw [same]
    exact ⟨fun _ => unfinished threw, fun _ => unrecorded_counted fresh began⟩
  · rw [same]
    refine ⟨fun _ => unfinished threw, fun _ => failure_counted fresh began _ fun started => ?_⟩
    cases threw.symm.trans started
  · rw [same]
    cases execution with
    | threw error =>
        refine ⟨fun _ => rfl, fun _ => failure_counted fresh began error fun _ run ended => ?_⟩
        cases ended
    | returned run =>
        cases found : store.task with
        | none =>
            refine ⟨fun _ => by simp [countsOnce, found], fun _ => unrecorded_counted fresh (began.trans ?_)⟩
            have first := gone_begun calendar dispatch (withRequest dispatch.requested run) now faults.first (began.gone found)
            rw [recordExecution_after]
            split
            · exact first
            · exact first.trans (gone_begun calendar dispatch (failedRun dispatch faults.error now) now faults.second
                (first.gone (began.gone found)))
        | some stored =>
            exact returned_counted_iff fresh named began found (started.resolve_left (by simp [found]))

end Iff

/-- A user runs a task by hand, and the run ends well. -/
def manualDispatch : Dispatch := ⟨.task, {}, 7, 100, .manual, none, none⟩

def manualRun : TaskRun := { id := 7, startedAt := 100, completedAt := some 200, status := .success }

def manualStore : Store := { task := some {}, definition := some {} }

/-- The report of the recorded run throws. -/
def reportThrows : Faults := { first := fun point => decide (point = .report) }

theorem manualDispatch_named : manualDispatch.Named (.returned manualRun) where
  requested _ asked := by cases asked
  returned run ended := by
    cases ended
    rfl

/-- Without a throw the run is counted once. -/
theorem counted_once_iff_quiet :
    CountedOnce plainCalendar manualStore (manualStore.after
        (executeAndRecord plainCalendar manualStore manualDispatch (.returned manualRun) {} 200).effects)
      manualDispatch (.returned manualRun) {} 200 ↔
    countsOnce manualStore manualDispatch (.returned manualRun) {} = true :=
  counted_once_iff plainCalendar manualStore manualDispatch (.returned manualRun) {} 200
    (by simp [manualStore]) manualDispatch_named

/-- A report that throws records the run a second time, as a failure. -/
theorem report_throw_counts_twice :
    ¬ ∀ (calendar : Calendar) (store : Store) (dispatch : Dispatch) (execution : Execution) (faults : Faults)
      (now : Nat), (∀ run ∈ store.index, run.id ≠ dispatch.runId) → dispatch.Named execution →
      CountedOnce calendar store
        (store.after (executeAndRecord calendar store dispatch execution faults now).effects)
        dispatch execution faults now := by
  intro claim
  have counted := claim plainCalendar manualStore manualDispatch (.returned manualRun) reportThrows 200
    (by simp [manualStore]) manualDispatch_named
  have recorded : (executeAndRecord plainCalendar manualStore manualDispatch (.returned manualRun)
      reportThrows 200).effects =
      (recordExecution plainCalendar manualStore manualDispatch (.returned manualRun) reportThrows 200).effects := by
    simp [executeAndRecord, runningTicket, writeTicket, markDispatch, manualDispatch, completes, attempt]
  rw [recorded] at counted
  have once := (returned_counted_iff (by simp [manualStore]) manualDispatch_named (.refl manualStore) rfl rfl).mp
    counted
  exact absurd once (by decide)

end NimbleBrain.Scheduler
