import NimbleBrain.McpSource.Tasks

/- A task has one outcome, and its reported status stays once it is terminal. -/

namespace NimbleBrain.McpSource.Tasks

open Library

/-- A task whose status is terminal keeps it. -/
def Keeps (handle : TaskHandle) (status : TaskStatus) : Prop :=
  isTerminalStatus handle.latestTask.status = true → handle.latestTask.status = status

instance (handle : TaskHandle) (status : TaskStatus) : Decidable (Keeps handle status) :=
  inferInstanceAs (Decidable (_ = true → _ = status))

/-- A stream that goes on after a terminal status ends the way of this status. -/
def Agrees (handle : TaskHandle) : StreamMessage → Prop
  | .taskStatus task => ∀ next ∈ task, Keeps handle next.status
  | .taskCreated => True
  | .result result => result.isSome → Keeps handle .completed
  | .error _ => Keeps handle (if handle.cancelRequested ∨ handle.aborted then .cancelled else .failed)
  | .ended => Keeps handle .failed
  | .threw _ => Keeps handle (if handle.aborted then .cancelled else .failed)

instance (handle : TaskHandle) : (message : StreamMessage) → Decidable (Agrees handle message)
  | .taskStatus task => inferInstanceAs (Decidable (∀ next ∈ task, Keeps handle next.status))
  | .taskCreated => .isTrue trivial
  | .result result => inferInstanceAs (Decidable (result.isSome → Keeps handle .completed))
  | .error _ | .ended | .threw _ => inferInstanceAs (Decidable (Keeps handle _))

/-- No stream and no late answer of the server contradicts a terminal status. -/
def Steady (state : State) : Action → Prop
  | .drainNext number message _ => ∀ handle ∈ state.handles.get? number, Agrees handle message
  | .getTaskStatusAnswered call upstream _ =>
      ∀ number ∈ state.statusReads.get? call, ∀ handle ∈ state.handles.get? number,
        ∀ task ∈ upstream, Keeps handle task.status
  | _ => True

instance (state : State) : (action : Action) → Decidable (Steady state action)
  | .drainNext number message _ =>
      inferInstanceAs (Decidable (∀ handle ∈ state.handles.get? number, Agrees handle message))
  | .getTaskStatusAnswered call upstream _ =>
      inferInstanceAs (Decidable (∀ number ∈ state.statusReads.get? call, ∀ handle ∈ state.handles.get? number,
        ∀ task ∈ upstream, Keeps handle task.status))
  | .startToolAsTask .. | .awaitToolTaskResult .. | .resume _ | .getTaskStatus .. | .cancelTask ..
  | .cancelTaskSettled .. | .sweepExpiredTasks _ | .stop | .reconnect | .abort _ => .isTrue trivial

/-- All awaiters got the outcome of the promise, and the reported status stays once it is terminal. -/
structure TaskHandle.Sound (handle : TaskHandle) : Prop where
  received : ∀ outcome ∈ handle.received, handle.terminalDeferred = some outcome
  settled : handle.terminal.isSome = true → handle.terminalDeferred.isSome = true
  drained : handle.draining = false → handle.terminalDeferred.isSome = true
  stable : handle.reported.Pairwise fun earlier later => isTerminalStatus earlier = true → later = earlier
  latest : ∀ status ∈ handle.reported, isTerminalStatus status = true → handle.latestTask.status = status

variable {handle : TaskHandle}

theorem TaskHandle.Sound.report (sound : handle.Sound) : handle.report.Sound where
  received := sound.received
  settled := sound.settled
  drained := sound.drained
  stable := by
    refine List.pairwise_append.mpr ⟨sound.stable, List.pairwise_singleton .., ?_⟩
    intro earlier listed later last terminal
    rw [List.mem_singleton.mp last]
    exact sound.latest earlier listed terminal
  latest status listed terminal := by
    rcases List.mem_append.mp listed with earlier | last
    · exact sound.latest status earlier terminal
    · exact (List.mem_singleton.mp last).symm

/-- A write that keeps a terminal status keeps the handle sound. -/
theorem TaskHandle.Sound.write (sound : handle.Sound) (task : Task) (keeps : Keeps handle task.status)
    (expiresAt : Nat) : { handle with latestTask := task, expiresAt }.Sound where
  received := sound.received
  settled := sound.settled
  drained := sound.drained
  stable := sound.stable
  latest status listed terminal := by
    have same := sound.latest status listed terminal
    exact (keeps (same ▸ terminal)).symm.trans same

/-- A promise that is settled stays so. -/
theorem TaskHandle.Sound.settle (sound : handle.Sound) (outcome : Outcome) : (handle.settle outcome).Sound where
  received other listed := by
    change handle.terminalDeferred.or (some outcome) = some other
    rw [sound.received other listed]
    rfl
  settled _ := by
    change (handle.terminalDeferred.or (some outcome)).isSome = true
    cases handle.terminalDeferred <;> rfl
  drained _ := by
    change (handle.terminalDeferred.or (some outcome)).isSome = true
    cases handle.terminalDeferred <;> rfl
  stable := sound.stable
  latest := sound.latest

theorem TaskHandle.Sound.changeAborted (sound : handle.Sound) (aborted cancelRequested : Bool) :
    { handle with aborted, cancelRequested }.Sound :=
  { sound with }

theorem TaskHandle.Sound.finish (sound : handle.Sound) (outcome : Outcome) {status : TaskStatus}
    (keeps : Keeps handle status) (statusMessage : Option String) (clock : Clock) :
    (handle.finish outcome status statusMessage clock).Sound := by
  have settled := sound.settle outcome
  have written := settled.write { handle.latestTask with status, statusMessage, lastUpdatedAt := clock.iso } keeps
    (clock.now + TASK_HANDLE_GRACE_MS)
  refine { written with drained := fun _ => ?_ }
  exact settled.settled rfl

theorem TaskHandle.Sound.giveUp (sound : handle.Sound) (message : String) : (handle.giveUp message).Sound := by
  unfold TaskHandle.giveUp
  split
  · exact sound
  · exact (sound.settle (.error message)).changeAborted true _

theorem TaskHandle.Sound.normalize (sound : handle.Sound) (iso : String) : (handle.normalize iso).Sound := by
  unfold TaskHandle.normalize
  split
  · exact sound
  · next going => exact sound.write _ (fun terminal => absurd terminal going) handle.expiresAt

variable {parseDate : String → Option Nat}

variable {message : StreamMessage}

theorem TaskHandle.Sound.drain (sound : handle.Sound) (agrees : Agrees handle message) (clock : Clock) :
    (drainTaskStream parseDate handle clock message).Sound := by
  cases message with
  | taskStatus task =>
      cases task with
      | none => exact sound
      | some task => exact (sound.write task (agrees task rfl) _).report
  | taskCreated => exact sound
  | result result =>
      cases result with
      | none => exact sound
      | some result => exact sound.finish _ (agrees rfl) _ clock
  | error message =>
      change (settleTaskError handle clock message).Sound
      unfold settleTaskError
      dsimp only
      change Keeps handle _ at agrees
      split
      · next asked => exact sound.finish _ (by rwa [if_pos (.inl asked)] at agrees) _ clock
      · next unasked =>
        have same : (if handle.cancelRequested = true ∨ handle.aborted = true then TaskStatus.cancelled else .failed) =
            if handle.aborted then .cancelled else .failed := by
          simp [unasked]
        exact sound.finish _ (same ▸ agrees) _ clock
  | ended => exact sound.finish _ agrees _ clock
  | threw message => exact sound.finish _ agrees _ clock

/-- The task that the caller asks for belongs to another owner. -/
def State.Foreign (state : State) (taskId : String) (context : TaskOwnerContext) : Prop :=
  ∀ number ∈ state.taskHandles.get? taskId, ∀ handle ∈ state.handles.get? number,
    ownerMatches handle.ownerContext context = false

/-- The same source without the task. -/
def State.without (state : State) (taskId : String) : State :=
  { state with taskHandles := state.taskHandles.delete taskId }

/-- The task is over when an outcome was recorded or a terminal status was reported. -/
def TaskHandle.Over (handle : TaskHandle) : Prop :=
  handle.terminal.isSome = true ∨ ∃ status ∈ handle.reported, isTerminalStatus status = true

structure OneOutcome (state : State) : Prop where
  same : ∀ number handle, state.handles.get? number = some handle →
    ∀ outcome ∈ handle.received, handle.terminalDeferred = some outcome
  notPending : ∀ number handle, state.handles.get? number = some handle →
    handle.terminal.isSome = true ∨ handle.draining = false → handle.terminalDeferred.isSome = true
  stable : ∀ number handle, state.handles.get? number = some handle →
    handle.reported.Pairwise fun earlier later => isTerminalStatus earlier = true → later = earlier
  cancelOver : ∀ call taskId context number handle, lookupHandle state taskId context = .ok (number, handle) →
    handle.Over → cancelTask state call taskId context = .error (.alreadyTerminal taskId handle.latestTask.status)
  foreign : ∀ call taskId context, state.Foreign taskId context →
    awaitToolTaskResult state call taskId context =
        awaitToolTaskResult (state.without taskId) call taskId context ∧
      getTaskStatus state call taskId context = getTaskStatus (state.without taskId) call taskId context ∧
        cancelTask state call taskId context = cancelTask (state.without taskId) call taskId context

variable {state after : State}

/-- Every handle there ever was is sound. -/
def Sound (state : State) : Prop := ∀ number handle, state.handles.get? number = some handle → handle.Sound

variable {context : TaskOwnerContext} {number now : Nat} {taskId : String}

theorem Sound.put (sound : Sound state) (number : Nat) (own : handle.Sound) :
    Sound (state.put number handle) := by
  intro other found here
  change (state.handles.set number handle).get? other = some found at here
  rw [OrderedMap.get?_set] at here
  split at here
  · cases here
    exact own
  · exact sound other found here

theorem lookupHandle_found (found : lookupHandle state taskId context = .ok (number, handle)) :
    state.handles.get? number = some handle := by
  unfold lookupHandle at found
  split at found
  · cases found
  · next named =>
    split at found
    · cases found
      obtain ⟨own, -, here⟩ := Option.bind_eq_some_iff.mp named
      obtain ⟨other, here, same⟩ := Option.map_eq_some_iff.mp here
      cases same
      exact here
    · cases found

theorem Sound.startToolAsTask (sound : Sound state) {toolName : String} {ownerContext : TaskOwnerContext}
    {task : Task} {aborted : Bool}
    (stepped : startToolAsTask parseDate state number toolName ownerContext task aborted now = some after) :
    Sound after := by
  unfold Tasks.startToolAsTask at stepped
  split at stepped
  · cases stepped
  · cases stepped
    apply sound.put number
    exact
      { received := fun outcome none => (List.not_mem_nil none).elim
        settled := fun none => nomatch none
        drained := fun going => nomatch going
        stable := List.pairwise_singleton ..
        latest := fun status listed _ => (List.mem_singleton.mp listed).symm }

theorem Sound.drainNext (sound : Sound state) {clock : Clock}
    (steady : Steady state (.drainNext number message clock))
    (stepped : drainNext parseDate state number message clock = some after) : Sound after := by
  unfold Tasks.drainNext at stepped
  split at stepped
  · next handle here =>
    split at stepped
    · cases stepped
      exact sound.put number ((sound number handle here).drain (steady handle here) clock)
    · cases stepped
  · cases stepped

/-- A call that throws changes nothing, and one that does not starts from the handle that it found. -/
theorem Sound.call {result : Except TaskError State} (sound : Sound state)
    (ok : ∀ next, result = .ok next → Sound next) : Sound (state.after result) := by
  cases result with
  | ok next => exact ok next rfl
  | error refusal => exact sound

theorem Sound.awaitToolTaskResult (sound : Sound state) (call : Nat) (taskId : String) (context : TaskOwnerContext) :
    Sound (state.after (awaitToolTaskResult state call taskId context)) := by
  apply sound.call
  intro next made
  unfold Tasks.awaitToolTaskResult at made
  cases looked : lookupHandle state taskId context with
  | error refusal => rw [looked] at made; cases made
  | ok found =>
      rw [looked] at made
      cases made
      exact sound

theorem Sound.resume (sound : Sound state) {call : Nat} (stepped : resume state call = some after) : Sound after := by
  obtain ⟨number, waiting, stepped⟩ := Option.bind_eq_some_iff.mp stepped
  obtain ⟨handle, here, stepped⟩ := Option.bind_eq_some_iff.mp stepped
  obtain ⟨outcome, settled, rfl⟩ := Option.map_eq_some_iff.mp stepped
  have own := sound number handle here
  apply sound.put number
  refine { own with received := fun other listed => ?_ }
  rcases List.mem_append.mp listed with earlier | last
  · exact own.received other earlier
  · rw [List.mem_singleton.mp last]
    exact settled

theorem Sound.getTaskStatus (sound : Sound state) (call : Nat) (taskId : String) (context : TaskOwnerContext) :
    Sound (state.after (getTaskStatus state call taskId context)) := by
  apply sound.call
  intro next made
  unfold Tasks.getTaskStatus at made
  cases looked : lookupHandle state taskId context with
  | error refusal => rw [looked] at made; cases made
  | ok found =>
      rw [looked] at made
      cases made
      dsimp only
      split
      · exact sound.put found.1 (sound found.1 found.2 (lookupHandle_found looked)).report
      · exact sound

theorem Sound.getTaskStatusAnswered (sound : Sound state) {call : Nat} {upstream : Option Task}
    (steady : Steady state (.getTaskStatusAnswered call upstream now))
    (stepped : getTaskStatusAnswered parseDate state call upstream now = some after) : Sound after := by
  obtain ⟨number, waiting, stepped⟩ := Option.bind_eq_some_iff.mp stepped
  obtain ⟨handle, here, rfl⟩ := Option.map_eq_some_iff.mp stepped
  have own := sound number handle here
  apply sound.put number
  cases upstream with
  | none => exact own.report
  | some task => exact (own.write task (steady number waiting handle here task rfl) _).report

theorem Sound.cancelTask (sound : Sound state) (call : Nat) (taskId : String) (context : TaskOwnerContext) :
    Sound (state.after (cancelTask state call taskId context)) := by
  apply sound.call
  intro next made
  unfold Tasks.cancelTask at made
  cases looked : lookupHandle state taskId context with
  | error refusal => rw [looked] at made; cases made
  | ok found =>
      rw [looked] at made
      change (if _ then _ else _) = _ at made
      split at made
      · cases made
      · cases made
        exact sound.put found.1 ((sound found.1 found.2 (lookupHandle_found looked)).changeAborted true true)

theorem Sound.cancelTaskSettled (sound : Sound state) {call : Nat} {iso : String}
    (stepped : cancelTaskSettled state call iso = some after) : Sound after := by
  obtain ⟨number, waiting, stepped⟩ := Option.bind_eq_some_iff.mp stepped
  obtain ⟨handle, here, stepped⟩ := Option.bind_eq_some_iff.mp stepped
  obtain ⟨outcome, settled, rfl⟩ := Option.map_eq_some_iff.mp stepped
  exact sound.put number ((sound number handle here).normalize iso).report

/-- Handles may be changed one by one. -/
theorem Sound.changed (sound : Sound state) {change : Nat → TaskHandle → Option TaskHandle}
    (here : (state.handles.filterMap change).get? number = some handle)
    (kept : ∀ before : TaskHandle, before.Sound → change number before = some handle → handle.Sound) :
    handle.Sound := by
  rw [OrderedMap.get?_filterMap] at here
  obtain ⟨before, there, made⟩ := Option.bind_eq_some_iff.mp here
  exact kept before (sound number before there) made

theorem Sound.sweepExpiredTasks (sound : Sound state) (now : Nat) : Sound (sweepExpiredTasks state now) := by
  intro number handle here
  apply sound.changed here
  intro before own made
  cases made
  split
  · exact own.giveUp _
  · exact own

theorem Sound.stop (sound : Sound state) : Sound (stop state) := by
  intro number handle here
  apply sound.changed here
  intro before own made
  cases made
  split
  · exact (own.giveUp _).changeAborted true _
  · exact own

theorem Sound.abort (sound : Sound state) (stepped : abort state number = some after) :
    Sound after := by
  obtain ⟨handle, here, rfl⟩ := Option.map_eq_some_iff.mp stepped
  exact sound.put number ((sound number handle here).changeAborted true _)

theorem Sound.step (sound : Sound state) {action : Action} (steady : Steady state action)
    (stepped : step parseDate state action = some after) : Sound after := by
  cases action with
  | startToolAsTask number toolName ownerContext task aborted now => exact sound.startToolAsTask stepped
  | drainNext number message clock => exact sound.drainNext steady stepped
  | awaitToolTaskResult call taskId context =>
      rw [Tasks.step] at stepped
      split at stepped
      · cases stepped
        exact sound.awaitToolTaskResult call taskId context
      · cases stepped
  | resume call => exact sound.resume stepped
  | getTaskStatus call taskId context =>
      rw [Tasks.step] at stepped
      split at stepped
      · cases stepped
        exact sound.getTaskStatus call taskId context
      · cases stepped
  | getTaskStatusAnswered call upstream now => exact sound.getTaskStatusAnswered steady stepped
  | cancelTask call taskId context =>
      rw [Tasks.step] at stepped
      split at stepped
      · cases stepped
        exact sound.cancelTask call taskId context
      · cases stepped
  | cancelTaskSettled call iso => exact sound.cancelTaskSettled stepped
  | sweepExpiredTasks now =>
      cases stepped
      exact sound.sweepExpiredTasks now
  | stop =>
      cases stepped
      exact sound.stop
  | reconnect =>
      cases stepped
      exact sound
  | abort number => exact sound.abort stepped

/-- A foreign task is looked up as one that does not exist. -/
theorem lookupHandle_foreign (foreign : state.Foreign taskId context) :
    lookupHandle state taskId context = .error (.notFound taskId) := by
  unfold lookupHandle
  split
  · rfl
  · next number handle named =>
    obtain ⟨own, there, here⟩ := Option.bind_eq_some_iff.mp named
    obtain ⟨other, here, same⟩ := Option.map_eq_some_iff.mp here
    cases same
    rw [foreign number there handle here]
    rfl

theorem lookupHandle_without (state : State) (taskId : String) (context : TaskOwnerContext) :
    lookupHandle (state.without taskId) taskId context = .error (.notFound taskId) := by
  have gone : (state.without taskId).taskHandles.get? taskId = none := by
    rw [State.without, OrderedMap.get?_delete, if_pos rfl]
  rw [lookupHandle, gone]
  rfl

theorem cancelTask_over (sound : Sound state) (call : Nat)
    (found : lookupHandle state taskId context = .ok (number, handle)) (ended : handle.Over) :
    cancelTask state call taskId context = .error (.alreadyTerminal taskId handle.latestTask.status) := by
  have refuses : (handle.terminal.isSome || isTerminalStatus handle.latestTask.status) = true := by
    rcases ended with recorded | ⟨status, listed, terminal⟩
    · rw [recorded, Bool.true_or]
    · rw [(sound number handle (lookupHandle_found found)).latest status listed terminal, terminal, Bool.or_true]
  rw [cancelTask, found]
  exact if_pos refuses

theorem OneOutcome.of_sound (sound : Sound state) : OneOutcome state where
  same number handle here := (sound number handle here).received
  notPending number handle here ended := ended.elim (sound number handle here).settled (sound number handle here).drained
  stable number handle here := (sound number handle here).stable
  cancelOver call taskId context number handle found ended := cancelTask_over sound call found ended
  foreign call taskId context foreign := by
    have none := lookupHandle_foreign foreign
    have gone := lookupHandle_without state taskId context
    refine ⟨?_, ?_, ?_⟩
    · rw [awaitToolTaskResult, awaitToolTaskResult, none, gone]
      rfl
    · rw [getTaskStatus, getTaskStatus, none, gone]
      rfl
    · rw [cancelTask, cancelTask, none, gone]
      rfl

theorem task_has_one_outcome (reached : (TaskSystem parseDate).ReachedBy Steady state) : OneOutcome state := by
  apply OneOutcome.of_sound
  apply reached.invariant Sound
  · rintro _ rfl number handle none
    cases none
  · exact fun before action after sound steady stepped => sound.step steady stepped

/-- A task of one owner that is asked for and awaited. -/
def owner : TaskOwnerContext := { workspaceId := "ws_main" }

def exportTask (status : TaskStatus) : Task := { taskId := "t1", status, createdAt := "t0", lastUpdatedAt := "t0" }

def asked : List Action :=
  [.startToolAsTask 0 "export" owner (exportTask .working) false 0, .awaitToolTaskResult 0 "t1" owner,
    .getTaskStatus 1 "t1" owner]

def answeredInTime : List Action :=
  asked ++ [.getTaskStatusAnswered 1 (some (exportTask .working)) 1,
    .drainNext 0 (.result (some { content := "[]" })) ⟨2, "t2"⟩, .resume 0, .getTaskStatus 2 "t1" owner]

theorem task_has_one_outcome_in_time :
    ∃ state ∈ (TaskSystem fun _ => none).run {} answeredInTime,
      (state.handles.get? 0).any (fun handle => handle.reported = [.working, .working, .completed]) = true ∧
        OneOutcome state := by
  have ran : ((TaskSystem fun _ => none).run {} answeredInTime).any (fun state =>
      (state.handles.get? 0).any fun handle => handle.reported = [.working, .working, .completed]) = true := by
    decide +kernel
  have meets : (TaskSystem fun _ => none).Meets Steady {} answeredInTime := by decide +kernel
  obtain ⟨state, ran, reported⟩ := Option.any_eq_true .. |>.mp ran
  exact ⟨state, ran, reported, task_has_one_outcome ((System.ReachedBy.start {} rfl).run meets ran)⟩

/-- The answer of a live read comes after the task was reported completed. -/
def answeredLate : List Action :=
  asked ++ [.drainNext 0 (.result (some { content := "[]" })) ⟨2, "t2"⟩, .getTaskStatus 2 "t1" owner,
    .getTaskStatusAnswered 1 (some (exportTask .working)) 3]

theorem task_status_undone :
    ¬ ∀ state, (TaskSystem fun _ => none).Reachable state → OneOutcome state := by
  intro all
  have ran : ((TaskSystem fun _ => none).run {} answeredLate).any (fun state =>
      (state.handles.get? 0).any fun handle => handle.reported = [.working, .completed, .working]) = true := by
    decide +kernel
  obtain ⟨state, ran, reported⟩ := Option.any_eq_true .. |>.mp ran
  obtain ⟨handle, here, reported⟩ := Option.any_eq_true .. |>.mp reported
  have stable := (all state (System.Reachable.run (System.ReachedBy.start {} rfl) ran)).stable 0 handle here
  rw [of_decide_eq_true reported] at stable
  exact absurd stable (by decide)

end NimbleBrain.McpSource.Tasks
