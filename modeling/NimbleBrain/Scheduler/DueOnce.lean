import NimbleBrain.Library.History
import NimbleBrain.Scheduler.NextRun

/- A due occurrence of a cron or interval task is run or skipped once, and the timer does not spin. -/

namespace NimbleBrain.Scheduler

open Library History Tasks

section Statement

/-- A due next run is replaced by the run that was dispatched for it, by its skip, by an edit, or by a run that turns
the task off. -/
def Allowed (log : List SeatEvent) (occurrence : Nat) : Writer → Prop
  | .run runId turnedOff => turnedOff = true ∨ .dispatched runId occurrence ∈ log
  | .skip => .skipped occurrence ∈ log
  | .edit => True
  | .reload => False

/-- A due occurrence is neither lost nor settled twice. -/
structure SettlesOnce (log : List SeatEvent) : Prop where
  replaced : ∀ occurrence writer, .replaced occurrence writer ∈ log → Allowed log occurrence writer
  apart : ∀ runId occurrence, .dispatched runId occurrence ∈ log → .skipped occurrence ∉ log
  once : ∀ first second occurrence, .dispatched first occurrence ∈ log → .dispatched second occurrence ∈ log →
    first = second
  later : ∀ moment task, .settled moment task ∈ log → task.SettledAt moment

def FleetEvent.isOfTimer : FleetEvent → Bool
  | .armed _ | .ticked _ => true
  | .other => false

/-- The tick of a timer that was armed for a due task starts a run or moves a next run. -/
structure SettlesDue (fleet : Fleet) : Prop where
  seats : ∀ seat ∈ fleet.seats, SettlesOnce seat.log
  progress : Precludes (.armed true) FleetEvent.isOfTimer (.ticked false) fleet.log

variable (calendar : Calendar)

/-- A reload would clear the due next run, which is no moment of the cron. -/
def Seat.isCleared (seat : Seat) (now : Nat) : Bool :=
  seat.owes now && seat.store.task.any fun task =>
    (nextRunOrNone calendar task now).isNone && !isPendingOccurrence calendar task

/-- The run of the due occurrence is under way. -/
def Seat.runsDue (seat : Seat) (now : Nat) : Bool :=
  (seat.store.task.any (isDue · now)) &&
    seat.process.active.any fun dispatch => decide (.dispatched dispatch.runId seat.occurrence ∈ seat.log)

/-- A run is recorded while nothing else is due, a tick finds no due task that runs already, a reload clears no due
next run, and the tick of an immediate timer comes at once. -/
def Orderly (fleet : Fleet) : FleetAction → Prop
  | .tick => (∀ seat ∈ fleet.seats, seat.runsDue fleet.now = false) ∧
      (fleet.timer.any Timer.isImmediate = true → fleet.log.head? = some (.armed true))
  | .reload => ∀ seat ∈ fleet.seats, seat.isCleared calendar fleet.now = false
  | .edit place _ | .disableAtCeiling place =>
      ∀ seat ∈ fleet.seats.eraseIdx place, seat.isCleared calendar fleet.now = false
  | .endRun place run execution faults => ∀ seat ∈ fleet.seats[place]?, ∀ dispatch ∈ seat.process.active[run]?,
      seat.owes fleet.now = true → .dispatched dispatch.runId seat.occurrence ∈ seat.log ∧ dispatch.trigger = .scheduled ∨
        seat.store.task.any (fun task => dispatch.turnsOff calendar fleet.now task
          (recordedRuns calendar seat.store dispatch execution faults fleet.now)) = true
  | .wait _ | .rearm _ | .requestRunNow .. | .runFromEvent .. | .requestBatchRun .. | .startQueued .. | .leaveQueue ..
    | .release .. | .otherSources .. => True

instance (fleet : Fleet) (action : FleetAction) : Decidable (Orderly calendar fleet action) := by
  cases action <;> unfold Orderly <;> infer_instance

end Statement

/-- The occurrence that a dispatch or a skip names is not ahead of the current one. -/
structure Occurrences (current : Nat) (active : List Dispatch) (log : List SeatEvent) : Prop where
  settles : SettlesOnce log
  dispatched : ∀ runId occurrence, .dispatched runId occurrence ∈ log → occurrence ≤ current ∧
    (occurrence = current → ∃ dispatch ∈ active, dispatch.runId = runId ∧ dispatch.runKey = .task ∧
      dispatch.trigger = .scheduled)
  skipped : ∀ occurrence, .skipped occurrence ∈ log → occurrence < current

variable {current later : Nat} {active other : List Dispatch} {log : List SeatEvent}

theorem Allowed.cons {occurrence : Nat} {writer : Writer} (allowed : Allowed log occurrence writer) (event : SeatEvent) :
    Allowed (event :: log) occurrence writer := by
  cases writer with
  | run runId turnedOff => exact allowed.imp_right (List.mem_cons_of_mem _)
  | skip => exact List.mem_cons_of_mem _ allowed
  | edit => trivial
  | reload => exact allowed

/-- An event that is neither a dispatch nor a skip. -/
theorem SettlesOnce.cons (settles : SettlesOnce log) {event : SeatEvent}
    (notDispatched : ∀ runId occurrence, event ≠ .dispatched runId occurrence)
    (notSkipped : ∀ occurrence, event ≠ .skipped occurrence)
    (allowed : ∀ occurrence writer, event = .replaced occurrence writer → Allowed log occurrence writer)
    (settled : ∀ moment task, event = .settled moment task → task.SettledAt moment) : SettlesOnce (event :: log) where
  replaced := fun occurrence writer listed => by
    rcases List.mem_cons.mp listed with same | old
    · exact (allowed occurrence writer same.symm).cons event
    · exact (settles.replaced occurrence writer old).cons event
  apart := fun runId occurrence listed skipped =>
    settles.apart runId occurrence
      ((List.mem_cons.mp listed).resolve_left fun same => notDispatched _ _ same.symm)
      ((List.mem_cons.mp skipped).resolve_left fun same => notSkipped _ same.symm)
  once := fun first second occurrence one two =>
    settles.once first second occurrence
      ((List.mem_cons.mp one).resolve_left fun same => notDispatched _ _ same.symm)
      ((List.mem_cons.mp two).resolve_left fun same => notDispatched _ _ same.symm)
  later := fun moment task listed => by
    rcases List.mem_cons.mp listed with same | old
    · exact settled moment task same.symm
    · exact settles.later moment task old

namespace Occurrences

theorem replaced (occurrences : Occurrences current active log) {occurrence : Nat} {writer : Writer}
    (allowed : Allowed log occurrence writer) : Occurrences current active (.replaced occurrence writer :: log) where
  settles := by
    refine occurrences.settles.cons (fun _ _ same => ?_) (fun _ same => ?_) (fun _ _ same => ?_) fun _ _ same => ?_
    · cases same
    · cases same
    · cases same
      exact allowed
    · cases same
  dispatched := fun runId occurrence listed =>
    occurrences.dispatched runId occurrence ((List.mem_cons.mp listed).resolve_left nofun)
  skipped := fun occurrence listed => occurrences.skipped occurrence ((List.mem_cons.mp listed).resolve_left nofun)

theorem settled (occurrences : Occurrences current active log) {moment : Nat} {task : Task}
    (settled : task.SettledAt moment) : Occurrences current active (.settled moment task :: log) where
  settles := by
    refine occurrences.settles.cons (fun _ _ same => ?_) (fun _ same => ?_) (fun _ _ same => ?_) fun _ _ same => ?_
    · cases same
    · cases same
    · cases same
    · cases same
      exact settled
  dispatched := fun runId occurrence listed =>
    occurrences.dispatched runId occurrence ((List.mem_cons.mp listed).resolve_left nofun)
  skipped := fun occurrence listed => occurrences.skipped occurrence ((List.mem_cons.mp listed).resolve_left nofun)

/-- A new occurrence has no dispatch and no skip yet. -/
theorem advance (occurrences : Occurrences current active log) (ahead : current < later) :
    Occurrences later other log where
  settles := occurrences.settles
  dispatched := fun runId occurrence listed => by
    have := (occurrences.dispatched runId occurrence listed).1
    exact ⟨by omega, fun same => by omega⟩
  skipped := fun occurrence listed => (occurrences.skipped occurrence listed).trans ahead

theorem keep (occurrences : Occurrences current active log)
    (kept : ∀ dispatch ∈ active, dispatch.trigger = .scheduled → dispatch ∈ other) :
    Occurrences current other log where
  settles := occurrences.settles
  dispatched := fun runId occurrence listed => by
    obtain ⟨behind, running⟩ := occurrences.dispatched runId occurrence listed
    refine ⟨behind, fun same => ?_⟩
    obtain ⟨dispatch, found, named, own, scheduled⟩ := running same
    exact ⟨dispatch, kept dispatch found scheduled, named, own, scheduled⟩
  skipped := occurrences.skipped

/-- A task without a run of its own has not been dispatched for the occurrence. -/
theorem dispatch (occurrences : Occurrences current active log) {dispatch : Dispatch}
    (own : dispatch.runKey = .task) (scheduled : dispatch.trigger = .scheduled)
    (idle : ∀ running ∈ active, running.runKey ≠ .task) :
    Occurrences current (active ++ [dispatch]) (.dispatched dispatch.runId current :: log) := by
  have fresh : ∀ runId, .dispatched runId current ∉ log := by
    intro runId listed
    obtain ⟨running, found, -, task, -⟩ := (occurrences.dispatched runId current listed).2 rfl
    exact idle running found task
  exact {
    settles :=
      { replaced := fun occurrence writer listed =>
          (occurrences.settles.replaced occurrence writer ((List.mem_cons.mp listed).resolve_left nofun)).cons _
        apart := fun runId occurrence listed skipped => by
          have skipped := (List.mem_cons.mp skipped).resolve_left nofun
          rcases List.mem_cons.mp listed with same | old
          · cases same
            exact Nat.lt_irrefl _ (occurrences.skipped current skipped)
          · exact occurrences.settles.apart runId occurrence old skipped
        once := fun first second occurrence one two => by
          rcases List.mem_cons.mp one with same | old <;> rcases List.mem_cons.mp two with same' | old'
          · cases same
            cases same'
            rfl
          · cases same
            exact absurd old' (fresh second)
          · cases same'
            exact absurd old (fresh first)
          · exact occurrences.settles.once first second occurrence old old'
        later := fun moment task listed =>
          occurrences.settles.later moment task ((List.mem_cons.mp listed).resolve_left nofun) }
    dispatched := fun runId occurrence listed => by
      rcases List.mem_cons.mp listed with same | old
      · cases same
        exact ⟨le_rfl, fun _ => ⟨dispatch, List.mem_append_right _ (List.mem_singleton_self _), rfl, own, scheduled⟩⟩
      · obtain ⟨behind, running⟩ := occurrences.dispatched runId occurrence old
        exact ⟨behind, fun same => (running same).imp fun _ found => ⟨List.mem_append_left _ found.1, found.2⟩⟩
    skipped := fun occurrence listed => occurrences.skipped occurrence ((List.mem_cons.mp listed).resolve_left nofun) }

/-- An occurrence that was not dispatched is skipped, and another one is ahead. -/
theorem skip (occurrences : Occurrences current active log) (fresh : ∀ runId, .dispatched runId current ∉ log) :
    Occurrences (current + 1) other (.skipped current :: log) where
  settles :=
    { replaced := fun occurrence writer listed =>
        (occurrences.settles.replaced occurrence writer ((List.mem_cons.mp listed).resolve_left nofun)).cons _
      apart := fun runId occurrence listed skipped => by
        have listed := (List.mem_cons.mp listed).resolve_left nofun
        rcases List.mem_cons.mp skipped with same | old
        · cases same
          exact fresh runId listed
        · exact occurrences.settles.apart runId occurrence listed old
      once := fun first second occurrence one two =>
        occurrences.settles.once first second occurrence ((List.mem_cons.mp one).resolve_left nofun)
          ((List.mem_cons.mp two).resolve_left nofun)
      later := fun moment task listed =>
        occurrences.settles.later moment task ((List.mem_cons.mp listed).resolve_left nofun) }
  dispatched := fun runId occurrence listed => by
    have := (occurrences.dispatched runId occurrence ((List.mem_cons.mp listed).resolve_left nofun)).1
    exact ⟨by omega, fun same => by omega⟩
  skipped := fun occurrence listed => by
    rcases List.mem_cons.mp listed with same | old
    · cases same
      omega
    · exact (occurrences.skipped occurrence old).trans (Nat.lt_succ_self _)

end Occurrences

section Seats

/-- The memory agrees with the file of a timed task, and only the runs that were asked for wait. -/
structure Seat.Sound (seat : Seat) : Prop where
  inSync : seat.store.definition = seat.store.task
  timed : ∃ task, seat.store.task = some task ∧ task.isTimed = true
  queued : ∀ run ∈ seat.process.queue, run.trigger ≠ .scheduled
  log : Occurrences seat.occurrence seat.process.active seat.log

variable {calendar : Calendar} {seat after : Seat} {task : Task} {turn : Turn} {now : Nat} {nextRunId : RunId}

theorem Seat.Fresh.sound (fresh : seat.Fresh) : seat.Sound where
  inSync := fresh.inSync
  timed := (Option.any_eq_true .. |>.mp fresh.timed).imp fun _ found => found
  queued := by
    rw [fresh.process]
    exact fun _ listed => nomatch listed
  log := by
    rw [fresh.log]
    exact
      { settles :=
          { replaced := fun _ _ listed => nomatch listed
            apart := fun _ _ listed => nomatch listed
            once := fun _ _ _ listed => nomatch listed
            later := fun _ _ listed => nomatch listed }
        dispatched := fun _ _ listed => nomatch listed
        skipped := fun _ listed => nomatch listed }

theorem Seat.isMoved_false (left : (seat.store.after turn.effects).task = some task)
    (same : task.nextRunAt = seat.nextRunAt) : seat.isMoved turn = false := by
  rw [isMoved, left]
  simpa using same

/-- A turn is taken when the writer may replace what is due, and what settles leaves the next run ahead. -/
theorem Seat.Sound.take {writer : Writer} {settles : Bool} {events : List SeatEvent}
    (inSync : (seat.store.after turn.effects).definition = (seat.store.after turn.effects).task)
    (left : (seat.store.after turn.effects).task = some task) (timed : task.isTimed = true)
    (queued : ∀ run ∈ turn.process.queue, run.trigger ≠ .scheduled)
    (log : Occurrences (if settles || seat.isMoved turn then seat.occurrence + 1 else seat.occurrence)
      turn.process.active (events ++ seat.log))
    (settled : settles = true → task.SettledAt now)
    (allowed : seat.owes now = true → seat.isMoved turn = true → Allowed (events ++ seat.log) seat.occurrence writer) :
    (seat.take now turn writer settles events).Sound where
  inSync := inSync
  timed := ⟨task, left, timed⟩
  queued := queued
  log := by
    have noted : Occurrences (if settles || seat.isMoved turn then seat.occurrence + 1 else seat.occurrence)
        turn.process.active
        ((if seat.owes now && seat.isMoved turn then [.replaced seat.occurrence writer] else []) ++ events ++ seat.log) := by
      cases replaces : seat.owes now && seat.isMoved turn with
      | false => exact log
      | true =>
          obtain ⟨owes, moved⟩ := Bool.and_eq_true_iff.mp replaces
          exact log.replaced (allowed owes moved)
    unfold Seat.take
    dsimp only
    cases settles with
    | false => exact noted
    | true =>
        rw [left]
        exact noted.settled (settled rfl)

/-- A calm turn changes no occurrence. -/
theorem Seat.Sound.calm (sound : seat.Sound) (calm : (seat.world now nextRunId).Calm seat.process turn)
    (writer : Writer) : (seat.take now turn writer false []).Sound := by
  obtain ⟨task, found, timed⟩ := sound.timed
  have left : (seat.store.after turn.effects).task = some task := calm.passes.ends.trans found
  have still := Seat.isMoved_false left (by rw [Seat.nextRunAt, found]; rfl)
  refine .take calm.passes.inSync left timed calm.queued ?_ nofun fun _ moved => ?_
  · rw [still]
    exact sound.log.keep fun dispatch listed _ => calm.active dispatch listed
  · exact absurd (still.symm.trans moved) Bool.false_ne_true

theorem Seat.Sound.operate (sound : seat.Sound) {operation : Operation}
    (asks : match operation with
      | .requestRunNow .. | .runFromEvent _ | .requestBatchRun .. | .startQueued _ | .leaveQueue .. => True
      | _ => False)
    (operated : seat.operate calendar now nextRunId operation = some after) : after.Sound := by
  obtain ⟨turn, turned, rfl⟩ := Option.map_eq_some_iff.mp operated
  exact sound.calm (World.Calm.turn sound.inSync sound.queued asks turned) _

theorem isRunning_iff {process : Process} :
    process.isRunning = true ↔ ∃ dispatch ∈ process.active, dispatch.runKey = .task := by
  simp [Process.isRunning]

/-- A tick skips only what is not running for the occurrence. -/
theorem Seat.Sound.consider (sound : seat.Sound) (forward : calendar.IsForward) (freeSlot : Bool)
    (apart : seat.runsDue now = false) : (seat.consider calendar now nextRunId freeSlot).Sound := by
  obtain ⟨task, found, timed⟩ := sound.timed
  have loaded : seat.store.definition = some task := sound.inSync.trans found
  unfold Seat.consider
  simp only [loaded]
  rcases World.considerForDispatch_cases calendar (seat.world now nextRunId) seat.process task freeSlot with
    passed | ⟨due, running, skipped⟩ | ⟨due, idle, dispatched⟩
  · rw [passed, if_neg (Nat.lt_irrefl seat.process.active.length)]
    exact sound
  · have passes := @World.skipRun_passes (seat.world now nextRunId) task calendar seat.process found
    have none' : ¬ seat.process.active.length < ((seat.world now nextRunId).skipRun calendar seat.process none none
        false).process.active.length := Nat.lt_irrefl _
    rw [skipped, if_neg none', if_neg (by simp [World.skipRun, recordSkipped])]
    refine .take passes.inSync passes.ends ((Task.isTimed_congr rfl).trans timed) sound.queued ?_
      (fun _ => skippedTask_settled forward timed) fun _ _ => List.mem_cons_self
    refine sound.log.skip fun runId listed => ?_
    obtain ⟨dispatch, found', named, -⟩ := (sound.log.dispatched runId _ listed).2 rfl
    have runs : seat.runsDue now = true := by
      rw [Seat.runsDue, found]
      exact Bool.and_eq_true_iff.mpr ⟨due, List.any_eq_true.mpr ⟨dispatch, found', decide_eq_true (named.symm ▸ listed)⟩⟩
    cases apart.symm.trans runs
  · have passes := @World.dispatchRun_passes (seat.world now nextRunId) task seat.process found
    obtain ⟨mark, left⟩ := passes.ends
    have still := Seat.isMoved_false left (by rw [Seat.nextRunAt, found]; rfl)
    rw [dispatched, if_pos (by simp [World.dispatchRun])]
    refine .take passes.inSync left ((Task.isTimed_congr rfl).trans timed) sound.queued ?_ (by rintro ⟨⟩) fun _ moved => ?_
    · rw [still]
      refine sound.log.dispatch rfl rfl fun running listed own => ?_
      cases idle.symm.trans (isRunning_iff.mpr ⟨running, listed, own⟩)
    · exact absurd (still.symm.trans moved) Bool.false_ne_true

/-- What a run leaves replaces a due next run only when the run was dispatched for it or turns the task off. -/
theorem Seat.Sound.endRun (sound : seat.Sound) (forward : calendar.IsForward) {place : Nat} {execution : Execution}
    {faults : Faults} (dated : Fleet.isDated now execution = true)
    (apart : ∀ dispatch ∈ seat.process.active[place]?, seat.owes now = true →
      .dispatched dispatch.runId seat.occurrence ∈ seat.log ∧ dispatch.trigger = .scheduled ∨
        seat.store.task.any (fun task => dispatch.turnsOff calendar now task
          (recordedRuns calendar seat.store dispatch execution faults now)) = true)
    (ended : seat.endRun calendar now nextRunId place execution faults = some after) : after.Sound := by
  obtain ⟨dispatch, active, ended⟩ := Option.bind_eq_some_iff.mp ended
  obtain ⟨turn, turned, rfl⟩ := Option.map_eq_some_iff.mp ended
  obtain ⟨spares, turned⟩ := Option.ite_none_right_eq_some.mp turned
  obtain ⟨dispatch', active', rfl⟩ := Option.map_eq_some_iff.mp turned
  cases active.symm.trans active'
  obtain ⟨task, found, timed⟩ := sound.timed
  have passes := @World.endRun_passes calendar (seat.world now nextRunId) seat.process task dispatch execution faults
    sound.inSync found spares
  have left := passes.ends
  obtain ⟨some', all⟩ := @recordedRuns_dated calendar dispatch now seat.store execution faults dated
  refine .take passes.inSync left (Dispatch.records_timed timed) sound.queued ?_ (fun _ => ?_) fun owes moved => ?_
  · split
    · exact sound.log.advance (Nat.lt_succ_self _)
    · next unsettled =>
        refine sound.log.keep fun other listed scheduled => ?_
        refine (List.mem_erase_of_ne ?_).mpr listed
        rintro rfl
        simp [scheduled] at unsettled
  · exact Dispatch.records_settled forward timed all fun empty => absurd empty some'
  · rcases apart dispatch active owes with ⟨own, -⟩ | off
    · exact .inr own
    · rw [found, Option.any_some] at off
      refine .inl ((Option.any_eq_true ..).mpr ⟨_, left, ?_⟩)
      rw [Bool.not_eq_true']
      exact Dispatch.records_turnsOff timed off

/-- A reload that clears nothing due places only what was absent or not due. -/
theorem Seat.Sound.reload (sound : seat.Sound) (uncleared : seat.isCleared calendar now = false) :
    (seat.reload calendar now).Sound := by
  obtain ⟨task, found, timed⟩ := sound.timed
  have passes := @reload_leaves calendar seat.store now
  have left := passes.ends
  rw [found, Option.map_some] at left
  refine .take passes.inSync left (reconcileNextRunAt_timed timed) sound.queued ?_ nofun fun owes moved => ?_
  · split
    · exact sound.log.advance (Nat.lt_succ_self _)
    · exact sound.log
  · exfalso
    have owed : task.owes now = true := by rw [Seat.owes, found] at owes; exact owes
    have placed : task.nextRunAt.isSome = true := by
      obtain ⟨next, placed, -⟩ := Option.any_eq_true .. |>.mp (Bool.and_eq_true_iff.mp owed).2
      rw [placed]
      rfl
    rw [Seat.isCleared, owes, found, Bool.true_and, Option.any_some] at uncleared
    have kept : reconcileNextRunAt calendar task now = none := by
      unfold reconcileNextRunAt
      cases next : nextRunOrNone calendar task now with
      | none =>
          rw [next] at uncleared
          simp [show isPendingOccurrence calendar task = true by simpa using uncleared]
      | some moment => simp [Option.isSome_iff_ne_none.mp placed]
    rw [Seat.isMoved_false left (by rw [kept, Seat.nextRunAt, found]; rfl)] at moved
    cases moved

/-- An edit may place the task anew. -/
theorem Seat.Sound.edit (sound : seat.Sound) (timed : task.isTimed = true) :
    (seat.edit calendar now nextRunId task).Sound := by
  have passes : seat.store.Passes ((seat.world now nextRunId).writeAndReload calendar seat.process
      (.saveTask task)).effects (fun _ => True)
      fun file => file = some ((reconcileNextRunAt calendar task now).getD task) :=
    .cons trivial reload_leaves
  refine .take passes.inSync passes.ends (reconcileNextRunAt_timed timed) sound.queued ?_ nofun fun _ _ => trivial
  split
  · exact sound.log.advance (Nat.lt_succ_self _)
  · exact sound.log

end Seats

section Sweeps

variable {calendar : Calendar} {maxConcurrentRuns : Nat} {fleet : Fleet} {seat : Seat} {place : Nat} {places : List Nat}

def Seat.isDue (seat : Seat) (now : Nat) : Bool := seat.store.task.any (Scheduler.isDue · now)

theorem Fleet.consider_now : (fleet.consider calendar maxConcurrentRuns place).now = fleet.now := by
  unfold consider
  split <;> rfl

theorem Fleet.consider_log : (fleet.consider calendar maxConcurrentRuns place).log = fleet.log := by
  unfold consider
  split <;> rfl

theorem Fleet.consider_other {other : Nat} (apart : place ≠ other) :
    (fleet.consider calendar maxConcurrentRuns place).seats[other]? = fleet.seats[other]? := by
  unfold consider
  split
  · rfl
  · exact List.getElem?_set_ne apart

theorem Fleet.sweep_other {other : Nat} (apart : other ∉ places) :
    (fleet.sweep calendar maxConcurrentRuns places).seats[other]? = fleet.seats[other]? := by
  induction places generalizing fleet with
  | nil => rfl
  | cons place rest ih =>
      rw [List.mem_cons, not_or] at apart
      exact (ih apart.2).trans (Fleet.consider_other (Ne.symm apart.1))

theorem Fleet.sweep_log : (fleet.sweep calendar maxConcurrentRuns places).log = fleet.log := by
  induction places generalizing fleet with
  | nil => rfl
  | cons place rest ih => exact ih.trans Fleet.consider_log

/-- A seat of the list stands at a place of it. -/
theorem mem_set {seats : List Seat} {other : Seat} (listed : other ∈ seats.set place seat) :
    other = seat ∨ other ∈ seats := (List.mem_or_eq_of_mem_set listed).symm

/-- A sweep looks at every task once. -/
theorem Fleet.sweep_sound (forward : calendar.IsForward) (nodup : places.Nodup)
    (sound : ∀ seat ∈ fleet.seats, seat.Sound)
    (apart : ∀ place ∈ places, ∀ seat ∈ fleet.seats[place]?, seat.runsDue fleet.now = false) :
    ∀ seat ∈ (fleet.sweep calendar maxConcurrentRuns places).seats, seat.Sound := by
  induction places generalizing fleet with
  | nil => exact sound
  | cons place rest ih =>
      obtain ⟨fresh, nodup⟩ := List.nodup_cons.mp nodup
      refine ih nodup ?_ fun other listed seat found => ?_
      · unfold consider
        split
        · exact sound
        · next seat found =>
            intro other listed
            rcases mem_set listed with rfl | old
            · exact (sound seat (List.mem_of_getElem? found)).consider forward _
                (apart place List.mem_cons_self seat found)
            · exact sound other old
      · have apart' : place ≠ other := fun same => fresh (same.symm ▸ listed)
        rw [Fleet.consider_other apart'] at found
        rw [Fleet.consider_now]
        exact apart other (List.mem_cons_of_mem _ listed) seat found

theorem Fleet.byNextRunAt_nodup (fleet : Fleet) : fleet.byNextRunAt.Nodup :=
  (List.perm_insertionSort _ _).nodup_iff.mpr List.nodup_range

theorem Fleet.mem_byNextRunAt : place ∈ fleet.byNextRunAt ↔ place < fleet.seats.length :=
  (List.mem_insertionSort _).trans List.mem_range

/-- A run that starts or a next run that moves at one place is progress. -/
theorem Fleet.hasProgressed_of (place : Nat) {before after : List Seat} {old new : Seat}
    (found : before[place]? = some old) (found' : after[place]? = some new)
    (moved : old.process.active.length < new.process.active.length ∨ new.nextRunAt ≠ old.nextRunAt) :
    hasProgressed before after = true := by
  refine List.any_eq_true.mpr ⟨(old, new), List.mem_of_getElem? (i := place) ?_, ?_⟩
  · exact List.getElem?_zip_eq_some.mpr ⟨found, found'⟩
  · rcases moved with longer | moved
    · simp [longer]
    · simp [moved]

variable {now : Nat}

/-- A task that is not due is passed by. -/
theorem Seat.consider_notDue (sound : seat.Sound) {nextRunId : RunId} {freeSlot : Bool}
    (notDue : seat.isDue now = false) : seat.consider calendar now nextRunId freeSlot = seat := by
  obtain ⟨task, found, -⟩ := sound.timed
  unfold consider
  simp only [sound.inSync.trans found]
  have passed : (seat.world now nextRunId).considerForDispatch calendar seat.process task freeSlot =
      { process := seat.process } := by
    rcases World.considerForDispatch_cases calendar (seat.world now nextRunId) seat.process task freeSlot with
      passed | ⟨due, -⟩ | ⟨due, -⟩
    · exact passed
    · rw [isDue, found] at notDue
      cases notDue.symm.trans due
    · rw [isDue, found] at notDue
      cases notDue.symm.trans due
  rw [passed, if_neg (Nat.lt_irrefl seat.process.active.length)]
  rfl

/-- A due task starts or moves while a slot is free. -/
theorem Seat.consider_due (sound : seat.Sound) (forward : calendar.IsForward) (nextRunId : RunId)
    (due : seat.isDue now = true) (empty : seat.process.queue.isEmpty = true) :
    seat.process.active.length < (seat.consider calendar now nextRunId true).process.active.length ∨
      (seat.consider calendar now nextRunId true).nextRunAt ≠ seat.nextRunAt := by
  obtain ⟨task, found, timed⟩ := sound.timed
  rw [isDue, found, Option.any_some] at due
  have unqueued : seat.process.isQueued = false := by
    rw [Process.isQueued, List.isEmpty_iff.mp empty]
    rfl
  unfold consider
  simp only [sound.inSync.trans found]
  rcases World.considerForDispatch_due calendar (seat.world now nextRunId) due unqueued with skipped | dispatched
  · right
    have passes := @World.skipRun_passes (seat.world now nextRunId) task calendar seat.process found
    have none' : ¬ seat.process.active.length < ((seat.world now nextRunId).skipRun calendar seat.process none none
        false).process.active.length := Nat.lt_irrefl _
    rw [skipped, if_neg none', if_neg (by simp [World.skipRun, recordSkipped])]
    have settled := @skippedTask_settled calendar task now forward timed
    intro same
    have next : (skippedTask calendar task now).nextRunAt = task.nextRunAt := by
      have left := (congrArg (Option.bind · Task.nextRunAt) passes.ends).symm.trans same
      rw [nextRunAt, found] at left
      exact left
    have again : Scheduler.isDue (skippedTask calendar task now) now = Scheduler.isDue task now := by
      simp only [Scheduler.isDue, next]
      rfl
    cases settled.notDue.symm.trans (again.trans due)
  · left
    have longer : seat.process.active.length < ((seat.world now nextRunId).dispatchRun seat.process .task task
        .scheduled none).process.active.length := by simp [World.dispatchRun]
    rw [dispatched, if_pos longer]
    exact longer

theorem Fleet.queue_isEmpty (free : fleet.hasFreeSlot maxConcurrentRuns = true) (listed : seat ∈ fleet.seats) :
    seat.process.queue.isEmpty = true :=
  List.all_eq_true.mp (Bool.and_eq_true_iff.mp free).2 seat listed

/-- A sweep that finds a task due and a slot free starts a run or moves a next run. -/
theorem Fleet.sweep_progresses (forward : calendar.IsForward) (nodup : places.Nodup)
    (sound : ∀ seat ∈ fleet.seats, seat.Sound) (free : fleet.hasFreeSlot maxConcurrentRuns = true)
    (listed : place ∈ places) (found : fleet.seats[place]? = some seat) (due : seat.isDue fleet.now = true) :
    hasProgressed fleet.seats (fleet.sweep calendar maxConcurrentRuns places).seats = true := by
  induction places generalizing fleet with
  | nil => cases listed
  | cons head rest ih =>
      obtain ⟨fresh, nodup⟩ := List.nodup_cons.mp nodup
      have inBounds : place < fleet.seats.length := (List.getElem?_eq_some_iff.mp found).1
      cases first : fleet.seats[head]? with
      | none =>
          have same : fleet.consider calendar maxConcurrentRuns head = fleet := by rw [consider, first]
          have later : place ∈ rest := (List.mem_cons.mp listed).resolve_left (by
            rintro rfl
            cases first.symm.trans found)
          rw [sweep, List.foldl_cons, same]
          exact ih nodup sound free later found due
      | some other =>
          have soundOther := sound other (List.mem_of_getElem? first)
          have looked : fleet.consider calendar maxConcurrentRuns head = fleet.setSeat head
              (other.consider calendar fleet.now fleet.nextRunId true) := by simp only [consider, first, free]
          rw [sweep, List.foldl_cons, looked]
          cases dueOther : other.isDue fleet.now with
          | true =>
              refine hasProgressed_of head first ((sweep_other fresh).trans ?_)
                (other.consider_due soundOther forward fleet.nextRunId dueOther (queue_isEmpty free (List.mem_of_getElem? first)))
              exact List.getElem?_set_self (List.getElem?_eq_some_iff.mp first).1
          | false =>
              have later : place ∈ rest := (List.mem_cons.mp listed).resolve_left (by
                rintro rfl
                cases first.symm.trans found
                cases dueOther.symm.trans due)
              have same : fleet.seats.set head other = fleet.seats := by
                obtain ⟨bound, rfl⟩ := List.getElem?_eq_some_iff.mp first
                exact List.set_getElem_self bound
              rw [other.consider_notDue soundOther dueOther, setSeat, same]
              exact @ih { fleet with nextRunId := fleet.nextRunId + 1 } nodup sound free later found due

end Sweeps

/-- A timer that is armed for a due task finds it due and a slot free, while nothing else happens. -/
structure Fleet.Sound (maxConcurrentRuns : Nat) (fleet : Fleet) : Prop where
  seats : ∀ seat ∈ fleet.seats, seat.Sound
  progress : Precludes (.armed true) FleetEvent.isOfTimer (.ticked false) fleet.log
  timer : Pending (.armed true) FleetEvent.isOfTimer fleet.log → fleet.timer.any Timer.isImmediate = true
  ready : fleet.log.head? = some (.armed true) →
    fleet.hasFreeSlot maxConcurrentRuns = true ∧ ∃ seat ∈ fleet.seats, seat.isDue fleet.now = true

variable {calendar : Calendar} {maxConcurrentRuns : Nat} {fleet after : Fleet} {place : Nat}

/-- Something else than the timer happens. -/
theorem Fleet.Sound.note (sound : fleet.Sound maxConcurrentRuns) (seats : ∀ seat ∈ after.seats, seat.Sound)
    (log : after.log = fleet.log) (timer : after.timer = fleet.timer) : after.note.Sound maxConcurrentRuns where
  seats := seats
  progress := precludes_cons_of_ne nofun (log ▸ sound.progress)
  timer := fun pending => by
    rcases pending with same | ⟨-, pending⟩
    · cases same
    · rw [log] at pending
      exact (congrArg (Option.any Timer.isImmediate) timer).trans (sound.timer pending)
  ready := nofun

variable {now : Nat} {seat : Seat}

theorem Seat.delay_zero (sound : seat.Sound) (soon : seat.delay now = 0) :
    seat.isDue now = true := by
  obtain ⟨task, found, timed⟩ := sound.timed
  unfold delay at soon
  rw [sound.inSync, found] at soon
  dsimp only at soon
  split at soon
  · cases soon
  · next on =>
      simp only [Bool.or_eq_true, Bool.not_eq_true', not_or, Bool.not_eq_false] at on
      rw [isDue, found, Option.any_some, isDue_timed timed, on.1, Bool.true_and]
      split at soon
      · next absent =>
          rw [absent, Option.elim_none]
          split at soon
          · assumption
          · cases soon
      · next next' placed =>
          rw [placed, Option.elim_some]
          exact decide_eq_true (Nat.le_of_sub_eq_zero soon)

/-- The shortest delay is that of some task, or the heartbeat. -/
theorem delay_foldr {seats : List Seat}
    (soon : seats.foldr (fun seat delay => min (seat.delay now) delay) maxTimerMs = 0) :
    ∃ seat ∈ seats, seat.delay now = 0 := by
  induction seats with
  | nil => cases soon
  | cons seat rest ih =>
      rcases Nat.min_eq_zero_iff.mp soon with own | later
      · exact ⟨seat, List.mem_cons_self, own⟩
      · obtain ⟨other, listed, own⟩ := ih later
        exact ⟨other, List.mem_cons_of_mem _ listed, own⟩

/-- The timer is armed. -/
theorem Fleet.Sound.arm (seats : ∀ seat ∈ fleet.seats, seat.Sound)
    (progress : Precludes (.armed true) FleetEvent.isOfTimer (.ticked false) fleet.log) :
    (fleet.armTimer maxConcurrentRuns).Sound maxConcurrentRuns where
  seats := seats
  progress := precludes_cons_of_ne nofun progress
  timer := fun pending => by
    rcases pending with same | ⟨open', -⟩
    · exact FleetEvent.armed.inj same
    · cases open'
  ready := fun armed => by
    have immediate := FleetEvent.armed.inj (Option.some.inj armed)
    obtain ⟨free, soon⟩ := Bool.and_eq_true_iff.mp immediate
    rw [if_pos free, beq_iff_eq] at soon
    obtain ⟨seat, listed, soon⟩ := delay_foldr soon
    exact ⟨free, seat, listed, seat.delay_zero (seats seat listed) soon⟩

/-- A tick that comes at once after an immediate arming makes progress. -/
theorem Fleet.Sound.onTimer (sound : fleet.Sound maxConcurrentRuns) (forward : calendar.IsForward)
    (met : Orderly calendar fleet .tick) : (fleet.onTimer calendar maxConcurrentRuns).Sound maxConcurrentRuns := by
  obtain ⟨apart, prompt⟩ := met
  have seats : ∀ seat ∈ (({ fleet with timer := none } : Fleet).sweep calendar maxConcurrentRuns
      fleet.byNextRunAt).seats, seat.Sound :=
    sweep_sound forward fleet.byNextRunAt_nodup sound.seats fun place _ seat found =>
      apart seat (List.mem_of_getElem? found)
  have ticked : Precludes (.armed true) FleetEvent.isOfTimer (.ticked false)
      (.ticked (hasProgressed fleet.seats (({ fleet with timer := none } : Fleet).sweep calendar maxConcurrentRuns
        fleet.byNextRunAt).seats) :: (({ fleet with timer := none } : Fleet).sweep calendar maxConcurrentRuns
          fleet.byNextRunAt).log) := by
    rw [sweep_log]
    refine ⟨fun idle pending => ?_, sound.progress⟩
    obtain ⟨free, seat, listed, due⟩ := sound.ready (prompt (sound.timer pending))
    obtain ⟨place, bound, found⟩ := List.getElem_of_mem listed
    have progressed := @sweep_progresses calendar maxConcurrentRuns { fleet with timer := none } seat place
      fleet.byNextRunAt forward fleet.byNextRunAt_nodup sound.seats free (mem_byNextRunAt.mpr bound)
      (List.getElem?_eq_some_iff.mpr ⟨bound, found⟩) due
    cases (FleetEvent.ticked.inj idle).symm.trans progressed
  unfold Fleet.onTimer
  dsimp only
  split
  · exact .arm seats ticked
  · exact {
      seats := seats
      progress := ticked
      timer := fun pending => absurd pending (not_pending_of_ends nofun rfl)
      ready := nofun }

theorem Fleet.Sound.reloaded (sound : fleet.Sound maxConcurrentRuns)
    (uncleared : ∀ seat ∈ fleet.seats, seat.isCleared calendar fleet.now = false) :
    ∀ seat ∈ fleet.seats.map (Seat.reload calendar · fleet.now), seat.Sound := by
  intro seat listed
  obtain ⟨old, stood, rfl⟩ := List.mem_map.mp listed
  exact (sound.seats old stood).reload (uncleared old stood)

theorem Fleet.Sound.writeAndReload (sound : fleet.Sound maxConcurrentRuns) {task : Task}
    (found : fleet.seats[place]? = some seat) (timed : task.isTimed = true)
    (uncleared : ∀ seat ∈ fleet.seats.eraseIdx place, seat.isCleared calendar fleet.now = false) :
    (fleet.writeAndReload calendar maxConcurrentRuns place seat task).Sound maxConcurrentRuns := by
  have seats : ∀ other ∈ (fleet.seats.map (Seat.reload calendar · fleet.now)).set place
      (seat.edit calendar fleet.now fleet.nextRunId task), other.Sound := by
    intro other listed
    obtain ⟨index, bound, rfl⟩ := List.getElem_of_mem listed
    rw [List.getElem_set]
    split
    · exact (sound.seats seat (List.mem_of_getElem? found)).edit timed
    · next apart =>
        have bound : index < fleet.seats.length := by simpa using bound
        rw [List.getElem_map]
        refine (sound.seats _ (List.getElem_mem bound)).reload (uncleared _ ?_)
        exact List.mem_eraseIdx_iff_getElem.mpr ⟨index, bound, Ne.symm apart, rfl⟩
  exact .arm seats (precludes_cons_of_ne nofun sound.progress)

theorem Fleet.Sound.set (sound : fleet.Sound maxConcurrentRuns) (own : seat.Sound) :
    ∀ other ∈ fleet.seats.set place seat, other.Sound := by
  intro other listed
  rcases mem_set listed with rfl | old
  · exact own
  · exact sound.seats other old

theorem Fleet.Sound.operate (sound : fleet.Sound maxConcurrentRuns) {operation : Operation}
    (asks : match operation with
      | .requestRunNow .. | .runFromEvent _ | .requestBatchRun .. | .startQueued _ | .leaveQueue .. => True
      | _ => False)
    (operated : fleet.operate calendar place operation = some after) : after.Sound maxConcurrentRuns := by
  obtain ⟨seat, found, operated⟩ := Option.bind_eq_some_iff.mp operated
  obtain ⟨seat', turned, rfl⟩ := Option.map_eq_some_iff.mp operated
  exact sound.note (sound.set ((sound.seats seat (List.mem_of_getElem? found)).operate asks turned)) rfl rfl

theorem Fleet.Sound.step (sound : fleet.Sound maxConcurrentRuns) (forward : calendar.IsForward)
    {action : FleetAction} (met : Orderly calendar fleet action)
    (stepped : fleet.step calendar maxConcurrentRuns action = some after) :
    after.Sound maxConcurrentRuns := by
  cases action with
  | wait ms =>
      cases stepped
      refine ⟨sound.seats, sound.progress, sound.timer, fun armed => ?_⟩
      obtain ⟨free, seat, listed, due⟩ := sound.ready armed
      obtain ⟨task, found, timed⟩ := (sound.seats seat listed).timed
      refine ⟨free, seat, listed, ?_⟩
      rw [Seat.isDue, found, Option.any_some, isDue_timed timed, Bool.and_eq_true] at due ⊢
      refine ⟨due.1, ?_⟩
      cases placed : task.nextRunAt with
      | none => simpa [placed] using due.2
      | some next =>
          have come : next ≤ fleet.now := by simpa [placed] using due.2
          exact decide_eq_true (come.trans (Nat.le_add_right _ _))
  | tick =>
      obtain ⟨-, stepped⟩ := Option.ite_none_right_eq_some.mp stepped
      exact Option.some.inj stepped ▸ sound.onTimer forward met
  | rearm place =>
      obtain ⟨runs, -, stepped⟩ := Option.bind_eq_some_iff.mp stepped
      obtain ⟨-, stepped⟩ := Option.ite_none_right_eq_some.mp stepped
      exact Option.some.inj stepped ▸ .arm sound.seats sound.progress
  | reload =>
      cases stepped
      exact .arm (sound.reloaded met) (precludes_cons_of_ne nofun sound.progress)
  | edit place patch =>
      obtain ⟨seat, found, stepped⟩ := Option.bind_eq_some_iff.mp stepped
      split at stepped
      · cases stepped
        exact sound.note sound.seats rfl rfl
      · cases stepped
        exact sound.note sound.seats rfl rfl
      · obtain ⟨timed, stepped⟩ := Option.ite_none_right_eq_some.mp stepped
        exact Option.some.inj stepped ▸ sound.writeAndReload found timed met
  | disableAtCeiling place =>
      obtain ⟨seat, found, stepped⟩ := Option.bind_eq_some_iff.mp stepped
      obtain ⟨task, stored, rfl⟩ := Option.map_eq_some_iff.mp stepped
      obtain ⟨task', stored', timed⟩ := (sound.seats seat (List.mem_of_getElem? found)).timed
      cases stored.symm.trans stored'
      exact sound.writeAndReload found ((Task.isTimed_congr rfl).trans timed) met
  | requestRunNow place requested queueFull => exact sound.operate trivial stepped
  | runFromEvent place queueFull => exact sound.operate trivial stepped
  | requestBatchRun place item queueFull => exact sound.operate trivial stepped
  | startQueued place queued =>
      exact sound.operate trivial (Option.ite_none_right_eq_some.mp stepped).2
  | leaveQueue place queued cancelled => exact sound.operate trivial stepped
  | release place run =>
      obtain ⟨seat, -, stepped⟩ := Option.bind_eq_some_iff.mp stepped
      obtain ⟨dispatch, -, rfl⟩ := Option.map_eq_some_iff.mp stepped
      exact sound.note sound.seats rfl rfl
  | endRun place run execution faults =>
      obtain ⟨dated, stepped⟩ := Option.ite_none_right_eq_some.mp stepped
      obtain ⟨seat, found, stepped⟩ := Option.bind_eq_some_iff.mp stepped
      obtain ⟨seat', ended, rfl⟩ := Option.map_eq_some_iff.mp stepped
      refine sound.note (sound.set ?_) rfl rfl
      exact (sound.seats seat (List.mem_of_getElem? found)).endRun forward dated (met seat found) ended
  | otherSources hold wait =>
      cases stepped
      exact sound.note sound.seats rfl rfl

/-- No due occurrence is lost or settled twice in a run that meets the condition, and its timer does not spin. -/
theorem due_settled_once (forward : calendar.IsForward)
    (reached : (fleetSystem calendar maxConcurrentRuns).ReachedBy (Orderly calendar) fleet) : SettlesDue fleet := by
  have sound : fleet.Sound maxConcurrentRuns := by
    refine reached.invariant (Fleet.Sound maxConcurrentRuns) ?_ fun before action after sound met stepped =>
      sound.step forward met stepped
    intro fleet first
    obtain ⟨fresh, empty⟩ := first
    rw [empty]
    exact ⟨fun seat listed => (fresh seat listed).sound, trivial, fun pending => pending.elim, nofun⟩
  exact ⟨fun seat listed => (sound.seats seat listed).log.settles, sound.progress⟩

/-- The cron fires every minute. -/
def minutely : Calendar :=
  { plainCalendar with
    nextRun := fun _ _ now => .ok (some ((now / 60000 + 1) * 60000))
    isOccurrence := fun _ _ moment => moment % 60000 = 0 }

theorem minutely_isForward : minutely.IsForward := by
  intro _ _ now next found
  cases found
  have := Nat.lt_mul_div_succ now (show 0 < 60000 by decide)
  rw [Nat.mul_comm]
  exact this

def minuteTask : Task := { schedule := some { type := .cron, expression := some "* * * * *" } }

/-- One cron task has been read. -/
def oneTask : Fleet := { seats := [{ store := { task := some minuteTask, definition := some minuteTask } }] }

theorem oneTask_initial (calendar : Calendar) (maxConcurrentRuns : Nat) :
    (fleetSystem calendar maxConcurrentRuns).initial oneTask := by
  refine ⟨fun seat listed => ?_, rfl⟩
  rw [List.mem_singleton.mp listed]
  exact ⟨rfl, by decide, rfl, rfl, rfl⟩

def succeeded (runId : RunId) (now : Nat) : Execution :=
  .returned { id := runId, startedAt := now, completedAt := some now, status := .success }

/-- The task is read, and its minute comes. -/
def minuteRuns : List FleetAction :=
  [.reload, .wait 60000, .tick, .endRun 0 0 (succeeded 0 60000) {}, .rearm 0]

/-- The task runs at its minute, and the timer waits for the next one. -/
theorem due_settled_once_minutely :
    ∃ fleet ∈ (fleetSystem minutely 2).run oneTask minuteRuns,
      fleet.seats.map (·.log) =
          [[.settled 60000 { minuteTask with nextRunAt := some 120000, lastRunAt := some 60000, runCount := 1 },
            .replaced 1 (.run 0 false), .dispatched 0 1]] ∧
        SettlesDue fleet := by
  have ran : ((fleetSystem minutely 2).run oneTask minuteRuns).any (fun fleet =>
      fleet.seats.map (·.log) =
        [[.settled 60000 { minuteTask with nextRunAt := some 120000, lastRunAt := some 60000, runCount := 1 },
          .replaced 1 (.run 0 false), .dispatched 0 1]]) = true := by decide +kernel
  have meets : (fleetSystem minutely 2).Meets (Orderly minutely) oneTask minuteRuns := by decide +kernel
  obtain ⟨fleet, ran, log⟩ := Option.any_eq_true .. |>.mp ran
  exact ⟨fleet, ran, of_decide_eq_true log,
    due_settled_once minutely_isForward (System.ReachedBy.run (.start _ (oneTask_initial _ _)) meets ran)⟩

/-- An occurrence waits for a slot, and a batch run of its task is recorded. -/
def batchRuns : List FleetAction :=
  [.reload, .requestBatchRun 0 ⟨"batch", 0⟩ false, .otherSources 1 0, .wait 60000, .tick,
    .endRun 0 0 (succeeded 0 60000) {}]

/-- The record of a batch run moves the next run, and the occurrence that waited is lost. -/
theorem due_lost : ¬ ∀ (calendar : Calendar) (maxConcurrentRuns : Nat) (fleet : Fleet), calendar.IsForward →
    (fleetSystem calendar maxConcurrentRuns).Reachable fleet → SettlesDue fleet := by
  intro all
  have ran : ((fleetSystem minutely 2).run oneTask batchRuns).any (fun fleet =>
      fleet.seats.map (·.log) = [[.replaced 1 (.run 0 false)]]) = true := by decide +kernel
  obtain ⟨fleet, ran, log⟩ := Option.any_eq_true .. |>.mp ran
  have settles := (all minutely 2 fleet minutely_isForward
    (System.Reachable.run (.start _ (oneTask_initial _ _)) ran)).seats
  obtain ⟨seat, listed, only⟩ := List.mem_map.mp (of_decide_eq_true log ▸ List.mem_singleton_self _)
  have allowed := (settles seat listed).replaced 1 (.run 0 false) (only ▸ List.mem_singleton_self _)
  rw [only] at allowed
  simp [Allowed] at allowed

end NimbleBrain.Scheduler
