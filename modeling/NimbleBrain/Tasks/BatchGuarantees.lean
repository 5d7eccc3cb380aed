import NimbleBrain.Tasks.BatchRuns
import NimbleBrain.Tasks.Funding

/- A batch accounts for its items and always waits for something in every state it reaches. -/

namespace NimbleBrain.Tasks

open Library Spend

namespace World

variable {world next : World}

/-- What the books of a batch account for. -/
structure Accounted (driver : Driver) : Prop where
  counts : driver.live.batch.counts = countItems driver.live.items
  cost : driver.live.batch.costUsd = sumCost driver.live.items
  room : driver.live.outstanding.Nodup ∧ driver.live.outstanding.length ≤ driver.live.batch.concurrency
  outstanding : ∀ index, index ∈ driver.live.outstanding ↔
    ∃ run ∈ driver.runs, run.index = index ∧
      ∃ item, driver.live.items[index]? = some item ∧ item.runId = some run.id
  unsettled : ∀ index, index ∈ driver.live.outstanding ↔
    ∃ item, driver.live.items[index]? = some item ∧ (item.state = .queued ∨ item.state = .running)
  oneRun : ∀ first ∈ driver.runs, ∀ second ∈ driver.runs,
    first.index = second.index ∨ first.id = second.id → first = second
  inLine : driver.resident = true → driver.stopping = false → driver.live.batch.state ≠ .cancelled →
    ∀ (index : Nat) (item : BatchItem), driver.live.items[index]? = some item →
      item.state = .pending → index ∈ driver.live.pending
  completed : driver.live.batch.state = .completed → ∀ item ∈ driver.live.items, item.state = .done

theorem accounted_of_good {driver : Driver} (good : driver.view.Good) : Accounted driver where
  counts := good.sound.counts
  cost := good.sound.cost
  room := ⟨good.sound.distinct, good.sound.bounded⟩
  outstanding index := by
    have matched : driver.runs.map (fun run => run.index) = driver.live.outstanding := by
      have pairs := good.sound.matched
      simp only [Driver.view, Driver.books, List.map_map] at pairs
      exact pairs
    rw [← matched, List.mem_map]
    constructor
    · rintro ⟨run, member, rfl⟩
      obtain ⟨item, found, owned⟩ := good.sound.owner (run.id, run.index)
        (List.mem_map_of_mem member)
      exact ⟨run, member, rfl, item, found, owned⟩
    · rintro ⟨run, member, same, -⟩
      exact ⟨run, member, same⟩
  unsettled index := by
    have current := good.sound.current index
    simp only [Books.unsettledAt, isUnsettled, Bool.or_eq_true, decide_eq_true_eq, ne_eq, reduceCtorEq,
      not_false_eq_true, true_and] at current
    exact current
  oneRun first one second two shared := by
    have first_mem : (first.id, first.index) ∈ driver.books.openRuns := List.mem_map_of_mem one
    have second_mem : (second.id, second.index) ∈ driver.books.openRuns := List.mem_map_of_mem two
    have unique := good.sound.run_unique first_mem second_mem
    have ids : (driver.runs.map fun run => run.id).Nodup := by
      have distinct := good.sound.unique
      simp only [Driver.view, Driver.books, List.map_map] at distinct
      exact distinct
    refine List.inj_on_of_nodup_map ids one two ?_
    exact shared.elim unique.mpr id
  inLine resident active _ := good.listed active resident
  completed := good.completed

end World

variable {door : Door} {spec : NewBatch} {world : World}

theorem good_of_reachable (reached : (batchSystem door spec).Reachable world) : world.driver.view.Good :=
  System.Reachable.invariant (fun world => world.driver.view.Good)
    (fun _ first => first ▸ (Driver.create_pumped spec).1)
    (fun _ action _ good stepped => (World.step_kept good action stepped).1) reached

/-- No step of the run stops the driver. -/
def neverStops (_ : World) (action : DriverAction) : Prop := action.event ≠ .stop

/-- Only a stop leaves the driver stopping. -/
theorem World.step_stopping {next : World} (good : world.driver.view.Good) {action : DriverAction}
    (goes : neverStops world action) (active : world.driver.stopping = false)
    (stepped : world.step action = some next) : next.driver.stopping = false := by
  have of_moves : ∀ before : Driver, before.stopping = false → before.purse.Moves next.driver.purse →
      next.driver.stopping = false := fun before active moved => moved.stopping.trans active
  unfold step at stepped
  cases event : action.event with
  | control request budgetUsd =>
      rw [event] at stepped
      cases stepped
      rcases Driver.control_purse good request budgetUsd with moved | ⟨-, opened⟩
      · exact moved.stopping.trans active
      · exact opened.stopping.trans active
  | runStarts id =>
      rw [event] at stepped
      obtain ⟨run, -, stage⟩ := Option.bind_eq_some_iff.mp stepped
      split at stage
      · cases stage
        exact (congrArg Purse.stopping (world.driver.itemStarted_purse run.index id)).trans active
      · cases stage
  | runOpens id own rates =>
      rw [event] at stepped
      exact (congrArg View.stopping (runOpens_view stepped)).trans active
  | runChecks id call =>
      rw [event] at stepped
      obtain ⟨found, -, rfl⟩ := Option.map_eq_some_iff.mp stepped
      exact active
  | runDebits id usage =>
      rw [event] at stepped
      obtain ⟨found, -, rfl⟩ := Option.map_eq_some_iff.mp stepped
      exact active
  | runReleases id =>
      rw [event] at stepped
      obtain ⟨found, -, rfl⟩ := Option.map_eq_some_iff.mp stepped
      exact active
  | runEnds id record =>
      rw [event] at stepped
      obtain ⟨run, -, rfl⟩ := Option.map_eq_some_iff.mp stepped
      exact of_moves (withoutRun world.driver id) active
        (Driver.itemEnded_moves action.door run.index id record _)
  | runRejects id error =>
      rw [event] at stepped
      obtain ⟨run, -, rfl⟩ := Option.map_eq_some_iff.mp stepped
      exact of_moves (withoutRun world.driver id) active
        (Driver.itemRejected_moves action.door run.index id error _)
  | retryTimer =>
      rw [event] at stepped
      dsimp only at stepped
      split at stepped
      · cases stepped
        exact of_moves world.driver.clearTimer active (Driver.pump_moves action.door _)
      · cases stepped
  | syncRun record =>
      rw [event] at stepped
      cases stepped
      exact of_moves world.driver active (world.driver.syncRun_moves record)
  | stop => exact absurd event goes
  | boot files now =>
      rw [event] at stepped
      cases stepped
      rcases Driver.boot_purse action.door files now world.driver with moved | ⟨-, moved⟩
      · exact moved.stopping
      · exact moved.stopping.trans (Purse.openAnchor_stopping _ _)

theorem active_of_reached (reached : (batchSystem door spec).ReachedBy neverStops world) :
    world.driver.stopping = false := by
  have kept : world.driver.view.Good ∧ world.driver.stopping = false := by
    refine reached.invariant (fun world => world.driver.view.Good ∧ world.driver.stopping = false) ?_ ?_
    · rintro world rfl
      have moved := Driver.activate_moves door { live := createBatch spec }
      exact ⟨(Driver.create_pumped spec).1, moved.stopping.trans (Purse.openAnchor_stopping _ _)⟩
    · rintro before action after ⟨good, active⟩ goes stepped
      exact ⟨(World.step_kept good action stepped).1, World.step_stopping good goes active stepped⟩
  exact kept.2

theorem ten_positive : ∀ budget ∈ some (10 : ℚ), 0 < budget := by simp

/-- A batch of two items has ten dollars for runs of at most two at a time. -/
def pair : NewBatch where
  id := "batch"
  workspaceId := "workspace"
  ownerId := "owner"
  inputs := 2
  concurrency := 2
  concurrencyPositive := Nat.two_pos
  budgetUsd := some 10
  budgetPositive := ten_positive

/-- Every run that is asked for starts at once. -/
def openDoor : Door where
  requestBatchRun _ := .started
  withdrawQueuedRun _ := false
  cancelRunById _ := false

theorem openDoor_willing : Driver.Willing openDoor := fun _ => nofun

local instance dollar_atLeastTwo : Nat.AtLeastTwo 1000000 := inferInstance

def outputRates : UsageRates where
  base := { input := 0, output := 1000000, cacheRead := 0, cacheWrite5m := 0, cacheWrite1h := 0 }

/-- The second run has reserved six dollars, so the first is refused a call of five. It ended without a
call and its item waits for the reservation to free. -/
def reservedOutRun : List DriverAction :=
  [.runOpens 0 [] (some outputRates), .runOpens 1 [] (some outputRates), .runChecks 1 ⟨0, 6, 1⟩,
    .runChecks 0 ⟨0, 6, 5⟩, .runReleases 0,
    .runEnds 0 { id := 0, status := .failure, trigger := some .manual, stopReason := some .spendLimit,
                 spendAccountId := some "task-batch:workspace/owner/batch" }].map (⟨·, openDoor⟩)

/-- In every run in which no promise rejects while the batch waits for that run alone, a running batch waits
for a run or for its timer. It waits to settle only while a run is outstanding. -/
theorem batch_never_stuck (door : Door) (spec : NewBatch) (willing : Driver.Willing door) (world : World)
    (reached : (batchSystem door spec).ReachedBy
      (fun world action => Driver.Willing action.door ∧ ¬ world.Stranding action) world)
    (active : world.driver.stopping = false) :
    (world.driver.live.batch.state = .running →
      world.driver.live.outstanding ≠ [] ∨ world.driver.live.retryTimer = true) ∧
    (world.driver.resident = true → world.driver.live.waitForSettle = true →
      world.driver.live.outstanding ≠ []) := by
  have kept : world.driver.view.Good ∧ world.driver.view.Lively := by
    refine reached.invariant (fun world => world.driver.view.Good ∧ world.driver.view.Lively) ?_ ?_
    · rintro world rfl
      have pumped : Driver.Pumped door (Driver.create door spec) := Driver.create_pumped spec
      exact ⟨pumped.1, pumped.2 willing⟩
    · rintro before action after ⟨good, lively⟩ ⟨willing, safe⟩ stepped
      have next := World.step_kept good action stepped
      exact ⟨next.1, next.2 willing safe lively⟩
  obtain ⟨good, lively⟩ := kept
  have resident : world.driver.live.batch.state = .running → world.driver.resident = true := by
    intro running
    by_contra gone
    exact (good.idle (by simpa [Driver.view] using gone)).2 running
  exact ⟨fun running => lively.busy (resident running) active running,
    fun present waiting => lively.waits present active waiting⟩

theorem batch_never_stuck_reserved_out :
    ∃ world, (batchSystem openDoor pair).run { driver := Driver.create openDoor pair } reservedOutRun =
        some world ∧ world.driver.live.waitForSettle = true ∧ world.driver.live.outstanding ≠ [] := by
  have seen : ((batchSystem openDoor pair).run { driver := Driver.create openDoor pair } reservedOutRun).map
      (fun world => (world.driver.resident, world.driver.stopping, world.driver.live.waitForSettle)) =
        some (true, false, true) := by decide +kernel
  obtain ⟨world, ran, state⟩ := Option.map_eq_some_iff.mp seen
  simp only [Prod.mk.injEq] at state
  have meets : (batchSystem openDoor pair).Meets
      (fun world action => Driver.Willing action.door ∧ ¬ world.Stranding action)
      { driver := Driver.create openDoor pair } reservedOutRun := by
    refine System.meets_of_all _ (fun action member world => ⟨?_, ?_⟩) _
    · obtain ⟨event, -, rfl⟩ := List.mem_map.mp member
      exact openDoor_willing
    · rintro ⟨id, error, run, rejects, -⟩
      simp only [reservedOutRun, List.map_cons, List.map_nil, List.mem_cons, List.not_mem_nil, or_false]
        at member
      rcases member with rfl | rfl | rfl | rfl | rfl | rfl <;> cases rejects
  have waits := batch_never_stuck openDoor pair openDoor_willing world
    (System.ReachedBy.run (.start _ rfl) meets ran) state.2.1
  exact ⟨world, ran, state.2.2, waits.2 state.1 state.2.2⟩

/-- The promise of the run that the waiting item waits for rejects. -/
def stranded : List DriverAction :=
  reservedOutRun ++ [⟨.runReleases 1, openDoor⟩, ⟨.runRejects 1 "disk full", openDoor⟩]

theorem batch_gets_stuck : ¬ ∀ (door : Door) (spec : NewBatch) (world : World), Driver.Willing door →
    (batchSystem door spec).ReachedBy (fun _ action => Driver.Willing action.door) world →
      world.driver.stopping = false → world.driver.live.batch.state = .running →
        world.driver.live.outstanding ≠ [] ∨ world.driver.live.retryTimer = true := by
  intro always
  have seen : ((batchSystem openDoor pair).run { driver := Driver.create openDoor pair } stranded).map
      (fun world => (world.driver.stopping, world.driver.live.batch.state,
        world.driver.live.outstanding, world.driver.live.retryTimer)) = some (false, .running, [], false) := by
    decide +kernel
  obtain ⟨world, ran, state⟩ := Option.map_eq_some_iff.mp seen
  simp only [Prod.mk.injEq] at state
  have meets : (batchSystem openDoor pair).Meets (fun _ action => Driver.Willing action.door)
      { driver := Driver.create openDoor pair } stranded := by
    refine System.meets_of_all _ (fun action member _ => ?_) _
    have door : action.door = openDoor := by
      simp only [stranded, reservedOutRun, List.map_cons, List.map_nil, List.cons_append, List.nil_append,
        List.mem_cons, List.not_mem_nil, or_false] at member
      rcases member with rfl | rfl | rfl | rfl | rfl | rfl | rfl | rfl <;> rfl
    rw [door]
    exact openDoor_willing
  rcases always openDoor pair world openDoor_willing (System.ReachedBy.run (.start _ rfl) meets ran)
    state.1 state.2.1 with busy | armed
  · exact busy state.2.2.1
  · rw [state.2.2.2] at armed
    cases armed

end NimbleBrain.Tasks
