import NimbleBrain.Tasks.DriverBoot

/- Every event of a batch keeps its books. -/

namespace NimbleBrain.Tasks

open Library Spend

namespace World

variable {world next : World} {id : RunId}

@[simp] theorem withSpend_view (world : World) (spend : SpendBalances) :
    (world.withSpend spend).driver.view = world.driver.view := rfl

/-- A run keeps its identifier and its place through its stages. -/
@[simp] theorem withStage_view (world : World) (id : RunId) (stage : RunStage) :
    (world.withStage id stage).driver.view = world.driver.view := by
  have same : (world.driver.runs.map fun run => if run.id = id then { run with stage := stage } else run).map
      (fun run => (run.id, run.index)) = world.driver.runs.map fun run => (run.id, run.index) := by
    rw [List.map_map]
    apply List.map_congr_left
    intro run _
    rw [Function.comp_apply]
    split <;> rfl
  simp only [Driver.view, Driver.books, withStage]
  rw [same]

variable {run : BatchRun}

theorem runOf_listed (found : world.runOf id = some run) :
    run.id = id ∧ world.driver.Runs id run.index := by
  have same : run.id = id := by simpa using List.find?_some found
  refine ⟨same, ?_⟩
  rw [← same]
  exact List.mem_map_of_mem (List.mem_of_find?_eq_some found)

theorem settling_listed (ready : world.settling id = some run) :
    run.id = id ∧ world.driver.Runs id run.index := by
  obtain ⟨found, here, stage⟩ := Option.bind_eq_some_iff.mp ready
  split at stage
  · cases stage
  · cases stage
    exact runOf_listed here

/-- A queued run that takes its slot is still the open run of its item. -/
theorem runStarts_kept (door : Door) (good : world.driver.view.Good) (stepped : world.runStarts id = some next) :
    Driver.Kept door world.driver next.driver := by
  obtain ⟨run, found, stage⟩ := Option.bind_eq_some_iff.mp stepped
  obtain ⟨same, listed⟩ := runOf_listed found
  split at stage
  · have kept : Driver.Kept door world.driver (world.driver.itemStarted run.index id) := by
      obtain ⟨item, present, -, unsettled, -⟩ := Driver.Good.owner good listed
      unfold Driver.itemStarted
      rw [present]
      dsimp only
      split
      · exact ⟨good, fun _ lively => lively⟩
      · have placed := good.sound.indexed run.index item present
        let started : BatchItem := { item with state := .running }
        have here : world.driver.live.items[started.index]? = some item := by
          rw [show started.index = run.index from placed]
          exact present
        apply Driver.setItem_kept good started here rfl
        · rw [unsettled]
          rfl
        · intro waiting
          cases waiting
        · intro done
          simp [isUnsettled, done] at unsettled
    cases stage
    rw [Driver.Kept, withStage_view]
    exact kept
  · cases stage

theorem runOpens_view {own : List SpendAccount} {rates : Option UsageRates}
    (stepped : world.runOpens id own rates = some next) : next.driver.view = world.driver.view := by
  obtain ⟨run, -, stage⟩ := Option.bind_eq_some_iff.mp stepped
  split at stage
  · split at stage
    · cases stage
    · cases stage
      rw [withStage_view, withSpend_view]
  · cases stage

/-- A run that rejects while the batch waits for that run alone strands the batch. -/
def Stranding (world : World) (action : DriverAction) : Prop :=
  ∃ id error run, action.event = .runRejects id error ∧ world.settling id = some run ∧
    world.driver.Strands run.index

/-- Every step keeps the books. It leaves the batch waiting for something unless it strands it. -/
theorem step_kept (good : world.driver.view.Good) (action : DriverAction) (stepped : world.step action = some next) :
    next.driver.view.Good ∧ (Driver.Willing action.door → ¬ world.Stranding action →
      world.driver.view.Lively → next.driver.view.Lively) := by
  have of_kept : Driver.Kept action.door world.driver next.driver → next.driver.view.Good ∧
      (Driver.Willing action.door → ¬ world.Stranding action →
        world.driver.view.Lively → next.driver.view.Lively) :=
    fun kept => ⟨kept.1, fun willing _ lively => kept.2 willing lively⟩
  have of_view : next.driver.view = world.driver.view → next.driver.view.Good ∧
      (Driver.Willing action.door → ¬ world.Stranding action →
        world.driver.view.Lively → next.driver.view.Lively) := by
    intro same
    rw [same]
    exact ⟨good, fun _ _ lively => lively⟩
  unfold step at stepped
  cases event : action.event with
  | control request budgetUsd =>
      rw [event] at stepped
      cases stepped
      exact of_kept (Driver.control_kept good request budgetUsd)
  | runStarts id =>
      rw [event] at stepped
      exact of_kept (runStarts_kept action.door good stepped)
  | runOpens id own rates =>
      rw [event] at stepped
      exact of_view (runOpens_view stepped)
  | runChecks id call =>
      rw [event] at stepped
      obtain ⟨found, -, rfl⟩ := Option.map_eq_some_iff.mp stepped
      exact of_view rfl
  | runDebits id usage =>
      rw [event] at stepped
      obtain ⟨found, -, rfl⟩ := Option.map_eq_some_iff.mp stepped
      exact of_view rfl
  | runReleases id =>
      rw [event] at stepped
      obtain ⟨found, -, rfl⟩ := Option.map_eq_some_iff.mp stepped
      exact of_view (by rw [withStage_view, withSpend_view])
  | runEnds id record =>
      rw [event] at stepped
      obtain ⟨run, ready, rfl⟩ := Option.map_eq_some_iff.mp stepped
      exact of_kept (Driver.itemEnded_pumped good (settling_listed ready).2 record).kept
  | runRejects id error =>
      rw [event] at stepped
      obtain ⟨run, ready, rfl⟩ := Option.map_eq_some_iff.mp stepped
      obtain ⟨books, waits⟩ := Driver.itemRejected_kept good (settling_listed ready).2 error
      refine ⟨books, fun willing safe lively => waits willing (fun strands => safe ?_) lively⟩
      exact ⟨id, error, run, event, ready, strands⟩
  | retryTimer =>
      rw [event] at stepped
      dsimp only at stepped
      split at stepped
      · rename_i armed
        cases stepped
        exact of_kept (Driver.retry_kept good armed.1)
      · cases stepped
  | syncRun record =>
      rw [event] at stepped
      cases stepped
      exact of_kept (Driver.syncRun_kept good record)
  | stop =>
      rw [event] at stepped
      cases stepped
      exact of_kept (Driver.stop_kept good)
  | boot files now =>
      rw [event] at stepped
      cases stepped
      exact of_kept (Driver.boot_pumped good files now).kept

end World

end NimbleBrain.Tasks
