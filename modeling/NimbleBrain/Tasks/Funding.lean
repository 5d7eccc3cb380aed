import NimbleBrain.Tasks.DriverControl
import NimbleBrain.Tasks.Purse
import NimbleBrain.Spend.Solvency

/- The live balance of a batch bounds what its runs may still spend. -/

namespace NimbleBrain.Tasks

open Library Spend

namespace Purse

/-- A new budget is accepted above the recorded cost while no balance of the account is live. -/
def Rebudgeted (purse : Purse) (costUsd : ℚ) (budgetUsd : Option ℚ) : Prop :=
  budgetUsd = purse.budgetUsd ∨
    ∃ budget, budgetUsd = some budget ∧ costUsd < budget ∧ purse.spend.balance purse.account = none

/-- The anchor is opened from the recorded cost. -/
def Reopened (costUsd : ℚ) (before after : Purse) : Prop :=
  ∃ anchor budgetUsd, (anchor = before.anchor ∨ anchor = none) ∧ before.Rebudgeted costUsd budgetUsd ∧
    Moves ({ before with anchor := anchor, budgetUsd := budgetUsd }.openAnchor costUsd) after

variable {after before : Purse} {costUsd : ℚ}

theorem Reopened.stopping (opened : Reopened costUsd before after) :
    after.stopping = before.stopping := by
  obtain ⟨anchor, budgetUsd, -, -, moved⟩ := opened
  exact moved.stopping.trans (openAnchor_stopping _ costUsd)

theorem Reopened.trans {last : Purse} (opened : Reopened costUsd before after) (moved : Moves after last) :
    Reopened costUsd before last := by
  obtain ⟨anchor, budgetUsd, stale, funded, earlier⟩ := opened
  exact ⟨anchor, budgetUsd, stale, funded, earlier.trans moved⟩

end Purse

namespace Driver

variable {driver : Driver} {door : Door}

theorem load_purse (driver : Driver) :
    driver.load.purse = driver.purse ∨ driver.load.purse = { driver.purse with anchor := none } := by
  unfold load
  split
  · exact .inl rfl
  · exact .inr rfl

theorem load_costUsd (driver : Driver) : driver.load.live.batch = driver.live.batch := by
  unfold load
  split <;> rfl

theorem load_items (driver : Driver) : driver.load.live.items = driver.live.items := by
  unfold load
  split <;> rfl

theorem load_moves (driver : Driver) : driver.purse.Moves driver.load.purse := by
  rcases driver.load_purse with same | forgot
  · rw [same]
    exact .same
  · rw [forgot]
    exact .forgot _ .same

theorem activate_moves (door : Door) (driver : Driver) :
    (driver.purse.openAnchor driver.live.batch.costUsd).Moves (driver.activate door).purse := by
  have seen := (driver.onLive fun lb => { lb with waitForSettle := false }).openAnchor_purse
  rw [show driver.purse.openAnchor driver.live.batch.costUsd = _ from seen.symm]
  exact pump_moves door _

/-- These actions open the account of the batch again. -/
def Reopens (driver : Driver) (budgetUsd : Option ℚ) : BatchAction → Prop
  | .resume => driver.live.batch.state = .paused ∧ ∀ budget ∈ budgetUsd, driver.live.batch.costUsd < budget
  | .rerunFailed =>
      driver.live.batch.state ≠ .cancelled ∧ budgetUsd = none ∧ driver.live.items.any isRerunnable = true
  | .pause => False
  | .cancel => False

variable {changed : Driver} {affected : Nat}

theorem setBudget_purse {budget : ℚ} (accepted : driver.setBudget budget = .ok changed) :
    driver.live.batch.costUsd < budget ∧ ∃ budgetUsd, driver.purse.Rebudgeted driver.live.batch.costUsd budgetUsd ∧
      changed.purse = { driver.purse with budgetUsd := budgetUsd } ∧
      changed.live.batch.costUsd = driver.live.batch.costUsd := by
  unfold setBudget at accepted
  split at accepted
  · cases accepted
  · rename_i more
    refine ⟨not_le.mp more, ?_⟩
    split at accepted
    · cases accepted
      exact ⟨_, .inl rfl, rfl, rfl⟩
    · split at accepted
      · cases accepted
      · rename_i gone
        cases accepted
        have none : driver.balance = none := by simpa using gone
        exact ⟨some budget, .inr ⟨budget, rfl, not_le.mp more, none⟩, rfl, rfl⟩

theorem controlResume_purse {budgetUsd : Option ℚ}
    (done : driver.controlResume door budgetUsd = .ok (changed, affected)) :
    changed.purse = driver.purse ∨
      driver.Reopens budgetUsd .resume ∧
        ∃ budgetUsd, driver.purse.Rebudgeted driver.live.batch.costUsd budgetUsd ∧
          ({ driver.purse with budgetUsd := budgetUsd }.openAnchor driver.live.batch.costUsd).Moves
            changed.purse := by
  unfold controlResume at done
  split at done
  · cases done
  · cases done
  · split at done
    · cases done
    · cases done
      exact .inl rfl
  · rename_i paused
    split at done
    · cases done
    · rename_i funded accepted
      cases done
      have set : (∀ budget ∈ budgetUsd, driver.live.batch.costUsd < budget) ∧ ∃ budgetUsd, driver.purse.Rebudgeted driver.live.batch.costUsd budgetUsd ∧
          funded.purse = { driver.purse with budgetUsd := budgetUsd } ∧
          funded.live.batch.costUsd = driver.live.batch.costUsd := by
        cases budgetUsd with
        | none =>
            cases accepted
            exact ⟨nofun, _, .inl rfl, rfl, rfl⟩
        | some budget =>
            obtain ⟨more, accepted⟩ := setBudget_purse accepted
            exact ⟨fun other same => Option.some.inj same ▸ more, accepted⟩
      obtain ⟨more, budgetUsd, accepted, same, cost⟩ := set
      refine .inr ⟨⟨paused, more⟩, budgetUsd, accepted, ?_⟩
      rw [← same, ← cost]
      exact activate_moves door funded.runAgain

theorem controlRerun_purse (good : driver.view.Good) (done : driver.controlRerun door = .ok (changed, affected)) :
    changed.purse = driver.purse ∨
      (driver.live.batch.state ≠ .cancelled ∧ driver.live.items.any isRerunnable = true) ∧
        (driver.purse.openAnchor driver.live.batch.costUsd).Moves changed.purse := by
  unfold controlRerun at done
  split at done
  · cases done
  · rename_i active
    dsimp only at done
    split at done
    · cases done
      exact .inl rfl
    · rename_i some
      obtain ⟨rfl, -⟩ := Prod.mk.inj (Except.ok.inj done)
      have again : driver.live.items.any isRerunnable = true := by
        obtain ⟨item, member⟩ := List.exists_mem_of_ne_nil _ some
        exact List.any_eq_true.mpr ⟨item, List.mem_filter.mp member⟩
      refine .inr ⟨⟨active, again⟩, ?_⟩
      have same := driver.requeue_purse (driver.live.items.filter isRerunnable)
      obtain ⟨-, -, -, -, cost⟩ := driver.requeue_spec (driver.live.items.filter isRerunnable)
        good.sound (fun item member => good.sound.current_of_mem (List.mem_of_mem_filter member))
        (fun item member => isRerunnable_settled (List.mem_filter.mp member).2)
        (good.sound.nodup_places.sublist (List.filter_sublist.map _))
      have cost : (driver.requeue (driver.live.items.filter isRerunnable)).live.batch.costUsd =
          driver.live.batch.costUsd := cost
      rw [← same, ← cost]
      split
      · exact activate_moves door _
      · exact activate_moves door (driver.requeue (driver.live.items.filter isRerunnable)).runAgain

theorem controlPause_moves (done : driver.controlPause door = .ok (changed, affected)) :
    driver.purse.Moves changed.purse := by
  unfold controlPause at done
  split at done
  · cases done
  · cases done
    exact pause_moves door .manual driver

theorem controlCancel_moves (done : driver.controlCancel door = .ok (changed, affected)) :
    driver.purse.Moves changed.purse := by
  unfold controlCancel at done
  split at done
  · cases done
    exact .same
  · cases done
  · obtain ⟨rfl, -⟩ := Prod.mk.inj (Except.ok.inj done)
    rw [releaseAnchor_purse]
    let base := (driver.onBatch fun batch => { batch with state := .cancelled, pause := none }).clearTimer
    have same : ((base.cancelPending driver.live.items).withPending []).purse = driver.purse :=
      base.cancelPending_purse driver.live.items
    rw [same]
    exact .freed _ .same

/-- An action of the operator opens the account again or only gives back and asks. -/
theorem control_purse (good : driver.view.Good) (action : BatchAction) (budgetUsd : Option ℚ) :
    driver.purse.Moves (driver.control door action budgetUsd).1.purse ∨
      driver.Reopens budgetUsd action ∧
        Purse.Reopened driver.live.batch.costUsd driver.purse (driver.control door action budgetUsd).1.purse := by
  have fetched := driver.load_moves
  have state : driver.load.live.batch.state = driver.live.batch.state :=
    congrArg Batch.state driver.load_costUsd
  have cost : driver.load.live.batch.costUsd = driver.live.batch.costUsd :=
    congrArg Batch.costUsd driver.load_costUsd
  have reopened : ∀ (budget : Option ℚ) (changed : Driver),
      driver.load.purse.Rebudgeted driver.live.batch.costUsd budget →
      ({ driver.load.purse with budgetUsd := budget }.openAnchor driver.live.batch.costUsd).Moves changed.purse →
        Purse.Reopened driver.live.batch.costUsd driver.purse changed.purse := by
    intro budget changed accepted moved
    rcases driver.load_purse with same | forgot
    · rw [same] at accepted moved
      exact ⟨driver.purse.anchor, budget, .inl rfl, accepted, moved⟩
    · rw [forgot] at accepted moved
      exact ⟨none, budget, .inr rfl, accepted, moved⟩
  unfold control
  split
  · rename_i changed affected done
    have settled := changed.settleIdle_moves
    unfold controlAction at done
    split at done
    · cases done
    · rename_i allowed
      cases action with
      | pause => exact .inl (fetched.trans ((controlPause_moves done).trans settled))
      | cancel => exact .inl (fetched.trans ((controlCancel_moves done).trans settled))
      | resume =>
          rcases controlResume_purse done with same | ⟨⟨paused, more⟩, budget, accepted, moved⟩
          · refine .inl (fetched.trans ?_)
            rw [← same]
            exact settled
          · rw [cost] at accepted moved
            rw [cost] at more
            exact .inr ⟨⟨state.symm.trans paused, more⟩, (reopened budget changed accepted moved).trans settled⟩
      | rerunFailed =>
          rcases controlRerun_purse (load_good good) done with same | ⟨⟨active, again⟩, moved⟩
          · refine .inl (fetched.trans ?_)
            rw [← same]
            exact settled
          · rw [cost] at moved
            have notCancelled : driver.live.batch.state ≠ .cancelled := by
              rw [← state]
              exact active
            have unfunded : budgetUsd = none := by simpa using allowed
            rw [load_items] at again
            exact .inr ⟨⟨notCancelled, unfunded, again⟩, (reopened _ changed (.inl rfl) moved).trans settled⟩
  · exact .inl (fetched.trans driver.load.settleIdle_moves)

theorem syncRun_moves (driver : Driver) (run : TaskRun) : driver.purse.Moves (driver.syncRun run).purse := by
  have fetched := driver.load_moves
  unfold syncRun
  split
  · exact .same
  · split
    · exact .same
    · rename_i index _
      dsimp only
      cases driver.load.live.items[index]? with
      | none => exact fetched
      | some item =>
          generalize (if isAssessable run = true then itemVerdictOf run else none) = verdict
          dsimp only
          split
          · exact fetched
          · refine fetched.trans ?_
            rw [← setItem_purse]
            exact settleIdle_moves _

/-- A stop gives the anchor back. -/
theorem stop_purse (driver : Driver) :
    ∃ rests, driver.purse.Moves rests ∧ driver.stop.purse = { rests with stopping := true } := by
  unfold stop
  split
  · have seen : driver.clearTimer.releaseAnchor.purse = driver.purse.releaseAnchor :=
      driver.clearTimer.releaseAnchor_purse
    refine ⟨driver.purse.releaseAnchor, .freed _ .same, ?_⟩
    rw [← seen]
    rfl
  · exact ⟨driver.purse, .same, rfl⟩

/-- A boot forgets every account and opens that of a running batch from the files. -/
theorem boot_purse (door : Door) (files : RunFiles) (now : Nat) (driver : Driver) :
    ({ driver.purse with stopping := false, anchor := none, spend := {}, runs := [] } : Purse).Moves
        (driver.boot door files now).purse ∨
      driver.live.batch.state = .running ∧
        (({ driver.purse with stopping := false, anchor := none, spend := {}, runs := [] } : Purse).openAnchor
          (reconcile files driver.live.batch driver.live.items now).2.batch.costUsd).Moves
          (driver.boot door files now).purse := by
  unfold boot
  dsimp only
  split
  · exact .inl .same
  · let rebuilt : Driver := { driver with
      stopping := false, spend := {}, runs := [], resident := true
      live := (reconcile files driver.live.batch driver.live.items now).2 }
    split
    · rename_i running
      exact .inr ⟨running, activate_moves door rebuilt⟩
    · exact .inl rebuilt.settleIdle_moves

end Driver

end NimbleBrain.Tasks
