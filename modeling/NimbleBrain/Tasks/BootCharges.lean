import NimbleBrain.Tasks.ReconcileOnce

/- A boot charges each run once, except a run that was recorded while its ticket said running. -/

namespace NimbleBrain.Tasks

open Library

theorem settleLostItems_settled (cancelled : Bool) (now first : Nat) (items : List BatchItem) (files : RunFiles)
    (settled : ∀ item ∈ items, isUnsettled item = false) :
    settleLostItems cancelled now first items files = (files, items, []) := by
  induction items generalizing first with
  | nil => rfl
  | cons item rest ih =>
      rw [settleLostItems, if_neg (by simp [settled item (List.mem_cons_self ..)]),
        ih (first + 1) fun other member => settled other (List.mem_cons_of_mem _ member)]

namespace Disk

variable {disk : Disk}

/-- What a boot does to a batch that charges every run once. -/
structure ChargedOnce (disk : Disk) (now : Nat) : Prop where
  settles : ∀ (i : Nat) (before : BatchItem) (runId : RunId), disk.items[i]? = some before →
    isUnsettled before = true → before.runId = some runId →
      ∃ after, (disk.reconciled now).items[i]? = some after ∧
        after.cost = before.cost + disk.runCost runId ∧
        (after.state = .pending ↔ disk.started runId = false ∧ disk.stored.state ≠ .cancelled)
  others : ∀ (i : Nat) (before : BatchItem), disk.items[i]? = some before → isUnsettled before = false →
    (disk.reconciled now).items[i]? = some before
  again : ∀ later, (disk.reconciled now).reconciled later = disk.reconciled now

/-- No item waits for a run that was recorded while its ticket said running. -/
def NoneRecordedWhileRunning (disk : Disk) : Prop :=
  ∀ (i : Nat) (before : BatchItem) (runId : RunId), disk.items[i]? = some before →
    isUnsettled before = true → before.runId = some runId → ¬ disk.RecordedWhileRunning runId

/-- A second reconcile finds nothing to settle. -/
theorem reconciled_again (disk : Disk) (now later : Nat) :
    (disk.reconciled now).reconciled later = disk.reconciled now := by
  have recovered := reconcile_recovered disk.files disk.stored disk.items now
  have settled : ∀ item ∈ (disk.reconciled now).items, isUnsettled item = false := by
    intro item member
    obtain ⟨i, found⟩ := List.mem_iff_getElem?.mp member
    obtain ⟨within, same⟩ := List.getElem?_eq_some_iff.mp found
    have one := recovered.get (recovered.length_eq ▸ within) within
    exact same ▸ one.settled
  have none := fun cancelled =>
    settleLostItems_settled cancelled later 0 _ (disk.reconciled now).files settled
  have nothing : reconcile (disk.reconciled now).files (disk.reconciled now).stored
      (disk.reconciled now).items later = ((disk.reconciled now).files,
        loaded (disk.reconciled now).stored (disk.reconciled now).items) := by
    rw [reconcile, none]
    rfl
  have same : (disk.reconciled now).reconciled later = { disk.reconciled now with
      files := (disk.reconciled now).files, stored := (disk.reconciled now).stored
      items := (disk.reconciled now).items } := by
    rw [reconciled, nothing]
    rfl
  exact same

variable {before : BatchItem} {i : Nat}

theorem Kept.others_stay (kept : disk.Kept) (now : Nat) (found : disk.items[i]? = some before)
    (settled : isUnsettled before = false) :
    (disk.reconciled now).items[i]? = some before := by
  rw [kept.reconciled_item now found, settledItem, if_neg (by simp [settled])]
  rfl

theorem Kept.settled_item (kept : disk.Kept) (now : Nat) {runId : RunId} (found : disk.items[i]? = some before)
    (unsettled : isUnsettled before = true) (named : before.runId = some runId) :
    ∃ after, (disk.reconciled now).items[i]? = some after ∧ disk.Settles runId before after := by
  obtain ⟨own, ticket, same, present⟩ := kept.attached i before found unsettled
  obtain rfl := Option.some.inj (same.symm.trans named)
  exact ⟨_, kept.reconciled_item now found, kept.settles now unsettled named present⟩

end Disk

/-- A boot charges every run once exactly when no item waits for a run that was recorded, with a cost in the
ledger, while its ticket still said running. -/
theorem boot_charges_once (spec : NewBatch) (disk : Disk) (now : Nat)
    (reached : (batchDisk spec).Reachable disk) :
    disk.ChargedOnce now ↔ disk.NoneRecordedWhileRunning := by
  have kept := Disk.kept_of_reachable reached
  constructor
  · intro charged i before runId found unsettled named doubled
    obtain ⟨after, present, settles⟩ := kept.settled_item now found unsettled named
    obtain ⟨other, there, cost, -⟩ := charged.settles i before runId found unsettled named
    obtain rfl := Option.some.inj (present.symm.trans there)
    have twice := settles.twice doubled
    have paid := doubled.2.2
    rw [cost] at twice
    linarith
  · intro clear
    refine { settles := ?_, others := fun i before => kept.others_stay now, again := disk.reconciled_again now }
    intro i before runId found unsettled named
    obtain ⟨after, present, settles⟩ := kept.settled_item now found unsettled named
    exact ⟨after, present, settles.once (clear i before runId found unsettled named), settles.again⟩

/-- A batch of one item. -/
def oneItem : NewBatch where
  id := "batch"
  workspaceId := "workspace"
  ownerId := "owner"
  inputs := 1
  concurrency := 1
  concurrencyPositive := by decide
  budgetPositive := by simp

def oneItemDisk : Disk := { stored := (createBatch oneItem).batch, items := (createBatch oneItem).items }

local instance three_atLeastTwo : Nat.AtLeastTwo 3 := inferInstance

/-- The process stops after a model call of three dollars. -/
def stopsInCall : List DiskWrite := [.requestTicket (some .manual), .itemAsked 0, .modelCall 0 3]

/-- The process stops after the record of the run and before the rewrite of its ticket. -/
def stopsBeforeTicket : List DiskWrite :=
  stopsInCall ++ [.appendRun { id := 0, status := .success, trigger := some .manual, costUsd := some 3 }]

/-- The ledger charges three dollars for the run that was lost in its call. -/
theorem boot_charges_once_in_call :
    ∃ disk, (batchDisk oneItem).run oneItemDisk stopsInCall = some disk ∧
      (disk.reconciled 0).items.map BatchItem.cost = [3] ∧ disk.ChargedOnce 0 := by
  have seen : ((batchDisk oneItem).run oneItemDisk stopsInCall).map (fun disk =>
      ((disk.reconciled 0).items.map BatchItem.cost, disk.files.index)) = some ([3], []) := by decide +kernel
  obtain ⟨disk, ran, state⟩ := Option.map_eq_some_iff.mp seen
  obtain ⟨costs, unrecorded⟩ := Prod.mk.inj state
  have clear : disk.NoneRecordedWhileRunning := by
    rintro i before runId - - - ⟨-, recorded, -⟩
    rw [RunFiles.recorded, unrecorded] at recorded
    cases recorded
  have reached : (batchDisk oneItem).Reachable disk := System.Reachable.run (.start oneItemDisk rfl) ran
  exact ⟨disk, ran, costs, (boot_charges_once oneItem disk 0 reached).mpr clear⟩

theorem boot_charges_twice : ¬ ∀ (spec : NewBatch) (disk : Disk) (now : Nat),
    (batchDisk spec).Reachable disk → disk.ChargedOnce now := by
  intro always
  let before : BatchItem := { index := 0, state := .running, runId := some 0 }
  have seen : ((batchDisk oneItem).run oneItemDisk stopsBeforeTicket).map (fun disk =>
      ((disk.reconciled 0).items.map BatchItem.cost, disk.runCost 0, disk.items)) =
        some ([6], 3, [before]) := by decide +kernel
  obtain ⟨disk, ran, state⟩ := Option.map_eq_some_iff.mp seen
  simp only [Prod.mk.injEq] at state
  obtain ⟨costs, runCost, items⟩ := state
  have reached : (batchDisk oneItem).Reachable disk := System.Reachable.run (.start oneItemDisk rfl) ran
  obtain ⟨after, present, cost, -⟩ := (always oneItem disk 0 reached).settles 0 before 0 (by rw [items]; rfl)
    rfl rfl
  have six := congrArg (·[0]?) costs
  simp only [List.getElem?_map, present, Option.map_some, cost, runCost] at six
  revert six
  decide +kernel

end NimbleBrain.Tasks
