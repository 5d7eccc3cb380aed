import NimbleBrain.Tasks.DriverView

/- The driver moves money only through its anchor and through the runs it asks for. -/

namespace NimbleBrain.Tasks

open Spend

/-- What decides over the money of a batch. -/
structure Purse where
  account : String
  stopping : Bool
  budgetUsd : Option ℚ
  anchor : Option Nat
  spend : SpendBalances
  runs : List BatchRun

def Driver.purse (driver : Driver) : Purse where
  account := batchAccountId driver.live.batch
  stopping := driver.stopping
  budgetUsd := driver.live.batch.budgetUsd
  anchor := driver.live.anchor
  spend := driver.spend
  runs := driver.runs

namespace Purse

def releaseAnchor (purse : Purse) : Purse :=
  match purse.anchor with
  | none => purse
  | some index =>
      { purse with
        anchor := none
        spend := match purse.spend.holds[index]? with
          | none => purse.spend
          | some hold => purse.spend.release index hold }

/-- The account of the batch, less what the batch has recorded as its cost. -/
def accountsFor (purse : Purse) (costUsd : ℚ) : List SpendAccount :=
  match purse.budgetUsd with
  | none => []
  | some budget => [⟨purse.account, .usd, max 0 (budget - costUsd)⟩]

def openAnchor (purse : Purse) (costUsd : ℚ) : Purse :=
  if purse.budgetUsd.isSome ∧ purse.anchor = none then
    { purse with
      spend := purse.spend.openAccounts (purse.accountsFor costUsd) none
      anchor := some purse.spend.holds.length }
  else purse

/-- A run that was just asked for waits at the door or has read its accounts. -/
def Fresh (purse : Purse) (stage : RunStage) : Prop :=
  stage = .waiting ∨ ∃ costUsd, stage = .dispatched (purse.accountsFor costUsd)

/-- The driver gives its anchor back and asks for runs. It forgets its anchor with the batch. -/
inductive Moves (before : Purse) : Purse → Prop
  | same : Moves before before
  | freed (after : Purse) (moved : Moves before after) : Moves before after.releaseAnchor
  | forgot (after : Purse) (moved : Moves before after) : Moves before { after with anchor := none }
  | asked (after : Purse) (run : BatchRun) (moved : Moves before after) (fresh : after.Fresh run.stage) :
      Moves before { after with runs := after.runs ++ [run] }

theorem Moves.trans {first second third : Purse} (one : Moves first second) (two : Moves second third) :
    Moves first third := by
  induction two with
  | same => exact one
  | freed after _ ih => exact .freed after ih
  | forgot after _ ih => exact .forgot after ih
  | asked after run _ fresh ih => exact .asked after run ih fresh

theorem releaseAnchor_stopping (purse : Purse) : purse.releaseAnchor.stopping = purse.stopping := by
  unfold releaseAnchor
  split <;> rfl

theorem openAnchor_stopping (purse : Purse) (costUsd : ℚ) :
    (purse.openAnchor costUsd).stopping = purse.stopping := by
  unfold openAnchor
  split <;> rfl

theorem Moves.stopping {before after : Purse} (moved : Moves before after) :
    after.stopping = before.stopping := by
  induction moved with
  | same => rfl
  | freed after _ ih => exact after.releaseAnchor_stopping.trans ih
  | forgot _ _ ih => exact ih
  | asked _ _ _ _ ih => exact ih

end Purse

namespace Driver

variable {driver : Driver} {door : Door}

@[simp] theorem releaseAnchor_purse (driver : Driver) :
    driver.releaseAnchor.purse = driver.purse.releaseAnchor := by
  unfold releaseAnchor Purse.releaseAnchor
  cases anchor : driver.live.anchor with
  | none => simp [purse, anchor]
  | some index => cases found : driver.spend.holds[index]? <;> simp [purse, anchor, found]

theorem openAnchor_purse (driver : Driver) :
    driver.openAnchor.purse = driver.purse.openAnchor driver.live.batch.costUsd := by
  unfold openAnchor Purse.openAnchor
  split
  · rename_i opens
    rw [if_pos (by exact opens)]
    rfl
  · rename_i stays
    rw [if_neg (by exact stays)]

@[simp] theorem setItem_purse (driver : Driver) (next : BatchItem) :
    (driver.setItem next).purse = driver.purse := by
  cases found : driver.live.items[next.index]? with
  | none => rw [setItem, onLive, LiveBatch.setItem, found]
  | some prev =>
      rw [setItem, onLive, LiveBatch.setItem, found]
      rfl

theorem unload_moves (driver : Driver) : driver.purse.Moves driver.unload.purse := by
  have seen : driver.unload.purse = driver.purse.releaseAnchor := driver.clearTimer.releaseAnchor_purse
  rw [seen]
  exact .freed _ .same

theorem complete_moves (driver : Driver) : driver.purse.Moves driver.complete.purse := by
  unfold complete
  dsimp only
  split
  · exact unload_moves (driver.onBatch fun batch => { batch with state := .completed })
  · exact .same

theorem settleIdle_moves (driver : Driver) : driver.purse.Moves driver.settleIdle.purse := by
  unfold settleIdle
  split
  · exact .same
  · split
    · have completed := complete_moves (driver.onBatch fun batch => { batch with pause := none })
      exact completed.trans (unload_moves _)
    · exact driver.unload_moves

theorem pause_moves (door : Door) (reason : BatchPauseReason) (driver : Driver) :
    driver.purse.Moves (driver.pause door reason).purse := by
  unfold pause
  split
  · rw [releaseAnchor_purse]
    exact .freed _ .same
  · exact .same

theorem refuse_moves (door : Door) (index : Nat) (reason : RunRefusal) (driver : Driver) :
    driver.purse.Moves (driver.refuse door index reason).purse := by
  let waiting := driver.onLive fun lb => { lb with pending := index :: lb.pending }
  cases reason with
  | notFound => exact pause_moves door .unavailable waiting
  | budget => exact pause_moves door .budget waiting
  | stopped => exact .same
  | queueFull => exact .same

theorem admitItem_moves (index : Nat) (item : BatchItem) (started : Bool) (driver : Driver) :
    driver.purse.Moves (driver.admitItem index item started).purse := by
  unfold admitItem
  dsimp only
  rw [setItem_purse]
  refine .asked driver.purse _ .same ?_
  cases started with
  | true => exact .inr ⟨driver.live.batch.costUsd, rfl⟩
  | false => exact .inl rfl

theorem requestItem_moves (door : Door) (index : Nat) (item : BatchItem) (driver : Driver) :
    driver.purse.Moves (driver.requestItem door index item).1.purse := by
  unfold requestItem
  split
  · rename_i reason _
    exact refuse_moves door index reason { driver with asked := driver.asked + 1 }
  · exact admitItem_moves index item true driver
  · exact admitItem_moves index item false driver

theorem finishPump_moves (driver : Driver) : driver.purse.Moves driver.finishPump.purse := by
  unfold finishPump
  split
  · exact driver.complete_moves
  · exact .same

theorem pumpLoop_moves (door : Door) (line : List Nat) (driver : Driver) :
    driver.purse.Moves (driver.pumpLoop door line).purse := by
  induction line generalizing driver with
  | nil => exact finishPump_moves (driver.withPending [])
  | cons index rest ih =>
      rw [pumpLoop]
      split
      · split
        · exact ih driver
        · rename_i item _
          split
          · exact ih driver
          · split
            · exact pause_moves door .budget (driver.withPending (index :: rest))
            · have asked := requestItem_moves door index item (driver.withPending rest)
              dsimp only
              split
              · exact asked.trans (ih _)
              · exact asked
      · exact finishPump_moves (driver.withPending (index :: rest))

theorem pump_moves (door : Door) (driver : Driver) : driver.purse.Moves (driver.pump door).purse := by
  unfold pump
  split
  · exact driver.settleIdle_moves
  · split
    · exact .same
    · exact pumpLoop_moves door _ driver

theorem itemStarted_purse (driver : Driver) (index : Nat) (runId : RunId) :
    (driver.itemStarted index runId).purse = driver.purse := by
  unfold itemStarted
  split
  · rfl
  · split
    · rfl
    · exact driver.setItem_purse _

theorem settleItem_purse (driver : Driver) (index : Nat) (item : BatchItem) (run : TaskRun)
    (batchStop withdrawn : Bool) :
    (driver.settleItem index item run batchStop withdrawn).purse = driver.purse := by
  unfold settleItem
  dsimp only
  split
  · exact driver.setItem_purse _
  · split
    · exact driver.setItem_purse _
    · split
      · exact driver.setItem_purse _
      · exact driver.setItem_purse _

theorem followStop_moves (door : Door) (run : TaskRun) (reservedOut : Bool) (driver : Driver) :
    driver.purse.Moves (driver.followStop door run reservedOut).purse := by
  unfold followStop
  split
  · exact .same
  · split
    · exact pause_moves door .budget driver
    · split
      · exact pause_moves door .budget driver
      · exact .same

theorem applyStopRule_moves (door : Door) (driver : Driver) :
    driver.purse.Moves (driver.applyStopRule door).purse := by
  unfold applyStopRule
  dsimp only
  split
  · exact .same
  · split
    · exact .same
    · split
      · exact .same
      · split
        · exact .same
        · split
          · exact .same
          · exact pause_moves door .passRate driver

theorem itemEnded_moves (door : Door) (index : Nat) (runId : RunId) (run : TaskRun) (driver : Driver) :
    driver.purse.Moves (driver.itemEnded door index runId run).purse := by
  unfold itemEnded
  dsimp only
  split
  · exact .same
  · rename_i item _
    split
    · exact .same
    · have noted : driver.purse =
          (((driver.leaveOutstanding index).noteEnded runId run).forgetWithdrawn runId).purse := rfl
      rw [noted, ← settleItem_purse _ index item run]
      exact ((followStop_moves door run _ _).trans (applyStopRule_moves door _)).trans (pump_moves door _)

theorem itemRejected_moves (door : Door) (index : Nat) (runId : RunId) (error : String) (driver : Driver) :
    driver.purse.Moves (driver.itemRejected door index runId error).purse := by
  unfold itemRejected
  dsimp only
  split
  · exact pump_moves door (driver.leaveOutstanding index)
  · split
    · rw [show driver.purse = (driver.leaveOutstanding index).purse from rfl, ← setItem_purse]
      exact pump_moves door _
    · exact pump_moves door (driver.leaveOutstanding index)

theorem cancelPending_purse (driver : Driver) (list : List BatchItem) :
    (driver.cancelPending list).purse = driver.purse := by
  induction list generalizing driver with
  | nil => rfl
  | cons item rest ih =>
      rw [cancelPending]
      split
      · exact (ih _).trans (driver.setItem_purse _)
      · exact ih driver

theorem requeue_purse (driver : Driver) (list : List BatchItem) :
    (driver.requeue list).purse = driver.purse := by
  induction list generalizing driver with
  | nil => rfl
  | cons item rest ih => exact (ih _).trans (driver.setItem_purse _)

end Driver

end NimbleBrain.Tasks
