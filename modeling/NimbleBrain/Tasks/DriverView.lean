import NimbleBrain.Tasks.Books

/- Each operation of the driver changes its view in a small way. -/

namespace NimbleBrain.Tasks

/-- The view of a driver leaves out its spend accounts and the notes on single runs. -/
structure View where
  books : Books
  stopping : Bool
  resident : Bool
  state : BatchState
  retryTimer : Bool
  waitForSettle : Bool

namespace Driver

def view (driver : Driver) : View where
  books := driver.books
  stopping := driver.stopping
  resident := driver.resident
  state := driver.live.batch.state
  retryTimer := driver.live.retryTimer
  waitForSettle := driver.live.waitForSettle

@[simp] theorem releaseAnchor_view (driver : Driver) : driver.releaseAnchor.view = driver.view := by
  unfold releaseAnchor
  split <;> rfl

@[simp] theorem openAnchor_view (driver : Driver) : driver.openAnchor.view = driver.view := by
  unfold openAnchor
  split <;> rfl

theorem unload_view (driver : Driver) :
    driver.unload.view = { driver.view with retryTimer := false, resident := false } := by
  have released := driver.clearTimer.releaseAnchor_view
  simp only [view, View.mk.injEq] at released ⊢
  exact ⟨released.1, released.2.1, rfl, released.2.2.2.1, released.2.2.2.2.1, released.2.2.2.2.2⟩

theorem complete_view (driver : Driver) (idle : driver.live.outstanding = []) :
    driver.complete.view =
      { driver.view with state := .completed, retryTimer := false, resident := false } := by
  have same : (driver.onBatch fun batch => { batch with state := .completed }).live.outstanding = [] := idle
  rw [complete, if_pos same, unload_view]
  rfl

/-- An idle batch leaves memory. It is completed first when it is paused with nothing pending. -/
theorem settleIdle_view (driver : Driver) :
    driver.settleIdle.view = driver.view ∧
        (driver.live.batch.state = .running ∨ driver.live.outstanding ≠ []) ∨
      driver.live.batch.state ≠ .running ∧ driver.live.outstanding = [] ∧
        (driver.settleIdle.view = { driver.view with retryTimer := false, resident := false } ∨
          (∀ item ∈ driver.live.items, item.state ≠ .pending) ∧
          driver.settleIdle.view =
            { driver.view with state := .completed, retryTimer := false, resident := false }) := by
  unfold settleIdle
  split
  · rename_i busy
    exact .inl ⟨rfl, busy⟩
  · rename_i quiet
    simp only [not_or, Classical.not_not] at quiet
    refine .inr ⟨quiet.1, quiet.2, ?_⟩
    split
    · rename_i done
      refine .inr ⟨by simpa using done.2, ?_⟩
      rw [unload_view, complete_view _ (by exact quiet.2)]
      rfl
    · exact .inl (unload_view driver)

/-- A pause stops a running batch and clears its timer. -/
theorem pause_view (door : Door) (reason : BatchPauseReason) (driver : Driver) :
    (driver.pause door reason).view =
      if driver.live.batch.state = .running then
        { driver.view with state := .paused, retryTimer := false }
      else driver.view := by
  unfold pause
  split
  · rw [releaseAnchor_view]
    rfl
  · rfl

theorem setItem_view (driver : Driver) (next : BatchItem) {prev : BatchItem}
    (found : driver.live.items[next.index]? = some prev) :
    (driver.setItem next).view =
      { driver.view with books := driver.books.replace next.index prev next } := by
  have replaced : driver.live.setItem next =
      { driver.live with
        items := driver.live.items.set next.index next
        batch := { driver.live.batch with
          counts := (driver.live.batch.counts.add (bucketOf prev) (-1)).add (bucketOf next) 1
          costUsd := driver.live.batch.costUsd + (next.cost - prev.cost) } } := by
    rw [LiveBatch.setItem, found]
  rw [setItem, onLive, replaced]
  rfl

theorem admitItem_view (driver : Driver) (index : Nat) {item : BatchItem} (started : Bool)
    (found : driver.live.items[index]? = some item) (placed : item.index = index) :
    (driver.admitItem index item started).view =
      { driver.view with
        books := driver.books.admitItem index item
          { item with state := if started then .running else .queued, runId := some driver.asked } } := by
  subst placed
  let run : BatchRun :=
    ⟨driver.asked, item.index, if started then .dispatched driver.live.accountsFor else .waiting⟩
  let waiting : Driver := { driver with
    asked := driver.asked + 1
    runs := driver.runs ++ [run]
    live := { driver.live with
      outstanding := driver.live.outstanding ++ [item.index]
      settledAtRequest := driver.live.settledAtRequest ++ [(driver.asked, driver.live.settled)] } }
  have seen := waiting.setItem_view
    { item with state := if started then .running else .queued, runId := some driver.asked } found
  have same : driver.admitItem item.index item started = waiting.setItem
      { item with state := if started then .running else .queued, runId := some driver.asked } := rfl
  rw [same, seen]
  simp [view, Driver.books, Books.admitItem, Books.replace, waiting, run]

end Driver

end NimbleBrain.Tasks
