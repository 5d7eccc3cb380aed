import NimbleBrain.Tasks.DriverView

/- The driver keeps its books through every event. -/

namespace NimbleBrain.Tasks

namespace Books

variable {books : Books} {gap : Option Nat}

theorem Sound.withPending (sound : books.Sound gap) (pending : List Nat) :
    { books with pending := pending }.Sound gap :=
  { toBooked := { sound.toBooked with }, toTracked := { sound.toTracked with } }

/-- With nothing outstanding every item is pending or done. -/
theorem Sound.settled_of_idle (sound : books.Sound none) (idle : books.outstanding = []) :
    ∀ item ∈ books.items, isUnsettled item = false := by
  intro item member
  obtain ⟨i, found⟩ := List.mem_iff_getElem?.mp member
  by_contra busy
  have waits := (sound.current i).mpr ⟨Option.some_ne_none i ∘ Eq.symm, item, found, by simpa using busy⟩
  rw [idle] at waits
  exact List.not_mem_nil waits

theorem done_of_settled {item : BatchItem} (settled : isUnsettled item = false) (notPending : item.state ≠ .pending) :
    item.state = .done := by
  cases state : item.state <;> simp_all [isUnsettled]

end Books

namespace View

/-- The books of the driver agree with the state of the batch. -/
structure Good (view : View) : Prop where
  sound : view.books.Sound none
  listed : view.stopping = false → view.resident = true → view.books.Listed
  cancelled : view.state = .cancelled → ∀ item ∈ view.books.items, item.state ≠ .pending
  completed : view.state = .completed → ∀ item ∈ view.books.items, item.state = .done
  idle : view.resident = false → view.books.outstanding = [] ∧ view.state ≠ .running

/-- A running batch waits for a run or for its timer. It waits to settle only for a run. -/
structure Lively (view : View) : Prop where
  busy : view.resident = true → view.stopping = false → view.state = .running →
    view.books.outstanding ≠ [] ∨ view.retryTimer = true
  waits : view.resident = true → view.stopping = false → view.waitForSettle = true →
    view.books.outstanding ≠ []

variable {view : View}

theorem Good.of_open (sound : view.books.Sound none) (resident : view.resident = true)
    (listed : view.stopping = false → view.books.Listed) (notCancelled : view.state ≠ .cancelled)
    (notCompleted : view.state ≠ .completed) : view.Good where
  sound := sound
  listed active _ := listed active
  cancelled same := absurd same notCancelled
  completed same := absurd same notCompleted
  idle gone := by simp [resident] at gone

theorem Good.of_running (running : view.state = .running) (sound : view.books.Sound none)
    (resident : view.resident = true) (listed : view.stopping = false → view.books.Listed) : view.Good :=
  Good.of_open sound resident listed (fun same => by simp [running] at same)
    (fun same => by simp [running] at same)

theorem Lively.of_settled (quiet : view.waitForSettle = false)
    (busy : view.state = .running → view.books.outstanding ≠ [] ∨ view.retryTimer = true) :
    view.Lively where
  busy _ _ := busy
  waits _ _ waits := by simp [quiet] at waits

theorem Good.unload (good : view.Good) (idle : view.books.outstanding = []) (rests : view.state ≠ .running) :
    { view with retryTimer := false, resident := false }.Good :=
  { good with listed := fun _ resident => by simp at resident, idle := fun _ => ⟨idle, rests⟩ }

theorem Good.complete (sound : view.books.Sound none) (idle : view.books.outstanding = [])
    (none : ∀ item ∈ view.books.items, item.state ≠ .pending) :
    { view with state := .completed, retryTimer := false, resident := false }.Good where
  sound := sound
  listed _ resident := by simp at resident
  cancelled same := by simp at same
  completed _ item member :=
    Books.done_of_settled (sound.settled_of_idle idle item member) (none item member)
  idle _ := ⟨idle, fun same => by simp at same⟩

/-- An item may change in place as long as it keeps its run and does not become pending. -/
theorem Good.replace_same (good : view.Good) {index : Nat} {prev next : BatchItem}
    (found : view.books.items[index]? = some prev) (placed : next.index = index) (sameRun : next.runId = prev.runId)
    (sameState : isUnsettled next = isUnsettled prev) (notPending : next.state ≠ .pending)
    (done : prev.state = .done → next.state = .done) :
    { view with books := view.books.replace index prev next }.Good where
  sound := good.sound.replace_same found placed sameRun sameState
  listed active resident i item present waiting := by
    change (view.books.replace index prev next).items[i]? = some item at present
    rw [Books.replace_items found] at present
    split at present
    · rw [← Option.some.inj present] at waiting
      exact absurd waiting notPending
    · exact good.listed active resident i item present waiting
  cancelled same item member waiting := by
    obtain ⟨i, present⟩ := List.mem_iff_getElem?.mp member
    rw [Books.replace_items found] at present
    split at present
    · rw [← Option.some.inj present] at waiting
      exact absurd waiting notPending
    · exact good.cancelled same item (List.mem_of_getElem? present) waiting
  completed same item member := by
    obtain ⟨i, present⟩ := List.mem_iff_getElem?.mp member
    rw [Books.replace_items found] at present
    split at present
    · rw [← Option.some.inj present]
      exact done (good.completed same prev (List.mem_of_getElem? found))
    · exact good.completed same item (List.mem_of_getElem? present)
  idle := good.idle

theorem Lively.of_books (lively : view.Lively) {books : Books} (same : books.outstanding = view.books.outstanding) :
    { view with books := books }.Lively where
  busy resident active running := by
    change books.outstanding ≠ [] ∨ _
    rw [same]
    exact lively.busy resident active running
  waits resident active waiting := by
    change books.outstanding ≠ []
    rw [same]
    exact lively.waits resident active waiting

theorem Lively.of_unloaded (gone : view.resident = false) : view.Lively where
  busy resident := by simp [gone] at resident
  waits resident := by simp [gone] at resident

end View

namespace Driver

variable {driver : Driver} {door : Door}

theorem settleIdle_good (good : driver.view.Good) : driver.settleIdle.view.Good := by
  rcases driver.settleIdle_view with ⟨same, -⟩ | ⟨rests, idle, same | ⟨none, same⟩⟩
  · exact same ▸ good
  · exact same ▸ good.unload idle rests
  · exact same ▸ View.Good.complete good.sound idle none

theorem pause_good (good : driver.view.Good) (reason : BatchPauseReason) :
    (driver.pause door reason).view.Good := by
  rw [pause_view]
  split
  · exact { good with
            cancelled := fun same => by simp at same
            completed := fun same => by simp at same
            idle := fun gone => ⟨(good.idle gone).1, fun same => by simp at same⟩ }
  · exact good

/-- The door takes every request or says when to ask again. -/
def Willing (door : Door) : Prop := ∀ run, door.requestBatchRun run ≠ .refused .stopped

/-- What the loop of the pump relies on. -/
structure Pumping (driver : Driver) : Prop where
  sound : driver.books.Sound none
  running : driver.live.batch.state = .running
  active : driver.stopping = false
  resident : driver.resident = true
  noTimer : driver.live.retryTimer = false
  noWait : driver.live.waitForSettle = false

/-- What the pump leaves behind. -/
def Pumped (door : Door) (after : Driver) : Prop :=
  after.view.Good ∧ (Willing door → after.view.Lively)

theorem Pumping.withPending (pumping : driver.Pumping) (pending : List Nat) :
    (driver.withPending pending).Pumping :=
  { sound := pumping.sound.withPending pending, running := pumping.running, active := pumping.active
    resident := pumping.resident, noTimer := pumping.noTimer, noWait := pumping.noWait }

/-- The end of the loop completes the batch when nothing is left. -/
theorem Pumping.finishPump (pumping : driver.Pumping) (listed : driver.books.Listed)
    (full : driver.live.pending ≠ [] → driver.live.outstanding ≠ []) : Pumped door driver.finishPump := by
  unfold Driver.finishPump
  split
  · rename_i empty
    have seen := driver.complete_view empty.1
    refine ⟨?_, fun _ => View.Lively.of_unloaded (by rw [seen])⟩
    rw [seen]
    refine View.Good.complete pumping.sound empty.1 fun item member waiting => ?_
    obtain ⟨i, found⟩ := List.mem_iff_getElem?.mp member
    have inLine : i ∈ driver.live.pending := listed i item found waiting
    rw [empty.2] at inLine
    exact List.not_mem_nil inLine
  · rename_i more
    refine ⟨View.Good.of_running pumping.running pumping.sound pumping.resident (fun _ => listed), ?_⟩
    intro _
    refine View.Lively.of_settled pumping.noWait fun _ => .inl fun idle => ?_
    exact full (fun none => more ⟨idle, none⟩) idle

/-- A pause from within the loop leaves every pending item in line. -/
theorem Pumping.pause (pumping : driver.Pumping) (listed : driver.books.Listed) (reason : BatchPauseReason) :
    Pumped door (driver.pause door reason) := by
  have good : driver.view.Good :=
    View.Good.of_running pumping.running pumping.sound pumping.resident fun _ => listed
  refine ⟨pause_good good reason, fun _ => ?_⟩
  rw [pause_view, if_pos pumping.running]
  exact View.Lively.of_settled pumping.noWait fun running => by simp at running

theorem Pumping.ask (pumping : driver.Pumping) : { driver with asked := driver.asked + 1 }.Pumping :=
  { sound := { toBooked := { pumping.sound.toBooked with }
               toTracked := { pumping.sound.toTracked with
                 fresh := fun run member => (pumping.sound.fresh run member).trans (Nat.lt_succ_self _) } }
    running := pumping.running, active := pumping.active, resident := pumping.resident
    noTimer := pumping.noTimer, noWait := pumping.noWait }

variable {index : Nat} {item : BatchItem}

/-- A refused item goes back to the front of the line. -/
theorem Pumping.refuse (pumping : driver.Pumping) (reason : RunRefusal)
    (listed : (driver.withPending (index :: driver.live.pending)).books.Listed)
    (willing : Willing door → reason ≠ .stopped) : Pumped door (driver.refuse door index reason) := by
  have waiting := pumping.withPending (index :: driver.live.pending)
  cases reason with
  | notFound => exact waiting.pause listed .unavailable
  | budget => exact waiting.pause listed .budget
  | stopped =>
      refine ⟨?_, fun every => absurd rfl (willing every)⟩
      exact View.Good.of_running waiting.running waiting.sound waiting.resident fun _ => listed
  | queueFull =>
      refine ⟨?_, fun _ => View.Lively.of_settled waiting.noWait fun _ => .inr rfl⟩
      exact View.Good.of_running waiting.running waiting.sound waiting.resident fun _ => listed

theorem admitItem_books (driver : Driver) (started : Bool) (found : driver.live.items[index]? = some item)
    (placed : item.index = index) :
    (driver.admitItem index item started).books =
      driver.books.admitItem index item
        { item with state := if started then .running else .queued, runId := some driver.asked } :=
  congrArg View.books (driver.admitItem_view index started found placed)

/-- An admitted item keeps the loop going. -/
theorem Pumping.admitItem (pumping : driver.Pumping) (found : driver.live.items[index]? = some item)
    (waiting : item.state = .pending) (room : driver.live.outstanding.length < driver.live.batch.concurrency)
    (started : Bool) :
    (driver.admitItem index item started).Pumping := by
  have placed := pumping.sound.indexed index item found
  have seen := driver.admitItem_view index started found placed
  refine { sound := ?_, running := (congrArg View.state seen).trans pumping.running
           active := (congrArg View.stopping seen).trans pumping.active
           resident := (congrArg View.resident seen).trans pumping.resident
           noTimer := (congrArg View.retryTimer seen).trans pumping.noTimer
           noWait := (congrArg View.waitForSettle seen).trans pumping.noWait }
  rw [admitItem_books driver started found placed]
  refine pumping.sound.admitItem found waiting room placed ?_ rfl
  cases started <;> rfl

/-- An admitted item is no longer pending. -/
theorem admitItem_pending (driver : Driver) (started : Bool) (found : driver.live.items[index]? = some item)
    (placed : item.index = index) {i : Nat} {other : BatchItem}
    (present : (driver.admitItem index item started).live.items[i]? = some other) (pending : other.state = .pending) :
    driver.live.items[i]? = some other ∧ i ≠ index := by
  have items := congrArg Books.items (admitItem_books driver started found placed)
  change (driver.admitItem index item started).live.items = (driver.books.replace index item _).items at items
  rw [items, Books.replace_items found] at present
  split at present
  · rw [← Option.some.inj present] at pending
    cases started <;> cases pending
  · rename_i apart
    exact ⟨present, apart⟩

/-- The loop of the pump keeps the books and leaves the batch waiting for something. -/
theorem Pumping.pumpLoop (door : Door) (line : List Nat) (pumping : driver.Pumping)
    (listed : ∀ (i : Nat) (item : BatchItem), driver.live.items[i]? = some item → item.state = .pending → i ∈ line) :
    Pumped door (Driver.pumpLoop door line driver) := by
  induction line generalizing driver with
  | nil =>
      rw [Driver.pumpLoop]
      exact (pumping.withPending []).finishPump listed fun more => absurd rfl more
  | cons index rest ih =>
      have inRest : ∀ (i : Nat) (item : BatchItem), driver.live.items[i]? = some item →
          item.state = .pending → i ≠ index → i ∈ rest := by
        intro i item found waiting apart
        exact (List.mem_cons.mp (listed i item found waiting)).resolve_left apart
      rw [Driver.pumpLoop]
      split
      · rename_i room
        cases found : driver.live.items[index]? with
        | none =>
            refine ih pumping fun i item present waiting => inRest i item present waiting ?_
            rintro rfl
            rw [found] at present
            cases present
        | some item =>
            simp only
            split
            · rename_i other
              refine ih pumping fun i next present waiting => inRest i next present waiting ?_
              rintro rfl
              rw [found, Option.some.injEq] at present
              exact other (present ▸ waiting)
            · rename_i waiting
              have waiting : item.state = .pending := Classical.not_not.mp waiting
              split
              · exact (pumping.withPending (index :: rest)).pause listed .budget
              · have shifted := pumping.withPending rest
                have placed := pumping.sound.indexed index item found
                have went (started : Bool) : Pumped door (Driver.pumpLoop door rest
                    ((driver.withPending rest).admitItem index item started)) := by
                  refine ih (shifted.admitItem found waiting room started) fun i other present pending => ?_
                  obtain ⟨before, apart⟩ :=
                    admitItem_pending (driver.withPending rest) started found placed present pending
                  exact inRest i other before pending apart
                unfold Driver.requestItem
                cases answer : door.requestBatchRun (driver.withPending rest).asked with
                | refused reason =>
                    refine shifted.ask.refuse reason ?_ fun willing same => ?_
                    · intro i other present pending
                      exact listed i other present pending
                    · exact willing _ (same ▸ answer)
                | started => exact went true
                | queued => exact went false
      · rename_i full
        refine (pumping.withPending (index :: rest)).finishPump listed fun _ idle => ?_
        have none : driver.live.outstanding = [] := idle
        rw [none] at full
        exact full pumping.sound.positive

theorem settleIdle_lively (lively : driver.view.Lively) : driver.settleIdle.view.Lively := by
  rcases driver.settleIdle_view with ⟨same, -⟩ | ⟨-, -, same | ⟨-, same⟩⟩
  · exact same ▸ lively
  · exact same ▸ View.Lively.of_unloaded rfl
  · exact same ▸ View.Lively.of_unloaded rfl

theorem pause_lively (lively : driver.view.Lively) (reason : BatchPauseReason) :
    (driver.pause door reason).view.Lively := by
  rw [pause_view]
  split
  · exact { busy := fun _ _ running => by simp at running, waits := lively.waits }
  · exact lively

/-- A batch that waits to settle still has a run outstanding. -/
def Waits (driver : Driver) : Prop :=
  driver.stopping = false → driver.live.waitForSettle = true → driver.live.outstanding ≠ []

/-- The pump keeps the books and leaves a running batch waiting for something. -/
theorem pump_pumped (door : Door) (good : driver.view.Good) (resident : driver.resident = true) :
    (driver.pump door).view.Good ∧
      (Willing door → driver.Waits → (driver.pump door).view.Lively) := by
  unfold pump
  split
  · rename_i rests
    refine ⟨settleIdle_good good, fun _ waits => settleIdle_lively ?_⟩
    exact { busy := fun _ _ running => absurd running rests
            waits := fun _ active waiting => waits active waiting }
  · rename_i running
    have running : driver.live.batch.state = .running := Classical.not_not.mp running
    split
    · rename_i gated
      refine ⟨good, fun _ waits => ?_⟩
      refine { busy := fun _ active _ => ?_, waits := fun _ active waiting => waits active waiting }
      have active : driver.stopping = false := active
      simp only [active, Bool.false_or, Bool.or_eq_true] at gated
      rcases gated with timer | waiting
      · exact .inr timer
      · exact .inl (waits active waiting)
    · rename_i clear
      simp only [Bool.or_eq_true, not_or, Bool.not_eq_true] at clear
      have pumping : driver.Pumping :=
        { sound := good.sound, running := running, active := clear.1.1, resident := resident
          noTimer := clear.1.2, noWait := clear.2 }
      have pumped := pumping.pumpLoop door driver.live.pending (good.listed clear.1.1 resident)
      exact ⟨pumped.1, fun willing _ => pumped.2 willing⟩

/-- Activation waits for nothing and pumps. -/
theorem activate_pumped (door : Door) (good : driver.view.Good) (resident : driver.resident = true) :
    Pumped door (driver.activate door) := by
  let ready := (driver.onLive fun lb => { lb with waitForSettle := false }).openAnchor
  have seen : ready.view = { driver.view with waitForSettle := false } := openAnchor_view _
  have readyGood : ready.view.Good := by
    rw [seen]
    exact { good with }
  have pumped := pump_pumped door readyGood ((congrArg View.resident seen).trans resident)
  refine ⟨pumped.1, fun willing => pumped.2 willing fun _ waiting => ?_⟩
  have quiet : ready.live.waitForSettle = false := congrArg View.waitForSettle seen
  rw [quiet] at waiting
  cases waiting

end Driver

end NimbleBrain.Tasks
