import NimbleBrain.Tasks.Accounting

/- The operator's controls keep the books of the batch. -/

namespace NimbleBrain.Tasks

namespace View

/-- Only items and their totals changed. -/
def ItemsOnly (before after : View) : Prop :=
  after = { before with
    books := { before.books with
      items := after.books.items, counts := after.books.counts, costUsd := after.books.costUsd } }

theorem ItemsOnly.trans {first second third : View} (one : ItemsOnly first second) (two : ItemsOnly second third) :
    ItemsOnly first third := by
  rw [ItemsOnly] at one two ⊢
  rw [one] at two
  exact two

end View

namespace Driver

variable {driver : Driver} {door : Door}

theorem setItem_only (driver : Driver) (next : BatchItem) :
    View.ItemsOnly driver.view (driver.setItem next).view := by
  cases found : driver.live.items[next.index]? with
  | none =>
      have same : driver.setItem next = driver := by
        rw [setItem, onLive, LiveBatch.setItem, found]
      rw [same]
      rfl
  | some prev =>
      rw [setItem_view driver next found]
      rfl

variable {prev : BatchItem} {affected : Nat} {changed : Driver}

theorem setItem_books (driver : Driver) (next : BatchItem) (found : driver.live.items[next.index]? = some prev) :
    (driver.setItem next).books = driver.books.replace next.index prev next :=
  congrArg View.books (driver.setItem_view next found)

theorem setItem_items (driver : Driver) (next : BatchItem) (found : driver.live.items[next.index]? = some prev)
    (i : Nat) :
    (driver.setItem next).live.items[i]? =
      if i = next.index then some next else driver.live.items[i]? := by
  have same : (driver.setItem next).live.items = (driver.books.replace next.index prev next).items :=
    congrArg Books.items (driver.setItem_books next found)
  rw [same, Books.replace_items found]
  rfl

/-- A load starts a batch that was not in memory with nothing outstanding. -/
theorem load_view (good : driver.view.Good) :
    driver.load.view = driver.view ∧ driver.resident = true ∨
      driver.live.batch.state ≠ .running ∧
        driver.load.view = { driver.view with
          resident := true, retryTimer := false, waitForSettle := false
          books := { driver.books with pending := pendingIndices driver.live.items } } := by
  unfold load
  split
  · rename_i resident
    exact .inl ⟨rfl, resident⟩
  · rename_i gone
    obtain ⟨idle, rests⟩ := good.idle (by simpa [view] using gone)
    refine .inr ⟨rests, ?_⟩
    have none : driver.live.outstanding = [] := idle
    simp [view, books, loaded, none]

theorem pendingIndices_listed {items : List BatchItem} {i : Nat} {item : BatchItem}
    (indexed : ∀ (i : Nat) (item : BatchItem), items[i]? = some item → item.index = i)
    (found : items[i]? = some item) (waiting : item.state = .pending) : i ∈ pendingIndices items := by
  rw [← indexed i item found]
  exact List.mem_map_of_mem (List.mem_filter.mpr ⟨List.mem_of_getElem? found, by simpa using waiting⟩)

theorem load_resident (driver : Driver) : driver.load.resident = true := by
  unfold load
  split
  · assumption
  · rfl

theorem load_good (good : driver.view.Good) : driver.load.view.Good := by
  rcases load_view good with ⟨same, -⟩ | ⟨rests, same⟩
  · exact same ▸ good
  · rw [same]
    exact {
      sound := good.sound.withPending _
      listed := fun _ _ i item found waiting =>
        pendingIndices_listed good.sound.indexed found waiting
      cancelled := good.cancelled
      completed := good.completed
      idle := fun gone => by simp at gone }

theorem load_lively (good : driver.view.Good) (lively : driver.view.Lively) :
    driver.load.view.Lively := by
  rcases load_view good with ⟨same, -⟩ | ⟨rests, same⟩
  · exact same ▸ lively
  · exact same ▸ View.Lively.of_settled rfl fun running => absurd running rests

/-- The cancelled items are those of the list that were pending. -/
theorem cancelPending_spec (driver : Driver) (list : List BatchItem) (sound : driver.books.Sound none)
    (current : ∀ item ∈ list, driver.live.items[item.index]? = some item) (distinct : (list.map (·.index)).Nodup) :
    (driver.cancelPending list).books.Sound none ∧
      View.ItemsOnly driver.view (driver.cancelPending list).view ∧
      ∀ (i : Nat) (other : BatchItem), (driver.cancelPending list).live.items[i]? = some other →
        other.state = .pending → driver.live.items[i]? = some other ∧ other ∉ list := by
  induction list generalizing driver with
  | nil => exact ⟨sound, rfl, fun i other found _ => ⟨found, List.not_mem_nil⟩⟩
  | cons item rest ih =>
      obtain ⟨fresh, distinct⟩ := List.nodup_cons.mp distinct
      have found := current item (List.mem_cons_self ..)
      rw [cancelPending]
      split
      · rename_i waiting
        let next : BatchItem := { item with state := .done, execution := some .cancelled }
        have items := driver.setItem_items next found
        have idle : (driver.setItem next).books.Sound none := by
          rw [driver.setItem_books next found]
          exact sound.replace_idle found rfl (by simp [isUnsettled, waiting]) rfl
        have later : ∀ other ∈ rest, (driver.setItem next).live.items[other.index]? = some other := by
          intro other member
          have apart : other.index ≠ next.index := fun same =>
            fresh (List.mem_map.mpr ⟨other, member, same⟩)
          rw [items, if_neg apart]
          exact current other (List.mem_cons_of_mem _ member)
        obtain ⟨after, only, kept⟩ := ih (driver.setItem next) idle later distinct
        refine ⟨after, (setItem_only driver next).trans only, ?_⟩
        intro i other present pending
        obtain ⟨before, absent⟩ := kept i other present pending
        rw [items] at before
        split at before
        · rw [← Option.some.inj before] at pending
          cases pending
        · rename_i apart
          refine ⟨before, fun inside => ?_⟩
          rcases List.mem_cons.mp inside with same | inside
          · have place : other.index = item.index := congrArg BatchItem.index same
            exact apart ((sound.indexed i other before).symm.trans place)
          · exact absent inside
      · rename_i settled
        obtain ⟨after, only, kept⟩ := ih driver sound
          (fun other member => current other (List.mem_cons_of_mem _ member)) distinct
        refine ⟨after, only, fun i other present pending => ?_⟩
        obtain ⟨before, absent⟩ := kept i other present pending
        refine ⟨before, fun inside => ?_⟩
        rcases List.mem_cons.mp inside with same | inside
        · exact settled (same ▸ pending)
        · exact absent inside

/-- The items that go to the end of the line are pending again. -/
theorem requeue_spec (driver : Driver) (list : List BatchItem) (sound : driver.books.Sound none)
    (current : ∀ item ∈ list, driver.live.items[item.index]? = some item)
    (settled : ∀ item ∈ list, isUnsettled item = false) (distinct : (list.map (·.index)).Nodup) :
    (driver.requeue list).books.Sound none ∧
      (driver.books.Listed → (driver.requeue list).books.Listed) ∧
      (driver.requeue list).view = { driver.view with books := (driver.requeue list).books } ∧
      (driver.requeue list).books.outstanding = driver.books.outstanding ∧
      (driver.requeue list).books.costUsd = driver.books.costUsd := by
  induction list generalizing driver with
  | nil => exact ⟨sound, id, rfl, rfl, rfl⟩
  | cons item rest ih =>
      obtain ⟨fresh, distinct⟩ := List.nodup_cons.mp distinct
      have found := current item (List.mem_cons_self ..)
      let next := backToPending item
      let again := driver.setItem next
      let queued := again.withPending (again.live.pending ++ [item.index])
      have items : ∀ i, queued.live.items[i]? = _ := driver.setItem_items next found
      have books := driver.setItem_books next found
      have seen := driver.setItem_view next found
      have idle : queued.books.Sound none := by
        have replaced : again.books.Sound none := by
          rw [books]
          exact sound.replace_idle found rfl (settled item (List.mem_cons_self ..)) rfl
        exact replaced.withPending _
      have line : queued.live.pending = driver.live.pending ++ [item.index] :=
        congrArg (fun books : Books => books.pending ++ [item.index]) books
      have later : ∀ other ∈ rest, queued.live.items[other.index]? = some other := by
        intro other member
        have apart : other.index ≠ next.index := fun same =>
          fresh (List.mem_map.mpr ⟨other, member, same⟩)
        rw [items, if_neg apart]
        exact current other (List.mem_cons_of_mem _ member)
      obtain ⟨after, listed, view, outstanding, costUsd⟩ := ih queued idle later
        (fun other member => settled other (List.mem_cons_of_mem _ member)) distinct
      rw [requeue]
      refine ⟨after, fun inLine => listed ?_, ?_, ?_, ?_⟩
      · intro i other present waiting
        change i ∈ queued.live.pending
        rw [line, List.mem_append, List.mem_singleton]
        rw [show queued.books.items[i]? = _ from items i] at present
        split at present
        · rename_i same
          exact .inr same
        · exact .inl (inLine i other present waiting)
      · refine view.trans ?_
        have steer : queued.view = { driver.view with books := queued.books } := by
          have replaced : again.view = { driver.view with books := again.books } := by
            rw [books]
            exact seen
          exact congrArg (fun view : View => { view with books := queued.books }) replaced
        rw [steer]
      · have same : again.books.outstanding = driver.books.outstanding := by
          rw [books]
          rfl
        exact outstanding.trans same
      · have same : again.books.costUsd = driver.books.costUsd := by
          rw [books]
          change driver.books.costUsd + (next.cost - item.cost) = driver.books.costUsd
          rw [show next.cost = item.cost from rfl, sub_self, add_zero]
        exact costUsd.trans same

/-- What an event of the driver leaves behind when it starts from good books. -/
def Kept (door : Door) (before after : Driver) : Prop :=
  after.view.Good ∧ (Willing door → before.view.Lively → after.view.Lively)

theorem Kept.trans {first second third : Driver} (one : Kept door first second) (two : Kept door second third) :
    Kept door first third :=
  ⟨two.1, fun willing lively => two.2 willing (one.2 willing lively)⟩

theorem load_kept (good : driver.view.Good) : Kept door driver driver.load :=
  ⟨load_good good, fun _ lively => load_lively good lively⟩

theorem settleIdle_kept (good : driver.view.Good) : Kept door driver driver.settleIdle :=
  ⟨settleIdle_good good, fun _ lively => settleIdle_lively lively⟩

theorem Pumped.kept {before after : Driver} (pumped : Pumped door after) : Kept door before after :=
  ⟨pumped.1, fun willing _ => pumped.2 willing⟩

theorem controlPause_kept (good : driver.view.Good) (done : driver.controlPause door = .ok (changed, affected)) :
    Kept door driver changed := by
  unfold controlPause at done
  split at done
  · cases done
  · cases done
    exact ⟨pause_good good .manual, fun _ lively => pause_lively lively .manual⟩

theorem setBudget_view {budget : ℚ} (accepted : driver.setBudget budget = .ok changed) :
    changed.view = driver.view := by
  unfold setBudget at accepted
  split at accepted
  · cases accepted
  · split at accepted
    · cases accepted
      rfl
    · split at accepted
      · cases accepted
      · cases accepted
        rfl

theorem activate_running (running : driver.view.state = .running) (sound : driver.books.Sound none)
    (resident : driver.resident = true) (listed : driver.stopping = false → driver.books.Listed) :
    Pumped door (driver.activate door) :=
  activate_pumped door (View.Good.of_running running sound resident listed) resident

theorem controlResume_kept (good : driver.view.Good) (resident : driver.resident = true) {budgetUsd : Option ℚ}
    (done : driver.controlResume door budgetUsd = .ok (changed, affected)) : Kept door driver changed := by
  unfold controlResume at done
  split at done
  · cases done
  · cases done
  · split at done
    · cases done
    · cases done
      exact ⟨good, fun _ lively => lively⟩
  · split at done
    · cases done
    · rename_i funded accepted
      cases done
      have same : funded.view = driver.view := by
        cases budgetUsd with
        | none =>
            cases accepted
            rfl
        | some budget => exact setBudget_view accepted
      have books : funded.runAgain.books = driver.books := congrArg View.books same
      have present : funded.resident = true := (congrArg View.resident same).trans resident
      have pumped : Pumped door (funded.runAgain.activate door) := by
        apply activate_running rfl
        · rw [books]
          exact good.sound
        · exact present
        · intro active
          rw [books]
          exact good.listed ((congrArg View.stopping same).symm.trans active) resident
      exact pumped.kept

theorem controlCancel_kept (good : driver.view.Good) (resident : driver.resident = true)
    (done : driver.controlCancel door = .ok (changed, affected)) :
    Kept door driver changed := by
  unfold controlCancel at done
  split at done
  · cases done
    exact ⟨good, fun _ lively => lively⟩
  · cases done
  · let base := (driver.onBatch fun batch => { batch with state := .cancelled, pause := none }).clearTimer
    have sound : base.books.Sound none := good.sound
    obtain ⟨after, only, kept⟩ := base.cancelPending_spec driver.live.items sound
      (fun item member => good.sound.current_of_mem member) good.sound.nodup_places
    obtain ⟨rfl, -⟩ := Prod.mk.inj (Except.ok.inj done)
    have none : ∀ item ∈ (base.cancelPending driver.live.items).live.items, item.state ≠ .pending := by
      intro item member waiting
      obtain ⟨i, found⟩ := List.mem_iff_getElem?.mp member
      obtain ⟨before, absent⟩ := kept i item found waiting
      exact absent (List.mem_of_getElem? before)
    have state : (base.cancelPending driver.live.items).view.state = .cancelled := congrArg View.state only
    have stays : (base.cancelPending driver.live.items).view.resident = true :=
      (congrArg View.resident only).trans resident
    rw [Kept, releaseAnchor_view]
    refine ⟨?_, fun _ lively => ?_⟩
    · exact {
        sound := after.withPending []
        listed := fun _ _ i item found waiting => absurd waiting (none item (List.mem_of_getElem? found))
        cancelled := fun _ => none
        completed := fun same => by
          have clash := state.symm.trans same
          cases clash
        idle := fun gone => by
          have clash := stays.symm.trans gone
          cases clash }
    · exact {
        busy := fun _ _ same => by
          have clash := state.symm.trans same
          cases clash
        waits := fun _ active waiting => by
          have before := lively.waits resident ((congrArg View.stopping only).symm.trans active)
            ((congrArg View.waitForSettle only).symm.trans waiting)
          intro idle
          exact before ((congrArg (fun view : View => view.books.outstanding) only).symm.trans idle) }

theorem controlRerun_kept (good : driver.view.Good) (resident : driver.resident = true)
    (done : driver.controlRerun door = .ok (changed, affected)) :
    Kept door driver changed := by
  unfold controlRerun at done
  split at done
  · cases done
  · dsimp only at done
    split at done
    · cases done
      exact ⟨good, fun _ lively => lively⟩
    · obtain ⟨rfl, -⟩ := Prod.mk.inj (Except.ok.inj done)
      obtain ⟨sound, listed, seen, -, -⟩ := driver.requeue_spec (driver.live.items.filter isRerunnable)
        good.sound (fun item member => good.sound.current_of_mem (List.mem_of_mem_filter member))
        (fun item member => isRerunnable_settled (List.mem_filter.mp member).2)
        (good.sound.nodup_places.sublist (List.filter_sublist.map _))
      have stays : (driver.requeue (driver.live.items.filter isRerunnable)).resident = true :=
        (congrArg View.resident seen).trans resident
      have inLine : (driver.requeue (driver.live.items.filter isRerunnable)).stopping = false →
          (driver.requeue (driver.live.items.filter isRerunnable)).books.Listed := fun active =>
        listed (good.listed ((congrArg View.stopping seen).symm.trans active) resident)
      apply Pumped.kept
      split
      · rename_i running
        exact activate_running running sound stays inLine
      · exact activate_running rfl sound stays inLine

/-- Every action of the operator keeps the books, also when it is refused. -/
theorem control_kept (good : driver.view.Good) (action : BatchAction) (budgetUsd : Option ℚ) :
    Kept door driver (driver.control door action budgetUsd).1 := by
  have fetched : Kept door driver driver.load := load_kept good
  have answered : ∀ (changed : Driver) (affected : Nat),
      driver.load.controlAction door action budgetUsd = .ok (changed, affected) →
        Kept door driver.load changed := by
    intro changed affected done
    unfold controlAction at done
    split at done
    · cases done
    · cases action with
      | pause => exact controlPause_kept fetched.1 done
      | resume => exact controlResume_kept fetched.1 driver.load_resident done
      | cancel => exact controlCancel_kept fetched.1 driver.load_resident done
      | rerunFailed => exact controlRerun_kept fetched.1 driver.load_resident done
  unfold control
  split
  · rename_i changed affected done
    have kept := answered changed affected done
    exact (fetched.trans kept).trans (settleIdle_kept kept.1)
  · exact fetched.trans (settleIdle_kept fetched.1)

/-- An item that changes in place leaves the batch waiting for the same runs. -/
theorem setItem_kept (good : driver.view.Good) (next : BatchItem)
    (found : driver.live.items[next.index]? = some prev) (sameRun : next.runId = prev.runId)
    (sameState : isUnsettled next = isUnsettled prev) (notPending : next.state ≠ .pending)
    (done : prev.state = .done → next.state = .done) : Kept door driver (driver.setItem next) := by
  rw [Kept, driver.setItem_view next found]
  exact ⟨good.replace_same found rfl sameRun sameState notPending done, fun _ lively => lively.of_books rfl⟩

/-- A verdict does not move an item. -/
theorem syncRun_kept (good : driver.view.Good) (run : TaskRun) : Kept door driver (driver.syncRun run) := by
  have fetched : Kept door driver driver.load := load_kept good
  unfold syncRun
  split
  · exact ⟨good, fun _ lively => lively⟩
  · split
    · exact ⟨good, fun _ lively => lively⟩
    · rename_i index _
      dsimp only
      cases found : driver.load.live.items[index]? with
      | none => exact fetched
      | some item =>
          generalize (if isAssessable run = true then itemVerdictOf run else none) = verdict
          dsimp only
          split
          · exact fetched
          · rename_i changes
            simp only [not_or, Classical.not_not] at changes
            have placed := fetched.1.sound.indexed index item found
            subst placed
            let next : BatchItem := { item with verdict := verdict }
            have moved : Kept door driver.load (driver.load.setItem next) := by
              apply setItem_kept fetched.1 next found rfl rfl
              · simp [next, changes.2.1]
              · exact id
            exact (fetched.trans moved).trans (settleIdle_kept moved.1)

/-- A stop keeps the books. Nothing is promised of a batch that stops. -/
theorem stop_kept (good : driver.view.Good) : Kept door driver driver.stop := by
  have still : ∀ view : View, view.stopping = true → view.Lively := fun view stops =>
    { busy := fun _ active => by simp [stops] at active
      waits := fun _ active => by simp [stops] at active }
  unfold stop
  split
  · rename_i resident
    have seen := driver.clearTimer.releaseAnchor_view
    have same : Driver.view { driver.clearTimer.releaseAnchor with stopping := true } =
        { driver.view with stopping := true, retryTimer := false } :=
      congrArg (fun view : View => { view with stopping := true }) seen
    refine ⟨?_, fun _ _ => still _ rfl⟩
    rw [same]
    exact { good with listed := fun active => by simp at active }
  · refine ⟨?_, fun _ _ => still _ rfl⟩
    exact { good with listed := fun active => by cases active }

/-- The retry timer asks again. -/
theorem retry_kept (good : driver.view.Good) (resident : driver.resident = true) :
    Kept door driver (driver.retry door) := by
  have quiet : driver.clearTimer.view.Good := { good with }
  have pumped := pump_pumped door quiet resident
  refine ⟨pumped.1, fun willing lively => pumped.2 willing fun active waiting => ?_⟩
  exact lively.waits resident active waiting

end Driver

end NimbleBrain.Tasks
