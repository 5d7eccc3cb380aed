import NimbleBrain.Tasks.DriverEnds

/- A new batch and a batch read from its files start with good books. -/

namespace NimbleBrain.Tasks

open Spend

/-- What a reconcile does to an item. -/
structure Recovered (cancelled : Bool) (before after : BatchItem) : Prop where
  placed : after.index = before.index
  settled : isUnsettled after = false
  waiting : after.state = .pending → before.state = .pending ∨ cancelled = false
  done : before.state = .done → after.state = .done

theorem settleLostItem_recovered (cancelled : Bool) (files : RunFiles) (now : Nat) {item : BatchItem}
    (unsettled : isUnsettled item = true) :
    Recovered cancelled item (settleLostItem cancelled files item now).2.item := by
  have notDone : item.state ≠ .done := by
    intro done
    simp [isUnsettled, done] at unsettled
  have again : Recovered cancelled item
      (if cancelled then { backToPending item with state := .done, execution := some .cancelled }
        else backToPending item) := by
    cases cancelled with
    | true => exact ⟨rfl, rfl, fun same => (by cases same), fun _ => rfl⟩
    | false => exact ⟨rfl, rfl, fun _ => .inr rfl, fun done => absurd done notDone⟩
  unfold settleLostItem
  dsimp only
  split
  · exact again
  · split
    · exact ⟨rfl, rfl, fun same => (by cases same), fun _ => rfl⟩
    · exact again

theorem settleLostItems_recovered (cancelled : Bool) (now : Nat) (items : List BatchItem) (first : Nat)
    (files : RunFiles) :
    List.Forall₂ (Recovered cancelled) items (settleLostItems cancelled now first items files).2.1 := by
  induction items generalizing first files with
  | nil => exact .nil
  | cons item rest ih =>
      rw [settleLostItems]
      split
      · rename_i unsettled
        exact .cons (settleLostItem_recovered cancelled files now unsettled) (ih _ _)
      · rename_i settled
        refine .cons ?_ (ih _ _)
        exact ⟨rfl, by simpa using settled, .inl, id⟩

/-- A charge changes the cost of an item. -/
theorem chargeLostRuns_states (ledger : RunId → ℚ) (items : List BatchItem) (lost : List (RunId × Nat)) :
    (chargeLostRuns ledger items lost).map (fun item => (item.index, item.state)) =
      items.map fun item => (item.index, item.state) := by
  unfold chargeLostRuns
  induction lost generalizing items with
  | nil => rfl
  | cons entry rest ih =>
      rw [List.foldl_cons, ih]
      cases found : items[entry.2]? with
      | none => rfl
      | some item =>
          dsimp only
          split
          · obtain ⟨within, same⟩ := List.getElem?_eq_some_iff.mp found
            rw [List.map_set, ← same]
            apply List.ext_getElem?
            intro i
            by_cases here : i = entry.2
            · subst here
              simp [within]
            · rw [List.getElem?_set_ne (Ne.symm here)]
          · rfl

theorem Recovered.of_charged {cancelled : Bool} {before items after : List BatchItem}
    (recovered : List.Forall₂ (Recovered cancelled) before items)
    (same : after.map (fun item => (item.index, item.state)) = items.map fun item => (item.index, item.state)) :
    List.Forall₂ (Recovered cancelled) before after := by
  induction recovered generalizing after with
  | nil =>
      rw [List.map_nil, List.map_eq_nil_iff] at same
      rw [same]
      exact .nil
  | cons one _ ih =>
      cases after with
      | nil => cases same
      | cons head rest =>
          rw [List.map_cons, List.map_cons, List.cons.injEq, Prod.mk.injEq] at same
          obtain ⟨⟨index, state⟩, others⟩ := same
          refine .cons ?_ (ih others)
          exact {
            placed := index.trans one.placed
            settled := by simpa [isUnsettled, state] using one.settled
            waiting := fun waiting => one.waiting (state.symm.trans waiting)
            done := fun done => state.trans (one.done done) }

/-- A reconcile settles every item and recounts the batch. -/
theorem reconcile_recovered (files : RunFiles) (stored : Batch) (items : List BatchItem) (now : Nat) :
    List.Forall₂ (Recovered (stored.state = .cancelled)) items (reconcile files stored items now).2.items :=
  Recovered.of_charged (settleLostItems_recovered _ now items 0 files) (chargeLostRuns_states _ _ _)

namespace Books

variable {books : Books}

/-- Books without a run are sound when every item is settled. -/
theorem Sound.of_settled (booked : books.Booked) (idle : books.outstanding = []) (alone : books.openRuns = [])
    (settled : ∀ item ∈ books.items, isUnsettled item = false) (positive : 0 < books.concurrency) :
    books.Sound none where
  toBooked := booked
  current i := by
    rw [idle]
    constructor
    · intro inside
      cases inside
    · rintro ⟨-, item, found, unsettled⟩
      rw [settled item (List.mem_of_getElem? found)] at unsettled
      cases unsettled
  matched := by rw [alone, idle]; rfl
  owner run member := by
    rw [alone] at member
    cases member
  distinct := by rw [idle]; exact .nil
  unique := by rw [alone]; exact .nil
  fresh run member := by
    rw [alone] at member
    cases member
  bounded := by rw [idle]; exact Nat.zero_le _
  positive := positive

/-- A batch whose counts show no queued and no running item has none. -/
theorem Booked.settled_of_counts (booked : books.Booked) (quiet : books.counts .queued + books.counts .running ≤ 0) :
    ∀ item ∈ books.items, isUnsettled item = false := by
  intro item member
  have one := countItems_pos member
  have queued := countItems_eq books.items .queued
  have running := countItems_eq books.items .running
  rw [booked.counts] at quiet
  cases state : item.state with
  | pending => simp [isUnsettled, state]
  | done => simp [isUnsettled, state]
  | queued =>
      have bucket : bucketOf item = .queued := by simp [bucketOf, state]
      rw [bucket] at one
      omega
  | running =>
      have bucket : bucketOf item = .running := by simp [bucketOf, state]
      rw [bucket] at one
      omega

end Books

namespace Driver

variable {driver : Driver} {door : Door}

theorem reconcile_good (good : driver.view.Good) (files : RunFiles) (now : Nat) :
    (Driver.view { driver with
      resident := true
      stopping := false
      spend := {}
      runs := []
      live := (reconcile files driver.live.batch driver.live.items now).2 }).Good := by
  have recovered := reconcile_recovered files driver.live.batch driver.live.items now
  generalize live : (reconcile files driver.live.batch driver.live.items now).2 = rebuilt at recovered
  have came : ∀ (i : Nat) (after : BatchItem), rebuilt.items[i]? = some after →
      ∃ before, driver.live.items[i]? = some before ∧
        Recovered (driver.live.batch.state = .cancelled) before after := by
    intro i after found
    obtain ⟨within, same⟩ := List.getElem?_eq_some_iff.mp found
    have inside : i < driver.live.items.length := recovered.length_eq ▸ within
    refine ⟨driver.live.items[i], List.getElem?_eq_getElem inside, ?_⟩
    exact same ▸ recovered.get inside within
  have booked : Books.Booked (Driver.books { driver with
      resident := true, stopping := false, spend := {}, runs := [], live := rebuilt }) :=
    { counts := by rw [← live]; rfl
      cost := by rw [← live]; rfl
      indexed := fun i after found => by
        obtain ⟨before, present, kept⟩ := came i after found
        exact kept.placed.trans (good.sound.indexed i before present) }
  have state : rebuilt.batch.state = driver.live.batch.state := by rw [← live]; rfl
  have concurrency : rebuilt.batch.concurrency = driver.live.batch.concurrency := by rw [← live]; rfl
  have outstanding : rebuilt.outstanding = [] := by rw [← live]; rfl
  have line : rebuilt.pending = pendingIndices rebuilt.items := by rw [← live]; rfl
  have each : ∀ after ∈ rebuilt.items, ∃ before ∈ driver.live.items,
      Recovered (driver.live.batch.state = .cancelled) before after := by
    intro after member
    obtain ⟨i, found⟩ := List.mem_iff_getElem?.mp member
    obtain ⟨before, present, kept⟩ := came i after found
    exact ⟨before, List.mem_of_getElem? present, kept⟩
  exact {
    sound := Books.Sound.of_settled booked outstanding rfl
      (fun after member => by
        obtain ⟨before, -, kept⟩ := each after member
        exact kept.settled)
      (lt_of_lt_of_eq good.sound.positive concurrency.symm)
    listed := fun _ _ i item found waiting => by
      change i ∈ rebuilt.pending
      rw [line]
      exact pendingIndices_listed booked.indexed found waiting
    cancelled := fun same after member waiting => by
      have cancelled := state.symm.trans same
      obtain ⟨before, present, kept⟩ := each after member
      rcases kept.waiting waiting with earlier | active
      · exact good.cancelled cancelled before present earlier
      · simp [cancelled] at active
    completed := fun same after member => by
      obtain ⟨before, present, kept⟩ := each after member
      exact kept.done (good.completed (state.symm.trans same) before present)
    idle := fun gone => by cases gone }

/-- A boot rebuilds the batch and drives it again. -/
theorem boot_pumped (good : driver.view.Good) (files : RunFiles) (now : Nat) :
    Pumped door (driver.boot door files now) := by
  unfold boot
  dsimp only
  split
  · rename_i rests
    refine ⟨?_, fun _ => View.Lively.of_unloaded rfl⟩
    have settled := good.sound.settled_of_counts rests.2.2
    have idle : driver.live.outstanding = [] := by
      apply List.eq_nil_iff_forall_not_mem.mpr
      intro i inside
      obtain ⟨-, item, found, unsettled⟩ := (good.sound.current i).mp inside
      rw [settled item (List.mem_of_getElem? found)] at unsettled
      cases unsettled
    exact { good with
            sound := Books.Sound.of_settled { good.sound.toBooked with } idle rfl settled good.sound.positive
            listed := fun _ resident => by cases resident
            idle := fun _ => ⟨idle, rests.1⟩ }
  · have rebuilt := reconcile_good good files now
    split
    · exact activate_pumped door rebuilt rfl
    · rename_i rests
      refine ⟨settleIdle_good rebuilt, fun _ => settleIdle_lively (View.Lively.of_settled rfl ?_)⟩
      intro running
      exact absurd running rests

theorem newItems_at {inputs i : Nat} {item : BatchItem} (found : (newItems inputs)[i]? = some item) :
    item = { index := i, state := .pending } := by
  rw [newItems, List.getElem?_map] at found
  obtain ⟨index, present, rfl⟩ := Option.map_eq_some_iff.mp found
  obtain ⟨within, same⟩ := List.getElem?_eq_some_iff.mp present
  rw [← same, List.getElem_range]

/-- A new batch starts with good books. -/
theorem create_pumped (spec : NewBatch) : Pumped door (create door spec) := by
  have each : ∀ item ∈ newItems spec.inputs, item.state = .pending ∧ item.costUsd = none := by
    intro item member
    obtain ⟨i, found⟩ := List.mem_iff_getElem?.mp member
    rw [newItems_at found]
    exact ⟨rfl, rfl⟩
  have booked : Books.Booked (Driver.books { live := createBatch spec }) :=
    { counts := by
        funext bucket
        change (emptyCounts.add .pending spec.inputs) bucket = countItems (newItems spec.inputs) bucket
        rw [countItems_eq]
        by_cases same : bucket = .pending
        · subst same
          have all : (newItems spec.inputs).countP (fun item => bucketOf item = .pending) =
              (newItems spec.inputs).length := by
            apply List.countP_eq_length.mpr
            intro item member
            simp [bucketOf, (each item member).1]
          rw [all, BatchCounts.add, Function.update_self]
          simp [emptyCounts, newItems]
        · rw [BatchCounts.add, Function.update_of_ne same, List.countP_eq_zero.mpr]
          · rfl
          · intro item member
            simpa [bucketOf, (each item member).1] using Ne.symm same
      cost := by
        change (0 : ℚ) = sumCost (newItems spec.inputs)
        rw [sumCost_eq, List.sum_eq_zero]
        intro cost member
        obtain ⟨item, inside, rfl⟩ := List.mem_map.mp member
        rw [BatchItem.cost, (each item inside).2]
        rfl
      indexed := fun i item found => by rw [newItems_at found] }
  refine activate_running rfl ?_ rfl fun _ i item found waiting => ?_
  · refine Books.Sound.of_settled booked rfl rfl (fun item member => ?_) spec.concurrencyPositive
    simp [isUnsettled, (each item member).1]
  · exact pendingIndices_listed booked.indexed found waiting

end Driver

end NimbleBrain.Tasks
