import NimbleBrain.Tasks.DiskInvariant

/- A reconcile treats each item by the files of its own run. -/

namespace NimbleBrain.Tasks

open Library

/-- What the loop makes of one item. -/
def settledItem (cancelled : Bool) (files : RunFiles) (item : BatchItem) (now : Nat) : SettledItem :=
  if isUnsettled item then (settleLostItem cancelled files item now).2 else ⟨item, none⟩

/-- The runs lost with the process and the places of their items. -/
def lostRuns (cancelled : Bool) (files : RunFiles) (now first : Nat) (items : List BatchItem) :
    List (RunId × Nat) :=
  (items.zipIdx first).filterMap fun entry =>
    (settledItem cancelled files entry.1 now).lostRunId.map (·, entry.2)

/-- A lost run's spend by the ledger is put on its item. -/
def chargedItem (ledger : RunId → ℚ) (settled : SettledItem) : BatchItem :=
  match settled.lostRunId with
  | none => settled.item
  | some runId =>
      if 0 < ledger runId then { settled.item with costUsd := some (settled.item.cost + ledger runId) }
      else settled.item

variable {cancelled : Bool} {files other : RunFiles} {now : Nat} {item : BatchItem}

/-- Only the ticket and the record of its own run matter to an item. -/
theorem settleLostItem_congr
    (tickets : ∀ runId, item.runId = some runId → files.tickets runId = other.tickets runId)
    (records : ∀ runId, item.runId = some runId → files.recorded runId = other.recorded runId) :
    (settleLostItem cancelled files item now).2 = (settleLostItem cancelled other item now).2 := by
  unfold settleLostItem
  cases named : item.runId with
  | none => rfl
  | some runId =>
      simp only [Option.bind_some, tickets runId named]
      cases found : other.tickets runId with
      | none => rfl
      | some ticket =>
          have same : (files.settleLostRun runId ticket now).2 = (other.settleLostRun runId ticket now).2 := by
            unfold RunFiles.settleLostRun
            rw [records runId named]
            split
            · rfl
            · split <;> rfl
          simp only [Option.map_some, same]
          split <;> rfl

theorem settledItem_congr (tickets : ∀ runId, item.runId = some runId → files.tickets runId = other.tickets runId)
    (records : ∀ runId, item.runId = some runId → files.recorded runId = other.recorded runId) :
    settledItem cancelled files item now = settledItem cancelled other item now := by
  unfold settledItem
  rw [settleLostItem_congr tickets records]

variable {started : RunId → Bool} {asked : RunId}

variable {runId : RunId}

/-- An item leaves the files of other runs and the ledger alone. -/
theorem settleLostItem_frame (kept : files.Kept started asked) (apart : item.runId ≠ some runId) :
    (settleLostItem cancelled files item now).1.tickets runId = files.tickets runId ∧
      (settleLostItem cancelled files item now).1.recorded runId = files.recorded runId := by
  unfold settleLostItem
  dsimp only
  split
  · exact ⟨rfl, rfl⟩
  · rename_i own ticket found
    obtain ⟨named, present⟩ := RunFiles.own_ticket found
    have differs : runId ≠ own := fun same => apart (same ▸ named)
    have frame : (files.settleLostRun own ticket now).1.tickets runId = files.tickets runId ∧
        (files.settleLostRun own ticket now).1.recorded runId = files.recorded runId := by
      have id := (kept.ticket own ticket present).named
      unfold RunFiles.settleLostRun
      split
      · exact ⟨rfl, rfl⟩
      · split
        · exact ⟨by rw [RunFiles.tickets_writeTicket, if_neg differs], rfl⟩
        · dsimp only
          refine ⟨by rw [RunFiles.tickets_writeTicket, if_neg differs], ?_⟩
          rw [RunFiles.recorded_writeTicket]
          refine (RunFiles.recorded_appendRun files _ runId).trans ?_
          rw [if_neg (fun same => differs (same.symm.trans id)), Option.or_none]
    split <;> exact frame

/-- Two unsettled items never share a run. -/
def OwnRuns (items : List BatchItem) : Prop :=
  items.Pairwise fun one other => isUnsettled one = true → isUnsettled other = true → one.runId ≠ other.runId

/-- The loop settles each item as if it were the only one. -/
theorem settleLostItems_each (cancelled : Bool) (now : Nat) (kept : files.Kept started asked)
    (items : List BatchItem) (first : Nat) (own : OwnRuns items)
    (attached : ∀ item ∈ items, isUnsettled item = true → item.runId.isSome) :
    (settleLostItems cancelled now first items files).2.1 =
        items.map (fun item => (settledItem cancelled files item now).item) ∧
      (settleLostItems cancelled now first items files).2.2 = lostRuns cancelled files now first items := by
  induction items generalizing first files with
  | nil => exact ⟨rfl, rfl⟩
  | cons item rest ih =>
      obtain ⟨apart, own⟩ := List.pairwise_cons.mp own
      have later : ∀ other ∈ rest, isUnsettled other = true → other.runId.isSome :=
        fun other member => attached other (List.mem_cons_of_mem _ member)
      rw [settleLostItems]
      split
      · rename_i unsettled
        have one := (kept.settleLostItem cancelled item now).1
        have here : settledItem cancelled files item now = (settleLostItem cancelled files item now).2 := by
          rw [settledItem, if_pos unsettled]
        obtain ⟨items, lost⟩ := ih one (first + 1) own later
        have same : ∀ other ∈ rest, settledItem cancelled (settleLostItem cancelled files item now).1 other now =
            settledItem cancelled files other now := by
          intro other member
          by_cases busy : isUnsettled other = true
          · have differs := apart other member unsettled busy
            have frame : ∀ runId, other.runId = some runId → item.runId ≠ some runId :=
              fun runId named same => differs (same.trans named.symm)
            exact settledItem_congr (fun runId named => (settleLostItem_frame kept (frame runId named)).1)
              (fun runId named => (settleLostItem_frame kept (frame runId named)).2)
          · rw [settledItem, settledItem, if_neg busy, if_neg busy]
        dsimp only
        rw [items, lost, List.map_cons, here]
        refine ⟨?_, ?_⟩
        · rw [List.map_congr_left fun other member => congrArg SettledItem.item (same other member)]
        · rw [lostRuns, lostRuns, List.zipIdx_cons, List.filterMap_cons, here]
          have others : (rest.zipIdx (first + 1)).filterMap (fun entry =>
              (settledItem cancelled (settleLostItem cancelled files item now).1 entry.1 now).lostRunId.map
                (·, entry.2)) = (rest.zipIdx (first + 1)).filterMap fun entry =>
              (settledItem cancelled files entry.1 now).lostRunId.map (·, entry.2) := by
            apply List.filterMap_congr
            intro entry member
            rw [same entry.1 (List.fst_mem_of_mem_zipIdx member)]
          rw [others]
          cases (settleLostItem cancelled files item now).2.lostRunId <;> rfl
      · rename_i settled
        have here : settledItem cancelled files item now = ⟨item, none⟩ := by
          rw [settledItem, if_neg settled]
        obtain ⟨items, lost⟩ := ih kept (first + 1) own later
        dsimp only
        rw [items, lost, List.map_cons, here, lostRuns, lostRuns, List.zipIdx_cons, List.filterMap_cons, here]
        exact ⟨rfl, rfl⟩

variable {i : Nat}

/-- A charge leaves the items of other places alone. -/
theorem chargeLostRuns_other (ledger : RunId → ℚ) (items : List BatchItem) (lost : List (RunId × Nat))
    (absent : i ∉ lost.map Prod.snd) : (chargeLostRuns ledger items lost)[i]? = items[i]? := by
  unfold chargeLostRuns
  induction lost generalizing items with
  | nil => rfl
  | cons entry rest ih =>
      simp only [List.map_cons, List.mem_cons, not_or] at absent
      rw [List.foldl_cons, ih _ absent.2]
      split
      · rfl
      · split
        · rw [List.getElem?_set_ne (Ne.symm absent.1)]
        · rfl

/-- A lost run is charged once. -/
theorem chargeLostRuns_own (ledger : RunId → ℚ) (items : List BatchItem) (lost : List (RunId × Nat))
    (places : (lost.map Prod.snd).Nodup) {item : BatchItem} (member : (runId, i) ∈ lost)
    (found : items[i]? = some item) :
    (chargeLostRuns ledger items lost)[i]? = some (chargedItem ledger ⟨item, some runId⟩) := by
  induction lost generalizing items with
  | nil => cases member
  | cons entry rest ih =>
      obtain ⟨fresh, places⟩ := List.nodup_cons.mp places
      rcases List.mem_cons.mp member with same | later
      · subst same
        refine (chargeLostRuns_other ledger _ rest fresh).trans ?_
        dsimp only
        rw [found, chargedItem]
        dsimp only
        split
        · rw [List.getElem?_set_self (List.getElem?_eq_some_iff.mp found).1]
        · exact found
      · have apart : i ≠ entry.2 := by
          rintro rfl
          exact fresh (List.mem_map.mpr ⟨_, later, rfl⟩)
        refine ih _ places later ?_
        dsimp only
        split
        · exact found
        · split
          · rw [List.getElem?_set_ne (Ne.symm apart), found]
          · exact found

theorem filterMap_places {values : List (BatchItem × Nat)} (lost : BatchItem → Option RunId)
    (places : (values.map Prod.snd).Nodup) :
    ((values.filterMap fun entry => (lost entry.1).map (·, entry.2)).map Prod.snd).Nodup := by
  refine places.sublist ?_
  induction values with
  | nil => exact .slnil
  | cons entry rest ih =>
      have more := ih (List.nodup_cons.mp places).2
      rw [List.filterMap_cons, List.map_cons]
      cases lost entry.1 with
      | none => exact more.cons _
      | some runId => exact more.cons_cons _

namespace Disk

variable {disk : Disk}

theorem Kept.ownRuns (kept : disk.Kept) : OwnRuns disk.items := by
  rw [OwnRuns, List.pairwise_iff_getElem]
  intro i j within within' less busy busy' same
  have places := kept.unique i j _ _ (List.getElem?_eq_getElem within) (List.getElem?_eq_getElem within')
    busy busy' same
  exact absurd places (ne_of_lt less)

variable {before : BatchItem} {runId : RunId}

/-- A reconcile treats each item on its own. -/
theorem Kept.reconciled_item (kept : disk.Kept) (now : Nat) {i : Nat} (found : disk.items[i]? = some before) :
    (disk.reconciled now).items[i]? = some (chargedItem disk.files.ledger
      (settledItem (disk.stored.state = .cancelled) disk.files before now)) := by
  have attached : ∀ item ∈ disk.items, isUnsettled item = true → item.runId.isSome := by
    intro item member unsettled
    obtain ⟨j, present⟩ := List.mem_iff_getElem?.mp member
    obtain ⟨runId, -, named, -⟩ := kept.attached j item present unsettled
    rw [named]
    rfl
  obtain ⟨items, lost⟩ := settleLostItems_each (disk.stored.state = .cancelled) now
    kept.files disk.items 0 kept.ownRuns attached
  change (chargeLostRuns disk.files.ledger (settleLostItems (disk.stored.state = .cancelled) now 0 disk.items
    disk.files).2.1 (settleLostItems (disk.stored.state = .cancelled) now 0 disk.items disk.files).2.2)[i]? = _
  rw [items, lost]
  have settled : (disk.items.map fun item =>
      (settledItem (disk.stored.state = .cancelled) disk.files item now).item)[i]? =
        some (settledItem (disk.stored.state = .cancelled) disk.files before now).item := by
    rw [List.getElem?_map, found]
    rfl
  have places : ((lostRuns (disk.stored.state = .cancelled) disk.files now 0 disk.items).map Prod.snd).Nodup := by
    refine filterMap_places
      (fun item => (settledItem (disk.stored.state = .cancelled) disk.files item now).lostRunId) ?_
    rw [List.zipIdx_map_snd]
    exact List.nodup_range'
  cases own : (settledItem (disk.stored.state = .cancelled) disk.files before now).lostRunId with
  | none =>
      rw [chargeLostRuns_other, settled, chargedItem, own]
      intro inside
      obtain ⟨⟨runId, place⟩, member, rfl⟩ := List.mem_map.mp inside
      obtain ⟨⟨item, j⟩, listed, same⟩ := List.mem_filterMap.mp member
      obtain ⟨_, named, same⟩ := Option.map_eq_some_iff.mp same
      obtain ⟨rfl, rfl⟩ := Prod.mk.inj same
      rw [List.mk_mem_zipIdx_iff_getElem?, found, Option.some.injEq] at listed
      rw [← listed, own] at named
      cases named
  | some runId =>
      have member : (runId, i) ∈ lostRuns (disk.stored.state = .cancelled) disk.files now 0 disk.items := by
        refine List.mem_filterMap.mpr ⟨(before, i), List.mk_mem_zipIdx_iff_getElem?.mpr found, ?_⟩
        rw [own]
        rfl
      rw [chargeLostRuns_own disk.files.ledger _ _ places member settled, ← own]

/-- What a run cost by its record, and without a record by the ledger. -/
def runCost (disk : Disk) (runId : RunId) : ℚ :=
  match disk.files.recorded runId with
  | some run => run.costUsd.getD 0
  | none => disk.files.ledger runId

/-- The process stopped after it recorded the run and before it rewrote the ticket. -/
def RecordedWhileRunning (disk : Disk) (runId : RunId) : Prop :=
  (∃ ticket, disk.files.tickets runId = some ticket ∧ ticket.status = .running) ∧
    (disk.files.recorded runId).isSome ∧ 0 < disk.files.ledger runId

/-- What the item of an open run becomes. It is charged by the ledger on top of a record when its ticket
still says that the run is running. -/
structure Settles (disk : Disk) (runId : RunId) (before after : BatchItem) : Prop where
  twice : disk.RecordedWhileRunning runId →
    after.cost = before.cost + disk.runCost runId + disk.files.ledger runId
  once : ¬ disk.RecordedWhileRunning runId → after.cost = before.cost + disk.runCost runId
  again : after.state = .pending ↔ disk.started runId = false ∧ disk.stored.state ≠ .cancelled

theorem runCost_recorded {run : TaskRun} (found : disk.files.recorded runId = some run) :
    disk.runCost runId = run.costUsd.getD 0 := by
  rw [runCost, found]

theorem runCost_unrecorded (none : disk.files.recorded runId = none) :
    disk.runCost runId = disk.files.ledger runId := by
  rw [runCost, none]

/-- The item of a run that never started. -/
def againItem (disk : Disk) (before : BatchItem) : BatchItem :=
  if disk.stored.state = .cancelled then
    { backToPending before with state := .done, execution := some .cancelled }
  else backToPending before

theorem againItem_settles (unstarted : disk.started runId = false) (unpaid : disk.runCost runId = 0)
    (clear : ¬ disk.RecordedWhileRunning runId) :
    disk.Settles runId before (disk.againItem before) where
  twice doubled := absurd doubled clear
  once _ := by
    rw [unpaid, add_zero, againItem]
    split <;> rfl
  again := by
    unfold againItem
    split
    · rename_i cancelled
      simp [cancelled]
    · rename_i active
      simp [active, unstarted, backToPending]

theorem Kept.ledger_cost (kept : disk.Kept) (runId : RunId) (item : BatchItem) :
    (chargedItem disk.files.ledger ⟨item, some runId⟩).cost = item.cost + disk.files.ledger runId ∧
      (chargedItem disk.files.ledger ⟨item, some runId⟩).state = item.state := by
  unfold chargedItem
  dsimp only
  split
  · exact ⟨rfl, rfl⟩
  · rename_i unpaid
    have zero := le_antisymm (not_lt.mp unpaid) (kept.files.nonneg runId)
    exact ⟨by rw [zero, add_zero], rfl⟩

/-- Each stage of a run settles its item. -/
theorem Kept.settles (kept : disk.Kept) (now : Nat) (unsettled : isUnsettled before = true)
    (named : before.runId = some runId) {ticket : TaskRun} (present : disk.files.tickets runId = some ticket) :
    disk.Settles runId before (chargedItem disk.files.ledger
      (settledItem (disk.stored.state = .cancelled) disk.files before now)) := by
  have current := kept.files.ticket runId ticket present
  have own : (before.runId.bind fun runId => (disk.files.tickets runId).map (runId, ·)) =
      some (runId, ticket) := by rw [named, Option.bind_some, present, Option.map_some]
  have running : disk.RecordedWhileRunning runId → ticket.status = .running := by
    rintro ⟨⟨other, found, same⟩, -⟩
    rw [present, Option.some.injEq] at found
    exact found ▸ same
  have again : (if (decide (disk.stored.state = .cancelled)) = true then
      { backToPending before with state := .done, execution := some .cancelled }
      else backToPending before) = disk.againItem before := by
    rw [againItem]
    simp only [decide_eq_true_eq]
  rw [settledItem, if_pos unsettled, settleLostItem, own]
  dsimp only
  rw [again]
  by_cases opened : isOpenRun ticket = true
  · have stage := current.running opened
    cases line : disk.files.recorded runId with
    | some run =>
        obtain ⟨-, trigger, free⟩ := current.record run line
        have settled : (disk.files.settleLostRun runId ticket now).2 = run := by
          rw [RunFiles.settleLostRun, if_neg (by simpa using opened), line]
        rw [settled]
        by_cases starts : run.trigger.isSome = true
        · have status := stage.mpr (trigger.symm.trans starts)
          rw [if_pos starts, if_pos status]
          obtain ⟨cost, state⟩ := kept.ledger_cost runId (outcomeOf before run)
          refine { twice := fun _ => ?_, once := fun clear => ?_, again := ?_ }
          · rw [cost, outcomeOf_cost, runCost_recorded line]
          · have zero : disk.files.ledger runId = 0 := by
              by_contra paid
              have positive := lt_of_le_of_ne (kept.files.nonneg runId) (Ne.symm paid)
              exact clear ⟨⟨ticket, present, status⟩, by rw [line]; rfl, positive⟩
            rw [cost, outcomeOf_cost, runCost_recorded line, zero, add_zero]
          · rw [state, current.trigger, ← trigger, starts]
            simp [outcomeOf]
        · have absent : run.trigger = none := by simpa using starts
          have queued : ¬ ticket.status = .running := fun status => starts (trigger.trans (stage.mp status))
          rw [if_neg starts]
          refine againItem_settles ?_ ?_ fun doubled => queued (running doubled)
          · rw [current.trigger, ← trigger, absent]
            rfl
          · rw [runCost_recorded line, free absent]
            rfl
    | none =>
        have clear : ¬ disk.RecordedWhileRunning runId := by
          rintro ⟨-, recorded, -⟩
          rw [line] at recorded
          cases recorded
        have settled : (disk.files.settleLostRun runId ticket now).2 = RunFiles.lostRecord ticket now := by
          rw [RunFiles.settleLostRun, if_neg (by simpa using opened), line]
        have trigger : (RunFiles.lostRecord ticket now).trigger = ticket.trigger := rfl
        have free : (RunFiles.lostRecord ticket now).costUsd = none := current.free opened
        rw [settled, trigger]
        by_cases starts : ticket.trigger.isSome = true
        · have status := stage.mpr starts
          rw [if_pos starts, if_pos status]
          obtain ⟨cost, state⟩ := kept.ledger_cost runId (outcomeOf before (RunFiles.lostRecord ticket now))
          refine { twice := fun doubled => absurd doubled clear, once := fun _ => ?_, again := ?_ }
          · rw [cost, outcomeOf_cost, runCost_unrecorded line, free, Option.getD_none, add_zero]
          · rw [state, current.trigger, starts]
            simp [outcomeOf]
        · rw [if_neg starts]
          have unstarted : disk.started runId = false := by
            rw [current.trigger]
            simpa using starts
          refine againItem_settles unstarted ?_ clear
          rw [runCost_unrecorded line, kept.files.idle runId unstarted]
  · have ended : isOpenRun ticket = false := by simpa using opened
    have quiet : ticket.status ≠ .running := by
      intro status
      simp [isOpenRun, status] at ended
    obtain ⟨run, line, cost⟩ := current.closed ended
    obtain ⟨-, trigger, free⟩ := current.record run line
    have settled : (disk.files.settleLostRun runId ticket now).2 = ticket := by
      rw [RunFiles.settleLostRun, if_pos (by simpa using ended)]
    rw [settled]
    by_cases starts : ticket.trigger.isSome = true
    · rw [if_pos starts, if_neg quiet]
      refine { twice := fun doubled => absurd (running doubled) quiet, once := fun _ => ?_, again := ?_ }
      · rw [runCost_recorded line, cost]
        rfl
      · rw [current.trigger, starts]
        simp [chargedItem, outcomeOf]
    · rw [if_neg starts]
      have absent : ticket.trigger = none := by simpa using starts
      refine againItem_settles ?_ ?_ fun doubled => quiet (running doubled)
      · rw [current.trigger, absent]
        rfl
      · rw [runCost_recorded line, free (by simpa [absent] using trigger)]
        rfl

end Disk

end NimbleBrain.Tasks
