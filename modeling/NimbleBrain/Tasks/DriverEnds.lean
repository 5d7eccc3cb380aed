import NimbleBrain.Tasks.DriverControl

/- A run that ends frees its place and settles its item. -/

namespace NimbleBrain.Tasks

namespace View

/-- The item of the run that just ended is the gap in the books. -/
structure Gapped (index : Nat) (view : View) : Prop where
  sound : view.books.Sound (some index)
  listed : view.stopping = false → view.books.Listed
  cancelled : view.state = .cancelled → ∀ item ∈ view.books.items, item.state ≠ .pending
  notCompleted : view.state ≠ .completed
  resident : view.resident = true

variable {view : View} {index : Nat}

/-- A settled item fills the gap. An item that is pending again has to be in line. -/
theorem Gapped.fill (gapped : view.Gapped index) {prev next : BatchItem} {line : List Nat}
    (found : view.books.items[index]? = some prev) (placed : next.index = index)
    (settled : isUnsettled next = false) (kept : view.books.pending ⊆ line)
    (inLine : view.stopping = false → next.state = .pending → index ∈ line)
    (dropped : view.state = .cancelled → next.state ≠ .pending) :
    { view with books := { view.books.replace index prev next with pending := line } }.Good where
  sound := (gapped.sound.replace_settled found placed settled).withPending line
  listed active _ i item present waiting := by
    change (view.books.replace index prev next).items[i]? = some item at present
    rw [Books.replace_items found] at present
    split at present
    · rename_i same
      rw [← Option.some.inj present] at waiting
      exact same ▸ inLine active waiting
    · exact kept (gapped.listed active i item present waiting)
  cancelled same item member := by
    obtain ⟨i, present⟩ := List.mem_iff_getElem?.mp member
    change (view.books.replace index prev next).items[i]? = some item at present
    rw [Books.replace_items found] at present
    split at present
    · rw [← Option.some.inj present]
      exact dropped same
    · exact gapped.cancelled same item (List.mem_of_getElem? present)
  completed same := absurd same gapped.notCompleted
  idle gone := by
    have clash := gapped.resident.symm.trans gone
    cases clash

end View

namespace Driver

variable {driver : Driver} {door : Door} {id : RunId} {index : Nat}

/-- The open run of an item is known to the books. -/
def Runs (driver : Driver) (id : RunId) (index : Nat) : Prop := (id, index) ∈ driver.books.openRuns

theorem leave_view (driver : Driver) (id : RunId) (index : Nat) :
    ((World.withoutRun driver id).leaveOutstanding index).view =
      { driver.view with books := driver.books.leave (id, index) } := by
  have same : (driver.runs.filter fun run => run.id ≠ id).map (fun run => (run.id, run.index)) =
      driver.books.openRuns.filter fun run => run.1 ≠ id := by
    rw [books, List.filter_map]
    rfl
  simp only [view, books, World.withoutRun, leaveOutstanding, onLive, Books.leave]
  rw [same]
  rfl

/-- The run that ends belongs to the current item at its place. -/
theorem Good.owner (good : driver.view.Good) (runs : driver.Runs id index) :
    ∃ item, driver.live.items[index]? = some item ∧ item.runId = some id ∧ isUnsettled item = true ∧
      index ∈ driver.live.outstanding := by
  obtain ⟨item, found, owned⟩ := good.sound.owner (id, index) runs
  have waits : index ∈ driver.books.outstanding := good.sound.matched ▸ List.mem_map_of_mem runs
  obtain ⟨-, other, present, unsettled⟩ := (good.sound.current index).mp waits
  have same : other = item := Option.some.inj (present.symm.trans found)
  exact ⟨item, found, owned, same ▸ unsettled, waits⟩

theorem leave_gapped (good : driver.view.Good) (runs : driver.Runs id index) :
    ((World.withoutRun driver id).leaveOutstanding index).view.Gapped index := by
  obtain ⟨item, found, -, unsettled, waits⟩ := Good.owner good runs
  have resident : driver.resident = true := by
    by_contra gone
    have idle := (good.idle (by simpa [view] using gone)).1
    rw [show driver.view.books.outstanding = driver.live.outstanding from rfl] at idle
    rw [idle] at waits
    exact List.not_mem_nil waits
  rw [leave_view]
  refine { sound := good.sound.leave runs
           listed := fun active => good.listed active resident
           cancelled := good.cancelled
           notCompleted := fun same => ?_
           resident := resident }
  have done := good.completed same item (List.mem_of_getElem? found)
  simp [isUnsettled, done] at unsettled

/-- Only the books of the batch changed, and it waits for the same runs. -/
def BooksOnly (before after : Driver) : Prop :=
  ∃ books : Books, after.view = { before.view with books := books } ∧
    books.outstanding = before.live.outstanding

/-- The item of the gap takes an outcome or goes back into line. -/
theorem settleItem_good (gapped : driver.view.Gapped index) {item : BatchItem}
    (found : driver.live.items[index]? = some item) (run : TaskRun) (batchStop withdrawn : Bool) :
    (driver.settleItem index item run batchStop withdrawn).view.Good ∧
      BooksOnly driver (driver.settleItem index item run batchStop withdrawn) := by
  have placed := gapped.sound.indexed index item found
  subst placed
  have same : ∀ books : List Nat, books ⊆ books := fun _ => List.Subset.refl _
  unfold settleItem
  dsimp only
  split
  · have seen := driver.setItem_view (outcomeOf item run) found
    refine ⟨?_, _, seen, rfl⟩
    rw [seen]
    exact gapped.fill found rfl rfl (same _) (fun _ waiting => by cases waiting) (fun _ waiting => by cases waiting)
  · split
    · let next : BatchItem :=
        { backToPending (outcomeOf item run) with state := .done, execution := some .cancelled }
      have seen := driver.setItem_view next found
      refine ⟨?_, _, seen, rfl⟩
      rw [seen]
      exact gapped.fill found rfl rfl (same _) (fun _ waiting => by cases waiting)
        (fun _ waiting => by cases waiting)
    · rename_i notCancelled
      let next := backToPending (outcomeOf item run)
      have seen := driver.setItem_view next found
      split
      · rename_i stopping
        refine ⟨?_, _, seen, rfl⟩
        rw [seen]
        exact gapped.fill found rfl rfl (same _) (fun active => absurd (active.symm.trans stopping) Bool.false_ne_true)
          (fun cancelled => absurd cancelled notCancelled)
      · have line : (driver.setItem next).live.pending = driver.live.pending :=
          congrArg (fun view : View => view.books.pending) seen
        have pushed : ((driver.setItem next).withPending (item.index :: (driver.setItem next).live.pending)).view =
            { driver.view with books :=
              { driver.books.replace item.index item next with pending := item.index :: driver.live.pending } } := by
          rw [line]
          exact congrArg (fun view : View =>
            { view with books := { view.books with pending := item.index :: driver.live.pending } }) seen
        refine ⟨?_, _, pushed, rfl⟩
        rw [pushed]
        exact gapped.fill found rfl rfl (List.subset_cons_self _ _) (fun _ _ => List.mem_cons_self ..)
          (fun cancelled => absurd cancelled notCancelled)

/-- The pump may run. -/
structure Ready (driver : Driver) : Prop where
  good : driver.view.Good
  resident : driver.resident = true
  waits : driver.Waits

theorem Ready.pump (ready : driver.Ready) (door : Door) : Pumped door (driver.pump door) :=
  have pumped := pump_pumped door ready.good ready.resident
  ⟨pumped.1, fun willing => pumped.2 willing ready.waits⟩

theorem Ready.pause (ready : driver.Ready) (door : Door) (reason : BatchPauseReason) :
    (driver.pause door reason).Ready := by
  have seen := driver.pause_view door reason
  have resident : (driver.pause door reason).resident = driver.resident := by
    have same := congrArg View.resident seen
    split at same <;> exact same
  refine { good := pause_good ready.good reason, resident := resident.trans ready.resident, waits := ?_ }
  unfold Waits
  have stopping : (driver.pause door reason).stopping = driver.stopping := by
    have same := congrArg View.stopping seen
    split at same <;> exact same
  have waiting : (driver.pause door reason).live.waitForSettle = driver.live.waitForSettle := by
    have same := congrArg View.waitForSettle seen
    split at same <;> exact same
  have outstanding : (driver.pause door reason).live.outstanding = driver.live.outstanding := by
    have same := congrArg (fun view : View => view.books.outstanding) seen
    split at same <;> exact same
  rw [stopping, waiting, outstanding]
  exact ready.waits

theorem Ready.followStop (ready : driver.Ready) (door : Door) (run : TaskRun) (reservedOut : Bool) :
    (driver.followStop door run reservedOut).Ready := by
  unfold Driver.followStop
  split
  · refine { good := { ready.good with }, resident := ready.resident, waits := fun _ waiting idle => ?_ }
    have none : driver.live.outstanding = [] := idle
    have others : driver.live.othersRunning = true := waiting
    simp [LiveBatch.othersRunning, none] at others
  · split
    · exact ready.pause door .budget
    · split
      · exact ready.pause door .budget
      · exact ready

theorem Ready.applyStopRule (ready : driver.Ready) (door : Door) : (driver.applyStopRule door).Ready := by
  unfold Driver.applyStopRule
  dsimp only
  split
  · exact ready
  · split
    · exact ready
    · split
      · exact ready
      · split
        · exact ready
        · split
          · exact ready
          · exact ready.pause door .passRate

/-- A run that resolves keeps the books and leaves the batch waiting for something. -/
theorem itemEnded_pumped (good : driver.view.Good) (runs : driver.Runs id index) (run : TaskRun) :
    Pumped door ((World.withoutRun driver id).itemEnded door index id run) := by
  obtain ⟨item, found, owned, -, -⟩ := Good.owner good runs
  let left := (World.withoutRun driver id).leaveOutstanding index
  let noted := (left.noteEnded id run).forgetWithdrawn id
  have gapped : noted.view.Gapped index :=
    { leave_gapped good runs with }
  have present : noted.live.items[index]? = some item := found
  unfold itemEnded
  dsimp only
  rw [show ((World.withoutRun driver id).leaveOutstanding index).live.items[index]? = some item from found]
  dsimp only
  rw [if_neg (not_not_intro owned)]
  have settled := settleItem_good gapped present run (isBatchStop left.live.batch run)
    ((left.noteEnded id run).live.withdrawn.contains id)
  obtain ⟨books, seen, -⟩ := settled.2
  have ready : (noted.settleItem index item run (isBatchStop left.live.batch run)
      ((left.noteEnded id run).live.withdrawn.contains id)).Ready :=
    { good := settled.1
      resident := (congrArg View.resident seen).trans gapped.resident
      waits := fun _ waiting => by
        have quiet := (congrArg View.waitForSettle seen).symm.trans waiting
        cases quiet }
  exact ((ready.followStop door run _).applyStopRule door).pump door

theorem only_one {list : List Nat} (distinct : list.Nodup) (inside : index ∈ list)
    (others : list.filter (fun i => i ≠ index) = []) : list = [index] := by
  have all : ∀ i ∈ list, i = index := by
    intro i member
    simpa using List.filter_eq_nil_iff.mp others i member
  have same := List.eq_replicate_of_mem all
  rw [same] at distinct
  have short := List.nodup_replicate.mp distinct
  have long := List.length_pos_of_mem inside
  rw [same, show list.length = 1 by omega]
  rfl

/-- The last run that a waiting batch waits for rejects. -/
def Strands (driver : Driver) (index : Nat) : Prop :=
  driver.live.batch.state = .running ∧ driver.stopping = false ∧ driver.live.waitForSettle = true ∧
    driver.live.outstanding = [index]

/-- A run that rejects keeps the books. It leaves the batch waiting unless it strands it. -/
theorem itemRejected_kept (good : driver.view.Good) (runs : driver.Runs id index) (error : String) :
    ((World.withoutRun driver id).itemRejected door index id error).view.Good ∧
      (Willing door → ¬ driver.Strands index → driver.view.Lively →
        ((World.withoutRun driver id).itemRejected door index id error).view.Lively) := by
  obtain ⟨item, found, owned, -, inside⟩ := Good.owner good runs
  let left := (World.withoutRun driver id).leaveOutstanding index
  have gapped : left.view.Gapped index := leave_gapped good runs
  have placed := good.sound.indexed index item found
  let next : BatchItem := { item with state := .done, execution := some .failed, error := some error }
  have present : left.live.items[next.index]? = some item := by
    rw [show next.index = index from placed]
    exact found
  have seen := left.setItem_view next present
  have filled : (left.setItem next).view.Good := by
    rw [seen, show next.index = index from placed]
    exact gapped.fill found placed rfl (List.Subset.refl _) (fun _ waiting => by cases waiting)
      (fun _ waiting => by cases waiting)
  have resident : (left.setItem next).resident = true := (congrArg View.resident seen).trans gapped.resident
  have same : (World.withoutRun driver id).itemRejected door index id error = (left.setItem next).pump door := by
    unfold itemRejected
    dsimp only
    rw [show ((World.withoutRun driver id).leaveOutstanding index).live.items[index]? = some item from found]
    dsimp only
    rw [if_pos owned]
  rw [same]
  have pumped := pump_pumped door filled resident
  refine ⟨pumped.1, fun willing safe lively => ?_⟩
  have outstanding : (left.setItem next).live.outstanding =
      driver.live.outstanding.filter fun i => i ≠ index :=
    congrArg (fun view : View => view.books.outstanding) seen
  have stopping : (left.setItem next).stopping = driver.stopping := congrArg View.stopping seen
  have waiting : (left.setItem next).live.waitForSettle = driver.live.waitForSettle :=
    congrArg View.waitForSettle seen
  have state : (left.setItem next).live.batch.state = driver.live.batch.state := congrArg View.state seen
  by_cases others : driver.live.outstanding.filter (fun i => i ≠ index) = []
  · have alone := only_one good.sound.distinct inside others
    by_cases running : driver.live.batch.state = .running
    · refine pumped.2 willing fun active waits => ?_
      exact absurd ⟨running, stopping.symm.trans active, waiting.symm.trans waits, alone⟩ safe
    · rw [Driver.pump, if_pos (state.symm ▸ running)]
      rcases (left.setItem next).settleIdle_view with ⟨-, busy⟩ | ⟨-, -, gone | ⟨-, gone⟩⟩
      · rcases busy with still | busy
        · exact absurd (state.symm.trans still) running
        · exact absurd (outstanding.trans others) busy
      · exact gone ▸ View.Lively.of_unloaded rfl
      · exact gone ▸ View.Lively.of_unloaded rfl
  · refine pumped.2 willing fun _ _ => ?_
    rw [outstanding]
    exact others

end Driver

end NimbleBrain.Tasks
