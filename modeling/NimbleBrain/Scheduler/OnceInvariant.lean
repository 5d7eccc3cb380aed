import Mathlib.Data.List.Nodup
import NimbleBrain.Scheduler.Passage
import NimbleBrain.Scheduler.Process

/- What holds of the file, the process and the started occurrences after every step. -/

namespace NimbleBrain.Scheduler

open Library Tasks

def FileSound (now : Nat) (fired recorded : List OnceTime) (attends : Attends) : FileProperty := fun file =>
  ∀ task, file = some task → task.Sound now fired recorded attends

/-- A dispatch of the process carries the run. -/
def attendedBy (active : List Dispatch) : Attends := fun mark time =>
  ∃ dispatch ∈ active, dispatch.runKey = .task ∧ dispatch.firedOnceAt = some time ∧
    dispatch.runId = mark.runId

/-- No process is asked. -/
def unattended : Attends := fun _ _ => True

def Process.runIds (process : Process) : List RunId :=
  process.active.map Dispatch.runId ++ process.queue.filterMap fun run => run.requested.map RequestedRun.runId

/-- The task has one run or one place in the queue. Every run has an identifier of its own. -/
structure Process.Orderly (now : Nat) (nextRunId : RunId) (process : Process) : Prop where
  single : process.active.countP (fun run => run.runKey = .task) +
    process.queue.countP (fun run => run.runKey = .task) ≤ 1
  distinct : process.runIds.Nodup
  fresh : ∀ runId ∈ process.runIds, runId < nextRunId
  fires : ∀ dispatch ∈ process.active, ∀ time, dispatch.firedOnceAt = some time →
    time.time ≤ now ∧ dispatch.trigger = .scheduled
  queued : ∀ run ∈ process.queue, run.trigger ≠ .scheduled

namespace Process

variable {process : Process} {now : Nat} {nextRunId : RunId}

theorem isRunning_false : process.isRunning = false ↔
    process.active.countP (fun run => run.runKey = .task) = 0 := by
  simp [isRunning, List.countP_eq_zero]

theorem isQueued_false : process.isQueued = false ↔
    process.queue.countP (fun run => run.runKey = .task) = 0 := by
  simp [isQueued, List.countP_eq_zero]

theorem Orderly.later (orderly : process.Orderly now nextRunId) {afterNow : Nat} {afterId : RunId}
    (time : now ≤ afterNow) (ids : nextRunId ≤ afterId) : process.Orderly afterNow afterId where
  single := orderly.single
  distinct := orderly.distinct
  fresh runId member := (orderly.fresh runId member).trans_le ids
  fires dispatch member moment fired :=
    ⟨(orderly.fires dispatch member moment fired).1.trans time,
      (orderly.fires dispatch member moment fired).2⟩
  queued := orderly.queued

/-- A fresh run takes its place among the active ones. -/
theorem Orderly.dispatch (orderly : process.Orderly now nextRunId) {dispatch : Dispatch}
    (free : dispatch.runKey = .task → process.isRunning = false ∧ process.isQueued = false)
    (new : dispatch.runId = nextRunId)
    (fires : ∀ time, dispatch.firedOnceAt = some time → time.time ≤ now ∧ dispatch.trigger = .scheduled)
    (scheduledInFlight : List RunId) :
    Orderly now (nextRunId + 1)
      { process with active := process.active ++ [dispatch], scheduledInFlight := scheduledInFlight } where
  single := by
    have single := orderly.single
    rw [List.countP_append, List.countP_singleton]
    split
    · rename_i own
      obtain ⟨idle, empty⟩ := free (by simpa using own)
      rw [isRunning_false.mp idle, isQueued_false.mp empty]
    · omega
  distinct := by
    have apart : dispatch.runId ∉ process.runIds := fun member =>
      absurd (orderly.fresh _ member) (by simp [new])
    have moved : (process.active.map Dispatch.runId ++ [dispatch.runId] ++
        process.queue.filterMap fun run => run.requested.map RequestedRun.runId).Perm
          (dispatch.runId :: process.runIds) := by
      rw [List.append_assoc]
      exact List.perm_middle
    simp only [runIds, List.map_append, List.map_singleton]
    exact moved.nodup_iff.mpr (List.nodup_cons.mpr ⟨apart, orderly.distinct⟩)
  fresh runId member := by
    simp only [runIds, List.map_append, List.map_singleton, List.mem_append, List.mem_singleton] at member
    rcases member with (active | rfl) | queued
    · exact (orderly.fresh runId (List.mem_append_left _ active)).trans (Nat.lt_succ_self _)
    · exact new ▸ Nat.lt_succ_self _
    · exact (orderly.fresh runId (List.mem_append_right _ queued)).trans (Nat.lt_succ_self _)
  fires other member time fired := by
    rcases List.mem_append.mp member with before | last
    · exact orderly.fires other before time fired
    · cases List.mem_singleton.mp last
      exact fires time fired
  queued := orderly.queued

variable {run : QueuedRun} {rest : List QueuedRun}

theorem Orderly.enqueue (orderly : process.Orderly now nextRunId)
    (free : run.runKey = .task → process.isRunning = false ∧ process.isQueued = false)
    (new : ∀ requested, run.requested = some requested → requested.runId = nextRunId)
    (unscheduled : run.trigger ≠ .scheduled) :
    Orderly now (nextRunId + 1) { process with queue := process.queue ++ [run] } where
  single := by
    have single := orderly.single
    rw [List.countP_append, List.countP_singleton]
    split
    · rename_i own
      obtain ⟨idle, empty⟩ := free (by simpa using own)
      rw [isRunning_false.mp idle, isQueued_false.mp empty]
    · omega
  distinct := by
    cases asked : run.requested with
    | none => simpa [runIds, asked] using orderly.distinct
    | some requested =>
        have apart : requested.runId ∉ process.runIds := fun member =>
          absurd (orderly.fresh _ member) (by simp [new requested asked])
        simp only [runIds, List.filterMap_append, List.filterMap_cons, List.filterMap_nil, asked,
          Option.map_some, ← List.append_assoc]
        exact List.nodup_append.mpr ⟨orderly.distinct, List.nodup_singleton _, fun id member other last => by
          rw [List.mem_singleton.mp last]
          exact fun same => apart (same ▸ member)⟩
  fresh runId member := by
    simp only [runIds, List.filterMap_append, List.mem_append, List.filterMap_cons, List.filterMap_nil] at member
    rcases member with active | queued | last
    · exact (orderly.fresh runId (List.mem_append_left _ active)).trans (Nat.lt_succ_self _)
    · exact (orderly.fresh runId (List.mem_append_right _ queued)).trans (Nat.lt_succ_self _)
    · cases asked : run.requested with
      | none => simp [asked] at last
      | some requested =>
          simp only [asked, Option.map_some, List.mem_singleton] at last
          rw [last, new requested asked]
          exact Nat.lt_succ_self _
  fires := orderly.fires
  queued other member := by
    rcases List.mem_append.mp member with before | last
    · exact orderly.queued other before
    · cases List.mem_singleton.mp last
      exact unscheduled

theorem Orderly.dequeue (orderly : process.Orderly now nextRunId) (left : process.queue.Perm (run :: rest)) :
    Orderly now nextRunId { process with queue := rest } where
  single := by
    have single := orderly.single
    rw [left.countP_eq, List.countP_cons] at single
    dsimp only
    omega
  distinct := by
    have distinct := orderly.distinct
    have split := (left.filterMap fun run => run.requested.map RequestedRun.runId).append_left
      (process.active.map Dispatch.runId)
    have distinct := split.nodup_iff.mp distinct
    refine distinct.sublist (List.Sublist.append_left ?_ _)
    rw [List.filterMap_cons]
    split
    · exact List.Sublist.refl _
    · exact List.sublist_cons_self ..
  fresh runId member := by
    refine orderly.fresh runId ?_
    rcases List.mem_append.mp member with active | queued
    · exact List.mem_append_left _ active
    · refine List.mem_append_right _ ?_
      obtain ⟨other, member, named⟩ := List.mem_filterMap.mp queued
      exact List.mem_filterMap.mpr ⟨other, left.mem_iff.mpr (List.mem_cons_of_mem _ member), named⟩
  fires := orderly.fires
  queued other member := orderly.queued other (left.mem_iff.mpr (List.mem_cons_of_mem _ member))

/-- A run keeps its identifier when it leaves the queue for a slot. -/
theorem Orderly.dispatchQueued (orderly : process.Orderly now nextRunId) (left : process.queue.Perm (run :: rest))
    {dispatch : Dispatch} (key : dispatch.runKey = run.runKey)
    (named : dispatch.runId = (run.requested.map RequestedRun.runId).getD nextRunId)
    (quiet : dispatch.firedOnceAt = none) (scheduledInFlight : List RunId) :
    Orderly now (nextRunId + 1)
      { active := process.active ++ [dispatch], queue := rest, scheduledInFlight := scheduledInFlight } := by
  cases asked : run.requested with
  | none =>
      have rested := orderly.dequeue left
      refine rested.dispatch (fun own => ?_) (by simpa [asked] using named) (by simp [quiet]) _
      have single := orderly.single
      rw [left.countP_eq, List.countP_cons, if_pos (by simp [← key, own])] at single
      exact ⟨isRunning_false.mpr (by dsimp only; omega), isQueued_false.mpr (by dsimp only; omega)⟩
  | some requested =>
      have runId : dispatch.runId = requested.runId := by simpa [asked] using named
      have moved : (process.active.map Dispatch.runId ++ [dispatch.runId] ++
          rest.filterMap fun run => run.requested.map RequestedRun.runId).Perm process.runIds := by
        have split := (left.filterMap fun run => run.requested.map RequestedRun.runId).append_left
          (process.active.map Dispatch.runId)
        rw [List.append_assoc, runId]
        refine List.Perm.trans ?_ split.symm
        simp [asked]
      exact {
        single := by
          have single := orderly.single
          rw [left.countP_eq, List.countP_cons] at single
          rw [List.countP_append, List.countP_singleton, key]
          dsimp only
          omega
        distinct := by
          simp only [runIds, List.map_append, List.map_singleton]
          exact moved.nodup_iff.mpr orderly.distinct
        fresh := fun id member => by
          simp only [runIds, List.map_append, List.map_singleton] at member
          exact (orderly.fresh id (moved.mem_iff.mp member)).trans (Nat.lt_succ_self _)
        fires := fun other member time fired => by
          rcases List.mem_append.mp member with before | last
          · exact orderly.fires other before time fired
          · cases List.mem_singleton.mp last
            rw [quiet] at fired
            cases fired
        queued := fun other member =>
          orderly.queued other (left.mem_iff.mpr (List.mem_cons_of_mem _ member)) }

theorem Orderly.endRun (orderly : process.Orderly now nextRunId) (dispatch : Dispatch)
    (scheduledInFlight : List RunId) :
    Orderly now nextRunId
      { process with active := process.active.erase dispatch, scheduledInFlight := scheduledInFlight } where
  single := by
    have fewer : (process.active.erase dispatch).countP (fun run => run.runKey = .task) ≤
      process.active.countP (fun run => run.runKey = .task) := List.erase_sublist.countP_le
    have single := orderly.single
    dsimp only
    omega
  distinct := orderly.distinct.sublist ((List.erase_sublist.map _).append_right _)
  fresh runId member :=
    orderly.fresh runId (((List.erase_sublist.map _).append_right _).subset member)
  fires other member := orderly.fires other (List.mem_of_mem_erase member)
  queued := orderly.queued

/-- Another active run has another identifier. -/
theorem Orderly.apart (orderly : process.Orderly now nextRunId) {dispatch other : Dispatch}
    (member : dispatch ∈ process.active) (otherMember : other ∈ process.active) (different : other ≠ dispatch) :
    other.runId ≠ dispatch.runId := by
  have distinct := (List.nodup_append.mp orderly.distinct).1
  exact fun same => different (List.inj_on_of_nodup_map distinct otherMember member same)

theorem Orderly.active_nodup (orderly : process.Orderly now nextRunId) : process.active.Nodup :=
  List.Nodup.of_map _ (List.nodup_append.mp orderly.distinct).1

end Process

end NimbleBrain.Scheduler
