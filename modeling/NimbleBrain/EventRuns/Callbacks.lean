import NimbleBrain.EventRuns.Trigger

/- Every accepted callback was called, was taken the place of, or waits. Each step moves it at most once. -/

namespace NimbleBrain.EventRuns

open Library Notifications

def PendingBatch.callbacks (batch : PendingBatch) : List Settler := batch.settlers.values

namespace Trigger

/-- The callbacks of the open batches and of the batches whose run is pending. -/
def waiting (trigger : Trigger) : List Settler :=
  trigger.batches.values.flatMap PendingBatch.callbacks ++
    trigger.runs.flatMap fun run => run.batch.callbacks

/-- How often the callback was called. -/
def timesSettled (trigger : Trigger) (settler : Settler) : Nat :=
  (trigger.settled.map Prod.fst).count settler

/-- How often another callback took its place. -/
def timesReplaced (trigger : Trigger) (settler : Settler) : Nat :=
  (trigger.replaced.map Prod.fst).count settler

/-- Where the accepted callbacks are. -/
def Conserved (trigger : Trigger) : Prop :=
  ∀ settler, trigger.accepted.count settler =
    trigger.timesSettled settler + trigger.timesReplaced settler + trigger.waiting.count settler

variable {trigger : Trigger}

theorem settleAll_timesSettled (batch : PendingBatch) (result : EventWakeSettlement) (settler : Settler) :
    (trigger.settleAll batch result).timesSettled settler =
      trigger.timesSettled settler + batch.callbacks.count settler := by
  simp [timesSettled, settleAll, PendingBatch.callbacks, Function.comp_def]

variable {key : String} {after : Trigger}

/-- A batch that leaves the open ones takes its callbacks with it. -/
theorem withoutBatch_waiting {batch : PendingBatch} (found : trigger.batches.get? key = some batch)
    (settler : Settler) :
    trigger.waiting.count settler =
      batch.callbacks.count settler + (trigger.withoutBatch key).waiting.count settler := by
  have parts := (trigger.batches.values_delete key).flatMap_right PendingBatch.callbacks
  have counted := parts.count_eq settler
  rw [found] at counted
  simp only [Option.toList_some, List.singleton_append, List.flatMap_cons, List.count_append] at counted
  simp only [waiting, withoutBatch, List.count_append]
  omega

/-- A batch that closes is called back, or hands its callbacks to its run. -/
theorem Conserved.fire (conserved : trigger.Conserved) (key : String) (answers : FireAnswers) :
    (trigger.fire key answers).1.Conserved := by
  unfold Trigger.fire
  cases found : trigger.batches.get? key with
  | none => exact conserved
  | some batch =>
      have settles (result : EventWakeSettlement) :
          ((trigger.withoutBatch key).settleAll batch result).Conserved := by
        intro settler
        have before := conserved settler
        have moved := withoutBatch_waiting found settler
        have called := @settleAll_timesSettled (trigger.withoutBatch key) batch result settler
        change trigger.accepted.count settler = _ + trigger.timesReplaced settler +
          (trigger.withoutBatch key).waiting.count settler
        rw [called]
        change _ = trigger.timesSettled settler + _ + _ + _
        omega
      have dispatches : ((trigger.withoutBatch key).dispatch key batch answers.startedAt).Conserved := by
        intro settler
        have before := conserved settler
        have moved := withoutBatch_waiting found settler
        have handed : ((trigger.withoutBatch key).dispatch key batch answers.startedAt).waiting.count settler =
            batch.callbacks.count settler + (trigger.withoutBatch key).waiting.count settler := by
          simp only [waiting, dispatch, List.flatMap_append, List.flatMap_cons, List.flatMap_nil,
            List.append_nil, List.count_append]
          omega
        change trigger.accepted.count settler = trigger.timesSettled settler + trigger.timesReplaced settler + _
        omega
      simp only
      split
      · exact settles _
      · split
        · exact settles _
        · exact dispatches

/-- What an item joins is the old batch, with its own callback beside those of the other items. -/
theorem join_callbacks (batch : PendingBatch) (item : Notification) (new settler : Settler) :
    (batch.join item new).callbacks.count settler +
        (batch.settlers.get? (notificationId item)).toList.count settler =
      [new].count settler + batch.callbacks.count settler := by
  have set := (batch.settlers.values_set (notificationId item) new).count_eq settler
  have delete := (batch.settlers.values_delete (notificationId item)).count_eq settler
  simp only [List.count_append] at delete
  change (batch.settlers.set (notificationId item) new).values.count settler + _ = _
  rw [set, PendingBatch.callbacks, delete, List.count_cons, List.count_singleton]
  omega

theorem batchFor_callbacks (trigger : Trigger) (wake : Wake) (settler : Settler) :
    (trigger.batches.values.flatMap PendingBatch.callbacks).count settler =
      (trigger.batchFor wake).callbacks.count settler +
        ((trigger.batches.delete wake.key).values.flatMap PendingBatch.callbacks).count settler := by
  have parts := ((trigger.batches.values_delete wake.key).flatMap_right PendingBatch.callbacks).count_eq settler
  rw [parts, batchFor]
  cases trigger.batches.get? wake.key with
  | none => simp [PendingBatch.callbacks, PendingBatch.opened, OrderedMap.values]
  | some batch => simp

theorem Conserved.take (conserved : trigger.Conserved) (wake : Wake) (auto : EventTask) :
    (trigger.take wake auto).Conserved := by
  intro settler
  have before := conserved settler
  have joins := join_callbacks (trigger.batchFor wake) wake.item (trigger.settlerFor wake) settler
  have old := trigger.batchFor_callbacks wake settler
  have set := ((trigger.batches.values_set wake.key (trigger.joined wake auto)).flatMap_right
    PendingBatch.callbacks).count_eq settler
  have replaced : (trigger.take wake auto).timesReplaced settler =
      trigger.timesReplaced settler + (trigger.displaced wake).toList.count settler := by
    simp [timesReplaced, Trigger.take, Function.comp_def]
  have same : (trigger.joined wake auto).callbacks =
      ((trigger.batchFor wake).join wake.item (trigger.settlerFor wake)).callbacks := rfl
  rw [replaced]
  simp only [waiting, List.count_append] at before
  simp only [Trigger.take, waiting, List.count_append, List.flatMap_cons, same] at set ⊢
  change _ = trigger.timesSettled settler + _ + _
  change _ + (trigger.displaced wake).toList.count settler = _ at joins
  rw [set]
  omega

theorem Conserved.offer (conserved : trigger.Conserved) (wake : Wake) (auto : Option EventTask)
    (answers : FireAnswers) : (trigger.offer wake auto answers).1.Conserved := by
  unfold Trigger.offer
  split
  · exact conserved
  · next auto _ =>
      simp only
      split
      · exact (conserved.take wake auto).fire wake.key answers
      · exact conserved.take wake auto

theorem Conserved.timer (conserved : trigger.Conserved) {answers : FireAnswers}
    (stepped : trigger.timer key answers = some after) : after.Conserved := by
  obtain ⟨batch, -, rfl⟩ := Option.map_eq_some_iff.mp stepped
  exact conserved.fire key answers

theorem Conserved.runEnds (conserved : trigger.Conserved) {place : Nat} {promise : RunPromise}
    (stepped : trigger.runEnds place promise = some after) : after.Conserved := by
  obtain ⟨run, found, rfl⟩ := Option.map_eq_some_iff.mp stepped
  obtain ⟨inRange, rfl⟩ := List.getElem?_eq_some_iff.mp found
  intro settler
  have before := conserved settler
  have called := @settleAll_timesSettled trigger trigger.runs[place].batch
    (runSettlement promise) settler
  have parts := ((List.getElem_cons_eraseIdx_perm inRange).flatMap_right
    fun run => run.batch.callbacks).count_eq settler
  simp only [List.flatMap_cons, List.count_append] at parts
  simp only [waiting, List.count_append] at before ⊢
  change trigger.accepted.count settler = (trigger.settleAll _ _).timesSettled settler +
    trigger.timesReplaced settler + ((trigger.batches.values.flatMap PendingBatch.callbacks).count settler + _)
  rw [called]
  omega

/-- Stopping calls every callback of the open batches and changes nothing else. -/
theorem foldl_settleAll (batches : List PendingBatch) (result : EventWakeSettlement) (trigger : Trigger) :
    batches.foldl (fun trigger batch => trigger.settleAll batch result) trigger =
      { trigger with
        settled := trigger.settled ++
          (batches.flatMap PendingBatch.callbacks).map fun settler => (settler, result) } := by
  induction batches generalizing trigger with
  | nil => simp
  | cons batch rest ih =>
      rw [List.foldl_cons, ih]
      simp [settleAll, PendingBatch.callbacks]

theorem stop_eq (trigger : Trigger) : trigger.stop =
    { trigger with
      settled := trigger.settled ++
        (trigger.batches.values.flatMap PendingBatch.callbacks).map fun settler => (settler, stoppedSettlement)
      batches := ∅
      stopped := true } := by
  rw [stop, foldl_settleAll]

theorem Conserved.stop (conserved : trigger.Conserved) : trigger.stop.Conserved := by
  intro settler
  have before := conserved settler
  rw [stop_eq]
  simp only [timesSettled, timesReplaced, waiting, List.map_append, List.map_map, List.count_append,
    Function.comp_def, List.map_id'] at before ⊢
  simp only [OrderedMap.values, OrderedMap.entries_empty, List.map_nil, List.flatMap_nil,
    List.count_nil] at before ⊢
  omega

theorem Conserved.step (conserved : trigger.Conserved) {step : TriggerStep}
    (stepped : triggerSystem.step trigger step = some after) : after.Conserved := by
  cases step with
  | offer wake auto answers => exact Option.some.inj stepped ▸ conserved.offer wake auto answers
  | timer key answers => exact conserved.timer stepped
  | runEnds place promise => exact conserved.runEnds stepped
  | stop => exact Option.some.inj stepped ▸ conserved.stop

/-- The callbacks that were accepted and have not been called. -/
def outstanding (trigger : Trigger) : List Settler := trigger.waiting ++ trigger.replaced.map Prod.fst

theorem Conserved.outstanding_perm (conserved : trigger.Conserved) :
    trigger.accepted.Perm (trigger.settled.map Prod.fst ++ trigger.outstanding) := by
  rw [List.perm_iff_count]
  intro settler
  have total := conserved settler
  simp only [timesSettled, timesReplaced] at total
  simp only [outstanding, List.count_append]
  omega

/-- Calls are only added to those that were made. -/
theorem fire_settled (trigger : Trigger) (key : String) (answers : FireAnswers) :
    trigger.settled <+: (trigger.fire key answers).1.settled := by
  unfold fire
  cases trigger.batches.get? key with
  | none => exact List.prefix_refl _
  | some batch =>
      simp only
      split
      · exact List.prefix_append ..
      · split
        · exact List.prefix_append ..
        · exact List.prefix_refl _

theorem fire_accepted (trigger : Trigger) (key : String) (answers : FireAnswers) :
    (trigger.fire key answers).1.accepted = trigger.accepted := by
  unfold fire
  cases trigger.batches.get? key with
  | none => rfl
  | some batch =>
      simp only
      split
      · rfl
      · split <;> rfl

/-- An offer is refused without a trace, or its callback is accepted. -/
theorem offer_effect (trigger : Trigger) (wake : Wake) (auto : Option EventTask) (answers : FireAnswers) :
    (∃ result, trigger.offer wake auto answers = (trigger, .refused result)) ∨
      (trigger.offer wake auto answers).2 = .accepted ∧
        (trigger.offer wake auto answers).1.accepted = trigger.accepted ++ [trigger.settlerFor wake] ∧
        trigger.settled <+: (trigger.offer wake auto answers).1.settled := by
  unfold offer
  cases trigger.taker wake auto with
  | error result => exact .inl ⟨result, rfl⟩
  | ok auto =>
      refine .inr ?_
      simp only
      split
      · exact ⟨rfl, fire_accepted (trigger.take wake auto) wake.key answers,
          fire_settled (trigger.take wake auto) wake.key answers⟩
      · exact ⟨rfl, rfl, List.prefix_refl _⟩

/-- The calls that a step makes are of callbacks that were outstanding, or of the one it accepts. -/
theorem calls_perm {new : List Settler} (before : trigger.Conserved) (conserved : after.Conserved)
    (accepted : after.accepted = trigger.accepted ++ new) (calls : trigger.settled <+: after.settled) :
    ((after.settled.drop trigger.settled.length).map Prod.fst ++ after.outstanding).Perm
      (trigger.outstanding ++ new) := by
  have made : after.settled = trigger.settled ++ after.settled.drop trigger.settled.length :=
    (List.prefix_iff_eq_append.mp calls).symm
  have earlier := before.outstanding_perm.append_right new
  have later := conserved.outstanding_perm
  rw [accepted] at later
  have both := later.symm.trans earlier
  rw [made, List.map_append, List.append_assoc, List.append_assoc] at both
  have cut := (List.perm_append_left_iff _).mp both
  simpa using cut

end Trigger

end NimbleBrain.EventRuns
