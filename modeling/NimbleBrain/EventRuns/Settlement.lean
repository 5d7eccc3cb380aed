import NimbleBrain.EventRuns.Callbacks

/- The callback of an accepted offer is called once, unless an offer of another row takes its place. -/

namespace NimbleBrain.EventRuns

open Library Notifications

/-- A batch that may be dispatched. Its items stand under their own identifiers. -/
structure PendingBatch.Fits (batch : PendingBatch) : Prop where
  small : batch.items.size ≤ maxEventBatchItems
  named : ∀ entry ∈ batch.items.entries, notificationId entry.2 = entry.1

/-- A batch that waits for its timer has room. -/
structure PendingBatch.Armed (batch : PendingBatch) : Prop where
  armed : batch.timer.isSome
  room : batch.items.size < maxEventBatchItems

namespace Trigger

/-- The parts of the trigger that only an offer changes. -/
def offered (trigger : Trigger) : Nat × List Settler × List (Settler × Settler) :=
  (trigger.offers, trigger.accepted, trigger.replaced)

/-- What a dispatched batch carried. -/
def Carried (items : List Notification) : Prop :=
  items.length ≤ maxEventBatchItems ∧ (items.map Notification.pair).Nodup

/-- The invariant of the offers. -/
structure Numbered (trigger : Trigger) : Prop where
  conserved : trigger.Conserved
  below : ∀ settler ∈ trigger.accepted, settler.offer < trigger.offers
  distinct : (trigger.accepted.map Settler.offer).Nodup
  newer : ∀ pair ∈ trigger.replaced, pair.1.offer < pair.2.offer ∧ pair.2 ∈ trigger.accepted

/-- The invariant of the batches. -/
structure Shaped (trigger : Trigger) : Prop where
  fits : ∀ entry ∈ trigger.batches.entries, entry.2.Fits
  armed : ∀ entry ∈ trigger.batches.entries, entry.2.Armed
  carried : ∀ items ∈ trigger.dispatched, Carried items

variable {trigger : Trigger}

/-- The items of a batch that fits differ. -/
theorem Carried.of_fits {batch : PendingBatch} (fits : batch.Fits) : Carried batch.items.values := by
  constructor
  · exact Nat.le_trans (Nat.le_of_eq (List.length_map ..)) fits.small
  · have keys : batch.items.values.map notificationId = batch.items.entries.map Prod.fst := by
      rw [OrderedMap.values, List.map_map]
      exact List.map_congr_left fits.named
    have distinct : (batch.items.values.map notificationId).Nodup := keys ▸ batch.items.distinct
    have through : batch.items.values.map notificationId =
        (batch.items.values.map Notification.pair).map fun pair => pair.1 ++ ":" ++ pair.2 := by
      rw [List.map_map]
      rfl
    exact List.Nodup.of_map _ (through ▸ distinct)

/-- Closing a batch changes nothing of the offers or of the other batches. -/
theorem fire_effect (trigger : Trigger) (key : String) (answers : FireAnswers) :
    (trigger.fire key answers).1.offered = trigger.offered ∧
      (trigger.fire key answers).1.batches = trigger.batches.delete key ∧
      ∀ items ∈ (trigger.fire key answers).1.dispatched, items ∈ trigger.dispatched ∨
        ∃ batch, (key, batch) ∈ trigger.batches.entries ∧ items = batch.items.values := by
  unfold fire
  cases found : trigger.batches.get? key with
  | none => exact ⟨rfl, (OrderedMap.delete_of_none found).symm, fun items member => .inl member⟩
  | some batch =>
      have listed : (key, batch) ∈ trigger.batches.entries := OrderedMap.get?_eq_some_iff.mp found
      simp only
      split
      · exact ⟨rfl, rfl, fun items member => .inl member⟩
      · split
        · exact ⟨rfl, rfl, fun items member => .inl member⟩
        · refine ⟨rfl, rfl, fun items member => ?_⟩
          rcases List.mem_append.mp member with earlier | last
          · exact .inl earlier
          · exact .inr ⟨batch, listed, List.mem_singleton.mp last⟩

variable {after : Trigger} {settler : Settler} {wake : Wake}

theorem Numbered.congr (numbered : trigger.Numbered) (conserved : after.Conserved)
    (same : after.offered = trigger.offered) : after.Numbered := by
  obtain ⟨offers, accepted, replaced⟩ : after.offers = trigger.offers ∧ after.accepted = trigger.accepted ∧
      after.replaced = trigger.replaced := by simpa [offered] using same
  exact ⟨conserved, by rw [offers, accepted]; exact numbered.below, by rw [accepted]; exact numbered.distinct,
    by rw [replaced, accepted]; exact numbered.newer⟩

/-- A callback that waits was accepted. -/
theorem Conserved.accepted_of_waiting (conserved : trigger.Conserved) (waits : settler ∈ trigger.waiting) :
    settler ∈ trigger.accepted := by
  have positive := List.count_pos_iff.mpr waits
  have total := conserved settler
  exact List.count_pos_iff.mp (by omega)

theorem displaced_waits (displaced : trigger.displaced wake = some settler) :
    settler ∈ trigger.waiting := by
  unfold Trigger.displaced batchFor at displaced
  cases found : trigger.batches.get? wake.key with
  | none => simp [found, PendingBatch.opened] at displaced
  | some batch =>
      simp only [found, Option.getD_some] at displaced
      refine List.mem_append_left _ (List.mem_flatMap.mpr ⟨batch, ?_, ?_⟩)
      · exact OrderedMap.mem_values.mpr ⟨wake.key, OrderedMap.get?_eq_some_iff.mp found⟩
      · exact OrderedMap.mem_values.mpr ⟨_, OrderedMap.get?_eq_some_iff.mp displaced⟩

theorem Numbered.take (numbered : trigger.Numbered) (wake : Wake) (auto : EventTask) :
    (trigger.take wake auto).Numbered := by
  have earlier (settler : Settler) (member : settler ∈ trigger.accepted) : settler.offer < trigger.offers :=
    numbered.below settler member
  refine ⟨numbered.conserved.take wake auto, ?_, ?_, ?_⟩
  · intro settler member
    rcases List.mem_append.mp member with old | new
    · exact Nat.lt_succ_of_lt (earlier settler old)
    · rw [List.mem_singleton.mp new]
      exact Nat.lt_succ_self _
  · simp only [Trigger.take, List.map_append, List.map_cons, List.map_nil]
    rw [List.nodup_append]
    refine ⟨numbered.distinct, List.nodup_singleton _, ?_⟩
    intro number member other last
    obtain ⟨settler, old, rfl⟩ := List.mem_map.mp member
    rw [List.mem_singleton.mp last]
    exact Nat.ne_of_lt (earlier settler old)
  · intro pair member
    rcases List.mem_append.mp member with old | new
    · obtain ⟨newer, accepted⟩ := numbered.newer pair old
      exact ⟨newer, List.mem_append_left _ accepted⟩
    · obtain ⟨settler, displaced, rfl⟩ := List.mem_map.mp new
      have waits := displaced_waits (Option.mem_toList.mp displaced)
      exact ⟨earlier settler (numbered.conserved.accepted_of_waiting waits),
        List.mem_append_right _ (List.mem_singleton.mpr rfl)⟩

theorem Numbered.step (numbered : trigger.Numbered) {step : TriggerStep}
    (stepped : triggerSystem.step trigger step = some after) : after.Numbered := by
  have conserved := numbered.conserved.step stepped
  cases step with
  | offer wake auto answers =>
      obtain rfl := Option.some.inj stepped
      unfold offer at conserved ⊢
      cases taken : trigger.taker wake auto with
      | error result => exact numbered
      | ok auto =>
          rw [taken] at conserved
          simp only at conserved ⊢
          split
          · next full =>
              rw [if_pos full] at conserved
              exact (numbered.take wake auto).congr conserved (fire_effect _ wake.key answers).1
          · exact numbered.take wake auto
  | timer key answers =>
      obtain ⟨batch, -, rfl⟩ := Option.map_eq_some_iff.mp stepped
      exact numbered.congr conserved (fire_effect trigger key answers).1
  | runEnds place promise =>
      obtain ⟨run, -, rfl⟩ := Option.map_eq_some_iff.mp stepped
      exact numbered.congr conserved rfl
  | stop =>
      obtain rfl := Option.some.inj stepped
      exact numbered.congr conserved (by rw [stop_eq]; rfl)

theorem Shaped.initial : ({} : Trigger).Shaped := by
  constructor <;> intro entry member <;> cases member

/-- A batch has room for the item that joins it. -/
theorem Shaped.joined_fits (shaped : trigger.Shaped) (wake : Wake) (auto : EventTask) :
    (trigger.joined wake auto).Fits := by
  have old : (trigger.batchFor wake).items.size < maxEventBatchItems ∧
      ∀ entry ∈ (trigger.batchFor wake).items.entries, notificationId entry.2 = entry.1 := by
    unfold batchFor
    cases found : trigger.batches.get? wake.key with
    | none => exact ⟨show 0 < maxEventBatchItems by decide, fun entry member => nomatch member⟩
    | some batch =>
        have listed := OrderedMap.get?_eq_some_iff.mp found
        exact ⟨(shaped.armed _ listed).room, (shaped.fits _ listed).named⟩
  constructor
  · have grows := (trigger.batchFor wake).items.size_set_le (notificationId wake.item) wake.item
    exact Nat.le_trans grows old.1
  · intro entry member
    rcases OrderedMap.mem_set.mp member with rfl | ⟨earlier, -⟩
    · rfl
    · exact old.2 entry earlier

theorem joined_armed {auto : EventTask} (room : ¬ (trigger.joined wake auto).isFull = true) :
    (trigger.joined wake auto).Armed := by
  have partial' : ¬ ((trigger.batchFor wake).join wake.item (trigger.settlerFor wake)).isFull = true := room
  constructor
  · simp [joined, partial']
  · simpa [PendingBatch.isFull] using room

/-- Only the batch that was joined may be full, and then it closes. -/
theorem Shaped.offer (shaped : trigger.Shaped) (wake : Wake) (auto : Option EventTask) (answers : FireAnswers) :
    (trigger.offer wake auto answers).1.Shaped := by
  unfold Trigger.offer
  cases trigger.taker wake auto with
  | error result => exact shaped
  | ok auto =>
      have fits := shaped.joined_fits wake auto
      simp only
      split
      · obtain ⟨-, batches, dispatched⟩ := fire_effect (trigger.take wake auto) wake.key answers
        have kept (entry : String × PendingBatch)
            (member : entry ∈ ((trigger.take wake auto).fire wake.key answers).1.batches.entries) :
            entry ∈ trigger.batches.entries := by
          rw [batches] at member
          obtain ⟨set, other⟩ := OrderedMap.mem_delete.mp member
          rcases OrderedMap.mem_set.mp set with rfl | ⟨old, -⟩
          · exact absurd rfl other
          · exact old
        refine ⟨fun entry member => shaped.fits entry (kept entry member),
          fun entry member => shaped.armed entry (kept entry member), fun items member => ?_⟩
        rcases dispatched items member with earlier | ⟨batch, listed, rfl⟩
        · exact shaped.carried items earlier
        · rcases OrderedMap.mem_set.mp listed with same | ⟨-, other⟩
          · obtain ⟨-, rfl⟩ := Prod.mk.inj same
            exact Carried.of_fits fits
          · exact absurd rfl other
      · next room =>
          refine ⟨fun entry member => ?_, fun entry member => ?_, shaped.carried⟩
          · rcases OrderedMap.mem_set.mp member with rfl | ⟨old, -⟩
            · exact fits
            · exact shaped.fits entry old
          · rcases OrderedMap.mem_set.mp member with rfl | ⟨old, -⟩
            · exact joined_armed room
            · exact shaped.armed entry old

theorem Shaped.fire (shaped : trigger.Shaped) (key : String) (answers : FireAnswers) :
    (trigger.fire key answers).1.Shaped := by
  obtain ⟨-, batches, dispatched⟩ := fire_effect trigger key answers
  refine ⟨fun entry member => ?_, fun entry member => ?_, fun items member => ?_⟩
  · rw [batches] at member
    exact shaped.fits entry (OrderedMap.mem_delete.mp member).1
  · rw [batches] at member
    exact shaped.armed entry (OrderedMap.mem_delete.mp member).1
  · rcases dispatched items member with earlier | ⟨batch, listed, rfl⟩
    · exact shaped.carried items earlier
    · exact Carried.of_fits (shaped.fits _ listed)

theorem Shaped.step (shaped : trigger.Shaped) {step : TriggerStep}
    (stepped : triggerSystem.step trigger step = some after) : after.Shaped := by
  cases step with
  | offer wake auto answers => exact Option.some.inj stepped ▸ shaped.offer wake auto answers
  | timer key answers =>
      obtain ⟨batch, -, rfl⟩ := Option.map_eq_some_iff.mp stepped
      exact shaped.fire key answers
  | runEnds place promise =>
      obtain ⟨run, -, rfl⟩ := Option.map_eq_some_iff.mp stepped
      exact ⟨shaped.fits, shaped.armed, shaped.carried⟩
  | stop =>
      obtain rfl := Option.some.inj stepped
      rw [stop_eq]
      exact ⟨fun entry member => (nomatch member), fun entry member => (nomatch member), shaped.carried⟩

/-- The timers of the open batches run out one after the other. -/
theorem timers_run_out (shaped : trigger.Shaped) (answers : FireAnswers) :
    ∃ (keys : List String) (last : Trigger), triggerSystem.run trigger (keys.map fun key => .timer key answers) = some last ∧
      last.batches = ∅ := by
  induction size : trigger.batches.size generalizing trigger with
  | zero => exact ⟨[], trigger, rfl, OrderedMap.ext (List.length_eq_zero_iff.mp size)⟩
  | succ count ih =>
      obtain ⟨entry, first⟩ := List.exists_mem_of_length_eq_add_one size
      have found : trigger.batches.get? entry.1 = some entry.2 := OrderedMap.get?_eq_some_iff.mpr first
      have fires : triggerSystem.step trigger (.timer entry.1 answers) = some (trigger.fire entry.1 answers).1 := by
        change trigger.timer entry.1 answers = _
        have armed : (some entry.2).filter (fun batch => batch.timer.isSome) = some entry.2 :=
          Option.filter_some_pos (shaped.armed entry first).armed
        rw [timer, found, armed, Option.map_some]
      have fewer : (trigger.fire entry.1 answers).1.batches.size = count := by
        rw [(fire_effect trigger entry.1 answers).2.1]
        have taken := OrderedMap.size_delete found
        omega
      obtain ⟨keys, last, ran, closed⟩ := ih (shaped.fire entry.1 answers) fewer
      refine ⟨entry.1 :: keys, last, ?_, closed⟩
      rw [List.map_cons, System.run_cons, fires]
      exact ran

/-- The pending runs end one after the other. -/
theorem runs_end (trigger : Trigger) (promise : RunPromise) :
    ∃ count last, triggerSystem.run trigger (List.replicate count (.runEnds 0 promise)) = some last ∧
      last.batches = trigger.batches ∧ last.runs = [] := by
  induction runs : trigger.runs generalizing trigger with
  | nil => exact ⟨0, trigger, rfl, rfl, runs⟩
  | cons run rest ih =>
      obtain ⟨after, ends, batches, fewer⟩ : ∃ after, triggerSystem.step trigger (.runEnds 0 promise) = some after ∧
          after.batches = trigger.batches ∧ after.runs = rest := by
        change ∃ after, trigger.runEnds 0 promise = some after ∧ _
        simp [runEnds, runs, settleAll]
      obtain ⟨count, last, ran, same, none⟩ := ih after fewer
      refine ⟨count + 1, last, ?_, same.trans batches, none⟩
      rw [List.replicate_succ, System.run_cons, ends]
      exact ran

/-- The callback stands for nothing more, since a later offer of its row took its place. -/
def StoodFor (trigger : Trigger) (settler : Settler) : Prop :=
  ∃ later ∈ trigger.accepted, (settler, later) ∈ trigger.replaced ∧ later.row = settler.row ∧
    settler.offer < later.offer

/-- An offer for an item of the open batch comes from the row of the offer that it takes the place of. -/
def SameRowRepeats : System.Guard Trigger TriggerStep
  | trigger, .offer wake auto _ =>
      (trigger.taker wake auto).isOk → ∀ settler ∈ trigger.displaced wake, settler.row = wake.row
  | _, _ => True

instance (trigger : Trigger) (step : TriggerStep) : Decidable (SameRowRepeats trigger step) :=
  match step with
  | .offer .. => inferInstanceAs (Decidable (_ → _))
  | .timer .. => .isTrue trivial
  | .runEnds .. => .isTrue trivial
  | .stop => .isTrue trivial

/-- The invariant of a run in which only offers of one row take each other's place. -/
structure Settles (trigger : Trigger) : Prop where
  numbered : trigger.Numbered
  shaped : trigger.Shaped
  rows : ∀ pair ∈ trigger.replaced, pair.2.row = pair.1.row

theorem replaced_of_step {step : TriggerStep} (met : SameRowRepeats trigger step)
    (rows : ∀ pair ∈ trigger.replaced, pair.2.row = pair.1.row)
    (stepped : triggerSystem.step trigger step = some after) : ∀ pair ∈ after.replaced, pair.2.row = pair.1.row := by
  cases step with
  | offer wake auto answers =>
      obtain rfl := Option.some.inj stepped
      unfold Trigger.offer
      cases taken : trigger.taker wake auto with
      | error result => exact rows
      | ok auto' =>
          have taking : ∀ pair ∈ (trigger.take wake auto').replaced, pair.2.row = pair.1.row := by
            intro pair member
            rcases List.mem_append.mp member with earlier | new
            · exact rows pair earlier
            · obtain ⟨settler, displaced, rfl⟩ := List.mem_map.mp new
              exact (met (by rw [taken]; rfl) settler (Option.mem_toList.mp displaced)).symm
          have unchanged := (fire_effect (trigger.take wake auto') wake.key answers).1
          have replaced : ((trigger.take wake auto').fire wake.key answers).1.replaced =
              (trigger.take wake auto').replaced := congrArg (fun parts => parts.2.2) unchanged
          simp only
          split
          · exact replaced.symm ▸ taking
          · exact taking
  | timer key answers =>
      obtain ⟨batch, -, rfl⟩ := Option.map_eq_some_iff.mp stepped
      have replaced : (trigger.fire key answers).1.replaced = trigger.replaced :=
        congrArg (fun parts => parts.2.2) (fire_effect trigger key answers).1
      exact replaced.symm ▸ rows
  | runEnds place promise =>
      obtain ⟨run, -, rfl⟩ := Option.map_eq_some_iff.mp stepped
      exact rows
  | stop =>
      obtain rfl := Option.some.inj stepped
      rw [stop_eq]
      exact rows

theorem settles (reached : triggerSystem.ReachedBy SameRowRepeats trigger) : trigger.Settles := by
  apply reached.invariant Settles
  · intro trigger first
    obtain rfl := first
    exact ⟨⟨fun _ => rfl, fun _ member => (nomatch member), List.nodup_nil, fun _ member => (nomatch member)⟩,
      .initial, fun _ member => (nomatch member)⟩
  · intro before step after holds met stepped
    exact ⟨holds.numbered.step stepped, holds.shaped.step stepped, replaced_of_step met holds.rows stepped⟩

/-- An accepted callback is in exactly one place. -/
theorem Settles.place (holds : trigger.Settles) (accepted : settler ∈ trigger.accepted) :
    trigger.timesSettled settler = 1 ∧ settler ∉ trigger.waiting ∧ ¬ trigger.StoodFor settler ∨
      trigger.timesSettled settler = 0 ∧ settler ∈ trigger.waiting ∧ ¬ trigger.StoodFor settler ∨
      trigger.timesSettled settler = 0 ∧ settler ∉ trigger.waiting ∧ trigger.StoodFor settler := by
  have once : trigger.accepted.count settler = 1 :=
    List.count_eq_one_of_mem holds.numbered.distinct.of_map accepted
  have total := holds.numbered.conserved settler
  have waits : settler ∈ trigger.waiting ↔ 0 < trigger.waiting.count settler := List.count_pos_iff.symm
  have stood : trigger.StoodFor settler ↔ 0 < trigger.timesReplaced settler := by
    rw [timesReplaced, List.count_pos_iff]
    constructor
    · rintro ⟨later, -, pair, -⟩
      exact List.mem_map.mpr ⟨_, pair, rfl⟩
    · intro listed
      obtain ⟨pair, member, rfl⟩ := List.mem_map.mp listed
      obtain ⟨newer, later⟩ := holds.numbered.newer pair member
      exact ⟨pair.2, later, member, holds.rows pair member, newer⟩
  rw [waits, stood]
  omega

/-- No timer is armed, and no run is pending. -/
def Quiet (trigger : Trigger) : Prop := trigger.batches = ∅ ∧ trigger.runs = []

instance (trigger : Trigger) : Decidable trigger.Quiet := inferInstanceAs (Decidable (_ ∧ _))

theorem Quiet.waiting {trigger : Trigger} (quiet : trigger.Quiet) : trigger.waiting = [] := by
  rw [Trigger.waiting, quiet.1, quiet.2]
  rfl

/-- The row of a callback was told at its last offer. -/
theorem Settles.told (holds : trigger.Settles) (quiet : trigger.Quiet) (accepted : settler ∈ trigger.accepted) :
    ∃ last ∈ trigger.accepted, last.row = settler.row ∧ settler.offer ≤ last.offer ∧
      trigger.timesSettled last = 1 := by
  induction left : trigger.offers - settler.offer using Nat.strongRecOn generalizing settler with
  | ind left ih =>
      rcases holds.place accepted with ⟨once, -⟩ | ⟨-, waits, -⟩ | ⟨-, -, later, accepted', -, row, newer⟩
      · exact ⟨settler, accepted, rfl, Nat.le_refl _, once⟩
      · rw [quiet.waiting] at waits
        cases waits
      · have below := holds.numbered.below later accepted'
        obtain ⟨last, listed, same, after, once⟩ := ih _ (by omega) accepted' rfl
        exact ⟨last, listed, same.trans row, by omega, once⟩

theorem Settles.comes_to_rest (holds : trigger.Settles) (answers : FireAnswers) (promise : RunPromise) :
    ∃ (keys : List String) (count : Nat) (last : Trigger),
      triggerSystem.run trigger
        (keys.map (fun key => .timer key answers) ++ List.replicate count (.runEnds 0 promise)) = some last ∧
      last.Quiet := by
  obtain ⟨keys, middle, fired, closed⟩ := timers_run_out holds.shaped answers
  obtain ⟨count, last, ended, same, none⟩ := runs_end middle promise
  refine ⟨keys, count, last, ?_, same.trans closed, none⟩
  rw [System.run_append, fired]
  exact ended

/-- While offers of one row alone take each other's place, each accepted offer is called back exactly once or
stood for, batches are bounded and without repetition, and the timers and the runs bring every wait to an end. -/
theorem wakes_settled_once (reached : triggerSystem.ReachedBy SameRowRepeats trigger) :
    (∀ settler ∈ trigger.accepted,
      trigger.timesSettled settler = 1 ∧ settler ∉ trigger.waiting ∧ ¬ trigger.StoodFor settler ∨
        trigger.timesSettled settler = 0 ∧ settler ∈ trigger.waiting ∧ ¬ trigger.StoodFor settler ∨
        trigger.timesSettled settler = 0 ∧ settler ∉ trigger.waiting ∧ trigger.StoodFor settler) ∧
      (∀ settler, settler ∉ trigger.accepted → trigger.timesSettled settler = 0) ∧
      (trigger.Quiet → ∀ settler ∈ trigger.accepted,
        (trigger.timesSettled settler = 1 ∨ trigger.StoodFor settler) ∧
          ∃ last ∈ trigger.accepted, last.row = settler.row ∧ settler.offer ≤ last.offer ∧
            trigger.timesSettled last = 1) ∧
      (∀ answers promise, ∃ (keys : List String) (count : Nat) (last : Trigger),
        triggerSystem.run trigger
          (keys.map (fun key => .timer key answers) ++ List.replicate count (.runEnds 0 promise)) = some last ∧
        last.Quiet) ∧
      ∀ items ∈ trigger.dispatched,
        items.length ≤ maxEventBatchItems ∧ (items.map Notification.pair).Nodup := by
  have holds := settles reached
  refine ⟨fun settler accepted => holds.place accepted, ?_, ?_, holds.comes_to_rest, holds.shaped.carried⟩
  · intro settler refused
    have total := holds.numbered.conserved settler
    rw [List.count_eq_zero_of_not_mem refused] at total
    omega
  · intro quiet settler accepted
    refine ⟨?_, holds.told quiet accepted⟩
    rcases holds.place accepted with ⟨once, -⟩ | ⟨-, waits, -⟩ | ⟨-, -, stood⟩
    · exact .inl once
    · rw [quiet.waiting] at waits
      cases waits
    · exact .inr stood

/-- An item that a connector reported. -/
def reported (eventId : String) : Notification where
  envelope := { eventId := eventId, name := "domain.active", timestamp := "" }
  source := "dns"
  workspaceId := "ws"
  receivedAt := 0
  seq := 1

/-- A route offers the item to the task. -/
def wakeFrom (routeId : String) (eventId : String) : Wake where
  wsId := "ws"
  item := reported eventId
  routeId := routeId
  createdBy := "ann"
  target := "triage"
  index := 0

def anyTask : EventTask := {}

def triageKey : String := batchKey "ws" "ann" "triage"

/-- One route offers two items, and the first of them twice. -/
def repeatedOffers : List TriggerStep :=
  [.offer (wakeFrom "r1" "a") (some anyTask) { task := some anyTask },
    .offer (wakeFrom "r1" "b") (some anyTask) { task := some anyTask },
    .offer (wakeFrom "r1" "a") (some anyTask) { task := some anyTask },
    .timer triageKey { task := some anyTask },
    .runEnds 0 (.ran { id := "run", status := "success" })]

theorem wakes_settled_once_repeated :
    ∃ trigger, triggerSystem.run {} repeatedOffers = some trigger ∧ trigger.accepted.length = 3 ∧
      trigger.Quiet ∧ ∀ settler ∈ trigger.accepted,
        (trigger.timesSettled settler = 1 ∨ trigger.StoodFor settler) ∧
          ∃ last ∈ trigger.accepted, last.row = settler.row ∧ settler.offer ≤ last.offer ∧
            trigger.timesSettled last = 1 := by
  have reached : triggerSystem.ReachedBy SameRowRepeats {} := .start _ rfl
  have meets : triggerSystem.Meets SameRowRepeats {} repeatedOffers := by decide +kernel
  obtain ⟨trigger, ran⟩ : ∃ trigger, triggerSystem.run {} repeatedOffers = some trigger := ⟨_, rfl⟩
  have quiet : (triggerSystem.run {} repeatedOffers).all fun trigger =>
      decide (trigger.accepted.length = 3 ∧ trigger.Quiet) := by decide +kernel
  rw [ran, Option.all_some, decide_eq_true_eq] at quiet
  exact ⟨trigger, ran, quiet.1, quiet.2, (wakes_settled_once (reached.run meets ran)).2.2.1 quiet.2⟩

/-- Two routes name the task, and the item of the first is never settled. -/
theorem second_route_silences_first :
    ∃ trigger first second, triggerSystem.run {}
        [.offer (wakeFrom "r1" "a") (some anyTask) { task := some anyTask },
          .offer (wakeFrom "r2" "a") (some anyTask) { task := some anyTask },
          .timer triageKey { task := some anyTask },
          .runEnds 0 (.ran { id := "run", status := "success" })] = some trigger ∧
      trigger.Quiet ∧ trigger.accepted = [first, second] ∧ first.row ≠ second.row ∧
      trigger.timesSettled first = 0 ∧ trigger.timesSettled second = 1 := by
  refine ⟨_, { offer := 0, row := (wakeFrom "r1" "a").row }, { offer := 1, row := (wakeFrom "r2" "a").row }, rfl, ?_⟩
  decide +kernel

end Trigger

end NimbleBrain.EventRuns
