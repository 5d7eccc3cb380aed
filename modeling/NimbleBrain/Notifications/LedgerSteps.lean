import NimbleBrain.Notifications.Ledger

/- Each step of the routes keeps the ledger sound. A scan does so while nothing is under way. -/

namespace NimbleBrain.Notifications

open Library EventRuns

namespace Dispatcher

variable (process : Dispatcher) {job : Job} {rest : List Job}

theorem owed_cons (jobs : process.jobs = job :: rest) :
    process.owed = job.owed ++ (process.withJobs rest).owed := by
  simp [owed, jobsOwed, indexOwed, wakesOwed, wakes, withJobs, jobs]

theorem inFlight_cons (jobs : process.jobs = job :: rest) :
    process.inFlight = Deliveries.jobsInFlight job ++ (process.withJobs rest).inFlight := by
  simp [inFlight, wakes, withJobs, jobs]

theorem unread_cons (jobs : process.jobs = job :: rest) :
    process.unread = job.unread ++ (process.withJobs rest).unread := by
  simp [unread, withJobs, jobs]

/-- The entry of a key stands apart from everything else that is owed. -/
theorem owed_delete (key : RowKey) :
    process.owed.Perm ((process.pending.get? key).toList.map PendingAttempt.owed ++
      { process with pending := process.pending.delete key }.owed) := by
  have parts := (process.pending.values_delete key).map PendingAttempt.owed
  rw [List.map_append] at parts
  rw [List.perm_iff_count]
  intro one
  have counted := parts.count_eq one
  simp only [owed, jobsOwed, indexOwed, wakesOwed, wakes, List.count_append] at counted ⊢
  omega

theorem owed_set (key : RowKey) (entry : PendingAttempt) :
    { process with pending := process.pending.set key entry }.owed.Perm
      (entry.owed :: { process with pending := process.pending.delete key }.owed) := by
  have parts := (process.pending.values_set key entry).map PendingAttempt.owed
  rw [List.map_cons] at parts
  rw [List.perm_iff_count]
  intro one
  have counted := parts.count_eq one
  simp only [owed, jobsOwed, indexOwed, wakesOwed, wakes, List.count_append, List.count_cons] at counted ⊢
  omega

variable {process}

variable {after : Dispatcher} {new : List RowKey}

/-- What is owed through the callbacks and the trigger alone changes with the wakes. -/
theorem owed_wakes (jobs : after.jobs = process.jobs) (pending : after.pending = process.pending)
    (wakes : after.wakes.Perm (process.wakes ++ new)) :
    after.owed.Perm (process.owed ++ new.map .firstWake) := by
  have parts := wakes.map Owed.firstWake
  rw [List.map_append] at parts
  simp only [owed, jobsOwed, indexOwed, wakesOwed, jobs, pending, List.append_assoc]
  exact (parts.append_left _).append_left _

theorem inFlight_wakes (jobs : after.jobs = process.jobs) (wakes : after.wakes.Perm (process.wakes ++ new)) :
    after.inFlight.Perm (process.inFlight ++ new) := by
  simp only [inFlight, jobs, List.append_assoc]
  exact wakes.append_left _

/-- The calls of a trigger step take the place of what was outstanding. -/
theorem withTrigger_wakes {trigger : Trigger} {new : List Settler} (before : process.trigger.Conserved)
    (conserved : trigger.Conserved) (accepted : trigger.accepted = process.trigger.accepted ++ new)
    (calls : process.trigger.settled <+: trigger.settled) :
    (process.withTrigger trigger).wakes.Perm (process.wakes ++ new.map Settler.row) := by
  have moved := (Trigger.calls_perm before conserved accepted calls).map Settler.row
  simp only [wakes, withTrigger, List.map_append, List.map_map, Function.comp_def, List.append_assoc] at moved ⊢
  exact moved.append_left _

theorem move_effect {trigger after : Trigger} (move : TriggerMove)
    (stepped : triggerSystem.step trigger move.step = some after) :
    after.accepted = trigger.accepted ++ [] ∧ trigger.settled <+: after.settled := by
  rw [List.append_nil]
  cases move with
  | timer key answers =>
      obtain ⟨batch, -, rfl⟩ := Option.map_eq_some_iff.mp stepped
      exact ⟨trigger.fire_accepted key answers, trigger.fire_settled key answers⟩
  | runEnds place promise =>
      obtain ⟨run, -, rfl⟩ := Option.map_eq_some_iff.mp stepped
      exact ⟨rfl, List.prefix_append ..⟩
  | stop =>
      obtain rfl := Option.some.inj stepped
      rw [Trigger.stop_eq]
      exact ⟨rfl, List.prefix_append ..⟩

variable (process)

/-- A wake is outstanding or has a row to write, however it is answered. -/
theorem wake_effect (conserved : process.trigger.Conserved) (wake : Wake) (answer : WakeAnswer) :
    (process.wake wake answer).jobs = process.jobs ∧ (process.wake wake answer).pending = process.pending ∧
      (process.wake wake answer).trigger.Conserved ∧
      (process.wake wake answer).wakes.Perm (process.wakes ++ [wake.row]) := by
  have refused (result : EventWakeSettlement) :
      (process.refuse wake.row result).wakes.Perm (process.wakes ++ [wake.row]) := by
    simp only [wakes, refuse, List.map_append, List.map_cons, List.map_nil, List.append_assoc]
    exact List.perm_append_comm.append_left _
  cases answer with
  | unavailable => exact ⟨rfl, rfl, conserved, refused _⟩
  | threw reason => exact ⟨rfl, rfl, conserved, refused _⟩
  | offered auto answers =>
      have after := conserved.offer wake auto answers
      rcases process.trigger.offer_effect wake auto answers with ⟨result, offered⟩ | ⟨ack, accepted, calls⟩
      · have same : process.withTrigger process.trigger = process := by
          simp [withTrigger]
        simp only [Dispatcher.wake, offered, same]
        exact ⟨rfl, rfl, conserved, refused result⟩
      · simp only [Dispatcher.wake, ack]
        exact ⟨rfl, rfl, after, withTrigger_wakes conserved after accepted calls⟩

end Dispatcher

namespace Deliveries

variable {world : Deliveries} {process : Dispatcher}

theorem Sound.crash (sound : world.Sound) : world.crash.Sound where
  held := ⟨List.nodup_nil, fun _ member => nomatch member⟩
  counted key := by
    have before := sound.counted key
    change world.dispatched.count key = world.attemptsAt key + (world.lost ++ world.memory.inFlight).count key + 0
    rw [List.count_append]
    omega
  closedOnce := sound.closedOnce
  bounded := sound.bounded
  lostOnce key := by
    have before := sound.lostOnce key
    have once := sound.inFlight_le key
    change (world.lost ++ world.memory.inFlight).count key ≤ world.crashes + 1
    rw [List.count_append]
    omega
  known := sound.known
  unreadOnce := List.nodup_nil
  unreadNew _ member := nomatch member
  keyed _ member := nomatch member
  conserved := fun _ => rfl

theorem Sound.boot (sound : world.Sound) (stopped : world.process = none) : (world.run {}).Sound := by
  have same : (world.run {}).memory = world.memory := by
    rw [run_memory, memory, stopped]
    rfl
  exact ⟨same ▸ sound.held, same ▸ sound.counted, sound.closedOnce, sound.bounded, sound.lostOnce, sound.known,
    same ▸ sound.unreadOnce, same ▸ sound.unreadNew, same ▸ sound.keyed, same ▸ sound.conserved⟩

section Running

variable (sound : world.Sound) (running : world.process = some process)
include sound running

/-- An item that was just stored has no rows. -/
theorem Sound.arrive {item : Notification} (only : Option String) (new : item.pair ∉ world.arrived) :
    (world.arrive process item only).Sound := by
  obtain rfl := memory_of_process running
  have owed : (world.arrive world.memory item only).memory.owed = world.memory.owed := by
    simp [Deliveries.arrive, memory, Dispatcher.withJobs, Dispatcher.owed, Dispatcher.jobsOwed, Dispatcher.indexOwed,
      Dispatcher.wakesOwed, Dispatcher.wakes, Job.owed]
  have inFlight : (world.arrive world.memory item only).memory.inFlight = world.memory.inFlight := by
    simp [Deliveries.arrive, memory, Dispatcher.withJobs, Dispatcher.inFlight, Dispatcher.wakes, jobsInFlight]
  have unread : (world.arrive world.memory item only).memory.unread = world.memory.unread ++ [item] := by
    simp [Deliveries.arrive, memory, Dispatcher.withJobs, Dispatcher.unread, Job.unread]
  refine ⟨?_, ?_, sound.closedOnce, sound.bounded, sound.lostOnce, ?_, ?_, ?_, sound.keyed, sound.conserved⟩
  · exact owed.symm ▸ sound.held
  · exact inFlight.symm ▸ sound.counted
  · exact fun key row found => List.mem_append_left _ (sound.known key row found)
  · rw [unread, List.map_append, List.nodup_append]
    refine ⟨sound.unreadOnce, List.nodup_singleton _, ?_⟩
    intro pair member other last
    obtain ⟨earlier, listed, rfl⟩ := List.mem_map.mp member
    rw [List.mem_singleton.mp last]
    exact fun same => new (same ▸ (sound.unreadNew earlier listed).1)
  · intro other member
    rw [unread] at member
    rcases List.mem_append.mp member with earlier | last
    · obtain ⟨arrived, free⟩ := sound.unreadNew other earlier
      exact ⟨List.mem_append_left _ arrived, free⟩
    · rw [List.mem_singleton.mp last]
      refine ⟨List.mem_append_right _ (List.mem_singleton.mpr rfl), fun key named => ?_⟩
      cases found : world.rows.get? key with
      | none => exact found
      | some row => exact absurd (named ▸ sound.known key row found) new

variable {job next : Job} {rest : List Job} {after : Deliveries}

/-- The head of the chain only changes its place in its own work. -/
theorem Sound.advance (jobs : process.jobs = job :: rest) (owed : next.owed = job.owed)
    (inFlight : jobsInFlight next = jobsInFlight job) (unread : next.unread.Sublist job.unread) :
    (world.run (process.withJobs (next :: rest))).Sound := by
  obtain rfl := memory_of_process running
  apply sound.move []
  · rw [Dispatcher.owed_cons _ jobs, Dispatcher.owed_cons (world.memory.withJobs (next :: rest)) rfl, owed,
      List.append_nil]
    exact .refl _
  · rw [Dispatcher.inFlight_cons _ jobs, Dispatcher.inFlight_cons (world.memory.withJobs (next :: rest)) rfl,
      inFlight]
    exact .refl _
  · rw [Dispatcher.unread_cons _ jobs, Dispatcher.unread_cons (world.memory.withJobs (next :: rest)) rfl]
    exact unread.append (.refl _)
  · exact sound.keyed
  · exact sound.conserved

/-- A job that ends with nothing in flight leaves its rows as they are. -/
theorem Sound.finish (jobs : process.jobs = job :: rest) (idle : jobsInFlight job = []) :
    (world.run (process.withJobs rest)).Sound := by
  obtain rfl := memory_of_process running
  apply sound.move job.owed
  · rw [Dispatcher.owed_cons _ jobs]
    exact List.perm_append_comm
  · rw [Dispatcher.inFlight_cons _ jobs, idle]
    exact .refl _
  · rw [Dispatcher.unread_cons _ jobs]
    exact List.sublist_append_right ..
  · exact sound.keyed
  · exact sound.conserved

theorem Sound.startJob (stepped : world.startJob process = some after) : after.Sound := by
  unfold Deliveries.startJob at stepped
  split at stepped
  · next item only rest jobs =>
      obtain rfl := Option.some.inj stepped
      exact sound.advance running jobs rfl rfl (.refl _)
  · next entry rest jobs =>
      split at stepped
      · obtain rfl := Option.some.inj stepped
        exact sound.finish running jobs rfl
      · obtain rfl := Option.some.inj stepped
        exact sound.advance running jobs rfl rfl (.refl _)
  · cases stepped

theorem Sound.answer {answer : Except String UnattendedDispatchResult}
    (stepped : world.answer process answer = some after) : after.Sound := by
  unfold Deliveries.answer at stepped
  split at stepped
  · next attempt tools rest jobs =>
      obtain rfl := Option.some.inj stepped
      exact sound.advance running jobs rfl rfl (.refl _)
  · cases stepped

/-- The head of the chain dispatches what it already owed. -/
theorem Sound.dispatchHead (jobs : process.jobs = job :: rest) {key : RowKey} (owed : next.owed = job.owed)
    (before : jobsInFlight job = []) (inFlight : jobsInFlight next = [key]) (unread : next.unread = []) :
    ((world.dispatch key).run (process.withJobs (next :: rest))).Sound := by
  obtain rfl := memory_of_process running
  apply sound.dispatch []
  · rw [Dispatcher.owed_cons _ jobs, Dispatcher.owed_cons (world.memory.withJobs (next :: rest)) rfl, owed,
      List.append_nil]
    exact .refl _
  · rw [Dispatcher.inFlight_cons _ jobs, Dispatcher.inFlight_cons (world.memory.withJobs (next :: rest)) rfl,
      before, inFlight]
    exact .refl _
  · rw [Dispatcher.unread_cons _ jobs, Dispatcher.unread_cons (world.memory.withJobs (next :: rest)) rfl,
      unread]
    exact List.sublist_append_right ..
  · exact sound.keyed
  · exact sound.conserved

theorem Sound.callNext (stepped : world.callNext process = some after) : after.Sound := by
  unfold Deliveries.callNext at stepped
  split at stepped
  · next rest jobs =>
      obtain rfl := Option.some.inj stepped
      exact sound.finish running jobs rfl
  · next key tools rest jobs =>
      split at stepped
      · obtain rfl := Option.some.inj stepped
        exact sound.finish running jobs rfl
      · obtain rfl := Option.some.inj stepped
        exact sound.dispatchHead running jobs rfl rfl rfl rfl
  · cases stepped

theorem Sound.wakeNext {answer : WakeAnswer} (stepped : world.wakeNext process answer = some after) :
    after.Sound := by
  obtain rfl := memory_of_process running
  unfold Deliveries.wakeNext at stepped
  split at stepped
  · next wake agents tools rest jobs =>
      obtain rfl := Option.some.inj stepped
      obtain ⟨sameJobs, samePending, conserved, wakes⟩ :=
        (world.memory.withJobs (.waking agents tools :: rest)).wake_effect sound.conserved wake answer
      have owed := Dispatcher.owed_wakes sameJobs samePending wakes
      have inFlight := Dispatcher.inFlight_wakes sameJobs wakes
      apply sound.dispatch []
      · rw [List.append_nil]
        refine List.Perm.trans ?_ owed.symm
        rw [Dispatcher.owed_cons _ jobs,
          Dispatcher.owed_cons (world.memory.withJobs (.waking agents tools :: rest)) rfl]
        simp only [Job.owed, List.map_cons, List.map_nil, List.cons_append]
        exact (List.perm_append_singleton ..).symm
      · refine inFlight.trans ?_
        rw [Dispatcher.inFlight_cons _ jobs,
          Dispatcher.inFlight_cons (world.memory.withJobs (.waking agents tools :: rest)) rfl]
        exact List.perm_append_singleton ..
      · have same : ((world.memory.withJobs (.waking agents tools :: rest)).wake wake answer).unread =
            world.memory.unread := by
          rw [Dispatcher.unread, sameJobs, Dispatcher.unread_cons _ jobs]
          rfl
        exact same ▸ .refl _
      · rw [samePending]
        exact sound.keyed
      · exact conserved
  · cases stepped

theorem Sound.trigger {move : TriggerMove} {trigger : Trigger}
    (stepped : triggerSystem.step process.trigger move.step = some trigger) :
    (world.run (process.withTrigger trigger)).Sound := by
  obtain rfl := memory_of_process running
  obtain ⟨accepted, calls⟩ := Dispatcher.move_effect move stepped
  have conserved := sound.conserved.step stepped
  have wakes := Dispatcher.withTrigger_wakes sound.conserved conserved accepted calls
  rw [List.map_nil] at wakes
  have owed : (world.memory.withTrigger trigger).owed.Perm (world.memory.owed ++ [].map .firstWake) :=
    Dispatcher.owed_wakes rfl rfl wakes
  have inFlight : (world.memory.withTrigger trigger).inFlight.Perm (world.memory.inFlight ++ []) :=
    Dispatcher.inFlight_wakes rfl wakes
  rw [List.map_nil, List.append_nil] at owed
  rw [List.append_nil] at inFlight
  apply sound.move []
  · exact (List.append_nil _).symm ▸ owed.symm
  · exact inFlight
  · exact .refl _
  · exact sound.keyed
  · exact conserved

end Running

/-- The index without the entries that have come due. -/
theorem deleteEach_entries (due : List PendingAttempt) (pending : OrderedMap RowKey PendingAttempt) :
    (due.foldl (fun pending entry => pending.delete entry.key) pending).entries =
      pending.entries.filter fun entry => entry.1 ∉ due.map PendingAttempt.key := by
  induction due generalizing pending with
  | nil => simp
  | cons first rest ih =>
      rw [List.foldl_cons, ih]
      simp only [OrderedMap.delete, List.filter_filter, List.map_cons, List.mem_cons, not_or]
      apply List.filter_congr
      intro entry _
      simp [Bool.and_comm]

/-- What leaves the index is what has come due. -/
theorem sweep_values (process : Dispatcher) (now : Moment)
    (keyed : ∀ entry ∈ process.pending.entries, entry.2.key = entry.1) :
    (process.sweep now).pending.values = process.pending.values.filter fun entry => !decide (entry.dueAt ≤ now) := by
  have entries := deleteEach_entries (process.pending.values.filter fun entry => entry.dueAt ≤ now) process.pending
  have early (entry : RowKey × PendingAttempt) (member : entry ∈ process.pending.entries) :
      entry.1 ∈ (process.pending.values.filter fun entry => entry.dueAt ≤ now).map PendingAttempt.key ↔
        entry.2.dueAt ≤ now := by
    constructor
    · intro listed
      obtain ⟨other, filtered, same⟩ := List.mem_map.mp listed
      obtain ⟨value, due⟩ := List.mem_filter.mp filtered
      obtain ⟨key, found⟩ := OrderedMap.mem_values.mp value
      have keys : entry.1 = key := same.symm.trans (keyed _ found)
      have equal := OrderedMap.get?_eq_some_iff.mpr member
      rw [keys, OrderedMap.get?_eq_some_iff.mpr found, Option.some.injEq] at equal
      exact equal ▸ by simpa using due
    · intro due
      refine List.mem_map.mpr ⟨entry.2, List.mem_filter.mpr ⟨?_, by simpa using due⟩, keyed entry member⟩
      exact OrderedMap.mem_values.mpr ⟨entry.1, member⟩
  have kept : (process.sweep now).pending.entries =
      process.pending.entries.filter fun entry => !decide (entry.2.dueAt ≤ now) := by
    rw [Dispatcher.sweep, entries]
    exact List.filter_congr fun entry member => by rw [← decide_not, decide_eq_decide, early entry member]
  rw [OrderedMap.values, kept, OrderedMap.values, List.filter_map]
  rfl

/-- A retry in the chain is not yet in flight. -/
theorem retries_idle (entries : List PendingAttempt) : (entries.map Job.retry).flatMap jobsInFlight = [] := by
  rw [List.flatMap_map]
  exact List.flatMap_eq_nil_iff.mpr fun _ _ => rfl

theorem retries_unread (entries : List PendingAttempt) : (entries.map Job.retry).flatMap Job.unread = [] := by
  rw [List.flatMap_map]
  exact List.flatMap_eq_nil_iff.mpr fun _ _ => rfl

theorem retries_owed (entries : List PendingAttempt) :
    (entries.map Job.retry).flatMap Job.owed = entries.map PendingAttempt.owed := by
  rw [List.flatMap_map, List.map_eq_flatMap]
  rfl

theorem Sound.sweep (sound : world.Sound) (running : world.process = some process) (now : Moment) :
    (world.run (process.sweep now)).Sound := by
  obtain rfl := memory_of_process running
  have values := sweep_values world.memory now sound.keyed
  have jobs : (world.memory.sweep now).jobs = world.memory.jobs ++
      (world.memory.pending.values.filter fun entry => entry.dueAt ≤ now).map .retry := rfl
  apply sound.move []
  · have parts := (List.filter_append_perm (fun entry : PendingAttempt => decide (entry.dueAt ≤ now))
      world.memory.pending.values).map PendingAttempt.owed
    rw [List.perm_iff_count]
    intro one
    have counted := parts.count_eq one
    simp only [Dispatcher.owed, Dispatcher.jobsOwed, Dispatcher.indexOwed, values, jobs, List.flatMap_append,
      retries_owed, List.append_nil, List.map_append, List.count_append] at counted ⊢
    change _ = _ + _ + world.memory.wakesOwed.count one
    omega
  · rw [Dispatcher.inFlight, jobs, List.flatMap_append, retries_idle, List.append_nil]
    exact .refl _
  · rw [Dispatcher.unread, jobs, List.flatMap_append, retries_unread, List.append_nil]
    exact .refl _
  · intro entry member
    have entries := deleteEach_entries
      (world.memory.pending.values.filter fun entry => entry.dueAt ≤ now) world.memory.pending
    change entry ∈ (List.foldl _ _ _ : OrderedMap RowKey PendingAttempt).entries at member
    rw [entries] at member
    exact sound.keyed entry (List.mem_filter.mp member).1
  · exact sound.conserved

end Deliveries

end NimbleBrain.Notifications
