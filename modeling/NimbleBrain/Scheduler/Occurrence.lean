import NimbleBrain.Scheduler.Edits

/- A once occurrence that has started is never armed again. Every write of a task keeps it so. -/

namespace NimbleBrain.Scheduler

open Tasks

/-- The next run of a once is not before its time. -/
def Task.Due (task : Task) : Prop :=
  ∀ time, task.OnceAt time → ∀ next, task.nextRunAt = some next → time.time ≤ next

/-- Somebody answers for the run that a mark names. -/
abbrev Attends := ScheduledRunInFlight → OnceTime → Prop

/-- An armed occurrence that has started is in flight. A recorded one is inert. -/
structure Task.Sound (now : Nat) (fired recorded : List OnceTime) (attends : Attends) (task : Task) :
    Prop where
  due : task.Due
  fired : ∀ time ∈ fired, task.OnceAt time → task.enabled = true →
    ∃ mark, task.scheduledRunInFlight = some mark ∧ mark.onceAt = some time ∧ attends mark time
  recorded : ∀ time ∈ recorded, task.OnceAt time → task.enabled = false ∧ task.nextRunAt = none
  marked : ∀ mark time, task.scheduledRunInFlight = some mark → mark.onceAt = some time → time.time ≤ now

/-- A write is quiet when it arms no occurrence whose time has passed. -/
structure Quiet (now : Nat) (task other : Task) : Prop where
  past : ∀ time, time.time ≤ now → other.OnceAt time → task.OnceAt time
  enabled : ∀ time, time.time ≤ now → other.OnceAt time → other.enabled = true → task.enabled = true
  inert : ∀ time, time.time ≤ now → other.OnceAt time → task.enabled = false → task.nextRunAt = none →
    other.nextRunAt = none
  due : task.Due → other.Due
  mark : other.scheduledRunInFlight = task.scheduledRunInFlight

variable {now : Nat} {fired recorded : List OnceTime} {attends : Attends} {task other : Task}

theorem Task.Sound.weaken (sound : task.Sound now fired recorded attends) {weaker : Attends}
    (weak : ∀ mark time, attends mark time → weaker mark time) :
    task.Sound now fired recorded weaker where
  due := sound.due
  fired time member once enabled :=
    let ⟨mark, marked, named, attended⟩ := sound.fired time member once enabled
    ⟨mark, marked, named, weak mark time attended⟩
  recorded := sound.recorded
  marked := sound.marked

theorem Task.Sound.forget (sound : task.Sound now fired recorded attends) {fewer : List OnceTime}
    (fewerRecorded : ∀ time ∈ fewer, time ∈ recorded) : task.Sound now fired fewer attends :=
  { sound with recorded := fun time member => sound.recorded time (fewerRecorded time member) }

theorem Task.Sound.later (sound : task.Sound now fired recorded attends) {later : Nat} (le : now ≤ later) :
    task.Sound later fired recorded attends :=
  { sound with marked := fun mark time marked named => (sound.marked mark time marked named).trans le }

/-- A quiet write keeps a task sound. -/
theorem Task.Sound.quiet (sound : task.Sound now fired recorded attends) (quiet : Quiet now task other)
    (firedPast : ∀ time ∈ fired, time.time ≤ now) (recordedPast : ∀ time ∈ recorded, time.time ≤ now) :
    other.Sound now fired recorded attends where
  due := quiet.due sound.due
  fired time member once enabled := by
    have past := firedPast time member
    rw [quiet.mark]
    exact sound.fired time member (quiet.past time past once) (quiet.enabled time past once enabled)
  recorded time member once := by
    have past := recordedPast time member
    have inert := sound.recorded time member (quiet.past time past once)
    refine ⟨Bool.eq_false_iff.mpr fun enabled => ?_, quiet.inert time past once inert.1 inert.2⟩
    exact Bool.false_ne_true (inert.1.symm.trans (quiet.enabled time past once enabled))
  marked mark time marked := sound.marked mark time (quiet.mark ▸ marked)

section Writes

variable (calendar : Calendar) {task other : Task} {now : Nat}

theorem Task.Due.setNextRunAt {next : Option Nat}
    (later : ∀ time, task.OnceAt time → ∀ moment, next = some moment → time.time ≤ moment) :
    (setNextRunAt task next).Due := later

/-- A seeded next run is the time of the once. -/
theorem reconcileNextRunAt_quiet (seeded : reconcileNextRunAt calendar task now = some other) :
    Quiet now task other := by
  simp only [reconcileNextRunAt, Option.ite_none_left_eq_some, Option.ite_none_right_eq_some,
    Option.some.injEq, Bool.or_eq_true, Bool.not_eq_true', not_or, Bool.not_eq_false] at seeded
  obtain ⟨⟨-, on⟩, -, -, rfl⟩ := seeded
  refine ⟨fun _ _ once => once, fun _ _ _ _ => on, fun _ _ _ off => ?_, fun _ => ?_, rfl⟩
  · exact absurd on (by simp [off])
  · refine Task.Due.setNextRunAt fun time once moment placed => ?_
    rw [once_nextRunOrNone calendar once, Option.some.injEq] at placed
    exact placed.le

/-- A skipped occurrence moves to a later moment. -/
theorem skippedTask_quiet (on : task.enabled = true) : Quiet now task (skippedTask calendar task now) := by
  refine ⟨fun _ _ once => once, fun _ _ _ _ => on, fun _ _ _ off => ?_, fun _ => ?_, rfl⟩
  · exact absurd on (by simp [off])
  · refine Task.Due.setNextRunAt fun time once moment placed => ?_
    rw [once_nextRunOrNone calendar once, Option.map_some, Option.some.injEq] at placed
    rw [← placed]
    split <;> omega

theorem disabled_quiet : Quiet now task { task with enabled := false } :=
  ⟨fun _ _ once => once, fun _ _ _ on => (by cases on), fun _ _ _ _ none => none, fun due => due, rfl⟩

theorem retireOnce_quiet (outcome : OnceOutcome) (settledAt : Nat) :
    Quiet now task (retireOnce task outcome settledAt) :=
  ⟨fun _ _ once => once, fun _ _ _ on => (by cases on), fun _ _ _ _ _ => rfl,
    fun _ _ _ _ placed => (by cases placed), rfl⟩

end Writes

section Edits

variable {calendar : Calendar} {task other : Task} {patch : UpdatePatch} {now : Nat}

variable {time : OnceTime} {wasEnabled : Bool}

/-- A valid once schedule names a time to come. -/
theorem validateSchedule_once {spec : ScheduleSpec} (valid : validateSchedule calendar spec now = .ok ())
    (once : spec.type = .once) (named : spec.onceAt = some time) : now < time.time := by
  simp only [validateSchedule, once, validateOnceSchedule, named] at valid
  by_contra passed
  rw [if_pos (Nat.not_lt.mp passed)] at valid
  cases valid

/-- An armed once that was not armed before lies in the future. -/
theorem assertOnceArmable_time (armable : assertOnceArmable task patch false now = .ok ())
    (on : task.enabled = true) (once : task.OnceAt time) : now < time.time := by
  rw [assertOnceArmable, on, once.1, once.2] at armable
  by_contra passed
  simp [passed] at armable

theorem clearDisabled_spec (cleared : clearDisabled calendar task wasEnabled now = .ok other) :
    other.schedule = task.schedule ∧ other.scheduledRunInFlight = task.scheduledRunInFlight ∧
      (other.nextRunAt = task.nextRunAt ∨ other.nextRunAt = none) := by
  unfold clearDisabled at cleared
  dsimp only at cleared
  split at cleared
  · cases cleared
    exact ⟨rfl, rfl, .inl rfl⟩
  · split at cleared
    · cases cleared
    · cases cleared
      exact ⟨rfl, rfl, .inr rfl⟩
    · cases cleared
      exact ⟨rfl, rfl, .inl rfl⟩

theorem applyOnceRearm_spec (wasRetiredOnce : Bool) :
    (applyOnceRearm task patch wasRetiredOnce).schedule = task.schedule ∧
      (applyOnceRearm task patch wasRetiredOnce).nextRunAt = task.nextRunAt ∧
      (applyOnceRearm task patch wasRetiredOnce).scheduledRunInFlight = task.scheduledRunInFlight := by
  unfold applyOnceRearm
  dsimp only
  split <;> split <;> exact ⟨rfl, rfl, rfl⟩

/-- A patch without a schedule arms nothing by itself. -/
theorem applyOnceRearm_absent (absent : patch.schedule = none) (wasRetiredOnce : Bool) :
    applyOnceRearm task patch wasRetiredOnce = task := by
  simp [applyOnceRearm, absent, isOnceSchedule]

theorem resetBudgetWindowIfChanged_spec (calendar : Calendar) (task : Task) (now : Nat)
    (prev next : Option TokenBudget) :
    SameOccurrence task (resetBudgetWindowIfChanged calendar task prev next now) ∧
      (resetBudgetWindowIfChanged calendar task prev next now).enabled = task.enabled := by
  unfold resetBudgetWindowIfChanged
  split <;> exact ⟨⟨rfl, rfl, rfl, rfl⟩, rfl⟩

/-- The steps of an edit that is accepted and changes the task. -/
theorem updateTask_steps (edited : updateTask calendar (some task) patch now = .ok (some other)) :
    ∃ cleared anchored,
      assertOnceArmable (patchTask task patch) patch task.enabled now = .ok () ∧
      clearWhenEnabled calendar (patchTask task patch) patch task.enabled now = .ok cleared ∧
      reanchorWhenScheduled calendar cleared patch now = .ok anchored ∧
      other = resetBudgetWindowIfChanged calendar anchored task.tokenBudget patch.tokenBudget.join now := by
  obtain ⟨⟨⟩, armable, rest⟩ := ok_of_bind edited
  obtain ⟨cleared, clearing, rest⟩ := ok_of_bind rest
  split at rest
  · obtain ⟨anchored, anchoring, last⟩ := ok_of_bind rest
    exact ⟨cleared, anchored, armable, clearing, anchoring, by cases last; rfl⟩
  · cases rest

theorem clearWhenEnabled_spec (cleared : clearWhenEnabled calendar task patch wasEnabled now = .ok other) :
    other.schedule = task.schedule ∧ other.scheduledRunInFlight = task.scheduledRunInFlight ∧
      (other.nextRunAt = task.nextRunAt ∨ other.nextRunAt = none) ∧
      (patch.enabled ≠ some true → other.enabled = task.enabled) := by
  unfold clearWhenEnabled at cleared
  split at cleared
  · rename_i on
    have spec := clearDisabled_spec cleared
    exact ⟨spec.1, spec.2.1, spec.2.2, fun off => absurd on off⟩
  · cases cleared
    exact ⟨rfl, rfl, .inl rfl, fun _ => rfl⟩

theorem patchTask_spec :
    (patchTask task patch).schedule = patch.schedule.getD task.schedule ∧
      (patchTask task patch).nextRunAt = task.nextRunAt ∧
      (patchTask task patch).scheduledRunInFlight = task.scheduledRunInFlight :=
  applyOnceRearm_spec _

/-- The moment that an edit places a once at is its time. -/
theorem reanchored_due (anchoring : reanchorNextRunAt calendar task now = .ok other) :
    other.schedule = task.schedule ∧ other.scheduledRunInFlight = task.scheduledRunInFlight ∧ other.Due := by
  unfold reanchorNextRunAt at anchoring
  split at anchoring
  · cases anchoring
  · rename_i next placed
    cases anchoring
    refine ⟨rfl, rfl, Task.Due.setNextRunAt fun time once moment found => ?_⟩
    rw [once_nextRun calendar once, Except.ok.injEq] at placed
    rw [← placed, Option.some.injEq] at found
    exact found.le

theorem Task.Due.congr (due : task.Due) (same : other.schedule = task.schedule)
    (next : other.nextRunAt = task.nextRunAt ∨ other.nextRunAt = none) : other.Due := by
  intro time once moment placed
  rcases next with next | next
  · exact due time (once.congr same.symm) moment (next ▸ placed)
  · rw [next] at placed
    cases placed

/-- A schedule that is set lies in the future and is placed at once. -/
theorem updateTask_scheduled {schedule : Option ScheduleSpec} (set : patch.schedule = some schedule)
    (valid : validatePatch calendar schedule now = .ok ())
    (edited : updateTask calendar (some task) patch now = .ok (some other)) : Quiet now task other := by
  obtain ⟨cleared, anchored, -, clearing, anchoring, rfl⟩ := updateTask_steps edited
  obtain ⟨same, -⟩ := resetBudgetWindowIfChanged_spec calendar anchored now task.tokenBudget patch.tokenBudget.join
  obtain ⟨kept, mark, -, -⟩ := clearWhenEnabled_spec clearing
  simp only [reanchorWhenScheduled, set, Option.isSome_some, if_true] at anchoring
  obtain ⟨placed, marked, due⟩ := reanchored_due anchoring
  have schedule : anchored.schedule = schedule := by
    rw [placed, kept, patchTask_spec.1, set, Option.getD_some]
  have future : ∀ time, anchored.OnceAt time → now < time.time := by
    intro time once
    obtain ⟨spec, found, kind, named⟩ := Task.onceAt_iff.mp once
    rw [← schedule, found] at valid
    exact validateSchedule_once valid kind named
  have never : ∀ time : OnceTime, time.time ≤ now →
      ¬ (resetBudgetWindowIfChanged calendar anchored task.tokenBudget patch.tokenBudget.join now).OnceAt time :=
    fun time past once => absurd (future time (once.congr same.schedule.symm)) (Nat.not_lt.mpr past)
  exact {
    past := fun time past once => absurd once (never time past)
    enabled := fun time past once => absurd once (never time past)
    inert := fun time past once => absurd once (never time past)
    due := fun _ => due.congr same.schedule (.inl same.nextRunAt)
    mark := same.mark.trans (marked.trans (mark.trans patchTask_spec.2.2)) }

/-- An edit of anything else turns no past occurrence on. -/
theorem updateTask_unscheduled (absent : patch.schedule = none)
    (edited : updateTask calendar (some task) patch now = .ok (some other)) : Quiet now task other := by
  obtain ⟨cleared, anchored, armable, clearing, anchoring, rfl⟩ := updateTask_steps edited
  obtain ⟨same, enabled⟩ := resetBudgetWindowIfChanged_spec calendar cleared now task.tokenBudget patch.tokenBudget.join
  obtain ⟨kept, mark, next, on⟩ := clearWhenEnabled_spec clearing
  simp only [reanchorWhenScheduled, absent, Option.isSome_none, Bool.false_eq_true, if_false,
    Except.ok.injEq] at anchoring
  subst anchoring
  have patched : patchTask task patch = applyPatchFields task patch := applyOnceRearm_absent absent _
  have schedule : cleared.schedule = task.schedule := by
    rw [kept, patchTask_spec.1, absent, Option.getD_none]
  have once : ∀ time,
      (resetBudgetWindowIfChanged calendar cleared task.tokenBudget patch.tokenBudget.join now).OnceAt time →
        task.OnceAt time :=
    fun time once => once.congr (same.schedule.trans schedule).symm
  have nextRun : cleared.nextRunAt = task.nextRunAt ∨ cleared.nextRunAt = none :=
    next.imp_left fun stayed => stayed.trans patchTask_spec.2.1
  refine ⟨fun time _ named => once time named, fun time past named running => ?_,
    fun time _ _ _ none => ?_, fun due => ?_, same.mark.trans (mark.trans patchTask_spec.2.2)⟩
  · by_contra off
    rw [Bool.not_eq_true] at off
    have turnedOn : (patchTask task patch).enabled = true := by
      by_cases asked : patch.enabled = some true
      · simp [patched, applyPatchFields, asked]
      · exact (on asked).symm.trans (enabled.symm.trans running)
    rw [off] at armable
    have named : (patchTask task patch).OnceAt time := by
      refine (once time named).congr ?_
      rw [patchTask_spec.1, absent, Option.getD_none]
    exact absurd (assertOnceArmable_time armable turnedOn named) (Nat.not_lt.mpr past)
  · rw [same.nextRunAt]
    exact nextRun.elim (fun stayed => stayed.trans none) id
  · exact (due.congr schedule nextRun).congr same.schedule (.inl same.nextRunAt)

/-- An accepted edit arms no occurrence whose time has passed. -/
theorem handleUpdate_quiet (edited : handleUpdate calendar (some task) patch now = .ok (some other)) :
    Quiet now task other := by
  obtain ⟨⟨⟩, valid, edited⟩ := ok_of_bind edited
  cases set : patch.schedule with
  | none => exact updateTask_unscheduled set edited
  | some schedule => exact updateTask_scheduled set (by simpa [set] using valid) edited

/-- A created once lies in the future. -/
theorem handleCreate_future {input : CreateInput} {defs : Option Task}
    (created : handleCreate calendar defs input now = .ok task) :
    task.Due ∧ task.scheduledRunInFlight = none ∧ ∀ time, task.OnceAt time → now < time.time := by
  obtain ⟨⟨⟩, valid, created⟩ := ok_of_bind created
  simp only [createTask] at created
  split at created
  · cases created
  · split at created
    · cases created
    · rename_i next placed
      cases created
      refine ⟨fun time once moment found => ?_, rfl, fun time once => ?_⟩
      · have named := once_nextRun calendar (once.congr rfl) now
        have same : Except.ok next = .ok (some time.time) := placed.symm.trans named
        rw [Except.ok.injEq] at same
        exact (Option.some.inj (same.symm.trans found)).le
      · obtain ⟨spec, found, kind, named⟩ := Task.onceAt_iff.mp once
        have found : input.schedule = some spec := found
        rw [found] at valid
        exact validateSchedule_once valid kind named

end Edits

variable {calendar : Calendar} {attended : Attends} {run : TaskRun} {trigger : TaskRunTrigger}
  {firedAt : Option OnceTime} {runId : RunId}

/-- A once has a next run after a recording only when it had it before. -/
theorem afterRun_nextRun {time : OnceTime} (once : task.OnceAt time) :
    (afterRun calendar task run (some trigger) firedAt runId now).1.nextRunAt = task.nextRunAt ∨
      (afterRun calendar task run (some trigger) firedAt runId now).1.nextRunAt = none := by
  by_cases occurrence : IsOccurrence task run (some trigger) firedAt
  · exact .inr (afterRun_retired calendar runId now occurrence).2
  · exact .inl (afterRun_other calendar runId now once.1 occurrence).1

/-- A recorded run retires its own occurrence. Every other one in flight keeps its mark. -/
theorem Task.Sound.afterRun (sound : task.Sound now fired recorded attends) {settled : List OnceTime}
    (apart : ∀ mark time, attends mark time →
      (trigger = .scheduled ∧ firedAt = some time) ∨ (mark.runId ≠ runId ∧ attended mark time))
    (settles : ∀ time ∈ settled, time.time ≤ now ∧ trigger = .scheduled ∧ firedAt = some time) :
    (afterRun calendar task run (some trigger) firedAt runId now).1.Sound now fired (recorded ++ settled)
      attended := by
  have schedule : (Scheduler.afterRun calendar task run (some trigger) firedAt runId now).1.schedule =
    task.schedule := afterRun_schedule calendar task run (some trigger) firedAt runId now
  have marks := afterRun_mark calendar task run (some trigger) firedAt runId now
  have retires : ∀ time, task.OnceAt time → trigger = .scheduled → firedAt = some time →
      IsOccurrence task run (some trigger) firedAt :=
    fun time once scheduled named => ⟨once.1, by simp [scheduled], once.2.trans named.symm⟩
  refine ⟨fun time once next placed => ?_, fun time member once running => ?_, fun time member once => ?_,
    fun mark time marked named => ?_⟩
  · have once := once.congr schedule.symm
    refine sound.due time once next ((afterRun_nextRun once).elim (fun same => same.symm.trans placed) ?_)
    intro none
    rw [none] at placed
    cases placed
  · have once := once.congr schedule.symm
    obtain ⟨mark, marked, named, attends⟩ := sound.fired time member once (afterRun_enabled calendar running)
    rcases apart mark time attends with ⟨scheduled, same⟩ | ⟨other, attended⟩
    · have retired := (afterRun_retired calendar runId now (retires time once scheduled same)).1
      exact absurd (retired.symm.trans running) Bool.false_ne_true
    · exact ⟨mark, by simp [marks, marked, other], named, attended⟩
  · have once := once.congr schedule.symm
    rcases List.mem_append.mp member with before | settled
    · obtain ⟨off, none⟩ := sound.recorded time before once
      refine ⟨?_, (afterRun_nextRun once).elim (fun same => same.trans none) id⟩
      by_contra running
      exact Bool.false_ne_true (off.symm.trans (afterRun_enabled calendar (by simpa using running)))
    · obtain ⟨-, scheduled, same⟩ := settles time settled
      exact afterRun_retired calendar runId now (retires time once scheduled same)
  · rw [marks] at marked
    split at marked
    · cases marked
    · exact sound.marked mark time marked named

end NimbleBrain.Scheduler
