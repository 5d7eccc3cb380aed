import NimbleBrain.Scheduler.BudgetWindow

/- A recording counts its run in the window of its moment. The budget then holds in every run of the meter. -/

namespace NimbleBrain.Scheduler

open Library Spend Tasks

variable {host : BudgetHost} {meter : Meter} {place : Nat} {run : MeteredRun} {recorded : TaskRun}

/-- The meter once the run is recorded. -/
def Meter.filed (host : BudgetHost) (meter : Meter) (place : Nat) (run : MeteredRun) (recorded : TaskRun) : Meter :=
  let task := run.dispatch.record host.calendar meter.now meter.task recorded
  { meter with
    task
    runs := meter.runs.set place { run with record := some ⟨meter.now, recorded.inputTokens, recorded.outputTokens⟩ }
    boundaries :=
      if task.budgetResetAt = meter.task.budgetResetAt then meter.boundaries
      else task.budgetResetAt.toList ++ meter.boundaries }

/-- Either the window goes on, or a boundary is placed ahead. -/
structure Meter.Filed (before after : Meter) : Prop where
  budget : after.task.tokenBudget = before.task.tokenBudget
  window : (before.task.isFresh before.now = false ∧ after.task.budgetResetAt = before.task.budgetResetAt ∧
      after.boundaries = before.boundaries) ∨
    ∃ reset, before.task.isFresh before.now = true ∧ before.task.isPeriodic = true ∧ before.now < reset ∧
      after.task.budgetResetAt = some reset ∧ after.boundaries = reset :: before.boundaries

theorem Meter.Dated.budgeted (dated : meter.Dated) (fresh : meter.task.isFresh meter.now = true) :
    meter.task.isPeriodic = true := by
  rcases meter.task.budgetLabel_cases meter.now with ⟨reset, stored, -⟩ | ⟨_, _, _, _, stale⟩ | ⟨_, periodic, _⟩ |
    ⟨_, _, _, stale⟩
  · exact dated.periodic (Option.isSome_of_eq_some stored)
  · exact absurd (stale.symm.trans fresh) Bool.false_ne_true
  · exact periodic
  · exact absurd (stale.symm.trans fresh) Bool.false_ne_true

theorem Meter.Dated.isSome_budget (dated : meter.Dated) (fresh : meter.task.isFresh meter.now = true) :
    meter.task.tokenBudget.isSome = true := by
  have periodic := dated.budgeted fresh
  unfold Task.isPeriodic at periodic
  cases budget : meter.task.tokenBudget with
  | none => rw [budget] at periodic; cases periodic
  | some _ => rfl

theorem Meter.Dated.filed (dated : meter.Dated) (ahead : meter.task.isFresh meter.now = true →
    ∀ period ∈ meter.task.tokenBudget.bind TokenBudget.period, meter.now < host.calendar.resetAt period meter.now) :
    Meter.Filed meter (meter.filed host place run recorded) := by
  obtain ⟨budget, -, reset⟩ := Dispatch.record_window host.calendar run.dispatch recorded dated.isSome_budget
  refine ⟨budget, ?_⟩
  cases fresh : meter.task.isFresh meter.now with
  | false =>
      rw [fresh, if_neg Bool.false_ne_true] at reset
      exact .inl ⟨rfl, reset, if_pos reset⟩
  | true =>
      rw [fresh, if_pos rfl] at reset
      obtain ⟨period, named⟩ := Option.isSome_iff_exists.mp (dated.budgeted fresh)
      have later := ahead fresh period named
      rw [named, Option.map_some] at reset
      have moved : some (host.calendar.resetAt period meter.now) ≠ meter.task.budgetResetAt := by
        intro same
        rcases meter.task.budgetLabel_cases meter.now with ⟨old, stored, gone, -⟩ | ⟨_, _, _, _, stale⟩ | ⟨none, -⟩ |
          ⟨none, -⟩
        · cases same.trans stored
          omega
        · exact absurd (stale.symm.trans fresh) Bool.false_ne_true
        · cases same.trans none
        · cases same.trans none
      refine .inr ⟨_, rfl, dated.budgeted fresh, later, reset, ?_⟩
      unfold Meter.filed
      dsimp only
      rw [reset, if_neg moved]
      rfl

namespace Meter.Filed

variable {before after : Meter} {moment : Nat}

theorem cap (filed : before.Filed after) (unit : SpendUnit) : after.task.cap unit = before.task.cap unit := by
  unfold Task.cap
  rw [filed.budget]

theorem isPeriodic (filed : before.Filed after) : after.task.isPeriodic = before.task.isPeriodic := by
  unfold Task.isPeriodic
  rw [filed.budget]

/-- Moments behind stay in their windows. -/
theorem windowOf (filed : before.Filed after) (behind : moment ≤ before.now) :
    after.windowOf moment = before.windowOf moment := by
  rcases filed.window with ⟨-, -, same⟩ | ⟨reset, -, -, ahead, -, placed⟩
  · unfold Meter.windowOf
    rw [same]
  · exact Meter.windowOf_ahead placed (behind.trans_lt ahead)

end Meter.Filed

/-- The run with its record. -/
def MeteredRun.stated (run : MeteredRun) (now : Nat) (recorded : TaskRun) : MeteredRun :=
  { run with record := some ⟨now, recorded.inputTokens, recorded.outputTokens⟩ }

/-- A listed run is the recorded one, or an earlier one. -/
theorem Meter.mem_filed {other : MeteredRun} (listed : other ∈ (meter.filed host place run recorded).runs) :
    other ∈ meter.runs ∨ other = run.stated meter.now recorded := List.mem_or_eq_of_mem_set listed

theorem Meter.Dated.record (dated : meter.Dated) (found : meter.runs[place]? = some run)
    (filed : meter.Filed (meter.filed host place run recorded)) : (meter.filed host place run recorded).Dated := by
  have kept : ∀ boundary ∈ meter.boundaries, boundary ∈ (meter.filed host place run recorded).boundaries := by
    intro boundary listed
    rcases filed.window with ⟨-, -, same⟩ | ⟨reset, -, -, -, -, placed⟩
    · exact same ▸ listed
    · exact placed ▸ List.mem_cons_of_mem _ listed
  have listed := List.mem_of_getElem? found
  refine ⟨?_, ?_, ?_, ?_, ?_, ?_⟩
  · rcases filed.window with ⟨-, reset, same⟩ | ⟨reset, -, -, -, stored, placed⟩
    · rw [reset, same, dated.head]
    · rw [stored, placed, List.head?_cons]
  · rcases filed.window with ⟨-, -, same⟩ | ⟨reset, fresh, -, -, -, placed⟩
    · rw [same]
      exact dated.past
    · rw [placed, List.tail_cons]
      have window := dated.windowOf_now
      rw [fresh, if_pos rfl] at window
      exact fun boundary listed => of_decide_eq_true (List.countP_eq_length.mp window boundary listed)
  · rw [filed.isPeriodic]
    rcases filed.window with ⟨-, reset, -⟩ | ⟨-, -, periodic, -⟩
    · rw [reset]
      exact dated.periodic
    · exact fun _ => periodic
  · intro other member
    rcases Meter.mem_filed member with old | rfl
    · exact dated.started other old
    · exact dated.started run listed
  · intro other member
    have placed : ∀ old ∈ meter.runs, old.isPlaced (meter.filed host place run recorded).boundaries := by
      intro old present
      have placed := dated.placed old present
      unfold MeteredRun.isPlaced at placed ⊢
      cases label : old.label with
      | afterReset _ => rwa [label] at placed
      | untilReset _ => exact kept _ (by rwa [label] at placed)
      | unseeded => trivial
      | lifetime => trivial
    rcases Meter.mem_filed member with old | rfl
    · exact placed other old
    · exact placed run listed
  · intro other member record stated
    rw [filed.isPeriodic]
    rcases Meter.mem_filed member with old | rfl
    · obtain ⟨after, before, ahead⟩ := dated.recorded other old record stated
      refine ⟨after, before, fun periodic => ?_⟩
      rcases filed.window with ⟨-, reset, -⟩ | ⟨reset, -, -, later, stored, -⟩
      · rw [reset]
        exact ahead periodic
      · exact ⟨reset, stored, before.trans_lt later⟩
    · cases stated
      refine ⟨dated.started run listed, le_rfl, fun periodic => ?_⟩
      rcases filed.window with ⟨stale, reset, -⟩ | ⟨reset, -, -, later, stored, -⟩
      · rw [reset]
        rcases meter.task.budgetLabel_cases meter.now with ⟨_, _, _, _, fresh⟩ | ⟨old, stored, ahead, -⟩ |
          ⟨_, _, _, fresh⟩ | ⟨_, lifetime, _, _⟩
        · exact absurd (stale.symm.trans fresh) Bool.false_ne_true
        · exact ⟨old, stored, ahead⟩
        · exact absurd (stale.symm.trans fresh) Bool.false_ne_true
        · exact absurd (lifetime.symm.trans periodic) Bool.false_ne_true
      · exact ⟨reset, stored, later⟩

variable {next : MeteredRun} {other : Nat}

theorem Meter.filed_found (found : meter.runs[place]? = some run)
    (present : (meter.filed host place run recorded).runs[other]? = some next) :
    (other = place ∧ next = run.stated meter.now recorded) ∨ (other ≠ place ∧ meter.runs[other]? = some next) := by
  unfold filed at present
  by_cases same : other = place
  · subst same
    rw [List.getElem?_set_self (List.getElem?_eq_some_iff.mp found).1] at present
    exact .inl ⟨rfl, (Option.some.inj present).symm⟩
  · rw [List.getElem?_set_ne (Ne.symm same)] at present
    exact .inr ⟨same, present⟩

theorem Meter.Matched.record (matched : meter.Matched host) (found : meter.runs[place]? = some run)
    (filed : meter.Filed (meter.filed host place run recorded))
    (released : meter.balances.holds[place]?.any SpendHold.released = true) :
    (meter.filed host place run recorded).Matched host where
  balanced := matched.balanced
  solvent := matched.solvent
  sized := matched.sized.trans List.length_set.symm
  names other next hold present held label unit := by
    rw [filed.cap]
    rcases Meter.filed_found found present with ⟨rfl, rfl⟩ | ⟨-, old⟩
    · exact matched.names other run hold found held label unit
    · exact matched.names other next hold old held label unit
  units := matched.units
  ended other next hold present held stated := by
    rcases Meter.filed_found found present with ⟨rfl, -⟩ | ⟨-, old⟩
    · have same : meter.balances.holds[other]? = some hold := held
      rwa [same] at released
    · exact matched.ended other next hold old held stated

/-- A run that may spend after a recording is not the recorded one. -/
theorem Meter.Holding.unfiled (found : meter.runs[place]? = some run)
    (released : meter.balances.holds[place]?.any SpendHold.released = true)
    (holding : (meter.filed host place run recorded).Holding other next) : meter.Holding other next := by
  obtain ⟨present, hold, held, active⟩ := holding
  rcases Meter.filed_found found present with ⟨rfl, -⟩ | ⟨-, old⟩
  · have same : meter.balances.holds[other]? = some hold := held
    rw [same] at released
    exact absurd (active.symm.trans released) Bool.false_ne_true
  · exact ⟨old, hold, held, active⟩

/-- A recording moves no run to another window. -/
theorem Meter.filed_spentIn (dated : meter.Dated) (found : meter.runs[place]? = some run)
    (filed : meter.Filed (meter.filed host place run recorded)) (window : Nat) (unit : SpendUnit) :
    (meter.filed host place run recorded).spentIn window unit = meter.spentIn window unit := by
  have total := sum_map_set_add
    (fun other : MeteredRun => if meter.windowOf other.startedAt = window then other.spent unit else 0) meter.runs place
    found (run.stated meter.now recorded)
  have same : (meter.filed host place run recorded).spentIn window unit = ((meter.runs.set place
      (run.stated meter.now recorded)).map fun other =>
        if meter.windowOf other.startedAt = window then other.spent unit else 0).sum := by
    refine congrArg List.sum (List.map_congr_left fun other listed => ?_)
    have started : other.startedAt ≤ meter.now := by
      rcases Meter.mem_filed listed with old | rfl
      · exact dated.started other old
      · exact dated.started run (List.mem_of_getElem? found)
    rw [filed.windowOf started]
  rw [same]
  exact Nat.add_right_cancel total

/-- A recording adds its tokens to the window of its moment. -/
theorem Meter.filed_recordedIn (dated : meter.Dated) (found : meter.runs[place]? = some run)
    (unrecorded : run.record = none) (filed : meter.Filed (meter.filed host place run recorded)) (window : Nat)
    (unit : SpendUnit) :
    (meter.filed host place run recorded).recordedIn window unit = meter.recordedIn window unit +
      if meter.windowOf meter.now = window then
        (RunRecord.mk meter.now recorded.inputTokens recorded.outputTokens).tokens unit else 0 := by
  have total := sum_map_set_add (fun other : MeteredRun => other.record.elim 0 fun record =>
    if meter.windowOf record.recordedAt = window then record.tokens unit else 0) meter.runs place found
    (run.stated meter.now recorded)
  have same : (meter.filed host place run recorded).recordedIn window unit = ((meter.runs.set place
      (run.stated meter.now recorded)).map fun other => other.record.elim 0 fun record =>
        if meter.windowOf record.recordedAt = window then record.tokens unit else 0).sum := by
    refine congrArg List.sum (List.map_congr_left fun other listed => ?_)
    cases stated : other.record with
    | none => rfl
    | some record =>
        have behind : record.recordedAt ≤ meter.now := by
          rcases Meter.mem_filed listed with old | rfl
          · exact (dated.recorded other old record stated).2.1
          · cases stated
            exact le_rfl
        rw [Option.elim_some, Option.elim_some, filed.windowOf behind]
  rw [unrecorded, Option.elim_none, Nat.add_zero] at total
  exact same.trans total

/-- A recording keeps the label, or it starts one that no run has started under. -/
theorem Meter.Filed.label {before after : Meter} (filed : before.Filed after) (dated : before.Dated) :
    (before.task.isFresh before.now = false ∧ after.boundaries = before.boundaries ∧
      after.task.budgetLabel before.now = before.task.budgetLabel before.now) ∨
    ∃ reset, before.task.isFresh before.now = true ∧ after.boundaries = reset :: before.boundaries ∧
      after.task.budgetLabel before.now = .untilReset reset ∧ ∀ run ∈ before.runs, run.label ≠ .untilReset reset := by
  rcases filed.window with ⟨stale, reset, same⟩ | ⟨reset, fresh, -, ahead, stored, placed⟩
  · refine .inl ⟨stale, same, ?_⟩
    unfold Task.budgetLabel
    rw [reset, filed.isPeriodic]
  · refine .inr ⟨reset, fresh, placed, ?_, fun run listed label => ?_⟩
    · unfold Task.budgetLabel
      rw [stored]
      exact if_neg (not_le.mpr ahead)
    · have old := dated.placed run listed
      rw [MeteredRun.isPlaced, label] at old
      have window := dated.windowOf_now
      rw [fresh, if_pos rfl] at window
      have behind := of_decide_eq_true (List.countP_eq_length.mp window reset old)
      omega

/-- The counters after a recording hold what was recorded in the stored window. -/
theorem Meter.Sound.record (sound : meter.Sound host) (found : meter.runs[place]? = some run)
    (unrecorded : run.record = none) (released : meter.balances.holds[place]?.any SpendHold.released = true)
    (ahead : meter.task.isFresh meter.now = true →
      ∀ period ∈ meter.task.tokenBudget.bind TokenBudget.period, meter.now < host.calendar.resetAt period meter.now) :
    (meter.filed host place run recorded).Sound host := by
  have filed : meter.Filed (meter.filed host place run recorded) := sound.dated.filed ahead
  have dated := sound.dated.record found filed
  have matched := sound.matched.record found filed released
  have keep : ∀ label window, meter.Covered host label window →
      (meter.filed host place run recorded).Covered host label window := by
    intro label window claims unit cap capped entry live
    obtain ⟨fits, alone⟩ := claims unit cap ((filed.cap unit).symm.trans capped) entry live
    rw [Meter.filed_spentIn sound.dated found filed]
    refine ⟨fits, fun other next holding inside => ?_⟩
    have old := holding.unfiled found released
    rw [filed.windowOf (sound.dated.started next (List.mem_of_getElem? old.1))] at inside
    exact alone other next old inside
  obtain ⟨-, counter, -⟩ := Dispatch.record_window host.calendar run.dispatch recorded sound.dated.isSome_budget
  refine ⟨dated, matched, fun other next holding => ?_, ?_, fun window unit cap capped => ?_, fun seeded unit => ?_,
    fun other listed record stated => ?_⟩
  · have old := holding.unfiled found released
    rw [filed.windowOf (sound.dated.started next (List.mem_of_getElem? old.1))]
    exact keep _ _ (sound.owned other next old)
  · have window : (meter.filed host place run recorded).windowOf meter.now = meter.windowOf meter.now := filed.windowOf le_rfl
    rcases filed.label sound.dated with ⟨-, -, label⟩ | ⟨reset, -, -, label, unused⟩
    · have current := keep _ _ sound.current
      rw [← label, ← window] at current
      exact current
    · refine matched.covered_of_unused (fun next listed same => ?_) _
      rcases Meter.mem_filed listed with old | rfl
      · exact unused next old (same.trans label)
      · exact unused run (List.mem_of_getElem? found) (same.trans label)
  · rw [Meter.filed_spentIn sound.dated found filed]
    exact sound.holds.within window unit cap ((filed.cap unit).symm.trans capped)
  · have window := sound.dated.windowOf_now
    rw [Meter.filed_recordedIn sound.dated found unrecorded filed]
    refine (counter unit).trans ?_
    rcases filed.label sound.dated with ⟨stale, boundaries, -⟩ | ⟨reset, fresh, boundaries, -⟩
    · rw [stale, if_neg Bool.false_ne_true] at window
      rw [stale, if_neg Bool.false_ne_true, boundaries, if_pos window, sound.holds.counted (Task.seeded stale)]
    · rw [fresh, if_pos rfl] at window
      rw [fresh, if_pos rfl, boundaries, List.length_cons, Nat.add_sub_cancel, if_pos window,
        Meter.recordedIn_fresh sound.dated sound.holds fresh]
  · have window := sound.dated.windowOf_now
    have behind : record.recordedAt ≤ meter.now := by
      rcases Meter.mem_filed listed with old | rfl
      · exact (sound.dated.recorded other old record stated).2.1
      · cases stated
        exact le_rfl
    rw [filed.windowOf behind]
    rcases filed.label sound.dated with ⟨stale, boundaries, label⟩ | ⟨reset, fresh, boundaries, label, -⟩
    · refine ⟨fun unseeded => Task.seeded stale (label.symm.trans unseeded), ?_⟩
      rw [boundaries]
      rw [stale, if_neg Bool.false_ne_true] at window
      exact (Meter.windowOf_mono behind).trans window.le
    · refine ⟨fun unseeded => BudgetLabel.noConfusion (label.symm.trans unseeded), ?_⟩
      rw [boundaries, List.length_cons, Nat.add_sub_cancel]
      exact Meter.windowOf_le _

theorem Meter.Sound.initial (fresh : meter.Fresh) : meter.Sound host := by
  have same := fresh.fresh
  have runs : meter.runs = [] := congrArg Meter.runs same
  have balances : meter.balances = {} := congrArg Meter.balances same
  have boundaries : meter.boundaries = meter.task.budgetResetAt.toList := congrArg Meter.boundaries same
  have unused : ∀ label window, meter.Covered host label window := by
    intro label window unit cap _ entry live
    rw [balances] at live
    cases live
  refine ⟨⟨?_, ?_, fresh.period, ?_, ?_, ?_⟩, ⟨?_, ?_, ?_, ?_, ?_, ?_⟩, fun _ _ _ => unused _ _, unused _ _, ⟨?_, ?_, ?_⟩⟩
  · rw [boundaries]
    cases meter.task.budgetResetAt <;> rfl
  · rw [boundaries]
    cases meter.task.budgetResetAt <;> exact fun _ listed => nomatch listed
  iterate 3
    rw [runs]
    exact fun _ listed => nomatch listed
  · rw [balances]
    exact SpendBalances.balanced_of_initial rfl
  · rw [balances]
    exact fun _ _ live => nomatch live
  · rw [balances, runs]
    rfl
  · rw [runs]
    exact fun _ _ _ found => nomatch found
  · rw [balances]
    exact fun _ _ _ live => nomatch live
  · rw [runs]
    exact fun _ _ _ found => nomatch found
  · intro window unit cap _
    rw [Meter.spentIn, runs]
    exact Nat.zero_le _
  · intro seeded unit
    rw [Meter.recordedIn, runs]
    exact fresh.counters seeded unit
  · rw [runs]
    exact fun _ listed => nomatch listed

theorem Meter.Sound.step (injective : Function.Injective host.isoText) (sound : meter.Sound host)
    {action : MeterAction} (met : Metered host meter action) (stepped : meter.step host action = some after) :
    after.Sound host := by
  cases action with
  | wait ms => exact Option.some.inj stepped ▸ sound.wait
  | start dispatch rates =>
      obtain ⟨⟨begun, -⟩, started⟩ := Option.ite_none_right_eq_some.mp stepped
      exact Option.some.inj started ▸ sound.start injective begun met
  | check place call =>
      obtain ⟨balances, spent, rfl⟩ := Option.map_eq_some_iff.mp stepped
      exact sound.idle spent (fun _ _ same => by cases same) fun _ _ same => by cases same
  | debit place usage =>
      obtain ⟨covers, debited⟩ := Option.ite_none_right_eq_some.mp stepped
      obtain ⟨run, found, charged⟩ := Option.bind_eq_some_iff.mp debited
      obtain ⟨charged', spent, rfl⟩ := Option.map_eq_some_iff.mp charged
      obtain ⟨balances, moved, rfl⟩ := Option.map_eq_some_iff.mp spent
      exact sound.debit found covers moved
  | release place =>
      obtain ⟨balances, spent, rfl⟩ := Option.map_eq_some_iff.mp stepped
      exact sound.idle spent (fun _ _ same => by cases same) fun _ _ same => by cases same
  | record place execution =>
      obtain ⟨run, found, filed⟩ := Option.bind_eq_some_iff.mp stepped
      obtain ⟨ready, recorded⟩ := Option.ite_none_right_eq_some.mp filed
      simp only [Bool.and_eq_true, Option.isNone_iff_eq_none] at ready
      exact Option.some.inj recorded ▸ sound.record found ready.1.2 ready.1.1 met

/-- A window ends every ten milliseconds. A moment is written as so many strokes. -/
def tallies : BudgetHost where
  calendar := { plainCalendar with resetAt := fun _ now => (now / 10 + 1) * 10 }
  isoText moment := String.ofList (List.replicate moment 'i')
  taskKey := "ws/owner/task"

theorem tallies_injective : Function.Injective tallies.isoText := by
  intro first second same
  simpa [tallies] using congrArg String.length same

/-- A task may write ten tokens a day. -/
def tenTokens : Meter where
  task := { tokenBudget := some { maxOutputTokens := some 10, period := some .daily }, budgetResetAt := some 10 }
  boundaries := [10]

theorem tenTokens_fresh : tenTokens.Fresh := ⟨rfl, fun _ => rfl, fun _ unit => by cases unit <;> rfl⟩

/-- A person runs the task. -/
def askedRun (runId : Tasks.RunId) (startedAt : Nat) : Dispatch :=
  { runKey := .task, task := tenTokens.task, runId, startedAt, trigger := .manual, firedOnceAt := none, requested := none }

def wrote (outputTokens : Nat) : TokenUsage := ⟨0, outputTokens, none, none, none, none⟩

/-- Two runs in a row share the budget, and the first run of the next day has one of its own. -/
def runsInTurn : List MeterAction :=
  [.start (askedRun 1 0) none, .check 0 ⟨0, 6, 1⟩, .debit 0 (wrote 6), .release 0,
    .record 0 (.returned { id := 1, status := .success, outputTokens := 6 }),
    .start (askedRun 2 0) none, .check 1 ⟨0, 6, 1⟩, .debit 1 (wrote 4), .release 1, .wait 10,
    .start (askedRun 3 10) none, .record 1 (.returned { id := 2, status := .success, outputTokens := 4 })]

/-- A run starts between the end of another and its record. -/
def runsInGap : List MeterAction :=
  [.start (askedRun 1 0) none, .check 0 ⟨0, 6, 1⟩, .debit 0 (wrote 6), .release 0,
    .start (askedRun 2 0) none, .check 1 ⟨0, 10, 1⟩, .debit 1 (wrote 10)]

end NimbleBrain.Scheduler
