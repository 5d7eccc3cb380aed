import NimbleBrain.Scheduler.Dispatch
import NimbleBrain.Spend.Solvency

/- A token budget is drawn on by the runs of its task. A run names accounts, spends from them, and is recorded. -/

namespace NimbleBrain.Scheduler

open Library Spend Tasks

/-- The host answers for timestamps. The key names the workspace, the owner and the task. -/
structure BudgetHost where
  calendar : Calendar
  isoText : Nat → String
  taskKey : String

/-- A window that is over, or not placed yet, has accounts of its own. -/
inductive BudgetLabel where
  | afterReset (reset : Nat)
  | untilReset (reset : Nat)
  | unseeded
  | lifetime
  deriving DecidableEq

def unitText : SpendUnit → String
  | .usd => "usd"
  | .inputTokens => "input_tokens"
  | .outputTokens => "output_tokens"

def TokenBudget.cap (budget : TokenBudget) : SpendUnit → Option Nat
  | .inputTokens => budget.maxInputTokens
  | .outputTokens => budget.maxOutputTokens
  | .usd => none

namespace Task

variable (task : Task)

def cap (unit : SpendUnit) : Option Nat := task.tokenBudget.bind (·.cap unit)

/-- The tokens that the stored counters hold. -/
def counter : SpendUnit → Nat
  | .inputTokens => task.cumulativeInputTokens
  | .outputTokens => task.cumulativeOutputTokens
  | .usd => 0

def isPeriodic : Bool := (task.tokenBudget.bind TokenBudget.period).isSome

/-- The counters belong to no window. The next recorded run starts one. -/
def isFresh (now : Nat) : Bool := decide (budgetWindow task now = .elapsed ∨ budgetWindow task now = .unseeded)

def budgetLabel (now : Nat) : BudgetLabel :=
  match task.budgetResetAt with
  | some reset => if reset ≤ now then .afterReset reset else .untilReset reset
  | none => if task.isPeriodic then .unseeded else .lifetime

end Task

namespace BudgetHost

variable (host : BudgetHost)

def labelText : BudgetLabel → String
  | .afterReset reset => "after:" ++ host.isoText reset
  | .untilReset reset => "until:" ++ host.isoText reset
  | .unseeded => "unseeded"
  | .lifetime => "lifetime"

def accountId (label : BudgetLabel) (unit : SpendUnit) : String :=
  budgetAccountPrefix ++ host.taskKey ++ "@" ++ host.labelText label ++ ":" ++ unitText unit

/-- One account for each cap holds what the window has left. A fresh window starts full. -/
def budgetSpendAccounts (task : Task) (now : Nat) : List SpendAccount :=
  [.inputTokens, .outputTokens].filterMap fun unit => (task.cap unit).map fun cap =>
    { id := host.accountId (task.budgetLabel now) unit
      unit := unit
      remaining := ((cap - if task.isFresh now then 0 else task.counter unit : Nat) : ℚ) }

end BudgetHost

/-- The tokens that a record states, and its moment. -/
structure RunRecord where
  recordedAt : Nat
  input : Nat
  output : Nat
  deriving DecidableEq

def RunRecord.tokens (record : RunRecord) : SpendUnit → Nat
  | .inputTokens => record.input
  | .outputTokens => record.output
  | .usd => 0

/-- A run with the label of its accounts and the tokens that its calls have spent. -/
structure MeteredRun where
  dispatch : Dispatch
  label : BudgetLabel
  input : Nat := 0
  output : Nat := 0
  record : Option RunRecord := none
  deriving DecidableEq

namespace MeteredRun

variable (run : MeteredRun)

def startedAt : Nat := run.dispatch.startedAt

def spent : SpendUnit → Nat
  | .inputTokens => run.input
  | .outputTokens => run.output
  | .usd => 0

/-- The record states what the run has spent. -/
def isCounted : Bool := run.record.any fun record => record.input = run.input && record.output = run.output

/-- A run that returns states its tokens. A run that throws states none. -/
def reports : Execution → Bool
  | .returned returned => returned.inputTokens = run.input && returned.outputTokens = run.output
  | .threw _ => true

/-- What is recorded for the run. -/
def recorded (now : Nat) : Execution → TaskRun
  | .returned returned => withRequest run.dispatch.requested returned
  | .threw error => failedRun run.dispatch error now

end MeteredRun

/-- The task with the accounts of its runs. Each run has the hold at its own place. The boundaries that were ever stored
are kept, the latest first. -/
structure Meter where
  now : Nat := 0
  task : Task
  balances : SpendBalances := {}
  runs : List MeteredRun := []
  boundaries : List Nat := []

inductive MeterAction where
  | wait (ms : Nat)
  | start (dispatch : Dispatch) (rates : Option UsageRates)
  | check (place : Nat) (call : SpendCall)
  | debit (place : Nat) (usage : TokenUsage)
  | release (place : Nat)
  | record (place : Nat) (execution : Execution)

namespace Meter

variable (host : BudgetHost) (meter : Meter)

/-- The boundaries part time into windows. -/
def windowOf (moment : Nat) : Nat := meter.boundaries.countP (· ≤ moment)

/-- What the runs that started in a window have spent. -/
def spentIn (window : Nat) (unit : SpendUnit) : Nat :=
  (meter.runs.map fun run => if meter.windowOf run.startedAt = window then run.spent unit else 0).sum

/-- What was recorded inside a window. -/
def recordedIn (window : Nat) (unit : SpendUnit) : Nat :=
  (meter.runs.map fun run =>
    run.record.elim 0 fun record =>
      if meter.windowOf record.recordedAt = window then record.tokens unit else 0).sum

/-- A task that is off only runs when a person asks, while its budget is not spent. -/
def mayStart (trigger : TaskRunTrigger) : Bool :=
  meter.task.enabled || (decide (trigger = .manual) && !runNowBudgetRefusal meter.task meter.now)

def start (dispatch : Dispatch) (rates : Option UsageRates) : Option Meter :=
  if dispatch.startedAt = meter.now ∧ meter.mayStart dispatch.trigger = true then
    some
      { meter with
        balances := meter.balances.openAccounts (host.budgetSpendAccounts meter.task meter.now) rates
        runs := meter.runs ++ [{ dispatch, label := meter.task.budgetLabel meter.now }] }
  else none

def spend (action : Spend.Action) : Option Meter :=
  (meter.balances.step action).map fun balances => { meter with balances }

/-- A call costs no more than its check has reserved. -/
def covers (place : Nat) (usage : TokenUsage) : Bool :=
  meter.balances.holds[place]?.any fun hold => hold.ids.all fun id =>
    (meter.balances.live id).all fun entry => decide (spendIn entry.unit usage hold.rates ≤ hold.reservedOn id)

def debit (place : Nat) (usage : TokenUsage) : Option Meter :=
  if meter.covers place usage then
    meter.runs[place]?.bind fun run =>
      (meter.spend (.debit place usage)).map fun meter =>
        { meter with
          runs := meter.runs.set place
            { run with input := run.input + usage.inputTokens, output := run.output + usage.outputTokens } }
  else none

/-- A run is recorded once, after it has released its accounts. -/
def record (place : Nat) (execution : Execution) : Option Meter :=
  meter.runs[place]?.bind fun run =>
    if (meter.balances.holds[place]?.any SpendHold.released && run.record.isNone && run.reports execution) = true then
      let recorded := run.recorded meter.now execution
      let task := run.dispatch.record host.calendar meter.now meter.task recorded
      some
        { meter with
          task
          runs := meter.runs.set place
            { run with record := some ⟨meter.now, recorded.inputTokens, recorded.outputTokens⟩ }
          boundaries :=
            if task.budgetResetAt = meter.task.budgetResetAt then meter.boundaries
            else task.budgetResetAt.toList ++ meter.boundaries }
    else none

def step : MeterAction → Option Meter
  | .wait ms => some { meter with now := meter.now + ms }
  | .start dispatch rates => meter.start host dispatch rates
  | .check place call => meter.spend (.check place call)
  | .debit place usage => meter.debit place usage
  | .release place => meter.spend (.release place)
  | .record place execution => meter.record host place execution

end Meter

/-- Nothing has been spent in the stored window. A periodic budget may have no boundary yet. -/
structure Meter.Fresh (meter : Meter) : Prop where
  fresh : meter =
    { now := meter.now, task := meter.task, boundaries := meter.task.budgetResetAt.toList }
  period : meter.task.budgetResetAt.isSome = true → meter.task.isPeriodic = true
  counters : meter.task.budgetLabel meter.now ≠ .unseeded → ∀ unit, meter.task.counter unit = 0

def meterSystem (host : BudgetHost) : System Meter MeterAction where
  initial := Meter.Fresh
  step := Meter.step host

end NimbleBrain.Scheduler

/- The runs of a window spend at most its budget while a run that opens new accounts finds the others counted. -/

namespace NimbleBrain.Scheduler

open Library Spend Tasks

section Statement

/-- The runs that started in a window keep its caps, and the stored counters hold what was recorded inside the stored
window. Every record lies in the stored window or before it. -/
structure BudgetHolds (meter : Meter) : Prop where
  within : ∀ window unit cap, meter.task.cap unit = some cap → meter.spentIn window unit ≤ cap
  counted : meter.task.budgetLabel meter.now ≠ .unseeded → ∀ unit,
    meter.task.counter unit = meter.recordedIn (meter.boundaries.length - 1) unit
  stored : ∀ run ∈ meter.runs, ∀ record ∈ run.record,
    meter.task.budgetLabel meter.now ≠ .unseeded ∧ meter.windowOf record.recordedAt ≤ meter.boundaries.length - 1

variable (host : BudgetHost)

/-- A run opens new accounts when every run that started in the window is recorded with what it spent, and a boundary
is placed ahead. -/
def Metered (meter : Meter) : MeterAction → Prop
  | .start _ _ => ∀ account ∈ host.budgetSpendAccounts meter.task meter.now,
      (meter.balances.live account.id).isNone = true →
        ∀ run ∈ meter.runs, meter.windowOf run.startedAt = meter.windowOf meter.now → run.isCounted = true
  | .record _ _ => meter.task.isFresh meter.now = true → ∀ period ∈ meter.task.tokenBudget.bind TokenBudget.period,
      meter.now < host.calendar.resetAt period meter.now
  | .wait _ | .check .. | .debit .. | .release _ => True

instance (meter : Meter) (action : MeterAction) : Decidable (Metered host meter action) := by
  cases action <;> unfold Metered <;> infer_instance

end Statement

section Accounts

variable {host : BudgetHost} {task : Task} {now : Nat} {label other : BudgetLabel} {unit unit' : SpendUnit}

theorem unitText_end {first second : String} (same : first ++ (":" ++ unitText unit) = second ++ (":" ++ unitText unit')) :
    unit = unit' := by
  have ends := congrArg (fun text => text.toList.reverse) same
  simp only [String.toList_append, List.reverse_append] at ends
  cases unit <;> cases unit' <;> first | rfl | simp [unitText] at ends

theorem labelText_inj (injective : Function.Injective host.isoText) (same : host.labelText label = host.labelText other) :
    label = other := by
  have chars := congrArg String.toList same
  cases label <;> cases other <;> simp [BudgetHost.labelText, String.toList_append] at chars <;> try rfl
  · exact congrArg _ (injective (String.toList_inj.mp chars))
  · exact congrArg _ (injective (String.toList_inj.mp chars))

/-- Accounts of other windows and of other units have other names. -/
theorem accountId_inj (injective : Function.Injective host.isoText)
    (same : host.accountId label unit = host.accountId other unit') : label = other ∧ unit = unit' := by
  simp only [BudgetHost.accountId, String.append_assoc, String.append_right_inj] at same
  obtain rfl := unitText_end same
  exact ⟨labelText_inj injective (by simpa [String.append_left_inj] using same), rfl⟩

/-- What the window of the label has left. -/
def BudgetHost.remaining (task : Task) (now : Nat) (unit : SpendUnit) (cap : Nat) : Nat :=
  cap - if task.isFresh now then 0 else task.counter unit

theorem mem_budgetSpendAccounts {account : SpendAccount} :
    account ∈ host.budgetSpendAccounts task now ↔ ∃ unit cap, task.cap unit = some cap ∧
      account = ⟨host.accountId (task.budgetLabel now) unit, unit, (BudgetHost.remaining task now unit cap : ℚ)⟩ := by
  have usd : task.cap .usd = none := by
    unfold Task.cap
    cases task.tokenBudget <;> rfl
  simp only [BudgetHost.budgetSpendAccounts, List.mem_filterMap, List.mem_cons, List.not_mem_nil, or_false,
    Option.map_eq_some_iff, BudgetHost.remaining]
  constructor
  · rintro ⟨unit, -, cap, capped, rfl⟩
    exact ⟨unit, cap, capped, by simp⟩
  · rintro ⟨unit, cap, capped, rfl⟩
    refine ⟨unit, ?_, cap, capped, by simp⟩
    cases unit with
    | usd => cases usd.symm.trans capped
    | inputTokens => exact .inl rfl
    | outputTokens => exact .inr rfl

/-- A capped unit has one account, under the label of the moment. -/
theorem named_budgetSpendAccounts (injective : Function.Injective host.isoText) :
    named (host.budgetSpendAccounts task now) (host.accountId label unit) =
      if label = task.budgetLabel now then
        (task.cap unit).map fun cap => ⟨host.accountId label unit, unit, (BudgetHost.remaining task now unit cap : ℚ)⟩
      else none := by
  cases found : named (host.budgetSpendAccounts task now) (host.accountId label unit) with
  | some account =>
      obtain ⟨unit', cap, capped, rfl⟩ := mem_budgetSpendAccounts.mp (List.mem_of_find?_eq_some found)
      have same : host.accountId (task.budgetLabel now) unit' = host.accountId label unit := by
        simpa using List.find?_some found
      obtain ⟨rfl, rfl⟩ := accountId_inj injective same
      rw [if_pos rfl, capped, Option.map_some]
  | none =>
      have absent := List.find?_eq_none.mp found
      split
      · next same =>
          subst same
          cases capped : task.cap unit with
          | none => rfl
          | some cap =>
              refine absurd ?_ (absent _ (mem_budgetSpendAccounts.mpr ⟨unit, cap, capped, rfl⟩))
              exact decide_eq_true rfl
      · rfl

end Accounts

section Labels

variable {task other : Task} {now : Nat}

/-- The label says where the moment stands, and whether the counters belong to it. -/
theorem Task.budgetLabel_cases (task : Task) (now : Nat) :
    (∃ reset, task.budgetResetAt = some reset ∧ reset ≤ now ∧ task.budgetLabel now = .afterReset reset ∧
      task.isFresh now = true) ∨
    (∃ reset, task.budgetResetAt = some reset ∧ now < reset ∧ task.budgetLabel now = .untilReset reset ∧
      task.isFresh now = false) ∨
    (task.budgetResetAt = none ∧ task.isPeriodic = true ∧ task.budgetLabel now = .unseeded ∧
      task.isFresh now = true) ∨
    (task.budgetResetAt = none ∧ task.isPeriodic = false ∧ task.budgetLabel now = .lifetime ∧
      task.isFresh now = false) := by
  unfold budgetLabel isFresh budgetWindow
  cases task.budgetResetAt with
  | some reset =>
      by_cases past : reset ≤ now
      · exact .inl ⟨reset, rfl, past, if_pos past, by simp [past]⟩
      · exact .inr (.inl ⟨reset, rfl, not_le.mp past, if_neg past, by simp [past]⟩)
  | none =>
      cases periodic : task.isPeriodic with
      | true =>
          have period : (task.tokenBudget.bind TokenBudget.period).isSome = true := periodic
          exact .inr (.inr (.inl ⟨rfl, rfl, rfl, by simp [period]⟩))
      | false =>
          have period : (task.tokenBudget.bind TokenBudget.period).isSome = false := periodic
          exact .inr (.inr (.inr ⟨rfl, rfl, rfl, by simp [period]⟩))

theorem Task.seeded {task : Task} {now : Nat} (stale : task.isFresh now = false) : task.budgetLabel now ≠ .unseeded := by
  intro label
  rcases task.budgetLabel_cases now with ⟨_, _, _, other, _⟩ | ⟨_, _, _, other, _⟩ | ⟨_, _, _, fresh⟩ | ⟨_, _, other, _⟩
  · cases other.symm.trans label
  · cases other.symm.trans label
  · exact absurd (stale.symm.trans fresh) Bool.false_ne_true
  · cases other.symm.trans label

theorem SameBudget.isFresh (same : SameBudget task other) : other.isFresh now = task.isFresh now := by
  unfold Task.isFresh budgetWindow
  rw [same.resetAt, same.tokenBudget]

end Labels

variable {calendar : Calendar} {dispatch : Dispatch} {now : Nat} {task : Task} {run : TaskRun}

/-- The counted task as the budget finds it. -/
theorem Dispatch.record_settles (calendar : Calendar) (dispatch : Dispatch) (now : Nat) (task : Task) (run : TaskRun) :
    ∃ settled, SameBudget (countRun task run dispatch.runId) settled ∧
      dispatch.record calendar now task run = applyTokenBudget calendar settled run now := by
  have streak := applyStreak_budget (countRun task run dispatch.runId) run
  have settle := settleSchedule_budget calendar (applyStreak (countRun task run dispatch.runId) run).1 run
    (some dispatch.trigger) (dispatch.firedOnceAt.or dispatch.task.scheduleAt) now
  exact ⟨_, ⟨settle.tokenBudget.trans streak.tokenBudget, settle.inputTokens.trans streak.inputTokens,
    settle.outputTokens.trans streak.outputTokens, settle.resetAt.trans streak.resetAt⟩, rfl⟩

/-- A run that finds fresh counters starts the window with its own tokens. Any other run adds them. -/
theorem applyTokenBudget_window (calendar : Calendar) (run : TaskRun) (budgeted : task.isFresh now = true → task.tokenBudget.isSome = true) :
    let after := applyTokenBudget calendar task run now
    after.tokenBudget = task.tokenBudget ∧
      (after.cumulativeInputTokens = if task.isFresh now then run.inputTokens else task.cumulativeInputTokens) ∧
      (after.cumulativeOutputTokens = if task.isFresh now then run.outputTokens else task.cumulativeOutputTokens) ∧
      after.budgetResetAt =
        if task.isFresh now then (task.tokenBudget.bind TokenBudget.period).map (calendar.resetAt · now)
        else task.budgetResetAt := by
  unfold applyTokenBudget rollBudgetWindow
  cases budget : task.tokenBudget with
  | none =>
      have stale : task.isFresh now = false := by
        cases fresh : task.isFresh now with
        | false => rfl
        | true => simp [budget] at budgeted; simp [budgeted] at fresh
      simp [stale, budget]
  | some budget' =>
      cases fresh : task.isFresh now with
      | true => simp [of_decide_eq_true fresh]
      | false => simp [of_decide_eq_false fresh, budget]

/-- A recording moves the counters and the boundary together. -/
theorem Dispatch.record_window (calendar : Calendar) (dispatch : Dispatch) (run : TaskRun) (budgeted : task.isFresh now = true → task.tokenBudget.isSome = true) :
    let after := dispatch.record calendar now task run
    after.tokenBudget = task.tokenBudget ∧
      (∀ unit, after.counter unit = (if task.isFresh now then 0 else task.counter unit) +
        (RunRecord.mk now run.inputTokens run.outputTokens).tokens unit) ∧
      after.budgetResetAt =
        if task.isFresh now then (task.tokenBudget.bind TokenBudget.period).map (calendar.resetAt · now)
        else task.budgetResetAt := by
  obtain ⟨settled, same, recorded⟩ := dispatch.record_settles calendar now task run
  have fresh : settled.isFresh now = task.isFresh now := same.isFresh
  have budget : settled.tokenBudget = task.tokenBudget := same.tokenBudget
  have budgeted' : settled.isFresh now = true → settled.tokenBudget.isSome = true := by
    rw [fresh, budget]
    exact budgeted
  obtain ⟨kept, input, output, reset⟩ := applyTokenBudget_window calendar run budgeted'
  rw [recorded]
  refine ⟨kept.trans budget, fun unit => ?_, ?_⟩
  · cases unit with
    | usd => simp [Task.counter, RunRecord.tokens]
    | inputTokens =>
        rw [Task.counter, input, fresh, same.inputTokens]
        split <;> simp [RunRecord.tokens, Task.counter, countRun]
    | outputTokens =>
        rw [Task.counter, output, fresh, same.outputTokens]
        split <;> simp [RunRecord.tokens, Task.counter, countRun]
  · rw [reset, fresh, budget, same.resetAt]
    rfl

end NimbleBrain.Scheduler
