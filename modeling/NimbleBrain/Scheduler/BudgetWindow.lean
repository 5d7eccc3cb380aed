import NimbleBrain.Scheduler.TokenBudget

/- The balance of a label and what the runs of its window have spent stay within the cap together. -/

namespace NimbleBrain.Scheduler

open Library Spend Tasks

section Invariants

/-- The label of a run says where it started. -/
def MeteredRun.isPlaced (run : MeteredRun) (boundaries : List Nat) : Prop :=
  match run.label with
  | .afterReset reset => reset ≤ run.startedAt
  | .untilReset reset => reset ∈ boundaries
  | .unseeded | .lifetime => True

/-- Every moment of a run lies behind, and every recorded one lies before the stored boundary. -/
structure Meter.Dated (meter : Meter) : Prop where
  head : meter.task.budgetResetAt = meter.boundaries.head?
  past : ∀ boundary ∈ meter.boundaries.tail, boundary ≤ meter.now
  periodic : meter.task.budgetResetAt.isSome = true → meter.task.isPeriodic = true
  started : ∀ run ∈ meter.runs, run.startedAt ≤ meter.now
  placed : ∀ run ∈ meter.runs, run.isPlaced meter.boundaries
  recorded : ∀ run ∈ meter.runs, ∀ record ∈ run.record,
    run.startedAt ≤ record.recordedAt ∧ record.recordedAt ≤ meter.now ∧
      (meter.task.isPeriodic = true → ∃ reset ∈ meter.task.budgetResetAt, record.recordedAt < reset)

variable (host : BudgetHost)

/-- The holds and the runs stand side by side. -/
structure Meter.Matched (meter : Meter) : Prop where
  balanced : meter.balances.Balanced
  solvent : ∀ id, SpendBalances.Solvent id meter.balances
  sized : meter.balances.holds.length = meter.runs.length
  names : ∀ (place : Nat) (run : MeteredRun) (hold : SpendHold), meter.runs[place]? = some run →
    meter.balances.holds[place]? = some hold → ∀ label unit, host.accountId label unit ∈ hold.ids ↔ label = run.label ∧ (meter.task.cap unit).isSome = true
  units : ∀ label unit entry, meter.balances.live (host.accountId label unit) = some entry → entry.unit = unit
  ended : ∀ (place : Nat) (run : MeteredRun) (hold : SpendHold), meter.runs[place]? = some run →
    meter.balances.holds[place]? = some hold → run.record.isSome = true → hold.released = true

/-- The run at the place has not released its accounts. -/
def Meter.Holding (meter : Meter) (place : Nat) (run : MeteredRun) : Prop :=
  meter.runs[place]? = some run ∧ ∃ hold, meter.balances.holds[place]? = some hold ∧ hold.released = false

/-- While the label has a balance, the runs of the window that may still spend draw on it alone, and what the window
has spent fits beside it. -/
def Meter.Covered (meter : Meter) (label : BudgetLabel) (window : Nat) : Prop :=
  ∀ unit cap, meter.task.cap unit = some cap → ∀ entry, meter.balances.live (host.accountId label unit) = some entry →
    (meter.spentIn window unit : ℚ) + entry.balance ≤ cap ∧
      ∀ place run, meter.Holding place run → meter.windowOf run.startedAt = window → run.label = label

structure Meter.Sound (meter : Meter) : Prop where
  dated : meter.Dated
  matched : meter.Matched host
  owned : ∀ place run, meter.Holding place run → meter.Covered host run.label (meter.windowOf run.startedAt)
  current : meter.Covered host (meter.task.budgetLabel meter.now) (meter.windowOf meter.now)
  holds : BudgetHolds meter

end Invariants

variable {meter : Meter} {moment : Nat}

theorem Meter.windowOf_le (moment : Nat) : meter.windowOf moment ≤ meter.boundaries.length := List.countP_le_length

theorem Meter.windowOf_mono {other : Nat} (later : moment ≤ other) : meter.windowOf moment ≤ meter.windowOf other :=
  List.countP_mono_left fun _ _ past => decide_eq_true ((of_decide_eq_true past).trans later)

/-- A boundary that is placed ahead parts no moment behind it. -/
theorem Meter.windowOf_ahead {other : Meter} {boundary : Nat}
    (placed : other.boundaries = boundary :: meter.boundaries) (ahead : moment < boundary) :
    other.windowOf moment = meter.windowOf moment := by
  unfold windowOf
  rw [placed, List.countP_cons_of_neg (by simpa using ahead)]

namespace Meter.Dated

/-- The counters of the window that the moment lies in are stored, or the next record starts them. -/
theorem windowOf_now (dated : meter.Dated) : meter.windowOf meter.now =
    if meter.task.isFresh meter.now then meter.boundaries.length else meter.boundaries.length - 1 := by
  have head := dated.head
  have past := dated.past
  unfold windowOf
  rcases meter.task.budgetLabel_cases meter.now with ⟨reset, stored, gone, -, fresh⟩ | ⟨reset, stored, ahead, -, fresh⟩ |
    ⟨stored, -, -, fresh⟩ | ⟨stored, -, -, fresh⟩
  all_goals rw [fresh]; rw [stored] at head
  · obtain ⟨tail, placed⟩ := List.head?_eq_some_iff.mp head.symm
    rw [placed] at past ⊢
    refine List.countP_eq_length.mpr fun boundary listed => decide_eq_true ?_
    rcases List.mem_cons.mp listed with rfl | listed
    · exact gone
    · exact past boundary listed
  · obtain ⟨tail, placed⟩ := List.head?_eq_some_iff.mp head.symm
    rw [placed] at past ⊢
    rw [List.countP_cons_of_neg (by simpa using ahead)]
    exact List.countP_eq_length.mpr fun boundary listed => decide_eq_true (past boundary listed)
  · rw [List.head?_eq_none_iff.mp head.symm]
    rfl
  · rw [List.head?_eq_none_iff.mp head.symm]
    rfl

end Meter.Dated

section Holds

variable {host : BudgetHost} {meter : Meter} {label : BudgetLabel} {unit : SpendUnit} {entry : Live}

namespace Meter.Matched

/-- A balance is live while a run under its label may still spend. -/
theorem held (matched : meter.Matched host) (live : meter.balances.live (host.accountId label unit) = some entry) :
    ∃ place run, meter.Holding place run ∧ run.label = label ∧ (meter.task.cap unit).isSome = true := by
  have holders := matched.balanced.holders (host.accountId label unit)
  rw [live, Option.elim_some] at holders
  have lasting := matched.balanced.lasting _ entry live
  rw [holders] at lasting
  obtain ⟨hold, listed, holds⟩ := List.countP_pos_iff.mp lasting
  simp only [SpendHold.holdsOn, Bool.and_eq_true, Bool.not_eq_true', decide_eq_true_eq] at holds
  obtain ⟨place, found⟩ := List.mem_iff_getElem?.mp listed
  have within := (List.getElem?_eq_some_iff.mp found).1
  rw [matched.sized] at within
  have run := List.getElem?_eq_getElem within
  obtain ⟨same, capped⟩ := (matched.names place _ hold run found label unit).mp holds.2
  exact ⟨place, _, ⟨run, hold, found, holds.1⟩, same.symm, capped⟩

theorem live_of_holding (matched : meter.Matched host) {place : Nat} {run : MeteredRun}
    (holding : meter.Holding place run) (capped : (meter.task.cap unit).isSome = true) :
    ∃ entry, meter.balances.live (host.accountId run.label unit) = some entry := by
  obtain ⟨found, hold, held, active⟩ := holding
  obtain ⟨entry, live, -⟩ := matched.balanced.live_of_named held active
    ((matched.names place run hold found held run.label unit).mpr ⟨rfl, capped⟩)
  exact ⟨entry, live⟩

theorem balance_nonneg (matched : meter.Matched host) {id : String} (live : meter.balances.live id = some entry) :
    0 ≤ entry.balance := by
  have reserved := matched.balanced.reserved id entry live
  have outstanding := matched.balanced.outstanding_nonneg id
  have solvent := matched.solvent id entry live
  linarith

end Meter.Matched

end Holds

section Spending

/-- The runs differ at most in what they have spent. -/
def SameRuns (before after : List MeteredRun) : Prop :=
  after.length = before.length ∧ ∀ (place : Nat) (run : MeteredRun), after[place]? = some run →
    ∃ old, before[place]? = some old ∧ run.dispatch = old.dispatch ∧ run.label = old.label ∧ run.record = old.record

theorem SameRuns.refl (runs : List MeteredRun) : SameRuns runs runs :=
  ⟨rfl, fun _ run found => ⟨run, found, rfl, rfl, rfl⟩⟩

variable {place : Nat} {run : MeteredRun}

theorem SameRuns.set {runs : List MeteredRun} {old new : MeteredRun} (found : runs[place]? = some old)
    (dispatch : new.dispatch = old.dispatch) (label : new.label = old.label) (record : new.record = old.record) :
    SameRuns runs (runs.set place new) := by
  refine ⟨List.length_set, fun other run present => ?_⟩
  by_cases same : place = other
  · subst same
    rw [List.getElem?_set_self (List.getElem?_eq_some_iff.mp found).1, Option.some.injEq] at present
    exact present ▸ ⟨old, found, dispatch, label, record⟩
  · rw [List.getElem?_set_ne same] at present
    exact ⟨run, present, rfl, rfl, rfl⟩

variable {host : BudgetHost} {meter : Meter} {runs : List MeteredRun} {balances : SpendBalances} {action : Spend.Action}

theorem SameRuns.mem (same : SameRuns meter.runs runs) (listed : run ∈ runs) :
    ∃ old ∈ meter.runs, run.dispatch = old.dispatch ∧ run.label = old.label ∧ run.record = old.record := by
  obtain ⟨place, found⟩ := List.mem_iff_getElem?.mp listed
  obtain ⟨old, present, rest⟩ := same.2 place run found
  exact ⟨old, List.mem_of_getElem? present, rest⟩

theorem Meter.Dated.spend (dated : meter.Dated) (same : SameRuns meter.runs runs) :
    ({ meter with balances, runs } : Meter).Dated where
  head := dated.head
  past := dated.past
  periodic := dated.periodic
  started run listed := by
    obtain ⟨old, present, dispatch, -, -⟩ := same.mem listed
    rw [MeteredRun.startedAt, dispatch]
    exact dated.started old present
  placed run listed := by
    obtain ⟨old, present, dispatch, label, -⟩ := same.mem listed
    have placed := dated.placed old present
    unfold MeteredRun.isPlaced MeteredRun.startedAt at placed ⊢
    rw [label, dispatch]
    exact placed
  recorded run listed record stated := by
    obtain ⟨old, present, dispatch, -, kept⟩ := same.mem listed
    rw [MeteredRun.startedAt, dispatch]
    exact dated.recorded old present record (kept ▸ stated)

theorem Meter.Matched.spend (matched : meter.Matched host) (same : SameRuns meter.runs runs)
    (stepped : meter.balances.step action = some balances)
    (kept : ∀ accounts rates, action ≠ .openAccounts accounts rates)
    (covered : ∀ id, SpendBalances.coveredOn id meter.balances action) :
    ({ meter with balances, runs } : Meter).Matched host where
  balanced := matched.balanced.step action stepped
  solvent id := (matched.solvent id).step matched.balanced (covered id) stepped
  sized := (SpendBalances.step_length stepped kept).trans (matched.sized.trans same.1.symm)
  names place run hold found held label unit := by
    obtain ⟨old, present, -, alike, -⟩ := same.2 place run found
    obtain ⟨before, there, ids, -⟩ := SpendBalances.step_hold stepped kept held
    rw [ids, alike]
    exact matched.names place old before present there label unit
  units label unit entry live := by
    rcases SpendBalances.step_entry matched.balanced stepped live with ⟨before, present, alike, -⟩ | ⟨accounts, rates, -, other, -⟩
    · exact alike.trans (matched.units label unit before present)
    · exact absurd other (kept accounts rates)
  ended place run hold found held recorded := by
    obtain ⟨old, present, -, -, record⟩ := same.2 place run found
    obtain ⟨before, there, -, ended⟩ := SpendBalances.step_hold stepped kept held
    exact ended (matched.ended place old before present there (record ▸ recorded))

/-- A run that may still spend was one before. -/
theorem Meter.Holding.before (same : SameRuns meter.runs runs)
    (stepped : meter.balances.step action = some balances)
    (kept : ∀ accounts rates, action ≠ .openAccounts accounts rates)
    (holding : ({ meter with balances, runs } : Meter).Holding place run) :
    ∃ old, meter.Holding place old ∧ run.label = old.label ∧ run.startedAt = old.startedAt := by
  obtain ⟨found, hold, held, active⟩ := holding
  obtain ⟨old, present, dispatch, alike, -⟩ := same.2 place run found
  obtain ⟨before, there, -, ended⟩ := SpendBalances.step_hold stepped kept held
  refine ⟨old, ⟨present, before, there, ?_⟩, alike, congrArg Dispatch.startedAt dispatch⟩
  cases earlier : before.released with
  | false => rfl
  | true => exact (ended earlier).symm.trans active

/-- What a window spends is drawn from the balance of its label. -/
def Meter.Draws (host : BudgetHost) (before after : Meter) (label : BudgetLabel) (window : Nat) : Prop :=
  ∀ unit, (before.task.cap unit).isSome = true → ∀ last, after.balances.live (host.accountId label unit) = some last →
    ∃ entry, before.balances.live (host.accountId label unit) = some entry ∧
      (after.spentIn window unit : ℚ) + last.balance ≤ before.spentIn window unit + entry.balance

/-- Spending keeps every claim on a balance that it draws on. -/
theorem Meter.Sound.spend (sound : meter.Sound host) (same : SameRuns meter.runs runs)
    (stepped : meter.balances.step action = some balances) (kept : ∀ accounts rates, action ≠ .openAccounts accounts rates)
    (covered : ∀ id, SpendBalances.coveredOn id meter.balances action)
    (draws : ∀ label window, meter.Covered host label window → meter.Draws host { meter with balances, runs } label window)
    (counted : ∀ window unit, ({ meter with balances, runs } : Meter).recordedIn window unit = meter.recordedIn window unit)
    (within : ∀ window unit cap, meter.task.cap unit = some cap →
      ({ meter with balances, runs } : Meter).spentIn window unit ≤ cap) :
    ({ meter with balances, runs } : Meter).Sound host := by
  have keep : ∀ label window, meter.Covered host label window →
      ({ meter with balances, runs } : Meter).Covered host label window := by
    intro label window claims unit cap capped last live
    obtain ⟨entry, present, drawn⟩ := draws label window claims unit (Option.isSome_of_eq_some capped) last live
    obtain ⟨fits, alone⟩ := claims unit cap capped entry present
    refine ⟨drawn.trans fits, fun place run holding inside => ?_⟩
    obtain ⟨old, before, alike, started⟩ := holding.before same stepped kept
    rw [started] at inside
    exact alike.trans (alone place old before inside)
  refine ⟨sound.dated.spend same, sound.matched.spend same stepped kept covered, fun place run holding => ?_,
    keep _ _ sound.current, within, fun seeded unit => (sound.holds.counted seeded unit).trans (counted _ unit).symm,
    fun run listed record stated => ?_⟩
  · obtain ⟨old, before, alike, started⟩ := holding.before same stepped kept
    rw [alike, started]
    exact keep _ _ (sound.owned place old before)
  · obtain ⟨old, present, -, -, record'⟩ := same.mem listed
    exact sound.holds.stored old present record (record' ▸ stated)

/-- A check or a release moves no balance. -/
theorem Meter.Sound.idle (sound : meter.Sound host) (stepped : meter.balances.step action = some balances)
    (kept : ∀ accounts rates, action ≠ .openAccounts accounts rates)
    (free : ∀ place usage, action ≠ .debit place usage) :
    ({ meter with balances } : Meter).Sound host := by
  refine sound.spend (.refl meter.runs) stepped kept (fun id => ?_) (fun label window _ unit _ last live => ?_)
    (fun _ _ => rfl) sound.holds.within
  · cases action with
    | openAccounts accounts rates => exact absurd rfl (kept accounts rates)
    | debit place usage => exact absurd rfl (free place usage)
    | check _ _ => trivial
    | release _ => trivial
  · rcases SpendBalances.step_entry sound.matched.balanced stepped live with ⟨entry, present, -, moved⟩ | ⟨accounts, rates, -, other, -⟩
    · refine ⟨entry, present, le_of_eq ?_⟩
      cases action with
      | openAccounts accounts rates => exact absurd rfl (kept accounts rates)
      | debit place usage => exact absurd rfl (free place usage)
      | check _ _ => rw [moved, sub_zero]; rfl
      | release _ => rw [moved, sub_zero]; rfl
    · exact absurd other (kept accounts rates)

end Spending

section Debits

variable {host : BudgetHost} {meter : Meter} {balances : SpendBalances} {place : Nat} {usage : TokenUsage} {run : MeteredRun}

/-- The run with the tokens of one more call. -/
def MeteredRun.charge (run : MeteredRun) (usage : TokenUsage) : MeteredRun :=
  { run with input := run.input + usage.inputTokens, output := run.output + usage.outputTokens }

variable {unit : SpendUnit}

theorem spendIn_nonneg (usage : TokenUsage) (token : unit ≠ .usd) (rates : Option UsageRates) : 0 ≤ spendIn unit usage rates := by
  cases unit with
  | usd => exact absurd rfl token
  | inputTokens => exact Nat.cast_nonneg _
  | outputTokens => exact Nat.cast_nonneg _

theorem MeteredRun.charge_spent (token : unit ≠ .usd) (rates : Option UsageRates) :
    ((run.charge usage).spent unit : ℚ) = run.spent unit + spendIn unit usage rates := by
  cases unit with
  | usd => exact absurd rfl token
  | inputTokens => exact Nat.cast_add _ _
  | outputTokens => exact Nat.cast_add _ _

theorem Task.cap_token {task : Task} (capped : (task.cap unit).isSome = true) : unit ≠ .usd := by
  rintro rfl
  unfold cap at capped
  cases budget : task.tokenBudget <;> simp [budget, TokenBudget.cap] at capped

/-- The window of the run spends what the call costs. -/
theorem Meter.spentIn_charge (found : meter.runs[place]? = some run) (balances : SpendBalances) (usage : TokenUsage)
    (window : Nat) (token : unit ≠ .usd) (rates : Option UsageRates) :
    (({ meter with balances, runs := meter.runs.set place (run.charge usage) } : Meter).spentIn window unit : ℚ) =
      meter.spentIn window unit +
        if meter.windowOf run.startedAt = window then spendIn unit usage rates else 0 := by
  have total : ({ meter with balances, runs := meter.runs.set place (run.charge usage) } : Meter).spentIn window unit +
      (if meter.windowOf run.startedAt = window then run.spent unit else 0) =
        meter.spentIn window unit +
          if meter.windowOf run.startedAt = window then (run.charge usage).spent unit else 0 :=
    sum_map_set_add (fun other : MeteredRun => if meter.windowOf other.startedAt = window then other.spent unit else 0)
      meter.runs place found (run.charge usage)
  have cast := congrArg (Nat.cast (R := ℚ)) total
  simp only [Nat.cast_add, Nat.cast_ite, Nat.cast_zero, MeteredRun.charge_spent token rates] at cast
  split_ifs at cast ⊢ <;> linarith

/-- A debit draws on the balance of the label that its run started under. -/
theorem Meter.Sound.debit (sound : meter.Sound host) (found : meter.runs[place]? = some run)
    (covers : meter.covers place usage = true) (stepped : meter.balances.step (.debit place usage) = some balances) :
    ({ meter with balances, runs := meter.runs.set place (run.charge usage) } : Meter).Sound host := by
  obtain ⟨hold, held, more⟩ := Option.bind_eq_some_iff.mp stepped
  obtain ⟨active, -⟩ := Option.ite_none_left_eq_some.mp more
  have holding : meter.Holding place run := ⟨found, hold, held, by simpa using active⟩
  have names := sound.matched.names place run hold found held
  have same : SameRuns meter.runs (meter.runs.set place (run.charge usage)) := .set found rfl rfl rfl
  have kept : ∀ accounts rates, Spend.Action.debit place usage ≠ .openAccounts accounts rates := fun _ _ same => by cases same
  have covered : ∀ id, SpendBalances.coveredOn id meter.balances (.debit place usage) := by
    intro id hold' held' member entry live
    rw [Meter.covers, Option.mem_def.mp held'] at covers
    have each := List.all_eq_true.mp covers id member
    rw [Option.mem_def.mp live] at each
    exact of_decide_eq_true each
  have draws : ∀ label window, meter.Covered host label window →
      meter.Draws host { meter with balances, runs := meter.runs.set place (run.charge usage) } label window := by
    intro label window claims unit capped last live
    have token := Task.cap_token capped
    rcases SpendBalances.step_entry sound.matched.balanced stepped live with ⟨entry, present, -, moved⟩ | ⟨accounts, rates, -, other, -⟩
    · refine ⟨entry, present, ?_⟩
      obtain ⟨cap, limit⟩ := Option.isSome_iff_exists.mp capped
      have cost := spendIn_nonneg usage token hold.rates
      simp only [held, Option.elim_some, sound.matched.units label unit entry present] at moved
      rw [Meter.spentIn_charge found balances usage window token hold.rates, moved]
      split
      · next inside =>
          have own := (claims unit cap limit entry present).2 place run holding inside
          rw [if_pos ((names label unit).mpr ⟨own.symm, capped⟩)]
          linarith
      · split <;> linarith
    · exact absurd other (kept accounts rates)
  have counted : ∀ window unit,
      ({ meter with balances, runs := meter.runs.set place (run.charge usage) } : Meter).recordedIn window unit =
        meter.recordedIn window unit := by
    intro window unit
    have total := sum_map_set_add (fun other : MeteredRun => other.record.elim 0 fun record =>
      if meter.windowOf record.recordedAt = window then record.tokens unit else 0) meter.runs place found (run.charge usage)
    exact Nat.add_right_cancel total
  refine sound.spend same stepped kept covered draws counted fun window unit cap capped => ?_
  have some' := Option.isSome_of_eq_some capped
  have token := Task.cap_token some'
  by_cases inside : meter.windowOf run.startedAt = window
  · have matched := sound.matched.spend same stepped kept covered
    obtain ⟨last, live⟩ : ∃ last, balances.live (host.accountId run.label unit) = some last := by
      have bounded := (List.getElem?_eq_some_iff.mp found).1
      obtain ⟨next, there, -, released⟩ :=
        SpendBalances.step_holds stepped held fun other => by cases other
      have charged : ({ meter with balances, runs := meter.runs.set place (run.charge usage) } : Meter).Holding place
          (run.charge usage) := ⟨List.getElem?_set_self bounded, next, there, released.trans (by simpa using active)⟩
      have lasts := matched.live_of_holding charged some'
      exact lasts
    obtain ⟨entry, present, drawn⟩ := draws run.label window (inside ▸ sound.owned place run holding) unit some' last live
    have fits := (inside ▸ sound.owned place run holding unit cap capped entry present).1
    have left := matched.balance_nonneg live
    have total := (le_add_of_nonneg_right left).trans (drawn.trans fits)
    exact_mod_cast total
  · have total := Meter.spentIn_charge found balances usage window token none
    rw [if_neg inside, add_zero] at total
    exact (Nat.cast_injective total).le.trans (sound.holds.within window unit cap capped)

end Debits

section Counters

variable {host : BudgetHost} {meter : Meter} {unit : SpendUnit}

/-- Without a stored window nothing was recorded. -/
theorem Meter.recordedIn_fresh (dated : meter.Dated) (holds : BudgetHolds meter)
    (fresh : meter.task.isFresh meter.now = true) : meter.recordedIn meter.boundaries.length unit = 0 := by
  refine List.sum_eq_zero fun tokens listed => ?_
  obtain ⟨run, member, rfl⟩ := List.mem_map.mp listed
  cases stated : run.record with
  | none => rfl
  | some record =>
      obtain ⟨seeded, early⟩ := holds.stored run member record stated
      refine if_neg fun here => ?_
      rcases meter.task.budgetLabel_cases meter.now with ⟨reset, stored, -⟩ | ⟨_, _, _, _, stale⟩ | ⟨_, _, label, _⟩ |
        ⟨_, _, _, stale⟩
      · have placed := dated.head.symm.trans stored
        obtain ⟨tail, boundaries⟩ := List.head?_eq_some_iff.mp placed
        rw [here, boundaries, List.length_cons] at early
        omega
      · exact absurd (stale.symm.trans fresh) Bool.false_ne_true
      · exact seeded label
      · exact absurd (stale.symm.trans fresh) Bool.false_ne_true

/-- A window whose runs are all counted has spent at most what was recorded in it. -/
theorem Meter.spentIn_le (unit : SpendUnit) (dated : meter.Dated)
    (counted : ∀ run ∈ meter.runs, meter.windowOf run.startedAt = meter.windowOf meter.now → run.isCounted = true) :
    meter.spentIn (meter.windowOf meter.now) unit ≤ meter.recordedIn (meter.windowOf meter.now) unit := by
  refine List.sum_le_sum fun run listed => ?_
  split
  · next inside =>
      have same := counted run listed inside
      unfold MeteredRun.isCounted at same
      obtain ⟨record, stated, agrees⟩ := (Option.any_eq_true _ _).mp same
      obtain ⟨input, output⟩ := Bool.and_eq_true_iff.mp agrees
      obtain ⟨after, before, -⟩ := dated.recorded run listed record stated
      have window : meter.windowOf record.recordedAt = meter.windowOf meter.now :=
        le_antisymm (windowOf_mono before) (inside ▸ windowOf_mono after)
      rw [stated, Option.elim_some, if_pos window]
      cases unit with
      | usd => exact le_rfl
      | inputTokens => exact (of_decide_eq_true input).ge
      | outputTokens => exact (of_decide_eq_true output).ge
  · exact Nat.zero_le _

/-- A window that is all counted has room for an account of what the counters leave. -/
theorem Meter.Sound.opens (sound : meter.Sound host) {cap : Nat} (capped : meter.task.cap unit = some cap)
    (counted : ∀ run ∈ meter.runs, meter.windowOf run.startedAt = meter.windowOf meter.now → run.isCounted = true) :
    meter.spentIn (meter.windowOf meter.now) unit + BudgetHost.remaining meter.task meter.now unit cap ≤ cap := by
  have spent := Meter.spentIn_le unit sound.dated counted
  have within := sound.holds.within (meter.windowOf meter.now) unit cap capped
  have window := sound.dated.windowOf_now
  unfold BudgetHost.remaining
  cases fresh : meter.task.isFresh meter.now with
  | true =>
      rw [fresh, if_pos rfl] at window
      rw [window, Meter.recordedIn_fresh sound.dated sound.holds fresh] at spent
      rw [window, if_pos rfl]
      omega
  | false =>
      rw [fresh, if_neg Bool.false_ne_true] at window
      have counter := sound.holds.counted (Task.seeded fresh) unit
      rw [← window] at counter
      rw [if_neg Bool.false_ne_true]
      omega

/-- A label that no run has started under has no balance. -/
theorem Meter.Matched.covered_of_unused (matched : meter.Matched host) {label : BudgetLabel}
    (unused : ∀ run ∈ meter.runs, run.label ≠ label) (window : Nat) : meter.Covered host label window := by
  intro unit cap _ entry live
  obtain ⟨place, run, holding, same, -⟩ := matched.held live
  exact absurd same (unused run (List.mem_of_getElem? holding.1))

end Counters

section Waits

variable {host : BudgetHost} {meter : Meter} {ms : Nat}

/-- The clock keeps the label, or it crosses the stored boundary. -/
theorem Task.budgetLabel_later (task : Task) (now ms : Nat) :
    (task.budgetLabel (now + ms) = task.budgetLabel now ∧ task.isFresh (now + ms) = task.isFresh now) ∨
      ∃ reset, task.budgetResetAt = some reset ∧ now < reset ∧ task.budgetLabel (now + ms) = .afterReset reset ∧
        task.budgetLabel now = .untilReset reset := by
  unfold budgetLabel isFresh budgetWindow
  cases task.budgetResetAt with
  | none => exact .inl ⟨rfl, rfl⟩
  | some reset =>
      by_cases gone : reset ≤ now
      · have later : reset ≤ now + ms := gone.trans (Nat.le_add_right _ _)
        simp [gone, later]
      · by_cases later : reset ≤ now + ms
        · exact .inr ⟨reset, rfl, not_le.mp gone, if_pos later, if_neg gone⟩
        · simp [gone, later]

theorem Meter.Dated.wait (dated : meter.Dated) : ({ meter with now := meter.now + ms } : Meter).Dated where
  head := dated.head
  past boundary listed := (dated.past boundary listed).trans (Nat.le_add_right _ _)
  periodic := dated.periodic
  started run listed := (dated.started run listed).trans (Nat.le_add_right _ _)
  placed := dated.placed
  recorded run listed record stated := by
    obtain ⟨after, before, ahead⟩ := dated.recorded run listed record stated
    exact ⟨after, before.trans (Nat.le_add_right _ _), ahead⟩

theorem Meter.Sound.wait (sound : meter.Sound host) : ({ meter with now := meter.now + ms } : Meter).Sound host := by
  have matched : ({ meter with now := meter.now + ms } : Meter).Matched host :=
    ⟨sound.matched.balanced, sound.matched.solvent, sound.matched.sized, sound.matched.names, sound.matched.units,
      sound.matched.ended⟩
  have dated : ({ meter with now := meter.now + ms } : Meter).Dated := sound.dated.wait
  have seeded : meter.task.budgetLabel (meter.now + ms) ≠ .unseeded → meter.task.budgetLabel meter.now ≠ .unseeded := by
    intro later label
    rcases meter.task.budgetLabel_later meter.now ms with ⟨same, -⟩ | ⟨_, _, _, _, other⟩
    · exact later (same.trans label)
    · cases other.symm.trans label
  have unseeded : meter.task.budgetLabel meter.now ≠ .unseeded → meter.task.budgetLabel (meter.now + ms) ≠ .unseeded := by
    intro now label
    rcases meter.task.budgetLabel_later meter.now ms with ⟨same, -⟩ | ⟨_, _, _, other, _⟩
    · exact now (same.symm.trans label)
    · cases other.symm.trans label
  refine ⟨dated, matched, sound.owned, ?_, sound.holds.within, fun later => sound.holds.counted (seeded later),
    fun run listed record stated => ?_⟩
  · rcases meter.task.budgetLabel_later meter.now ms with ⟨label, fresh⟩ | ⟨reset, _, ahead, label, _⟩
    · have window := dated.windowOf_now
      have before := sound.dated.windowOf_now
      simp only [fresh] at window
      rw [← before] at window
      simp only [label]
      rw [window]
      exact sound.current
    · -- a run under the new label would have started behind the boundary
      refine matched.covered_of_unused (fun run listed same => ?_) _
      have placed := dated.placed run listed
      rw [MeteredRun.isPlaced, same.trans label] at placed
      have started := sound.dated.started run listed
      omega
  · obtain ⟨now, early⟩ := sound.holds.stored run listed record stated
    exact ⟨unseeded now, early⟩

end Waits

variable {host : BudgetHost} {dispatch : Dispatch} {rates : Option UsageRates}

/-- The meter once a run has opened its accounts. -/
def Meter.started (host : BudgetHost) (meter : Meter) (dispatch : Dispatch) (rates : Option UsageRates) : Meter :=
  { meter with
    balances := meter.balances.openAccounts (host.budgetSpendAccounts meter.task meter.now) rates
    runs := meter.runs ++ [{ dispatch, label := meter.task.budgetLabel meter.now }] }

theorem Meter.started_step : meter.balances.step
    (.openAccounts (host.budgetSpendAccounts meter.task meter.now) rates) =
      some (meter.started host dispatch rates).balances := rfl

/-- A run that has just started adds nothing to a sum. -/
theorem Meter.started_spentIn (window : Nat) (unit : SpendUnit) :
    (meter.started host dispatch rates).spentIn window unit = meter.spentIn window unit := by
  have fresh : (MeteredRun.mk dispatch (meter.task.budgetLabel meter.now) 0 0 none).spent unit = 0 := by
    cases unit <;> rfl
  have total : (meter.started host dispatch rates).spentIn window unit = meter.spentIn window unit +
      ((if meter.windowOf dispatch.startedAt = window then
        (MeteredRun.mk dispatch (meter.task.budgetLabel meter.now) 0 0 none).spent unit else 0) + 0) := by
    unfold spentIn started
    rw [List.map_append, List.sum_append]
    rfl
  rw [total, fresh, ite_self, add_zero, add_zero]

theorem Meter.started_recordedIn (window : Nat) (unit : SpendUnit) :
    (meter.started host dispatch rates).recordedIn window unit = meter.recordedIn window unit := by
  unfold recordedIn started
  rw [List.map_append, List.sum_append]
  rfl

theorem Meter.Dated.start (dated : meter.Dated) (begun : dispatch.startedAt = meter.now) :
    (meter.started host dispatch rates).Dated where
  head := dated.head
  past := dated.past
  periodic := dated.periodic
  started run listed := by
    rcases List.mem_append.mp listed with old | new
    · exact dated.started run old
    · exact List.mem_singleton.mp new ▸ begun.le
  placed run listed := by
    rcases List.mem_append.mp listed with old | new
    · exact dated.placed run old
    · rw [List.mem_singleton.mp new]
      rcases meter.task.budgetLabel_cases meter.now with ⟨reset, stored, gone, label, -⟩ | ⟨reset, stored, -, label, -⟩ |
        ⟨-, -, label, -⟩ | ⟨-, -, label, -⟩
      all_goals simp only [MeteredRun.isPlaced, label]
      · exact gone.trans begun.ge
      · exact List.mem_of_mem_head? (dated.head.symm.trans stored)
  recorded run listed record stated := by
    rcases List.mem_append.mp listed with old | new
    · exact dated.recorded run old record stated
    · rw [List.mem_singleton.mp new] at stated
      cases stated

variable {place : Nat} {run : MeteredRun}

/-- The place is that of an earlier run, or it is the last one. -/
theorem Meter.started_found (found : (meter.started host dispatch rates).runs[place]? = some run) :
    meter.runs[place]? = some run ∨
      place = meter.runs.length ∧ run = { dispatch, label := meter.task.budgetLabel meter.now } := by
  rcases Nat.lt_trichotomy place meter.runs.length with before | here | beyond
  · exact .inl ((List.getElem?_append_left before).symm.trans found)
  · refine .inr ⟨here, ?_⟩
    rw [started, List.getElem?_append_right here.ge, here, Nat.sub_self] at found
    exact (Option.some.inj found).symm
  · have bounded := (List.getElem?_eq_some_iff.mp found).1
    simp only [started, List.length_append, List.length_singleton] at bounded
    omega

theorem Meter.Matched.start (matched : meter.Matched host) (injective : Function.Injective host.isoText) :
    (meter.started host dispatch rates).Matched host where
  balanced := matched.balanced.openAccounts _ _
  solvent id := by
    refine (matched.solvent id).step matched.balanced ?_ Meter.started_step
    intro _ account named
    obtain ⟨unit, cap, -, rfl⟩ := mem_budgetSpendAccounts.mp (List.mem_of_find?_eq_some named)
    exact Nat.cast_nonneg _
  sized := by
    simp only [started, SpendBalances.openAccounts, List.length_append, matched.sized, List.length_singleton]
  names place run hold found held label unit := by
    rcases Meter.started_found found with old | ⟨last, rfl⟩
    · have within := (List.getElem?_eq_some_iff.mp old).1
      rw [← matched.sized] at within
      rw [started, SpendBalances.openAccounts, List.getElem?_append_left within] at held
      exact matched.names place run hold old held label unit
    · rw [started, SpendBalances.openAccounts, List.getElem?_append_right (by rw [matched.sized, last]), last,
        ← matched.sized, Nat.sub_self] at held
      rw [← Option.some.inj held, mem_openEach, named_budgetSpendAccounts injective]
      by_cases same : label = meter.task.budgetLabel meter.now
      · rw [if_pos same]
        simp [same]
        rfl
      · rw [if_neg same]
        simp [same]
  units label unit entry live := by
    rcases SpendBalances.step_entry matched.balanced Meter.started_step live with
      ⟨before, present, alike, -⟩ | ⟨accounts, rates', account, same, -, named, alike, -⟩
    · exact alike.trans (matched.units label unit before present)
    · cases same
      rw [named_budgetSpendAccounts injective] at named
      obtain ⟨-, opened⟩ := Option.ite_none_right_eq_some.mp named
      obtain ⟨cap, -, rfl⟩ := Option.map_eq_some_iff.mp opened
      exact alike
  ended place run hold found held recorded := by
    rcases Meter.started_found found with old | ⟨last, rfl⟩
    · have within := (List.getElem?_eq_some_iff.mp old).1
      rw [← matched.sized] at within
      rw [started, SpendBalances.openAccounts, List.getElem?_append_left within] at held
      exact matched.ended place run hold old held recorded
    · cases recorded

/-- A run that may spend is an earlier one, or the new one. -/
theorem Meter.Matched.holding_start (matched : meter.Matched host)
    (holding : (meter.started host dispatch rates).Holding place run) :
    meter.Holding place run ∨ run = { dispatch, label := meter.task.budgetLabel meter.now } := by
  obtain ⟨found, hold, held, active⟩ := holding
  rcases Meter.started_found found with old | ⟨-, same⟩
  · have within := (List.getElem?_eq_some_iff.mp old).1
    rw [← matched.sized] at within
    rw [started, SpendBalances.openAccounts, List.getElem?_append_left within] at held
    exact .inl ⟨old, hold, held, active⟩
  · exact .inr same

/-- A run that opens new accounts finds its window counted. -/
theorem Meter.Sound.start (sound : meter.Sound host) (injective : Function.Injective host.isoText)
    (begun : dispatch.startedAt = meter.now)
    (counted : ∀ account ∈ host.budgetSpendAccounts meter.task meter.now,
      (meter.balances.live account.id).isNone = true →
        ∀ run ∈ meter.runs, meter.windowOf run.startedAt = meter.windowOf meter.now → run.isCounted = true) :
    (meter.started host dispatch rates).Sound host := by
  have matched : (meter.started host dispatch rates).Matched host := sound.matched.start injective
  -- an account is live, or the window is counted and none of its runs may spend
  have unopened : ∀ unit cap, meter.task.cap unit = some cap →
      meter.balances.live (host.accountId (meter.task.budgetLabel meter.now) unit) = none →
        ∀ run ∈ meter.runs, meter.windowOf run.startedAt = meter.windowOf meter.now → run.isCounted = true :=
    fun unit cap capped absent =>
      counted _ (mem_budgetSpendAccounts.mpr ⟨unit, cap, capped, rfl⟩) (Option.isNone_iff_eq_none.mpr absent)
  have alone : ∀ unit cap, meter.task.cap unit = some cap → ∀ place run, meter.Holding place run →
      meter.windowOf run.startedAt = meter.windowOf meter.now → run.label = meter.task.budgetLabel meter.now := by
    intro unit cap capped place run holding inside
    cases live : meter.balances.live (host.accountId (meter.task.budgetLabel meter.now) unit) with
    | some entry => exact (sound.current unit cap capped entry live).2 place run holding inside
    | none =>
        obtain ⟨found, hold, held, active⟩ := holding
        have stated := unopened unit cap capped live run (List.mem_of_getElem? found) inside
        obtain ⟨record, recorded, -⟩ := (Option.any_eq_true _ _).mp stated
        have ended := sound.matched.ended place run hold found held (Option.isSome_of_eq_some recorded)
        exact absurd (active.symm.trans ended) Bool.false_ne_true
  have current : (meter.started host dispatch rates).Covered host (meter.task.budgetLabel meter.now)
      (meter.windowOf meter.now) := by
    intro unit cap capped entry live
    refine ⟨?_, fun place run holding inside => ?_⟩
    · rw [Meter.started_spentIn]
      rcases SpendBalances.step_entry sound.matched.balanced Meter.started_step live with
        ⟨before, present, -, same⟩ | ⟨accounts, rates', account, same, absent, named, -, opened⟩
      · rw [same, sub_zero]
        exact (sound.current unit cap capped before present).1
      · cases same
        rw [named_budgetSpendAccounts injective, if_pos rfl] at named
        obtain ⟨cap', limit, rfl⟩ := Option.map_eq_some_iff.mp named
        cases limit.symm.trans capped
        rw [opened]
        have room := sound.opens capped (unopened unit _ capped absent)
        dsimp only
        exact_mod_cast room
    · rcases sound.matched.holding_start holding with old | rfl
      · exact alone unit cap capped place run old inside
      · rfl
  have kept : ∀ place run, meter.Holding place run →
      (meter.started host dispatch rates).Covered host run.label (meter.windowOf run.startedAt) := by
    intro place run holding unit cap capped entry live
    obtain ⟨earlier, present⟩ := sound.matched.live_of_holding holding (Option.isSome_of_eq_some capped)
    obtain ⟨fits, own⟩ := sound.owned place run holding unit cap capped earlier present
    refine ⟨?_, fun other next started inside => ?_⟩
    · rw [Meter.started_spentIn]
      rcases SpendBalances.step_entry sound.matched.balanced Meter.started_step live with
        ⟨before, present', -, same⟩ | ⟨_, _, _, _, absent, -⟩
      · cases present.symm.trans present'
        rw [same, sub_zero]
        exact fits
      · cases absent.symm.trans present
    · rcases sound.matched.holding_start started with old | rfl
      · exact own other next old inside
      · have here : meter.windowOf run.startedAt = meter.windowOf meter.now := inside.symm.trans (congrArg _ begun)
        exact (alone unit cap capped place run holding here).symm
  refine ⟨sound.dated.start begun, matched, fun place run holding => ?_, current, fun window unit cap capped => ?_,
    fun seeded unit => ?_, fun run listed record stated => ?_⟩
  · rcases sound.matched.holding_start holding with old | rfl
    · exact kept place run old
    · have here : (meter.started host dispatch rates).windowOf dispatch.startedAt = meter.windowOf meter.now :=
        congrArg meter.windowOf begun
      rw [MeteredRun.startedAt, here]
      exact current
  · rw [Meter.started_spentIn]
    exact sound.holds.within window unit cap capped
  · rw [Meter.started_recordedIn]
    exact sound.holds.counted seeded unit
  · rcases List.mem_append.mp listed with old | new
    · exact sound.holds.stored run old record stated
    · rw [List.mem_singleton.mp new] at stated
      cases stated

end NimbleBrain.Scheduler
