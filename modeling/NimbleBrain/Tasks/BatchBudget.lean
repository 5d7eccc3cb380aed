import NimbleBrain.Tasks.BatchRuns
import NimbleBrain.Tasks.Funding

/- A batch stays within its budget while its account is never seeded with spent money. -/

namespace NimbleBrain.Tasks

open Library Spend

namespace Purse

/-- An active hold on the account of the batch. -/
def Holds (purse : Purse) (index : Nat) : Prop :=
  ∃ hold, purse.spend.holds[index]? = some hold ∧ hold.released = false ∧ purse.account ∈ hold.ids

/-- What was spent and what is left of the live balance fit the budget. -/
structure Funded (spent budget : ℚ) (purse : Purse) : Prop where
  budgeted : purse.budgetUsd = some budget
  balanced : purse.spend.Balanced
  solvent : SpendBalances.Solvent purse.account purse.spend
  live : ∀ entry, purse.spend.live purse.account = some entry →
    entry.unit = .usd ∧ spent + entry.balance ≤ budget
  within : spent ≤ budget
  anchored : ∀ index, purse.anchor = some index →
    purse.Holds index ∧ ∀ run ∈ purse.runs, run.stage ≠ .holding index
  holding : ∀ run ∈ purse.runs, ∀ index, run.stage = .holding index → purse.Holds index
  apart : ∀ first ∈ purse.runs, ∀ second ∈ purse.runs, ∀ index,
    first.stage = .holding index → second.stage = .holding index → first.id = second.id
  dispatched : ∀ run ∈ purse.runs, ∀ accounts, run.stage = .dispatched accounts →
    ∃ amount, 0 ≤ amount ∧ accounts = [⟨purse.account, .usd, amount⟩]

variable {spent budget : ℚ} {purse : Purse}

/-- A stage without a hold that names at most the account of the batch. -/
def Light (purse : Purse) (stage : RunStage) : Prop :=
  (∀ index, stage ≠ .holding index) ∧
    ∀ accounts, stage = .dispatched accounts →
      ∃ amount, 0 ≤ amount ∧ accounts = [⟨purse.account, .usd, amount⟩]

/-- Each run is an old one or has a light stage. -/
theorem Funded.withRuns (funded : purse.Funded spent budget) {runs : List BatchRun}
    (each : ∀ run ∈ runs, (∃ old ∈ purse.runs, old.id = run.id ∧ old.stage = run.stage) ∨ purse.Light run.stage) :
    { purse with runs := runs }.Funded spent budget := by
  refine { funded with anchored := ?_, holding := ?_, apart := ?_, dispatched := ?_ }
  · intro index anchored
    refine ⟨(funded.anchored index anchored).1, fun run member same => ?_⟩
    rcases each run member with ⟨old, inside, -, stage⟩ | light
    · exact (funded.anchored index anchored).2 old inside (stage.trans same)
    · exact light.1 index same
  · intro run member index same
    rcases each run member with ⟨old, inside, -, stage⟩ | light
    · exact funded.holding old inside index (stage.trans same)
    · exact absurd same (light.1 index)
  · intro first one second two index same other
    rcases each first one with ⟨old, inside, id, stage⟩ | light
    · rcases each second two with ⟨old', inside', id', stage'⟩ | light
      · exact id.symm.trans
          ((funded.apart old inside old' inside' index (stage.trans same) (stage'.trans other)).trans id')
      · exact absurd other (light.1 index)
    · exact absurd same (light.1 index)
  · intro run member accounts same
    rcases each run member with ⟨old, inside, -, stage⟩ | light
    · exact funded.dispatched old inside accounts (stage.trans same)
    · exact light.2 accounts same

/-- Every step of the store but a debit keeps the batch funded. -/
theorem Funded.spend (funded : purse.Funded spent budget) {action : Spend.Action} {after : SpendBalances}
    (stepped : purse.spend.step action = some after)
    (free : ∀ index usage, action ≠ .debit index usage)
    (unused : ∀ index, action = .release index →
      purse.anchor ≠ some index ∧ ∀ run ∈ purse.runs, run.stage ≠ .holding index)
    (fits : ∀ accounts rates, action = .openAccounts accounts rates →
      purse.spend.live purse.account = none → ∀ account ∈ named accounts purse.account,
        account.unit = .usd ∧ 0 ≤ account.remaining ∧ spent + account.remaining ≤ budget) :
    { purse with spend := after }.Funded spent budget := by
  have kept : ∀ index, (∀ other, action = .release other → other ≠ index) → purse.Holds index →
      { purse with spend := after }.Holds index := by
    rintro index other ⟨hold, found, active, member⟩
    obtain ⟨next, there, ids, released⟩ := SpendBalances.step_holds stepped found
      (fun same => other index same rfl)
    exact ⟨next, there, released.trans active, ids ▸ member⟩
  refine { funded with
           balanced := funded.balanced.step action stepped
           solvent := funded.solvent.step funded.balanced ?_ stepped
           live := ?_, anchored := ?_, holding := ?_ }
  · cases action with
    | openAccounts accounts rates =>
        intro gone account found
        exact (fits accounts rates rfl gone account found).2.1
    | debit index usage => exact absurd rfl (free index usage)
    | check index call => trivial
    | release index => trivial
  · intro entry present
    rcases SpendBalances.step_entry funded.balanced stepped present with
      ⟨before, earlier, unit, balance⟩ | ⟨accounts, rates, account, same, gone, found, unit, balance⟩
    · have same : entry.balance = before.balance := by
        cases action with
        | debit index usage => exact absurd rfl (free index usage)
        | openAccounts accounts rates => simpa using balance
        | check index call => simpa using balance
        | release index => simpa using balance
      obtain ⟨dollars, covers⟩ := funded.live before earlier
      exact ⟨unit.trans dollars, by rw [same]; exact covers⟩
    · obtain ⟨dollars, -, covers⟩ := fits accounts rates same gone account found
      exact ⟨unit.trans dollars, by rw [balance]; exact covers⟩
  · intro index anchored
    obtain ⟨holds, others⟩ := funded.anchored index anchored
    refine ⟨kept index (fun other same => ?_) holds, others⟩
    rintro rfl
    exact (unused other same).1 anchored
  · intro run member index same
    refine kept index (fun other released => ?_) (funded.holding run member index same)
    rintro rfl
    exact (unused other released).2 run member same

variable {hold : SpendHold} {index : Nat} {after : Purse} {costUsd : ℚ}

/-- A debit within its reservation moves money from the balance to what was spent. -/
theorem Funded.debit (funded : purse.Funded spent budget) (holds : purse.Holds index)
    (found : purse.spend.holds[index]? = some hold) (usage : TokenUsage)
    (covered : spendIn .usd usage hold.rates ≤ hold.reservedOn purse.account) :
    { purse with spend := purse.spend.debit index hold usage }.Funded
      (spent + spendIn .usd usage hold.rates) budget := by
  obtain ⟨other, present, active, member⟩ := holds
  rw [found, Option.some.injEq] at present
  subst present
  have stepped : purse.spend.step (.debit index usage) = some (purse.spend.debit index hold usage) := by
    rw [SpendBalances.step, found, Option.bind_some, if_neg (by simp [active])]
  have balanced := funded.balanced.step _ stepped
  have solvent : SpendBalances.Solvent purse.account (purse.spend.debit index hold usage) := by
    refine funded.solvent.step funded.balanced ?_ stepped
    intro other present _ entry live
    rw [found, Option.mem_some_iff] at present
    rw [← present, (funded.live entry live).1]
    exact covered
  have live : ∀ entry, (purse.spend.debit index hold usage).live purse.account = some entry →
      entry.unit = .usd ∧ spent + spendIn .usd usage hold.rates + entry.balance ≤ budget := by
    intro entry present
    rcases SpendBalances.step_entry funded.balanced stepped present with
      ⟨before, earlier, unit, balance⟩ | ⟨_, _, _, same, -⟩
    · obtain ⟨dollars, covers⟩ := funded.live before earlier
      refine ⟨unit.trans dollars, ?_⟩
      simp only [found, Option.elim_some, if_pos member, dollars] at balance
      linarith
    · cases same
  obtain ⟨next, there, ids, released⟩ := SpendBalances.step_holds stepped found nofun
  obtain ⟨entry, present, -⟩ := balanced.live_of_named there (released.trans active) (ids ▸ member)
  have kept : ∀ i, purse.Holds i → { purse with spend := purse.spend.debit index hold usage }.Holds i := by
    rintro i ⟨other, found', active', member'⟩
    obtain ⟨next', there', ids', released'⟩ := SpendBalances.step_holds stepped found' nofun
    exact ⟨next', there', released'.trans active', ids' ▸ member'⟩
  refine { funded with
           balanced := balanced, solvent := solvent, live := live, within := ?_
           anchored := fun i anchored => ⟨kept i (funded.anchored i anchored).1, (funded.anchored i anchored).2⟩
           holding := fun run inside i same => kept i (funded.holding run inside i same) }
  have covers := (live entry present).2
  have above := solvent entry present
  have reserved := balanced.reserved _ entry present
  have nonneg := balanced.outstanding_nonneg purse.account
  linarith

theorem Funded.forget (funded : purse.Funded spent budget) :
    { purse with anchor := none }.Funded spent budget :=
  { funded with anchored := fun _ anchored => by cases anchored }

/-- A hold that nothing uses any more is released. -/
theorem Funded.release (funded : purse.Funded spent budget) (found : purse.spend.holds[index]? = some hold)
    (forgotten : purse.anchor ≠ some index) (unused : ∀ run ∈ purse.runs, run.stage ≠ .holding index) :
    { purse with spend := purse.spend.release index hold }.Funded spent budget := by
  have stepped : purse.spend.step (.release index) = some (purse.spend.release index hold) := by
    rw [SpendBalances.step, found, Option.map_some]
  refine funded.spend stepped nofun ?_ nofun
  intro other same
  obtain rfl := Spend.Action.release.inj same
  exact ⟨forgotten, unused⟩

theorem Funded.releaseAnchor (funded : purse.Funded spent budget) :
    purse.releaseAnchor.Funded spent budget := by
  unfold Purse.releaseAnchor
  cases anchor : purse.anchor with
  | none => exact funded
  | some index =>
      obtain ⟨⟨hold, found, -, -⟩, unused⟩ := funded.anchored index anchor
      dsimp only
      rw [found]
      exact funded.forget.release found nofun unused

theorem accountsFor_budgeted (budgeted : purse.budgetUsd = some budget) (costUsd : ℚ) :
    purse.accountsFor costUsd = [⟨purse.account, .usd, max 0 (budget - costUsd)⟩] := by
  rw [accountsFor, budgeted]

theorem light_waiting : purse.Light .waiting := ⟨nofun, nofun⟩

theorem light_over : purse.Light .over := ⟨nofun, nofun⟩

theorem light_dispatched (budgeted : purse.budgetUsd = some budget) (costUsd : ℚ) :
    purse.Light (.dispatched (purse.accountsFor costUsd)) := by
  refine ⟨nofun, fun accounts same => ⟨max 0 (budget - costUsd), le_max_left _ _, ?_⟩⟩
  rw [← accountsFor_budgeted budgeted costUsd]
  exact (RunStage.dispatched.inj same).symm

theorem Funded.moves (funded : purse.Funded spent budget) (moved : Moves purse after) :
    after.Funded spent budget := by
  induction moved with
  | same => exact funded
  | freed after _ ih => exact ih.releaseAnchor
  | forgot after _ ih => exact ih.forget
  | asked after run _ fresh ih =>
      refine ih.withRuns fun other member => ?_
      rcases List.mem_append.mp member with old | new
      · exact .inl ⟨other, old, rfl, rfl⟩
      · rw [List.mem_singleton.mp new]
        rcases fresh with waits | ⟨costUsd, reads⟩
        · exact .inr (waits ▸ light_waiting)
        · exact .inr (reads ▸ light_dispatched ih.budgeted costUsd)

theorem Holds.lt (holds : purse.Holds index) : index < purse.spend.holds.length := by
  obtain ⟨hold, found, -⟩ := holds
  exact (List.getElem?_eq_some_iff.mp found).1

/-- A store that opens an account of the batch has a new hold on it. -/
theorem opened_holds (purse : Purse) (accounts : List SpendAccount) (rates : Option UsageRates)
    (member : (named accounts purse.account).isSome) :
    { purse with spend := purse.spend.openAccounts accounts rates }.Holds purse.spend.holds.length := by
  refine ⟨_, List.getElem?_concat_length, rfl, ?_⟩
  exact (mem_openEach accounts [] purse.spend.live purse.account).mpr (.inr member)

theorem Funded.openAccounts (funded : purse.Funded spent budget) (accounts : List SpendAccount)
    (rates : Option UsageRates)
    (fits : purse.spend.live purse.account = none → ∀ account ∈ named accounts purse.account,
      account.unit = .usd ∧ 0 ≤ account.remaining ∧ spent + account.remaining ≤ budget) :
    { purse with spend := purse.spend.openAccounts accounts rates }.Funded spent budget := by
  have stepped : purse.spend.step (.openAccounts accounts rates) =
      some (purse.spend.openAccounts accounts rates) := rfl
  refine funded.spend stepped nofun nofun ?_
  intro others _ same
  obtain ⟨rfl, -⟩ := Spend.Action.openAccounts.inj same
  exact fits

/-- The anchor is opened without harm when the recorded cost covers what was spent. -/
theorem Funded.openAnchor (funded : purse.Funded spent budget)
    (recorded : purse.spend.live purse.account = none → spent ≤ costUsd) :
    (purse.openAnchor costUsd).Funded spent budget := by
  unfold Purse.openAnchor
  split
  · rw [accountsFor_budgeted funded.budgeted]
    let account : SpendAccount := ⟨purse.account, .usd, max 0 (budget - costUsd)⟩
    have found : named [account] purse.account = some account := by simp [named, account]
    have opened := funded.openAccounts [account] none fun gone other same => by
      rw [found, Option.mem_some_iff] at same
      subst same
      refine ⟨rfl, le_max_left _ _, ?_⟩
      have covers := recorded gone
      have within := funded.within
      change spent + max 0 (budget - costUsd) ≤ budget
      rcases max_cases 0 (budget - costUsd) with ⟨same, -⟩ | ⟨same, -⟩ <;> rw [same] <;> linarith
    refine { opened with anchored := fun index anchored => ?_ }
    obtain rfl := Option.some.inj anchored
    refine ⟨opened_holds purse [account] none (by rw [found]; rfl), fun run member same => ?_⟩
    exact lt_irrefl _ (funded.holding run member _ same).lt
  · exact funded

/-- A new budget above the recorded cost covers what was spent. -/
theorem Funded.rebudgeted (funded : purse.Funded spent budget) {budgetUsd : Option ℚ}
    (accepted : purse.Rebudgeted costUsd budgetUsd)
    (recorded : purse.spend.live purse.account = none → spent ≤ costUsd) :
    ∃ budget, { purse with budgetUsd := budgetUsd }.Funded spent budget := by
  rcases accepted with rfl | ⟨next, rfl, more, unheld⟩
  · exact ⟨budget, funded⟩
  · have gone : purse.spend.live purse.account = none := Option.map_eq_none_iff.mp unheld
    refine ⟨next, { funded with budgeted := rfl, live := ?_, within := ?_ }⟩
    · intro entry present
      rw [gone] at present
      cases present
    · exact (recorded gone).trans more.le

theorem Funded.reopened (funded : purse.Funded spent budget) (opened : Reopened costUsd purse after)
    (recorded : purse.spend.live purse.account = none → spent ≤ costUsd) :
    ∃ budget, after.Funded spent budget := by
  obtain ⟨anchor, budgetUsd, stale, accepted, moved⟩ := opened
  obtain ⟨next, ready⟩ := funded.rebudgeted accepted recorded
  have before : { purse with anchor := anchor, budgetUsd := budgetUsd }.Funded spent next := by
    rcases stale with rfl | rfl
    · exact ready
    · exact ready.forget
  exact ⟨next, (before.openAnchor recorded).moves moved⟩

/-- A new process holds no account. -/
theorem Funded.reset (funded : purse.Funded spent budget) :
    { purse with stopping := false, anchor := none, spend := {}, runs := [] }.Funded spent budget where
  budgeted := funded.budgeted
  balanced := SpendBalances.balanced_of_initial rfl
  solvent := nofun
  live := nofun
  within := funded.within
  anchored := nofun
  holding := nofun
  apart := nofun
  dispatched := nofun

end Purse

namespace World

variable {world next : World} {budget : ℚ}

/-- No model call costs more than its run reserved for it. -/
def callsCovered (world : World) (action : DriverAction) : Prop :=
  match action.event with
  | .runDebits id usage => ∀ found ∈ world.holdOf id,
      spendIn .usd usage found.2.rates ≤ found.2.reservedOn (batchAccountId world.driver.live.batch)
  | _ => True

/-- The account of the batch is seeded only when the recorded cost covers what was spent. -/
def seedsSettled (world : World) (action : DriverAction) : Prop :=
  match action.event with
  | .control request budgetUsd =>
      world.driver.Reopens budgetUsd request → world.driver.balance = none →
        world.spent ≤ world.driver.live.batch.costUsd
  | .boot files now =>
      world.driver.live.batch.state = .running →
        world.spent ≤ (reconcile files world.driver.live.batch world.driver.live.items now).2.batch.costUsd
  | .runOpens id _ _ =>
      world.driver.balance = none → ∀ run ∈ world.runOf id, ∀ account ∈ run.stage.accounts,
        ∀ budget ∈ world.driver.live.batch.budgetUsd, world.spent + account.remaining ≤ budget
  | _ => True

instance (driver : Driver) (budgetUsd : Option ℚ) (request : BatchAction) :
    Decidable (driver.Reopens budgetUsd request) := by
  cases request <;> unfold Driver.Reopens <;> infer_instance

instance (world : World) (action : DriverAction) : Decidable (world.callsCovered action) := by
  unfold callsCovered
  split <;> infer_instance

instance (world : World) (action : DriverAction) : Decidable (world.seedsSettled action) := by
  unfold seedsSettled
  split <;> infer_instance

def Funded (world : World) (budget : ℚ) : Prop := world.driver.purse.Funded world.spent budget

theorem gone_of_balance (gone : world.driver.purse.spend.live world.driver.purse.account = none) :
    world.driver.balance = none := Option.map_eq_none_iff.mpr gone

variable {id : RunId}

theorem holdOf_holds (funded : world.Funded budget) {found : Nat × SpendHold} (held : world.holdOf id = some found) :
    world.driver.purse.Holds found.1 ∧ world.driver.spend.holds[found.1]? = some found.2 ∧
      ∃ run ∈ world.driver.runs, run.id = id ∧ run.stage = .holding found.1 := by
  obtain ⟨run, here, stage⟩ := Option.bind_eq_some_iff.mp held
  have member := List.mem_of_find?_eq_some here
  have same : run.id = id := by simpa using List.find?_some here
  split at stage
  · rename_i index holds
    obtain ⟨hold, present, rfl⟩ := Option.map_eq_some_iff.mp stage
    exact ⟨funded.holding run member index holds, present, run, member, same, holds⟩
  · cases stage

theorem withStage_light (funded : world.Funded budget) (id : RunId) (stage : RunStage)
    (light : world.driver.purse.Light stage) : (world.withStage id stage).Funded budget := by
  refine Purse.Funded.withRuns funded fun run member => ?_
  obtain ⟨old, inside, rfl⟩ := List.mem_map.mp member
  by_cases same : old.id = id
  · rw [if_pos same]
    exact .inr light
  · rw [if_neg same]
    exact .inl ⟨old, inside, rfl, rfl⟩

theorem runStarts_funded (funded : world.Funded budget) (stepped : world.runStarts id = some next) :
    next.Funded budget := by
  obtain ⟨run, -, stage⟩ := Option.bind_eq_some_iff.mp stepped
  split at stage
  · cases stage
    let started : World := { world with driver := world.driver.itemStarted run.index id }
    have same : started.driver.purse = world.driver.purse := world.driver.itemStarted_purse run.index id
    have kept : started.Funded budget := by
      rw [Funded, same]
      exact funded
    exact withStage_light kept id _ (Purse.light_dispatched kept.budgeted started.driver.live.batch.costUsd)
  · cases stage

/-- A run that opens its accounts finds the live balance or seeds it with an amount that fits. -/
theorem runOpens_funded (funded : world.Funded budget) {own : List SpendAccount}
    {rates : Option UsageRates} (stepped : world.runOpens id own rates = some next)
    (fits : world.driver.balance = none → ∀ run ∈ world.runOf id, ∀ account ∈ run.stage.accounts,
      world.spent + account.remaining ≤ budget) :
    next.Funded budget := by
  obtain ⟨run, here, stage⟩ := Option.bind_eq_some_iff.mp stepped
  have member := List.mem_of_find?_eq_some here
  split at stage
  · rename_i accounts reads
    split at stage
    · cases stage
    · rename_i apart
      cases stage
      obtain ⟨amount, positive, same⟩ := funded.dispatched run member accounts reads
      subst same
      let account : SpendAccount := ⟨world.driver.purse.account, .usd, amount⟩
      have found : named (own ++ [account]) world.driver.purse.account = some account := by
        have absent : own.find? (fun other => other.id = world.driver.purse.account) = none := by
          apply List.find?_eq_none.mpr
          intro other inside same
          exact apart (List.any_eq_true.mpr ⟨other, inside, same⟩)
        rw [named, List.find?_append, absent]
        simp [account]
      have opened := Purse.Funded.openAccounts funded (own ++ [account]) rates fun gone other same => by
        rw [found, Option.mem_some_iff] at same
        subst same
        refine ⟨rfl, positive, fits (gone_of_balance gone) run here account ?_⟩
        rw [reads]
        exact List.mem_singleton.mpr rfl
      have holds := Purse.opened_holds world.driver.purse (own ++ [account]) rates (by rw [found]; rfl)
      have below : ∀ other ∈ world.driver.runs, ∀ index, other.stage = .holding index →
          index < world.driver.spend.holds.length := fun other inside index same =>
        (funded.holding other inside index same).lt
      refine { opened with anchored := ?_, holding := ?_, apart := ?_, dispatched := ?_ }
      · intro index anchored
        refine ⟨(opened.anchored index anchored).1, fun other inside same => ?_⟩
        obtain ⟨old, earlier, rfl⟩ := List.mem_map.mp inside
        split at same
        · obtain rfl := RunStage.holding.inj same
          exact lt_irrefl _ (funded.anchored _ anchored).1.lt
        · exact (opened.anchored index anchored).2 old earlier same
      · intro other inside index same
        obtain ⟨old, earlier, rfl⟩ := List.mem_map.mp inside
        split at same
        · obtain rfl := RunStage.holding.inj same
          exact holds
        · exact opened.holding old earlier index same
      · intro first one second two index same other
        obtain ⟨old, earlier, rfl⟩ := List.mem_map.mp one
        obtain ⟨old', earlier', rfl⟩ := List.mem_map.mp two
        split at same
        · rename_i this
          obtain rfl := RunStage.holding.inj same
          split at other
          · rename_i that
            rw [if_pos this, if_pos that]
            exact this.trans that.symm
          · exact absurd (below old' earlier' _ other) (lt_irrefl _)
        · rename_i this
          split at other
          · obtain rfl := RunStage.holding.inj other
            exact absurd (below old earlier _ same) (lt_irrefl _)
          · rename_i that
            rw [if_neg this, if_neg that]
            exact opened.apart old earlier old' earlier' index same other
      · intro other inside accounts same
        obtain ⟨old, earlier, rfl⟩ := List.mem_map.mp inside
        split at same
        · cases same
        · exact opened.dispatched old earlier accounts same
  · cases stage

theorem runReleases_funded (funded : world.Funded budget) (stepped : world.runReleases id = some next) :
    next.Funded budget := by
  obtain ⟨found, held, rfl⟩ := Option.map_eq_some_iff.mp stepped
  obtain ⟨-, present, run, member, same, holds⟩ := holdOf_holds funded held
  have ended := withStage_light funded id .over Purse.light_over
  refine Purse.Funded.release ended present ?_ ?_
  · intro anchored
    exact (funded.anchored _ anchored).2 run member holds
  · intro other inside stage
    obtain ⟨old, earlier, rfl⟩ := List.mem_map.mp inside
    split at stage
    · cases stage
    · rename_i apart
      exact apart ((funded.apart old earlier run member found.1 stage holds).trans same)

/-- A run that settled leaves the driver to move on. -/
theorem Funded.settled (funded : world.Funded budget) (id : RunId) {after : Driver}
    (moved : (withoutRun world.driver id).purse.Moves after.purse) :
    after.purse.Funded world.spent budget := by
  have without : (withoutRun world.driver id).purse.Funded world.spent budget :=
    Purse.Funded.withRuns funded fun run member => .inl ⟨run, List.mem_of_mem_filter member, rfl, rfl⟩
  exact without.moves moved

/-- A step keeps the batch funded when its calls are covered and its seeds settled. -/
theorem step_funded (good : world.driver.view.Good) (funded : world.Funded budget) {action : DriverAction}
    (covered : world.callsCovered action) (settled : world.seedsSettled action)
    (stepped : world.step action = some next) : ∃ budget, next.Funded budget := by
  unfold callsCovered at covered
  unfold seedsSettled at settled
  unfold step at stepped
  cases event : action.event with
  | control request budgetUsd =>
      rw [event] at stepped settled
      cases stepped
      rcases Driver.control_purse good request budgetUsd with moved | ⟨reopens, opened⟩
      · exact ⟨budget, Purse.Funded.moves funded moved⟩
      · exact Purse.Funded.reopened funded opened fun gone => settled reopens (gone_of_balance gone)
  | runStarts id =>
      rw [event] at stepped
      exact ⟨budget, runStarts_funded funded stepped⟩
  | runOpens id own rates =>
      rw [event] at stepped settled
      refine ⟨budget, runOpens_funded funded stepped ?_⟩
      intro gone run found account member
      exact settled gone run found account member budget funded.budgeted
  | runChecks id call =>
      rw [event] at stepped
      obtain ⟨found, held, rfl⟩ := Option.map_eq_some_iff.mp stepped
      obtain ⟨holds, present, -⟩ := holdOf_holds funded held
      obtain ⟨hold, same, active, -⟩ := holds
      have same : found.2 = hold := Option.some.inj (present.symm.trans same)
      have checked : world.driver.purse.spend.step (.check found.1 call) =
          some (world.driver.spend.check found.1 found.2 call).1 := by
        rw [SpendBalances.step, show world.driver.purse.spend.holds[found.1]? = some found.2 from present,
          Option.bind_some, same, if_neg (by simp [active])]
        rfl
      exact ⟨budget, Purse.Funded.spend funded checked nofun nofun nofun⟩
  | runDebits id usage =>
      rw [event] at stepped covered
      obtain ⟨found, held, rfl⟩ := Option.map_eq_some_iff.mp stepped
      obtain ⟨holds, present, -⟩ := holdOf_holds funded held
      exact ⟨budget, Purse.Funded.debit funded holds present usage (covered found held)⟩
  | runReleases id =>
      rw [event] at stepped
      exact ⟨budget, runReleases_funded funded stepped⟩
  | runEnds id record =>
      rw [event] at stepped
      obtain ⟨run, -, rfl⟩ := Option.map_eq_some_iff.mp stepped
      exact ⟨budget, Funded.settled funded id (Driver.itemEnded_moves action.door run.index id record _)⟩
  | runRejects id error =>
      rw [event] at stepped
      obtain ⟨run, -, rfl⟩ := Option.map_eq_some_iff.mp stepped
      exact ⟨budget, Funded.settled funded id (Driver.itemRejected_moves action.door run.index id error _)⟩
  | retryTimer =>
      rw [event] at stepped
      dsimp only at stepped
      split at stepped
      · cases stepped
        exact ⟨budget, Purse.Funded.moves funded (Driver.pump_moves action.door world.driver.clearTimer)⟩
      · cases stepped
  | syncRun record =>
      rw [event] at stepped
      cases stepped
      exact ⟨budget, Purse.Funded.moves funded (world.driver.syncRun_moves record)⟩
  | stop =>
      rw [event] at stepped
      cases stepped
      obtain ⟨rests, moved, same⟩ := world.driver.stop_purse
      refine ⟨budget, ?_⟩
      change world.driver.stop.purse.Funded world.spent budget
      rw [same]
      exact { Purse.Funded.moves funded moved with }
  | boot files now =>
      rw [event] at stepped settled
      cases stepped
      have fresh := Purse.Funded.reset funded
      rcases Driver.boot_purse action.door files now world.driver with moved | ⟨running, moved⟩
      · exact ⟨budget, fresh.moves moved⟩
      · exact ⟨budget, (fresh.openAnchor fun _ => settled running).moves moved⟩

end World

variable {door : Door} {spec : NewBatch} {world : World}

/-- A new batch has spent nothing of its budget. -/
theorem create_funded (door : Door) {budget : ℚ} (budgeted : spec.budgetUsd = some budget) :
    World.Funded { driver := Driver.create door spec } budget := by
  let driver : Driver := { live := createBatch spec }
  have positive := spec.budgetPositive budget (by rw [budgeted]; rfl)
  have fresh : driver.purse.Funded 0 budget :=
    { budgeted := budgeted, balanced := SpendBalances.balanced_of_initial rfl, solvent := nofun, live := nofun
      within := positive.le, anchored := nofun, holding := nofun, apart := nofun, dispatched := nofun }
  exact (fresh.openAnchor fun _ => le_rfl).moves (Driver.activate_moves door driver)

/-- A batch of two items has ten dollars. -/
def tenDollars : NewBatch where
  id := "batch"
  workspaceId := "workspace"
  ownerId := "owner"
  inputs := 2
  concurrency := 2
  concurrencyPositive := by decide
  budgetUsd := some 10
  budgetPositive := by simp

/-- The queue is full for the second run that is asked for. -/
def fullOnce : Door where
  requestBatchRun run := if run = 1 then .refused .queueFull else .started
  withdrawQueuedRun _ := false
  cancelRunById _ := false

local instance million_atLeastTwo : Nat.AtLeastTwo 1000000 := inferInstance

/-- Each output token costs a dollar. -/
def dollarRates : UsageRates where
  base := { input := 0, output := 1000000, cacheRead := 0, cacheWrite5m := 0, cacheWrite1h := 0 }

/-- A run opens its account, and makes one call of six dollars. -/
def spendsSix (id : RunId) : List DriverAction :=
  [⟨.runOpens id [] (some dollarRates), fullOnce⟩, ⟨.runChecks id ⟨0, 6, 1⟩, fullOnce⟩,
    ⟨.runDebits id ⟨0, 6, none, none, none, none⟩, fullOnce⟩]

/-- The first run has spent six dollars and released its hold, and is still being assessed. A pause and a
resume seed the account with ten dollars again. -/
def seededTwice : List DriverAction :=
  spendsSix 0 ++ [⟨.runReleases 0, fullOnce⟩, ⟨.control .pause none, fullOnce⟩,
    ⟨.control .resume none, fullOnce⟩] ++ spendsSix 2

end NimbleBrain.Tasks
