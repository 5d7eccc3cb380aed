import NimbleBrain.Spend.Accounts

/- Runs that share an account spend at most its balance. -/

namespace NimbleBrain.Spend

open Library

theorem SpendCall.floor_nonneg (call : SpendCall) : 0 ≤ call.floor :=
  le_min (Int.natCast_nonneg _) (Int.natCast_nonneg _)

variable {allowed : ℤ}

/-- Output within a clamped allowance costs at most the amount available. -/
theorem projectedCost_le_of_clamp {unit : SpendUnit} {available : ℚ} {inputTokens : Nat} {rates : Option WorstRates}
    {clamped outputTokens : ℤ}
    (granted : (outputAllowance unit available inputTokens rates).clamp allowed = some clamped)
    (within : outputTokens ≤ clamped) :
    clamped ≤ allowed ∧ projectedCost unit inputTokens outputTokens rates ≤ available := by
  cases found : outputAllowance unit available inputTokens rates with
  | refused => simp [found, Allowance.clamp] at granted
  | unlimited =>
      rw [found, Allowance.clamp, Option.some.injEq] at granted
      exact ⟨granted.ge, projectedCost_le_of_unlimited found outputTokens⟩
  | upTo tokens =>
      rw [found, Allowance.clamp, Option.some.injEq] at granted
      subst granted
      exact ⟨min_le_left _ _, projectedCost_le_of_upTo found (within.trans (min_le_right _ _))⟩

/-- An allowed output fits every account beside the other reservations. -/
theorem clampEach_spec (call : SpendCall) (rates : Option WorstRates) (live : Table String Live) (ids : List String)
    (start : ℤ) (positive : 0 ≤ start) (granted : clampEach call rates live ids start = .allowed allowed) :
    0 ≤ allowed ∧ allowed ≤ start ∧ ∀ id ∈ ids, ∀ entry, live id = some entry →
      worstCase call rates allowed entry ≤ entry.balance - entry.reserved := by
  induction ids generalizing start with
  | nil =>
      rw [clampEach, SpendAnswer.allowed.injEq] at granted
      subst granted
      exact ⟨positive, le_rfl, fun _ member => absurd member List.not_mem_nil⟩
  | cons first rest ih =>
      rw [clampEach] at granted
      cases present : live first with
      | none => simp [present] at granted
      | some entry =>
          simp only [present] at granted
          cases clamp : (outputAllowance entry.unit (entry.balance - entry.reserved) call.inputTokens
              rates).clamp start with
          | none => simp [clamp] at granted
          | some clamped =>
              simp only [clamp] at granted
              split at granted
              · cases granted
              · rename_i enough
                have above : 0 ≤ clamped := call.floor_nonneg.trans (not_lt.mp enough)
                obtain ⟨nonneg, below, rest⟩ := ih clamped above granted
                obtain ⟨less, fits⟩ := projectedCost_le_of_clamp clamp below
                refine ⟨nonneg, below.trans less, ?_⟩
                intro id member other live'
                rcases List.mem_cons.mp member with same | later
                · rw [same, present, Option.some.injEq] at live'
                  exact live' ▸ fits
                · exact rest id later other live'

namespace SpendBalances

variable {balances : SpendBalances} {index : Nat} {hold : SpendHold}

/-- The reservation of an allowed call. -/
def reserve (balances : SpendBalances) (index : Nat) (hold : SpendHold) (call : SpendCall)
    (allowed : ℤ) : SpendBalances where
  live := reserveEach call hold.worst allowed hold.ids balances.live
  holds := balances.holds.set index
    { hold with reservation := reservations call hold.worst allowed hold.ids balances.live }

theorem check_eq (balances : SpendBalances) (index : Nat) (hold : SpendHold) (call : SpendCall) :
    (∃ accountId, balances.check index hold call =
        (balances.unreserve index hold, .refused accountId)) ∨
    ∃ allowed, clampEach call hold.worst (balances.unreserve index hold).live hold.ids
        call.maxOutputTokens = .allowed allowed ∧
      balances.check index hold call =
        ((balances.unreserve index hold).reserve index hold call allowed, .allowed allowed) := by
  unfold check
  cases answer : clampEach call hold.worst (balances.unreserve index hold).live hold.ids
      call.maxOutputTokens with
  | refused accountId => exact .inl ⟨accountId, by simp only [answer]⟩
  | allowed allowed => exact .inr ⟨allowed, rfl, by simp only [answer, reserve]⟩

theorem reserve_live (wellFormed : hold.WellFormed) (call : SpendCall) (allowed : ℤ) (id : String) :
    (balances.reserve index hold call allowed).live id =
      (balances.live id).map fun entry => { entry with reserved :=
        entry.reserved + if id ∈ hold.ids then worstCase call hold.worst allowed entry else 0 } := by
  refine (Table.alterEach_apply _ _ wellFormed.ids balances.live id).trans ?_
  split
  · rw [Option.map_eq_bind]
    rfl
  · cases balances.live id <;> simp

variable {allowed : ℤ} {entry : Live} {id : String} {after : SpendBalances} {current last : SpendHold}
  {other place : Nat} {action : Action}

theorem reserve_wellFormed (wellFormed : hold.WellFormed) (active : hold.released = false) (call : SpendCall)
    (positive : 0 ≤ allowed) (live : Table String Live) :
    SpendHold.WellFormed { hold with
      reservation := reservations call hold.worst allowed hold.ids live } where
  ids := wellFormed.ids
  keys := wellFormed.ids.sublist (reservations_keys call hold.worst allowed hold.ids live)
  own := fun _ member => (reservations_keys call hold.worst allowed hold.ids live).subset member
  nonneg := fun id => by
    rw [SpendHold.reservedOn, lookup_reservations]
    split
    · cases live id with
      | none => exact le_rfl
      | some entry => exact projectedCost_nonneg entry.unit call.inputTokens hold.worst positive
    · exact le_rfl
  ended := fun ended => by simp [active] at ended

/-- A reservation by a hold without one keeps the totals. -/
theorem Balanced.reserve (balanced : balances.Balanced) (found : balances.holds[index]? = some hold)
    (empty : hold.reservation = []) (active : hold.released = false) (call : SpendCall) (positive : 0 ≤ allowed) :
    (balances.reserve index hold call allowed).Balanced := by
  have wellFormed := balanced.wellFormed hold (List.mem_of_getElem? found)
  have sums : ∀ id entry, balances.live id = some entry →
      (balances.reserve index hold call allowed).outstanding id = balances.outstanding id +
        if id ∈ hold.ids then worstCase call hold.worst allowed entry else 0 := by
    intro id entry present
    rw [outstanding, SpendBalances.reserve, sum_map_set _ _ _ found, SpendHold.reservedOn, empty,
      List.lookup_nil, Option.getD_none, sub_zero, SpendHold.reservedOn, lookup_reservations, present]
    change balances.outstanding id + _ = _
    split <;> rfl
  refine ⟨?_, ?_, ?_, wellFormed_set balanced.wellFormed
    (reserve_wellFormed wellFormed active call positive balances.live)⟩
  · intro id entry live
    rw [reserve_live wellFormed, Option.map_eq_some_iff] at live
    obtain ⟨before, present, rfl⟩ := live
    rw [sums id before present, balanced.reserved id before present]
  · intro id
    have counted : (balances.reserve index hold call allowed).holdersOf id = balances.holdersOf id :=
      holdersOf_set found rfl
    rw [counted, reserve_live wellFormed, ← balanced.holders id]
    cases balances.live id <;> rfl
  · intro id entry live
    rw [reserve_live wellFormed, Option.map_eq_some_iff] at live
    obtain ⟨before, present, rfl⟩ := live
    exact balanced.lasting id before present

theorem unreserve_found (found : balances.holds[index]? = some hold) :
    (balances.unreserve index hold).holds[index]? = some { hold with reservation := [] } := by
  obtain ⟨bounded, -⟩ := List.getElem?_eq_some_iff.mp found
  rw [unreserve, List.getElem?_set_self bounded]

theorem Balanced.check (balanced : balances.Balanced) (found : balances.holds[index]? = some hold)
    (active : hold.released = false) (call : SpendCall) :
    (balances.check index hold call).1.Balanced := by
  rcases check_eq balances index hold call with ⟨accountId, same⟩ | ⟨allowed, granted, same⟩
  · rw [same]
    exact balanced.unreserve found
  · rw [same]
    obtain ⟨positive, -, -⟩ := clampEach_spec _ _ _ _ _ (Int.natCast_nonneg _) granted
    exact (balanced.unreserve found).reserve (unreserve_found found) rfl active call positive

/-- The release of a hold without a reservation. -/
def endHold (balances : SpendBalances) (index : Nat) (hold : SpendHold) : SpendBalances where
  live := releaseEach hold.ids balances.live
  holds := balances.holds.set index { hold with reservation := [], released := true }

theorem endHold_live (wellFormed : hold.WellFormed) (id : String) :
    (balances.endHold index hold).live id =
      if id ∈ hold.ids then
        (balances.live id).bind fun entry =>
          if entry.holders - 1 = 0 then none else some { entry with holders := entry.holders - 1 }
      else balances.live id :=
  Table.alterEach_apply _ _ wellFormed.ids balances.live id

/-- An entry that survives a release changes only its holders. -/
theorem endHold_entry (wellFormed : hold.WellFormed) (live : (balances.endHold index hold).live id = some entry) :
    ∃ before, balances.live id = some before ∧ (0 < before.holders → 0 < entry.holders) ∧
      entry = { before with holders := entry.holders } := by
  rw [endHold_live wellFormed] at live
  split at live
  · obtain ⟨before, present, kept⟩ := Option.bind_eq_some_iff.mp live
    split at kept
    · cases kept
    · rename_i more
      rw [Option.some.injEq] at kept
      subst kept
      exact ⟨before, present, fun _ => Nat.pos_of_ne_zero more, rfl⟩
  · exact ⟨entry, live, fun more => more, rfl⟩

theorem Balanced.endHold (balanced : balances.Balanced) (found : balances.holds[index]? = some hold)
    (empty : hold.reservation = []) (active : hold.released = false) :
    (balances.endHold index hold).Balanced := by
  have wellFormed := balanced.wellFormed hold (List.mem_of_getElem? found)
  refine ⟨?_, ?_, ?_, wellFormed_set balanced.wellFormed ?_⟩
  · intro id entry live
    obtain ⟨before, present, -, same⟩ := endHold_entry wellFormed live
    rw [same, outstanding, SpendBalances.endHold, sum_map_set _ _ _ found, reservedOn_nil,
      SpendHold.reservedOn, empty, List.lookup_nil, Option.getD_none, sub_zero, add_zero]
    exact balanced.reserved id before present
  · intro id
    have counted := countP_set_add (SpendHold.holdsOn id) balances.holds index found
      { hold with reservation := [], released := true }
    change (balances.endHold index hold).holdersOf id + _ = balances.holdersOf id + _ at counted
    rw [endHold_live wellFormed]
    have before := balanced.holders id
    by_cases member : id ∈ hold.ids
    · obtain ⟨entry, present, total⟩ := balanced.live_of_named found active member
      simp only [SpendHold.holdsOn, active, member, decide_true, Bool.not_true, Bool.not_false,
        Bool.and_true, Bool.false_eq_true, if_true, if_false] at counted
      rw [if_pos member, present, Option.bind_some]
      split
      · rw [Option.elim_none]
        omega
      · change entry.holders - 1 = _
        omega
    · simp only [SpendHold.holdsOn, member, decide_false, Bool.and_false, Bool.false_eq_true,
        if_false, Nat.add_zero] at counted
      rw [if_neg member, before, counted]
  · intro id entry live
    obtain ⟨before, present, more, -⟩ := endHold_entry wellFormed live
    exact more (balanced.lasting id before present)
  · exact { SpendHold_cleared wellFormed with ended := fun _ => rfl }

theorem Balanced.release (balanced : balances.Balanced) (found : balances.holds[index]? = some hold) :
    (balances.release index hold).Balanced := by
  unfold SpendBalances.release
  split
  · exact balanced
  · rename_i active
    have ended := (balanced.unreserve found).endHold (unreserve_found found) rfl (by simpa using active)
    exact ended

theorem Balanced.step (balanced : balances.Balanced) (action : Action) (stepped : balances.step action = some after) :
    after.Balanced := by
  cases action with
  | openAccounts accounts rates => exact Option.some.inj stepped ▸ balanced.openAccounts accounts rates
  | check index call =>
      obtain ⟨hold, found, kept⟩ := Option.bind_eq_some_iff.mp stepped
      simp only [Option.ite_none_left_eq_some, Option.some.injEq, Bool.not_eq_true] at kept
      exact kept.2 ▸ balanced.check found kept.1 call
  | debit index usage =>
      obtain ⟨hold, found, kept⟩ := Option.bind_eq_some_iff.mp stepped
      simp only [Option.ite_none_left_eq_some, Option.some.injEq] at kept
      exact kept.2 ▸ balanced.debit found usage
  | release index =>
      obtain ⟨hold, found, rfl⟩ := Option.map_eq_some_iff.mp stepped
      exact balanced.release found

theorem holds_set (new : SpendHold) (found : balances.holds[index]? = some hold)
    (present : balances.holds[other]? = some current) (ids : new.ids = hold.ids)
    (released : new.released = hold.released) :
    ∃ next, (balances.holds.set index new)[other]? = some next ∧ next.ids = current.ids ∧
      next.released = current.released := by
  by_cases same : other = index
  · subst same
    rw [found, Option.some.injEq] at present
    subst present
    have within := (List.getElem?_eq_some_iff.mp found).1
    exact ⟨new, List.getElem?_set_self within, ids, released⟩
  · exact ⟨current, by rw [List.getElem?_set_ne (Ne.symm same), present], rfl, rfl⟩

/-- A step keeps the accounts of every hold. It releases at most the hold it names. -/
theorem step_holds (stepped : balances.step action = some after) (present : balances.holds[other]? = some current)
    (kept : action ≠ .release other) :
    ∃ next, after.holds[other]? = some next ∧ next.ids = current.ids ∧
      next.released = current.released := by
  cases action with
  | openAccounts accounts rates =>
      rw [← Option.some.inj stepped]
      have within := (List.getElem?_eq_some_iff.mp present).1
      refine ⟨current, ?_, rfl, rfl⟩
      rw [openAccounts, List.getElem?_append_left within, present]
  | check index call =>
      obtain ⟨hold, found, more⟩ := Option.bind_eq_some_iff.mp stepped
      simp only [Option.ite_none_left_eq_some, Option.some.injEq] at more
      rw [← more.2]
      rcases check_eq balances index hold call with ⟨accountId, same⟩ | ⟨allowed, -, same⟩
      · rw [same]
        exact holds_set _ found present rfl rfl
      · rw [same]
        obtain ⟨middle, here, ids, released⟩ :=
          holds_set { hold with reservation := [] } found present rfl rfl
        obtain ⟨next, there, laterIds, laterReleased⟩ := holds_set { hold with
          reservation := reservations call hold.worst allowed hold.ids (balances.unreserve index hold).live }
          (unreserve_found found) here rfl rfl
        exact ⟨next, there, laterIds.trans ids, laterReleased.trans released⟩
  | debit index usage =>
      obtain ⟨hold, found, more⟩ := Option.bind_eq_some_iff.mp stepped
      simp only [Option.ite_none_left_eq_some, Option.some.injEq] at more
      rw [← more.2]
      exact holds_set _ found present rfl rfl
  | release index =>
      obtain ⟨hold, found, rfl⟩ := Option.map_eq_some_iff.mp stepped
      have apart : index ≠ other := fun same => kept (by rw [same])
      unfold release
      split
      · exact ⟨current, present, rfl, rfl⟩
      · refine ⟨current, ?_, rfl, rfl⟩
        simp only [unreserve]
        rw [List.getElem?_set_ne apart, List.getElem?_set_ne apart, present]

theorem set_hold {new : SpendHold} (found : balances.holds[index]? = some hold)
    (present : (balances.holds.set index new)[place]? = some last) (ids : new.ids = hold.ids)
    (ended : hold.released = true → new.released = true) :
    ∃ before, balances.holds[place]? = some before ∧ last.ids = before.ids ∧
      (before.released = true → last.released = true) := by
  by_cases same : place = index
  · subst same
    rw [List.getElem?_set_self (List.getElem?_eq_some_iff.mp found).1, Option.some.injEq] at present
    exact present ▸ ⟨hold, found, ids, ended⟩
  · rw [List.getElem?_set_ne (Ne.symm same)] at present
    exact ⟨last, present, rfl, id⟩

/-- A hold after a step keeps its accounts, and stays released. -/
theorem step_hold (stepped : balances.step action = some after)
    (kept : ∀ accounts rates, action ≠ .openAccounts accounts rates) (present : after.holds[place]? = some last) :
    ∃ before, balances.holds[place]? = some before ∧ last.ids = before.ids ∧
      (before.released = true → last.released = true) := by
  cases action with
  | openAccounts accounts rates => exact absurd rfl (kept accounts rates)
  | check index call =>
      obtain ⟨hold, found, more⟩ := Option.bind_eq_some_iff.mp stepped
      simp only [Option.ite_none_left_eq_some, Option.some.injEq] at more
      rw [← more.2] at present
      rcases check_eq balances index hold call with ⟨accountId, same⟩ | ⟨allowed, -, same⟩
      · rw [same] at present
        exact set_hold found present rfl id
      · rw [same] at present
        obtain ⟨middle, there, ids, ended⟩ := set_hold (unreserve_found found) present rfl id
        obtain ⟨before, here, first, earlier⟩ := set_hold found there rfl id
        exact ⟨before, here, ids.trans first, ended ∘ earlier⟩
  | debit index usage =>
      obtain ⟨hold, found, more⟩ := Option.bind_eq_some_iff.mp stepped
      simp only [Option.ite_none_left_eq_some, Option.some.injEq] at more
      rw [← more.2] at present
      exact set_hold found present rfl id
  | release index =>
      obtain ⟨hold, found, rfl⟩ := Option.map_eq_some_iff.mp stepped
      unfold release at present
      split at present
      · exact ⟨last, present, rfl, id⟩
      · obtain ⟨middle, there, ids, ended⟩ := set_hold (unreserve_found found) present rfl fun _ => rfl
        obtain ⟨before, here, first, earlier⟩ := set_hold found there rfl id
        exact ⟨before, here, ids.trans first, ended ∘ earlier⟩

theorem step_length (stepped : balances.step action = some after)
    (kept : ∀ accounts rates, action ≠ .openAccounts accounts rates) :
    after.holds.length = balances.holds.length := by
  cases action with
  | openAccounts accounts rates => exact absurd rfl (kept accounts rates)
  | check index call =>
      obtain ⟨hold, -, more⟩ := Option.bind_eq_some_iff.mp stepped
      simp only [Option.ite_none_left_eq_some, Option.some.injEq] at more
      rw [← more.2]
      rcases check_eq balances index hold call with ⟨accountId, same⟩ | ⟨allowed, -, same⟩ <;>
        simp [same, reserve, unreserve]
  | debit index usage =>
      obtain ⟨hold, -, more⟩ := Option.bind_eq_some_iff.mp stepped
      simp only [Option.ite_none_left_eq_some, Option.some.injEq] at more
      simp [← more.2, debit, unreserve]
  | release index =>
      obtain ⟨hold, -, rfl⟩ := Option.map_eq_some_iff.mp stepped
      unfold release
      split <;> simp [unreserve]

/-- An entry that survives a step keeps its unit. Its balance moves by what a debit charges it. -/
theorem step_entry (balanced : balances.Balanced) (stepped : balances.step action = some after)
    (live : after.live id = some entry) :
    (∃ before, balances.live id = some before ∧ entry.unit = before.unit ∧
      entry.balance = before.balance - (match action with
        | .debit index usage => (balances.holds[index]?).elim 0 fun hold =>
            if id ∈ hold.ids then spendIn before.unit usage hold.rates else 0
        | _ => 0)) ∨
    ∃ accounts rates account, action = .openAccounts accounts rates ∧ balances.live id = none ∧
      named accounts id = some account ∧ entry.unit = account.unit ∧ entry.balance = account.remaining := by
  cases action with
  | openAccounts accounts rates =>
      rw [← Option.some.inj stepped, openAccounts_live] at live
      cases account : named accounts id with
      | none =>
          rw [account] at live
          exact .inl ⟨entry, live, rfl, by simp⟩
      | some account' =>
          rw [account, Option.elim_some, Option.some.injEq] at live
          subst live
          cases present : balances.live id with
          | none => exact .inr ⟨accounts, rates, account', rfl, rfl, account, rfl, rfl⟩
          | some before => exact .inl ⟨before, rfl, rfl, by simp [join]⟩
  | check index call =>
      obtain ⟨hold, found, more⟩ := Option.bind_eq_some_iff.mp stepped
      simp only [Option.ite_none_left_eq_some, Option.some.injEq] at more
      rw [← more.2] at live
      have wellFormed := balanced.wellFormed hold (List.mem_of_getElem? found)
      have cleared : ∀ entry, (balances.unreserve index hold).live id = some entry →
          ∃ before, balances.live id = some before ∧ entry.unit = before.unit ∧
            entry.balance = before.balance := by
        intro entry live
        rw [unreserve_live wellFormed, Option.map_eq_some_iff] at live
        obtain ⟨before, present, rfl⟩ := live
        exact ⟨before, present, rfl, rfl⟩
      refine .inl ?_
      rcases check_eq balances index hold call with ⟨accountId, same⟩ | ⟨allowed, -, same⟩
      · rw [same] at live
        obtain ⟨before, present, unit, balance⟩ := cleared entry live
        exact ⟨before, present, unit, by simpa using balance⟩
      · rw [same, reserve_live wellFormed, Option.map_eq_some_iff] at live
        obtain ⟨middle, present, rfl⟩ := live
        obtain ⟨before, present, unit, balance⟩ := cleared middle present
        exact ⟨before, present, unit, by simpa using balance⟩
  | debit index usage =>
      obtain ⟨hold, found, more⟩ := Option.bind_eq_some_iff.mp stepped
      simp only [Option.ite_none_left_eq_some, Option.some.injEq] at more
      rw [← more.2] at live
      have wellFormed := balanced.wellFormed hold (List.mem_of_getElem? found)
      rw [debit_live wellFormed, unreserve_live wellFormed, Option.map_map, Option.map_eq_some_iff] at live
      obtain ⟨before, present, rfl⟩ := live
      exact .inl ⟨before, present, rfl, by simp [found]⟩
  | release index =>
      obtain ⟨hold, found, rfl⟩ := Option.map_eq_some_iff.mp stepped
      have wellFormed := balanced.wellFormed hold (List.mem_of_getElem? found)
      unfold release at live
      split at live
      · exact .inl ⟨entry, live, rfl, by simp⟩
      · obtain ⟨middle, present, -, same⟩ := endHold_entry wellFormed live
        rw [unreserve_live wellFormed, Option.map_eq_some_iff] at present
        obtain ⟨before, present, rfl⟩ := present
        exact .inl ⟨before, present, by rw [same], by rw [same]; simp⟩

theorem balanced_of_initial (first : spendBalances.initial balances) : balances.Balanced := by
  cases first
  exact ⟨fun _ _ live => by simp at live, fun _ => rfl, fun _ _ live => by simp at live,
    fun _ member => by simp at member⟩

theorem balanced_of_reachable (reached : spendBalances.Reachable balances) : balances.Balanced :=
  reached.invariant _ (fun _ => balanced_of_initial) fun _ action _ balanced => balanced.step action

/-- The account covers every call in flight. -/
def Solvent (id : String) (balances : SpendBalances) : Prop :=
  ∀ entry, balances.live id = some entry → 0 ≤ entry.balance - entry.reserved

/-- The account opens with an amount that is not negative. No call costs it more than was reserved. -/
def coveredOn (id : String) : System.Guard SpendBalances Action := fun balances action =>
  match action with
  | .openAccounts accounts _ =>
      balances.live id = none → ∀ account ∈ named accounts id, 0 ≤ account.remaining
  | .debit index usage => ∀ hold ∈ balances.holds[index]?, id ∈ hold.ids →
      ∀ entry ∈ balances.live id, spendIn entry.unit usage hold.rates ≤ hold.reservedOn id
  | _ => True

theorem Solvent.unreserve (solvent : Solvent id balances) (wellFormed : hold.WellFormed) :
    ∀ entry, (balances.unreserve index hold).live id = some entry →
      hold.reservedOn id ≤ entry.balance - entry.reserved := by
  intro entry live
  rw [unreserve_live wellFormed, Option.map_eq_some_iff] at live
  obtain ⟨before, present, rfl⟩ := live
  have kept := solvent before present
  simp only
  linarith

theorem Solvent.cleared (solvent : Solvent id balances) (wellFormed : hold.WellFormed) :
    Solvent id (balances.unreserve index hold) :=
  fun entry live => (wellFormed.nonneg id).trans (solvent.unreserve wellFormed entry live)

/-- A covered step keeps the account solvent. -/
theorem Solvent.step (solvent : Solvent id balances) (balanced : balances.Balanced)
    (covered : coveredOn id balances action) (stepped : balances.step action = some after) : Solvent id after := by
  cases action with
  | openAccounts accounts rates =>
      rw [← Option.some.inj stepped]
      intro entry live
      rw [openAccounts_live] at live
      cases account : named accounts id with
      | none => exact solvent entry (by rwa [account] at live)
      | some account' =>
          rw [account, Option.elim_some, Option.some.injEq] at live
          subst live
          cases present : balances.live id with
          | none => simpa [join] using covered present account' account
          | some before => exact solvent before present
  | check index call =>
      obtain ⟨hold, found, kept⟩ := Option.bind_eq_some_iff.mp stepped
      simp only [Option.ite_none_left_eq_some, Option.some.injEq] at kept
      rw [← kept.2]
      have wellFormed := balanced.wellFormed hold (List.mem_of_getElem? found)
      have cleared : Solvent id (balances.unreserve index hold) := solvent.cleared wellFormed
      rcases check_eq balances index hold call with ⟨accountId, same⟩ | ⟨allowed, granted, same⟩
      · rw [same]
        exact cleared
      · rw [same]
        obtain ⟨-, -, fits⟩ := clampEach_spec _ _ _ _ _ (Int.natCast_nonneg _) granted
        intro entry live
        rw [reserve_live wellFormed, Option.map_eq_some_iff] at live
        obtain ⟨before, present, rfl⟩ := live
        simp only
        split
        · rename_i member
          have := fits id member before present
          linarith
        · have := cleared before present
          linarith
  | debit index usage =>
      obtain ⟨hold, found, kept⟩ := Option.bind_eq_some_iff.mp stepped
      simp only [Option.ite_none_left_eq_some, Option.some.injEq] at kept
      rw [← kept.2]
      have wellFormed := balanced.wellFormed hold (List.mem_of_getElem? found)
      intro entry live
      rw [debit_live wellFormed, Option.map_eq_some_iff] at live
      obtain ⟨before, present, rfl⟩ := live
      have room := solvent.unreserve wellFormed before present
      have nonneg := wellFormed.nonneg id
      rw [unreserve_live wellFormed, Option.map_eq_some_iff] at present
      obtain ⟨first, live, rfl⟩ := present
      simp only at room ⊢
      split
      · rename_i member
        have cost := covered hold found member first live
        linarith
      · linarith
  | release index =>
      obtain ⟨hold, found, rfl⟩ := Option.map_eq_some_iff.mp stepped
      have wellFormed := balanced.wellFormed hold (List.mem_of_getElem? found)
      unfold SpendBalances.release
      split
      · exact solvent
      · intro entry live
        obtain ⟨before, present, -, same⟩ := endHold_entry wellFormed live
        rw [same]
        exact solvent.cleared wellFormed before present

theorem solvent_of_reached (reached : spendBalances.ReachedBy (coveredOn id) balances) :
    Solvent id balances := by
  have both : balances.Balanced ∧ Solvent id balances := by
    refine reached.invariant (fun state => state.Balanced ∧ Solvent id state) (fun first start => ?_) ?_
    · exact ⟨balanced_of_initial start, by cases start; exact fun _ live => by simp at live⟩
    · intro before action after kept covered stepped
      exact ⟨kept.1.step action stepped, kept.2.step kept.1 covered stepped⟩
  exact both.2

end SpendBalances

/-- Two runs draw on one balance of ten output tokens. The second is clamped to what is left. -/
def sharedTokens : List Action :=
  [.openAccounts [⟨"tokens", .outputTokens, 10⟩] none,
    .openAccounts [⟨"tokens", .outputTokens, 99⟩, ⟨"tokens", .usd, 1⟩] none,
    .check 0 ⟨3, 6, 1⟩, .check 1 ⟨3, 6, 1⟩, .debit 0 ⟨3, 2, none, none, none, none⟩, .release 0]

end NimbleBrain.Spend
