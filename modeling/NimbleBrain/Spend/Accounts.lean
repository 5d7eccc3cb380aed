import NimbleBrain.Spend.Balances

/- Every live balance agrees with the holds that name it. -/

namespace NimbleBrain.Spend

open Library

/-- The first of the accounts with an identifier sets the terms. -/
def named (accounts : List SpendAccount) (id : String) : Option SpendAccount :=
  accounts.find? fun account => account.id = id

theorem openEach_nodup (accounts : List SpendAccount) (ids : List String) (live : Table String Live)
    (distinct : ids.Nodup) : (openEach accounts ids live).1.Nodup := by
  induction accounts generalizing ids live with
  | nil => exact distinct
  | cons account rest ih =>
      rw [openEach]
      split
      · exact ih ids live distinct
      · rename_i fresh
        apply ih
        rw [List.nodup_append]
        refine ⟨distinct, List.nodup_singleton _, ?_⟩
        intro id before other added same
        exact fresh (List.mem_singleton.mp added ▸ same ▸ before)

theorem mem_openEach (accounts : List SpendAccount) (ids : List String) (live : Table String Live) (id : String) :
    id ∈ (openEach accounts ids live).1 ↔ id ∈ ids ∨ (named accounts id).isSome := by
  induction accounts generalizing ids live with
  | nil => simp [openEach, named]
  | cons account rest ih =>
      rw [openEach]
      by_cases same : account.id = id
      · have found : (named (account :: rest) id).isSome := by simp [named, same]
        split
        · rename_i present
          rw [ih]
          simp [found, same ▸ present]
        · rw [ih]
          simp [found, same]
      · have skipped : named (account :: rest) id = named rest id := by simp [named, same]
        rw [skipped]
        split
        · rw [ih]
        · rw [ih]
          simp [Ne.symm same]

/-- Each account is joined once, on the terms of its first mention. -/
theorem openEach_live (accounts : List SpendAccount) (ids : List String) (live : Table String Live) (id : String) :
    (openEach accounts ids live).2 id =
      if id ∈ ids then live id
      else (named accounts id).elim (live id) fun account => some (join account (live id)) := by
  induction accounts generalizing ids live with
  | nil => simp [openEach, named]
  | cons account rest ih =>
      rw [openEach]
      by_cases same : account.id = id
      · have found : named (account :: rest) id = some account := by simp [named, same]
        rw [found]
        split
        · rename_i present
          rw [ih, if_pos (same ▸ present), if_pos (same ▸ present)]
        · rename_i fresh
          rw [ih, if_pos (by simp [same]), if_neg (same ▸ fresh), ← same]
          simp
      · have skipped : named (account :: rest) id = named rest id := by simp [named, same]
        rw [skipped]
        split
        · rw [ih]
        · rw [ih, Function.update_of_ne (Ne.symm same)]
          simp [Ne.symm same]

/-- A hold reserves at most once on each of its own accounts, and nothing after its release. -/
structure SpendHold.WellFormed (hold : SpendHold) : Prop where
  ids : hold.ids.Nodup
  keys : (hold.reservation.map Prod.fst).Nodup
  own : ∀ id ∈ hold.reservation.map Prod.fst, id ∈ hold.ids
  nonneg : ∀ id, 0 ≤ hold.reservedOn id
  ended : hold.released = true → hold.reservation = []

theorem reservedOn_nil (ids : List String) (rates : Option UsageRates) (released : Bool) (id : String) :
    SpendHold.reservedOn ⟨ids, rates, [], released⟩ id = 0 := rfl

theorem SpendHold.reservedOn_eq_zero {hold : SpendHold} {id : String} (absent : id ∉ hold.reservation.map Prod.fst) :
    hold.reservedOn id = 0 := by
  have missing : hold.reservation.lookup id = none := by
    rw [List.lookup_eq_none_iff]
    intro pair member
    have apart : id ≠ pair.1 := fun same => absent (same ▸ List.mem_map_of_mem member)
    simpa using apart
  rw [reservedOn, missing, Option.getD_none]

theorem reservations_cons (call : SpendCall) (rates : Option WorstRates) (allowed : ℤ) (first : String)
    (rest : List String) (live : Table String Live) :
    reservations call rates allowed (first :: rest) live =
      ((live first).map fun entry => (first, worstCase call rates allowed entry)).toList ++
        reservations call rates allowed rest live := by
  cases found : live first <;> simp [reservations, found]

theorem lookup_reservations (call : SpendCall) (rates : Option WorstRates) (allowed : ℤ) (ids : List String)
    (live : Table String Live) (id : String) :
    (reservations call rates allowed ids live).lookup id =
      if id ∈ ids then (live id).map (worstCase call rates allowed) else none := by
  induction ids with
  | nil => rfl
  | cons first rest ih =>
      rw [reservations_cons]
      by_cases same : id = first
      · subst same
        cases found : live id with
        | none => simp [ih, found]
        | some entry => simp
      · have apart : (id == first) = false := by simpa using same
        cases found : live first with
        | none => simp [ih, same]
        | some entry => simp [List.lookup_cons, apart, ih, same]

/-- The keys of the reservations are those named accounts that are live. -/
theorem reservations_keys (call : SpendCall) (rates : Option WorstRates) (allowed : ℤ) (ids : List String)
    (live : Table String Live) :
    ((reservations call rates allowed ids live).map Prod.fst).Sublist ids := by
  induction ids with
  | nil => exact List.Sublist.refl []
  | cons first rest ih =>
      rw [reservations_cons]
      cases live first with
      | none => exact ih.cons first
      | some entry => exact ih.cons_cons first

/-- A hold counts for the accounts it names until its release. -/
def SpendHold.holdsOn (id : String) (hold : SpendHold) : Bool :=
  !hold.released && decide (id ∈ hold.ids)

namespace SpendBalances

/-- The sum of what all holds have reserved on the account. -/
def outstanding (balances : SpendBalances) (id : String) : ℚ :=
  (balances.holds.map (·.reservedOn id)).sum

def holdersOf (balances : SpendBalances) (id : String) : Nat :=
  balances.holds.countP (SpendHold.holdsOn id)

/-- The live entries state the totals of the holds. -/
structure Balanced (balances : SpendBalances) : Prop where
  reserved : ∀ id entry, balances.live id = some entry → entry.reserved = balances.outstanding id
  holders : ∀ id, (balances.live id).elim 0 (·.holders) = balances.holdersOf id
  lasting : ∀ id entry, balances.live id = some entry → 0 < entry.holders
  wellFormed : ∀ hold ∈ balances.holds, hold.WellFormed

variable {balances : SpendBalances} {index : Nat} {hold : SpendHold}

variable {id : String} {new : SpendHold}

theorem Balanced.outstanding_eq_zero (balanced : balances.Balanced) (absent : balances.live id = none) :
    balances.outstanding id = 0 := by
  have none : balances.holdersOf id = 0 := by rw [← balanced.holders id, absent, Option.elim_none]
  apply List.sum_eq_zero
  intro amount member
  obtain ⟨hold, inside, rfl⟩ := List.mem_map.mp member
  have wellFormed := balanced.wellFormed hold inside
  apply SpendHold.reservedOn_eq_zero
  intro key
  have idle := List.countP_eq_zero.mp none hold inside
  simp only [SpendHold.holdsOn, Bool.and_eq_true, Bool.not_eq_true', decide_eq_true_eq, not_and] at idle
  have ended : hold.released = true := by
    by_contra active
    exact idle (by simpa using active) (wellFormed.own id key)
  rw [wellFormed.ended ended] at key
  simp at key

theorem Balanced.outstanding_nonneg (balanced : balances.Balanced) (id : String) :
    0 ≤ balances.outstanding id := by
  apply List.sum_nonneg
  intro amount member
  obtain ⟨hold, inside, rfl⟩ := List.mem_map.mp member
  exact (balanced.wellFormed hold inside).nonneg id

/-- A hold that is not released finds every account it names. -/
theorem Balanced.live_of_named (balanced : balances.Balanced) (found : balances.holds[index]? = some hold)
    (active : hold.released = false) (member : id ∈ hold.ids) :
    ∃ entry, balances.live id = some entry ∧ entry.holders = balances.holdersOf id := by
  have counted : 0 < balances.holdersOf id := by
    apply List.countP_pos_iff.mpr
    exact ⟨hold, List.mem_of_getElem? found, by simp [SpendHold.holdsOn, active, member]⟩
  have total := balanced.holders id
  cases entry : balances.live id with
  | none =>
      rw [entry, Option.elim_none] at total
      omega
  | some entry' =>
      rw [entry, Option.elim_some] at total
      exact ⟨entry', rfl, total⟩

theorem SpendHold_cleared (wellFormed : hold.WellFormed) :
    SpendHold.WellFormed { hold with reservation := [] } where
  ids := wellFormed.ids
  keys := List.nodup_nil
  own := fun _ member => by simp at member
  nonneg := fun _ => le_rfl
  ended := fun _ => rfl

theorem wellFormed_set (all : ∀ hold ∈ balances.holds, hold.WellFormed) (wellFormed : new.WellFormed) :
    ∀ hold ∈ balances.holds.set index new, hold.WellFormed := by
  intro other member
  rcases List.mem_or_eq_of_mem_set member with earlier | same
  · exact all other earlier
  · exact same ▸ wellFormed

theorem unreserve_live (wellFormed : hold.WellFormed) (id : String) :
    (balances.unreserve index hold).live id =
      (balances.live id).map fun entry =>
        { entry with reserved := entry.reserved - hold.reservedOn id } := by
  refine (Table.alterEach_apply _ _ wellFormed.keys balances.live id).trans ?_
  split
  · rw [Option.map_eq_bind]
    rfl
  · rename_i absent
    rw [SpendHold.reservedOn_eq_zero absent]
    cases balances.live id <;> simp

theorem holdersOf_set (found : balances.holds[index]? = some hold) (same : new.holdsOn id = hold.holdsOn id) :
    (balances.holds.set index new).countP (SpendHold.holdsOn id) = balances.holdersOf id := by
  have counted := countP_set_add (SpendHold.holdsOn id) balances.holds index found new
  rw [same] at counted
  exact Nat.add_right_cancel counted

/-- Giving a reservation back keeps the totals. -/
theorem Balanced.unreserve (balanced : balances.Balanced) (found : balances.holds[index]? = some hold) :
    (balances.unreserve index hold).Balanced := by
  have wellFormed := balanced.wellFormed hold (List.mem_of_getElem? found)
  have sums : ∀ id, (balances.unreserve index hold).outstanding id =
      balances.outstanding id - hold.reservedOn id := by
    intro id
    rw [outstanding, SpendBalances.unreserve, sum_map_set _ _ _ found, reservedOn_nil, add_zero]
    rfl
  refine ⟨?_, ?_, ?_, wellFormed_set balanced.wellFormed (SpendHold_cleared wellFormed)⟩
  · intro id entry live
    rw [unreserve_live wellFormed, Option.map_eq_some_iff] at live
    obtain ⟨before, present, rfl⟩ := live
    rw [sums, balanced.reserved id before present]
  · intro id
    rw [unreserve_live wellFormed]
    have counted : (balances.unreserve index hold).holdersOf id = balances.holdersOf id :=
      holdersOf_set found rfl
    rw [counted, ← balanced.holders id]
    cases balances.live id <;> rfl
  · intro id entry live
    rw [unreserve_live wellFormed, Option.map_eq_some_iff] at live
    obtain ⟨before, present, rfl⟩ := live
    exact balanced.lasting id before present

theorem openAccounts_live (balances : SpendBalances) (accounts : List SpendAccount) (rates : Option UsageRates)
    (id : String) :
    (balances.openAccounts accounts rates).live id =
      (named accounts id).elim (balances.live id) fun account =>
        some (join account (balances.live id)) := by
  refine (openEach_live accounts [] balances.live id).trans ?_
  rw [if_neg List.not_mem_nil]

theorem openAccounts_outstanding (balances : SpendBalances) (accounts : List SpendAccount)
    (rates : Option UsageRates) (id : String) :
    (balances.openAccounts accounts rates).outstanding id = balances.outstanding id := by
  simp only [outstanding, openAccounts, List.map_append, List.sum_append, List.map_cons, List.map_nil,
    List.sum_cons, List.sum_nil, reservedOn_nil, add_zero]

/-- An opened hold starts without a reservation and counts for each account it names. -/
theorem Balanced.openAccounts (balanced : balances.Balanced) (accounts : List SpendAccount)
    (rates : Option UsageRates) : (balances.openAccounts accounts rates).Balanced := by
  refine ⟨?_, ?_, ?_, ?_⟩
  · intro id entry live
    rw [openAccounts_outstanding]
    rw [openAccounts_live] at live
    cases account : named accounts id with
    | none => exact balanced.reserved id entry (by rwa [account] at live)
    | some account' =>
        rw [account, Option.elim_some, Option.some.injEq] at live
        subst live
        cases present : balances.live id with
        | none => exact (balanced.outstanding_eq_zero present).symm
        | some before => exact balanced.reserved id before present
  · intro id
    have member := mem_openEach accounts [] balances.live id
    rw [openAccounts_live, holdersOf, SpendBalances.openAccounts, List.countP_append]
    change _ = balances.holdersOf id + _
    rw [← balanced.holders id, List.countP_singleton]
    cases account : named accounts id with
    | none => simp [SpendHold.holdsOn, member, account]
    | some account' =>
        cases balances.live id <;> simp [SpendHold.holdsOn, member, account, join]
  · intro id entry live
    rw [openAccounts_live] at live
    cases account : named accounts id with
    | none => exact balanced.lasting id entry (by rwa [account] at live)
    | some account' =>
        rw [account, Option.elim_some, Option.some.injEq] at live
        subst live
        cases balances.live id <;> simp [join]
  · intro other member
    rcases List.mem_append.mp member with earlier | last
    · exact balanced.wellFormed other earlier
    · rw [List.mem_singleton.mp last]
      exact {
        ids := openEach_nodup accounts [] balances.live List.nodup_nil
        keys := List.nodup_nil
        own := fun _ inside => by simp at inside
        nonneg := fun _ => le_rfl
        ended := fun _ => rfl }

theorem debit_live (wellFormed : hold.WellFormed) (usage : TokenUsage) (id : String) :
    (balances.debit index hold usage).live id =
      ((balances.unreserve index hold).live id).map fun entry =>
        { entry with balance :=
            entry.balance - if id ∈ hold.ids then spendIn entry.unit usage hold.rates else 0 } := by
  refine (Table.alterEach_apply _ _ wellFormed.ids (balances.unreserve index hold).live id).trans ?_
  split
  · rw [Option.map_eq_bind]
    rfl
  · cases (balances.unreserve index hold).live id <;> simp

theorem Balanced.debit (balanced : balances.Balanced) (found : balances.holds[index]? = some hold)
    (usage : TokenUsage) : (balances.debit index hold usage).Balanced := by
  have wellFormed := balanced.wellFormed hold (List.mem_of_getElem? found)
  have cleared := balanced.unreserve found
  refine ⟨?_, ?_, ?_, cleared.wellFormed⟩
  · intro id entry live
    rw [debit_live wellFormed, Option.map_eq_some_iff] at live
    obtain ⟨before, present, rfl⟩ := live
    exact cleared.reserved id before present
  · intro id
    rw [debit_live wellFormed]
    refine Eq.trans ?_ (cleared.holders id)
    cases (balances.unreserve index hold).live id <;> rfl
  · intro id entry live
    rw [debit_live wellFormed, Option.map_eq_some_iff] at live
    obtain ⟨before, present, rfl⟩ := live
    exact cleared.lasting id before present

end SpendBalances

end NimbleBrain.Spend
