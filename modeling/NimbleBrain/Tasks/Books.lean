import NimbleBrain.Tasks.DriverRuns

/- The books of a batch are its items, its totals, and the runs it waits for. -/

namespace NimbleBrain.Tasks

/-- The books leave out everything that only steers the driver. -/
structure Books where
  items : List BatchItem
  counts : BatchCounts
  costUsd : ℚ
  concurrency : Nat
  pending : List Nat
  outstanding : List Nat
  openRuns : List (RunId × Nat)
  asked : RunId

def Driver.books (driver : Driver) : Books where
  items := driver.live.items
  counts := driver.live.batch.counts
  costUsd := driver.live.batch.costUsd
  concurrency := driver.live.batch.concurrency
  pending := driver.live.pending
  outstanding := driver.live.outstanding
  openRuns := driver.runs.map fun run => (run.id, run.index)
  asked := driver.asked

namespace Books

def replace (books : Books) (index : Nat) (prev next : BatchItem) : Books :=
  { books with
    items := books.items.set index next
    counts := (books.counts.add (bucketOf prev) (-1)).add (bucketOf next) 1
    costUsd := books.costUsd + (next.cost - prev.cost) }

/-- The totals are those of the items, and each item knows its place. -/
structure Booked (books : Books) : Prop where
  counts : books.counts = countItems books.items
  cost : books.costUsd = sumCost books.items
  indexed : ∀ (i : Nat) (item : BatchItem), books.items[i]? = some item → item.index = i

def unsettledAt (books : Books) (i : Nat) : Prop :=
  ∃ item, books.items[i]? = some item ∧ isUnsettled item = true

/-- Each unsettled item outside the gap has one open run, which is its current one. -/
structure Tracked (gap : Option Nat) (books : Books) : Prop where
  current : ∀ i, i ∈ books.outstanding ↔ gap ≠ some i ∧ books.unsettledAt i
  matched : books.openRuns.map Prod.snd = books.outstanding
  owner : ∀ run ∈ books.openRuns, ∃ item, books.items[run.2]? = some item ∧ item.runId = some run.1
  distinct : books.outstanding.Nodup
  unique : (books.openRuns.map Prod.fst).Nodup
  fresh : ∀ run ∈ books.openRuns, run.1 < books.asked
  bounded : books.outstanding.length ≤ books.concurrency
  positive : 0 < books.concurrency

structure Sound (gap : Option Nat) (books : Books) : Prop extends Booked books, Tracked gap books

/-- Every pending item is in line. -/
def Listed (books : Books) : Prop :=
  ∀ (i : Nat) (item : BatchItem), books.items[i]? = some item → item.state = .pending →
    i ∈ books.pending

variable {books : Books} {index : Nat} {prev next : BatchItem} {gap : Option Nat}

theorem replace_items (found : books.items[index]? = some prev) (i : Nat) :
    (books.replace index prev next).items[i]? = if i = index then some next else books.items[i]? := by
  have within := (List.getElem?_eq_some_iff.mp found).1
  by_cases same : i = index
  · subst same
    simp [replace, within]
  · simp [replace, List.getElem?_set_ne (Ne.symm same), same]

theorem Booked.replace (booked : books.Booked) (found : books.items[index]? = some prev)
    (placed : next.index = index) : (books.replace index prev next).Booked where
  counts := by
    rw [Books.replace, countItems_set found, booked.counts]
  cost := by
    rw [Books.replace, sumCost_set found, booked.cost]
  indexed i item present := by
    rw [replace_items found] at present
    split at present
    · rename_i same
      rw [← Option.some.inj present, placed, same]
    · exact booked.indexed i item present

/-- The places of the items are counted up from zero. -/
theorem Booked.places (booked : books.Booked) :
    books.items.map (·.index) = List.range books.items.length := by
  apply List.ext_getElem?
  intro i
  rw [List.getElem?_map]
  cases found : books.items[i]? with
  | none =>
      have outside := List.getElem?_eq_none_iff.mp found
      simp [outside]
  | some item =>
      have within := (List.getElem?_eq_some_iff.mp found).1
      simp [within, booked.indexed i item found]

theorem Booked.nodup_places (booked : books.Booked) : (books.items.map (·.index)).Nodup := by
  rw [booked.places]
  exact List.nodup_range

theorem Booked.current_of_mem (booked : books.Booked) {item : BatchItem} (member : item ∈ books.items) :
    books.items[item.index]? = some item := by
  obtain ⟨i, found⟩ := List.mem_iff_getElem?.mp member
  rw [booked.indexed i item found]
  exact found

theorem unsettledAt_replace (found : books.items[index]? = some prev) (i : Nat) :
    (books.replace index prev next).unsettledAt i ↔
      if i = index then isUnsettled next = true else books.unsettledAt i := by
  simp only [unsettledAt, replace_items found]
  split <;> simp

/-- An item may change without a change of its run. -/
theorem Sound.replace_same (sound : books.Sound gap) (found : books.items[index]? = some prev)
    (placed : next.index = index) (sameRun : next.runId = prev.runId)
    (sameState : isUnsettled next = isUnsettled prev) : (books.replace index prev next).Sound gap := by
  have unsettled : ∀ i, (books.replace index prev next).unsettledAt i ↔ books.unsettledAt i := by
    intro i
    rw [unsettledAt_replace found]
    split
    · rename_i same
      subst same
      simp [unsettledAt, found, sameState]
    · exact Iff.rfl
  refine { toBooked := sound.toBooked.replace found placed, toTracked := { sound.toTracked with
    current := fun i => by rw [unsettled i]; exact sound.current i
    owner := fun run member => ?_ } }
  obtain ⟨item, present, owned⟩ := sound.owner run member
  rw [replace_items found]
  split
  · rename_i same
    rw [same, found, Option.some.injEq] at present
    exact ⟨next, rfl, by rw [sameRun, present, owned]⟩
  · exact ⟨item, present, owned⟩

/-- The item in the gap settles. -/
theorem Sound.replace_settled (sound : books.Sound (some index))
    (found : books.items[index]? = some prev) (placed : next.index = index)
    (settled : isUnsettled next = false) : (books.replace index prev next).Sound none := by
  refine { toBooked := sound.toBooked.replace found placed, toTracked := { sound.toTracked with
    current := fun i => ?_
    owner := fun run member => ?_ } }
  · change i ∈ books.outstanding ↔ _
    rw [unsettledAt_replace found, sound.current i]
    by_cases same : i = index
    · simp [same, settled]
    · simp [same, Ne.symm same]
  · obtain ⟨item, present, owned⟩ := sound.owner run member
    have outside : run.2 ≠ index := by
      rintro same
      have waits : run.2 ∈ books.outstanding := sound.matched ▸ List.mem_map_of_mem member
      exact ((sound.current run.2).mp waits).1 (by rw [same])
    rw [replace_items found, if_neg outside]
    exact ⟨item, present, owned⟩

/-- An item without a run settles otherwise. -/
theorem Sound.replace_idle (sound : books.Sound none) (found : books.items[index]? = some prev)
    (placed : next.index = index) (before : isUnsettled prev = false)
    (settled : isUnsettled next = false) : (books.replace index prev next).Sound none := by
  have idle : ¬ books.unsettledAt index := by
    rintro ⟨item, present, unsettled⟩
    rw [found, Option.some.injEq] at present
    rw [← present, before] at unsettled
    cases unsettled
  have opened : books.Sound (some index) := by
    refine { sound with current := fun i => ?_ }
    rw [sound.current i]
    constructor
    · rintro ⟨-, unsettled⟩
      exact ⟨fun same => idle (Option.some.inj same ▸ unsettled), unsettled⟩
    · rintro ⟨-, unsettled⟩
      exact ⟨Option.some_ne_none i ∘ Eq.symm, unsettled⟩
  exact opened.replace_settled found placed settled

/-- Two open runs with one identifier or one item are one run. -/
theorem Tracked.run_unique (tracked : books.Tracked gap) {first second : RunId × Nat}
    (member : first ∈ books.openRuns) (other : second ∈ books.openRuns) :
    first.1 = second.1 ↔ first.2 = second.2 := by
  constructor
  · intro same
    rw [List.inj_on_of_nodup_map tracked.unique member other same]
  · intro same
    have places : (books.openRuns.map Prod.snd).Nodup := by
      rw [tracked.matched]
      exact tracked.distinct
    rw [List.inj_on_of_nodup_map places member other same]

/-- The books without one of the open runs. -/
def leave (books : Books) (run : RunId × Nat) : Books :=
  { books with
    outstanding := books.outstanding.filter fun i => i ≠ run.2
    openRuns := books.openRuns.filter fun other => other.1 ≠ run.1 }

/-- The item of a run that settles is the gap until it has its outcome. -/
theorem Sound.leave (sound : books.Sound none) {run : RunId × Nat} (member : run ∈ books.openRuns) :
    (books.leave run).Sound (some run.2) := by
  refine { toBooked := { sound.toBooked with }, toTracked := ?_ }
  refine { current := ?_, matched := ?_, owner := ?_, distinct := sound.distinct.filter _, unique := ?_,
           fresh := ?_, bounded := (List.length_filter_le _ _).trans sound.bounded, positive := sound.positive }
  · intro i
    change i ∈ books.outstanding.filter _ ↔ some run.2 ≠ some i ∧ books.unsettledAt i
    rw [List.mem_filter, sound.current i, decide_eq_true_eq]
    constructor
    · rintro ⟨⟨-, unsettled⟩, apart⟩
      exact ⟨fun same => apart (Option.some.inj same).symm, unsettled⟩
    · rintro ⟨apart, unsettled⟩
      exact ⟨⟨Option.some_ne_none i ∘ Eq.symm, unsettled⟩, fun same => apart (congrArg some same.symm)⟩
  · have same : books.openRuns.filter (fun other => other.1 ≠ run.1) =
        books.openRuns.filter ((fun i => decide (i ≠ run.2)) ∘ Prod.snd) := by
      apply List.filter_congr
      intro other inside
      simp only [Function.comp_apply, decide_eq_decide]
      exact not_congr (sound.run_unique inside member)
    change (books.openRuns.filter _).map Prod.snd = books.outstanding.filter _
    rw [same, ← List.filter_map, sound.matched]
  · exact fun other inside => sound.owner other (List.mem_of_mem_filter inside)
  · exact sound.unique.sublist (List.filter_sublist.map _)
  · exact fun other inside => sound.fresh other (List.mem_of_mem_filter inside)

/-- The books after a pending item got a run. -/
def admitItem (books : Books) (index : Nat) (prev next : BatchItem) : Books :=
  { books.replace index prev next with
    outstanding := books.outstanding ++ [index]
    openRuns := books.openRuns ++ [(books.asked, index)]
    asked := books.asked + 1 }

theorem Sound.admitItem (sound : books.Sound none) (found : books.items[index]? = some prev)
    (waiting : prev.state = .pending) (room : books.outstanding.length < books.concurrency)
    (placed : next.index = index) (unsettled : isUnsettled next = true)
    (owned : next.runId = some books.asked) : (books.admitItem index prev next).Sound none := by
  have absent : index ∉ books.outstanding := by
    intro inside
    obtain ⟨item, present, busy⟩ := ((sound.current index).mp inside).2
    rw [found, Option.some.injEq] at present
    rw [← present, isUnsettled, waiting] at busy
    cases busy
  refine { toBooked := { sound.toBooked.replace found placed with }, toTracked := ?_ }
  refine { current := ?_, matched := ?_, owner := ?_, distinct := ?_, unique := ?_, fresh := ?_,
           bounded := ?_, positive := sound.positive }
  · intro i
    change i ∈ books.outstanding ++ [index] ↔ _ ∧ (books.replace index prev next).unsettledAt i
    rw [unsettledAt_replace found, List.mem_append, List.mem_singleton, sound.current i]
    by_cases same : i = index
    · simp [same, unsettled]
    · simp [same]
  · simp [Books.admitItem, sound.matched]
  · intro run member
    change ∃ item, (books.replace index prev next).items[run.2]? = some item ∧ _
    rw [replace_items found]
    rcases List.mem_append.mp member with earlier | last
    · have inside : run.2 ∈ books.outstanding := sound.matched ▸ List.mem_map_of_mem earlier
      rw [if_neg (fun same : run.2 = index => absent (same ▸ inside))]
      exact sound.owner run earlier
    · rw [List.mem_singleton.mp last, if_pos rfl]
      exact ⟨next, rfl, owned⟩
  · simpa [Books.admitItem, List.nodup_append, sound.distinct] using
      fun i inside (same : i = index) => absent (same ▸ inside)
  · have unseen : ∀ (id : RunId) (i : Nat), (id, i) ∈ books.openRuns → id ≠ books.asked :=
      fun id i inside => ne_of_lt (sound.fresh _ inside)
    simpa [Books.admitItem, List.nodup_append, sound.unique] using unseen
  · intro run member
    change run.1 < books.asked + 1
    rcases List.mem_append.mp member with earlier | last
    · exact (sound.fresh run earlier).trans (Nat.lt_succ_self _)
    · rw [List.mem_singleton.mp last]
      exact Nat.lt_succ_self _
  · rw [Books.admitItem, List.length_append]
    exact Nat.succ_le_of_lt room

end Books

end NimbleBrain.Tasks
