import NimbleBrain.Tasks.RunDisk
import NimbleBrain.Tasks.DriverBoot

/- The files agree on each run at every point where a process may stop. -/

namespace NimbleBrain.Tasks

open Library

namespace RunFiles

variable {files : RunFiles} {runId : RunId} {run ticket : TaskRun}

theorem recorded_id (found : files.recorded runId = some run) : run.id = runId := by
  simpa using List.find?_some found

@[simp] theorem recorded_writeTicket (files : RunFiles) (runId other : RunId) (run : TaskRun) :
    (files.writeTicket runId run).recorded other = files.recorded other := rfl

theorem tickets_writeTicket (files : RunFiles) (runId other : RunId) (run : TaskRun) :
    (files.writeTicket runId run).tickets other =
      if other = runId then some run else files.tickets other :=
  Function.update_apply ..

theorem ledger_addCost (files : RunFiles) (runId other : RunId) (cost : ℚ) :
    (files.addCost runId cost).ledger other =
      if other = runId then files.ledger runId + cost else files.ledger other :=
  Function.update_apply ..

/-- The first line of a run counts. -/
theorem recorded_appendRun (files : RunFiles) (run : TaskRun) (other : RunId) :
    (files.appendRun run).recorded other =
      (files.recorded other).or (if run.id = other then some run else none) := by
  rw [recorded, appendRun, List.find?_append]
  congr 1
  by_cases same : run.id = other <;> simp [same]

theorem recorded_assessRun (files : RunFiles) (runId other : RunId) (assessment : RunAssessment) :
    (files.assessRun runId assessment).recorded other =
      (files.recorded other).map fun run =>
        if run.id = runId then { run with assessment := some assessment } else run := by
  rw [recorded, assessRun, List.find?_map]
  congr 2
  funext run
  by_cases same : run.id = runId <;> simp [same]

/-- What the ticket and the record of one run agree on. -/
structure RunKept (files : RunFiles) (started : Bool) (runId : RunId) (ticket : TaskRun) : Prop where
  named : ticket.id = runId
  trigger : started = ticket.trigger.isSome
  running : isOpenRun ticket = true → (ticket.status = .running ↔ ticket.trigger.isSome = true)
  free : isOpenRun ticket = true → ticket.costUsd = none
  record : ∀ run, files.recorded runId = some run → isOpenRun run = false ∧
    run.trigger.isSome = ticket.trigger.isSome ∧ (run.trigger = none → run.costUsd = none)
  closed : isOpenRun ticket = false → ∃ run, files.recorded runId = some run ∧ run.costUsd = ticket.costUsd

/-- The files know nothing of runs that were not asked for. A run without a start costs nothing. -/
structure Kept (files : RunFiles) (started : RunId → Bool) (asked : RunId) : Prop where
  ticket : ∀ runId ticket, files.tickets runId = some ticket → RunKept files (started runId) runId ticket
  unasked : ∀ runId, asked ≤ runId → files.tickets runId = none ∧ files.recorded runId = none
  idle : ∀ runId, started runId = false → files.ledger runId = 0
  unstarted : ∀ runId, asked ≤ runId → started runId = false
  nonneg : ∀ runId, 0 ≤ files.ledger runId

variable {started : RunId → Bool} {asked : RunId}

variable {start : Bool}

theorem RunKept.of_same {before after : RunFiles} (kept : RunKept before start runId ticket)
    (same : after.recorded runId = before.recorded runId) : RunKept after start runId ticket :=
  { kept with
    record := by rw [same]; exact kept.record
    closed := by rw [same]; exact kept.closed }

theorem Kept.asked_of_ticket (kept : files.Kept started asked) (found : files.tickets runId = some ticket) :
    runId < asked := by
  by_contra above
  rw [(kept.unasked runId (not_lt.mp above)).1] at found
  cases found

/-- A ticket that states what is recorded, or an open ticket, may be written. -/
theorem Kept.writeTicket (kept : files.Kept started asked) (below : runId < asked)
    (fits : RunKept files (started runId) runId run) : (files.writeTicket runId run).Kept started asked := by
  refine { kept with ticket := fun other ticket found => ?_, unasked := fun other above => ?_ }
  · rw [tickets_writeTicket] at found
    split at found
    · rename_i same
      subst same
      obtain rfl := Option.some.inj found
      exact fits.of_same rfl
    · exact (kept.ticket other ticket found).of_same rfl
  · have apart : other ≠ runId := fun same => absurd below (not_lt.mpr (le_of_le_of_eq above same))
    rw [tickets_writeTicket, if_neg apart]
    exact kept.unasked other above

theorem RunKept.recorded (kept : RunKept files start runId ticket) (found : files.recorded runId = some run) :
    RunKept files start runId run := by
  obtain ⟨ended, trigger, -⟩ := kept.record run found
  refine { named := recorded_id found, trigger := kept.trigger.trans trigger.symm
           running := fun opened => ?_, free := fun opened => ?_, record := fun other same => ?_
           closed := fun _ => ⟨run, found, rfl⟩ }
  · rw [ended] at opened
    cases opened
  · rw [ended] at opened
    cases opened
  · rw [found, Option.some.injEq] at same
    obtain ⟨ended, _, free⟩ := kept.record run found
    exact same ▸ ⟨ended, rfl, free⟩

/-- The first record of a run agrees with its open ticket. -/
theorem Kept.appendRun (kept : files.Kept started asked) (found : files.tickets run.id = some ticket)
    (opened : isOpenRun ticket = true) (first : files.recorded run.id = none) (ended : isOpenRun run = false)
    (trigger : run.trigger.isSome = ticket.trigger.isSome) (free : run.trigger = none → run.costUsd = none) :
    (files.appendRun run).Kept started asked := by
  refine { kept with ticket := fun other current present => ?_, unasked := fun other above => ?_ }
  · have before := kept.ticket other current present
    by_cases same : run.id = other
    · subst same
      obtain rfl : ticket = current := Option.some.inj (found.symm.trans present)
      refine { before with record := fun record line => ?_, closed := fun ended => ?_ }
      · rw [recorded_appendRun, first, if_pos rfl, Option.none_or, Option.some.injEq] at line
        subst line
        exact ⟨ended, trigger, free⟩
      · rw [opened] at ended
        cases ended
    · refine before.of_same ?_
      rw [recorded_appendRun, if_neg same, Option.or_none]
  · have apart : run.id ≠ other := fun same => absurd (kept.asked_of_ticket found) (not_lt.mpr (same ▸ above))
    rw [recorded_appendRun, if_neg apart, Option.or_none]
    exact kept.unasked other above

/-- A ticket before its end. -/
theorem openRun_kept (runId : RunId) (trigger : Option TaskRunTrigger) (first : files.recorded runId = none) :
    RunKept files trigger.isSome runId (openRun runId trigger) where
  named := rfl
  trigger := rfl
  running _ := by cases trigger <;> simp [openRun]
  free _ := rfl
  record run found := by
    rw [first] at found
    cases found
  closed ended := by cases trigger <;> simp [openRun, isOpenRun] at ended

/-- The ticket of a run without a record is opened. -/
theorem Kept.openTicket (kept : files.Kept started asked) {later : RunId} (trigger : Option TaskRunTrigger)
    (first : files.recorded runId = none) (more : asked ≤ later) (below : runId < later)
    (unpaid : trigger = none → files.ledger runId = 0) :
    (files.writeTicket runId (openRun runId trigger)).Kept
      (Function.update started runId trigger.isSome) later := by
  refine { ticket := fun other ticket found => ?_, unasked := fun other above => ?_
           idle := fun other idle => ?_, unstarted := fun other above => ?_, nonneg := kept.nonneg }
  · rw [tickets_writeTicket] at found
    split at found
    · rename_i same
      subst same
      obtain rfl := Option.some.inj found
      rw [Function.update_self]
      exact openRun_kept _ trigger first
    · rename_i apart
      rw [Function.update_of_ne apart]
      exact (kept.ticket other ticket found).of_same rfl
  · have apart : other ≠ runId := ne_of_gt (lt_of_lt_of_le below above)
    rw [tickets_writeTicket, if_neg apart]
    exact kept.unasked other (more.trans above)
  · by_cases same : other = runId
    · subst same
      rw [Function.update_self] at idle
      exact unpaid (by simpa using idle)
    · rw [Function.update_of_ne same] at idle
      exact kept.idle other idle
  · have apart : other ≠ runId := ne_of_gt (lt_of_lt_of_le below above)
    rw [Function.update_of_ne apart]
    exact kept.unstarted other (more.trans above)

/-- A lost run gets the record it has, or one that says how it ended. -/
theorem Kept.settleLostRun (kept : files.Kept started asked) (found : files.tickets runId = some ticket) (now : Nat) :
    (files.settleLostRun runId ticket now).1.Kept started asked ∧
      (files.settleLostRun runId ticket now).2.id = runId := by
  have current := kept.ticket runId ticket found
  have below := kept.asked_of_ticket found
  unfold RunFiles.settleLostRun
  split
  · exact ⟨kept, current.named⟩
  · rename_i opened
    have opened : isOpenRun ticket = true := by simpa using opened
    split
    · rename_i run line
      exact ⟨kept.writeTicket below (current.recorded line), recorded_id line⟩
    · rename_i first
      dsimp only
      let run := lostRecord ticket now
      have named : run.id = runId := current.named
      have ended : isOpenRun run = false := by
        by_cases running : ticket.status = .running <;> simp [run, lostRecord, isOpenRun, running]
      have free : run.trigger = none → run.costUsd = none := fun _ => current.free opened
      have appended : (files.appendRun run).Kept started asked := by
        rw [← named] at found first
        exact kept.appendRun found opened first ended rfl free
      have line : (files.appendRun run).recorded runId = some run := by
        rw [recorded_appendRun, first, if_pos named, Option.none_or]
      exact ⟨appended.writeTicket below ((appended.ticket runId ticket found).recorded line), named⟩

/-- An item names only runs that were asked for. -/
def Below (asked : RunId) (item : BatchItem) : Prop := ∀ runId, item.runId = some runId → runId < asked

theorem own_ticket {item : BatchItem}
    (found : (item.runId.bind fun runId => (files.tickets runId).map (runId, ·)) = some (runId, ticket)) :
    item.runId = some runId ∧ files.tickets runId = some ticket := by
  obtain ⟨own, named, mapped⟩ := Option.bind_eq_some_iff.mp found
  obtain ⟨current, present, same⟩ := Option.map_eq_some_iff.mp mapped
  obtain ⟨rfl, rfl⟩ := Prod.mk.inj same
  exact ⟨named, present⟩

theorem Kept.settleLostItem (kept : files.Kept started asked) (cancelled : Bool) (item : BatchItem) (now : Nat) :
    (settleLostItem cancelled files item now).1.Kept started asked ∧
      Below asked (settleLostItem cancelled files item now).2.item := by
  have again : Below asked (if cancelled then
      { backToPending item with state := .done, execution := some .cancelled } else backToPending item) := by
    cases cancelled <;> exact nofun
  unfold Tasks.settleLostItem
  dsimp only
  split
  · exact ⟨kept, again⟩
  · rename_i runId ticket found
    have present := (own_ticket found).2
    obtain ⟨after, id⟩ := kept.settleLostRun present now
    split
    · refine ⟨after, fun other same => ?_⟩
      rw [← Option.some.inj same, id]
      exact kept.asked_of_ticket present
    · exact ⟨after, again⟩

theorem Kept.settleLostItems (kept : files.Kept started asked) (cancelled : Bool) (now : Nat)
    (items : List BatchItem) (first : Nat) (below : ∀ item ∈ items, Below asked item) :
    (settleLostItems cancelled now first items files).1.Kept started asked ∧
      ∀ item ∈ (settleLostItems cancelled now first items files).2.1, Below asked item := by
  induction items generalizing first files with
  | nil => exact ⟨kept, fun _ member => absurd member List.not_mem_nil⟩
  | cons item rest ih =>
      have others : ∀ other ∈ rest, Below asked other :=
        fun other member => below other (List.mem_cons_of_mem _ member)
      rw [Tasks.settleLostItems]
      split
      · have one := kept.settleLostItem cancelled item now
        have more := ih one.1 (first + 1) others
        exact ⟨more.1, List.forall_mem_cons.mpr ⟨one.2, more.2⟩⟩
      · have more := ih kept (first + 1) others
        exact ⟨more.1, List.forall_mem_cons.mpr ⟨below item (List.mem_cons_self ..), more.2⟩⟩

end RunFiles

theorem chargeLostRuns_runs (ledger : RunId → ℚ) (items : List BatchItem) (lost : List (RunId × Nat)) :
    (chargeLostRuns ledger items lost).map (·.runId) = items.map (·.runId) := by
  unfold chargeLostRuns
  induction lost generalizing items with
  | nil => rfl
  | cons entry rest ih =>
      rw [List.foldl_cons, ih]
      cases found : items[entry.2]? with
      | none => rfl
      | some item =>
          dsimp only
          split
          · obtain ⟨within, same⟩ := List.getElem?_eq_some_iff.mp found
            rw [List.map_set, ← same]
            apply List.ext_getElem?
            intro i
            by_cases here : i = entry.2
            · subst here
              simp [within]
            · rw [List.getElem?_set_ne (Ne.symm here)]
          · rfl

namespace Disk

/-- Each unsettled item has the ticket of a run of its own. -/
structure Kept (disk : Disk) : Prop where
  files : disk.files.Kept disk.started disk.asked
  attached : ∀ (i : Nat) (item : BatchItem), disk.items[i]? = some item → isUnsettled item = true →
    ∃ runId ticket, item.runId = some runId ∧ disk.files.tickets runId = some ticket
  unique : ∀ (i j : Nat) (one other : BatchItem), disk.items[i]? = some one → disk.items[j]? = some other →
    isUnsettled one = true → isUnsettled other = true → one.runId = other.runId → i = j
  below : ∀ item ∈ disk.items, RunFiles.Below disk.asked item

variable {disk next : Disk}

variable {index : Nat} {item : BatchItem} {runId : RunId}

/-- A replaced item is settled or keeps a run of its own. -/
theorem Kept.setItem (kept : disk.Kept)
    (below : RunFiles.Below disk.asked item)
    (attached : isUnsettled item = true → ∃ runId ticket, item.runId = some runId ∧
      disk.files.tickets runId = some ticket ∧ ∀ (j : Nat) (other : BatchItem), j ≠ index →
        disk.items[j]? = some other → isUnsettled other = true → other.runId ≠ some runId) :
    (disk.setItem index item).Kept := by
  have places : ∀ (i : Nat) (found : BatchItem), (disk.items.set index item)[i]? = some found →
      i = index ∧ found = item ∨ i ≠ index ∧ disk.items[i]? = some found := by
    intro i found present
    by_cases same : i = index
    · subst same
      rw [List.getElem?_set_self'] at present
      obtain ⟨_, -, rfl⟩ := Option.map_eq_some_iff.mp present
      exact .inl ⟨rfl, rfl⟩
    · rw [List.getElem?_set_ne (Ne.symm same)] at present
      exact .inr ⟨same, present⟩
  refine { files := kept.files, attached := ?_, unique := ?_, below := ?_ }
  · intro i found present unsettled
    rcases places i found present with ⟨-, rfl⟩ | ⟨-, before⟩
    · obtain ⟨runId, ticket, named, present, -⟩ := attached unsettled
      exact ⟨runId, ticket, named, present⟩
    · exact kept.attached i found before unsettled
  · intro i j one other first second busy busy' same
    rcases places i one first with ⟨rfl, rfl⟩ | ⟨apart, before⟩
    · rcases places j other second with ⟨rfl, -⟩ | ⟨apart, before⟩
      · rfl
      · obtain ⟨runId, ticket, named, -, alone⟩ := attached busy
        exact absurd (same.symm.trans named) (alone j other apart before busy')
    · rcases places j other second with ⟨rfl, rfl⟩ | ⟨apart', before'⟩
      · obtain ⟨runId, ticket, named, -, alone⟩ := attached busy'
        exact absurd (same.trans named) (alone i one apart before busy)
      · exact kept.unique i j one other before before' busy busy' same
  · intro found member
    rcases List.mem_or_eq_of_mem_set member with before | rfl
    · exact kept.below found before
    · exact below

/-- A settled item needs no run. -/
theorem Kept.settle (kept : disk.Kept) (below : RunFiles.Below disk.asked item) (settled : isUnsettled item = false) :
    (disk.setItem index item).Kept :=
  kept.setItem below fun unsettled => by
    rw [settled] at unsettled
    cases unsettled

theorem Kept.withFiles (kept : disk.Kept) {files : RunFiles} (still : files.Kept disk.started disk.asked)
    (same : ∀ runId, (disk.files.tickets runId).isSome → (files.tickets runId).isSome) :
    { disk with files := files }.Kept :=
  { kept with
    files := still
    attached := fun i item found unsettled => by
      obtain ⟨runId, ticket, named, present⟩ := kept.attached i item found unsettled
      obtain ⟨after, there⟩ := Option.isSome_iff_exists.mp (same runId (by rw [present]; rfl))
      exact ⟨runId, after, named, there⟩ }

/-- The next process leaves every item settled. -/
theorem Kept.reconciled (kept : disk.Kept) (now : Nat) : (disk.reconciled now).Kept := by
  obtain ⟨files, below⟩ := kept.files.settleLostItems (disk.stored.state = .cancelled) now disk.items 0 kept.below
  have recovered := reconcile_recovered disk.files disk.stored disk.items now
  have settled : ∀ item ∈ (disk.reconciled now).items, isUnsettled item = false := by
    intro item member
    obtain ⟨i, found⟩ := List.mem_iff_getElem?.mp member
    obtain ⟨within, same⟩ := List.getElem?_eq_some_iff.mp found
    have one := recovered.get (recovered.length_eq ▸ within) within
    exact same ▸ one.settled
  refine { files := files, attached := ?_, unique := ?_, below := ?_ }
  · intro i item found unsettled
    rw [settled item (List.mem_of_getElem? found)] at unsettled
    cases unsettled
  · intro i j one other first _ unsettled
    rw [settled one (List.mem_of_getElem? first)] at unsettled
    cases unsettled
  · intro item member runId named
    have runs := chargeLostRuns_runs disk.files.ledger
      (settleLostItems (disk.stored.state = .cancelled) now 0 disk.items disk.files).2.1
      (settleLostItems (disk.stored.state = .cancelled) now 0 disk.items disk.files).2.2
    have listed : item.runId ∈ (disk.reconciled now).items.map (·.runId) := List.mem_map_of_mem member
    change item.runId ∈ (chargeLostRuns _ _ _).map (·.runId) at listed
    rw [runs] at listed
    obtain ⟨before, inside, same⟩ := List.mem_map.mp listed
    exact below before inside runId (same.trans named)

theorem ticketOf_some {ticket : TaskRun} (found : disk.ticketOf item = some ticket) :
    isUnsettled item = true ∧ ∃ runId, item.runId = some runId ∧ disk.files.tickets runId = some ticket := by
  unfold ticketOf at found
  split at found
  · rename_i unsettled
    obtain ⟨runId, named, present⟩ := Option.bind_eq_some_iff.mp found
    exact ⟨unsettled, runId, named, present⟩
  · cases found

theorem Kept.requestTicket (kept : disk.Kept) (trigger : Option TaskRunTrigger)
    (stepped : disk.step (.requestTicket trigger) = some next) : next.Kept := by
  cases stepped
  have unpaid := kept.files.idle _ (kept.files.unstarted disk.asked le_rfl)
  refine { files := ?_, attached := ?_, unique := kept.unique, below := ?_ }
  · exact kept.files.openTicket trigger (kept.files.unasked disk.asked le_rfl).2 (Nat.le_succ _)
      (Nat.lt_succ_self _) fun _ => unpaid
  · intro i item found unsettled
    obtain ⟨runId, ticket, named, present⟩ := kept.attached i item found unsettled
    refine ⟨runId, ticket, named, ?_⟩
    rw [RunFiles.tickets_writeTicket, if_neg (kept.files.asked_of_ticket present).ne]
    exact present
  · intro item member runId named
    exact Nat.lt_succ_of_lt (kept.below item member runId named)

theorem Kept.startTicket (kept : disk.Kept) {trigger : TaskRunTrigger}
    (stepped : disk.startTicket runId trigger = some next) : next.Kept := by
  obtain ⟨ticket, found, rest⟩ := Option.bind_eq_some_iff.mp stepped
  simp only [Option.ite_none_right_eq_some, Option.some.injEq] at rest
  obtain ⟨⟨queued, first⟩, rfl⟩ := rest
  have below := kept.files.asked_of_ticket found
  refine { files := ?_, attached := ?_, unique := kept.unique, below := kept.below }
  · exact kept.files.openTicket (some trigger) first le_rfl below nofun
  · intro i item present unsettled
    obtain ⟨other, current, named, there⟩ := kept.attached i item present unsettled
    by_cases same : other = runId
    · exact ⟨other, _, named, by rw [RunFiles.tickets_writeTicket, if_pos same]⟩
    · exact ⟨other, current, named, by rw [RunFiles.tickets_writeTicket, if_neg same]; exact there⟩

theorem Kept.modelCall (kept : disk.Kept) {cost : ℚ} (positive : 0 ≤ cost)
    (stepped : disk.modelCall runId cost = some next) : next.Kept := by
  obtain ⟨ticket, found, rest⟩ := Option.bind_eq_some_iff.mp stepped
  simp only [Option.ite_none_right_eq_some, Option.some.injEq] at rest
  obtain ⟨⟨running, first⟩, rfl⟩ := rest
  have current := kept.files.ticket runId ticket found
  have started : disk.started runId = true := by
    rw [current.trigger]
    exact (current.running (by simp [isOpenRun, running])).mp running
  refine kept.withFiles { ticket := fun other ticket found => ?_, unasked := kept.files.unasked
                          idle := fun other idle => ?_, unstarted := kept.files.unstarted
                          nonneg := fun other => ?_ } fun _ present => present
  · exact (kept.files.ticket other ticket found).of_same rfl
  · have apart : other ≠ runId := by
      rintro rfl
      rw [started] at idle
      cases idle
    rw [RunFiles.ledger_addCost, if_neg apart]
    exact kept.files.idle other idle
  · rw [RunFiles.ledger_addCost]
    split
    · exact add_nonneg (kept.files.nonneg runId) positive
    · exact kept.files.nonneg other

theorem Kept.appendRun (kept : disk.Kept) {run : TaskRun} (stepped : disk.appendRun run = some next) :
    next.Kept := by
  obtain ⟨ticket, found, rest⟩ := Option.bind_eq_some_iff.mp stepped
  simp only [Option.ite_none_right_eq_some, Option.some.injEq] at rest
  obtain ⟨⟨opened, first, ended, trigger, free⟩, rfl⟩ := rest
  exact kept.withFiles (kept.files.appendRun found opened first ended trigger free) fun _ present => present

theorem Kept.rewriteTicket (kept : disk.Kept) (stepped : disk.rewriteTicket runId = some next) :
    next.Kept := by
  obtain ⟨ticket, found, rest⟩ := Option.bind_eq_some_iff.mp stepped
  obtain ⟨run, line, rfl⟩ := Option.map_eq_some_iff.mp rest
  refine kept.withFiles (kept.files.writeTicket (kept.files.asked_of_ticket found)
    ((kept.files.ticket runId ticket found).recorded line)) fun other present => ?_
  rw [RunFiles.tickets_writeTicket]
  split
  · rfl
  · exact present

/-- An assessment leaves the end and the cost of a run alone. -/
theorem Kept.assess (kept : disk.Kept) (runId : RunId) (assessment : RunAssessment) :
    { disk with files := disk.files.assessRun runId assessment }.Kept := by
  have lines : ∀ other run, (disk.files.assessRun runId assessment).recorded other = some run →
      ∃ before, disk.files.recorded other = some before ∧ isOpenRun run = isOpenRun before ∧
        run.trigger = before.trigger ∧ run.costUsd = before.costUsd := by
    intro other run found
    rw [RunFiles.recorded_assessRun] at found
    obtain ⟨before, line, rfl⟩ := Option.map_eq_some_iff.mp found
    refine ⟨before, line, ?_⟩
    split <;> exact ⟨rfl, rfl, rfl⟩
  refine kept.withFiles { ticket := fun other ticket found => ?_, unasked := fun other above => ?_
                          idle := kept.files.idle, unstarted := kept.files.unstarted
                          nonneg := kept.files.nonneg } fun _ present => present
  · have before := kept.files.ticket other ticket found
    refine { before with record := fun run line => ?_, closed := fun ended => ?_ }
    · obtain ⟨earlier, recorded, same, trigger, cost⟩ := lines other run line
      rw [same, trigger, cost]
      exact before.record earlier recorded
    · obtain ⟨run, line, cost⟩ := before.closed ended
      refine ⟨_, (RunFiles.recorded_assessRun ..).trans (by rw [line]; rfl), ?_⟩
      dsimp only
      split <;> exact cost
  · refine ⟨(kept.files.unasked other above).1, ?_⟩
    rw [RunFiles.recorded_assessRun, (kept.files.unasked other above).2]
    rfl

theorem Kept.itemAsked (kept : disk.Kept) (stepped : disk.itemAsked index = some next) :
    next.Kept := by
  obtain ⟨item, found, rest⟩ := Option.bind_eq_some_iff.mp stepped
  simp only [Option.ite_none_right_eq_some] at rest
  obtain ⟨⟨-, -, alone⟩, rest⟩ := rest
  obtain ⟨ticket, present, rfl⟩ := Option.map_eq_some_iff.mp rest
  refine kept.setItem (fun runId named => ?_) fun _ => ⟨disk.asked - 1, ticket, rfl, present, ?_⟩
  · rw [← Option.some.inj named]
    exact kept.files.asked_of_ticket present
  · intro j other _ there _
    exact alone other (List.mem_of_getElem? there)

theorem Kept.itemStarted (kept : disk.Kept) (stepped : disk.itemStarted index = some next) :
    next.Kept := by
  obtain ⟨item, found, rest⟩ := Option.bind_eq_some_iff.mp stepped
  obtain ⟨ticket, present, rest⟩ := Option.bind_eq_some_iff.mp rest
  simp only [Option.ite_none_right_eq_some, Option.some.injEq] at rest
  obtain ⟨-, rfl⟩ := rest
  obtain ⟨unsettled, runId, named, present⟩ := ticketOf_some present
  refine kept.setItem (kept.below item (List.mem_of_getElem? found)) fun _ => ⟨runId, ticket, named, present, ?_⟩
  intro j other apart there busy same
  exact apart (kept.unique j index other item there found busy unsettled (same.trans named.symm))

theorem Kept.itemEnded (kept : disk.Kept) {again : Bool} (stepped : disk.itemEnded index again = some next) :
    next.Kept := by
  obtain ⟨item, found, rest⟩ := Option.bind_eq_some_iff.mp stepped
  obtain ⟨ticket, present, rest⟩ := Option.bind_eq_some_iff.mp rest
  simp only [Option.ite_none_left_eq_some, Option.some.injEq] at rest
  obtain ⟨-, rfl⟩ := rest
  obtain ⟨-, runId, -, present⟩ := ticketOf_some present
  have named := (kept.files.ticket runId ticket present).named
  have below := kept.files.asked_of_ticket present
  refine kept.settle ?_ ?_
  · intro other same
    unfold endedItem at same
    split at same
    · rw [← Option.some.inj same, named]
      exact below
    · split at same <;> cases same
  · unfold endedItem
    split
    · rfl
    · split <;> rfl

theorem Kept.step (kept : disk.Kept) (write : DiskWrite) (stepped : disk.step write = some next) :
    next.Kept := by
  cases write with
  | requestTicket trigger => exact kept.requestTicket trigger stepped
  | itemAsked index => exact kept.itemAsked stepped
  | startTicket runId trigger => exact kept.startTicket stepped
  | itemStarted index => exact kept.itemStarted stepped
  | modelCall runId cost => exact kept.modelCall cost.2 stepped
  | appendRun run => exact kept.appendRun stepped
  | rewriteTicket runId => exact kept.rewriteTicket stepped
  | assess runId assessment =>
      cases stepped
      exact kept.assess runId assessment
  | itemEnded index again => exact kept.itemEnded stepped
  | itemRejected index error =>
      obtain ⟨item, found, rest⟩ := Option.bind_eq_some_iff.mp stepped
      simp only [Option.ite_none_right_eq_some, Option.some.injEq] at rest
      obtain ⟨-, rfl⟩ := rest
      exact kept.settle (kept.below item (List.mem_of_getElem? found)) rfl
  | itemCancelled index =>
      obtain ⟨item, found, rest⟩ := Option.bind_eq_some_iff.mp stepped
      simp only [Option.ite_none_right_eq_some, Option.some.injEq] at rest
      obtain ⟨-, rfl⟩ := rest
      exact kept.settle (kept.below item (List.mem_of_getElem? found)) rfl
  | itemRequeued index =>
      obtain ⟨item, found, rest⟩ := Option.bind_eq_some_iff.mp stepped
      simp only [Option.ite_none_right_eq_some, Option.some.injEq] at rest
      obtain ⟨-, rfl⟩ := rest
      exact kept.settle nofun rfl
  | saveState state =>
      cases stepped
      exact { kept with }
  | reconcile now =>
      cases stepped
      exact kept.reconciled now

theorem kept_of_reachable {spec : NewBatch} (reached : (batchDisk spec).Reachable disk) : disk.Kept := by
  refine System.Reachable.invariant Kept ?_ (fun _ write _ kept => kept.step write) reached
  rintro first rfl
  have fresh : ∀ item ∈ newItems spec.inputs, item.state = .pending ∧ item.runId = none := by
    intro item member
    obtain ⟨i, found⟩ := List.mem_iff_getElem?.mp member
    rw [Driver.newItems_at found]
    exact ⟨rfl, rfl⟩
  have settled : ∀ (i : Nat) (item : BatchItem), (newItems spec.inputs)[i]? = some item →
      isUnsettled item = true → False := by
    intro i item found unsettled
    simp [isUnsettled, (fresh item (List.mem_of_getElem? found)).1] at unsettled
  exact {
    files := { ticket := fun _ _ found => by cases found
               unasked := fun _ _ => ⟨rfl, rfl⟩
               idle := fun _ _ => rfl
               unstarted := fun _ _ => rfl
               nonneg := fun _ => le_rfl }
    attached := fun i item found unsettled => (settled i item found unsettled).elim
    unique := fun i j one other first _ unsettled => (settled i one first unsettled).elim
    below := fun item member runId named => by
      rw [(fresh item member).2] at named
      cases named }

end Disk

end NimbleBrain.Tasks
