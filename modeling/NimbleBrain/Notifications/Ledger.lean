import NimbleBrain.Notifications.Routes

/- A process owes a row of the ledger at most one delivery. The counts of a row add up to its dispatches. -/

namespace NimbleBrain.Notifications

open Library EventRuns

/-- A delivery that the process still owes a row, after the attempts that were counted. -/
structure Owed where
  key : RowKey
  kind : DeliveryTargetKind
  attempts : Nat
  deriving DecidableEq

def Owed.firstWake (key : RowKey) : Owed := { key := key, kind := .agent, attempts := 0 }

def Owed.firstCall (key : RowKey) : Owed := { key := key, kind := .tool, attempts := 0 }

def PendingAttempt.owed (entry : PendingAttempt) : Owed :=
  { key := entry.key, kind := .tool, attempts := entry.attempts }

def Attempt.owed (attempt : Attempt) : Owed :=
  { key := attempt.key, kind := .tool, attempts := attempt.priorAttempts }

def Job.owed : Job → List Owed
  | .evaluate _ _ => []
  | .evaluating _ _ => []
  | .waking agents tools => agents.map (fun wake => .firstWake wake.row) ++ tools.map .firstCall
  | .calling attempt tools => attempt.owed :: tools.map .firstCall
  | .answered attempt _ tools => attempt.owed :: tools.map .firstCall
  | .retry entry => [entry.owed]
  | .retrying entry => [entry.owed]

def Job.unread : Job → List Notification
  | .evaluate item _ => [item]
  | .evaluating item _ => [item]
  | _ => []

namespace Dispatcher

def jobsOwed (process : Dispatcher) : List Owed := process.jobs.flatMap Job.owed

def indexOwed (process : Dispatcher) : List Owed := process.pending.values.map PendingAttempt.owed

def wakesOwed (process : Dispatcher) : List Owed := process.wakes.map .firstWake

def owed (process : Dispatcher) : List Owed := process.jobsOwed ++ process.indexOwed ++ process.wakesOwed

/-- The items whose evaluation has not read the routes. -/
def unread (process : Dispatcher) : List Notification := process.jobs.flatMap Job.unread

end Dispatcher

/-- The row is as the process that owes it believes. -/
structure DeliveryRecord.Awaits (row : DeliveryRecord) (owed : Owed) : Prop where
  kind : row.kind = owed.kind
  attempts : row.attempts = owed.attempts
  outcome : row.outcome = match owed.kind with | .tool => .pending | .agent => .deferred

theorem DeliveryRecord.Awaits.unfinished {row : DeliveryRecord} {owed : Owed} (waits : row.Awaits owed) :
    row.isFinished = false := by
  have outcome := waits.outcome
  cases kind : owed.kind <;> simp [kind] at outcome <;> simp [isFinished, outcome]

/-- The attempts of a row stay within the bound. -/
structure DeliveryRecord.Sound (row : DeliveryRecord) : Prop where
  finished : row.attempts ≤ maxRouteAttempts
  pending : row.outcome = .pending → row.kind = .tool ∧ row.attempts < maxRouteAttempts
  deferred : row.outcome = .deferred → row.kind = .agent ∧ row.attempts = 0

/-- Each owed delivery has its own row, which waits for it. -/
structure Held (rows : OrderedMap RowKey DeliveryRecord) (owed : List Owed) : Prop where
  once : (owed.map Owed.key).Nodup
  waits : ∀ one ∈ owed, ∃ row, rows.get? one.key = some row ∧ row.Awaits one

namespace Held

variable {rows : OrderedMap RowKey DeliveryRecord} {owed : List Owed}

theorem perm (held : Held rows owed) {other : List Owed} (same : owed.Perm other) : Held rows other :=
  ⟨(same.map Owed.key).nodup held.once, fun one member => held.waits one (same.mem_iff.mpr member)⟩

theorem left {other : List Owed} (held : Held rows (owed ++ other)) : Held rows owed := by
  refine ⟨?_, fun one member => held.waits one (List.mem_append_left _ member)⟩
  have once := held.once
  rw [List.map_append] at once
  exact once.of_append_left

theorem right {other : List Owed} (held : Held rows (other ++ owed)) : Held rows owed := by
  refine ⟨?_, fun one member => held.waits one (List.mem_append_right _ member)⟩
  have once := held.once
  rw [List.map_append] at once
  exact once.of_append_right

/-- The rows of the other deliveries may not change. -/
theorem congr (held : Held rows owed) {after : OrderedMap RowKey DeliveryRecord}
    (same : ∀ one ∈ owed, after.get? one.key = rows.get? one.key) : Held after owed :=
  ⟨held.once, fun one member => by rw [same one member]; exact held.waits one member⟩

variable {one : Owed}

theorem cons (held : Held rows owed) (apart : ∀ other ∈ owed, other.key ≠ one.key) {row : DeliveryRecord}
    (found : rows.get? one.key = some row) (waits : row.Awaits one) :
    Held rows (one :: owed) := by
  constructor
  · rw [List.map_cons, List.nodup_cons]
    refine ⟨?_, held.once⟩
    intro listed
    obtain ⟨other, member, same⟩ := List.mem_map.mp listed
    exact apart other member same
  · intro other member
    rcases List.mem_cons.mp member with rfl | rest
    · exact ⟨row, found, waits⟩
    · exact held.waits other rest

theorem apart (held : Held rows (one :: owed)) : ∀ other ∈ owed, other.key ≠ one.key := by
  have once := held.once
  rw [List.map_cons, List.nodup_cons] at once
  exact fun other member same => once.1 (same ▸ List.mem_map_of_mem member)

end Held

namespace Deliveries

/-- The attempts that the ledger counts for a key. -/
def attemptsAt (world : Deliveries) (key : RowKey) : Nat := (world.rows.get? key).elim 0 DeliveryRecord.attempts

/-- How often a key was closed, as its row tells. -/
def closedAt (world : Deliveries) (key : RowKey) : Nat :=
  (world.rows.get? key).elim 0 fun row => if row.isFinished then 1 else 0

/-- The invariant of the ledger and the process. -/
structure Sound (world : Deliveries) : Prop where
  held : Held world.rows world.memory.owed
  counted : ∀ key, world.dispatched.count key =
    world.attemptsAt key + world.lost.count key + world.memory.inFlight.count key
  closedOnce : ∀ key, world.closed.count key = world.closedAt key
  bounded : ∀ key row, world.rows.get? key = some row → row.Sound
  lostOnce : ∀ key, world.lost.count key ≤ world.crashes
  known : ∀ key row, world.rows.get? key = some row → key.ref ∈ world.arrived
  unreadOnce : (world.memory.unread.map Notification.pair).Nodup
  unreadNew : ∀ item ∈ world.memory.unread, item.pair ∈ world.arrived ∧
    ∀ key : RowKey, key.ref = item.pair → world.rows.get? key = none
  keyed : ∀ entry ∈ world.memory.pending.entries, entry.2.key = entry.1
  conserved : world.memory.trigger.Conserved

/-- What a dispatch in flight is for is owed. -/
theorem inFlight_sublist (process : Dispatcher) : process.inFlight.Sublist (process.owed.map Owed.key) := by
  have job (job : Job) : (jobsInFlight job).Sublist (job.owed.map Owed.key) := by
    cases job <;> simp [jobsInFlight, Job.owed, Attempt.owed]
  have jobs (list : List Job) : (list.flatMap jobsInFlight).Sublist ((list.flatMap Job.owed).map Owed.key) := by
    induction list with
    | nil => exact List.Sublist.refl _
    | cons first rest ih =>
        rw [List.flatMap_cons, List.flatMap_cons, List.map_append]
        exact (job first).append ih
  have wakes : process.wakesOwed.map Owed.key = process.wakes := by
    simp [Dispatcher.wakesOwed, Function.comp_def, Owed.firstWake]
  rw [Dispatcher.inFlight, Dispatcher.owed, List.map_append, List.map_append, wakes]
  exact ((jobs process.jobs).trans (List.sublist_append_left ..)).append (List.Sublist.refl _)

variable {world : Deliveries}

theorem Sound.inFlight_le (sound : world.Sound) (key : RowKey) : world.memory.inFlight.count key ≤ 1 :=
  List.nodup_iff_count_le_one.mp (sound.held.once.sublist (inFlight_sublist _)) key

@[simp] theorem run_memory (process : Dispatcher) : (world.run process).memory = process := rfl

theorem memory_of_process {process : Dispatcher} (running : world.process = some process) :
    world.memory = process := by
  rw [memory, running, Option.getD_some]

variable {after : Dispatcher} {key : RowKey}

/-- The ledger stays sound while no row changes and every owed delivery has a row of its own. -/
theorem Sound.hold (sound : world.Sound) (held : Held world.rows after.owed)
    (inFlight : after.inFlight.Perm world.memory.inFlight) (unread : after.unread.Sublist world.memory.unread)
    (keyed : ∀ entry ∈ after.pending.entries, entry.2.key = entry.1) (conserved : after.trigger.Conserved) :
    (world.run after).Sound where
  held := held
  counted key := by
    rw [run_memory, inFlight.count_eq]
    exact sound.counted key
  closedOnce := sound.closedOnce
  bounded := sound.bounded
  lostOnce := sound.lostOnce
  known := sound.known
  unreadOnce := sound.unreadOnce.sublist (unread.map _)
  unreadNew item member := sound.unreadNew item (unread.subset member)
  keyed := keyed
  conserved := conserved

/-- A process that only moves or drops what it owes keeps the ledger sound. -/
theorem Sound.move (sound : world.Sound) (dropped : List Owed)
    (owed : world.memory.owed.Perm (after.owed ++ dropped)) (inFlight : after.inFlight.Perm world.memory.inFlight)
    (unread : after.unread.Sublist world.memory.unread)
    (keyed : ∀ entry ∈ after.pending.entries, entry.2.key = entry.1) (conserved : after.trigger.Conserved) :
    (world.run after).Sound :=
  sound.hold (sound.held.perm owed).left inFlight unread keyed conserved

/-- A dispatch of an owed delivery is counted as in flight. -/
theorem Sound.dispatch (sound : world.Sound) (dropped : List Owed)
    (owed : world.memory.owed.Perm (after.owed ++ dropped))
    (inFlight : after.inFlight.Perm (key :: world.memory.inFlight))
    (unread : after.unread.Sublist world.memory.unread)
    (keyed : ∀ entry ∈ after.pending.entries, entry.2.key = entry.1) (conserved : after.trigger.Conserved) :
    ((world.dispatch key).run after).Sound where
  held := (sound.held.perm owed).left
  counted other := by
    have before := sound.counted other
    rw [run_memory, inFlight.count_eq, List.count_cons]
    change (world.dispatched ++ [key]).count other = world.attemptsAt other + world.lost.count other + _
    rw [List.count_append, List.count_singleton]
    omega
  closedOnce := sound.closedOnce
  bounded := sound.bounded
  lostOnce := sound.lostOnce
  known := sound.known
  unreadOnce := sound.unreadOnce.sublist (unread.map _)
  unreadNew item member := sound.unreadNew item (unread.subset member)
  keyed := keyed
  conserved := conserved

/-- An unfinished row is rewritten, and what is owed for it changes with it. -/
theorem Sound.write (sound : world.Sound) {old row : DeliveryRecord}
    (found : world.rows.get? key = some old) (unfinished : old.isFinished = false) (rowSound : row.Sound)
    {rest : List Owed} (others : Held world.rows rest) (apart : ∀ one ∈ rest, one.key ≠ key)
    (owed : after.owed.Perm rest ∨
      ∃ one : Owed, one.key = key ∧ row.Awaits one ∧ after.owed.Perm (one :: rest))
    (inFlight : ∀ other, after.inFlight.count other + (if other = key then row.attempts else 0) =
      world.memory.inFlight.count other + if other = key then old.attempts else 0)
    (unread : after.unread.Sublist world.memory.unread)
    (keyed : ∀ entry ∈ after.pending.entries, entry.2.key = entry.1) (conserved : after.trigger.Conserved) :
    ((world.writeRow key row).run after).Sound := by
  have at' (other : RowKey) : ((world.writeRow key row).run after).rows.get? other =
      if other = key then some row else world.rows.get? other := OrderedMap.get?_set key other row
  have kept : Held ((world.writeRow key row).run after).rows rest :=
    others.congr fun one member => by rw [at', if_neg (apart one member)]
  constructor
  · rcases owed with same | ⟨one, rfl, waits, same⟩
    · exact kept.perm same.symm
    · exact (kept.cons apart (by rw [at', if_pos rfl]) waits).perm same.symm
  · intro other
    have before := sound.counted other
    have moved := inFlight other
    rw [run_memory, attemptsAt, at']
    change world.dispatched.count other = _ + world.lost.count other + _
    by_cases same : other = key
    · subst same
      rw [attemptsAt, found, Option.elim_some] at before
      rw [if_pos rfl, if_pos rfl] at moved
      rw [if_pos rfl, Option.elim_some]
      omega
    · rw [if_neg same, if_neg same] at moved
      rw [if_neg same]
      rw [attemptsAt] at before
      omega
  · intro other
    have before := sound.closedOnce other
    rw [closedAt, at']
    change (world.closed ++ if row.isFinished then [key] else []).count other = _
    rw [List.count_append]
    by_cases same : other = key
    · subst same
      rw [closedAt, found, Option.elim_some, unfinished] at before
      cases finished : row.isFinished <;> simp_all
    · rw [if_neg same, before, closedAt]
      split
      · rw [List.count_singleton, if_neg (by simpa using fun equal : key = other => same equal.symm), Nat.add_zero]
      · rw [List.count_nil, Nat.add_zero]
  · intro other found'
    rw [at']
    split
    · rintro ⟨⟩
      exact rowSound
    · exact sound.bounded other found'
  · exact sound.lostOnce
  · intro other found'
    rw [at']
    split
    · next same =>
        rintro -
        exact same ▸ sound.known key old found
    · exact sound.known other found'
  · exact sound.unreadOnce.sublist (unread.map _)
  · intro item member
    obtain ⟨arrived, new⟩ := sound.unreadNew item (unread.subset member)
    refine ⟨arrived, fun other named => ?_⟩
    rw [at']
    split
    · next same =>
        rw [same] at named
        rw [new key named] at found
        cases found
    · exact new other named
  · exact keyed
  · exact conserved

end Deliveries

end NimbleBrain.Notifications
