import NimbleBrain.Admission.Lifecycle

/- Every run of calls and callbacks keeps the promises of admission. -/

namespace NimbleBrain.Admission

open Library

namespace Machine

variable {limits : AdmissionLimits} {machine : Machine}

theorem valid_of_initial {machine : Machine} (first : (admission limits).initial machine) :
    Valid limits machine := by
  cases first
  exact {
    consistent := {
      slots := Nat.zero_le _
      room := Nat.zero_le _
      running := fun key => by simp [Pool.leaseKeys]
      keys := by simp [Pool.leaseKeys, Pool.queueKeys]
      counted := fun workspaceId => rfl
      identities := rfl
      live := fun lease => by simp
      distinct := List.nodup_nil
      issued := fun id gone => by simp at gone }
    owned := fun lease member => by simp at member
    ledger := List.Perm.nil
    noIdleSlot := fun _ _ waiting => absurd rfl waiting
    oneDrain := rfl }

theorem valid_of_reachable (reached : (admission limits).Reachable machine) : Valid limits machine :=
  reached.invariant _ (fun _ => valid_of_initial) fun _ action _ valid => valid.step action

/-- The number of callbacks an entry has heard. -/
def heard (machine : Machine) (entry : Nat) : Nat := (machine.notices.map Prod.fst).count entry

def isWaiting (machine : Machine) (entry : Nat) : Prop := entry ∈ machine.pool.queue.map (·.id)

/-- An entry occurs once among all its possible places. -/
theorem Valid.places_count (valid : Valid limits machine) (entry : Nat) :
    (machine.pool.queue.map (·.id)).count entry + (machine.stack.flatMap Frame.pending).count entry +
      machine.heard entry + machine.dropped.count entry = if entry < machine.pool.entered then 1 else 0 := by
  have total := valid.ledger.count_eq entry
  simp only [places, List.count_append] at total
  rw [List.nodup_range.count] at total
  simp only [List.mem_range] at total
  rw [← total, heard]
  omega

/-- Only a waiter's `admitted` may throw. Its `withdrawn` always returns. -/
def onlyAdmittedThrows : System.Guard Machine Action := fun machine action =>
  match action, machine.stack with
  | .callbackThrows, .withdrawing _ _ :: _ => False
  | _, _ => True

theorem notifyWithdrawn_dropped (machine : Machine) (reason : AdmissionWithdrawal) (entries : List Entry) :
    (machine.notifyWithdrawn reason entries).dropped = machine.dropped := by
  cases entries <;> rfl

theorem drainLoop_dropped (limits : AdmissionLimits) (machine : Machine) :
    (machine.drainLoop limits).dropped = machine.dropped := by
  unfold drainLoop
  split
  · split <;> rfl
  · rfl

theorem drain_dropped (limits : AdmissionLimits) (machine : Machine) :
    (machine.drain limits).dropped = machine.dropped := by
  unfold drain
  split
  · rfl
  · rw [drainLoop_dropped]

theorem release_dropped (limits : AdmissionLimits) (machine : Machine) (lease : AdmissionLease) :
    (machine.release limits lease).dropped = machine.dropped := by
  unfold release
  split
  · rfl
  · rw [drain_dropped]

/-- A step drops an entry only when a `withdrawn` throws. -/
theorem step_dropped (action : Action) {after : Machine} (met : onlyAdmittedThrows machine action)
    (stepped : machine.step limits action = some after) : after.dropped = machine.dropped := by
  cases action with
  | request request waiter => exact Option.some.inj stepped ▸ rfl
  | acquire request aborted => cases aborted <;> exact Option.some.inj stepped ▸ rfl
  | release lease =>
      simp only [step, Option.ite_none_right_eq_some, Option.some.injEq] at stepped
      exact stepped.2 ▸ release_dropped limits machine lease
  | cancel key reason => exact Option.some.inj stepped ▸ notifyWithdrawn_dropped _ _ _
  | withdraw selects reason => exact Option.some.inj stepped ▸ notifyWithdrawn_dropped _ _ _
  | abort entry => exact Option.some.inj stepped ▸ notifyWithdrawn_dropped _ _ _
  | stop => exact Option.some.inj stepped ▸ notifyWithdrawn_dropped _ _ _
  | callbackReturns =>
      cases top : machine.stack with
      | nil => simp [step, top] at stepped
      | cons frame rest =>
          simp only [step, top, Option.some.injEq] at stepped
          subst stepped
          cases frame with
          | admitting lease => exact drainLoop_dropped _ _
          | withdrawing waiting reason => exact notifyWithdrawn_dropped _ _ _
  | callbackThrows =>
      cases top : machine.stack with
      | nil => simp [step, top] at stepped
      | cons frame rest =>
          simp only [step, top, Option.some.injEq] at stepped
          subst stepped
          cases frame with
          | admitting lease => exact (drainLoop_dropped _ _).trans (release_dropped _ _ _)
          | withdrawing waiting reason => simp [onlyAdmittedThrows, top] at met

theorem dropped_of_reached (reached : (admission limits).ReachedBy onlyAdmittedThrows machine) :
    machine.dropped = [] :=
  reached.invariant (fun machine => machine.dropped = []) (fun _ first => by cases first; rfl)
    fun _ action _ none met stepped => (step_dropped action met stepped).trans none

/-- Between calls the tables of the pool agree and no slot is idle beside a waiting run. -/
structure Orderly (limits : AdmissionLimits) (pool : Pool) : Prop where
  slots : pool.leases.length ≤ limits.maxConcurrentRuns
  room : pool.queue.length ≤ limits.maxQueuedRuns
  live : ∀ lease, lease ∈ pool.leases ↔ lease ∈ pool.granted ∧ lease.id ∉ pool.released
  running : ∀ key, key ∈ pool.runningKeys ↔ key ∈ pool.leases.filterMap (·.key)
  keys : (pool.leases.filterMap (·.key) ++ pool.queue.filterMap (·.request.key)).Nodup
  counted : ∀ workspaceId, pool.held workspaceId =
    pool.leases.countP fun lease => lease.workspaceId = workspaceId
  noIdleSlot : pool.stopped = false → pool.queue ≠ [] → pool.leases.length = limits.maxConcurrentRuns

/-- A waiter hears nothing while its entry waits, and at most one callback ever. -/
theorem Valid.heard_le (valid : Valid limits machine) (entry : Nat) :
    machine.heard entry ≤ 1 ∧ (machine.isWaiting entry → machine.heard entry = 0) := by
  have total := valid.places_count entry
  have seen : machine.isWaiting entry → 0 < (machine.pool.queue.map (·.id)).count entry :=
    List.count_pos_iff.mpr
  constructor
  · split at total <;> omega
  · intro present
    have := seen present
    split at total <;> omega

/-- Between calls every entry that left the queue has heard its callback, unless it was dropped. -/
theorem Valid.heard_eq_one (valid : Valid limits machine) (between : machine.stack = [])
    (kept : machine.dropped = []) (entry : Nat) (below : entry < machine.pool.entered)
    (absent : ¬ machine.isWaiting entry) : machine.heard entry = 1 := by
  have total := valid.places_count entry
  rw [List.count_eq_zero_of_not_mem absent, between, kept, if_pos below] at total
  simpa using total

theorem Valid.orderly (valid : Valid limits machine) (between : machine.stack = []) :
    Orderly limits machine.pool where
  slots := valid.consistent.slots
  room := valid.consistent.room
  live := valid.consistent.live
  running := valid.consistent.running
  keys := valid.consistent.keys
  counted := valid.consistent.counted
  noIdleSlot active waiting := by
    have idle : machine.pool.draining = false := by
      have count := valid.oneDrain
      rw [OneDrain, between] at count
      by_contra draining
      simp [draining] at count
    exact le_antisymm valid.consistent.slots (valid.noIdleSlot active idle waiting)

end Machine

/-- Between calls the pool is orderly. Each entry hears one callback and only after it left the queue. -/
theorem admission_between_calls (limits : AdmissionLimits) (machine : Machine)
    (reached : (admission limits).Reachable machine) :
    (machine.stack = [] → Machine.Orderly limits machine.pool) ∧
      (∀ entry, machine.heard entry ≤ 1 ∧ (machine.isWaiting entry → machine.heard entry = 0)) ∧
      ((admission limits).ReachedBy Machine.onlyAdmittedThrows machine → machine.stack = [] →
        ∀ entry < machine.pool.entered, ¬ machine.isWaiting entry → machine.heard entry = 1) := by
  have valid := Machine.valid_of_reachable reached
  exact ⟨valid.orderly, valid.heard_le, fun returned between =>
    valid.heard_eq_one between (Machine.dropped_of_reached returned)⟩

/-- One slot passes to a waiting run that throws inside `admitted`, and then to the next one. -/
def handover : List Action :=
  [.request ⟨"a", some "k"⟩ true, .request ⟨"a", none⟩ true, .request ⟨"b", some "m"⟩ true,
    .release ⟨0, "a", some "k"⟩, .callbackThrows, .callbackReturns]

theorem admission_between_calls_handover :
    ∃ machine, (admission ⟨1, 2⟩).run {} handover = some machine ∧
      Machine.Orderly ⟨1, 2⟩ machine.pool ∧ ∀ entry, machine.heard entry ≤ 1 := by
  have ran : (admission ⟨1, 2⟩).run {} handover = some _ := rfl
  have reached : (admission ⟨1, 2⟩).Reachable _ := System.Reachable.run (.start {} rfl) ran
  have promises := admission_between_calls ⟨1, 2⟩ _ reached
  exact ⟨_, ran, promises.1 rfl, fun entry => (promises.2.1 entry).1⟩

end NimbleBrain.Admission
