import NimbleBrain.Admission.Pool
import Mathlib.Data.List.Range

/- The five tables of the pool agree after every operation. -/

namespace NimbleBrain.Admission

namespace Pool

def leaseKeys (pool : Pool) : List String := pool.leases.filterMap (·.key)

def queueKeys (pool : Pool) : List String := pool.queue.filterMap (·.request.key)

/-- The tables describe one set of leases and one queue of other keys. -/
structure Consistent (limits : AdmissionLimits) (pool : Pool) : Prop where
  slots : pool.leases.length ≤ limits.maxConcurrentRuns
  room : pool.queue.length ≤ limits.maxQueuedRuns
  running : ∀ key, key ∈ pool.runningKeys ↔ key ∈ pool.leaseKeys
  keys : (pool.leaseKeys ++ pool.queueKeys).Nodup
  counted : ∀ workspaceId, pool.held workspaceId =
    pool.leases.countP fun lease => lease.workspaceId = workspaceId
  identities : pool.granted.map (·.id) = List.range pool.granted.length
  live : ∀ lease, lease ∈ pool.leases ↔ lease ∈ pool.granted ∧ lease.id ∉ pool.released
  distinct : pool.leases.Nodup
  issued : ∀ id ∈ pool.released, id < pool.granted.length

variable {limits : AdmissionLimits} {pool : Pool}

variable {lease : AdmissionLease} {request : AdmissionRequest} {entry : Entry}

theorem Consistent.granted_id_lt (consistent : pool.Consistent limits) (member : lease ∈ pool.granted) :
    lease.id < pool.granted.length := by
  have found : lease.id ∈ pool.granted.map (·.id) := List.mem_map_of_mem member
  rw [consistent.identities] at found
  exact List.mem_range.mp found

/-- Two leases with one identity are one lease. -/
theorem Consistent.granted_unique (consistent : pool.Consistent limits) {first second : AdmissionLease}
    (member : first ∈ pool.granted) (other : second ∈ pool.granted) (same : first.id = second.id) :
    first = second := by
  have unique : (pool.granted.map (·.id)).Nodup := by
    rw [consistent.identities]
    exact List.nodup_range
  exact List.inj_on_of_nodup_map unique member other same

theorem mem_addKey (keys : Finset String) (key : Option String) (other : String) :
    other ∈ addKey keys key ↔ other ∈ keys ∨ key = some other := by
  cases key with
  | none => simp [addKey]
  | some key => simp [addKey, or_comm, eq_comm]

theorem mem_deleteKey (keys : Finset String) (key : Option String) (other : String) :
    other ∈ deleteKey keys key ↔ other ∈ keys ∧ key ≠ some other := by
  cases key with
  | none => simp [deleteKey]
  | some key => simp [deleteKey, and_comm, eq_comm]

theorem held_grant (pool : Pool) (request : AdmissionRequest) (workspaceId : String) :
    (pool.grant request).held workspaceId =
      pool.held workspaceId + if request.workspaceId = workspaceId then 1 else 0 := by
  by_cases same : workspaceId = request.workspaceId
  · subst same
    simp [held, grant]
  · simp [held, grant, Function.update_of_ne same, Ne.symm same]

theorem held_free (pool : Pool) (lease : AdmissionLease) (workspaceId : String) :
    (pool.free lease).held workspaceId =
      pool.held workspaceId - if lease.workspaceId = workspaceId then 1 else 0 := by
  by_cases same : workspaceId = lease.workspaceId
  · subst same
    change (Function.update pool.heldByWorkspace lease.workspaceId
      (if 0 < pool.held lease.workspaceId - 1 then some (pool.held lease.workspaceId - 1) else none)
      lease.workspaceId).getD 0 = _
    rw [Function.update_self, if_pos rfl]
    split
    · rfl
    · simp only [Option.getD_none]
      omega
  · simp [held, free, Function.update_of_ne same, Ne.symm same]

theorem leaseKeys_grant (pool : Pool) (request : AdmissionRequest) :
    (pool.grant request).leaseKeys = pool.leaseKeys ++ request.key.toList := by
  cases request with
  | mk workspaceId key => cases key <;> simp [leaseKeys, grant, newLease]

/-- A grant keeps the tables consistent while a slot is free and the key is new. -/
theorem Consistent.grant (consistent : pool.Consistent limits)
    (free : pool.leases.length < limits.maxConcurrentRuns)
    (fresh : ∀ key, request.key = some key → key ∉ pool.leaseKeys ++ pool.queueKeys) :
    (pool.grant request).Consistent limits where
  slots := by simpa [Pool.grant] using Nat.succ_le_of_lt free
  room := consistent.room
  running key := by
    rw [leaseKeys_grant, List.mem_append, ← consistent.running, Option.mem_toList]
    exact mem_addKey pool.runningKeys request.key key
  keys := by
    rw [leaseKeys_grant, List.append_assoc]
    change (pool.leaseKeys ++ (request.key.toList ++ pool.queueKeys)).Nodup
    have moved : (pool.leaseKeys ++ (request.key.toList ++ pool.queueKeys)).Perm
        (request.key.toList ++ (pool.leaseKeys ++ pool.queueKeys)) := List.perm_append_comm_assoc _ _ _
    rw [moved.nodup_iff]
    cases found : request.key with
    | none => simpa using consistent.keys
    | some key => simpa using ⟨by simpa using fresh key found, consistent.keys⟩
  counted workspaceId := by
    rw [held_grant, consistent.counted]
    simp [Pool.grant, newLease, List.countP_append, List.countP_singleton]
  identities := by
    simp [Pool.grant, newLease, consistent.identities, List.range_succ]
  live lease := by
    simp only [Pool.grant, List.mem_append, List.mem_singleton, consistent.live]
    constructor
    · rintro (⟨member, active⟩ | rfl)
      · exact ⟨.inl member, active⟩
      · exact ⟨.inr rfl, fun gone => absurd (consistent.issued _ gone) (lt_irrefl _)⟩
    · rintro ⟨member | rfl, active⟩
      · exact .inl ⟨member, active⟩
      · exact .inr rfl
  distinct := by
    have unseen : pool.newLease request ∉ pool.leases := fun member =>
      lt_irrefl _ (consistent.granted_id_lt ((consistent.live _).mp member).1)
    simpa [Pool.grant, List.nodup_append, consistent.distinct] using
      fun lease member (same : lease = pool.newLease request) => unseen (same ▸ member)
  issued id gone := by
    have := consistent.issued id gone
    simp only [Pool.grant, List.length_append, List.length_singleton]
    omega

/-- The first release of a lease keeps the tables consistent. -/
theorem Consistent.free (consistent : pool.Consistent limits) (member : lease ∈ pool.granted)
    (active : lease.id ∉ pool.released) :
    (pool.free lease).Consistent limits := by
  have held : lease ∈ pool.leases := (consistent.live lease).mpr ⟨member, active⟩
  have moved : pool.leases.Perm (lease :: pool.leases.erase lease) := List.perm_cons_erase held
  have leaseKeys : pool.leaseKeys.Perm (lease.key.toList ++ (pool.free lease).leaseKeys) := by
    refine (moved.filterMap _).trans ?_
    cases found : lease.key <;> simp [found, Pool.free, Pool.leaseKeys]
  have keys : (lease.key.toList ++ ((pool.free lease).leaseKeys ++ pool.queueKeys)).Nodup := by
    rw [← List.append_assoc, ← (leaseKeys.append_right _).nodup_iff]
    exact consistent.keys
  exact {
    slots := le_trans (List.length_erase_le) consistent.slots
    room := consistent.room
    running := fun key => by
      change key ∈ deleteKey pool.runningKeys lease.key ↔ _
      rw [mem_deleteKey, consistent.running, leaseKeys.mem_iff, List.mem_append, Option.mem_toList]
      have apart : lease.key = some key → key ∉ (pool.free lease).leaseKeys := fun same inside =>
        (List.nodup_append.mp keys).2.2 key (by simp [same]) key
          (List.mem_append_left _ inside) rfl
      tauto
    keys := (List.nodup_append.mp keys).2.1
    counted := fun workspaceId => by
      rw [held_free, consistent.counted, moved.countP_eq, List.countP_cons]
      simp [Pool.free]
    identities := consistent.identities
    live := fun other => by
      simp only [Pool.free, consistent.distinct.mem_erase_iff, List.mem_cons, not_or, consistent.live]
      constructor
      · rintro ⟨different, granted, active'⟩
        exact ⟨granted, fun same => different (consistent.granted_unique granted member same), active'⟩
      · rintro ⟨granted, different, active'⟩
        exact ⟨fun same => different (same ▸ rfl), granted, active'⟩
    distinct := consistent.distinct.erase lease
    issued := fun id gone => by
      rcases List.mem_cons.mp gone with rfl | gone
      · exact consistent.granted_id_lt member
      · exact consistent.issued id gone }

/-- A shorter queue keeps the tables consistent. -/
theorem Consistent.shorten (consistent : pool.Consistent limits) {queue : List Entry}
    (shorter : queue.Sublist pool.queue) : { pool with queue := queue }.Consistent limits :=
  { consistent with
    room := le_trans shorter.length_le consistent.room
    keys := consistent.keys.sublist ((shorter.filterMap _).append_left _) }

/-- The queue grows below its limit and by a new key only. -/
theorem Consistent.push (consistent : pool.Consistent limits) (space : pool.queue.length < limits.maxQueuedRuns)
    (fresh : ∀ key, request.key = some key → key ∉ pool.leaseKeys ++ pool.queueKeys) :
    (pool.push request).Consistent limits :=
  { consistent with
    room := by simpa [Pool.push] using Nat.succ_le_of_lt space
    keys := by
      have grown : (pool.push request).queueKeys = pool.queueKeys ++ request.key.toList := by
        cases request with
        | mk workspaceId key => cases key <;> simp [queueKeys, Pool.push]
      rw [grown]
      change (pool.leaseKeys ++ (pool.queueKeys ++ request.key.toList)).Nodup
      rw [← List.append_assoc, List.nodup_append]
      refine ⟨consistent.keys, by cases request.key <;> simp, ?_⟩
      intro key before other added
      rintro rfl
      exact fresh key (by simpa using added) before }

/-- A request that is not refused at once carries a new key. -/
theorem Consistent.fresh_of_refusalFor (consistent : pool.Consistent limits)
    (accepted : pool.refusalFor request = none) :
    pool.stopped = false ∧
      ∀ key, request.key = some key → key ∉ pool.leaseKeys ++ pool.queueKeys := by
  unfold refusalFor at accepted
  split at accepted
  · cases accepted
  · rename_i active
    refine ⟨by simpa using active, ?_⟩
    intro key found
    simp only [found, isRunning, consistent.running, decide_eq_true_eq] at accepted
    split at accepted
    · cases accepted
    · rename_i notRunning
      split at accepted
      · cases accepted
      · rename_i notQueued
        simp only [isQueued, List.any_eq_true, decide_eq_true_eq, not_exists, not_and] at notQueued
        simp only [List.mem_append, not_or]
        refine ⟨notRunning, ?_⟩
        simpa [queueKeys] using notQueued

/-- A request grants a free slot, joins a queue with room, or leaves the pool as it is. -/
theorem Consistent.request_cases (consistent : pool.Consistent limits) (request : AdmissionRequest) (waiter : Bool) :
    (pool.request limits request waiter).1 = pool ∨
    (∀ key, request.key = some key → key ∉ pool.leaseKeys ++ pool.queueKeys) ∧ pool.stopped = false ∧
      (pool.leases.length < limits.maxConcurrentRuns ∧ pool.queue = [] ∧
          (pool.request limits request waiter).1 = pool.grant request ∨
        (pool.leases.length < limits.maxConcurrentRuns → pool.queue ≠ []) ∧
          pool.queue.length < limits.maxQueuedRuns ∧
          (pool.request limits request waiter).1 = pool.push request) := by
  unfold Pool.request
  cases accepted : pool.refusalFor request with
  | some reason => exact .inl rfl
  | none =>
      obtain ⟨active, fresh⟩ := consistent.fresh_of_refusalFor accepted
      by_cases slot : pool.hasFreeSlot limits
      · have room : pool.leases.length < limits.maxConcurrentRuns ∧ pool.queue = [] := by
          simpa [hasFreeSlot, active] using slot
        exact .inr ⟨fresh, active, .inl ⟨room.1, room.2, by simp [slot]⟩⟩
      · cases waiter with
        | false => exact .inl (by simp [slot])
        | true =>
            by_cases full : limits.maxQueuedRuns ≤ pool.queue.length
            · exact .inl (by simp [slot, full])
            · have crowded : pool.leases.length < limits.maxConcurrentRuns → pool.queue ≠ [] := by
                simpa [hasFreeSlot, active] using slot
              exact .inr ⟨fresh, active, .inr ⟨crowded, by omega, by simp [slot, full]⟩⟩

/-- The scan looks at the queue from position `i` on, with `best` the first minimum before it. -/
theorem nextIndexFrom_spec (held : String → Nat) (seen rest : List Entry) (best : Nat) (entry : Entry)
    (found : seen[best]? = some entry)
    (fewest : ∀ other ∈ seen, held entry.request.workspaceId ≤ held other.request.workspaceId) :
    ∃ chosen, (seen ++ rest)[nextIndexFrom held rest seen.length best
        (held entry.request.workspaceId)]? = some chosen ∧
      ∀ other ∈ seen ++ rest, held chosen.request.workspaceId ≤ held other.request.workspaceId := by
  induction rest generalizing seen best entry with
  | nil => exact ⟨entry, by simpa [nextIndexFrom] using found, by simpa using fewest⟩
  | cons next rest ih =>
      have split : seen ++ next :: rest = (seen ++ [next]) ++ rest := by simp
      have counted : seen.length + 1 = (seen ++ [next]).length := by simp
      have bounded : best < seen.length := (List.getElem?_eq_some_iff.mp found).1
      simp only [nextIndexFrom]
      split
      · split
        · rename_i fewer
          rw [split, counted]
          apply ih (seen ++ [next]) seen.length next (by simp)
          intro other member
          rcases List.mem_append.mp member with earlier | last
          · exact le_trans fewer.le (fewest other earlier)
          · rw [List.mem_singleton.mp last]
        · rename_i more
          rw [split, counted]
          apply ih (seen ++ [next]) best entry (by rw [List.getElem?_append_left bounded, found])
          intro other member
          rcases List.mem_append.mp member with earlier | last
          · exact fewest other earlier
          · rw [List.mem_singleton.mp last]
            exact not_lt.mp more
      · rename_i none
        refine ⟨entry, by rw [List.getElem?_append_left bounded, found], ?_⟩
        intro other _
        omega

/-- Fair share finds a waiting run whose workspace holds the fewest slots. -/
theorem nextIndex_spec (pool : Pool) (waiting : pool.queue ≠ []) :
    ∃ entry, pool.queue[pool.nextIndex]? = some entry ∧
      ∀ other ∈ pool.queue, pool.held entry.request.workspaceId ≤ pool.held other.request.workspaceId := by
  unfold nextIndex
  cases found : pool.queue with
  | nil => exact absurd found waiting
  | cons first rest =>
      exact nextIndexFrom_spec pool.held [first] rest 0 first rfl (by simp)

theorem queue_perm_of_chosen {index : Nat} (chosen : pool.queue[index]? = some entry) :
    pool.queue.Perm (entry :: pool.queue.eraseIdx index) := by
  obtain ⟨bounded, same⟩ := List.getElem?_eq_some_iff.mp chosen
  rw [← same]
  exact (List.getElem_cons_eraseIdx_perm bounded).symm

/-- Fair share moves one key from the queue to the leases. -/
theorem Consistent.admitNext (consistent : pool.Consistent limits)
    (chosen : pool.queue[pool.nextIndex]? = some entry) (free : pool.leases.length < limits.maxConcurrentRuns) :
    (pool.admitNext entry).Consistent limits := by
  have moved := queue_perm_of_chosen chosen
  refine (consistent.shorten (List.eraseIdx_sublist _ _)).grant free ?_
  intro key found inside
  have keys : (pool.leaseKeys ++ (entry :: pool.queue.eraseIdx pool.nextIndex).filterMap
      (·.request.key)).Nodup :=
    ((moved.filterMap (·.request.key)).append_left _).nodup_iff.mp consistent.keys
  simp only [List.filterMap_cons, found] at keys
  exact (List.nodup_cons.mp (List.perm_middle.nodup_iff.mp keys)).1 inside

end Pool

end NimbleBrain.Admission
