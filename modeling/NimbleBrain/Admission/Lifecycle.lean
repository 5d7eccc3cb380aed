import NimbleBrain.Admission.Consistent

/- The pool stays consistent through every order of calls and callbacks. -/

namespace NimbleBrain.Admission

namespace Machine

/-- Every entry waits in the queue, waits in a frame, has heard its callback, or was dropped. -/
def places (machine : Machine) : List Nat :=
  machine.pool.queue.map (·.id) ++
    (machine.stack.flatMap Frame.pending ++ (machine.notices.map Prod.fst ++ machine.dropped))

/-- These facts hold at every moment of a drain. -/
structure Sound (limits : AdmissionLimits) (machine : Machine) : Prop where
  consistent : machine.pool.Consistent limits
  owned : ∀ lease, .admitting lease ∈ machine.stack → lease ∈ machine.pool.granted
  ledger : machine.places.Perm (List.range machine.pool.entered)

/-- Outside a drain no slot is free beside a waiting run. -/
def NoIdleSlot (limits : AdmissionLimits) (machine : Machine) : Prop :=
  machine.pool.stopped = false → machine.pool.draining = false → machine.pool.queue ≠ [] →
    limits.maxConcurrentRuns ≤ machine.pool.leases.length

/-- The drain that is under way is the one admitting frame of the stack. -/
def OneDrain (machine : Machine) : Prop :=
  machine.stack.countP Frame.isAdmitting = if machine.pool.draining then 1 else 0

structure Valid (limits : AdmissionLimits) (machine : Machine) : Prop extends
    Sound limits machine where
  noIdleSlot : NoIdleSlot limits machine
  oneDrain : OneDrain machine

variable {limits : AdmissionLimits} {machine : Machine}

theorem Sound.setDraining (sound : Sound limits machine) (draining : Bool) :
    Sound limits { machine with pool := { machine.pool with draining := draining } } :=
  { consistent := { sound.consistent with }, owned := sound.owned, ledger := sound.ledger }

/-- One turn of the drain loop ends in a callback or in a pool without an idle slot. -/
theorem Sound.drainLoop (sound : Sound limits machine) (draining : machine.pool.draining = true)
    (alone : machine.stack.countP Frame.isAdmitting = 0) : Valid limits (machine.drainLoop limits) := by
  unfold Machine.drainLoop
  split
  · rename_i wants
    simp only [Pool.wantsNext, Bool.and_eq_true, Bool.not_eq_true', List.isEmpty_eq_false_iff,
      decide_eq_true_eq] at wants
    obtain ⟨⟨active, waiting⟩, free⟩ := wants
    obtain ⟨entry, chosen, -⟩ := Pool.nextIndex_spec machine.pool waiting
    simp only [chosen]
    have moved : (machine.pool.queue.map (·.id)).Perm
        (entry.id :: (machine.pool.queue.eraseIdx machine.pool.nextIndex).map (·.id)) :=
      (Pool.queue_perm_of_chosen chosen).map _
    refine { consistent := sound.consistent.admitNext chosen free, owned := ?_, ledger := ?_,
             noIdleSlot := ?_, oneDrain := ?_ }
    · intro lease member
      simp only [Pool.admitNext, Pool.grant, List.mem_append]
      rcases List.mem_cons.mp member with same | earlier
      · exact .inr (by cases same; exact List.mem_singleton.mpr rfl)
      · exact .inl (sound.owned lease earlier)
    · refine List.Perm.trans ?_ sound.ledger
      refine List.Perm.trans ?_ (moved.symm.append_right _)
      simp only [places, Pool.admitNext, Pool.grant, List.flatMap_cons, Frame.pending, List.nil_append,
        List.map_append, List.map_cons, List.map_nil, List.append_assoc, List.cons_append]
      rw [← List.append_assoc, ← List.append_assoc]
      refine List.perm_middle.trans ?_
      simp
    · intro _ still
      simp [Pool.admitNext, Pool.grant, draining] at still
    · rw [OneDrain, List.countP_cons_of_pos rfl, alone]
      simp [Pool.admitNext, Pool.grant, draining]
  · rename_i rests
    refine { sound.setDraining false with noIdleSlot := ?_, oneDrain := by simpa [OneDrain] using alone }
    intro active _ waiting
    simpa [Pool.wantsNext, active, waiting, show machine.pool.stopped = false from active] using rests

/-- A drain inside a drain leaves the work to the outer one. -/
theorem Sound.drain (sound : Sound limits machine) (oneDrain : OneDrain machine) :
    Valid limits (machine.drain limits) := by
  unfold Machine.drain
  split
  · rename_i draining
    exact { sound with
            noIdleSlot := fun _ still => by simp [draining] at still
            oneDrain := oneDrain }
  · rename_i idle
    refine (sound.setDraining true).drainLoop rfl ?_
    simpa [OneDrain, idle] using oneDrain

variable {lease : AdmissionLease} {rest : List Frame}

theorem Sound.free (sound : Sound limits machine) (member : lease ∈ machine.pool.granted)
    (active : lease.id ∉ machine.pool.released) :
    Sound limits { machine with pool := machine.pool.free lease } :=
  { consistent := sound.consistent.free member active, owned := sound.owned, ledger := sound.ledger }

theorem Valid.release (valid : Valid limits machine) (member : lease ∈ machine.pool.granted) :
    Valid limits (machine.release limits lease) := by
  unfold Machine.release
  split
  · exact valid
  · rename_i active
    exact (valid.toSound.free member active).drain valid.oneDrain

/-- The first withdrawn entry hears the reason and the others wait in the frame. -/
theorem notifyWithdrawn_valid (machine : Machine) (sound : machine.pool.Consistent limits)
    (owned : ∀ lease, .admitting lease ∈ machine.stack → lease ∈ machine.pool.granted)
    (noIdleSlot : NoIdleSlot limits machine) (oneDrain : OneDrain machine) (entries : List Entry)
    (reason : AdmissionWithdrawal)
    (ledger : (entries.map (·.id) ++ machine.places).Perm (List.range machine.pool.entered)) :
    Valid limits (machine.notifyWithdrawn reason entries) := by
  cases entries with
  | nil => exact { consistent := sound, owned := owned, ledger := ledger, noIdleSlot := noIdleSlot, oneDrain := oneDrain }
  | cons entry rest =>
      refine { consistent := sound, owned := ?_, ledger := ?_, noIdleSlot := noIdleSlot, oneDrain := ?_ }
      · intro lease member
        rcases List.mem_cons.mp member with same | earlier
        · cases same
        · exact owned lease earlier
      · refine List.Perm.trans ?_ ledger
        simp only [places, Machine.notifyWithdrawn, List.flatMap_cons, Frame.pending, List.map_append,
          List.map_cons, List.map_nil, List.append_assoc, List.cons_append, List.nil_append]
        rw [List.perm_iff_count]
        intro id
        simp only [List.count_append, List.count_cons]
        omega
      · rw [OneDrain, Machine.notifyWithdrawn, List.countP_cons_of_neg (by simp [Frame.isAdmitting])]
        exact oneDrain

theorem Valid.withdraw (valid : Valid limits machine) (selects : Entry → Bool) (reason : AdmissionWithdrawal) :
    Valid limits (machine.withdraw selects reason) := by
  have shorter : (machine.pool.queue.filter fun entry => !selects entry).Sublist machine.pool.queue :=
    List.filter_sublist
  unfold Machine.withdraw
  apply notifyWithdrawn_valid
  · exact valid.consistent.shorten shorter
  · exact valid.owned
  · intro active idle waiting
    exact valid.noIdleSlot active idle fun none => waiting (by simp [none])
  · exact valid.oneDrain
  · refine List.Perm.trans ?_ valid.ledger
    have parts : (machine.pool.queue.filter selects ++
        machine.pool.queue.filter fun entry => !selects entry).Perm machine.pool.queue :=
      List.filter_append_perm selects machine.pool.queue
    have ids := parts.map (·.id)
    rw [List.map_append] at ids
    simp only [places]
    rw [← List.append_assoc]
    exact ids.append_right _

theorem Valid.request (valid : Valid limits machine) (request : AdmissionRequest) (waiter : Bool) :
    Valid limits { machine with pool := (machine.pool.request limits request waiter).1 } := by
  rcases valid.consistent.request_cases request waiter with same | ⟨fresh, -, granted | queued⟩
  · rw [same]
    exact valid
  · obtain ⟨free, waiting, same⟩ := granted
    rw [same]
    exact {
      consistent := valid.consistent.grant free fresh
      owned := fun lease member => List.mem_append_left _ (valid.owned lease member)
      ledger := valid.ledger
      noIdleSlot := fun _ _ some => absurd waiting some
      oneDrain := valid.oneDrain }
  · obtain ⟨crowded, space, same⟩ := queued
    rw [same]
    refine { consistent := valid.consistent.push space fresh, owned := valid.owned, ledger := ?_,
             noIdleSlot := ?_, oneDrain := valid.oneDrain }
    · simp only [places, Pool.push, List.map_append, List.map_cons, List.map_nil, List.append_assoc,
        List.range_succ]
      rw [← List.append_assoc]
      refine (List.perm_append_comm.append_right _).trans ?_
      rw [List.append_assoc]
      exact List.perm_append_comm.trans (valid.ledger.append_right _)
    · intro active idle _
      by_contra free
      have free := not_le.mp free
      exact absurd (valid.noIdleSlot active idle (crowded free)) (not_le.mpr free)

theorem Valid.stop (valid : Valid limits machine) :
    Valid limits { machine with pool := { machine.pool with stopped := true } } :=
  { consistent := { valid.consistent with }, owned := valid.owned, ledger := valid.ledger
    noIdleSlot := fun active => by simp at active
    oneDrain := valid.oneDrain }

/-- A popped drain frame leaves a drain without a frame. -/
theorem Valid.pop_admitting (valid : Valid limits machine) (top : machine.stack = .admitting lease :: rest) :
    Sound limits { machine with stack := rest } ∧ machine.pool.draining = true ∧
      rest.countP Frame.isAdmitting = 0 := by
  have count := valid.oneDrain
  rw [OneDrain, top, List.countP_cons_of_pos rfl] at count
  have draining : machine.pool.draining = true := by
    by_contra idle
    simp [idle] at count
  refine ⟨⟨valid.consistent, fun other member => ?_, ?_⟩, draining, ?_⟩
  · exact valid.owned other (top ▸ List.mem_cons_of_mem _ member)
  · have ledger := valid.ledger
    simp only [places, top, List.flatMap_cons, Frame.pending, List.nil_append] at ledger
    exact ledger
  · rw [if_pos draining] at count
    omega

theorem Valid.pop_withdrawing (valid : Valid limits machine) {waiting : List Entry} {reason : AdmissionWithdrawal}
    (top : machine.stack = .withdrawing waiting reason :: rest) :
    (∀ lease, .admitting lease ∈ rest → lease ∈ machine.pool.granted) ∧
      OneDrain { machine with stack := rest } ∧
      (waiting.map (·.id) ++ ({ machine with stack := rest } : Machine).places).Perm
        (List.range machine.pool.entered) := by
  refine ⟨fun lease member => valid.owned lease (top ▸ List.mem_cons_of_mem _ member), ?_, ?_⟩
  · have count := valid.oneDrain
    rwa [OneDrain, top, List.countP_cons_of_neg (by simp [Frame.isAdmitting])] at count
  · refine List.Perm.trans ?_ valid.ledger
    simp only [places, top, List.flatMap_cons, Frame.pending, List.append_assoc]
    rw [← List.append_assoc, ← List.append_assoc (machine.pool.queue.map (·.id))]
    exact List.perm_append_comm.append_right _

/-- An error of `admitted` gives the slot back before the drain goes on. -/
theorem Valid.throw_admitting (valid : Valid limits machine) (top : machine.stack = .admitting lease :: rest) :
    Valid limits (({ machine with stack := rest }.release limits lease).drainLoop limits) := by
  obtain ⟨sound, draining, alone⟩ := valid.pop_admitting top
  have member : lease ∈ machine.pool.granted := valid.owned lease (by simp [top])
  unfold Machine.release
  split
  · exact sound.drainLoop draining alone
  · rename_i active
    have still : (machine.pool.free lease).draining = true := draining
    rw [Machine.drain, if_pos still]
    exact (sound.free member active).drainLoop still alone

/-- Every step keeps the machine valid. -/
theorem Valid.step (valid : Valid limits machine) (action : Action) {after : Machine}
    (stepped : machine.step limits action = some after) : Valid limits after := by
  cases action with
  | request request waiter => exact Option.some.inj stepped ▸ valid.request request waiter
  | acquire request aborted =>
      cases aborted with
      | true => exact Option.some.inj stepped ▸ valid
      | false => exact Option.some.inj stepped ▸ valid.request request true
  | release lease =>
      simp only [Machine.step, Option.ite_none_right_eq_some, Option.some.injEq] at stepped
      obtain ⟨member, rfl⟩ := stepped
      exact valid.release member
  | cancel key reason => exact Option.some.inj stepped ▸ valid.withdraw _ reason
  | withdraw selects reason => exact Option.some.inj stepped ▸ valid.withdraw _ reason
  | abort entry => exact Option.some.inj stepped ▸ valid.withdraw _ .aborted
  | stop => exact Option.some.inj stepped ▸ valid.stop.withdraw _ .stopped
  | callbackReturns =>
      cases top : machine.stack with
      | nil => simp [Machine.step, top] at stepped
      | cons frame rest =>
          simp only [Machine.step, top, Option.some.injEq] at stepped
          subst stepped
          cases frame with
          | admitting lease =>
              obtain ⟨sound, draining, alone⟩ := valid.pop_admitting top
              exact sound.drainLoop draining alone
          | withdrawing waiting reason =>
              obtain ⟨owned, oneDrain, ledger⟩ := valid.pop_withdrawing top
              exact notifyWithdrawn_valid { machine with stack := rest } valid.consistent owned valid.noIdleSlot oneDrain waiting
                reason ledger
  | callbackThrows =>
      cases top : machine.stack with
      | nil => simp [Machine.step, top] at stepped
      | cons frame rest =>
          simp only [Machine.step, top, Option.some.injEq] at stepped
          subst stepped
          cases frame with
          | admitting lease => exact valid.throw_admitting top
          | withdrawing waiting reason =>
              obtain ⟨owned, oneDrain, ledger⟩ := valid.pop_withdrawing top
              refine { consistent := valid.consistent, owned := owned, ledger := ?_,
                       noIdleSlot := valid.noIdleSlot, oneDrain := oneDrain }
              refine List.Perm.trans ?_ ledger
              simp only [places, Machine.unwind]
              rw [← List.append_assoc, ← List.append_assoc, ← List.append_assoc]
              refine List.perm_append_comm.trans (List.Perm.append_left _ ?_)
              simp

end Machine

end NimbleBrain.Admission
