import NimbleBrain.Notifications.LedgerRows

/- A boot scan that finds nothing under way leaves every delivery counted and closed once. -/

namespace NimbleBrain.Notifications

open Library EventRuns

namespace Deliveries

/-- At the boot scan no attempt runs or is queued, and no wake is unsettled. Other steps are free. -/
def NothingUnderWayAtScan : System.Guard Deliveries DeliveryStep
  | world, .scan _ => world.memory.jobsOwed = [] ∧ world.memory.wakes = []
  | world, .stopInScan _ _ => world.memory.jobsOwed = [] ∧ world.memory.wakes = []
  | _, _ => True

instance (world : Deliveries) (step : DeliveryStep) : Decidable (NothingUnderWayAtScan world step) :=
  match step with
  | .scan _ => inferInstanceAs (Decidable (_ ∧ _))
  | .stopInScan _ _ => inferInstanceAs (Decidable (_ ∧ _))
  | .boot | .arrive .. | .startJob | .readRoutes .. | .wakeNext _ | .callNext | .answer _ | .record _
  | .settleWake _ | .trigger _ | .sweep _ | .scanFails | .stop | .crash => .isTrue trivial

/-- A process that owes nothing beside its index. -/
structure Idle (world : Deliveries) : Prop where
  running : world.process = some world.memory
  jobs : world.memory.jobsOwed = []
  wakes : world.memory.wakes = []

variable {world : Deliveries}

theorem Idle.owed (idle : world.Idle) : world.memory.owed = world.memory.indexOwed := by
  rw [Dispatcher.owed, idle.jobs, Dispatcher.wakesOwed, idle.wakes]
  simp

/-- An idle process owes tool calls alone. -/
theorem Idle.tool (idle : world.Idle) {one : Owed} (member : one ∈ world.memory.owed) :
    one.kind = .tool ∧ ∃ key entry, (key, entry) ∈ world.memory.pending.entries ∧ one = entry.owed := by
  rw [idle.owed] at member
  obtain ⟨entry, listed, rfl⟩ := List.mem_map.mp member
  obtain ⟨key, found⟩ := OrderedMap.mem_values.mp listed
  exact ⟨rfl, key, entry, found, rfl⟩

variable {process : Dispatcher} {key : RowKey} {row : DeliveryRecord} {after : Deliveries} {wsId : String}

theorem run_self (running : world.process = some process) : world.run process = world := by
  rw [run, ← running]

/-- A deferred row of the last process is closed. -/
theorem Sound.closeLost (sound : world.Sound) (idle : world.Idle) (found : world.rows.get? key = some row)
    (deferred : row.outcome = .deferred) (now : Moment) :
    (world.writeRow key (lostBatchRow row now)).Sound := by
  obtain ⟨kind, attempts⟩ := (sound.bounded key row found).deferred deferred
  have unfinished : row.isFinished = false := by simp [DeliveryRecord.isFinished, deferred]
  have within : (lostBatchRow row now).attempts ≤ maxRouteAttempts := (sound.bounded key row found).finished
  have apart : ∀ one ∈ world.memory.owed, one.key ≠ key := by
    intro one member same
    obtain ⟨tool, -⟩ := idle.tool member
    obtain ⟨held, listed, waits⟩ := sound.held.waits one member
    rw [same, found, Option.some.injEq] at listed
    have clash := waits.kind
    rw [← listed, kind, tool] at clash
    cases clash
  have running : (world.writeRow key (lostBatchRow row now)).process = some world.memory := idle.running
  rw [← run_self running]
  exact sound.write found unfinished (finished_sound rfl within) sound.held apart (.inl (.refl _)) (fun _ => rfl)
    (.refl _) sound.keyed sound.conserved

/-- A pending row is indexed, in the place of an entry that was there. -/
theorem Sound.index (sound : world.Sound) (idle : world.Idle) (found : world.rows.get? key = some row)
    (pending : row.outcome = .pending) (now : Moment) :
    (world.run (world.memory.index key row now)).Sound := by
  have kind := ((sound.bounded key row found).pending pending).1
  have set := Dispatcher.owed_set world.memory key
    { key := key, attempts := row.attempts, dueAt := row.nextAttemptAt.getD now }
  have others : Held world.rows { world.memory with pending := world.memory.pending.delete key }.owed :=
    (sound.held.perm (Dispatcher.owed_delete world.memory key)).right
  have apart : ∀ one ∈ { world.memory with pending := world.memory.pending.delete key }.owed, one.key ≠ key := by
    intro one member
    have none : { world.memory with pending := world.memory.pending.delete key }.owed =
        { world.memory with pending := world.memory.pending.delete key }.indexOwed := by
      have jobs : { world.memory with pending := world.memory.pending.delete key }.jobsOwed = [] := idle.jobs
      have wakes : { world.memory with pending := world.memory.pending.delete key }.wakes = [] := idle.wakes
      rw [Dispatcher.owed, jobs, Dispatcher.wakesOwed, wakes]
      simp
    rw [none] at member
    obtain ⟨entry, listed, rfl⟩ := List.mem_map.mp member
    obtain ⟨other, stored⟩ := OrderedMap.mem_values.mp listed
    obtain ⟨old, different⟩ := OrderedMap.mem_delete.mp stored
    have own := sound.keyed _ old
    exact fun same => different (own.symm.trans same)
  have waits : row.Awaits { key := key, kind := .tool, attempts := row.attempts } := ⟨kind, rfl, pending⟩
  apply sound.hold
  · exact (others.cons apart found waits).perm set.symm
  · exact .refl _
  · exact .refl _
  · intro entry member
    rcases OrderedMap.mem_set.mp member with rfl | ⟨old, -⟩
    · rfl
    · exact sound.keyed entry old
  · exact sound.conserved

/-- One row of the scan is closed or indexed. -/
theorem Sound.resumeRow (sound : world.Sound) (idle : world.Idle) {entry : RowKey × DeliveryRecord}
    (found : world.rows.get? entry.1 = some entry.2) (unfinished : entry.2.isFinished = false) (now : Moment) :
    (world.resumeRow now entry).Sound ∧ (world.resumeRow now entry).Idle ∧
      (world.resumeRow now entry).dispatched = world.dispatched ∧
      world.closed <+: (world.resumeRow now entry).closed ∧
      ∀ key, key ≠ entry.1 → (world.resumeRow now entry).rows.get? key = world.rows.get? key := by
  have outcome : entry.2.outcome = .pending ∨ entry.2.outcome = .deferred := by
    by_contra other
    simp only [not_or] at other
    simp [DeliveryRecord.isFinished, other] at unfinished
  have bounded := sound.bounded _ _ found
  unfold Deliveries.resumeRow
  rw [idle.running]
  rcases outcome with pending | deferred
  · obtain ⟨tool, -⟩ := bounded.pending pending
    simp only [tool, if_pos pending]
    exact ⟨sound.index idle found pending now, ⟨rfl, idle.jobs, idle.wakes⟩, rfl, List.prefix_refl _, fun _ _ => rfl⟩
  · obtain ⟨agent, -⟩ := bounded.deferred deferred
    simp only [agent, if_pos deferred]
    refine ⟨sound.closeLost idle found deferred now, ⟨idle.running, idle.jobs, idle.wakes⟩, rfl,
      List.prefix_append .., fun key other => ?_⟩
    exact (OrderedMap.get?_set ..).trans (if_neg other)

/-- The rows of the scan are taken one by one. -/
theorem Sound.resumeRows (now : Moment) (entries : List (RowKey × DeliveryRecord)) (world : Deliveries)
    (sound : world.Sound) (idle : world.Idle) (distinct : (entries.map Prod.fst).Nodup)
    (found : ∀ entry ∈ entries, world.rows.get? entry.1 = some entry.2)
    (unfinished : ∀ entry ∈ entries, entry.2.isFinished = false) :
    (entries.foldl (Deliveries.resumeRow now) world).Sound ∧
      (entries.foldl (Deliveries.resumeRow now) world).dispatched = world.dispatched ∧
      world.closed <+: (entries.foldl (Deliveries.resumeRow now) world).closed := by
  induction entries generalizing world with
  | nil => exact ⟨sound, rfl, List.prefix_refl _⟩
  | cons entry rest ih =>
      obtain ⟨fresh, distinct⟩ := List.nodup_cons.mp distinct
      have first := List.mem_cons_self (a := entry) (l := rest)
      obtain ⟨after, still, dispatched, closed, others⟩ := sound.resumeRow idle (found entry first)
        (unfinished entry first) now
      have kept (other : RowKey × DeliveryRecord) (member : other ∈ rest) :
          (world.resumeRow now entry).rows.get? other.1 = some other.2 := by
        have different : other.1 ≠ entry.1 := fun same => fresh (same ▸ List.mem_map_of_mem member)
        exact (others other.1 different).trans (found other (List.mem_cons_of_mem _ member))
      obtain ⟨last, same, more⟩ := ih (world.resumeRow now entry) after still distinct kept
        fun other member => unfinished other (List.mem_cons_of_mem _ member)
      exact ⟨last, same.trans dispatched, closed.trans more⟩

theorem Sound.scanFirst (sound : world.Sound) (running : world.process = some process)
    (jobs : process.jobsOwed = []) (wakes : process.wakes = []) (count : Nat) (now : Moment) :
    (world.scanFirst count process now).Sound ∧ (world.scanFirst count process now).dispatched = world.dispatched ∧
      world.closed <+: (world.scanFirst count process now).closed := by
  obtain rfl := memory_of_process running
  have marked : (world.run { world.memory with scanned := true }).Sound :=
    sound.hold sound.held (.refl _) (.refl _) sound.keyed sound.conserved
  have listed (entry : RowKey × DeliveryRecord) (member : entry ∈ world.pendingDeliveries.take count) :
      entry ∈ world.rows.entries ∧ entry.2.isFinished = false := by
    simpa [pendingDeliveries] using List.mem_of_mem_take member
  apply Sound.resumeRows now _ _ marked ⟨rfl, jobs, wakes⟩
  · exact world.rows.distinct.sublist
      (((List.take_sublist ..).trans List.filter_sublist).map Prod.fst)
  · exact fun entry member => OrderedMap.get?_eq_some_iff.mpr (listed entry member).1
  · exact fun entry member => (listed entry member).2

theorem Sound.initial : ({} : Deliveries).Sound where
  held := ⟨List.nodup_nil, fun _ member => nomatch member⟩
  counted _ := rfl
  closedOnce _ := rfl
  bounded _ _ found := nomatch found
  lostOnce _ := Nat.le_refl 0
  known _ _ found := nomatch found
  unreadOnce := List.nodup_nil
  unreadNew _ member := nomatch member
  keyed _ member := nomatch member
  conserved _ := rfl

/-- Every step that meets the guard keeps the ledger sound. -/
theorem Sound.step (sound : world.Sound) {step : DeliveryStep} (met : NothingUnderWayAtScan world step)
    (stepped : (deliverySystem wsId).step world step = some after) :
    after.Sound := by
  cases running : world.process with
  | none =>
      simp only [deliverySystem, running] at stepped
      cases step with
      | boot => exact Option.some.inj stepped ▸ sound.boot running
      | _ => cases stepped
  | some process =>
      have memory := memory_of_process running
      replace stepped : world.processStep wsId process step = some after := by
        simpa only [deliverySystem, running] using stepped
      cases step with
      | boot => cases stepped
      | arrive item only =>
          simp only [processStep] at stepped
          split at stepped
          · cases stepped
          · next new => exact Option.some.inj stepped ▸ sound.arrive running only new
      | startJob => exact sound.startJob running stepped
      | readRoutes routes now => exact sound.readRoutes running stepped
      | wakeNext answer => exact sound.wakeNext running stepped
      | callNext => exact sound.callNext running stepped
      | answer answer => exact sound.answer running stepped
      | record now => exact sound.record running stepped
      | settleWake now => exact sound.settleWake running stepped
      | trigger move =>
          obtain ⟨trigger, moved, rfl⟩ := Option.map_eq_some_iff.mp stepped
          exact sound.trigger running moved
      | sweep now => exact Option.some.inj stepped ▸ sound.sweep running now
      | scan now =>
          obtain ⟨jobs, wakes⟩ := met
          rw [memory] at jobs wakes
          simp only [processStep] at stepped
          split at stepped
          · cases stepped
          · exact Option.some.inj stepped ▸ (sound.scanFirst running jobs wakes _ now).1
      | scanFails =>
          simp only [processStep] at stepped
          split at stepped
          · cases stepped
          · obtain rfl := memory
            exact Option.some.inj stepped ▸
              sound.hold sound.held (.refl _) (.refl _) sound.keyed sound.conserved
      | stopInScan count now =>
          obtain ⟨jobs, wakes⟩ := met
          rw [memory] at jobs wakes
          simp only [processStep] at stepped
          split at stepped
          · cases stepped
          · exact Option.some.inj stepped ▸ (sound.scanFirst running jobs wakes count now).1.crash
      | stop =>
          obtain rfl := memory
          exact Option.some.inj stepped ▸ sound.hold sound.held (.refl _) (.refl _) sound.keyed sound.conserved
      | crash => exact Option.some.inj stepped ▸ sound.crash

/-- A step dispatches at most one delivery, which was owed. What was closed stays closed. -/
def Extends (world after : Deliveries) : Prop :=
  (after.dispatched = world.dispatched ∨
    ∃ one ∈ world.memory.owed, after.dispatched = world.dispatched ++ [one.key]) ∧
    world.closed <+: after.closed

theorem Extends.same (dispatched : after.dispatched = world.dispatched) (closed : after.closed = world.closed) :
    world.Extends after :=
  ⟨.inl dispatched, closed ▸ List.prefix_refl _⟩

theorem Extends.head {after : Deliveries} {job : Job} {rest : List Job} {one : Owed}
    (jobs : world.memory.jobs = job :: rest) (owed : one ∈ job.owed)
    (dispatched : after.dispatched = world.dispatched ++ [one.key]) (closed : after.closed = world.closed) :
    world.Extends after := by
  refine ⟨.inr ⟨one, ?_, dispatched⟩, closed ▸ List.prefix_refl _⟩
  rw [Dispatcher.owed_cons _ jobs]
  exact List.mem_append_left _ owed

theorem Sound.extends (sound : world.Sound) {step : DeliveryStep} (met : NothingUnderWayAtScan world step)
    (stepped : (deliverySystem wsId).step world step = some after) :
    world.Extends after := by
  cases running : world.process with
  | none =>
      simp only [deliverySystem, running] at stepped
      cases step with
      | boot => exact Option.some.inj stepped ▸ .same rfl rfl
      | _ => cases stepped
  | some process =>
      obtain rfl := memory_of_process running
      replace stepped : world.processStep wsId world.memory step = some after := by
        simpa only [deliverySystem, running] using stepped
      cases step with
      | boot => cases stepped
      | arrive item only =>
          simp only [processStep] at stepped
          split at stepped
          · cases stepped
          · exact Option.some.inj stepped ▸ .same rfl rfl
      | startJob =>
          simp only [processStep, Deliveries.startJob] at stepped
          split at stepped
          · exact Option.some.inj stepped ▸ .same rfl rfl
          · split at stepped <;> exact Option.some.inj stepped ▸ .same rfl rfl
          · cases stepped
      | readRoutes routes now =>
          simp only [processStep, Deliveries.readRoutes] at stepped
          split at stepped
          · exact Option.some.inj stepped ▸ .same rfl rfl
          · obtain rfl := Option.some.inj stepped
            rw [seed_eq]
            exact .same rfl rfl
          · exact Option.some.inj stepped ▸ .same rfl rfl
          · next entry rest list jobs =>
              split at stepped
              · exact Option.some.inj stepped ▸ ⟨.inl rfl, List.prefix_append ..⟩
              · next key kept =>
                  obtain rfl := Option.some.inj stepped
                  obtain rfl := retryTarget_key kept
                  exact @Extends.head _ _ _ _ entry.owed jobs (List.mem_singleton.mpr rfl) rfl rfl
          · cases stepped
      | wakeNext answer =>
          simp only [processStep, Deliveries.wakeNext] at stepped
          split at stepped
          · next wake agents tools rest jobs =>
              exact Option.some.inj stepped ▸ @Extends.head _ _ _ _ (.firstWake wake.row) jobs (List.mem_cons_self ..) rfl rfl
          · cases stepped
      | callNext =>
          simp only [processStep, Deliveries.callNext] at stepped
          split at stepped
          · exact Option.some.inj stepped ▸ .same rfl rfl
          · next key tools rest jobs =>
              split at stepped
              · exact Option.some.inj stepped ▸ .same rfl rfl
              · exact Option.some.inj stepped ▸ @Extends.head _ _ _ _ (.firstCall key) jobs (List.mem_cons_self ..) rfl rfl
          · cases stepped
      | answer answer =>
          simp only [processStep, Deliveries.answer] at stepped
          split at stepped
          · exact Option.some.inj stepped ▸ .same rfl rfl
          · cases stepped
      | record now =>
          simp only [processStep, Deliveries.record] at stepped
          split at stepped
          · exact Option.some.inj stepped ▸ ⟨.inl rfl, List.prefix_append ..⟩
          · cases stepped
      | settleWake now =>
          simp only [processStep, Deliveries.settleWake] at stepped
          split at stepped
          · exact Option.some.inj stepped ▸ ⟨.inl rfl, List.prefix_append ..⟩
          · cases stepped
      | trigger move =>
          obtain ⟨trigger, moved, rfl⟩ := Option.map_eq_some_iff.mp stepped
          exact .same rfl rfl
      | sweep now => exact Option.some.inj stepped ▸ .same rfl rfl
      | scan now =>
          obtain ⟨-, dispatched, closed⟩ := sound.scanFirst running met.1 met.2 world.pendingDeliveries.length now
          simp only [processStep] at stepped
          split at stepped
          · cases stepped
          · exact Option.some.inj stepped ▸ ⟨.inl dispatched, closed⟩
      | scanFails =>
          simp only [processStep] at stepped
          split at stepped
          · cases stepped
          · exact Option.some.inj stepped ▸ .same rfl rfl
      | stopInScan count now =>
          obtain ⟨-, dispatched, closed⟩ := sound.scanFirst running met.1 met.2 count now
          simp only [processStep] at stepped
          split at stepped
          · cases stepped
          · exact Option.some.inj stepped ▸ ⟨.inl dispatched, closed⟩
      | stop => exact Option.some.inj stepped ▸ .same rfl rfl
      | crash => exact Option.some.inj stepped ▸ .same rfl rfl

theorem sound_of_reached (reached : (deliverySystem wsId).ReachedBy NothingUnderWayAtScan world) :
    world.Sound := by
  apply reached.invariant Sound
  · intro world first
    obtain rfl := first
    exact .initial
  · exact fun _ _ _ sound met stepped => sound.step met stepped

/-- A row that was closed is finished. -/
theorem Sound.finished (sound : world.Sound) (closed : key ∈ world.closed) :
    ∃ row, world.rows.get? key = some row ∧ row.isFinished = true := by
  have positive := List.count_pos_iff.mpr closed
  rw [sound.closedOnce key, closedAt] at positive
  cases found : world.rows.get? key with
  | none => simp [found] at positive
  | some row =>
      refine ⟨row, rfl, ?_⟩
      cases finished : row.isFinished with
      | true => rfl
      | false => simp [found, finished] at positive

theorem Sound.not_owed (sound : world.Sound) (closed : key ∈ world.closed) :
    ∀ one ∈ world.memory.owed, one.key ≠ key := by
  obtain ⟨row, found, finished⟩ := sound.finished closed
  intro one member same
  obtain ⟨waiting, listed, waits⟩ := sound.held.waits one member
  rw [same, found, Option.some.injEq] at listed
  have clash := waits.unfinished
  rw [← listed, finished] at clash
  cases clash

/-- A closed delivery stays closed and is not dispatched again. -/
theorem Sound.stays_closed (sound : world.Sound) (closed : key ∈ world.closed) {steps : List DeliveryStep}
    {last : Deliveries} (meets : (deliverySystem wsId).Meets NothingUnderWayAtScan world steps)
    (ran : (deliverySystem wsId).run world steps = some last) :
    last.dispatched.count key = world.dispatched.count key := by
  induction steps generalizing world with
  | nil => rw [← Option.some.inj ran]
  | cons step rest ih =>
      rw [System.run_cons, Option.bind_eq_some_iff] at ran
      obtain ⟨after, stepped, ran⟩ := ran
      obtain ⟨dispatched, more⟩ := sound.extends meets.1 stepped
      rw [ih (sound.step meets.1 stepped) (more.subset closed) (meets.2 after stepped) ran]
      rcases dispatched with same | ⟨one, member, added⟩
      · rw [same]
      · have other := sound.not_owed closed one member
        rw [added, List.count_append, List.count_singleton, if_neg (by simpa using other), Nat.add_zero]

/-- The delivery ledger, when no boot scan finds a delivery of its own process under way. -/
theorem ledger_guarded {wsId : String} (reached : (deliverySystem wsId).ReachedBy NothingUnderWayAtScan world)
    (key : RowKey) :
    world.closed.count key ≤ 1 ∧
      (key ∈ world.closed → ∀ steps last, (deliverySystem wsId).Meets NothingUnderWayAtScan world steps →
        (deliverySystem wsId).run world steps = some last →
        last.dispatched.count key = world.dispatched.count key) ∧
      (∀ row, world.rows.get? key = some row → key ∉ world.memory.inFlight →
        row.attempts + world.lost.count key = world.dispatched.count key) ∧
      world.lost.count key ≤ world.crashes ∧
      world.dispatched.count key ≤ maxRouteAttempts + world.lost.count key ∧
      (∀ settler ∈ world.memory.trigger.waiting, settler.row = key →
        ∃ row, world.rows.get? key = some row ∧ row.outcome = .deferred) := by
  have sound := sound_of_reached reached
  have counted := sound.counted key
  refine ⟨?_, ?_, ?_, sound.lostOnce key, ?_, ?_⟩
  · rw [sound.closedOnce key, closedAt]
    cases world.rows.get? key with
    | none => exact Nat.zero_le 1
    | some row =>
        rw [Option.elim_some]
        split <;> decide
  · exact fun closed steps last meets ran => sound.stays_closed closed meets ran
  · intro row found landed
    rw [List.count_eq_zero_of_not_mem landed, attemptsAt, found, Option.elim_some] at counted
    omega
  · have once := sound.inFlight_le key
    by_cases flying : key ∈ world.memory.inFlight
    · have owed := (inFlight_sublist world.memory).subset flying
      obtain ⟨one, member, rfl⟩ := List.mem_map.mp owed
      obtain ⟨row, found, waits⟩ := sound.held.waits one member
      have within : row.attempts < maxRouteAttempts := by
        cases kind : one.kind with
        | tool => exact ((sound.bounded _ row found).pending (by simpa [kind] using waits.outcome)).2
        | agent =>
            have first := ((sound.bounded _ row found).deferred (by simpa [kind] using waits.outcome)).2
            exact first ▸ (by decide)
      rw [attemptsAt, found, Option.elim_some] at counted
      omega
    · rw [List.count_eq_zero_of_not_mem flying, attemptsAt] at counted
      cases found : world.rows.get? key with
      | none =>
          rw [found, Option.elim_none] at counted
          omega
      | some row =>
          have within := (sound.bounded key row found).finished
          rw [found, Option.elim_some] at counted
          omega
  · intro settler waits same
    have member : Owed.firstWake settler.row ∈ world.memory.owed := by
      apply List.mem_append_right
      apply List.mem_map_of_mem
      exact List.mem_append_right _ (List.mem_map_of_mem (List.mem_append_left _ waits))
    obtain ⟨row, found, awaits⟩ := sound.held.waits _ member
    exact ⟨row, same ▸ found, awaits.outcome⟩

/-- An item that a connector reported. -/
def reportedItem : Notification where
  envelope := { eventId := "a", name := "domain.active", timestamp := "" }
  source := "dns"
  workspaceId := "ws"
  receivedAt := 0
  seq := 1

/-- One route that posts to a channel, or wakes a task. -/
def oneRoute (target : DeliverTarget) : RouteList where
  routes := [{ id := "r1", createdBy := "ann", deliver := [target] }]
  distinct := List.nodup_singleton _

def postKey : RowKey := { wsId := "ws", ref := ("dns", "a"), routeId := "r1", target := "slack__post", index := 0 }

def triageRow : RowKey := { postKey with target := "triage" }

/-- A post fails once, a restart follows, and the next attempt of the new process arrives. -/
def resumedPost : List DeliveryStep :=
  [.boot, .scan 0, .arrive reportedItem none, .startJob, .readRoutes (some (oneRoute (.tool "slack__post"))) 0,
    .callNext, .answer (.error "timeout"), .record 0, .crash, .boot, .scan 100000, .sweep 100000, .startJob,
    .readRoutes (some (oneRoute (.tool "slack__post"))) 100000, .answer (.ok { outcome := .ok }), .record 100000]

theorem ledger_guarded_resumed :
    ∃ world, (deliverySystem "ws").run {} resumedPost = some world ∧ world.dispatched.count postKey = 2 ∧
      world.closed.count postKey ≤ 1 ∧
        world.dispatched.count postKey ≤ maxRouteAttempts + world.lost.count postKey := by
  have reached : (deliverySystem "ws").ReachedBy NothingUnderWayAtScan {} := .start _ rfl
  have meets : (deliverySystem "ws").Meets NothingUnderWayAtScan {} resumedPost := by decide +kernel
  obtain ⟨world, ran⟩ : ∃ world, (deliverySystem "ws").run {} resumedPost = some world := ⟨_, rfl⟩
  have twice : ((deliverySystem "ws").run {} resumedPost).all fun world =>
      decide (world.dispatched.count postKey = 2) := by decide +kernel
  rw [ran, Option.all_some, decide_eq_true_eq] at twice
  have guarded := ledger_guarded (reached.run meets ran) postKey
  exact ⟨world, ran, twice, guarded.1, guarded.2.2.2.2.1⟩

/-- The boot scan lands while the first delivery is under way. The post is sent twice, and the open batch of the
task is closed as lost before it settles. -/
theorem scan_doubles_delivery :
    (∃ world, (deliverySystem "ws").run {}
        [.boot, .arrive reportedItem none, .startJob, .readRoutes (some (oneRoute (.tool "slack__post"))) 0, .callNext,
          .scan 0, .answer (.ok { outcome := .ok }), .record 0, .callNext, .sweep 20000, .startJob,
          .readRoutes (some (oneRoute (.tool "slack__post"))) 20000, .answer (.ok { outcome := .ok }),
          .record 20000] = some world ∧
      world.dispatched.count postKey = 2 ∧ world.closed.count postKey = 2 ∧
        (world.rows.get? postKey).map DeliveryRecord.attempts = some 1) ∧
      ∃ open' world, (deliverySystem "ws").run {}
          [.boot, .arrive reportedItem none, .startJob, .readRoutes (some (oneRoute (.agent "triage"))) 0,
            .wakeNext (.offered (some {}) { task := some {} }), .callNext, .scan 0] = some open' ∧
        (open'.rows.get? triageRow).bind DeliveryRecord.classification = some "batch_not_resumed" ∧
        open'.memory.trigger.waiting.map Settler.row = [triageRow] ∧
        (deliverySystem "ws").run open'
          [.trigger (.timer (batchKey "ws" "ann" "triage") { task := some {} }),
            .trigger (.runEnds 0 (.ran { id := "run", status := "success" })), .settleWake 30000] = some world ∧
        world.closed.count triageRow = 2 := by
  constructor
  · refine ⟨_, rfl, ?_⟩
    decide +kernel
  · refine ⟨_, _, rfl, ?_, ?_, rfl, ?_⟩ <;> decide +kernel

end Deliveries

end NimbleBrain.Notifications
