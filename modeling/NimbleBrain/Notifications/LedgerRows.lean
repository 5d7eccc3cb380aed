import NimbleBrain.Notifications.LedgerSteps

/- The steps that write rows keep the ledger sound. -/

namespace NimbleBrain.Notifications

open Library EventRuns

theorem seedRow_awaits (target : MatchedTarget) (now : Moment) :
    (seedRow target now).Awaits { key := target.key, kind := target.kind, attempts := 0 } := by
  cases kind : target.kind <;> constructor <;> simp [seedRow, kind]

theorem seedRow_sound (target : MatchedTarget) (now : Moment) : (seedRow target now).Sound := by
  cases kind : target.kind <;> constructor <;> simp [seedRow, kind, maxRouteAttempts]

theorem seedRow_attempts (target : MatchedTarget) (now : Moment) : (seedRow target now).attempts = 0 :=
  (seedRow_awaits target now).attempts

variable {result : UnattendedDispatchResult}

theorem ledgerOutcome_pending {attempts : Nat} (again : ledgerOutcome result attempts = .pending) :
    attempts < maxRouteAttempts := by
  unfold ledgerOutcome at again
  cases outcome : result.outcome <;> simp [outcome] at again
  exact again

theorem ledgerOutcome_ne_deferred (result : UnattendedDispatchResult) (attempts : Nat) :
    ledgerOutcome result attempts ≠ .deferred := by
  unfold ledgerOutcome
  cases result.outcome <;> simp
  split <;> decide

/-- An attempt is one of those that the bound allows. -/
theorem attemptRow_sound (attempt : Attempt) (result : UnattendedDispatchResult) (now : Moment)
    (within : attempt.priorAttempts < maxRouteAttempts) : (attemptRow attempt result now).Sound := by
  constructor
  · exact within
  · exact fun again => ⟨rfl, ledgerOutcome_pending again⟩
  · exact fun deferred => absurd deferred (ledgerOutcome_ne_deferred _ _)

theorem attemptRow_awaits {attempt : Attempt} {now : Moment}
    (again : (attemptRow attempt result now).outcome = .pending) :
    (attemptRow attempt result now).Awaits { attempt.owed with attempts := attempt.priorAttempts + 1 } :=
  ⟨rfl, rfl, again⟩

theorem wakeRow_finished (key : RowKey) (result : EventWakeSettlement) (now : Moment) :
    (wakeRow key result now).isFinished = true := by
  cases outcome : result.outcome <;> simp [DeliveryRecord.isFinished, wakeRow, outcomeOfWake, outcome]

theorem finished_sound {row : DeliveryRecord} (finished : row.isFinished = true)
    (within : row.attempts ≤ maxRouteAttempts) : row.Sound := by
  obtain ⟨pending, deferred⟩ : row.outcome ≠ .pending ∧ row.outcome ≠ .deferred := by
    simpa [DeliveryRecord.isFinished] using finished
  exact ⟨within, fun again => absurd again pending, fun again => absurd again deferred⟩

/-- The row that an owed delivery waits in. -/
theorem Held.found {rows : OrderedMap RowKey DeliveryRecord} {owed rest : List Owed} {one : Owed}
    (held : Held rows owed) (parts : owed.Perm (one :: rest)) :
    ∃ row, rows.get? one.key = some row ∧ row.Awaits one ∧ Held rows rest ∧ ∀ other ∈ rest, other.key ≠ one.key := by
  have apart := held.perm parts
  obtain ⟨row, found, waits⟩ := apart.waits one (List.mem_cons_self ..)
  exact ⟨row, found, waits, @Held.right _ _ [one] apart, apart.apart⟩

theorem retryTarget_key {routes : List NotificationRoute} {entry : PendingAttempt} {key : RowKey}
    (kept : retryTarget routes entry = .ok key) : key = entry.key := by
  unfold retryTarget at kept
  cases found : routes.find? (·.id = entry.key.routeId) with
  | none => simp [found] at kept
  | some route =>
      have named : route.id = entry.key.routeId := by simpa using List.find?_some found
      simp only [found] at kept
      split at kept
      · split at kept
        · next same =>
            rw [← Except.ok.inj kept, named, same]
        · cases kept
      · cases kept

namespace Deliveries

variable {world : Deliveries} {process : Dispatcher}

section Running

variable (sound : world.Sound) (running : world.process = some process)
include sound running

variable {entry : PendingAttempt} {rest : List Job} {after : Deliveries} {now : Moment}

theorem Sound.requeue (jobs : process.jobs = .retrying entry :: rest) (now : Moment) :
    (world.run ((process.withJobs rest).requeue entry now)).Sound := by
  obtain rfl := memory_of_process running
  have parts := Dispatcher.owed_cons world.memory jobs
  unfold Dispatcher.requeue
  split
  · exact sound.finish running jobs rfl
  · next fresh =>
      have none : (world.memory.withJobs rest).pending.get? entry.key = none := by simpa using fresh
      apply sound.move []
      · have set := Dispatcher.owed_set (world.memory.withJobs rest) entry.key
          { entry with dueAt := now + retryDelayMs (max entry.attempts 1) }
        have delete := Dispatcher.owed_delete (world.memory.withJobs rest) entry.key
        rw [none, Option.toList_none, List.map_nil, List.nil_append] at delete
        rw [List.append_nil, parts]
        exact (delete.cons entry.owed).trans set.symm
      · rw [Dispatcher.inFlight_cons _ jobs]
        exact .refl _
      · rw [Dispatcher.unread_cons _ jobs]
        exact .refl _
      · intro other member
        rcases OrderedMap.mem_set.mp member with rfl | ⟨old, -⟩
        · rfl
        · exact sound.keyed other old
      · exact sound.conserved

/-- A retry that its route no longer asks for closes its row. -/
theorem Sound.abandon (jobs : process.jobs = .retrying entry :: rest) (reason : String) (now : Moment) :
    ((world.writeRow entry.key (abandonedRow entry reason now)).run (process.withJobs rest)).Sound := by
  obtain rfl := memory_of_process running
  have parts := Dispatcher.owed_cons world.memory jobs
  obtain ⟨old, found, waits, others, apart⟩ := @Held.found _ _ _ entry.owed sound.held (.of_eq parts)
  have same : old.attempts = entry.attempts := waits.attempts
  have within : entry.attempts ≤ maxRouteAttempts := same ▸ (sound.bounded _ old found).finished
  have attempts : (abandonedRow entry reason now).attempts = old.attempts := same.symm
  apply sound.write found waits.unfinished (finished_sound rfl within) others apart (.inl (.refl _))
  · intro other
    rw [Dispatcher.inFlight_cons _ jobs, attempts]
    rfl
  · rw [Dispatcher.unread_cons _ jobs]
    exact .refl _
  · exact sound.keyed
  · exact sound.conserved

theorem Sound.record (stepped : world.record process now = some after) :
    after.Sound := by
  obtain rfl := memory_of_process running
  unfold Deliveries.record at stepped
  split at stepped
  · next attempt result tools rest jobs =>
      obtain rfl := Option.some.inj stepped
      have left := Dispatcher.owed_cons (world.memory.withJobs (.waking [] tools :: rest)) rfl
      have parts : world.memory.owed = attempt.owed :: (world.memory.withJobs (.waking [] tools :: rest)).owed := by
        rw [left, Dispatcher.owed_cons world.memory jobs]
        rfl
      obtain ⟨old, found, waits, others, apart⟩ := sound.held.found (.of_eq parts)
      change world.rows.get? attempt.key = some old at found
      have prior : old.attempts = attempt.priorAttempts := waits.attempts
      have outcome : old.outcome = .pending := waits.outcome
      have within := ((sound.bounded _ old found).pending outcome).2
      have unindexed : world.memory.pending.get? attempt.key = none := by
        cases listed : world.memory.pending.get? attempt.key with
        | none => rfl
        | some entry =>
            have own := sound.keyed _ (OrderedMap.get?_eq_some_iff.mp listed)
            have delete := Dispatcher.owed_delete (world.memory.withJobs (.waking [] tools :: rest)) attempt.key
            have member : entry.owed ∈ (world.memory.withJobs (.waking [] tools :: rest)).owed := by
              rw [delete.mem_iff]
              apply List.mem_append_left
              change entry.owed ∈ (world.memory.pending.get? attempt.key).toList.map PendingAttempt.owed
              rw [listed]
              exact List.mem_singleton.mpr rfl
            exact absurd own (apart entry.owed member)
      apply sound.write found waits.unfinished (attemptRow_sound attempt result now (prior ▸ within)) others apart
      · split
        · next again =>
            refine .inr ⟨{ attempt.owed with attempts := attempt.priorAttempts + 1 }, rfl, attemptRow_awaits again, ?_⟩
            have set := Dispatcher.owed_set (world.memory.withJobs (.waking [] tools :: rest)) attempt.key
              { key := attempt.key, attempts := (attemptRow attempt result now).attempts,
                dueAt := now + retryDelayMs (attemptRow attempt result now).attempts }
            have delete := Dispatcher.owed_delete (world.memory.withJobs (.waking [] tools :: rest)) attempt.key
            change List.Perm _ ((world.memory.pending.get? attempt.key).toList.map PendingAttempt.owed ++ _) at delete
            rw [unindexed, Option.toList_none, List.map_nil, List.nil_append] at delete
            exact set.trans (delete.symm.cons _)
        · exact .inl (.refl _)
      · intro other
        rw [Dispatcher.inFlight_cons _ jobs, List.count_append, prior]
        change (world.memory.withJobs rest).inFlight.count other +
          (if other = attempt.key then attempt.priorAttempts + 1 else 0) = [attempt.key].count other + _ + _
        rw [List.count_singleton]
        by_cases same : other = attempt.key
        · simp [same]
          omega
        · simp [same, Ne.symm same]
      · rw [Dispatcher.unread_cons _ jobs]
        exact .refl _
      · intro entry member
        split at member
        · rcases OrderedMap.mem_set.mp member with rfl | ⟨earlier, -⟩
          · rfl
          · exact sound.keyed entry earlier
        · exact sound.keyed entry member
      · exact sound.conserved
  · cases stepped

theorem Sound.settleWake (stepped : world.settleWake process now = some after) : after.Sound := by
  obtain rfl := memory_of_process running
  unfold Deliveries.settleWake at stepped
  split at stepped
  · next key result rest callbacks =>
      obtain rfl := Option.some.inj stepped
      have parts : world.memory.owed.Perm (.firstWake key :: { world.memory with callbacks := rest }.owed) := by
        rw [List.perm_iff_count]
        intro one
        simp only [Dispatcher.owed, Dispatcher.jobsOwed, Dispatcher.indexOwed, Dispatcher.wakesOwed, Dispatcher.wakes,
          callbacks, List.map_cons, List.cons_append, List.count_append, List.count_cons]
        omega
      obtain ⟨old, found, waits, others, apart⟩ := sound.held.found parts
      have first : old.attempts = 0 := waits.attempts
      have once : (wakeRow key result now).attempts ≤ maxRouteAttempts := Nat.le_add_left 1 2
      apply sound.write found waits.unfinished (finished_sound (wakeRow_finished key result now) once) others
        apart (.inl (.refl _))
      · intro other
        rw [first]
        change _ + (if other = key then 1 else 0) = _ + if other = key then 0 else 0
        simp only [Dispatcher.inFlight, Dispatcher.wakes, callbacks, List.map_cons, List.cons_append,
          List.count_append, List.count_cons]
        by_cases same : other = key
        · simp [same]
          omega
        · simp [same, Ne.symm same]
      · exact .refl _
      · exact sound.keyed
      · exact sound.conserved
  · cases stepped

end Running

/-- The rows that a match adds. -/
def seedRows (matched : List MatchedTarget) (now : Moment) (rows : OrderedMap RowKey DeliveryRecord) :
    OrderedMap RowKey DeliveryRecord :=
  matched.foldl (fun rows target => rows.set target.key (seedRow target now)) rows

theorem seed_eq (matched : List MatchedTarget) (now : Moment) (world : Deliveries) :
    world.seed matched now = { world with rows := seedRows matched now world.rows } := by
  induction matched generalizing world with
  | nil => rfl
  | cons target rest ih =>
      have step : world.writeRow target.key (seedRow target now) =
          { world with rows := world.rows.set target.key (seedRow target now) } := by
        rw [writeRow, (seedRow_awaits target now).unfinished]
        simp
      rw [seed, List.foldl_cons, step]
      exact ih _

theorem seedRows_get? (matched : List MatchedTarget) (now : Moment)
    (distinct : (matched.map MatchedTarget.key).Nodup) (rows : OrderedMap RowKey DeliveryRecord) (key : RowKey) :
    (seedRows matched now rows).get? key =
      ((matched.find? (·.key = key)).map (seedRow · now)).or (rows.get? key) := by
  induction matched generalizing rows with
  | nil => rfl
  | cons target rest ih =>
      rw [List.map_cons, List.nodup_cons] at distinct
      have tail := ih distinct.2 (rows.set target.key (seedRow target now))
      rw [OrderedMap.get?_set] at tail
      change (seedRows rest now _).get? key = _
      rw [tail]
      by_cases same : target.key = key
      · have absent : rest.find? (·.key = key) = none := by
          apply List.find?_eq_none.mpr
          intro other member equal
          exact distinct.1 (same ▸ (by simpa using equal : other.key = key) ▸ List.mem_map_of_mem member)
        simp [absent, same]
      · have other : ¬ key = target.key := fun equal => same equal.symm
        simp [same, other]

/-- The slots of a match are rows of their own. -/
theorem matchTargets_distinct (wsId : String) {routes : List NotificationRoute} (item : Notification)
    (distinct : (routes.map NotificationRoute.id).Nodup) :
    ((matchTargets wsId routes item).map MatchedTarget.key).Nodup := by
  apply List.Nodup.of_map fun key : RowKey => (key.routeId, key.index)
  have slots : ((matchTargets wsId routes item).map MatchedTarget.key).map (fun key => (key.routeId, key.index)) =
      (routes.filter (routeMatches · item)).flatMap fun route => route.deliver.zipIdx.map fun slot => (route.id, slot.2) := by
    rw [List.map_map, matchTargets, List.map_flatMap]
    simp only [List.map_map, Function.comp_def]
    rfl
  rw [slots, List.nodup_flatMap]
  constructor
  · intro route _
    have places : (route.deliver.zipIdx.map fun slot => (route.id, slot.2)) =
        (route.deliver.zipIdx.map Prod.snd).map (Prod.mk route.id) := by
      rw [List.map_map]
      rfl
    rw [places, List.zipIdx_map_snd]
    exact List.Nodup.map (fun _ _ same => (Prod.mk.inj same).2) List.nodup_range'
  · have ids : ((routes.filter (routeMatches · item)).map NotificationRoute.id).Nodup :=
      distinct.sublist (List.filter_sublist.map NotificationRoute.id)
    refine List.Pairwise.imp ?_ (List.pairwise_map.mp ids)
    intro first second different pair one other
    obtain ⟨slot, -, rfl⟩ := List.mem_map.mp one
    obtain ⟨place, -, same⟩ := List.mem_map.mp other
    exact different (Prod.mk.inj same).1.symm

theorem matchTargets_ref (wsId : String) (routes : List NotificationRoute) (item : Notification) :
    ∀ target ∈ matchTargets wsId routes item, target.key.ref = item.pair := by
  intro target member
  obtain ⟨route, -, listed⟩ := List.mem_flatMap.mp member
  obtain ⟨slot, -, rfl⟩ := List.mem_map.mp listed
  rfl

theorem selectRoutes_distinct (only : Option String) (list : RouteList) :
    ((selectRoutes only list.routes).map NotificationRoute.id).Nodup := by
  cases only with
  | none => exact list.distinct
  | some routeId => exact list.distinct.sublist (List.filter_sublist.map NotificationRoute.id)

/-- What an evaluation owes once its rows are seeded. -/
def firstOwed (target : MatchedTarget) : Owed := { key := target.key, kind := target.kind, attempts := 0 }

theorem waking_owed (matched : List MatchedTarget) :
    (Job.waking ((matched.filter (·.kind = .agent)).map MatchedTarget.wake)
      ((matched.filter (·.kind = .tool)).map MatchedTarget.key)).owed.Perm (matched.map firstOwed) := by
  induction matched with
  | nil => exact .refl _
  | cons target rest ih =>
      cases kind : target.kind with
      | agent =>
          have own : firstOwed target = .firstWake target.wake.row := by
            rw [firstOwed, kind]
            rfl
          simp only [List.filter_cons, kind, Job.owed, List.map_cons, own] at ih ⊢
          simpa using ih
      | tool =>
          have own : firstOwed target = .firstCall target.key := by
            rw [firstOwed, kind]
            rfl
          simp only [List.filter_cons, kind, Job.owed, List.map_cons, own] at ih ⊢
          simp only [reduceCtorEq, decide_false, Bool.false_eq_true, if_false, decide_true, if_true, List.map_cons]
          exact List.perm_middle.trans (ih.cons _)

/-- The rows of a new item are seeded before anything is attempted. -/
theorem Sound.seed (sound : world.Sound) (running : world.process = some process) {item : Notification}
    {only : Option String} {rest : List Job} (jobs : process.jobs = .evaluating item only :: rest)
    {matched : List MatchedTarget} (distinct : (matched.map MatchedTarget.key).Nodup)
    (refs : ∀ target ∈ matched, target.key.ref = item.pair) (now : Moment) :
    ((world.seed matched now).run (process.withJobs
      (.waking ((matched.filter (·.kind = .agent)).map MatchedTarget.wake)
        ((matched.filter (·.kind = .tool)).map MatchedTarget.key) :: rest))).Sound := by
  obtain rfl := memory_of_process running
  have itemUnread : item ∈ world.memory.unread := by
    rw [Dispatcher.unread_cons _ jobs]
    exact List.mem_cons_self ..
  obtain ⟨arrived, free⟩ := sound.unreadNew item itemUnread
  have others := sound.unreadOnce
  rw [Dispatcher.unread_cons _ jobs] at others
  obtain ⟨fresh, othersOnce⟩ := List.nodup_cons.mp others
  have at' (key : RowKey) : (seedRows matched now world.rows).get? key =
      ((matched.find? (·.key = key)).map (seedRow · now)).or (world.rows.get? key) :=
    seedRows_get? matched now distinct world.rows key
  have seeded (target : MatchedTarget) (member : target ∈ matched) :
      (seedRows matched now world.rows).get? target.key = some (seedRow target now) := by
    have found : matched.find? (·.key = target.key) = some target := by
      cases first : matched.find? (·.key = target.key) with
      | none => simpa using List.find?_eq_none.mp first target member
      | some other =>
          have same : other.key = target.key := by simpa using List.find?_some first
          rw [List.inj_on_of_nodup_map distinct (List.mem_of_find?_eq_some first) member same]
    rw [at', found]
    rfl
  have untouched (key : RowKey) (other : key.ref ≠ item.pair) :
      (seedRows matched now world.rows).get? key = world.rows.get? key := by
    have absent : matched.find? (·.key = key) = none := by
      apply List.find?_eq_none.mpr
      intro target member same
      exact other ((by simpa using same : target.key = key) ▸ refs target member)
    rw [at', absent]
    rfl
  have either (key : RowKey) (row : DeliveryRecord)
      (found : (seedRows matched now world.rows).get? key = some row) :
      (∃ target ∈ matched, target.key = key ∧ row = seedRow target now) ∨ world.rows.get? key = some row := by
    rw [at'] at found
    cases first : matched.find? (·.key = key) with
    | none =>
        rw [first] at found
        exact .inr found
    | some target =>
        rw [first] at found
        exact .inl ⟨target, List.mem_of_find?_eq_some first, by simpa using List.find?_some first,
          (Option.some.inj found).symm⟩
  have same (key : RowKey) (count : DeliveryRecord → Nat) (none : ∀ target, count (seedRow target now) = 0) :
      ((seedRows matched now world.rows).get? key).elim 0 count = (world.rows.get? key).elim 0 count := by
    by_cases own : key.ref = item.pair
    · rw [free key own]
      cases found : (seedRows matched now world.rows).get? key with
      | none => rfl
      | some row =>
          rcases either key row found with ⟨target, -, -, rfl⟩ | old
          · exact none target
          · rw [free key own] at old
            cases old
    · rw [untouched key own]
  rw [seed_eq]
  refine ⟨?_, ?_, ?_, ?_, sound.lostOnce, ?_, ?_, ?_, sound.keyed, sound.conserved⟩
  · have owed := Dispatcher.owed_cons (world.memory.withJobs
      (.waking ((matched.filter (·.kind = .agent)).map MatchedTarget.wake)
        ((matched.filter (·.kind = .tool)).map MatchedTarget.key) :: rest)) rfl
    have old : Held world.rows (world.memory.withJobs rest).owed := by
      have held := sound.held
      rw [Dispatcher.owed_cons _ jobs] at held
      exact held
    have oldRef (one : Owed) (member : one ∈ (world.memory.withJobs rest).owed) : one.key.ref ≠ item.pair := by
      obtain ⟨row, found, -⟩ := old.waits one member
      intro own
      rw [free _ own] at found
      cases found
    have kept : Held (seedRows matched now world.rows) (world.memory.withJobs rest).owed :=
      old.congr fun one member => untouched _ (oldRef one member)
    refine @Held.perm _ (matched.map firstOwed ++ (world.memory.withJobs rest).owed) ?_ _
      (((waking_owed matched).append_right _).symm.trans (.of_eq owed.symm))
    constructor
    · rw [List.map_append, List.nodup_append]
      refine ⟨by simpa [firstOwed, Function.comp_def] using distinct, kept.once, ?_⟩
      intro key first other second equal
      obtain ⟨one, member, rfl⟩ := List.mem_map.mp first
      obtain ⟨target, listed, rfl⟩ := List.mem_map.mp member
      obtain ⟨two, member', rfl⟩ := List.mem_map.mp second
      exact oldRef two member' (equal ▸ refs target listed)
    · intro one member
      rcases List.mem_append.mp member with new | earlier
      · obtain ⟨target, listed, rfl⟩ := List.mem_map.mp new
        exact ⟨_, seeded target listed, seedRow_awaits target now⟩
      · exact kept.waits one earlier
  · intro key
    have before := sound.counted key
    rw [Dispatcher.inFlight_cons _ jobs] at before
    change world.dispatched.count key = ((seedRows matched now world.rows).get? key).elim 0 _ +
      world.lost.count key + (world.memory.withJobs rest).inFlight.count key
    rw [same key _ (fun target => seedRow_attempts target now)]
    exact before
  · intro key
    change world.closed.count key = ((seedRows matched now world.rows).get? key).elim 0 _
    rw [same key _ fun target => by rw [(seedRow_awaits target now).unfinished]; rfl]
    exact sound.closedOnce key
  · intro key row found
    rcases either key row found with ⟨target, -, -, rfl⟩ | old
    · exact seedRow_sound target now
    · exact sound.bounded key row old
  · intro key row found
    rcases either key row found with ⟨target, member, rfl, -⟩ | old
    · exact refs target member ▸ arrived
    · exact sound.known key row old
  · exact othersOnce
  · intro other member
    have listed : other ∈ world.memory.unread := by
      rw [Dispatcher.unread_cons _ jobs]
      exact List.mem_append_right _ member
    obtain ⟨known, new⟩ := sound.unreadNew other listed
    refine ⟨known, fun key named => ?_⟩
    have different : key.ref ≠ item.pair := by
      rw [named]
      exact fun equal => fresh (equal ▸ List.mem_map_of_mem member)
    exact (untouched key different).trans (new key named)

theorem Sound.readRoutes (sound : world.Sound) (running : world.process = some process) {wsId : String}
    {routes : Option RouteList} {now : Moment} {after : Deliveries}
    (stepped : world.readRoutes wsId process routes now = some after) : after.Sound := by
  unfold Deliveries.readRoutes at stepped
  split at stepped
  · next item only rest jobs =>
      obtain rfl := Option.some.inj stepped
      exact sound.finish running jobs rfl
  · next item only rest list jobs =>
      obtain rfl := Option.some.inj stepped
      exact sound.seed running jobs (matchTargets_distinct wsId item (selectRoutes_distinct only list))
        (matchTargets_ref wsId _ item) now
  · next entry rest jobs =>
      obtain rfl := Option.some.inj stepped
      exact sound.requeue running jobs now
  · next entry rest list jobs =>
      split at stepped
      · next reason _ =>
          obtain rfl := Option.some.inj stepped
          exact sound.abandon running jobs reason now
      · next key kept =>
          obtain rfl := Option.some.inj stepped
          obtain rfl := retryTarget_key kept
          exact sound.dispatchHead running jobs rfl rfl rfl rfl
  · cases stepped

end Deliveries

end NimbleBrain.Notifications
