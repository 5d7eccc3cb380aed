import NimbleBrain.McpSource.ToolList

/- The memo was requested on the current connection and after the last notice, while no late answer fills it. -/

namespace NimbleBrain.McpSource.ToolList

open Library

/-- No stop and no notice came since the request was sent, and no other request filled the memo since then. -/
def FillsEmpty (state : State) (request : Nat) (sent : Request) : Prop :=
  sent.notices = state.notices ∧ ∀ memo ∈ state.cachedTools, memo.request = request

instance (state : State) (request : Nat) (sent : Request) : Decidable (FillsEmpty state request sent) :=
  inferInstanceAs (Decidable (_ ∧ ∀ memo ∈ state.cachedTools, memo.request = request))

/-- A request that the waiting call waits for, and that was answered with a list. -/
def State.listed? (state : State) (request : Nat) : Option Request :=
  (state.requests.get? request).filter fun sent => sent.answer.any Option.isSome

/-- A call that waits for a request takes its list only when nothing came in between. -/
def TakesFetch (state : State) : Waiting → Prop
  | .fetch request =>
      ∀ sent ∈ state.listed? request,
        sent.generation = state.toolListGeneration ∧ FillsEmpty state request sent
  | _ => True

instance (state : State) : (waiting : Waiting) → Decidable (TakesFetch state waiting)
  | .fetch request => inferInstanceAs (Decidable (∀ sent ∈ state.listed? request, _ ∧ _))
  | .revalidation .. | .gaveUp _ | .maxAge _ => .isTrue trivial

/-- So does a refresh of the same connection. One that began with a memo may replace what came meanwhile. -/
def TakesRefresh (state : State) (own : Refresh) : Prop :=
  own.generation = state.toolListGeneration → ∀ request ∈ own.request, ∀ sent ∈ state.listed? request,
    sent.notices = state.notices ∧
      (own.previous = none → ∀ memo ∈ state.cachedTools, memo.request = request)

instance (state : State) (own : Refresh) : Decidable (TakesRefresh state own) :=
  inferInstanceAs (Decidable (own.generation = _ → ∀ request ∈ own.request, ∀ sent ∈ state.listed? request, _ ∧ _))

/-- A revalidation falls back on its memo only when no stop and no notice came since it began. -/
def FallsBack (state : State) : Waiting → Prop
  | .revalidation _ _ generation notices =>
      generation = state.toolListGeneration ∧ notices = state.notices
  | _ => True

instance (state : State) : (waiting : Waiting) → Decidable (FallsBack state waiting)
  | .revalidation .. => inferInstanceAs (Decidable (_ ∧ _))
  | .fetch _ | .gaveUp _ | .maxAge _ => .isTrue trivial

/-- The refresh of a revalidation failed. -/
def Failed (state : State) : Waiting → Prop
  | .revalidation refresh .. => state.outcome? refresh = some none
  | _ => False

instance (state : State) : (waiting : Waiting) → Decidable (Failed state waiting)
  | .revalidation refresh .. => inferInstanceAs (Decidable (state.outcome? refresh = some none))
  | .fetch _ | .gaveUp _ | .maxAge _ => .isFalse id

def Undisturbed (state : State) : Action → Prop
  | .takeFetch call _ => ∀ waiting ∈ state.waiting.get? call, TakesFetch state waiting
  | .takeRefresh refresh _ => ∀ own ∈ state.refreshes.get? refresh, own.outcome = none → TakesRefresh state own
  | .goOn call _ => ∀ waiting ∈ state.waiting.get? call, Failed state waiting → FallsBack state waiting
  | .giveUp call => ∀ waiting ∈ state.waiting.get? call, FallsBack state waiting
  | _ => True

instance (state : State) : (action : Action) → Decidable (Undisturbed state action)
  | .takeFetch call _ => inferInstanceAs (Decidable (∀ waiting ∈ state.waiting.get? call, TakesFetch state waiting))
  | .takeRefresh refresh _ =>
      have (own : Refresh) : Decidable (own.outcome = none) :=
        decidable_of_iff (own.outcome.isNone = true) Option.isNone_iff_eq_none
      inferInstanceAs (Decidable (∀ own ∈ state.refreshes.get? refresh, own.outcome = none → TakesRefresh state own))
  | .goOn call _ =>
      inferInstanceAs (Decidable (∀ waiting ∈ state.waiting.get? call, Failed state waiting → FallsBack state waiting))
  | .giveUp call => inferInstanceAs (Decidable (∀ waiting ∈ state.waiting.get? call, FallsBack state waiting))
  | .startBegin | .handshake | .cleanupOnStartFailure | .stop | .doRestartEnd | .listChanged | .answer ..
  | .settleFetch _ | .tools .. | .refreshTools _ | .toolsWithMaxAge .. | .settleRefresh _ => .isTrue trivial

/-- The memo and every list that was served from it were requested on the connection of that moment, after the last
notice. -/
def MemoCurrent (state : State) : Prop :=
  (∀ memo ∈ state.cachedTools,
      state.client.map Client.number = some memo.connection ∧ memo.notices = state.notices) ∧
    ∀ served ∈ state.served, served.connection = some served.list.connection ∧ served.list.notices = served.notices

/-- A step that replaces the memo by another surface signals it. -/
def SignalsChange (before after : State) : Prop :=
  ∀ old ∈ before.cachedTools, ∀ new ∈ after.cachedTools,
    toolListChanged old.tools new.tools = true → before.toolsChanged < after.toolsChanged

/-- A client that finished its handshake. -/
def State.On (state : State) (connection : Nat) : Prop := state.client = some ⟨connection, true⟩

structure Sound (state : State) : Prop where
  unsent : ∀ request, state.sent ≤ request → state.requests.get? request = none
  known : ∀ (request : Nat) (sent : Request), state.requests.get? request = some sent →
    sent.generation ≤ state.toolListGeneration ∧ sent.notices ≤ state.notices ∧
      (sent.generation = state.toolListGeneration → state.On sent.connection)
  shared : ∀ request ∈ state.toolsFetchInFlight, ∃ sent, state.requests.get? request = some sent ∧
    sent.generation = state.toolListGeneration
  asked : ∀ (refresh : Nat) (own : Refresh), state.refreshes.get? refresh = some own → ∀ request ∈ own.request,
    ∃ sent, state.requests.get? request = some sent ∧ sent.generation = own.generation ∧
      ∀ previous ∈ own.previous, previous.connection = sent.connection ∧ sent.notices ≤ previous.notices ∧
        previous.notices ≤ state.notices
  memo : ∀ memo ∈ state.cachedTools,
    state.On memo.connection ∧ memo.notices = state.notices ∧ state.fetched? memo.request = some (some memo)
  revalidating : ∀ (call refresh : Nat) (memo : FetchedList) (generation notices : Nat),
    state.waiting.get? call = some (.revalidation refresh memo generation notices) →
      memo.notices = notices ∧ generation ≤ state.toolListGeneration ∧
        (generation = state.toolListGeneration → state.On memo.connection)
  served : ∀ served ∈ state.served,
    served.connection = some served.list.connection ∧ served.list.notices = served.notices

theorem Sound.start : Sound {} where
  unsent request _ := rfl
  known request sent none := by cases none
  shared request none := by cases none
  asked refresh own none := by cases none
  memo memo none := by cases none
  revalidating call refresh memo generation notices none := by cases none
  served served none := by cases none

variable {state : State}

theorem toolListChanged_self (tools : List Tool) : toolListChanged tools tools = false := by
  simp [toolListChanged]

variable {list : FetchedList}

variable {request : Nat}

theorem fetched?_eq (found : state.fetched? request = some (some list)) :
    ∃ sent, state.listed? request = some sent ∧ state.requests.get? request = some sent ∧
      list.request = request ∧ list.connection = sent.connection ∧ list.notices = sent.notices := by
  rw [State.fetched?, Option.bind_eq_some_iff] at found
  obtain ⟨sent, here, answered⟩ := found
  obtain ⟨response, answer, made⟩ := Option.map_eq_some_iff.mp answered
  cases response with
  | none => cases made
  | some tools =>
      cases made
      exact ⟨sent, Option.filter_eq_some_iff.mpr ⟨here, by rw [answer]; rfl⟩, here, rfl, rfl, rfl⟩

/-- What is served right now is current. -/
theorem Sound.serve (sound : Sound state) (connection : state.On list.connection)
    (notices : list.notices = state.notices) : Sound (state.serve list) where
  unsent := sound.unsent
  known := sound.known
  shared := sound.shared
  asked := sound.asked
  memo := sound.memo
  revalidating := sound.revalidating
  served other member := by
    rcases List.mem_append.mp member with earlier | last
    · exact sound.served other earlier
    · rw [List.mem_singleton.mp last]
      refine ⟨?_, notices⟩
      dsimp only
      rw [connection]
      rfl

theorem Sound.stopWaiting (sound : Sound state) (call : Nat) : Sound (state.stopWaiting call) where
  unsent := sound.unsent
  known := sound.known
  shared := sound.shared
  asked := sound.asked
  memo := sound.memo
  revalidating other refresh memo generation notices found := by
    change (state.waiting.delete call).get? other = _ at found
    rw [OrderedMap.get?_delete] at found
    split at found
    · cases found
    · exact sound.revalidating other refresh memo generation notices found
  served := sound.served

/-- The age of the memo says nothing of its request. -/
theorem Sound.stamp (sound : Sound state) (now : Nat) : Sound { state with toolsFetchedAt := some now } :=
  { sound with }

/-- A call may wait for anything but a revalidation that began another time. -/
theorem Sound.wait (sound : Sound state) (call : Nat) {waiting : Waiting}
    (begun : ∀ refresh memo generation notices, waiting = .revalidation refresh memo generation notices →
      memo.notices = notices ∧ generation ≤ state.toolListGeneration ∧
        (generation = state.toolListGeneration → state.On memo.connection)) :
    Sound (state.wait call waiting) where
  unsent := sound.unsent
  known := sound.known
  shared := sound.shared
  asked := sound.asked
  memo := sound.memo
  revalidating other refresh memo generation notices found := by
    change (state.waiting.set call waiting).get? other = _ at found
    rw [OrderedMap.get?_set] at found
    split at found
    · exact begun refresh memo generation notices (Option.some.inj found)
    · exact sound.revalidating other refresh memo generation notices found
  served := sound.served

variable {after : State}

/-- A memo that stays, or that was empty, changes nothing. -/
theorem SignalsChange.of_same (same : after.cachedTools = state.cachedTools) : SignalsChange state after := by
  intro old found new there changed
  cases (same.trans found).symm.trans there
  rw [toolListChanged_self] at changed
  cases changed

theorem SignalsChange.of_none (none' : after.cachedTools = none) : SignalsChange state after := by
  intro old found new there
  exact nomatch none'.symm.trans there

/-- Two takings of one answer are the same list. -/
theorem SignalsChange.of_request (sound : Sound state) {list : FetchedList}
    (fetched : state.fetched? request = some (some list)) (filled : after.cachedTools = some list)
    (own : ∀ memo ∈ state.cachedTools, memo.request = request) : SignalsChange state after := by
  intro old found new there changed
  cases filled.symm.trans there
  have same := (sound.memo old found).2.2
  rw [own old found, fetched] at same
  cases same
  rw [toolListChanged_self] at changed
  cases changed

/-- A step keeps the invariant and leaves the memo. -/
structure Keeps (state after : State) : Prop where
  sound : Sound after
  memo : after.cachedTools = state.cachedTools

theorem Keeps.signals (keeps : Keeps state after) : Sound after ∧ SignalsChange state after :=
  ⟨keeps.sound, .of_same keeps.memo⟩

/-- A client before the end of its handshake has no list yet. -/
theorem Sound.changeClient (sound : Sound state) (starting : ∀ connection, ¬ state.On connection)
    (client : Option Client) (toolsChanged : Nat) : Sound { state with client, toolsChanged } where
  unsent := sound.unsent
  known request sent found :=
    ⟨(sound.known request sent found).1, (sound.known request sent found).2.1,
      fun same => (starting _ ((sound.known request sent found).2.2 same)).elim⟩
  shared := sound.shared
  asked := sound.asked
  memo memo found := (starting _ (sound.memo memo found).1).elim
  revalidating call refresh memo generation notices found :=
    ⟨(sound.revalidating call refresh memo generation notices found).1,
      (sound.revalidating call refresh memo generation notices found).2.1,
      fun same => (starting _ ((sound.revalidating call refresh memo generation notices found).2.2 same)).elim⟩
  served := sound.served

theorem Sound.startBegin (sound : Sound state) (stepped : startBegin state = some after) : Keeps state after := by
  unfold ToolList.startBegin at stepped
  split at stepped
  · next idle =>
    cases stepped
    have started := sound.changeClient (fun connection on => nomatch idle.symm.trans on)
      (some ⟨state.clients, false⟩) state.toolsChanged
    exact ⟨{ started with }, rfl⟩
  · cases stepped

theorem Sound.handshake (sound : Sound state) (stepped : handshake state = some after) : Keeps state after := by
  unfold ToolList.handshake at stepped
  split at stepped
  · next number starting =>
    cases stepped
    exact ⟨sound.changeClient (fun connection on => nomatch starting.symm.trans on) _ _, rfl⟩
  · cases stepped

theorem Sound.cleanupOnStartFailure (sound : Sound state) (stepped : cleanupOnStartFailure state = some after) :
    Keeps state after := by
  unfold ToolList.cleanupOnStartFailure at stepped
  split at stepped
  · next number starting =>
    cases stepped
    exact ⟨sound.changeClient (fun connection on => nomatch starting.symm.trans on) none state.toolsChanged, rfl⟩
  · cases stepped

/-- After a stop every request belongs to an earlier generation. -/
theorem Sound.stop (sound : Sound state) : Sound (stop state) where
  unsent := sound.unsent
  known request sent found := by
    obtain ⟨generation, notices, -⟩ := sound.known request sent found
    refine ⟨Nat.le_succ_of_le generation, notices, fun same => ?_⟩
    change sent.generation = state.toolListGeneration + 1 at same
    omega
  shared request none := by cases none
  asked := sound.asked
  memo memo none := by cases none
  revalidating call refresh memo generation notices found := by
    obtain ⟨same, known, -⟩ := sound.revalidating call refresh memo generation notices found
    refine ⟨same, Nat.le_succ_of_le known, fun now => ?_⟩
    change generation = state.toolListGeneration + 1 at now
    omega
  served := sound.served

/-- The memo may be dropped at any time. -/
theorem Sound.doRestartEnd (sound : Sound state) : Sound (doRestartEnd state) :=
  { sound with memo := fun _ none => nomatch none }

theorem Sound.listChanged (sound : Sound state) : Sound (listChanged state) where
  unsent := sound.unsent
  known request sent found :=
    ⟨(sound.known request sent found).1, Nat.le_succ_of_le (sound.known request sent found).2.1,
      (sound.known request sent found).2.2⟩
  shared := sound.shared
  asked refresh own found request own' := by
    obtain ⟨sent, here, generation, earlier⟩ := sound.asked refresh own found request own'
    refine ⟨sent, here, generation, fun previous began => ?_⟩
    obtain ⟨connection, after, before⟩ := earlier previous began
    exact ⟨connection, after, Nat.le_succ_of_le before⟩
  memo memo none := by cases none
  revalidating := sound.revalidating
  served := sound.served

variable {request : Nat}

/-- Only the answers of requests may be added. -/
theorem Sound.answer (sound : Sound state) {sourceName : String} {response : Option (List ServerTool)}
    (stepped : answer sourceName request response state = some after) :
    Keeps state after := by
  unfold ToolList.answer at stepped
  split at stepped
  · next connection generation notices here =>
    cases stepped
    have back (other : Nat) (sent : Request)
        (found : (state.requests.set request ⟨connection, generation, notices,
          some (response.map fun tools => tools.map (mapTool sourceName))⟩).get? other = some sent) :
        ∃ before, state.requests.get? other = some before ∧ before.connection = sent.connection ∧
          before.generation = sent.generation ∧ before.notices = sent.notices := by
      rw [OrderedMap.get?_set] at found
      split at found
      · next same =>
        subst same
        cases found
        exact ⟨⟨connection, generation, notices, none⟩, here, rfl, rfl, rfl⟩
      · exact ⟨sent, found, rfl, rfl, rfl⟩
    have forth (other : Nat) (before : Request) (found : state.requests.get? other = some before) :
        ∃ sent, (state.requests.set request ⟨connection, generation, notices,
          some (response.map fun tools => tools.map (mapTool sourceName))⟩).get? other = some sent ∧
            sent.connection = before.connection ∧ sent.generation = before.generation ∧
              sent.notices = before.notices := by
      rw [OrderedMap.get?_set]
      split
      · next same =>
        subst same
        cases here.symm.trans found
        exact ⟨_, rfl, rfl, rfl, rfl⟩
      · exact ⟨before, found, rfl, rfl, rfl⟩
    refine ⟨{ sound with unsent := ?_, known := ?_, shared := ?_, asked := ?_, memo := ?_ }, rfl⟩
    · intro other later
      change (state.requests.set request _).get? other = none
      rw [OrderedMap.get?_set, if_neg]
      · exact sound.unsent other later
      · intro same
        rw [same] at later
        exact nomatch here.symm.trans (sound.unsent request later)
    · intro other sent found
      obtain ⟨before, there, connection, generation, notices⟩ := back other sent found
      have known := sound.known other before there
      rwa [connection, generation, notices] at known
    · intro other flying
      obtain ⟨before, there, generation⟩ := sound.shared other flying
      obtain ⟨sent, found, -, same, -⟩ := forth other before there
      exact ⟨sent, found, same.trans generation⟩
    · intro refresh own found other asks
      obtain ⟨before, there, generation, earlier⟩ := sound.asked refresh own found other asks
      obtain ⟨sent, found, connection, same, notices⟩ := forth other before there
      refine ⟨sent, found, same.trans generation, ?_⟩
      rw [connection, notices]
      exact earlier
    · intro memo found
      obtain ⟨on, notices, from'⟩ := sound.memo memo found
      refine ⟨on, notices, ?_⟩
      have different : memo.request ≠ request := by
        intro same
        rw [State.fetched?, same, here] at from'
        cases from'
      rw [State.fetched?]
      dsimp only
      rw [OrderedMap.get?_set, if_neg different]
      exact from'
  · cases stepped

theorem Sound.settleFetch (sound : Sound state) (stepped : settleFetch request state = some after) :
    Keeps state after := by
  obtain ⟨fetched, -, rfl⟩ := Option.map_eq_some_iff.mp stepped
  refine ⟨{ sound with shared := fun other flying => ?_ }, rfl⟩
  apply sound.shared other
  change other ∈ (if state.toolsFetchInFlight = some request then none else state.toolsFetchInFlight) at flying
  split at flying
  · cases flying
  · exact flying

/-- A call gets the request of the current connection. -/
theorem Sound.fetchToolList (sound : Sound state) (fetching : fetchToolList state = some (request, after)) :
    Sound after ∧
      (∃ sent, after.requests.get? request = some sent ∧ sent.generation = state.toolListGeneration ∧
        state.On sent.connection ∧ sent.notices ≤ state.notices) ∧
      after.cachedTools = state.cachedTools ∧ after.toolListGeneration = state.toolListGeneration ∧
      after.notices = state.notices ∧ after.client = state.client ∧ after.refreshes = state.refreshes ∧
      after.toolsChanged = state.toolsChanged := by
  unfold ToolList.fetchToolList at fetching
  split at fetching
  · next own flying =>
    cases fetching
    obtain ⟨sent, here, generation⟩ := sound.shared request flying
    obtain ⟨-, notices, on⟩ := sound.known request sent here
    exact ⟨sound, ⟨sent, here, generation, on generation, notices⟩, rfl, rfl, rfl, rfl, rfl, rfl⟩
  · split at fetching
    · next number on =>
      cases fetching
      have other {old : Nat} {sent : Request} (found : state.requests.get? old = some sent) :
          old ≠ state.sent := by
        intro same
        exact nomatch (same ▸ found).symm.trans (sound.unsent state.sent (Nat.le_refl _))
      have kept {old : Nat} {sent new : Request} (found : state.requests.get? old = some sent) :
          (state.requests.set state.sent new).get? old = some sent := by
        rw [OrderedMap.get?_set, if_neg (other found)]
        exact found
      refine ⟨{ sound with unsent := ?_, known := ?_, shared := ?_, asked := ?_, memo := ?_ },
        ⟨_, OrderedMap.get?_set_self .., rfl, on, Nat.le_refl _⟩, rfl, rfl, rfl, rfl, rfl, rfl⟩
      · intro old later
        change (state.requests.set state.sent _).get? old = none
        change state.sent + 1 ≤ old at later
        rw [OrderedMap.get?_set, if_neg (by omega)]
        exact sound.unsent old (by omega)
      · intro old sent found
        change (state.requests.set state.sent _).get? old = some sent at found
        rw [OrderedMap.get?_set] at found
        split at found
        · cases found
          exact ⟨Nat.le_refl _, Nat.le_refl _, fun _ => on⟩
        · exact sound.known old sent found
      · rintro old ⟨⟩
        exact ⟨_, OrderedMap.get?_set_self .., rfl⟩
      · intro refresh own found asked asks
        obtain ⟨sent, here, rest⟩ := sound.asked refresh own found asked asks
        exact ⟨sent, kept here, rest⟩
      · intro memo found
        obtain ⟨on, notices, from'⟩ := sound.memo memo found
        refine ⟨on, notices, ?_⟩
        obtain ⟨sent, here, answered⟩ := Option.bind_eq_some_iff.mp from'
        exact Option.bind_eq_some_iff.mpr ⟨sent, kept here, answered⟩
    · cases fetching

/-- A refresh belongs to the request that it waits for. -/
def State.Asks (state : State) (own : Refresh) : Prop :=
  ∀ request ∈ own.request, ∃ sent, state.requests.get? request = some sent ∧ sent.generation = own.generation ∧
    ∀ previous ∈ own.previous, previous.connection = sent.connection ∧ sent.notices ≤ previous.notices ∧
      previous.notices ≤ state.notices

variable {own : Refresh} {refresh : Nat}

theorem Sound.setRefresh (sound : Sound state) (refresh : Nat) (asks : state.Asks own) :
    Sound { state with refreshes := state.refreshes.set refresh own } := by
  refine { sound with asked := fun other found here => ?_ }
  change (state.refreshes.set refresh own).get? other = some found at here
  rw [OrderedMap.get?_set] at here
  split at here
  · cases here
    exact asks
  · exact sound.asked other found here

theorem Sound.settle (sound : Sound state) (found : state.refreshes.get? refresh = some own)
    (outcome : Option FetchedList) :
    Sound (state.settle refresh own outcome) :=
  sound.setRefresh refresh (sound.asked refresh own found)

theorem Sound.startRefresh (sound : Sound state) (refresh : Nat) :
    Sound (startRefresh refresh state) ∧ (startRefresh refresh state).cachedTools = state.cachedTools ∧
      (startRefresh refresh state).client = state.client ∧
      (startRefresh refresh state).toolListGeneration = state.toolListGeneration ∧
      (startRefresh refresh state).notices = state.notices := by
  unfold ToolList.startRefresh
  split
  · have asks : state.Asks
        { previous := state.cachedTools, generation := state.toolListGeneration, request := none } :=
      fun _ none => nomatch none
    have asked := sound.setRefresh refresh asks
    exact ⟨{ asked with }, rfl, rfl, rfl, rfl⟩
  · next request after fetching =>
    obtain ⟨fetched, ⟨sent, here, generation, on, notices⟩, memo, same, count, client, refreshes, -⟩ :=
      sound.fetchToolList fetching
    refine ⟨?_, memo, client, same, count⟩
    have asks : after.Asks
        { previous := state.cachedTools, generation := state.toolListGeneration, request := some request } := by
      rintro _ ⟨⟩
      refine ⟨sent, here, generation, fun previous began => ?_⟩
      obtain ⟨own, now, -⟩ := sound.memo previous began
      have together : previous.connection = sent.connection :=
        congrArg Client.number (Option.some.inj (own.symm.trans on))
      exact ⟨together, by omega, by omega⟩
    exact { fetched.setRefresh refresh asks with }

theorem Sound.refreshTools (sound : Sound state) (call : Nat) : Keeps state (refreshTools call state).2 := by
  unfold ToolList.refreshTools
  split
  · exact ⟨sound, rfl⟩
  · exact ⟨(sound.startRefresh call).1, (sound.startRefresh call).2.1⟩

theorem Sound.settleRefresh (sound : Sound state) (stepped : settleRefresh refresh state = some after) :
    Keeps state after := by
  obtain ⟨outcome, -, rfl⟩ := Option.map_eq_some_iff.mp stepped
  exact ⟨{ sound with }, rfl⟩

variable {memo : FetchedList} {call now : Nat} {sent : Request}

/-- The memo may be served. -/
theorem Sound.serveMemo (sound : Sound state) (found : state.cachedTools = some memo) :
    Keeps state (state.serve memo) :=
  ⟨sound.serve (sound.memo memo found).1 (sound.memo memo found).2.1, rfl⟩

theorem Sound.revalidateTools (sound : Sound state) (call : Nat) (found : state.cachedTools = some memo) :
    Keeps state (revalidateTools call memo state) := by
  unfold ToolList.revalidateTools
  split
  · exact sound.serveMemo found
  · obtain ⟨started, kept, client, generation, -⟩ := sound.startRefresh call
    refine ⟨started.wait call ?_, kept⟩
    rintro _ _ _ _ ⟨⟩
    obtain ⟨on, notices, -⟩ := sound.memo memo found
    exact ⟨notices, Nat.le_of_eq generation.symm, fun _ => client.trans on⟩

theorem Sound.tools (sound : Sound state) (remote : Bool) (call now : Nat) :
    Keeps state (tools remote call now state) := by
  unfold ToolList.tools
  split
  · next memo found =>
    split
    · exact sound.revalidateTools call found
    · exact sound.serveMemo found
  · split
    · exact ⟨sound, rfl⟩
    · next request after fetching =>
      obtain ⟨fetched, -, memo, -⟩ := sound.fetchToolList fetching
      refine ⟨fetched.wait call ?_, memo⟩
      rintro _ _ _ _ ⟨⟩

theorem Sound.toolsWithMaxAge (sound : Sound state) (call maxAgeMs now : Nat) :
    Keeps state (toolsWithMaxAge call maxAgeMs now state) := by
  have waits : Keeps state ((ToolList.refreshTools call state).2.wait call
      (.maxAge (ToolList.refreshTools call state).1)) := by
    obtain ⟨refreshed, memo⟩ := sound.refreshTools call
    refine ⟨refreshed.wait call ?_, memo⟩
    rintro _ _ _ _ ⟨⟩
  unfold ToolList.toolsWithMaxAge
  split
  · next memo fetchedAt found age =>
    split
    · exact sound.serveMemo found
    · exact waits
  · exact waits

/-- A list of the current connection, requested after the last notice, may fill the memo. -/
theorem Sound.fill (sound : Sound state) (fetched : state.fetched? request = some (some list))
    (listed : state.listed? request = some sent) (generation : sent.generation = state.toolListGeneration)
    (notices : sent.notices = state.notices) (fetchedAt : Option Nat) (toolsChanged : Nat) :
    Sound { state with cachedTools := some list, toolsFetchedAt := fetchedAt, toolsChanged } ∧
      state.On list.connection ∧ list.notices = state.notices := by
  obtain ⟨own, same, here, number, connection, count⟩ := fetched?_eq fetched
  cases listed.symm.trans same
  have on : state.On list.connection := connection ▸ (sound.known request sent here).2.2 generation
  have now : list.notices = state.notices := count.trans notices
  refine ⟨{ sound with memo := ?_ }, on, now⟩
  rintro memo ⟨⟩
  refine ⟨on, now, ?_⟩
  rw [number]
  exact fetched

theorem Sound.takeFetch (sound : Sound state) (undisturbed : Undisturbed state (.takeFetch call now))
    (stepped : takeFetch call now state = some after) : Sound after ∧ SignalsChange state after := by
  unfold ToolList.takeFetch at stepped
  split at stepped
  · next request waiting =>
    obtain ⟨fetched, found, rfl⟩ := Option.map_eq_some_iff.mp stepped
    split
    · exact ⟨sound.stopWaiting call, .of_same rfl⟩
    · next list =>
      obtain ⟨sent, listed, -⟩ := fetched?_eq found
      obtain ⟨generation, notices, own⟩ := undisturbed _ waiting sent listed
      obtain ⟨filled, on, current⟩ :=
        (sound.stopWaiting call).fill found listed generation notices (some now) state.toolsChanged
      exact ⟨Sound.serve { filled with } on current, .of_request sound found rfl own⟩
  · cases stepped

theorem Sound.landRefresh (sound : Sound state) {own : Refresh}
    (found : state.refreshes.get? refresh = some own) (asks : own.request = some request)
    (fetched : state.fetched? request = some (some list)) (listed : state.listed? request = some sent)
    (undisturbed : own.generation = state.toolListGeneration → sent.notices = state.notices ∧
      (own.previous = none → ∀ memo ∈ state.cachedTools, memo.request = request)) :
    Sound (landRefresh refresh now own list state) ∧
      SignalsChange state (landRefresh refresh now own list state) := by
  unfold ToolList.landRefresh
  split
  · exact ⟨sound.settle found _, .of_same rfl⟩
  · next same =>
    have generation : own.generation = state.toolListGeneration := Decidable.of_not_not same
    obtain ⟨notices, filled⟩ := undisturbed generation
    obtain ⟨known, here, requested, began⟩ := sound.asked refresh own found request asks
    have own' : known = sent := by
      obtain ⟨other, there, found, -⟩ := fetched?_eq fetched
      cases listed.symm.trans there
      exact Option.some.inj (here.symm.trans found)
    subst own'
    split
    · next previous before =>
      split
      · exact ⟨((sound.settle found (some list)).fill fetched listed (requested.trans generation) notices (some now)
          (state.toolsChanged + 1)).1, fun _ _ _ _ _ => Nat.lt_succ_self _⟩
      · obtain ⟨connection, after, until'⟩ := began previous before
        have on : state.On previous.connection := by
          rw [connection]
          exact (sound.known request known here).2.2 (requested.trans generation)
        have current : previous.notices = state.notices := by omega
        exact ⟨((sound.settle found (some previous)).stamp now).serve on current, .of_same rfl⟩
    · next empty =>
      exact ⟨((sound.settle found (some list)).fill fetched listed (requested.trans generation) notices (some now)
        state.toolsChanged).1, .of_request sound fetched rfl (filled empty)⟩

theorem Sound.takeRefresh (sound : Sound state) (undisturbed : Undisturbed state (.takeRefresh refresh now))
    (stepped : takeRefresh refresh now state = some after) : Sound after ∧ SignalsChange state after := by
  unfold ToolList.takeRefresh at stepped
  split at stepped
  · next own found =>
    split at stepped
    · cases stepped
    · next pending =>
      have open' : own.outcome = none := Option.not_isSome_iff_eq_none.mp pending
      split at stepped
      · cases stepped
        exact ⟨sound.settle found none, .of_same rfl⟩
      · next request asks =>
        obtain ⟨fetched, landed, rfl⟩ := Option.map_eq_some_iff.mp stepped
        split
        · exact ⟨sound.settle found none, .of_same rfl⟩
        · next list =>
          obtain ⟨sent, listed, -⟩ := fetched?_eq landed
          exact sound.landRefresh found asks landed listed
            (fun same => undisturbed own found open' same request asks sent listed)
  · cases stepped

theorem Sound.fallBack (sound : Sound state) {generation notices : Nat}
    (waiting : state.waiting.get? call = some (.revalidation refresh memo generation notices))
    (fallsBack : FallsBack state (.revalidation refresh memo generation notices)) :
    state.On memo.connection ∧ memo.notices = state.notices := by
  obtain ⟨same, -, on⟩ := sound.revalidating call refresh memo generation notices waiting
  exact ⟨on fallsBack.1, same.trans fallsBack.2⟩

theorem Sound.goOn (sound : Sound state) (undisturbed : Undisturbed state (.goOn call now))
    (stepped : goOn call now state = some after) : Keeps state after := by
  unfold ToolList.goOn at stepped
  split at stepped
  · next refresh memo generation notices waiting =>
    obtain ⟨outcome, settled, rfl⟩ := Option.map_eq_some_iff.mp stepped
    split
    · exact ⟨sound.stopWaiting call, rfl⟩
    · obtain ⟨on, current⟩ := sound.fallBack waiting (undisturbed _ waiting settled)
      exact ⟨((sound.stopWaiting call).stamp now).serve on current, rfl⟩
  · obtain ⟨outcome, settled, rfl⟩ := Option.map_eq_some_iff.mp stepped
    split
    · exact ⟨sound.stopWaiting call, rfl⟩
    · exact ⟨(sound.stopWaiting call).stamp now, rfl⟩
  · obtain ⟨outcome, settled, rfl⟩ := Option.map_eq_some_iff.mp stepped
    split
    · next memo found => exact ⟨((sound.stopWaiting call).serveMemo found).sound, rfl⟩
    · exact ⟨sound.stopWaiting call, rfl⟩
  · cases stepped

theorem Sound.giveUp (sound : Sound state) (undisturbed : Undisturbed state (.giveUp call))
    (stepped : giveUp call state = some after) : Keeps state after := by
  unfold ToolList.giveUp at stepped
  split at stepped
  · next refresh memo generation notices waiting =>
    cases stepped
    obtain ⟨on, current⟩ := sound.fallBack waiting (undisturbed _ waiting)
    refine ⟨(sound.serve on current).wait call ?_, rfl⟩
    rintro _ _ _ _ ⟨⟩
  · cases stepped

variable {sourceName : String} {remote : Bool}

theorem Sound.step {after : State} (sound : Sound state) {action : Action} (undisturbed : Undisturbed state action)
    (stepped : step sourceName remote state action = some after) :
    Sound after ∧ SignalsChange state after := by
  cases action with
  | startBegin => exact (sound.startBegin stepped).signals
  | handshake => exact (sound.handshake stepped).signals
  | cleanupOnStartFailure => exact (sound.cleanupOnStartFailure stepped).signals
  | stop =>
      cases stepped
      exact ⟨sound.stop, .of_none rfl⟩
  | doRestartEnd =>
      cases stepped
      exact ⟨sound.doRestartEnd, .of_none rfl⟩
  | listChanged =>
      cases stepped
      exact ⟨sound.listChanged, .of_none rfl⟩
  | answer request response => exact (sound.answer stepped).signals
  | settleFetch request => exact (sound.settleFetch stepped).signals
  | tools call now =>
      rw [ToolList.step] at stepped
      split at stepped
      · exact Option.some.inj stepped ▸ (sound.tools remote call now).signals
      · cases stepped
  | refreshTools call =>
      rw [ToolList.step] at stepped
      split at stepped
      · exact Option.some.inj stepped ▸ (sound.refreshTools call).signals
      · cases stepped
  | toolsWithMaxAge call maxAgeMs now =>
      rw [ToolList.step] at stepped
      split at stepped
      · exact Option.some.inj stepped ▸ (sound.toolsWithMaxAge call maxAgeMs now).signals
      · cases stepped
  | takeFetch call now => exact sound.takeFetch undisturbed stepped
  | takeRefresh refresh now => exact sound.takeRefresh undisturbed stepped
  | settleRefresh refresh => exact (sound.settleRefresh stepped).signals
  | goOn call now => exact (sound.goOn undisturbed stepped).signals
  | giveUp call => exact (sound.giveUp undisturbed stepped).signals

theorem sound_of_reached (reached : (SourceSystem sourceName remote).ReachedBy Undisturbed state) :
    Sound state := by
  apply reached.invariant Sound
  · rintro _ rfl
    exact Sound.start
  · exact fun before action after sound undisturbed stepped => (sound.step undisturbed stepped).1

/-- The memo is never older than its last invalidation, and no change of it is silent. -/
theorem tool_memo_current {state : State} (reached : (SourceSystem sourceName remote).ReachedBy Undisturbed state) :
    MemoCurrent state ∧
      ∀ action after, Undisturbed state action → step sourceName remote state action = some after →
        SignalsChange state after := by
  have sound := sound_of_reached reached
  refine ⟨⟨fun memo found => ?_, sound.served⟩, fun action after undisturbed stepped =>
    (sound.step undisturbed stepped).2⟩
  obtain ⟨on, notices, -⟩ := sound.memo memo found
  rw [on]
  exact ⟨rfl, notices⟩

/-- A read asks for the list while its request is out. -/
def firstRead : List Action := [.startBegin, .handshake, .tools 0 0]

def readTwice : List Action :=
  firstRead ++ [.answer 0 (some [{ name := "search" }]), .settleFetch 0, .takeFetch 0 1, .tools 1 2, .listChanged,
    .tools 2 3, .answer 1 (some [{ name := "find" }]), .takeFetch 2 4]

theorem tool_memo_current_twice :
    ∃ state ∈ (SourceSystem "crm" true).run {} readTwice, state.served.length = 3 ∧ MemoCurrent state ∧
      ∀ action after, Undisturbed state action → step "crm" true state action = some after →
        SignalsChange state after := by
  have ran : ((SourceSystem "crm" true).run {} readTwice).any (fun state => state.served.length = 3) = true := by
    decide +kernel
  have meets : (SourceSystem "crm" true).Meets Undisturbed {} readTwice := by decide +kernel
  obtain ⟨state, ran, count⟩ := Option.any_eq_true .. |>.mp ran
  exact ⟨state, ran, of_decide_eq_true count,
    tool_memo_current ((System.ReachedBy.start {} rfl).run meets ran)⟩

/-- The notice comes before the answer of an older request. -/
def lateAnswer : List Action :=
  firstRead ++ [.listChanged, .answer 0 (some [{ name := "search" }]), .takeFetch 0 1]

theorem tool_memo_stale :
    ¬ ∀ state, (SourceSystem "crm" true).Reachable state →
      MemoCurrent state ∧
        ∀ action after, step "crm" true state action = some after → SignalsChange state after := by
  intro all
  have ran : ((SourceSystem "crm" true).run {} lateAnswer).any
      (fun state => state.cachedTools.any fun memo => memo.notices ≠ state.notices) = true := by
    decide +kernel
  obtain ⟨state, ran, stale⟩ := Option.any_eq_true .. |>.mp ran
  obtain ⟨memo, found, stale⟩ := Option.any_eq_true .. |>.mp stale
  have current := (all state (System.Reachable.run (System.ReachedBy.start {} rfl) ran)).1.1 memo found
  exact of_decide_eq_true stale current.2

end NimbleBrain.McpSource.ToolList
