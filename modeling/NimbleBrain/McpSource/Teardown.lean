import NimbleBrain.McpSource.Connects

/- Stops and restarts keep the invariants of their source. -/

namespace NimbleBrain.McpSource.Connection

open Library Library.History

variable {source closed : Source} {number now : Nat}

theorem isReturning_cases (returning : source.isReturning = true) :
    (∃ number own, source.starts.get? number = some own ∧ own.phase = .settled true) ∨
      (∃ restart start, source.restarts.get? restart = some (.starting start) ∧ source.startOver? start = some true) ∨
      ∃ restart, source.restarts.get? restart = some (.marked true) := by
  unfold Source.isReturning at returning
  rcases Bool.or_eq_true_iff.mp returning with settled | restarted
  · obtain ⟨own, listed, settled⟩ := List.any_eq_true.mp settled
    obtain ⟨number, entry⟩ := OrderedMap.mem_values.mp listed
    exact .inl ⟨number, own, OrderedMap.get?_eq_some_iff.mpr entry, of_decide_eq_true settled⟩
  · obtain ⟨phase, listed, restarted⟩ := List.any_eq_true.mp restarted
    obtain ⟨number, entry⟩ := OrderedMap.mem_values.mp listed
    have found := OrderedMap.get?_eq_some_iff.mpr entry
    cases phase with
    | tearingDown _ => cases restarted
    | starting start => exact .inr (.inl ⟨number, start, found, of_decide_eq_true restarted⟩)
    | marked connected =>
        obtain rfl : connected = true := restarted
        exact .inr (.inr ⟨number, found⟩)
    | «over» _ => cases restarted

/-- Nothing of a source that is being stopped can still come up. -/
structure AtRest (source : Source) : Prop where
  doomed : ∀ number own, source.starts.get? number = some own → own.IsDoomed source
  unstarted : ∀ restart start, source.restarts.get? restart ≠ some (.starting start)
  unmarked : ∀ restart restarted, source.restarts.get? restart ≠ some (.marked restarted)

theorem AtRest.quiet (rest : AtRest source) : source.isReturning = false := by
  refine Bool.eq_false_iff.mpr fun returning => ?_
  rcases isReturning_cases returning with ⟨number, own, found, settled⟩ | ⟨restart, start, found, _⟩ | ⟨restart, found⟩
  · have doomed := rest.doomed number own found
    unfold Start.IsDoomed at doomed
    rw [settled] at doomed
    cases doomed
  · exact rest.unstarted restart start found
  · exact rest.unmarked restart true found

theorem isStopped_iff : isStopped source = true ↔ source.stopped = true ∧ source.restartInFlight = none := by
  simp [isStopped]

theorem Sound.rest_of_stopped (sound : Sound source) (stopped : isStopped source = true) : AtRest source where
  doomed number own found := (sound.starts number own found).doomed stopped
  unstarted restart _ found :=
    nomatch (isStopped_iff.mp stopped).2.symm.trans (sound.books.repairing restart _ found rfl)
  unmarked restart _ found :=
    nomatch (isStopped_iff.mp stopped).2.symm.trans (sound.books.repairing restart _ found rfl)

variable {own : Start} {deliberate : Bool} {after : Source}

theorem Books.over_of_idle (books : Books source) (idle : source.startInFlight = none)
    (found : source.starts.get? number = some own) : own.phase.isOver = true :=
  Bool.of_not_eq_false fun going => nomatch idle.symm.trans (books.under_way number own found going)

theorem Start.IsDoomed.of_over (over' : own.phase.isOver = true) : own.IsDoomed source := by
  obtain ⟨explicit, phase⟩ := own
  cases phase with
  | «over» connected => trivial
  | _ => exact nomatch over'

theorem Sound.rest_of_tearing (sound : Sound source) {restart stop : Nat}
    (tearing : source.restarts.get? restart = some (.tearingDown stop)) : AtRest source where
  doomed other own found := .of_over (sound.books.over_of_idle (sound.books.tearing restart stop tearing) found)
  unstarted other start found := by
    obtain rfl := Option.some.inj
      ((sound.books.repairing restart _ tearing rfl).symm.trans (sound.books.repairing other _ found rfl))
    exact nomatch tearing.symm.trans found
  unmarked other restarted found := by
    obtain rfl := Option.some.inj
      ((sound.books.repairing restart _ tearing rfl).symm.trans (sound.books.repairing other _ found rfl))
    exact nomatch tearing.symm.trans found

theorem Sound.rest (sound : Sound source) {own : Stop} (found : source.stops.get? number = some own)
    (going : own.phase ≠ .over) : AtRest source := by
  obtain ⟨deliberate, phase⟩ := own
  cases deliberate with
  | true => exact sound.rest_of_stopped (sound.books.deliberate number phase found going)
  | false =>
      obtain ⟨restart, tearing⟩ := sound.books.torn number phase found going
      exact sound.rest_of_tearing tearing

theorem closeClient_closed (now : Nat) (client : Client) (source : Source) :
    Closed source (closeClient now client source) := by
  unfold closeClient
  split
  · exact ⟨rfl, fun _ => id, .inl ⟨rfl, rfl⟩⟩
  · exact closeTransport_closed _ now source

theorem closeClient_shut (now : Nat) (transport : Nat) (source : Source) :
    (closeClient now ⟨some transport⟩ source).isOpen transport = false :=
  closeTransport_shut transport now source

/-- A stop that is under way promises nothing. -/
theorem Sound.setStop (sound : Sound source) (number : Nat) (own : Stop)
    (stopped : own.deliberate = true → isStopped source = true)
    (torn : own.deliberate = false → ∃ restart, source.restarts.get? restart = some (.tearingDown number))
    (quiet : ¬ Pending .resolved endsConnection source.log) :
    Sound { source with stops := source.stops.set number own } where
  books :=
    { sound.books with
      deliberate := fun other phase found going => by
        simp only [OrderedMap.get?_set] at found
        split at found
        · exact stopped (congrArg Stop.deliberate (Option.some.inj found))
        · exact sound.books.deliberate other phase found going
      torn := fun other phase found going => by
        simp only [OrderedMap.get?_set] at found
        split at found
        · next same => exact same ▸ torn (congrArg Stop.deliberate (Option.some.inj found))
        · exact sound.books.torn other phase found going }
  starts other start found :=
    have fits := sound.starts other start found
    { fits with
      doomed := fits.doomed
      settled := fun settled => ⟨{ (fits.settled settled).1 with }, (fits.settled settled).2⟩ }
  stops _ _ _ _ := quiet
  restarted restart start found over' := { sound.restarted restart start found over' with }
  marked restart found := ⟨{ (sound.marked restart found).1 with }, (sound.marked restart found).2⟩
  told := { sound.told with }

theorem Sound.finishStop (sound : Sound source) (rest : AtRest source)
    (stopped : deliberate = true → isStopped source = true) (quiet : ¬ Pending .resolved endsConnection source.log) :
    Sound (finishStop number deliberate source) := by
  have silent : ¬ Pending .resolved endsConnection
      (if deliberate = true then .stopped :: source.log else source.log) := by
    split
    · exact not_pending_cons (by decide) quiet
    · exact quiet
  constructor
  · exact
      { sound.books with
        deliberate := fun other phase found going => by
          simp only [Connection.finishStop, OrderedMap.get?_set] at found
          split at found
          · exact absurd (congrArg Stop.phase (Option.some.inj found)).symm going
          · exact sound.books.deliberate other phase found going
        torn := fun other phase found going => by
          simp only [Connection.finishStop, OrderedMap.get?_set] at found
          split at found
          · exact absurd (congrArg Stop.phase (Option.some.inj found)).symm going
          · exact sound.books.torn other phase found going }
  · intro other own found
    have fits := sound.starts other own found
    have doomed := rest.doomed other own found
    obtain ⟨explicit, phase⟩ := own
    refine ⟨fun _ => ?_, fits.flow, fun attempt legacy transport connecting isOpen => ?_, fun _ => silent, fun settled => ?_⟩
    · cases phase with
      | prepared _ _ => nofun
      | _ => exact doomed
    · obtain rfl : phase = .connecting attempt legacy transport := connecting
      exact nomatch isOpen.symm.trans doomed
    · obtain rfl : phase = .settled true := settled
      cases doomed
  · exact fun _ _ _ _ => silent
  · exact fun restart start found => absurd found (rest.unstarted restart start)
  · exact fun restart found => absurd found (rest.unmarked restart true)
  · obtain ⟨told, stays, crashed, once, _⟩ := sound.told
    refine ⟨fun pending => ?_, ?_, fun pending => ?_, ?_, fun pending => absurd pending silent⟩
    · cases deliberate with
      | true => exact stopped rfl
      | false => exact told pending
    · cases deliberate with
      | true => exact precludes_cons_of_ne (by decide) stays
      | false => exact stays
    · cases deliberate with
      | true =>
          rcases pending with same | ⟨_, pending⟩
          · cases same
          · exact crashed pending
      | false => exact crashed pending
    · cases deliberate with
      | true => exact precludes_cons_of_ne (by decide) once
      | false => exact once

theorem Sound.stopTransport (sound : Sound source) (rest : AtRest source)
    (stopped : deliberate = true → isStopped source = true)
    (torn : deliberate = false → ∃ restart, source.restarts.get? restart = some (.tearingDown number))
    (quiet : ¬ Pending .resolved endsConnection source.log) :
    Sound (stopTransport number now deliberate source) := by
  unfold Connection.stopTransport
  split
  · exact sound.finishStop rest stopped quiet
  · next transport current =>
      have closed := closeTransport_closed transport now source
      have same := closed.same
      have shut := sound.closed closed fun returning => nomatch rest.quiet.symm.trans returning
      have stops : (closeTransport transport now source).stops = source.stops := by rw [same]
      have kept := shut.setStop number ⟨deliberate, .closingTransport⟩
        (fun isDeliberate => by rw [same]; exact stopped isDeliberate) (fun isTorn => by rw [same]; exact torn isTorn)
        (closed.quiet quiet)
      rw [stops] at kept
      exact kept

theorem Sound.stopGoesOn (sound : Sound source) {throws : Bool}
    (stepped : stopGoesOn number now throws source = some after) : Sound after := by
  unfold Connection.stopGoesOn at stepped
  split at stepped
  · next deliberate found =>
      have rest := sound.rest found (by simp)
      have quiet := sound.stops number _ found (by simp)
      have stopped : deliberate = true → isStopped source = true := by
        rintro rfl
        exact sound.books.deliberate number _ found (by simp)
      split at stepped
      · obtain rfl := Option.some.inj stepped
        refine sound.stopTransport rest stopped ?_ quiet
        rintro rfl
        exact sound.books.torn number _ found (by simp)
      · obtain rfl := Option.some.inj stepped
        exact sound.finishStop rest stopped quiet
  · next deliberate found =>
      obtain rfl := Option.some.inj stepped
      refine sound.finishStop (sound.rest found (by simp)) ?_ (sound.stops number _ found (by simp))
      rintro rfl
      exact sound.books.deliberate number _ found (by simp)
  · exact nomatch stepped

/-- What a stop does before it closes anything. -/
def stopCalled (source : Source) : Source :=
  abandonPendingFlow { source with stopping := true, stopped := true, log := .stopCalled :: source.log }

theorem stopCalled_same (source : Source) :
    stopCalled source =
      { source with
        stopping := true, stopped := true, log := .stopCalled :: source.log, starts := (stopCalled source).starts } := by
  unfold stopCalled abandonPendingFlow
  split <;> rfl

/-- A start of a source whose stop was called, before the call. -/
theorem stopCalled_starts (sound : Sound source) (found : (stopCalled source).starts.get? number = some own) :
    ∃ before, source.starts.get? number = some before ∧ own.explicit = before.explicit ∧
      (own.phase = before.phase ∧ (∀ transport, own.phase ≠ .awaitingFlow transport .registered) ∨
        ∃ transport, before.phase = .awaitingFlow transport .registered ∧
          own.phase = .awaitingFlow transport .abandoned) := by
  unfold stopCalled abandonPendingFlow at found
  split at found
  · rw [OrderedMap.get?_filterMap] at found
    obtain ⟨before, listed, abandoned⟩ := Option.bind_eq_some_iff.mp found
    obtain rfl := Option.some.inj abandoned
    refine ⟨before, listed, ?_⟩
    obtain ⟨explicit, phase⟩ := before
    unfold Start.abandon
    split
    · next transport registered => exact ⟨rfl, .inr ⟨transport, registered, rfl⟩⟩
    · next other => exact ⟨rfl, .inl ⟨rfl, other⟩⟩
  · next unauthorised =>
      refine ⟨own, found, rfl, .inl ⟨rfl, fun transport registered => ?_⟩⟩
      exact unauthorised ((sound.starts number own found).flow transport .registered registered)

theorem stopCalled_keeps {before : Start} (listed : source.starts.get? number = some before) :
    ∃ own, (stopCalled source).starts.get? number = some own ∧ own.phase.isOver = before.phase.isOver := by
  unfold stopCalled abandonPendingFlow
  split
  · refine ⟨before.abandon, ?_, ?_⟩
    · rw [OrderedMap.get?_filterMap]
      exact Option.bind_eq_some_iff.mpr ⟨before, listed, rfl⟩
    · unfold Start.abandon
      split
      · next registered => rw [registered]; rfl
      · rfl
  · exact ⟨before, listed, rfl⟩

/-- A deliberate stop, once it closed what it found. -/
theorem Sound.stopCalled (sound : Sound source) (settled : source.restartInFlight = none)
    (closes : Closed (stopCalled source) closed)
    (doomed : ∀ number own, closed.starts.get? number = some own → own.IsDoomed closed) : Sound closed := by
  have same := closes.same
  rw [stopCalled_same source] at same
  have dead : closed.dead = source.dead := by
    rw [(closes.unarmed (by rw [stopCalled_same])).1, stopCalled_same]
  have log : closed.log = .stopCalled :: source.log := by
    rw [(closes.unarmed (by rw [stopCalled_same])).2, stopCalled_same]
  have quiet : ¬ Pending .resolved endsConnection closed.log := log ▸ not_pending_of_ends (by decide) rfl
  have called : closed.starts = (Connection.stopCalled source).starts := by rw [closes.same]
  have flying : closed.startInFlight = source.startInFlight := by rw [same]
  have restarts : closed.restarts = source.restarts := by rw [same]
  have stops : closed.stops = source.stops := by rw [same]
  have isStopped' : isStopped closed = true := by
    refine isStopped_iff.mpr ⟨by rw [same], ?_⟩
    rw [same]
    exact settled
  have repaired : ∀ restart phase, closed.restarts.get? restart = some phase → phase.isOver = true := by
    rw [restarts]
    exact fun restart phase found => Bool.of_not_eq_false fun going =>
      nomatch settled.symm.trans (sound.books.repairing restart phase found going)
  constructor
  · constructor
    · intro number own found going
      obtain ⟨before, listed, _, step⟩ := stopCalled_starts sound (called ▸ found)
      rw [flying]
      refine sound.books.under_way number before listed ?_
      rcases step with ⟨phase, _⟩ | ⟨transport, registered, _⟩
      · exact phase ▸ going
      · rw [registered]
        rfl
    · intro number started
      obtain ⟨before, listed, going⟩ := sound.books.in_flight number (flying ▸ started)
      obtain ⟨own, found, isOver⟩ := stopCalled_keeps listed
      exact ⟨own, called ▸ found, isOver.trans going⟩
    · exact fun restart phase found going => nomatch (repaired restart phase found).symm.trans going
    · exact fun restart stop found => nomatch repaired restart _ found
    · exact fun restart start found => nomatch repaired restart _ found
    · exact fun restart restarted found => nomatch repaired restart _ found
    · exact fun _ _ _ _ => isStopped'
    · intro number phase found going
      obtain ⟨restart, tearing⟩ := sound.books.torn number phase (stops ▸ found) going
      rw [← restarts] at tearing
      exact nomatch repaired restart _ tearing
  · intro number own found
    have doomed := doomed number own found
    obtain ⟨before, listed, _, step⟩ := stopCalled_starts sound (called ▸ found)
    refine ⟨fun _ => doomed, fun transport flow waits => ?_, fun attempt legacy transport connecting isOpen => ?_,
      fun _ => quiet, fun settled => ?_⟩
    · have mode : closed.mode = source.mode := by rw [same]
      rw [mode]
      rcases step with ⟨phase, _⟩ | ⟨other, registered, _⟩
      · exact (sound.starts number before listed).flow transport flow (phase ▸ waits)
      · exact (sound.starts number before listed).flow other .registered registered
    · unfold Start.IsDoomed at doomed
      rw [connecting] at doomed
      exact nomatch isOpen.symm.trans doomed
    · unfold Start.IsDoomed at doomed
      rw [settled] at doomed
      cases doomed
  · exact fun _ _ _ _ => quiet
  · exact fun restart start found => nomatch repaired restart _ found
  · exact fun restart found => nomatch repaired restart _ found
  · obtain ⟨_, stays, crashed, once, _⟩ := sound.told
    refine ⟨fun _ => isStopped', ?_, ?_, ?_, fun pending => absurd pending quiet⟩ <;> rw [log]
    · exact precludes_cons_of_ne (by decide) stays
    · rw [dead]
      rintro (same | ⟨_, pending⟩)
      · cases same
      · exact crashed pending
    · exact precludes_cons_of_ne (by decide) once

/-- A stop that closes what an interruptible start builds leaves the start nothing to connect over. -/
theorem doomed_of_interruptible (sound : Sound source)
    (interruptible : ∀ own ∈ source.starts.values, own.isInterruptible source = true)
    (closes : Closed (stopCalled source) closed)
    (prepared : source.client = none → ∀ transport ∈ source.transport, closed.isOpen transport = false)
    (connecting : ∀ transport, source.client = some ⟨some transport⟩ → closed.isOpen transport = false)
    (found : closed.starts.get? number = some own) : own.IsDoomed closed := by
  have same := closes.same
  rw [stopCalled_same source] at same
  have called : closed.starts = (stopCalled source).starts := by rw [closes.same]
  have transport : closed.transport = source.transport := by rw [same]
  obtain ⟨before, listed, _, step⟩ := stopCalled_starts sound (called ▸ found)
  have reaches := interruptible before (mem_of_get? listed)
  rcases step with ⟨phase, unregistered⟩ | ⟨other, _, abandoned⟩
  · obtain ⟨explicit, phase'⟩ := own
    obtain ⟨explicit', before'⟩ := before
    obtain rfl : phase' = before' := phase
    cases phase' with
    | prepared _ _ =>
        unfold Start.IsDoomed
        rw [transport]
        exact prepared (by simpa [Start.isInterruptible] using reaches)
    | connecting attempt legacy current =>
        refine Bool.eq_false_iff.mpr fun isOpen => ?_
        have before := closes.shut current isOpen
        rw [stopCalled_same] at before
        obtain ⟨_, client⟩ := (sound.starts number _ listed).connecting attempt legacy current rfl before
        exact Bool.eq_false_iff.mp (connecting current client) isOpen
    | awaitingFlow current flow =>
        cases flow with
        | registered => exact absurd rfl (unregistered current)
        | settled authorised =>
            cases authorised with
            | true => simp [Start.isInterruptible] at reaches
            | false => exact .inr rfl
        | abandoned => exact .inl rfl
    | failing => trivial
    | settled connected => simpa [Start.isInterruptible, Start.IsDoomed] using reaches
    | «over» connected => trivial
    | _ => simp [Start.isInterruptible] at reaches
  · unfold Start.IsDoomed
    rw [abandoned]
    exact .inl rfl

theorem Sound.stop (sound : Sound source)
    (interruptible : ∀ own ∈ source.starts.values, own.isInterruptible source = true)
    (settled : source.restartInFlight = none) (stepped : stop number now source = some after) : Sound after := by
  unfold Connection.stop at stepped
  split at stepped
  case isFalse => exact nomatch stepped
  obtain rfl := Option.some.inj stepped
  have same := stopCalled_same source
  have client : (Connection.stopCalled source).client = source.client := by rw [same]
  have transport : (Connection.stopCalled source).transport = source.transport := by rw [same]
  have flagged : ∀ {closed : Source}, Closed (Connection.stopCalled source) closed → isStopped closed = true := by
    intro closed closes
    rw [closes.same, same]
    exact isStopped_iff.mpr ⟨rfl, settled⟩
  have quiet : ∀ {closed : Source}, Closed (Connection.stopCalled source) closed →
      ¬ Pending .resolved endsConnection closed.log := by
    intro closed closes
    rw [(closes.unarmed (by rw [same])).2, same]
    exact not_pending_of_ends (by decide) rfl
  rw [settled]
  show Sound (stopClient number now true (Connection.stopCalled source))
  unfold stopClient
  split
  · next absent =>
      unfold Connection.stopTransport
      split
      · next bare =>
          have closes : Closed (Connection.stopCalled source) (Connection.stopCalled source) :=
            ⟨rfl, fun _ => id, .inl ⟨rfl, rfl⟩⟩
          have kept := sound.stopCalled settled closes fun other own found =>
            doomed_of_interruptible sound interruptible closes (by rw [← transport, bare]; nofun)
              (by rw [← client, absent]; nofun) found
          exact kept.finishStop (kept.rest_of_stopped (flagged closes)) (fun _ => flagged closes) (quiet closes)
      · next current found =>
          have closes := closeTransport_closed current now (Connection.stopCalled source)
          have kept := sound.stopCalled settled closes fun other own found' =>
            doomed_of_interruptible sound interruptible closes
              (fun _ reached listed => by
                rw [← transport, found] at listed
                obtain rfl := Option.some.inj listed
                exact closeTransport_shut _ now _)
              (by rw [← client, absent]; nofun) found'
          have stops : (closeTransport current now (Connection.stopCalled source)).stops =
              (Connection.stopCalled source).stops := by rw [closes.same]
          have set := kept.setStop number ⟨true, .closingTransport⟩ (fun _ => flagged closes) nofun (quiet closes)
          rw [stops] at set
          exact set
  · next holder found =>
      have closes := closeClient_closed now holder (Connection.stopCalled source)
      have kept := sound.stopCalled settled closes fun other own found' =>
        doomed_of_interruptible sound interruptible closes
          (fun absent => nomatch absent.symm.trans (client.symm.trans found))
          (fun current held => by
            obtain rfl := Option.some.inj (held.symm.trans (client.symm.trans found))
            exact closeClient_shut now current _) found'
      have stops : (closeClient now holder (Connection.stopCalled source)).stops =
          (Connection.stopCalled source).stops := by rw [closes.same]
      have set := kept.setStop number ⟨true, .closingClient⟩ (fun _ => flagged closes) nofun (quiet closes)
      rw [stops] at set
      exact set

variable {restart : Nat}

/-- What a restart does at once: its stop closes what is there. -/
theorem doStop_spec (number now : Nat) (source : Source) :
    ∃ closed client transport phase, Closed (stopCalled source) closed ∧
      doStop number now false source =
        { closed with client, transport, stops := source.stops.set number ⟨false, phase⟩ } := by
  have stops : (stopCalled source).stops = source.stops := by rw [stopCalled_same]
  show ∃ closed client transport phase, Closed (stopCalled source) closed ∧
    stopClient number now false (stopCalled source) = _
  rw [← stops]
  unfold stopClient
  split
  · unfold stopTransport
    split
    · exact ⟨stopCalled source, none, none, .over, ⟨rfl, fun _ => id, .inl ⟨rfl, rfl⟩⟩, rfl⟩
    · next current _ =>
        exact ⟨_, _, _, .closingTransport, closeTransport_closed current now (stopCalled source), rfl⟩
  · next client _ => exact ⟨_, _, _, .closingClient, closeClient_closed now client (stopCalled source), rfl⟩

theorem Sound.doRestart (sound : Sound source) (fresh : Fresh) (settled : source.restartInFlight = none)
    (idle : source.startInFlight = none) (live : isStopped source = false) :
    Sound (doRestart fresh now source) := by
  obtain ⟨closed, client, transport, phase, closes, stopped⟩ := doStop_spec fresh.stop now source
  unfold Connection.doRestart
  rw [stopped]
  have dead : closed.dead = source.dead := by
    rw [(closes.unarmed (by rw [stopCalled_same])).1, stopCalled_same]
  have log : closed.log = .stopCalled :: source.log := by
    rw [(closes.unarmed (by rw [stopCalled_same])).2, stopCalled_same]
  have called : closed.starts = (Connection.stopCalled source).starts := by rw [closes.same]
  have flying : closed.startInFlight = none := by
    rw [closes.same, stopCalled_same]
    exact idle
  have isOver : ∀ number own, closed.starts.get? number = some own → own.phase.isOver = true := by
    intro number own found
    obtain ⟨before, listed, _, step⟩ := stopCalled_starts sound (called ▸ found)
    have over' := sound.books.over_of_idle idle listed
    rcases step with ⟨same, _⟩ | ⟨transport, registered, _⟩
    · exact same ▸ over'
    · rw [registered] at over'
      cases over'
  have repaired : ∀ other own, source.restarts.get? other = some own → own.isOver = true :=
    fun other own found => Bool.of_not_eq_false fun going =>
      nomatch settled.symm.trans (sound.books.repairing other own found going)
  have listed : ∀ other own, (source.restarts.set fresh.restart (.tearingDown fresh.stop)).get? other = some own →
      other = fresh.restart ∧ own = .tearingDown fresh.stop ∨ own.isOver = true := by
    intro other own found
    rw [OrderedMap.get?_set] at found
    split at found
    · next same => exact .inl ⟨same, (Option.some.inj found).symm⟩
    · exact .inr (repaired other own found)
  have quiet : ¬ Pending .resolved endsConnection closed.log := log ▸ not_pending_of_ends (by decide) rfl
  constructor
  · constructor
    · exact fun number own found going => nomatch (isOver number own found).symm.trans going
    · exact fun number started => nomatch flying.symm.trans started
    · intro other own found going
      rcases listed other own found with ⟨rfl, _⟩ | over'
      · rfl
      · exact nomatch over'.symm.trans going
    · exact fun _ _ _ => flying
    · intro other start found
      rcases listed other _ found with ⟨_, same⟩ | over'
      · cases same
      · cases over'
    · intro other restarted found
      rcases listed other _ found with ⟨_, same⟩ | over'
      · cases same
      · cases over'
    · intro other own found going
      rw [OrderedMap.get?_set] at found
      split at found
      · cases Option.some.inj found
      · exact nomatch live.symm.trans (sound.books.deliberate other own found going)
    · intro other own found going
      rw [OrderedMap.get?_set] at found
      split at found
      · next same => exact ⟨fresh.restart, same ▸ OrderedMap.get?_set_self ..⟩
      · obtain ⟨restart, tearing⟩ := sound.books.torn other own found going
        cases repaired restart _ tearing
  · exact fun number own found => .of_over (isOver number own found)
  · exact fun _ _ _ _ => quiet
  · intro other start found
    rcases listed other _ found with ⟨_, same⟩ | over'
    · cases same
    · cases over'
  · intro other found
    rcases listed other _ found with ⟨_, same⟩ | over'
    · cases same
    · cases over'
  · obtain ⟨told, stays, crashed, once, _⟩ := sound.told
    refine ⟨fun pending => ?_, ?_, fun pending => ?_, ?_, fun pending => absurd pending quiet⟩
    · simp only [log] at pending
      rcases pending with same | ⟨_, pending⟩
      · cases same
      · exact nomatch live.symm.trans (told pending)
    · simp only [log]
      exact precludes_cons_of_ne (by decide) stays
    · simp only [log] at pending
      simp only [dead]
      rcases pending with same | ⟨_, pending⟩
      · cases same
      · exact crashed pending
    · simp only [log]
      exact precludes_cons_of_ne (by decide) once

/-- A restart in flight is shared, and a start in flight is joined. -/
theorem Sound.tryRestart (sound : Sound source) (fresh : Fresh) (may : source.MayRestart) :
    Sound (tryRestart fresh now source).2 := by
  unfold Connection.tryRestart
  split
  · exact sound
  · exact sound
  · next settled idle =>
      refine sound.doRestart fresh settled idle (may.resolve_right fun flying => ?_)
      rw [idle] at flying
      cases flying

/-- While a restart is in flight, only its own teardown stops the source. -/
theorem Sound.unstopped (sound : Sound source) {phase : RestartPhase}
    (found : source.restarts.get? restart = some phase) (going : phase.isOver = false)
    (torn : ∀ stop, phase = .tearingDown stop → ∀ own, source.stops.get? stop = some own → own.phase = .over)
    {own : Stop} (listed : source.stops.get? number = some own) : own.phase = .over := by
  have repairing := sound.books.repairing restart phase found going
  by_contra under
  obtain ⟨deliberate, stop⟩ := own
  cases deliberate with
  | true => exact nomatch repairing.symm.trans (isStopped_iff.mp (sound.books.deliberate number stop listed under)).2
  | false =>
      obtain ⟨other, tearing⟩ := sound.books.torn number stop listed under
      obtain rfl := Option.some.inj (repairing.symm.trans (sound.books.repairing other _ tearing rfl))
      exact under (torn number (Option.some.inj (found.symm.trans tearing)) _ listed)

theorem Sound.restartStarts (sound : Sound source) (stepped : restartStarts restart number source = some after) :
    Sound after := by
  unfold Connection.restartStarts at stepped
  split at stepped
  · next stop found =>
      split at stepped
      · next ready =>
          obtain rfl := Option.some.inj stepped
          have repairing := sound.books.repairing restart _ found rfl
          have idle := sound.books.tearing restart stop found
          have torn : ∀ own, source.stops.get? stop = some own → own.phase = .over := by
            intro own listed
            have over' := ready.1
            rw [listed] at over'
            simpa using over'
          refine sound.begins false (fun other own listed => sound.books.over_of_idle idle listed)
            (fun other own listed => sound.unstopped found rfl (fun stop' same => ?_) listed) (fun other phase listed => ?_) ?_
          · cases same
            exact torn
          · rw [OrderedMap.get?_set] at listed
            split at listed
            · next same => exact .inr ⟨(Option.some.inj listed).symm, same ▸ repairing⟩
            · next different =>
                refine .inl (Bool.of_not_eq_false fun going => different ?_)
                exact Option.some.inj ((sound.books.repairing other phase listed going).symm.trans repairing)
          · exact { sound.told with
              stopped := fun pending => nomatch repairing.symm.trans (isStopped_iff.mp (sound.told.stopped pending)).2 }
      · exact nomatch stepped
  · exact nomatch stepped

/-- A restart learns how its start ended. -/
theorem Sound.marks (sound : Sound source) {start : Nat}
    (found : source.restarts.get? restart = some (.starting start)) {connected : Bool}
    (ended : source.startOver? start = some connected) (dead : Bool) (revived : connected = true → dead = false)
    (kept : dead = true → source.dead = true)
    (unharmed : dead = false → Pending .crashed isConnected source.log → source.dead = false) :
    Sound { source with dead, restarts := source.restarts.set restart (.marked connected) } := by
  obtain ⟨live, flying⟩ := sound.books.starting restart start found
  have idle : source.startInFlight = none := flying.resolve_right fun flying => by
    obtain ⟨own, listed, going⟩ := sound.books.in_flight start flying
    obtain ⟨explicit, over'⟩ := startOver?_eq_some.mp ended
    obtain rfl := Option.some.inj (listed.symm.trans over')
    cases going
  have repairing := sound.books.repairing restart _ found rfl
  have calm : source.dead = false → dead = false := fun before =>
    Bool.eq_false_iff.mpr fun crashed => Bool.eq_false_iff.mp before (kept crashed)
  have listed : ∀ other phase, (source.restarts.set restart (.marked connected)).get? other = some phase →
      other = restart ∧ phase = .marked connected ∨ source.restarts.get? other = some phase ∧ phase.isOver = true := by
    intro other phase found'
    rw [OrderedMap.get?_set] at found'
    split at found'
    · next same => exact .inl ⟨same, (Option.some.inj found').symm⟩
    · next different =>
        refine .inr ⟨found', Bool.of_not_eq_false fun going => different ?_⟩
        exact Option.some.inj ((sound.books.repairing other phase found' going).symm.trans repairing)
  obtain ⟨under_way, in_flight, _, _, _, _, deliberate, torn⟩ := sound.books
  constructor
  · refine ⟨under_way, in_flight, fun other phase found' going => ?_, fun _ _ _ => idle, fun other start' found' => ?_,
      fun _ _ _ => ⟨live, idle⟩, deliberate, fun other phase found' going => ?_⟩
    · rcases listed other phase found' with ⟨rfl, _⟩ | ⟨_, over'⟩
      · exact repairing
      · exact nomatch over'.symm.trans going
    · rcases listed other _ found' with ⟨_, same⟩ | ⟨_, over'⟩
      · cases same
      · cases over'
    · have over' := sound.unstopped found rfl nofun found'
      exact absurd over' going
  · intro other own found'
    have fits := sound.starts other own found'
    exact
      { fits with
        doomed := fits.doomed
        settled := fun settled =>
          ⟨{ (fits.settled settled).1 with }, fun explicit => calm ((fits.settled settled).2 explicit)⟩ }
  · exact sound.stops
  · intro other start' found' _
    rcases listed other _ found' with ⟨_, same⟩ | ⟨_, over'⟩
    · cases same
    · cases over'
  · intro other found'
    rcases listed other _ found' with ⟨_, same⟩ | ⟨_, over'⟩
    · cases same
      exact ⟨{ sound.restarted restart start found ended with }, revived rfl⟩
    · cases over'
  · obtain ⟨stopped, stays, crashed, once, resolved⟩ := sound.told
    refine ⟨stopped, stays, fun pending => ?_, once, fun pending => ?_⟩
    · refine Bool.of_not_eq_false fun calm => ?_
      exact Bool.eq_false_iff.mp (unharmed calm pending) (crashed pending)
    · have alive := resolved pending
      simp only [isAlive, Bool.and_eq_true, Bool.not_eq_true'] at alive ⊢
      exact ⟨alive.1, calm alive.2⟩

theorem Sound.restartSettles (sound : Sound source) (stepped : restartSettles restart source = some after) :
    Sound after := by
  unfold Connection.restartSettles at stepped
  split at stepped
  · next start found =>
      obtain ⟨connected, ended, told⟩ := Option.map_eq_some_iff.mp stepped
      cases connected with
      | true =>
          subst told
          have unharmed := (sound.restarted restart start found ended).unharmed
          exact (sound.marks found ended false (fun _ => rfl) nofun (fun _ pending => absurd pending unharmed)).logs _ rfl
      | false =>
          subst told
          refine (sound.marks found ended source.dead nofun id fun calm _ => calm).logs _ rfl
  · exact nomatch stepped

/-- A restart leaves. -/
theorem Sound.restartLeaves (sound : Sound source) {restarted : Bool}
    (found : source.restarts.get? restart = some (.marked restarted)) :
    Sound { source with
      restartInFlight := none, restarts := source.restarts.set restart (.over restarted) } := by
  obtain ⟨live, idle⟩ := sound.books.marked restart restarted found
  have repairing := sound.books.repairing restart _ found rfl
  have unstopped : isStopped source = false := by simp [isStopped, live]
  have listed : ∀ other phase, (source.restarts.set restart (.over restarted)).get? other = some phase →
      phase.isOver = true := by
    intro other phase found'
    rw [OrderedMap.get?_set] at found'
    split at found'
    · exact Option.some.inj found' ▸ rfl
    · next different =>
        refine Bool.of_not_eq_false fun going => different ?_
        exact Option.some.inj ((sound.books.repairing other phase found' going).symm.trans repairing)
  have standing : ∀ other own, source.stops.get? other = some own → own.phase = .over :=
    fun other own found' => sound.unstopped found rfl (by rintro _ ⟨⟩) found'
  constructor
  · exact ⟨sound.books.under_way, sound.books.in_flight,
      fun other phase found' going => (by cases (listed other phase found').symm.trans going),
      fun other stop found' => (by cases listed other _ found'), fun other start found' => (by cases listed other _ found'),
      fun other restarted' found' => (by cases listed other _ found'),
      fun other phase found' going => absurd (standing other _ found') going,
      fun other phase found' going => absurd (standing other _ found') going⟩
  · exact fun other own found' => .of_over (sound.books.over_of_idle idle found')
  · exact sound.stops
  · exact fun other start found' => by cases listed other _ found'
  · exact fun other found' => by cases listed other _ found'
  · exact { sound.told with
      stopped := fun pending => by cases unstopped.symm.trans (sound.told.stopped pending) }

theorem Sound.restartReturns (sound : Sound source) (stepped : restartReturns restart source = some after) :
    Sound after := by
  unfold Connection.restartReturns at stepped
  split at stepped
  · next restarted found =>
      obtain rfl := Option.some.inj stepped
      cases restarted with
      | false => exact sound.restartLeaves found
      | true =>
          obtain ⟨⟨transport, client, _⟩, dead⟩ := sound.marked restart found
          have alive : isAlive source = true := by simp [isAlive, transport, client, dead]
          have idle := (sound.books.marked restart true found).2
          refine (sound.resolves alive (fun other own listed => sound.unstopped found rfl (by rintro _ ⟨⟩) listed)
            fun other own listed => ?_).restartLeaves found
          have over' := sound.books.over_of_idle idle listed
          obtain ⟨explicit, phase⟩ := own
          cases phase <;> first | rfl | cases over'
  · cases stepped

/-- A close is told, and a watched transport tells a crash with it. -/
theorem Sound.transportClosed (sound : Sound source)
    (may : (source.transports.get? number).any Transport.watched = true → source.MayCrash)
    (stepped : transportClosed number now source = some after) : Sound after := by
  unfold Connection.transportClosed at stepped
  split at stepped
  · obtain rfl := Option.some.inj stepped
    have closes := closeTransport_closed number now { source with log := .closed :: source.log }
    refine (sound.logs .closed rfl).closed closes fun returning => ?_
    by_cases watched : (source.transports.get? number).any Transport.watched = true
    · refine closes.crash.resolve_right fun crashed => ?_
      exact nomatch (may watched returning).symm.trans crashed.1
    · exact closeTransport_unwatched now (Bool.eq_false_iff.mpr watched)
  · exact nomatch stepped

theorem Sound.emitSourceCrashed (sound : Sound source) (may : source.MayCrash) :
    Sound (emitSourceCrashed now source) := by
  have closes := emitSourceCrashed_closed now source
  refine sound.closed closes fun returning => closes.crash.resolve_right fun crashed => ?_
  exact nomatch (may returning).symm.trans crashed.1

end NimbleBrain.McpSource.Connection
