import NimbleBrain.McpSource.LifeCycle

/- What holds of a source between two of its steps. -/

namespace NimbleBrain.McpSource.Connection

open Library Library.History

/-- At most one start and one restart are under way, and none of them passes a stop. -/
structure Books (source : Source) : Prop where
  under_way : ∀ number own, source.starts.get? number = some own → own.phase.isOver = false →
    source.startInFlight = some number
  in_flight : ∀ number, source.startInFlight = some number →
    ∃ own, source.starts.get? number = some own ∧ own.phase.isOver = false
  repairing : ∀ number phase, source.restarts.get? number = some phase → phase.isOver = false →
    source.restartInFlight = some number
  tearing : ∀ number stop, source.restarts.get? number = some (.tearingDown stop) → source.startInFlight = none
  starting : ∀ number start, source.restarts.get? number = some (.starting start) →
    source.stopped = false ∧ (source.startInFlight = none ∨ source.startInFlight = some start)
  marked : ∀ number restarted, source.restarts.get? number = some (.marked restarted) →
    source.stopped = false ∧ source.startInFlight = none
  deliberate : ∀ number phase, source.stops.get? number = some ⟨true, phase⟩ → phase ≠ .over →
    isStopped source = true
  torn : ∀ number phase, source.stops.get? number = some ⟨false, phase⟩ → phase ≠ .over →
    ∃ restart, source.restarts.get? restart = some (.tearingDown number)

/-- A start that goes on after a stop has nothing open to connect over. -/
def Start.IsDoomed (source : Source) (own : Start) : Prop :=
  match own.phase with
  | .prepared _ _ => ∀ transport ∈ source.transport, source.isOpen transport = false
  | .connecting _ _ transport => source.isOpen transport = false
  | .awaitingFlow _ flow => flow = .abandoned ∨ flow = .settled false
  | .failing => True
  | .settled connected => connected = false
  | .over _ => True
  | _ => False

/-- The connection stands, and no crash of it was told. -/
structure Source.Stands (source : Source) : Prop where
  transport : source.transport.isSome = true
  client : source.client.isSome = true
  unharmed : ¬ Pending .crashed isConnected source.log

/-- A start waits for a close. -/
def StartPhase.isCleaning : StartPhase → Bool
  | .fallingBack _ | .rebuilding | .failing => true
  | _ => false

structure Start.Fits (source : Source) (own : Start) : Prop where
  doomed : isStopped source = true → own.IsDoomed source
  flow : ∀ transport flow, own.phase = .awaitingFlow transport flow → source.mode = .remote true
  connecting : ∀ attempt legacy transport, own.phase = .connecting attempt legacy transport →
    source.isOpen transport = true → source.transport = some transport ∧ source.client = some ⟨some transport⟩
  cleaning : own.phase.isCleaning = true → ¬ Pending .resolved endsConnection source.log
  settled : own.phase = .settled true → source.Stands ∧ (own.explicit = true → source.dead = false)

structure Told (source : Source) : Prop where
  stopped : Pending .stopped isStartCalled source.log → isStopped source = true
  stays_stopped : Precludes .stopped isStartCalled .connected source.log
  crashed : Pending .crashed isConnected source.log → source.dead = true
  crashes_once : Precludes .crashed isConnected .crashed source.log
  resolved : Pending .resolved endsConnection source.log → isAlive source = true

structure Sound (source : Source) : Prop where
  books : Books source
  starts : ∀ number own, source.starts.get? number = some own → own.Fits source
  stops : ∀ number own, source.stops.get? number = some own → own.phase ≠ .over →
    ¬ Pending .resolved endsConnection source.log
  restarted : ∀ number start, source.restarts.get? number = some (.starting start) →
    source.startOver? start = some true → source.Stands
  marked : ∀ number, source.restarts.get? number = some (.marked true) → source.Stands ∧ source.dead = false
  told : Told source

variable {source after : Source}

/-- No invariant reads these fields. -/
theorem Sound.flags (sound : Sound source) (stopping : Bool) (downSince startedAt lastReconnectFailedAt : Option Nat) :
    Sound { source with stopping, downSince, startedAt, lastReconnectFailedAt } where
  books := { sound.books with }
  starts number own found :=
    { sound.starts number own found with
      settled := fun settled =>
        ⟨{ ((sound.starts number own found).settled settled).1 with },
          ((sound.starts number own found).settled settled).2⟩ }
  stops := sound.stops
  restarted number start found ended := { sound.restarted number start found ended with }
  marked number found := ⟨{ (sound.marked number found).1 with }, (sound.marked number found).2⟩
  told := { sound.told with }

/-- An event that none of the promises is about. -/
def Event.isPlain : Event → Bool
  | .stopCalled | .closed | .failed | .restarted | .restartFailed => true
  | _ => false

theorem Source.Stands.log (stands : source.Stands) {event : Event} (other : event ≠ .crashed) :
    Source.Stands { source with log := event :: source.log } :=
  { stands with unharmed := not_pending_cons other stands.unharmed }

theorem Sound.logs (sound : Sound source) (event : Event) (plain : event.isPlain = true) :
    Sound { source with log := event :: source.log } where
  books := { sound.books with }
  starts number own found :=
    have fits := sound.starts number own found
    { fits with
      cleaning := fun cleaning => not_pending_cons (by rintro rfl; cases plain) (fits.cleaning cleaning)
      settled := fun settled =>
        ⟨(fits.settled settled).1.log (by rintro rfl; cases plain), (fits.settled settled).2⟩ }
  stops number own found phase :=
    not_pending_cons (by rintro rfl; cases plain) (sound.stops number own found phase)
  restarted number start found ended := (sound.restarted number start found ended).log (by rintro rfl; cases plain)
  marked number found := ⟨(sound.marked number found).1.log (by rintro rfl; cases plain), (sound.marked number found).2⟩
  told := by
    obtain ⟨stopped, stays, crashed, once, resolved⟩ := sound.told
    refine ⟨?_, precludes_cons_of_ne (by rintro rfl; cases plain) stays, ?_,
      precludes_cons_of_ne (by rintro rfl; cases plain) once, ?_⟩
    · rintro (rfl | ⟨_, pending⟩)
      · cases plain
      · exact stopped pending
    · rintro (rfl | ⟨_, pending⟩)
      · cases plain
      · exact crashed pending
    · rintro (rfl | ⟨_, pending⟩)
      · cases plain
      · exact resolved pending

/-- Transports were closed, and the crash was told when it could be. -/
structure Closed (source after : Source) : Prop where
  same : after = { source with
    transports := after.transports, dead := after.dead, downSince := after.downSince, log := after.log }
  shut : ∀ transport, after.isOpen transport = true → source.isOpen transport = true
  crash : after.dead = source.dead ∧ after.log = source.log ∨
    source.isArmed = true ∧ after.dead = true ∧ after.log = .crashed :: source.log

theorem emitSourceCrashed_closed (now : Nat) (source : Source) : Closed source (emitSourceCrashed now source) := by
  unfold emitSourceCrashed
  split
  · exact ⟨rfl, fun _ => id, .inl ⟨rfl, rfl⟩⟩
  · next armed => exact ⟨rfl, fun _ => id, .inr ⟨by simpa [Source.isArmed] using armed, rfl, rfl⟩⟩

theorem Closed.trans {between : Source} (first : Closed source between) (quiet : between.log = source.log)
    (unharmed : between.isArmed = true → source.isArmed = true) (second : Closed between after) :
    Closed source after where
  same := by rw [second.same, first.same]
  shut transport isOpen := first.shut transport (second.shut transport isOpen)
  crash := by
    have first := first.crash
    have second := second.crash
    grind

theorem shut_set (transports : OrderedMap Nat Transport) (number : Nat) (transport : Transport)
    (closed : transport.isOpen = true → (transports.get? number).any Transport.isOpen = true) (other : Nat)
    (isOpen : ((transports.set number transport).get? other).any Transport.isOpen = true) :
    (transports.get? other).any Transport.isOpen = true := by
  rw [OrderedMap.get?_set] at isOpen
  split at isOpen
  · next same => exact same ▸ closed isOpen
  · exact isOpen

theorem watch_closed (number : Nat) (watched : Bool) (source : Source) :
    Closed source (watch number watched source) ∧ (watch number watched source).log = source.log := by
  unfold watch
  split
  · exact ⟨⟨rfl, fun _ => id, .inl ⟨rfl, rfl⟩⟩, rfl⟩
  · next transport found =>
      exact ⟨⟨rfl, shut_set _ _ _ (by simp [found]), .inl ⟨rfl, rfl⟩⟩, rfl⟩

theorem watchCurrent_closed (watched : Bool) (source : Source) :
    Closed source (watchCurrent watched source) ∧ (watchCurrent watched source).log = source.log := by
  unfold watchCurrent
  split
  · exact ⟨⟨rfl, fun _ => id, .inl ⟨rfl, rfl⟩⟩, rfl⟩
  · exact watch_closed _ _ source

theorem closeTransport_closed (number now : Nat) (source : Source) :
    Closed source (closeTransport number now source) := by
  unfold closeTransport
  split
  · exact ⟨rfl, fun _ => id, .inl ⟨rfl, rfl⟩⟩
  · next transport found =>
      have shut : Closed source
          { source with transports := source.transports.set number { transport with isOpen := false } } :=
        ⟨rfl, shut_set _ _ _ (fun isOpen => nomatch isOpen), .inl ⟨rfl, rfl⟩⟩
      split
      · exact shut.trans rfl id (emitSourceCrashed_closed now _)
      · exact shut

theorem closeTransport_shut (number now : Nat) (source : Source) :
    (closeTransport number now source).isOpen number = false := by
  unfold closeTransport
  split
  · next absent => simp [Source.isOpen, absent]
  · next transport found =>
      split
      · refine Bool.eq_false_iff.mpr fun isOpen => ?_
        have isOpen := (emitSourceCrashed_closed now _).shut number isOpen
        simp [Source.isOpen, OrderedMap.get?_set_self] at isOpen
      · simp [Source.isOpen, OrderedMap.get?_set_self]

variable {number : Nat} {own : Start}

theorem closeTransport_unwatched (now : Nat)
    (unwatched : (source.transports.get? number).any Transport.watched = false) :
    (closeTransport number now source).dead = source.dead ∧
      (closeTransport number now source).log = source.log := by
  unfold closeTransport
  split
  · exact ⟨rfl, rfl⟩
  · next transport found =>
      rw [found] at unwatched
      rw [if_neg (by simpa using unwatched)]
      exact ⟨rfl, rfl⟩

theorem closeCurrent_closed (now : Nat) (source : Source) : Closed source (closeCurrent now source) := by
  unfold closeCurrent
  split
  · exact ⟨rfl, fun _ => id, .inl ⟨rfl, rfl⟩⟩
  · exact closeTransport_closed _ now source

/-- A teardown tells no crash. -/
theorem Closed.unarmed (closed : Closed source after) (stopping : source.stopping = true) :
    after.dead = source.dead ∧ after.log = source.log :=
  closed.crash.resolve_right fun crashed => by simp [Source.isArmed, stopping] at crashed

theorem Closed.calm (closed : Closed source after) (log : after.log = source.log) :
    after.dead = source.dead ∧ after.log = source.log :=
  closed.crash.resolve_right fun crashed => List.cons_ne_self _ _ (crashed.2.2.symm.trans log)

theorem isReturning_of_settled (found : source.starts.get? number = some own) (settled : own.phase = .settled true) :
    source.isReturning = true := by
  refine Bool.or_eq_true_iff.mpr (.inl (List.any_eq_true.mpr ⟨own, ?_, by simpa using settled⟩))
  exact OrderedMap.mem_values.mpr ⟨number, OrderedMap.get?_eq_some_iff.mp found⟩

theorem isReturning_of_restarted {start : Nat} (found : source.restarts.get? number = some (.starting start))
    (over' : source.startOver? start = some true) :
    source.isReturning = true := by
  refine Bool.or_eq_true_iff.mpr (.inr (List.any_eq_true.mpr ⟨.starting start, ?_, by simpa using over'⟩))
  exact OrderedMap.mem_values.mpr ⟨number, OrderedMap.get?_eq_some_iff.mp found⟩

theorem isReturning_of_marked (found : source.restarts.get? number = some (.marked true)) :
    source.isReturning = true := by
  refine Bool.or_eq_true_iff.mpr (.inr (List.any_eq_true.mpr ⟨.marked true, ?_, rfl⟩))
  exact OrderedMap.mem_values.mpr ⟨number, OrderedMap.get?_eq_some_iff.mp found⟩

theorem Closed.quiet (closed : Closed source after) (before : ¬ Pending .resolved endsConnection source.log) :
    ¬ Pending .resolved endsConnection after.log := by
  rcases closed.crash with ⟨_, log⟩ | ⟨_, _, log⟩ <;> rw [log]
  · exact before
  · exact not_pending_cons (by decide) before

theorem Closed.stands (closed : Closed source after) (quiet : after.log = source.log) (stands : source.Stands) :
    after.Stands := by
  rw [closed.same]
  exact ⟨stands.transport, stands.client, quiet ▸ stands.unharmed⟩

theorem Closed.fits (closed : Closed source after)
    (may : own.phase = .settled true → after.dead = source.dead ∧ after.log = source.log) (fits : own.Fits source) :
    own.Fits after where
  doomed isStopped' := by
    have before : isStopped source = true := by rw [closed.same] at isStopped'; exact isStopped'
    have doomed := fits.doomed before
    have shut := closed.shut
    have transport : after.transport = source.transport := by rw [closed.same]
    unfold Start.IsDoomed at doomed ⊢
    grind
  flow transport flow phase := by rw [closed.same]; exact fits.flow transport flow phase
  connecting attempt legacy transport phase isOpen := by
    have current := fits.connecting attempt legacy transport phase (closed.shut transport isOpen)
    rw [closed.same]
    exact current
  cleaning cleaning := closed.quiet (fits.cleaning cleaning)
  settled settled :=
    ⟨closed.stands (may settled).2 (fits.settled settled).1,
      fun explicit => (may settled).1.trans ((fits.settled settled).2 explicit)⟩

theorem Closed.told (closed : Closed source after) (told : Told source) : Told after := by
  obtain ⟨stopped, stays, crashed, once, resolved⟩ := told
  have stop : isStopped after = isStopped source := by rw [closed.same]; rfl
  have ends : isAlive source = true → after.dead = source.dead → isAlive after = true := by
    rw [closed.same]
    exact fun alive dead => dead ▸ alive
  rcases closed.crash with ⟨dead, log⟩ | ⟨armed, dead, log⟩
  · exact ⟨by rwa [stop, log], by rwa [log], by rwa [dead, log], by rwa [log],
      by rw [log]; exact fun pending => ends (resolved pending) dead⟩
  · have unharmed : source.dead = false := by simp [Source.isArmed] at armed; exact armed.2
    refine ⟨?_, ?_, fun _ => dead, ?_, ?_⟩ <;> rw [log]
    · rw [stop]
      rintro (same | ⟨_, pending⟩)
      · cases same
      · exact stopped pending
    · exact precludes_cons_of_ne (by decide) stays
    · exact ⟨fun _ pending => by simp [crashed pending] at unharmed, once⟩
    · exact fun pending => absurd pending (not_pending_of_ends (by decide) rfl)

theorem Sound.closed (sound : Sound source) (closed : Closed source after)
    (may : source.isReturning = true → after.dead = source.dead ∧ after.log = source.log) : Sound after where
  books := by rw [closed.same]; exact { sound.books with }
  starts number own found := by
    have before : source.starts.get? number = some own := by rw [closed.same] at found; exact found
    exact closed.fits (fun settled => may (isReturning_of_settled before settled)) (sound.starts number own before)
  stops number own found phase := by
    have before : source.stops.get? number = some own := by rw [closed.same] at found; exact found
    exact closed.quiet (sound.stops number own before phase)
  restarted number start found over' := by
    have before : source.restarts.get? number = some (.starting start) := by rw [closed.same] at found; exact found
    have connected : source.startOver? start = some true := by rw [closed.same] at over'; exact over'
    exact closed.stands (may (isReturning_of_restarted before connected)).2
      (sound.restarted number start before connected)
  marked number found := by
    have before : source.restarts.get? number = some (.marked true) := by rw [closed.same] at found; exact found
    obtain ⟨dead, log⟩ := may (isReturning_of_marked before)
    exact ⟨closed.stands log (sound.marked number before).1, dead.trans (sound.marked number before).2⟩
  told := closed.told sound.told

variable {now : Nat} {phase : StartPhase}

theorem Source.Stands.enter (stands : source.Stands) : (source.enter number own phase).Stands := { stands with }

theorem Start.Fits.enter {other : Start} (fits : other.Fits source) : other.Fits (source.enter number own phase) :=
  { fits with
    doomed := fits.doomed
    settled := fun settled => ⟨(fits.settled settled).1.enter, (fits.settled settled).2⟩ }

theorem startOver?_eq_some {start : Nat} {connected : Bool} :
    source.startOver? start = some connected ↔
      ∃ explicit, source.starts.get? start = some ⟨explicit, .over connected⟩ := by
  unfold Source.startOver?
  rcases source.starts.get? start with none | ⟨explicit, phase⟩
  · simp
  · cases phase <;> simp

theorem Books.enter (books : Books source) (found : source.starts.get? number = some own)
    (under : own.phase.isOver = false) (going : phase.isOver = false) : Books (source.enter number own phase) :=
  { books with
    under_way := fun other start listed => by
      have under_way := books.under_way
      simp only [Source.enter, OrderedMap.get?_set] at listed
      grind [Source.enter]
    in_flight := fun other flying => by
      have in_flight := books.in_flight other flying
      simp only [Source.enter, OrderedMap.get?_set]
      grind }

/-- A start goes on. -/
theorem Sound.enter (sound : Sound source) (found : source.starts.get? number = some own)
    (under : own.phase.isOver = false) (going : phase.isOver = false)
    (fits : ({ own with phase } : Start).Fits source) : Sound (source.enter number own phase) where
  books := sound.books.enter found under going
  starts other start listed := by
    simp only [Source.enter, OrderedMap.get?_set] at listed
    split at listed
    · exact Option.some.inj listed ▸ fits.enter
    · exact (sound.starts other start listed).enter
  stops := sound.stops
  restarted restart start listed connected := by
    obtain ⟨explicit, connected⟩ := startOver?_eq_some.mp connected
    simp only [Source.enter, OrderedMap.get?_set] at connected
    split at connected
    · obtain rfl := congrArg Start.phase (Option.some.inj connected)
      exact nomatch going
    · exact (sound.restarted restart start listed (startOver?_eq_some.mpr ⟨explicit, connected⟩)).enter
  marked restart listed := ⟨(sound.marked restart listed).1.enter, (sound.marked restart listed).2⟩
  told := { sound.told with }

variable {other : Nat} {start : Start}

/-- The only start under way. -/
theorem Books.alone (books : Books source) (found : source.starts.get? number = some own)
    (under : own.phase.isOver = false) (listed : source.starts.get? other = some start) (different : other ≠ number) :
    start.phase.isOver = true := by
  refine Bool.of_not_eq_false fun going => different ?_
  have same := (books.under_way other start listed going).symm.trans (books.under_way number own found under)
  exact Option.some.inj same

theorem Books.none_connecting (books : Books source) (found : source.starts.get? number = some own)
    (under : own.phase.isOver = false)
    (early : ∀ attempt legacy transport, own.phase ≠ .connecting attempt legacy transport)
    (listed : source.starts.get? other = some start) (attempt : Attempt) (legacy : Bool) (transport : Nat) :
    start.phase ≠ .connecting attempt legacy transport := by
  intro connecting
  by_cases same : other = number
  · subst same
    obtain rfl := Option.some.inj (found.symm.trans listed)
    exact early attempt legacy transport connecting
  · have over' := books.alone found under listed same
    rw [connecting] at over'
    cases over'

theorem Sound.live (sound : Sound source) (found : source.starts.get? number = some own)
    (lively : ¬ own.IsDoomed source) : isStopped source = false :=
  Bool.eq_false_iff.mpr fun stopped => lively ((sound.starts number own found).doomed stopped)

theorem cleanupOnStartFailure_closed (now : Nat) (source : Source) :
    Closed
      { source with stopping := true, downSince := source.downSince.or (some now), log := .failed :: source.log }
      (cleanupOnStartFailure now source) :=
  closeCurrent_closed now _

/-- A cleanup starts. -/
theorem Sound.cleanup (sound : Sound source) (now : Nat) (found : source.starts.get? number = some own)
    (under : own.phase.isOver = false) (cleaning : phase.isCleaning = true)
    (live : phase = .failing ∨ isStopped source = false) :
    Sound ((cleanupOnStartFailure now source).enter number own phase) := by
  have closed := cleanupOnStartFailure_closed now source
  obtain ⟨dead, log⟩ := closed.unarmed rfl
  have same := closed.same
  have failed : Sound (cleanupOnStartFailure now source) :=
    ((sound.flags true (source.downSince.or (some now)) source.startedAt source.lastReconnectFailedAt).logs .failed rfl).closed closed fun _ => ⟨dead, log⟩
  refine failed.enter (by rw [same]; exact found) under (by cases phase <;> first | rfl | cases cleaning) ?_
  refine ⟨fun stopped => ?_, fun transport flow waits => ?_, fun attempt legacy transport connecting => ?_, fun _ => ?_,
    fun settled => ?_⟩
  · rcases live with rfl | live
    · trivial
    · rw [same] at stopped
      exact absurd live (by simpa [isStopped] using stopped)
  · simp only at waits
    rw [waits] at cleaning
    cases cleaning
  · simp only at connecting
    rw [connecting] at cleaning
    cases cleaning
  · rw [log]
    exact not_pending_of_ends (by decide) rfl
  · simp only at settled
    rw [settled] at cleaning
    cases cleaning

theorem Sound.fail (sound : Sound source) (now : Nat) (found : source.starts.get? number = some own)
    (under : own.phase.isOver = false) : Sound (fail number now own source) :=
  sound.cleanup now found under rfl (.inl rfl)

/-- A transport is created for the start. -/
theorem Sound.opens (sound : Sound source) (found : source.starts.get? number = some own)
    (under : own.phase.isOver = false)
    (early : ∀ attempt legacy transport, own.phase ≠ .connecting attempt legacy transport)
    (live : isStopped source = false) (transport : Nat) (opened : Transport) :
    Sound { source with
      transports := source.transports.set transport opened
      transport := some transport } where
  books := { sound.books with }
  starts other start listed :=
    have fits := sound.starts other start listed
    { fits with
      doomed := fun stopped => absurd (live.symm.trans stopped) (by decide)
      connecting := fun attempt legacy old connecting _ =>
        absurd connecting (sound.books.none_connecting found under early listed attempt legacy old)
      settled := fun settled => ⟨{ (fits.settled settled).1 with transport := rfl }, (fits.settled settled).2⟩ }
  stops := sound.stops
  restarted restart start listed connected := { sound.restarted restart start listed connected with transport := rfl }
  marked restart listed := ⟨{ (sound.marked restart listed).1 with transport := rfl }, (sound.marked restart listed).2⟩
  told :=
    { sound.told with
      resolved := fun pending => by
        have alive := sound.told.resolved pending
        simp only [isAlive, Bool.and_eq_true] at alive ⊢
        exact ⟨⟨rfl, alive.1.2⟩, alive.2⟩ }

theorem Sound.setClient (sound : Sound source) (found : source.starts.get? number = some own)
    (under : own.phase.isOver = false)
    (early : ∀ attempt legacy transport, own.phase ≠ .connecting attempt legacy transport) (client : Client) :
    Sound { source with client := some client } where
  books := { sound.books with }
  starts other start listed :=
    have fits := sound.starts other start listed
    { fits with
      doomed := fits.doomed
      connecting := fun attempt legacy old connecting _ =>
        absurd connecting (sound.books.none_connecting found under early listed attempt legacy old)
      settled := fun settled => ⟨{ (fits.settled settled).1 with client := rfl }, (fits.settled settled).2⟩ }
  stops := sound.stops
  restarted restart start listed connected := { sound.restarted restart start listed connected with client := rfl }
  marked restart listed := ⟨{ (sound.marked restart listed).1 with client := rfl }, (sound.marked restart listed).2⟩
  told :=
    { sound.told with
      resolved := fun pending => by
        have alive := sound.told.resolved pending
        simp only [isAlive, Bool.and_eq_true] at alive ⊢
        exact ⟨⟨alive.1.1, rfl⟩, alive.2⟩ }

end NimbleBrain.McpSource.Connection
