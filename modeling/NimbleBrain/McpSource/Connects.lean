import NimbleBrain.McpSource.Standing

/- Each step of a start keeps the invariants of its source. -/

namespace NimbleBrain.McpSource.Connection

open Library Library.History

variable {source after : Source} {number now : Nat}

theorem mem_of_get? {Value : Type} {map : OrderedMap Nat Value} {key : Nat} {value : Value}
    (found : map.get? key = some value) : value ∈ map.values :=
  OrderedMap.mem_values.mpr ⟨key, OrderedMap.get?_eq_some_iff.mp found⟩

variable {own : Start}

theorem Start.Fits.of_over (over' : own.phase.isOver = true) : own.Fits source := by
  obtain ⟨explicit, phase⟩ := own
  cases phase with
  | «over» connected => exact ⟨fun _ => trivial, nofun, nofun, nofun, nofun⟩
  | _ => exact nomatch over'

theorem Start.Fits.initialising (live : isStopped source = false) (explicit : Bool) (attempt : Attempt) (legacy : Bool) :
    Start.Fits source ⟨explicit, .initialising attempt legacy⟩ :=
  ⟨fun stopped => absurd (live.symm.trans stopped) (by decide), nofun, nofun, nofun, nofun⟩

theorem Told.startCalled (told : Told source) (starts : OrderedMap Nat Start) (startInFlight : Option Nat) :
    Told
      { source with
        stopping := false, stopped := false, startInFlight, starts, log := .startCalled :: source.log } := by
  obtain ⟨stopped, stays, crashed, once, resolved⟩ := told
  refine ⟨?_, precludes_cons_of_ne (by decide) stays, ?_, precludes_cons_of_ne (by decide) once, ?_⟩
  · exact fun pending => absurd pending (not_pending_of_ends (by decide) rfl)
  · rintro (same | ⟨_, pending⟩)
    · cases same
    · exact crashed pending
  · rintro (same | ⟨_, pending⟩)
    · cases same
    · exact resolved pending

/-- A start begins when no other is under way. Only its own restart may be. -/
theorem Sound.begins (sound : Sound source) (explicit : Bool) {restarts : OrderedMap Nat RestartPhase}
    {log : List Event} (idle : ∀ other own, source.starts.get? other = some own → own.phase.isOver = true)
    (unstopped : ∀ other own, source.stops.get? other = some own → own.phase = .over)
    (repairs : ∀ restart phase, restarts.get? restart = some phase →
      phase.isOver = true ∨ phase = .starting number ∧ source.restartInFlight = some restart)
    (told : Told
      { source with stopping := false, stopped := false, startInFlight := some number,
                    starts := source.starts.set number ⟨explicit, .initialising .first false⟩, restarts, log }) :
    Sound
      { source with stopping := false, stopped := false, startInFlight := some number,
                    starts := source.starts.set number ⟨explicit, .initialising .first false⟩, restarts, log } := by
  have listed : ∀ other own,
      (source.starts.set number ⟨explicit, .initialising .first false⟩).get? other = some own →
      other = number ∧ own = ⟨explicit, .initialising .first false⟩ ∨ own.phase.isOver = true := by
    intro other own listed
    rw [OrderedMap.get?_set] at listed
    split at listed
    · next same => exact .inl ⟨same, (Option.some.inj listed).symm⟩
    · exact .inr (idle other own listed)
  constructor
  · constructor
    · intro other own found going
      rcases listed other own found with ⟨rfl, _⟩ | over'
      · rfl
      · exact nomatch over'.symm.trans going
    · rintro other ⟨⟩
      exact ⟨_, OrderedMap.get?_set_self .., rfl⟩
    · intro restart phase found going
      rcases repairs restart phase found with over' | ⟨_, repairing⟩
      · exact nomatch over'.symm.trans going
      · exact repairing
    · intro restart stop found
      rcases repairs restart _ found with over' | ⟨same, _⟩
      · cases over'
      · cases same
    · intro restart start found
      rcases repairs restart _ found with over' | ⟨same, _⟩
      · cases over'
      · cases same
        exact ⟨rfl, .inr rfl⟩
    · intro restart restarted found
      rcases repairs restart _ found with over' | ⟨same, _⟩
      · cases over'
      · cases same
    · exact fun other phase found going => absurd (unstopped other _ found) going
    · exact fun other phase found going => absurd (unstopped other _ found) going
  · intro other own found
    rcases listed other own found with ⟨_, rfl⟩ | over'
    · exact .initialising rfl explicit .first false
    · exact .of_over over'
  · exact fun other own found going => absurd (unstopped other own found) going
  · intro restart start found connected
    rcases repairs restart _ found with over' | ⟨same, _⟩
    · cases over'
    · cases same
      obtain ⟨explicit', ended⟩ := startOver?_eq_some.mp connected
      simp [OrderedMap.get?_set_self] at ended
  · intro restart found
    rcases repairs restart _ found with over' | ⟨same, _⟩
    · cases over'
    · cases same
  · exact told

theorem Sound.start (sound : Sound source) (idle : ∀ own ∈ source.starts.values, own.phase.isOver = true)
    (unstopped : ∀ own ∈ source.stops.values, own.phase = .over) (settled : source.restartInFlight = none)
    (stepped : start number source = some after) : Sound after := by
  unfold Connection.start at stepped
  split at stepped
  · next fresh =>
      obtain rfl := Option.some.inj stepped
      have repaired : ∀ restart phase, source.restarts.get? restart = some phase → phase.isOver = true :=
        fun restart phase listed => Bool.of_not_eq_false fun going =>
          nomatch (sound.books.repairing restart phase listed going).symm.trans settled
      exact sound.begins true (fun other own found => idle own (mem_of_get? found))
        (fun other own found => unstopped own (mem_of_get? found))
        (fun restart phase found => .inl (repaired restart phase found)) (sound.told.startCalled _ _)
  · exact nomatch stepped

theorem Sound.initTransport (sound : Sound source) {created : Option Nat}
    (stepped : initTransport number now created source = some after) : Sound after := by
  unfold Connection.initTransport at stepped
  split at stepped
  · next explicit attempt legacy found =>
      have live := sound.live found (fun doomed => doomed)
      split at stepped
      · next transport =>
          split at stepped
          · next fresh =>
              obtain rfl := Option.some.inj stepped
              refine (sound.opens found rfl (by simp) live transport _).enter found rfl rfl ?_
              exact ⟨fun stopped => absurd (live.symm.trans stopped) (by decide), nofun, nofun, nofun, nofun⟩
          · exact nomatch stepped
      · split at stepped
        · obtain rfl := Option.some.inj stepped
          refine (sound.logs .failed rfl).enter found rfl rfl ?_
          exact ⟨fun _ => rfl, nofun, nofun, nofun, nofun⟩
        · obtain rfl := Option.some.inj stepped
          exact sound.fail now found rfl
  · exact nomatch stepped

theorem Sound.rearm (sound : Sound source) (attempt : Attempt) (legacy : Bool) : Sound (rearm attempt legacy source) := by
  unfold Connection.rearm
  split
  · exact sound.flags false source.downSince source.startedAt source.lastReconnectFailedAt
  · exact sound

theorem Sound.prepareClient (sound : Sound source) (stepped : prepareClient number now source = some after) :
    Sound after := by
  unfold Connection.prepareClient at stepped
  split at stepped
  · next explicit attempt legacy found =>
      have fits := sound.starts number _ found
      split at stepped
      · obtain rfl := Option.some.inj stepped
        have rearmed := (sound.setClient found rfl nofun ⟨none⟩).rearm attempt legacy
        refine rearmed.fail now ?_ rfl
        unfold Connection.rearm
        split <;> exact found
      · next transport current =>
          obtain rfl := Option.some.inj stepped
          have rearmed := (sound.setClient found rfl nofun ⟨some transport⟩).rearm attempt legacy
          refine rearmed.enter ?_ rfl rfl ⟨fun stopped => ?_, nofun, fun _ _ _ same _ => ?_, nofun, nofun⟩
          · unfold Connection.rearm
            split <;> exact found
          · have doomed := fits.doomed (by unfold Connection.rearm at stopped; split at stopped <;> exact stopped)
            have closed := doomed transport current
            show Source.isOpen _ _ = false
            unfold Connection.rearm
            split <;> exact closed
          · cases same
            unfold Connection.rearm
            split <;> exact ⟨current, rfl⟩
  · exact nomatch stepped

/-- A connect is told of a source that was not stopped. -/
theorem Sound.connects (sound : Sound source) (live : isStopped source = false) (dead : Bool)
    (kept : dead = true → source.dead = true) :
    Sound { source with dead, log := .connected :: source.log } where
  books := { sound.books with }
  starts number own found :=
    have fits := sound.starts number own found
    { fits with
      doomed := fits.doomed
      cleaning := fun cleaning => not_pending_cons (by decide) (fits.cleaning cleaning)
      settled := fun settled =>
        ⟨{ (fits.settled settled).1 with unharmed := not_pending_of_ends (by decide) rfl },
          fun explicit => Bool.eq_false_iff.mpr fun crashed =>
            Bool.eq_false_iff.mp ((fits.settled settled).2 explicit) (kept crashed)⟩ }
  stops number own found phase := not_pending_cons (by decide) (sound.stops number own found phase)
  restarted number start found over' :=
    { sound.restarted number start found over' with unharmed := not_pending_of_ends (by decide) rfl }
  marked number found :=
    ⟨{ (sound.marked number found).1 with unharmed := not_pending_of_ends (by decide) rfl },
      Bool.eq_false_iff.mpr fun crashed => Bool.eq_false_iff.mp (sound.marked number found).2 (kept crashed)⟩
  told := by
    obtain ⟨stopped, stays, crashed, once, resolved⟩ := sound.told
    refine ⟨?_, ⟨fun _ pending => ?_, stays⟩, fun pending => ?_, precludes_cons_of_ne (by decide) once, ?_⟩
    · rintro (same | ⟨_, pending⟩)
      · cases same
      · exact stopped pending
    · exact absurd (live.symm.trans (stopped pending)) (by decide)
    · exact absurd pending (not_pending_of_ends (by decide) rfl)
    · rintro (same | ⟨_, pending⟩)
      · cases same
      · have alive := resolved pending
        simp only [isAlive, Bool.and_eq_true, Bool.not_eq_true'] at alive ⊢
        exact ⟨alive.1, Bool.eq_false_iff.mpr fun crashed => Bool.eq_false_iff.mp alive.2 (kept crashed)⟩

theorem watchRemote_closed (source : Source) :
    Closed source (watchRemote source) ∧ (watchRemote source).log = source.log := by
  unfold watchRemote
  split
  · exact ⟨⟨rfl, fun _ => id, .inl ⟨rfl, rfl⟩⟩, rfl⟩
  · exact watchCurrent_closed true source

theorem Sound.connected (sound : Sound source) (orderly : source.isRetried number = true → source.dead = false)
    (stepped : connected number now source = some after) : Sound after := by
  unfold Connection.connected at stepped
  split at stepped
  · next explicit attempt legacy transport found =>
      split at stepped
      · next isOpen =>
          have live := sound.live found fun doomed => absurd (isOpen.symm.trans doomed) (by decide)
          obtain ⟨current, client⟩ := (sound.starts number _ found).connecting attempt legacy transport rfl isOpen
          have doomed : ∀ reached : Source, isStopped reached = isStopped source →
              isStopped reached = true → Start.IsDoomed reached ⟨explicit, .settled true⟩ :=
            fun reached same stopped => absurd (live.symm.trans (same.symm.trans stopped)) (by decide)
          cases attempt with
          | retry =>
              obtain rfl := Option.some.inj stepped
              have reached := (sound.connects live source.dead id).flags source.stopping none (some now)
                source.lastReconnectFailedAt
              refine reached.enter found rfl rfl ⟨doomed _ rfl, nofun, nofun, nofun, fun _ => ⟨⟨?_, ?_, ?_⟩, ?_⟩⟩
              · exact congrArg Option.isSome current
              · exact congrArg Option.isSome client
              · exact not_pending_of_ends (by decide) rfl
              · exact fun isExplicit => orderly (by simpa [Source.isRetried, found] using isExplicit)
          | first =>
              simp only at stepped
              split at stepped
              case h_2 absent => exact nomatch absent.symm.trans client
              obtain rfl := Option.some.inj stepped
              have reached := (sound.connects live false nofun).flags source.stopping none (some now) none
              have closed := watchRemote_closed
                (onConnected now { source with dead := false, lastReconnectFailedAt := none })
              have same := closed.1.same
              have calm := closed.1.calm closed.2
              refine (reached.closed closed.1 fun _ => calm).enter (by rw [same]; exact found) rfl rfl
                ⟨doomed _ (by rw [same]; rfl), nofun, nofun, nofun, fun _ => ⟨⟨?_, ?_, ?_⟩, fun _ => calm.1⟩⟩
              · rw [same]
                exact congrArg Option.isSome current
              · rw [same]
                exact congrArg Option.isSome client
              · rw [calm.2]
                exact not_pending_of_ends (by decide) rfl
      · exact nomatch stepped
  · exact nomatch stepped

theorem Sound.connectFailed (sound : Sound source) {failure : ConnectFailure}
    (stepped : connectFailed number now failure source = some after) : Sound after := by
  unfold Connection.connectFailed at stepped
  split at stepped
  · next explicit attempt legacy transport found =>
      have live : source.isOpen transport = true → isStopped source = false := fun isOpen =>
        sound.live found fun doomed => absurd (isOpen.symm.trans doomed) (by decide)
      cases failure with
      | other =>
          obtain rfl := Option.some.inj stepped
          exact sound.fail now found rfl
      | probeFailed =>
          simp only at stepped
          split at stepped
          · next isOpen =>
              split at stepped
              · obtain rfl := Option.some.inj stepped
                exact sound.fail now found rfl
              · obtain rfl := Option.some.inj stepped
                obtain ⟨closed, log⟩ := watchCurrent_closed false source
                have same := closed.same
                refine (sound.closed closed fun _ => closed.calm log).cleanup now (by rw [same]; exact found) rfl rfl
                  (.inr ?_)
                rw [same]
                exact live isOpen
          · exact nomatch stepped
      | unauthorized flow =>
          simp only at stepped
          split at stepped
          · next isOpen =>
              split at stepped
              · next retry =>
                  obtain rfl := Option.some.inj stepped
                  refine (sound.logs .failed rfl).enter found rfl rfl
                    ⟨fun stopped => absurd ((live isOpen).symm.trans stopped) (by decide), fun _ _ _ => ?_, nofun, nofun,
                      nofun⟩
                  simp only [canRetryWithOAuth, Bool.and_eq_true, decide_eq_true_eq] at retry
                  exact retry.1.2
              · obtain rfl := Option.some.inj stepped
                exact sound.fail now found rfl
          · exact nomatch stepped
  · exact nomatch stepped

theorem Sound.flowSettled (sound : Sound source) {authorised : Bool}
    (stepped : flowSettled number authorised source = some after) : Sound after := by
  unfold Connection.flowSettled at stepped
  split at stepped
  · next explicit transport found =>
      obtain rfl := Option.some.inj stepped
      have live := sound.live found (by simp [Start.IsDoomed])
      refine sound.enter found rfl rfl
        ⟨fun stopped => absurd (live.symm.trans stopped) (by decide), fun _ _ _ => ?_, nofun, nofun, nofun⟩
      exact (sound.starts number _ found).flow transport .registered rfl
  · exact nomatch stepped

theorem Sound.awaitPendingFlow (sound : Sound source) (stepped : awaitPendingFlow number now source = some after) :
    Sound after := by
  unfold Connection.awaitPendingFlow at stepped
  split at stepped
  · next explicit transport found =>
      obtain rfl := Option.some.inj stepped
      have live := sound.live found (by simp [Start.IsDoomed])
      exact sound.enter found rfl rfl
        ⟨fun stopped => absurd (live.symm.trans stopped) (by decide), nofun, nofun, nofun, nofun⟩
  · next explicit transport found =>
      obtain rfl := Option.some.inj stepped
      exact sound.fail now found rfl
  · next explicit transport found =>
      obtain rfl := Option.some.inj stepped
      exact sound.fail now found rfl
  · exact nomatch stepped

theorem Sound.exchangeAuthorizationCode (sound : Sound source) {exchanged : Bool}
    (stepped : exchangeAuthorizationCode number now exchanged source = some after) : Sound after := by
  unfold Connection.exchangeAuthorizationCode at stepped
  split at stepped
  · next explicit transport found =>
      split at stepped
      · obtain rfl := Option.some.inj stepped
        obtain ⟨closed, log⟩ := watch_closed transport false source
        have same := closed.same
        have live := sound.live found fun doomed => doomed
        refine (sound.closed closed fun _ => closed.calm log).cleanup now (by rw [same]; exact found) rfl rfl (.inr ?_)
        rw [same]
        exact live
      · obtain rfl := Option.some.inj stepped
        exact sound.fail now found rfl
  · exact nomatch stepped

/-- A cleanup forgets the connection. -/
theorem Sound.unplug (sound : Sound source) (found : source.starts.get? number = some own)
    (cleaning : own.phase.isCleaning = true) : Sound { source with client := none, transport := none } := by
  have under : own.phase.isOver = false := by
    obtain ⟨explicit, phase⟩ := own
    cases phase <;> first | rfl | exact nomatch cleaning
  have flying := sound.books.under_way number own found under
  have alone : ∀ other start, source.starts.get? other = some start → other = number ∧ start = own ∨
      start.phase.isOver = true := by
    intro other start listed
    by_cases same : other = number
    · subst same
      exact .inl ⟨rfl, (Option.some.inj (found.symm.trans listed)).symm⟩
    · exact .inr (sound.books.alone found under listed same)
  constructor
  · exact { sound.books with }
  · intro other start listed
    rcases alone other start listed with ⟨rfl, rfl⟩ | over'
    · have fits := sound.starts other start found
      refine ⟨fun stopped => ?_, fits.flow, ?_, fits.cleaning, ?_⟩
      · have doomed := fits.doomed stopped
        obtain ⟨explicit, phase⟩ := start
        cases phase with
        | fallingBack _ => exact doomed
        | rebuilding => exact doomed
        | failing => trivial
        | _ => cases cleaning
      · intro attempt legacy transport connecting
        rw [connecting] at cleaning
        cases cleaning
      · intro settled
        rw [settled] at cleaning
        cases cleaning
    · exact .of_over over'
  · exact sound.stops
  · intro restart start listed connected
    obtain ⟨explicit, connected⟩ := startOver?_eq_some.mp connected
    rcases (sound.books.starting restart start listed).2 with idle | flying'
    · exact nomatch flying.symm.trans idle
    · obtain rfl := Option.some.inj (flying.symm.trans flying')
      obtain rfl := Option.some.inj (found.symm.trans connected)
      cases cleaning
  · intro restart listed
    exact nomatch flying.symm.trans (sound.books.marked restart true listed).2
  · exact { sound.told with
      resolved := fun pending => absurd pending ((sound.starts number own found).cleaning cleaning) }

theorem Sound.cleanedUp (sound : Sound source) (stepped : cleanedUp number source = some after) : Sound after := by
  unfold Connection.cleanedUp at stepped
  split at stepped
  · next explicit attempt found =>
      obtain rfl := Option.some.inj stepped
      have live := sound.live found fun doomed => doomed
      exact ((sound.unplug found rfl).flags false source.downSince source.startedAt source.lastReconnectFailedAt).enter
        found rfl rfl (.initialising (by exact live) explicit attempt true)
  · next explicit found =>
      obtain rfl := Option.some.inj stepped
      have live := sound.live found fun doomed => doomed
      exact (sound.unplug found rfl).enter found rfl rfl (.initialising (by exact live) explicit .retry false)
  · next explicit found =>
      obtain rfl := Option.some.inj stepped
      exact (sound.unplug found rfl).enter found rfl rfl ⟨fun _ => rfl, nofun, nofun, nofun, nofun⟩
  · exact nomatch stepped

/-- A promise is kept while the connection stands and nothing closes it. -/
theorem Sound.resolves (sound : Sound source) (alive : isAlive source = true)
    (unstopped : ∀ number own, source.stops.get? number = some own → own.phase = .over)
    (settled : ∀ number own, source.starts.get? number = some own → own.phase.isCleaning = false) :
    Sound { source with log := .resolved :: source.log } where
  books := { sound.books with }
  starts number own found :=
    have fits := sound.starts number own found
    { fits with
      doomed := fits.doomed
      cleaning := fun cleaning => nomatch cleaning.symm.trans (settled number own found)
      settled := fun settled => ⟨(fits.settled settled).1.log (by decide), (fits.settled settled).2⟩ }
  stops number own found going := absurd (unstopped number own found) going
  restarted number start found over' := (sound.restarted number start found over').log (by decide)
  marked number found := ⟨(sound.marked number found).1.log (by decide), (sound.marked number found).2⟩
  told := by
    obtain ⟨stopped, stays, crashed, once, _⟩ := sound.told
    refine ⟨?_, precludes_cons_of_ne (by decide) stays, ?_, precludes_cons_of_ne (by decide) once, fun _ => alive⟩
    · rintro (same | ⟨_, pending⟩)
      · cases same
      · exact stopped pending
    · rintro (same | ⟨_, pending⟩)
      · cases same
      · exact crashed pending

/-- A start leaves. -/
theorem Sound.leaves (sound : Sound source) {explicit connected : Bool}
    (found : source.starts.get? number = some ⟨explicit, .settled connected⟩) :
    Sound ({ source with
      startInFlight := if source.startInFlight = some number then none else source.startInFlight }.enter number
        ⟨explicit, .settled connected⟩ (.over connected)) := by
  have flying := sound.books.under_way number _ found rfl
  have listed : ∀ other own, (source.starts.set number ⟨explicit, .over connected⟩).get? other = some own →
      own.phase.isOver = true := by
    intro other own listed
    rw [OrderedMap.get?_set] at listed
    split at listed
    · exact Option.some.inj listed ▸ rfl
    · next other' => exact sound.books.alone found rfl listed other'
  obtain ⟨under_way, in_flight, repairing, tearing, starting, marked, deliberate, torn⟩ := sound.books
  rw [if_pos flying]
  constructor
  · exact ⟨fun other own found going => (by cases (listed other own found).symm.trans going), by rintro _ ⟨⟩, repairing,
      fun _ _ _ => rfl, fun restart start found => ⟨(starting restart start found).1, .inl rfl⟩,
      fun restart restarted found => ⟨(marked restart restarted found).1, rfl⟩, deliberate, torn⟩
  · exact fun other own found => .of_over (listed other own found)
  · exact sound.stops
  · intro restart start found' over'
    obtain ⟨explicit', ended⟩ := startOver?_eq_some.mp over'
    simp only [Source.enter, OrderedMap.get?_set] at ended
    split at ended
    · have connects : connected = true := by simpa using congrArg Start.phase (Option.some.inj ended)
      obtain ⟨stands, _⟩ := (sound.starts number _ found).settled (by rw [connects])
      exact { stands with }
    · exact { sound.restarted restart start found' (startOver?_eq_some.mpr ⟨explicit', ended⟩) with }
  · exact fun restart found => by cases flying.symm.trans (marked restart true found).2
  · exact { sound.told with }

theorem Sound.startReturns (sound : Sound source) (stepped : startReturns number source = some after) : Sound after := by
  unfold Connection.startReturns at stepped
  split at stepped
  · next explicit connected found =>
      obtain rfl := Option.some.inj stepped
      have flying := sound.books.under_way number _ found rfl
      have fits := sound.starts number _ found
      by_cases promised : (explicit && connected) = true
      · obtain ⟨rfl, rfl⟩ : explicit = true ∧ connected = true := by simpa using promised
        obtain ⟨⟨transport, client, _⟩, dead⟩ := fits.settled rfl
        have alive : isAlive source = true := by simp [isAlive, transport, client, dead rfl]
        have unstopped : ∀ other own, source.stops.get? other = some own → own.phase = .over := by
          rintro other ⟨deliberate, phase⟩ listed
          by_contra going
          cases deliberate with
          | true => cases fits.doomed (sound.books.deliberate other phase listed going)
          | false =>
              obtain ⟨restart, tearing⟩ := sound.books.torn other phase listed going
              cases flying.symm.trans (sound.books.tearing restart other tearing)
        have settled : ∀ other own, source.starts.get? other = some own → own.phase.isCleaning = false := by
          intro other own listed
          by_cases same : other = number
          · subst same
            obtain rfl := Option.some.inj (found.symm.trans listed)
            rfl
          · have over' := sound.books.alone found rfl listed same
            obtain ⟨explicit, phase⟩ := own
            cases phase <;> first | rfl | cases over'
        exact (sound.resolves alive unstopped settled).leaves found
      · rw [if_neg promised]
        exact sound.leaves found
  · cases stepped

end NimbleBrain.McpSource.Connection
