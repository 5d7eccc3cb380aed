import NimbleBrain.McpSource.Teardown

/- Over whole runs a source keeps its connection, and a stopped source stays stopped. -/

namespace NimbleBrain.McpSource.Connection

open Library Library.History

variable {state after : State} {caller now : Nat} {fresh : Fresh}

/-- Whoever asks for a restart, the source keeps its invariants. -/
theorem Sound.asked (sound : Sound state.source) (phase : Awaited → Caller) (may : state.source.MayRestart) :
    Sound (state.restart caller fresh now phase).source :=
  sound.tryRestart fresh may

theorem Sound.setReconnectFailed (sound : Sound state.source) (failedAt : Option Nat) :
    Sound (state.setReconnectFailed failedAt).source :=
  sound.flags state.source.stopping state.source.downSince state.source.startedAt failedAt

variable {delays : List Nat} {outcome : Recovery} {options : HealthMonitorOptions} {wait : RestartingSourceWait}
  {aborted : Bool}

theorem Sound.recoverTurn (sound : Sound state.source) {attempt : Nat}
    (may : state.source.MayTurn ⟨attempt, delays, outcome⟩) :
    Sound (recoverTurn caller now attempt delays outcome fresh state).source := by
  obtain ⟨mayCrash, mayRestart⟩ := may
  unfold Connection.recoverTurn
  split
  · exact sound.emitSourceCrashed (mayCrash rfl)
  · exact sound
  · next none' => exact sound.emitSourceCrashed (mayCrash (by simp [Turn.crashes, none']))
  · next zero => exact sound.asked _ (mayRestart (by simp [Turn.restarts, zero]))
  · exact sound

theorem Sound.check {awaitingReconnect : Bool} (sound : Sound state.source)
    (stepped : check options caller now awaitingReconnect state = some after) : Sound after.source := by
  unfold Connection.check at stepped
  split at stepped
  · split at stepped
    · exact Option.some.inj stepped ▸ sound
    · exact Option.some.inj stepped ▸ sound
  · exact nomatch stepped

theorem Sound.attemptRestart (sound : Sound state.source) (may : state.source.MayRestart)
    (stepped : attemptRestart caller now fresh state = some after) : Sound after.source := by
  unfold Connection.attemptRestart at stepped
  split at stepped
  · split at stepped
    · exact Option.some.inj stepped ▸ sound.asked _ may
    · exact nomatch stepped
  · exact nomatch stepped

theorem Sound.monitorReturns (sound : Sound state.source) (stepped : monitorReturns caller state = some after) :
    Sound after.source := by
  unfold Connection.monitorReturns at stepped
  split at stepped
  · obtain ⟨restarted, _, rfl⟩ := Option.map_eq_some_iff.mp stepped
    exact sound
  · exact nomatch stepped

theorem Sound.reconnectOnDemand (sound : Sound state.source)
    (stepped : reconnectOnDemand caller now fresh state = some after) : Sound after.source := by
  unfold Connection.reconnectOnDemand at stepped
  split at stepped
  · split at stepped
    · exact Option.some.inj stepped ▸ sound
    · split at stepped
      · exact Option.some.inj stepped ▸ sound
      · next willing =>
          simp only [Bool.or_eq_true, not_or] at willing
          exact Option.some.inj stepped ▸ sound.asked _ (.inl (Bool.eq_false_iff.mpr willing.1))
  · exact nomatch stepped

theorem Sound.reconnectReturns (sound : Sound state.source) (stepped : reconnectReturns caller state = some after) :
    Sound after.source := by
  unfold Connection.reconnectReturns at stepped
  split at stepped
  · obtain ⟨answer, _, rfl⟩ := Option.map_eq_some_iff.mp stepped
    split
    · exact sound.setReconnectFailed none
    · exact sound.setReconnectFailed _
  · exact nomatch stepped

theorem Sound.awaitRestartingSource (sound : Sound state.source)
    (stepped : awaitRestartingSource wait caller now state = some after) : Sound after.source := by
  unfold Connection.awaitRestartingSource at stepped
  split at stepped
  · split at stepped
    · exact Option.some.inj stepped ▸ sound
    · split at stepped
      · exact Option.some.inj stepped ▸ sound
      · exact Option.some.inj stepped ▸ sound
  · exact nomatch stepped

theorem Sound.awaitTurn (sound : Sound state.source)
    (stepped : awaitTurn wait caller now aborted fresh state = some after) : Sound after.source := by
  unfold Connection.awaitTurn at stepped
  split at stepped
  · split_ifs at stepped with connected late early stopped unused
    · exact Option.some.inj stepped ▸ sound
    · exact Option.some.inj stepped ▸ sound
    · exact Option.some.inj stepped ▸ sound
    · exact Option.some.inj stepped ▸ sound
    · exact Option.some.inj stepped ▸ sound.asked _ (.inl (Bool.eq_false_iff.mpr stopped))
  · exact nomatch stepped

theorem Sound.noteFailure (sound : Sound state.source) (now : Nat) : Sound (state.noteFailure now).source := by
  unfold State.noteFailure
  split
  · exact sound
  · exact sound.setReconnectFailed _

theorem Sound.attemptEnds (sound : Sound state.source) (stepped : attemptEnds caller now state = some after) :
    Sound after.source := by
  unfold Connection.attemptEnds at stepped
  split at stepped
  · obtain ⟨answer, _, rfl⟩ := Option.map_eq_some_iff.mp stepped
    exact sound.noteFailure now
  · obtain ⟨answer, _, rfl⟩ := Option.map_eq_some_iff.mp stepped
    exact sound.noteFailure now
  · exact nomatch stepped

theorem Sound.waitEnds (sound : Sound state.source) (stepped : waitEnds caller now aborted state = some after) :
    Sound after.source := by
  unfold Connection.waitEnds at stepped
  split at stepped
  · split at stepped
    · exact Option.some.inj stepped ▸ sound
    · exact nomatch stepped
  · exact nomatch stepped

theorem Sound.recover (sound : Sound state.source) (may : state.source.MayTurn ⟨0, delays, outcome⟩)
    (stepped : recover caller now delays outcome fresh state = some after) : Sound after.source := by
  unfold Connection.recover at stepped
  split at stepped
  · exact Option.some.inj stepped ▸ sound.recoverTurn may
  · exact nomatch stepped

theorem Sound.recoverWakes (sound : Sound state.source) (may : state.source.MayRestart)
    (stepped : recoverWakes caller now fresh state = some after) : Sound after.source := by
  unfold Connection.recoverWakes at stepped
  split at stepped
  · split at stepped
    · exact Option.some.inj stepped ▸ sound.asked _ may
    · exact nomatch stepped
  · exact nomatch stepped

theorem Sound.recoverAnswered (sound : Sound state.source)
    (may : ∀ turn ∈ state.turnAnswered? caller, state.source.MayTurn turn)
    (stepped : recoverAnswered caller now fresh state = some after) : Sound after.source := by
  unfold Connection.recoverAnswered at stepped
  split at stepped
  · next attempt delays awaited found =>
      split at stepped
      · obtain ⟨restarted, answered, rfl⟩ := Option.map_eq_some_iff.mp stepped
        cases restarted with
        | true => exact sound
        | false =>
            refine sound.recoverTurn (may _ ?_)
            simp [State.turnAnswered?, found, answered]
      · exact nomatch stepped
  · exact nomatch stepped

theorem Sound.retryEnds {failure : Option Recovery} (sound : Sound state.source)
    (may : ∀ turn ∈ state.turnRetried? caller failure, state.source.MayTurn turn)
    (stepped : retryEnds caller now failure fresh state = some after) : Sound after.source := by
  unfold Connection.retryEnds at stepped
  split at stepped
  · next attempt delays found =>
      cases failure with
      | none => exact Option.some.inj stepped ▸ sound
      | some outcome =>
          simp only at stepped
          split at stepped
          · refine Option.some.inj stepped ▸ sound.recoverTurn (may _ ?_)
            simp [State.turnRetried?, found]
          · exact nomatch stepped
  · exact nomatch stepped

theorem Sound.sessionLost (sound : Sound state.source) (may : state.source.MayRestart)
    (stepped : sessionLost now fresh state = some after) : Sound after.source := by
  unfold Connection.sessionLost at stepped
  split at stepped
  · exact Option.some.inj stepped ▸ sound.tryRestart fresh may
  · exact nomatch stepped

theorem Sound.put {stepped : Option Source} (kept : ∀ source, stepped = some source → Sound source)
    (put : stepped.map state.put = some after) : Sound after.source := by
  obtain ⟨source, stepped, rfl⟩ := Option.map_eq_some_iff.mp put
  exact kept source stepped

theorem Sound.step {action : Action} (sound : Sound state.source) (orderly : Orderly state action)
    (stepped : step options wait state action = some after) : Sound after.source := by
  cases action with
  | start number => exact .put (fun _ => sound.start orderly.1 orderly.2.1 orderly.2.2) stepped
  | initTransport number now created => exact .put (fun _ => sound.initTransport) stepped
  | prepareClient number now => exact .put (fun _ => sound.prepareClient) stepped
  | connected number now => exact .put (fun _ => sound.connected orderly) stepped
  | connectFailed number now failure => exact .put (fun _ => sound.connectFailed) stepped
  | flowSettled number authorised => exact .put (fun _ => sound.flowSettled) stepped
  | awaitPendingFlow number now => exact .put (fun _ => sound.awaitPendingFlow) stepped
  | exchangeAuthorizationCode number now exchanged => exact .put (fun _ => sound.exchangeAuthorizationCode) stepped
  | cleanedUp number => exact .put (fun _ => sound.cleanedUp) stepped
  | startReturns number => exact .put (fun _ => sound.startReturns) stepped
  | stop number now => exact .put (fun _ => sound.stop orderly.1 orderly.2) stepped
  | stopGoesOn number now closed => exact .put (fun _ => sound.stopGoesOn) stepped
  | restartStarts restart start => exact .put (fun _ => sound.restartStarts) stepped
  | restartSettles restart => exact .put (fun _ => sound.restartSettles) stepped
  | restartReturns restart => exact .put (fun _ => sound.restartReturns) stepped
  | transportClosed number now => exact .put (fun _ => sound.transportClosed orderly) stepped
  | check caller now awaitingReconnect => exact sound.check stepped
  | attemptRestart caller now fresh => exact sound.attemptRestart orderly stepped
  | monitorReturns caller => exact sound.monitorReturns stepped
  | reconnectOnDemand caller now fresh => exact sound.reconnectOnDemand stepped
  | reconnectReturns caller => exact sound.reconnectReturns stepped
  | awaitRestartingSource caller now => exact sound.awaitRestartingSource stepped
  | awaitTurn caller now aborted fresh => exact sound.awaitTurn stepped
  | attemptEnds caller now => exact sound.attemptEnds stepped
  | waitEnds caller now aborted => exact sound.waitEnds stepped
  | recover caller now delays outcome fresh => exact sound.recover orderly stepped
  | recoverWakes caller now fresh => exact sound.recoverWakes orderly stepped
  | recoverAnswered caller now fresh => exact sound.recoverAnswered orderly stepped
  | retryEnds caller now failure fresh => exact sound.retryEnds orderly stepped
  | sessionLost now fresh => exact sound.sessionLost orderly stepped

theorem Sound.initial (mode : Mode) : Sound { mode } where
  books := ⟨nofun, nofun, nofun, nofun, nofun, nofun, nofun, nofun⟩
  starts := nofun
  stops := nofun
  restarted := nofun
  marked := nofun
  told := ⟨nofun, trivial, nofun, trivial, nofun⟩

theorem Sound.proper {source : Source} (sound : Sound source) : Proper source where
  restarts_apart first second firstPhase secondPhase one other oneGoing otherGoing :=
    Option.some.inj ((sound.books.repairing first firstPhase one oneGoing).symm.trans
      (sound.books.repairing second secondPhase other otherGoing))
  connect_kept restart stop _ _ tearing started :=
    sound.books.over_of_idle (sound.books.tearing restart stop tearing) started
  resolved_alive := sound.told.resolved
  stays_stopped := sound.told.stays_stopped
  crashes_once := sound.told.crashes_once

/-- In an orderly run a source connects when it says so, and a stop stays in force. -/
theorem connection_kept (reached : (LifeCycle options wait).ReachedBy Orderly state) : Proper state.source :=
  Sound.proper <| reached.invariant (fun state => Sound state.source)
    (fun _ first => by obtain ⟨mode, rfl⟩ := first; exact .initial mode)
    (fun _ _ _ sound orderly stepped => sound.step orderly stepped)

theorem source_initial (mode : Mode) : (LifeCycle options wait).initial { source := { mode } } := ⟨mode, rfl⟩

/-- A connect, a crash, a restart by the monitor and a deliberate stop. -/
def repairedRun : List Action :=
  [.start 0, .initTransport 0 0 (some 0), .prepareClient 0 0, .connected 0 0, .startReturns 0, .transportClosed 0 10,
    .check 0 20 false, .attemptRestart 0 1020 ⟨0, 0⟩, .stopGoesOn 0 1030 true, .stopGoesOn 0 1030 true,
    .restartStarts 0 1, .initTransport 1 1040 (some 1), .prepareClient 1 1040, .connected 1 1050, .startReturns 1,
    .restartSettles 0, .restartReturns 0, .monitorReturns 0, .stop 1 2000, .stopGoesOn 1 2000 true,
    .stopGoesOn 1 2000 true, .reconnectOnDemand 1 2010 ⟨1, 2⟩]

theorem connection_kept_repaired :
    ∃ state ∈ (LifeCycle {} {}).run { source := { mode := .remote false } } repairedRun,
      state.source.log =
        [.stopped, .stopCalled, .resolved, .restarted, .connected, .stopCalled, .crashed, .closed, .resolved, .connected,
          .startCalled] ∧ Proper state.source := by
  have ran : ((LifeCycle {} {}).run { source := { mode := .remote false } } repairedRun).any (fun state =>
      state.source.log =
        [.stopped, .stopCalled, .resolved, .restarted, .connected, .stopCalled, .crashed, .closed, .resolved, .connected,
          .startCalled]) = true := by decide +kernel
  have meets : (LifeCycle {} {}).Meets Orderly { source := { mode := .remote false } } repairedRun := by decide +kernel
  obtain ⟨state, ran, told⟩ := Option.any_eq_true .. |>.mp ran
  exact ⟨state, ran, of_decide_eq_true told,
    connection_kept (System.ReachedBy.run (.start _ (source_initial (.remote false))) meets ran)⟩

/-- The monitor sleeps before its restart while the source is stopped. -/
def revivedRun : List Action :=
  [.start 0, .initTransport 0 0 (some 0), .prepareClient 0 0, .connected 0 0, .startReturns 0, .transportClosed 0 10,
    .check 0 20 false, .stop 0 30, .stopGoesOn 0 30 true, .stopGoesOn 0 30 true, .attemptRestart 0 1020 ⟨0, 1⟩,
    .restartStarts 0 1, .initTransport 1 1040 (some 1), .prepareClient 1 1040, .connected 1 1050]

/-- The restart connects the source again. -/
theorem stopped_source_revived :
    ¬ ∀ state, (LifeCycle {} {}).Reachable state → Proper state.source := by
  intro all
  have ran : ((LifeCycle {} {}).run { source := { mode := .remote false } } revivedRun).any (fun state =>
      state.source.log =
        [.connected, .stopCalled, .stopped, .stopCalled, .crashed, .closed, .resolved, .connected, .startCalled]) =
      true := by decide +kernel
  obtain ⟨state, ran, told⟩ := Option.any_eq_true .. |>.mp ran
  have stays := (all state (System.Reachable.run (.start _ (source_initial (.remote false))) ran)).stays_stopped
  rw [of_decide_eq_true told] at stays
  exact stays.1 rfl (by decide)

end NimbleBrain.McpSource.Connection
