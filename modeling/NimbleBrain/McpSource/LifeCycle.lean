import NimbleBrain.McpSource.Reconnects

/- A source builds one connection at a time, and a stop stays in force. -/

namespace NimbleBrain.McpSource.Connection

open Library Library.History

def StartPhase.isOver : StartPhase → Bool
  | .over _ => true
  | _ => false

def RestartPhase.isOver : RestartPhase → Bool
  | .over _ => true
  | _ => false

/-- A stop, a close or a failure ends what a start or a restart promised. -/
def endsConnection : Event → Bool
  | .stopCalled | .stopped | .closed | .failed | .crashed => true
  | _ => false

def isStartCalled (event : Event) : Bool := event = .startCalled

def isConnected (event : Event) : Bool := event = .connected

structure Proper (source : Source) : Prop where
  restarts_apart : ∀ first second firstPhase secondPhase, source.restarts.get? first = some firstPhase →
    source.restarts.get? second = some secondPhase → firstPhase.isOver = false → secondPhase.isOver = false →
    first = second
  connect_kept : ∀ restart stop start own, source.restarts.get? restart = some (.tearingDown stop) →
    source.starts.get? start = some own → own.phase.isOver = true
  resolved_alive : Pending .resolved endsConnection source.log → isAlive source = true
  stays_stopped : Precludes .stopped isStartCalled .connected source.log
  crashes_once : Precludes .crashed isConnected .crashed source.log

/-- A start or a restart connected and has not returned yet. -/
def Source.isReturning (source : Source) : Bool :=
  (source.starts.values.any fun own => own.phase = .settled true) ||
    source.restarts.values.any fun phase =>
      match phase with
      | .starting start => source.startOver? start = some true
      | .marked restarted => restarted
      | _ => false

/-- A crash would be noticed now. -/
def Source.isArmed (source : Source) : Bool := !source.stopping && !source.dead

/-- A stop reaches the connection that the start builds. -/
def Start.isInterruptible (source : Source) (start : Start) : Bool :=
  match start.phase with
  | .prepared _ _ => source.client.isNone
  | .connecting _ _ _ => true
  | .awaitingFlow _ flow => flow ≠ .settled true
  | .failing => true
  | .settled connected => !connected
  | .over _ => true
  | _ => false

/-- A source that was stopped is only joined in its start. -/
def Source.MayRestart (source : Source) : Prop := isStopped source = false ∨ source.startInFlight.isSome = true

instance (source : Source) : Decidable source.MayRestart := inferInstanceAs (Decidable (_ ∨ _))

def Source.MayCrash (source : Source) : Prop := source.isReturning = true → source.isArmed = false

instance (source : Source) : Decidable source.MayCrash := inferInstanceAs (Decidable (_ → _))

/-- One turn of a recovery. -/
structure Turn where
  attempt : Nat
  delays : List Nat
  outcome : Recovery

def Turn.crashes (turn : Turn) : Bool :=
  match turn.outcome with
  | .surface down => down
  | .recover => turn.delays[turn.attempt]?.isNone

def Turn.restarts (turn : Turn) : Bool := turn.outcome = .recover && turn.delays[turn.attempt]? = some 0

def Source.MayTurn (source : Source) (turn : Turn) : Prop :=
  (turn.crashes = true → source.MayCrash) ∧ (turn.restarts = true → source.MayRestart)

instance (source : Source) (turn : Turn) : Decidable (source.MayTurn turn) := inferInstanceAs (Decidable (_ ∧ _))

/-- The turn that a recovery takes when its restart answers. -/
def State.turnAnswered? (state : State) (caller : Nat) : Option Turn :=
  match state.callers.get? caller with
  | some (.reestablishing attempt delays awaited) =>
      if answer? state.source awaited = some false then some ⟨attempt + 1, delays, .recover⟩ else none
  | _ => none

def State.turnRetried? (state : State) (caller : Nat) (failure : Option Recovery) : Option Turn :=
  match state.callers.get? caller with
  | some (.retrying attempt delays) => failure.map fun outcome => ⟨attempt + 1, delays, outcome⟩
  | _ => none

def Source.isRetried (source : Source) (number : Nat) : Bool :=
  match source.starts.get? number with
  | some ⟨explicit, .connecting .retry _ _⟩ => explicit
  | _ => false

/-- Nothing is under way when a start is called. A stop finds what it has to close, and nothing restarts a source
that was stopped. The retry of an explicit start connects a source that is not marked dead. -/
def Orderly (state : State) : Action → Prop
  | .start _ =>
      (∀ own ∈ state.source.starts.values, own.phase.isOver = true) ∧
        (∀ own ∈ state.source.stops.values, own.phase = .over) ∧ state.source.restartInFlight = none
  | .stop _ _ =>
      (∀ own ∈ state.source.starts.values, own.isInterruptible state.source = true) ∧
        state.source.restartInFlight = none
  | .connected number _ => state.source.isRetried number = true → state.source.dead = false
  | .transportClosed number _ =>
      (state.source.transports.get? number).any Transport.watched = true → state.source.MayCrash
  | .attemptRestart _ _ _ => state.source.MayRestart
  | .recoverWakes _ _ _ => state.source.MayRestart
  | .sessionLost _ _ => state.source.MayRestart
  | .recover _ _ delays outcome _ => state.source.MayTurn ⟨0, delays, outcome⟩
  | .recoverAnswered caller _ _ => ∀ turn ∈ state.turnAnswered? caller, state.source.MayTurn turn
  | .retryEnds caller _ failure _ => ∀ turn ∈ state.turnRetried? caller failure, state.source.MayTurn turn
  | _ => True

instance (state : State) : (action : Action) → Decidable (Orderly state action)
  | .start _ => inferInstanceAs (Decidable (_ ∧ _))
  | .stop _ _ => inferInstanceAs (Decidable (_ ∧ _))
  | .connected _ _ => inferInstanceAs (Decidable (_ → _))
  | .transportClosed _ _ => inferInstanceAs (Decidable (_ → _))
  | .attemptRestart _ _ _ => inferInstanceAs (Decidable (Source.MayRestart _))
  | .recoverWakes _ _ _ => inferInstanceAs (Decidable (Source.MayRestart _))
  | .sessionLost _ _ => inferInstanceAs (Decidable (Source.MayRestart _))
  | .recover _ _ _ _ _ => inferInstanceAs (Decidable (Source.MayTurn _ _))
  | .recoverAnswered _ _ _ => inferInstanceAs (Decidable (∀ turn ∈ State.turnAnswered? _ _, _))
  | .retryEnds _ _ _ _ => inferInstanceAs (Decidable (∀ turn ∈ State.turnRetried? _ _ _, _))
  | .initTransport _ _ _ | .prepareClient _ _ | .connectFailed _ _ _ | .flowSettled _ _ | .awaitPendingFlow _ _
  | .exchangeAuthorizationCode _ _ _ | .cleanedUp _ | .startReturns _ | .stopGoesOn _ _ _ | .restartStarts _ _
  | .restartSettles _ | .restartReturns _ | .check _ _ _ | .monitorReturns _ | .reconnectOnDemand _ _ _
  | .reconnectReturns _ | .awaitRestartingSource _ _ | .awaitTurn _ _ _ _ | .attemptEnds _ _ | .waitEnds _ _ _ =>
      .isTrue trivial

end NimbleBrain.McpSource.Connection
