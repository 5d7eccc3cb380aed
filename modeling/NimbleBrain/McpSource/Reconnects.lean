import NimbleBrain.Library.Transition
import NimbleBrain.McpSource.Connection

/- The health monitor, calls that need a connection and the recovery of a failed call ask for a restart. -/

namespace NimbleBrain.McpSource.Connection

open Library

inductive ProcessLiveness
  | healthy
  | restarting
  | cooldown
  | awaitingReconnect
  | dead
  deriving DecidableEq

structure ConnectorRecord where
  state : ProcessLiveness := .restarting
  restartCount : Nat := 0
  cooldownUntil : Option Nat := none
  deriving DecidableEq

def MAX_RESTARTS : Nat := 5

/-- The monitor's options, with their defaults. -/
structure HealthMonitorOptions where
  checkIntervalMs : Nat := 30000
  baseDelayMs : Nat := 1000
  cooldownMs : Nat := 300000

/-- The backoff starts again after a whole interval of uptime. -/
def resetBackoffIfRecovered (options : HealthMonitorOptions) (now : Nat) (startedAt : Option Nat)
    (record : ConnectorRecord) : ConnectorRecord :=
  if startedAt.any fun started => options.checkIntervalMs ≤ now - started then { record with restartCount := 0 }
  else record

/-- One check of a source, with the time at which it restarts the source, if it does. -/
def checkOne (options : HealthMonitorOptions) (now : Nat) (awaitingReconnect : Bool) (source : Source)
    (record : ConnectorRecord) : ConnectorRecord × Option Nat :=
  if record.state = .dead then (record, none)
  else if awaitingReconnect then ({ record with state := .awaitingReconnect }, none)
  else if isAlive source then
    (resetBackoffIfRecovered options now source.startedAt { record with state := .healthy, cooldownUntil := none },
      none)
  else if isStopped source then ({ record with state := .dead }, none)
  else if record.cooldownUntil.any fun until' => now < until' then (record, none)
  else if MAX_RESTARTS ≤ record.restartCount then
    ({ state := .cooldown, cooldownUntil := some (now + options.cooldownMs), restartCount := 0 }, none)
  else
    ({ state := .restarting, restartCount := record.restartCount + 1, cooldownUntil := none },
      some (now + options.baseDelayMs * 2 ^ record.restartCount))

structure RestartingSourceWait where
  waitMs : Nat := 20000
  horizonMs : Nat := 60000
  retryMs : Nat := 3000

def RECONNECT_COOLDOWN_MS : Nat := 30000

/-- How a failed call goes on. A surfaced failure may mean that the connection is down. -/
inductive Recovery
  | surface (connectionDown : Bool)
  | recover
  deriving DecidableEq

/-- Where a caller waits. A recovery knows its attempt and the delays of its loop. -/
inductive Caller
  | backingOff (wakeAt : Nat)
  | restarting (awaited : Awaited)
  | reconnecting (now : Nat) (awaited : Awaited)
  | waiting (deadline : Nat)
  | attempting (deadline : Nat) (awaited : Awaited)
  | trailing (awaited : Awaited)
  | recovering (attempt : Nat) (delays : List Nat)
  | reestablishing (attempt : Nat) (delays : List Nat) (awaited : Awaited)
  | retrying (attempt : Nat) (delays : List Nat)
  | done (answer : Bool)
  deriving DecidableEq

structure State where
  source : Source
  monitor : ConnectorRecord := {}
  callers : OrderedMap Nat Caller := ∅

def State.enter (state : State) (caller : Nat) (phase : Caller) : State :=
  { state with callers := state.callers.set caller phase }

/-- The caller waits for the restart that it asked for. -/
def State.restart (state : State) (caller : Nat) (fresh : Fresh) (now : Nat) (phase : Awaited → Caller) : State :=
  { state with
    source := (tryRestart fresh now state.source).2
    callers := state.callers.set caller (phase (tryRestart fresh now state.source).1) }

def State.Unused (state : State) (caller : Nat) (fresh : Fresh) : Prop :=
  state.callers.get? caller = none ∧ state.source.Unused fresh

instance (state : State) (caller : Nat) (fresh : Fresh) : Decidable (state.Unused caller fresh) :=
  inferInstanceAs (Decidable (_ = none ∧ _))

def check (options : HealthMonitorOptions) (caller now : Nat) (awaitingReconnect : Bool) (state : State) :
    Option State :=
  if state.callers.get? caller = none then
    match checkOne options now awaitingReconnect state.source state.monitor with
    | (monitor, none) => some { state with monitor }
    | (monitor, some wakeAt) => some ({ state with monitor }.enter caller (.backingOff wakeAt))
  else none

/-- The sleep is over. The restart is asked for without another look at the source. -/
def attemptRestart (caller now : Nat) (fresh : Fresh) (state : State) : Option State :=
  match state.callers.get? caller with
  | some (.backingOff wakeAt) =>
      if wakeAt ≤ now ∧ state.source.Unused fresh then some (state.restart caller fresh now .restarting) else none
  | _ => none

def monitorReturns (caller : Nat) (state : State) : Option State :=
  match state.callers.get? caller with
  | some (.restarting awaited) =>
      (answer? state.source awaited).map fun restarted =>
        { state with
          monitor := { state.monitor with state := if restarted then .healthy else .restarting } }.enter caller
            (.done restarted)
  | _ => none

/-- A failed attempt holds the next one back. -/
def coolingDown (now : Nat) (source : Source) : Bool :=
  source.lastReconnectFailedAt.any fun failedAt => now - failedAt < RECONNECT_COOLDOWN_MS

def reconnectOnDemand (caller now : Nat) (fresh : Fresh) (state : State) : Option State :=
  if state.Unused caller fresh then
    if state.source.client.isSome then some (state.enter caller (.done true))
    else if isStopped state.source || coolingDown now state.source then some (state.enter caller (.done false))
    else some (state.restart caller fresh now (.reconnecting now))
  else none

def State.setReconnectFailed (state : State) (failedAt : Option Nat) : State :=
  { state with source := { state.source with lastReconnectFailedAt := failedAt } }

def reconnectReturns (caller : Nat) (state : State) : Option State :=
  match state.callers.get? caller with
  | some (.reconnecting now awaited) =>
      (answer? state.source awaited).map fun _ =>
        if state.source.client.isSome then (state.setReconnectFailed none).enter caller (.done true)
        else (state.setReconnectFailed (some now)).enter caller (.done false)
  | _ => none

def awaitRestartingSource (wait : RestartingSourceWait) (caller now : Nat) (state : State) : Option State :=
  if state.callers.get? caller = none then
    match state.source.downSince with
    | none => some (state.enter caller (.done false))
    | some down =>
        if isStopped state.source then some (state.enter caller (.done false))
        else some (state.enter caller (.waiting (min (now + wait.waitMs) (down + wait.horizonMs))))
  else none

/-- One turn of the loop. Between two attempts the caller sleeps. -/
def awaitTurn (wait : RestartingSourceWait) (caller now : Nat) (aborted : Bool) (fresh : Fresh) (state : State) :
    Option State :=
  match state.callers.get? caller with
  | some (.waiting deadline) =>
      if state.source.client.isSome then some (state.enter caller (.done true))
      else if deadline ≤ now ∨ aborted = true then some (state.enter caller (.done false))
      else if now < state.source.lastReconnectFailedAt.getD 0 + wait.retryMs then some state
      else if isStopped state.source then some (state.enter caller (.done false))
      else if state.source.Unused fresh then some (state.restart caller fresh now (.attempting deadline)) else none
  | _ => none

def State.noteFailure (state : State) (now : Nat) : State :=
  if state.source.client.isSome then state else state.setReconnectFailed (some now)

/-- An attempt that outlasts its caller still notes its failure. -/
def attemptEnds (caller now : Nat) (state : State) : Option State :=
  match state.callers.get? caller with
  | some (.attempting deadline awaited) =>
      (answer? state.source awaited).map fun _ => (state.noteFailure now).enter caller (.waiting deadline)
  | some (.trailing awaited) =>
      (answer? state.source awaited).map fun _ => (state.noteFailure now).enter caller (.done false)
  | _ => none

def waitEnds (caller now : Nat) (aborted : Bool) (state : State) : Option State :=
  match state.callers.get? caller with
  | some (.attempting deadline awaited) =>
      if deadline ≤ now ∨ aborted = true then some (state.enter caller (.trailing awaited)) else none
  | _ => none

/-- One turn of the recovery loop. A delay of zero does not sleep. -/
def recoverTurn (caller now attempt : Nat) (delays : List Nat) (outcome : Recovery) (fresh : Fresh) (state : State) :
    State :=
  match outcome, delays[attempt]? with
  | .surface true, _ =>
      { state with source := emitSourceCrashed now state.source }.enter caller (.done false)
  | .surface false, _ => state.enter caller (.done false)
  | .recover, none =>
      { state with source := emitSourceCrashed now state.source }.enter caller (.done false)
  | .recover, some 0 => state.restart caller fresh now (.reestablishing attempt delays)
  | .recover, some (_ + 1) => state.enter caller (.recovering attempt delays)

def recover (caller now : Nat) (delays : List Nat) (outcome : Recovery) (fresh : Fresh) (state : State) :
    Option State :=
  if state.Unused caller fresh then some (recoverTurn caller now 0 delays outcome fresh state) else none

def recoverWakes (caller now : Nat) (fresh : Fresh) (state : State) : Option State :=
  match state.callers.get? caller with
  | some (.recovering attempt delays) =>
      if state.source.Unused fresh then some (state.restart caller fresh now (.reestablishing attempt delays))
      else none
  | _ => none

/-- After a restart the call is tried again. The next turn has the same failure. -/
def recoverAnswered (caller now : Nat) (fresh : Fresh) (state : State) : Option State :=
  match state.callers.get? caller with
  | some (.reestablishing attempt delays awaited) =>
      if state.source.Unused fresh then
        (answer? state.source awaited).map fun restarted =>
          if restarted then state.enter caller (.retrying attempt delays)
          else recoverTurn caller now (attempt + 1) delays .recover fresh state
      else none
  | _ => none

/-- The call answered, or it failed again. -/
def retryEnds (caller now : Nat) (failure : Option Recovery) (fresh : Fresh) (state : State) : Option State :=
  match state.callers.get? caller with
  | some (.retrying attempt delays) =>
      match failure with
      | none => some (state.enter caller (.done true))
      | some outcome =>
          if state.source.Unused fresh then some (recoverTurn caller now (attempt + 1) delays outcome fresh state)
          else none
  | _ => none

/-- A revalidation of the tool list that lost its session restarts the source and does not wait. -/
def sessionLost (now : Nat) (fresh : Fresh) (state : State) : Option State :=
  if state.source.Unused fresh then some { state with source := (tryRestart fresh now state.source).2 } else none

inductive Action
  | start (number : Nat)
  | initTransport (number now : Nat) (created : Option Nat)
  | prepareClient (number now : Nat)
  | connected (number now : Nat)
  | connectFailed (number now : Nat) (failure : ConnectFailure)
  | flowSettled (number : Nat) (authorised : Bool)
  | awaitPendingFlow (number now : Nat)
  | exchangeAuthorizationCode (number now : Nat) (exchanged : Bool)
  | cleanedUp (number : Nat)
  | startReturns (number : Nat)
  | stop (number now : Nat)
  | stopGoesOn (number now : Nat) (closed : Bool)
  | restartStarts (restart start : Nat)
  | restartSettles (restart : Nat)
  | restartReturns (restart : Nat)
  | transportClosed (number now : Nat)
  | check (caller now : Nat) (awaitingReconnect : Bool)
  | attemptRestart (caller now : Nat) (fresh : Fresh)
  | monitorReturns (caller : Nat)
  | reconnectOnDemand (caller now : Nat) (fresh : Fresh)
  | reconnectReturns (caller : Nat)
  | awaitRestartingSource (caller now : Nat)
  | awaitTurn (caller now : Nat) (aborted : Bool) (fresh : Fresh)
  | attemptEnds (caller now : Nat)
  | waitEnds (caller now : Nat) (aborted : Bool)
  | recover (caller now : Nat) (delays : List Nat) (outcome : Recovery) (fresh : Fresh)
  | recoverWakes (caller now : Nat) (fresh : Fresh)
  | recoverAnswered (caller now : Nat) (fresh : Fresh)
  | retryEnds (caller now : Nat) (failure : Option Recovery) (fresh : Fresh)
  | sessionLost (now : Nat) (fresh : Fresh)
  deriving DecidableEq

def State.put (state : State) (source : Source) : State := { state with source }

variable (options : HealthMonitorOptions) (wait : RestartingSourceWait)

def step (state : State) : Action → Option State
  | .start number => (start number state.source).map state.put
  | .initTransport number now created => (initTransport number now created state.source).map state.put
  | .prepareClient number now => (prepareClient number now state.source).map state.put
  | .connected number now => (connected number now state.source).map state.put
  | .connectFailed number now failure => (connectFailed number now failure state.source).map state.put
  | .flowSettled number authorised => (flowSettled number authorised state.source).map state.put
  | .awaitPendingFlow number now => (awaitPendingFlow number now state.source).map state.put
  | .exchangeAuthorizationCode number now exchanged =>
      (exchangeAuthorizationCode number now exchanged state.source).map state.put
  | .cleanedUp number => (cleanedUp number state.source).map state.put
  | .startReturns number => (startReturns number state.source).map state.put
  | .stop number now => (stop number now state.source).map state.put
  | .stopGoesOn number now closed => (stopGoesOn number now closed state.source).map state.put
  | .restartStarts restart start => (restartStarts restart start state.source).map state.put
  | .restartSettles restart => (restartSettles restart state.source).map state.put
  | .restartReturns restart => (restartReturns restart state.source).map state.put
  | .transportClosed number now => (transportClosed number now state.source).map state.put
  | .check caller now awaitingReconnect => check options caller now awaitingReconnect state
  | .attemptRestart caller now fresh => attemptRestart caller now fresh state
  | .monitorReturns caller => monitorReturns caller state
  | .reconnectOnDemand caller now fresh => reconnectOnDemand caller now fresh state
  | .reconnectReturns caller => reconnectReturns caller state
  | .awaitRestartingSource caller now => awaitRestartingSource wait caller now state
  | .awaitTurn caller now aborted fresh => awaitTurn wait caller now aborted fresh state
  | .attemptEnds caller now => attemptEnds caller now state
  | .waitEnds caller now aborted => waitEnds caller now aborted state
  | .recover caller now delays outcome fresh => recover caller now delays outcome fresh state
  | .recoverWakes caller now fresh => recoverWakes caller now fresh state
  | .recoverAnswered caller now fresh => recoverAnswered caller now fresh state
  | .retryEnds caller now failure fresh => retryEnds caller now failure fresh state
  | .sessionLost now fresh => sessionLost now fresh state

/-- A source that was never started. -/
def LifeCycle : System State Action where
  initial state := ∃ mode, state = { source := { mode } }
  step := step options wait

end NimbleBrain.McpSource.Connection
