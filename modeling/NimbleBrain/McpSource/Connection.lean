import Mathlib.Algebra.Ring.Nat
import NimbleBrain.Library.History
import NimbleBrain.Library.OrderedMap

/- A source connects to its server. Its starts, stops and restarts run beside each other, between their awaits. -/

namespace NimbleBrain.McpSource.Connection

open Library

inductive Mode
  | remote (authProvider : Bool)
  | inProcess
  deriving DecidableEq

/-- A watched transport reports its close. -/
structure Transport where
  isOpen : Bool := true
  watched : Bool := false
  deriving DecidableEq

/-- A client holds the transport it was connected over. -/
structure Client where
  transport : Option Nat
  deriving DecidableEq

/-- A retry is the connect after the OAuth flow. -/
inductive Attempt
  | first
  | retry
  deriving DecidableEq

/-- A registered flow waits for the browser. -/
inductive Flow
  | registered
  | settled (authorised : Bool)
  | abandoned
  deriving DecidableEq

/-- Where a start waits. A legacy connect skips the probe. -/
inductive StartPhase
  | initialising (attempt : Attempt) (legacy : Bool)
  | prepared (attempt : Attempt) (legacy : Bool)
  | connecting (attempt : Attempt) (legacy : Bool) (transport : Nat)
  | fallingBack (attempt : Attempt)
  | awaitingFlow (transport : Nat) (flow : Flow)
  | exchanging (transport : Nat)
  | rebuilding
  | failing
  | settled (connected : Bool)
  | over (connected : Bool)
  deriving DecidableEq

/-- The other starts belong to a restart. -/
structure Start where
  explicit : Bool
  phase : StartPhase
  deriving DecidableEq

inductive StopPhase
  | closingClient
  | closingTransport
  | over
  deriving DecidableEq

/-- A stop is deliberate when no restart was in flight. -/
structure Stop where
  deliberate : Bool
  phase : StopPhase
  deriving DecidableEq

inductive RestartPhase
  | tearingDown (stop : Nat)
  | starting (start : Nat)
  | marked (restarted : Bool)
  | over (restarted : Bool)
  deriving DecidableEq

/-- What the callers and the server of a source see. -/
inductive Event
  | startCalled
  | stopCalled
  | stopped
  | connected
  | failed
  | closed
  | crashed
  | restarted
  | restartFailed
  | resolved
  deriving DecidableEq

structure Source where
  mode : Mode
  client : Option Client := none
  transport : Option Nat := none
  dead : Bool := false
  stopping : Bool := false
  stopped : Bool := false
  startInFlight : Option Nat := none
  restartInFlight : Option Nat := none
  lastReconnectFailedAt : Option Nat := none
  downSince : Option Nat := none
  startedAt : Option Nat := none
  transports : OrderedMap Nat Transport := ∅
  starts : OrderedMap Nat Start := ∅
  stops : OrderedMap Nat Stop := ∅
  restarts : OrderedMap Nat RestartPhase := ∅
  log : List Event := []

def isAlive (source : Source) : Bool := source.transport.isSome && source.client.isSome && !source.dead

def isStopped (source : Source) : Bool := source.stopped && source.restartInFlight.isNone

/-- Only the first sign of a death counts, and none of a teardown. -/
def emitSourceCrashed (now : Nat) (source : Source) : Source :=
  if source.stopping || source.dead then source
  else
    { source with
      dead := true
      downSince := source.downSince.or (some now)
      log := .crashed :: source.log }

/-- A close calls the handler that is set. -/
def closeTransport (number now : Nat) (source : Source) : Source :=
  match source.transports.get? number with
  | none => source
  | some transport =>
      if transport.watched then
        emitSourceCrashed now
          { source with transports := source.transports.set number { transport with isOpen := false } }
      else { source with transports := source.transports.set number { transport with isOpen := false } }

def closeCurrent (now : Nat) (source : Source) : Source :=
  match source.transport with
  | none => source
  | some number => closeTransport number now source

/-- Sets or clears the close handler. -/
def watch (number : Nat) (watched : Bool) (source : Source) : Source :=
  match source.transports.get? number with
  | none => source
  | some transport => { source with transports := source.transports.set number { transport with watched } }

def watchCurrent (watched : Bool) (source : Source) : Source :=
  match source.transport with
  | none => source
  | some number => watch number watched source

def Source.isOpen (source : Source) (number : Nat) : Bool :=
  (source.transports.get? number).any Transport.isOpen

/-- The server, or the network, closes an open transport. -/
def transportClosed (number now : Nat) (source : Source) : Option Source :=
  if source.isOpen number then
    some (closeTransport number now { source with log := .closed :: source.log })
  else none

def Source.enter (source : Source) (number : Nat) (own : Start) (phase : StartPhase) : Source :=
  { source with starts := source.starts.set number { own with phase } }

/-- What runs at once when a start is called, up to the creation of its transport. -/
def doStart (number : Nat) (explicit : Bool) (source : Source) : Source :=
  { source with
    stopping := false
    stopped := false
    startInFlight := some number
    starts := source.starts.set number { explicit, phase := .initialising .first false }
    log := if explicit then .startCalled :: source.log else source.log }

def start (number : Nat) (source : Source) : Option Source :=
  if source.starts.get? number = none then some (doStart number true source) else none

/-- The cleanup waits for the close of the transport. -/
def cleanupOnStartFailure (now : Nat) (source : Source) : Source :=
  closeCurrent now
    { source with
      stopping := true
      downSince := source.downSince.or (some now)
      log := .failed :: source.log }

def fail (number now : Nat) (own : Start) (source : Source) : Source :=
  (cleanupOnStartFailure now source).enter number own .failing

/-- The transport was created, or its creation threw. The first creation stands before the `try`. -/
def initTransport (number now : Nat) (created : Option Nat) (source : Source) : Option Source :=
  match source.starts.get? number with
  | some ⟨explicit, .initialising attempt legacy⟩ =>
      match created with
      | some transport =>
          if source.transports.get? transport = none then
            some
              ({ source with
                transports := source.transports.set transport { watched := source.mode = Mode.inProcess }
                transport := some transport }.enter number ⟨explicit, .initialising attempt legacy⟩
                  (.prepared attempt legacy))
          else none
      | none =>
          if attempt = .first ∧ legacy = false then
            some ({ source with log := .failed :: source.log }.enter number
              ⟨explicit, .initialising attempt legacy⟩ (.settled false))
          else some (fail number now ⟨explicit, .initialising attempt legacy⟩ source)
  | _ => none

/-- A retry looks for crashes again from here. -/
def rearm (attempt : Attempt) (legacy : Bool) (source : Source) : Source :=
  if attempt = .retry ∧ legacy = false then { source with stopping := false } else source

/-- A fresh client connects over the transport of this moment. -/
def prepareClient (number now : Nat) (source : Source) : Option Source :=
  match source.starts.get? number with
  | some ⟨explicit, .prepared attempt legacy⟩ =>
      match source.transport with
      | none =>
          some (fail number now ⟨explicit, .prepared attempt legacy⟩
            (rearm attempt legacy { source with client := some ⟨none⟩ }))
      | some transport =>
          some ((rearm attempt legacy { source with client := some ⟨some transport⟩ }).enter number
            ⟨explicit, .prepared attempt legacy⟩ (.connecting attempt legacy transport))
  | _ => none

/-- A transport of this process was watched from its creation. -/
def watchRemote (source : Source) : Source :=
  if source.mode = .inProcess then source else watchCurrent true source

/-- Both ways out of a successful start end the outage. -/
def onConnected (now : Nat) (source : Source) : Source :=
  { source with downSince := none, startedAt := some now, log := .connected :: source.log }

/-- A closed client does not finish its connect. The way out of the retry keeps `dead`. -/
def connected (number now : Nat) (source : Source) : Option Source :=
  match source.starts.get? number with
  | some ⟨explicit, .connecting attempt legacy transport⟩ =>
      if source.isOpen transport then
        match attempt with
        | .retry =>
            some ((onConnected now source).enter number ⟨explicit, .connecting attempt legacy transport⟩
              (.settled true))
        | .first =>
            match source.client with
            | some _ =>
                some
                  ((watchRemote
                    (onConnected now { source with dead := false, lastReconnectFailedAt := none })).enter number
                      ⟨explicit, .connecting attempt legacy transport⟩ (.settled true))
            | none =>
                some
                  ({ watchRemote
                      (onConnected now { source with dead := false, lastReconnectFailedAt := none }) with
                    log := .failed :: .connected :: source.log }.enter number
                      ⟨explicit, .connecting attempt legacy transport⟩ (.settled false))
      else none
  | _ => none

/-- A server may ask for authorisation, or answer the probe with an internal error. -/
inductive ConnectFailure
  | unauthorized (flow : Flow)
  | probeFailed
  | other
  deriving DecidableEq

def canRetryWithOAuth (attempt : Attempt) (source : Source) : Bool :=
  attempt = .first && source.mode = .remote true && source.transport.isSome

/-- The connect to a closed transport fails in no special way. -/
def connectFailed (number now : Nat) (failure : ConnectFailure) (source : Source) : Option Source :=
  match source.starts.get? number with
  | some ⟨explicit, .connecting attempt legacy transport⟩ =>
      match failure with
      | .other => some (fail number now ⟨explicit, .connecting attempt legacy transport⟩ source)
      | .probeFailed =>
          if source.isOpen transport then
            if legacy then some (fail number now ⟨explicit, .connecting attempt legacy transport⟩ source)
            else
              some ((cleanupOnStartFailure now (watchCurrent false source)).enter number
                ⟨explicit, .connecting attempt legacy transport⟩ (.fallingBack attempt))
          else none
      | .unauthorized flow =>
          if source.isOpen transport then
            if canRetryWithOAuth attempt source then
              some ({ source with log := .failed :: source.log }.enter number
                ⟨explicit, .connecting attempt legacy transport⟩ (.awaitingFlow transport flow))
            else some (fail number now ⟨explicit, .connecting attempt legacy transport⟩ source)
          else none
  | _ => none

/-- The browser came back, or the flow ran out of time. -/
def flowSettled (number : Nat) (authorised : Bool) (source : Source) : Option Source :=
  match source.starts.get? number with
  | some ⟨explicit, .awaitingFlow transport .registered⟩ =>
      some (source.enter number ⟨explicit, .awaitingFlow transport .registered⟩
        (.awaitingFlow transport (.settled authorised)))
  | _ => none

def awaitPendingFlow (number now : Nat) (source : Source) : Option Source :=
  match source.starts.get? number with
  | some ⟨explicit, .awaitingFlow transport (.settled true)⟩ =>
      some (source.enter number ⟨explicit, .awaitingFlow transport (.settled true)⟩ (.exchanging transport))
  | some ⟨explicit, .awaitingFlow transport (.settled false)⟩ =>
      some (fail number now ⟨explicit, .awaitingFlow transport (.settled false)⟩ source)
  | some ⟨explicit, .awaitingFlow transport .abandoned⟩ =>
      some (fail number now ⟨explicit, .awaitingFlow transport .abandoned⟩ source)
  | _ => none

def exchangeAuthorizationCode (number now : Nat) (exchanged : Bool) (source : Source) : Option Source :=
  match source.starts.get? number with
  | some ⟨explicit, .exchanging transport⟩ =>
      if exchanged then
        some ((cleanupOnStartFailure now (watch transport false source)).enter number
          ⟨explicit, .exchanging transport⟩ .rebuilding)
      else some (fail number now ⟨explicit, .exchanging transport⟩ source)
  | _ => none

/-- The close of a cleanup is over. -/
def cleanedUp (number : Nat) (source : Source) : Option Source :=
  match source.starts.get? number with
  | some ⟨explicit, .fallingBack attempt⟩ =>
      some ({ source with client := none, transport := none, stopping := false }.enter number
        ⟨explicit, .fallingBack attempt⟩ (.initialising attempt true))
  | some ⟨explicit, .rebuilding⟩ =>
      some ({ source with client := none, transport := none }.enter number ⟨explicit, .rebuilding⟩
        (.initialising .retry false))
  | some ⟨explicit, .failing⟩ =>
      some ({ source with client := none, transport := none }.enter number ⟨explicit, .failing⟩
        (.settled false))
  | _ => none

/-- The promise of a start settles after the slot was cleared. -/
def startReturns (number : Nat) (source : Source) : Option Source :=
  match source.starts.get? number with
  | some ⟨explicit, .settled connected⟩ =>
      some
        ({ source with
          startInFlight := if source.startInFlight = some number then none else source.startInFlight
          log := if explicit && connected then .resolved :: source.log else source.log }.enter number
            ⟨explicit, .settled connected⟩ (.over connected))
  | _ => none

/-- Only a registered flow is ended. -/
def Start.abandon (start : Start) : Start :=
  match start.phase with
  | .awaitingFlow transport .registered => { start with phase := .awaitingFlow transport .abandoned }
  | _ => start

def abandonPendingFlow (source : Source) : Source :=
  match source.mode with
  | .remote true => { source with starts := source.starts.filterMap fun _ own => some own.abandon }
  | _ => source

def finishStop (number : Nat) (deliberate : Bool) (source : Source) : Source :=
  { source with
    client := none
    transport := none
    stops := source.stops.set number { deliberate, phase := .over }
    log := if deliberate then .stopped :: source.log else source.log }

def stopTransport (number now : Nat) (deliberate : Bool) (source : Source) : Source :=
  match source.transport with
  | none => finishStop number deliberate source
  | some transport =>
      { closeTransport transport now source with
        stops := source.stops.set number { deliberate, phase := .closingTransport } }

def closeClient (now : Nat) (client : Client) (source : Source) : Source :=
  match client.transport with
  | none => source
  | some transport => closeTransport transport now source

/-- What runs at once when a stop is called. -/
def stopClient (number now : Nat) (deliberate : Bool) (source : Source) : Source :=
  match source.client with
  | none => stopTransport number now deliberate source
  | some client =>
      { closeClient now client source with
        stops := source.stops.set number { deliberate, phase := .closingClient } }

def doStop (number now : Nat) (deliberate : Bool) (source : Source) : Source :=
  stopClient number now deliberate
    (abandonPendingFlow { source with stopping := true, stopped := true, log := .stopCalled :: source.log })

def stop (number now : Nat) (source : Source) : Option Source :=
  if source.stops.get? number = none then some (doStop number now source.restartInFlight.isNone source)
  else none

/-- A close that throws ends the stop. -/
def stopGoesOn (number now : Nat) (closed : Bool) (source : Source) : Option Source :=
  match source.stops.get? number with
  | some ⟨deliberate, .closingClient⟩ =>
      if closed then some (stopTransport number now deliberate source) else some (finishStop number deliberate source)
  | some ⟨deliberate, .closingTransport⟩ => some (finishStop number deliberate source)
  | _ => none

/-- The numbers of a restart and of its stop. -/
structure Fresh where
  restart : Nat
  stop : Nat
  deriving DecidableEq

def Source.Unused (source : Source) (fresh : Fresh) : Prop :=
  source.restarts.get? fresh.restart = none ∧ source.stops.get? fresh.stop = none

instance (source : Source) (fresh : Fresh) : Decidable (source.Unused fresh) :=
  inferInstanceAs (Decidable (_ = none ∧ _ = none))

def doRestart (fresh : Fresh) (now : Nat) (source : Source) : Source :=
  { doStop fresh.stop now false source with
    restarts := source.restarts.set fresh.restart (.tearingDown fresh.stop)
    restartInFlight := some fresh.restart }

/-- What a call of `tryRestart` awaits. -/
inductive Awaited
  | restart (number : Nat)
  | start (number : Nat)
  deriving DecidableEq

/-- A restart under way is shared and a connect under way is joined. -/
def tryRestart (fresh : Fresh) (now : Nat) (source : Source) : Awaited × Source :=
  match source.restartInFlight, source.startInFlight with
  | some restart, _ => (.restart restart, source)
  | none, some start => (.start start, source)
  | none, none => (.restart fresh.restart, doRestart fresh now source)

def restartStarts (restart start : Nat) (source : Source) : Option Source :=
  match source.restarts.get? restart with
  | some (.tearingDown stop) =>
      if (source.stops.get? stop).any (fun own => own.phase = .over) ∧ source.starts.get? start = none then
        some
          { doStart start false source with
            restarts := source.restarts.set restart (.starting start) }
      else none
  | _ => none

/-- A start that is over, and whether it connected. -/
def Source.startOver? (source : Source) (start : Nat) : Option Bool :=
  (source.starts.get? start).bind fun own =>
    match own.phase with
    | .over connected => some connected
    | _ => none

def restartSettles (restart : Nat) (source : Source) : Option Source :=
  match source.restarts.get? restart with
  | some (.starting start) =>
      (source.startOver? start).map fun connected =>
        if connected then
          { source with
            dead := false
            restarts := source.restarts.set restart (.marked true)
            log := .restarted :: source.log }
        else
          { source with
            restarts := source.restarts.set restart (.marked false)
            log := .restartFailed :: source.log }
  | _ => none

def restartReturns (restart : Nat) (source : Source) : Option Source :=
  match source.restarts.get? restart with
  | some (.marked restarted) =>
      some
        { source with
          restartInFlight := none
          restarts := source.restarts.set restart (.over restarted)
          log := if restarted then .resolved :: source.log else source.log }
  | _ => none

/-- What a call of `tryRestart` answers, once it can. -/
def answer? (source : Source) : Awaited → Option Bool
  | .restart number =>
      match source.restarts.get? number with
      | some (.marked restarted) => some restarted
      | some (.over restarted) => some restarted
      | _ => none
  | .start number =>
      match (source.starts.get? number).map Start.phase with
      | some (.settled _) => some (isAlive source)
      | some (.over _) => some (isAlive source)
      | _ => none

end NimbleBrain.McpSource.Connection
