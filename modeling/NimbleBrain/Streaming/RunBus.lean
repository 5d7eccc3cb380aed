import NimbleBrain.Library.OrderedMap
import Mathlib.Data.List.Range
import NimbleBrain.Library.Transition

/- The run bus logs the events of a turn, and the event manager hands them to the subscribers.
Both keep the conversations apart, so this is one conversation. -/

namespace NimbleBrain.Streaming

open Library

section Bus

inductive RunStatus
  | running
  | done
  | error
  | cancelled
  deriving DecidableEq

/-- The events that the viewers of a turn receive. -/
inductive TurnEventType
  | userMessage
  | done
  | cancelled
  | error
  | chatStart
  | textDelta
  | reasoningDelta
  | toolPreparing
  | toolStart
  | toolDone
  | llmDone
  | skillsLoaded
  deriving DecidableEq

/-- The data is its JSON text. -/
structure BufferedRunEvent where
  seq : Nat
  type : TurnEventType
  data : String
  deriving DecidableEq

/-- The abort signal is the identity of a run, so the run number stands for it. -/
structure RunLog where
  run : Nat
  seq : Nat := 0
  events : List BufferedRunEvent := []
  status : RunStatus := .running
  aborted : Bool := false
  deriving DecidableEq

/-- How long an ended log is kept, and how many events a run may have. -/
structure BusLimits where
  graceMs : Nat := 30000
  maxEventsPerRun : Nat := 500000

/-- The log of the conversation, and how many runs there were. -/
structure RunBus where
  log : Option RunLog := none
  begun : Nat := 0

variable (limits : BusLimits) (bus : RunBus)

/-- A turn that is running refuses another one. -/
def RunBus.begin : Option RunBus :=
  match bus.log with
  | some { status := .running, .. } => none
  | _ => some { log := some { run := bus.begun }, begun := bus.begun + 1 }

def RunBus.isActive : Bool := bus.log.any fun log => log.status = .running

def RunBus.currentSeq : Nat := (bus.log.map RunLog.seq).getD 0

def RunBus.endRun (status : RunStatus) : RunBus :=
  match bus.log with
  | some log =>
      if log.status ≠ .running then bus
      else if limits.graceMs = 0 then { bus with log := none }
      else { bus with log := some { log with status } }
  | none => bus

def overflowText (maxEventsPerRun : Nat) : String :=
  "\x7b\"error\":\"buffer_overflow\",\"message\":\"Per-run event cap exceeded (" ++ toString maxEventsPerRun ++
    "). Turn aborted.\"\x7d"

def RunLog.add (log : RunLog) (type : TurnEventType) (data : String) : RunLog :=
  { log with seq := log.seq + 1, events := log.events ++ [⟨log.seq + 1, type, data⟩] }

/-- The event that a publish would add. A run over the cap ends with an error. -/
def RunBus.nextEvent (type : TurnEventType) (data : String) : Option (RunLog × BufferedRunEvent) :=
  match bus.log with
  | some log =>
      if log.status ≠ .running then none
      else if limits.maxEventsPerRun ≤ log.events.length then
        some (log, ⟨log.seq + 1, .error, overflowText limits.maxEventsPerRun⟩)
      else some (log, ⟨log.seq + 1, type, data⟩)
  | none => none

/-- Nothing is published when no turn runs. -/
def RunBus.publish (type : TurnEventType) (data : String) : RunBus × Option BufferedRunEvent :=
  match bus.nextEvent limits type data with
  | none => (bus, none)
  | some (log, event) =>
      let added := log.add event.type event.data
      if limits.maxEventsPerRun ≤ log.events.length then
        (RunBus.endRun limits { bus with log := some { added with aborted := true } } .error, some event)
      else ({ bus with log := some added }, some event)

def RunBus.bufferedSince (afterSeq : Nat) : List BufferedRunEvent :=
  match bus.log with
  | none => []
  | some log => log.events.filter fun event => afterSeq < event.seq

def RunBus.cancel : RunBus :=
  match bus.log with
  | some log =>
      if log.status ≠ .running then bus
      else RunBus.endRun limits { bus with log := some { log with aborted := true } } .cancelled
  | none => bus

/-- A failed reservation drops its own log only. -/
def RunBus.evict (expected : Option Nat) : RunBus :=
  match bus.log with
  | some log => if expected.all (· = log.run) then { bus with log := none } else bus
  | none => bus

/-- The grace window of an ended run is over. -/
def RunBus.collect : RunBus :=
  match bus.log with
  | some log => if log.status = .running then bus else { bus with log := none }
  | none => bus

def RunBus.reset : RunBus := { bus with log := none }

end Bus

inductive FrameType
  | subscribed
  | heartbeat
  | turn (type : TurnEventType)
  deriving DecidableEq

/-- The lines of a frame. The run of a data line is not sent: it names whose event it is. -/
inductive SseLine
  | event (type : FrameType)
  | id (seq : Nat)
  | data (run : Option Nat) (text : String)
  | blank
  deriving DecidableEq

def frame (type : FrameType) (run : Option Nat) (data : String) (seq : Option Nat) : List SseLine :=
  .event type :: ((seq.map SseLine.id).toList ++ [.data run data, .blank])

def eventFrame (run : Nat) (event : BufferedRunEvent) : List SseLine :=
  frame (.turn event.type) (some run) event.data (some event.seq)

structure ConversationSubscriber where
  closed : Bool := false
  deriving DecidableEq

abbrev Subscribers := OrderedMap Nat ConversationSubscriber

/-- A write to a closed subscriber is left out, and a write that fails closes its subscriber. -/
def writes (subscribers : Subscribers) (failing : List Nat) (id : Nat) : Bool :=
  (subscribers.get? id).any (fun subscriber => !subscriber.closed) && decide (id ∉ failing)

def publishEvent (subscribers : Subscribers) (failing : List Nat) : Subscribers :=
  subscribers.filterMap fun id subscriber => if writes subscribers failing id then some subscriber else none

end NimbleBrain.Streaming

/- A viewer reads the frames of a conversation. Whenever its connection drops, it asks again from its last number. -/

namespace NimbleBrain.Streaming

open Library

structure SseParserState where
  currentEvent : Option FrameType := none
  currentSeq : Option Nat := none
  deriving DecidableEq

/-- A frame that the reducer got. -/
structure Applied where
  run : Option Nat
  type : FrameType
  data : String
  seq : Nat
  deriving DecidableEq

structure Viewer where
  lastSeq : Nat := 0
  applied : List Applied := []

def emitFrame (viewer : Viewer) (type : FrameType) (seq : Option Nat) (run : Option Nat) (data : String) : Viewer :=
  if type = .subscribed then viewer
  else
    { lastSeq := if viewer.lastSeq < seq.getD 0 then seq.getD 0 else viewer.lastSeq
      applied := viewer.applied ++ [⟨run, type, data, seq.getD 0⟩] }

def consumeLine (client : Viewer × SseParserState) : SseLine → Viewer × SseParserState
  | .event type => (client.1, { client.2 with currentEvent := some type })
  | .id seq => (client.1, { client.2 with currentSeq := some seq })
  | .data run text =>
      match client.2.currentEvent with
      | some type => (emitFrame client.1 type client.2.currentSeq run text, {})
      | none => client
  | .blank => client

/-- A request carries the number to go on after. An answered one reads what was written to its subscriber. -/
inductive Connection
  | idle
  | requesting (afterSeq : Nat)
  | reading (subscriber : Nat) (parser : SseParserState) (unread : List SseLine)

section System

/-- Every event that was published stays listed under its run. -/
structure State where
  bus : RunBus := {}
  published : List (Nat × BufferedRunEvent) := []
  subscribers : Subscribers := ∅
  opened : Nat := 0
  viewer : Viewer := {}
  connection : Connection := .idle

/-- A frame reaches the viewer when it is written to the subscriber that the viewer reads. -/
def Connection.write (connection : Connection) (subscribers : Subscribers) (failing : List Nat)
    (lines : List SseLine) : Connection :=
  match connection with
  | .reading id parser unread =>
      .reading id parser (if writes subscribers failing id then unread ++ lines else unread)
  | other => other

/-- A frame goes to every subscriber. -/
def State.broadcast (state : State) (failing : List Nat) (lines : List SseLine) : State :=
  { state with
    subscribers := publishEvent state.subscribers failing
    connection := state.connection.write state.subscribers failing lines }

variable (limits : BusLimits)

/-- The runtime publishes to the bus and hands the event on at once. -/
def publishToRunBus (type : TurnEventType) (data : String) (failing : List Nat) (state : State) : State :=
  match state.bus.nextEvent limits type data with
  | none => state
  | some (log, event) =>
      { state with
        bus := (state.bus.publish limits type data).1
        published := state.published ++ [(log.run, event)] }.broadcast failing (eventFrame log.run event)

def connect (state : State) : Option State :=
  match state.connection with
  | .idle => some { state with connection := .requesting state.viewer.lastSeq }
  | _ => none

/-- The first frame tells whether a turn runs. -/
def subscribedFrame (bus : RunBus) : List SseLine :=
  frame .subscribed none
    ("\x7b\"isActive\":" ++ toString bus.isActive ++ ",\"activeSeq\":" ++ toString bus.currentSeq ++ "\x7d") none

def replayFrames (bus : RunBus) (afterSeq : Nat) : List SseLine :=
  (bus.bufferedSince afterSeq).flatMap fun event =>
    frame (.turn event.type) (bus.log.map RunLog.run) event.data (some event.seq)

/-- The snapshot, the replay and the registration are one step. -/
def addSubscriber (state : State) : Option State :=
  match state.connection with
  | .requesting afterSeq =>
      some
        { state with
          subscribers := state.subscribers.set state.opened {}
          opened := state.opened + 1
          connection :=
            .reading state.opened {} (subscribedFrame state.bus ++ replayFrames state.bus afterSeq) }
  | _ => none

/-- The viewer reads one line. -/
def receive (state : State) : Option State :=
  match state.connection with
  | .reading id parser (line :: rest) =>
      let client := consumeLine (state.viewer, parser) line
      some { state with viewer := client.1, connection := .reading id client.2 rest }
  | _ => none

inductive Action
  | begin
  | publish (type : TurnEventType) (data : String) (failing : List Nat)
  | endRun (status : RunStatus)
  | cancel
  | evict (expected : Option Nat)
  | collect
  | reset
  | connect
  | addSubscriber
  | receive
  | drop
  | addOther
  | removeSubscriber (id : Nat)
  | heartbeat (text : String) (failing : List Nat)
  | stop

/-- Turns, subscribers, writes and the connection of the viewer go on in any order. -/
def step (state : State) : Action → Option State
  | .begin => state.bus.begin.map fun bus => { state with bus }
  | .publish type data failing => some (publishToRunBus limits type data failing state)
  | .endRun status => if status = .running then none else some { state with bus := state.bus.endRun limits status }
  | .cancel => some { state with bus := state.bus.cancel limits }
  | .evict expected => some { state with bus := state.bus.evict expected }
  | .collect => some { state with bus := state.bus.collect }
  | .reset => some { state with bus := state.bus.reset }
  | .connect => connect state
  | .addSubscriber => addSubscriber state
  | .receive => receive state
  | .drop => some { state with connection := .idle }
  | .addOther =>
      some { state with subscribers := state.subscribers.set state.opened {}, opened := state.opened + 1 }
  | .removeSubscriber id => some { state with subscribers := state.subscribers.delete id }
  | .heartbeat text failing => some (state.broadcast failing (frame .heartbeat none text none))
  | .stop => some { state with subscribers := ∅ }

def ViewerSystem : System State Action where
  initial state := state = {}
  step := step limits

end System

/-- The events of a run that the viewer applied. -/
def seenOf (run : Nat) (applied : List Applied) : List BufferedRunEvent :=
  applied.filterMap fun frame =>
    match frame.run, frame.type with
    | some own, .turn type => if own = run then some ⟨frame.seq, type, frame.data⟩ else none
    | _, _ => none

/-- The events of a run. -/
def publishedOf (run : Nat) (published : List (Nat × BufferedRunEvent)) : List BufferedRunEvent :=
  published.filterMap fun event => if event.1 = run then some event.2 else none

/-- The viewer applied the first events of each run in order, numbered from one. Once it read all that was written
to its open subscriber, it applied every event of the retained run. -/
def AppliesOnce (state : State) : Prop :=
  (∀ run, seenOf run state.viewer.applied <+: publishedOf run state.published ∧
    (seenOf run state.viewer.applied).map BufferedRunEvent.seq =
      List.range' 1 (seenOf run state.viewer.applied).length) ∧
    ∀ id parser, state.connection = .reading id parser [] → writes state.subscribers [] id →
      ∀ log ∈ state.bus.log, seenOf log.run state.viewer.applied = publishedOf log.run state.published

end NimbleBrain.Streaming
