import NimbleBrain.Library.OrderedMap
import NimbleBrain.Library.Transition

/- A source keeps the last tool list of its server. Reads, refreshes, notices and restarts write this memo. -/

namespace NimbleBrain.McpSource.ToolList

open Library

/-- A tool as the server lists it. Schemas and annotations are their JSON text. -/
structure ServerTool where
  name : String
  description : Option String := none
  inputSchema : Option String := none
  outputSchema : Option String := none
  annotations : Option String := none
  metaText : Option String := none
  taskSupport : Option String := none
  deriving DecidableEq

structure Tool where
  name : String
  description : String
  inputSchema : String
  outputSchema : Option String
  annotations : Option String
  metaText : Option String
  execution : Option String
  deriving DecidableEq

def mapTool (source : String) (tool : ServerTool) : Tool where
  name := source ++ "__" ++ tool.name
  description := tool.description.getD ""
  inputSchema := tool.inputSchema.getD "{}"
  outputSchema := tool.outputSchema
  annotations := tool.annotations
  metaText := tool.metaText
  execution := tool.taskSupport

/-- The order of the tools does not matter. -/
def toolListChanged (a b : List Tool) : Bool := a.length ≠ b.length || !decide (a.Perm b)

/-- The list remembers on which connection it was requested, and how many notices had come before. -/
structure FetchedList where
  tools : List Tool
  request : Nat
  connection : Nat
  notices : Nat
  deriving DecidableEq

/-- The handshake of a connection that is not ready goes on. -/
structure Client where
  number : Nat
  ready : Bool
  deriving DecidableEq

/-- A request that failed answers `some none`. -/
structure Request where
  connection : Nat
  generation : Nat
  notices : Nat
  answer : Option (Option (List Tool)) := none

/-- A refresh without a request threw before it sent one. -/
structure Refresh where
  previous : Option FetchedList
  generation : Nat
  request : Option Nat
  outcome : Option (Option FetchedList) := none

/-- What a call waits for. One that gave up still notes when the refresh fails. -/
inductive Waiting
  | fetch (request : Nat)
  | revalidation (refresh : Nat) (memo : FetchedList) (generation notices : Nat)
  | gaveUp (refresh : Nat)
  | maxAge (refresh : Nat)

/-- A list that was served from the memo, with the connection and the notices of that moment. -/
structure Served where
  list : FetchedList
  connection : Option Nat
  notices : Nat

structure State where
  client : Option Client := none
  clients : Nat := 0
  cachedTools : Option FetchedList := none
  toolsFetchedAt : Option Nat := none
  toolsFetchInFlight : Option Nat := none
  refreshInFlight : Option Nat := none
  toolListGeneration : Nat := 0
  toolsChanged : Nat := 0
  notices : Nat := 0
  requests : OrderedMap Nat Request := ∅
  refreshes : OrderedMap Nat Refresh := ∅
  waiting : OrderedMap Nat Waiting := ∅
  sent : Nat := 0
  served : List Served := []

def startBegin (state : State) : Option State :=
  match state.client with
  | none => some { state with client := some ⟨state.clients, false⟩, clients := state.clients + 1 }
  | some _ => none

/-- Both ways out of a start signal that the tools changed. -/
def handshake (state : State) : Option State :=
  match state.client with
  | some ⟨number, false⟩ =>
      some { state with client := some ⟨number, true⟩, toolsChanged := state.toolsChanged + 1 }
  | _ => none

def cleanupOnStartFailure (state : State) : Option State :=
  match state.client with
  | some ⟨_, false⟩ => some { state with client := none }
  | _ => none

/-- The end of a stop drops all that belongs to the connection. -/
def stop (state : State) : State :=
  { state with
    client := none
    cachedTools := none
    toolsFetchedAt := none
    toolsFetchInFlight := none
    refreshInFlight := none
    toolListGeneration := state.toolListGeneration + 1 }

/-- A restart drops the memo once more after its start. -/
def doRestartEnd (state : State) : State := { state with cachedTools := none, toolsFetchedAt := none }

def listChanged (state : State) : State :=
  { state with
    cachedTools := none
    toolsFetchedAt := none
    notices := state.notices + 1
    toolsChanged := state.toolsChanged + 1 }

/-- A request under way is shared. Without a finished handshake the call throws. -/
def fetchToolList (state : State) : Option (Nat × State) :=
  match state.toolsFetchInFlight with
  | some request => some (request, state)
  | none =>
      match state.client with
      | some ⟨number, true⟩ =>
          some
            (state.sent,
              { state with
                requests := state.requests.set state.sent
                  { connection := number, generation := state.toolListGeneration, notices := state.notices }
                sent := state.sent + 1
                toolsFetchInFlight := some state.sent })
      | _ => none

def answer (sourceName : String) (request : Nat) (response : Option (List ServerTool)) (state : State) :
    Option State :=
  match state.requests.get? request with
  | some { connection, generation, notices, answer := none } =>
      some
        { state with
          requests := state.requests.set request
            { connection, generation, notices
              answer := some (response.map fun tools => tools.map (mapTool sourceName)) } }
  | _ => none

/-- The list of a request that was answered. -/
def State.fetched? (state : State) (request : Nat) : Option (Option FetchedList) :=
  (state.requests.get? request).bind fun sent =>
    sent.answer.map fun response =>
      response.map fun tools => { tools, request, connection := sent.connection, notices := sent.notices }

/-- An answered request is not shared any more. -/
def settleFetch (request : Nat) (state : State) : Option State :=
  (state.fetched? request).map fun _ =>
    { state with
      toolsFetchInFlight := if state.toolsFetchInFlight = some request then none else state.toolsFetchInFlight }

def State.serve (state : State) (list : FetchedList) : State :=
  { state with
    served := state.served ++ [{ list, connection := state.client.map Client.number, notices := state.notices }] }

def REMOTE_TOOL_LIST_MAX_AGE_MS : Nat := 60000

/-- Whether the memo was fetched too long ago, or never. -/
def toolListOlderThan (maxAgeMs now : Nat) (state : State) : Bool :=
  state.toolsFetchedAt.all fun fetchedAt => maxAgeMs < now - fetchedAt

def startRefresh (refresh : Nat) (state : State) : State :=
  match fetchToolList state with
  | none =>
      { state with
        refreshes := state.refreshes.set refresh
          { previous := state.cachedTools, generation := state.toolListGeneration, request := none }
        refreshInFlight := some refresh }
  | some (request, after) =>
      { after with
        refreshes := after.refreshes.set refresh
          { previous := state.cachedTools, generation := state.toolListGeneration, request := some request }
        refreshInFlight := some refresh }

/-- The refresh that a call waits for: one under way, or a new one with the number of the call. -/
def refreshTools (call : Nat) (state : State) : Nat × State :=
  match state.refreshInFlight with
  | some refresh => (refresh, state)
  | none => (call, startRefresh call state)

/-- Calls have numbers that were not used before. -/
def State.Fresh (state : State) (call : Nat) : Prop :=
  state.refreshes.get? call = none ∧ state.waiting.get? call = none

instance (state : State) (call : Nat) : Decidable (state.Fresh call) :=
  inferInstanceAs (Decidable (_ = none ∧ _ = none))

def State.wait (state : State) (call : Nat) (waiting : Waiting) : State :=
  { state with waiting := state.waiting.set call waiting }

def revalidateTools (call : Nat) (memo : FetchedList) (state : State) : State :=
  match state.refreshInFlight with
  | some _ => state.serve memo
  | none =>
      (startRefresh call state).wait call
        (.revalidation call memo state.toolListGeneration state.notices)

def tools (remote : Bool) (call now : Nat) (state : State) : State :=
  match state.cachedTools with
  | some memo =>
      if remote && toolListOlderThan REMOTE_TOOL_LIST_MAX_AGE_MS now state then revalidateTools call memo state
      else state.serve memo
  | none =>
      match fetchToolList state with
      | none => state
      | some (request, after) => after.wait call (.fetch request)

def toolsWithMaxAge (call maxAgeMs now : Nat) (state : State) : State :=
  match state.cachedTools, state.toolsFetchedAt with
  | some memo, some fetchedAt =>
      if now - fetchedAt ≤ maxAgeMs then state.serve memo
      else (refreshTools call state).2.wait call (.maxAge (refreshTools call state).1)
  | _, _ => (refreshTools call state).2.wait call (.maxAge (refreshTools call state).1)

def State.stopWaiting (state : State) (call : Nat) : State := { state with waiting := state.waiting.delete call }

/-- The answer fills the memo, whatever the memo holds. -/
def takeFetch (call now : Nat) (state : State) : Option State :=
  match state.waiting.get? call with
  | some (.fetch request) =>
      (state.fetched? request).map fun fetched =>
        match fetched with
        | none => state.stopWaiting call
        | some list =>
            { state.stopWaiting call with cachedTools := some list, toolsFetchedAt := some now }.serve list
  | _ => none

def State.settle (state : State) (refresh : Nat) (own : Refresh) (outcome : Option FetchedList) : State :=
  { state with refreshes := state.refreshes.set refresh { own with outcome := some outcome } }

/-- A refresh that began before a stop does not write. An unchanged list keeps the memo it began with. -/
def landRefresh (refresh now : Nat) (own : Refresh) (list : FetchedList) (state : State) : State :=
  if own.generation ≠ state.toolListGeneration then state.settle refresh own (some list)
  else
    match own.previous with
    | some previous =>
        if toolListChanged previous.tools list.tools then
          { state.settle refresh own (some list) with
            toolsFetchedAt := some now
            cachedTools := some list
            toolsChanged := state.toolsChanged + 1 }
        else { state.settle refresh own (some previous) with toolsFetchedAt := some now }.serve previous
    | none =>
        { state.settle refresh own (some list) with toolsFetchedAt := some now, cachedTools := some list }

def takeRefresh (refresh now : Nat) (state : State) : Option State :=
  match state.refreshes.get? refresh with
  | some own =>
      if own.outcome.isSome then none
      else
        match own.request with
        | none => some (state.settle refresh own none)
        | some request =>
            (state.fetched? request).map fun fetched =>
              match fetched with
              | none => state.settle refresh own none
              | some list => landRefresh refresh now own list state
  | none => none

def State.outcome? (state : State) (refresh : Nat) : Option (Option FetchedList) :=
  (state.refreshes.get? refresh).bind Refresh.outcome

/-- A refresh that is over is not shared any more. -/
def settleRefresh (refresh : Nat) (state : State) : Option State :=
  (state.outcome? refresh).map fun _ =>
    { state with
      refreshInFlight := if state.refreshInFlight = some refresh then none else state.refreshInFlight }

/-- A call that waited for a refresh goes on. Where the refresh failed, it serves a list that it has. -/
def goOn (call now : Nat) (state : State) : Option State :=
  match state.waiting.get? call with
  | some (.revalidation refresh memo _ _) =>
      (state.outcome? refresh).map fun outcome =>
        match outcome with
        | some _ => state.stopWaiting call
        | none => { state.stopWaiting call with toolsFetchedAt := some now }.serve memo
  | some (.gaveUp refresh) =>
      (state.outcome? refresh).map fun outcome =>
        match outcome with
        | some _ => state.stopWaiting call
        | none => { state.stopWaiting call with toolsFetchedAt := some now }
  | some (.maxAge refresh) =>
      (state.outcome? refresh).map fun outcome =>
        match outcome, state.cachedTools with
        | none, some memo => (state.stopWaiting call).serve memo
        | _, _ => state.stopWaiting call
  | _ => none

/-- A revalidation waits for a bounded time only. -/
def giveUp (call : Nat) (state : State) : Option State :=
  match state.waiting.get? call with
  | some (.revalidation refresh memo _ _) => some ((state.serve memo).wait call (.gaveUp refresh))
  | _ => none

inductive Action
  | startBegin
  | handshake
  | cleanupOnStartFailure
  | stop
  | doRestartEnd
  | listChanged
  | answer (request : Nat) (response : Option (List ServerTool))
  | settleFetch (request : Nat)
  | tools (call now : Nat)
  | refreshTools (call : Nat)
  | toolsWithMaxAge (call maxAgeMs now : Nat)
  | takeFetch (call now : Nat)
  | takeRefresh (refresh now : Nat)
  | settleRefresh (refresh : Nat)
  | goOn (call now : Nat)
  | giveUp (call : Nat)

variable (sourceName : String) (remote : Bool)

def step (state : State) : Action → Option State
  | .startBegin => startBegin state
  | .handshake => handshake state
  | .cleanupOnStartFailure => cleanupOnStartFailure state
  | .stop => some (stop state)
  | .doRestartEnd => some (doRestartEnd state)
  | .listChanged => some (listChanged state)
  | .answer request response => answer sourceName request response state
  | .settleFetch request => settleFetch request state
  | .tools call now => if state.Fresh call then some (tools remote call now state) else none
  | .refreshTools call => if state.Fresh call then some (refreshTools call state).2 else none
  | .toolsWithMaxAge call maxAgeMs now =>
      if state.Fresh call then some (toolsWithMaxAge call maxAgeMs now state) else none
  | .takeFetch call now => takeFetch call now state
  | .takeRefresh refresh now => takeRefresh refresh now state
  | .settleRefresh refresh => settleRefresh refresh state
  | .goOn call now => goOn call now state
  | .giveUp call => giveUp call state

def SourceSystem : System State Action where
  initial state := state = {}
  step := step sourceName remote

end NimbleBrain.McpSource.ToolList
