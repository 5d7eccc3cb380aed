import NimbleBrain.Library.Pattern
import NimbleBrain.Conversation.Text

/- A thrown value is sorted into a class of connection failure. A policy decides what a class asks for. -/

namespace NimbleBrain.McpSource.Recovery

open Library

/-- These codes of the kit are read. Another one is a text. -/
inductive SdkErrorCode
  | requestTimeout
  | connectionClosed
  | clientHttpAuthentication
  | other (text : String)
  deriving DecidableEq

inductive Code
  | number (value : Int)
  | sdk (code : SdkErrorCode)
  deriving DecidableEq

/-- The constructor of an error. A thrown object may be no error at all. -/
inductive ErrorClass
  | plainObject
  | error
  | sdkHttpError (status : Option Int)
  | protocolError
  | taskWireError
  | unauthorizedError
  | backgroundReauthRequiredError
  deriving DecidableEq

/-- What is neither a number nor a text of the kit is no code. What is no text is no message. -/
structure ErrorObject where
  class_ : ErrorClass
  code : Option Code
  message : Option String
  shown : String
  deriving DecidableEq

inductive Thrown
  | value (shown : String)
  | object (err : ErrorObject)
  deriving DecidableEq

/-- The text a thrown value is turned into. -/
def Thrown.shown : Thrown → String
  | value shown => shown
  | object err => err.shown

def errMessage : Thrown → String
  | .value shown => shown
  | .object err => if err.class_ = .plainObject then err.shown else err.message.getD ""

def Thrown.isProtocolError : Thrown → Bool
  | value _ => false
  | object err => err.class_ = .protocolError

def Thrown.isTaskWireError : Thrown → Bool
  | value _ => false
  | object err => err.class_ = .taskWireError

def ErrorObject.hasNumber (err : ErrorObject) (value : Int) : Bool := err.code = some (.number value)

/-- Only a failure of HTTP carries its status beside the code. -/
def ErrorObject.hasStatus (err : ErrorObject) (value : Int) : Bool :=
  match err.class_ with
  | .sdkHttpError status => status = some value
  | _ => err.hasNumber value

section Texts

open Pattern

def sessionNotFound : Pattern := spelled "session not found"

def rateLimitText : Pattern :=
  anyOf [
    inOrder [wordEdge, spelled "rate", optional (oneOf " _-"), spelled "limit"],
    inOrder [wordEdge, spelled "throttl", anyOf [spelled "e", spelled "ed", spelled "ing"], wordEdge],
    inOrder [wordEdge, spelled "too many requests", wordEdge],
    inOrder [wordEdge, anyOf [spelled "http", inOrder [spelled "status", optional (spelled "code")], spelled "code"],
      many (fun c => c ∈ "\"' :=".toList), spelled "429", wordEdge]]

def gatewayText : Pattern :=
  anyOf [
    inOrder [spelled "bad", oneOf " _", spelled "gateway"],
    spelled "service unavailable",
    inOrder [spelled "gateway time", optional (spelled "-"), spelled "out"]]

def tornText : Pattern :=
  anyOf [
    spelled "connection closed",
    spelled "fetch failed",
    inOrder [spelled "socket hang", optional (spelled " "), spelled "up"],
    spelled "terminated",
    spelled "network error",
    inOrder [spelled "econnre", anyOf [spelled "set", spelled "fused"]],
    inOrder [spelled "time", optional (spelled "d"), optional (spelled " "), spelled "out"],
    spelled "epipe",
    spelled "broken pipe"]

def resourceMissText : Pattern :=
  anyOf [spelled "resource not found", spelled "unknown resource", spelled "no such resource"]

end Texts

inductive ConnectionFailure
  | sessionLost
  | transient
  | transportDead
  | authLost
  | rateLimited
  | timeout
  | unknown
  | none
  deriving DecidableEq

def isMcpResourceMiss : Thrown → Bool
  | .value _ => false
  | .object err =>
      err.hasNumber (-32002) || err.hasNumber (-32601) || err.hasNumber (-32602) ||
        err.message.any resourceMissText.foundIn

def isAuthLost (err : ErrorObject) : Bool :=
  err.class_ = .unauthorizedError || err.class_ = .backgroundReauthRequiredError ||
    err.code = some (.sdk .clientHttpAuthentication)

def isTornTransport (err : ErrorObject) (message : String) : Bool :=
  err.code = some (.sdk .connectionClosed) || err.hasNumber (-32000) || tornText.foundIn message

/-- The server answered with one of the standard errors. -/
def isStandardAnswer (err : ErrorObject) : Bool :=
  err.hasNumber (-32700) || err.hasNumber (-32600) || err.hasNumber (-32601) || err.hasNumber (-32602) ||
    err.hasNumber (-32603) || err.hasNumber (-32002)

/-- The tests overlap. The first that passes decides. -/
def classifyConnectionFailure : Thrown → ConnectionFailure
  | .value _ => .none
  | .object err =>
      let message := err.message.getD ""
      if sessionNotFound.foundIn message then .sessionLost
      else if err.code = some (.sdk .requestTimeout) || err.hasNumber (-32001) then .timeout
      else if err.hasStatus 429 || rateLimitText.foundIn message then .rateLimited
      else if err.hasStatus 502 || err.hasStatus 503 || err.hasStatus 504 || gatewayText.foundIn message then
        .transient
      else if isAuthLost err then .authLost
      else if isStandardAnswer err then .none
      else if isTornTransport err message then .transportDead
      else .unknown

def isConnectionDownClass (kind : ConnectionFailure) : Bool :=
  kind = .sessionLost || kind = .transient || kind = .transportDead

def infraFailureClasses : List ConnectionFailure := [.sessionLost, .transient, .transportDead, .rateLimited]

/-- The server asks the client to change its request. -/
def isClientActionable : Thrown → Bool
  | .value _ => false
  | .object err => err.class_ = .protocolError && err.hasNumber (-32021)

inductive RecoveryAction
  | recover
  | reauth
  | surface
  deriving DecidableEq

/-- The caller has already turned `unknown` and `none` into one of the other classes or surfaced them. -/
def policyFor (kind : ConnectionFailure) (idempotent hasReauthableProvider : Bool) : RecoveryAction :=
  if kind = .authLost then if hasReauthableProvider then .reauth else .surface
  else if kind = .timeout then .surface
  else if kind = .rateLimited then .surface
  else if idempotent then .recover else .surface

/-- A failure of one of these classes is an answer or has no remedy in a restart. -/
def ConnectionFailure.settles (kind : ConnectionFailure) : Bool :=
  kind = .timeout || kind = .rateLimited || kind = .authLost || kind = .none

/-- Only an idempotent call is tried again, and never after a failure that settles it. -/
theorem policyFor_recover {kind : ConnectionFailure} {idempotent hasReauthableProvider : Bool}
    (decided : policyFor kind idempotent hasReauthableProvider = .recover) (answered : kind ≠ .none) :
    idempotent = true ∧ kind.settles = false := by
  cases kind <;> cases idempotent <;> cases hasReauthableProvider <;> simp_all [policyFor, ConnectionFailure.settles]

end NimbleBrain.McpSource.Recovery

/- A call that throws goes through one recovery. It surfaces the failure, or restarts the source and calls again. -/

namespace NimbleBrain.McpSource.Recovery

open Library

section Results

inductive ContentBlock
  | text (text : String)
  | other (json : String)
  deriving DecidableEq

/-- The keys and values of `_meta`. A value is its JSON text. -/
abbrev Meta := List (String × String)

/-- The structured content of a server is its JSON text. The host writes fields of its own. -/
inductive StructuredContent
  | json (text : String)
  | fields (entries : List (String × String))
  deriving DecidableEq

/-- An answer that requires input is its JSON text. -/
structure ToolResult where
  content : List ContentBlock
  isError : Bool
  structuredContent : Option StructuredContent := none
  meta_ : Option Meta := none
  inputRequired : Option String := none
  deriving DecidableEq

def textContent (text : String) : List ContentBlock := [.text text]

structure CallToolResult where
  content : List ContentBlock
  structuredContent : Option StructuredContent := none
  isError : Bool := false
  meta_ : Option Meta := none
  deriving DecidableEq

/-- What the server answers a call with. -/
inductive WireResult
  | inputRequired (requests : String)
  | complete (result : CallToolResult)
  deriving DecidableEq

def infraErrorMetaKey : String := "ai.nimblebrain/infra-error"
def nonAdvancingMetaKey : String := "ai.nimblebrain/non-advancing"
def skillActivatedMetaKey : String := "ai.nimblebrain/skill-activated"
def skillSuppressionMetaKey : String := "ai.nimblebrain/skill-suppression"

def infraErrorMeta : Meta := [(infraErrorMetaKey, "true")]

def dropKey (key : String) (meta_ : Meta) : Meta := meta_.filter fun entry => entry.1 ≠ key

/-- Only a source in the process may set the keys other than the marker. -/
def hostOwnedMetaStripped (meta_ : Option Meta) (inProcess : Bool) : Option Meta :=
  meta_.map fun meta_ =>
    let out := dropKey infraErrorMetaKey meta_
    if inProcess then out
    else dropKey skillSuppressionMetaKey (dropKey skillActivatedMetaKey (dropKey nonAdvancingMetaKey out))

/-- The result carries the infrastructure marker. -/
def ToolResult.marked (result : ToolResult) : Bool :=
  result.meta_.any fun meta_ => meta_.any fun entry => entry.1 = infraErrorMetaKey

open Pattern in
def liePatterns : List Pattern :=
  let digits := inOrder [one Char.isDigit, one Char.isDigit, one Char.isDigit]
  let gap := one fun c => c = ':' || Conversation.isSpace c
  [inOrder [lineStart, exactly "Ran into an error", gap],
    exactly "AxiosError",
    inOrder [lineStart, exactly "Request failed with status code ", digits],
    inOrder [lineStart, spelled "error", gap, many (!isLineEnd ·), spelled "status code ", digits]]

def ContentBlock.text? : ContentBlock → Option String
  | .text words => some words
  | .other _ => none

def promoteHiddenErrors (result : ToolResult) : ToolResult :=
  if result.isError then result
  else
    let text := "\n".intercalate (result.content.filterMap ContentBlock.text?)
    if liePatterns.any (·.foundIn text) then { result with isError := true } else result

end Results

inductive Mode
  | remote (authProvider : Bool)
  | inProcess
  deriving DecidableEq

inductive ProtocolEra
  | legacy
  | modern
  deriving DecidableEq

inductive TaskSupport
  | optional
  | required
  | forbidden
  deriving DecidableEq

structure Tool where
  name : String
  taskSupport : Option TaskSupport := none
  uiResourceUri : Option String := none
  deriving DecidableEq

/-- The source as a call finds it once it has a client. -/
structure Source where
  name : String
  eventSourceName : String
  mode : Mode
  protocolEra : ProtocolEra
  serverExtensions : List String
  cachedTools : Option (List Tool)

def tasksExtensionId : String := "io.modelcontextprotocol/tasks"

def findTool (source : Source) (tools : Option (List Tool)) (bareToolName : String) : Option Tool :=
  tools.bind fun tools => tools.find? fun tool => tool.name = source.name ++ "__" ++ bareToolName

def Source.hasReauthableProvider (source : Source) : Bool := source.mode = .remote true

/-- These steps read only the call and the tool. -/
structure Host where
  prepareDispatchArgs : Option Tool → String → String
  carries : ContentBlock → StructuredContent → Bool
  stringify : StructuredContent → String
  brandName : String

structure ToolExecuteOptions where
  inline : Bool := false
  caller : Option String := none

/-- The input, the arguments, the caller's side and `_meta` are their JSON texts. -/
structure Call where
  toolName : String
  input : String
  options : ToolExecuteOptions := {}

inductive Request
  | callTool (toolName dispatchArgs : String) (caller meta_ : Option String)
  | callToolStream (toolName dispatchArgs : String) (meta_ : Option String)
  | readResource (uri : String)
  deriving DecidableEq

/-- An attempt sends at most one request. -/
structure Attempt (Answer : Type) where
  sent : Option Request
  outcome : Except Thrown Answer

/-- `crashed` is the mark `emitSourceCrashed` is asked for. -/
inductive Event
  | sent (request : Request)
  | threw (err : Thrown)
  | slept (ms : Nat)
  | restarted (came : Bool)
  | authLost
  | crashed (error : String)
  | cancelled (toolName : String)
  deriving DecidableEq

def Attempt.events {Answer : Type} (attempt : Attempt Answer) : List Event :=
  (attempt.sent.map Event.sent).toList ++
    match attempt.outcome with
    | .ok _ => []
    | .error err => [.threw err]

/-- The terminal forms of one kind of call. -/
structure RecoveryShape (Answer : Type) where
  idempotent : Bool
  recoverUnknown : Bool
  delays : List Nat
  surface : Thrown → Answer
  reauth : Thrown → Answer
  miss : Option (Thrown → Answer) := none

variable {Answer : Type}

def RecoveryShape.kind (shape : RecoveryShape Answer) (err : Thrown) : ConnectionFailure :=
  let classified := classifyConnectionFailure err
  if classified = .unknown then if shape.recoverUnknown then .transportDead else .none else classified

def RecoveryShape.missed (shape : RecoveryShape Answer) (err : Thrown) : Option Answer :=
  if isMcpResourceMiss err then shape.miss.map (· err) else none

/-- No outcome asks for a restart and another try. -/
def recoveryOutcome (source : Source) (shape : RecoveryShape Answer) (err : Thrown) :
    Option (List Event × Answer) :=
  match shape.missed err with
  | some value => some ([], value)
  | none =>
      let kind := shape.kind err
      if kind = .none then some ([], shape.surface err)
      else match policyFor kind shape.idempotent source.hasReauthableProvider with
        | .reauth => some ([.authLost], shape.reauth err)
        | .surface => some (if isConnectionDownClass kind then [.crashed err.shown] else [], shape.surface err)
        | .recover => none

def pause (delay : Nat) : List Event := if 0 < delay then [.slept delay] else []

/-- Each delay of the schedule allows one restart. The outcome of each restart and each try is given. -/
def recoverAttempts (source : Source) (shape : RecoveryShape Answer) (restarts : Nat → Bool)
    (op : Nat → Attempt Answer) (firstErr : Thrown) : List Nat → Nat → Thrown → List Event × Answer
  | [], _, err =>
      match recoveryOutcome source shape err with
      | some outcome => outcome
      | none => ([.crashed ("recovery exhausted: " ++ errMessage firstErr)], shape.surface err)
  | delay :: rest, attempt, err =>
      match recoveryOutcome source shape err with
      | some outcome => outcome
      | none =>
          let next := recoverAttempts source shape restarts op firstErr rest (attempt + 1)
          if restarts attempt then
            let tried := op attempt
            match tried.outcome with
            | .ok value => (pause delay ++ .restarted true :: tried.events, value)
            | .error retryErr =>
                let later := next retryErr
                (pause delay ++ .restarted true :: tried.events ++ later.1, later.2)
          else
            let later := next err
            (pause delay ++ .restarted false :: later.1, later.2)

/-- The tests alone override the schedule of a shape. -/
def recover (source : Source) (shape : RecoveryShape Answer) (restarts : Nat → Bool) (op : Nat → Attempt Answer)
    (firstErr : Thrown) : List Event × Answer :=
  recoverAttempts source shape restarts op firstErr shape.delays 0 firstErr

def toolCallRecoveryDelays : List Nat := [0]

def sessionRecoveryDelaysMs : List Nat := [0, 500, 2000]

/-- What the call meets: its client, the two ways to wait for one, and the outcome of each dispatch and restart. -/
structure World where
  client : Bool
  reconnectOnDemand : Bool
  awaitRestartingSource : Bool
  resourceArgumentsMeta : Except Thrown (Option String)
  aborted : Bool
  answers : Nat → Option (Except Thrown WireResult)
  startToolAsTask : Option (Except Thrown CallToolResult)
  notStarted : Thrown
  cachedTools : Nat → Option (List Tool)
  restarts : Nat → Bool

def taskRequiredRefusal (source : Source) (host : Host) (toolName : String) (taskSupport : Option TaskSupport) :
    Option String :=
  if source.protocolEra ≠ .legacy || taskSupport ≠ some .required then none
  else some ("Tool \"" ++ toolName ++ "\" on " ++ source.name ++ " cannot be called: it requires a task " ++
    "(execution.taskSupport \"required\"), and this server offers tasks only through the " ++
    "MCP 2025-11-25 tasks utility, which " ++ host.brandName ++ " does not speak (see ADR-0046). " ++
    "It can be called once the server supports the 2026-07-28 tasks extension (" ++ tasksExtensionId ++ ").")

def isTaskAugmented (source : Source) (call : Call) : Bool :=
  !call.options.inline && source.protocolEra = .modern && tasksExtensionId ∈ source.serverExtensions

def withStructuredContentText (host : Host) (result : ToolResult) : ToolResult :=
  match result.structuredContent with
  | none => result
  | some structured =>
      if result.isError || result.content.any (host.carries · structured) then result
      else { result with content := result.content ++ [.text (host.stringify structured)] }

/-- A tool with a view of its own shows the structured content there. -/
def forAgent (source : Source) (host : Host) (tools : Option (List Tool)) (toolName : String)
    (result : ToolResult) : ToolResult :=
  if source.mode = .inProcess || ((findTool source tools toolName).bind Tool.uiResourceUri).isSome then result
  else withStructuredContentText host result

def toToolResult (source : Source) (result : CallToolResult) : ToolResult :=
  promoteHiddenErrors {
    content := result.content
    isError := result.isError
    structuredContent := result.structuredContent
    meta_ := hostOwnedMetaStripped result.meta_ (source.mode = .inProcess) }

/-- Without a client nothing is sent and the result is empty. -/
def callToolInline (source : Source) (host : Host) (call : Call) (dispatchArgs : String) (meta_ : Option String)
    (tools : Option (List Tool)) : Option (Except Thrown WireResult) → Attempt ToolResult
  | none => ⟨none, .ok { content := [], isError := true }⟩
  | some answer =>
      ⟨some (.callTool call.toolName dispatchArgs call.options.caller meta_), answer.map fun result =>
        match result with
        | .inputRequired requests => { content := [], isError := false, inputRequired := some requests }
        | .complete result =>
            let promoted := toToolResult source result
            if call.options.caller.isSome then promoted else forAgent source host tools call.toolName promoted⟩

/-- A task that cannot be started sends nothing. -/
def callToolAsTask (source : Source) (host : Host) (call : Call) (dispatchArgs : String) (meta_ : Option String)
    (world : World) : Attempt ToolResult :=
  match world.startToolAsTask with
  | none => ⟨none, .error world.notStarted⟩
  | some outcome =>
      ⟨some (.callToolStream call.toolName dispatchArgs meta_), outcome.map fun result =>
        forAgent source host (world.cachedTools 0) call.toolName (toToolResult source result)⟩

/-- The marker needs a class of the list and a throw that is no answer of the server. -/
def earnsMarker (err : Thrown) : Bool :=
  classifyConnectionFailure err ∈ infraFailureClasses && !err.isProtocolError && !err.isTaskWireError

def surfaceCall (source : Source) (task : Bool) (err : Thrown) : ToolResult :=
  let marker := if earnsMarker err then some infraErrorMeta else none
  if classifyConnectionFailure err = .rateLimited then
    { content := textContent <|
        if task then
          "Task failed because " ++ source.name ++ " is rate limited, and cannot be auto-retried — " ++
            "it may have already started server-side. Do not re-issue it; check its status first. " ++
            "Underlying error: " ++ errMessage err
        else
          source.name ++ " is rate limited — too many calls at once, and this call was refused before it ran. " ++
            "The connector is healthy. Retry in a few seconds with FEWER calls in parallel (a handful at a time, " ++
            "not a whole batch). Underlying error: " ++ errMessage err
      isError := true
      structuredContent := some (.fields [("reason", "rate_limited"), ("source", source.eventSourceName)])
      meta_ := marker }
  else
    { content := textContent <|
        if task then "Task failed and cannot be auto-retried: " ++ errMessage err
        else source.name ++ " call failed: " ++ errMessage err
      isError := true
      meta_ := marker }

def reauthCall (source : Source) : ToolResult where
  content := textContent
    (source.name ++ " needs to be reconnected — its authorization has expired. Open the connector and click Reconnect.")
  isError := true
  structuredContent := some
    (.fields [("error", "auth_required"), ("reason", "reauth_required"), ("source", source.eventSourceName)])

/-- The shape of a call. Only a call that spawned no task may be sent again. -/
def callShape (source : Source) (task : Bool) : RecoveryShape ToolResult where
  idempotent := !task
  recoverUnknown := true
  delays := toolCallRecoveryDelays
  surface := surfaceCall source task
  reauth := fun _ => reauthCall source

def handleExecuteError (source : Source) (host : Host) (call : Call) (dispatchArgs : String) (meta_ : Option String)
    (task : Bool) (world : World) (err : Thrown) : List Event × ToolResult :=
  if world.aborted then
    (if task then [.cancelled call.toolName] else [], { content := textContent "Task cancelled", isError := true })
  else
    recover source (callShape source task) world.restarts
      (fun attempt => callToolInline source host call dispatchArgs meta_ (world.cachedTools (attempt + 1))
        (world.answers (attempt + 1))) err

/-- The resources of the arguments are read first. A failed read is a failed dispatch that sent nothing. -/
def dispatch (source : Source) (host : Host) (call : Call) (dispatchArgs : String) (world : World) :
    Attempt ToolResult :=
  match world.resourceArgumentsMeta with
  | .error err => ⟨none, .error err⟩
  | .ok meta_ =>
      if isTaskAugmented source call then callToolAsTask source host call dispatchArgs meta_ world
      else callToolInline source host call dispatchArgs meta_ (world.cachedTools 0) (world.answers 0)

def execute (source : Source) (host : Host) (call : Call) (world : World) : List Event × Except Thrown ToolResult :=
  if !world.client && !world.reconnectOnDemand && !world.awaitRestartingSource then
    ([], .ok { content := textContent ("McpSource \"" ++ source.name ++ "\" not started"), isError := true })
  else
    let tool := findTool source source.cachedTools call.toolName
    match taskRequiredRefusal source host call.toolName (tool.bind Tool.taskSupport) with
    | some refusal => ([], .ok { content := textContent refusal, isError := true })
    | none =>
        let dispatchArgs := host.prepareDispatchArgs tool call.input
        let first := dispatch source host call dispatchArgs world
        match first.outcome with
        | .ok result => (first.events, .ok result)
        | .error err =>
            if call.options.caller.isSome && isClientActionable err then (first.events, .error err)
            else
              let handled := handleExecuteError source host call dispatchArgs (world.resourceArgumentsMeta.toOption.join)
                (isTaskAugmented source call) world err
              (first.events ++ handled.1, .ok handled.2)

variable {Resource Data : Type}

/-- What a read meets. Without an answer there is no client. A projection may throw. -/
structure Reading (Resource Data : Type) where
  client : Bool
  reconnect : Bool
  reconnectOnDemand : Bool
  answers : Nat → Option (Except Thrown Resource)
  project : Resource → Except Thrown (Option Data)
  restarts : Nat → Bool

def readShape : RecoveryShape (Option Data) where
  idempotent := true
  recoverUnknown := false
  delays := sessionRecoveryDelaysMs
  surface := fun _ => none
  reauth := fun _ => none
  miss := some fun _ => none

/-- A restart that brings no client throws the first error again. -/
def readOnce (reading : Reading Resource Data) (uri : String) (firstErr : Thrown) (attempt : Nat) :
    Attempt (Option Data) :=
  match reading.answers attempt with
  | none => ⟨none, .error firstErr⟩
  | some answer => ⟨some (.readResource uri), answer.bind reading.project⟩

/-- A result that is not there or cannot be had is `none`. -/
def readResourceAs (source : Source) (reading : Reading Resource Data) (uri : String) : List Event × Option Data :=
  if !reading.client && !(reading.reconnect && reading.reconnectOnDemand) then ([], none)
  else match reading.answers 0 with
    | none => ([], none)
    | some answer =>
        let first : Attempt (Option Data) := ⟨some (.readResource uri), answer.bind reading.project⟩
        match first.outcome with
        | .ok data => (first.events, data)
        | .error err =>
            let recovered := recover source readShape reading.restarts
              (fun attempt => readOnce reading uri err (attempt + 1)) err
            (first.events ++ recovered.1, recovered.2)

end NimbleBrain.McpSource.Recovery
