import NimbleBrain.Library.OrderedMap
import NimbleBrain.Library.Transition

/- Requests that spend one refresh token share one exchange. Its answer is replayed for a while. -/

namespace NimbleBrain.Credentials.RefreshFetch

open Library

section Responses

/-- A response of a vendor. A body that breaks off cannot be read. -/
structure Response (Body : Type) where
  status : Nat
  body : Option Body
  deriving DecidableEq

/-- The hash of the host, and what the JSON of a body says. -/
structure Host (Body Digest : Type) where
  sha256 : String → Digest
  sha256_injective : Function.Injective sha256
  errorOf : Body → Option String
  refreshTokenOf : Body → Option String

def isOk (status : Nat) : Bool := 200 ≤ status && status ≤ 299

/-- The constructor of a response refuses a status out of range, and a body beside a status that has none. -/
def isConstructible (status : Nat) : Bool := 200 ≤ status && status ≤ 599 && status ∉ [204, 205, 304]

def permanentRefreshErrors : List String := ["invalid_grant", "invalid_client", "unauthorized_client"]

def transientRefreshErrors : List String := ["server_error", "temporarily_unavailable", "too_many_requests"]

def isTransientRefreshFailure (status : Nat) (code : Option String) : Bool :=
  if 500 ≤ status then true
  else if status = 429 || status = 408 then true
  else if status = 400 || status = 401 || status = 403 then
    match code with
    | none => false
    | some code => if code = "" || code ∈ permanentRefreshErrors then false else code ∈ transientRefreshErrors
  else false

variable {Body Digest : Type} (host : Host Body Digest)

/-- A clone of the response is read, so that a body that breaks off has no code. -/
def isTransientRefreshResponse (res : Response Body) : Bool :=
  if isOk res.status then false else isTransientRefreshFailure res.status (res.body.bind host.errorOf)

/-- How a POST ends. -/
inductive Outcome (Body : Type) where
  | response (res : Response Body)
  | network
  deriving DecidableEq

def Outcome.isTransient : Outcome Body → Bool
  | .response res => isTransientRefreshResponse host res
  | .network => true

end Responses

/-- What an exchange settles with. -/
inductive Result (Body : Type) where
  | snapshot (status : Nat) (body : Body)
  | failed
  deriving DecidableEq

/-- An exchange that settles has its callback run in a later job. -/
inductive Phase (Body : Type) where
  | posting
  | sleeping
  | reading (res : Response Body)
  | settled (result : Result Body) (time : Nat)
  | stamped (result : Result Body) (time : Nat)
  deriving DecidableEq

/-- One exchange, with the POSTs that it sent and how they ended. -/
structure Exchange (Body : Type) where
  url : String
  token : String
  maxAttempts : Nat
  posts : Nat
  outcomes : List (Outcome Body) := []
  phase : Phase Body
  deriving DecidableEq

/-- What an exchange has settled with, and when. -/
def Exchange.result? {Body : Type} (exchange : Exchange Body) : Option (Result Body × Nat) :=
  match exchange.phase with
  | .settled result time => some (result, time)
  | .stamped result time => some (result, time)
  | _ => none

structure Entry where
  run : Nat
  expiresAt : Option Nat := none
  deriving DecidableEq

structure Issued (Digest : Type) where
  spent : Digest
  expiresAt : Nat
  deriving DecidableEq

structure Refusal where
  error : String
  expiresAt : Nat
  deriving DecidableEq

/-- What a caller gets. -/
inductive Answer (Body : Type) where
  | response (status : Nat) (body : Body)
  | error
  deriving DecidableEq

/-- A request that waits for an exchange. `found` is what this had settled with when the request came. -/
structure Request (Body : Type) where
  run : Nat
  found : Option (Result Body) := none
  answer : Option (Answer Body) := none
  deriving DecidableEq

/-- A POST that was sent, by the exchange it belongs to. -/
structure Post where
  run : Nat
  url : String
  token : String
  deriving DecidableEq

structure State (Body Digest : Type) where
  now : Nat := 0
  runs : List (Exchange Body) := []
  exchanges : OrderedMap Digest Entry := ∅
  issuedBy : OrderedMap Digest (Issued Digest) := ∅
  refused : OrderedMap Digest Refusal := ∅
  requests : List (Request Body) := []
  posts : List Post := []

/-- A form is given by its fields. A body in another form has none. -/
inductive Action (Body : Type) where
  | request (maxAttempts : Nat) (url : String) (form : Option (List (String × String)))
  | answer (run : Nat) (outcome : Outcome Body)
  | wake (run : Nat)
  | read (run : Nat)
  | react (run : Nat)
  | deliver (request : Nat)
  | tick
  deriving DecidableEq

variable {Body Digest : Type} [DecidableEq Digest] (host : Host Body Digest)

def refreshReplayMs : Nat := 60000

def settledRetentionMs : Nat := 2 * refreshReplayMs

/-- The refresh token that a request spends, or none for any other request. -/
def refreshGrantToken (form : Option (List (String × String))) : Option String :=
  form.bind fun fields =>
    if fields.lookup "grant_type" = some "refresh_token" then some ((fields.lookup "refresh_token").getD "") else none

def exchangeKey (url refreshToken : String) : Digest := host.sha256 (url ++ "\n" ++ refreshToken)

def refreshTokenHash (refreshToken : String) : Digest := host.sha256 refreshToken

def spentRefreshTokenHash (state : State Body Digest) (refreshToken : String) : Option Digest :=
  (state.issuedBy.get? (refreshTokenHash host refreshToken)).map Issued.spent

def refreshTokenRefusal (state : State Body Digest) (refreshToken : String) : Option String :=
  (state.refused.get? (refreshTokenHash host refreshToken)).map Refusal.error

/-- The token that a successful exchange leaves the connection with. -/
def issuedToken (spent : String) (body : Body) : String :=
  match host.refreshTokenOf body with
  | some token => if token = "" then spent else token
  | none => spent

def State.sweepExchanges (state : State Body Digest) : State Body Digest :=
  { state with exchanges := state.exchanges.filterMap fun _ entry =>
      if entry.expiresAt.any (· ≤ state.now) then none else some entry }

def State.sweepSettled (state : State Body Digest) : State Body Digest :=
  { state with
    issuedBy := state.issuedBy.filterMap fun _ entry => if entry.expiresAt ≤ state.now then none else some entry
    refused := state.refused.filterMap fun _ entry => if entry.expiresAt ≤ state.now then none else some entry }

def State.put (state : State Body Digest) (run : Nat) (exchange : Exchange Body) : State Body Digest :=
  { state with runs := state.runs.set run exchange }

/-- An exchange that may send no POST fails at once. -/
def State.start (state : State Body Digest) (maxAttempts : Nat) (url token : String) : State Body Digest :=
  let run := state.runs.length
  let exchange : Exchange Body :=
    if 0 < maxAttempts then ⟨url, token, maxAttempts, 1, [], .posting⟩
    else ⟨url, token, maxAttempts, 0, [], .settled .failed state.now⟩
  { state with
    runs := state.runs ++ [exchange]
    exchanges := state.exchanges.set (exchangeKey host url token) ⟨run, none⟩
    requests := state.requests ++ [{ run := run }]
    posts := if 0 < maxAttempts then state.posts ++ [⟨run, url, token⟩] else state.posts }

/-- The exchange in flight or lately successful is shared. -/
def spendOnce (state : State Body Digest) (maxAttempts : Nat) (url token : String) : State Body Digest :=
  let swept := state.sweepExchanges.sweepSettled
  match swept.exchanges.get? (exchangeKey host url token) with
  | some existing =>
      let found := ((swept.runs[existing.run]?).bind Exchange.result?).map Prod.fst
      { swept with requests := swept.requests ++ [{ run := existing.run, found := found }] }
  | none => swept.start host maxAttempts url token

/-- The last attempt gives its response back. Another one that failed for now is followed by a retry. -/
def runRefreshAttempt (exchange : Exchange Body) (now : Nat) (outcome : Outcome Body) : Exchange Body :=
  let isLast := exchange.maxAttempts ≤ exchange.posts
  let phase : Phase Body :=
    match outcome with
    | .response res => if !isLast && isTransientRefreshResponse host res then .sleeping else .reading res
    | .network => if isLast then .settled .failed now else .sleeping
  { exchange with outcomes := exchange.outcomes ++ [outcome], phase := phase }

def recordSettled (state : State Body Digest) (spent : String) (status : Nat) (body : Body) : State Body Digest :=
  let expiresAt := state.now + settledRetentionMs
  let issued : Issued Digest := ⟨refreshTokenHash host spent, expiresAt⟩
  let refusal : Refusal := ⟨(host.errorOf body).getD ("http_" ++ toString status), expiresAt⟩
  if isOk status then
    { state with issuedBy := state.issuedBy.set (refreshTokenHash host (issuedToken host spent body)) issued }
  else if isTransientRefreshFailure status (host.errorOf body) then state
  else { state with refused := state.refused.set (refreshTokenHash host spent) refusal }

/-- The entry of an exchange, as long as it is the one of its key. -/
def State.holds (state : State Body Digest) (run : Nat) (exchange : Exchange Body) : Bool :=
  (state.exchanges.get? (exchangeKey host exchange.url exchange.token)).any (·.run = run)

def State.drop (state : State Body Digest) (run : Nat) (exchange : Exchange Body) : State Body Digest :=
  if state.holds host run exchange then
    { state with exchanges := state.exchanges.delete (exchangeKey host exchange.url exchange.token) }
  else state

def State.expire (state : State Body Digest) (run : Nat) (exchange : Exchange Body) : State Body Digest :=
  let entry : Entry := ⟨run, some (state.now + refreshReplayMs)⟩
  if state.holds host run exchange then
    { state with exchanges := state.exchanges.set (exchangeKey host exchange.url exchange.token) entry }
  else state

/-- The callback makes a response to see whether it is one of success. It throws where that cannot be made. -/
def onSettled (state : State Body Digest) (run : Nat) (exchange : Exchange Body) : Result Body → State Body Digest
  | .failed => state.drop host run exchange
  | .snapshot status _ =>
      if !isConstructible status then state
      else if isOk status then state.expire host run exchange
      else state.drop host run exchange

def answerOf : Result Body → Answer Body
  | .failed => .error
  | .snapshot status body => if isConstructible status then .response status body else .error

def step (state : State Body Digest) : Action Body → Option (State Body Digest)
  | .request maxAttempts url form =>
      match refreshGrantToken form with
      | none => some state
      | some token => some (spendOnce host state maxAttempts url token)
  | .answer run outcome =>
      match state.runs[run]? with
      | none => none
      | some exchange =>
          match exchange.phase with
          | .posting => some (state.put run (runRefreshAttempt host exchange state.now outcome))
          | _ => none
  | .wake run =>
      match state.runs[run]? with
      | none => none
      | some exchange =>
          match exchange.phase with
          | .sleeping =>
              some { state.put run { exchange with posts := exchange.posts + 1, phase := .posting } with
                posts := state.posts ++ [⟨run, exchange.url, exchange.token⟩] }
          | _ => none
  | .read run =>
      match state.runs[run]? with
      | none => none
      | some exchange =>
          match exchange.phase with
          | .reading res =>
              match res.body with
              | none => some (state.put run { exchange with phase := .settled .failed state.now })
              | some body =>
                  some ((recordSettled host state exchange.token res.status body).put run
                    { exchange with phase := .settled (.snapshot res.status body) state.now })
          | _ => none
  | .react run =>
      match state.runs[run]? with
      | none => none
      | some exchange =>
          match exchange.phase with
          | .settled result time =>
              some ((onSettled host state run exchange result).put run { exchange with phase := .stamped result time })
          | _ => none
  | .deliver request =>
      match state.requests[request]? with
      | none => none
      | some waiting =>
          match waiting.answer, (state.runs[waiting.run]?).map Exchange.phase with
          | none, some (.stamped result _) =>
              some { state with requests := state.requests.set request { waiting with answer := some (answerOf result) } }
          | _, _ => none
  | .tick => some { state with now := state.now + 1 }

def system : System (State Body Digest) (Action Body) where
  initial state := state = {}
  step := step host

end NimbleBrain.Credentials.RefreshFetch
