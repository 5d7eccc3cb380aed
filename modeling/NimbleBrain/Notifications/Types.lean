import Mathlib.Algebra.Ring.Nat
import Mathlib.Tactic.Common

/- A connector writes envelopes. The workspace stamps them and keeps them as notifications. -/

namespace NimbleBrain.Notifications

/-- A reading of the wall clock in milliseconds. -/
abbrev Moment := Int

instance lawfulBEq_texts : LawfulBEq (String × String) := inferInstance

inductive NotificationLevel where
  | info | attention | urgent
  deriving DecidableEq

/-- The place of a level in the order of the levels. -/
def NotificationLevel.rank : NotificationLevel → Nat
  | .info => 0
  | .attention => 1
  | .urgent => 2

def defaultNotificationLevel : NotificationLevel := .info

/-- The block of an envelope that this host reads. A level that is none of the known ones is absent. -/
structure PresentationBlock where
  subject : Option String := none
  level : Option NotificationLevel := none
  title : Option String := none
  body : Option String := none
  link : Option String := none
  deriving DecidableEq

structure NotificationPresentation where
  subject : Option String
  level : NotificationLevel
  title : String
  body : Option String
  link : Option String
  deriving DecidableEq

/-- An event as a server wrote it. The time is a text. -/
structure NotificationEnvelope where
  eventId : String
  name : String
  timestamp : String
  cursor : Option String := none
  block : Option PresentationBlock := none
  deriving DecidableEq

inductive DeliveryOutcome where
  | pending | delivered | deferred | denied | skipped | failed
  deriving DecidableEq

inductive DeliveryTargetKind where
  | tool | agent
  deriving DecidableEq

/-- How one target of a route fared. A row that was read back may lack its place. -/
structure DeliveryRecord where
  routeId : String
  target : String
  index : Option Nat
  kind : DeliveryTargetKind
  attempts : Nat
  lastError : Option String := none
  outcome : DeliveryOutcome
  classification : Option String := none
  updatedAt : Moment
  nextAttemptAt : Option Moment := none
  runId : Option String := none
  deriving DecidableEq

/-- Two rows of one place are the same row. -/
def DeliveryRecord.slot (row : DeliveryRecord) : String × String × Nat :=
  (row.routeId, row.target, row.index.getD 0)

/-- An item of the inbox. -/
structure Notification where
  envelope : NotificationEnvelope
  source : String
  workspaceId : String
  receivedAt : Moment
  seq : Nat
  effectiveLevel : Option NotificationLevel := none
  readAt : Option Moment := none
  readBy : Option String := none
  deliveries : List DeliveryRecord := []
  deriving DecidableEq

/-- What two items of one event share. -/
def Notification.pair (item : Notification) : String × String := (item.source, item.envelope.eventId)

def notificationId (item : Notification) : String := item.source ++ ":" ++ item.envelope.eventId

/-- A text that is empty counts as absent. -/
def nonEmpty (text : Option String) : Option String := text.filter (· ≠ "")

def notificationPresentation (envelope : NotificationEnvelope) : NotificationPresentation where
  subject := nonEmpty (envelope.block.bind PresentationBlock.subject)
  level := (envelope.block.bind PresentationBlock.level).getD defaultNotificationLevel
  title := (nonEmpty (envelope.block.bind PresentationBlock.title)).getD envelope.name
  body := nonEmpty (envelope.block.bind PresentationBlock.body)
  link := nonEmpty (envelope.block.bind PresentationBlock.link)

end NimbleBrain.Notifications

/- A match expression admits some notifications. A route carries one, and so does an event schedule. -/

namespace NimbleBrain.Notifications

/-- A literal character of a pattern, or a run of stars. Only a long run crosses a dot. -/
inductive GlobToken where
  | literal (char : Char)
  | wildcard (crossesDot : Bool)
  deriving DecidableEq

def GlobToken.isWildcard : GlobToken → Bool
  | .literal _ => false
  | .wildcard _ => true

/-- A wildcard may take the character and stay. -/
def GlobToken.stays (token : GlobToken) (char : Char) : Bool :=
  match token with
  | .literal _ => false
  | .wildcard crossesDot => crossesDot || char ≠ '.'

/-- The token of the stars that were read so far. -/
def starRun (run : Nat) : List GlobToken := if run = 0 then [] else [.wildcard (decide (2 ≤ run))]

def tokenize (run : Nat) : List Char → List GlobToken
  | [] => starRun run
  | char :: rest =>
      if char = '*' then tokenize (run + 1) rest else starRun run ++ .literal char :: tokenize 0 rest

/-- A live wildcard counts as matching nothing, so the position after it is live too. -/
def advancePastEmptyWildcards : List GlobToken → Bool → List Bool → List Bool
  | [], carry, reachable => [reachable.headD false || carry]
  | token :: tokens, carry, reachable =>
      let live := reachable.headD false || carry
      live :: advancePastEmptyWildcards tokens (live && token.isWildcard) reachable.tail

/-- Each live token takes the character, or dies. -/
def consume (char : Char) : List GlobToken → Bool → List Bool → List Bool
  | [], carry, _ => [carry]
  | token :: tokens, carry, reachable =>
      let live := reachable.headD false
      (carry || live && token.stays char) ::
        consume char tokens (live && decide (token = .literal char)) reachable.tail

def globStep (tokens : List GlobToken) (reachable : List Bool) (char : Char) : List Bool :=
  advancePastEmptyWildcards tokens false (consume char tokens false reachable)

/-- The last position is live when the whole name is read. -/
def matchesTokens (tokens : List GlobToken) (name : List Char) : Bool :=
  (name.foldl (globStep tokens) (advancePastEmptyWildcards tokens false [true])).getD tokens.length false

def matchesNameGlob (name : String) (pattern : Option String) : Bool :=
  match pattern with
  | none => true
  | some pattern => pattern = "" || matchesTokens (tokenize 0 pattern.toList) name.toList

/-- An omitted part narrows nothing. -/
structure NotificationRouteMatch where
  source : Option String := none
  name : Option String := none
  level : Option NotificationLevel := none
  deriving DecidableEq

/-- What a match is evaluated against. -/
structure MatchSubject where
  source : String
  name : String
  level : NotificationLevel
  deriving DecidableEq

/-- The source is exact, the name is a glob, and the level is a least one. -/
def matchesNotification (expression : Option NotificationRouteMatch) (subject : MatchSubject) : Bool :=
  match expression with
  | none => true
  | some expression =>
      expression.source.all (· = subject.source) && matchesNameGlob subject.name expression.name &&
        expression.level.all fun least => decide (least.rank ≤ subject.level.rank)

/-- The level that the workspace held the item to, or else its own. -/
def notificationEffectiveLevel (item : Notification) : NotificationLevel :=
  item.effectiveLevel.getD (notificationPresentation item.envelope).level

/-- What routes and tasks match of an item. -/
def matchSubject (item : Notification) : MatchSubject where
  source := item.source
  name := item.envelope.name
  level := notificationEffectiveLevel item

/-- One star stays inside a segment, and two cross the dots. -/
example : matchesNameGlob "domain.dns.ready" (some "domain.*") = false ∧
    matchesNameGlob "domain.dns.ready" (some "domain.**") = true := by decide +kernel

end NimbleBrain.Notifications
