import Mathlib.Data.List.Sort
import NimbleBrain.Conversation.Text
import NimbleBrain.Library.OrderedMap
import NimbleBrain.Library.Transition

/- A run delivers the guidance of the skills that are bound to its tools. Calls wait for it in parallel. -/

namespace NimbleBrain.Engine

open Library
open Conversation (textLength)

def maxSkillBodyChars : Nat := 12000

def maxHeldGuidanceChars : Nat := 3 * maxSkillBodyChars

/-- A skill that tools are bound to. A server publishes some bodies, which are loaded as they are needed. -/
structure ConnectorSkillCandidate where
  name : String
  body : String := ""
  loadsBody : Bool := false
  scope : String := "connector"
  toolAffinity : List String
  priority : Option Int := none
  implicitBinding : Bool := false
  deriving DecidableEq

def ConnectorSkillCandidate.rank (candidate : ConnectorSkillCandidate) : Int := candidate.priority.getD 50

/-- A body that was there from the start. An empty one counts as missing. -/
def ConnectorSkillCandidate.ownBody (candidate : ConnectorSkillCandidate) : Option (Option String) :=
  if candidate.loadsBody then none
  else some (if candidate.body = "" then none else some candidate.body)

/-- The place of a claim among those of the run. -/
abbrev ClaimId := Nat

/-- A claim of a skill. Its body is absent while it is on its way, and null when it cannot be had. -/
structure PendingOverlayFetch where
  toolName : String
  skillName : String
  scope : String
  heldToolCallId : Option String := none
  priority : Int
  body : Option (Option String)
  dropped : Bool := false
  kept : Bool := false
  deriving DecidableEq

/-- What the record of the run says of a delivered body. -/
structure ConnectorSkillInjected where
  toolName : String
  skillName : String
  scope : String
  heldToolCallId : Option String
  skillBody : String
  deriving DecidableEq

def PendingOverlayFetch.payload (pending : PendingOverlayFetch) (body : String) : ConnectorSkillInjected where
  toolName := pending.toolName
  skillName := pending.skillName
  scope := pending.scope
  heldToolCallId := pending.heldToolCallId
  skillBody := body

inductive NotDeliveredReason where
  | fetchFailed | capped | renamedUnheld
  deriving DecidableEq

inductive SkillEvent where
  | injected (payload : ConnectorSkillInjected)
  | notDelivered (toolName skillName : String) (reason : NotDeliveredReason)
  deriving DecidableEq

/-- How a claim ends. -/
inductive ClaimEnd where
  | injected | fetchFailed | capped
  deriving DecidableEq

structure ToolCall where
  id : String
  name : String
  deriving DecidableEq

/-- A call that waits for the bodies of its claims. -/
structure WaitingHold where
  call : ToolCall
  claims : List (String × ClaimId)
  deriving DecidableEq

/-- The result of a held call names what was delivered and what was left out. -/
structure HeldAnswer where
  call : ToolCall
  delivered : List (String × ClaimId)
  left : List String
  deriving DecidableEq

/-- A settle that waits for the body of the claim at the head of its list. -/
structure RunningSettle where
  taken : List ClaimId
  todo : List ClaimId
  deliveries : List ConnectorSkillInjected := []
  chars : Nat := 0
  deriving DecidableEq

/-- The state of a run's delivery. The last five fields note what was recorded and answered. -/
structure SkillDelivery where
  injected : List String := []
  queued : OrderedMap String ClaimId := ∅
  fetches : List ClaimId := []
  held : List String := []
  notIncluded : List String := []
  claims : List PendingOverlayFetch := []
  holds : List WaitingHold := []
  settles : List RunningSettle := []
  events : List SkillEvent := []
  ends : List (ClaimId × ClaimEnd) := []
  holdsStarted : List String := []
  activations : List String := []
  answers : List HeldAnswer := []
  deriving DecidableEq

namespace SkillDelivery

variable (toolMatches : String → String → Bool) (candidates : List ConnectorSkillCandidate)
variable (delivery : SkillDelivery)

def emit (event : SkillEvent) : SkillDelivery := { delivery with events := delivery.events ++ [event] }

def changeClaim (id : ClaimId) (change : PendingOverlayFetch → PendingOverlayFetch) : SkillDelivery :=
  { delivery with claims := delivery.claims.modify id change }

def finishClaim (id : ClaimId) (how : ClaimEnd) : SkillDelivery :=
  { delivery with ends := delivery.ends ++ [(id, how)] }

def uninject (name : String) : SkillDelivery := { delivery with injected := delivery.injected.filter (· ≠ name) }

/-- One skill is marked delivered, its body is fetched, and it is queued. -/
def claim (candidate : ConnectorSkillCandidate) (toolName : String) (heldToolCallId : Option String) :
    SkillDelivery :=
  { delivery with
    injected := delivery.injected.insert candidate.name
    claims := delivery.claims ++
      [{ toolName := toolName, skillName := candidate.name, scope := candidate.scope,
         heldToolCallId := heldToolCallId, priority := candidate.rank, body := candidate.ownBody }]
    fetches := delivery.fetches ++ [delivery.claims.length]
    queued := delivery.queued.set candidate.name delivery.claims.length }

def isBound (toolName : String) (candidate : ConnectorSkillCandidate) : Bool :=
  candidate.toolAffinity.any (toolMatches toolName)

/-- Undelivered skills that have not held a call, and queued ones, in the order of delivery. -/
def boundSkills (toolName : String) (readOnly : Bool) : List ConnectorSkillCandidate :=
  (candidates.filter fun candidate =>
    isBound toolMatches toolName candidate && !(readOnly && candidate.implicitBinding) &&
      ((delivery.queued.get? candidate.name).isSome ||
        decide (candidate.name ∉ delivery.injected ∧ candidate.name ∉ delivery.held))).insertionSort
    fun first second => first.rank < second.rank ∨ first.rank = second.rank ∧ first.name ≤ second.name

/-- The call claims each of its skills, or joins the claim that is queued. -/
def claimBound (call : ToolCall) :
    List ConnectorSkillCandidate → SkillDelivery → List (String × ClaimId) → SkillDelivery × List (String × ClaimId)
  | [], delivery, claims => (delivery, claims)
  | candidate :: rest, delivery, claims =>
      match delivery.queued.get? candidate.name with
      | some already => claimBound call rest delivery (claims ++ [(candidate.name, already)])
      | none =>
          let claimed := { delivery with
            held := delivery.held ++ [candidate.name]
            holdsStarted := delivery.holdsStarted ++ [candidate.name] }
          claimBound call rest (claimed.claim candidate call.name (some call.id))
            (claims ++ [(candidate.name, delivery.claims.length)])

def hold (call : ToolCall) (readOnly : Bool) : SkillDelivery :=
  match delivery.boundSkills toolMatches candidates call.name readOnly with
  | [] => delivery
  | bound =>
      let (claimed, claims) := claimBound call bound delivery []
      { claimed with holds := claimed.holds ++ [{ call := call, claims := claims }] }

/-- A body arrives once. -/
def bodyArrives (id : ClaimId) (body : Option String) : Option SkillDelivery :=
  match delivery.claims[id]? with
  | some pending => if pending.body.isSome then none
      else some (delivery.changeClaim id fun pending => { pending with body := some body })
  | none => none

/-- What a hold has counted so far. -/
structure HoldTally where
  delivered : List (String × ClaimId) := []
  left : List String := []
  chars : Nat := 0
  deriving DecidableEq

/-- A body that the hold leaves out for its size. -/
def leaveOut (toolName name : String) (id : ClaimId) : SkillDelivery :=
  let dropped := delivery.changeClaim id fun pending => { pending with dropped := true }
  { (dropped.finishClaim id .capped).emit (.notDelivered toolName name .capped) with
    notIncluded := delivery.notIncluded.insert name }

/-- The first body always fits. A body that another hold counted is never left out. -/
def countHold (toolName : String) :
    List (String × ClaimId) → SkillDelivery → HoldTally → SkillDelivery × HoldTally
  | [], delivery, tally => (delivery, tally)
  | (name, id) :: rest, delivery, tally =>
      match delivery.claims[id]? with
      | none => countHold toolName rest delivery tally
      | some pending =>
          match pending.body with
          | none | some none => countHold toolName rest delivery tally
          | some (some body) =>
              if pending.dropped then countHold toolName rest delivery tally
              else if !pending.kept ∧ tally.delivered ≠ [] ∧ maxHeldGuidanceChars < tally.chars + textLength body then
                countHold toolName rest (delivery.leaveOut toolName name id)
                  { tally with left := tally.left ++ [name] }
              else
                countHold toolName rest
                  (delivery.changeClaim id fun pending => { pending with kept := true })
                  { tally with
                    delivered := tally.delivered ++ [(name, id)]
                    chars := tally.chars + textLength body }

def arrived (id : ClaimId) : Bool := (delivery.claims[id]?).any fun pending => pending.body.isSome

/-- The call is held when at least one of its bodies is delivered, and runs otherwise. -/
def resumeHold (place : Nat) : Option SkillDelivery :=
  match delivery.holds[place]? with
  | none => none
  | some waiting =>
      if waiting.claims.all fun claim => delivery.arrived claim.2 then
        let (counted, tally) :=
          countHold waiting.call.name waiting.claims { delivery with holds := delivery.holds.eraseIdx place } {}
        some { counted with
          answers := counted.answers ++
            if tally.delivered = [] then []
            else [{ call := waiting.call, delivered := tally.delivered, left := tally.left }] }
      else none

/-- The run of a waiting call is cancelled. -/
def abortHold (place : Nat) : Option SkillDelivery :=
  delivery.holds[place]?.map fun _ => { delivery with holds := delivery.holds.eraseIdx place }

def claimFor (toolName : String) : SkillDelivery :=
  candidates.foldl (fun delivery candidate =>
    if candidate.name ∈ delivery.injected then delivery
    else if isBound toolMatches toolName candidate then delivery.claim candidate toolName none
    else delivery) delivery

/-- Kept bodies come first, then the others by priority and name. -/
def settlesBefore (first second : ClaimId) : Prop :=
  match delivery.claims[first]?, delivery.claims[second]? with
  | some one, some other =>
      one.kept ∧ !other.kept ∨ one.kept = other.kept ∧
        (one.priority < other.priority ∨ one.priority = other.priority ∧ one.skillName ≤ other.skillName)
  | _, _ => True

instance (first second : ClaimId) : Decidable (delivery.settlesBefore first second) := by
  unfold settlesBefore
  split <;> infer_instance

def isDropped (id : ClaimId) : Bool := (delivery.claims[id]?).any PendingOverlayFetch.dropped

/-- Settled claims leave the queue, where no later claim has replaced them. -/
def unqueue (taken : List ClaimId) : SkillDelivery :=
  { delivery with
    queued := taken.foldl (fun queued id =>
      match delivery.claims[id]? with
      | some pending =>
          if queued.get? pending.skillName = some id then queued.delete pending.skillName else queued
      | none => queued) delivery.queued }

/-- A settle with nothing left to do returns. -/
def putSettle (place : Nat) (settle : RunningSettle) : SkillDelivery :=
  if settle.todo = [] then
    let left := { delivery with settles := delivery.settles.eraseIdx place }
    left.unqueue settle.taken
  else { delivery with settles := delivery.settles.set place settle }

/-- Every claim of the iteration is taken at once. -/
def settle : SkillDelivery :=
  let todo := (delivery.fetches.filter fun id => !delivery.isDropped id).insertionSort delivery.settlesBefore
  let started : RunningSettle := { taken := delivery.fetches, todo := todo }
  let emptied := { delivery with fetches := [], settles := delivery.settles ++ [started] }
  emptied.putSettle delivery.settles.length started

/-- A claim that is not delivered makes its skill eligible again. -/
def giveBack (id : ClaimId) (pending : PendingOverlayFetch) (how : ClaimEnd) (reason : NotDeliveredReason) :
    SkillDelivery :=
  ((delivery.uninject pending.skillName).finishClaim id how).emit
    (.notDelivered pending.toolName pending.skillName reason)

/-- The body of the claim at the head has arrived. -/
def resumeSettle (place : Nat) : Option SkillDelivery :=
  match delivery.settles[place]? with
  | none => none
  | some settle =>
      match settle.todo with
      | [] => none
      | id :: rest =>
          match delivery.claims[id]? with
          | none => none
          | some pending =>
              match pending.body with
              | none => none
              | some none =>
                  some ((delivery.giveBack id pending .fetchFailed .fetchFailed).putSettle place
                    { settle with todo := rest })
              | some (some body) =>
                  if !pending.kept ∧ settle.deliveries ≠ [] ∧
                      maxHeldGuidanceChars < settle.chars + textLength body then
                    some (((delivery.changeClaim id fun pending => { pending with dropped := true }).giveBack id
                      pending .capped .capped).putSettle place { settle with todo := rest })
                  else
                    some (((delivery.finishClaim id .injected).emit (.injected (pending.payload body))).putSettle place
                      { settle with
                        todo := rest
                        deliveries := settle.deliveries ++ [pending.payload body]
                        chars := settle.chars + textLength body })

/-- An activation of a delivered skill is not recorded twice. -/
def activated (name : String) : SkillDelivery × Bool :=
  if name ∈ delivery.injected ∧ name ∉ delivery.notIncluded then (delivery, false)
  else ({ delivery with
    injected := delivery.injected.insert name
    notIncluded := delivery.notIncluded.filter (· ≠ name)
    activations := delivery.activations ++ [name] }, true)

def renamedPastHold (toolName : String) (readOnly : Bool) : SkillDelivery :=
  (delivery.boundSkills toolMatches candidates toolName readOnly).foldl (fun delivery skill =>
    if (delivery.queued.get? skill.name).isSome then delivery
    else delivery.emit (.notDelivered toolName skill.name .renamedUnheld)) delivery

end SkillDelivery

/-- The calls of a run act on its delivery in any order, between any two of its waits. -/
inductive SkillStep where
  | hold (call : ToolCall) (readOnly : Bool)
  | bodyArrives (id : ClaimId) (body : Option String)
  | resumeHold (place : Nat)
  | abortHold (place : Nat)
  | claimFor (toolName : String)
  | settle
  | resumeSettle (place : Nat)
  | activated (name : String)
  | renamedPastHold (toolName : String) (readOnly : Bool)
  deriving DecidableEq

/-- A run starts with the skills that were delivered earlier in the conversation. -/
def skillSystem (toolMatches : String → String → Bool) (candidates : List ConnectorSkillCandidate)
    (delivered : List String) : System SkillDelivery SkillStep where
  initial delivery := delivery = { injected := delivered }
  step delivery
    | .hold call readOnly => some (delivery.hold toolMatches candidates call readOnly)
    | .bodyArrives id body => delivery.bodyArrives id body
    | .resumeHold place => delivery.resumeHold place
    | .abortHold place => delivery.abortHold place
    | .claimFor toolName => some (delivery.claimFor toolMatches candidates toolName)
    | .settle => some delivery.settle
    | .resumeSettle place => delivery.resumeSettle place
    | .activated name => some (delivery.activated name).1
    | .renamedPastHold toolName readOnly =>
        some (delivery.renamedPastHold toolMatches candidates toolName readOnly)

end NimbleBrain.Engine
