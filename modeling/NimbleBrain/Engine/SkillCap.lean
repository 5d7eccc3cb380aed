import NimbleBrain.Engine.SkillRuns

/- A settle returns the bodies of its claims. The cap on their size spares every body that a hold counted. -/

namespace NimbleBrain.Engine

open Library
open Conversation (textLength)

/-- The sizes fit one delivery, or there is one of them. -/
def FitsCap (sizes : List Nat) : Prop := sizes.sum ≤ maxHeldGuidanceChars ∨ sizes.length = 1

instance (sizes : List Nat) : Decidable (FitsCap sizes) := inferInstanceAs (Decidable (_ ∨ _))

def ConnectorSkillInjected.size (payload : ConnectorSkillInjected) : Nat := textLength payload.skillBody

def RunningSettle.sizes (settle : RunningSettle) : List Nat := settle.deliveries.map ConnectorSkillInjected.size

/-- What a settle returned, with the sizes of the bodies that a hold had counted among its claims. -/
structure SettleReturn where
  counted : List Nat
  bodies : List ConnectorSkillInjected
  deriving DecidableEq

def SettleReturn.sizes (answer : SettleReturn) : List Nat := answer.bodies.map ConnectorSkillInjected.size

namespace SkillDelivery

variable (delivery : SkillDelivery)

/-- The size of the body of a claim that a hold has counted. -/
def countedAt (id : ClaimId) : Option Nat :=
  (delivery.claims[id]?).bind fun pending => if pending.kept then pending.body.join.map textLength else none

/-- A settle once the claim at its head is worked off. -/
def workedOff (settle : RunningSettle) : RunningSettle :=
  match settle.todo with
  | [] => settle
  | id :: rest =>
      match (delivery.claims[id]?).bind fun pending => pending.body.join.map (pending, ·) with
      | none => { settle with todo := rest }
      | some (pending, body) =>
          if !pending.kept ∧ settle.deliveries ≠ [] ∧ maxHeldGuidanceChars < settle.chars + textLength body then
            { settle with todo := rest }
          else
            { settle with
              todo := rest
              deliveries := settle.deliveries ++ [pending.payload body]
              chars := settle.chars + textLength body }

/-- A settle with nothing left to do returns its deliveries. -/
def returnOf (settle : RunningSettle) : List SettleReturn :=
  if settle.todo = [] then [⟨settle.taken.filterMap delivery.countedAt, settle.deliveries⟩] else []

/-- The settle that a call to it starts. -/
def startedSettle : RunningSettle where
  taken := delivery.fetches
  todo := (delivery.fetches.filter fun id => !delivery.isDropped id).insertionSort delivery.settlesBefore

def returnsOf : SkillStep → List SettleReturn
  | .settle => delivery.returnOf delivery.startedSettle
  | .resumeSettle place =>
      (delivery.settles[place]?).toList.flatMap fun settle => delivery.returnOf (delivery.workedOff settle)
  | _ => []

end SkillDelivery

/-- A run's delivery with what its settles have returned. -/
structure SettleLog where
  delivery : SkillDelivery
  returns : List SettleReturn := []
  deriving DecidableEq

def settleSystem (toolMatches : String → String → Bool) (candidates : List ConnectorSkillCandidate)
    (delivered : List String) : System SettleLog SkillStep where
  initial log := (skillSystem toolMatches candidates delivered).initial log.delivery ∧ log.returns = []
  step log action := ((skillSystem toolMatches candidates delivered).step log.delivery action).map fun next =>
    { delivery := next, returns := log.returns ++ log.delivery.returnsOf action }

namespace SkillDelivery

/-- A call does not resume with a claim that a settle under way has taken, unless a hold had counted it before. -/
def Undisturbed (delivery : SkillDelivery) : SkillStep → Prop
  | .resumeHold place => ∀ waiting ∈ delivery.holds[place]?, ∀ named ∈ waiting.claims,
      ∀ settle ∈ delivery.settles, named.2 ∈ settle.taken → (delivery.countedAt named.2).isSome = true
  | _ => True

instance (delivery : SkillDelivery) (step : SkillStep) : Decidable (delivery.Undisturbed step) := by
  cases step <;> unfold Undisturbed <;> infer_instance

/-- An after-call claim of any tool that the skill is bound to would claim it. -/
def Deliverable (toolMatches : String → String → Bool) (candidates : List ConnectorSkillCandidate)
    (delivery : SkillDelivery) (name : String) : Prop :=
  ∀ candidate ∈ candidates, candidate.name = name → ∀ toolName, isBound toolMatches toolName candidate = true →
    ∃ id ∈ (delivery.claimFor toolMatches candidates toolName).fetches,
      (delivery.claimFor toolMatches candidates toolName).nameAt id = some name

/-- A skill that was left out was named in a held result, can still be delivered, or was claimed or activated since. -/
def LeftOutKnown (toolMatches : String → String → Bool) (candidates : List ConnectorSkillCandidate)
    (delivery : SkillDelivery) : Prop :=
  ∀ id, (id, ClaimEnd.capped) ∈ delivery.ends → ∀ name : String, delivery.nameAt id = some name →
    (∃ answer ∈ delivery.answers, name ∈ answer.left) ∨ Deliverable toolMatches candidates delivery name ∨
      (∃ later, id < later ∧ delivery.nameAt later = some name) ∨ name ∈ delivery.activations

/-- A hold counts a body that has arrived, and that no one has left out. -/
def KeptWell (delivery : SkillDelivery) : Prop :=
  ∀ (id : Nat) (pending : PendingOverlayFetch), delivery.claims[id]? = some pending → pending.kept = true →
    pending.dropped = false ∧ ∃ body, pending.body = some (some body)

variable {delivery : SkillDelivery}

variable {change : PendingOverlayFetch → PendingOverlayFetch} {other : SkillDelivery}

/-- A change that leaves what a hold counted leaves the counted sizes. -/
theorem countedAt_changeClaim (delivery : SkillDelivery) (id : ClaimId)
   
    (same : ∀ pending ∈ delivery.claims[id]?,
      (if (change pending).kept then (change pending).body.join.map textLength else none) =
        if pending.kept then pending.body.join.map textLength else none) :
    (delivery.changeClaim id change).countedAt = delivery.countedAt := by
  funext other
  rw [countedAt, countedAt, changeClaim, List.getElem?_modify]
  cases found : delivery.claims[other]? with
  | none => rfl
  | some pending =>
      by_cases equal : id = other
      · subst equal
        simpa using same pending found
      · simp [equal]

theorem countedAt_claim (delivery : SkillDelivery) (candidate : ConnectorSkillCandidate) (toolName : String)
    (held : Option String) : (delivery.claim candidate toolName held).countedAt = delivery.countedAt := by
  funext id
  rw [countedAt, countedAt, claim]
  dsimp only
  rcases Nat.lt_trichotomy id delivery.claims.length with within | rfl | beyond
  · rw [List.getElem?_append_left within]
  · rw [List.getElem?_concat_length, List.getElem?_eq_none le_rfl]
    rfl
  · rw [List.getElem?_eq_none (by rw [List.length_append, List.length_singleton]; omega),
      List.getElem?_eq_none (by omega)]

theorem KeptWell.changeClaim (well : delivery.KeptWell) {id : ClaimId}
   
    (kept : ∀ pending ∈ delivery.claims[id]?, (change pending).kept = true →
      (change pending).dropped = false ∧ ∃ body, (change pending).body = some (some body)) :
    (delivery.changeClaim id change).KeptWell := by
  intro other pending found marked
  rw [SkillDelivery.changeClaim, List.getElem?_modify] at found
  obtain ⟨before, present, rfl⟩ := Option.map_eq_some_iff.mp found
  split at marked
  · next equal =>
      subst equal
      rw [if_pos rfl]
      exact kept before present marked
  · next different =>
      rw [if_neg different]
      exact well other before present marked

theorem KeptWell.claim (well : delivery.KeptWell) (candidate : ConnectorSkillCandidate) (toolName : String)
    (held : Option String) : (delivery.claim candidate toolName held).KeptWell := by
  intro id pending found marked
  rw [SkillDelivery.claim] at found
  dsimp only at found
  rcases Nat.lt_trichotomy id delivery.claims.length with within | rfl | beyond
  · rw [List.getElem?_append_left within] at found
    exact well id pending found marked
  · rw [List.getElem?_concat_length] at found
    obtain rfl := Option.some.inj found
    cases marked
  · rw [List.getElem?_eq_none (by rw [List.length_append, List.length_singleton]; omega)] at found
    cases found

theorem KeptWell.congr (well : delivery.KeptWell) (same : other.claims = delivery.claims) :
    other.KeptWell := by
  rw [KeptWell, same]
  exact well

theorem countedAt_congr (same : other.claims = delivery.claims) :
    other.countedAt = delivery.countedAt := by
  funext id
  rw [countedAt, countedAt, same]

end SkillDelivery

end NimbleBrain.Engine
