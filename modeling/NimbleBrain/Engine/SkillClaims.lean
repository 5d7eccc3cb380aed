import NimbleBrain.Engine.SkillDelivery

/- A claim is pending until it ends, and a skill has at most one pending claim. -/

namespace NimbleBrain.Engine

open Library

/-- What a claim that ended in this way looks like. -/
def ClaimEnd.Fits (how : ClaimEnd) (pending : PendingOverlayFetch) : Prop :=
  match how with
  | .injected => ∃ body, pending.body = some (some body)
  | .fetchFailed => pending.body = some none
  | .capped => pending.dropped = true

/-- The skill that an event delivers. -/
def SkillEvent.delivers : SkillEvent → Option String
  | .injected payload => some payload.skillName
  | .notDelivered _ _ _ => none

namespace SkillDelivery

def nameAt (delivery : SkillDelivery) (id : ClaimId) : Option String :=
  (delivery.claims[id]?).map PendingOverlayFetch.skillName

/-- The claims that no settle has taken and no hold has left out, and those that a settle has still to do. -/
def pending (delivery : SkillDelivery) : List ClaimId :=
  (delivery.fetches.filter fun id => !delivery.isDropped id) ++ delivery.settles.flatMap RunningSettle.todo

def injectedNames (delivery : SkillDelivery) : List String := delivery.events.filterMap SkillEvent.delivers

/-- The skills that are not offered again in the run. -/
def closedNames (delivered : List String) (delivery : SkillDelivery) : List String :=
  delivered ++ delivery.activations ++ delivery.notIncluded ++ delivery.injectedNames

/-- How often a claim ended. -/
def timesEnded (delivery : SkillDelivery) (id : ClaimId) : Nat := (delivery.ends.map Prod.fst).count id

/-- The name stands for the skill of the claim. -/
def Names (delivery : SkillDelivery) (named : String × ClaimId) : Prop := delivery.nameAt named.2 = some named.1

/-- The invariant of the claims of a run. -/
structure Sound (delivered : List String) (delivery : SkillDelivery) : Prop where
  conserved : ∀ id : Nat, delivery.timesEnded id + delivery.pending.count id =
    if id < delivery.claims.length then 1 else 0
  distinct : ∀ id ∈ delivery.pending, ∀ other ∈ delivery.pending,
    delivery.nameAt id = delivery.nameAt other → id = other
  listed : ∀ id ∈ delivery.fetches, id < delivery.claims.length
  live : ∀ id ∈ delivery.pending, ∀ name : String, delivery.nameAt id = some name →
    name ∈ delivery.injected ∧ name ∉ delivery.closedNames delivered
  closed : ∀ name ∈ delivery.closedNames delivered, name ∈ delivery.injected
  once : delivery.injectedNames.Nodup
  apart : ∀ name ∈ delivery.injectedNames, name ∉ delivered ++ delivery.activations ++ delivery.notIncluded
  emitted : ∀ id : ClaimId, (id, ClaimEnd.injected) ∈ delivery.ends →
    ∀ name : String, delivery.nameAt id = some name → name ∈ delivery.injectedNames
  endings : ∀ (id : ClaimId) (how : ClaimEnd), (id, how) ∈ delivery.ends →
    ∀ pending : PendingOverlayFetch, delivery.claims[id]? = some pending → how.Fits pending
  kept : ∀ (id : Nat) (pending : PendingOverlayFetch), delivery.claims[id]? = some pending →
    pending.kept = true → (∃ body, pending.body = some (some body)) ∧ pending.dropped = false
  queuedNames : ∀ entry ∈ delivery.queued.entries, delivery.Names entry
  holdNames : ∀ hold ∈ delivery.holds, ∀ named ∈ hold.claims, delivery.Names named
  startedOnce : delivery.holdsStarted.Nodup
  started : ∀ name ∈ delivery.holdsStarted, name ∈ delivery.held
  answered : ∀ answer ∈ delivery.answers, answer.delivered ≠ [] ∧ ∀ named ∈ answer.delivered,
    delivery.Names named ∧ ∃ pending, delivery.claims[named.2]? = some pending ∧ pending.kept = true

variable {delivered : List String} {delivery : SkillDelivery}

variable {id : ClaimId} {change : PendingOverlayFetch → PendingOverlayFetch} {next : SkillDelivery}

theorem claims_of_nameAt {name : String} (named : delivery.nameAt id = some name) :
    ∃ pending, delivery.claims[id]? = some pending ∧ pending.skillName = name :=
  Option.map_eq_some_iff.mp named

theorem changeClaim_at (delivery : SkillDelivery) (id other : ClaimId)
    (change : PendingOverlayFetch → PendingOverlayFetch) :
    (delivery.changeClaim id change).claims[other]? =
      if id = other then (delivery.claims[other]?).map change else delivery.claims[other]? := by
  rw [changeClaim, List.getElem?_modify]
  split <;> simp_all

/-- A change that keeps the name keeps the names of all claims. -/
theorem changeClaim_nameAt (delivery : SkillDelivery) (id other : ClaimId)
    (same : ∀ pending, (change pending).skillName = pending.skillName) :
    (delivery.changeClaim id change).nameAt other = delivery.nameAt other := by
  rw [nameAt, changeClaim_at, nameAt]
  split
  · rw [Option.map_map]
    exact congrArg (fun f => Option.map f _) (funext same)
  · rfl

theorem changeClaim_isDropped (delivery : SkillDelivery) (id other : ClaimId)
    (apart : id ≠ other ∨ ∀ pending, (change pending).dropped = pending.dropped) :
    (delivery.changeClaim id change).isDropped other = delivery.isDropped other := by
  rw [isDropped, changeClaim_at, isDropped]
  split
  · next same =>
      rcases apart with different | kept
      · exact absurd same different
      · cases delivery.claims[other]? with
        | none => rfl
        | some pending => exact kept pending
  · rfl

theorem changeClaim_length (delivery : SkillDelivery) (id : ClaimId)
    (change : PendingOverlayFetch → PendingOverlayFetch) :
    (delivery.changeClaim id change).claims.length = delivery.claims.length :=
  List.length_modify ..

namespace Sound

variable (sound : delivery.Sound delivered)
include sound

variable {id : ClaimId}

theorem pending_lt (member : id ∈ delivery.pending) : id < delivery.claims.length := by
  have positive := List.count_pos_iff.mpr member
  have total := sound.conserved id
  split at total
  · assumption
  · omega

theorem ended_lt {how : ClaimEnd} (ended : (id, how) ∈ delivery.ends) :
    id < delivery.claims.length := by
  have total := sound.conserved id
  have positive : 0 < delivery.timesEnded id := List.count_pos_iff.mpr (List.mem_map_of_mem ended)
  split at total
  · assumption
  · omega

theorem not_ended_of_pending (member : id ∈ delivery.pending) (how : ClaimEnd) :
    (id, how) ∉ delivery.ends := by
  intro ended
  have total := sound.conserved id
  have ends : 0 < delivery.timesEnded id := List.count_pos_iff.mpr (List.mem_map_of_mem ended)
  have waits := List.count_pos_iff.mpr member
  split at total <;> omega

theorem ended_or_pending {pending : PendingOverlayFetch} (found : delivery.claims[id]? = some pending) :
    id ∈ delivery.pending ∨ ∃ how, (id, how) ∈ delivery.ends := by
  have within := (List.getElem?_eq_some_iff.mp found).1
  have total := sound.conserved id
  rw [if_pos within] at total
  by_cases member : id ∈ delivery.pending
  · exact .inl member
  · rw [List.count_eq_zero_of_not_mem member] at total
    have ended : id ∈ delivery.ends.map Prod.fst := List.count_pos_iff.mp (by
      simp only [timesEnded] at total
      omega)
    obtain ⟨⟨other, how⟩, listed, same⟩ := List.mem_map.mp ended
    change other = id at same
    exact .inr ⟨how, same ▸ listed⟩

/-- A kept claim is emitted, or it is still pending. -/
theorem kept_emitted {pending : PendingOverlayFetch} (found : delivery.claims[id]? = some pending)
    (kept : pending.kept = true) : id ∈ delivery.pending ∨ (id, ClaimEnd.injected) ∈ delivery.ends := by
  obtain ⟨⟨body, has⟩, undropped⟩ := sound.kept id pending found kept
  rcases sound.ended_or_pending found with waits | ⟨how, ended⟩
  · exact .inl waits
  · have fits := sound.endings id how ended pending found
    cases how with
    | injected => exact .inr ended
    | fetchFailed => cases has.symm.trans fits
    | capped => cases undropped.symm.trans fits

end Sound

/-- A skill that is not marked delivered can be claimed. -/
theorem Sound.claim (sound : delivery.Sound delivered) {candidate : ConnectorSkillCandidate}
    (fresh : candidate.name ∉ delivery.injected) (toolName : String) (held : Option String) :
    (delivery.claim candidate toolName held).Sound delivered := by
  have old (id : ClaimId) (within : id < delivery.claims.length) :
      (delivery.claim candidate toolName held).claims[id]? = delivery.claims[id]? :=
    List.getElem?_append_left within
  have oldName (id : ClaimId) (within : id < delivery.claims.length) :
      (delivery.claim candidate toolName held).nameAt id = delivery.nameAt id := by
    rw [nameAt, old id within, nameAt]
  have newName : (delivery.claim candidate toolName held).nameAt delivery.claims.length = some candidate.name := by
    simp [nameAt, SkillDelivery.claim]
  have length : (delivery.claim candidate toolName held).claims.length = delivery.claims.length + 1 := by
    simp [SkillDelivery.claim]
  have keptName (named : String × ClaimId) (names : delivery.Names named) :
      (delivery.claim candidate toolName held).Names named := by
    obtain ⟨pending, found, -⟩ := claims_of_nameAt names
    exact (oldName _ (List.getElem?_eq_some_iff.mp found).1).trans names
  have pending : (delivery.claim candidate toolName held).pending.Perm (delivery.claims.length :: delivery.pending) := by
    have dropped : (delivery.claim candidate toolName held).isDropped delivery.claims.length = false := by
      simp [isDropped, SkillDelivery.claim]
    have same : delivery.fetches.filter (fun id => !(delivery.claim candidate toolName held).isDropped id) =
        delivery.fetches.filter fun id => !delivery.isDropped id := by
      apply List.filter_congr
      intro id member
      rw [isDropped, old id (sound.listed id member), isDropped]
    change ((delivery.fetches ++ [delivery.claims.length]).filter _ ++ delivery.settles.flatMap _).Perm _
    rw [List.filter_append, same, List.filter_cons, dropped, List.append_assoc]
    exact List.perm_middle
  have member (id : ClaimId) : id ∈ (delivery.claim candidate toolName held).pending ↔
      id = delivery.claims.length ∨ id ∈ delivery.pending := by
    rw [pending.mem_iff, List.mem_cons]
  have free (id : ClaimId) (waits : id ∈ delivery.pending) : delivery.nameAt id ≠ some candidate.name :=
    fun same => fresh (sound.live id waits _ same).1
  constructor
  · intro id
    have before := sound.conserved id
    rw [pending.count_eq, List.count_cons, length]
    change delivery.timesEnded id + _ = _
    by_cases new : id = delivery.claims.length
    · subst new
      rw [if_neg (Nat.lt_irrefl _)] at before
      simp
      omega
    · have other : ¬ (delivery.claims.length == id) = true := by simpa using fun same => new same.symm
      rw [if_neg other, Nat.add_zero, before]
      exact if_congr (by omega) rfl rfl
  · intro id waits other waits' same
    rcases (member id).mp waits with rfl | first <;> rcases (member other).mp waits' with rfl | second
    · rfl
    · rw [newName, oldName _ (sound.pending_lt second)] at same
      exact absurd same.symm (free other second)
    · rw [newName, oldName _ (sound.pending_lt first)] at same
      exact absurd same (free id first)
    · rw [oldName _ (sound.pending_lt first), oldName _ (sound.pending_lt second)] at same
      exact sound.distinct id first other second same
  · intro id listed
    rw [length]
    rcases List.mem_append.mp listed with earlier | new
    · exact Nat.lt_succ_of_lt (sound.listed id earlier)
    · rw [List.mem_singleton.mp new]
      exact Nat.lt_succ_self _
  · intro id waits name named
    rcases (member id).mp waits with rfl | earlier
    · rw [newName, Option.some.injEq] at named
      exact named ▸ ⟨List.mem_insert_self, fun closed => fresh (sound.closed _ closed)⟩
    · rw [oldName _ (sound.pending_lt earlier)] at named
      obtain ⟨injected, free⟩ := sound.live id earlier name named
      exact ⟨List.mem_insert_of_mem injected, free⟩
  · exact fun name closed => List.mem_insert_of_mem (sound.closed name closed)
  · exact sound.once
  · exact sound.apart
  · intro id ended name named
    exact sound.emitted id ended name ((oldName id (sound.ended_lt ended)).symm.trans named)
  · intro id how ended pending found
    exact sound.endings id how ended pending ((old id (sound.ended_lt ended)).symm.trans found)
  · intro id pending found kept
    by_cases within : id < delivery.claims.length
    · exact sound.kept id pending ((old id within).symm.trans found) kept
    · have last : id = delivery.claims.length := by
        have bound := (List.getElem?_eq_some_iff.mp found).1
        rw [length] at bound
        omega
      subst last
      simp only [SkillDelivery.claim, List.getElem?_concat_length, Option.some.injEq] at found
      rw [← found] at kept
      cases kept
  · intro entry listed
    rcases OrderedMap.mem_set.mp listed with rfl | ⟨earlier, -⟩
    · exact newName
    · exact keptName entry (sound.queuedNames entry earlier)
  · exact fun hold listed named among => keptName named (sound.holdNames hold listed named among)
  · exact sound.startedOnce
  · exact sound.started
  · intro answer listed
    obtain ⟨some', named⟩ := sound.answered answer listed
    refine ⟨some', fun name among => ?_⟩
    obtain ⟨names, pending, found, kept⟩ := named name among
    exact ⟨keptName name names, pending, (old _ (List.getElem?_eq_some_iff.mp found).1).trans found, kept⟩

/-- A claim that ends keeps its name, and fits its end. A kept claim does not change. -/
structure ChangesClaim (delivery next : SkillDelivery) (id : ClaimId) (how : ClaimEnd) : Prop where
  length : next.claims.length = delivery.claims.length
  names : ∀ other : ClaimId, next.nameAt other = delivery.nameAt other
  others : ∀ other : ClaimId, other ≠ id → next.claims[other]? = delivery.claims[other]?
  fits : ∀ ended : PendingOverlayFetch, next.claims[id]? = some ended → how.Fits ended
  unkept : ∀ ended : PendingOverlayFetch, next.claims[id]? = some ended → ended.kept = true →
    next.claims[id]? = delivery.claims[id]?
  keeps : ∀ ended : PendingOverlayFetch, delivery.claims[id]? = some ended → ended.kept = true →
    next.claims[id]? = delivery.claims[id]?

theorem ChangesClaim.same {how : ClaimEnd} (claims : next.claims = delivery.claims)
    (fits : ∀ ended : PendingOverlayFetch, delivery.claims[id]? = some ended → how.Fits ended) :
    delivery.ChangesClaim next id how where
  length := by rw [claims]
  names other := by rw [nameAt, claims, nameAt]
  others other _ := by rw [claims]
  fits := by
    rw [claims]
    exact fits
  unkept _ _ _ := by rw [claims]
  keeps _ _ _ := by rw [claims]

theorem ChangesClaim.dropped
    (claims : next.claims = (delivery.changeClaim id fun pending => { pending with dropped := true }).claims)
    (unkept : ∀ pending, delivery.claims[id]? = some pending → ¬ pending.kept = true) :
    delivery.ChangesClaim next id .capped where
  length := by rw [claims, changeClaim_length]
  names other := by
    rw [nameAt, claims]
    exact delivery.changeClaim_nameAt id other fun _ => rfl
  others other different := by rw [claims, changeClaim_at, if_neg (Ne.symm different)]
  fits ended found := by
    rw [claims, changeClaim_at, if_pos rfl] at found
    obtain ⟨pending, -, rfl⟩ := Option.map_eq_some_iff.mp found
    rfl
  unkept ended found kept := by
    rw [claims, changeClaim_at, if_pos rfl] at found
    obtain ⟨pending, before, rfl⟩ := Option.map_eq_some_iff.mp found
    exact absurd kept (unkept pending before)
  keeps pending before kept := absurd kept (unkept pending before)

/-- What a step does when a pending claim ends. -/
structure EndsClaim (delivered : List String) (delivery next : SkillDelivery) (id : ClaimId) (how : ClaimEnd) : Prop
    extends ChangesClaim delivery next id how where
  pending : delivery.pending.Perm (id :: next.pending)
  ends : next.ends = delivery.ends ++ [(id, how)]
  fetches : ∀ other ∈ next.fetches, other ∈ delivery.fetches
  injected : ∀ name ∈ delivery.injected, delivery.nameAt id ≠ some name → name ∈ next.injected
  closed : ∀ name ∈ next.closedNames delivered,
    name ∈ delivery.closedNames delivered ∨ delivery.nameAt id = some name ∧ name ∈ next.injected
  once : next.injectedNames.Nodup
  apart : ∀ name ∈ next.injectedNames, name ∉ delivered ++ next.activations ++ next.notIncluded
  emitted : ∀ name ∈ delivery.injectedNames, name ∈ next.injectedNames
  emits : how = .injected → ∀ name : String, delivery.nameAt id = some name → name ∈ next.injectedNames
  queued : ∀ entry ∈ next.queued.entries, entry ∈ delivery.queued.entries
  holds : next.holds = delivery.holds
  held : next.held = delivery.held
  holdsStarted : next.holdsStarted = delivery.holdsStarted
  answers : next.answers = delivery.answers

theorem Sound.endClaim (sound : delivery.Sound delivered) {next : SkillDelivery} {id : ClaimId} {how : ClaimEnd}
    (step : delivery.EndsClaim delivered next id how) : next.Sound delivered := by
  have waits : id ∈ delivery.pending := step.pending.mem_iff.mpr List.mem_cons_self
  have count (other : Nat) : delivery.pending.count other =
      next.pending.count other + if id = other then 1 else 0 := by
    rw [step.pending.count_eq, List.count_cons]
    simp
  have earlier (other : ClaimId) (member : other ∈ next.pending) : other ∈ delivery.pending ∧ other ≠ id := by
    refine ⟨step.pending.mem_iff.mpr (List.mem_cons_of_mem _ member), ?_⟩
    rintro rfl
    have positive := List.count_pos_iff.mpr member
    have both := count other
    have total := sound.conserved other
    rw [if_pos rfl] at both
    split at total <;> omega
  have free (name : String) (closed : name ∈ delivery.closedNames delivered) : delivery.nameAt id ≠ some name :=
    fun named => (sound.live id waits name named).2 closed
  have still (named : String × ClaimId) (names : delivery.Names named) : next.Names named :=
    (step.names named.2).trans names
  constructor
  · intro other
    have before := sound.conserved other
    have ended : next.timesEnded other = delivery.timesEnded other + if id = other then 1 else 0 := by
      rw [timesEnded, step.ends, List.map_append, List.count_append]
      simp [timesEnded, List.count_cons]
    have now := count other
    rw [ended, step.length, ← before, now]
    omega
  · intro other member another member' same
    rw [step.names, step.names] at same
    exact sound.distinct other (earlier other member).1 another (earlier another member').1 same
  · intro other listed
    rw [step.length]
    exact sound.listed other (step.fetches other listed)
  · intro other member name named
    rw [step.names] at named
    obtain ⟨before, different⟩ := earlier other member
    obtain ⟨injected, notClosed⟩ := sound.live other before name named
    have apart : delivery.nameAt id ≠ some name := fun same =>
      different (sound.distinct other before id waits (named.trans same.symm))
    refine ⟨step.injected name injected apart, fun closed => ?_⟩
    rcases step.closed name closed with was | ⟨same, -⟩
    · exact notClosed was
    · exact apart same
  · intro name closed
    rcases step.closed name closed with was | ⟨-, injected⟩
    · exact step.injected name (sound.closed name was) (free name was)
    · exact injected
  · exact step.once
  · exact step.apart
  · intro other ended name named
    rw [step.names] at named
    rw [step.ends, List.mem_append, List.mem_singleton, Prod.mk.injEq] at ended
    rcases ended with before | ⟨rfl, rfl⟩
    · exact step.emitted name (sound.emitted other before name named)
    · exact step.emits rfl name named
  · intro other way ended pending found
    rw [step.ends, List.mem_append, List.mem_singleton, Prod.mk.injEq] at ended
    rcases ended with before | ⟨rfl, rfl⟩
    · by_cases same : other = id
      · exact absurd before (same ▸ sound.not_ended_of_pending waits way)
      · exact sound.endings other way before pending ((step.others other same).symm.trans found)
    · exact step.fits pending found
  · intro other pending found kept
    by_cases same : other = id
    · subst same
      exact sound.kept other pending ((step.unkept pending found kept).symm.trans found) kept
    · exact sound.kept other pending ((step.others other same).symm.trans found) kept
  · exact fun entry listed => still entry (sound.queuedNames entry (step.queued entry listed))
  · rw [step.holds]
    exact fun hold listed named among => still named (sound.holdNames hold listed named among)
  · exact step.holdsStarted ▸ sound.startedOnce
  · rw [step.holdsStarted, step.held]
    exact sound.started
  · rw [step.answers]
    intro answer listed
    obtain ⟨some', named⟩ := sound.answered answer listed
    refine ⟨some', fun name among => ?_⟩
    obtain ⟨names, pending, found, kept⟩ := named name among
    refine ⟨still name names, pending, ?_, kept⟩
    by_cases same : name.2 = id
    · rw [same] at found ⊢
      exact (step.keeps pending found kept).trans found
    · exact (step.others name.2 same).trans found

/-- What a step does that neither adds nor ends a claim. -/
structure Quiet (delivery next : SkillDelivery) : Prop where
  pending : delivery.pending.Perm next.pending
  fetches : ∀ id ∈ next.fetches, id ∈ delivery.fetches
  queued : ∀ entry ∈ next.queued.entries, entry ∈ delivery.queued.entries
  holds : ∀ hold ∈ next.holds, hold ∈ delivery.holds
  injectedNames : next.injectedNames = delivery.injectedNames
  claims : next.claims = delivery.claims
  injected : next.injected = delivery.injected
  notIncluded : next.notIncluded = delivery.notIncluded
  activations : next.activations = delivery.activations
  ends : next.ends = delivery.ends
  held : next.held = delivery.held
  holdsStarted : next.holdsStarted = delivery.holdsStarted
  answers : next.answers = delivery.answers

theorem Sound.quiet (sound : delivery.Sound delivered) (step : delivery.Quiet next) :
    next.Sound delivered := by
  have names (id : ClaimId) : next.nameAt id = delivery.nameAt id := by rw [nameAt, step.claims, nameAt]
  have closed : next.closedNames delivered = delivery.closedNames delivered := by
    rw [closedNames, step.activations, step.notIncluded, step.injectedNames, closedNames]
  constructor
  · intro id
    rw [timesEnded, step.ends, ← step.pending.count_eq, step.claims]
    exact sound.conserved id
  · intro id member other member' same
    rw [names, names] at same
    exact sound.distinct id (step.pending.mem_iff.mpr member) other (step.pending.mem_iff.mpr member') same
  · intro id listed
    rw [step.claims]
    exact sound.listed id (step.fetches id listed)
  · intro id member name named
    rw [names] at named
    rw [step.injected, closed]
    exact sound.live id (step.pending.mem_iff.mpr member) name named
  · rw [step.injected, closed]
    exact sound.closed
  · exact step.injectedNames ▸ sound.once
  · rw [step.injectedNames, step.activations, step.notIncluded]
    exact sound.apart
  · intro id ended name named
    rw [names] at named
    rw [step.ends] at ended
    rw [step.injectedNames]
    exact sound.emitted id ended name named
  · rw [step.ends, step.claims]
    exact sound.endings
  · rw [step.claims]
    exact sound.kept
  · exact fun entry listed => (names entry.2).trans (sound.queuedNames entry (step.queued entry listed))
  · exact fun hold listed named among =>
      (names named.2).trans (sound.holdNames hold (step.holds hold listed) named among)
  · exact step.holdsStarted ▸ sound.startedOnce
  · rw [step.holdsStarted, step.held]
    exact sound.started
  · rw [step.answers]
    intro answer listed
    obtain ⟨some', named⟩ := sound.answered answer listed
    refine ⟨some', fun name among => ?_⟩
    obtain ⟨names', found⟩ := named name among
    exact ⟨(names name.2).trans names', step.claims ▸ found⟩

end SkillDelivery

end NimbleBrain.Engine
