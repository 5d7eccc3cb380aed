import NimbleBrain.Engine.SkillCap

/- The size of what a settle returns follows from the bodies that holds counted among its claims. -/

namespace NimbleBrain.Engine

open Library
open Conversation (textLength)

theorem fitsCap_perm {first second : List Nat} (same : first.Perm second) : FitsCap first ↔ FitsCap second := by
  rw [FitsCap, FitsCap, same.sum_nat, same.length_eq]

namespace SkillDelivery

variable {delivery : SkillDelivery}

/-- A settle under way works off the counted claims first. What it has returned covers those it is done with. -/
structure Tracked (delivery : SkillDelivery) (settle : RunningSettle) : Prop where
  within : ∀ id ∈ settle.todo, id ∈ settle.taken
  sorted : settle.todo.Pairwise fun first second =>
    (delivery.countedAt second).isSome = true → (delivery.countedAt first).isSome = true
  chars : settle.chars = settle.sizes.sum
  ahead : settle.todo.filterMap delivery.countedAt ≠ [] →
    (settle.sizes ++ settle.todo.filterMap delivery.countedAt).Perm
      (settle.taken.filterMap delivery.countedAt)
  behind : settle.todo.filterMap delivery.countedAt = [] →
    (settle.taken.filterMap delivery.countedAt).length ≤ settle.sizes.length ∧
      (settle.taken.filterMap delivery.countedAt).sum ≤ settle.sizes.sum ∧
      (FitsCap (settle.taken.filterMap delivery.countedAt) → FitsCap settle.sizes)

variable {settle : RunningSettle} {id other : ClaimId} {pending : PendingOverlayFetch} {rest : List ClaimId}
  {next : SkillDelivery} {place : Nat}

/-- Only the counted sizes of the claims that a settle took matter to it. -/
theorem Tracked.congr (tracked : delivery.Tracked settle) {other : SkillDelivery}
    (same : ∀ id ∈ settle.taken, other.countedAt id = delivery.countedAt id) : other.Tracked settle := by
  have todo : ∀ id ∈ settle.todo, other.countedAt id = delivery.countedAt id := fun id among =>
    same id (tracked.within id among)
  have sizes : settle.todo.filterMap other.countedAt = settle.todo.filterMap delivery.countedAt :=
    List.filterMap_congr todo
  have all : settle.taken.filterMap other.countedAt = settle.taken.filterMap delivery.countedAt :=
    List.filterMap_congr same
  refine ⟨tracked.within, ?_, tracked.chars, ?_, ?_⟩
  · refine tracked.sorted.imp_of_mem ?_
    intro first second one two keeps
    rw [todo first one, todo second two]
    exact keeps
  · rw [sizes, all]
    exact tracked.ahead
  · rw [sizes, all]
    exact tracked.behind

theorem countedAt_eq_some {size : Nat} (well : delivery.KeptWell) (counted : delivery.countedAt id = some size) :
    ∃ pending body, delivery.claims[id]? = some pending ∧ pending.kept = true ∧ pending.dropped = false ∧
      pending.body = some (some body) ∧ size = textLength body := by
  obtain ⟨pending, found, counted⟩ := Option.bind_eq_some_iff.mp counted
  split at counted
  · next kept =>
      obtain ⟨undropped, body, has⟩ := well id pending found kept
      rw [has] at counted
      exact ⟨pending, body, found, kept, undropped, has, (Option.some.inj counted).symm⟩
  · cases counted

theorem countedAt_kept {body : String} (found : delivery.claims[id]? = some pending)
    (has : pending.body = some (some body)) :
    delivery.countedAt id = if pending.kept then some (textLength body) else none := by
  rw [countedAt, found, Option.bind_some, has]
  rfl

/-- A settle passes over the claim at its head, or delivers its body. -/
theorem workedOff_cases (todo : settle.todo = id :: rest) :
    (delivery.workedOff settle = { settle with todo := rest } ∧ delivery.countedAt id = none) ∨
      ∃ pending body, delivery.claims[id]? = some pending ∧ pending.body = some (some body) ∧
        delivery.workedOff settle = { settle with
          todo := rest
          deliveries := settle.deliveries ++ [pending.payload body]
          chars := settle.chars + textLength body } ∧
        (pending.kept = true ∨ settle.deliveries = [] ∨ settle.chars + textLength body ≤ maxHeldGuidanceChars) := by
  rw [workedOff, todo]
  dsimp only
  cases head : (delivery.claims[id]?).bind fun pending => pending.body.join.map (pending, ·) with
  | none =>
      refine .inl ⟨rfl, ?_⟩
      rw [countedAt]
      cases found : delivery.claims[id]? with
      | none => rfl
      | some pending =>
          rw [found, Option.bind_some, Option.map_eq_none_iff] at head
          rw [Option.bind_some, head]
          split <;> rfl
  | some taken =>
      obtain ⟨pending, body⟩ := taken
      obtain ⟨other, found, mapped⟩ := Option.bind_eq_some_iff.mp head
      obtain ⟨text, joined, same⟩ := Option.map_eq_some_iff.mp mapped
      obtain ⟨rfl, rfl⟩ := Prod.mk.inj same
      have has : other.body = some (some text) := Option.join_eq_some_iff.mp joined
      dsimp only
      split
      · next full =>
          refine .inl ⟨rfl, ?_⟩
          have unkept : other.kept = false := by simpa using full.1
          rw [countedAt_kept found has, unkept]
          rfl
      · next room =>
          refine .inr ⟨other, text, found, has, rfl, ?_⟩
          by_cases kept : other.kept = true
          · exact .inl kept
          · right
            by_cases first : settle.deliveries = []
            · exact .inl first
            · exact .inr (not_lt.mp fun above => room ⟨by simpa using kept, first, above⟩)

theorem Tracked.start (well : delivery.KeptWell) (sorted : delivery.startedSettle.todo.Pairwise fun first second =>
    (delivery.countedAt second).isSome = true → (delivery.countedAt first).isSome = true) :
    delivery.Tracked delivery.startedSettle := by
  have perm : delivery.startedSettle.todo.Perm (delivery.fetches.filter fun id => !delivery.isDropped id) :=
    List.perm_insertionSort ..
  have undropped : (delivery.fetches.filter fun id => !delivery.isDropped id).filterMap delivery.countedAt =
      delivery.fetches.filterMap delivery.countedAt := by
    rw [List.filterMap_filter]
    apply List.filterMap_congr
    intro id _
    cases dropped : delivery.isDropped id with
    | false => rfl
    | true =>
        cases counted : delivery.countedAt id with
        | none => rfl
        | some size =>
            obtain ⟨pending, body, found, -, live, -⟩ := countedAt_eq_some well counted
            rw [isDropped, found, Option.any_some, live] at dropped
            cases dropped
  have all : (delivery.startedSettle.todo.filterMap delivery.countedAt).Perm
      (delivery.startedSettle.taken.filterMap delivery.countedAt) := by
    have same := perm.filterMap delivery.countedAt
    rwa [undropped] at same
  refine ⟨?_, sorted, rfl, fun _ => all, fun none => ?_⟩
  · intro id among
    exact List.mem_of_mem_filter (perm.mem_iff.mp among)
  · rw [none] at all
    rw [List.nil_perm.mp all]
    exact ⟨le_rfl, le_rfl, id⟩

/-- Working off a claim keeps the account of a settle. -/
theorem Tracked.workedOff (tracked : delivery.Tracked settle) (todo : settle.todo = id :: rest) :
    delivery.Tracked (delivery.workedOff settle) := by
  have within : ∀ other ∈ rest, other ∈ settle.taken := fun other among =>
    tracked.within other (todo ▸ List.mem_cons_of_mem _ among)
  have sorted := tracked.sorted
  rw [todo, List.pairwise_cons] at sorted
  have ahead := tracked.ahead
  have behind := tracked.behind
  rw [todo, List.filterMap_cons] at ahead behind
  rcases workedOff_cases todo with ⟨passed, none⟩ | ⟨pending, body, found, has, delivered, room⟩
  · rw [none] at ahead behind
    rw [passed]
    exact ⟨within, sorted.2, tracked.chars, ahead, behind⟩
  · have size : (pending.payload body).size = textLength body := rfl
    have sizes : (delivery.workedOff settle).sizes = settle.sizes ++ [textLength body] := by
      rw [delivered, RunningSettle.sizes, List.map_append]
      rfl
    have counted := countedAt_kept found has
    have chars : (delivery.workedOff settle).chars = (delivery.workedOff settle).sizes.sum := by
      rw [sizes, List.sum_append, List.sum_singleton, ← tracked.chars, delivered]
    have taken : (delivery.workedOff settle).taken = settle.taken := by rw [delivered]
    have left : (delivery.workedOff settle).todo = rest := by rw [delivered]
    refine ⟨by rwa [left, taken], by rw [left]; exact sorted.2, chars, ?_, ?_⟩ <;> rw [left, taken, sizes]
    · intro more
      cases kept : pending.kept with
      | true =>
          rw [counted, if_pos kept] at ahead
          rw [List.append_assoc]
          exact ahead (List.cons_ne_nil _ _)
      | false =>
          -- A counted claim further on would have put this one among the counted.
          obtain ⟨size, listed⟩ := List.exists_mem_of_ne_nil _ more
          obtain ⟨other, among, named⟩ := List.mem_filterMap.mp listed
          have first := sorted.1 other among (by rw [named]; rfl)
          rw [counted, kept] at first
          cases first
    · intro last
      cases kept : pending.kept with
      | true =>
          rw [counted, if_pos kept, last] at ahead
          have same := ahead (List.cons_ne_nil _ _)
          exact ⟨same.length_eq.ge, same.sum_nat.ge, (fitsCap_perm same).mpr⟩
      | false =>
          rw [counted, kept, if_neg Bool.false_ne_true] at behind
          obtain ⟨fewer, smaller, -⟩ := behind last
          rw [List.length_append, List.sum_append]
          refine ⟨fewer.trans (Nat.le_add_right _ _), smaller.trans (Nat.le_add_right _ _), fun _ => ?_⟩
          rcases room with marked | first | fits
          · rw [kept] at marked
            cases marked
          · rw [RunningSettle.sizes, first]
            exact .inr rfl
          · left
            rw [List.sum_append, List.sum_singleton, ← tracked.chars]
            exact fits

/-- What a settle returns fits one delivery exactly when what holds counted for it does. -/
theorem Tracked.returns (tracked : delivery.Tracked settle) {answer : SettleReturn}
    (returned : answer ∈ delivery.returnOf settle) : FitsCap answer.sizes ↔ FitsCap answer.counted := by
  rw [returnOf] at returned
  split at returned
  · next done =>
      obtain rfl := List.mem_singleton.mp returned
      obtain ⟨fewer, smaller, fits⟩ := tracked.behind (by rw [done, List.filterMap_nil])
      refine ⟨?_, fits⟩
      rintro (small | single)
      · exact .inl (smaller.trans small)
      · have one : settle.sizes.length = 1 := single
        rcases Nat.lt_or_eq_of_le fewer with less | same
        · left
          have none : (settle.taken.filterMap delivery.countedAt).length = 0 := by omega
          rw [List.length_eq_zero_iff.mp none]
          exact Nat.zero_le _
        · exact .inr (same.trans one)
  · cases returned

/-- Where counted claims come before the others, an insertion keeps it so. -/
theorem keptFirst_orderedInsert {α : Type} {before : α → α → Prop} [DecidableRel before] {counted : α → Bool}
    {new : α} {list : List α}
    (first : ∀ other ∈ list, counted new = true → counted other = false → before new other)
    (after : ∀ other ∈ list, counted new = false → counted other = true → ¬ before new other)
    (sorted : list.Pairwise fun one two => counted two = true → counted one = true) :
    (list.orderedInsert before new).Pairwise fun one two => counted two = true → counted one = true := by
  induction list with
  | nil => exact List.pairwise_singleton ..
  | cons head rest ih =>
      rw [List.pairwise_cons] at sorted
      have inside := ih (fun other among => first other (List.mem_cons_of_mem _ among))
        (fun other among => after other (List.mem_cons_of_mem _ among)) sorted.2
      rw [List.orderedInsert_cons]
      split
      · next leads =>
          refine List.pairwise_cons.mpr ⟨?_, List.pairwise_cons.mpr sorted⟩
          have head' : counted head = true → counted new = true := by
            intro kept
            by_contra unkept
            exact after head List.mem_cons_self (by simpa using unkept) kept leads
          intro other among kept
          rcases List.mem_cons.mp among with rfl | later
          · exact head' kept
          · exact head' (sorted.1 other later kept)
      · next follows =>
          refine List.pairwise_cons.mpr ⟨?_, inside⟩
          intro other among kept
          rcases (List.mem_orderedInsert before).mp among with rfl | later
          · by_contra unkept
            exact follows (first head List.mem_cons_self kept (by simpa using unkept))
          · exact sorted.1 other later kept

theorem settlesBefore_of_counted {one : ClaimId} {first second : PendingOverlayFetch}
    (found : delivery.claims[one]? = some first) (found' : delivery.claims[other]? = some second) :
    (first.kept = true → second.kept = false → delivery.settlesBefore one other) ∧
      (first.kept = false → second.kept = true → ¬ delivery.settlesBefore one other) := by
  rw [settlesBefore, found, found']
  dsimp only
  constructor
  · intro kept unkept
    exact .inl ⟨kept, by rw [unkept]; rfl⟩
  · intro unkept kept
    rw [unkept, kept]
    rintro (⟨never, -⟩ | ⟨never, -⟩) <;> cases never

/-- The claims of a delivery are well kept, and the open ones are among them. -/
structure Ready (delivery : SkillDelivery) : Prop where
  well : delivery.KeptWell
  listed : ∀ id ∈ delivery.fetches, id < delivery.claims.length

/-- A settle works off the counted claims first. -/
theorem Ready.start (ready : delivery.Ready) : delivery.Tracked delivery.startedSettle := by
  apply Tracked.start ready.well
  have present : ∀ id ∈ delivery.fetches, ∃ pending, delivery.claims[id]? = some pending ∧
      (delivery.countedAt id).isSome = pending.kept := by
    intro id among
    obtain ⟨pending, found⟩ : ∃ pending, delivery.claims[id]? = some pending :=
      ⟨_, List.getElem?_eq_getElem (ready.listed id among)⟩
    refine ⟨pending, found, ?_⟩
    cases kept : pending.kept with
    | true =>
        obtain ⟨-, body, has⟩ := ready.well id pending found kept
        rw [countedAt_kept found has, kept]
        rfl
    | false =>
        rw [countedAt, found, Option.bind_some, kept]
        rfl
  have sorted (ids : List ClaimId) (among : ∀ id ∈ ids, id ∈ delivery.fetches) :
      (ids.insertionSort delivery.settlesBefore).Pairwise fun first second =>
        (delivery.countedAt second).isSome = true → (delivery.countedAt first).isSome = true := by
    induction ids with
    | nil => exact List.Pairwise.nil
    | cons id rest ih =>
        have others : ∀ other ∈ rest.insertionSort delivery.settlesBefore, other ∈ delivery.fetches := by
          intro other listed
          exact among other (List.mem_cons_of_mem _ ((List.mem_insertionSort _).mp listed))
        obtain ⟨pending, found, counted⟩ := present id (among id List.mem_cons_self)
        rw [List.insertionSort_cons]
        refine @keptFirst_orderedInsert _ _ _ (fun id => (delivery.countedAt id).isSome) _ _ ?_ ?_
          (ih fun other listed => among other (List.mem_cons_of_mem _ listed))
        · intro other listed kept unkept
          obtain ⟨later, found', counted'⟩ := present other (others other listed)
          exact (settlesBefore_of_counted found found').1 (counted ▸ kept) (counted' ▸ unkept)
        · intro other listed unkept kept
          obtain ⟨later, found', counted'⟩ := present other (others other listed)
          exact (settlesBefore_of_counted found found').2 (counted ▸ unkept) (counted' ▸ kept)
  exact sorted _ fun id listed => List.mem_of_mem_filter listed

/-- A step that leaves the settles under way and the counted sizes. -/
structure Steady (delivery next : SkillDelivery) : Prop extends Ready next where
  settles : next.settles = delivery.settles
  counted : next.countedAt = delivery.countedAt

theorem Steady.trans {first second third : SkillDelivery} (one : Steady first second) (two : Steady second third) :
    Steady first third :=
  ⟨two.toReady, two.settles.trans one.settles, two.counted.trans one.counted⟩

theorem Ready.same (ready : delivery.Ready) (claims : next.claims = delivery.claims)
    (fetches : next.fetches = delivery.fetches) (settles : next.settles = delivery.settles) : Steady delivery next :=
  ⟨⟨ready.well.congr claims, by rw [claims, fetches]; exact ready.listed⟩, settles, countedAt_congr claims⟩

theorem Ready.answer (ready : delivery.Ready) (answers : List HeldAnswer) :
    Steady delivery { delivery with answers := answers } :=
  ready.same rfl rfl rfl

theorem Ready.claim (ready : delivery.Ready) (candidate : ConnectorSkillCandidate) (toolName : String)
    (held : Option String) : Steady delivery (delivery.claim candidate toolName held) where
  well := ready.well.claim candidate toolName held
  listed := by
    intro id among
    rw [SkillDelivery.claim, List.length_append, List.length_singleton]
    rcases List.mem_append.mp among with earlier | new
    · exact Nat.lt_succ_of_lt (ready.listed id earlier)
    · rw [List.mem_singleton.mp new]
      exact Nat.lt_succ_self _
  settles := rfl
  counted := countedAt_claim delivery candidate toolName held

theorem Ready.claimBound (ready : delivery.Ready) (call : ToolCall) (bound : List ConnectorSkillCandidate)
    (claims : List (String × ClaimId)) :
    Steady delivery (SkillDelivery.claimBound call bound delivery claims).1 := by
  induction bound generalizing delivery claims with
  | nil => exact ready.same rfl rfl rfl
  | cons candidate rest ih =>
      rw [SkillDelivery.claimBound]
      split
      · exact ih ready _
      · have started : Steady delivery { delivery with
            held := delivery.held ++ [candidate.name]
            holdsStarted := delivery.holdsStarted ++ [candidate.name] } := ready.same rfl rfl rfl
        have claimed := started.trans (started.toReady.claim candidate call.name (some call.id))
        exact claimed.trans (ih claimed.toReady _)

theorem Ready.hold (ready : delivery.Ready) (toolMatches : String → String → Bool)
    (candidates : List ConnectorSkillCandidate) (call : ToolCall) (readOnly : Bool) :
    Steady delivery (delivery.hold toolMatches candidates call readOnly) := by
  rw [SkillDelivery.hold]
  split
  · exact ready.same rfl rfl rfl
  · have claimed := ready.claimBound call (delivery.boundSkills toolMatches candidates call.name readOnly) []
    exact claimed.trans (claimed.toReady.same rfl rfl rfl)

theorem Ready.claimFor (ready : delivery.Ready) (toolMatches : String → String → Bool)
    (candidates : List ConnectorSkillCandidate) (toolName : String) :
    Steady delivery (delivery.claimFor toolMatches candidates toolName) := by
  rw [SkillDelivery.claimFor]
  induction candidates generalizing delivery with
  | nil => exact ready.same rfl rfl rfl
  | cons candidate rest ih =>
      rw [List.foldl_cons]
      split
      · exact ih ready
      · split
        · have claimed := ready.claim candidate toolName none
          exact claimed.trans (ih claimed.toReady)
        · exact ih ready

theorem Ready.renamedPastHold (ready : delivery.Ready) (toolMatches : String → String → Bool)
    (candidates : List ConnectorSkillCandidate) (toolName : String) (readOnly : Bool) :
    Steady delivery (delivery.renamedPastHold toolMatches candidates toolName readOnly) := by
  rw [SkillDelivery.renamedPastHold]
  generalize delivery.boundSkills toolMatches candidates toolName readOnly = bound
  induction bound generalizing delivery with
  | nil => exact ready.same rfl rfl rfl
  | cons skill rest ih =>
      rw [List.foldl_cons]
      split
      · exact ih ready
      · have emitted : Steady delivery (delivery.emit (.notDelivered toolName skill.name .renamedUnheld)) :=
          ready.same rfl rfl rfl
        exact emitted.trans (ih emitted.toReady)

theorem Ready.activated (ready : delivery.Ready) (name : String) : Steady delivery (delivery.activated name).1 := by
  rw [SkillDelivery.activated]
  split <;> exact ready.same rfl rfl rfl

theorem Ready.abortHold (ready : delivery.Ready) (stepped : delivery.abortHold place = some next) :
    Steady delivery next := by
  obtain ⟨_, -, rfl⟩ := Option.map_eq_some_iff.mp stepped
  exact ready.same rfl rfl rfl

/-- A change of one claim leaves the open claims among the claims. -/
theorem Ready.changeClaim (ready : delivery.Ready) {change : PendingOverlayFetch → PendingOverlayFetch}
    (kept : ∀ pending ∈ delivery.claims[id]?, (change pending).kept = true →
      (change pending).dropped = false ∧ ∃ body, (change pending).body = some (some body)) :
    (delivery.changeClaim id change).Ready where
  well := ready.well.changeClaim kept
  listed := by
    rw [SkillDelivery.changeClaim, List.length_modify]
    exact ready.listed

theorem Ready.bodyArrives (ready : delivery.Ready) {body : Option String}
    (stepped : delivery.bodyArrives id body = some next) : Steady delivery next := by
  rw [SkillDelivery.bodyArrives] at stepped
  split at stepped
  · next pending found =>
      split at stepped
      · cases stepped
      · next absent =>
          obtain rfl := Option.some.inj stepped
          have unkept : ∀ other ∈ delivery.claims[id]?, other.kept = false := by
            intro other same
            obtain rfl := Option.some.inj (found.symm.trans same)
            by_contra kept
            obtain ⟨-, text, has⟩ := ready.well id pending found (by simpa using kept)
            rw [has] at absent
            exact absent rfl
          refine ⟨ready.changeClaim ?_, rfl, countedAt_changeClaim delivery id ?_⟩
          · intro other same kept
            exact absurd ((unkept other same).symm.trans kept) Bool.false_ne_true
          · intro other same
            rw [unkept other same]
            rfl
  · cases stepped

/-- A hold that keeps a body leaves every other counted size, and one that was counted before. -/
theorem countedAt_keep (found : delivery.claims[id]? = some pending)
    (apart : other ≠ id ∨ (delivery.countedAt other).isSome = true) :
    (delivery.changeClaim id fun pending => { pending with kept := true }).countedAt other =
      delivery.countedAt other := by
  by_cases same : other = id
  · subst same
    have kept : pending.kept = true := by
      have some := apart.resolve_left (fun different => different rfl)
      by_contra unkept
      rw [countedAt, found, Option.bind_some, if_neg unkept] at some
      cases some
    exact congrFun (countedAt_changeClaim delivery other fun before present => by
      obtain rfl := Option.some.inj (found.symm.trans present)
      rw [kept]) other
  · rw [countedAt, countedAt, SkillDelivery.changeClaim, List.getElem?_modify]
    cases delivery.claims[other]? <;> simp [Ne.symm same]

/-- Counting the bodies of a call touches no settle and no size but those of its own claims. -/
theorem Ready.countHold (ready : delivery.Ready) (toolName : String) (claims : List (String × ClaimId))
    (tally : HoldTally) :
    (SkillDelivery.countHold toolName claims delivery tally).1.Ready ∧
      (SkillDelivery.countHold toolName claims delivery tally).1.settles = delivery.settles ∧
      ∀ other, (∀ named ∈ claims, named.2 = other → (delivery.countedAt other).isSome = true) →
        (SkillDelivery.countHold toolName claims delivery tally).1.countedAt other = delivery.countedAt other := by
  induction claims generalizing delivery tally with
  | nil => exact ⟨ready, rfl, fun _ _ => rfl⟩
  | cons claim rest ih =>
      obtain ⟨name, id⟩ := claim
      have later {other : ClaimId} (counted : ∀ named ∈ (name, id) :: rest, named.2 = other →
          (delivery.countedAt other).isSome = true) (named : String × ClaimId) (among : named ∈ rest) :=
        counted named (List.mem_cons_of_mem _ among)
      have skipped : ∀ tally, (SkillDelivery.countHold toolName rest delivery tally).1.Ready ∧
          (SkillDelivery.countHold toolName rest delivery tally).1.settles = delivery.settles ∧
          ∀ other, (∀ named ∈ (name, id) :: rest, named.2 = other → (delivery.countedAt other).isSome = true) →
            (SkillDelivery.countHold toolName rest delivery tally).1.countedAt other = delivery.countedAt other := by
        intro tally
        obtain ⟨after, settles, sizes⟩ := ih ready tally
        exact ⟨after, settles, fun other counted => sizes other (later counted)⟩
      rw [SkillDelivery.countHold]
      split
      · exact skipped _
      next pending found =>
      split
      · exact skipped _
      · exact skipped _
      next body has =>
      split
      · exact skipped _
      next undropped =>
      split
      · next full =>
          have unkept : pending.kept = false := by simpa using full.1
          have left : Steady delivery (delivery.leaveOut toolName name id) := by
            have dropped : Steady delivery
                (delivery.changeClaim id fun pending => { pending with dropped := true }) := by
              refine ⟨ready.changeClaim ?_, rfl, countedAt_changeClaim delivery id fun _ _ => rfl⟩
              intro other same kept
              obtain rfl := Option.some.inj (found.symm.trans same)
              exact absurd (unkept.symm.trans kept) Bool.false_ne_true
            exact dropped.trans (dropped.toReady.same rfl rfl rfl)
          obtain ⟨after, settles, sizes⟩ := ih left.toReady { tally with left := tally.left ++ [name] }
          refine ⟨after, settles.trans left.settles, fun other counted => ?_⟩
          rw [← left.counted]
          exact sizes other fun named among same => left.counted ▸ later counted named among same
      · next room =>
          have kept : (delivery.changeClaim id fun pending => { pending with kept := true }).Ready := by
            apply ready.changeClaim
            intro other same _
            obtain rfl := Option.some.inj (found.symm.trans same)
            exact ⟨by simpa using undropped, body, has⟩
          obtain ⟨after, settles, sizes⟩ := ih kept { tally with
            delivered := tally.delivered ++ [(name, id)]
            chars := tally.chars + textLength body }
          refine ⟨after, settles, fun other counted => ?_⟩
          have apart : other ≠ id ∨ (delivery.countedAt other).isSome = true := by
            by_cases same : other = id
            · exact .inr (counted (name, id) List.mem_cons_self same.symm)
            · exact .inl same
          have same := countedAt_keep found apart
          rw [← same]
          refine sizes other fun named among equal => ?_
          rw [same]
          exact later counted named among equal

/-- A call that resumes leaves the settles under way as they are, where it counts none of their claims. -/
theorem Ready.resumeHold (ready : delivery.Ready) (undisturbed : delivery.Undisturbed (.resumeHold place))
    (stepped : delivery.resumeHold place = some next) :
    next.Ready ∧ next.settles = delivery.settles ∧ ∀ settle ∈ delivery.settles, ∀ id ∈ settle.taken,
      next.countedAt id = delivery.countedAt id := by
  rw [SkillDelivery.resumeHold] at stepped
  split at stepped
  · cases stepped
  next waiting found =>
  dsimp only at stepped
  split at stepped
  · obtain rfl := Option.some.inj stepped
    have left : Steady delivery { delivery with holds := delivery.holds.eraseIdx place } := ready.same rfl rfl rfl
    obtain ⟨after, settles, sizes⟩ := left.toReady.countHold waiting.call.name waiting.claims {}
    have answered := after.answer
    refine ⟨(answered _).toReady, settles, fun settle under id taken => ?_⟩
    rw [(answered _).counted]
    refine sizes id fun named among same => ?_
    exact same ▸ undisturbed waiting found named among settle under (same ▸ taken)
  · cases stepped

/-- A settle is put back with its work, or is over. -/
theorem putSettle_settles (delivery : SkillDelivery) (place : Nat) (settle : RunningSettle) :
    (∀ other ∈ (delivery.putSettle place settle).settles, other ∈ delivery.settles ∨ other = settle) ∧
      (delivery.putSettle place settle).claims = delivery.claims ∧
      (delivery.putSettle place settle).fetches = delivery.fetches := by
  rw [putSettle]
  split
  · exact ⟨fun other among => .inl (List.mem_of_mem_eraseIdx among), rfl, rfl⟩
  · exact ⟨fun other among => (List.mem_or_eq_of_mem_set among), rfl, rfl⟩

/-- The delivery that a settle leaves when it works off a claim is put back with the settle. -/
theorem Ready.resumeSettle (ready : delivery.Ready) (stepped : delivery.resumeSettle place = some next) :
    ∃ settle id rest base, delivery.settles[place]? = some settle ∧ settle.todo = id :: rest ∧
      Steady delivery base ∧ next = base.putSettle place (delivery.workedOff settle) := by
  rw [SkillDelivery.resumeSettle] at stepped
  split at stepped
  · cases stepped
  next settle found =>
  split at stepped
  · cases stepped
  next id rest todo =>
  split at stepped
  · cases stepped
  next pending at' =>
  have head {body : Option String} (has : pending.body = some body) :
      ((delivery.claims[id]?).bind fun pending => pending.body.join.map (pending, ·)) = body.map (pending, ·) := by
    rw [at', Option.bind_some, has]
    rfl
  split at stepped
  · cases stepped
  · next lost =>
      obtain rfl := Option.some.inj stepped
      refine ⟨settle, id, rest, delivery.giveBack id pending .fetchFailed .fetchFailed, found, todo,
        ready.same rfl rfl rfl, ?_⟩
      rw [workedOff, todo]
      dsimp only
      rw [head lost]
      rfl
  · next body has =>
      split at stepped
      · next full =>
          obtain rfl := Option.some.inj stepped
          have unkept : pending.kept = false := by simpa using full.1
          have dropped : Steady delivery
              (delivery.changeClaim id fun pending => { pending with dropped := true }) := by
            refine ⟨ready.changeClaim ?_, rfl, countedAt_changeClaim delivery id fun _ _ => rfl⟩
            intro other same kept
            obtain rfl := Option.some.inj (at'.symm.trans same)
            exact absurd (unkept.symm.trans kept) Bool.false_ne_true
          refine ⟨settle, id, rest, (delivery.changeClaim id fun pending => { pending with dropped := true }).giveBack
            id pending .capped .capped, found, todo, dropped.trans (dropped.toReady.same rfl rfl rfl), ?_⟩
          rw [workedOff, todo]
          dsimp only
          rw [head has]
          dsimp only [Option.map_some]
          rw [if_pos full]
      · next room =>
          obtain rfl := Option.some.inj stepped
          refine ⟨settle, id, rest, (delivery.finishClaim id .injected).emit (.injected (pending.payload body)),
            found, todo, ready.same rfl rfl rfl, ?_⟩
          rw [workedOff, todo]
          dsimp only
          rw [head has]
          dsimp only [Option.map_some]
          rw [if_neg room]

end SkillDelivery

end NimbleBrain.Engine
