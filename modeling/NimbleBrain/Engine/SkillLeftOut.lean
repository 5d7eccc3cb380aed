import NimbleBrain.Engine.SkillCapRuns
import NimbleBrain.Engine.SkillOnce

/- What a delivery leaves out is named in a held result or stays to be delivered. -/

namespace NimbleBrain.Engine

open Library
open Conversation (textLength)

namespace SkillDelivery

variable {delivery next : SkillDelivery}

/-- A skill that was left out is accounted for. -/
def Accounted (delivery : SkillDelivery) (id : ClaimId) : Prop :=
  id < delivery.claims.length ∧ ∀ name : String, delivery.nameAt id = some name →
    (∃ answer ∈ delivery.answers, name ∈ answer.left) ∨ name ∉ delivery.injected ∨
      (∃ later, id < later ∧ delivery.nameAt later = some name) ∨ name ∈ delivery.activations

/-- Later in a run the names and the answers stay, and a skill is marked by a new claim or an activation only. -/
structure Onward (delivery next : SkillDelivery) : Prop where
  length : delivery.claims.length ≤ next.claims.length
  names : ∀ id name, delivery.nameAt id = some name → next.nameAt id = some name
  answers : ∀ answer ∈ delivery.answers, answer ∈ next.answers
  activations : ∀ name ∈ delivery.activations, name ∈ next.activations
  injected : ∀ name ∈ next.injected, name ∈ delivery.injected ∨ name ∈ next.activations ∨
    ∃ later, delivery.claims.length ≤ later ∧ next.nameAt later = some name

variable {first second third : SkillDelivery} {id : ClaimId}
  {change : PendingOverlayFetch → PendingOverlayFetch} {place : Nat}

theorem Onward.trans (one : Onward first second) (two : Onward second third) :
    Onward first third where
  length := one.length.trans two.length
  names id name named := two.names id name (one.names id name named)
  answers answer among := two.answers answer (one.answers answer among)
  activations name among := two.activations name (one.activations name among)
  injected name marked := by
    rcases two.injected name marked with before | activated | ⟨later, beyond, named⟩
    · rcases one.injected name before with earlier | activated | ⟨later, beyond, named⟩
      · exact .inl earlier
      · exact .inr (.inl (two.activations name activated))
      · exact .inr (.inr ⟨later, beyond, two.names later name named⟩)
    · exact .inr (.inl activated)
    · exact .inr (.inr ⟨later, one.length.trans beyond, named⟩)

theorem nameAt_of_lt (within : id < delivery.claims.length) :
    ∃ name, delivery.nameAt id = some name :=
  ⟨_, by rw [nameAt, List.getElem?_eq_getElem within, Option.map_some]⟩

theorem Accounted.onward (accounted : delivery.Accounted id) (onward : Onward delivery next) :
    next.Accounted id := by
  obtain ⟨within, known⟩ := accounted
  refine ⟨within.trans_le onward.length, fun name named => ?_⟩
  obtain ⟨before, was⟩ := nameAt_of_lt within
  obtain rfl := Option.some.inj ((onward.names id before was).symm.trans named)
  rcases known before was with ⟨answer, among, left⟩ | fresh | ⟨later, after, again⟩ | activated
  · exact .inl ⟨answer, onward.answers answer among, left⟩
  · by_cases marked : before ∈ next.injected
    · rcases onward.injected before marked with earlier | activated | ⟨later, beyond, again⟩
      · exact absurd earlier fresh
      · exact .inr (.inr (.inr activated))
      · exact .inr (.inr (.inl ⟨later, within.trans_le beyond, again⟩))
    · exact .inr (.inl marked)
  · exact .inr (.inr (.inl ⟨later, after, onward.names later before again⟩))
  · exact .inr (.inr (.inr (onward.activations before activated)))

/-- What a step leaves of the queue, the waiting calls and the claims that were left out. -/
structure Carries (delivery next : SkillDelivery) : Prop extends Onward delivery next where
  queued : ∀ entry ∈ next.queued.entries, entry ∈ delivery.queued.entries ∨ next.Names entry
  holds : ∀ hold ∈ next.holds, hold ∈ delivery.holds ∨ ∀ named ∈ hold.claims, next.Names named
  capped : ∀ id, (id, ClaimEnd.capped) ∈ next.ends → (id, ClaimEnd.capped) ∈ delivery.ends ∨ next.Accounted id

theorem Carries.trans (one : Carries first second) (two : Carries second third) : Carries first third where
  toOnward := one.toOnward.trans two.toOnward
  queued entry among := by
    rcases two.queued entry among with before | names
    · rcases one.queued entry before with earlier | names
      · exact .inl earlier
      · exact .inr (two.names entry.2 entry.1 names)
    · exact .inr names
  holds hold among := by
    rcases two.holds hold among with before | names
    · rcases one.holds hold before with earlier | names
      · exact .inl earlier
      · exact .inr fun named inside => two.names named.2 named.1 (names named inside)
    · exact .inr names
  capped id ended := by
    rcases two.capped id ended with before | accounted
    · rcases one.capped id before with earlier | accounted
      · exact .inl earlier
      · exact .inr (accounted.onward two.toOnward)
    · exact .inr accounted

/-- Queued claims and waiting calls name their skills, and every skill that was left out is accounted for. -/
structure Told (delivery : SkillDelivery) : Prop where
  queued : ∀ entry ∈ delivery.queued.entries, delivery.Names entry
  holds : ∀ hold ∈ delivery.holds, ∀ named ∈ hold.claims, delivery.Names named
  capped : ∀ id, (id, ClaimEnd.capped) ∈ delivery.ends → delivery.Accounted id

theorem Told.carries (told : delivery.Told) (carries : Carries delivery next) : next.Told where
  queued entry among := by
    rcases carries.queued entry among with before | names
    · exact carries.names entry.2 entry.1 (told.queued entry before)
    · exact names
  holds hold among := by
    rcases carries.holds hold among with before | names
    · exact fun named inside => carries.names named.2 named.1 (told.holds hold before named inside)
    · exact names
  capped id ended := by
    rcases carries.capped id ended with before | accounted
    · exact (told.capped id before).onward carries.toOnward
    · exact accounted

/-- A step that claims no skill. -/
theorem Carries.quiet (length : next.claims.length = delivery.claims.length) (names : next.nameAt = delivery.nameAt)
    (answers : ∀ answer ∈ delivery.answers, answer ∈ next.answers)
    (activations : ∀ name ∈ delivery.activations, name ∈ next.activations)
    (injected : ∀ name ∈ next.injected, name ∈ delivery.injected ∨ name ∈ next.activations)
    (queued : ∀ entry ∈ next.queued.entries, entry ∈ delivery.queued.entries)
    (holds : ∀ hold ∈ next.holds, hold ∈ delivery.holds)
    (capped : ∀ id, (id, ClaimEnd.capped) ∈ next.ends → (id, ClaimEnd.capped) ∈ delivery.ends ∨ next.Accounted id) :
    Carries delivery next where
  length := length.ge
  names id name named := by rw [names, named]
  answers := answers
  activations := activations
  injected name marked := (injected name marked).imp_right .inl
  queued entry among := .inl (queued entry among)
  holds hold among := .inl (holds hold among)
  capped := capped

theorem Carries.refl (delivery : SkillDelivery) : Carries delivery delivery :=
  .quiet rfl rfl (fun _ => id) (fun _ => id) (fun _ => .inl) (fun _ => id) (fun _ => id) fun _ => .inl

theorem changeClaim_names (delivery : SkillDelivery) (id : ClaimId)
    (name : ∀ pending, (change pending).skillName = pending.skillName) :
    (delivery.changeClaim id change).nameAt = delivery.nameAt :=
  funext fun other => delivery.changeClaim_nameAt id other name

theorem Carries.changeClaim (delivery : SkillDelivery) (id : ClaimId)
    (name : ∀ pending, (change pending).skillName = pending.skillName) :
    Carries delivery (delivery.changeClaim id change) :=
  .quiet (changeClaim_length ..) (delivery.changeClaim_names id name) (fun _ among => among)
    (fun _ among => among) (fun _ => .inl) (fun _ among => among) (fun _ among => among) fun _ => .inl

theorem Carries.emit (delivery : SkillDelivery) (event : SkillEvent) : Carries delivery (delivery.emit event) :=
  .quiet rfl rfl (fun _ => id) (fun _ => id) (fun _ => .inl) (fun _ => id) (fun _ => id) fun _ => .inl

/-- The new claim names its skill. -/
theorem nameAt_claimed (delivery : SkillDelivery) (candidate : ConnectorSkillCandidate) (toolName : String)
    (held : Option String) :
    (delivery.claim candidate toolName held).nameAt delivery.claims.length = some candidate.name := by
  rw [nameAt, SkillDelivery.claim]
  dsimp only
  rw [List.getElem?_concat_length, Option.map_some]

theorem Carries.claim (delivery : SkillDelivery) (candidate : ConnectorSkillCandidate) (toolName : String)
    (held : Option String) : Carries delivery (delivery.claim candidate toolName held) where
  length := by
    rw [SkillDelivery.claim, List.length_append]
    exact Nat.le_add_right _ _
  names id name named := @claim_names _ _ _ _ (name, id) named
  answers _ among := among
  activations _ among := among
  injected name marked := by
    rcases List.mem_insert_iff.mp marked with rfl | before
    · exact .inr (.inr ⟨_, le_rfl, delivery.nameAt_claimed candidate toolName held⟩)
    · exact .inl before
  queued entry among := by
    rcases OrderedMap.mem_set.mp among with rfl | ⟨before, -⟩
    · exact .inr (delivery.nameAt_claimed candidate toolName held)
    · exact .inl before
  holds _ among := .inl among
  capped _ := .inl

/-- The claims of a call name its skills. -/
theorem Told.claimBound (told : delivery.Told) (call : ToolCall) (bound : List ConnectorSkillCandidate)
    {claims : List (String × ClaimId)} (names : ∀ named ∈ claims, delivery.Names named) :
    Carries delivery (SkillDelivery.claimBound call bound delivery claims).1 ∧
      ∀ named ∈ (SkillDelivery.claimBound call bound delivery claims).2,
        (SkillDelivery.claimBound call bound delivery claims).1.Names named := by
  induction bound generalizing delivery claims with
  | nil => exact ⟨.refl delivery, names⟩
  | cons candidate rest ih =>
      rw [SkillDelivery.claimBound]
      split
      · next already queued =>
          apply ih told
          intro named among
          rcases List.mem_append.mp among with before | new
          · exact names named before
          · rw [List.mem_singleton.mp new]
            exact told.queued _ (OrderedMap.get?_eq_some_iff.mp queued)
      · have started : Carries delivery { delivery with
            held := delivery.held ++ [candidate.name]
            holdsStarted := delivery.holdsStarted ++ [candidate.name] } :=
          .quiet rfl rfl (fun _ => id) (fun _ => id) (fun _ => .inl) (fun _ => id) (fun _ => id) fun _ => .inl
        have claimed := started.trans (.claim _ candidate call.name (some call.id))
        have own : ∀ named ∈ claims ++ [(candidate.name, delivery.claims.length)], Names (SkillDelivery.claim
            { delivery with
              held := delivery.held ++ [candidate.name]
              holdsStarted := delivery.holdsStarted ++ [candidate.name] }
            candidate call.name (some call.id)) named := by
          intro named among
          rcases List.mem_append.mp among with before | new
          · exact claim_names (names named before)
          · rw [List.mem_singleton.mp new]
            exact delivery.nameAt_claimed candidate call.name (some call.id)
        obtain ⟨carries, named⟩ := ih (told.carries claimed) own
        exact ⟨claimed.trans carries, named⟩

theorem Told.hold (told : delivery.Told) (toolMatches : String → String → Bool)
    (candidates : List ConnectorSkillCandidate) (call : ToolCall) (readOnly : Bool) :
    Carries delivery (delivery.hold toolMatches candidates call readOnly) := by
  rw [SkillDelivery.hold]
  split
  · exact .refl delivery
  · obtain ⟨carries, names⟩ := told.claimBound call
      (delivery.boundSkills toolMatches candidates call.name readOnly)
      (fun _ (among : _ ∈ ([] : List (String × ClaimId))) => (List.not_mem_nil among).elim)
    refine { carries with holds := ?_, capped := ?_ }
    · intro hold among
      rcases List.mem_append.mp among with before | new
      · exact carries.holds hold before
      · rw [List.mem_singleton.mp new]
        exact .inr names
    · exact fun id ended => carries.capped id ended

theorem Carries.claimFor (delivery : SkillDelivery) (toolMatches : String → String → Bool)
    (candidates : List ConnectorSkillCandidate) (toolName : String) :
    Carries delivery (delivery.claimFor toolMatches candidates toolName) := by
  rw [SkillDelivery.claimFor]
  induction candidates generalizing delivery with
  | nil => exact .refl delivery
  | cons candidate rest ih =>
      rw [List.foldl_cons]
      split
      · exact ih delivery
      · split
        · exact (Carries.claim delivery candidate toolName none).trans (ih _)
        · exact ih delivery

theorem Carries.renamedPastHold (delivery : SkillDelivery) (toolMatches : String → String → Bool)
    (candidates : List ConnectorSkillCandidate) (toolName : String) (readOnly : Bool) :
    Carries delivery (delivery.renamedPastHold toolMatches candidates toolName readOnly) := by
  rw [SkillDelivery.renamedPastHold]
  generalize delivery.boundSkills toolMatches candidates toolName readOnly = bound
  induction bound generalizing delivery with
  | nil => exact .refl delivery
  | cons skill rest ih =>
      rw [List.foldl_cons]
      split
      · exact ih delivery
      · exact (Carries.emit delivery _).trans (ih _)

theorem Carries.activated (delivery : SkillDelivery) (name : String) :
    Carries delivery (delivery.activated name).1 := by
  rw [SkillDelivery.activated]
  split
  · exact .refl delivery
  · refine .quiet rfl rfl (fun _ => id) (fun _ => List.mem_append_left _) ?_ (fun _ => id) (fun _ => id)
      fun _ => .inl
    intro other marked
    rcases List.mem_insert_iff.mp marked with rfl | before
    · exact .inr (List.mem_append_right _ (List.mem_singleton_self _))
    · exact .inl before

theorem Carries.bodyArrives {body : Option String} (stepped : delivery.bodyArrives id body = some next) :
    Carries delivery next := by
  rw [SkillDelivery.bodyArrives] at stepped
  split at stepped
  · split at stepped
    · cases stepped
    · obtain rfl := Option.some.inj stepped
      exact .changeClaim delivery id fun _ => rfl
  · cases stepped

theorem Carries.dropHold (delivery : SkillDelivery) (place : Nat) :
    Carries delivery { delivery with holds := delivery.holds.eraseIdx place } :=
  .quiet rfl rfl (fun _ => id) (fun _ => id) (fun _ => .inl) (fun _ => id)
    (fun _ => List.mem_of_mem_eraseIdx) fun _ => .inl

/-- What counting the bodies of a call leaves, where the call names the bodies it leaves out. -/
structure Counts (delivery : SkillDelivery) (tally : HoldTally) (next : SkillDelivery) (after : HoldTally) :
    Prop where
  length : next.claims.length = delivery.claims.length
  names : next.nameAt = delivery.nameAt
  answers : next.answers = delivery.answers
  activations : next.activations = delivery.activations
  injected : next.injected = delivery.injected
  queued : next.queued = delivery.queued
  holds : next.holds = delivery.holds
  left : ∀ name ∈ tally.left, name ∈ after.left
  told : (tally.left ≠ [] → tally.delivered ≠ []) → after.left ≠ [] → after.delivered ≠ []
  capped : ∀ id, (id, ClaimEnd.capped) ∈ next.ends → (id, ClaimEnd.capped) ∈ delivery.ends ∨
    ∃ name ∈ after.left, delivery.nameAt id = some name

theorem Counts.refl (delivery : SkillDelivery) (tally : HoldTally) : Counts delivery tally delivery tally :=
  ⟨rfl, rfl, rfl, rfl, rfl, rfl, rfl, fun _ => id, fun told => told, fun _ => .inl⟩

theorem Counts.trans {start between last : HoldTally} (one : Counts first start second between)
    (two : Counts second between third last) :
    Counts first start third last where
  length := two.length.trans one.length
  names := two.names.trans one.names
  answers := two.answers.trans one.answers
  activations := two.activations.trans one.activations
  injected := two.injected.trans one.injected
  queued := two.queued.trans one.queued
  holds := two.holds.trans one.holds
  left name among := two.left name (one.left name among)
  told before := two.told (one.told before)
  capped id ended := by
    rcases two.capped id ended with before | ⟨name, among, named⟩
    · rcases one.capped id before with earlier | ⟨name, among, named⟩
      · exact .inl earlier
      · exact .inr ⟨name, two.left name among, named⟩
    · exact .inr ⟨name, among, one.names ▸ named⟩

/-- A hold that leaves out a body names its skill. -/
theorem counts_countHold (toolName : String) {claims : List (String × ClaimId)} (tally : HoldTally)
    (names : ∀ named ∈ claims, delivery.Names named) :
    Counts delivery tally (countHold toolName claims delivery tally).1 (countHold toolName claims delivery tally).2 := by
  induction claims generalizing delivery tally with
  | nil => exact .refl delivery tally
  | cons claim rest ih =>
      obtain ⟨name, id⟩ := claim
      have others : ∀ named ∈ rest, delivery.Names named := fun other among =>
        names other (List.mem_cons_of_mem _ among)
      rw [countHold]
      split
      · exact ih tally others
      split
      · exact ih tally others
      · exact ih tally others
      next body has =>
      split
      · exact ih tally others
      split
      · next full =>
          have left : Counts delivery tally (delivery.leaveOut toolName name id)
              { tally with left := tally.left ++ [name] } := by
            refine ⟨changeClaim_length .., delivery.changeClaim_names id fun _ => rfl, rfl, rfl, rfl, rfl, rfl,
              fun _ => List.mem_append_left _, fun _ _ => full.2.1, fun other ended => ?_⟩
            rcases List.mem_append.mp ended with before | new
            · exact .inl before
            · obtain ⟨rfl, -⟩ := Prod.mk.inj (List.mem_singleton.mp new)
              exact .inr ⟨name, List.mem_append_right _ (List.mem_singleton_self _), names (name, other)
                List.mem_cons_self⟩
          exact left.trans (ih _ fun other among => delivery.leaveOut_names toolName name id (others other among))
      · have kept : Counts delivery tally (delivery.changeClaim id fun pending => { pending with kept := true })
            { tally with
              delivered := tally.delivered ++ [(name, id)]
              chars := tally.chars + textLength body } :=
          ⟨changeClaim_length .., delivery.changeClaim_names id fun _ => rfl, rfl, rfl, rfl, rfl, rfl,
            fun _ among => among, fun _ _ => by simp, fun _ => .inl⟩
        exact kept.trans (ih _ fun other among => delivery.keep_names id (others other among))

/-- A call that counted a body is answered with what it left out. -/
theorem answered_left {tally : HoldTally} (some' : tally.delivered ≠ []) (call : ToolCall) :
    ∃ answer ∈ if tally.delivered = [] then []
      else [({ call := call, delivered := tally.delivered, left := tally.left } : HeldAnswer)],
      answer.left = tally.left := by
  rw [if_neg some']
  exact ⟨_, List.mem_singleton_self _, rfl⟩

theorem Told.resumeHold (told : delivery.Told) (stepped : delivery.resumeHold place = some next) :
    Carries delivery next := by
  rw [SkillDelivery.resumeHold] at stepped
  split at stepped
  · cases stepped
  next waiting found =>
  dsimp only at stepped
  split at stepped
  · obtain rfl := Option.some.inj stepped
    have counts := @counts_countHold { delivery with holds := delivery.holds.eraseIdx place } waiting.call.name
      waiting.claims {} (told.holds waiting (List.mem_of_getElem? found))
    refine .quiet counts.length counts.names ?_ ?_ ?_ ?_ ?_ ?_
    · exact fun answer among => List.mem_append_left _ ((congrArg (answer ∈ ·) counts.answers).mpr among)
    · exact fun name among => (congrArg (name ∈ ·) counts.activations).mpr among
    · exact fun name marked => .inl ((congrArg (name ∈ ·) counts.injected).mp marked)
    · exact fun entry among => (congrArg (entry ∈ ·.entries) counts.queued).mp among
    · exact fun hold among => List.mem_of_mem_eraseIdx ((congrArg (hold ∈ ·) counts.holds).mp among)
    · intro id ended
      rcases counts.capped id ended with before | ⟨name, left, named⟩
      · exact .inl before
      · have some' := counts.told (fun none => absurd rfl none) (List.ne_nil_of_mem left)
        obtain ⟨pending, present, -⟩ := claims_of_nameAt named
        refine .inr ⟨?_, fun other same => .inl ?_⟩
        · exact counts.length.ge.trans_lt' (List.getElem?_eq_some_iff.mp present).1
        · have equal : other = name := Option.some.inj (same.symm.trans ((congrFun counts.names id).trans named))
          obtain ⟨answer, among, has⟩ := answered_left some' waiting.call
          exact ⟨answer, List.mem_append_right _ among, equal ▸ has ▸ left⟩
  · cases stepped

/-- A settle that is put back leaves the queue or takes some of its entries. -/
theorem Carries.putSettle (delivery : SkillDelivery) (place : Nat) (settle : RunningSettle) :
    Carries delivery (delivery.putSettle place settle) := by
  rw [SkillDelivery.putSettle]
  split
  · exact .quiet rfl rfl (fun _ => id) (fun _ => id) (fun _ => .inl) (unqueue_entries _ _) (fun _ => id) fun _ => .inl
  · exact .quiet rfl rfl (fun _ => id) (fun _ => id) (fun _ => .inl) (fun _ => id) (fun _ => id) fun _ => .inl

theorem Carries.settle (delivery : SkillDelivery) : Carries delivery delivery.settle := by
  have emptied (started : RunningSettle) : Carries delivery
      { delivery with fetches := [], settles := delivery.settles ++ [started] } :=
    .quiet rfl rfl (fun _ => id) (fun _ => id) (fun _ => .inl) (fun _ => id) (fun _ => id) fun _ => .inl
  exact (emptied _).trans (.putSettle ..)

/-- The skill of a claim that is given back is not marked any more. -/
theorem Carries.giveBack {pending : PendingOverlayFetch} (named : delivery.nameAt id = some pending.skillName)
    (how : ClaimEnd) (reason : NotDeliveredReason) : Carries delivery (delivery.giveBack id pending how reason) := by
  have fewer : ∀ name ∈ delivery.injected.filter (· ≠ pending.skillName), name ∈ delivery.injected :=
    fun name marked => List.mem_of_mem_filter marked
  refine .quiet rfl rfl (fun _ among => among) (fun _ among => among) (fun name marked => .inl (fewer name marked))
    (fun _ among => among) (fun _ among => among) ?_
  intro other ended
  rcases List.mem_append.mp ended with before | new
  · exact .inl before
  · obtain ⟨rfl, -⟩ := Prod.mk.inj (List.mem_singleton.mp new)
    obtain ⟨present, found, -⟩ := claims_of_nameAt named
    refine .inr ⟨(List.getElem?_eq_some_iff.mp found).1, fun name same => .inr (.inl fun marked => ?_)⟩
    obtain rfl : name = pending.skillName := Option.some.inj (same.symm.trans named)
    simpa using List.of_mem_filter marked

theorem Carries.finishClaim {how : ClaimEnd} (delivered : how ≠ .capped) :
    Carries delivery (delivery.finishClaim id how) := by
  refine .quiet rfl rfl (fun _ among => among) (fun _ among => among) (fun _ => .inl) (fun _ among => among)
    (fun _ among => among) ?_
  intro other ended
  rcases List.mem_append.mp ended with before | new
  · exact .inl before
  · exact absurd (Prod.mk.inj (List.mem_singleton.mp new)).2.symm delivered

theorem Carries.resumeSettle (stepped : delivery.resumeSettle place = some next) :
    Carries delivery next := by
  rw [SkillDelivery.resumeSettle] at stepped
  split at stepped
  · cases stepped
  split at stepped
  · cases stepped
  next id rest todo =>
  split at stepped
  · cases stepped
  next pending found =>
  have named : delivery.nameAt id = some pending.skillName := by rw [nameAt, found, Option.map_some]
  split at stepped
  · cases stepped
  · obtain rfl := Option.some.inj stepped
    exact (Carries.giveBack named .fetchFailed .fetchFailed).trans (.putSettle ..)
  · split at stepped
    · obtain rfl := Option.some.inj stepped
      have dropped : Carries delivery (delivery.changeClaim id fun pending => { pending with dropped := true }) :=
        .changeClaim delivery id fun _ => rfl
      exact dropped.trans ((Carries.giveBack (dropped.names id _ named) .capped .capped).trans (.putSettle ..))
    · obtain rfl := Option.some.inj stepped
      exact (Carries.finishClaim (by decide)).trans ((Carries.emit _ _).trans (.putSettle ..))

/-- Every step of a run accounts for the skills that it leaves out. -/
theorem Told.step {toolMatches : String → String → Bool} {candidates : List ConnectorSkillCandidate}
    {delivered : List String} (told : delivery.Told) {step : SkillStep}
    (stepped : (skillSystem toolMatches candidates delivered).step delivery step = some next) : next.Told := by
  apply told.carries
  cases step with
  | hold call readOnly => exact Option.some.inj stepped ▸ told.hold toolMatches candidates call readOnly
  | bodyArrives id body => exact .bodyArrives stepped
  | resumeHold place => exact told.resumeHold stepped
  | abortHold place =>
      obtain ⟨_, -, rfl⟩ := Option.map_eq_some_iff.mp stepped
      exact .dropHold delivery place
  | claimFor toolName => exact Option.some.inj stepped ▸ .claimFor delivery toolMatches candidates toolName
  | settle => exact Option.some.inj stepped ▸ .settle delivery
  | resumeSettle place => exact .resumeSettle stepped
  | activated name => exact Option.some.inj stepped ▸ .activated delivery name
  | renamedPastHold toolName readOnly =>
      exact Option.some.inj stepped ▸ .renamedPastHold delivery toolMatches candidates toolName readOnly

theorem claimFor_fetches (delivery : SkillDelivery) (toolMatches : String → String → Bool)
    (candidates : List ConnectorSkillCandidate) (toolName : String) :
    ∀ id ∈ delivery.fetches, id ∈ (delivery.claimFor toolMatches candidates toolName).fetches := by
  rw [SkillDelivery.claimFor]
  induction candidates generalizing delivery with
  | nil => exact fun _ => id
  | cons candidate rest ih =>
      rw [List.foldl_cons]
      split
      · exact ih delivery
      · split
        · exact fun id among => ih _ id (List.mem_append_left _ among)
        · exact ih delivery

/-- A skill that is not marked is claimed after any call of a tool it is bound to. -/
theorem deliverable_of_fresh {name : String} (toolMatches : String → String → Bool)
    (candidates : List ConnectorSkillCandidate) (fresh : name ∉ delivery.injected) :
    Deliverable toolMatches candidates delivery name := by
  intro candidate among same toolName bound
  rw [SkillDelivery.claimFor]
  induction candidates generalizing delivery with
  | nil => cases among
  | cons first rest ih =>
      rw [List.foldl_cons]
      by_cases marked : first.name ∈ delivery.injected
      · rw [if_pos marked]
        rcases List.mem_cons.mp among with rfl | later
        · exact absurd (same ▸ marked) fresh
        · exact ih fresh later
      rw [if_neg marked]
      by_cases claims : isBound toolMatches toolName first
      · rw [if_pos claims]
        by_cases equal : first.name = name
        · refine ⟨delivery.claims.length, ?_, ?_⟩
          · apply claimFor_fetches (delivery.claim first toolName none) toolMatches rest toolName
            exact List.mem_append_right _ (List.mem_singleton_self _)
          · apply (Carries.claimFor (delivery.claim first toolName none) toolMatches rest toolName).names
            rw [nameAt_claimed, equal]
        · apply ih
          · intro again
            rcases List.mem_insert_iff.mp again with same' | before
            · exact equal same'.symm
            · exact fresh before
          · exact (List.mem_cons.mp among).resolve_left fun first' => equal (first' ▸ same)
      · rw [if_neg claims]
        rcases List.mem_cons.mp among with rfl | later
        · exact absurd bound claims
        · exact ih fresh later

/-- What a run leaves out is named in a held result, or can still be delivered. -/
theorem Told.leftOutKnown (told : delivery.Told) (toolMatches : String → String → Bool)
    (candidates : List ConnectorSkillCandidate) : delivery.LeftOutKnown toolMatches candidates := by
  intro id ended name named
  rcases (told.capped id ended).2 name named with answered | fresh | later | activated
  · exact .inl answered
  · exact .inr (.inl (deliverable_of_fresh toolMatches candidates fresh))
  · exact .inr (.inr (.inl later))
  · exact .inr (.inr (.inr activated))

end SkillDelivery

end NimbleBrain.Engine

/- The guidance of one delivery is capped, as long as the holds counted no more than one delivery carries. -/

namespace NimbleBrain.Engine

open Library
open Conversation (textLength)

namespace SkillDelivery

variable {delivery next : SkillDelivery} {holds : List Nat → Prop}

/-- A settle keeps its account, and something holds of what was counted among its claims. -/
def Watched (holds : List Nat → Prop) (delivery : SkillDelivery) (settle : RunningSettle) : Prop :=
  delivery.Tracked settle ∧ holds (settle.taken.filterMap delivery.countedAt)

theorem Watched.congr {settle : RunningSettle} (watched : delivery.Watched holds settle)
    (same : ∀ id ∈ settle.taken, next.countedAt id = delivery.countedAt id) : next.Watched holds settle := by
  refine ⟨watched.1.congr same, ?_⟩
  rw [List.filterMap_congr same]
  exact watched.2

theorem workedOff_taken (delivery : SkillDelivery) (settle : RunningSettle) :
    (delivery.workedOff settle).taken = settle.taken := by
  rw [workedOff]
  split
  · rfl
  · split
    · rfl
    · split <;> rfl

/-- The settles under way keep their account. -/
structure Watchful (holds : List Nat → Prop) (delivery : SkillDelivery) : Prop extends Ready delivery where
  watched : ∀ settle ∈ delivery.settles, delivery.Watched holds settle

theorem Watchful.steady (watchful : delivery.Watchful holds) (steady : Steady delivery next) :
    next.Watchful holds where
  toReady := steady.toReady
  watched settle among :=
    (watchful.watched settle (steady.settles ▸ among)).congr fun id _ => congrFun steady.counted id

/-- A settle that is put back is watched, and what it returns is accounted for. -/
theorem Watchful.putSettle (watchful : delivery.Watchful holds) (place : Nat) {settle : RunningSettle}
    (watched : delivery.Watched holds settle) : (delivery.putSettle place settle).Watchful holds := by
  obtain ⟨settles, claims, fetches⟩ := putSettle_settles delivery place settle
  have steady := countedAt_congr claims
  refine ⟨⟨watchful.well.congr claims, by rw [claims, fetches]; exact watchful.listed⟩, fun other among => ?_⟩
  have before : delivery.Watched holds other := by
    rcases settles other among with earlier | rfl
    · exact watchful.watched other earlier
    · exact watched
  exact before.congr fun id _ => congrFun steady id

/-- What a settle returns fits exactly when what was counted does. -/
def Accounts (holds : List Nat → Prop) (answer : SettleReturn) : Prop :=
  (FitsCap answer.sizes ↔ FitsCap answer.counted) ∧ holds answer.counted

theorem Watched.returns {settle : RunningSettle} (watched : delivery.Watched holds settle) {answer : SettleReturn}
    (returned : answer ∈ delivery.returnOf settle) : Accounts holds answer := by
  refine ⟨watched.1.returns returned, ?_⟩
  rw [returnOf] at returned
  split at returned
  · rw [List.mem_singleton.mp returned]
    exact watched.2
  · cases returned

section Steps

variable {toolMatches : String → String → Bool} {candidates : List ConnectorSkillCandidate} {delivered : List String}

/-- A settle takes claims whose counted sizes are as required, and no call counts a claim that a settle has taken. -/
def SettlesWithin (holds : List Nat → Prop) (delivery : SkillDelivery) (step : SkillStep) : Prop :=
  delivery.Undisturbed step ∧ (step = .settle → holds (delivery.fetches.filterMap delivery.countedAt))

instance [∀ sizes, Decidable (holds sizes)] (delivery : SkillDelivery) (step : SkillStep) :
    Decidable (delivery.SettlesWithin holds step) :=
  inferInstanceAs (Decidable (_ ∧ _))

/-- A settle starts with every claim of the iteration. -/
theorem Watchful.settle (watchful : delivery.Watchful holds)
    (within : holds (delivery.fetches.filterMap delivery.countedAt)) :
    delivery.settle.Watchful holds ∧ ∀ answer ∈ delivery.returnsOf .settle, Accounts holds answer := by
  have started : delivery.Watched holds delivery.startedSettle := ⟨watchful.toReady.start, within⟩
  refine ⟨?_, fun answer returned => started.returns returned⟩
  have emptied : Watchful holds { delivery with
      fetches := [], settles := delivery.settles ++ [delivery.startedSettle] } := by
    refine ⟨⟨watchful.well.congr rfl, fun _ among => (List.not_mem_nil among).elim⟩, fun settle among => ?_⟩
    have before : delivery.Watched holds settle := by
      rcases List.mem_append.mp among with earlier | new
      · exact watchful.watched settle earlier
      · rw [List.mem_singleton.mp new]
        exact started
    exact before.congr fun _ _ => rfl
  exact emptied.putSettle delivery.settles.length (started.congr fun _ _ => rfl)

/-- A settle works off the claim at its head, and returns after the last. -/
theorem Watchful.resumeSettle (watchful : delivery.Watchful holds) {place : Nat}
    (stepped : delivery.resumeSettle place = some next) :
    next.Watchful holds ∧ ∀ answer ∈ delivery.returnsOf (.resumeSettle place), Accounts holds answer := by
  obtain ⟨settle, id, rest, base, found, todo, steady, rfl⟩ := watchful.toReady.resumeSettle stepped
  obtain ⟨tracked, within⟩ := watchful.watched settle (List.mem_of_getElem? found)
  have worked : delivery.Watched holds (delivery.workedOff settle) := by
    refine ⟨tracked.workedOff todo, ?_⟩
    rw [workedOff_taken]
    exact within
  refine ⟨?_, fun answer returned => ?_⟩
  · exact (watchful.steady steady).putSettle place (worked.congr fun id _ => congrFun steady.counted id)
  · rw [returnsOf, found, Option.toList_some, List.flatMap_singleton] at returned
    exact worked.returns returned

theorem Watchful.step (watchful : delivery.Watchful holds) {step : SkillStep}
    (met : delivery.SettlesWithin holds step)
    (stepped : (skillSystem toolMatches candidates delivered).step delivery step = some next) :
    next.Watchful holds ∧ ∀ answer ∈ delivery.returnsOf step, Accounts holds answer := by
  have quiet (none : delivery.returnsOf step = []) (steady : Steady delivery next) :
      next.Watchful holds ∧ ∀ answer ∈ delivery.returnsOf step, Accounts holds answer :=
    ⟨watchful.steady steady, fun answer returned => (List.not_mem_nil (none ▸ returned)).elim⟩
  have ready := watchful.toReady
  cases step with
  | hold call readOnly => exact quiet rfl (Option.some.inj stepped ▸ ready.hold toolMatches candidates call readOnly)
  | bodyArrives id body => exact quiet rfl (ready.bodyArrives stepped)
  | resumeHold place =>
      obtain ⟨after, settles, counted⟩ := ready.resumeHold met.1 stepped
      refine ⟨⟨after, fun settle among => ?_⟩, fun answer returned => (List.not_mem_nil returned).elim⟩
      have before : settle ∈ delivery.settles := settles ▸ among
      exact (watchful.watched settle before).congr fun id taken => counted settle before id taken
  | abortHold place => exact quiet rfl (ready.abortHold stepped)
  | claimFor toolName => exact quiet rfl (Option.some.inj stepped ▸ ready.claimFor toolMatches candidates toolName)
  | settle => exact Option.some.inj stepped ▸ watchful.settle (met.2 rfl)
  | resumeSettle place => exact watchful.resumeSettle stepped
  | activated name => exact quiet rfl (Option.some.inj stepped ▸ ready.activated name)
  | renamedPastHold toolName readOnly =>
      exact quiet rfl (Option.some.inj stepped ▸ ready.renamedPastHold toolMatches candidates toolName readOnly)

end Steps

end SkillDelivery

open SkillDelivery

variable {toolMatches : String → String → Bool} {candidates : List ConnectorSkillCandidate} {delivered : List String}
  {log : SettleLog} {holds : List Nat → Prop}

/-- Every settle of such a run accounts for what it returns. -/
theorem SettleLog.accounts (reached : (settleSystem toolMatches candidates delivered).ReachedBy
    (fun log step => log.delivery.SettlesWithin holds step) log) :
    ∀ answer ∈ log.returns, Accounts holds answer := by
  suffices log.delivery.Watchful holds ∧ ∀ answer ∈ log.returns, Accounts holds answer from this.2
  apply reached.invariant fun log => log.delivery.Watchful holds ∧ ∀ answer ∈ log.returns, Accounts holds answer
  · rintro ⟨delivery, returns⟩ ⟨rfl, rfl⟩
    refine ⟨⟨⟨?_, ?_⟩, ?_⟩, ?_⟩
    · intro id pending found
      cases found
    · exact fun _ among => (List.not_mem_nil among).elim
    · exact fun _ among => (List.not_mem_nil among).elim
    · exact fun _ among => (List.not_mem_nil among).elim
  · rintro before step after ⟨watchful, returns⟩ met stepped
    obtain ⟨next, moved, rfl⟩ := Option.map_eq_some_iff.mp stepped
    obtain ⟨after, new⟩ := watchful.step met moved
    refine ⟨after, fun answer among => ?_⟩
    rcases List.mem_append.mp among with earlier | last
    · exact returns answer earlier
    · exact new answer last

/-- Whatever happens in a run, the skills that it leaves out are accounted for. -/
theorem SettleLog.told (reached : (settleSystem toolMatches candidates delivered).Reachable log) :
    log.delivery.Told := by
  apply reached.invariant fun log => log.delivery.Told
  · rintro ⟨delivery, returns⟩ ⟨rfl, rfl⟩
    exact ⟨fun _ among => (List.not_mem_nil among).elim, fun _ among => (List.not_mem_nil among).elim,
      fun _ among => (List.not_mem_nil among).elim⟩
  · intro before step after told stepped
    obtain ⟨next, moved, rfl⟩ := Option.map_eq_some_iff.mp stepped
    exact told.step moved

/-- What a settle returns fits one delivery, and what the run leaves out is known to the model or deliverable. -/
def DeliversWithin (toolMatches : String → String → Bool) (candidates : List ConnectorSkillCandidate)
    (log : SettleLog) : Prop :=
  (∀ answer ∈ log.returns, FitsCap answer.sizes) ∧ log.delivery.LeftOutKnown toolMatches candidates

/-- Guidance is capped in every run whose settles take no more counted bodies than one delivery carries. -/
theorem guidance_capped (reached : (settleSystem toolMatches candidates delivered).ReachedBy
    (fun log step => log.delivery.SettlesWithin FitsCap step) log) : DeliversWithin toolMatches candidates log := by
  refine ⟨fun answer among => ?_, (SettleLog.told reached.reachable).leftOutKnown toolMatches candidates⟩
  obtain ⟨fits, counted⟩ := SettleLog.accounts reached answer among
  exact fits.mpr counted

/-- Two skills of two tools. -/
def apartCandidates : List ConnectorSkillCandidate :=
  [{ name := "a", toolAffinity := ["ta"], loadsBody := true, priority := some 1 },
    { name := "b", toolAffinity := ["tb"], loadsBody := true }]

/-- Two calls are held in parallel, and a settle returns what both counted. -/
def parallelRun (body : String) : List SkillStep :=
  [.hold ⟨"c1", "ta"⟩ false, .hold ⟨"c2", "tb"⟩ false, .bodyArrives 0 (some body), .bodyArrives 1 (some body),
    .resumeHold 0, .resumeHold 0, .settle, .resumeSettle 0, .resumeSettle 0]

theorem guidance_capped_parallel :
    ∃ log, (settleSystem sameTool apartCandidates []).run { delivery := { injected := [] } } (parallelRun "g") =
        some log ∧ log.returns.map SettleReturn.sizes = [[1, 1]] ∧ DeliversWithin sameTool apartCandidates log := by
  have reached : (settleSystem sameTool apartCandidates []).ReachedBy
      (fun log step => log.delivery.SettlesWithin FitsCap step) { delivery := { injected := [] } } :=
    .start _ ⟨rfl, rfl⟩
  have meets : (settleSystem sameTool apartCandidates []).Meets
      (fun log step => log.delivery.SettlesWithin FitsCap step) { delivery := { injected := [] } }
      (parallelRun "g") := by
    decide +kernel
  obtain ⟨log, ran⟩ : ∃ log,
    (settleSystem sameTool apartCandidates []).run { delivery := { injected := [] } } (parallelRun "g") = some log :=
    ⟨_, rfl⟩
  have sizes : ((settleSystem sameTool apartCandidates []).run { delivery := { injected := [] } }
      (parallelRun "g")).all fun log => decide (log.returns.map SettleReturn.sizes = [[1, 1]]) := by
    decide +kernel
  rw [ran, Option.all_some, decide_eq_true_eq] at sizes
  exact ⟨log, ran, sizes, guidance_capped (reached.run meets ran)⟩

theorem parallelRun_sizes (body : String) :
    ((settleSystem sameTool apartCandidates []).run { delivery := { injected := [] } } (parallelRun body)).map
      (fun log => log.returns.map SettleReturn.sizes) = some [[textLength body, textLength body]] := rfl

/-- Each of two parallel calls counts a body of its own, and one settle returns both past the cap. -/
theorem settle_overfull :
    ¬ ∀ log, (settleSystem sameTool apartCandidates []).Reachable log → ∀ answer ∈ log.returns, FitsCap answer.sizes := by
  intro capped
  obtain ⟨long, large⟩ : ∃ long : String, textLength long = maxHeldGuidanceChars :=
    ⟨String.ofList (List.replicate maxHeldGuidanceChars 'a'), by simp [textLength, Conversation.units]⟩
  obtain ⟨log, ran, sizes⟩ := Option.map_eq_some_iff.mp (parallelRun_sizes long)
  have first : (settleSystem sameTool apartCandidates []).initial { delivery := { injected := [] } } := ⟨rfl, rfl⟩
  have reached := System.Reachable.run (.start _ first) ran
  obtain ⟨answer, among, same⟩ : ∃ answer ∈ log.returns, answer.sizes = [textLength long, textLength long] := by
    have listed : [textLength long, textLength long] ∈ log.returns.map SettleReturn.sizes := by
      rw [sizes]
      exact List.mem_singleton_self _
    exact List.mem_map.mp listed
  have fits := capped log reached answer among
  rw [same, large] at fits
  exact absurd fits (by decide)

end NimbleBrain.Engine
