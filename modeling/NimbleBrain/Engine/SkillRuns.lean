import NimbleBrain.Engine.SkillClaims

/- Every step of a run's delivery keeps the claims sound, unless a hold leaves out what a settle has taken. -/

namespace NimbleBrain.Engine

open Library
open Conversation (textLength)

theorem delivers_notDelivered (events : List SkillEvent) (toolName name : String) (reason : NotDeliveredReason) :
    (events ++ [SkillEvent.notDelivered toolName name reason]).filterMap SkillEvent.delivers =
      events.filterMap SkillEvent.delivers := by
  simp [SkillEvent.delivers]

namespace SkillDelivery

variable {delivered : List String} {delivery : SkillDelivery}

/-- Whether the hold leaves out a body whose claim a settle has taken. -/
def leavesOutTaken (toolName : String) : List (String × ClaimId) → SkillDelivery → HoldTally → Bool
  | [], _, _ => false
  | (name, id) :: rest, delivery, tally =>
      match delivery.claims[id]? with
      | none => leavesOutTaken toolName rest delivery tally
      | some pending =>
          match pending.body with
          | none | some none => leavesOutTaken toolName rest delivery tally
          | some (some body) =>
              if pending.dropped then leavesOutTaken toolName rest delivery tally
              else if !pending.kept ∧ tally.delivered ≠ [] ∧ maxHeldGuidanceChars < tally.chars + textLength body then
                decide (id ∉ delivery.fetches) ||
                  leavesOutTaken toolName rest (delivery.leaveOut toolName name id)
                    { tally with left := tally.left ++ [name] }
              else
                leavesOutTaken toolName rest (delivery.changeClaim id fun pending => { pending with kept := true })
                  { tally with
                    delivered := tally.delivered ++ [(name, id)]
                    chars := tally.chars + textLength body }

theorem unqueue_entries (delivery : SkillDelivery) (taken : List ClaimId) :
    ∀ entry ∈ (delivery.unqueue taken).queued.entries, entry ∈ delivery.queued.entries := by
  unfold unqueue
  dsimp only
  generalize delivery.queued = queued
  induction taken generalizing queued with
  | nil => exact fun entry listed => listed
  | cons id rest ih =>
      intro entry listed
      have earlier := ih _ entry listed
      beta_reduce at earlier
      split at earlier
      · split at earlier
        · exact (OrderedMap.mem_delete.mp earlier).1
        · exact earlier
      · exact earlier

variable {place : Nat} {settles : List RunningSettle} {id : ClaimId} {rest : List ClaimId}
  {pending : PendingOverlayFetch} {queued : OrderedMap String ClaimId} {next : SkillDelivery} {name : String}
  {named : String × ClaimId} {claims : List (String × ClaimId)}

theorem todo_perm {settle : RunningSettle} (found : settles[place]? = some settle) :
    (settles.flatMap RunningSettle.todo).Perm
      (settle.todo ++ (settles.eraseIdx place).flatMap RunningSettle.todo) := by
  obtain ⟨within, rfl⟩ := List.getElem?_eq_some_iff.mp found
  exact (List.getElem_cons_eraseIdx_perm within).symm.flatMap_right _

/-- A settle is put back with its work, or leaves the queue behind when it has none. -/
theorem putSettle_effect (delivery : SkillDelivery) (within : place < delivery.settles.length)
    (settle : RunningSettle) :
    ∃ settles queued, delivery.putSettle place settle = { delivery with settles := settles, queued := queued } ∧
      (settles.flatMap RunningSettle.todo).Perm
        (settle.todo ++ (delivery.settles.eraseIdx place).flatMap RunningSettle.todo) ∧
      ∀ entry ∈ queued.entries, entry ∈ delivery.queued.entries := by
  rw [putSettle]
  split
  · next done =>
      let left : SkillDelivery := { delivery with settles := delivery.settles.eraseIdx place }
      refine ⟨delivery.settles.eraseIdx place, (left.unqueue settle.taken).queued, rfl, ?_, ?_⟩
      · rw [done]
        rfl
      · exact left.unqueue_entries settle.taken
  · refine ⟨delivery.settles.set place settle, delivery.queued, rfl, ?_, fun entry listed => listed⟩
    exact (List.set_perm_cons_eraseIdx within settle).flatMap_right _

/-- The claim at the head of a settle is pending. -/
theorem pending_head {settle : RunningSettle}
    (found : delivery.settles[place]? = some settle) (todo : settle.todo = id :: rest)
    (moved : (settles.flatMap RunningSettle.todo).Perm
      (rest ++ (delivery.settles.eraseIdx place).flatMap RunningSettle.todo)) :
    delivery.pending.Perm (id :: ((delivery.fetches.filter fun id => !delivery.isDropped id) ++
      settles.flatMap RunningSettle.todo)) := by
  have before := todo_perm found
  rw [todo, List.cons_append] at before
  exact (before.append_left _).trans (List.perm_middle.trans ((moved.symm.append_left _).cons id))

theorem Sound.pending_once (sound : delivery.Sound delivered) (id : Nat) : delivery.pending.count id ≤ 1 := by
  have total := sound.conserved id
  split at total <;> omega

/-- A claim that a settle has still to do is not in the list that the next settle takes. -/
theorem Sound.taken_apart (sound : delivery.Sound delivered) {settle : RunningSettle}
    (found : delivery.settles[place]? = some settle) (todo : settle.todo = id :: rest)
    (listed : id ∈ delivery.fetches) : delivery.isDropped id = true := by
  by_contra undropped
  have first : 0 < (delivery.fetches.filter fun id => !delivery.isDropped id).count id :=
    List.count_pos_iff.mpr (List.mem_filter.mpr ⟨listed, by simpa using undropped⟩)
  have second : 0 < (delivery.settles.flatMap RunningSettle.todo).count id := by
    apply List.count_pos_iff.mpr
    rw [(todo_perm found).mem_iff, todo]
    exact List.mem_cons_self
  have both := sound.pending_once id
  rw [pending, List.count_append] at both
  omega

theorem pending_mem {settle : RunningSettle} (found : delivery.settles[place]? = some settle)
    (todo : settle.todo = id :: rest) : id ∈ delivery.pending := by
  rw [pending, List.mem_append, List.mem_flatMap]
  exact .inr ⟨settle, List.mem_of_getElem? found, todo ▸ List.mem_cons_self⟩

/-- A claim that is given back ends, and its skill may be claimed again. -/
theorem Sound.endGivenBack (sound : delivery.Sound delivered) {how : ClaimEnd}
    (at' : delivery.claims[id]? = some pending) (failed : how ≠ .injected) (reason : NotDeliveredReason)
    {claims : List PendingOverlayFetch} (change : delivery.ChangesClaim { delivery with claims := claims } id how)
    (moved : delivery.pending.Perm (id :: SkillDelivery.pending { delivery with claims := claims, settles := settles }))
    (kept : ∀ entry ∈ queued.entries, entry ∈ delivery.queued.entries) :
    Sound delivered { SkillDelivery.giveBack { delivery with claims := claims } id pending how reason with
      settles := settles, queued := queued } := by
  have named : delivery.nameAt id = some pending.skillName := by rw [nameAt, at', Option.map_some]
  have quiet : (delivery.events ++ [SkillEvent.notDelivered pending.toolName pending.skillName reason]).filterMap
      SkillEvent.delivers = delivery.injectedNames := delivers_notDelivered ..
  apply @Sound.endClaim _ _ sound _ id how
  exact {
    length := change.length
    names := change.names
    others := change.others
    fits := change.fits
    unkept := change.unkept
    keeps := change.keeps
    pending := moved
    ends := rfl
    fetches := fun _ listed => listed
    injected := by
      intro name before other
      have apart : name ≠ pending.skillName := fun same => other (named.trans (congrArg some same.symm))
      exact List.mem_filter.mpr ⟨before, decide_eq_true apart⟩
    closed := by
      intro name closed
      rw [closedNames, injectedNames] at closed
      exact .inl (by
        rw [closedNames, ← quiet]
        exact closed)
    once := (congrArg List.Nodup quiet).mpr sound.once
    apart := by
      intro name emitted
      exact sound.apart name (quiet ▸ emitted)
    emitted := fun name emitted => (congrArg (name ∈ ·) quiet).mpr emitted
    emits := fun same => absurd same failed
    queued := kept
    holds := rfl
    held := rfl
    holdsStarted := rfl
    answers := rfl }

/-- A claim whose body is emitted ends, and its skill is closed for the run. -/
theorem Sound.endInjected (sound : delivery.Sound delivered) {body : String}
    (at' : delivery.claims[id]? = some pending) (has : pending.body = some (some body))
    (waits : id ∈ delivery.pending)
    (moved : delivery.pending.Perm (id :: SkillDelivery.pending { delivery with settles := settles }))
    (kept : ∀ entry ∈ queued.entries, entry ∈ delivery.queued.entries) :
    Sound delivered { (delivery.finishClaim id .injected).emit (.injected (pending.payload body)) with
      settles := settles, queued := queued } := by
  have named : delivery.nameAt id = some pending.skillName := by rw [nameAt, at', Option.map_some]
  obtain ⟨marked, fresh⟩ := sound.live id waits _ named
  have emits : (delivery.events ++ [SkillEvent.injected (pending.payload body)]).filterMap SkillEvent.delivers =
      delivery.injectedNames ++ [pending.skillName] := by
    rw [List.filterMap_append]
    rfl
  have member (name : String) : name ∈ delivery.injectedNames ++ [pending.skillName] ↔
      name ∈ delivery.injectedNames ∨ name = pending.skillName := by
    rw [List.mem_append, List.mem_singleton]
  have outside : pending.skillName ∉ delivered ++ delivery.activations ++ delivery.notIncluded ∧
      pending.skillName ∉ delivery.injectedNames := by
    rw [closedNames, List.mem_append, not_or] at fresh
    exact fresh
  have change : delivery.ChangesClaim delivery id .injected :=
    .same rfl fun ended found => ⟨body, by rw [← has, Option.some.inj (found.symm.trans at')]⟩
  apply @Sound.endClaim _ _ sound _ id .injected
  exact {
    length := change.length
    names := change.names
    others := change.others
    fits := change.fits
    unkept := change.unkept
    keeps := change.keeps
    pending := moved
    ends := rfl
    fetches := fun _ listed => listed
    injected := fun _ before _ => before
    closed := by
      intro name closed
      rcases List.mem_append.mp closed with before | emitted
      · exact .inl (List.mem_append_left _ before)
      · rcases (member name).mp ((congrArg (name ∈ ·) emits).mp emitted) with before | rfl
        · exact .inl (List.mem_append_right _ before)
        · exact .inr ⟨named, marked⟩
    once := by
      apply (congrArg List.Nodup emits).mpr
      rw [List.nodup_append]
      refine ⟨sound.once, List.nodup_singleton _, ?_⟩
      intro name before other new same
      rw [List.mem_singleton.mp new] at same
      exact outside.2 (same ▸ before)
    apart := by
      intro name emitted
      rcases (member name).mp ((congrArg (name ∈ ·) emits).mp emitted) with before | rfl
      · exact sound.apart name before
      · exact outside.1
    emitted := fun name emitted => (congrArg (name ∈ ·) emits).mpr ((member name).mpr (.inl emitted))
    emits := by
      intro _ name same
      have equal : name = pending.skillName := Option.some.inj (same.symm.trans named)
      exact (congrArg (name ∈ ·) emits).mpr ((member name).mpr (.inr equal))
    queued := kept
    holds := rfl
    held := rfl
    holdsStarted := rfl
    answers := rfl }

/-- A settle works off the claim at its head. -/
theorem Sound.resumeSettle (sound : delivery.Sound delivered) (stepped : delivery.resumeSettle place = some next) :
    next.Sound delivered := by
  rw [SkillDelivery.resumeSettle] at stepped
  split at stepped
  · cases stepped
  next settle found =>
  split at stepped
  · cases stepped
  next id rest todo =>
  split at stepped
  · cases stepped
  next pending at' =>
  have within : place < delivery.settles.length := (List.getElem?_eq_some_iff.mp found).1
  split at stepped
  · cases stepped
  · next lost =>
    obtain ⟨settles, queued, effect, moved, kept⟩ := putSettle_effect
      (delivery.giveBack id pending .fetchFailed .fetchFailed) within { settle with todo := rest }
    rw [effect, Option.some.injEq] at stepped
    subst stepped
    apply sound.endGivenBack at' (by decide) .fetchFailed
    · apply ChangesClaim.same rfl
      intro ended same
      exact Option.some.inj (same.symm.trans at') ▸ lost
    · exact pending_head found todo moved
    · exact kept
  · next body has =>
    split at stepped
    · next tooLarge =>
      obtain ⟨settles, queued, effect, moved, kept⟩ := putSettle_effect
        ((delivery.changeClaim id fun pending => { pending with dropped := true }).giveBack id pending .capped .capped)
        within { settle with todo := rest }
      rw [effect, Option.some.injEq] at stepped
      subst stepped
      apply sound.endGivenBack at' (by decide) .capped
      · apply ChangesClaim.dropped rfl
        intro ended same marked
        rw [Option.some.inj (same.symm.trans at')] at marked
        simp [marked] at tooLarge
      · have same : (delivery.fetches.filter fun other => !delivery.isDropped other) =
            delivery.fetches.filter fun other =>
              !(delivery.changeClaim id fun pending => { pending with dropped := true }).isDropped other := by
          apply List.filter_congr
          intro other listed
          by_cases equal : id = other
          · subst equal
            have after : (delivery.changeClaim id fun pending => { pending with dropped := true }).isDropped id =
                true := by
              rw [isDropped, changeClaim_at, if_pos rfl, at']
              rfl
            rw [sound.taken_apart found todo listed, after]
          · rw [delivery.changeClaim_isDropped id other (.inl equal)]
        have before := pending_head found todo moved
        rw [same] at before
        exact before
      · exact kept
    · obtain ⟨settles, queued, effect, moved, kept⟩ := putSettle_effect
        ((delivery.finishClaim id .injected).emit (.injected (pending.payload body)))
        within { settle with
                        todo := rest
                        deliveries := settle.deliveries ++ [pending.payload body]
                        chars := settle.chars + textLength body }
      rw [effect, Option.some.injEq] at stepped
      subst stepped
      exact sound.endInjected at' has (pending_mem found todo) (pending_head found todo moved) kept

/-- A claim that no settle has taken can be left out. Its skill is closed for the run. -/
theorem Sound.leaveOut (sound : delivery.Sound delivered) (at' : delivery.claims[id]? = some pending)
    (named : delivery.nameAt id = some name) (undropped : ¬ pending.dropped = true) (unkept : ¬ pending.kept = true)
    (untaken : id ∈ delivery.fetches) (toolName : String) :
    (delivery.leaveOut toolName name id).Sound delivered := by
  have present : delivery.isDropped id = false := by
    rw [isDropped, at']
    simpa using undropped
  have among : id ∈ delivery.fetches.filter fun id => !delivery.isDropped id :=
    List.mem_filter.mpr ⟨untaken, by rw [present]; rfl⟩
  have distinct : (delivery.fetches.filter fun id => !delivery.isDropped id).Nodup := by
    rw [List.nodup_iff_count_le_one]
    intro other
    have total := sound.pending_once other
    rw [SkillDelivery.pending, List.count_append] at total
    omega
  have waits : id ∈ delivery.pending := List.mem_append_left _ among
  obtain ⟨marked, fresh⟩ := sound.live id waits name named
  have quiet : (delivery.events ++ [SkillEvent.notDelivered toolName name .capped]).filterMap SkillEvent.delivers =
      delivery.injectedNames := delivers_notDelivered ..
  have inserted (other : String) : other ∈ delivery.notIncluded.insert name ↔
      other = name ∨ other ∈ delivery.notIncluded := List.mem_insert_iff
  have change : delivery.ChangesClaim (delivery.leaveOut toolName name id) id .capped := by
    apply ChangesClaim.dropped (show (delivery.leaveOut toolName name id).claims = _ from rfl)
    intro ended same
    exact Option.some.inj (same.symm.trans at') ▸ unkept
  have rest : (delivery.fetches.filter fun other => !(delivery.leaveOut toolName name id).isDropped other) =
      (delivery.fetches.filter fun id => !delivery.isDropped id).erase id := by
    rw [distinct.erase_eq_filter, List.filter_filter]
    apply List.filter_congr
    intro other _
    change (!(delivery.changeClaim id fun pending => { pending with dropped := true }).isDropped other) = _
    by_cases same : id = other
    · subst same
      rw [isDropped, changeClaim_at, if_pos rfl, at']
      simp
    · rw [delivery.changeClaim_isDropped id other (.inl same)]
      simp [Ne.symm same]
  apply @Sound.endClaim _ _ sound _ id .capped
  exact {
    length := change.length
    names := change.names
    others := change.others
    fits := change.fits
    unkept := change.unkept
    keeps := change.keeps
    pending := by
      have left : (delivery.leaveOut toolName name id).pending = _ :=
        congrArg (· ++ delivery.settles.flatMap RunningSettle.todo) rest
      rw [left, ← List.cons_append]
      exact (List.perm_cons_erase among).append_right _
    ends := rfl
    fetches := fun _ listed => listed
    injected := fun _ before _ => before
    closed := by
      intro other closed
      rcases List.mem_append.mp closed with before | emitted
      · rcases List.mem_append.mp before with before | left
        · exact .inl (List.mem_append_left _ (List.mem_append_left _ before))
        · rcases (inserted other).mp left with rfl | before
          · exact .inr ⟨named, marked⟩
          · exact .inl (List.mem_append_left _ (List.mem_append_right _ before))
      · exact .inl (List.mem_append_right _ ((congrArg (other ∈ ·) quiet).mp emitted))
    once := (congrArg List.Nodup quiet).mpr sound.once
    apart := by
      intro other told closed
      have emitted : other ∈ delivery.injectedNames := (congrArg (other ∈ ·) quiet).mp told
      rcases List.mem_append.mp closed with before | left
      · exact sound.apart other emitted (List.mem_append_left _ before)
      · rcases (inserted other).mp left with same | before
        · exact fresh (List.mem_append_right _ (same ▸ emitted))
        · exact sound.apart other emitted (List.mem_append_right _ before)
    emitted := fun other emitted => (congrArg (other ∈ ·) quiet).mpr emitted
    emits := fun same => by cases same
    queued := fun _ listed => listed
    holds := rfl
    held := rfl
    holdsStarted := rfl
    answers := rfl }

/-- A change that keeps a claim's name, its ends and its marks keeps the claims sound. -/
theorem Sound.changeClaim (sound : delivery.Sound delivered)
    (at' : delivery.claims[id]? = some pending) {change : PendingOverlayFetch → PendingOverlayFetch}
    (name : ∀ pending, (change pending).skillName = pending.skillName)
    (dropped : ∀ pending, (change pending).dropped = pending.dropped)
    (fits : ∀ how : ClaimEnd, how.Fits pending → how.Fits (change pending))
    (kept : (change pending).kept = true →
      (∃ body, (change pending).body = some (some body)) ∧ (change pending).dropped = false)
    (still : pending.kept = true → (change pending).kept = true) : (delivery.changeClaim id change).Sound delivered := by
  have names (other : ClaimId) := delivery.changeClaim_nameAt id other name
  have waiting : (delivery.changeClaim id change).pending = delivery.pending := by
    have same := List.filter_congr (l := delivery.fetches) fun other _ =>
      congrArg Bool.not (delivery.changeClaim_isDropped id other (.inr dropped))
    exact congrArg (· ++ delivery.settles.flatMap RunningSettle.todo) same
  have own : (delivery.changeClaim id change).claims[id]? = some (change pending) := by
    rw [changeClaim_at, if_pos rfl, at', Option.map_some]
  have others (other : ClaimId) (different : other ≠ id) :
      (delivery.changeClaim id change).claims[other]? = delivery.claims[other]? := by
    rw [changeClaim_at, if_neg different.symm]
  constructor
  · intro other
    rw [waiting, changeClaim_length]
    exact sound.conserved other
  · intro other member another member' same
    rw [names, names] at same
    rw [waiting] at member member'
    exact sound.distinct other member another member' same
  · intro other listed
    rw [changeClaim_length]
    exact sound.listed other listed
  · intro other member skill named
    rw [names] at named
    rw [waiting] at member
    exact sound.live other member skill named
  · exact sound.closed
  · exact sound.once
  · exact sound.apart
  · intro other ended skill named
    rw [names] at named
    exact sound.emitted other ended skill named
  · intro other how ended now found
    by_cases same : other = id
    · subst same
      rw [own, Option.some.injEq] at found
      exact found ▸ fits how (sound.endings other how ended pending at')
    · exact sound.endings other how ended now ((others other same).symm.trans found)
  · intro other now found marked
    by_cases same : other = id
    · subst same
      rw [own, Option.some.injEq] at found
      subst found
      exact kept marked
    · exact sound.kept other now ((others other same).symm.trans found) marked
  · exact fun entry listed => (names entry.2).trans (sound.queuedNames entry listed)
  · exact fun hold listed named among => (names named.2).trans (sound.holdNames hold listed named among)
  · exact sound.startedOnce
  · exact sound.started
  · intro answer listed
    obtain ⟨some', named⟩ := sound.answered answer listed
    refine ⟨some', fun skill among => ?_⟩
    obtain ⟨names', before, found, marked⟩ := named skill among
    refine ⟨(names skill.2).trans names', ?_⟩
    by_cases same : skill.2 = id
    · rw [same] at found ⊢
      rw [Option.some.inj (found.symm.trans at')] at marked
      exact ⟨change pending, own, still marked⟩
    · exact ⟨before, (others skill.2 same).trans found, marked⟩

/-- The call that is answered names a skill whose claim is kept. -/
def Keeps (delivery : SkillDelivery) (named : String × ClaimId) : Prop :=
  delivery.Names named ∧ ∃ pending, delivery.claims[named.2]? = some pending ∧ pending.kept = true

theorem leaveOut_names (delivery : SkillDelivery) (toolName name : String) (id : ClaimId)
    (names : delivery.Names named) : (delivery.leaveOut toolName name id).Names named := by
  change (delivery.changeClaim id fun pending => { pending with dropped := true }).nameAt named.2 = some named.1
  rw [changeClaim_nameAt]
  · exact names
  · exact fun _ => rfl

theorem keep_names (delivery : SkillDelivery) (id : ClaimId) (names : delivery.Names named) :
    (delivery.changeClaim id fun pending => { pending with kept := true }).Names named := by
  rw [Names, changeClaim_nameAt]
  · exact names
  · exact fun _ => rfl

/-- Every body that a hold counts is kept. -/
theorem Sound.countHold (toolName : String) {tally : HoldTally} (sound : delivery.Sound delivered)
    (names : ∀ named ∈ claims, delivery.Names named) (counted : ∀ named ∈ tally.delivered, delivery.Keeps named)
    (untaken : leavesOutTaken toolName claims delivery tally = false) :
    Sound delivered (SkillDelivery.countHold toolName claims delivery tally).1 ∧
      ∀ named ∈ (SkillDelivery.countHold toolName claims delivery tally).2.delivered,
        (SkillDelivery.countHold toolName claims delivery tally).1.Keeps named := by
  induction claims generalizing delivery tally with
  | nil => exact ⟨sound, counted⟩
  | cons claim rest ih =>
      obtain ⟨name, id⟩ := claim
      have named : delivery.nameAt id = some name := names (name, id) List.mem_cons_self
      have others : ∀ named ∈ rest, delivery.Names named := fun other among =>
        names other (List.mem_cons_of_mem _ among)
      obtain ⟨pending, at', rfl⟩ := claims_of_nameAt named
      rw [leavesOutTaken, at'] at untaken
      rw [SkillDelivery.countHold, at']
      dsimp only at untaken ⊢
      cases body : pending.body with
      | none =>
          rw [body] at untaken
          exact ih sound others counted untaken
      | some arrived =>
          cases arrived with
          | none =>
              rw [body] at untaken
              exact ih sound others counted untaken
          | some text =>
              rw [body] at untaken
              dsimp only at untaken ⊢
              by_cases dropped : pending.dropped = true
              · rw [if_pos dropped] at untaken ⊢
                exact ih sound others counted untaken
              rw [if_neg dropped] at untaken ⊢
              by_cases large : !pending.kept ∧ tally.delivered ≠ [] ∧
                  maxHeldGuidanceChars < tally.chars + textLength text
              · rw [if_pos large] at untaken ⊢
                rw [Bool.or_eq_false_iff, decide_eq_false_iff_not, not_not] at untaken
                have unkept : ¬ pending.kept = true := by simpa using large.1
                apply ih (sound.leaveOut at' named dropped unkept untaken.1 toolName)
                · exact fun other among => delivery.leaveOut_names toolName _ id (others other among)
                · intro other among
                  obtain ⟨names', kept, found, marked⟩ := counted other among
                  refine ⟨delivery.leaveOut_names toolName _ id names', kept, ?_, marked⟩
                  have different : id ≠ other.2 := by
                    rintro rfl
                    exact unkept (Option.some.inj (found.symm.trans at') ▸ marked)
                  exact (delivery.changeClaim_at id other.2 _).trans ((if_neg different).trans found)
                · exact untaken.2
              · rw [if_neg large] at untaken ⊢
                have own : (delivery.changeClaim id fun pending => { pending with kept := true }).claims[id]? =
                    some { pending with kept := true } := by
                  rw [changeClaim_at, if_pos rfl, at', Option.map_some]
                apply ih
                · apply sound.changeClaim at'
                  · exact fun _ => rfl
                  · exact fun _ => rfl
                  · exact fun how fits => by cases how <;> exact fits
                  · exact fun _ => ⟨⟨text, body⟩, by simpa using dropped⟩
                  · exact fun _ => rfl
                · exact fun other among => delivery.keep_names id (others other among)
                · intro other among
                  rcases List.mem_append.mp among with before | new
                  · obtain ⟨names', kept, found, marked⟩ := counted other before
                    refine ⟨delivery.keep_names id names', ?_⟩
                    rw [changeClaim_at, found]
                    split
                    · exact ⟨_, rfl, rfl⟩
                    · exact ⟨kept, rfl, marked⟩
                  · rw [List.mem_singleton.mp new]
                    exact ⟨delivery.keep_names id named, _, own, rfl⟩
                · exact untaken

/-- A call that resumes under the guard answers for bodies that it kept. -/
theorem Sound.resumeHold (sound : delivery.Sound delivered) {waiting : WaitingHold}
    (found : delivery.holds[place]? = some waiting)
    (untaken : leavesOutTaken waiting.call.name waiting.claims
      { delivery with holds := delivery.holds.eraseIdx place } {} = false)
    (stepped : delivery.resumeHold place = some next) : next.Sound delivered := by
  rw [SkillDelivery.resumeHold, found] at stepped
  dsimp only at stepped
  split at stepped
  · have left : Sound delivered { delivery with holds := delivery.holds.eraseIdx place } :=
      sound.quiet {
        pending := .refl _
        fetches := fun _ listed => listed
        queued := fun _ listed => listed
        holds := fun _ listed => List.mem_of_mem_eraseIdx listed
        injectedNames := rfl
        claims := rfl
        injected := rfl
        notIncluded := rfl
        activations := rfl
        ends := rfl
        held := rfl
        holdsStarted := rfl
        answers := rfl }
    obtain ⟨counted, keeps⟩ := left.countHold waiting.call.name
      (sound.holdNames waiting (List.mem_of_getElem? found)) (fun _ among => (List.not_mem_nil among).elim) untaken
    rw [Option.some.injEq] at stepped
    subst stepped
    refine { counted with answered := ?_ }
    intro answer listed
    rcases List.mem_append.mp listed with before | new
    · exact counted.answered answer before
    · split at new
      · cases new
      · next some' =>
        rw [List.mem_singleton.mp new]
        exact ⟨some', keeps⟩
  · cases stepped

theorem Sound.abortHold (sound : delivery.Sound delivered) (stepped : delivery.abortHold place = some next) :
    next.Sound delivered := by
  obtain ⟨_, -, rfl⟩ := Option.map_eq_some_iff.mp stepped
  exact sound.quiet {
    pending := .refl _
    fetches := fun _ listed => listed
    queued := fun _ listed => listed
    holds := fun _ listed => List.mem_of_mem_eraseIdx listed
    injectedNames := rfl
    claims := rfl
    injected := rfl
    notIncluded := rfl
    activations := rfl
    ends := rfl
    held := rfl
    holdsStarted := rfl
    answers := rfl }

theorem Sound.bodyArrives (sound : delivery.Sound delivered) {body : Option String}
    (stepped : delivery.bodyArrives id body = some next) : next.Sound delivered := by
  rw [SkillDelivery.bodyArrives] at stepped
  split at stepped
  · next pending at' =>
    split at stepped
    · cases stepped
    · next absent =>
      have none' : pending.body = none := by simpa using absent
      rw [Option.some.injEq] at stepped
      subst stepped
      apply sound.changeClaim at'
      · exact fun _ => rfl
      · exact fun _ => rfl
      · intro how fits
        cases how with
        | injected =>
            obtain ⟨text, has⟩ := fits
            cases none'.symm.trans has
        | fetchFailed => cases none'.symm.trans fits
        | capped => exact fits
      · intro marked
        obtain ⟨⟨text, has⟩, -⟩ := sound.kept id pending at' marked
        cases none'.symm.trans has
      · exact fun marked => marked
  · cases stepped

/-- A settle takes every claim that is not left out. -/
theorem Sound.settle (sound : delivery.Sound delivered) : delivery.settle.Sound delivered := by
  let todo := (delivery.fetches.filter fun id => !delivery.isDropped id).insertionSort delivery.settlesBefore
  let started : RunningSettle := { taken := delivery.fetches, todo := todo }
  let emptied := { delivery with fetches := [], settles := delivery.settles ++ [started] }
  obtain ⟨settles, queued, effect, moved, kept⟩ := putSettle_effect emptied
    (show delivery.settles.length < (delivery.settles ++ [started]).length by simp) started
  rw [SkillDelivery.settle, effect]
  have sorted : todo.Perm (delivery.fetches.filter fun id => !delivery.isDropped id) := List.perm_insertionSort ..
  have earlier : emptied.settles.eraseIdx delivery.settles.length = delivery.settles := by
    change (delivery.settles ++ [started]).eraseIdx delivery.settles.length = _
    rw [List.eraseIdx_append_of_length_le (Nat.le_refl _), Nat.sub_self, List.eraseIdx_cons_zero, List.append_nil]
  rw [earlier] at moved
  exact sound.quiet {
    pending := ((sorted.symm.append_right _).trans moved.symm)
    fetches := fun _ listed => (List.not_mem_nil listed).elim
    queued := kept
    holds := fun _ listed => listed
    injectedNames := rfl
    claims := rfl
    injected := rfl
    notIncluded := rfl
    activations := rfl
    ends := rfl
    held := rfl
    holdsStarted := rfl
    answers := rfl }

/-- An activation that is recorded closes its skill for the run. -/
theorem Sound.activated (sound : delivery.Sound delivered) (name : String) :
    (delivery.activated name).1.Sound delivered := by
  rw [SkillDelivery.activated]
  split
  · exact sound
  next offered =>
  have free (id : ClaimId) (waits : id ∈ delivery.pending) : delivery.nameAt id ≠ some name := by
    intro named
    obtain ⟨marked, fresh⟩ := sound.live id waits name named
    apply offered ⟨marked, fun left => fresh ?_⟩
    exact List.mem_append_left _ (List.mem_append_right _ left)
  have unsent : name ∉ delivery.injectedNames := by
    intro emitted
    apply offered ⟨sound.closed name (List.mem_append_right _ emitted), fun left => ?_⟩
    exact sound.apart name emitted (List.mem_append_right _ left)
  have closed (other : String) (among : other ∈ delivered ++ (delivery.activations ++ [name]) ++
      delivery.notIncluded.filter (· ≠ name)) :
      other ∈ delivered ++ delivery.activations ++ delivery.notIncluded ∨ other = name := by
    simp only [List.mem_append, List.mem_singleton, List.mem_filter] at among ⊢
    grind
  refine { sound with live := ?_, closed := ?_, apart := ?_ }
  · intro id waits other named
    obtain ⟨marked, fresh⟩ := sound.live id waits other named
    refine ⟨List.mem_insert_of_mem marked, fun among => ?_⟩
    rcases List.mem_append.mp among with before | emitted
    · rcases closed other before with was | rfl
      · exact fresh (List.mem_append_left _ was)
      · exact free id waits named
    · exact fresh (List.mem_append_right _ emitted)
  · intro other among
    rcases List.mem_append.mp among with before | emitted
    · rcases closed other before with was | rfl
      · exact List.mem_insert_of_mem (sound.closed other (List.mem_append_left _ was))
      · exact List.mem_insert_self
    · exact List.mem_insert_of_mem (sound.closed other (List.mem_append_right _ emitted))
  · intro other emitted among
    rcases closed other among with was | rfl
    · exact sound.apart other emitted was
    · exact unsent emitted

theorem Sound.claimFor (sound : delivery.Sound delivered) (toolMatches : String → String → Bool)
    (candidates : List ConnectorSkillCandidate) (toolName : String) :
    (delivery.claimFor toolMatches candidates toolName).Sound delivered := by
  rw [SkillDelivery.claimFor]
  induction candidates generalizing delivery with
  | nil => exact sound
  | cons candidate rest ih =>
      rw [List.foldl_cons]
      split
      · exact ih sound
      next fresh =>
      split
      · exact ih (sound.claim fresh toolName none)
      · exact ih sound

theorem Sound.renamedPastHold (sound : delivery.Sound delivered) (toolMatches : String → String → Bool)
    (candidates : List ConnectorSkillCandidate) (toolName : String) (readOnly : Bool) :
    (delivery.renamedPastHold toolMatches candidates toolName readOnly).Sound delivered := by
  rw [SkillDelivery.renamedPastHold]
  generalize delivery.boundSkills toolMatches candidates toolName readOnly = bound
  induction bound generalizing delivery with
  | nil => exact sound
  | cons skill rest ih =>
      rw [List.foldl_cons]
      split
      · exact ih sound
      · apply ih
        exact sound.quiet {
          pending := .refl _
          fetches := fun _ listed => listed
          queued := fun _ listed => listed
          holds := fun _ listed => listed
          injectedNames := delivers_notDelivered ..
          claims := rfl
          injected := rfl
          notIncluded := rfl
          activations := rfl
          ends := rfl
          held := rfl
          holdsStarted := rfl
          answers := rfl }

/-- A skill that a call claims is queued, or is neither delivered nor has it held a call. -/
def MayHold (delivery : SkillDelivery) (candidate : ConnectorSkillCandidate) : Prop :=
  (delivery.queued.get? candidate.name).isSome ∨
    candidate.name ∉ delivery.injected ∧ candidate.name ∉ delivery.held

theorem mayHold_of_bound {toolMatches : String → String → Bool} {candidates : List ConnectorSkillCandidate}
    {toolName : String} {readOnly : Bool} {candidate : ConnectorSkillCandidate}
    (bound : candidate ∈ delivery.boundSkills toolMatches candidates toolName readOnly) :
    delivery.MayHold candidate := by
  rw [boundSkills, List.mem_insertionSort, List.mem_filter] at bound
  simp only [Bool.and_eq_true, Bool.or_eq_true, decide_eq_true_eq] at bound
  exact bound.2.2

/-- A skill holds its first call. -/
theorem Sound.startHold (sound : delivery.Sound delivered) (first : name ∉ delivery.held) :
    Sound delivered { delivery with
      held := delivery.held ++ [name]
      holdsStarted := delivery.holdsStarted ++ [name] } := by
  refine { sound with startedOnce := ?_, started := ?_ }
  · rw [List.nodup_append]
    refine ⟨sound.startedOnce, List.nodup_singleton _, ?_⟩
    intro other before new' new same
    rw [List.mem_singleton.mp new] at same
    exact first (same ▸ sound.started other before)
  · intro other among
    rcases List.mem_append.mp among with before | new
    · exact List.mem_append_left _ (sound.started other before)
    · exact List.mem_append_right _ new

theorem claim_names {candidate : ConnectorSkillCandidate} {toolName : String} {held : Option String}
    {named : String × ClaimId} (names : delivery.Names named) :
    (delivery.claim candidate toolName held).Names named := by
  obtain ⟨pending, found, same⟩ := claims_of_nameAt names
  have within := (List.getElem?_eq_some_iff.mp found).1
  rw [Names, nameAt, SkillDelivery.claim]
  dsimp only
  rw [List.getElem?_append_left within, found, Option.map_some, same]

/-- The claims of a call name its skills. -/
theorem Sound.claimBound (call : ToolCall) {bound : List ConnectorSkillCandidate} (sound : delivery.Sound delivered)
    (may : ∀ candidate ∈ bound, delivery.MayHold candidate) (names : ∀ named ∈ claims, delivery.Names named) :
    Sound delivered (SkillDelivery.claimBound call bound delivery claims).1 ∧
      ∀ named ∈ (SkillDelivery.claimBound call bound delivery claims).2,
        (SkillDelivery.claimBound call bound delivery claims).1.Names named := by
  induction bound generalizing delivery claims with
  | nil => exact ⟨sound, names⟩
  | cons candidate rest ih =>
      rw [SkillDelivery.claimBound]
      split
      · next already queued =>
        apply ih sound fun other among => may other (List.mem_cons_of_mem _ among)
        intro named among
        rcases List.mem_append.mp among with before | new
        · exact names named before
        · rw [List.mem_singleton.mp new]
          exact sound.queuedNames _ (OrderedMap.get?_eq_some_iff.mp queued)
      · next unqueued =>
        have fresh : candidate.name ∉ delivery.injected ∧ candidate.name ∉ delivery.held := by
          rcases may candidate List.mem_cons_self with queued | fresh
          · rw [unqueued] at queued
            cases queued
          · exact fresh
        apply ih ((sound.startHold fresh.2).claim fresh.1 call.name (some call.id))
        · intro other among
          rw [MayHold]
          change (OrderedMap.get? (delivery.queued.set candidate.name _) other.name).isSome ∨
            other.name ∉ delivery.injected.insert candidate.name ∧ other.name ∉ delivery.held ++ [candidate.name]
          rw [OrderedMap.get?_set]
          by_cases same : other.name = candidate.name
          · simp [same]
          · rcases may other (List.mem_cons_of_mem _ among) with queued | free
            · simp [same, queued]
            · simp [same, free]
        · intro named among
          rcases List.mem_append.mp among with before | new
          · exact claim_names (names named before)
          · rw [List.mem_singleton.mp new]
            simp [Names, nameAt, SkillDelivery.claim]

theorem Sound.hold (sound : delivery.Sound delivered) (toolMatches : String → String → Bool)
    (candidates : List ConnectorSkillCandidate) (call : ToolCall) (readOnly : Bool) :
    (delivery.hold toolMatches candidates call readOnly).Sound delivered := by
  rw [SkillDelivery.hold]
  split
  · exact sound
  · obtain ⟨claimed, names⟩ := sound.claimBound call (fun _ among => mayHold_of_bound among)
      (fun _ (among : _ ∈ ([] : List (String × ClaimId))) => (List.not_mem_nil among).elim)
    refine { claimed with holdNames := ?_ }
    intro hold listed
    rcases List.mem_append.mp listed with before | new
    · exact claimed.holdNames hold before
    · rw [List.mem_singleton.mp new]
      exact names

end SkillDelivery

end NimbleBrain.Engine
