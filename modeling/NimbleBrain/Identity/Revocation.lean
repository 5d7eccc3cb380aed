import NimbleBrain.Identity.Workos

/- Revoked access is not served again while no check or write under way outlives what it has read. -/

namespace NimbleBrain.Identity.Workos

open Library History

def isDeleted (profile : Option User) : Bool := profile.any (·.deletedAt.isSome)

/-- What was revoked is not served, and what is served comes from a recent check. -/
structure StaysRevoked (provider : Provider) : Prop where
  flagged : ∀ later check now revoked earlier, provider.log = later ++ .started check now revoked :: earlier →
    revoked = isRevoked earlier
  denied : ∀ check now, .started check now true ∈ provider.log → ∀ source identity,
    .served check source identity ∉ provider.log
  tombstone : Pending .tombstoned Event.isRestored provider.log → isDeleted provider.profile = true
  backed : ∀ later lost earlier, provider.log = later ++ .lost lost :: earlier →
    ∀ check now revoked source identity, .started check now revoked ∈ later → .served check source identity ∈ later →
      (∃ now revoked, .started source now revoked ∈ later) ∧ .found source ∈ provider.log
  recent : ∀ check source identity, .served check source identity ∈ provider.log →
    .succeeded source identity ∈ provider.log ∧ ∃ now revoked now' revoked', .started check now revoked ∈ provider.log ∧
      .started source now' revoked' ∈ provider.log ∧ now' ≤ now ∧ now < now' + MAX_STALE_IDENTITY_MS

def Check.pass? (check : Check) : Option Pass :=
  match check.phase with
  | .writing _ pass _ => some pass
  | .gettingUser | .lookingUp _ | .readingProfile _ | .syncing _ | .updating .. | .creating _ | .racing _
    | .finishing .. => none

def Call.pass? (call : Call) : Option Pass :=
  match call.phase with
  | .writing pass => some pass
  | .reading | .invalidating => none

/-- A write lands on what its call has read, a check stores its identity when nothing was revoked meanwhile, and a
restore does not land while a deactivation or a request of the revoked user is under way. -/
def Orderly (provider : Provider) : Action → Prop
  | .syncWrite place => ∀ check ∈ provider.checks[place]?, ∀ pass ∈ check.pass?, pass.read = provider.profile
  | .finish place => ∀ check ∈ provider.checks[place]?, isDeleted provider.profile = false ∧
      Pending (.started check.number check.startedAt check.revoked) Event.isLost provider.log
  | .callWrite place => ∀ call ∈ provider.calls[place]?, (∀ pass ∈ call.pass?, pass.read = provider.profile) ∧
      (call.task = .restore → ∀ check ∈ provider.checks, check.revoked = false)
  | .invalidateUser place => ∀ call ∈ provider.calls[place]?, call.task = .deactivate →
      isDeleted provider.profile = true
  | .start _ | .getUser .. | .lookup .. | .readProfile _ | .syncRead _ | .syncReread .. | .syncCheck .. | .syncRaced _
    | .checkFails _ | .begin _ | .callRead .. | .callFails _ => True

instance (provider : Provider) (action : Action) : Decidable (Orderly provider action) := by
  cases action <;> unfold Orderly <;> infer_instance

/-- What was lost before the first check started was lost before the second one did. -/
def After (log : List Event) (check source : Nat) : Prop :=
  ∀ later lost earlier, log = later ++ .lost lost :: earlier → (∃ now revoked, .started check now revoked ∈ later) →
    ∃ now revoked, .started source now revoked ∈ later

/-- An identity was found by a check that was dated by its start. -/
structure Sourced (log : List Event) (check fetchedAt : Nat) (identity : UserIdentity) : Prop where
  found : .found check ∈ log
  succeeded : .succeeded check identity ∈ log
  started : ∃ revoked, .started check fetchedAt revoked ∈ log

structure LogSound (started clock : Nat) (log : List Event) : Prop where
  numbered : ∀ check now revoked, .started check now revoked ∈ log → check < started ∧ now ≤ clock
  unique : ∀ check now revoked now' revoked', .started check now revoked ∈ log → .started check now' revoked' ∈ log →
    now = now' ∧ revoked = revoked'
  flagged : ∀ later check now revoked earlier, log = later ++ .started check now revoked :: earlier →
    revoked = isRevoked earlier
  served : ∀ check source identity, .served check source identity ∈ log → After log check source ∧
    ∃ now now', .started check now false ∈ log ∧ Sourced log source now' identity ∧ now' ≤ now ∧
      now < now' + MAX_STALE_IDENTITY_MS

variable {started clock : Nat} {log : List Event} {event : Event}

variable {fetchedAt source now : Nat} {identity : UserIdentity}

theorem Sourced.cons {check : Nat} (sourced : Sourced log check fetchedAt identity) (event : Event) :
    Sourced (event :: log) check fetchedAt identity :=
  ⟨List.mem_cons_of_mem _ sourced.found, List.mem_cons_of_mem _ sourced.succeeded,
    sourced.started.imp fun _ => List.mem_cons_of_mem _⟩

theorem After.self (log : List Event) (check : Nat) : After log check check := fun _ _ _ _ began => began

theorem After.cons {check : Nat} (after : After log check source)
    (other : ∀ now revoked, event ≠ .started check now revoked) : After (event :: log) check source := by
  intro later lost earlier split began
  cases later with
  | nil =>
      obtain ⟨now, revoked, listed⟩ := began
      cases listed
  | cons first later =>
      obtain ⟨rfl, rest⟩ := List.cons_eq_cons.mp split
      obtain ⟨now, revoked, listed⟩ := began
      have listed := (List.mem_cons.mp listed).resolve_left fun same => other now revoked same.symm
      obtain ⟨now', revoked', source⟩ := after later lost earlier rest ⟨now, revoked, listed⟩
      exact ⟨now', revoked', List.mem_cons_of_mem _ source⟩

theorem mem_of_pending {ends : Event → Bool} {past : Event} {later earlier : List Event} (closes : ends past = true)
    (open' : ends event = false) (pending : Pending event ends (later ++ past :: earlier)) : event ∈ later := by
  induction later with
  | nil =>
      rcases pending with rfl | ⟨stays, -⟩
      · cases open'.symm.trans closes
      · cases stays.symm.trans closes
  | cons first later ih =>
      rcases pending with rfl | ⟨-, pending⟩
      · exact List.mem_cons_self
      · exact List.mem_cons_of_mem _ (ih pending)

/-- A check that starts when nothing was lost since another one. -/
theorem After.of_pending {check : Nat} {revoked revoked' : Bool}
    (pending : Pending (.started source fetchedAt revoked') Event.isLost log) :
    After (.started check now revoked :: log) check source := by
  intro later lost earlier split began
  cases later with
  | nil => cases (List.cons_eq_cons.mp split).1
  | cons first later =>
      obtain ⟨rfl, rfl⟩ := List.cons_eq_cons.mp split
      exact ⟨fetchedAt, revoked', List.mem_cons_of_mem _ (mem_of_pending rfl rfl pending)⟩

/-- Another event than a start or an answer. -/
theorem LogSound.cons (sound : LogSound started clock log)
    (notStarted : ∀ check now revoked, event ≠ .started check now revoked)
    (notServed : ∀ check source identity, event ≠ .served check source identity) :
    LogSound started clock (event :: log) where
  numbered := fun check now revoked listed =>
    sound.numbered check now revoked ((List.mem_cons.mp listed).resolve_left fun same => notStarted _ _ _ same.symm)
  unique := fun check now revoked now' revoked' listed listed' =>
    sound.unique check now revoked now' revoked'
      ((List.mem_cons.mp listed).resolve_left fun same => notStarted _ _ _ same.symm)
      ((List.mem_cons.mp listed').resolve_left fun same => notStarted _ _ _ same.symm)
  flagged := fun later check now revoked earlier split => by
    cases later with
    | nil => exact absurd (List.cons_eq_cons.mp split).1 (notStarted _ _ _)
    | cons first later => exact sound.flagged later check now revoked earlier (List.cons_eq_cons.mp split).2
  served := fun check source identity listed => by
    have old := (List.mem_cons.mp listed).resolve_left fun same => notServed _ _ _ same.symm
    obtain ⟨after, now, now', began, sourced, ordered, young⟩ := sound.served check source identity old
    exact ⟨after.cons (notStarted check), now, now', List.mem_cons_of_mem _ began, sourced.cons event, ordered, young⟩

variable {now' now : Nat}

theorem LogSound.serve (sound : LogSound started clock log) {check : Nat} (after : After log check source)
    (began : .started check now false ∈ log) (sourced : Sourced log source now' identity) (ordered : now' ≤ now)
    (young : now < now' + MAX_STALE_IDENTITY_MS) :
    LogSound started clock (.served check source identity :: log) where
  numbered := fun check now revoked listed =>
    sound.numbered check now revoked ((List.mem_cons.mp listed).resolve_left nofun)
  unique := fun check now revoked now' revoked' listed listed' =>
    sound.unique check now revoked now' revoked' ((List.mem_cons.mp listed).resolve_left nofun)
      ((List.mem_cons.mp listed').resolve_left nofun)
  flagged := fun later check now revoked earlier split => by
    cases later with
    | nil => cases (List.cons_eq_cons.mp split).1
    | cons first later => exact sound.flagged later check now revoked earlier (List.cons_eq_cons.mp split).2
  served := fun check' source' identity' listed => by
    rcases List.mem_cons.mp listed with same | old
    · cases same
      exact ⟨after.cons nofun, now, now', List.mem_cons_of_mem _ began, sourced.cons _, ordered, young⟩
    · obtain ⟨after, now, now', began, sourced, ordered, young⟩ := sound.served check' source' identity' old
      exact ⟨after.cons nofun, now, now', List.mem_cons_of_mem _ began, sourced.cons _, ordered, young⟩

/-- A check starts with a new number. -/
theorem LogSound.start (sound : LogSound started clock log) (later : clock ≤ now) :
    LogSound (started + 1) now (.started started now (isRevoked log) :: log) where
  numbered := fun check now' revoked listed => by
    rcases List.mem_cons.mp listed with same | old
    · cases same
      omega
    · have := sound.numbered check now' revoked old
      omega
  unique := fun check now₁ revoked₁ now₂ revoked₂ listed listed' => by
    rcases List.mem_cons.mp listed with same | old <;> rcases List.mem_cons.mp listed' with same' | old'
    · cases same
      cases same'
      exact ⟨rfl, rfl⟩
    · cases same
      exact absurd (sound.numbered _ _ _ old').1 (Nat.lt_irrefl _)
    · cases same'
      exact absurd (sound.numbered _ _ _ old).1 (Nat.lt_irrefl _)
    · exact sound.unique check now₁ revoked₁ now₂ revoked₂ old old'
  flagged := fun after check now' revoked earlier split => by
    cases after with
    | nil =>
        obtain ⟨same, rfl⟩ := List.cons_eq_cons.mp split
        cases same
        rfl
    | cons first after => exact sound.flagged after check now' revoked earlier (List.cons_eq_cons.mp split).2
  served := fun check source identity listed => by
    have old := (List.mem_cons.mp listed).resolve_left nofun
    obtain ⟨after, now', now'', began, sourced, ordered, young⟩ := sound.served check source identity old
    refine ⟨after.cons ?_, now', now'', List.mem_cons_of_mem _ began, sourced.cons _, ordered, young⟩
    rintro _ _ same
    cases same
    exact Nat.lt_irrefl _ (sound.numbered _ _ _ began).1

def Phase.isEarly : Phase → Bool
  | .gettingUser | .lookingUp _ | .readingProfile _ => true
  | .syncing _ | .updating .. | .creating _ | .writing .. | .racing _ | .finishing .. => false

def Phase.isFound : Phase → Bool
  | .gettingUser | .lookingUp _ => false
  | .readingProfile _ | .syncing _ | .updating .. | .creating _ | .writing .. | .racing _ | .finishing .. => true

def KeepsTombstone (pass : Pass) : Prop := ∀ user ∈ pass.read, pass.written.deletedAt = user.deletedAt

/-- A check of a revoked user has nothing to serve and has not read the profile. -/
structure CheckSound (log : List Event) (profile : Option User) (check : Check) : Prop where
  began : .started check.number check.startedAt check.revoked ∈ log
  cached : ∀ entry ∈ check.cached, Sourced log entry.check entry.fetchedAt entry.identity ∧
    entry.fetchedAt ≤ check.startedAt ∧ After log check.number entry.check
  revoked : check.revoked = true → check.cached = none ∧ check.phase.isEarly = true ∧ isDeleted profile = true
  found : check.phase.isFound = true → .found check.number ∈ log
  pass : ∀ pass ∈ check.pass?, KeepsTombstone pass

def CallSound (call : Call) : Prop :=
  ∀ pass ∈ call.pass?,
    match call.task with
    | .deactivate => pass.written.deletedAt.isSome = true
    | .restore => True
    | .edit _ => pass.read.isSome = true ∧ KeepsTombstone pass

structure Sound (provider : Provider) : Prop where
  log : LogSound provider.started provider.clock provider.log
  cache : ∀ entry ∈ provider.cache, Sourced provider.log entry.check entry.fetchedAt entry.identity ∧
    entry.fetchedAt ≤ provider.clock ∧
      ∃ revoked, Pending (.started entry.check entry.fetchedAt revoked) Event.isLost provider.log
  checks : ∀ check ∈ provider.checks, CheckSound provider.log provider.profile check
  calls : ∀ call ∈ provider.calls, CallSound call
  tombstone : Pending .tombstoned Event.isRestored provider.log → isDeleted provider.profile = true
  revoked : isRevoked provider.log = true → isDeleted provider.profile = true ∧ provider.cache = none

variable {profile : Option User} {check : Check} {provider after : Provider}

theorem CheckSound.cons (sound : CheckSound log profile check)
    (other : ∀ now revoked, event ≠ .started check.number now revoked) : CheckSound (event :: log) profile check where
  began := List.mem_cons_of_mem _ sound.began
  cached := fun entry held =>
    have ⟨sourced, ordered, after⟩ := sound.cached entry held
    ⟨sourced.cons event, ordered, after.cons other⟩
  revoked := sound.revoked
  found := fun past => List.mem_cons_of_mem _ (sound.found past)
  pass := sound.pass

theorem CheckSound.withProfile (sound : CheckSound log profile check) {profile' : Option User}
    (deleted : check.revoked = true → isDeleted profile' = true) : CheckSound log profile' check where
  began := sound.began
  cached := sound.cached
  revoked := fun revoked => ⟨(sound.revoked revoked).1, (sound.revoked revoked).2.1, deleted revoked⟩
  found := sound.found
  pass := sound.pass

variable {phase : Phase}

/-- A check goes on. -/
theorem CheckSound.withPhase (sound : CheckSound log profile check)
    (early : check.revoked = true → phase.isEarly = true) (found : phase.isFound = true → .found check.number ∈ log)
    (pass : ∀ pass ∈ Check.pass? { check with phase }, KeepsTombstone pass) :
    CheckSound log profile { check with phase } where
  began := sound.began
  cached := sound.cached
  revoked := fun revoked => ⟨(sound.revoked revoked).1, early revoked, (sound.revoked revoked).2.2⟩
  found := found
  pass := pass

theorem isRevoked_cons (event : Event) (notDeactivated : event ≠ .deactivated) (notRestored : event.isRestored = false) :
    isRevoked (event :: log) = isRevoked log := by
  simp [isRevoked, notDeactivated, notRestored]

/-- A step that only changes the checks. -/
theorem Sound.withChecks (sound : Sound provider) {checks : List Check}
    (kept : ∀ check ∈ checks, CheckSound provider.log provider.profile check) : Sound { provider with checks } :=
  ⟨sound.log, sound.cache, kept, sound.calls, sound.tombstone, sound.revoked⟩

theorem Sound.leave (sound : Sound provider) (place : Nat) : Sound (provider.leave place) :=
  sound.withChecks fun check listed => sound.checks check (List.mem_of_mem_eraseIdx listed)

theorem Sound.setPhase (sound : Sound provider) (place : Nat)
    (goes : CheckSound provider.log provider.profile { check with phase }) :
    Sound (provider.setPhase place check phase) := by
  apply sound.withChecks
  intro other listed
  rcases List.mem_or_eq_of_mem_set listed with old | rfl
  · exact sound.checks other old
  · exact goes

theorem Sound.dropCache (sound : Sound provider) : Sound { provider with cache := none } :=
  ⟨sound.log, nofun, sound.checks, sound.calls, sound.tombstone, fun revoked => ⟨(sound.revoked revoked).1, rfl⟩⟩

/-- An event that is no start, no answer, no loss and no change of the access. -/
theorem Sound.logs (sound : Sound provider) (notStarted : ∀ check now revoked, event ≠ .started check now revoked)
    (notServed : ∀ check source identity, event ≠ .served check source identity) (notLost : event.isLost = false)
    (notTombstoned : event ≠ .tombstoned) (notDeactivated : event ≠ .deactivated)
    (notRestored : event.isRestored = false) : Sound { provider with log := event :: provider.log } where
  log := sound.log.cons notStarted notServed
  cache := fun entry held =>
    have ⟨sourced, dated, revoked, pending⟩ := sound.cache entry held
    ⟨sourced.cons event, dated, revoked, .inr ⟨notLost, pending⟩⟩
  checks := fun check listed => (sound.checks check listed).cons (notStarted _)
  calls := sound.calls
  tombstone := fun pending => sound.tombstone ((pending.resolve_left notTombstoned).2)
  revoked := fun revoked => sound.revoked ((isRevoked_cons event notDeactivated notRestored).symm.trans revoked)

/-- An answer is logged. -/
theorem Sound.serves (sound : Sound provider) {source : Nat} {identity : UserIdentity} {number : Nat}
    (after : After provider.log number source) (began : .started number now false ∈ provider.log)
    (sourced : Sourced provider.log source now' identity) (ordered : now' ≤ now)
    (young : now < now' + MAX_STALE_IDENTITY_MS) :
    Sound { provider with log := .served number source identity :: provider.log } where
  log := sound.log.serve after began sourced ordered young
  cache := fun entry held =>
    have ⟨sourced, dated, revoked, pending⟩ := sound.cache entry held
    ⟨sourced.cons _, dated, revoked, .inr ⟨rfl, pending⟩⟩
  checks := fun check listed => (sound.checks check listed).cons nofun
  calls := sound.calls
  tombstone := fun pending => sound.tombstone ((pending.resolve_left nofun).2)
  revoked := fun revoked => sound.revoked ((isRevoked_cons (.served number source identity) nofun rfl).symm.trans revoked)

variable {place : Nat}

theorem young_of_fresh {fetchedAt : Nat} (fresh : now - fetchedAt < USER_CACHE_TTL_MS) :
    now < fetchedAt + MAX_STALE_IDENTITY_MS := by
  simp only [USER_CACHE_TTL_MS, MAX_STALE_IDENTITY_MS] at fresh ⊢
  omega

theorem Check.keeps_of_none (none : check.pass? = none) : ∀ pass ∈ check.pass?, KeepsTombstone pass := by
  intro pass found
  rw [none] at found
  cases found

/-- A start adds its event with a new number. -/
theorem Sound.begins (sound : Sound provider) (later : provider.clock ≤ now) :
    Sound
      { provider with
        clock := now
        started := provider.started + 1
        log := .started provider.started now (isRevoked provider.log) :: provider.log } where
  log := sound.log.start later
  cache := fun entry held =>
    have ⟨sourced, dated, revoked, pending⟩ := sound.cache entry held
    ⟨sourced.cons _, dated.trans later, revoked, .inr ⟨rfl, pending⟩⟩
  checks := fun check listed => by
    refine (sound.checks check listed).cons ?_
    intro now' revoked same
    have number := (sound.log.numbered _ _ _ (sound.checks check listed).began).1
    rw [← (Event.started.inj same).1] at number
    exact Nat.lt_irrefl _ number
  calls := sound.calls
  tombstone := fun pending => sound.tombstone ((pending.resolve_left nofun).2)
  revoked := fun revoked => sound.revoked ((isRevoked_cons (.started ..) nofun rfl).symm.trans revoked)

theorem Sound.start (sound : Sound provider) (stepped : provider.start now = some after) : Sound after := by
  rw [Provider.start] at stepped
  split at stepped
  · cases stepped
  next notBefore =>
  have begun := sound.begins (Nat.not_lt.mp notBefore)
  have waits : Sound
      { provider with
        clock := now
        started := provider.started + 1
        log := .started provider.started now (isRevoked provider.log) :: provider.log
        checks := provider.checks ++
          [{ number := provider.started, startedAt := now, cached := provider.cache,
             revoked := isRevoked provider.log }] } := by
    refine begun.withChecks (List.forall_mem_append.mpr ⟨begun.checks, List.forall_mem_singleton.mpr ?_⟩)
    constructor
    · exact List.mem_cons_self
    · intro entry held
      obtain ⟨sourced, dated, revoked, pending⟩ := sound.cache entry held
      exact ⟨sourced.cons _, dated.trans (Nat.not_lt.mp notBefore), .of_pending pending⟩
    · intro revoked
      exact ⟨(sound.revoked revoked).2, rfl, (sound.revoked revoked).1⟩
    · exact nofun
    · exact Check.keeps_of_none rfl
  cases cached : provider.cache with
  | none =>
      simp only [cached] at stepped
      obtain rfl := Option.some.inj stepped
      rw [cached] at waits
      exact waits
  | some entry =>
      simp only [cached] at stepped
      split at stepped
      · next fresh =>
          obtain rfl := Option.some.inj stepped
          obtain ⟨sourced, dated, revoked, pending⟩ := sound.cache entry cached
          have active : isRevoked provider.log = false := by
            cases now : isRevoked provider.log with
            | false => rfl
            | true => cases cached.symm.trans (sound.revoked now).2
          rw [← cached]
          exact begun.serves (.of_pending pending) (active ▸ List.mem_cons_self) (sourced.cons _)
            (dated.trans (Nat.not_lt.mp notBefore)) (young_of_fresh fresh)
      · obtain rfl := Option.some.inj stepped
        rw [cached] at waits
        exact waits

theorem Sound.withCheck (sound : Sound provider) {step : Check → Option Provider}
    (stepped : provider.withCheck place step = some after)
    (steps : ∀ check, provider.checks[place]? = some check → CheckSound provider.log provider.profile check →
      step check = some after → Sound after) : Sound after := by
  obtain ⟨check, found, stepped⟩ := Option.bind_eq_some_iff.mp stepped
  exact steps check found (sound.checks check (List.mem_of_getElem? found)) stepped

/-- A check of a revoked user does not come past the profile. -/
theorem CheckSound.late {log : List Event} (sound : CheckSound log profile check)
    (late : check.phase.isEarly = false) : check.revoked = false := by
  cases revoked : check.revoked with
  | false => rfl
  | true => cases late.symm.trans (sound.revoked revoked).2.1

/-- A late check goes on without a write. -/
theorem Sound.goesLate (sound : Sound provider) (own : CheckSound provider.log provider.profile check)
    (late : check.phase.isEarly = false) (past : check.phase.isFound = true)
    (pass : ∀ pass ∈ Check.pass? { check with phase }, KeepsTombstone pass) :
    Sound (provider.setPhase place check phase) := by
  apply sound.setPhase
  refine own.withPhase ?_ (fun _ => own.found past) pass
  intro revoked
  cases revoked.symm.trans (own.late late)

/-- A late check goes on and has nothing to write. -/
theorem Sound.goesOn (sound : Sound provider) {before : Phase}
    (own : CheckSound provider.log provider.profile check) (stands : check.phase = before)
    (late : before.isEarly = false) (past : before.isFound = true) (none : Check.pass? { check with phase } = none) :
    Sound (provider.setPhase place check phase) :=
  sound.goesLate own (stands ▸ late) (stands ▸ past) (Check.keeps_of_none none)

theorem Sound.getUser (sound : Sound provider) {user : WorkosUser}
    (stepped : provider.getUser place user = some after) : Sound after := by
  refine sound.withCheck stepped fun check found own stepped => ?_
  split at stepped
  · obtain rfl := Option.some.inj stepped
    exact sound.setPhase place (own.withPhase (fun _ => rfl) nofun (Check.keeps_of_none rfl))
  · cases stepped

theorem Sound.lookup (sound : Sound provider) {config : WorkosConfig} {membership : Option (Option String)}
    (stepped : provider.lookup config place membership = some after) : Sound after := by
  refine sound.withCheck stepped fun check found own stepped => ?_
  split at stepped
  · next user phase =>
      split at stepped
      · obtain rfl := Option.some.inj stepped
        have left := (sound.leave place).dropCache
        exact
          { log := left.log.cons nofun nofun
            cache := nofun
            checks := fun other listed => (left.checks other listed).cons nofun
            calls := left.calls
            tombstone := fun pending => left.tombstone ((pending.resolve_left nofun).2)
            revoked := fun revoked => left.revoked ((isRevoked_cons (.lost check.number) nofun rfl).symm.trans revoked) }
      · next orgRole _ =>
          obtain rfl := Option.some.inj stepped
          have logged : Sound { provider with log := .found check.number :: provider.log } :=
            sound.logs nofun nofun rfl nofun nofun rfl
          have own := logged.checks check (List.mem_of_getElem? found)
          exact logged.setPhase place (own.withPhase (fun _ => rfl) (fun _ => List.mem_cons_self) (Check.keeps_of_none rfl))
  · cases stepped

theorem Sound.readProfile (sound : Sound provider) (stepped : provider.readProfile place = some after) : Sound after := by
  refine sound.withCheck stepped fun check found own stepped => ?_
  split at stepped
  · next fresh phase =>
      split at stepped
      · obtain rfl := Option.some.inj stepped
        exact (sound.leave place).dropCache
      · next active =>
          obtain rfl := Option.some.inj stepped
          refine sound.setPhase place (own.withPhase ?_ (fun _ => own.found (phase ▸ rfl)) (Check.keeps_of_none rfl))
          exact fun revoked => absurd (own.revoked revoked).2.2 active
  · cases stepped

theorem Sound.syncRead (sound : Sound provider) (stepped : provider.syncRead place = some after) : Sound after := by
  refine sound.withCheck stepped fun check found own stepped => ?_
  split at stepped
  · next fresh phase =>
      split at stepped
      · split at stepped
        · exact Option.some.inj stepped ▸ sound.goesOn own phase rfl rfl rfl
        · exact Option.some.inj stepped ▸ sound.goesOn own phase rfl rfl rfl
      · exact Option.some.inj stepped ▸ sound.goesOn own phase rfl rfl rfl
  · cases stepped

theorem Sound.syncReread (sound : Sound provider) (stepped : provider.syncReread place now = some after) :
    Sound after := by
  refine sound.withCheck stepped fun check found own stepped => ?_
  split at stepped
  · next fresh preferences phase =>
      split at stepped
      · exact Option.some.inj stepped ▸ sound.goesOn own phase rfl rfl rfl
      · next existing _ =>
          refine Option.some.inj stepped ▸ sound.goesLate own (phase ▸ rfl) (phase ▸ rfl) ?_
          rintro pass same user read
          cases same
          cases read
          rfl
  · cases stepped

theorem Sound.syncCheck (sound : Sound provider) {conflict : Bool}
    (stepped : provider.syncCheck place conflict now = some after) : Sound after := by
  refine sound.withCheck stepped fun check found own stepped => ?_
  split at stepped
  · next fresh phase =>
      split at stepped
      · exact Option.some.inj stepped ▸ sound.goesOn own phase rfl rfl rfl
      · refine Option.some.inj stepped ▸ sound.goesLate own (phase ▸ rfl) (phase ▸ rfl) ?_
        rintro pass same user read
        cases same
        cases read
  · cases stepped

theorem Sound.syncRaced (sound : Sound provider) (stepped : provider.syncRaced place = some after) : Sound after := by
  refine sound.withCheck stepped fun check found own stepped => ?_
  split at stepped
  · next fresh phase =>
      exact Option.some.inj stepped ▸ sound.goesOn own phase rfl rfl rfl
  · cases stepped

/-- A write that lands keeps a tombstone. -/
theorem isDeleted_of_pass {pass : Pass} (keeps : KeepsTombstone pass) (read : pass.read = profile)
    (deleted : isDeleted profile = true) : isDeleted (some pass.written) = true := by
  cases found : pass.read with
  | none =>
      rw [← read, found] at deleted
      cases deleted
  | some user =>
      rw [← read, found] at deleted
      rw [isDeleted, Option.any_some, keeps user found]
      exact deleted

theorem Sound.withProfile (sound : Sound provider)
    (keeps : isDeleted provider.profile = true → isDeleted profile = true) : Sound { provider with profile } :=
  ⟨sound.log, sound.cache,
    fun check listed => (sound.checks check listed).withProfile fun revoked =>
      keeps ((sound.checks check listed).revoked revoked).2.2,
    sound.calls, fun pending => keeps (sound.tombstone pending),
    fun revoked => ⟨keeps (sound.revoked revoked).1, (sound.revoked revoked).2⟩⟩

theorem Sound.syncWrite (sound : Sound provider) (met : Orderly provider (.syncWrite place))
    (stepped : provider.syncWrite place = some after) : Sound after := by
  refine sound.withCheck stepped fun check found own stepped => ?_
  split at stepped
  · next fresh pass preferences phase =>
      obtain rfl := Option.some.inj stepped
      have passes : check.pass? = some pass := by rw [Check.pass?, phase]
      have landed : Sound { provider with profile := some pass.written } :=
        sound.withProfile (isDeleted_of_pass (own.pass pass passes) (met check found pass passes))
      exact landed.goesOn (landed.checks check (List.mem_of_getElem? found)) phase rfl rfl rfl
  · cases stepped

/-- An identity is stored when nothing was revoked since its check has started. -/
theorem Sound.finish (sound : Sound provider) (met : Orderly provider (.finish place))
    (stepped : provider.finish place = some after) : Sound after := by
  refine sound.withCheck stepped fun check found own stepped => ?_
  split at stepped
  · next fresh preferences phase =>
      obtain rfl := Option.some.inj stepped
      obtain ⟨active, pending⟩ := met check found
      have late : check.phase.isEarly = false := by rw [phase]; rfl
      have past : check.phase.isFound = true := by rw [phase]; rfl
      have succeeded : Sound
          { provider.leave place with
            log := .succeeded check.number (fresh.identity preferences) :: provider.log } :=
        (sound.leave place).logs nofun nofun rfl nofun nofun rfl
      have sourced : Sourced (.succeeded check.number (fresh.identity preferences) :: provider.log) check.number
          check.startedAt (fresh.identity preferences) :=
        ⟨List.mem_cons_of_mem _ (own.found past), List.mem_cons_self, check.revoked, List.mem_cons_of_mem _ own.began⟩
      have began : .started check.number check.startedAt false ∈
          (.succeeded check.number (fresh.identity preferences) :: provider.log : List Event) := by
        rw [← own.late late]
        exact List.mem_cons_of_mem _ own.began
      have served := succeeded.serves (.self _ _) began sourced (Nat.le_refl _) (by simp [MAX_STALE_IDENTITY_MS])
      refine ⟨served.log, ?_, served.checks, served.calls, served.tombstone, ?_⟩
      · rintro entry held
        cases held
        exact ⟨sourced.cons _, (sound.log.numbered _ _ _ own.began).2, check.revoked,
          .inr ⟨rfl, .inr ⟨rfl, pending⟩⟩⟩
      · intro revoked
        have deleted : isDeleted provider.profile = true := (served.revoked revoked).1
        cases active.symm.trans deleted
  · cases stepped

theorem Sound.fallBack (sound : Sound provider) (own : CheckSound provider.log provider.profile check) :
    Sound (provider.fallBack place check) := by
  rw [Provider.fallBack]
  split
  · next entry held =>
      split
      · next young =>
          obtain ⟨sourced, ordered, follows⟩ := own.cached entry held
          have began := own.began
          have active : check.revoked = false := by
            cases revoked : check.revoked with
            | false => rfl
            | true => cases held.symm.trans (own.revoked revoked).1
          rw [active] at began
          exact (sound.leave place).serves follows began sourced ordered (by omega)
      · exact sound.leave place
  · exact sound.leave place

theorem Sound.checkFails (sound : Sound provider) (stepped : provider.checkFails place = some after) : Sound after := by
  refine sound.withCheck stepped fun check found own stepped => ?_
  split at stepped
  · next fresh phase =>
      exact Option.some.inj stepped ▸ sound.goesOn own phase rfl rfl rfl
  · next fresh written preferences phase =>
      exact Option.some.inj stepped ▸ sound.goesOn own phase rfl rfl rfl
  · exact Option.some.inj stepped ▸ sound.fallBack own

theorem Sound.withCalls (sound : Sound provider) {calls : List Call} (kept : ∀ call ∈ calls, CallSound call) :
    Sound { provider with calls } :=
  ⟨sound.log, sound.cache, sound.checks, kept, sound.tombstone, sound.revoked⟩

theorem Sound.dropCall (sound : Sound provider) (place : Nat) : Sound (provider.dropCall place) :=
  sound.withCalls fun call listed => sound.calls call (List.mem_of_mem_eraseIdx listed)

variable {call : Call}

theorem Sound.setCall (sound : Sound provider) (place : Nat) {phase : CallPhase}
    (goes : CallSound { call with phase }) : Sound (provider.setCall place call phase) := by
  apply sound.withCalls
  intro other listed
  rcases List.mem_or_eq_of_mem_set listed with old | rfl
  · exact sound.calls other old
  · exact goes

theorem callSound_of_none (none : call.pass? = none) : CallSound call := by
  intro pass found
  rw [none] at found
  cases found

/-- A tombstone is there when it is logged. -/
theorem Sound.tombstones (sound : Sound provider) (deleted : isDeleted provider.profile = true) :
    Sound { provider with log := .tombstoned :: provider.log } where
  log := sound.log.cons nofun nofun
  cache := fun entry held =>
    have ⟨sourced, dated, revoked, pending⟩ := sound.cache entry held
    ⟨sourced.cons _, dated, revoked, .inr ⟨rfl, pending⟩⟩
  checks := fun check listed => (sound.checks check listed).cons nofun
  calls := sound.calls
  tombstone := fun _ => deleted
  revoked := fun revoked => sound.revoked ((isRevoked_cons .tombstoned nofun rfl).symm.trans revoked)

theorem Sound.callRead (sound : Sound provider) (stepped : provider.callRead place now = some after) :
    Sound after := by
  obtain ⟨call, found, stepped⟩ := Option.bind_eq_some_iff.mp stepped
  split at stepped
  · exact Option.some.inj stepped ▸ sound.dropCall place
  · next user _ profile =>
      cases task : call.task with
      | deactivate =>
          simp only [task] at stepped
          cases edited : user.softDelete now with
          | some written =>
              simp only [edited] at stepped
              refine Option.some.inj stepped ▸ sound.setCall place ?_
              rintro pass same
              cases same
              simp only [task]
              rw [User.softDelete] at edited
              split at edited
              · cases edited
              · cases edited
                rfl
          | none =>
              simp only [edited] at stepped
              have deleted : isDeleted provider.profile = true := by
                rw [User.softDelete] at edited
                split at edited
                · next deleted => rw [profile]; exact deleted
                · cases edited
              exact Option.some.inj stepped ▸ (sound.tombstones deleted).setCall place (callSound_of_none rfl)
      | restore =>
          simp only [task] at stepped
          cases edited : user.restore now with
          | some written =>
              simp only [edited] at stepped
              refine Option.some.inj stepped ▸ sound.setCall place ?_
              rintro pass same
              cases same
              simp only [task]
          | none =>
              simp only [edited] at stepped
              exact Option.some.inj stepped ▸ sound.setCall place (callSound_of_none rfl)
      | edit patch =>
          simp only [task] at stepped
          refine Option.some.inj stepped ▸ sound.setCall place ?_
          rintro pass same
          cases same
          simp only [task]
          refine ⟨rfl, ?_⟩
          rintro user read
          cases read
          rfl
  · cases stepped

/-- A restore ends what was revoked. -/
theorem Sound.restores (sound : Sound provider) (written : User)
    (idle : ∀ check ∈ provider.checks, check.revoked = false) :
    Sound { provider with profile := some written, log := .restored :: provider.log } where
  log := sound.log.cons nofun nofun
  cache := fun entry held =>
    have ⟨sourced, dated, revoked, pending⟩ := sound.cache entry held
    ⟨sourced.cons _, dated, revoked, .inr ⟨rfl, pending⟩⟩
  checks := fun check listed => by
    refine ((sound.checks check listed).cons fun _ _ same => by cases same).withProfile fun revoked => ?_
    cases revoked.symm.trans (idle check listed)
  calls := sound.calls
  tombstone := fun pending => absurd pending (not_pending_of_ends nofun rfl)
  revoked := fun revoked => absurd (of_decide_eq_true revoked) (not_pending_of_ends nofun rfl)

theorem Sound.callWrite (sound : Sound provider) (met : Orderly provider (.callWrite place))
    (stepped : provider.callWrite place = some after) : Sound after := by
  obtain ⟨call, found, stepped⟩ := Option.bind_eq_some_iff.mp stepped
  split at stepped
  · next pass phase =>
      obtain rfl := Option.some.inj stepped
      obtain ⟨reads, idle⟩ := met call found
      have passes : call.pass? = some pass := by rw [Call.pass?, phase]
      have own := sound.calls call (List.mem_of_getElem? found) pass passes
      cases task : call.task with
      | deactivate =>
          simp only [task] at own
          have landed : Sound { provider with profile := some pass.written } := sound.withProfile fun _ => own
          exact (landed.tombstones own).setCall place (callSound_of_none rfl)
      | restore => exact (sound.restores pass.written (idle task)).setCall place (callSound_of_none rfl)
      | edit patch =>
          simp only [task] at own
          have landed : Sound { provider with profile := some pass.written } :=
            sound.withProfile (isDeleted_of_pass own.2 (reads pass passes))
          exact landed.setCall place (callSound_of_none rfl)
  · cases stepped

theorem Sound.invalidateUser (sound : Sound provider) (met : Orderly provider (.invalidateUser place))
    (stepped : provider.invalidateUser place = some after) : Sound after := by
  obtain ⟨call, found, stepped⟩ := Option.bind_eq_some_iff.mp stepped
  split at stepped
  · obtain rfl := Option.some.inj stepped
    have dropped := (sound.dropCall place).dropCache
    cases task : call.task with
    | deactivate =>
        exact
          { log := dropped.log.cons nofun nofun
            cache := nofun
            checks := fun check listed => (dropped.checks check listed).cons nofun
            calls := dropped.calls
            tombstone := fun pending => dropped.tombstone ((pending.resolve_left nofun).2)
            revoked := fun _ => ⟨met call found task, rfl⟩ }
    | restore => exact dropped
    | edit patch => exact dropped
  · cases stepped

variable {config : WorkosConfig}

theorem Sound.of_reached (reached : (workosSystem config).ReachedBy Orderly provider) : Sound provider := by
  apply reached.invariant Sound
  · intro provider first
    rw [show provider = { profile := provider.profile } from first]
    exact
      { log :=
          { numbered := fun _ _ _ listed => nomatch listed
            unique := fun _ _ _ _ _ listed => nomatch listed
            flagged := fun later _ _ _ _ split => by cases later <;> cases split
            served := fun _ _ _ listed => nomatch listed }
        cache := fun _ held => nomatch held
        checks := fun _ listed => nomatch listed
        calls := fun _ listed => nomatch listed
        tombstone := fun pending => pending.elim
        revoked := fun revoked => (of_decide_eq_true revoked).elim }
  · intro before action after sound met stepped
    cases action with
    | start now => exact sound.start stepped
    | getUser place user => exact sound.getUser stepped
    | lookup place membership => exact sound.lookup stepped
    | readProfile place => exact sound.readProfile stepped
    | syncRead place => exact sound.syncRead stepped
    | syncReread place now => exact sound.syncReread stepped
    | syncCheck place conflict now => exact sound.syncCheck stepped
    | syncWrite place => exact sound.syncWrite met stepped
    | syncRaced place => exact sound.syncRaced stepped
    | finish place => exact sound.finish met stepped
    | checkFails place => exact sound.checkFails stepped
    | begin task =>
        obtain rfl := Option.some.inj stepped
        exact sound.withCalls (List.forall_mem_append.mpr ⟨sound.calls, List.forall_mem_singleton.mpr fun _ found => nomatch found⟩)
    | callRead place now => exact sound.callRead stepped
    | callWrite place => exact sound.callWrite met stepped
    | invalidateUser place => exact sound.invalidateUser met stepped
    | callFails place =>
        obtain ⟨_, -, rfl⟩ := Option.map_eq_some_iff.mp stepped
        exact sound.dropCall place

/-- Revoked access is not served again in a run that meets the condition. -/
theorem access_stays_revoked (reached : (workosSystem config).ReachedBy Orderly provider) : StaysRevoked provider := by
  have sound := Sound.of_reached reached
  constructor
  · exact sound.log.flagged
  · intro check now started source identity served
    obtain ⟨-, now', now'', began, -⟩ := sound.log.served check source identity served
    cases (sound.log.unique check now true now' false started began).2
  · exact sound.tombstone
  · intro later lost earlier split check now revoked source identity started served
    have listed : .served check source identity ∈ provider.log := split ▸ List.mem_append_left _ served
    obtain ⟨after, now', now'', began, sourced, -⟩ := sound.log.served check source identity listed
    exact ⟨after later lost earlier split ⟨now, revoked, started⟩, sourced.found⟩
  · intro check source identity served
    obtain ⟨-, now, now', began, sourced, ordered, young⟩ := sound.log.served check source identity served
    obtain ⟨revoked', started⟩ := sourced.started
    exact ⟨sourced.succeeded, now, false, now', revoked', began, started, ordered, young⟩

/-- Slugs stand for themselves. -/
def plainConfig : WorkosConfig := ⟨true, ["admin"], id⟩

def ada : WorkosUser := ⟨"user_1", "ada@example.com", some "Ada", none⟩

def adaProfile : User := { id := "user_1", email := "ada@example.com", displayName := "Ada" }

/-- WorkOS knows the member, and the profile on disk agrees. -/
def checked : List Action := [.getUser 0 ada, .lookup 0 (some none), .readProfile 0]

def deactivated (now : Nat) : List Action := [.begin .deactivate, .callRead 0 now, .callWrite 0, .invalidateUser 0]

/-- A deactivated user is denied at the next request. -/
theorem access_stays_revoked_denied :
    ∃ provider ∈ (workosSystem plainConfig).run { profile := some adaProfile }
        (.start 0 :: checked ++ [.syncRead 0, .finish 0] ++ deactivated 1 ++ .start 2 :: checked),
      provider.log =
          [.found 1, .started 1 2 true, .deactivated, .tombstoned,
            .served 0 0 ⟨"user_1", "ada@example.com", "Ada", .member, "{}"⟩,
            .succeeded 0 ⟨"user_1", "ada@example.com", "Ada", .member, "{}"⟩, .found 0, .started 0 0 false] ∧
        StaysRevoked provider := by
  have ran : ((workosSystem plainConfig).run { profile := some adaProfile }
      (.start 0 :: checked ++ [.syncRead 0, .finish 0] ++ deactivated 1 ++ .start 2 :: checked)).any (fun provider =>
      provider.log =
        [.found 1, .started 1 2 true, .deactivated, .tombstoned,
          .served 0 0 ⟨"user_1", "ada@example.com", "Ada", .member, "{}"⟩,
          .succeeded 0 ⟨"user_1", "ada@example.com", "Ada", .member, "{}"⟩, .found 0, .started 0 0 false]) = true := by
    decide +kernel
  have meets : (workosSystem plainConfig).Meets Orderly { profile := some adaProfile }
      (.start 0 :: checked ++ [.syncRead 0, .finish 0] ++ deactivated 1 ++ .start 2 :: checked) := by decide +kernel
  obtain ⟨provider, ran, log⟩ := Option.any_eq_true .. |>.mp ran
  exact ⟨provider, ran, of_decide_eq_true log,
    access_stays_revoked (System.ReachedBy.run (.start _ (by rfl)) meets ran)⟩

/-- A check that has read the profile finishes after the deactivation, and its identity is served to the next request. -/
theorem revoked_access_served : ¬ ∀ (config : WorkosConfig) (provider : Provider),
    (workosSystem config).Reachable provider → StaysRevoked provider := by
  intro all
  have ran : ((workosSystem plainConfig).run { profile := some adaProfile }
      (.start 0 :: checked ++ [.syncRead 0] ++ deactivated 1 ++ [.finish 0, .start 2])).any (fun provider =>
      .started 1 2 true ∈ provider.log ∧
        .served 1 0 ⟨"user_1", "ada@example.com", "Ada", .member, "{}"⟩ ∈ provider.log) = true := by
    decide +kernel
  obtain ⟨provider, ran, listed⟩ := Option.any_eq_true .. |>.mp ran
  obtain ⟨started, served⟩ := of_decide_eq_true listed
  exact (all plainConfig provider (System.Reachable.run (.start _ (by rfl)) ran)).denied 1 2 started _ _ served

end NimbleBrain.Identity.Workos
