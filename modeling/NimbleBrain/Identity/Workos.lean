import NimbleBrain.Identity.User
import NimbleBrain.Library.History

/- A request is answered from the cache of its user, or after a check with WorkOS and the local profile. -/

namespace NimbleBrain.Identity.Workos

open Library History

def USER_CACHE_TTL_MS : Nat := 5 * 60 * 1000

def MAX_STALE_IDENTITY_MS : Nat := 30 * 60 * 1000

/-- Slugs are compared without blanks around them and in lower case. -/
structure WorkosConfig where
  hasOrganization : Bool
  adminRoleSlugs : List String
  normalize : String → String

structure WorkosUser where
  id : String
  email : String
  firstName : Option String
  lastName : Option String
  deriving DecidableEq

structure UserIdentity where
  id : String
  email : String
  displayName : String
  orgRole : OrgRole
  preferences : String
  deriving DecidableEq

/-- An identity that a check has found, with the number of the check. -/
structure CacheEntry where
  identity : UserIdentity
  fetchedAt : Nat
  check : Nat
  deriving DecidableEq

/-- What a check has learned from WorkOS. -/
structure Fresh where
  user : WorkosUser
  displayName : String
  orgRole : OrgRole
  deriving DecidableEq

/-- A write of the profile, and what its call has read. -/
structure Pass where
  read : Option User
  written : User
  deriving DecidableEq

inductive Phase where
  | gettingUser
  | lookingUp (user : WorkosUser)
  | readingProfile (fresh : Fresh)
  | syncing (fresh : Fresh)
  | updating (fresh : Fresh) (preferences : String)
  | creating (fresh : Fresh)
  | writing (fresh : Fresh) (pass : Pass) (preferences : String)
  | racing (fresh : Fresh)
  | finishing (fresh : Fresh) (preferences : String)
  deriving DecidableEq

/-- A check keeps the entry of its start. It notes whether access was revoked then. -/
structure Check where
  number : Nat
  startedAt : Nat
  cached : Option CacheEntry
  revoked : Bool
  phase : Phase := .gettingUser
  deriving DecidableEq

/-- The calls on the profile. -/
inductive Task where
  | deactivate
  | restore
  | edit (patch : UpdateUserData)
  deriving DecidableEq

inductive CallPhase where
  | reading
  | writing (pass : Pass)
  | invalidating
  deriving DecidableEq

structure Call where
  task : Task
  phase : CallPhase := .reading
  deriving DecidableEq

/-- A tombstone stands from its write on, and a deactivation has returned when the cache is invalidated. -/
inductive Event where
  | started (check now : Nat) (revoked : Bool)
  | found (check : Nat)
  | lost (check : Nat)
  | succeeded (check : Nat) (identity : UserIdentity)
  | served (check source : Nat) (identity : UserIdentity)
  | tombstoned
  | deactivated
  | restored
  deriving DecidableEq

def Event.isRestored : Event → Bool
  | .restored => true
  | .started .. | .found _ | .lost _ | .succeeded .. | .served .. | .tombstoned | .deactivated => false

def Event.isLost : Event → Bool
  | .lost _ => true
  | .started .. | .found _ | .succeeded .. | .served .. | .tombstoned | .deactivated | .restored => false

/-- The provider with the profile of one user. -/
structure Provider where
  clock : Nat := 0
  profile : Option User := none
  cache : Option CacheEntry := none
  checks : List Check := []
  calls : List Call := []
  started : Nat := 0
  log : List Event := []
  deriving DecidableEq

/-- A deactivation returned, and no restore came after it. -/
def isRevoked (log : List Event) : Bool := decide (Pending .deactivated Event.isRestored log)

/-- The answers of WorkOS and of the other profiles are open. -/
inductive Action where
  | start (now : Nat)
  | getUser (place : Nat) (user : WorkosUser)
  | lookup (place : Nat) (membership : Option (Option String))
  | readProfile (place : Nat)
  | syncRead (place : Nat)
  | syncReread (place now : Nat)
  | syncCheck (place : Nat) (conflict : Bool) (now : Nat)
  | syncWrite (place : Nat)
  | syncRaced (place : Nat)
  | finish (place : Nat)
  | checkFails (place : Nat)
  | begin (task : Task)
  | callRead (place now : Nat)
  | callWrite (place : Nat)
  | invalidateUser (place : Nat)
  | callFails (place : Nat)
  deriving DecidableEq

/-- The name of a user without one is the email. -/
def WorkosUser.displayName (user : WorkosUser) : String :=
  match [user.firstName, user.lastName].filterMap fun name => name.filter (· ≠ "") with
  | [] => user.email
  | names => " ".intercalate names

/-- A membership without an admin slug is that of a member. -/
def WorkosConfig.orgRole (config : WorkosConfig) (slug : Option String) : OrgRole :=
  if slug.any fun slug => config.normalize slug ≠ "" && config.adminRoleSlugs.contains (config.normalize slug) then .admin
  else .member

def Fresh.identity (fresh : Fresh) (preferences : String) : UserIdentity where
  id := fresh.user.id
  email := fresh.user.email
  displayName := fresh.displayName
  orgRole := fresh.orgRole
  preferences := preferences

def Fresh.patch (fresh : Fresh) : UpdateUserData where
  email := some fresh.user.email
  displayName := some fresh.displayName
  orgRole := some fresh.orgRole

def Fresh.profile (fresh : Fresh) (now : Nat) : User where
  id := fresh.user.id
  email := fresh.user.email
  displayName := fresh.displayName
  orgRole := fresh.orgRole
  createdAt := now
  updatedAt := now

/-- Whether the profile has what WorkOS says. -/
def Fresh.isSynced (fresh : Fresh) (existing : User) : Bool :=
  existing.email = fresh.user.email && existing.displayName = fresh.displayName && existing.orgRole = fresh.orgRole

namespace Provider

variable (config : WorkosConfig) (provider : Provider)

def setPhase (place : Nat) (check : Check) (phase : Phase) : Provider :=
  { provider with checks := provider.checks.set place { check with phase } }

def leave (place : Nat) : Provider := { provider with checks := provider.checks.eraseIdx place }

/-- A fresh entry is served at once. An older one is kept for a failure. -/
def start (now : Nat) : Option Provider :=
  if now < provider.clock then none
  else
    let begun : Provider :=
      { provider with
        clock := now
        started := provider.started + 1
        log := .started provider.started now (isRevoked provider.log) :: provider.log }
    let check : Check :=
      { number := provider.started, startedAt := now, cached := provider.cache, revoked := isRevoked provider.log }
    match provider.cache with
    | some entry =>
        if now - entry.fetchedAt < USER_CACHE_TTL_MS then
          some { begun with log := .served provider.started entry.check entry.identity :: begun.log }
        else some { begun with checks := begun.checks ++ [check] }
    | none => some { begun with checks := begun.checks ++ [check] }

/-- A check whose phase is looked at. -/
def withCheck (place : Nat) (step : Check → Option Provider) : Option Provider := provider.checks[place]?.bind step

def getUser (place : Nat) (user : WorkosUser) : Option Provider :=
  provider.withCheck place fun check =>
    match check.phase with
    | .gettingUser => some (provider.setPhase place check (.lookingUp user))
    | _ => none

/-- Without an organization everybody is a member. -/
def lookup (place : Nat) (membership : Option (Option String)) : Option Provider :=
  provider.withCheck place fun check =>
    match check.phase with
    | .lookingUp user =>
        match if config.hasOrganization then membership.map config.orgRole else some .member with
        | none =>
            some { provider.leave place with cache := none, log := .lost check.number :: provider.log }
        | some orgRole =>
            some
              { provider.setPhase place check (.readingProfile ⟨user, user.displayName, orgRole⟩) with
                log := .found check.number :: provider.log }
    | _ => none

/-- A deactivated user is denied. -/
def readProfile (place : Nat) : Option Provider :=
  provider.withCheck place fun check =>
    match check.phase with
    | .readingProfile fresh =>
        if provider.profile.any (·.deletedAt.isSome) then some { provider.leave place with cache := none }
        else some (provider.setPhase place check (.syncing fresh))
    | _ => none

def syncRead (place : Nat) : Option Provider :=
  provider.withCheck place fun check =>
    match check.phase with
    | .syncing fresh =>
        match provider.profile with
        | some existing =>
            if fresh.isSynced existing then
              some (provider.setPhase place check (.finishing fresh existing.preferences))
            else some (provider.setPhase place check (.updating fresh existing.preferences))
        | none => some (provider.setPhase place check (.creating fresh))
    | _ => none

def syncReread (place now : Nat) : Option Provider :=
  provider.withCheck place fun check =>
    match check.phase with
    | .updating fresh preferences =>
        match provider.profile with
        | none => some (provider.setPhase place check (.finishing fresh preferences))
        | some existing =>
            some (provider.setPhase place check
              (.writing fresh ⟨some existing, existing.patched fresh.patch now⟩ preferences))
    | _ => none

/-- A creation only looks for the email, not for the profile that it writes. -/
def syncCheck (place : Nat) (conflict : Bool) (now : Nat) : Option Provider :=
  provider.withCheck place fun check =>
    match check.phase with
    | .creating fresh =>
        if conflict || provider.profile.any (·.email = fresh.user.email) then
          some (provider.setPhase place check (.racing fresh))
        else some (provider.setPhase place check (.writing fresh ⟨none, fresh.profile now⟩ (fresh.profile now).preferences))
    | _ => none

def syncWrite (place : Nat) : Option Provider :=
  provider.withCheck place fun check =>
    match check.phase with
    | .writing fresh pass preferences =>
        some { provider.setPhase place check (.finishing fresh preferences) with profile := some pass.written }
    | _ => none

def syncRaced (place : Nat) : Option Provider :=
  provider.withCheck place fun check =>
    match check.phase with
    | .racing fresh =>
        some (provider.setPhase place check
          (.finishing fresh ((provider.profile.map User.preferences).getD "{}")))
    | _ => none

/-- The entry is dated by the start of its check. -/
def finish (place : Nat) : Option Provider :=
  provider.withCheck place fun check =>
    match check.phase with
    | .finishing fresh preferences =>
        some
          { provider.leave place with
            cache := some ⟨fresh.identity preferences, check.startedAt, check.number⟩
            log := .served check.number check.number (fresh.identity preferences) ::
              .succeeded check.number (fresh.identity preferences) :: provider.log }
    | _ => none

/-- A failure serves the entry of the start while it is young enough. -/
def fallBack (place : Nat) (check : Check) : Provider :=
  match check.cached with
  | some entry =>
      if check.startedAt - entry.fetchedAt < MAX_STALE_IDENTITY_MS then
        { provider.leave place with log := .served check.number entry.check entry.identity :: provider.log }
      else provider.leave place
  | none => provider.leave place

/-- A creation that fails is taken for a race. -/
def checkFails (place : Nat) : Option Provider :=
  provider.withCheck place fun check =>
    match check.phase with
    | .creating fresh | .writing fresh ⟨none, _⟩ _ => some (provider.setPhase place check (.racing fresh))
    | _ => some (provider.fallBack place check)

end Provider

namespace Provider

variable (provider : Provider)

def setCall (place : Nat) (call : Call) (phase : CallPhase) : Provider :=
  { provider with calls := provider.calls.set place { call with phase } }

def dropCall (place : Nat) : Provider := { provider with calls := provider.calls.eraseIdx place }

/-- A profile that is as wanted is not written again. -/
def callRead (place now : Nat) : Option Provider :=
  provider.calls[place]?.bind fun call =>
    match call.phase, provider.profile with
    | .reading, none => some (provider.dropCall place)
    | .reading, some user =>
        match call.task with
        | .deactivate =>
            match user.softDelete now with
            | some written => some (provider.setCall place call (.writing ⟨some user, written⟩))
            | none => some { provider.setCall place call .invalidating with log := .tombstoned :: provider.log }
        | .restore =>
            match user.restore now with
            | some written => some (provider.setCall place call (.writing ⟨some user, written⟩))
            | none => some (provider.setCall place call .invalidating)
        | .edit patch => some (provider.setCall place call (.writing ⟨some user, user.patched patch now⟩))
    | _, _ => none

def Task.effect : Task → List Event
  | .deactivate => [.tombstoned]
  | .restore => [.restored]
  | .edit _ => []

def callWrite (place : Nat) : Option Provider :=
  provider.calls[place]?.bind fun call =>
    match call.phase with
    | .writing pass =>
        some
          { provider.setCall place call .invalidating with
            profile := some pass.written
            log := Task.effect call.task ++ provider.log }
    | _ => none

def Task.returns : Task → List Event
  | .deactivate => [.deactivated]
  | .restore | .edit _ => []

def invalidateUser (place : Nat) : Option Provider :=
  provider.calls[place]?.bind fun call =>
    match call.phase with
    | .invalidating =>
        some { provider.dropCall place with cache := none, log := Task.returns call.task ++ provider.log }
    | _ => none

end Provider

/-- The profile may be there before the first request. -/
def workosSystem (config : WorkosConfig) : System Provider Action where
  initial provider := provider = { profile := provider.profile }
  step provider
    | .start now => provider.start now
    | .getUser place user => provider.getUser place user
    | .lookup place membership => provider.lookup config place membership
    | .readProfile place => provider.readProfile place
    | .syncRead place => provider.syncRead place
    | .syncReread place now => provider.syncReread place now
    | .syncCheck place conflict now => provider.syncCheck place conflict now
    | .syncWrite place => provider.syncWrite place
    | .syncRaced place => provider.syncRaced place
    | .finish place => provider.finish place
    | .checkFails place => provider.checkFails place
    | .begin task => some { provider with calls := provider.calls ++ [{ task }] }
    | .callRead place now => provider.callRead place now
    | .callWrite place => provider.callWrite place
    | .invalidateUser place => provider.invalidateUser place
    | .callFails place => provider.calls[place]?.map fun _ => provider.dropCall place

end NimbleBrain.Identity.Workos
