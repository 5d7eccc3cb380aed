import Mathlib.Data.List.Sort
import NimbleBrain.Library.OrderedMap
import NimbleBrain.Library.Transition

/- Every user has a profile on disk. A profile is read, edited and written whole. -/

namespace NimbleBrain.Identity

open Library

inductive OrgRole where
  | admin | member
  deriving DecidableEq

/-- Preferences are JSON text. -/
structure User where
  id : String
  email : String
  displayName : String
  orgRole : OrgRole := .member
  preferences : String := "{}"
  identity : Option String := none
  integrationEntityId : Option String := none
  createdAt : Nat := 0
  updatedAt : Nat := 0
  deletedAt : Option Nat := none
  deriving DecidableEq

structure UpdateUserData where
  email : Option String := none
  displayName : Option String := none
  orgRole : Option OrgRole := none
  preferences : Option String := none
  identity : Option String := none
  integrationEntityId : Option String := none
  deriving DecidableEq

abbrev Users := OrderedMap String User

namespace User

variable (user : User)

def patched (patch : UpdateUserData) (now : Nat) : User :=
  { user with
    email := patch.email.getD user.email
    displayName := patch.displayName.getD user.displayName
    orgRole := patch.orgRole.getD user.orgRole
    preferences := patch.preferences.getD user.preferences
    identity := patch.identity.or user.identity
    integrationEntityId := patch.integrationEntityId.or user.integrationEntityId
    updatedAt := now }

/-- A tombstone that is there already is not written again. -/
def softDelete (now : Nat) : Option User :=
  if user.deletedAt.isSome then none else some { user with deletedAt := some now, updatedAt := now }

def restore (now : Nat) : Option User :=
  if user.deletedAt.isSome then some { user with deletedAt := none, updatedAt := now } else none

end User

/-- The older users come first. -/
def listed (users : List User) : List User := users.insertionSort fun first second => first.createdAt ≤ second.createdAt

theorem mem_listed {users : List User} {user : User} : user ∈ listed users ↔ user ∈ users := List.mem_insertionSort _

end NimbleBrain.Identity

/- A sign-in finds, binds or creates the record of its subject, each in steps of its own. -/

namespace NimbleBrain.Identity.Oidc

open Library

section Records

/-- The issuer of the tokens, and the first half of the SHA-256 of a subject in hexadecimal. -/
structure OidcHost where
  issuer : String
  digest : String → String

def OIDC_USER_ID_PREFIX : String := "usr_oidc_"

def isProvisioned (id : String) : Bool := OIDC_USER_ID_PREFIX.toList.isPrefixOf id.toList

def isHexDigit (letter : Char) : Bool := letter.isDigit || 'a' ≤ letter && letter ≤ 'f'

/-- The id of a user that an admin creates. -/
def generateUserId (hex : String) : String := "usr_" ++ hex

variable (host : OidcHost)

def oidcUserId (sub : String) : String := OIDC_USER_ID_PREFIX ++ host.digest sub

def subjectKey (sub : String) : String := host.issuer ++ "#" ++ sub

end Records

/-- The calls on the records. A sign-in comes with a verified token. -/
inductive Task where
  | signIn (sub email displayName : String)
  | create (hex email displayName : String) (orgRole : OrgRole)
  | update (id : String) (patch : UpdateUserData)
  | softDelete (id : String)
  | restore (id : String)
  deriving DecidableEq

/-- A write of a whole record, and what its call has read of it. -/
structure Write where
  read : Option User
  written : User
  deriving DecidableEq

/-- A record that is new is created and updated at once. -/
def Write.stamp (write : Write) (now : Nat) : Write :=
  match write.read with
  | none => { write with written := { write.written with createdAt := now, updatedAt := now } }
  | some _ => { write with written := { write.written with updatedAt := now } }

/-- Where a call stands. A list is read entry by entry, when its ids are known. -/
inductive Phase where
  | reading
  | resolving (left : Option (List String)) (found : List User)
  | rereading (user : User)
  | checking (left : Option (List String)) (found : List User) (write : Write)
  | writing (write : Write)
  deriving DecidableEq

structure Call where
  task : Task
  phase : Phase
  deriving DecidableEq

/-- A binding says whether the record on disk was deleted. -/
inductive Event where
  | bound (id subject : String) (deleted : Bool)
  | answered (sub id : String)
  | refused (sub : String)
  deriving DecidableEq

structure Directory where
  users : Users
  calls : List Call := []
  log : List Event := []

/-- What a step finds in the world: the time, the ids of the directory and whether an entry is unreadable. -/
structure Oracle where
  now : Nat
  ids : List String := []
  corrupt : Bool := false
  deriving DecidableEq

/-- A call goes on, or is over with an event. -/
inductive Outcome where
  | goes (phase : Phase)
  | ends (event : Option Event)
  | stuck
  deriving DecidableEq

section Steps

variable (host : OidcHost) (users : Users)

/-- A deactivated user is denied access. -/
def answer (sub : String) (user : User) : Event :=
  if user.deletedAt.isSome then .refused sub else .answered sub user.id

/-- A record without a subject is bound in another step. -/
def claim (sub : String) (user : User) : Outcome :=
  if user.identity = some (subjectKey host sub) then .ends (some (answer sub user))
  else if user.identity.isSome then .ends (some (.refused sub))
  else if user.deletedAt.isSome then .ends (some (answer sub user))
  else .goes (.rereading user)

/-- The rest of a sign-in whose list is complete. -/
def resolve (sub email displayName : String) (all : List User) : Outcome :=
  match all.find? fun user => user.identity = some (subjectKey host sub) with
  | some bound => .ends (some (answer sub bound))
  | none =>
      match all.find? fun user => user.email = email with
      | some byEmail => if isProvisioned byEmail.id then .ends (some (.refused sub)) else claim host sub byEmail
      | none =>
          .goes (.checking none []
            { read := none
              written :=
                { id := oidcUserId host sub
                  email
                  displayName
                  identity := some (subjectKey host sub) } })

/-- The next id of a list, or its end. -/
def listNext (oracle : Oracle) (left : Option (List String)) (found : List User)
    (goes : Option (List String) → List User → Phase) (complete : List User → Outcome) : Outcome :=
  match left with
  | none =>
      if oracle.ids.Nodup ∧ ∀ entry ∈ users.entries, entry.1 ∈ oracle.ids then .goes (goes (some oracle.ids) [])
      else .stuck
  | some (id :: rest) =>
      .goes (goes (some rest) (if oracle.corrupt then found else found ++ (users.get? id).toList))
  | some [] => complete (listed found)

def readFirst (oracle : Oracle) : Task → Outcome
  | .signIn sub _ _ =>
      match users.get? (oidcUserId host sub) with
      | some byId => claim host sub byId
      | none => .goes (.resolving none [])
  | .create .. => .stuck
  | .update id patch =>
      match users.get? id with
      | none => .ends none
      | some user =>
          if patch.email.any (· ≠ user.email) then
            .goes (.checking none [] ⟨some user, user.patched patch oracle.now⟩)
          else .goes (.writing ⟨some user, user.patched patch oracle.now⟩)
  | .softDelete id =>
      match (users.get? id).bind fun user => (user.softDelete oracle.now).map (Write.mk (some user)) with
      | none => .ends none
      | some write => .goes (.writing write)
  | .restore id =>
      match (users.get? id).bind fun user => (user.restore oracle.now).map (Write.mk (some user)) with
      | none => .ends none
      | some write => .goes (.writing write)

/-- The record is read once more before it is bound. -/
def reread (oracle : Oracle) (user : User) : Task → Outcome
  | .signIn sub _ _ =>
      match users.get? user.id with
      | none => .ends (some (answer sub user))
      | some fresh =>
          .goes (.writing ⟨some fresh, fresh.patched { identity := some (subjectKey host sub) } oracle.now⟩)
  | .create .. | .update .. | .softDelete _ | .restore _ => .stuck

/-- An email that is taken fails the call. -/
def check (oracle : Oracle) (write : Write) (task : Task) (all : List User) : Outcome :=
  if all.any fun user => user.email = write.written.email then
    match task with
    | .signIn sub _ _ => .ends (some (.refused sub))
    | .create .. | .update .. | .softDelete _ | .restore _ => .ends none
  else .goes (.writing (write.stamp oracle.now))

def advance (oracle : Oracle) (call : Call) : Outcome :=
  match call.phase with
  | .reading => readFirst host users oracle call.task
  | .resolving left found =>
      match call.task with
      | .signIn sub email displayName =>
          listNext users oracle left found .resolving (resolve host sub email displayName)
      | .create .. | .update .. | .softDelete _ | .restore _ => .stuck
  | .rereading user => reread host users oracle user call.task
  | .checking left found write =>
      listNext users oracle left found (.checking · · write) (check oracle write call.task)
  | .writing _ => .stuck

/-- A sign-in that wrote its record has bound it, and answers with it. -/
def written (write : Write) : Task → List Event
  | .signIn sub _ _ =>
      [answer sub write.written,
        .bound write.written.id (subjectKey host sub) ((users.get? write.written.id).any (·.deletedAt.isSome))]
  | .create .. | .update .. | .softDelete _ | .restore _ => []

def firstPhase : Task → Phase
  | .create hex email displayName orgRole =>
      .checking none [] ⟨none, { id := generateUserId hex, email, displayName, orgRole }⟩
  | .signIn .. | .update .. | .softDelete _ | .restore _ => .reading

/-- An edit of a profile never binds it, and a generated id is hexadecimal. -/
def Task.valid : Task → Bool
  | .create hex _ _ _ => hex.toList.all isHexDigit
  | .update _ patch => patch.identity.isNone
  | .signIn .. | .softDelete _ | .restore _ => true

end Steps

inductive Action where
  | begin (task : Task)
  | next (place : Nat) (oracle : Oracle)
  | fail (place : Nat)
  deriving DecidableEq

namespace Directory

variable (host : OidcHost) (directory : Directory)

/-- The record is replaced whole. -/
def land (place : Nat) (task : Task) (write : Write) : Directory where
  users := directory.users.set write.written.id write.written
  calls := directory.calls.eraseIdx place
  log := written host directory.users write task ++ directory.log

def next (place : Nat) (oracle : Oracle) : Option Directory :=
  match directory.calls[place]? with
  | none => none
  | some ⟨task, .writing write⟩ => some (directory.land host place task write)
  | some call =>
      match advance host directory.users oracle call with
      | .goes phase => some { directory with calls := directory.calls.set place { call with phase } }
      | .ends event =>
          some { directory with calls := directory.calls.eraseIdx place, log := event.toList ++ directory.log }
      | .stuck => none

end Directory

/-- The records have their ids and one email each, and none is bound. -/
structure Unbound (users : Users) : Prop where
  keyed : ∀ id user, users.get? id = some user → user.id = id
  unbound : ∀ id user, users.get? id = some user → user.identity = none
  emails : ∀ id user id' user', users.get? id = some user → users.get? id' = some user' → user.email = user'.email → id = id'

def signInSystem (host : OidcHost) : System Directory Action where
  initial directory := Unbound directory.users ∧ directory.calls = [] ∧ directory.log = []
  step directory
    | .begin task =>
        if task.valid then some { directory with calls := directory.calls ++ [⟨task, firstPhase task⟩] } else none
    | .next place oracle => directory.next host place oracle
    | .fail place => directory.calls[place]?.map fun _ => { directory with calls := directory.calls.eraseIdx place }

end NimbleBrain.Identity.Oidc
