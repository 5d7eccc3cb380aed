import Mathlib.Data.Fintype.Pi
import NimbleBrain.Library.Transition

/- The record of a workspace is one file. A call reads it, edits its copy and writes it whole. -/

namespace NimbleBrain.Workspaces

open Library

inductive WorkspaceRole where
  | admin | member
  deriving DecidableEq

structure WorkspaceMember where
  userId : String
  role : WorkspaceRole
  deriving DecidableEq

/-- The fields that a patch may set. -/
inductive Setting where
  | name | connectors | skillDirs | models | oauthClients | hooks | notifications | about
  deriving DecidableEq

instance : Fintype Setting where
  elems := {.name, .connectors, .skillDirs, .models, .oauthClients, .hooks, .notifications, .about}
  complete setting := by cases setting <;> decide

/-- A setting is JSON text, or absent. -/
structure Workspace where
  members : List WorkspaceMember
  settings : Setting → Option String
  createdAt : Nat
  updatedAt : Nat
  deriving DecidableEq

/-- A patch may set a field to nothing. -/
abbrev Patch := Setting → Option (Option String)

def Workspace.userIds (workspace : Workspace) : List String := workspace.members.map WorkspaceMember.userId

inductive WorkspaceError where
  | conflict | notFound
  | memberConflict (userId : String)
  deriving DecidableEq

/-- An edit fails, answers without a write, or writes a record. -/
abbrev Edited := Except WorkspaceError (Option Workspace)

/-- The calls on one workspace. -/
inductive Call where
  | create (name : String) (about : Option String) (members : List WorkspaceMember)
  | update (patch : Patch)
  | addMember (userId : String) (role : WorkspaceRole)
  | removeMember (userId : String)
  | updateMemberRole (userId : String) (role : WorkspaceRole)
  | delete
  deriving DecidableEq

section Edits

/-- A new workspace has no connectors, and `null` for a missing description. -/
def newSettings (name : String) (about : Option String) : Setting → Option String
  | .name => some name
  | .connectors => some "[]"
  | .about => some (about.getD "null")
  | .skillDirs | .models | .oauthClients | .hooks | .notifications => none

variable (now : Nat)

def create (name : String) (about : Option String) (members : List WorkspaceMember) : Option Workspace → Edited
  | some _ => .error .conflict
  | none =>
      .ok (some
        { members
          settings := newSettings name about
          createdAt := now
          updatedAt := now })

def update (patch : Patch) : Option Workspace → Edited
  | none => .ok none
  | some workspace =>
      .ok (some
        { workspace with
          settings := fun setting => (patch setting).getD (workspace.settings setting)
          updatedAt := now })

def addMember (userId : String) (role : WorkspaceRole) : Option Workspace → Edited
  | none => .error .notFound
  | some workspace =>
      if userId ∈ workspace.userIds then .error (.memberConflict userId)
      else .ok (some { workspace with members := workspace.members ++ [⟨userId, role⟩], updatedAt := now })

def removeMember (userId : String) : Option Workspace → Edited
  | none => .error .notFound
  | some workspace =>
      .ok (some { workspace with members := workspace.members.filter (·.userId ≠ userId), updatedAt := now })

def updateMemberRole (userId : String) (role : WorkspaceRole) : Option Workspace → Edited
  | none => .error .notFound
  | some workspace =>
      .ok (some
        { workspace with
          members := workspace.members.map fun member => if member.userId = userId then { member with role } else member
          updatedAt := now })

/-- A deletion edits nothing. -/
def Call.edit : Call → Option Workspace → Edited
  | .create name about members => Workspaces.create now name about members
  | .update patch => Workspaces.update now patch
  | .addMember userId role => Workspaces.addMember now userId role
  | .removeMember userId => Workspaces.removeMember now userId
  | .updateMemberRole userId role => Workspaces.updateMemberRole now userId role
  | .delete => fun _ => .ok none

end Edits

/-- A call that has read the record and is about to write it. -/
structure Pass where
  call : Call
  read : Option Workspace
  written : Workspace
  deriving DecidableEq

/-- A workspace is created once, since its id is random. -/
inductive Creation where
  | unborn
  | begun (call : Call)
  | writing (pass : Pass)
  | scaffolding
  | over
  deriving DecidableEq

/-- The directory of the workspace with the calls under way. `applied` lists what took effect, the latest first. -/
structure Store where
  directory : Bool
  record : Option Workspace
  creation : Creation
  begun : List Call := []
  passes : List Pass := []
  deleting : Nat := 0
  applied : List Call := []
  deriving DecidableEq

inductive Action where
  | beginCreate (name : String) (about : Option String) (members : List WorkspaceMember)
  | readCreate (now : Nat)
  | writeCreate
  | scaffold
  | createFails
  | begin (call : Call)
  | read (place : Nat) (now : Nat)
  | write (place : Nat)
  | readFails (place : Nat)
  | writeFails (place : Nat)
  | move
  | moveFails
  deriving DecidableEq

namespace Store

variable (store : Store)

/-- The directory is made as soon as no record was found. -/
def readCreate (now : Nat) : Option Store :=
  match store.creation with
  | .begun call =>
      match call.edit now store.record with
      | .ok (some written) =>
          some { store with directory := true, creation := .writing ⟨call, store.record, written⟩ }
      | _ => some { store with creation := .over }
  | _ => none

/-- A file cannot be written into a directory that was moved. -/
def writeCreate : Option Store :=
  match store.creation with
  | .writing pass =>
      if store.directory then
        some { store with record := some pass.written, creation := .scaffolding, applied := pass.call :: store.applied }
      else some { store with creation := .over }
  | _ => none

/-- The subdirectories are made with their parents. -/
def scaffold : Option Store :=
  match store.creation with
  | .scaffolding => some { store with directory := true, creation := .over }
  | _ => none

def createFails : Option Store :=
  match store.creation with
  | .unborn | .over => none
  | .begun _ | .writing _ | .scaffolding => some { store with creation := .over }

/-- A deletion of a directory that is not there answers at once. -/
def begin (call : Call) : Option Store :=
  match call with
  | .create .. => none
  | .delete => some (if store.directory then { store with begun := store.begun ++ [call] } else store)
  | .update _ | .addMember .. | .removeMember _ | .updateMemberRole .. =>
      some { store with begun := store.begun ++ [call] }

def read (place now : Nat) : Option Store :=
  store.begun[place]?.map fun call =>
    let left := { store with begun := store.begun.eraseIdx place }
    match call with
    | .delete => { left with deleting := store.deleting + 1 }
    | _ =>
        match call.edit now store.record with
        | .ok (some written) => { left with passes := store.passes ++ [⟨call, store.record, written⟩] }
        | .ok none | .error _ => left

def write (place : Nat) : Option Store :=
  store.passes[place]?.map fun pass =>
    let left := { store with passes := store.passes.eraseIdx place }
    if store.directory then { left with record := some pass.written, applied := pass.call :: store.applied } else left

/-- The directory is moved to the archive with all that it holds. -/
def move : Option Store :=
  if store.deleting = 0 then none
  else if store.directory then
    some
      { store with
        directory := false
        record := none
        deleting := store.deleting - 1
        applied := .delete :: store.applied }
  else some { store with deleting := store.deleting - 1 }

end Store

/-- A workspace is not there yet, or was created earlier. -/
def Initial (store : Store) : Prop :=
  store = { directory := false, record := none, creation := .unborn } ∨
    ∃ workspace : Workspace, workspace.userIds.Nodup ∧
      store = { directory := true, record := some workspace, creation := .over }

def storeSystem : System Store Action where
  initial := Initial
  step store
    | .beginCreate name about members =>
        if store.creation = .unborn then some { store with creation := .begun (.create name about members) } else none
    | .readCreate now => store.readCreate now
    | .writeCreate => store.writeCreate
    | .scaffold => store.scaffold
    | .createFails => store.createFails
    | .begin call => store.begin call
    | .read place now => store.read place now
    | .write place => store.write place
    | .readFails place => store.begun[place]?.map fun _ => { store with begun := store.begun.eraseIdx place }
    | .writeFails place => store.passes[place]?.map fun _ => { store with passes := store.passes.eraseIdx place }
    | .move => store.move
    | .moveFails => if store.deleting = 0 then none else some { store with deleting := store.deleting - 1 }

end NimbleBrain.Workspaces
