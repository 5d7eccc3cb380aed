import Mathlib.Data.List.Induction
import NimbleBrain.Conversation.Text
import NimbleBrain.Library.Forest
import NimbleBrain.Library.OrderedMap
import NimbleBrain.Library.Transition

/- The folders of one owner's files are records in a log. Nothing on disk moves with them. -/

namespace NimbleBrain.Files

open Library
open Conversation (trim)

/-- A folder at the top level has no parent. -/
structure FolderEntry where
  id : String
  name : String
  parentId : Option String
  deleted : Bool := false
  deriving DecidableEq

/-- A file names its folder, unless it is at the top level. -/
structure FileEntry where
  id : String
  folderId : Option String := none
  deleted : Bool := false
  deriving DecidableEq

/-- The latest record of each identifier, in the order of the first ones. -/
def latest {Entry : Type} (idOf : Entry → String) (log : List Entry) : OrderedMap String Entry :=
  log.foldl (fun map entry => map.set (idOf entry) entry) ∅

def readFolders (log : List FolderEntry) : List FolderEntry :=
  (latest FolderEntry.id log).values.filter fun folder => !folder.deleted

def readRegistry (log : List FileEntry) : List FileEntry :=
  (latest FileEntry.id log).values.filter fun file => !file.deleted

/-- The live folders of a partition. The top level is keyed by `none`. -/
structure FolderIndex where
  byId : OrderedMap String FolderEntry
  children : OrderedMap (Option String) (List FolderEntry)

def FolderIndex.childrenOf (index : FolderIndex) (parentId : Option String) : List FolderEntry :=
  (index.children.get? parentId).getD []

def FolderIndex.addChild (index : FolderIndex) (parentId : Option String) (folder : FolderEntry) : FolderIndex :=
  { index with children := index.children.set parentId (index.childrenOf parentId ++ [folder]) }

/-- A folder whose parent is gone reads as top level. -/
def shownParent (byId : OrderedMap String FolderEntry) (folder : FolderEntry) : Option String :=
  folder.parentId.filter fun parentId => parentId ≠ "" && (byId.get? parentId).isSome

def indexFolders (folders : List FolderEntry) : FolderIndex :=
  let byId := latest FolderEntry.id folders
  folders.foldl (fun index folder => index.addChild (shownParent byId folder) folder) ⟨byId, ∅⟩

def rootFolderId : String := "root"

def normalizeFolderId (id : Option String) : Option String :=
  id.filter fun id => id ≠ "" && id ≠ rootFolderId

/-- One more folder upwards, until the top or a folder that was seen. -/
def ancestryUp (byId : OrderedMap String FolderEntry) :
    Nat → List String → Option FolderEntry → List FolderEntry → List FolderEntry
  | 0, _, _, out => out
  | _ + 1, _, none, out => out
  | fuel + 1, seen, some folder, out =>
      if folder.id ∈ seen then out
      else ancestryUp byId fuel (folder.id :: seen) ((folder.parentId.filter (· ≠ "")).bind byId.get?) (folder :: out)

/-- The folder and its ancestors, top first. Each round sees another folder, so their number is fuel enough. -/
def ancestry (index : FolderIndex) (id : Option String) : List FolderEntry :=
  ancestryUp index.byId index.byId.size [] ((id.filter (· ≠ "")).bind index.byId.get?) []

def folderPath (index : FolderIndex) (id : Option String) : String :=
  String.intercalate "/" ((ancestry index id).map FolderEntry.name)

/-- The folder's id and every folder below it. Each of them is on the stack once. -/
def subtreeIds (index : FolderIndex) (id : String) : List String :=
  searchBelow (fun next => (index.childrenOf (some next)).map FolderEntry.id) (index.byId.size + 1) [id] [id]

inductive FolderError where
  | folderNotFound (id : String)
  | invalidName (name : String)
  | separatorInName (name : String)
  | alreadyExists (name : String)
  | movedIntoItself
  | notEmpty (name : String) (fileCount folderCount : Nat)
  | fileNotFound (missing : List String)
  | appendFailed
  deriving DecidableEq

def cleanName (name : String) : Except FolderError String :=
  let trimmed := trim name
  if trimmed = "" ∨ trimmed = "." ∨ trimmed = ".." then .error (.invalidName name)
  else if trimmed.toList.any fun c => c = '/' || c = '\\' then .error (.separatorInName name)
  else .ok trimmed

def requireFolder (index : FolderIndex) (id : Option String) : Except FolderError Unit :=
  match id with
  | none => .ok ()
  | some id => if (index.byId.get? id).isSome then .ok () else .error (.folderNotFound id)

/-- Both logs of a partition. -/
structure Records where
  folders : List FolderEntry := []
  files : List FileEntry := []
  deriving DecidableEq

inductive Record where
  | folder (entry : FolderEntry)
  | file (entry : FileEntry)
  deriving DecidableEq

def Records.append (records : Records) : Record → Records
  | .folder entry => { records with folders := records.folders ++ [entry] }
  | .file entry => { records with files := records.files ++ [entry] }

inductive FolderResult where
  | listed (folder : FolderEntry) (path : String)
  | deleted
  | placed (folderId : Option String)
  | moved (folderId : Option String)
  deriving DecidableEq

/-- What a call appends, and how it ends when every append succeeds. -/
structure Plan where
  writes : List Record := []
  result : Except FolderError FolderResult
  generated : Nat
  deriving DecidableEq

variable (toLowerCase : String → String) (generateFolderId : Nat → String)

def siblingNamed (index : FolderIndex) (parentId : Option String) (name : String) : Option FolderEntry :=
  (index.childrenOf parentId).find? fun folder => toLowerCase folder.name = toLowerCase name

def FolderIndex.setById (index : FolderIndex) (folder : FolderEntry) : FolderIndex :=
  { index with byId := index.byId.set folder.id folder }

/-- The checks of a call, up to its one append. -/
def createFolderEntry (index : FolderIndex) (generated : Nat) (name : String) (parentId : Option String) :
    Except FolderError FolderEntry := do
  let parentId := normalizeFolderId parentId
  requireFolder index parentId
  let name ← cleanName name
  if (siblingNamed toLowerCase index parentId name).isSome then .error (.alreadyExists name)
  else .ok { id := generateFolderId generated, name := name, parentId := parentId }

/-- A call that appends one folder and lists it. -/
def appendListed (index : FolderIndex) (generated : Nat) : Except FolderError FolderEntry → Plan
  | .error error => { result := .error error, generated := generated }
  | .ok entry =>
      { writes := [.folder entry]
        result := .ok (.listed entry (folderPath (index.setById entry) (some entry.id)))
        generated := generated }

def createFolder (folders : List FolderEntry) (generated : Nat) (name : String) (parentId : Option String) : Plan :=
  let index := indexFolders folders
  appendListed index (generated + 1)
    (createFolderEntry toLowerCase generateFolderId index generated name parentId)

/-- What is not given stays as it is. -/
def nameAfter (existing : FolderEntry) : Option String → Except FolderError String
  | none => .ok existing.name
  | some name => cleanName name

def parentAfter (existing : FolderEntry) : Option String → Option String
  | none => existing.parentId
  | some parentId => normalizeFolderId (some parentId)

def updateFolderEntry (index : FolderIndex) (id : String) (name parentId : Option String) :
    Except FolderError FolderEntry :=
  match index.byId.get? id with
  | none => .error (.folderNotFound id)
  | some existing => do
      let name ← nameAfter existing name
      let parentId := parentAfter existing parentId
      requireFolder index parentId
      if parentId.any (· ∈ subtreeIds index existing.id) then .error .movedIntoItself
      else
        let clash := siblingNamed toLowerCase index parentId name
        if clash.any (·.id ≠ existing.id) then .error (.alreadyExists name)
        else .ok { existing with name := name, parentId := parentId }

def updateFolder (folders : List FolderEntry) (generated : Nat) (id : String) (name parentId : Option String) : Plan :=
  let index := indexFolders folders
  appendListed index generated (updateFolderEntry toLowerCase index id name parentId)

/-- A folder that holds anything is refused. -/
def deleteFolder (folders : List FolderEntry) (files : List FileEntry) (generated : Nat) (id : String) : Plan :=
  let index := indexFolders folders
  match index.byId.get? id with
  | none => { result := .error (.folderNotFound id), generated := generated }
  | some existing =>
      let fileCount := (files.filter fun file => file.folderId = some id).length
      let folderCount := (index.childrenOf (some id)).length
      if 0 < fileCount ∨ 0 < folderCount then
        { result := .error (.notEmpty existing.name fileCount folderCount), generated := generated }
      else
        { writes := [.folder { existing with deleted := true }], result := .ok .deleted, generated := generated }

def pathSegments (path : String) : List String :=
  ((path.toList.splitOn '/').map fun segment => trim (.ofList segment)).filter (· ≠ "")

/-- Each missing level is appended before the next segment is looked at. -/
def ensureLevels : FolderIndex → Nat → Option String → List String → Plan
  | _, generated, parentId, [] => { result := .ok (.placed parentId), generated := generated }
  | index, generated, parentId, segment :: rest =>
      match cleanName segment with
      | .error error => { result := .error error, generated := generated }
      | .ok name =>
          match siblingNamed toLowerCase index parentId name with
          | some found => ensureLevels index generated (some found.id) rest
          | none =>
              let entry : FolderEntry := { id := generateFolderId generated, name := name, parentId := parentId }
              let plan := ensureLevels ((index.setById entry).addChild parentId entry) (generated + 1)
                (some entry.id) rest
              { plan with writes := .folder entry :: plan.writes }

/-- The folder of a path is resolved, and each missing level is created. -/
def ensureFolderPath (folders : List FolderEntry) (generated : Nat) (path : String) : Plan :=
  match pathSegments path with
  | [] => { result := .ok (.placed none), generated := generated }
  | segments => ensureLevels toLowerCase generateFolderId (indexFolders folders) generated none segments

/-- Every id must name a live file. None moves otherwise. -/
def moveFiles (folders : List FolderEntry) (files : List FileEntry) (generated : Nat) (ids : List String)
    (folderId : String) : Plan :=
  let target := normalizeFolderId (some folderId)
  match requireFolder (indexFolders folders) target with
  | .error error => { result := .error error, generated := generated }
  | .ok () =>
      let byId := latest FileEntry.id files
      let missing := ids.filter fun id => (byId.get? id).isNone
      if missing ≠ [] then { result := .error (.fileNotFound missing), generated := generated }
      else
        { writes := ((ids.eraseDups.filterMap byId.get?).filter fun file => file.folderId ≠ target).map
            fun file => .file { file with folderId := target }
          result := .ok (.moved target)
          generated := generated }

end NimbleBrain.Files
