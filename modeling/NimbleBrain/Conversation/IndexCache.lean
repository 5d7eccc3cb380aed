import NimbleBrain.Conversation.Totals
import NimbleBrain.Library.OrderedMap
import NimbleBrain.Library.Transition

/- The index of the conversations is read from their headers. Signals tell what moved, and a refresh applies them. -/

namespace NimbleBrain.Conversation.IndexCache

open Library Display

/-- Text that is no event is skipped. A model response without its usage makes the read throw. -/
inductive StoredLine
  | event (event : ConversationEvent)
  | malformed
  | withoutUsage

/-- The first line is none when it is no conversation metadata. -/
structure StoredFile where
  ino : Nat
  line1 : Option Header
  lines : List StoredLine

/-- The scan of a file and how far it went. -/
structure KeptScan where
  ino : Nat
  line1 : Header
  offset : Nat
  scan : HeaderScan

/-- A line that throws answers none. -/
def foldStoredLine (scan : HeaderScan) : StoredLine → Option HeaderScan
  | .event event => some (foldHeaderLine scan event)
  | .malformed => some scan
  | .withoutUsage => none

def foldHeaderText (scan : HeaderScan) (lines : List StoredLine) : Option HeaderScan :=
  lines.foldlM foldStoredLine scan

/-- The file is the one the scan read, and it only grew. -/
def KeptScan.Resumes (prior : KeptScan) (file : StoredFile) : Prop :=
  prior.ino = file.ino ∧ prior.offset ≤ file.lines.length ∧ file.line1 = some prior.line1

instance (prior : KeptScan) (file : StoredFile) : Decidable (prior.Resumes file) :=
  inferInstanceAs (Decidable (_ ∧ _ ∧ _))

/-- The whole file is read. The outer option is none when the read throws. -/
def scanFromStart (file : StoredFile) : Option (Option KeptScan) :=
  match file.line1 with
  | none => some none
  | some line1 =>
      (foldHeaderText { conversation := parseMeta line1 } file.lines).map fun scan =>
        some { ino := file.ino, line1, offset := file.lines.length, scan }

def scanConversationHeader (prior : Option KeptScan) (file : StoredFile) : Option (Option KeptScan) :=
  match prior.filter fun prior => prior.Resumes file with
  | some prior =>
      (foldHeaderText prior.scan (file.lines.drop prior.offset)).map fun scan =>
        some { prior with offset := file.lines.length, scan }
  | none => scanFromStart file

structure ConversationFileRef where
  filePath : String
  wsId : String
  deriving DecidableEq

structure IndexEntry where
  id : String
  title : Option String
  createdAt : Timestamp
  updatedAt : Timestamp
  messageCount : Nat
  totalInputTokens : Nat
  totalOutputTokens : Nat
  lastModel : Option String
  preview : String
  filePath : String
  ownerId : String
  workspaceId : String
  deriving DecidableEq

/-- A header without an owner is not indexed. -/
def entryOfScan (place : ConversationFileRef) (scan : HeaderScan) : Option IndexEntry :=
  let header := headerOfScan scan
  if header.conversation.ownerId = "" then none
  else
    some
      { id := header.conversation.id
        title := header.conversation.title
        createdAt := header.conversation.createdAt
        updatedAt := header.conversation.updatedAt
        messageCount := header.messageCount
        totalInputTokens := header.conversation.totalInputTokens
        totalOutputTokens := header.conversation.totalOutputTokens
        lastModel := header.conversation.lastModel
        preview := header.preview
        filePath := place.filePath
        ownerId := header.conversation.ownerId
        workspaceId := place.wsId }

abbrev Disk := OrderedMap String StoredFile

/-- What a whole read of the file of a conversation says. A file that does not read says nothing. -/
def describe (place : ConversationFileRef) (file : Option StoredFile) : Option IndexEntry :=
  (file.bind fun file => (scanFromStart file).join).bind fun kept => entryOfScan place kept.scan

/-- The mutation under way. A rebuild holds the scans from before it. -/
structure Update where
  rebuild : Bool
  prior : OrderedMap String KeptScan
  todo : List String
  reading : Option (String × Option KeptScan) := none

/-- A call that joined waits for the update of another one. -/
inductive Phase
  | checking
  | joined
  | owner
  | done
  deriving DecidableEq

/-- A refresh remembers which disk it began on, and which changes were not signalled then. -/
structure Call where
  phase : Phase
  start : Nat
  unsignalled : List String

/-- The history lists every disk there was. The place of a conversation is fixed, so a change is its id. -/
structure State where
  disk : Disk
  history : List Disk
  unsignalled : List String := []
  entries : OrderedMap String IndexEntry := ∅
  scans : OrderedMap String KeptScan := ∅
  pending : List String := []
  dirty : Bool := false
  updating : Option Update := none
  calls : OrderedMap Nat Call := ∅

/-- A change of the disk waits for its signal. -/
def State.changeDisk (state : State) (id : String) (disk : Disk) : State :=
  { state with
    disk
    history := state.history ++ [disk]
    unsignalled := state.unsignalled.insert id }

/-- The id of a conversation is in its first line. -/
def Named (id : String) (file : StoredFile) : Prop := ∀ header ∈ file.line1, header.id = id

instance (id : String) (file : StoredFile) : Decidable (Named id file) :=
  inferInstanceAs (Decidable (∀ header ∈ file.line1, header.id = id))

def createFile (id : String) (file : StoredFile) (state : State) : Option State :=
  if Named id file then some (state.changeDisk id (state.disk.set id file)) else none

def appendFile (id : String) (lines : List StoredLine) (state : State) : Option State :=
  (state.disk.get? id).map fun file =>
    state.changeDisk id (state.disk.set id { file with lines := file.lines ++ lines })

def removeFile (id : String) (state : State) : Option State :=
  (state.disk.get? id).map fun _ => state.changeDisk id (state.disk.delete id)

section Index

/-- A signal that names no conversation stands for all of them. -/
def invalidate (change : Option String) (state : State) : State :=
  match change with
  | none => { state with dirty := true, unsignalled := [] }
  | some id =>
      { state with
        pending := if id ∈ state.pending then state.pending else state.pending ++ [id]
        unsignalled := state.unsignalled.filter (· ≠ id) }

def State.setPhase (state : State) (number : Nat) (call : Call) (phase : Phase) : State :=
  { state with calls := state.calls.set number { call with phase } }

def startBuild (state : State) : State :=
  { state with
    dirty := false
    pending := []
    entries := ∅
    scans := ∅
    updating :=
      some { rebuild := true, prior := state.scans, todo := state.disk.entries.map Prod.fst } }

def startApply (state : State) : State :=
  { state with
    pending := []
    updating := some { rebuild := false, prior := ∅, todo := state.pending } }

/-- What a refresh does between two waits. -/
def look (number : Nat) (call : Call) (state : State) : State :=
  if state.updating.isSome then state.setPhase number call .joined
  else if state.dirty then (startBuild state).setPhase number call .owner
  else if state.pending = [] then state.setPhase number call .done
  else (startApply state).setPhase number call .owner

def refresh (number : Nat) (state : State) : Option State :=
  match state.calls.get? number with
  | some _ => none
  | none =>
      some
        (look number
          { phase := .checking, start := state.history.length - 1, unsignalled := state.unsignalled } state)

def recheck (number : Nat) (state : State) : Option State :=
  match state.calls.get? number with
  | some { phase := .checking, start, unsignalled } =>
      some (look number { phase := .checking, start, unsignalled } state)
  | _ => none

/-- A read may not open its file, or throw. -/
inductive ReadFault
  | unopened
  | throws
  deriving DecidableEq

/-- The scan a read resumes from. -/
def State.priorOf (state : State) (update : Update) (id : String) : Option KeptScan :=
  if update.rebuild then update.prior.get? id else state.scans.get? id

/-- The outer option is none when the read throws. -/
def readHeader (state : State) (update : Update) (id : String) (fault : Option ReadFault) :
    Option (Option KeptScan) :=
  match fault, state.disk.get? id with
  | some .throws, _ => none
  | some .unopened, _ | none, none => some none
  | none, some file => scanConversationHeader (state.priorOf update id) file

/-- An update that throws rejects every call that waits for it. -/
def reject (state : State) : State :=
  { state with
    updating := none
    calls := state.calls.filterMap fun _ call =>
      if call.phase = .owner ∨ call.phase = .joined then none else some call }

def readNext (fault : Option ReadFault) (state : State) : Option State :=
  match state.updating with
  | some { rebuild, prior, todo := id :: rest, reading := none } =>
      match readHeader state { rebuild, prior, todo := id :: rest } id fault with
      | none => some (reject state)
      | some found => some { state with updating := some { rebuild, prior, todo := rest, reading := some (id, found) } }
  | _ => none

variable (place : String → ConversationFileRef)

/-- Only a scan that was read is kept. -/
def keepScan (id : String) (found : Option KeptScan) (scans : OrderedMap String KeptScan) :
    OrderedMap String KeptScan :=
  match found with
  | none => scans.delete id
  | some kept => scans.set id kept

/-- A rebuild began without entries. Another update takes out what does not read. -/
def enterFound (rebuild : Bool) (id : String) (found : Option KeptScan) (entries : OrderedMap String IndexEntry) :
    OrderedMap String IndexEntry :=
  match found.bind fun kept => entryOfScan (place id) kept.scan with
  | some entry => entries.set entry.id entry
  | none => if rebuild then entries else entries.delete id

/-- The header that was read goes into the index. -/
def indexFile (update : Update) (id : String) (found : Option KeptScan) (state : State) : State :=
  { state with
    scans := keepScan id found state.scans
    entries := enterFound place update.rebuild id found state.entries
    updating := some { update with reading := none } }

def storeNext (state : State) : Option State :=
  match state.updating with
  | some { rebuild, prior, todo, reading := some (id, found) } =>
      some (indexFile place { rebuild, prior, todo } id found state)
  | _ => none

/-- The call that began the update is done. The others look again. -/
def Phase.afterUpdate : Phase → Phase
  | .owner => .done
  | .joined => .checking
  | phase => phase

def finish (state : State) : Option State :=
  match state.updating with
  | some { todo := [], reading := none, .. } =>
      some
        { state with
          updating := none
          calls := state.calls.filterMap fun _ call => some { call with phase := call.phase.afterUpdate } }
  | _ => none

/-- The caller goes on after its refresh. -/
def returns (number : Nat) (state : State) : Option State :=
  match state.calls.get? number with
  | some { phase := .done, .. } => some { state with calls := state.calls.delete number }
  | _ => none

end Index

/-- Files change, signals come, and the calls of refresh run in any order. -/
inductive Action
  | create (id : String) (file : StoredFile)
  | append (id : String) (lines : List StoredLine)
  | remove (id : String)
  | invalidate (change : Option String)
  | refresh (number : Nat)
  | recheck (number : Nat)
  | readNext (fault : Option ReadFault)
  | storeNext
  | finish
  | returns (number : Nat)

variable (place : String → ConversationFileRef)

def step (state : State) : Action → Option State
  | .create id file => createFile id file state
  | .append id lines => appendFile id lines state
  | .remove id => removeFile id state
  | .invalidate change => some (invalidate change state)
  | .refresh number => refresh number state
  | .recheck number => recheck number state
  | .readNext fault => readNext fault state
  | .storeNext => storeNext place state
  | .finish => finish state
  | .returns number => returns number state

/-- The index after the first build. -/
def built (disk : Disk) : State where
  disk
  history := [disk]
  entries := disk.filterMap fun id file => describe (place id) (some file)
  scans := disk.filterMap fun _ file => (scanFromStart file).join

/-- The first build read every file without an error. -/
def IndexSystem : System State Action where
  initial state :=
    ∃ disk, (∀ id file, disk.get? id = some file → Named id file ∧ (scanFromStart file).isSome) ∧
      state = built place disk
  step := step place

end NimbleBrain.Conversation.IndexCache
