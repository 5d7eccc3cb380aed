import NimbleBrain.Files.FolderPaths

/- The calls on the folders of a partition run one at a time. The tree stays a tree through every one of them. -/

namespace NimbleBrain.Files

open Library

inductive FolderCall where
  | createFolder (name : String) (parentId : Option String)
  | updateFolder (id : String) (name parentId : Option String)
  | deleteFolder (id : String)
  | ensureFolderPath (path : String)
  | moveFiles (ids : List String) (folderId : String)
  deriving DecidableEq

/-- A call that has read the records and appends to them. -/
structure Running where
  call : FolderCall
  writes : List Record
  result : Except FolderError FolderResult
  appended : List Record := []
  deriving DecidableEq

/-- A call that returned or threw, with what it had appended and the live folders at that moment. -/
structure FolderAnswer where
  call : FolderCall
  result : Except FolderError FolderResult
  appended : List Record
  folders : List FolderEntry
  deriving DecidableEq

/-- The calls of a partition wait for their turn. -/
structure Partition where
  records : Records := {}
  queue : List FolderCall := []
  running : Option Running := none
  generated : Nat := 0
  answers : List FolderAnswer := []
  deriving DecidableEq

inductive FolderStep where
  | folderWrite (call : FolderCall)
  | read (foldersLost registryLost : Bool)
  | append
  | appendFails
  | answer
  deriving DecidableEq

section

variable (toLowerCase : String → String) (generateFolderId : Nat → String)

def FolderCall.plan (folders : List FolderEntry) (files : List FileEntry) (generated : Nat) : FolderCall → Plan
  | .createFolder name parentId => Files.createFolder toLowerCase generateFolderId folders generated name parentId
  | .updateFolder id name parentId => Files.updateFolder toLowerCase folders generated id name parentId
  | .deleteFolder id => Files.deleteFolder folders files generated id
  | .ensureFolderPath path => Files.ensureFolderPath toLowerCase generateFolderId folders generated path
  | .moveFiles ids folderId => Files.moveFiles folders files generated ids folderId

namespace Partition

variable (partition : Partition)

def finish (running : Running) (result : Except FolderError FolderResult) : Partition :=
  { partition with
    running := none
    answers := partition.answers ++
      [{ call := running.call, result := result, appended := running.appended
         folders := readFolders partition.records.folders }] }

/-- The next call reads the logs. A log that cannot be read counts as empty. -/
def read (foldersLost registryLost : Bool) : Option Partition :=
  match partition.running, partition.queue with
  | none, call :: rest =>
      let folders := if foldersLost then [] else readFolders partition.records.folders
      let files := if registryLost then [] else readRegistry partition.records.files
      let plan := call.plan toLowerCase generateFolderId folders files partition.generated
      some { partition with
        queue := rest
        running := some { call := call, writes := plan.writes, result := plan.result }
        generated := plan.generated }
  | _, _ => none

def append : Option Partition :=
  match partition.running with
  | some running =>
      match running.writes with
      | record :: rest => some { partition with
          records := partition.records.append record
          running := some { running with writes := rest, appended := running.appended ++ [record] } }
      | [] => none
  | none => none

def appendFails : Option Partition :=
  match partition.running with
  | some running => if running.writes = [] then none else some (partition.finish running (.error .appendFailed))
  | none => none

def answer : Option Partition :=
  match partition.running with
  | some running => if running.writes = [] then some (partition.finish running running.result) else none
  | none => none

end Partition

/-- A partition starts without folders. Its files may name any folder but those that are still to be generated. -/
def folderSystem (registry : List FileEntry) : System Partition FolderStep where
  initial partition := partition = { records := { files := registry } }
  step partition
    | .folderWrite call => some { partition with queue := partition.queue ++ [call] }
    | .read foldersLost registryLost => partition.read toLowerCase generateFolderId foldersLost registryLost
    | .append => partition.append
    | .appendFails => partition.appendFails
    | .answer => partition.answer

namespace Partition

def nextFailsEarly (partition : Partition) : Bool :=
  match partition.queue with
  | .ensureFolderPath path :: _ =>
      failsEarly toLowerCase (indexFolders (readFolders partition.records.folders)) none (pathSegments path)
  | _ => true

/-- Both logs can be read, and what fails fails before the first append of its call. -/
def FailsEarly (partition : Partition) : FolderStep → Prop
  | .read foldersLost registryLost =>
      foldersLost = false ∧ registryLost = false ∧ partition.nextFailsEarly toLowerCase = true
  | .appendFails => ∀ running ∈ partition.running, running.appended = []
  | _ => True

instance (partition : Partition) (step : FolderStep) : Decidable (partition.FailsEarly toLowerCase step) := by
  cases step <;> unfold FailsEarly <;> infer_instance

/-- What the calls on the folders of a partition promise. -/
structure FolderTreeSound (partition : Partition) : Prop where
  forest : ∀ folder ∈ readFolders partition.records.folders,
    ∃ chain, Rooted (parentIn (readFolders partition.records.folders)) folder.id chain ∧ chain.Nodup
  siblings : ∀ one ∈ readFolders partition.records.folders, ∀ other ∈ readFolders partition.records.folders,
    one.parentId = other.parentId → toLowerCase one.name = toLowerCase other.name → one = other
  parents : ∀ folder ∈ readFolders partition.records.folders, ∀ parentId : String, folder.parentId = some parentId →
    ∃ parent ∈ readFolders partition.records.folders, parent.id = parentId
  deleted : ∀ folder : FolderEntry,
    (latest FolderEntry.id partition.records.folders).get? folder.id = some folder → folder.deleted = true →
      (∀ other ∈ readFolders partition.records.folders, other.parentId ≠ some folder.id) ∧
        ∀ file ∈ readRegistry partition.records.files, file.folderId ≠ some folder.id
  ensured : ∀ answer ∈ partition.answers, ∀ (path : String) (place : Option String),
    answer.call = .ensureFolderPath path → answer.result = .ok (.placed place) →
      IsPathOf toLowerCase answer.folders place path
  refused : ∀ answer ∈ partition.answers, ∀ error : FolderError, answer.result = .error error → answer.appended = []

end Partition

end

variable {toLowerCase : String → String} {generateFolderId : Nat → String}

/-- What holds between the read of a call and its answer. -/
structure Running.Sound (toLowerCase : String → String) (generateFolderId : Nat → String) (generated : Nat)
    (records : Records) (running : Running) : Prop where
  keeps : records.Keeps toLowerCase generateFolderId generated running.writes
  refused : ∀ error : FolderError, running.result = .error error → running.writes = [] ∧ running.appended = []
  ensured : ∀ (path : String) (place : Option String), running.call = .ensureFolderPath path →
    running.result = .ok (.placed place) →
      IsPathOf toLowerCase (readFolders (records.appendAll running.writes).folders) place path

namespace Partition

/-- The invariant of a partition. -/
structure Sound (toLowerCase : String → String) (generateFolderId : Nat → String) (partition : Partition) : Prop where
  records : partition.records.Sound toLowerCase generateFolderId partition.generated
  running : ∀ running ∈ partition.running,
    running.Sound toLowerCase generateFolderId partition.generated partition.records
  ensured : ∀ answer ∈ partition.answers, ∀ (path : String) (place : Option String),
    answer.call = .ensureFolderPath path → answer.result = .ok (.placed place) →
      IsPathOf toLowerCase answer.folders place path
  refused : ∀ answer ∈ partition.answers, ∀ error : FolderError, answer.result = .error error → answer.appended = []

variable {partition next : Partition} {generated : Nat} {records : Records}

theorem appendListed_refused {index : FolderIndex} {entry : Except FolderError FolderEntry} {error : FolderError}
    (refused : (appendListed index generated entry).result = .error error) :
    (appendListed index generated entry).writes = [] := by
  cases entry with
  | error => rfl
  | ok => cases refused

/-- Every call promises the same of its plan. -/
theorem plan_sound (injective : Function.Injective generateFolderId) (named : ∀ n, generateFolderId n ≠ "")
    (sound : records.Sound toLowerCase generateFolderId generated) (call : FolderCall)
    (early : ∀ path : String, call = .ensureFolderPath path →
      failsEarly toLowerCase (indexFolders (readFolders records.folders)) none (pathSegments path) = true) :
    let plan := call.plan toLowerCase generateFolderId (readFolders records.folders) (readRegistry records.files)
      generated
    plan.Sound toLowerCase generateFolderId generated records ∧
      (∀ error : FolderError, plan.result = .error error → plan.writes = []) ∧
        ∀ (path : String) (place : Option String), call = .ensureFolderPath path →
          plan.result = .ok (.placed place) →
            IsPathOf toLowerCase (readFolders (records.appendAll plan.writes).folders) place path := by
  cases call with
  | createFolder name parentId =>
      exact ⟨createFolder_sound sound injective named name parentId, fun _ refused => appendListed_refused refused,
        fun _ _ same => by cases same⟩
  | updateFolder id name parentId =>
      exact ⟨updateFolder_sound sound id name parentId, fun _ refused => appendListed_refused refused,
        fun _ _ same => by cases same⟩
  | deleteFolder id =>
      refine ⟨deleteFolder_sound sound id, ?_, fun _ _ same => by cases same⟩
      intro error refused
      dsimp only [FolderCall.plan] at refused ⊢
      rw [Files.deleteFolder] at refused ⊢
      split at refused
      · rfl
      · dsimp only at refused ⊢
        split at refused
        · next holds => rw [if_pos holds]
        · cases refused
  | ensureFolderPath path =>
      obtain ⟨sound', placed⟩ := ensureFolderPath_sound injective named sound path
      refine ⟨sound', ?_, ?_⟩
      · intro error refused
        dsimp only [FolderCall.plan] at refused ⊢
        have first := early path rfl
        rw [Files.ensureFolderPath] at refused ⊢
        split at refused
        · rfl
        · exact ensureLevels_refused first refused
      · intro other place same done
        obtain rfl := FolderCall.ensureFolderPath.inj same
        exact placed place done
  | moveFiles ids folderId =>
      refine ⟨moveFiles_sound sound ids folderId, ?_, fun _ _ same => by cases same⟩
      intro error refused
      dsimp only [FolderCall.plan] at refused ⊢
      rw [Files.moveFiles] at refused ⊢
      dsimp only at refused ⊢
      split at refused
      · rfl
      · split at refused
        · next missing => rw [if_pos missing]
        · cases refused

theorem Sound.read (sound : partition.Sound toLowerCase generateFolderId)
    (injective : Function.Injective generateFolderId) (named : ∀ n, generateFolderId n ≠ "")
    {foldersLost registryLost : Bool} (met : partition.FailsEarly toLowerCase (.read foldersLost registryLost))
    (stepped : partition.read toLowerCase generateFolderId foldersLost registryLost = some next) :
    next.Sound toLowerCase generateFolderId := by
  obtain ⟨rfl, rfl, early⟩ := met
  rw [Partition.read] at stepped
  split at stepped
  · next call rest idle waiting =>
    rw [Option.some.injEq] at stepped
    subst stepped
    obtain ⟨plan, refused, placed⟩ := plan_sound injective named sound.records call (by
      rintro path rfl
      rwa [nextFailsEarly, waiting] at early)
    refine ⟨sound.records.mono plan.grows, ?_, sound.ensured, sound.refused⟩
    rintro running same
    obtain rfl := Option.some.inj same
    exact ⟨plan.keeps, fun error failed => ⟨refused error failed, rfl⟩, placed⟩
  · cases stepped

theorem Sound.append (sound : partition.Sound toLowerCase generateFolderId)
    (stepped : partition.append = some next) : next.Sound toLowerCase generateFolderId := by
  rw [Partition.append] at stepped
  split at stepped
  · next running found =>
    have own := sound.running running found
    split at stepped
    · next record rest writes =>
      rw [Option.some.injEq] at stepped
      subst stepped
      have keeps := own.keeps
      rw [writes] at keeps
      refine ⟨keeps.2.sound, ?_, sound.ensured, sound.refused⟩
      rintro other same
      obtain rfl := Option.some.inj same
      refine ⟨keeps.2, ?_, ?_⟩
      · intro error failed
        have none' := (own.refused error failed).1
        rw [writes] at none'
        cases none'
      · intro path place called done
        have placed := own.ensured path place called done
        rw [writes] at placed
        exact placed
    · cases stepped
  · cases stepped

theorem Sound.finish (sound : partition.Sound toLowerCase generateFolderId) {running : Running}
    {result : Except FolderError FolderResult}
    (refused : ∀ error : FolderError, result = .error error → running.appended = [])
    (ensured : ∀ (path : String) (place : Option String), running.call = .ensureFolderPath path →
      result = .ok (.placed place) → IsPathOf toLowerCase (readFolders partition.records.folders) place path) :
    (partition.finish running result).Sound toLowerCase generateFolderId := by
  refine ⟨sound.records, fun _ same => (Option.not_mem_none _ same).elim, ?_, ?_⟩
  · intro answer listed
    rcases List.mem_append.mp listed with before | new
    · exact sound.ensured answer before
    · rw [List.mem_singleton.mp new]
      exact ensured
  · intro answer listed
    rcases List.mem_append.mp listed with before | new
    · exact sound.refused answer before
    · rw [List.mem_singleton.mp new]
      exact refused

theorem Sound.step (sound : partition.Sound toLowerCase generateFolderId)
    (injective : Function.Injective generateFolderId) (named : ∀ n, generateFolderId n ≠ "")
    {registry : List FileEntry} {step : FolderStep} (met : partition.FailsEarly toLowerCase step)
    (stepped : (folderSystem toLowerCase generateFolderId registry).step partition step = some next) :
    next.Sound toLowerCase generateFolderId := by
  cases step with
  | folderWrite call =>
      exact Option.some.inj stepped ▸ ⟨sound.records, sound.running, sound.ensured, sound.refused⟩
  | read foldersLost registryLost => exact sound.read injective named met stepped
  | append => exact sound.append stepped
  | appendFails =>
      change partition.appendFails = some next at stepped
      rw [Partition.appendFails] at stepped
      split at stepped
      · next running found =>
        split at stepped
        · cases stepped
        · rw [Option.some.injEq] at stepped
          exact stepped ▸ sound.finish (fun _ _ => met running found) (fun _ _ _ done => nomatch done)
      · cases stepped
  | answer =>
      change partition.answer = some next at stepped
      rw [Partition.answer] at stepped
      split at stepped
      · next running found =>
        have own := sound.running running found
        split at stepped
        · next done =>
          rw [Option.some.injEq] at stepped
          refine stepped ▸ sound.finish (fun error failed => (own.refused error failed).2) ?_
          intro path place called placed
          have ensured := own.ensured path place called placed
          rwa [done] at ensured
        · cases stepped
      · cases stepped

/-- The tree stays a tree in every run whose calls fail before their first append. -/
theorem folders_stay_a_tree (injective : Function.Injective generateFolderId)
    (named : ∀ n, generateFolderId n ≠ "") {registry : List FileEntry}
    (unused : ∀ file ∈ registry, ∀ n, file.folderId ≠ some (generateFolderId n))
    (reached : (folderSystem toLowerCase generateFolderId registry).ReachedBy (FailsEarly toLowerCase) partition) :
    partition.FolderTreeSound toLowerCase := by
  have sound : partition.Sound toLowerCase generateFolderId := by
    apply reached.invariant (Sound toLowerCase generateFolderId)
    · intro state start
      obtain rfl := start
      refine ⟨⟨.nil, ?_, ?_⟩, fun _ same => (Option.not_mem_none _ same).elim, ?_, ?_⟩
      · exact fun _ _ _ _ _ found => nomatch found
      · exact fun later _ => ⟨fun _ listed => (List.not_mem_nil listed).elim, fun file listed => unused file listed later⟩
      · exact fun _ listed => (List.not_mem_nil listed).elim
      · exact fun _ listed => (List.not_mem_nil listed).elim
    · exact fun before step after sound met stepped => sound.step injective named met stepped
  have tree := sound.records.tree
  constructor
  · intro folder listed
    obtain ⟨chain, rooted⟩ := tree.rooted folder listed
    exact ⟨chain, rooted, rooted.nodup⟩
  · exact tree.siblings
  · exact fun folder listed parentId => tree.parent_live listed
  · intro folder found gone
    constructor
    · intro other listed below
      obtain ⟨parent, live, same⟩ := tree.parent_live listed below
      obtain ⟨known, alive⟩ := mem_readFolders.mp live
      rw [same, found, Option.some.injEq] at known
      rw [← known, gone] at alive
      cases alive
    · intro file live within
      have alive := sound.records.held file live folder.id within folder found
      rw [gone] at alive
      cases alive
  · exact sound.ensured
  · exact sound.refused

/-- Some generator of identifiers that never repeat. -/
def numberedFolder (n : Nat) : String := "fd_" ++ String.ofList (List.replicate n '0')

theorem numberedFolder_length (n : Nat) : (numberedFolder n).length = 3 + n := by
  simp [numberedFolder]
  rfl

theorem numberedFolder_injective : Function.Injective numberedFolder := by
  intro one other same
  have lengths := congrArg String.length same
  rw [numberedFolder_length, numberedFolder_length] at lengths
  omega

theorem numberedFolder_named (n : Nat) : numberedFolder n ≠ "" := by
  intro same
  have lengths := congrArg String.length same
  rw [numberedFolder_length] at lengths
  simp at lengths

def lowerAscii (text : String) : String := .ofList (text.toList.map Char.toLower)

/-- A path is created, found again in another case, and one of its folders is refused for deletion. -/
def reportsRun : List FolderStep :=
  [.folderWrite (.ensureFolderPath "Reports/Q3"), .folderWrite (.ensureFolderPath "/reports/q3/"),
    .folderWrite (.deleteFolder (numberedFolder 0)), .read false false, .append, .append, .answer, .read false false,
    .answer, .read false false, .answer]

theorem reportsRun_meets :
    (folderSystem lowerAscii numberedFolder []).Meets (FailsEarly lowerAscii) {} reportsRun := by
  decide +kernel

theorem reportsRun_answers : ((folderSystem lowerAscii numberedFolder []).run {} reportsRun).any fun partition =>
    decide (partition.answers.map FolderAnswer.result =
      [.ok (.placed (some (numberedFolder 1))), .ok (.placed (some (numberedFolder 1))),
        .error (.notEmpty "Reports" 0 1)]) := by decide +kernel

theorem folders_stay_a_tree_reports :
    ∃ partition, (folderSystem lowerAscii numberedFolder []).run {} reportsRun = some partition ∧
      partition.answers.map FolderAnswer.result =
        [.ok (.placed (some (numberedFolder 1))), .ok (.placed (some (numberedFolder 1))),
          .error (.notEmpty "Reports" 0 1)] ∧
      partition.FolderTreeSound lowerAscii := by
  have reached : (folderSystem lowerAscii numberedFolder []).ReachedBy (FailsEarly lowerAscii) {} :=
    .start _ rfl
  obtain ⟨partition, ran, answered⟩ := (Option.any_eq_true ..).mp reportsRun_answers
  rw [decide_eq_true_eq] at answered
  have tree := folders_stay_a_tree numberedFolder_injective numberedFolder_named
    (fun _ listed => (List.not_mem_nil listed).elim) (reached.run reportsRun_meets ran)
  exact ⟨partition, ran, answered, tree⟩

/-- The path `New/..` creates its first level and then throws. -/
theorem refused_path_leaves_folder :
    ∃ partition, (folderSystem lowerAscii numberedFolder []).Reachable partition ∧
      partition.answers.map FolderAnswer.result = [.error (.invalidName "..")] ∧
        (readFolders partition.records.folders).map FolderEntry.name = ["New"] := by
  have reached : (folderSystem lowerAscii numberedFolder []).Reachable {} := .start _ rfl
  have left : ((folderSystem lowerAscii numberedFolder []).run {}
      [.folderWrite (.ensureFolderPath "New/.."), .read false false, .append, .answer]).any fun partition =>
        decide (partition.answers.map FolderAnswer.result = [.error (.invalidName "..")] ∧
          (readFolders partition.records.folders).map FolderEntry.name = ["New"]) := by decide +kernel
  obtain ⟨partition, ran, holds⟩ := (Option.any_eq_true ..).mp left
  exact ⟨partition, reached.run ran, of_decide_eq_true holds⟩

end Partition

end NimbleBrain.Files
