import NimbleBrain.Files.FolderTree

/- What each call appends keeps the tree. A call that refuses has appended nothing, unless a path fails late. -/

namespace NimbleBrain.Files

open Library
open Conversation (trim)

section Lookups

variable {toLowerCase : String → String} {folders : List FolderEntry}

variable {index : FolderIndex} {name : String} {parentId : Option String}

theorem siblingNamed_some {folder : FolderEntry}
    (found : siblingNamed toLowerCase index parentId name = some folder) :
    folder ∈ index.childrenOf parentId ∧ toLowerCase folder.name = toLowerCase name :=
  ⟨List.mem_of_find?_eq_some found, by simpa using List.find?_some found⟩

theorem siblingNamed_none (absent : siblingNamed toLowerCase index parentId name = none) :
    ∀ folder ∈ index.childrenOf parentId, toLowerCase folder.name ≠ toLowerCase name := by
  intro folder listed
  simpa using List.find?_eq_none.mp absent folder listed

/-- The folders below a folder, as the code finds them, take in the children of each of them. -/
theorem Tree.subtreeIds_closed (tree : Tree toLowerCase folders) (id : String) :
    id ∈ subtreeIds (indexFolders folders) id ∧ ∀ child ∈ folders, ∀ above : String, child.parentId = some above →
      above ∈ subtreeIds (indexFolders folders) id → child.id ∈ subtreeIds (indexFolders folders) id := by
  refine ⟨(mem_subtreeIds tree.distinct).mpr .refl, ?_⟩
  intro child listed above parent inside
  have reached := (mem_subtreeIds tree.distinct).mp inside
  exact (mem_subtreeIds tree.distinct).mpr
    (reached.tail (List.mem_map_of_mem (tree.mem_childrenOf.mpr ⟨listed, parent⟩)))

end Lookups

/-- The way down to a folder, top first. -/
inductive Climbs (folders : List FolderEntry) : Option String → List FolderEntry → Prop
  | top : Climbs folders none []
  | inside (folder : FolderEntry) (above : List FolderEntry) (listed : folder ∈ folders)
      (rest : Climbs folders folder.parentId above) : Climbs folders (some folder.id) (above ++ [folder])

namespace Climbs

variable {toLowerCase : String → String} {folders next : List FolderEntry} {place : Option String}
  {entries : List FolderEntry}

theorem mem (climbs : Climbs folders place entries) : ∀ entry ∈ entries, entry ∈ folders := by
  induction climbs with
  | top => exact fun _ listed => nomatch listed
  | inside folder above listed _ ih =>
      intro entry among
      rcases List.mem_append.mp among with before | last
      · exact ih entry before
      · exact List.mem_singleton.mp last ▸ listed

theorem kept (climbs : Climbs folders place entries) (still : ∀ entry ∈ folders, entry ∈ next) :
    Climbs next place entries := by
  induction climbs with
  | top => exact .top
  | inside folder above listed _ ih => exact .inside folder above (still folder listed) ih

theorem rooted (tree : Tree toLowerCase folders) (climbs : Climbs folders place entries) {id : String}
    (at' : place = some id) : Rooted (parentIn folders) id (entries.map FolderEntry.id) := by
  induction climbs generalizing id with
  | top => cases at'
  | inside folder above listed rest ih =>
      have known := parentIn_of_mem tree.distinct listed
      obtain rfl := Option.some.inj at'
      rw [List.map_append]
      cases parent : folder.parentId with
      | none =>
          rw [parent] at known rest
          cases rest
          exact .top folder.id known
      | some next => exact .inside folder.id next _ (known.trans (congrArg some parent)) (ih parent)

/-- The code climbs the same way. -/
theorem ancestryUp_eq (tree : Tree toLowerCase folders) (climbs : Climbs folders place entries) {fuel : Nat}
    (enough : entries.length ≤ fuel) {seen : List String} (unseen : ∀ entry ∈ entries, entry.id ∉ seen)
    (distinct : (entries.map FolderEntry.id).Nodup) (out : List FolderEntry) :
    ancestryUp (indexFolders folders).byId fuel seen
      ((place.filter (· ≠ "")).bind (indexFolders folders).byId.get?) out = entries ++ out := by
  induction climbs generalizing fuel seen out with
  | top => cases fuel <;> rfl
  | inside folder above listed _ ih =>
      have found := (byId_iff tree.distinct).mpr ⟨listed, rfl⟩
      have own := unseen folder (by simp)
      rw [List.length_append, List.length_singleton] at enough
      rw [List.map_append, List.nodup_append] at distinct
      obtain ⟨fuel, rfl⟩ := Nat.exists_eq_add_one_of_ne_zero (show fuel ≠ 0 by omega)
      rw [Option.filter_some_pos (by simpa using tree.named folder listed), Option.bind_some, found, ancestryUp,
        if_neg own, ih (by omega) ?_ distinct.1, List.append_assoc]
      · rfl
      · intro entry among seen'
        rcases List.mem_cons.mp seen' with same | before
        · exact distinct.2.2 entry.id (List.mem_map_of_mem among) folder.id (by simp) same
        · exact unseen entry (List.mem_append_left _ among) before

theorem ancestry_eq (tree : Tree toLowerCase folders) (climbs : Climbs folders place entries) :
    ancestry (indexFolders folders) place = entries := by
  have distinct : (entries.map FolderEntry.id).Nodup := by
    cases climbs with
    | top => exact List.nodup_nil
    | inside folder above listed rest => exact (rooted tree (.inside folder above listed rest) rfl).nodup
  have short : (entries.map FolderEntry.id).length ≤ ((indexFolders folders).byId.entries.map Prod.fst).length := by
    apply (List.subperm_of_subset distinct ?_).length_le
    intro id among
    obtain ⟨entry, listed, rfl⟩ := List.mem_map.mp among
    have found := (byId_iff tree.distinct).mpr ⟨climbs.mem entry listed, rfl⟩
    exact List.mem_map.mpr ⟨_, OrderedMap.get?_eq_some_iff.mp found, rfl⟩
  rw [List.length_map, List.length_map, ← OrderedMap.size] at short
  rw [ancestry, ancestryUp_eq tree climbs short (fun _ _ => List.not_mem_nil) distinct, List.append_nil]

end Climbs

section Records

variable (toLowerCase : String → String) (generateFolderId : Nat → String)

/-- What holds of the records of a partition. Later identifiers stand nowhere yet. -/
structure Records.Sound (generated : Nat) (records : Records) : Prop where
  tree : Tree toLowerCase (readFolders records.folders)
  held : ∀ file ∈ readRegistry records.files, ∀ id : String, file.folderId = some id →
    ∀ folder : FolderEntry, (latest FolderEntry.id records.folders).get? id = some folder → folder.deleted = false
  fresh : ∀ later : Nat, generated ≤ later → (∀ folder ∈ records.folders, folder.id ≠ generateFolderId later) ∧
    ∀ file ∈ records.files, file.folderId ≠ some (generateFolderId later)

/-- What a call still appends keeps the records sound, one record after the other. -/
def Records.Keeps (generated : Nat) : Records → List Record → Prop
  | records, [] => records.Sound toLowerCase generateFolderId generated
  | records, record :: rest =>
      records.Sound toLowerCase generateFolderId generated ∧ (records.append record).Keeps generated rest

def Records.appendAll (records : Records) (writes : List Record) : Records := writes.foldl Records.append records

end Records

variable {toLowerCase : String → String} {generateFolderId : Nat → String} {generated : Nat} {records : Records}

namespace Records

variable {writes : List Record}

theorem Keeps.sound (keeps : records.Keeps toLowerCase generateFolderId generated writes) :
    records.Sound toLowerCase generateFolderId generated := by
  cases writes with
  | nil => exact keeps
  | cons record rest => exact keeps.1

/-- Once everything is appended the records are sound. -/
theorem Keeps.last (keeps : records.Keeps toLowerCase generateFolderId generated writes) :
    (records.appendAll writes).Sound toLowerCase generateFolderId generated := by
  induction writes generalizing records with
  | nil => exact keeps
  | cons record rest ih => exact ih keeps.2

theorem Sound.mono (sound : records.Sound toLowerCase generateFolderId generated) {later : Nat}
    (more : generated ≤ later) : records.Sound toLowerCase generateFolderId later :=
  { sound with fresh := fun next after => sound.fresh next (Nat.le_trans more after) }

/-- A live folder may be put where it fits. -/
theorem Sound.putFolder (sound : records.Sound toLowerCase generateFolderId generated) (below : String → Prop)
    {entry : FolderEntry} (live : entry.deleted = false)
    (fits : Fits toLowerCase (readFolders records.folders) below entry)
    (used : ∀ later : Nat, generated ≤ later → entry.id ≠ generateFolderId later) :
    (records.append (.folder entry)).Sound toLowerCase generateFolderId generated where
  tree := by
    apply sound.tree.put fits
    intro folder
    rw [append, mem_readFolders_append]
    exact or_congr_left (and_iff_left live)
  held := by
    intro file listed id within folder found
    change (latest FolderEntry.id (records.folders ++ [entry])).get? id = some folder at found
    rw [latest_append, OrderedMap.get?_set] at found
    split at found
    · exact Option.some.inj found ▸ live
    · exact sound.held file listed id within folder found
  fresh := by
    intro later after
    refine ⟨?_, (sound.fresh later after).2⟩
    intro folder listed
    rcases List.mem_append.mp listed with before | new
    · exact (sound.fresh later after).1 folder before
    · exact List.mem_singleton.mp new ▸ used later after

/-- An identifier that was generated now stands in no record. -/
theorem Sound.unused (sound : records.Sound toLowerCase generateFolderId generated) :
    ∀ folder ∈ readFolders records.folders, folder.id ≠ generateFolderId generated := by
  intro folder listed same
  have absent := latest_none.mpr (sound.fresh generated (Nat.le_refl _)).1
  rw [← same, (mem_readFolders.mp listed).1] at absent
  cases absent

/-- A new folder may be put below a live one, beside others of other names. -/
theorem Sound.addFolder (sound : records.Sound toLowerCase generateFolderId generated)
    (injective : Function.Injective generateFolderId) (named : ∀ n, generateFolderId n ≠ "") {name : String}
    {parentId : Option String}
    (placed : ∀ above : String, parentId = some above → ∃ parent ∈ readFolders records.folders, parent.id = above)
    (alone : ∀ folder ∈ readFolders records.folders, folder.parentId = parentId →
      toLowerCase folder.name ≠ toLowerCase name) :
    (records.append (.folder ⟨generateFolderId generated, name, parentId, false⟩)).Sound
      toLowerCase generateFolderId (generated + 1) := by
  apply (sound.mono (Nat.le_succ generated)).putFolder (· = generateFolderId generated) rfl
  · exact {
      named := named generated
      own := rfl
      closed := by
        rintro child listed above parent rfl
        obtain ⟨other, among, same⟩ := sound.tree.parent_live listed parent
        exact absurd same (sound.unused other among)
      placed := by
        intro above parent
        obtain ⟨other, among, rfl⟩ := placed above parent
        exact ⟨sound.unused other among, other, among, rfl⟩
      alone := fun folder listed _ => alone folder listed }
  · intro later after same
    have := injective same
    omega

end Records

theorem requireFolder_ok {folders : List FolderEntry}
    (distinct : ∀ one ∈ folders, ∀ other ∈ folders, one.id = other.id → one = other) {id : Option String}
    (checked : requireFolder (indexFolders folders) id = .ok ()) :
    ∀ above : String, id = some above → ∃ parent ∈ folders, parent.id = above := by
  rintro above rfl
  rw [requireFolder] at checked
  split at checked
  · next known =>
    obtain ⟨parent, found⟩ := Option.isSome_iff_exists.mp known
    obtain ⟨listed, same⟩ := (byId_iff distinct).mp found
    exact ⟨parent, listed, same⟩
  · cases checked

variable {entry : FolderEntry} {parentId : Option String}

/-- The one folder that a call creates fits into the tree. -/
theorem createFolderEntry_sound (sound : records.Sound toLowerCase generateFolderId generated)
    (injective : Function.Injective generateFolderId) (named : ∀ n, generateFolderId n ≠ "") {name : String}
   
    (checked : createFolderEntry toLowerCase generateFolderId (indexFolders (readFolders records.folders)) generated
      name parentId = .ok entry) :
    (records.append (.folder entry)).Sound toLowerCase generateFolderId (generated + 1) := by
  simp only [createFolderEntry, bind, Except.bind] at checked
  split at checked
  · cases checked
  next required =>
  split at checked
  · cases checked
  next clean =>
  split at checked
  · cases checked
  next absent =>
  rw [Except.ok.injEq] at checked
  subst checked
  apply sound.addFolder injective named
  · exact requireFolder_ok sound.tree.distinct required
  · intro folder listed parent
    apply siblingNamed_none (by simpa using absent)
    exact sound.tree.mem_childrenOf.mpr ⟨listed, parent⟩

/-- A folder that a call changes still fits into the tree. -/
theorem updateFolderEntry_sound (sound : records.Sound toLowerCase generateFolderId generated) {id : String}
    {name : Option String}
    (checked : updateFolderEntry toLowerCase (indexFolders (readFolders records.folders)) id name parentId = .ok entry) :
    (records.append (.folder entry)).Sound toLowerCase generateFolderId generated := by
  rw [updateFolderEntry] at checked
  split at checked
  · cases checked
  next existing found =>
  obtain ⟨listed, -⟩ := (byId_iff sound.tree.distinct).mp found
  generalize parentAfter existing parentId = parentId at checked
  simp only [bind, Except.bind] at checked
  split at checked
  · cases checked
  next name clean =>
  split at checked
  · cases checked
  next required =>
  split at checked
  · cases checked
  next outside =>
  split at checked
  · cases checked
  next alone =>
  rw [Except.ok.injEq] at checked
  subst checked
  obtain ⟨own, closed⟩ := sound.tree.subtreeIds_closed existing.id
  apply sound.putFolder (· ∈ subtreeIds (indexFolders (readFolders records.folders)) existing.id)
  · exact (mem_readFolders.mp listed).2
  · exact {
      named := sound.tree.named existing listed
      own := own
      closed := closed
      placed := by
        intro above parent
        dsimp only at parent
        refine ⟨?_, requireFolder_ok sound.tree.distinct required above parent⟩
        simpa [parent] using outside
      alone := by
        intro folder among other parent equal
        have below := sound.tree.mem_childrenOf.mpr ⟨among, parent⟩
        cases clash : siblingNamed toLowerCase (indexFolders (readFolders records.folders)) parentId name with
        | none => exact siblingNamed_none clash folder below equal
        | some first =>
            obtain ⟨beside, same⟩ := siblingNamed_some clash
            obtain ⟨member, own⟩ := sound.tree.mem_childrenOf.mp beside
            have one := sound.tree.siblings folder among first member (parent.trans own.symm) (equal.trans same.symm)
            rw [clash] at alone
            exact other (one ▸ by simpa using alone) }
  · intro later after
    exact (sound.fresh later after).1 existing (mem_of_latest (mem_readFolders.mp listed).1)

/-- What a call promises of what it appends and of how it ends. -/
structure Plan.Sound (toLowerCase : String → String) (generateFolderId : Nat → String) (generated : Nat)
    (records : Records) (plan : Plan) : Prop where
  grows : generated ≤ plan.generated
  keeps : records.Keeps toLowerCase generateFolderId plan.generated plan.writes

theorem Plan.Sound.refused (sound : records.Sound toLowerCase generateFolderId generated)
    (result : Except FolderError FolderResult) :
    Plan.Sound toLowerCase generateFolderId generated records { result := result, generated := generated } :=
  ⟨Nat.le_refl _, sound⟩

theorem createFolder_sound (sound : records.Sound toLowerCase generateFolderId generated)
    (injective : Function.Injective generateFolderId) (named : ∀ n, generateFolderId n ≠ "") (name : String)
    (parentId : Option String) :
    (createFolder toLowerCase generateFolderId (readFolders records.folders) generated name parentId).Sound
      toLowerCase generateFolderId generated records := by
  rw [createFolder]
  cases checked : createFolderEntry toLowerCase generateFolderId (indexFolders (readFolders records.folders)) generated
      name parentId with
  | error error => exact ⟨Nat.le_succ _, sound.mono (Nat.le_succ _)⟩
  | ok entry =>
      exact ⟨Nat.le_succ _, sound.mono (Nat.le_succ _), createFolderEntry_sound sound injective named checked⟩

theorem updateFolder_sound (sound : records.Sound toLowerCase generateFolderId generated) (id : String)
    (name parentId : Option String) :
    (updateFolder toLowerCase (readFolders records.folders) generated id name parentId).Sound
      toLowerCase generateFolderId generated records := by
  rw [updateFolder]
  cases checked : updateFolderEntry toLowerCase (indexFolders (readFolders records.folders)) id name parentId with
  | error error => exact .refused sound _
  | ok entry => exact ⟨Nat.le_refl _, sound, updateFolderEntry_sound sound checked⟩

/-- A folder that holds nothing may be deleted. -/
theorem deleteFolder_sound (sound : records.Sound toLowerCase generateFolderId generated) (id : String) :
    (deleteFolder (readFolders records.folders) (readRegistry records.files) generated id).Sound
      toLowerCase generateFolderId generated records := by
  rw [deleteFolder]
  dsimp only
  split
  · exact .refused sound _
  next existing found =>
  obtain ⟨listed, rfl⟩ := (byId_iff sound.tree.distinct).mp found
  split
  · exact .refused sound _
  next empty =>
  simp only [not_or, Nat.not_lt, Nat.le_zero_eq, List.length_eq_zero_iff] at empty
  refine ⟨Nat.le_refl _, sound, ?_, ?_, ?_⟩
  · apply sound.tree.removed existing.id
    · intro folder among parent
      have child := sound.tree.mem_childrenOf.mpr ⟨among, parent⟩
      rw [empty.2] at child
      cases child
    · intro folder
      rw [Records.append, mem_readFolders_append]
      simp
  · intro file live id within folder latest'
    change (latest FolderEntry.id (records.folders ++ [_])).get? id = some folder at latest'
    rw [latest_append, OrderedMap.get?_set] at latest'
    split at latest'
    · next same =>
      have held : file ∈ (readRegistry records.files).filter fun file => file.folderId = some existing.id :=
        List.mem_filter.mpr ⟨live, by simpa [within] using same⟩
      rw [empty.1] at held
      cases held
    · exact sound.held file live id within folder latest'
  · intro later after
    refine ⟨?_, (sound.fresh later after).2⟩
    intro folder among
    rcases List.mem_append.mp among with before | new
    · exact (sound.fresh later after).1 folder before
    · rw [List.mem_singleton.mp new]
      exact (sound.fresh later after).1 existing (mem_of_latest (mem_readFolders.mp listed).1)

/-- A file may be put into a live folder, or at the top level. -/
theorem Records.Sound.putFile (sound : records.Sound toLowerCase generateFolderId generated) {file : FileEntry}
    (placed : ∀ id : String, file.folderId = some id → ∃ folder ∈ readFolders records.folders, folder.id = id) :
    (records.append (.file file)).Sound toLowerCase generateFolderId generated where
  tree := sound.tree
  held := by
    intro other live id within folder found
    obtain ⟨latest', undeleted⟩ := mem_readRegistry.mp live
    change (latest FileEntry.id (records.files ++ [file])).get? other.id = some other at latest'
    rw [latest_append, OrderedMap.get?_set] at latest'
    split at latest'
    · obtain rfl := Option.some.inj latest'
      obtain ⟨parent, listed, rfl⟩ := placed id within
      obtain ⟨known, alive⟩ := mem_readFolders.mp listed
      exact Option.some.inj (known.symm.trans found) ▸ alive
    · exact sound.held other (mem_readRegistry.mpr ⟨latest', undeleted⟩) id within folder found
  fresh := by
    intro later after
    refine ⟨(sound.fresh later after).1, ?_⟩
    intro other listed same
    rcases List.mem_append.mp listed with before | new
    · exact (sound.fresh later after).2 other before same
    · rw [List.mem_singleton.mp new] at same
      obtain ⟨parent, among, equal⟩ := placed _ same
      exact (sound.fresh later after).1 parent (mem_of_latest (mem_readFolders.mp among).1) equal

theorem keeps_files {writes : List Record} {target : Option String}
    (sound : records.Sound toLowerCase generateFolderId generated)
    (live : ∀ id : String, target = some id → ∃ folder ∈ readFolders records.folders, folder.id = id)
    (all : ∀ record ∈ writes, ∃ file : FileEntry, record = .file file ∧ file.folderId = target) :
    records.Keeps toLowerCase generateFolderId generated writes := by
  induction writes generalizing records with
  | nil => exact sound
  | cons record rest ih =>
      obtain ⟨file, rfl, within⟩ := all record List.mem_cons_self
      refine ⟨sound, ih (sound.putFile ?_) live fun other later => all other (List.mem_cons_of_mem _ later)⟩
      rw [within]
      exact live

/-- Files move into a live folder only. -/
theorem moveFiles_sound (sound : records.Sound toLowerCase generateFolderId generated) (ids : List String)
    (folderId : String) :
    (moveFiles (readFolders records.folders) (readRegistry records.files) generated ids folderId).Sound
      toLowerCase generateFolderId generated records := by
  rw [moveFiles]
  dsimp only
  split
  · exact .refused sound _
  next required =>
  split
  · exact .refused sound _
  · refine ⟨Nat.le_refl _, ?_⟩
    apply keeps_files sound (requireFolder_ok sound.tree.distinct required)
    intro record listed
    obtain ⟨file, -, rfl⟩ := List.mem_map.mp listed
    exact ⟨_, rfl, rfl⟩

end NimbleBrain.Files
