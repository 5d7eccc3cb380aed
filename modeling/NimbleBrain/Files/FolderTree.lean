import NimbleBrain.Files.Folders

/- The live folders form a forest, and siblings differ in name. One record more keeps it so. -/

namespace NimbleBrain.Files

open Library

section Logs

variable {Entry : Type} {idOf : Entry → String}

theorem latest_append (log : List Entry) (entry : Entry) :
    latest idOf (log ++ [entry]) = (latest idOf log).set (idOf entry) entry := by
  rw [latest, List.foldl_append]
  rfl

variable {entry : Entry} {id : String} {log : List Entry}

/-- An entry is found under its own identifier. -/
theorem latest_id (found : (latest idOf log).get? id = some entry) : idOf entry = id := by
  induction log using List.reverseRecOn with
  | nil => cases found
  | append_singleton log last ih =>
      rw [latest_append, OrderedMap.get?_set] at found
      split at found
      · next same => exact Option.some.inj found ▸ same.symm
      · exact ih found

theorem mem_latest :
    entry ∈ (latest idOf log).values ↔ (latest idOf log).get? (idOf entry) = some entry := by
  rw [OrderedMap.mem_values]
  constructor
  · rintro ⟨key, listed⟩
    have found := OrderedMap.get?_eq_some_iff.mpr listed
    exact latest_id found ▸ found
  · exact fun found => ⟨idOf entry, OrderedMap.get?_eq_some_iff.mp found⟩

theorem latest_none :
    (latest idOf log).get? id = none ↔ ∀ entry ∈ log, idOf entry ≠ id := by
  induction log using List.reverseRecOn with
  | nil => exact ⟨fun _ _ listed => (List.not_mem_nil listed).elim, fun _ => rfl⟩
  | append_singleton log last ih =>
      rw [latest_append, OrderedMap.get?_set]
      constructor
      · intro absent entry listed
        split at absent
        · cases absent
        · next other =>
          rcases List.mem_append.mp listed with before | new
          · exact ih.mp absent entry before
          · rw [List.mem_singleton.mp new]
            exact Ne.symm other
      · intro absent
        have other : id ≠ idOf last := (absent last (by simp)).symm
        rw [if_neg other]
        exact ih.mpr fun entry listed => absent entry (List.mem_append_left _ listed)

theorem mem_of_latest (found : (latest idOf log).get? id = some entry) : entry ∈ log := by
  induction log using List.reverseRecOn with
  | nil => cases found
  | append_singleton log last ih =>
      rw [latest_append, OrderedMap.get?_set] at found
      split at found
      · rw [Option.some.inj found]
        simp
      · exact List.mem_append_left _ (ih found)

/-- Entries with distinct identifiers are all the latest. -/
theorem latest_of_distinct (distinct : ∀ one ∈ log, ∀ other ∈ log, idOf one = idOf other → one = other) :
    (latest idOf log).get? id = some entry ↔ entry ∈ log ∧ idOf entry = id := by
  constructor
  · exact fun found => ⟨mem_of_latest found, latest_id found⟩
  · rintro ⟨among, rfl⟩
    cases found : (latest idOf log).get? (idOf entry) with
    | none => exact absurd rfl (latest_none.mp found entry among)
    | some other => rw [distinct other (mem_of_latest found) entry among (latest_id found)]

end Logs

variable {folder entry : FolderEntry} {log folders next : List FolderEntry} {parentId : Option String}

theorem mem_readFolders :
    folder ∈ readFolders log ↔ (latest FolderEntry.id log).get? folder.id = some folder ∧ folder.deleted = false := by
  rw [readFolders, List.mem_filter, mem_latest]
  simp

theorem mem_readRegistry {log : List FileEntry} {file : FileEntry} :
    file ∈ readRegistry log ↔ (latest FileEntry.id log).get? file.id = some file ∧ file.deleted = false := by
  rw [readRegistry, List.mem_filter, mem_latest]
  simp

/-- The parent of a live folder. -/
def parentIn (folders : List FolderEntry) (id : String) : Option (Option String) :=
  (folders.find? (·.id = id)).map FolderEntry.parentId

/-- What holds of the live folders. -/
structure Tree (toLowerCase : String → String) (folders : List FolderEntry) : Prop where
  distinct : ∀ one ∈ folders, ∀ other ∈ folders, one.id = other.id → one = other
  named : ∀ folder ∈ folders, folder.id ≠ ""
  rooted : ∀ folder ∈ folders, ∃ chain, Rooted (parentIn folders) folder.id chain
  siblings : ∀ one ∈ folders, ∀ other ∈ folders, one.parentId = other.parentId →
    toLowerCase one.name = toLowerCase other.name → one = other

section Index

variable {folders : List FolderEntry} (distinct : ∀ one ∈ folders, ∀ other ∈ folders, one.id = other.id → one = other)
include distinct

variable {folder : FolderEntry} {id : String}

theorem parentIn_of_mem (listed : folder ∈ folders) :
    parentIn folders folder.id = some folder.parentId := by
  rw [parentIn]
  cases found : folders.find? (·.id = folder.id) with
  | none =>
      have absent := List.find?_eq_none.mp found folder listed
      simp at absent
  | some other =>
      have same : other.id = folder.id := by simpa using List.find?_some found
      rw [distinct other (List.mem_of_find?_eq_some found) folder listed same, Option.map_some]

theorem parentIn_eq_some_iff {parent : Option String} :
    parentIn folders id = some parent ↔ ∃ folder ∈ folders, folder.id = id ∧ folder.parentId = parent := by
  constructor
  · intro known
    obtain ⟨folder, found, same⟩ := Option.map_eq_some_iff.mp known
    exact ⟨folder, List.mem_of_find?_eq_some found, by simpa using List.find?_some found, same⟩
  · rintro ⟨folder, listed, rfl, rfl⟩
    exact parentIn_of_mem distinct listed

theorem parentIn_congr {next : List FolderEntry}
    (distinct' : ∀ one ∈ next, ∀ other ∈ next, one.id = other.id → one = other)
    (same : ∀ folder : FolderEntry, folder.id = id → (folder ∈ next ↔ folder ∈ folders)) :
    parentIn next id = parentIn folders id := by
  apply Option.ext
  intro parent
  rw [parentIn_eq_some_iff distinct', parentIn_eq_some_iff distinct]
  constructor
  · rintro ⟨folder, listed, own, below⟩
    exact ⟨folder, (same folder own).mp listed, own, below⟩
  · rintro ⟨folder, listed, own, below⟩
    exact ⟨folder, (same folder own).mpr listed, own, below⟩

/-- A folder of an index is a live folder. -/
theorem byId_iff :
    (indexFolders folders).byId.get? id = some folder ↔ folder ∈ folders ∧ folder.id = id := by
  have same (rest : List FolderEntry) (index : FolderIndex) :
      (rest.foldl (fun index folder => index.addChild (shownParent (latest FolderEntry.id folders) folder) folder)
        index).byId = index.byId := by
    induction rest generalizing index with
    | nil => rfl
    | cons folder rest ih => exact ih _
  rw [indexFolders, same]
  exact latest_of_distinct distinct

end Index

/-- The index lists below a place the folders that show it as their parent, in their order. -/
theorem childrenOf_eq_filter (folders : List FolderEntry) (parentId : Option String) :
    (indexFolders folders).childrenOf parentId =
      folders.filter fun folder => shownParent (latest FolderEntry.id folders) folder = parentId := by
  have fold (byId : OrderedMap String FolderEntry) (rest : List FolderEntry) (index : FolderIndex) :
      (rest.foldl (fun index folder => index.addChild (shownParent byId folder) folder) index).childrenOf parentId =
        index.childrenOf parentId ++ rest.filter fun folder => shownParent byId folder = parentId := by
    induction rest generalizing index with
    | nil => simp
    | cons other rest ih =>
        rw [List.foldl_cons, ih, FolderIndex.childrenOf, FolderIndex.addChild]
        dsimp only
        rw [OrderedMap.get?_set, List.filter_cons]
        by_cases same : parentId = shownParent byId other
        · subst same
          rw [if_pos rfl, if_pos (decide_eq_true rfl), Option.getD_some, List.append_assoc, List.singleton_append]
        · rw [if_neg same, if_neg (by simpa using Ne.symm same), FolderIndex.childrenOf]
  rw [indexFolders, fold]
  simp [FolderIndex.childrenOf]

/-- The folders that the index lists below a place are those that show it as their parent. -/
theorem mem_childrenOf_shown :
    folder ∈ (indexFolders folders).childrenOf parentId ↔
      folder ∈ folders ∧ shownParent (latest FolderEntry.id folders) folder = parentId := by
  simp [childrenOf_eq_filter]

/-- A folder is shown right under another. -/
def Under (folders : List FolderEntry) (above below : String) : Prop :=
  below ∈ ((indexFolders folders).childrenOf (some above)).map FolderEntry.id

/-- The folders below a folder, as the code finds them, are those that hang from it. -/
theorem mem_subtreeIds (distinct : ∀ one ∈ folders, ∀ other ∈ folders, one.id = other.id → one = other)
    {id other : String} :
    other ∈ subtreeIds (indexFolders folders) id ↔ Relation.ReflTransGen (Under folders) id other := by
  have among : ∀ next, ∀ child ∈ ((indexFolders folders).childrenOf (some next)).map FolderEntry.id,
      child ∈ (indexFolders folders).byId.entries.map Prod.fst := by
    intro next child listed
    obtain ⟨folder, below, rfl⟩ := List.mem_map.mp listed
    have found := (byId_iff distinct).mpr ⟨(mem_childrenOf_shown.mp below).1, rfl⟩
    exact List.mem_map.mpr ⟨_, OrderedMap.get?_eq_some_iff.mp found, rfl⟩
  have enough : [id].length + (((indexFolders folders).byId.entries.map Prod.fst).filter (· ∉ [id])).length ≤
      (indexFolders folders).byId.size + 1 := by
    have less := List.length_filter_le (· ∉ [id]) ((indexFolders folders).byId.entries.map Prod.fst)
    rw [List.length_map] at less
    rw [OrderedMap.size, List.length_singleton]
    omega
  obtain ⟨keeps, closed⟩ := searchBelow_closed among enough (by simp)
  constructor
  · apply searchBelow_reached <;> exact List.forall_mem_singleton.mpr .refl
  · intro reached
    induction reached with
    | refl => exact keeps id (List.mem_singleton_self id)
    | tail _ under ih => exact closed _ ih _ under

variable {toLowerCase : String → String} {folders : List FolderEntry}

/-- Every parent of a live folder is live. -/
theorem Tree.parent_live (tree : Tree toLowerCase folders) (listed : folder ∈ folders) {parentId : String}
    (below : folder.parentId = some parentId) : ∃ parent ∈ folders, parent.id = parentId := by
  obtain ⟨chain, rooted⟩ := tree.rooted folder listed
  have own := parentIn_of_mem tree.distinct listed
  cases rooted with
  | top _ known => rw [own, below] at known; cases known
  | inside _ above _ known rest =>
      rw [own, below, Option.some.injEq, Option.some.injEq] at known
      subst known
      obtain ⟨parent, among⟩ := Option.isSome_iff_exists.mp rest.known
      obtain ⟨other, member, same, -⟩ := (parentIn_eq_some_iff tree.distinct).mp among
      exact ⟨other, member, same⟩

theorem Tree.mem_childrenOf (tree : Tree toLowerCase folders) :
    folder ∈ (indexFolders folders).childrenOf parentId ↔ folder ∈ folders ∧ folder.parentId = parentId := by
  rw [mem_childrenOf_shown]
  apply and_congr_right
  intro listed
  have shown : shownParent (latest FolderEntry.id folders) folder = folder.parentId := by
    rw [shownParent]
    cases below : folder.parentId with
    | none => rfl
    | some above =>
        obtain ⟨parent, among, same⟩ := tree.parent_live listed below
        have found := (latest_of_distinct tree.distinct).mpr ⟨among, same⟩
        have named : above ≠ "" := same ▸ tree.named parent among
        rw [Option.filter_some_pos]
        simp [found, named]
  rw [shown]

/-- A record takes the place of the live folder of its identifier, or is added. -/
theorem mem_readFolders_append :
    folder ∈ readFolders (log ++ [entry]) ↔
      folder = entry ∧ entry.deleted = false ∨ folder ∈ readFolders log ∧ folder.id ≠ entry.id := by
  rw [mem_readFolders, mem_readFolders, latest_append, OrderedMap.get?_set]
  by_cases same : folder.id = entry.id
  · rw [if_pos same, Option.some.injEq]
    constructor
    · rintro ⟨rfl, live⟩
      exact .inl ⟨rfl, live⟩
    · rintro (⟨rfl, live⟩ | ⟨-, other⟩)
      · exact ⟨rfl, live⟩
      · exact absurd same other
  · rw [if_neg same]
    constructor
    · exact fun found => .inr ⟨found, same⟩
    · rintro (⟨rfl, -⟩ | ⟨found, -⟩)
      · exact absurd rfl same
      · exact found

/-- A folder is put outside of what is below it, where no sibling has its name. -/
structure Fits (toLowerCase : String → String) (folders : List FolderEntry) (below : String → Prop)
    (entry : FolderEntry) : Prop where
  named : entry.id ≠ ""
  own : below entry.id
  closed : ∀ child ∈ folders, ∀ above : String, child.parentId = some above → below above → below child.id
  placed : ∀ above : String, entry.parentId = some above → ¬ below above ∧ ∃ parent ∈ folders, parent.id = above
  alone : ∀ folder ∈ folders, folder.id ≠ entry.id → folder.parentId = entry.parentId →
    toLowerCase folder.name ≠ toLowerCase entry.name

theorem Tree.put (tree : Tree toLowerCase folders) {below : String → Prop}
    (fits : Fits toLowerCase folders below entry)
    (members : ∀ folder : FolderEntry, folder ∈ next ↔ folder = entry ∨ folder ∈ folders ∧ folder.id ≠ entry.id) :
    Tree toLowerCase next := by
  have distinct : ∀ one ∈ next, ∀ other ∈ next, one.id = other.id → one = other := by
    intro one listed other listed' same
    rcases (members one).mp listed with rfl | ⟨before, apart⟩ <;>
      rcases (members other).mp listed' with rfl | ⟨before', apart'⟩
    · rfl
    · exact absurd same.symm apart'
    · exact absurd same apart
    · exact tree.distinct one before other before' same
  have others : ∀ id : String, id ≠ entry.id → parentIn next id = parentIn folders id := by
    intro id different
    apply parentIn_congr tree.distinct distinct
    rintro folder rfl
    rw [members]
    constructor
    · rintro (rfl | ⟨before, -⟩)
      · exact absurd rfl different
      · exact before
    · exact fun before => .inr ⟨before, different⟩
  have moves : parentIn next entry.id = some entry.parentId :=
    parentIn_of_mem distinct ((members entry).mpr (.inl rfl))
  have closed : ∀ child above : String, parentIn folders child = some (some above) → below above → below child := by
    intro child above known inside
    obtain ⟨folder, listed, rfl, parent⟩ := (parentIn_eq_some_iff tree.distinct).mp known
    exact fits.closed folder listed above parent inside
  have hangs : ∀ above : String, entry.parentId = some above →
      ¬ below above ∧ ∃ chain, Rooted (parentIn folders) above chain := by
    intro above parent
    obtain ⟨free, folder, listed, rfl⟩ := fits.placed above parent
    exact ⟨free, tree.rooted folder listed⟩
  constructor
  · exact distinct
  · intro folder listed
    rcases (members folder).mp listed with rfl | ⟨before, -⟩
    · exact fits.named
    · exact tree.named folder before
  · intro folder listed
    rcases (members folder).mp listed with rfl | ⟨before, -⟩
    · cases parent : folder.parentId with
      | none => exact ⟨_, .top folder.id (parent ▸ moves)⟩
      | some above =>
          obtain ⟨-, chain, rooted⟩ := hangs above parent
          obtain ⟨chain, rooted⟩ := rooted.moved others moves closed fits.own hangs
          exact ⟨_, .inside folder.id above chain (parent ▸ moves) rooted⟩
    · obtain ⟨chain, rooted⟩ := tree.rooted folder before
      exact rooted.moved others moves closed fits.own hangs
  · intro one listed other listed' same equal
    rcases (members one).mp listed with rfl | ⟨before, apart⟩ <;>
      rcases (members other).mp listed' with rfl | ⟨before', apart'⟩
    · rfl
    · exact absurd equal.symm (fits.alone other before' apart' same.symm)
    · exact absurd equal (fits.alone one before apart same)
    · exact tree.siblings one before other before' same equal

/-- A folder without children can be taken out. -/
theorem Tree.removed (tree : Tree toLowerCase folders) (id : String)
    (empty : ∀ folder ∈ folders, folder.parentId ≠ some id)
    (members : ∀ folder : FolderEntry, folder ∈ next ↔ folder ∈ folders ∧ folder.id ≠ id) :
    Tree toLowerCase next := by
  have distinct : ∀ one ∈ next, ∀ other ∈ next, one.id = other.id → one = other := fun one listed other listed' =>
    tree.distinct one ((members one).mp listed).1 other ((members other).mp listed').1
  refine ⟨distinct, fun folder listed => tree.named folder ((members folder).mp listed).1, ?_, ?_⟩
  · intro folder listed
    obtain ⟨before, apart⟩ := (members folder).mp listed
    obtain ⟨chain, rooted⟩ := tree.rooted folder before
    have outside := rooted.outside (· = id) (by
      rintro child above known rfl
      obtain ⟨other, among, -, parent⟩ := (parentIn_eq_some_iff tree.distinct).mp known
      exact absurd parent (empty other among)) apart
    refine ⟨chain, rooted.kept fun other among => ?_⟩
    apply parentIn_congr tree.distinct distinct
    rintro one rfl
    rw [members]
    exact and_iff_left (outside one.id among)
  · intro one listed other listed'
    exact tree.siblings one ((members one).mp listed).1 other ((members other).mp listed').1

theorem Tree.nil : Tree toLowerCase [] where
  distinct _ listed := nomatch listed
  named _ listed := nomatch listed
  rooted _ listed := nomatch listed
  siblings _ listed := nomatch listed

end NimbleBrain.Files
