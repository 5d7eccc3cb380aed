import NimbleBrain.Files.FolderCalls

/- A path resolves to the folder that it names. It fails late when a missing level comes before an invalid one. -/

namespace NimbleBrain.Files

open Library
open Conversation (trim)

variable {toLowerCase : String → String} {generateFolderId : Nat → String} {generated : Nat} {records : Records}

/-- The index that a call keeps lists the live folders under their parents. -/
def Agrees (index : FolderIndex) (folders : List FolderEntry) : Prop :=
  ∀ (parentId : Option String) (folder : FolderEntry),
    folder ∈ index.childrenOf parentId ↔ folder ∈ folders ∧ folder.parentId = parentId

variable {name : String} {entries : List FolderEntry} {index : FolderIndex} {parentId : Option String}
  {segments : List String}

theorem cleanName_ok {cleaned : String} (clean : cleanName name = .ok cleaned) : cleaned = trim name := by
  rw [cleanName] at clean
  split at clean
  · cases clean
  split at clean
  · cases clean
  · exact (Except.ok.inj clean).symm

theorem childrenOf_addChild (index : FolderIndex) (parentId other : Option String) (folder : FolderEntry) :
    ((index.setById folder).addChild parentId folder).childrenOf other =
      if other = parentId then index.childrenOf parentId ++ [folder] else index.childrenOf other := by
  rw [FolderIndex.childrenOf, FolderIndex.addChild]
  dsimp only
  rw [OrderedMap.get?_set]
  split <;> rfl

/-- The names of a path and of the folders on the way, without regard to case. -/
def sameNames (toLowerCase : String → String) (entries : List FolderEntry) (names : List String) : Prop :=
  entries.map (fun folder => toLowerCase folder.name) = names.map fun name => toLowerCase (trim name)

theorem sameNames_append {names : List String} {folder : FolderEntry} (same : sameNames toLowerCase entries names)
    (last : toLowerCase folder.name = toLowerCase (trim name)) :
    sameNames toLowerCase (entries ++ [folder]) (names ++ [name]) := by
  rw [sameNames, List.map_append, same, List.map_append, List.map_singleton, List.map_singleton, last]

/-- Every level is found or created, one below the other. -/
theorem ensureLevels_sound (injective : Function.Injective generateFolderId) (named : ∀ n, generateFolderId n ≠ "")
    (segments names : List String) (sound : records.Sound toLowerCase generateFolderId generated)
    (agrees : Agrees index (readFolders records.folders))
    (climbs : Climbs (readFolders records.folders) parentId entries) (same : sameNames toLowerCase entries names) :
    let plan := ensureLevels toLowerCase generateFolderId index generated parentId segments
    plan.Sound toLowerCase generateFolderId generated records ∧
      ∀ place : Option String, plan.result = .ok (.placed place) →
        ∃ entries, Climbs (readFolders (records.appendAll plan.writes).folders) place entries ∧
          sameNames toLowerCase entries (names ++ segments) := by
  induction segments generalizing index generated parentId records entries names with
  | nil =>
      refine ⟨.refused sound _, ?_⟩
      intro place placed
      rw [ensureLevels] at placed
      cases placed
      exact ⟨entries, climbs, by rwa [List.append_nil]⟩
  | cons segment rest ih =>
      dsimp only
      rw [ensureLevels]
      cases clean : cleanName segment with
      | error error => exact ⟨.refused sound _, fun _ placed => nomatch placed⟩
      | ok name =>
          obtain rfl := cleanName_ok clean
          dsimp only
          cases found : siblingNamed toLowerCase index parentId (trim segment) with
          | some folder =>
              obtain ⟨listed, equal⟩ := siblingNamed_some found
              obtain ⟨live, rfl⟩ := (agrees parentId folder).mp listed
              have below := ih (names ++ [segment]) sound agrees (.inside folder entries live climbs) (sameNames_append same equal)
              rw [List.append_assoc, List.singleton_append] at below
              exact below
          | none =>
              dsimp only
              let entry : FolderEntry := ⟨generateFolderId generated, trim segment, parentId, false⟩
              have added : (records.append (.folder entry)).Sound toLowerCase generateFolderId (generated + 1) := by
                apply sound.addFolder injective named
                · rintro above rfl
                  cases climbs with
                  | inside folder _ live _ => exact ⟨folder, live, rfl⟩
                · intro folder live parent
                  exact siblingNamed_none found folder ((agrees parentId folder).mpr ⟨live, parent⟩)
              have members (folder : FolderEntry) : folder ∈ readFolders (records.append (.folder entry)).folders ↔
                  folder ∈ readFolders records.folders ∨ folder = entry := by
                rw [Records.append, mem_readFolders_append]
                constructor
                · rintro (⟨new, -⟩ | ⟨old, -⟩)
                  · exact .inr new
                  · exact .inl old
                · rintro (old | new)
                  · exact .inr ⟨old, sound.unused folder old⟩
                  · exact .inl ⟨new, rfl⟩
              have agrees' : Agrees ((index.setById entry).addChild parentId entry)
                  (readFolders (records.append (.folder entry)).folders) := by
                intro other folder
                rw [childrenOf_addChild, members]
                split
                · next here =>
                  subst here
                  rw [List.mem_append, List.mem_singleton, agrees]
                  constructor
                  · rintro (⟨old, parent⟩ | rfl)
                    · exact ⟨.inl old, parent⟩
                    · exact ⟨.inr rfl, rfl⟩
                  · rintro ⟨old | new, parent⟩
                    · exact .inl ⟨old, parent⟩
                    · exact .inr new
                · next elsewhere =>
                  rw [agrees]
                  constructor
                  · exact fun both => ⟨.inl both.1, both.2⟩
                  · rintro ⟨old | rfl, parent⟩
                    · exact ⟨old, parent⟩
                    · exact absurd parent.symm elsewhere
              have down : Climbs (readFolders (records.append (.folder entry)).folders) (some entry.id)
                  (entries ++ [entry]) :=
                .inside entry entries ((members entry).mpr (.inr rfl))
                  (climbs.kept fun folder old => (members folder).mpr (.inl old))
              obtain ⟨plan, placed⟩ := ih (names ++ [segment]) added agrees' down (sameNames_append same rfl)
              refine ⟨⟨Nat.le_trans (Nat.le_succ generated) plan.grows, ?_, plan.keeps⟩, ?_⟩
              · exact sound.mono (Nat.le_trans (Nat.le_succ generated) plan.grows)
              · intro place done
                obtain ⟨entries, climbs, equal⟩ := placed place done
                rw [List.append_assoc, List.singleton_append] at equal
                exact ⟨entries, climbs, equal⟩

/-- The live folders on the way to a place have the names of the path, without regard to case. -/
def IsPathOf (toLowerCase : String → String) (folders : List FolderEntry) (place : Option String) (path : String) :
    Prop :=
  sameNames toLowerCase (ancestry (indexFolders folders) place) (pathSegments path)

theorem ensureFolderPath_sound (injective : Function.Injective generateFolderId)
    (named : ∀ n, generateFolderId n ≠ "") (sound : records.Sound toLowerCase generateFolderId generated)
    (path : String) :
    let plan := ensureFolderPath toLowerCase generateFolderId (readFolders records.folders) generated path
    plan.Sound toLowerCase generateFolderId generated records ∧
      ∀ place : Option String, plan.result = .ok (.placed place) →
        IsPathOf toLowerCase (readFolders (records.appendAll plan.writes).folders) place path := by
  rw [ensureFolderPath]
  have levels := ensureLevels_sound injective named (pathSegments path) [] sound
    (fun _ _ => sound.tree.mem_childrenOf) .top rfl
  rw [List.nil_append] at levels
  cases segments : pathSegments path with
  | nil =>
      refine ⟨.refused sound _, ?_⟩
      intro place placed
      cases placed
      change sameNames toLowerCase (ancestry (indexFolders (readFolders records.folders)) none) (pathSegments path)
      rw [segments, Climbs.ancestry_eq sound.tree .top]
      rfl
  | cons segment rest =>
      rw [segments] at levels
      refine ⟨levels.1, ?_⟩
      intro place placed
      obtain ⟨entries, climbs, same⟩ := levels.2 place placed
      rw [IsPathOf, climbs.ancestry_eq levels.1.keeps.last.tree, segments]
      exact same

section Late

variable (toLowerCase : String → String)

/-- The first invalid segment, if there is one, comes before every missing level. -/
def failsEarly (index : FolderIndex) : Option String → List String → Bool
  | _, [] => true
  | parentId, segment :: rest =>
      match cleanName segment with
      | .error _ => true
      | .ok name =>
          match siblingNamed toLowerCase index parentId name with
          | some found => failsEarly index (some found.id) rest
          | none => rest.all fun segment => (cleanName segment).isOk

end Late

theorem ensureLevels_ok (toLowerCase : String → String) (generateFolderId : Nat → String)
    (clean : segments.all fun segment => (cleanName segment).isOk) (index : FolderIndex) (generated : Nat)
    (parentId : Option String) :
    ∃ place, (ensureLevels toLowerCase generateFolderId index generated parentId segments).result =
      .ok (.placed place) := by
  induction segments generalizing index generated parentId with
  | nil => exact ⟨parentId, rfl⟩
  | cons segment rest ih =>
      rw [List.all_cons, Bool.and_eq_true] at clean
      rw [ensureLevels]
      cases own : cleanName segment with
      | error error =>
          rw [own] at clean
          cases clean.1
      | ok name =>
          dsimp only
          split
          · exact ih clean.2 ..
          · exact ih clean.2 ..

/-- A path that fails early has appended nothing. -/
theorem ensureLevels_refused (early : failsEarly toLowerCase index parentId segments) {generated : Nat}
    {error : FolderError}
    (refused : (ensureLevels toLowerCase generateFolderId index generated parentId segments).result = .error error) :
    (ensureLevels toLowerCase generateFolderId index generated parentId segments).writes = [] := by
  induction segments generalizing parentId with
  | nil => rfl
  | cons segment rest ih =>
      rw [failsEarly] at early
      rw [ensureLevels] at refused ⊢
      cases clean : cleanName segment with
      | error error => rfl
      | ok name =>
          rw [clean] at early refused
          dsimp only at early refused ⊢
          cases found : siblingNamed toLowerCase index parentId name with
          | some folder =>
              rw [found] at early refused
              exact ih early refused
          | none =>
              rw [found] at early refused
              obtain ⟨place, placed⟩ := ensureLevels_ok toLowerCase generateFolderId early
                ((index.setById ⟨generateFolderId generated, name, parentId, false⟩).addChild parentId
                  ⟨generateFolderId generated, name, parentId, false⟩) (generated + 1)
                (some (generateFolderId generated))
              cases placed.symm.trans refused

end NimbleBrain.Files
