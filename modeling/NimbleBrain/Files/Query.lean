import Mathlib.Algebra.Ring.Nat
import Mathlib.Data.List.Infix
import Mathlib.Data.Prod.Lex
import Mathlib.Data.String.Basic
import NimbleBrain.Files.FolderTree

/- A listing filters, sorts, pages and counts one owner's files. -/

namespace NimbleBrain.Files.Query

open Library
open Conversation (trim)

inductive FileKind where
  | image | document | data | font | other
  deriving DecidableEq

def fileKinds : List FileKind := [.image, .document, .data, .font, .other]

inductive FileSource where
  | chat | agent | app | manual
  deriving DecidableEq

def fileSources : List FileSource := [.chat, .agent, .app, .manual]

/-- What a listing reads of a file beside its folder. -/
structure FileEntry extends Files.FileEntry where
  filename : String
  mimeType : String
  size : Nat
  tags : List String
  source : FileSource
  conversationId : Option String
  runId : Option String
  createdAt : String
  description : Option String
  deriving DecidableEq

inductive SortField where
  | createdAt | filename | size
  deriving DecidableEq

inductive SortOrder where
  | asc | desc
  deriving DecidableEq

structure FilesListInput where
  folderId : Option String := none
  recursive : Bool := false
  query : Option String := none
  kinds : Option (List FileKind) := none
  sources : Option (List FileSource) := none
  conversationId : Option String := none
  runId : Option String := none
  createdAfter : Option String := none
  createdBefore : Option String := none
  tags : Option (List String) := none
  mimeType : Option String := none
  sort : Option SortField := none
  order : Option SortOrder := none
  limit : Option Nat := none
  offset : Option Nat := none

inductive Facet where
  | kinds | sources
  deriving DecidableEq

structure Predicate where
  facet : Option Facet := none
  test : FileEntry → Bool

structure FacetCounts where
  kinds : FileKind → Nat
  sources : FileSource → Nat

structure FilesListOutput where
  files : List (FileEntry × String)
  total : Nat
  folders : List (FolderEntry × String)
  breadcrumb : List (String × String)
  facets : FacetCounts

def includes (text part : String) : Bool := part.toList <:+: text.toList

def startsWith (text start : String) : Bool := start.toList.isPrefixOf text.toList

def endsWith (text ending : String) : Bool := ending.toList.isSuffixOf text.toList

/-- The host compares texts by their collation keys. A date that it cannot read is no number. -/
structure Host (Collation : Type) where
  toLowerCase : String → String
  collate : String → Collation
  parseDate : String → Option Int

section Code

variable {Collation : Type} (host : Host Collation)

def documentTypes : List String :=
  ["application/pdf", "application/msword", "application/rtf", "text/plain", "text/markdown", "text/html"]

def dataTypes : List String := ["text/csv", "application/json", "application/yaml", "application/xml", "text/xml"]

def beforeSemicolon (text : String) : String := .ofList (text.toList.takeWhile (· ≠ ';'))

def fileKind (mimeType : String) : FileKind :=
  let mime := host.toLowerCase (trim (beforeSemicolon mimeType))
  if startsWith mime "image/" then .image
  else if startsWith mime "font/" then .font
  else if mime ∈ dataTypes || includes mime "spreadsheet" || endsWith mime "+json" then .data
  else if mime ∈ documentTypes || includes mime "wordprocessing" || includes mime "presentation" ||
      includes mime "opendocument.text" then .document
  else .other

/-- A folder that no longer exists reads as the top level. -/
def effectiveFolder (index : FolderIndex) (file : FileEntry) : Option String :=
  file.folderId.filter fun folderId => folderId ≠ "" && (index.byId.get? folderId).isSome

def matchesQuery (file : FileEntry) (query : String) : Bool :=
  includes (host.toLowerCase (String.intercalate " " (file.filename :: file.description.getD "" :: file.tags))) query

/-- A text that is empty is a filter that is not set. -/
def given (text : Option String) : Option String := text.filter (· ≠ "")

/-- One folder, a folder and everything below it, or everywhere. -/
def placePredicate (input : FilesListInput) (index : FolderIndex) : Except FolderError (Option Predicate) :=
  match input.folderId with
  | none => .ok none
  | some folderId =>
      match normalizeFolderId (some folderId) with
      | none =>
          if input.recursive then .ok none else .ok (some { test := fun file => effectiveFolder index file = none })
      | some folder =>
          if (index.byId.get? folder).isNone then .error (.folderNotFound folderId)
          else if input.recursive then
            let ids := subtreeIds index folder
            .ok (some { test := fun file => (effectiveFolder index file).getD "" ∈ ids })
          else .ok (some { test := fun file => effectiveFolder index file = some folder })

def nonEmpty {Value : Type} (values : Option (List Value)) : Option (List Value) := values.filter (· matches _ :: _)

def wantedText (input : FilesListInput) : Option String :=
  given (input.query.map fun query => host.toLowerCase (trim query))

def queryPredicate (input : FilesListInput) : Option Predicate :=
  (wantedText host input).map fun query => { test := fun file => matchesQuery host file query }

def kindsPredicate (input : FilesListInput) : Option Predicate :=
  (nonEmpty input.kinds).map fun kinds =>
    { facet := some .kinds, test := fun file => fileKind host file.mimeType ∈ kinds }

def sourcesPredicate (input : FilesListInput) : Option Predicate :=
  (nonEmpty input.sources).map fun sources => { facet := some .sources, test := fun file => file.source ∈ sources }

def conversationPredicate (input : FilesListInput) : Option Predicate :=
  (given input.conversationId).map fun id => { test := fun file => file.conversationId = some id }

def runPredicate (input : FilesListInput) : Option Predicate :=
  (given input.runId).map fun id => { test := fun file => file.runId = some id }

/-- No date compares with what is no number. -/
def bothDates (compares : Int → Int → Bool) : Option Int → Option Int → Bool
  | some first, some second => compares first second
  | _, _ => false

def createdAfterPredicate (input : FilesListInput) : Option Predicate :=
  (given input.createdAfter).map fun createdAfter =>
    { test := fun file => bothDates (· ≥ ·) (host.parseDate file.createdAt) (host.parseDate createdAfter) }

def createdBeforePredicate (input : FilesListInput) : Option Predicate :=
  (given input.createdBefore).map fun createdBefore =>
    { test := fun file => bothDates (· < ·) (host.parseDate file.createdAt) (host.parseDate createdBefore) }

def tagsPredicate (input : FilesListInput) : Option Predicate :=
  (nonEmpty input.tags).map fun tags => { test := fun file => tags.all (· ∈ file.tags) }

def mimeTypePredicate (input : FilesListInput) : Option Predicate :=
  (given input.mimeType).map fun start => { test := fun file => startsWith file.mimeType start }

/-- The filters that describe files, as opposed to where to look or the text. -/
def filePredicates : List (FilesListInput → Option Predicate) :=
  [kindsPredicate host, sourcesPredicate, conversationPredicate, runPredicate, createdAfterPredicate host,
    createdBeforePredicate host, tagsPredicate, mimeTypePredicate]

def predicates (input : FilesListInput) (index : FolderIndex) : Except FolderError (List Predicate) := do
  let place ← placePredicate input index
  return (place :: queryPredicate host input :: (filePredicates host).map fun build => build input).filterMap id

/-- Ties break on the identifier. -/
def compareFiles [LinearOrder Collation] (sort : SortField) (order : SortOrder) (one other : FileEntry) : Ordering :=
  let cmp :=
    match sort with
    | .filename => compare (host.collate one.filename) (host.collate other.filename)
    | .size => compare one.size other.size
    | .createdAt => compare (host.collate one.createdAt) (host.collate other.createdAt)
  let signed := if order = .asc then cmp else cmp.swap
  signed.then (compare (host.collate one.id) (host.collate other.id))

def hasFileOnlyFilter (input : FilesListInput) : Bool := (filePredicates host).any fun build => (build input).isSome

/-- The number of files of each key. -/
def tally {Key : Type} [DecidableEq Key] (keyOf : FileEntry → Key) (files : List FileEntry) : Key → Nat :=
  files.foldl (fun counts file => Function.update counts (keyOf file) (counts (keyOf file) + 1)) fun _ => 0

/-- The files that pass every filter but those of a facet. -/
def without (all : List FileEntry) (preds : List Predicate) (facet : Facet) : List FileEntry :=
  all.filter fun file => preds.all fun predicate => predicate.facet = some facet || predicate.test file

def countFacets (all : List FileEntry) (preds : List Predicate) : FacetCounts where
  kinds := tally (fun file => fileKind host file.mimeType) (without all preds .kinds)
  sources := tally FileEntry.source (without all preds .sources)

/-- Whether a folder is where a listing looks. -/
def inScope (input : FilesListInput) (index : FolderIndex) (folderId : Option (Option String)) (folder : FolderEntry) :
    Bool :=
  let parent := shownParent index.byId folder
  match folderId with
  | none => true
  | some none => input.recursive || parent = none
  | some (some folderId) =>
      if input.recursive then folder.id ≠ folderId && parent.getD "" ∈ subtreeIds index folderId
      else parent = some folderId

/-- Without a query these are the children of the folder, and with one the folders whose names match. -/
def listFolders (input : FilesListInput) (index : FolderIndex) (folderId : Option (Option String)) : List FolderEntry :=
  if hasFileOnlyFilter host input then []
  else
    match wantedText host input with
    | none => (folderId.map index.childrenOf).getD []
    | some query =>
        index.byId.values.filter fun folder =>
          includes (host.toLowerCase folder.name) query && inScope input index folderId folder

/-- The files that pass every filter. -/
def matching (all : List FileEntry) (preds : List Predicate) : List FileEntry :=
  all.filter fun file => preds.all fun predicate => predicate.test file

def sortOf (input : FilesListInput) : SortField := input.sort.getD .createdAt

def orderOf (input : FilesListInput) : SortOrder :=
  input.order.getD (if sortOf input = .filename then .asc else .desc)

variable [LinearOrder Collation]

def sorted (input : FilesListInput) (files : List FileEntry) : List FileEntry :=
  files.mergeSort fun one other => (compareFiles host (sortOf input) (orderOf input) one other).isLE

def byName (folders : List (FolderEntry × String)) : List (FolderEntry × String) :=
  folders.mergeSort fun one other => (compare (host.collate one.1.name) (host.collate other.1.name)).isLE

def listFiles (all : List FileEntry) (folders : List FolderEntry) (input : FilesListInput) :
    Except FolderError FilesListOutput := do
  let index := indexFolders folders
  let preds ← predicates host input index
  let found := matching all preds
  let page := ((sorted host input found).drop (input.offset.getD 0)).take (input.limit.getD 20)
  let folderId := input.folderId.map fun folderId => normalizeFolderId (some folderId)
  return {
    files := page.map fun file => (file, folderPath index (effectiveFolder index file))
    total := found.length
    folders := byName host ((listFolders host input index folderId).map fun folder =>
      (folder, folderPath index (some folder.id)))
    breadcrumb := (ancestry index (folderId.getD none)).map fun folder => (folder.id, folder.name)
    facets := countFacets host all preds }

end Code

end NimbleBrain.Files.Query

/- The pages of a listing make up its matches. The counts beside them and the folders agree with them. -/

namespace NimbleBrain.Files.Query

open Library

section Counting

variable {Key : Type} [DecidableEq Key] {keyOf : FileEntry → Key}

theorem tally_eq_countP (files : List FileEntry) (key : Key) :
    tally keyOf files key = files.countP fun file => keyOf file = key := by
  have fold (counts : Key → Nat) :
      files.foldl (fun counts file => Function.update counts (keyOf file) (counts (keyOf file) + 1)) counts key =
        counts key + files.countP fun file => keyOf file = key := by
    induction files generalizing counts with
    | nil => rfl
    | cons file rest ih =>
        rw [List.foldl_cons, ih, List.countP_cons]
        by_cases same : keyOf file = key
        · subst same
          simp only [Function.update_self, decide_true, if_true]
          omega
        · rw [Function.update_of_ne (Ne.symm same), if_neg (by simpa using same), Nat.add_zero]
  rw [tally, fold, Nat.zero_add]

variable {keys : List Key} {Value : Type}

theorem countP_mem_cons {key : Key} (fresh : key ∉ keys) (files : List FileEntry) :
    (files.countP fun file => keyOf file ∈ key :: keys) =
      (files.countP fun file => keyOf file = key) + files.countP fun file => keyOf file ∈ keys := by
  induction files with
  | nil => rfl
  | cons file rest ih =>
      rw [List.countP_cons, List.countP_cons, List.countP_cons, ih]
      by_cases own : keyOf file = key
      · subst own
        simp only [List.mem_cons_self, decide_true, if_true, fresh, decide_false, Bool.false_eq_true, if_false]
        omega
      · simp only [List.mem_cons, own, decide_false, false_or, Bool.false_eq_true, if_false]
        omega

/-- The counts of some keys add up to the files that have one of them. -/
theorem sum_tally (distinct : keys.Nodup) (files : List FileEntry) :
    (keys.map (tally keyOf files)).sum = files.countP fun file => keyOf file ∈ keys := by
  induction keys with
  | nil => simp
  | cons key keys ih =>
      obtain ⟨fresh, distinct⟩ := List.nodup_cons.mp distinct
      rw [List.map_cons, List.sum_cons, ih distinct, tally_eq_countP, countP_mem_cons fresh]

/-- The values that a filter selects, which are all when none is given. -/
def selected {Value : Type} [DecidableEq Value] (all : List Value) (wanted : Option (List Value)) : List Value :=
  ((nonEmpty wanted).map fun wanted => all.filter (· ∈ wanted)).getD all

variable {all : List Value}

theorem mem_selected [DecidableEq Value] (whole : ∀ value, value ∈ all) {wanted : Option (List Value)}
    {value : Value} :
    value ∈ selected all wanted ↔ ∀ values ∈ nonEmpty wanted, value ∈ values := by
  rw [selected]
  cases nonEmpty wanted with
  | none => simp [whole]
  | some values => simp [whole]

theorem selected_nodup [DecidableEq Value] (distinct : all.Nodup) (wanted : Option (List Value)) :
    (selected all wanted).Nodup := by
  rw [selected]
  cases nonEmpty wanted with
  | none => exact distinct
  | some values => exact distinct.filter _

theorem mem_fileKinds (kind : FileKind) : kind ∈ fileKinds := by
  cases kind <;> decide

theorem mem_fileSources (source : FileSource) : source ∈ fileSources := by
  cases source <;> decide

end Counting

section Facets

variable {Collation : Type} (host : Host Collation) {input : FilesListInput} {index : FolderIndex}
  {preds : List Predicate}

/-- The filters that do not look at the place of a file. -/
def otherPredicates (input : FilesListInput) : List Predicate :=
  (queryPredicate host input :: (filePredicates host).map fun build => build input).filterMap id

theorem predicates_eq_ok :
    predicates host input index = .ok preds ↔
      ∃ place, placePredicate input index = .ok place ∧ preds = place.toList ++ otherPredicates host input := by
  have split (place : Option Predicate) :
      (place :: queryPredicate host input :: (filePredicates host).map fun build => build input).filterMap id =
        place.toList ++ otherPredicates host input := by
    rw [otherPredicates]
    cases place <;> rfl
  rw [predicates]
  cases placePredicate input index with
  | error error => simp [bind, Except.bind]
  | ok place =>
      simp only [bind, Except.bind, pure, Except.pure, split, Except.ok.injEq, exists_eq_left']
      exact eq_comm

theorem placePredicate_facet {place : Predicate} (looks : placePredicate input index = .ok (some place)) :
    place.facet = none := by
  rw [placePredicate] at looks
  split at looks
  · cases looks
  · dsimp only at looks
    split at looks
    · split_ifs at looks
      · cases looks
      · obtain rfl := Option.some.inj (Except.ok.inj looks)
        rfl
    · split_ifs at looks
      · obtain rfl := Option.some.inj (Except.ok.inj looks)
        rfl
      · obtain rfl := Option.some.inj (Except.ok.inj looks)
        rfl

variable {predicate : Predicate}

theorem facet_of_map {Value : Type} {given : Option Value} {facet : Option Facet} {test : Value → FileEntry → Bool}
    (built : (given.map fun value => Predicate.mk facet (test value)) = some predicate) :
    predicate.facet = facet := by
  obtain ⟨value, -, rfl⟩ := Option.map_eq_some_iff.mp built
  rfl

theorem mem_otherPredicates :
    predicate ∈ otherPredicates host input ↔ queryPredicate host input = some predicate ∨
      kindsPredicate host input = some predicate ∨ sourcesPredicate input = some predicate ∨
      conversationPredicate input = some predicate ∨ runPredicate input = some predicate ∨
      createdAfterPredicate host input = some predicate ∨ createdBeforePredicate host input = some predicate ∨
      tagsPredicate input = some predicate ∨ mimeTypePredicate input = some predicate := by
  simp [otherPredicates, filePredicates, @eq_comm _ (some predicate)]

/-- The one filter of a facet. -/
def facetPredicate (input : FilesListInput) : Facet → Option Predicate
  | .kinds => kindsPredicate host input
  | .sources => sourcesPredicate input

theorem mem_facet (found : predicates host input index = .ok preds) (facet : Facet) (predicate : Predicate) :
    predicate ∈ preds ∧ predicate.facet = some facet ↔ facetPredicate host input facet = some predicate := by
  obtain ⟨place, looks, rfl⟩ := (predicates_eq_ok host).mp found
  have noPlace : predicate ∈ place.toList → predicate.facet = none := by
    intro member
    obtain rfl := Option.mem_toList.mp member
    exact placePredicate_facet looks
  rw [List.mem_append, mem_otherPredicates]
  constructor
  · rintro ⟨member, own⟩
    rcases member with member | query | kinds | sources | conversation | run | after | before | tags | mime
    · rw [noPlace member] at own
      cases own
    · rw [facet_of_map query] at own
      cases own
    · obtain rfl : Facet.kinds = facet := Option.some.inj ((facet_of_map kinds).symm.trans own)
      exact kinds
    · obtain rfl : Facet.sources = facet := Option.some.inj ((facet_of_map sources).symm.trans own)
      exact sources
    · rw [facet_of_map conversation] at own
      cases own
    · rw [facet_of_map run] at own
      cases own
    · rw [facet_of_map after] at own
      cases own
    · rw [facet_of_map before] at own
      cases own
    · rw [facet_of_map tags] at own
      cases own
    · rw [facet_of_map mime] at own
      cases own
  · intro own
    cases facet with
    | kinds => exact ⟨.inr (.inr (.inl own)), facet_of_map own⟩
    | sources => exact ⟨.inr (.inr (.inr (.inl own))), facet_of_map own⟩

/-- A file passes when it passes the filters of the other facets and the one of this. -/
theorem matching_eq_filter (found : predicates host input index = .ok preds) (all : List FileEntry) (facet : Facet) :
    matching all preds =
      (without all preds facet).filter fun file => (facetPredicate host input facet).all (·.test file) := by
  rw [matching, without, List.filter_filter]
  apply List.filter_congr
  intro file _
  rw [Bool.eq_iff_iff]
  simp only [Bool.and_eq_true, List.all_eq_true, Option.all_eq_true, Bool.or_eq_true, decide_eq_true_eq]
  constructor
  · intro passes
    exact ⟨fun predicate own => passes predicate ((mem_facet host found facet predicate).mpr own).1,
      fun predicate member => .inr (passes predicate member)⟩
  · rintro ⟨own, others⟩ predicate member
    rcases others predicate member with facets | passes
    · exact own predicate ((mem_facet host found facet predicate).mp ⟨member, facets⟩)
    · exact passes

/-- The matches are the counts of the selected kinds, and of the selected sources. -/
theorem countFacets_sum (found : predicates host input index = .ok preds) (all : List FileEntry) :
    (matching all preds).length = ((selected fileKinds input.kinds).map (countFacets host all preds).kinds).sum ∧
      (matching all preds).length =
        ((selected fileSources input.sources).map (countFacets host all preds).sources).sum := by
  constructor
  · have distinct : (selected fileKinds input.kinds).Nodup := selected_nodup (by decide) _
    rw [countFacets, sum_tally distinct, matching_eq_filter host found all .kinds, ← List.countP_eq_length_filter]
    apply List.countP_congr
    intro file _
    simp only [decide_eq_true_eq, mem_selected mem_fileKinds]
    rw [facetPredicate, kindsPredicate]
    cases nonEmpty input.kinds <;> simp
  · have distinct : (selected fileSources input.sources).Nodup := selected_nodup (by decide) _
    rw [countFacets, sum_tally distinct, matching_eq_filter host found all .sources, ← List.countP_eq_length_filter]
    apply List.countP_congr
    intro file _
    simp only [decide_eq_true_eq, mem_selected mem_fileSources]
    rw [facetPredicate, sourcesPredicate]
    cases nonEmpty input.sources <;> simp

end Facets

section Pages

/-- The pages of a list make up its front. -/
theorem flatMap_pages {Item : Type} (items : List Item) (size pages : Nat) :
    ((List.range pages).flatMap fun page => (items.drop (page * size)).take size) = items.take (pages * size) := by
  induction pages with
  | zero => simp
  | succ pages ih =>
      rw [List.range_succ, List.flatMap_append, ih, List.flatMap_singleton, Nat.succ_mul, List.take_add]

theorem isLE_then {First Second : Type} [LinearOrder First] [LinearOrder Second] (first first' : First)
    (second second' : Second) : ((compare first first').then (compare second second')).isLE = true ↔
      toLex (first, second) ≤ toLex (first', second') := by
  rw [Prod.Lex.toLex_le_toLex]
  rcases lt_trichotomy first first' with less | rfl | more
  · rw [compare_lt_iff_lt.mpr less]
    simp [less]
  · rw [compare_eq_iff_eq.mpr rfl, Ordering.eq_then, ← Ordering.ne_gt_iff_isLE]
    refine (@compare_le_iff_le _ _ second second').trans ?_
    simp
  · rw [compare_gt_iff_gt.mpr more]
    simp [more.not_gt, more.ne']

variable {Collation : Type} [LinearOrder Collation] (host : Host Collation)

/-- Files are compared by a key and then by the identifier. -/
theorem compareFiles_lex (sort : SortField) (order : SortOrder) :
    ∃ (Key : Type) (_ : LinearOrder Key) (keyOf : FileEntry → Key), ∀ one other,
      compareFiles host sort order one other =
        (compare (keyOf one) (keyOf other)).then (compare (host.collate one.id) (host.collate other.id)) := by
  cases order with
  | asc =>
      cases sort with
      | createdAt => exact ⟨Collation, inferInstance, fun file => host.collate file.createdAt, fun _ _ => rfl⟩
      | filename => exact ⟨Collation, inferInstance, fun file => host.collate file.filename, fun _ _ => rfl⟩
      | size => exact ⟨Nat, inferInstance, FileEntry.size, fun _ _ => rfl⟩
  | desc =>
      cases sort with
      | createdAt =>
          refine ⟨OrderDual Collation, inferInstance, fun file => .toDual (host.collate file.createdAt), ?_⟩
          intro one other
          rw [compareFiles, if_neg nofun, ← Std.OrientedCmp.eq_swap]
          rfl
      | filename =>
          refine ⟨OrderDual Collation, inferInstance, fun file => .toDual (host.collate file.filename), ?_⟩
          intro one other
          rw [compareFiles, if_neg nofun, ← Std.OrientedCmp.eq_swap]
          rfl
      | size =>
          refine ⟨OrderDual Nat, inferInstance, fun file => .toDual file.size, ?_⟩
          intro one other
          rw [compareFiles, if_neg nofun, ← Std.OrientedCmp.eq_swap]
          rfl

/-- The order of the records does not show in a sorted listing. -/
theorem sorted_eq_of_perm (input : FilesListInput) {files files' : List FileEntry} (same : files.Perm files')
    (distinct : ∀ one ∈ files, ∀ other ∈ files, host.collate one.id = host.collate other.id → one = other) :
    sorted host input files = sorted host input files' := by
  obtain ⟨Key, _, keyOf, compares⟩ := compareFiles_lex host (sortOf input) (orderOf input)
  have lex (one other : FileEntry) : (compareFiles host (sortOf input) (orderOf input) one other).isLE = true ↔
      toLex (keyOf one, host.collate one.id) ≤ toLex (keyOf other, host.collate other.id) := by
    rw [compares, isLE_then]
  have inOrder (list : List FileEntry) : (sorted host input list).Pairwise fun one other =>
      (compareFiles host (sortOf input) (orderOf input) one other).isLE = true := by
    apply List.pairwise_mergeSort
    · intro one other third first second
      rw [lex] at first second ⊢
      exact first.trans second
    · intro one other
      rw [Bool.or_eq_true, lex, lex]
      exact le_total _ _
  refine List.Perm.eq_of_pairwise ?_ (inOrder files) (inOrder files')
    ((List.mergeSort_perm files _).trans (same.trans (List.mergeSort_perm files' _).symm))
  intro one other member member' before after
  rw [lex] at before after
  have keys := congrArg (fun pair => (ofLex pair).2) (le_antisymm before after)
  exact distinct one (List.mem_mergeSort.mp member) other (same.mem_iff.mpr (List.mem_mergeSort.mp member')) keys

end Pages

section Places

/-- The live folder records, one for each identifier. The identifiers are generated ones. -/
structure FolderRecords where
  folders : List FolderEntry
  distinct : (folders.map FolderEntry.id).Nodup
  named : ∀ folder ∈ folders, folder.id ≠ "" ∧ folder.id ≠ rootFolderId

/-- The registry holds one record for each file. -/
structure Registry where
  files : List FileEntry
  distinct : (files.map fun file => file.id).Nodup

theorem Registry.nodup (registry : Registry) : registry.files.Nodup := registry.distinct.of_map _

theorem FolderRecords.one (records : FolderRecords) :
    ∀ one ∈ records.folders, ∀ other ∈ records.folders, one.id = other.id → one = other :=
  List.inj_on_of_nodup_map records.distinct

/-- The folders that are shown right below a place. -/
def FolderRecords.below (records : FolderRecords) (place : Option String) : List FolderEntry :=
  (indexFolders records.folders).childrenOf place

/-- A folder is inside itself when its parents come back to it. -/
def FolderRecords.InsideItself (records : FolderRecords) (folder : FolderEntry) : Prop :=
  ∃ child ∈ records.below (some folder.id), folder.id ∈ subtreeIds (indexFolders records.folders) child.id

/-- Every folder is below one at the top level. -/
def FolderRecords.Hangs (records : FolderRecords) : Prop :=
  ∀ folder ∈ records.folders, ∃ top ∈ records.below none,
    folder.id ∈ subtreeIds (indexFolders records.folders) top.id

variable {Collation : Type} (host : Host Collation) (registry : Registry) (records : FolderRecords)

/-- The files that a listing pages and counts. -/
def filesOf (input : FilesListInput) : Except FolderError (List FileEntry) :=
  (predicates host input (indexFolders records.folders)).map (matching registry.files)

/-- The listing of a place, with it alone or with everything below it. -/
def FilesListInput.at_ (input : FilesListInput) (folderId : String) (recursive : Bool) : FilesListInput :=
  { input with folderId := some folderId, recursive := recursive }

/-- The filters that do not look at the place. -/
def passes (input : FilesListInput) (file : FileEntry) : Bool := (otherPredicates host input).all (·.test file)

def folderOf (file : FileEntry) : Option String := effectiveFolder (indexFolders records.folders) file

variable {host registry records} {input : FilesListInput}

theorem filesOf_eq {place : Option Predicate}
    (looks : placePredicate input (indexFolders records.folders) = .ok place) :
    filesOf host registry records input =
      .ok (registry.files.filter fun file => place.all (·.test file) && passes host input file) := by
  have found := (predicates_eq_ok host).mpr ⟨place, looks, rfl⟩
  rw [filesOf, found]
  change Except.ok (matching registry.files _) = _
  rw [matching]
  congr 2
  funext file
  rw [List.all_append, passes]
  cases place <;> simp

variable {folder : FolderEntry} {place : Option String} {file : FileEntry}

theorem folder_known (listed : folder ∈ records.folders) :
    (indexFolders records.folders).byId.get? folder.id = some folder :=
  (byId_iff records.one).mpr ⟨listed, rfl⟩

theorem normalizeFolderId_listed (listed : folder ∈ records.folders) :
    normalizeFolderId (some folder.id) = some folder.id := by
  obtain ⟨named, notRoot⟩ := records.named folder listed
  simp [normalizeFolderId, Option.filter_some, named, notRoot]

theorem filesOf_folder (listed : folder ∈ records.folders) (input : FilesListInput) :
    filesOf host registry records (input.at_ folder.id false) =
      .ok (registry.files.filter fun file => folderOf records file = some folder.id && passes host input file) := by
  refine @filesOf_eq _ host registry records (input.at_ folder.id false)
    (some { test := fun file => folderOf records file = some folder.id }) ?_
  simp only [placePredicate, FilesListInput.at_, normalizeFolderId_listed listed, folder_known listed]
  rfl

theorem filesOf_below (listed : folder ∈ records.folders) (input : FilesListInput) :
    filesOf host registry records (input.at_ folder.id true) =
      .ok (registry.files.filter fun file =>
        (folderOf records file).getD "" ∈ subtreeIds (indexFolders records.folders) folder.id &&
          passes host input file) := by
  refine @filesOf_eq _ host registry records (input.at_ folder.id true)
    (some { test := fun file =>
      (folderOf records file).getD "" ∈ subtreeIds (indexFolders records.folders) folder.id }) ?_
  simp only [placePredicate, FilesListInput.at_, normalizeFolderId_listed listed, folder_known listed]
  rfl

theorem filesOf_top (input : FilesListInput) :
    filesOf host registry records (input.at_ rootFolderId false) =
      .ok (registry.files.filter fun file => folderOf records file = none && passes host input file) :=
  @filesOf_eq _ host registry records (input.at_ rootFolderId false)
    (some { test := fun file => folderOf records file = none }) rfl

theorem filesOf_everywhere (input : FilesListInput) :
    filesOf host registry records (input.at_ rootFolderId true) = .ok (registry.files.filter (passes host input)) :=
  @filesOf_eq _ host registry records (input.at_ rootFolderId true) none rfl

theorem under_iff {above below : String} :
    Under records.folders above below ↔ ∃ folder ∈ records.below (some above), folder.id = below := by
  rw [Under, List.mem_map]
  rfl

/-- A folder is shown right under one place. -/
theorem below_unique {place' : Option String} {folder' : FolderEntry} (first : folder ∈ records.below place)
    (second : folder' ∈ records.below place') (same : folder.id = folder'.id) : place = place' := by
  obtain ⟨listed, shown⟩ := mem_childrenOf_shown.mp first
  obtain ⟨listed', shown'⟩ := mem_childrenOf_shown.mp second
  obtain rfl := records.one folder listed folder' listed' same
  exact shown.symm.trans shown'

/-- Folders under each other are one under the other. -/
theorem meets {one other below : String} (first : Relation.ReflTransGen (Under records.folders) one below)
    (second : Relation.ReflTransGen (Under records.folders) other below) :
    Relation.ReflTransGen (Under records.folders) one other ∨
      Relation.ReflTransGen (Under records.folders) other one := by
  have unique : Relator.RightUnique (Function.swap (Under records.folders)) := by
    intro child above above' up up'
    obtain ⟨folder, inside, rfl⟩ := under_iff.mp up
    obtain ⟨folder', inside', same⟩ := under_iff.mp up'
    exact Option.some.inj (below_unique inside inside' same.symm)
  have joined := Relation.ReflTransGen.total_of_right_unique unique (Relation.reflTransGen_swap.mpr first)
    (Relation.reflTransGen_swap.mpr second)
  exact joined.symm.imp Relation.reflTransGen_swap.mp Relation.reflTransGen_swap.mp

/-- Two folders of one place have nothing below them in common, unless the place is inside of itself. -/
theorem children_apart {one other : FolderEntry} (first : one ∈ records.below place)
    (second : other ∈ records.below place) (outside : ∀ above, place = some above → ∀ child ∈ records.below place,
      ¬ Relation.ReflTransGen (Under records.folders) child.id above) {below : String}
    (reached : Relation.ReflTransGen (Under records.folders) one.id below)
    (reached' : Relation.ReflTransGen (Under records.folders) other.id below) : one.id = other.id := by
  have apart {one other : FolderEntry} (first : one ∈ records.below place) (second : other ∈ records.below place)
      (down : Relation.ReflTransGen (Under records.folders) one.id other.id) : one.id = other.id := by
    rcases Relation.ReflTransGen.cases_tail down with same | ⟨above, far, under⟩
    · exact same.symm
    · obtain ⟨folder, inside, same⟩ := under_iff.mp under
      exact absurd far (outside above (below_unique second inside same.symm) one first)
  exact (meets reached reached').elim (apart first second) fun down => (apart second first down).symm

/-- A list without repeats splits by tests of which each member passes at most one. -/
theorem filter_split {Item Part : Type} [DecidableEq Item] {items : List Item} (distinct : items.Nodup)
    {parts : List Part} (distinctParts : parts.Nodup) {whole own : Item → Bool} {part : Part → Item → Bool}
    (covers : ∀ item ∈ items, whole item = true ↔ own item = true ∨ ∃ one ∈ parts, part one item = true)
    (apart : ∀ item ∈ items, own item = true → ∀ one ∈ parts, part one item = false)
    (once : ∀ item ∈ items, ∀ one ∈ parts, ∀ other ∈ parts, part one item = true → part other item = true → one = other) :
    (items.filter own ++ parts.flatMap fun one => items.filter (part one)).Perm (items.filter whole) := by
  apply (List.perm_ext_iff_of_nodup ?_ (distinct.filter _)).mpr
  · intro item
    simp only [List.mem_append, List.mem_filter, List.mem_flatMap]
    constructor
    · rintro (⟨member, passes⟩ | ⟨one, among, member, passes⟩)
      · exact ⟨member, (covers item member).mpr (.inl passes)⟩
      · exact ⟨member, (covers item member).mpr (.inr ⟨one, among, passes⟩)⟩
    · rintro ⟨member, passes⟩
      rcases (covers item member).mp passes with passes | ⟨one, among, passes⟩
      · exact .inl ⟨member, passes⟩
      · exact .inr ⟨one, among, member, passes⟩
  · rw [List.nodup_append', List.nodup_flatMap]
    refine ⟨distinct.filter _, ⟨fun _ _ => distinct.filter _, ?_⟩, ?_⟩
    · refine List.Pairwise.imp_of_mem ?_ distinctParts
      intro one other among among' different item first second
      obtain ⟨member, passes⟩ := List.mem_filter.mp first
      exact different (once item member one among other among' passes (List.mem_filter.mp second).2)
    · intro item first second
      obtain ⟨member, passes⟩ := List.mem_filter.mp first
      obtain ⟨one, among, within⟩ := List.mem_flatMap.mp second
      exact Bool.false_ne_true ((apart item member passes one among).symm.trans (List.mem_filter.mp within).2)

theorem mem_below (inside : folder ∈ records.below place) :
    folder ∈ records.folders :=
  (mem_childrenOf_shown.mp inside).1

theorem below_nodup (place : Option String) : (records.below place).Nodup := by
  rw [FolderRecords.below, childrenOf_eq_filter]
  exact (records.distinct.of_map _).filter _

/-- The folder of a file is live. -/
theorem folderOf_listed {id : String} (within : folderOf records file = some id) :
    file.folderId = some id ∧ ∃ folder ∈ records.folders, folder.id = id := by
  obtain ⟨same, known⟩ := Option.filter_eq_some_iff.mp within
  obtain ⟨folder, found⟩ := Option.isSome_iff_exists.mp (Bool.and_eq_true_iff.mp known).2
  exact ⟨same, folder, (byId_iff records.one).mp found⟩

theorem folderOf_eq_none :
    folderOf records file = none ↔ ¬∃ folder ∈ records.folders, file.folderId = some folder.id := by
  constructor
  · rintro top ⟨folder, listed, same⟩
    have named := (records.named folder listed).1
    rw [folderOf, effectiveFolder, same, Option.filter_some, folder_known listed] at top
    simp [named] at top
  · intro missing
    cases within : folderOf records file with
    | none => rfl
    | some id =>
        obtain ⟨same, folder, listed, rfl⟩ := folderOf_listed within
        exact absurd ⟨folder, listed, same⟩ missing

/-- A file is below a folder when its folder hangs from it. -/
theorem below_iff (listed : folder ∈ records.folders) :
    (folderOf records file).getD "" ∈ subtreeIds (indexFolders records.folders) folder.id ↔
      ∃ id, folderOf records file = some id ∧ Relation.ReflTransGen (Under records.folders) folder.id id := by
  rw [mem_subtreeIds records.one]
  cases folderOf records file with
  | some id => simp
  | none =>
      refine ⟨fun reached => ?_, fun ⟨_, absent, _⟩ => nomatch absent⟩
      rcases Relation.ReflTransGen.cases_tail reached with same | ⟨above, _, under⟩
      · exact absurd same.symm (records.named folder listed).1
      · obtain ⟨other, inside, same⟩ := under_iff.mp under
        exact absurd same (records.named other (mem_below inside)).1

/-- The recursive listing of a folder is its own files and the recursive listings of the folders in it. -/
structure Splits (host : Host Collation) (registry : Registry) (records : FolderRecords) (input : FilesListInput)
    (folderId : String) (children : List FolderEntry) (whole own : List FileEntry)
    (parts : FolderEntry → List FileEntry) : Prop where
  whole_eq : filesOf host registry records (input.at_ folderId true) = .ok whole
  own_eq : filesOf host registry records (input.at_ folderId false) = .ok own
  parts_eq : ∀ child ∈ children, filesOf host registry records (input.at_ child.id true) = .ok (parts child)
  once : whole.Nodup
  union : (own ++ children.flatMap parts).Perm whole

/-- The files below a folder that pass the other filters. -/
def filesBelow (host : Host Collation) (registry : Registry) (records : FolderRecords) (input : FilesListInput)
    (folder : FolderEntry) : List FileEntry :=
  registry.files.filter fun file =>
    (folderOf records file).getD "" ∈ subtreeIds (indexFolders records.folders) folder.id && passes host input file

theorem splits_folder (listed : folder ∈ records.folders) (outside : ¬ records.InsideItself folder) :
    ∃ whole own parts,
      Splits host registry records input folder.id (records.below (some folder.id)) whole own parts := by
  have free : ∀ above, some folder.id = some above → ∀ child ∈ records.below (some folder.id),
      ¬ Relation.ReflTransGen (Under records.folders) child.id above := by
    rintro _ ⟨⟩ child inside reached
    exact outside ⟨child, inside, (mem_subtreeIds records.one).mpr reached⟩
  refine ⟨_, _, filesBelow host registry records input, filesOf_below listed input, filesOf_folder listed input,
    fun child inside => filesOf_below (mem_below inside) input, registry.nodup.filter _, ?_⟩
  refine filter_split registry.nodup (below_nodup _) ?_ ?_ ?_
  · intro file _
    simp only [Bool.and_eq_true, decide_eq_true_eq, below_iff listed]
    constructor
    · rintro ⟨⟨id, within, reached⟩, others⟩
      rcases Relation.ReflTransGen.cases_head reached with rfl | ⟨next, under, far⟩
      · exact .inl ⟨within, others⟩
      · obtain ⟨child, inside, rfl⟩ := under_iff.mp under
        exact .inr ⟨child, inside, (below_iff (mem_below inside)).mpr ⟨id, within, far⟩, others⟩
    · rintro (⟨within, others⟩ | ⟨child, inside, under, others⟩)
      · exact ⟨⟨_, within, .refl⟩, others⟩
      · obtain ⟨id, within, far⟩ := (below_iff (mem_below inside)).mp under
        exact ⟨⟨id, within, .head (under_iff.mpr ⟨child, inside, rfl⟩) far⟩, others⟩
  · intro file _ own child inside
    have within : folderOf records file = some folder.id := of_decide_eq_true (Bool.and_eq_true_iff.mp own).1
    rw [Bool.and_eq_false_iff]
    left
    rw [decide_eq_false_iff_not, below_iff (mem_below inside)]
    rintro ⟨id, within', reached⟩
    rw [within] at within'
    exact free id within' child inside reached
  · intro file _ one among other among' first second
    obtain ⟨id, within, reached⟩ :=
      (below_iff (mem_below among)).mp (of_decide_eq_true (Bool.and_eq_true_iff.mp first).1)
    obtain ⟨id', within', reached'⟩ :=
      (below_iff (mem_below among')).mp (of_decide_eq_true (Bool.and_eq_true_iff.mp second).1)
    obtain rfl := Option.some.inj (within.symm.trans within')
    exact records.one one (mem_below among) other (mem_below among') (children_apart among among' free reached reached')

theorem splits_top (hangs : records.Hangs) : ∃ whole own parts,
    Splits host registry records input rootFolderId (records.below none) whole own parts := by
  refine ⟨_, _, filesBelow host registry records input, filesOf_everywhere input, filesOf_top input,
    fun child inside => filesOf_below (mem_below inside) input, registry.nodup.filter _, ?_⟩
  refine filter_split registry.nodup (below_nodup _) ?_ ?_ ?_
  · intro file _
    simp only [Bool.and_eq_true, decide_eq_true_eq]
    constructor
    · intro others
      cases within : folderOf records file with
      | none => exact .inl ⟨rfl, others⟩
      | some id =>
          obtain ⟨-, folder, listed, rfl⟩ := folderOf_listed within
          obtain ⟨top, inside, reached⟩ := hangs folder listed
          exact .inr ⟨top, inside, reached, others⟩
    · rintro (⟨-, others⟩ | ⟨_, _, _, others⟩)
      · exact others
      · exact others
  · intro file _ own child inside
    have within : folderOf records file = none := of_decide_eq_true (Bool.and_eq_true_iff.mp own).1
    rw [Bool.and_eq_false_iff]
    left
    rw [decide_eq_false_iff_not, below_iff (mem_below inside)]
    rintro ⟨id, within', -⟩
    rw [within] at within'
    cases within'
  · intro file _ one among other among' first second
    obtain ⟨id, within, reached⟩ :=
      (below_iff (mem_below among)).mp (of_decide_eq_true (Bool.and_eq_true_iff.mp first).1)
    obtain ⟨id', within', reached'⟩ :=
      (below_iff (mem_below among')).mp (of_decide_eq_true (Bool.and_eq_true_iff.mp second).1)
    obtain rfl := Option.some.inj (within.symm.trans within')
    exact records.one one (mem_below among) other (mem_below among') (children_apart among among' nofun reached reached')

theorem filesOf_ok {files : List FileEntry} (found : filesOf host registry records input = .ok files) :
    ∃ preds, predicates host input (indexFolders records.folders) = .ok preds ∧
      files = matching registry.files preds := by
  rw [filesOf] at found
  cases preds : predicates host input (indexFolders records.folders) with
  | error error => rw [preds] at found; cases found
  | ok preds' => rw [preds] at found; exact ⟨preds', rfl, (Except.ok.inj found).symm⟩

theorem files_missing {own : List FileEntry}
    (top : filesOf host registry records (input.at_ rootFolderId false) = .ok own) :
    file ∈ own ↔ file ∈ registry.files ∧ passes host input file = true ∧
      ¬∃ folder ∈ records.folders, file.folderId = some folder.id := by
  obtain rfl := Except.ok.inj ((filesOf_top input).symm.trans top)
  rw [List.mem_filter, Bool.and_eq_true, decide_eq_true_eq, folderOf_eq_none, and_comm (b := passes host input file = true)]

end Places

section Trees

variable {toLowerCase : String → String} {records : FolderRecords}

end Trees

section Listings

variable {Collation : Type} [LinearOrder Collation]

/-- A listing agrees with its counts, its pages and the listings of the folders. -/
structure Consistent (host : Host Collation) (registry : Registry) (records : FolderRecords) (input : FilesListInput) :
    Prop where
  counts : ∀ output, listFiles host registry.files records.folders input = .ok output →
    ∃ files, filesOf host registry records input = .ok files ∧ output.total = files.length ∧
      output.total = ((selected fileKinds input.kinds).map output.facets.kinds).sum ∧
      output.total = ((selected fileSources input.sources).map output.facets.sources).sum
  pages : ∀ files, filesOf host registry records input = .ok files → ∀ reads : Nat → List FileEntry,
    (∀ page, (reads page).Perm registry.files) → ∀ size pages, files.length ≤ pages * size →
      ∃ outputs : Nat → FilesListOutput,
        (∀ page, listFiles host (reads page) records.folders
          { input with offset := some (page * size), limit := some size } = .ok (outputs page)) ∧
        ((List.range pages).flatMap fun page => (outputs page).files.map Prod.fst).Perm files ∧ files.Nodup
  folders : ∀ folder ∈ records.folders, ¬ records.InsideItself folder → ∃ whole own parts,
    Splits host registry records input folder.id (records.below (some folder.id)) whole own parts
  top : records.Hangs → ∃ whole own parts,
    Splits host registry records input rootFolderId (records.below none) whole own parts
  missing : ∀ own, filesOf host registry records (input.at_ rootFolderId false) = .ok own → ∀ file,
    file ∈ own ↔ file ∈ registry.files ∧ passes host input file = true ∧
      ¬∃ folder ∈ records.folders, file.folderId = some folder.id

variable {host : Host Collation} {registry : Registry} {records : FolderRecords} {input : FilesListInput}

theorem listFiles_eq {preds : List Predicate} {all : List FileEntry}
    (found : predicates host input (indexFolders records.folders) = .ok preds) :
    ∃ output, listFiles host all records.folders input = .ok output ∧
      output.files.map Prod.fst =
        ((sorted host input (matching all preds)).drop (input.offset.getD 0)).take (input.limit.getD 20) ∧
      output.total = (matching all preds).length ∧ output.facets = countFacets host all preds := by
  rw [listFiles, found]
  refine ⟨_, rfl, ?_, rfl, rfl⟩
  rw [List.map_map]
  exact List.map_id' _

theorem counts_agree {output : FilesListOutput}
    (listed : listFiles host registry.files records.folders input = .ok output) :
    ∃ files, filesOf host registry records input = .ok files ∧ output.total = files.length ∧
      output.total = ((selected fileKinds input.kinds).map output.facets.kinds).sum ∧
      output.total = ((selected fileSources input.sources).map output.facets.sources).sum := by
  cases found : predicates host input (indexFolders records.folders) with
  | error error =>
      rw [listFiles, found] at listed
      cases listed
  | ok preds =>
      obtain ⟨_, same, -, total, facets⟩ := @listFiles_eq _ _ host records input preds registry.files found
      obtain rfl := Except.ok.inj (listed.symm.trans same)
      rw [facets, total]
      refine ⟨matching registry.files preds, ?_, rfl, countFacets_sum host found registry.files⟩
      rw [filesOf, found]
      rfl

/-- The pages hold every match once, in whatever order each of them found the records. -/
theorem pages_agree (collates : ∀ one ∈ registry.files, ∀ other ∈ registry.files,
      host.collate one.id = host.collate other.id → one.id = other.id) {files : List FileEntry}
    (found : filesOf host registry records input = .ok files) {reads : Nat → List FileEntry}
    (same : ∀ page, (reads page).Perm registry.files) {size pages : Nat} (enough : files.length ≤ pages * size) :
    ∃ outputs : Nat → FilesListOutput,
      (∀ page, listFiles host (reads page) records.folders
        { input with offset := some (page * size), limit := some size } = .ok (outputs page)) ∧
      ((List.range pages).flatMap fun page => (outputs page).files.map Prod.fst).Perm files ∧ files.Nodup := by
  obtain ⟨preds, known, rfl⟩ := filesOf_ok found
  have page (number : Nat) := @listFiles_eq _ _ host records
    { input with offset := some (number * size), limit := some size } preds (reads number) known
  choose outputs listed shown _ _ using page
  have distinct : ∀ one ∈ matching registry.files preds, ∀ other ∈ matching registry.files preds,
      host.collate one.id = host.collate other.id → one = other := by
    intro one member other member' collated
    have first := List.mem_of_mem_filter member
    have second := List.mem_of_mem_filter member'
    exact List.inj_on_of_nodup_map registry.distinct first second (collates one first other second collated)
  have whole (number : Nat) : (outputs number).files.map Prod.fst =
      ((sorted host input (matching registry.files preds)).drop (number * size)).take size := by
    have order := sorted_eq_of_perm host input ((same number).symm.filter _) distinct
    rw [shown number]
    exact congrArg (fun list => (List.drop (number * size) list).take size) order.symm
  refine ⟨outputs, listed, ?_, registry.nodup.filter _⟩
  simp only [whole]
  rw [flatMap_pages, List.take_of_length_le (by rwa [sorted, List.length_mergeSort])]
  exact List.mergeSort_perm _ _

/-- The collation keys of the identifiers are as different as these. -/
theorem listing_consistent (registry : Registry) (records : FolderRecords) (input : FilesListInput)
    (collates : ∀ one ∈ registry.files, ∀ other ∈ registry.files,
      host.collate one.id = host.collate other.id → one.id = other.id) :
    Consistent host registry records input where
  counts _ listed := counts_agree listed
  pages _ found _ same _ _ enough := pages_agree collates found same enough
  folders _ listed outside := splits_folder listed outside
  top hangs := splits_top hangs
  missing _ found _ := files_missing found

end Listings

/-- A host that compares texts as they are. -/
def plainHost : Host String where
  toLowerCase := id
  collate := id
  parseDate _ := none

def fileIn (id : String) (folderId : Option String) : FileEntry where
  id := id
  folderId := folderId
  filename := id
  mimeType := "text/csv"
  size := 1
  tags := []
  source := .manual
  conversationId := none
  runId := none
  createdAt := "2026-01-01"
  description := none

def nested : FolderRecords where
  folders := [⟨"fd_1", "Reports", none, false⟩, ⟨"fd_2", "Q3", some "fd_1", false⟩]
  distinct := by decide
  named := by decide

def threeFiles : Registry where
  files := [fileIn "fl_1" none, fileIn "fl_2" (some "fd_1"), fileIn "fl_3" (some "fd_2")]
  distinct := by decide

theorem nested_consistent : Consistent plainHost threeFiles nested { kinds := some [.data], limit := some 2 } :=
  listing_consistent threeFiles nested _ fun _ _ _ _ same => same

/-- Two folders that name each other as parents. -/
def ring : FolderRecords where
  folders := [⟨"fd_1", "Reports", some "fd_2", false⟩, ⟨"fd_2", "Q3", some "fd_1", false⟩]
  distinct := by decide
  named := by decide

def oneFile : Registry where
  files := [fileIn "fl_1" (some "fd_1")]
  distinct := by decide

/-- The file of a folder that is inside itself is also below the folder in it. -/
theorem ring_overlaps : ¬ ∀ (registry : Registry) (records : FolderRecords) (input : FilesListInput),
    ∀ folder ∈ records.folders, ∃ whole own parts,
      Splits plainHost registry records input folder.id (records.below (some folder.id)) whole own parts := by
  intro splits
  obtain ⟨whole, own, parts, split⟩ := splits oneFile ring {} _ (.head _)
  have wholeFiles : (filesOf plainHost oneFile ring (FilesListInput.at_ {} "fd_1" true)).toOption =
      some oneFile.files := by decide +kernel
  have ownFiles : (filesOf plainHost oneFile ring (FilesListInput.at_ {} "fd_1" false)).toOption =
      some oneFile.files := by decide +kernel
  have partFiles : (filesOf plainHost oneFile ring (FilesListInput.at_ {} "fd_2" true)).toOption =
      some oneFile.files := by decide +kernel
  have children : ring.below (some "fd_1") = [⟨"fd_2", "Q3", some "fd_1", false⟩] := by decide +kernel
  have union := split.union.length_eq
  rw [split.whole_eq] at wholeFiles
  rw [split.own_eq] at ownFiles
  rw [children] at union
  rw [split.parts_eq ⟨"fd_2", "Q3", some "fd_1", false⟩ (by rw [children]; exact .head _)] at partFiles
  obtain rfl := Option.some.inj wholeFiles
  obtain rfl := Option.some.inj ownFiles
  rw [List.flatMap_singleton, Option.some.inj partFiles] at union
  cases union

end NimbleBrain.Files.Query
