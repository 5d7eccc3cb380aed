import NimbleBrain.Conversation.EscapedText
import NimbleBrain.Engine.JsonWrite
import NimbleBrain.Library.Lines

/- A skill too large for the prompt keeps its whole leading sections. A marker tells how many are left out. -/

namespace NimbleBrain.Engine.SkillTruncate

open Library
open Conversation.Fence (isSpace)

def newline : UInt16 := 10

/-- The parts with a line break between each two. -/
def join (parts : List Utf16) : Utf16 := List.intercalate [newline] parts

structure TruncateResult where
  body : Utf16
  truncated : Bool
  sectionsOmitted : Nat
  deriving DecidableEq

/-- One to six number signs and white space. -/
def isHeading (line : Utf16) : Bool :=
  let marks := (line.takeWhile (· == 35)).length
  1 ≤ marks && marks ≤ 6 && (line.drop marks).head?.any isSpace

structure Split where
  sections : List Utf16 := []
  current : List Utf16 := []

def Split.line (split : Split) (line : Utf16) : Split :=
  if isHeading line && !split.current.isEmpty then ⟨split.sections ++ [join split.current], [line]⟩
  else ⟨split.sections, split.current ++ [line]⟩

def Split.finish (split : Split) : List Utf16 :=
  if split.current.isEmpty then split.sections else split.sections ++ [join split.current]

def splitIntoSections (content : Utf16) : List Utf16 := ((content.splitOn newline).foldl Split.line {}).finish

def lastIndexOf (text mark : Utf16) : Option Nat :=
  (List.range (text.length + 1)).reverse.find? fun index => mark.isPrefixOf (text.drop index)

/-- The last place of a mark that is not the start. -/
def lastBreak (slice mark : Utf16) : Option Nat := (lastIndexOf slice mark).filter (0 < ·)

/-- The cut is at a paragraph, or else at a line, or else hard. -/
def truncateSingleSection (text : Utf16) (maxChars : ℚ) : Utf16 :=
  if text.length ≤ maxChars then text
  else
    let slice := text.take maxChars.floor.toNat
    match lastBreak slice [newline, newline] with
    | some paragraphIdx => slice.take paragraphIdx
    | none =>
        match lastBreak slice [newline] with
        | some lineIdx => slice.take lineIdx
        | none => slice

def omittedMarker (omitted : Nat) : Utf16 :=
  Utf16.ofString "\n\n[truncated: " ++ decimal omitted ++ Utf16.ofString " section" ++
    Utf16.ofString (if omitted = 1 then "" else "s") ++ Utf16.ofString " omitted]"

/-- The marker behind a first section that was cut. -/
def cutMarker (omitted : Nat) : Utf16 :=
  if 0 < omitted then omittedMarker omitted else Utf16.ofString "\n\n[truncated]"

def truncateOverlongFirstSection (first : Utf16) (rest : List Utf16) (budget : ℚ) : TruncateResult where
  body := truncateSingleSection first budget ++ cutMarker rest.length
  truncated := true
  sectionsOmitted := rest.length

/-- The sections kept and the number of those left out. -/
def walkFrom (budget : ℚ) (kept : List Utf16) (total : Nat) : List Utf16 → List Utf16 × Nat
  | [] => (kept, 0)
  | section_ :: rest =>
      let next := total + section_.length + if kept.isEmpty then 0 else 1
      if budget < next then (kept, rest.length + 1) else walkFrom budget (kept ++ [section_]) next rest

def walkSections (sections : List Utf16) (budget : ℚ) : List Utf16 × Nat := walkFrom budget [] 0 sections

def markerReserve : ℚ := 64

/-- The branch for nothing left out is the one that the code calls impossible. -/
def keepSections (sections : List Utf16) (budget : ℚ) : TruncateResult :=
  let (kept, omitted) := walkSections sections budget
  if omitted = 0 then ⟨join kept, false, 0⟩ else ⟨join kept ++ omittedMarker omitted, true, omitted⟩

def truncateSections (sections : List Utf16) (budget : ℚ) : TruncateResult :=
  match sections with
  | [] => keepSections [] budget
  | first :: rest =>
      if budget < first.length then truncateOverlongFirstSection first rest budget
      else keepSections (first :: rest) budget

def truncateMarkdownToBudget (content : Utf16) (maxChars : ℚ) : TruncateResult :=
  if maxChars ≤ 0 then ⟨[], 0 < content.length, 0⟩
  else if content.length ≤ maxChars then ⟨content, false, 0⟩
  else truncateSections (splitIntoSections content) (max 0 (maxChars - markerReserve))

theorem join_cons {part : Utf16} {parts : List Utf16} (some : parts ≠ []) :
    join (part :: parts) = part ++ newline :: join parts := by
  rw [join, List.intercalate_cons_of_ne_nil some, List.append_assoc]
  rfl

theorem join_append {parts others : List Utf16} (some : parts ≠ []) (some' : others ≠ []) :
    join (parts ++ others) = join parts ++ newline :: join others := by
  induction parts with
  | nil => exact absurd rfl some
  | cons part parts ih =>
      cases parts with
      | nil =>
          rw [List.cons_append, List.nil_append, join_cons some', join, join, List.intercalate_singleton]
      | cons next parts =>
          have later := ih (List.cons_ne_nil next parts)
          rw [List.cons_append, join_cons (by simp), later, @join_cons part (next :: parts) (by simp),
            List.append_assoc, List.cons_append]

variable {groups : List (List Utf16)} {split : Split} {omitted : Nat} {content first : Utf16}
  {rest : List Utf16} {reserve : ℚ}

/-- Joining what is joined is joining once. -/
theorem join_map_join (some : ∀ group ∈ groups, group ≠ []) :
    join (groups.map join) = join groups.flatten := by
  induction groups with
  | nil => rfl
  | cons group rest ih =>
      have later := ih fun other member => some other (List.mem_cons_of_mem _ member)
      cases rest with
      | nil => simp [join]
      | cons next others =>
          have filled : (next :: others).flatten ≠ [] := by
            intro empty
            exact some next (by simp) (List.flatten_eq_nil_iff.mp empty next List.mem_cons_self)
          have whole := join_append (some group List.mem_cons_self) filled
          rw [List.map_cons, join_cons (by simp), later, ← whole]
          rfl

theorem join_take_le (parts : List Utf16) (count : Nat) : join (parts.take count) <+: join parts := by
  by_cases none : parts.take count = []
  · rw [none]
    exact List.nil_prefix
  · by_cases rest : parts.drop count = []
    · have whole := List.take_of_length_le (List.drop_eq_nil_iff.mp rest)
      exact congrArg join whole ▸ List.prefix_rfl
    · have whole := join_append none rest
      rw [List.take_append_drop] at whole
      rw [whole]
      exact List.prefix_append _ _

theorem length_join_take_le (parts : List Utf16) {count later : Nat} (before : count ≤ later) :
    (join (parts.take count)).length ≤ (join (parts.take later)).length := by
  have first : parts.take count = (parts.take later).take count := by
    rw [List.take_take, Nat.min_eq_left before]
  rw [first]
  exact (join_take_le _ _).length_le

theorem length_join_concat (parts : List Utf16) (part : Utf16) :
    (join (parts ++ [part])).length = (join parts).length + part.length + if parts.isEmpty then 0 else 1 := by
  cases parts with
  | nil => simp [join]
  | cons first parts =>
      rw [join_append (by simp) (by simp), List.length_append, List.length_cons]
      simp only [join, List.intercalate_singleton, List.isEmpty_cons, Bool.false_eq_true, if_false]
      omega

/-- The line breaks between the parts are units of the whole. -/
theorem length_le_length_join (parts : List Utf16) : parts.length ≤ (join parts).length + 1 := by
  induction parts with
  | nil => exact Nat.zero_le _
  | cons part parts ih =>
      cases parts with
      | nil => exact Nat.le_add_left 1 _
      | cons next parts =>
          rw [join_cons (by simp), List.length_append, @List.length_cons _ newline, @List.length_cons _ part]
          omega

/-- The sections are the content. Each but the first begins at a heading, and no other line is one. -/
structure Sectioned (content : Utf16) (sections : List Utf16) : Prop where
  some : sections ≠ []
  joined : join sections = content
  begun : ∀ section_ ∈ sections.tail, ∃ first rest, section_.splitOn newline = first :: rest ∧ isHeading first = true
  plain : ∀ section_ ∈ sections, ∀ line ∈ (section_.splitOn newline).tail, isHeading line = false

/-- The lines that were read, by section. -/
structure Grouped (lines : List Utf16) (groups : List (List Utf16)) : Prop where
  lines_eq : groups.flatten = lines
  filled : ∀ group ∈ groups, ∃ first rest, group = first :: rest ∧ ∀ line ∈ rest, isHeading line = false
  begun : ∀ group ∈ groups.tail, ∃ first rest, group = first :: rest ∧ isHeading first = true

/-- The section under way is the last one. -/
structure Reads (lines : List Utf16) (split : Split) (groups : List (List Utf16)) : Prop where
  sections_eq : split.sections = groups.map join
  current_some : split.current ≠ []
  grouped : Grouped lines (groups ++ [split.current])

theorem Reads.line {lines : List Utf16} (reads : Reads lines split groups) (line : Utf16) :
    ∃ later, Reads (lines ++ [line]) (split.line line) later := by
  obtain ⟨sections, some, whole, filled, begun⟩ := reads
  obtain ⟨filledBefore, filledLast⟩ := List.forall_mem_append.mp filled
  rw [Split.line]
  split
  · next starts =>
      have heading := (Bool.and_eq_true_iff.mp starts).1
      refine ⟨groups ++ [split.current], by simp [sections], by simp, ?_, ?_, ?_⟩
      · simp [← whole]
      · exact List.forall_mem_append.mpr ⟨filled, by simp⟩
      · rw [List.tail_append_of_ne_nil (by simp)]
        exact List.forall_mem_append.mpr ⟨begun, by simpa using heading⟩
  · next goes =>
      have plain : isHeading line = false := by simpa [some] using goes
      obtain ⟨first, rest, shape, none⟩ := filledLast split.current List.mem_cons_self
      refine ⟨groups, sections, by simp, ?_, ?_, ?_⟩
      · simp [← whole]
      · refine List.forall_mem_append.mpr ⟨filledBefore, List.forall_mem_singleton.mpr ?_⟩
        refine ⟨first, rest ++ [line], ?_, ?_⟩
        · rw [shape, List.cons_append]
        · exact List.forall_mem_append.mpr ⟨none, List.forall_mem_singleton.mpr plain⟩
      · cases groups with
        | nil => simp
        | cons group groups =>
            obtain ⟨begunBefore, begunLast⟩ := List.forall_mem_append.mp begun
            obtain ⟨head, tail, same, heading⟩ := begunLast split.current List.mem_cons_self
            refine List.forall_mem_append.mpr ⟨begunBefore, List.forall_mem_singleton.mpr ?_⟩
            refine ⟨head, tail ++ [line], ?_, heading⟩
            rw [same, List.cons_append]

/-- Every line joins the section under way or begins the next. -/
theorem Reads.lines {lines : List Utf16} (reads : Reads lines split groups) (more : List Utf16) :
    ∃ later, Reads (lines ++ more) (more.foldl Split.line split) later := by
  induction more generalizing lines split groups with
  | nil => exact ⟨groups, by rwa [List.append_nil]⟩
  | cons line more ih =>
      obtain ⟨later, next⟩ := reads.line line
      rw [List.foldl_cons, List.append_cons]
      exact ih next

theorem splitIntoSections_groups (content : Utf16) :
    ∃ groups, groups ≠ [] ∧ splitIntoSections content = groups.map join ∧ Grouped (content.splitOn newline) groups := by
  obtain ⟨first, rest, lines⟩ := exists_splitOn_cons newline content
  have begins : Reads [first] (Split.line {} first) [] := by
    refine ⟨?_, ?_, ?_, ?_, ?_⟩ <;> simp [Split.line]
  obtain ⟨groups, sections, some, grouped⟩ := begins.lines rest
  rw [List.singleton_append, ← lines] at grouped
  refine ⟨groups ++ [_], by simp, ?_, grouped⟩
  rw [splitIntoSections, lines, List.foldl_cons, Split.finish, if_neg (by simpa using some), sections]
  simp

theorem splitIntoSections_sectioned (content : Utf16) : Sectioned content (splitIntoSections content) := by
  obtain ⟨groups, some, sections, whole, filled, begun⟩ := splitIntoSections_groups content
  have nonempty : ∀ group ∈ groups, group ≠ [] := by
    intro group member
    obtain ⟨first, rest, rfl, -⟩ := filled group member
    exact List.cons_ne_nil first rest
  have broken : ∀ group ∈ groups, (join group).splitOn newline = group := by
    intro group member
    refine List.splitOn_intercalate newline (fun line within => ?_) (nonempty group member)
    exact not_mem_of_mem_splitOn (whole ▸ List.mem_flatten_of_mem member within)
  rw [sections]
  refine ⟨by simpa using some, ?_, ?_, ?_⟩
  · rw [join_map_join nonempty, whole]
    exact List.intercalate_splitOn newline
  · rw [← List.map_tail]
    refine List.forall_mem_map.mpr fun group member => ?_
    rw [broken group (List.mem_of_mem_tail member)]
    exact begun group member
  · refine List.forall_mem_map.mpr fun group member => ?_
    rw [broken group member]
    obtain ⟨first, rest, rfl, plain⟩ := filled group member
    exact plain

/-- The longest run of leading sections within a budget. -/
structure LongestRun (sections : List Utf16) (budget : ℚ) (count : Nat) : Prop where
  within : count ≤ sections.length
  longest : ∀ other ≤ sections.length, ((join (sections.take other)).length : ℚ) ≤ budget ↔ other ≤ count

/-- The walk stops before the first section that does not fit. -/
theorem walkFrom_spec {budget : ℚ} {kept rest : List Utf16} (fits : ((join kept).length : ℚ) ≤ budget) :
    ∃ count ≤ rest.length,
      walkFrom budget kept (join kept).length rest = (kept ++ rest.take count, rest.length - count) ∧
      ((join (kept ++ rest.take count)).length : ℚ) ≤ budget ∧
      (count < rest.length → budget < (join (kept ++ rest.take (count + 1))).length) := by
  induction rest generalizing kept with
  | nil => exact ⟨0, le_rfl, by simp [walkFrom], by simpa using fits, nofun⟩
  | cons next rest ih =>
      have size := length_join_concat kept next
      by_cases exceeds : budget < (join (kept ++ [next])).length
      · refine ⟨0, Nat.zero_le _, ?_, by simpa using fits, fun _ => by simpa using exceeds⟩
        rw [walkFrom, ← size, if_pos exceeds]
        simp
      · obtain ⟨count, within, walk, ends, stops⟩ := ih (not_lt.mp exceeds)
        refine ⟨count + 1, Nat.succ_le_succ within, ?_, ?_, fun more => ?_⟩
        · rw [walkFrom, ← size, if_neg exceeds, walk]
          simp
        · simpa using ends
        · simpa using stops (by simpa using more)

theorem walkSections_spec {sections : List Utf16} {budget : ℚ} (room : 0 ≤ budget) :
    ∃ count, LongestRun sections budget count ∧
      walkSections sections budget = (sections.take count, sections.length - count) := by
  obtain ⟨count, within, walk, fits, stops⟩ := @walkFrom_spec budget [] sections (by simpa [join] using room)
  refine ⟨count, ⟨within, fun other inside => ?_⟩, walk⟩
  rw [List.nil_append] at fits
  constructor
  · intro small
    by_contra further
    have exceeds := stops (by omega)
    have grows : (join (sections.take (count + 1))).length ≤ (join (sections.take other)).length :=
      length_join_take_le sections (by omega)
    rw [List.nil_append] at exceeds
    exact absurd small (not_le.mpr (exceeds.trans_le (by exact_mod_cast grows)))
  · intro before
    exact le_trans (by exact_mod_cast length_join_take_le sections before) fits

theorem truncateSingleSection_prefix (text : Utf16) (maxChars : ℚ) : truncateSingleSection text maxChars <+: text := by
  rw [truncateSingleSection]
  split
  · exact List.prefix_rfl
  · dsimp only
    split
    · exact (List.take_prefix _ _).trans (List.take_prefix _ _)
    · split
      · exact (List.take_prefix _ _).trans (List.take_prefix _ _)
      · exact List.take_prefix _ _

theorem length_truncateSingleSection {text : Utf16} {maxChars : ℚ} (room : 0 ≤ maxChars) :
    ((truncateSingleSection text maxChars).length : ℚ) ≤ maxChars := by
  rw [truncateSingleSection]
  split
  · assumption
  · have slice : (((text.take maxChars.floor.toNat).length : Nat) : ℚ) ≤ maxChars := by
      have lower : 0 ≤ maxChars.floor := Rat.le_floor_iff.mpr (by simpa using room)
      have cast : ((maxChars.floor.toNat : ℤ) : ℚ) = maxChars.floor := by rw [Int.toNat_of_nonneg lower]
      have short : (text.take maxChars.floor.toNat).length ≤ maxChars.floor.toNat := List.length_take_le _ _
      calc ((text.take maxChars.floor.toNat).length : ℚ) ≤ ((maxChars.floor.toNat : ℤ) : ℚ) := by exact_mod_cast short
        _ = maxChars.floor := cast
        _ ≤ maxChars := Rat.floor_le maxChars
    have less : ∀ count, (((text.take maxChars.floor.toNat).take count).length : ℚ) ≤ maxChars := by
      intro count
      refine le_trans ?_ slice
      exact_mod_cast (List.take_prefix count _).length_le
    dsimp only
    split
    · exact less _
    · split
      · exact less _
      · exact slice

/-- A string of the script, which has at most 2^53 - 1 units. -/
structure Body where
  text : Utf16
  bounded : text.length < 2 ^ 53

theorem length_omittedMarker (below : omitted < 2 ^ 53) : (omittedMarker omitted).length ≤ 64 := by
  have digits := @length_decimal omitted 15 (below.trans (by decide))
  have front : (Utf16.ofString "\n\n[truncated: ").length = 14 := by decide +kernel
  have middle : (Utf16.ofString " section").length = 8 := by decide +kernel
  have plural : (Utf16.ofString (if omitted = 1 then "" else "s")).length ≤ 1 := by
    split <;> decide +kernel
  have back : (Utf16.ofString " omitted]").length = 9 := by decide +kernel
  simp only [omittedMarker, List.length_append, front, middle, back]
  omega

theorem length_cutMarker (below : omitted < 2 ^ 53) : (cutMarker omitted).length ≤ 64 := by
  rw [cutMarker]
  split
  · exact length_omittedMarker below
  · decide +kernel

/-- A first section that fits is followed by all the whole sections that fit. One that does not is cut. -/
structure Leads (sections : List Utf16) (reserve : ℚ) (head : Utf16) (omitted : Nat) : Prop where
  whole : (∀ first ∈ sections.head?, (first.length : ℚ) ≤ reserve) →
    ∃ count, LongestRun sections reserve count ∧ 0 < count ∧ count < sections.length ∧
      head = join (sections.take count) ∧ omitted = (sections.drop count).length
  cut : ∀ first ∈ sections.head?, reserve < first.length → head <+: first ∧ omitted = sections.tail.length

/-- What a truncation keeps of a content. -/
structure Keeps (content : Utf16) (maxChars : ℚ) (result : TruncateResult) : Prop where
  bounded : (result.body.length : ℚ) ≤ maxChars
  truncated : result.truncated = true ↔ maxChars < content.length
  unchanged : (content.length : ℚ) ≤ maxChars → result.body = content ∧ result.sectionsOmitted = 0
  sectioned : Sectioned content (splitIntoSections content)
  leads : maxChars < content.length → ∃ head, result.body = head ++ cutMarker result.sectionsOmitted ∧
    head <+: content ∧ (head.length : ℚ) ≤ maxChars - markerReserve ∧
      Leads (splitIntoSections content) (maxChars - markerReserve) head result.sectionsOmitted

theorem part_one_leads (sectioned : Sectioned content (first :: rest)) :
    first <+: content := by
  have front := join_take_le (first :: rest) 1
  rwa [sectioned.joined, List.take_succ_cons, List.take_zero, join, List.intercalate_singleton] at front

/-- There are no more sections than units. -/
theorem omitted_lt (body : Body) {sections : List Utf16} (sectioned : Sectioned body.text sections)
    (left : omitted < sections.length) : omitted < 2 ^ 53 := by
  have lines := length_le_length_join sections
  have bounded := body.bounded
  rw [sectioned.joined] at lines
  omega

/-- What a cut of a content that does not fit must be. -/
structure Shortens (content : Utf16) (sections : List Utf16) (reserve : ℚ) (result : TruncateResult) : Prop where
  truncated : result.truncated = true
  few : result.sectionsOmitted < sections.length
  leads : ∃ head, result.body = head ++ cutMarker result.sectionsOmitted ∧ head <+: content ∧
    (head.length : ℚ) ≤ reserve ∧ Leads sections reserve head result.sectionsOmitted

theorem shortens_overlong (room : 0 ≤ reserve) (sectioned : Sectioned content (first :: rest))
    (long : reserve < first.length) :
    Shortens content (first :: rest) reserve (truncateOverlongFirstSection first rest reserve) := by
  have cut := truncateSingleSection_prefix first reserve
  refine ⟨rfl, Nat.lt_succ_self _, _, rfl, cut.trans (part_one_leads sectioned), ?_, ?_, ?_⟩
  · exact length_truncateSingleSection room
  · intro fits
    exact absurd (fits first rfl) (not_le.mpr long)
  · rintro _ ⟨⟩ _
    exact ⟨cut, rfl⟩

theorem shortens_walk (room : 0 ≤ reserve) (sectioned : Sectioned content (first :: rest))
    (fits : (first.length : ℚ) ≤ reserve) (long : reserve < content.length) :
    Shortens content (first :: rest) reserve (keepSections (first :: rest) reserve) := by
  obtain ⟨count, run, walk⟩ := @walkSections_spec (first :: rest) reserve room
  have some : 0 < count := by
    refine (run.longest 1 (Nat.le_add_left 1 _)).mp ?_
    simpa [join] using fits
  have fewer : count < (first :: rest).length := by
    by_contra all
    have whole := (run.longest (first :: rest).length le_rfl).mpr (not_lt.mp all)
    rw [List.take_length, sectioned.joined] at whole
    exact absurd whole (not_le.mpr long)
  have left : 0 < (first :: rest).length - count := Nat.sub_pos_of_lt fewer
  have result : keepSections (first :: rest) reserve =
      ⟨join ((first :: rest).take count) ++ cutMarker ((first :: rest).length - count), true,
        (first :: rest).length - count⟩ := by
    rw [keepSections, walk, cutMarker, if_pos left]
    exact if_neg left.ne'
  rw [result]
  refine ⟨rfl, by dsimp only; omega, _, rfl, ?_, (run.longest count run.within).mpr le_rfl, ?_, ?_⟩
  · exact sectioned.joined ▸ join_take_le (first :: rest) count
  · intro _
    exact ⟨count, run, some, fewer, rfl, by rw [List.length_drop]⟩
  · rintro _ ⟨⟩ exceeds
    exact absurd fits (not_le.mpr exceeds)

/-- The reserve is what the limit leaves beside the widest marker. -/
theorem truncateMarkdownToBudget_keeps (body : Body) {maxChars : ℚ} (room : 64 ≤ maxChars) :
    Keeps body.text maxChars (truncateMarkdownToBudget body.text maxChars) := by
  have sectioned := splitIntoSections_sectioned body.text
  have positive : ¬maxChars ≤ 0 := by linarith
  by_cases fits : (body.text.length : ℚ) ≤ maxChars
  · rw [truncateMarkdownToBudget, if_neg positive, if_pos fits]
    exact ⟨fits, by simpa using fits, fun _ => ⟨rfl, rfl⟩, sectioned, fun long => absurd fits (not_le.mpr long)⟩
  · have long := not_le.mp fits
    have reserve : (0 : ℚ) ≤ maxChars - markerReserve := by
      rw [markerReserve]
      linarith
    have shortens : Shortens body.text (splitIntoSections body.text) (maxChars - markerReserve)
        (truncateMarkdownToBudget body.text maxChars) := by
      rw [truncateMarkdownToBudget, if_neg positive, if_neg fits, max_eq_right reserve]
      cases split : splitIntoSections body.text with
      | nil => exact absurd split sectioned.some
      | cons first rest =>
          rw [split] at sectioned
          rw [truncateSections]
          split_ifs with overlong
          · exact shortens_overlong reserve sectioned overlong
          · refine shortens_walk reserve sectioned (not_lt.mp overlong) (lt_trans ?_ long)
            rw [markerReserve]
            linarith
    obtain ⟨head, shown, front, short, leads⟩ := shortens.leads
    refine ⟨?_, by simpa [shortens.truncated] using long, fun within => absurd within fits, sectioned,
      fun _ => ⟨head, shown, front, short, leads⟩⟩
    have marker := length_cutMarker (omitted_lt body sectioned shortens.few)
    have wide : ((cutMarker (truncateMarkdownToBudget body.text maxChars).sectionsOmitted).length : ℚ) ≤ 64 := by
      exact_mod_cast marker
    rw [shown, List.length_append, Nat.cast_add]
    rw [markerReserve] at short
    linarith

/-- A skill with a rule that is too long for the rest of the budget. -/
def ruleBook : Body where
  text := Utf16.ofString ("# Use\nAsk first.\n# Rules\nNever send a message to a channel that the person has not named, " ++
    "and never twice.")
  bounded := by decide +kernel

theorem ruleBook_cut :
    truncateMarkdownToBudget ruleBook.text 96 =
        ⟨Utf16.ofString "# Use\nAsk first.\n\n[truncated: 1 section omitted]", true, 1⟩ ∧
      Keeps ruleBook.text 96 (truncateMarkdownToBudget ruleBook.text 96) :=
  ⟨by decide +kernel, truncateMarkdownToBudget_keeps ruleBook (by norm_num)⟩

end NimbleBrain.Engine.SkillTruncate
