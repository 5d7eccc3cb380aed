import NimbleBrain.Conversation.OperatorTurns

/- The summarizer reads a transcript of the folded messages. The transcript is bounded to its context. -/

namespace NimbleBrain.Conversation.Fence

open Library

inductive TranscriptRole where
  | system | user | assistant | tool
  deriving DecidableEq

def TranscriptRole.text : TranscriptRole → Utf16
  | .system => Utf16.ofString "system"
  | .user => Utf16.ofString "user"
  | .assistant => Utf16.ofString "assistant"
  | .tool => Utf16.ofString "tool"

structure TranscriptBlock where
  role : TranscriptRole
  body : Utf16
  deriving DecidableEq

structure BoundedBlocks where
  kept : List TranscriptBlock
  elided : Bool
  deriving DecidableEq

/-- The role tags and the line breaks around a block. -/
def blockWrapChars : Nat := (Utf16.ofString "<>\n\n</>\n").length

def wrapping (block : TranscriptBlock) : Nat := block.role.text.length * 2 + blockWrapChars

def blockChars (block : TranscriptBlock) : Nat := block.role.text.length * 2 + block.body.length + blockWrapChars

def truncatedBlock (budgetChars : ℚ) (block : TranscriptBlock) : TranscriptBlock :=
  { block with body := truncate block.body (max 0 (budgetChars - wrapping block)) }

/-- The newest blocks are kept first. A block that is too large is cut. -/
def boundNewest (budgetChars : ℚ) : List TranscriptBlock → List TranscriptBlock → Nat → Bool → BoundedBlocks
  | [], kept, _, elided => ⟨kept, elided⟩
  | block :: older, kept, usedChars, elided =>
      if kept ≠ [] ∧ budgetChars < usedChars + blockChars block then ⟨kept, true⟩
      else
        let oversized : Bool := budgetChars < blockChars block
        let bounded := if oversized then truncatedBlock budgetChars block else block
        let used := usedChars + blockChars bounded
        if budgetChars ≤ used ∧ older ≠ [] then ⟨bounded :: kept, true⟩
        else boundNewest budgetChars older (bounded :: kept) used (elided || oversized && !older.isEmpty)

def boundBlocks (blocks : List TranscriptBlock) (budgetTokens : ℚ) : BoundedBlocks :=
  boundNewest (budgetTokens * 4) blocks.reverse [] 0 false

def blockLines (block : TranscriptBlock) : List Utf16 :=
  [Utf16.ofString "<" ++ block.role.text ++ Utf16.ofString ">", block.body,
    Utf16.ofString "</" ++ block.role.text ++ Utf16.ofString ">"]

/-- Without a budget every block is rendered. -/
def formatTranscript (blocks : List TranscriptBlock) (budgetTokens : Option ℚ) : Utf16 :=
  let bounded := budgetTokens.elim ⟨blocks, false⟩ (boundBlocks blocks)
  [10].intercalate <|
    [Utf16.ofString "<conversation-transcript>"] ++
      (if bounded.elided then [Utf16.ofString "[…older history elided to fit the summarizer's context…]"] else []) ++
      bounded.kept.flatMap blockLines ++ [Utf16.ofString "</conversation-transcript>"]

/-- What the blocks take of a transcript, each line with its break. -/
def renderedOf (blocks : List TranscriptBlock) : Utf16 := (blocks.flatMap blockLines).flatMap (· ++ [10])

/-- The kept blocks are the newest, the oldest of them possibly cut, and they fit the budget. -/
structure Bounded (blocks : List TranscriptBlock) (budgetTokens : ℚ) (bounded : BoundedBlocks) : Prop where
  parts : ∃ older newer, blocks = older ++ newer ∧ (bounded.elided = true ↔ older ≠ []) ∧
    (bounded.kept = newer ∨ ∃ block rest room, newer = block :: rest ∧
      bounded.kept = { block with body := truncate block.body room } :: rest)
  newest : blocks ≠ [] → bounded.kept ≠ []
  within : ((renderedOf bounded.kept).length : ℚ) ≤ budgetTokens * 4

def charsOf (blocks : List TranscriptBlock) : Nat := (blocks.map blockChars).sum

theorem charsOf_cons (block : TranscriptBlock) (blocks : List TranscriptBlock) :
    charsOf (block :: blocks) = blockChars block + charsOf blocks := by
  simp [charsOf]

theorem blockWrapChars_eq : blockWrapChars = 8 := by decide

theorem length_renderedOf (blocks : List TranscriptBlock) : (renderedOf blocks).length = charsOf blocks := by
  have opening : (Utf16.ofString "<").length = 1 := by decide
  have ending : (Utf16.ofString "</").length = 2 := by decide
  have closing : (Utf16.ofString ">").length = 1 := by decide
  induction blocks with
  | nil => rfl
  | cons block blocks ih =>
      have first : renderedOf (block :: blocks) = (blockLines block).flatMap (· ++ [10]) ++ renderedOf blocks := by
        rw [renderedOf, List.flatMap_cons, List.flatMap_append]
        rfl
      rw [first, List.length_append, ih, charsOf_cons, blockChars, blockWrapChars_eq]
      simp only [blockLines, List.flatMap_cons, List.flatMap_nil, List.length_append, List.length_nil,
        List.length_singleton, opening, ending, closing]
      omega

/-- A block that is cut takes one unit more than its budget, for the ellipsis. -/
theorem blockChars_truncatedBlock {budgetChars : ℚ} {block : TranscriptBlock}
    (large : budgetChars < blockChars block) : budgetChars < blockChars (truncatedBlock budgetChars block) := by
  have whole : ∀ body : Utf16, blockChars { block with body := body } = wrapping block + body.length := by
    intro body
    rw [wrapping, Nat.add_right_comm]
    rfl
  have room : max 0 (budgetChars - wrapping block) < (block.body.length : ℚ) ∨ budgetChars < wrapping block := by
    by_cases narrow : budgetChars < wrapping block
    · exact .inr narrow
    · left
      have size : (blockChars block : ℚ) = wrapping block + block.body.length := by exact_mod_cast whole block.body
      rw [max_eq_right (by linarith)]
      linarith
  rw [truncatedBlock, whole, Nat.cast_add]
  rcases room with long | narrow
  · have above := lt_length_truncate (le_max_left 0 _) long
    have most := le_max_right 0 (budgetChars - wrapping block)
    linarith
  · have nonneg : (0 : ℚ) ≤ ((truncate block.body (max 0 (budgetChars - wrapping block))).length : ℚ) :=
      Nat.cast_nonneg _
    linarith

variable {budgetChars : ℚ}

/-- Past its first block, the walk keeps whole blocks while they fit. -/
theorem boundNewest_spec (older newer : List TranscriptBlock) (some : newer ≠ [])
    (fits : (charsOf newer : ℚ) ≤ budgetChars) :
    ∃ dropped taken, older.reverse = dropped ++ taken ∧
      (boundNewest budgetChars older newer (charsOf newer) false).kept = taken ++ newer ∧
      ((boundNewest budgetChars older newer (charsOf newer) false).elided = true ↔ dropped ≠ []) ∧
      (charsOf (taken ++ newer) : ℚ) ≤ budgetChars := by
  induction older generalizing newer with
  | nil => exact ⟨[], [], rfl, rfl, by simp [boundNewest], fits⟩
  | cons block older ih =>
      rw [boundNewest]
      split
      · exact ⟨older.reverse ++ [block], [], by simp, rfl, by simp, fits⟩
      · next room =>
          have within : (charsOf newer + blockChars block : ℚ) ≤ budgetChars :=
            not_lt.mp fun above => room ⟨some, above⟩
          have nonneg : (0 : ℚ) ≤ charsOf newer := Nat.cast_nonneg _
          have small : decide (budgetChars < blockChars block) = false :=
            decide_eq_false (not_lt.mpr (by linarith))
          have longer : charsOf newer + blockChars block = charsOf (block :: newer) := by
            rw [charsOf_cons, Nat.add_comm]
          have fits : (charsOf (block :: newer) : ℚ) ≤ budgetChars := by
            rw [← longer]
            exact_mod_cast within
          simp only [small, Bool.false_eq_true, if_false, Bool.false_and, Bool.or_false, longer]
          split
          · next full =>
              have more : older.reverse ≠ [] := fun none => full.2 (List.reverse_eq_nil_iff.mp none)
              exact ⟨older.reverse, [block], by simp, rfl, by simp [full.2], fits⟩
          · obtain ⟨dropped, taken, parts, kept, elided, within⟩ := ih (block :: newer) (List.cons_ne_nil _ _) fits
            refine ⟨dropped, taken ++ [block], ?_, ?_, elided, ?_⟩
            · rw [List.reverse_cons, parts, List.append_assoc]
            · rw [kept, List.append_assoc]
              rfl
            · rw [List.append_assoc]
              exact within

/-- A newest block that fits is kept whole, with the blocks before it that fit beside it. -/
theorem boundNewest_fits {older : List TranscriptBlock} {newest : TranscriptBlock}
    (fits : (blockChars newest : ℚ) ≤ budgetChars) :
    ∃ dropped taken, older.reverse = dropped ++ taken ∧
      (boundNewest budgetChars (newest :: older) [] 0 false).kept = taken ++ [newest] ∧
      ((boundNewest budgetChars (newest :: older) [] 0 false).elided = true ↔ dropped ≠ []) ∧
      (charsOf (taken ++ [newest]) : ℚ) ≤ budgetChars := by
  have single : charsOf [newest] = blockChars newest := by rw [charsOf_cons]; rfl
  have small : decide (budgetChars < blockChars newest) = false := decide_eq_false (not_lt.mpr fits)
  rw [boundNewest, if_neg (fun full => full.1 rfl)]
  simp only [small, Bool.false_eq_true, if_false, Bool.false_and, Bool.or_false, Nat.zero_add]
  rw [← single] at fits ⊢
  split
  · next full =>
      exact ⟨older.reverse, [], by simp, rfl, by simp [full.2], fits⟩
  · exact boundNewest_spec older [newest] (List.cons_ne_nil _ _) fits

/-- A newest block that does not fit is cut and kept alone. -/
theorem boundNewest_large {older : List TranscriptBlock} {newest : TranscriptBlock}
    (large : budgetChars < blockChars newest) :
    boundNewest budgetChars (newest :: older) [] 0 false =
      ⟨[truncatedBlock budgetChars newest], !older.isEmpty⟩ := by
  have above := blockChars_truncatedBlock large
  rw [boundNewest, if_neg (fun full => full.1 rfl)]
  simp only [decide_eq_true large, if_true, Bool.true_and, Bool.false_or, Nat.zero_add]
  cases older with
  | nil => simp [boundNewest]
  | cons block older =>
      rw [if_pos ⟨above.le, List.cons_ne_nil _ _⟩]
      rfl

theorem Bounded.of_nil {budgetTokens : ℚ} : Bounded [] budgetTokens (boundBlocks [] budgetTokens) ↔
    0 ≤ budgetTokens := by
  constructor
  · intro bounded
    have within := bounded.within
    change ((0 : ℕ) : ℚ) ≤ budgetTokens * 4 at within
    push_cast at within
    linarith
  · intro nonneg
    exact {
      parts := ⟨[], [], rfl, by simp [boundBlocks, boundNewest], .inl rfl⟩
      newest := fun some => absurd rfl some
      within := by
        change ((0 : ℕ) : ℚ) ≤ budgetTokens * 4
        push_cast
        linarith }

/-- The blocks are bounded exactly when the newest of them fits the budget whole. -/
theorem boundBlocks_bounded (blocks : List TranscriptBlock) (budgetTokens : ℚ) :
    Bounded blocks budgetTokens (boundBlocks blocks budgetTokens) ↔
      0 ≤ budgetTokens ∧ ∀ newest ∈ blocks.getLast?, (blockChars newest : ℚ) ≤ budgetTokens * 4 := by
  rcases List.eq_nil_or_concat blocks with rfl | ⟨before, newest, rfl⟩
  · rw [Bounded.of_nil]
    exact ⟨fun nonneg => ⟨nonneg, nofun⟩, And.left⟩
  · rw [List.concat_eq_append, List.getLast?_concat]
    have reversed : boundBlocks (before ++ [newest]) budgetTokens =
        boundNewest (budgetTokens * 4) (newest :: before.reverse) [] 0 false := by
      rw [boundBlocks, List.reverse_append]
      rfl
    rw [reversed]
    constructor
    · intro bounded
      have fits : (blockChars newest : ℚ) ≤ budgetTokens * 4 := by
        by_contra large
        have above := blockChars_truncatedBlock (not_le.mp large)
        have within := bounded.within
        rw [boundNewest_large (not_le.mp large), length_renderedOf, charsOf_cons] at within
        change ((blockChars (truncatedBlock (budgetTokens * 4) newest) + 0 : ℕ) : ℚ) ≤ _ at within
        push_cast at within
        linarith
      have nonneg : (0 : ℚ) ≤ blockChars newest := Nat.cast_nonneg _
      exact ⟨by linarith, fun other last => Option.some.inj last ▸ fits⟩
    · rintro ⟨-, fits⟩
      obtain ⟨dropped, taken, parts, kept, elided, within⟩ :=
        @boundNewest_fits (budgetTokens * 4) before.reverse newest (fits newest rfl)
      rw [List.reverse_reverse] at parts
      exact {
        parts := ⟨dropped, taken ++ [newest], by rw [parts, List.append_assoc], elided, .inl kept⟩
        newest := fun _ => by
          rw [kept]
          exact List.append_ne_nil_of_right_ne_nil _ (List.cons_ne_nil _ _)
        within := by
          rw [kept, length_renderedOf]
          exact within }

/-- A newest block that does not fit is all that is kept. -/
theorem boundBlocks_large {before : List TranscriptBlock} {newest : TranscriptBlock} {budgetTokens : ℚ}
    (large : budgetTokens * 4 < blockChars newest) :
    boundBlocks (before ++ [newest]) budgetTokens =
      ⟨[truncatedBlock (budgetTokens * 4) newest], !before.isEmpty⟩ := by
  rw [boundBlocks, List.reverse_append]
  change boundNewest _ (newest :: before.reverse) [] 0 false = _
  rw [boundNewest_large large, List.isEmpty_reverse]

/-- One message of a hundred characters, and room for forty. -/
def largeBlock : TranscriptBlock := ⟨.user, List.replicate 100 97⟩

theorem boundBlocks_overfull :
    ¬ ∀ (blocks : List TranscriptBlock) (budgetTokens : ℚ), 0 ≤ budgetTokens →
      (∀ block ∈ blocks, (wrapping block : ℚ) ≤ budgetTokens * 4) →
        Bounded blocks budgetTokens (boundBlocks blocks budgetTokens) := by
  intro all
  have wraps : wrapping largeBlock = 16 := by decide
  have size : blockChars largeBlock = 116 := by decide
  have covers : ∀ block ∈ [largeBlock], (wrapping block : ℚ) ≤ 10 * 4 := by
    intro block member
    rw [List.mem_singleton.mp member, wraps]
    norm_num
  have within := (all [largeBlock] 10 (by norm_num) covers).within
  have large : (10 : ℚ) * 4 < blockChars largeBlock := by rw [size]; norm_num
  have cut := @boundBlocks_large [] largeBlock 10 large
  rw [List.nil_append] at cut
  rw [cut, length_renderedOf, charsOf_cons] at within
  have above := blockChars_truncatedBlock large
  change ((blockChars (truncatedBlock (10 * 4) largeBlock) + 0 : ℕ) : ℚ) ≤ _ at within
  push_cast at within
  linarith

end NimbleBrain.Conversation.Fence
