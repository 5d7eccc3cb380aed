import Mathlib.Data.Rat.Floor
import NimbleBrain.Library.JsonText

/- Untrusted text cannot close the fence it stands in. Escaping it twice is escaping it once. -/

namespace NimbleBrain.Conversation.Fence

open Library

/-- The white space of a regular expression and of `trim`. -/
def isSpace (unit : UInt16) : Bool :=
  unit ∈ [0x20, 0xa0, 0x1680, 0x2028, 0x2029, 0x202f, 0x205f, 0x3000, 0xfeff] || (9 ≤ unit && unit ≤ 13) ||
    (0x2000 ≤ unit && unit ≤ 0x200a)

def trim (text : Utf16) : Utf16 := ((text.dropWhile isSpace).reverse.dropWhile isSpace).reverse

/-- White space, if any, and then a slash. -/
def pastSlash : Utf16 → Option Utf16
  | [] => none
  | unit :: rest => if unit = 47 then some rest else if isSpace unit then pastSlash rest else none

/-- The rest of the text past an opening bracket, white space and a slash. -/
def pastClosing : Utf16 → Option Utf16
  | [] => none
  | unit :: rest => if unit = 60 then pastSlash rest else none

def escapedClosing : Utf16 := Utf16.ofString "&lt;/"

/-- Every match is replaced. A match takes a unit at least, so the length of the text is fuel enough. -/
def replaceClosings : Nat → Utf16 → Utf16
  | 0, text => text
  | _ + 1, [] => []
  | fuel + 1, unit :: rest =>
      match pastClosing (unit :: rest) with
      | some after => escapedClosing ++ replaceClosings fuel after
      | none => unit :: replaceClosings fuel rest

def escapeClosingTags (value : Utf16) : Utf16 := replaceClosings value.length value

def ellipsis : UInt16 := 0x2026

def truncate (text : Utf16) (max : ℚ) : Utf16 :=
  if max < text.length then text.take max.floor.toNat ++ [ellipsis] else text

/-- The text still holds a closing tag. -/
def hasClosing : Utf16 → Bool
  | [] => false
  | unit :: rest => (pastClosing (unit :: rest)).isSome || hasClosing rest

variable {unit : UInt16} {after text : Utf16} {fuel : Nat}

theorem pastClosing_other (other : unit ≠ 60) (rest : Utf16) : pastClosing (unit :: rest) = none := by
  rw [pastClosing, if_neg other]

/-- A match leaves less than the text. -/
theorem length_pastSlash (past : pastSlash text = some after) : after.length < text.length := by
  induction text with
  | nil => cases past
  | cons unit rest ih =>
      rw [pastSlash] at past
      split_ifs at past
      · rw [← Option.some.inj past]
        exact Nat.lt_succ_self _
      · exact (ih past).trans (Nat.lt_succ_self _)

theorem length_pastClosing (past : pastClosing text = some after) :
    after.length < text.length := by
  cases text with
  | nil => cases past
  | cons unit rest =>
      rw [pastClosing] at past
      split_ifs at past
      exact (length_pastSlash past).trans (Nat.lt_succ_self _)

/-- A slash that a start of the text leads to is one that the text leads to. -/
theorem pastSlash_take {count : Nat} (past : (pastSlash (text.take count)).isSome = true) :
    (pastSlash text).isSome = true := by
  induction text generalizing count with
  | nil => simp [pastSlash] at past
  | cons unit rest ih =>
      cases count with
      | zero => simp [pastSlash] at past
      | succ count =>
          rw [List.take_succ_cons, pastSlash] at past
          rw [pastSlash]
          split_ifs at past ⊢
          · rfl
          · exact ih past
          · exact past

theorem pastSlash_ellipsis (past : (pastSlash (text ++ [ellipsis])).isSome = true) :
    (pastSlash text).isSome = true := by
  induction text with
  | nil => exact absurd past (by decide)
  | cons unit rest ih =>
      rw [List.cons_append, pastSlash] at past
      rw [pastSlash]
      split_ifs at past ⊢
      · rfl
      · exact ih past
      · exact past

theorem escapedClosing_eq : escapedClosing = [38, 108, 116, 59, 47] := by decide

theorem pastSlash_replaceClosings (past : (pastSlash (replaceClosings fuel text)).isSome = true) :
    (pastSlash text).isSome = true := by
  induction fuel generalizing text with
  | zero => exact past
  | succ fuel ih =>
      cases text with
      | nil => exact past
      | cons unit rest =>
          rw [replaceClosings] at past
          split at past
          · rw [escapedClosing_eq] at past
            exact absurd past Bool.false_ne_true
          · rw [pastSlash] at past ⊢
            split_ifs at past ⊢
            · rfl
            · exact ih past
            · exact past

theorem pastClosing_mono {before : Utf16} (none : pastClosing (unit :: before) = none)
    (fewer : (pastSlash after).isSome = true → (pastSlash before).isSome = true) :
    pastClosing (unit :: after) = Option.none := by
  rw [pastClosing] at none ⊢
  split_ifs at none ⊢
  · cases past : pastSlash after with
    | none => rfl
    | some _ =>
        have found := fewer (by rw [past]; rfl)
        rw [none] at found
        cases found
  · rfl

theorem hasClosing_cons {rest : Utf16} :
    hasClosing (unit :: rest) = false ↔ pastClosing (unit :: rest) = none ∧ hasClosing rest = false := by
  rw [hasClosing, Bool.or_eq_false_iff, Option.isSome_eq_false_iff, Option.isNone_iff_eq_none]

theorem hasClosing_escaped (text : Utf16) : hasClosing (escapedClosing ++ text) = hasClosing text := by
  rw [escapedClosing_eq]
  simp only [List.cons_append, List.nil_append, hasClosing]
  rw [pastClosing_other (by decide), pastClosing_other (by decide), pastClosing_other (by decide),
    pastClosing_other (by decide), pastClosing_other (by decide)]
  rfl

/-- Nothing of an escaped text closes a tag. -/
theorem hasClosing_replaceClosings (enough : text.length ≤ fuel) :
    hasClosing (replaceClosings fuel text) = false := by
  induction fuel generalizing text with
  | zero => rw [List.length_eq_zero_iff.mp (Nat.le_zero.mp enough), replaceClosings, hasClosing]
  | succ fuel ih =>
      cases text with
      | nil => rfl
      | cons unit rest =>
          rw [replaceClosings]
          rw [List.length_cons] at enough
          split
          · next after past =>
              have shorter := length_pastClosing past
              rw [List.length_cons] at shorter
              rw [hasClosing_escaped]
              exact ih (by omega)
          · next none =>
              rw [hasClosing_cons]
              exact ⟨pastClosing_mono none pastSlash_replaceClosings, ih (by omega)⟩

theorem hasClosing_escapeClosingTags (value : Utf16) : hasClosing (escapeClosingTags value) = false :=
  hasClosing_replaceClosings le_rfl

/-- A text without closing tags is left as it is. -/
theorem replaceClosings_of_clean (clean : hasClosing text = false) :
    replaceClosings fuel text = text := by
  induction fuel generalizing text with
  | zero => rfl
  | succ fuel ih =>
      cases text with
      | nil => rfl
      | cons unit rest =>
          obtain ⟨none, clean⟩ := hasClosing_cons.mp clean
          rw [replaceClosings, none]
          exact congrArg _ (ih clean)

theorem escapeClosingTags_of_clean (clean : hasClosing text = false) : escapeClosingTags text = text :=
  replaceClosings_of_clean clean

theorem escapeClosingTags_idem (value : Utf16) :
    escapeClosingTags (escapeClosingTags value) = escapeClosingTags value :=
  escapeClosingTags_of_clean (hasClosing_escapeClosingTags value)

theorem hasClosing_take (clean : hasClosing text = false) (count : Nat) :
    hasClosing (text.take count) = false := by
  induction text generalizing count with
  | nil => simpa using clean
  | cons unit rest ih =>
      cases count with
      | zero => rfl
      | succ count =>
          obtain ⟨none, clean⟩ := hasClosing_cons.mp clean
          rw [List.take_succ_cons, hasClosing_cons]
          exact ⟨pastClosing_mono none pastSlash_take, ih clean count⟩

theorem hasClosing_ellipsis (clean : hasClosing text = false) :
    hasClosing (text ++ [ellipsis]) = false := by
  induction text with
  | nil => decide
  | cons unit rest ih =>
      obtain ⟨none, clean⟩ := hasClosing_cons.mp clean
      rw [List.cons_append, hasClosing_cons]
      exact ⟨pastClosing_mono none pastSlash_ellipsis, ih clean⟩

variable {text : Utf16} {max : ℚ}

/-- A cut through an escaped text opens no closing tag. -/
theorem hasClosing_truncate (clean : hasClosing text = false) (max : ℚ) : hasClosing (truncate text max) = false := by
  unfold truncate
  split
  · exact hasClosing_ellipsis (hasClosing_take clean _)
  · exact clean

theorem escapeClosingTags_truncate (value : Utf16) (max : ℚ) :
    escapeClosingTags (truncate (escapeClosingTags value) max) = truncate (escapeClosingTags value) max :=
  escapeClosingTags_of_clean (hasClosing_truncate (hasClosing_escapeClosingTags value) max)

/-- A text that is cut takes one unit more than the room for it. -/
theorem length_truncate_long (nonneg : 0 ≤ max) (long : max < text.length) :
    (truncate text max).length = max.floor.toNat + 1 := by
  have floored : (max.floor : ℚ) ≤ max := Rat.floor_le max
  have lower : 0 ≤ max.floor := Rat.le_floor_iff.mpr (by simpa using nonneg)
  have shorter : max.floor.toNat ≤ text.length := by
    have below : (max.floor : ℚ) < text.length := lt_of_le_of_lt floored long
    have below : max.floor < text.length := by exact_mod_cast below
    omega
  rw [truncate, if_pos long, List.length_append, List.length_take, Nat.min_eq_left shorter, List.length_singleton]

theorem length_truncate_le (nonneg : 0 ≤ max) (long : max < text.length) :
    ((truncate text max).length : ℚ) ≤ max + 1 := by
  have lower : 0 ≤ max.floor := Rat.le_floor_iff.mpr (by simpa using nonneg)
  have cast : ((max.floor.toNat : ℤ) : ℚ) = max.floor := by rw [Int.toNat_of_nonneg lower]
  rw [length_truncate_long nonneg long, Nat.cast_add, Nat.cast_one, ← Int.cast_natCast, cast]
  exact add_le_add_left (Rat.floor_le max) 1

theorem lt_length_truncate (nonneg : 0 ≤ max) (long : max < text.length) : max < (truncate text max).length := by
  have lower : 0 ≤ max.floor := Rat.le_floor_iff.mpr (by simpa using nonneg)
  have cast : ((max.floor.toNat : ℤ) : ℚ) = max.floor := by rw [Int.toNat_of_nonneg lower]
  rw [length_truncate_long nonneg long, Nat.cast_add, Nat.cast_one, ← Int.cast_natCast, cast]
  exact_mod_cast Rat.lt_floor_add_one max

end NimbleBrain.Conversation.Fence
