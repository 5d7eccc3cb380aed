import Mathlib.Data.Nat.Digits.Defs
import NimbleBrain.Conversation.Text
import NimbleBrain.Library.JsonText

/- A tool result is bounded before the model sees it. The note about the cut is reserved inside the bound. -/

namespace NimbleBrain.Engine

open Library
open Conversation (localeDigits toLocaleString)

/-- The text before its last line break. -/
def beforeLastNewline (text : Utf16) : Utf16 := ((text.reverse.dropWhile (· != 10)).drop 1).reverse

/-- A cut on a line, where that keeps more than half of the room. -/
def sliceOnLineBoundary (text : Utf16) (limit : Nat) : Utf16 :=
  if text.length ≤ limit then text
  else
    let slice := text.take limit
    if limit < 2 * (beforeLastNewline slice).length then beforeLastNewline slice else slice

/-- A number in the fixed locale. -/
def localeText (count : Nat) : Utf16 := Utf16.ofString (toLocaleString count)

def pointer (size : Nat) : Utf16 :=
  Utf16.ofString "[Tool completed successfully. Result (" ++ localeText size ++
    Utf16.ofString (" chars) is displayed in the inline UI. Do not ask the user to view it separately — it is " ++
      "already visible.]")

def marker (size shown omitted : Nat) : Utf16 :=
  Utf16.ofString "\n\n[Result bounded for model context: showing " ++ localeText shown ++ Utf16.ofString " of " ++
    localeText size ++ Utf16.ofString " chars (" ++ localeText omitted ++
      Utf16.ofString (" omitted). The full result is on the user's screen. Re-query with a filter, a narrower " ++
        "scope, or a pagination cursor to bring specific items into context.]")

/-- What is left of the limit beside the marker at its widest. -/
def headBudget (size : Nat) (limit : Int) : Int := limit - (marker size limit.toNat size).length

/-- No limit bounds nothing. A limit too small for the marker gives a plain slice. -/
def boundToolResultForModel (text : Utf16) (hasUiResource : Bool) (limit : Int) : Utf16 :=
  if limit ≤ 0 ∨ text.length ≤ limit then text
  else if hasUiResource then (pointer text.length).take limit.toNat
  else if headBudget text.length limit ≤ 0 then text.take limit.toNat
  else
    let head := sliceOnLineBoundary text (headBudget text.length limit).toNat
    head ++ marker text.length head.length (text.length - head.length)

theorem length_localeDigits (digits : List Char) :
    (localeDigits digits).length = digits.length + (digits.length - 1) / 3 := by
  fun_induction localeDigits digits with
  | case1 first second third next rest ih =>
      simp only [List.length_cons] at ih ⊢
      omega
  | case2 short none =>
      have few : short.length ≤ 3 := by
        rcases short with _ | ⟨first, _ | ⟨second, _ | ⟨third, _ | ⟨next, rest⟩⟩⟩⟩
        · simp
        · simp
        · simp
        · simp
        · exact absurd rfl (none first second third next rest)
      omega

variable {char : Char}

theorem mem_localeDigits {digits : List Char} (member : char ∈ localeDigits digits) :
    char ∈ digits ∨ char = ',' := by
  fun_induction localeDigits digits with
  | case1 first second third next rest ih =>
      simp only [List.mem_cons] at member ih ⊢
      tauto
  | case2 short none => exact .inl member

theorem length_unitsOf (basic : char.toNat < 65536) : (Utf16.unitsOf char).length = 1 := by
  rw [Utf16.unitsOf, if_pos basic]
  rfl

/-- The digits and the commas take one unit each. -/
theorem length_localeText (count : Nat) :
    (localeText count).length = (Nat.toDigits 10 count).length + ((Nat.toDigits 10 count).length - 1) / 3 := by
  have basic : ∀ char ∈ (localeDigits (Nat.toDigits 10 count).reverse).reverse,
      (Utf16.unitsOf char).length = 1 := by
    intro char member
    apply length_unitsOf
    rcases mem_localeDigits (List.mem_reverse.mp member) with digit | rfl
    · have isDigit := Nat.isDigit_of_mem_toDigits (by decide) (by decide) (List.mem_reverse.mp digit)
      simp only [Char.isDigit, Bool.and_eq_true, decide_eq_true_eq] at isDigit
      have upper : char.toNat ≤ 57 := isDigit.2
      omega
    · decide
  rw [localeText, Utf16.ofString, toLocaleString, String.toList_ofList, List.length_flatMap,
    List.map_congr_left basic]
  simp [length_localeDigits]

/-- A larger number is never written shorter. -/
theorem length_localeText_mono {small large : Nat} (le : small ≤ large) :
    (localeText small).length ≤ (localeText large).length := by
  have digits : (Nat.toDigits 10 small).length ≤ (Nat.toDigits 10 large).length := by
    rw [Nat.length_toDigits_le_iff (by decide) Nat.length_toDigits_pos]
    exact Nat.lt_of_le_of_lt le ((Nat.length_toDigits_le_iff (by decide) Nat.length_toDigits_pos).mp le_rfl)
  rw [length_localeText, length_localeText]
  omega

theorem length_marker_mono {size shown omitted shown' omitted' : Nat} (less : shown ≤ shown')
    (fewer : omitted ≤ omitted') : (marker size shown omitted).length ≤ (marker size shown' omitted').length := by
  have first := length_localeText_mono less
  have second := length_localeText_mono fewer
  simp only [marker, List.length_append]
  omega

theorem beforeLastNewline_isPrefix (text : Utf16) : beforeLastNewline text <+: text := by
  have suffix : (text.reverse.dropWhile (· != 10)).drop 1 <:+ text.reverse :=
    (List.drop_suffix ..).trans (List.dropWhile_suffix _)
  simpa [beforeLastNewline] using List.reverse_prefix.mpr suffix

theorem sliceOnLineBoundary_isPrefix (text : Utf16) (limit : Nat) : sliceOnLineBoundary text limit <+: text := by
  unfold sliceOnLineBoundary
  split
  · exact List.prefix_rfl
  · dsimp only
    split
    · exact (beforeLastNewline_isPrefix _).trans (List.take_prefix ..)
    · exact List.take_prefix ..

theorem length_sliceOnLineBoundary (text : Utf16) (limit : Nat) :
    (sliceOnLineBoundary text limit).length ≤ limit := by
  unfold sliceOnLineBoundary
  split
  · assumption
  · dsimp only
    have taken : (text.take limit).length ≤ limit := by simp
    split
    · exact (beforeLastNewline_isPrefix _).length_le.trans taken
    · exact taken

variable {text : Utf16} {hasUiResource : Bool} {limit : Int}

theorem boundToolResultForModel_fits (fits : limit ≤ 0 ∨ text.length ≤ limit) :
    boundToolResultForModel text hasUiResource limit = text := by
  rw [boundToolResultForModel, if_pos fits]

/-- A result that was cut is a start of the pointer, a start of the text, or a start of it with the marker. -/
inductive Cut (text : Utf16) (limit : Int) : Bool → Utf16 → Prop where
  | pointed : Cut text limit true ((pointer text.length).take limit.toNat)
  | sliced (narrow : headBudget text.length limit ≤ 0) : Cut text limit false (text.take limit.toNat)
  | marked (head : Utf16) (omitted : Nat) (wide : 0 < headBudget text.length limit) (isPrefix : head <+: text)
      (within : head.length ≤ headBudget text.length limit) (whole : head.length + omitted = text.length) :
      Cut text limit false (head ++ marker text.length head.length omitted)

theorem boundToolResultForModel_cut (positive : 0 < limit) (long : limit < text.length) :
    Cut text limit hasUiResource (boundToolResultForModel text hasUiResource limit) := by
  rw [boundToolResultForModel, if_neg (by omega)]
  cases hasUiResource with
  | true => exact .pointed
  | false =>
      rw [if_neg Bool.false_ne_true]
      split
      · exact .sliced ‹_›
      · next wide =>
          have isPrefix := sliceOnLineBoundary_isPrefix text (headBudget text.length limit).toNat
          have within := length_sliceOnLineBoundary text (headBudget text.length limit).toNat
          exact .marked _ _ (not_le.mp wide) isPrefix (by omega) (Nat.add_sub_cancel' isPrefix.length_le)

/-- The marker fits in what was reserved for it. -/
theorem Cut.length_le {bounded : Utf16} (cut : Cut text limit hasUiResource bounded) (positive : 0 < limit)
    (long : limit < text.length) : bounded.length ≤ limit := by
  cases cut with
  | pointed =>
      rw [List.length_take]
      omega
  | sliced narrow =>
      rw [List.length_take]
      omega
  | marked head omitted _ _ within whole =>
      unfold headBudget at within
      have reserved : (marker text.length head.length omitted).length ≤
          (marker text.length limit.toNat text.length).length :=
        length_marker_mono (by omega) (by omega)
      rw [List.length_append]
      omega

theorem length_boundToolResultForModel (positive : 0 < limit) :
    (boundToolResultForModel text hasUiResource limit).length ≤ limit := by
  by_cases fits : text.length ≤ limit
  · rwa [boundToolResultForModel_fits (.inr fits)]
  · exact (boundToolResultForModel_cut positive (not_le.mp fits)).length_le positive (not_le.mp fits)

/-- What bounding a result gives. Bounding it again changes nothing. -/
structure Projects (text : Utf16) (hasUiResource : Bool) (limit : Int) (bounded : Utf16) : Prop where
  within : 0 < limit → bounded.length ≤ limit
  unchanged : text.length ≤ limit → bounded = text
  unbounded : limit ≤ 0 → bounded = text
  again : ∀ other larger, limit ≤ larger → 0 < limit ∨ larger ≤ 0 →
    boundToolResultForModel bounded other larger = bounded
  cut : 0 < limit → limit < text.length → Cut text limit hasUiResource bounded

theorem bound_projects (text : Utf16) (hasUiResource : Bool) (limit : Int) :
    Projects text hasUiResource limit (boundToolResultForModel text hasUiResource limit) where
  within := length_boundToolResultForModel
  unchanged fits := boundToolResultForModel_fits (.inr fits)
  unbounded none := boundToolResultForModel_fits (.inl none)
  again other larger le bounds := by
    rcases bounds with positive | none
    · exact boundToolResultForModel_fits (.inr ((length_boundToolResultForModel positive).trans le))
    · exact boundToolResultForModel_fits (.inl none)
  cut := boundToolResultForModel_cut

/-- No limit at all is below every limit, yet it bounds nothing. -/
theorem bound_not_projects :
    ¬ ∀ (text : Utf16) (hasUiResource : Bool) (limit larger : Int), limit ≤ larger →
      boundToolResultForModel (boundToolResultForModel text hasUiResource limit) hasUiResource larger =
        boundToolResultForModel text hasUiResource limit := by
  intro again
  have cut := congrArg List.length (again (Utf16.ofString "ab") true 0 1 (by decide))
  revert cut
  decide +kernel

end NimbleBrain.Engine
