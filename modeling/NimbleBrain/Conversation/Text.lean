import Mathlib.Algebra.Ring.Nat
import Mathlib.Data.List.Basic

/- Text that enters a prompt is measured in UTF-16 units, fenced and bounded. -/

namespace NimbleBrain.Conversation

/-- The white space of a regular expression and of `trim`. -/
def isSpace (char : Char) : Bool :=
  char.val ∈ [0x20, 0xa0, 0x1680, 0x2028, 0x2029, 0x202f, 0x205f, 0x3000, 0xfeff] ||
    (9 ≤ char.val && char.val ≤ 13) || (0x2000 ≤ char.val && char.val ≤ 0x200a)

def units (char : Char) : Nat := if char.val < 0x10000 then 1 else 2

/-- The length of a string in UTF-16 units. -/
def textLength (text : String) : Nat := (text.toList.map units).sum

def takeUnits : Nat → List Char → List Char
  | _, [] => []
  | room, char :: rest => if units char ≤ room then char :: takeUnits (room - units char) rest else []

/-- The longest start of the text within the units. A pair of units is never split. -/
def slice (text : String) (room : Nat) : String := .ofList (takeUnits room text.toList)

def trim (text : String) : String :=
  .ofList (((text.toList.dropWhile isSpace).reverse.dropWhile isSpace).reverse)

/-- The rest of the text past white space and the character. -/
def pastChar (wanted : Char) (chars : List Char) : Option (List Char) :=
  match chars.dropWhile isSpace with
  | char :: rest => if char = wanted then some rest else none
  | [] => none

/-- The rest of the text past the word in any case. -/
def pastWord : List Char → List Char → Option (List Char)
  | [], chars => some chars
  | _ :: _, [] => none
  | wanted :: word, char :: rest => if char.toLower = wanted then pastWord word rest else none

/-- Every match is replaced. A match takes a character at least, so the length of the text is fuel enough. -/
def replaceAll (past : List Char → Option (List Char)) (replacement : List Char) : Nat → List Char → List Char
  | 0, chars => chars
  | _ + 1, [] => []
  | fuel + 1, char :: rest =>
      match past (char :: rest) with
      | some after => replacement ++ replaceAll past replacement fuel after
      | none => char :: replaceAll past replacement fuel rest

def replaceText (past : List Char → Option (List Char)) (replacement text : String) : String :=
  .ofList (replaceAll past replacement.toList text.toList.length text.toList)

def pastClosing (chars : List Char) : Option (List Char) :=
  match chars with
  | '<' :: rest => pastChar '/' rest
  | _ => none

/-- Any closing tag in a transcript is disarmed. -/
def escapeClosingTags (value : String) : String := replaceText pastClosing "&lt;/" value

def pastClosingTag (tag : String) (chars : List Char) : Option (List Char) :=
  (pastClosing chars).bind fun rest => (pastWord tag.toList (rest.dropWhile isSpace)).bind (pastChar '>')

/-- The body cannot close the tag it is wrapped in. -/
def wrapContained (tag body : String) : String :=
  "<" ++ tag ++ ">\n" ++ replaceText (pastClosingTag tag) ("&lt;/" ++ tag ++ ">") body ++ "\n</" ++ tag ++ ">"

def sanitizeLineField (value : String) : String :=
  trim (.ofList (value.toList.map fun char => if char.val < 0x20 || char.val = 0x7f then ' ' else char))

/-- An overlay in its fence, after a line that says where it comes from. -/
def formatConnectorSkillBlock (name scope body : String) (heldCall : Bool) : String :=
  let how :=
    if heldCall then "governs the call held above; call it again once read"
    else "surfaced on first matching connector tool call"
  "_" ++ sanitizeLineField name ++ "_ — scope: " ++ sanitizeLineField scope ++ "; " ++ how ++ "\n\n" ++
    wrapContained "connector-skill" body

def maxToolResultChars : Nat := 50000

/-- The digits of a number in groups of three. -/
def localeDigits (digits : List Char) : List Char :=
  match digits with
  | first :: second :: third :: next :: rest => first :: second :: third :: ',' :: localeDigits (next :: rest)
  | short => short

def toLocaleString (count : Nat) : String :=
  .ofList (localeDigits (Nat.toDigits 10 count).reverse).reverse

/-- A cut on a line, where that keeps more than half of the room. -/
def sliceOnLineBoundary (text : String) (limit : Nat) : String :=
  if textLength text ≤ limit then text
  else
    let cut := slice text limit
    let line : String := .ofList ((cut.toList.reverse.dropWhile (· ≠ '\n')).drop 1).reverse
    if '\n' ∈ cut.toList ∧ limit < 2 * textLength line then line else cut

def boundedMarker (text : String) (shown omitted : Nat) : String :=
  "\n\n[Result bounded for model context: showing " ++ toLocaleString shown ++ " of " ++
    toLocaleString (textLength text) ++ " chars (" ++ toLocaleString omitted ++ " omitted). The full " ++
    "result is on the user's screen. Re-query with a filter, a narrower scope, or a " ++
    "pagination cursor to bring specific items into context.]"

/-- A tool result that is too long for the model keeps its start, with a note. The user interface has the rest. -/
def boundToolResultForModel (text : String) (hasUiResource : Bool := false)
    (limit : Nat := maxToolResultChars) : String :=
  if limit = 0 ∨ textLength text ≤ limit then text
  else if hasUiResource then
    slice ("[Tool completed successfully. Result (" ++ toLocaleString (textLength text) ++ " chars) is " ++
      "displayed in the inline UI. Do not ask the user to view it separately — it is " ++
      "already visible.]") limit
  else
    let reserved := textLength (boundedMarker text limit (textLength text))
    if limit ≤ reserved then slice text limit
    else
      let head := sliceOnLineBoundary text (limit - reserved)
      head ++ boundedMarker text (textLength head) (textLength text - textLength head)

end NimbleBrain.Conversation
