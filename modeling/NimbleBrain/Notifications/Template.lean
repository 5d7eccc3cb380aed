import NimbleBrain.Conversation.EscapedText
import NimbleBrain.Engine.JsonObject

/- A route's stored input is a template. Its placeholders are checked when it is written and filled when it is
delivered. -/

namespace NimbleBrain.Notifications.Template

open Library Engine Conversation.Fence

/-- Everything up to the next closing brace, and what follows where a second one stands beside it. -/
def pastBraces : Utf16 → Option (Utf16 × Utf16)
  | [] => none
  | 125 :: 125 :: after => some ([], after)
  | unit :: rest =>
      if unit = 125 then none else (pastBraces rest).map fun found => (unit :: found.1, found.2)

/-- The match of `PLACEHOLDER_RE` that begins the text: the name without the white space around it, and what follows.
-/
def placeholderAt : Utf16 → Option (Utf16 × Utf16)
  | 123 :: 123 :: rest => (pastBraces rest).map fun found => (trim found.1, found.2)
  | _ => none

inductive TemplatePiece where
  | unit (unit : UInt16)
  | placeholder (name : Utf16)
  deriving DecidableEq

/-- The matches of the global pattern and the units between them. A match takes a unit at least. -/
def templatePieces : Nat → Utf16 → List TemplatePiece
  | 0, _ => []
  | _ + 1, [] => []
  | fuel + 1, unit :: rest =>
      match placeholderAt (unit :: rest) with
      | some (name, after) => .placeholder name :: templatePieces fuel after
      | none => .unit unit :: templatePieces fuel rest

def piecesOf (text : Utf16) : List TemplatePiece := templatePieces text.length text

def TemplatePiece.name? : TemplatePiece → Option Utf16
  | .unit _ => none
  | .placeholder name => some name

/-- The names that `matchAll` finds. -/
def namesIn (text : Utf16) : List Utf16 := (piecesOf text).filterMap TemplatePiece.name?

def notificationPlaceholders : List Utf16 :=
  ["title", "body", "subject", "link.resource", "inbox.url"].map Utf16.ofString

/-- A name joins the set at its end. -/
def addFound (found : List Utf16) (name : Utf16) : List Utf16 := if name ∈ found then found else found ++ [name]

def addUnknown (text : Utf16) (found : List Utf16) : List Utf16 :=
  ((namesIn text).filter (· ∉ notificationPlaceholders)).foldl addFound found

mutual

/-- Placeholder names that the runtime does not resolve, in keys and values alike. -/
def unknownPlaceholders : Json → List Utf16 → List Utf16
  | .string text, found => addUnknown text found
  | .array items, found => unknownInItems items found
  | .object entries, found => unknownInEntries entries found
  | _, found => found

def unknownInItems : List Json → List Utf16 → List Utf16
  | [], found => found
  | item :: rest, found => unknownInItems rest (unknownPlaceholders item found)

def unknownInEntries : List (Utf16 × Json) → List Utf16 → List Utf16
  | [], found => found
  | (key, item) :: rest, found =>
      unknownInEntries rest (unknownPlaceholders item (unknownPlaceholders (.string key) found))

end

mutual

/-- What `JSON.stringify` writes. -/
def stringify : Json → Utf16
  | .null => Utf16.ofString "null"
  | .bool value => Utf16.ofString (if value then "true" else "false")
  | .number value => value.text
  | .string value => Utf16.quote value
  | .array items => 91 :: joinComma (stringifyItems items) ++ [93]
  | .object entries => 123 :: joinComma (stringifyEntries entries) ++ [125]

def stringifyItems : List Json → List Utf16
  | [] => []
  | item :: rest => stringify item :: stringifyItems rest

def stringifyEntries : List (Utf16 × Json) → List Utf16
  | [] => []
  | (key, value) :: rest => entryText (key, stringify value) :: stringifyEntries rest

end

/-- The bytes a text takes in UTF-8. -/
def byteLength : Utf16 → Nat
  | [] => 0
  | [unit] => if unit < 0x80 then 1 else if unit < 0x800 then 2 else 3
  | unit :: next :: rest =>
      if Utf16.isLead unit && Utf16.isTrail next then 4 + byteLength rest
      else (if unit < 0x80 then 1 else if unit < 0x800 then 2 else 3) + byteLength (next :: rest)

def deliverInputMaxBytes : Nat := 8192

inductive NotificationDeliverTarget where
  | agent (task : Utf16)
  | tool (tool : Utf16) (input : Option (List (Utf16 × Json)))

structure RouteValidationContext where
  toolNames : List Utf16
  taskIds : List Utf16

/-- Names in the double braces of a message. -/
def inBraces (names : List Utf16) : Utf16 :=
  [44, 32].intercalate (names.map fun name => [123, 123] ++ name ++ [125, 125])

/-- Why this target cannot be stored, or `none`. -/
def checkTarget (ctx : RouteValidationContext) : NotificationDeliverTarget → Option Utf16
  | .agent task =>
      if task ∈ ctx.taskIds then none
      else some (Utf16.ofString "no task \"" ++ task ++ Utf16.ofString ("\" in this workspace. A route wakes one of " ++
        "your own tasks, and it has to exist when the route is written."))
  | .tool tool input =>
      if tool ∉ ctx.toolNames then
        some (Utf16.ofString "\"" ++ tool ++ Utf16.ofString ("\" is not a tool installed in this workspace. A route " ++
          "may only deliver through a connector the workspace already has."))
      else
        match input with
        | none => none
        | some input =>
            if deliverInputMaxBytes < byteLength (stringify (.object input)) then
              some (Utf16.ofString "the input for \"" ++ tool ++ Utf16.ofString "\" is larger than 8192 bytes.")
            else
              let unknown := unknownPlaceholders (.object input) []
              if unknown ≠ [] then
                some (Utf16.ofString "the input for \"" ++ tool ++ Utf16.ofString "\" uses " ++ inBraces unknown ++
                  Utf16.ofString ". Only " ++ inBraces notificationPlaceholders ++
                  Utf16.ofString " are resolved — anything else would be delivered as literal text.")
              else none

section Rendering

structure NotificationPresentation where
  subject : Option Utf16
  title : Utf16
  body : Option Utf16
  linkResource : Option Utf16

structure HostPlaceholders where
  inboxUrl : Utf16

/-- The five names, resolved. An absent optional renders as the empty text. -/
def placeholderValues (presentation : NotificationPresentation) (host : HostPlaceholders) (name : Utf16) : Utf16 :=
  if name = Utf16.ofString "title" then presentation.title
  else if name = Utf16.ofString "body" then presentation.body.getD []
  else if name = Utf16.ofString "subject" then presentation.subject.getD []
  else if name = Utf16.ofString "link.resource" then presentation.linkResource.getD []
  else if name = Utf16.ofString "inbox.url" then host.inboxUrl
  else []

variable (values : Utf16 → Utf16)

/-- A name that is not one of the five renders empty, and is counted. -/
def renderPieces : List TemplatePiece → Nat → Utf16 × Nat
  | [], misses => ([], misses)
  | .unit unit :: rest, misses =>
      let (text, misses) := renderPieces rest misses
      (unit :: text, misses)
  | .placeholder name :: rest, misses =>
      if name ∈ notificationPlaceholders then
        let (text, misses) := renderPieces rest misses
        (values name ++ text, misses)
      else renderPieces rest (misses + 1)

def renderString (text : Utf16) (misses : Nat) : Utf16 × Nat := renderPieces values (piecesOf text) misses

mutual

def renderValue : Json → Nat → Json × Nat
  | .string text, misses =>
      let (text, misses) := renderString values text misses
      (.string text, misses)
  | .array items, misses =>
      let (items, misses) := renderItems items misses
      (.array items, misses)
  | .object entries, misses =>
      let (out, misses) := renderEntries entries { own := ∅, prototype := .ordinary } misses
      (.object out.own.entries, misses)
  | value, misses => (value, misses)

def renderItems : List Json → Nat → List Json × Nat
  | [], misses => ([], misses)
  | item :: rest, misses =>
      let (item, misses) := renderValue item misses
      let (rest, misses) := renderItems rest misses
      (item :: rest, misses)

/-- Each entry is assigned to the object rendered so far. -/
def renderEntries : List (Utf16 × Json) → PlainObject → Nat → PlainObject × Nat
  | [], out, misses => (out, misses)
  | (key, item) :: rest, out, misses =>
      let (key, misses) := renderString values key misses
      let (item, misses) := renderValue item misses
      renderEntries rest (out.assign key item) misses

end

structure RenderedInput where
  input : Json
  misses : Nat

/-- Render one target's stored input against one notification. -/
def renderDeliverInput (input : Option (List (Utf16 × Json))) (presentation : NotificationPresentation)
    (host : HostPlaceholders) : RenderedInput :=
  match input with
  | none => { input := .object [], misses := 0 }
  | some input =>
      let (rendered, misses) := renderValue (placeholderValues presentation host) (.object input) 0
      { input := rendered, misses := misses }

end Rendering

end NimbleBrain.Notifications.Template

/- A text is filled in one pass. Its placeholders are found by what stands between the braces. -/

namespace NimbleBrain.Notifications.Template

open Library Engine Conversation.Fence

section Occurrences

/-- A name in double braces, with any white space around it. -/
def Occurrence (name whole : Utf16) : Prop :=
  ∃ before behind : Utf16, (∀ unit ∈ before, isSpace unit = true) ∧ (∀ unit ∈ behind, isSpace unit = true) ∧
    trim name = name ∧ 125 ∉ name ∧ whole = [123, 123] ++ before ++ name ++ behind ++ [125, 125]

/-- The text with each placeholder replaced by its value. A value is not looked through again. -/
inductive Replaced (values : Utf16 → Utf16) : Utf16 → Utf16 → Prop where
  | nil : Replaced values [] []
  | placeholder {name whole rest filled : Utf16} (occurs : Occurrence name whole)
      (known : name ∈ notificationPlaceholders) (tail : Replaced values rest filled) :
      Replaced values (whole ++ rest) (values name ++ filled)
  | literal {unit : UInt16} {rest filled : Utf16}
      (plain : ∀ name whole after, Occurrence name whole → unit :: rest ≠ whole ++ after)
      (tail : Replaced values rest filled) : Replaced values (unit :: rest) (unit :: filled)

variable {text name before behind content after rest : Utf16}

theorem trim_append_left (spaces : ∀ unit ∈ before, isSpace unit = true) : trim (before ++ text) = trim text := by
  rw [trim, List.dropWhile_append_of_pos spaces, trim]

theorem trim_append_right (spaces : ∀ unit ∈ behind, isSpace unit = true) : trim (text ++ behind) = trim text := by
  have all : behind.dropWhile isSpace = [] := List.dropWhile_eq_nil_iff.mpr spaces
  have reversed : ∀ unit ∈ behind.reverse, isSpace unit = true := fun unit member =>
    spaces unit (List.mem_reverse.mp member)
  rw [trim, trim, List.dropWhile_append]
  split
  next blank =>
    rw [all, List.isEmpty_iff.mp blank]
  next => rw [List.reverse_append, List.dropWhile_append_of_pos reversed]

/-- A text is its trimmed part between white space. -/
theorem exists_trim (text : Utf16) :
    ∃ before behind : Utf16, (∀ unit ∈ before, isSpace unit = true) ∧ (∀ unit ∈ behind, isSpace unit = true) ∧
      text = before ++ trim text ++ behind := by
  refine ⟨text.takeWhile isSpace, ((text.dropWhile isSpace).reverse.takeWhile isSpace).reverse,
    fun _ member => List.mem_takeWhile_imp member,
    fun _ member => List.mem_takeWhile_imp (List.mem_reverse.mp member), ?_⟩
  rw [trim, List.append_assoc, ← List.reverse_append, List.takeWhile_append_dropWhile, List.reverse_reverse,
    List.takeWhile_append_dropWhile]

theorem trim_trim (text : Utf16) : trim (trim text) = trim text := by
  obtain ⟨before, behind, spaces, spacesBehind, split⟩ := exists_trim text
  have again := congrArg trim split
  rw [trim_append_right spacesBehind, trim_append_left spaces] at again
  exact again.symm

theorem eq_of_pastBraces (past : pastBraces text = some (content, after)) :
    text = content ++ 125 :: 125 :: after ∧ 125 ∉ content := by
  fun_induction pastBraces text generalizing content with
  | case1 => cases past
  | case2 rest =>
      obtain ⟨rfl, rfl⟩ := Prod.mk.inj (Option.some.inj past)
      exact ⟨rfl, List.not_mem_nil⟩
  | case3 => cases past
  | case4 unit rest _ other ih =>
      obtain ⟨⟨inner, _⟩, found, same⟩ := Option.map_eq_some_iff.mp past
      obtain ⟨rfl, rfl⟩ := Prod.mk.inj same
      obtain ⟨rfl, closed⟩ := ih found
      exact ⟨rfl, by simp [Ne.symm other, closed]⟩

theorem pastBraces_append (closed : 125 ∉ content) (after : Utf16) :
    pastBraces (content ++ 125 :: 125 :: after) = some (content, after) := by
  induction content with
  | nil => rfl
  | cons unit rest ih =>
      rw [List.mem_cons, not_or] at closed
      obtain ⟨other, closed⟩ := closed
      rw [List.cons_append, pastBraces, if_neg (Ne.symm other), ih closed, Option.map_some]
      exact fun _ same => absurd same (Ne.symm other)

theorem isSpace_brace : isSpace 125 = false := by decide

theorem not_mem_of_spaces (spaces : ∀ unit ∈ before, isSpace unit = true) : 125 ∉ before := by
  intro member
  have space := spaces 125 member
  rw [isSpace_brace] at space
  cases space

/-- The pattern's match is an occurrence at the beginning. -/
theorem placeholderAt_iff :
    placeholderAt text = some (name, after) ↔ ∃ whole, Occurrence name whole ∧ text = whole ++ after := by
  constructor
  · intro found
    rw [placeholderAt.eq_def] at found
    split at found
    next rest =>
      obtain ⟨⟨content, after⟩, past, same⟩ := Option.map_eq_some_iff.mp found
      obtain ⟨rfl, rfl⟩ := Prod.mk.inj same
      obtain ⟨rfl, closed⟩ := eq_of_pastBraces past
      obtain ⟨before, behind, spaces, spacesBehind, split⟩ := exists_trim content
      refine ⟨[123, 123] ++ before ++ trim content ++ behind ++ [125, 125],
        ⟨before, behind, spaces, spacesBehind, trim_trim content, ?_, rfl⟩, ?_⟩
      · intro member
        rw [split] at closed
        exact closed (List.mem_append_left _ (List.mem_append_right _ member))
      · have inner : content ++ 125 :: 125 :: after = before ++ (trim content ++ (behind ++ 125 :: 125 :: after)) := by
          rw [← List.append_assoc, ← List.append_assoc, ← split]
        simp only [List.cons_append, List.nil_append, List.append_assoc, inner]
    next => cases found
  · rintro ⟨whole, ⟨before, behind, spaces, spacesBehind, trimmed, closed, rfl⟩, rfl⟩
    have past : pastBraces (before ++ name ++ behind ++ 125 :: 125 :: after) = some (before ++ name ++ behind, after) :=
      pastBraces_append (by
        simp only [List.mem_append, not_or]
        exact ⟨⟨not_mem_of_spaces spaces, closed⟩, not_mem_of_spaces spacesBehind⟩) after
    have filled : trim (before ++ name ++ behind) = name := by
      rw [trim_append_right spacesBehind, trim_append_left spaces, trimmed]
    simp only [List.cons_append, List.nil_append, List.append_assoc] at past filled ⊢
    rw [placeholderAt, past, Option.map_some, filled]

theorem Occurrence.length_pos {whole : Utf16} (occurs : Occurrence name whole) : 0 < whole.length := by
  obtain ⟨before, behind, _, _, _, _, rfl⟩ := occurs
  simp

/-- Where no match begins, no occurrence does. -/
theorem plain_of_none (none : placeholderAt text = none) :
    ∀ name whole after, Occurrence name whole → text ≠ whole ++ after := by
  intro name whole after occurs same
  rw [placeholderAt_iff.mpr ⟨whole, occurs, same⟩] at none
  cases none

end Occurrences

variable {values : Utf16 → Utf16} {text filled : Utf16} {fuel : Nat}

/-- The placeholders of a text are among the five. -/
def Known (text : Utf16) : Prop := ∀ name ∈ namesIn text, name ∈ notificationPlaceholders

/-- A text whose placeholders are known is filled without a miss. -/
theorem renderPieces_replaced (values : Utf16 → Utf16) (enough : text.length ≤ fuel)
    (known : ∀ name ∈ (templatePieces fuel text).filterMap TemplatePiece.name?, name ∈ notificationPlaceholders)
    (misses : Nat) :
    Replaced values text (renderPieces values (templatePieces fuel text) misses).1 ∧
      (renderPieces values (templatePieces fuel text) misses).2 = misses := by
  induction fuel generalizing text with
  | zero =>
      obtain rfl := List.eq_nil_of_length_eq_zero (Nat.le_zero.mp enough)
      exact ⟨.nil, rfl⟩
  | succ fuel ih =>
      cases text with
      | nil => exact ⟨.nil, rfl⟩
      | cons unit rest =>
          rw [templatePieces] at known ⊢
          cases found : placeholderAt (unit :: rest) with
          | none =>
              simp only [found] at known ⊢
              obtain ⟨tail, counted⟩ := ih (Nat.le_of_succ_le_succ enough) known
              exact ⟨.literal (plain_of_none found) tail, counted⟩
          | some placeholder =>
              obtain ⟨name, after⟩ := placeholder
              simp only [found, List.filterMap_cons, TemplatePiece.name?, List.forall_mem_cons] at known ⊢
              obtain ⟨whole, occurs, split⟩ := placeholderAt_iff.mp found
              have shorter : after.length ≤ fuel := by
                have longer := occurs.length_pos
                have lengths := congrArg List.length split
                simp only [List.length_cons, List.length_append] at lengths enough
                omega
              obtain ⟨tail, counted⟩ := ih shorter known.2
              rw [renderPieces, if_pos known.1, split]
              exact ⟨.placeholder occurs known.1 tail, counted⟩

/-- A text is filled in one way. -/
theorem renderPieces_of_replaced (replaced : Replaced values text filled) (enough : text.length ≤ fuel) (misses : Nat) :
    (renderPieces values (templatePieces fuel text) misses).1 = filled := by
  induction replaced generalizing fuel misses with
  | nil => cases fuel <;> rfl
  | @placeholder name whole rest filled occurs known tail ih =>
      have longer := occurs.length_pos
      simp only [List.length_append] at enough
      have found : placeholderAt (whole ++ rest) = some (name, rest) := placeholderAt_iff.mpr ⟨whole, occurs, rfl⟩
      cases fuel with
      | zero => omega
      | succ fuel =>
          match shape : whole ++ rest with
          | [] => simp [(List.append_eq_nil_iff.mp shape).1] at longer
          | unit :: others =>
              rw [shape] at found
              simp only [templatePieces, found]
              rw [renderPieces, if_pos known]
              exact congrArg (values name ++ ·) (ih (by omega) misses)
  | @literal unit rest filled plain tail ih =>
      cases fuel with
      | zero => cases enough
      | succ fuel =>
          have none : placeholderAt (unit :: rest) = none := by
            by_contra found
            obtain ⟨⟨name, after⟩, found⟩ := Option.ne_none_iff_exists'.mp found
            obtain ⟨whole, occurs, split⟩ := placeholderAt_iff.mp found
            exact plain name whole after occurs split
          simp only [templatePieces, none]
          exact congrArg (unit :: ·) (ih (Nat.le_of_succ_le_succ enough) misses)

theorem renderString_replaced (values : Utf16 → Utf16) (known : Known text) (misses : Nat) :
    Replaced values text (renderString values text misses).1 ∧ (renderString values text misses).2 = misses :=
  renderPieces_replaced values (Nat.le_refl _) known misses

theorem renderString_of_replaced (replaced : Replaced values text filled) (misses : Nat) :
    (renderString values text misses).1 = filled :=
  renderPieces_of_replaced replaced (Nat.le_refl _) misses

end NimbleBrain.Notifications.Template
