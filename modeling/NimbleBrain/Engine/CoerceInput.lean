import Mathlib.Data.Fintype.Basic
import NimbleBrain.Engine.Supervisor

/- A model writes a nested value as a text. The input of a call is coerced to its schema before it is checked. -/

namespace NimbleBrain.Engine.Coercion

open Library Supervisor

theorem mem_of_lookup {Value : Type} {entries : List (Utf16 × Value)} {name : Utf16} {value : Value}
    (found : entries.lookup name = some value) : (name, value) ∈ entries := by
  obtain ⟨before, after, rfl, _⟩ := List.lookup_eq_some_iff.mp found
  exact List.mem_append_right _ List.mem_cons_self

inductive JsonType where
  | object
  | array
  | number
  | integer
  | boolean
  | string
  | null
  deriving DecidableEq

/-- A schema names one type or a list of types. -/
inductive TypeNames where
  | one (name : JsonType)
  | listed (names : List JsonType)
  deriving DecidableEq

/-- An empty union and no properties stand for keywords that are absent. -/
inductive Schema where
  | node (type : Option TypeNames) (anyOf oneOf : List Schema) (enum : Option (List Json))
      (properties : List (Utf16 × Schema)) (items : Option Schema)

namespace Schema

def type : Schema → Option TypeNames
  | node type _ _ _ _ _ => type

def anyOf : Schema → List Schema
  | node _ anyOf _ _ _ _ => anyOf

def oneOf : Schema → List Schema
  | node _ _ oneOf _ _ _ => oneOf

def enum : Schema → Option (List Json)
  | node _ _ _ enum _ _ => enum

def properties : Schema → List (Utf16 × Schema)
  | node _ _ _ _ properties _ => properties

def items : Schema → Option Schema
  | node _ _ _ _ _ items => items

variable {schema sub : Schema} {key : Utf16}

theorem sizeOf_anyOf_lt (listed : sub ∈ schema.anyOf) : sizeOf sub < sizeOf schema := by
  cases schema with
  | node type anyOf oneOf enum properties items =>
      have smaller := List.sizeOf_lt_of_mem (show sub ∈ anyOf from listed)
      simp only [node.sizeOf_spec]
      omega

theorem sizeOf_oneOf_lt (listed : sub ∈ schema.oneOf) : sizeOf sub < sizeOf schema := by
  cases schema with
  | node type anyOf oneOf enum properties items =>
      have smaller := List.sizeOf_lt_of_mem (show sub ∈ oneOf from listed)
      simp only [node.sizeOf_spec]
      omega

theorem sizeOf_property_lt (found : schema.properties.lookup key = some sub) : sizeOf sub < sizeOf schema := by
  cases schema with
  | node type anyOf oneOf enum properties items =>
      have smaller := List.sizeOf_lt_of_mem (mem_of_lookup (show properties.lookup key = some sub from found))
      simp only [Prod.mk.sizeOf_spec, node.sizeOf_spec] at smaller ⊢
      omega

theorem sizeOf_items_lt (found : schema.items = some sub) : sizeOf sub < sizeOf schema := by
  cases schema with
  | node type anyOf oneOf enum properties items =>
      obtain rfl : items = some sub := found
      simp only [Option.some.sizeOf_spec, node.sizeOf_spec]
      omega

end Schema

/-- What the coercion uses of the language. `Number` is asked for finite numbers only. -/
structure Host where
  jsonParse : Utf16 → Option Json
  number : Utf16 → Option JsonNumber
  isInteger : JsonNumber → Bool
  parsesObject : ∀ text value, text.head? = some 123 → jsonParse text = some value → ∃ entries, value = .object entries
  parsesArray : ∀ text value, text.head? = some 91 → jsonParse text = some value → ∃ items, value = .array items

def declaresType (schema : Schema) (target : JsonType) : Bool :=
  match schema.type with
  | none => false
  | some (.one name) => name = target
  | some (.listed names) => target ∈ names

def coerceScalarString (host : Host) (value : Utf16) (schema : Schema) : Option Json :=
  let trimmed := trim value
  if trimmed = [] then none
  else if declaresType schema .integer then ((host.number trimmed).filter host.isInteger).map .number
  else if declaresType schema .number then (host.number trimmed).map .number
  else if declaresType schema .boolean then
    if trimmed = Utf16.ofString "true" then some (.bool true)
    else if trimmed = Utf16.ofString "false" then some (.bool false)
    else none
  else none

/-- The branches with a type of their own, but for those that are null. -/
def structuralBranches (schema : Schema) : List Schema :=
  if schema.type.isSome then [schema]
  else
    (schema.anyOf.attach.flatMap fun branch =>
        (structuralBranches branch.1).filter fun sub => sub.type ≠ some (.one .null)) ++
      schema.oneOf.attach.flatMap fun branch =>
        (structuralBranches branch.1).filter fun sub => sub.type ≠ some (.one .null)
termination_by sizeOf schema
decreasing_by
  · exact Schema.sizeOf_anyOf_lt branch.2
  · exact Schema.sizeOf_oneOf_lt branch.2

/-- A union is left alone unless one structural branch remains. -/
def effectiveSchemaFor (schema : Schema) : Schema :=
  if schema.type.isSome then schema
  else
    match structuralBranches schema with
    | [branch] => branch
    | _ => schema

def tryJsonParse (host : Host) (text : Utf16) : Option Json :=
  let trimmed := trim text
  if trimmed.head? = some 123 ∨ trimmed.head? = some 91 then host.jsonParse trimmed else none

def isText : Json → Bool
  | .string _ => true
  | _ => false

attribute [grind =] structuralBranches effectiveSchemaFor

variable {schema sub : Schema} {host : Host} {text : Utf16} {parsed : Json}

theorem structuralBranches_size (schema sub : Schema) (listed : sub ∈ structuralBranches schema) :
    sizeOf sub ≤ sizeOf schema := by
  rw [structuralBranches] at listed
  split at listed
  next => exact (List.mem_singleton.mp listed) ▸ le_refl _
  next =>
    rw [List.mem_append, List.mem_flatMap, List.mem_flatMap] at listed
    rcases listed with ⟨branch, _, inside⟩ | ⟨branch, _, inside⟩
    · have smaller := Schema.sizeOf_anyOf_lt branch.2
      have within := structuralBranches_size branch.1 sub (List.mem_of_mem_filter inside)
      omega
    · have smaller := Schema.sizeOf_oneOf_lt branch.2
      have within := structuralBranches_size branch.1 sub (List.mem_of_mem_filter inside)
      omega
termination_by sizeOf schema

theorem effectiveSchemaFor_size (schema : Schema) : sizeOf (effectiveSchemaFor schema) ≤ sizeOf schema := by
  rw [effectiveSchemaFor]
  split
  next => exact le_refl _
  next =>
    split
    next branch alone => exact structuralBranches_size schema branch (alone ▸ List.mem_singleton_self branch)
    next => exact le_refl _

/-- Only objects and lists are parsed. -/
theorem isText_tryJsonParse (found : tryJsonParse host text = some parsed) : isText parsed = false := by
  simp only [tryJsonParse] at found
  split at found
  next opens =>
    rcases opens with opens | opens
    · obtain ⟨entries, rfl⟩ := host.parsesObject _ _ opens found
      rfl
    · obtain ⟨items, rfl⟩ := host.parsesArray _ _ opens found
      rfl
  next => cases found

mutual

def coerceValue (host : Host) (value : Json) (schema : Schema) : Json :=
  have := effectiveSchemaFor_size schema
  match value with
  | .string text => coerceString host text (effectiveSchemaFor schema)
  | .object entries =>
      if declaresType (effectiveSchemaFor schema) .object then
        .object (coerceObjectProperties host entries (effectiveSchemaFor schema))
      else .object entries
  | .array items =>
      if declaresType (effectiveSchemaFor schema) .array then
        .array (coerceArrayItems host items (effectiveSchemaFor schema))
      else .array items
  | value => value
termination_by 4 * sizeOf schema + if isText value then 3 else 1
decreasing_by all_goals simp [isText]; omega

/-- A text is parsed into what its schema declares. What was parsed is coerced in turn. -/
def coerceString (host : Host) (value : Utf16) (effective : Schema) : Json :=
  if declaresType effective .object || declaresType effective .array then
    match _found : tryJsonParse host value with
    | some parsed => coerceValue host parsed effective
    | none => .string value
  else if declaresType effective .string then .string value
  else (coerceScalarString host value effective).getD (.string value)
termination_by 4 * sizeOf effective + 2
decreasing_by simp [isText_tryJsonParse _found]

def coerceObjectProperties (host : Host) (entries : List (Utf16 × Json)) (effective : Schema) : List (Utf16 × Json) :=
  entries.map fun entry =>
    match _found : effective.properties.lookup entry.1 with
    | some sub => (entry.1, coerceValue host entry.2 sub)
    | none => entry
termination_by 4 * sizeOf effective
decreasing_by
  have := Schema.sizeOf_property_lt _found
  split <;> omega

def coerceArrayItems (host : Host) (items : List Json) (effective : Schema) : List Json :=
  match _found : effective.items with
  | some sub => items.map fun item => coerceValue host item sub
  | none => items
termination_by 4 * sizeOf effective
decreasing_by
  have := Schema.sizeOf_items_lt _found
  split <;> omega

end

attribute [grind =] coerceValue coerceString coerceObjectProperties coerceArrayItems

def coerceInputForSchema (host : Host) (input : Json) (schema : Schema) : Json :=
  match coerceValue host input schema with
  | .object entries => .object entries
  | _ => input

end NimbleBrain.Engine.Coercion
