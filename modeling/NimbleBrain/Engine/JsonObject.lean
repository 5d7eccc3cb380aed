import NimbleBrain.Engine.CanonicalJson
import NimbleBrain.Library.OrderedMap

/- Objects are read and copied by their own keys. An object that grows by assignments treats `__proto__` apart. -/

namespace NimbleBrain.Engine

open Library

/-- An object's own properties. -/
abbrev Fields := OrderedMap Utf16 Json

/-- Own properties are copied onto an object, one after the other. -/
def spread (source : List (Utf16 × Json)) (target : Fields) : Fields :=
  source.foldl (fun target entry => target.set entry.1 entry.2) target

/-- The properties of an object that was read or written entry by entry. -/
def fieldsOf (entries : List (Utf16 × Json)) : Fields := spread entries ∅

/-- What `{ ...value }` copies. A list and a text have their indices as keys. -/
def ownEntries : Json → List (Utf16 × Json)
  | .object entries => entries
  | .array items => items.zipIdx.map fun item => (Utf16.ofString (toString item.2), item.1)
  | .string text => text.zipIdx.map fun unit => (Utf16.ofString (toString unit.2), .string [unit.1])
  | _ => []

/-- The entries of a plain object. -/
def asEntries : Json → Option (List (Utf16 × Json))
  | .object entries => some entries
  | _ => none

variable {source : List (Utf16 × Json)} {target : Fields} {key : Utf16} {value : Json}

/-- A copied property hides one that was there. -/
theorem get?_spread (source : List (Utf16 × Json)) (target : Fields) (key : Utf16) :
    (spread source target).get? key = ((fieldsOf source).get? key).or (target.get? key) := by
  induction source generalizing target with
  | nil => rfl
  | cons entry rest ih =>
      have first := ih (target.set entry.1 entry.2)
      have alone := ih ((∅ : Fields).set entry.1 entry.2)
      change (spread rest (target.set entry.1 entry.2)).get? key =
        ((spread rest ((∅ : Fields).set entry.1 entry.2)).get? key).or _
      rw [first, alone, OrderedMap.get?_set, OrderedMap.get?_set]
      split
      · cases (fieldsOf rest).get? key <;> rfl
      · rw [OrderedMap.get?_empty, Option.or_none]

/-- Entries with keys of their own are copied as they stand. -/
theorem spread_entries {target : Fields} (distinct : (target.entries ++ source |>.map Prod.fst).Nodup) :
    (spread source target).entries = target.entries ++ source := by
  induction source generalizing target with
  | nil => exact (List.append_nil _).symm
  | cons entry rest ih =>
      have fresh : entry.1 ∉ target.entries.map Prod.fst := by
        rw [List.map_append, List.map_cons, List.nodup_append] at distinct
        exact fun listed => distinct.2.2 _ listed _ List.mem_cons_self rfl
      have grown : (target.set entry.1 entry.2).entries = target.entries ++ [entry] :=
        OrderedMap.setEntry_fresh fresh entry.2
      have later := @ih (target.set entry.1 entry.2)
      rw [grown, List.append_assoc, List.singleton_append] at later
      exact later distinct

theorem fieldsOf_entries (distinct : (source.map Prod.fst).Nodup) :
    (fieldsOf source).entries = source := spread_entries distinct

theorem isSome_get?_set (target : Fields) (key other : Utf16) (value : Json) :
    ((target.set key value).get? other).isSome = true ↔ other = key ∨ (target.get? other).isSome = true := by
  rw [OrderedMap.get?_set]
  by_cases same : other = key <;> simp [same]

/-- A copy has the keys of both. -/
theorem isSome_get?_spread (source : List (Utf16 × Json)) (target : Fields) (key : Utf16) :
    ((spread source target).get? key).isSome = true ↔
      key ∈ source.map Prod.fst ∨ (target.get? key).isSome = true := by
  induction source generalizing target with
  | nil => simp [spread]
  | cons entry rest ih =>
      change ((spread rest (target.set entry.1 entry.2)).get? key).isSome = true ↔ _
      rw [ih, isSome_get?_set, List.map_cons, List.mem_cons]
      tauto

theorem isSome_fieldsOf (source : List (Utf16 × Json)) (key : Utf16) :
    ((fieldsOf source).get? key).isSome = true ↔ key ∈ source.map Prod.fst := by
  simp [fieldsOf, isSome_get?_spread]

theorem mem_of_fieldsOf (found : (fieldsOf source).get? key = some value) : (key, value) ∈ source := by
  have copied : ∀ (source : List (Utf16 × Json)) (target : Fields),
      (spread source target).get? key = some value → (key, value) ∈ source ∨ target.get? key = some value := by
    intro source
    induction source with
    | nil => exact fun target found => .inr found
    | cons entry rest ih =>
        intro target found
        rcases ih (target.set entry.1 entry.2) found with later | here
        · exact .inl (List.mem_cons_of_mem _ later)
        · rw [OrderedMap.get?_set] at here
          split at here
          next same =>
            obtain rfl := Option.some.inj here
            exact .inl (by rw [same]; exact List.mem_cons_self)
          next => exact .inr here
  exact (copied source ∅ found).resolve_right (by simp)

def protoKey : Utf16 := Utf16.ofString "__proto__"

/-- What an object inherits from. -/
inductive Prototype where
  | ordinary
  | inherits (value : Json)
  | none

/-- An object's own `__proto__` hides the accessor that every ordinary object inherits. -/
def hidesAccessor : Json → Bool
  | .null => true
  | .object entries => protoKey ∈ entries.map Prod.fst
  | _ => false

def Prototype.hides : Prototype → Bool
  | .ordinary => false
  | .inherits value => hidesAccessor value
  | .none => true

/-- An object under construction. -/
structure PlainObject where
  own : Fields
  prototype : Prototype

/-- What an assignment to `__proto__` makes of the prototype. -/
def Prototype.assigned (prototype : Prototype) : Json → Prototype
  | .null => .none
  | .object entries => .inherits (.object entries)
  | .array items => .inherits (.array items)
  | _ => prototype

/-- `object[key] = value`. The inherited accessor takes an assignment to `__proto__`. -/
def PlainObject.assign (object : PlainObject) (key : Utf16) (value : Json) : PlainObject :=
  if key = protoKey ∧ (object.own.get? key).isNone ∧ object.prototype.hides = false then
    { object with prototype := object.prototype.assigned value }
  else { object with own := object.own.set key value }

/-- `Object.assign`. -/
def PlainObject.assignAll (object : PlainObject) (source : List (Utf16 × Json)) : PlainObject :=
  source.foldl (fun object entry => object.assign entry.1 entry.2) object

end NimbleBrain.Engine
