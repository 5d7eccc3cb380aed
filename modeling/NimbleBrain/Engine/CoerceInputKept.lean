import NimbleBrain.Engine.CoerceInput

/- Coercion changes nothing but texts where the schema that is followed takes no text, once at most. -/

namespace NimbleBrain.Engine.Coercion

open Library Supervisor

variable {schema sub : Schema}

/-- Every structural branch has a type of its own. -/
theorem structuralBranches_typed (schema sub : Schema) (listed : sub ∈ structuralBranches schema) :
    sub.type.isSome = true := by
  rw [structuralBranches] at listed
  split at listed
  next typed => exact (List.mem_singleton.mp listed) ▸ typed
  next =>
    rw [List.mem_append, List.mem_flatMap, List.mem_flatMap] at listed
    rcases listed with ⟨branch, _, inside⟩ | ⟨branch, _, inside⟩
    · have smaller := Schema.sizeOf_anyOf_lt branch.2
      exact structuralBranches_typed branch.1 sub (List.mem_of_mem_filter inside)
    · have smaller := Schema.sizeOf_oneOf_lt branch.2
      exact structuralBranches_typed branch.1 sub (List.mem_of_mem_filter inside)
termination_by sizeOf schema

theorem effectiveSchemaFor_typed (typed : schema.type.isSome = true) : effectiveSchemaFor schema = schema := by
  rw [effectiveSchemaFor, if_pos typed]

/-- A schema without a type is followed as it is, or through its only structural branch. -/
theorem effectiveSchemaFor_cases (schema : Schema) :
    effectiveSchemaFor schema = schema ∨
      schema.type = none ∧ structuralBranches schema = [effectiveSchemaFor schema] := by
  cases typed : schema.type with
  | some names => exact .inl (effectiveSchemaFor_typed (by rw [typed]; rfl))
  | none =>
      have untyped : ¬schema.type.isSome = true := by simp [typed]
      rw [effectiveSchemaFor, if_neg untyped]
      split
      next branch alone => exact .inr ⟨rfl, alone⟩
      next => exact .inl rfl

/-- The effective schema is its own effective schema. -/
theorem effectiveSchemaFor_idem (schema : Schema) :
    effectiveSchemaFor (effectiveSchemaFor schema) = effectiveSchemaFor schema := by
  rcases effectiveSchemaFor_cases schema with same | ⟨_, alone⟩
  · rw [same, same]
  · exact effectiveSchemaFor_typed
      (structuralBranches_typed schema _ (alone ▸ List.mem_singleton_self _))

variable {host : Host} {effective : Schema} {value parsed : Json} {text : Utf16}

/-- A value is coerced where a schema is declared for it. -/
def coerceAt (host : Host) (value : Json) : Option Schema → Json
  | some sub => coerceValue host value sub
  | none => value

theorem coerceObjectProperties_eq (host : Host) (entries : List (Utf16 × Json)) (effective : Schema) :
    coerceObjectProperties host entries effective =
      entries.map fun entry => (entry.1, coerceAt host entry.2 (effective.properties.lookup entry.1)) := by
  rw [coerceObjectProperties]
  apply List.map_congr_left
  intro entry _
  split
  next sub found => rw [found]; rfl
  next absent => rw [absent]; rfl

theorem coerceArrayItems_eq (host : Host) (items : List Json) (effective : Schema) :
    coerceArrayItems host items effective = items.map fun item => coerceAt host item effective.items := by
  rw [coerceArrayItems]
  split
  next sub found => rw [found]; rfl
  next absent =>
    rw [absent]
    exact (List.map_id' items).symm

@[simp] theorem coerceValue_null (host : Host) (schema : Schema) : coerceValue host .null schema = .null := by
  rw [coerceValue] <;> simp

@[simp] theorem coerceValue_bool (host : Host) (value : Bool) (schema : Schema) :
    coerceValue host (.bool value) schema = .bool value := by
  rw [coerceValue] <;> simp

@[simp] theorem coerceValue_number (host : Host) (value : JsonNumber) (schema : Schema) :
    coerceValue host (.number value) schema = .number value := by
  rw [coerceValue] <;> simp

theorem coerceValue_string (host : Host) (text : Utf16) (schema : Schema) :
    coerceValue host (.string text) schema = coerceString host text (effectiveSchemaFor schema) := by
  rw [coerceValue]

/-- The properties of an object are followed only where its effective schema declares an object. -/
def propertyAt (schema : Schema) (name : Utf16) : Option Schema :=
  if declaresType (effectiveSchemaFor schema) .object then (effectiveSchemaFor schema).properties.lookup name
  else none

def itemsAt (schema : Schema) : Option Schema :=
  if declaresType (effectiveSchemaFor schema) .array then (effectiveSchemaFor schema).items else none

theorem coerceValue_object (host : Host) (entries : List (Utf16 × Json)) (schema : Schema) :
    coerceValue host (.object entries) schema =
      .object (entries.map fun entry => (entry.1, coerceAt host entry.2 (propertyAt schema entry.1))) := by
  rw [coerceValue]
  split
  next declared => simp only [coerceObjectProperties_eq, propertyAt, if_pos declared]
  next declared =>
    simp only [propertyAt, if_neg declared, coerceAt]
    exact congrArg Json.object (List.map_id' entries).symm

theorem coerceValue_array (host : Host) (items : List Json) (schema : Schema) :
    coerceValue host (.array items) schema = .array (items.map fun item => coerceAt host item (itemsAt schema)) := by
  rw [coerceValue]
  split
  next declared => simp only [coerceArrayItems_eq, itemsAt, if_pos declared]
  next declared =>
    simp only [itemsAt, if_neg declared, coerceAt]
    exact congrArg Json.array (List.map_id' items).symm

/-- A value is coerced to the effective schema. -/
theorem coerceValue_effective (host : Host) (value : Json) (schema : Schema) :
    coerceValue host value (effectiveSchemaFor schema) = coerceValue host value schema := by
  cases value with
  | null => rw [coerceValue_null, coerceValue_null]
  | bool value => rw [coerceValue_bool, coerceValue_bool]
  | number value => rw [coerceValue_number, coerceValue_number]
  | string text => rw [coerceValue_string, coerceValue_string, effectiveSchemaFor_idem]
  | array items => simp only [coerceValue_array, itemsAt, effectiveSchemaFor_idem]
  | object entries => simp only [coerceValue_object, propertyAt, effectiveSchemaFor_idem]

/-- A text that is parsed, or read as a number or a truth value. -/
def recovers (host : Host) (text : Utf16) (effective : Schema) : Bool :=
  if declaresType effective .object || declaresType effective .array then (tryJsonParse host text).isSome
  else !declaresType effective .string && (coerceScalarString host text effective).isSome

/-- What has one shape with a value. A text has no shape. -/
inductive Shaped : Json → Json → Prop where
  | null : Shaped .null .null
  | bool (value : Bool) : Shaped (.bool value) (.bool value)
  | number (value : JsonNumber) : Shaped (.number value) (.number value)
  | string (text : Utf16) (value : Json) : Shaped (.string text) value
  | array {items others : List Json} (length : others.length = items.length) : Shaped (.array items) (.array others)
  | object {entries others : List (Utf16 × Json)} (keys : others.map Prod.fst = entries.map Prod.fst) :
      Shaped (.object entries) (.object others)

/-- Coercion keeps keys and lengths. -/
theorem shaped_coerceValue (host : Host) (value : Json) (schema : Schema) :
    Shaped value (coerceValue host value schema) := by
  cases value with
  | null =>
      rw [coerceValue_null]
      exact .null
  | bool value =>
      rw [coerceValue_bool]
      exact .bool value
  | number value =>
      rw [coerceValue_number]
      exact .number value
  | string text => exact .string text _
  | array items =>
      rw [coerceValue_array]
      exact .array (List.length_map _)
  | object entries =>
      rw [coerceValue_object]
      refine .object ?_
      rw [List.map_map]
      rfl

theorem Shaped.isText {after : Json} (shaped : Shaped value after) (noText : Coercion.isText value = false) :
    Coercion.isText after = false := by
  cases shaped with
  | string => cases noText
  | _ => rfl

theorem coerceScalarString_scalar {scalar : Json} (found : coerceScalarString host text effective = some scalar) :
    (∃ value, scalar = .bool value) ∨ ∃ value, scalar = .number value := by
  simp only [coerceScalarString] at found
  split at found
  · cases found
  split at found
  · obtain ⟨number, _, rfl⟩ := Option.map_eq_some_iff.mp found
    exact .inr ⟨number, rfl⟩
  split at found
  · obtain ⟨number, _, rfl⟩ := Option.map_eq_some_iff.mp found
    exact .inr ⟨number, rfl⟩
  split at found
  · split at found
    · exact .inl ⟨true, (Option.some.inj found).symm⟩
    split at found
    · exact .inl ⟨false, (Option.some.inj found).symm⟩
    · cases found
  · cases found

/-- What becomes of a text. -/
inductive FromText (host : Host) (text : Utf16) (effective : Schema) : Json → Prop where
  | left (same : recovers host text effective = false) : FromText host text effective (.string text)
  | parsed {parsed : Json} (recovered : recovers host text effective = true)
      (found : tryJsonParse host text = some parsed)
      (wanted : (declaresType effective .object || declaresType effective .array) = true) :
      FromText host text effective (coerceValue host parsed effective)
  | bool (recovered : recovers host text effective = true)
      (unwanted : (declaresType effective .object || declaresType effective .array) = false) (value : Bool) :
      FromText host text effective (.bool value)
  | number (recovered : recovers host text effective = true)
      (unwanted : (declaresType effective .object || declaresType effective .array) = false) (value : JsonNumber) :
      FromText host text effective (.number value)

theorem fromText_coerceString (host : Host) (text : Utf16) (effective : Schema) :
    FromText host text effective (coerceString host text effective) := by
  have recovery : recovers host text effective =
    if declaresType effective .object || declaresType effective .array then (tryJsonParse host text).isSome
    else !declaresType effective .string && (coerceScalarString host text effective).isSome := rfl
  rw [coerceString]
  split
  next wanted =>
    rw [if_pos wanted] at recovery
    split
    next parsed found => exact .parsed (by rw [recovery, found]; rfl) found wanted
    next failed => exact .left (by rw [recovery, failed]; rfl)
  next unwanted =>
    rw [if_neg unwanted] at recovery
    split
    next accepted => exact .left (by rw [recovery, accepted]; rfl)
    next refused =>
      have refused := eq_false_of_ne_true refused
      cases found : coerceScalarString host text effective with
      | none => exact .left (by rw [recovery, found, refused]; rfl)
      | some scalar =>
          have recovered : recovers host text effective = true := by rw [recovery, found, refused]; rfl
          rcases coerceScalarString_scalar found with ⟨value, rfl⟩ | ⟨value, rfl⟩
          · exact .bool recovered (eq_false_of_ne_true unwanted) value
          · exact .number recovered (eq_false_of_ne_true unwanted) value

/-- A text that is not recovered is left as it is. -/
theorem coerceString_left (same : recovers host text effective = false) :
    coerceString host text effective = .string text := by
  have became := fromText_coerceString host text effective
  generalize coerceString host text effective = after at became
  cases became with
  | left => rfl
  | parsed recovered => rw [same] at recovered; cases recovered
  | bool recovered => rw [same] at recovered; cases recovered
  | number recovered => rw [same] at recovered; cases recovered

/-- A text that is recovered is a text no more. -/
theorem isText_coerceString (recovered : recovers host text effective = true) :
    isText (coerceString host text effective) = false := by
  have became := fromText_coerceString host text effective
  generalize coerceString host text effective = after at became
  cases became with
  | left same => rw [same] at recovered; cases recovered
  | parsed _ found => exact (shaped_coerceValue host _ effective).isText (isText_tryJsonParse found)
  | bool => rfl
  | number => rfl

/-- Coercion is idempotent. -/
theorem coerceValue_idem (host : Host) (value : Json) (schema : Schema) :
    coerceValue host (coerceValue host value schema) schema = coerceValue host value schema := by
  have at' : ∀ (sub : Option Schema) (value : Json), (∀ inner, sub = some inner → sizeOf inner < sizeOf schema) →
      coerceAt host (coerceAt host value sub) sub = coerceAt host value sub := by
    intro sub value smaller
    cases sub with
    | none => rfl
    | some inner =>
        have within := smaller inner rfl
        exact coerceValue_idem host value inner
  have within := effectiveSchemaFor_size schema
  have properties : ∀ name inner, propertyAt schema name = some inner → sizeOf inner < sizeOf schema := by
    intro name inner found
    simp only [propertyAt] at found
    split at found
    next => exact lt_of_lt_of_le (Schema.sizeOf_property_lt found) within
    next => cases found
  have items : ∀ inner, itemsAt schema = some inner → sizeOf inner < sizeOf schema := by
    intro inner found
    simp only [itemsAt] at found
    split at found
    next => exact lt_of_lt_of_le (Schema.sizeOf_items_lt found) within
    next => cases found
  -- A value that is no text is coerced place by place.
  have structured : ∀ value, isText value = false →
      coerceValue host (coerceValue host value schema) schema = coerceValue host value schema := by
    intro value noText
    cases value with
    | null => rw [coerceValue_null, coerceValue_null]
    | bool value => rw [coerceValue_bool, coerceValue_bool]
    | number value => rw [coerceValue_number, coerceValue_number]
    | string text => cases noText
    | array list =>
        rw [coerceValue_array, coerceValue_array, List.map_map]
        exact congrArg Json.array (List.map_congr_left fun item _ => at' _ item items)
    | object entries =>
        rw [coerceValue_object, coerceValue_object, List.map_map]
        refine congrArg Json.object (List.map_congr_left fun entry _ => ?_)
        exact congrArg (Prod.mk entry.1) (at' _ entry.2 (properties entry.1))
  cases value with
  | string text =>
      rw [coerceValue_string]
      have became := fromText_coerceString host text (effectiveSchemaFor schema)
      generalize result : coerceString host text (effectiveSchemaFor schema) = after at became
      cases became with
      | left same => rw [coerceValue_string, coerceString_left same]
      | parsed _ found =>
          rw [coerceValue_effective]
          exact structured _ (isText_tryJsonParse found)
      | bool => exact coerceValue_bool host _ schema
      | number => exact coerceValue_number host _ schema
  | null => exact structured _ rfl
  | bool value => exact structured _ rfl
  | number value => exact structured _ rfl
  | array list => exact structured _ rfl
  | object entries => exact structured _ rfl
termination_by sizeOf schema

/-- A place is found by keys and indices. -/
inductive Place where
  | key (name : Utf16)
  | index (position : Nat)
  deriving DecidableEq

def reach : List Place → Json → Option Json
  | [], value => some value
  | .key name :: rest, .object entries => (entries.lookup name).bind (reach rest)
  | .index position :: rest, .array items => (items[position]?).bind (reach rest)
  | _ :: _, _ => none

/-- The schema that a place is coerced to. -/
def schemaAt : List Place → Schema → Option Schema
  | [], schema => some schema
  | .key name :: rest, schema => (propertyAt schema name).bind (schemaAt rest)
  | .index _ :: rest, schema => (itemsAt schema).bind (schemaAt rest)

variable {path : List Place} {found : Json}

theorem lookup_map (change : Utf16 × Json → Json) (entries : List (Utf16 × Json)) (name : Utf16) :
    (entries.map fun entry => (entry.1, change entry)).lookup name =
      (entries.lookup name).map fun value => change (name, value) := by
  induction entries with
  | nil => rfl
  | cons entry rest ih =>
      rw [List.map_cons, List.lookup_cons, List.lookup_cons, ih]
      split
      next same => rw [eq_of_beq same]; rfl
      next => rfl

/-- What stands at a place is coerced to the schema of the place. -/
theorem reach_coerceValue (here : reach path value = some found) :
    reach path (coerceValue host value schema) = some (coerceAt host found (schemaAt path schema)) := by
  have coerced : ∀ (sub : Option Schema) (value : Json) (rest : List Place),
      (∀ schema, reach rest (coerceValue host value schema) = some (coerceAt host found (schemaAt rest schema))) →
      reach rest value = some found →
        reach rest (coerceAt host value sub) = some (coerceAt host found (sub.bind (schemaAt rest))) := by
    intro sub value rest inside here
    cases sub with
    | none => exact here
    | some sub => exact inside sub
  induction path generalizing value schema with
  | nil =>
      obtain rfl := Option.some.inj here
      rfl
  | cons place rest ih =>
      cases place with
      | key name =>
          cases value with
          | object entries =>
              obtain ⟨inner, listed, below⟩ := Option.bind_eq_some_iff.mp
                (show (entries.lookup name).bind (reach rest) = some found from here)
              rw [coerceValue_object]
              change (List.lookup name _).bind (reach rest) = _
              rw [lookup_map fun entry => coerceAt host entry.2 (propertyAt schema entry.1), listed]
              exact coerced (propertyAt schema name) inner rest (fun schema => ih below) below
          | null => cases here
          | bool => cases here
          | number => cases here
          | string => cases here
          | array => cases here
      | index position =>
          cases value with
          | array items =>
              obtain ⟨inner, listed, below⟩ := Option.bind_eq_some_iff.mp
                (show (items[position]?).bind (reach rest) = some found from here)
              rw [coerceValue_array]
              change ((items.map _)[position]?).bind (reach rest) = _
              rw [List.getElem?_map, listed]
              exact coerced (itemsAt schema) inner rest (fun schema => ih below) below
          | null => cases here
          | bool => cases here
          | number => cases here
          | string => cases here
          | object => cases here

theorem lookup_of_mem {entries : List (Utf16 × Json)} {entry : Utf16 × Json}
    (keys : (entries.map Prod.fst).Nodup) (listed : entry ∈ entries) : entries.lookup entry.1 = some entry.2 := by
  induction entries with
  | nil => cases listed
  | cons first rest ih =>
      rw [List.map_cons, List.nodup_cons] at keys
      rcases List.mem_cons.mp listed with rfl | later
      · rw [List.lookup_cons_self]
      · have other : (entry.1 == first.1) = false := by
          rw [beq_eq_false_iff_ne]
          exact fun same => keys.1 (same ▸ List.mem_map_of_mem later)
        rw [List.lookup_cons, other]
        exact ih keys.2 later

/-- No text of a value is recovered where it stands. -/
def Unrecovered (host : Host) (value : Json) (schema : Schema) : Prop :=
  ∀ path text sub, reach path value = some (.string text) → schemaAt path schema = some sub →
    recovers host text (effectiveSchemaFor sub) = false

theorem coerceAt_left {inner : Json} {declared : Option Schema}
    (inside : ∀ schema, Unrecovered host inner schema → coerceValue host inner schema = inner)
    (left : ∀ path text sub, reach path inner = some (.string text) → declared.bind (schemaAt path) = some sub →
      recovers host text (effectiveSchemaFor sub) = false) : coerceAt host inner declared = inner := by
  cases declared with
  | none => rfl
  | some schema => exact inside schema left

/-- A value without a text that is recovered is left as it is. -/
theorem coerceValue_left (distinct : value.Distinct) (left : Unrecovered host value schema) :
    coerceValue host value schema = value := by
  induction distinct generalizing schema with
  | null => exact coerceValue_null host schema
  | bool value => exact coerceValue_bool host value schema
  | number value => exact coerceValue_number host value schema
  | string text =>
      rw [coerceValue_string]
      exact coerceString_left (left [] text schema rfl rfl)
  | @array items _ ih =>
      have same : ∀ item ∈ items, coerceAt host item (itemsAt schema) = item := by
        intro item listed
        obtain ⟨position, inside, rfl⟩ := List.mem_iff_getElem.mp listed
        refine coerceAt_left (fun schema => ih _ listed) fun path text sub here declared => ?_
        refine left (.index position :: path) text sub ?_ declared
        change (items[position]?).bind (reach path) = _
        rw [List.getElem?_eq_getElem inside]
        exact here
      rw [coerceValue_array, List.map_congr_left same, List.map_id']
  | @object entries keys _ ih =>
      have same : ∀ entry ∈ entries,
          (entry.1, coerceAt host entry.2 (propertyAt schema entry.1)) = entry := by
        intro entry listed
        refine congrArg (Prod.mk entry.1) (coerceAt_left (fun schema => ih entry listed) ?_)
        intro path text sub here declared
        refine left (.key entry.1 :: path) text sub ?_ declared
        change (entries.lookup entry.1).bind (reach path) = _
        rw [lookup_of_mem keys listed]
        exact here
      rw [coerceValue_object, List.map_congr_left same, List.map_id']

end NimbleBrain.Engine.Coercion
