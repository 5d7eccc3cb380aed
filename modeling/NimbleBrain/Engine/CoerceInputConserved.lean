import NimbleBrain.Engine.CoerceInputKept

/- A text that is valid may be coerced when its schema also declares an object, or when a branch without a type takes it. -/

namespace NimbleBrain.Engine.Coercion

open Library Supervisor

/-- The values of a type. -/
def JsonType.admits (host : Host) : JsonType → Json → Prop
  | .object, .object _ => True
  | .array, .array _ => True
  | .number, .number _ => True
  | .integer, .number value => host.isInteger value = true
  | .boolean, .bool _ => True
  | .string, .string _ => True
  | .null, .null => True
  | _, _ => False

/-- What a validator accepts: every keyword has its say. -/
def Valid (host : Host) (schema : Schema) (value : Json) : Prop :=
  (schema.type.isSome = true → ∃ type, declaresType schema type = true ∧ type.admits host value) ∧
  (schema.anyOf ≠ [] → ∃ branch, ∃ _ : branch ∈ schema.anyOf, Valid host branch value) ∧
  (schema.oneOf ≠ [] → ∃! place : Fin schema.oneOf.length, Valid host (schema.oneOf.get place) value) ∧
  (∀ members, schema.enum = some members → ∃ member ∈ members, member.Same value) ∧
  (∀ entries, value = .object entries → ∀ entry ∈ entries, ∀ sub,
    ∀ _ : schema.properties.lookup entry.1 = some sub, Valid host sub entry.2) ∧
  (∀ list, value = .array list → ∀ item ∈ list, ∀ sub, ∀ _ : schema.items = some sub, Valid host sub item)
termination_by sizeOf schema
decreasing_by
  · exact Schema.sizeOf_anyOf_lt ‹_ ∈ schema.anyOf›
  · exact Schema.sizeOf_oneOf_lt (List.get_mem schema.oneOf place)
  · exact Schema.sizeOf_property_lt ‹_›
  · exact Schema.sizeOf_items_lt ‹_›

variable {host : Host} {schema : Schema} {value : Json}

theorem Valid.type (valid : Valid host schema value) (typed : schema.type.isSome = true) :
    ∃ type, declaresType schema type = true ∧ type.admits host value := by
  rw [Valid] at valid
  exact valid.1 typed

/-- A union holds a branch that accepts the value. -/
theorem Valid.branch (valid : Valid host schema value) (union : schema.anyOf ++ schema.oneOf ≠ []) :
    ∃ branch ∈ schema.anyOf ++ schema.oneOf, Valid host branch value := by
  rw [Valid] at valid
  by_cases any : schema.anyOf = []
  · have one : schema.oneOf ≠ [] := fun one => union (by rw [any, one]; rfl)
    obtain ⟨place, accepted, _⟩ := valid.2.2.1 one
    exact ⟨_, List.mem_append_right _ (List.get_mem schema.oneOf place), accepted⟩
  · obtain ⟨branch, listed, accepted⟩ := valid.2.1 any
    exact ⟨branch, List.mem_append_left _ listed, accepted⟩

variable {sub : Schema}

theorem Valid.property {entries : List (Utf16 × Json)} (valid : Valid host schema (.object entries))
    {entry : Utf16 × Json} (listed : entry ∈ entries) (found : schema.properties.lookup entry.1 = some sub) :
    Valid host sub entry.2 := by
  rw [Valid] at valid
  exact valid.2.2.2.2.1 entries rfl entry listed sub found

theorem Valid.item {list : List Json} (valid : Valid host schema (.array list)) {item : Json} (listed : item ∈ list)
    (found : schema.items = some sub) : Valid host sub item := by
  rw [Valid] at valid
  exact valid.2.2.2.2.2 list rfl item listed sub found

/-- The whole input is coerced only when that yields an object. -/
def yieldsObject (host : Host) (schema : Schema) : Json → Bool
  | .object _ => true
  | .string text =>
      (declaresType (effectiveSchemaFor schema) .object || declaresType (effectiveSchemaFor schema) .array) &&
        match tryJsonParse host text with
        | some (.object _) => true
        | _ => false
  | _ => false

/-- A text of the input that is recovered where it stands. -/
structure Recovered (host : Host) (schema : Schema) (input : Json) (path : List Place) (text : Utf16) (sub : Schema) :
    Prop where
  whole : yieldsObject host schema input = true
  stands : reach path input = some (.string text)
  declared : schemaAt path schema = some sub
  recovers : recovers host text (effectiveSchemaFor sub) = true

/-- Coercion is conservative. -/
structure Conservative (host : Host) (schema : Schema) (input : Json) : Prop where
  valid : Valid host schema input → coerceInputForSchema host input schema = input
  idempotent : coerceInputForSchema host (coerceInputForSchema host input schema) schema =
    coerceInputForSchema host input schema
  texts : ∀ path text, reach path input = some (.string text) →
    reach path (coerceInputForSchema host input schema) = some (.string text) ∨
      ∃ sub, schemaAt path schema = some sub ∧ ∀ other, ¬Valid host sub (.string other)
  shapes : ∀ path value, reach path input = some value →
    ∃ after, reach path (coerceInputForSchema host input schema) = some after ∧ Shaped value after

/-- Texts are recovered only from an input that is refused, and only where every text is refused. -/
structure Undisputed (host : Host) (schema : Schema) (input : Json) : Prop where
  refused : ∀ path text sub, Recovered host schema input path text sub → ∀ other, ¬Valid host sub (.string other)
  invalid : ∀ path text sub, Recovered host schema input path text sub → ¬Valid host schema input

variable {input : Json}

theorem shaped_self : ∀ value : Json, Shaped value value
  | .null => .null
  | .bool value => .bool value
  | .number value => .number value
  | .string text => .string text _
  | .array _ => .array rfl
  | .object _ => .object rfl

/-- The input is coerced, or left as it is. -/
theorem coerceInputForSchema_eq (host : Host) (input : Json) (schema : Schema) :
    coerceInputForSchema host input schema =
      if yieldsObject host schema input then coerceValue host input schema else input := by
  cases input with
  | null => simp [coerceInputForSchema, yieldsObject]
  | bool value => simp [coerceInputForSchema, yieldsObject]
  | number value => simp [coerceInputForSchema, yieldsObject]
  | array items => simp [coerceInputForSchema, yieldsObject, coerceValue_array]
  | object entries => simp [coerceInputForSchema, yieldsObject, coerceValue_object]
  | string text =>
      have became := fromText_coerceString host text (effectiveSchemaFor schema)
      simp only [coerceInputForSchema, yieldsObject, coerceValue_string]
      generalize coerceString host text (effectiveSchemaFor schema) = after at became
      cases became with
      | left => simp
      | @parsed parsed _ found wanted =>
          rw [wanted, found, Bool.true_and]
          have shaped := shaped_coerceValue host parsed (effectiveSchemaFor schema)
          have noText := isText_tryJsonParse found
          generalize coerceValue host parsed (effectiveSchemaFor schema) = after at shaped
          cases shaped with
          | string => cases noText
          | object => rfl
          | null => rfl
          | bool => rfl
          | number => rfl
          | array => rfl
      | bool _ unwanted => rw [unwanted, Bool.false_and, if_neg Bool.false_ne_true]
      | number _ unwanted => rw [unwanted, Bool.false_and, if_neg Bool.false_ne_true]

variable {text : Utf16}

/-- A text that is recovered stands at no place of the result. -/
theorem Recovered.changed {path : List Place} {sub : Schema} (recovered : Recovered host schema input path text sub) :
    reach path (coerceInputForSchema host input schema) ≠ some (.string text) := by
  intro same
  rw [coerceInputForSchema_eq, if_pos recovered.whole, reach_coerceValue recovered.stands, recovered.declared] at same
  have noText := isText_coerceString recovered.recovers
  rw [← coerceValue_string, show coerceValue host (.string text) sub = .string text from Option.some.inj same] at noText
  cases noText

theorem unrecovered_of_undisputed (whole : yieldsObject host schema input = true)
    (none : ∀ path text sub, ¬Recovered host schema input path text sub) : Unrecovered host input schema := by
  intro path text sub stands declared
  refine eq_false_of_ne_true fun recovers => none path text sub ⟨whole, stands, declared, recovers⟩

theorem coerceInputForSchema_idem (host : Host) (input : Json) (schema : Schema) :
    coerceInputForSchema host (coerceInputForSchema host input schema) schema =
      coerceInputForSchema host input schema := by
  cases whole : yieldsObject host schema input with
  | false =>
      have same : coerceInputForSchema host input schema = input := by
        rw [coerceInputForSchema_eq, whole]
        rfl
      rw [same, same]
  | true =>
      have result : coerceInputForSchema host input schema = coerceValue host input schema := by
        rw [coerceInputForSchema_eq, if_pos whole]
      rw [result, coerceInputForSchema_eq, coerceValue_idem, ite_self]

/-- Coercion is conservative exactly where no text is disputed. -/
theorem conservative_iff_undisputed (distinct : input.Distinct) :
    Conservative host schema input ↔ Undisputed host schema input := by
  constructor
  · intro conservative
    constructor
    · intro path text sub recovered
      rcases conservative.texts path text recovered.stands with same | ⟨other, declared, refused⟩
      · exact absurd same recovered.changed
      · obtain rfl := Option.some.inj (recovered.declared.symm.trans declared)
        exact refused
    · intro path text sub recovered valid
      refine recovered.changed ?_
      rw [conservative.valid valid]
      exact recovered.stands
  · intro undisputed
    refine ⟨fun valid => ?_, coerceInputForSchema_idem host input schema, fun path text stands => ?_,
      fun path value stands => ?_⟩
    · rw [coerceInputForSchema_eq]
      split
      next whole =>
        exact coerceValue_left distinct (unrecovered_of_undisputed whole fun path text sub recovered =>
          undisputed.invalid path text sub recovered valid)
      next => rfl
    · rw [coerceInputForSchema_eq]
      split
      next whole =>
        rw [reach_coerceValue stands]
        cases declared : schemaAt path schema with
        | none => exact .inl rfl
        | some sub =>
            cases recovers : recovers host text (effectiveSchemaFor sub) with
            | false =>
                refine .inl (congrArg some ?_)
                exact (coerceValue_string host text sub).trans (coerceString_left recovers)
            | true =>
                exact .inr ⟨sub, rfl, undisputed.refused path text sub ⟨whole, stands, declared, recovers⟩⟩
      next => exact .inl stands
    · rw [coerceInputForSchema_eq]
      split
      next =>
        refine ⟨_, reach_coerceValue stands, ?_⟩
        cases schemaAt path schema with
        | none => exact shaped_self value
        | some sub => exact shaped_coerceValue host value sub
      next => exact ⟨value, stands, shaped_self value⟩

/-- A branch has a type, or its own branches have. -/
inductive Typed : Schema → Prop where
  | type {schema : Schema} (typed : schema.type.isSome = true) : Typed schema
  | union {schema : Schema} (untyped : schema.type = none) (nonempty : schema.anyOf ++ schema.oneOf ≠ [])
      (branches : ∀ branch ∈ schema.anyOf ++ schema.oneOf, Typed branch) : Typed schema

/-- What a schema takes is told by types: each union has branches with types only, and no list of types names a text
beside an object or a list. -/
inductive Told : Schema → Prop where
  | node {schema : Schema}
      (branches : schema.type = none → ∀ branch ∈ schema.anyOf ++ schema.oneOf, Typed branch)
      (apart : declaresType (effectiveSchemaFor schema) .string = true →
        declaresType (effectiveSchemaFor schema) .object = false ∧
          declaresType (effectiveSchemaFor schema) .array = false)
      (properties : ∀ name sub, propertyAt schema name = some sub → Told sub)
      (items : ∀ sub, itemsAt schema = some sub → Told sub) : Told schema

variable {found : Json} {path : List Place}

/-- A union has the structural branches of its branches, but for those that are null. -/
theorem mem_structuralBranches (untyped : schema.type = none) :
    sub ∈ structuralBranches schema ↔
      ∃ branch ∈ schema.anyOf ++ schema.oneOf, sub ∈ structuralBranches branch ∧ sub.type ≠ some (.one .null) := by
  rw [structuralBranches, if_neg (by simp [untyped]), List.mem_append, List.mem_flatMap, List.mem_flatMap]
  constructor
  · rintro (⟨branch, _, inside⟩ | ⟨branch, _, inside⟩)
    · obtain ⟨inside, notNull⟩ := List.mem_filter.mp inside
      exact ⟨branch.1, List.mem_append_left _ branch.2, inside, of_decide_eq_true notNull⟩
    · obtain ⟨inside, notNull⟩ := List.mem_filter.mp inside
      exact ⟨branch.1, List.mem_append_right _ branch.2, inside, of_decide_eq_true notNull⟩
  · rintro ⟨branch, listed, inside, notNull⟩
    have kept : sub ∈ (structuralBranches branch).filter fun sub => sub.type ≠ some (.one .null) :=
      List.mem_filter.mpr ⟨inside, decide_eq_true notNull⟩
    rcases List.mem_append.mp listed with any | one
    · exact .inl ⟨⟨branch, any⟩, List.mem_attach _ _, kept⟩
    · exact .inr ⟨⟨branch, one⟩, List.mem_attach _ _, kept⟩

theorem Valid.null_of_type (valid : Valid host schema value) (null : schema.type = some (.one .null)) :
    value = .null := by
  obtain ⟨type, declared, admitted⟩ := valid.type (by rw [null]; rfl)
  have same : JsonType.null = type := by simpa [declaresType, null] using declared
  subst same
  cases value with
  | null => rfl
  | _ => exact admitted.elim

/-- A value that a typed branch accepts is null, or one of its structural branches accepts it. -/
theorem Typed.accepts (typed : Typed schema) (valid : Valid host schema value) :
    value = .null ∨ ∃ sub ∈ structuralBranches schema, Valid host sub value := by
  induction typed with
  | type typed =>
      refine .inr ⟨_, ?_, valid⟩
      rw [structuralBranches, if_pos typed]
      exact List.mem_singleton_self _
  | union untyped nonempty branches ih =>
      obtain ⟨branch, listed, accepted⟩ := valid.branch nonempty
      rcases ih branch listed accepted with null | ⟨sub, inside, accepted⟩
      · exact .inl null
      · by_cases null : sub.type = some (.one .null)
        · exact .inl (accepted.null_of_type null)
        · exact .inr ⟨sub, (mem_structuralBranches untyped).mpr ⟨branch, listed, inside, null⟩, accepted⟩

/-- A value that is valid is valid for the schema that is followed. -/
theorem Valid.effective (branches : schema.type = none → ∀ branch ∈ schema.anyOf ++ schema.oneOf, Typed branch)
    (valid : Valid host schema value) (notNull : value ≠ .null) : Valid host (effectiveSchemaFor schema) value := by
  rcases effectiveSchemaFor_cases schema with same | ⟨untyped, alone⟩
  · exact same.symm ▸ valid
  · have union : schema.anyOf ++ schema.oneOf ≠ [] := by
      have listed : effectiveSchemaFor schema ∈ structuralBranches schema := alone ▸ List.mem_singleton_self _
      obtain ⟨branch, within, _⟩ := (mem_structuralBranches untyped).mp listed
      exact List.ne_nil_of_mem within
    rcases (Typed.union untyped union (branches untyped)).accepts valid with null | ⟨sub, listed, accepted⟩
    · exact absurd null notNull
    · rw [alone, List.mem_singleton] at listed
      exact listed ▸ accepted

theorem Told.effective (told : Told schema) (valid : Valid host schema value) (notNull : value ≠ .null) :
    Valid host (effectiveSchemaFor schema) value := by
  cases told with
  | node branches => exact valid.effective branches notNull

variable {name : Utf16}

theorem Told.property (told : Told schema) (found : propertyAt schema name = some sub) : Told sub := by
  cases told with
  | node _ _ properties => exact properties name sub found

theorem Told.item (told : Told schema) (found : itemsAt schema = some sub) : Told sub := by
  cases told with
  | node _ _ _ items => exact items sub found

theorem Told.at (told : Told schema) (declared : schemaAt path schema = some sub) : Told sub := by
  induction path generalizing schema with
  | nil => exact Option.some.inj declared ▸ told
  | cons place rest ih =>
      cases place with
      | key name =>
          obtain ⟨inner, listed, below⟩ := Option.bind_eq_some_iff.mp declared
          exact ih (told.property listed) below
      | index position =>
          obtain ⟨inner, listed, below⟩ := Option.bind_eq_some_iff.mp declared
          exact ih (told.item listed) below

/-- A schema that takes a text recovers none. -/
theorem Told.refuses (told : Told schema) (recovered : recovers host text (effectiveSchemaFor schema) = true)
    (other : Utf16) :
    ¬Valid host schema (.string other) := by
  intro valid
  have followed := told.effective valid (by simp)
  cases told with
  | node _ apart =>
      cases typed : (effectiveSchemaFor schema).type with
      | none => simp [recovers, declaresType, coerceScalarString, typed] at recovered
      | some names =>
          obtain ⟨type, declared, admitted⟩ := followed.type (by rw [typed]; rfl)
          have text : type = .string := by
            cases type with
            | string => rfl
            | _ => exact admitted.elim
          subst text
          obtain ⟨object, array⟩ := apart declared
          simp [recovers, object, array, declared] at recovered

theorem effective_property (found : propertyAt schema name = some sub) :
    (effectiveSchemaFor schema).properties.lookup name = some sub := by
  simp only [propertyAt] at found
  split at found
  next => exact found
  next => cases found

theorem effective_items (found : itemsAt schema = some sub) : (effectiveSchemaFor schema).items = some sub := by
  simp only [itemsAt] at found
  split at found
  next => exact found
  next => cases found

/-- What stands in a valid input is valid where it stands. -/
theorem Told.valid_at (told : Told schema) (valid : Valid host schema value)
    (stands : reach path value = some found) (declared : schemaAt path schema = some sub) : Valid host sub found := by
  induction path generalizing schema value with
  | nil =>
      obtain rfl := Option.some.inj stands
      exact Option.some.inj declared ▸ valid
  | cons place rest ih =>
      cases place with
      | key name =>
          obtain ⟨inner, property, below⟩ := Option.bind_eq_some_iff.mp declared
          cases value with
          | object entries =>
              obtain ⟨held, listed, here⟩ := Option.bind_eq_some_iff.mp stands
              have followed := told.effective valid (by simp)
              exact ih (told.property property)
                (followed.property (mem_of_lookup listed) (effective_property property)) here below
          | _ => cases stands
      | index position =>
          obtain ⟨inner, item, below⟩ := Option.bind_eq_some_iff.mp declared
          cases value with
          | array list =>
              obtain ⟨held, listed, here⟩ := Option.bind_eq_some_iff.mp stands
              have followed := told.effective valid (by simp)
              exact ih (told.item item)
                (followed.item (List.mem_of_getElem? listed) (effective_items item)) here below
          | _ => cases stands

/-- Where types tell what a schema takes, coercion is conservative. -/
theorem Told.undisputed (told : Told schema) (input : Json) : Undisputed host schema input where
  refused := fun _ _ _ recovered => (told.at recovered.declared).refuses recovered.recovers
  invalid := fun _ text _ recovered valid =>
    (told.at recovered.declared).refuses recovered.recovers text
      (told.valid_at valid recovered.stands recovered.declared)

def braces : Utf16 := Utf16.ofString "\x7b\x7d"

/-- A language that reads two braces. -/
def bracesHost : Host where
  jsonParse := fun text => if text = braces then some (.object []) else none
  number := fun _ => none
  isInteger := fun _ => true
  parsesObject := by
    intro text value _ found
    split at found
    · exact ⟨[], (Option.some.inj found).symm⟩
    · cases found
  parsesArray := by
    intro text value opens found
    split at found
    next same =>
      rw [same] at opens
      exact absurd opens (by decide)
    next => cases found

def noteKey : Utf16 := Utf16.ofString "note"

/-- A note is a text or an object. -/
def noteSchema : Schema :=
  .node (some (.one .object)) [] [] none
    [(noteKey, .node (some (.listed [.string, .object])) [] [] none [] none)] none

def noteInput : JsonValue where
  json := .object [(noteKey, .string braces)]
  distinct := .object (List.nodup_singleton _) fun _ listed => List.mem_singleton.mp listed ▸ .string _

theorem noteInput_valid : Valid bracesHost noteSchema noteInput.json := by
  rw [Valid]
  refine ⟨fun _ => ⟨.object, rfl, trivial⟩, fun union => absurd rfl union, fun union => absurd rfl union,
    nofun, ?_, nofun⟩
  intro entries same entry listed sub found
  cases same
  obtain rfl := List.mem_singleton.mp listed
  obtain rfl : Schema.node (some (.listed [.string, .object])) [] [] none [] none = sub :=
    Option.some.inj (show some _ = some sub from found)
  rw [Valid]
  exact ⟨fun _ => ⟨.string, rfl, trivial⟩, fun union => absurd rfl union, fun union => absurd rfl union,
    nofun, nofun, nofun⟩

end NimbleBrain.Engine.Coercion
