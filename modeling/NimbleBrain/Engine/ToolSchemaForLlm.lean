import NimbleBrain.Engine.JsonObject

/- The model is shown a flat form of a tool's input schema, and its calls are checked against the schema itself. -/

namespace NimbleBrain.Engine

open Library

def oneOfKey : Utf16 := Utf16.ofString "oneOf"

def anyOfKey : Utf16 := Utf16.ofString "anyOf"

def allOfKey : Utf16 := Utf16.ofString "allOf"

def enumKey : Utf16 := Utf16.ofString "enum"

def notKey : Utf16 := Utf16.ofString "not"

def typeKey : Utf16 := Utf16.ofString "type"

def propertiesKey : Utf16 := Utf16.ofString "properties"

def requiredKey : Utf16 := Utf16.ofString "required"

def objectType : Json := .string (Utf16.ofString "object")

/-- A raw schema that is no object counts as none. -/
def asObjectSchema : Option Json → Option (List (Utf16 × Json))
  | some (.object entries) => some entries
  | _ => none

def emptyObjectSchema : Fields :=
  ((∅ : Fields).set typeKey objectType).set propertiesKey (.object [])

/-- A list with an element. -/
def branchList : Option Json → Option (List Json)
  | some (.array (first :: rest)) => some (first :: rest)
  | _ => none

def plainProperties : Option Json → List (Utf16 × Json)
  | some (.object entries) => entries
  | _ => []

/-- The first branch that is an object stands in for all of them. -/
def collapseToFirstBranch (schema : Fields) (key : Utf16) (branches : List Json) : Fields :=
  match branches.filterMap asEntries with
  | [] => schema.delete key
  | branch :: _ => spread branch (schema.delete key)

def asText : Json → Option Utf16
  | .string text => some text
  | _ => none

def readStringArray : Option Json → List Utf16
  | some (.array items) => items.filterMap asText
  | _ => []

/-- A name joins a set once. -/
def addName (names : List Utf16) (name : Utf16) : List Utf16 := if name ∈ names then names else names ++ [name]

/-- The properties of the root and of every branch are merged, and so are the required names. -/
def mergeAllOf (schema : Fields) (list : List Json) : Fields :=
  let branches := (list.filterMap asEntries).map fieldsOf
  let mergedProperties : PlainObject :=
    { own := spread (((schema.get? propertiesKey).map ownEntries).getD []) ∅, prototype := .ordinary }
  let mergedProperties := branches.foldl
    (fun merged branch => merged.assignAll (fieldsOf (plainProperties (branch.get? propertiesKey))).entries)
    mergedProperties
  let required := (readStringArray (schema.get? requiredKey)).foldl addName []
  let required := branches.foldl
    (fun required branch => (readStringArray (branch.get? requiredKey)).foldl addName required) required
  let out := (schema.delete allOfKey).set propertiesKey (.object mergedProperties.own.entries)
  if 0 < required.length then out.set requiredKey (.array (required.map .string)) else out.delete requiredKey

/-- A composition at the root is rewritten. Without one the schema stays. -/
def applyRootComposition (schema : Fields) : Fields :=
  match branchList (schema.get? oneOfKey) with
  | some branches => collapseToFirstBranch schema oneOfKey branches
  | none =>
      match branchList (schema.get? anyOfKey) with
      | some branches => collapseToFirstBranch schema anyOfKey branches
      | none =>
          match branchList (schema.get? allOfKey) with
          | some branches => mergeAllOf schema branches
          | none => schema

def isObjectType : Option Json → Bool
  | some (.string text) => text = Utf16.ofString "object"
  | _ => false

def isPlainObject : Option Json → Bool
  | some (.object _) => true
  | _ => false

/-- The root has no enumeration and no negation, is of type object and has properties. -/
def normalizeRoot (schema : Fields) : Fields :=
  let schema := (schema.delete enumKey).delete notKey
  let schema := if isObjectType (schema.get? typeKey) then schema else schema.set typeKey objectType
  if isPlainObject (schema.get? propertiesKey) then schema else schema.set propertiesKey (.object [])

/-- The schema that the model is shown for a tool. -/
def toolSchemaForLlm (raw : Option Json) : Fields :=
  match asObjectSchema raw with
  | none => emptyObjectSchema
  | some source => normalizeRoot (applyRootComposition (spread source ∅))

def isString : Option Json → Bool
  | some (.string _) => true
  | _ => false

def isFalse : Option Json → Bool
  | some (.bool false) => true
  | _ => false

def conditionalKeywords : List Utf16 :=
  ["if", "then", "else", "dependentSchemas", "dependencies"].map Utf16.ofString

/-- The node itself admits keys beyond its properties. -/
def opensKeySet (node : Fields) : Bool :=
  isString (node.get? (Utf16.ofString "$ref")) ||
    conditionalKeywords.any (fun keyword => (node.get? keyword).isSome) ||
    ["additionalProperties", "unevaluatedProperties"].any
      (fun keyword => (node.get? (Utf16.ofString keyword)).isSome && !isFalse (node.get? (Utf16.ofString keyword))) ||
    !(plainProperties (node.get? (Utf16.ofString "patternProperties"))).isEmpty

def listItems : Option Json → List Json
  | some (.array items) => items
  | _ => []

/-- The object branches of the three compositions. -/
def branchesOf (node : Fields) : List (List (Utf16 × Json)) :=
  [allOfKey, anyOfKey, oneOfKey].flatMap fun keyword => (listItems (node.get? keyword)).filterMap asEntries

/-- The names found so far, and whether any properties were declared. -/
structure Declared where
  names : List Utf16
  declaresProperties : Bool
  deriving DecidableEq

def Declared.addProperties (declared : Declared) (properties : Option Json) : Declared :=
  match properties with
  | some (.object entries) =>
      { names := (entries.map Prod.fst).foldl addName declared.names, declaresProperties := true }
  | _ => declared

theorem sizeOf_branch_lt {entries branch : List (Utf16 × Json)} (listed : branch ∈ branchesOf (fieldsOf entries)) :
    sizeOf branch < sizeOf entries := by
  obtain ⟨keyword, _, branches⟩ := List.mem_flatMap.mp listed
  obtain ⟨item, inItems, shape⟩ := List.mem_filterMap.mp branches
  cases found : (fieldsOf entries).get? keyword with
  | none => simp [found, listItems] at inItems
  | some value =>
      have inEntry := List.sizeOf_lt_of_mem (mem_of_fieldsOf found)
      cases value with
      | array items =>
          have inList := List.sizeOf_lt_of_mem (show item ∈ items by simpa [found, listItems] using inItems)
          cases item with
          | object inner =>
              obtain rfl : inner = branch := Option.some.inj shape
              simp only [Prod.mk.sizeOf_spec, Json.array.sizeOf_spec, Json.object.sizeOf_spec] at inEntry inList
              omega
          | _ => cases shape
      | _ => simp [found, listItems] at inItems

/-- A node and its branches are visited until one of them is open. -/
def visit (node : List (Utf16 × Json)) (declared : Declared) : Bool × Declared :=
  if opensKeySet (fieldsOf node) then (false, declared)
  else
    (branchesOf (fieldsOf node)).attach.foldl
      (fun visited branch => if visited.1 then visit branch.1 visited.2 else visited)
      (true, declared.addProperties ((fieldsOf node).get? propertiesKey))
termination_by sizeOf node
decreasing_by exact sizeOf_branch_lt branch.2

/-- Every argument name the schema declares, or `none` where it is open or declares none. -/
def declaredArgumentNames (schema : List (Utf16 × Json)) : Option (List Utf16) :=
  let (closed, declared) := visit schema { names := [], declaresProperties := false }
  if !closed || !declared.declaresProperties then none else some declared.names

/-- Keys of the input that the schema does not declare. -/
def unknownArgumentNames (input schema : List (Utf16 × Json)) : List Utf16 :=
  match declaredArgumentNames schema with
  | none => []
  | some declared => (input.map Prod.fst).filter (· ∉ declared)

end NimbleBrain.Engine

/- The schema shown to the model is legal, merges what must hold at once and names only arguments that are accepted,
exactly when the composition at its root is flat. -/

namespace NimbleBrain.Engine

open Library

def compositions : List Utf16 := [oneOfKey, anyOfKey, allOfKey]

/-- The root has an object type, properties, and no keyword that a provider refuses there. -/
structure LegalRoot (shown : Fields) : Prop where
  typed : shown.get? typeKey = some objectType
  properties : isPlainObject (shown.get? propertiesKey) = true
  flat : ∀ key ∈ compositions, shown.get? key = none
  noEnum : shown.get? enumKey = none
  noNot : shown.get? notKey = none

/-- The names of a node's properties. -/
def propertyNames (node : Fields) : List Utf16 := (plainProperties (node.get? propertiesKey)).map Prod.fst

def objectBranches (value : Option Json) : List (List (Utf16 × Json)) := (listItems value).filterMap asEntries

/-- What is shown for an `allOf` has the properties and the required names of the root and of its branches. -/
structure MergesAllOf (source shown : Fields) : Prop where
  properties : ∀ name, name ∈ propertyNames shown ↔
    name ∈ propertyNames source ∨
      ∃ branch ∈ objectBranches (source.get? allOfKey), name ∈ propertyNames (fieldsOf branch)
  required : ∀ name, name ∈ readStringArray (shown.get? requiredKey) ↔
    name ∈ readStringArray (source.get? requiredKey) ∨
      ∃ branch ∈ objectBranches (source.get? allOfKey), name ∈ readStringArray ((fieldsOf branch).get? requiredKey)

/-- What the model is shown of a raw schema. -/
structure WellShown (raw : Option Json) : Prop where
  legal : LegalRoot (toolSchemaForLlm raw)
  merged : ∀ source, asObjectSchema raw = some source → ((fieldsOf source).get? allOfKey).isSome →
    MergesAllOf (fieldsOf source) (toolSchemaForLlm raw)
  accepted : ∀ source, asObjectSchema raw = some source → ∀ name ∈ propertyNames (toolSchemaForLlm raw),
    ∀ input, name ∉ unknownArgumentNames input source

/-- The root has one composition at most, a list with an element, and the branch that stands in for an `oneOf` or an
`anyOf` has none. -/
structure FlatComposition (schema : Fields) : Prop where
  alone : ∀ key ∈ compositions, ∀ other ∈ compositions, (schema.get? key).isSome → (schema.get? other).isSome →
    key = other
  listed : ∀ key ∈ compositions, (schema.get? key).isSome → (branchList (schema.get? key)).isSome
  first : ∀ key ∈ [oneOfKey, anyOfKey], ∀ branch ∈ (objectBranches (schema.get? key)).head?,
    ∀ composition ∈ compositions, composition ∉ branch.map Prod.fst

/-- The properties of the branches, one after the other. -/
def branchProperties (schema : Fields) : List (Utf16 × Json) :=
  (objectBranches (schema.get? allOfKey)).flatMap fun branch =>
    (fieldsOf (plainProperties ((fieldsOf branch).get? propertiesKey))).entries

def rootProperties (schema : Fields) : List (Utf16 × Json) :=
  ((schema.get? propertiesKey).map ownEntries).getD []

def protoValues (properties : List (Utf16 × Json)) : List Json :=
  (properties.filter fun property => property.1 = protoKey).map Prod.snd

/-- Properties of an `allOf` that is no plain object bring no index of their own, and a property named `__proto__` is
one of the root or follows one that hides the accessor. -/
structure PlainMerge (schema : Fields) : Prop where
  named : ∀ name ∈ (rootProperties schema).map Prod.fst,
    name ∈ propertyNames schema ∨ name ∈ (branchProperties schema).map Prod.fst
  proto : protoKey ∈ (branchProperties schema).map Prod.fst →
    protoKey ∈ (rootProperties schema).map Prod.fst ∨
      ∃ value ∈ (protoValues (branchProperties schema)).dropLast, hidesAccessor value = true

/-- A raw schema whose root can be shown flat. -/
structure FlatSchema (schema : Fields) : Prop where
  composition : FlatComposition schema
  merge : (schema.get? allOfKey).isSome → PlainMerge schema

variable {schema : Fields} {key : Utf16}

/-- The names below are all different. -/
theorem keys_apart :
    (∀ key ∈ compositions, key ≠ enumKey ∧ key ≠ notKey ∧ key ≠ typeKey ∧ key ≠ propertiesKey ∧ key ≠ requiredKey) ∧
      (propertiesKey ≠ enumKey ∧ propertiesKey ≠ notKey ∧ propertiesKey ≠ typeKey ∧ typeKey ≠ enumKey ∧
        typeKey ≠ notKey ∧ enumKey ≠ notKey ∧ allOfKey ≠ propertiesKey ∧ allOfKey ≠ requiredKey ∧
        requiredKey ≠ propertiesKey) ∧
      (requiredKey ≠ enumKey ∧ requiredKey ≠ notKey ∧ requiredKey ≠ typeKey ∧ requiredKey ≠ propertiesKey) ∧
      allOfKey ∉ [oneOfKey, anyOfKey] := by
  decide +kernel

theorem composition_apart :
    ∀ key ∈ compositions, key ≠ enumKey ∧ key ≠ notKey ∧ key ≠ typeKey ∧ key ≠ propertiesKey ∧ key ≠ requiredKey :=
  keys_apart.1

theorem allOfKey_mem : allOfKey ∈ compositions := List.mem_append_right [oneOfKey, anyOfKey] List.mem_cons_self

theorem get?_normalizeRoot (schema : Fields)
    (apart : key ≠ enumKey ∧ key ≠ notKey ∧ key ≠ typeKey ∧ key ≠ propertiesKey) :
    (normalizeRoot schema).get? key = schema.get? key := by
  obtain ⟨noEnum, noNot, noType, noProperties⟩ := apart
  simp only [normalizeRoot]
  split <;> split <;>
    simp only [OrderedMap.get?_set, OrderedMap.get?_delete, if_neg noEnum, if_neg noNot, if_neg noType,
      if_neg noProperties]

theorem rootKeys_apart :
    propertiesKey ≠ enumKey ∧ propertiesKey ≠ notKey ∧ propertiesKey ≠ typeKey ∧ typeKey ≠ enumKey ∧ typeKey ≠ notKey ∧
      enumKey ≠ notKey ∧ allOfKey ≠ propertiesKey ∧ allOfKey ≠ requiredKey ∧ requiredKey ≠ propertiesKey :=
  keys_apart.2.1

theorem get?_withProperties (schema : Fields) :
    (if isPlainObject (schema.get? propertiesKey) then schema else schema.set propertiesKey (.object [])).get?
        propertiesKey =
      if isPlainObject (schema.get? propertiesKey) then schema.get? propertiesKey else some (.object []) := by
  split
  · rfl
  · exact OrderedMap.get?_set_self ..

theorem get?_properties_normalizeRoot (schema : Fields) :
    (normalizeRoot schema).get? propertiesKey =
      if isPlainObject (schema.get? propertiesKey) then schema.get? propertiesKey else some (.object []) := by
  obtain ⟨notEnum, notNot, notType, _⟩ := rootKeys_apart
  have untouched : ∀ typed : Fields, (typed = (schema.delete enumKey).delete notKey ∨
      typed = ((schema.delete enumKey).delete notKey).set typeKey objectType) →
      typed.get? propertiesKey = schema.get? propertiesKey := by
    rintro _ (rfl | rfl) <;>
      simp only [OrderedMap.get?_set, OrderedMap.get?_delete, if_neg notEnum, if_neg notNot, if_neg notType]
  simp only [normalizeRoot]
  rw [get?_withProperties]
  split
  · rw [untouched _ (.inl rfl)]
  · rw [untouched _ (.inr rfl)]

variable {value : Option Json}

theorem eq_of_isObjectType (typed : isObjectType value = true) : value = some objectType := by
  cases value with
  | none => cases typed
  | some value =>
      cases value with
      | string text => rw [objectType, of_decide_eq_true typed]
      | _ => cases typed

/-- Apart from the compositions, every normalized root is legal. -/
theorem legalRoot_normalizeRoot (schema : Fields) :
    LegalRoot (normalizeRoot schema) ↔ ∀ key ∈ compositions, schema.get? key = none := by
  obtain ⟨notEnum, notNot, notType, typeEnum, typeNot, enumNot, _⟩ := rootKeys_apart
  have apart : ∀ key ∈ compositions, (normalizeRoot schema).get? key = schema.get? key := fun key member =>
    have different := composition_apart key member
    get?_normalizeRoot schema ⟨different.1, different.2.1, different.2.2.1, different.2.2.2.1⟩
  refine ⟨fun legal key member => apart key member ▸ legal.flat key member, fun flat => ⟨?_, ?_, ?_, ?_, ?_⟩⟩
  · simp only [normalizeRoot]
    split
    next typed =>
      split
      · exact eq_of_isObjectType typed
      · rw [OrderedMap.get?_set, if_neg (Ne.symm notType)]
        exact eq_of_isObjectType typed
    next =>
      split
      · exact OrderedMap.get?_set_self ..
      · rw [OrderedMap.get?_set, if_neg (Ne.symm notType), OrderedMap.get?_set_self]
  · rw [get?_properties_normalizeRoot]
    split
    next plain => exact plain
    next => rfl
  · exact fun key member => (apart key member).trans (flat key member)
  · simp only [normalizeRoot]
    split <;> split <;>
      simp only [OrderedMap.get?_set, OrderedMap.get?_delete, if_neg enumNot, if_neg (Ne.symm typeEnum),
        if_neg (Ne.symm notEnum), if_true]
  · simp only [normalizeRoot]
    split <;> split <;>
      simp only [OrderedMap.get?_set, OrderedMap.get?_delete, if_neg (Ne.symm typeNot), if_neg (Ne.symm notNot), if_true]

theorem propertyNames_normalizeRoot (schema : Fields) :
    propertyNames (normalizeRoot schema) = propertyNames schema := by
  rw [propertyNames, propertyNames, get?_properties_normalizeRoot]
  split
  · rfl
  next plain =>
    cases found : schema.get? propertiesKey with
    | none => rfl
    | some value =>
        cases value with
        | object entries => simp [found, isPlainObject] at plain
        | _ => rfl

/-- A collapsed schema lacks a keyword when the root without the composition and its first branch do. -/
theorem get?_collapse (schema : Fields) (key composition : Utf16) (branches : List Json) :
    (collapseToFirstBranch schema key branches).get? composition = none ↔
      (composition = key ∨ schema.get? composition = none) ∧
        ∀ branch ∈ (branches.filterMap asEntries).head?, composition ∉ branch.map Prod.fst := by
  rw [collapseToFirstBranch]
  split
  next none =>
    rw [OrderedMap.get?_delete]
    by_cases same : composition = key <;> simp [same, none]
  next branch rest first =>
    rw [← Option.not_isSome_iff_eq_none, isSome_get?_spread, not_or, Option.not_isSome_iff_eq_none,
      OrderedMap.get?_delete]
    by_cases same : composition = key <;> simp [same, first, and_comm]

variable {branches : List Json}

theorem get?_mergeAllOf (schema : Fields) (list : List Json) (member : key ∈ compositions) :
    (mergeAllOf schema list).get? key = if key = allOfKey then none else schema.get? key := by
  obtain ⟨_, _, _, notProperties, notRequired⟩ := composition_apart key member
  simp only [mergeAllOf]
  split <;>
    simp only [OrderedMap.get?_set, OrderedMap.get?_delete, if_neg notProperties, if_neg notRequired]

theorem branchList_eq (listed : branchList value = some branches) :
    value = some (.array branches) := by
  rw [branchList.eq_def] at listed
  split at listed
  · rw [Option.some.inj listed]
  · cases listed

/-- A schema that has no composition but one flat list is flat. -/
theorem flatComposition_of_alone (listed : (branchList (schema.get? key)).isSome)
    (absent : ∀ other ∈ compositions, other = key ∨ schema.get? other = none)
    (first : key ∈ [oneOfKey, anyOfKey] → ∀ branch ∈ (objectBranches (schema.get? key)).head?,
      ∀ composition ∈ compositions, composition ∉ branch.map Prod.fst) : FlatComposition schema := by
  have only : ∀ other ∈ compositions, (schema.get? other).isSome → other = key := fun other member present =>
    (absent other member).resolve_right (Option.isSome_iff_ne_none.mp present)
  refine ⟨fun one inOne other inOther present too => ?_, fun one member present => ?_, fun one member branch begins => ?_⟩
  · exact (only one inOne present).trans (only other inOther too).symm
  · rw [only one member present]
    exact listed
  · have inAll : one ∈ compositions := List.mem_append_left [allOfKey] member
    rcases absent one inAll with rfl | none
    · exact first member branch begins
    · simp [none, objectBranches, listItems] at begins

theorem FlatComposition.absent (flat : FlatComposition schema) (member : key ∈ compositions)
    (present : (schema.get? key).isSome) : ∀ other ∈ compositions, other = key ∨ schema.get? other = none := by
  intro other inOther
  cases found : schema.get? other with
  | none => exact .inr rfl
  | some value => exact .inl (flat.alone other inOther key member (by rw [found]; rfl) present)

theorem collapse_flat_iff (member : key ∈ [oneOfKey, anyOfKey])
    (listed : branchList (schema.get? key) = some branches) :
    (∀ other ∈ compositions, (collapseToFirstBranch schema key branches).get? other = none) ↔ FlatComposition schema := by
  have found := branchList_eq listed
  have same : objectBranches (schema.get? key) = branches.filterMap asEntries := by rw [found]; rfl
  simp only [get?_collapse]
  constructor
  · intro flat
    refine flatComposition_of_alone (by rw [listed]; rfl) (fun other inOther => (flat other inOther).1) ?_
    rw [same]
    exact fun _ branch begins composition inside => (flat composition inside).2 branch begins
  · intro flat other inOther
    refine ⟨flat.absent (List.mem_append_left [allOfKey] member) (by rw [found]; rfl) other inOther, ?_⟩
    rw [← same]
    exact fun branch begins => flat.first key member branch begins other inOther

/-- The rewritten root is legal exactly when its composition is flat. -/
theorem legalRoot_iff (schema : Fields) :
    LegalRoot (normalizeRoot (applyRootComposition schema)) ↔ FlatComposition schema := by
  rw [legalRoot_normalizeRoot, applyRootComposition]
  split
  next branches listed => exact collapse_flat_iff List.mem_cons_self listed
  next noOneOf =>
    split
    next branches listed => exact collapse_flat_iff (List.mem_cons_of_mem _ List.mem_cons_self) listed
    next noAnyOf =>
      split
      next list listed =>
        have merged : (∀ key ∈ compositions, (mergeAllOf schema list).get? key = none) ↔
            ∀ key ∈ compositions, key = allOfKey ∨ schema.get? key = none := by
          refine forall₂_congr fun key member => ?_
          rw [get?_mergeAllOf schema list member]
          by_cases same : key = allOfKey <;> simp [same]
        rw [merged]
        constructor
        · exact fun absent => flatComposition_of_alone (by rw [listed]; rfl) absent
            fun never => absurd never keys_apart.2.2.2
        · exact fun flat => flat.absent allOfKey_mem (by rw [branchList_eq listed]; rfl)
      next noAllOf =>
        constructor
        · intro none
          refine ⟨fun one inOne _ _ present => ?_, fun one inOne present => ?_, fun one member branch begins => ?_⟩
          · simp [none one inOne] at present
          · simp [none one inOne] at present
          · simp [none one (List.mem_append_left [allOfKey] member), objectBranches, listItems] at begins
        · intro flat key member
          cases found : schema.get? key with
          | none => rfl
          | some value =>
              have listed := flat.listed key member (by rw [found]; rfl)
              rcases List.mem_cons.mp member with rfl | member
              · simp [noOneOf] at listed
              · rcases List.mem_cons.mp member with rfl | member
                · simp [noAnyOf] at listed
                · obtain rfl := List.mem_singleton.mp member
                  simp [noAllOf] at listed

variable {object : PlainObject} {pairs : List (Utf16 × Json)} {name : Utf16}

/-- Object.assign gives the object the names of the source, `__proto__` apart. -/
theorem isSome_assignAll (pairs : List (Utf16 × Json)) (object : PlainObject) (proper : name ≠ protoKey) :
    ((object.assignAll pairs).own.get? name).isSome ↔ (object.own.get? name).isSome ∨ name ∈ pairs.map Prod.fst := by
  induction pairs generalizing object with
  | nil => simp [PlainObject.assignAll]
  | cons pair rest ih =>
      change (((object.assign pair.1 pair.2).assignAll rest).own.get? name).isSome ↔ _
      rw [ih, List.map_cons, List.mem_cons, PlainObject.assign]
      split
      next hidden =>
        have different : name ≠ pair.1 := fun same => proper (same.trans hidden.1)
        simp [different]
      next =>
        rw [isSome_get?_set]
        tauto

theorem Prototype.hides_assigned {prototype : Prototype} (shown : prototype.hides = false) (value : Json) :
    (prototype.assigned value).hides = hidesAccessor value := by
  cases value with
  | null | object _ | array _ => rfl
  | bool _ | number _ | string _ => exact shown

/-- A property named `__proto__` is made only where the accessor is hidden. -/
theorem isSome_proto_assignAll (pairs : List (Utf16 × Json)) (object : PlainObject) :
    ((object.assignAll pairs).own.get? protoKey).isSome ↔
      (object.own.get? protoKey).isSome ∨ protoValues pairs ≠ [] ∧ object.prototype.hides = true ∨
        ∃ value ∈ (protoValues pairs).dropLast, hidesAccessor value = true := by
  induction pairs generalizing object with
  | nil => simp [PlainObject.assignAll, protoValues]
  | cons pair rest ih =>
      change (((object.assign pair.1 pair.2).assignAll rest).own.get? protoKey).isSome ↔ _
      rw [ih]
      by_cases proto : pair.1 = protoKey
      · have values : protoValues (pair :: rest) = pair.2 :: protoValues rest := by
          simp [protoValues, proto]
        rw [values, PlainObject.assign]
        by_cases present : (object.own.get? protoKey).isSome
        · have kept : ¬ (pair.1 = protoKey ∧ (object.own.get? pair.1).isNone ∧ object.prototype.hides = false) := by
            rintro ⟨_, none, _⟩
            rw [proto, Option.isNone_iff_eq_none] at none
            simp [none] at present
          rw [if_neg kept, isSome_get?_set]
          simp [present]
        · cases hides : object.prototype.hides with
          | true =>
              rw [if_neg (by simp), isSome_get?_set]
              simp [proto]
          | false =>
              have taken : pair.1 = protoKey ∧ (object.own.get? pair.1).isNone ∧ false = false := by
                rw [proto]
                simpa using present
              rw [if_pos taken]
              simp only [present, Prototype.hides_assigned hides]
              cases others : protoValues rest with
              | nil => simp
              | cons next later => simp
      · have values : protoValues (pair :: rest) = protoValues rest := by
          simp [protoValues, proto]
        rw [values, PlainObject.assign, if_neg (fun taken => proto taken.1), isSome_get?_set]
        simp [Ne.symm proto]

theorem assignAll_append (object : PlainObject) (first second : List (Utf16 × Json)) :
    object.assignAll (first ++ second) = (object.assignAll first).assignAll second := List.foldl_append

theorem foldl_assignAll (branches : List (List (Utf16 × Json))) (source : List (Utf16 × Json) → List (Utf16 × Json))
    (object : PlainObject) :
    branches.foldl (fun merged branch => merged.assignAll (source branch)) object =
      object.assignAll (branches.flatMap source) := by
  induction branches generalizing object with
  | nil => rfl
  | cons branch rest ih => rw [List.foldl_cons, ih, List.flatMap_cons, assignAll_append]

theorem mem_foldl_addName (added names : List Utf16) (name : Utf16) :
    name ∈ added.foldl addName names ↔ name ∈ names ∨ name ∈ added := by
  induction added generalizing names with
  | nil => simp
  | cons first rest ih =>
      rw [List.foldl_cons, ih, addName]
      split
      next listed =>
        rw [List.mem_cons]
        constructor
        · tauto
        · rintro (old | rfl | new)
          · exact .inl old
          · exact .inl listed
          · exact .inr new
      next =>
        rw [List.mem_append, List.mem_singleton, List.mem_cons]
        tauto

theorem mem_foldl_branches (branches : List Fields) (read : Fields → List Utf16) (names : List Utf16) (name : Utf16) :
    name ∈ branches.foldl (fun names branch => (read branch).foldl addName names) names ↔
      name ∈ names ∨ ∃ branch ∈ branches, name ∈ read branch := by
  induction branches generalizing names with
  | nil => simp
  | cons branch rest ih =>
      rw [List.foldl_cons, ih, mem_foldl_addName]
      simp only [List.mem_cons, exists_eq_or_imp]
      tauto

theorem readStringArray_texts (names : List Utf16) : readStringArray (some (.array (names.map .string))) = names := by
  rw [readStringArray, List.filterMap_map]
  exact List.filterMap_some

variable {list : List Json}

/-- The names of the merged properties. -/
theorem mem_propertyNames_mergeAllOf (listed : schema.get? allOfKey = some (.array list)) :
    name ∈ propertyNames (mergeAllOf schema list) ↔
      ((PlainObject.assignAll { own := spread (rootProperties schema) ∅, prototype := .ordinary }
        (branchProperties schema)).own.get? name).isSome := by
  obtain ⟨_, _, _, _, _, _, _, _, notProperties⟩ := rootKeys_apart
  have branches : branchProperties schema = (list.filterMap asEntries).flatMap fun branch =>
      (fieldsOf (plainProperties ((fieldsOf branch).get? propertiesKey))).entries := by
    rw [branchProperties, listed]
    rfl
  have merged : (mergeAllOf schema list).get? propertiesKey =
      some (.object (PlainObject.assignAll { own := spread (rootProperties schema) ∅, prototype := .ordinary }
        (branchProperties schema)).own.entries) := by
    rw [branches, ← foldl_assignAll]
    simp only [mergeAllOf, List.foldl_map, rootProperties]
    split
    · rw [OrderedMap.get?_set, if_neg (Ne.symm notProperties), OrderedMap.get?_set_self]
    · rw [OrderedMap.get?_delete, if_neg (Ne.symm notProperties), OrderedMap.get?_set_self]
  rw [propertyNames, merged, plainProperties, OrderedMap.isSome_get?_iff]

/-- The required names of the merged schema. -/
theorem mem_required_mergeAllOf (listed : schema.get? allOfKey = some (.array list)) :
    name ∈ readStringArray ((normalizeRoot (mergeAllOf schema list)).get? requiredKey) ↔
      name ∈ readStringArray (schema.get? requiredKey) ∨
        ∃ branch ∈ objectBranches (schema.get? allOfKey), name ∈ readStringArray ((fieldsOf branch).get? requiredKey) := by
  have objects : objectBranches (schema.get? allOfKey) = list.filterMap asEntries := by
    rw [listed]
    rfl
  have required := mem_foldl_branches ((list.filterMap asEntries).map fieldsOf)
    (fun branch => readStringArray (branch.get? requiredKey)) ((readStringArray (schema.get? requiredKey)).foldl addName [])
    name
  rw [mem_foldl_addName] at required
  simp only [List.not_mem_nil, false_or, List.mem_map, exists_exists_and_eq_and] at required
  rw [get?_normalizeRoot _ keys_apart.2.2.1, objects, ← required]
  simp only [mergeAllOf]
  split
  next => rw [OrderedMap.get?_set_self, readStringArray_texts]
  next none =>
    rw [OrderedMap.get?_delete, if_pos rfl, List.eq_nil_of_length_eq_zero (Nat.eq_zero_of_not_pos none)]
    exact Iff.rfl

end NimbleBrain.Engine
