import NimbleBrain.Engine.ToolSchemaForLlm

/- Every argument that the model is shown is one that its calls may name. -/

namespace NimbleBrain.Engine

open Library

variable {schema : Fields} {name : Utf16}

theorem propertyNames_subset (schema : Fields) (listed : name ∈ propertyNames schema) :
    name ∈ (rootProperties schema).map Prod.fst := by
  rw [propertyNames] at listed
  rw [rootProperties]
  cases found : schema.get? propertiesKey with
  | none => simp [found, plainProperties] at listed
  | some value =>
      cases value with
      | object entries => simpa [found, plainProperties, ownEntries] using listed
      | _ => simp [found, plainProperties] at listed

theorem mem_fieldsOf_names (entries : List (Utf16 × Json)) :
    name ∈ (fieldsOf entries).entries.map Prod.fst ↔ name ∈ entries.map Prod.fst := by
  rw [← OrderedMap.isSome_get?_iff, isSome_fieldsOf]

theorem mem_branchProperties (schema : Fields) :
    name ∈ (branchProperties schema).map Prod.fst ↔
      ∃ branch ∈ objectBranches (schema.get? allOfKey), name ∈ propertyNames (fieldsOf branch) := by
  rw [branchProperties, List.map_flatMap, List.mem_flatMap]
  refine exists_congr fun branch => and_congr_right fun _ => ?_
  rw [mem_fieldsOf_names, propertyNames]

theorem mem_protoValues {pairs : List (Utf16 × Json)} {value : Json} (listed : value ∈ protoValues pairs) :
    protoKey ∈ pairs.map Prod.fst := by
  obtain ⟨pair, member, _⟩ := List.mem_map.mp listed
  obtain ⟨inPairs, proto⟩ := List.mem_filter.mp member
  exact List.mem_map.mpr ⟨pair, inPairs, of_decide_eq_true proto⟩

variable {list : List Json}

/-- The names shown for an `allOf`. -/
theorem mem_shown (listed : schema.get? allOfKey = some (.array list)) :
    name ∈ propertyNames (normalizeRoot (mergeAllOf schema list)) ↔
      name ∈ (rootProperties schema).map Prod.fst ∨
        if name = protoKey then ∃ value ∈ (protoValues (branchProperties schema)).dropLast, hidesAccessor value = true
        else name ∈ (branchProperties schema).map Prod.fst := by
  rw [propertyNames_normalizeRoot, mem_propertyNames_mergeAllOf listed]
  split
  next proto =>
    rw [proto, isSome_proto_assignAll, isSome_get?_spread]
    simp [Prototype.hides]
  next proper =>
    rw [isSome_assignAll _ _ proper, isSome_get?_spread]
    simp

/-- A merged schema shows the union of the names exactly when the merge is plain. -/
theorem mergesAllOf_iff (listed : schema.get? allOfKey = some (.array list)) :
    MergesAllOf schema (normalizeRoot (mergeAllOf schema list)) ↔ PlainMerge schema := by
  constructor
  · intro merges
    refine ⟨fun name inRoot => ?_, fun inBranches => ?_⟩
    · rw [mem_branchProperties]
      exact (merges.properties name).mp ((mem_shown listed).mpr (.inl inRoot))
    · have shown := (merges.properties protoKey).mpr (.inr ((mem_branchProperties schema).mp inBranches))
      simpa using (mem_shown listed).mp shown
  · intro plain
    refine ⟨fun name => ?_, fun name => mem_required_mergeAllOf listed⟩
    rw [mem_shown listed, ← mem_branchProperties]
    constructor
    · rintro (inRoot | inBranches)
      · exact plain.named name inRoot
      · split at inBranches
        next proto =>
          obtain ⟨value, inValues, _⟩ := inBranches
          exact .inr (proto ▸ mem_protoValues (List.dropLast_subset _ inValues))
        next => exact .inr inBranches
    · rintro (own | inBranches)
      · exact .inl (propertyNames_subset schema own)
      · by_cases proto : name = protoKey
        · rw [if_pos proto]
          exact proto ▸ plain.proto (proto ▸ inBranches)
        · rw [if_neg proto]
          exact .inr inBranches

variable {declared : Declared}

theorem Declared.names_subset (declared : Declared) (properties : Option Json) :
    declared.names ⊆ (declared.addProperties properties).names := by
  intro name listed
  rw [Declared.addProperties.eq_def]
  split
  · exact (mem_foldl_addName ..).mpr (.inl listed)
  · exact listed

theorem Declared.mem_addProperties (declared : Declared) (properties : Option Json)
    (listed : name ∈ (plainProperties properties).map Prod.fst) :
    name ∈ (declared.addProperties properties).names := by
  cases properties with
  | none => cases listed
  | some value =>
      cases value with
      | object entries => exact (mem_foldl_addName ..).mpr (.inr listed)
      | _ => cases listed

/-- One branch after the other is visited, until one is open. -/
def visitBranches (branches : List (List (Utf16 × Json))) (visited : Bool × Declared) : Bool × Declared :=
  branches.foldl (fun visited branch => if visited.1 then visit branch visited.2 else visited) visited

theorem visit_eq (node : List (Utf16 × Json)) (declared : Declared) :
    visit node declared =
      if opensKeySet (fieldsOf node) then (false, declared)
      else visitBranches (branchesOf (fieldsOf node))
        (true, declared.addProperties ((fieldsOf node).get? propertiesKey)) := by
  rw [visit, visitBranches]
  split
  · rfl
  · exact List.foldl_attach (f := fun visited branch => if visited.1 then visit branch visited.2 else visited)

/-- What has been found stays, and a visit that ends closed was closed all the way. -/
theorem visitBranches_kept {branches : List (List (Utf16 × Json))}
    (kept : ∀ branch ∈ branches, ∀ declared, declared.names ⊆ (visit branch declared).2.names)
    (visited : Bool × Declared) :
    visited.2.names ⊆ (visitBranches branches visited).2.names ∧
      ((visitBranches branches visited).1 = true → visited.1 = true ∧ ∀ branch ∈ branches, ∃ declared,
        (visit branch declared).1 = true ∧ (visit branch declared).2.names ⊆ (visitBranches branches visited).2.names) := by
  induction branches generalizing visited with
  | nil => exact ⟨fun _ listed => listed, fun closed => ⟨closed, nofun⟩⟩
  | cons branch rest ih =>
      obtain ⟨more, closes⟩ := ih (fun other member => kept other (List.mem_cons_of_mem _ member))
        (if visited.1 then visit branch visited.2 else visited)
      change _ ⊆ (visitBranches rest (if visited.1 then visit branch visited.2 else visited)).2.names ∧ (_ → _)
      constructor
      · refine List.Subset.trans ?_ more
        split
        · exact kept branch List.mem_cons_self visited.2
        · exact fun _ listed => listed
      · intro closed
        obtain ⟨first, others⟩ := closes closed
        split at first
        next going =>
          rw [if_pos going] at more
          refine ⟨going, List.forall_mem_cons.mpr ⟨⟨visited.2, first, ?_⟩, others⟩⟩
          change _ ⊆ (visitBranches rest (if visited.1 then visit branch visited.2 else visited)).2.names
          rwa [if_pos going]
        next stopped => exact absurd first stopped

/-- What has been found stays. -/
theorem visit_kept (node : List (Utf16 × Json)) (declared : Declared) :
    declared.names ⊆ (visit node declared).2.names := by
  rw [visit_eq]
  split
  · exact fun _ listed => listed
  · have kept : ∀ branch ∈ branchesOf (fieldsOf node), ∀ declared, declared.names ⊆ (visit branch declared).2.names :=
      fun branch member declared => visit_kept branch declared
    exact List.Subset.trans (declared.names_subset _)
      (visitBranches_kept kept (true, declared.addProperties ((fieldsOf node).get? propertiesKey))).1
termination_by sizeOf node
decreasing_by exact sizeOf_branch_lt member

/-- A visit that ends closed has found the names of the node and of its branches. -/
theorem visit_closed {node : List (Utf16 × Json)} (closed : (visit node declared).1 = true) :
    propertyNames (fieldsOf node) ⊆ (visit node declared).2.names ∧
      ∀ branch ∈ branchesOf (fieldsOf node), ∃ earlier, (visit branch earlier).1 = true ∧
        (visit branch earlier).2.names ⊆ (visit node declared).2.names := by
  rw [visit_eq] at closed ⊢
  split at closed
  next => cases closed
  next shut =>
    rw [if_neg shut]
    obtain ⟨more, closes⟩ := visitBranches_kept (fun branch _ declared => visit_kept branch declared)
      (true, declared.addProperties ((fieldsOf node).get? propertiesKey))
    exact ⟨fun name listed => more (declared.mem_addProperties _ listed), (closes closed).2⟩

variable {source branch : List (Utf16 × Json)}

theorem declared_of_unknown {input : List (Utf16 × Json)} (unknown : name ∈ unknownArgumentNames input source) :
    (visit source { names := [], declaresProperties := false }).1 = true ∧
      name ∉ (visit source { names := [], declaresProperties := false }).2.names := by
  simp only [unknownArgumentNames, declaredArgumentNames] at unknown
  split at unknown
  next => cases unknown
  next names found =>
    split at found
    next => cases found
    next closed =>
      obtain rfl := Option.some.inj found
      simp only [Bool.or_eq_true, Bool.not_eq_true', not_or, Bool.not_eq_false] at closed
      exact ⟨closed.1, by simpa using (List.mem_filter.mp unknown).2⟩

/-- The root's own arguments are accepted. -/
theorem root_accepted (listed : name ∈ propertyNames (fieldsOf source)) (input : List (Utf16 × Json)) :
    name ∉ unknownArgumentNames input source := fun unknown =>
  (declared_of_unknown unknown).2 ((visit_closed (declared_of_unknown unknown).1).1 listed)

/-- The arguments of a branch are accepted. -/
theorem branch_accepted (inside : branch ∈ branchesOf (fieldsOf source))
    (listed : name ∈ propertyNames (fieldsOf branch)) (input : List (Utf16 × Json)) :
    name ∉ unknownArgumentNames input source := by
  intro unknown
  obtain ⟨closed, absent⟩ := declared_of_unknown unknown
  obtain ⟨earlier, shut, found⟩ := (visit_closed closed).2 branch inside
  exact absent (found ((visit_closed shut).1 listed))

variable {key : Utf16}

theorem mem_branchesOf {schema : Fields} (member : key ∈ compositions)
    (listed : branch ∈ objectBranches (schema.get? key)) : branch ∈ branchesOf schema := by
  refine List.mem_flatMap.mpr ⟨key, ?_, listed⟩
  simp only [compositions, List.mem_cons, List.not_mem_nil, or_false] at member ⊢
  tauto

/-- The names of a collapsed schema are its own or those of the first branch. -/
theorem mem_propertyNames_collapse {branches : List Json} (different : propertiesKey ≠ key)
    (listed : name ∈ propertyNames (collapseToFirstBranch schema key branches)) :
    name ∈ propertyNames schema ∨ ∃ branch ∈ branches.filterMap asEntries, name ∈ propertyNames (fieldsOf branch) := by
  rw [collapseToFirstBranch] at listed
  split at listed
  next => exact .inl (by rwa [propertyNames, OrderedMap.get?_delete, if_neg different] at listed)
  next branch rest first =>
    rw [propertyNames, get?_spread, OrderedMap.get?_delete, if_neg different] at listed
    cases found : (fieldsOf branch).get? propertiesKey with
    | none =>
        rw [found, Option.none_or] at listed
        exact .inl listed
    | some value =>
        rw [found, Option.some_or] at listed
        exact .inr ⟨branch, by rw [first]; exact List.mem_cons_self, by rw [propertyNames, found]; exact listed⟩

/-- The names of a schema that was rewritten flat are those of the root or of an object branch. -/
theorem mem_propertyNames_applyRootComposition (flat : FlatSchema schema)
    (listed : name ∈ propertyNames (applyRootComposition schema)) :
    name ∈ propertyNames schema ∨ ∃ branch ∈ branchesOf schema, name ∈ propertyNames (fieldsOf branch) := by
  have different : ∀ key ∈ compositions, propertiesKey ≠ key := fun key member =>
    Ne.symm (composition_apart key member).2.2.2.1
  have inside : ∀ key ∈ compositions, ∀ branches, branchList (schema.get? key) = some branches →
      ∀ branch ∈ branches.filterMap asEntries, branch ∈ branchesOf schema := by
    intro key member branches found branch object
    refine mem_branchesOf member ?_
    rw [branchList_eq found]
    exact object
  rw [applyRootComposition] at listed
  split at listed
  next branches found =>
    refine (mem_propertyNames_collapse (different _ List.mem_cons_self) listed).imp_right ?_
    rintro ⟨branch, object, named⟩
    exact ⟨branch, inside _ List.mem_cons_self _ found branch object, named⟩
  next =>
    split at listed
    next branches found =>
      refine (mem_propertyNames_collapse (different _ (List.mem_cons_of_mem _ List.mem_cons_self)) listed).imp_right ?_
      rintro ⟨branch, object, named⟩
      exact ⟨branch, inside _ (List.mem_cons_of_mem _ List.mem_cons_self) _ found branch object, named⟩
    next =>
      split at listed
      next list found =>
        have present := branchList_eq found
        have merges := (mergesAllOf_iff present).mpr (flat.merge (by rw [present]; rfl))
        rw [← propertyNames_normalizeRoot] at listed
        refine ((merges.properties name).mp listed).imp_right ?_
        rintro ⟨branch, object, named⟩
        exact ⟨branch, mem_branchesOf allOfKey_mem object, named⟩
      next => exact .inl listed

theorem legalRoot_empty : LegalRoot emptyObjectSchema := by
  obtain ⟨notEnum, notNot, notType, typeEnum, typeNot, enumNot, _⟩ := rootKeys_apart
  refine ⟨?_, ?_, fun key member => ?_, ?_, ?_⟩
  · rw [emptyObjectSchema, OrderedMap.get?_set, if_neg (Ne.symm notType), OrderedMap.get?_set_self]
  · rw [emptyObjectSchema, OrderedMap.get?_set_self]
    rfl
  · obtain ⟨_, _, noType, noProperties, _⟩ := composition_apart key member
    rw [emptyObjectSchema, OrderedMap.get?_set, if_neg noProperties, OrderedMap.get?_set, if_neg noType,
      OrderedMap.get?_empty]
  · rw [emptyObjectSchema, OrderedMap.get?_set, if_neg (Ne.symm notEnum), OrderedMap.get?_set,
      if_neg (Ne.symm typeEnum), OrderedMap.get?_empty]
  · rw [emptyObjectSchema, OrderedMap.get?_set, if_neg (Ne.symm notNot), OrderedMap.get?_set,
      if_neg (Ne.symm typeNot), OrderedMap.get?_empty]

/-- A flat schema with an `allOf` is merged. -/
theorem applyRootComposition_allOf (flat : FlatComposition schema) (present : (schema.get? allOfKey).isSome) :
    ∃ list, schema.get? allOfKey = some (.array list) ∧ applyRootComposition schema = mergeAllOf schema list := by
  have others : ∀ key ∈ [oneOfKey, anyOfKey], schema.get? key = Option.none := fun key member =>
    (flat.absent allOfKey_mem present key (List.mem_append_left [allOfKey] member)).resolve_left fun same =>
      keys_apart.2.2.2 (same ▸ member)
  have noOneOf := others oneOfKey List.mem_cons_self
  have noAnyOf := others anyOfKey (List.mem_cons_of_mem _ List.mem_cons_self)
  obtain ⟨list, listed⟩ := Option.isSome_iff_exists.mp (flat.listed allOfKey allOfKey_mem present)
  refine ⟨list, branchList_eq listed, ?_⟩
  have none : branchList Option.none = Option.none := rfl
  simp only [applyRootComposition, noOneOf, noAnyOf, none, listed]

/-- What the model is shown of a raw schema is legal, merged and accepted exactly when the schema can be shown flat. -/
theorem wellShown_iff (raw : Option Json) :
    WellShown raw ↔ ∀ source, asObjectSchema raw = some source → FlatSchema (fieldsOf source) := by
  cases object : asObjectSchema raw with
  | none =>
      have shown : toolSchemaForLlm raw = emptyObjectSchema := by rw [toolSchemaForLlm, object]
      refine ⟨fun _ => nofun, fun _ => ⟨?_, by rw [object]; exact nofun, by rw [object]; exact nofun⟩⟩
      exact shown ▸ legalRoot_empty
  | some source =>
      have shown : toolSchemaForLlm raw = normalizeRoot (applyRootComposition (fieldsOf source)) := by
        rw [toolSchemaForLlm, object]
        rfl
      constructor
      · rintro ⟨legal, merged, _⟩ _ same
        obtain rfl := Option.some.inj same
        rw [shown] at legal merged
        have flat := (legalRoot_iff _).mp legal
        refine ⟨flat, fun present => ?_⟩
        obtain ⟨list, listed, rewritten⟩ := applyRootComposition_allOf flat present
        have merges := merged _ object present
        rw [rewritten] at merges
        exact (mergesAllOf_iff listed).mp merges
      · intro flat
        have flat := flat source rfl
        refine ⟨?_, ?_, ?_⟩
        · rw [shown]
          exact (legalRoot_iff _).mpr flat.composition
        · intro other same present
          obtain rfl := Option.some.inj (object.symm.trans same)
          obtain ⟨list, listed, rewritten⟩ := applyRootComposition_allOf flat.composition present
          rw [shown, rewritten]
          exact (mergesAllOf_iff listed).mpr (flat.merge present)
        · intro other same name named input
          obtain rfl := Option.some.inj (object.symm.trans same)
          rw [shown, propertyNames_normalizeRoot] at named
          rcases mem_propertyNames_applyRootComposition flat named with own | ⟨branch, inside, theirs⟩
          · exact root_accepted own input
          · exact branch_accepted inside theirs input

/-- The branch that stands in for an `oneOf` may itself offer alternatives. -/
def nestedChoice : Json :=
  .object [(oneOfKey, .array [.object [(anyOfKey, .array [.object [(propertiesKey, .object [])]])]])]

/-- They stay at the root. -/
theorem nested_choice_shown : ¬ WellShown (some nestedChoice) := by
  intro shown
  have present : ((toolSchemaForLlm (some nestedChoice)).get? anyOfKey).isSome = true := by decide +kernel
  rw [shown.legal.flat anyOfKey (List.mem_cons_of_mem _ List.mem_cons_self)] at present
  cases present

end NimbleBrain.Engine
