import NimbleBrain.Notifications.Template

/- A rendered input has the shape of its template exactly when no two keys of one object meet. -/

namespace NimbleBrain.Notifications.Template

open Library Engine

/-- The same value with its texts filled: the same items in each array, the same entries in each object, and every
other value as it was. -/
inductive Rendered (values : Utf16 → Utf16) : Json → Json → Prop where
  | null : Rendered values .null .null
  | bool (value : Bool) : Rendered values (.bool value) (.bool value)
  | number (value : JsonNumber) : Rendered values (.number value) (.number value)
  | string {text filled : Utf16} (replaced : Replaced values text filled) :
      Rendered values (.string text) (.string filled)
  | array {items others : List Json} (length : items.length = others.length)
      (each : ∀ pair ∈ items.zip others, Rendered values pair.1 pair.2) :
      Rendered values (.array items) (.array others)
  | object {entries others : List (Utf16 × Json)} (length : entries.length = others.length)
      (keys : ∀ pair ∈ entries.zip others, Replaced values pair.1.1 pair.2.1)
      (each : ∀ pair ∈ entries.zip others, Rendered values pair.1.2 pair.2.2) :
      Rendered values (.object entries) (.object others)

/-- In each object, no two keys are filled to the same text, and none to `__proto__`. -/
inductive KeysApart (values : Utf16 → Utf16) : Json → Prop where
  | null : KeysApart values .null
  | bool (value : Bool) : KeysApart values (.bool value)
  | number (value : JsonNumber) : KeysApart values (.number value)
  | string (text : Utf16) : KeysApart values (.string text)
  | array {items : List Json} (inside : ∀ item ∈ items, KeysApart values item) : KeysApart values (.array items)
  | object {entries : List (Utf16 × Json)}
      (apart : entries.Pairwise fun first second =>
        ∀ filled, Replaced values first.1 filled → ¬ Replaced values second.1 filled)
      (proper : ∀ entry ∈ entries, ¬ Replaced values entry.1 protoKey)
      (inside : ∀ entry ∈ entries, KeysApart values entry.2) : KeysApart values (.object entries)

/-- Every placeholder in the keys and texts of a value is known. -/
inductive Resolved : Json → Prop where
  | null : Resolved .null
  | bool (value : Bool) : Resolved (.bool value)
  | number (value : JsonNumber) : Resolved (.number value)
  | string {text : Utf16} (known : Known text) : Resolved (.string text)
  | array {items : List Json} (inside : ∀ item ∈ items, Resolved item) : Resolved (.array items)
  | object {entries : List (Utf16 × Json)} (keys : ∀ entry ∈ entries, Known entry.1)
      (inside : ∀ entry ∈ entries, Resolved entry.2) : Resolved (.object entries)

variable {found : List Utf16} {text : Utf16}

theorem addFound_ne_nil (name : Utf16) : addFound found name ≠ [] := by
  rw [addFound]
  split
  next listed => exact List.ne_nil_of_mem listed
  next => simp

theorem addUnknown_eq_nil (none : addUnknown text found = []) : found = [] ∧ Known text := by
  have kept : ∀ names found, names.foldl addFound found = [] → found = [] ∧ names = [] := by
    intro names
    induction names with
    | nil => exact fun found none => ⟨none, rfl⟩
    | cons name rest ih => exact fun found none => absurd (ih _ none).1 (addFound_ne_nil name)
  obtain ⟨empty, nothing⟩ := kept _ _ none
  refine ⟨empty, fun name member => ?_⟩
  simpa using List.filter_eq_nil_iff.mp nothing name member

/-- Where the validator finds nothing, every placeholder is known. -/
theorem resolved_of_unknownPlaceholders (value : Json) (found : List Utf16)
    (none : unknownPlaceholders value found = []) : found = [] ∧ Resolved value := by
  induction value using Json.induction generalizing found with
  | null =>
      rw [unknownPlaceholders] at none
      · exact ⟨none, .null⟩
      all_goals simp
  | bool value =>
      rw [unknownPlaceholders] at none
      · exact ⟨none, .bool value⟩
      all_goals simp
  | number value =>
      rw [unknownPlaceholders] at none
      · exact ⟨none, .number value⟩
      all_goals simp
  | string text =>
      rw [unknownPlaceholders] at none
      obtain ⟨empty, known⟩ := addUnknown_eq_nil none
      exact ⟨empty, .string known⟩
  | array items ih =>
      suffices inside : found = [] ∧ ∀ item ∈ items, Resolved item from ⟨inside.1, .array inside.2⟩
      rw [unknownPlaceholders] at none
      induction items generalizing found with
      | nil =>
          rw [unknownInItems] at none
          exact ⟨none, List.forall_mem_nil _⟩
      | cons item rest next =>
          rw [unknownInItems] at none
          obtain ⟨nothing, resolved⟩ := next (fun other member => ih other (List.mem_cons_of_mem _ member)) _ none
          obtain ⟨empty, first⟩ := ih item List.mem_cons_self found nothing
          exact ⟨empty, List.forall_mem_cons.mpr ⟨first, resolved⟩⟩
  | object entries ih =>
      suffices inside : found = [] ∧ ∀ entry ∈ entries, Known entry.1 ∧ Resolved entry.2 from
        ⟨inside.1, .object (fun entry member => (inside.2 entry member).1) fun entry member => (inside.2 entry member).2⟩
      rw [unknownPlaceholders] at none
      induction entries generalizing found with
      | nil =>
          rw [unknownInEntries] at none
          exact ⟨none, List.forall_mem_nil _⟩
      | cons entry rest next =>
          obtain ⟨key, item⟩ := entry
          rw [unknownInEntries] at none
          obtain ⟨nothing, resolved⟩ := next (fun other member => ih other (List.mem_cons_of_mem _ member)) _ none
          obtain ⟨noKeys, first⟩ := ih (key, item) List.mem_cons_self _ nothing
          rw [unknownPlaceholders] at noKeys
          obtain ⟨empty, known⟩ := addUnknown_eq_nil noKeys
          exact ⟨empty, List.forall_mem_cons.mpr ⟨⟨known, first⟩, resolved⟩⟩

variable {object : PlainObject} {pairs entries : List (Utf16 × Json)} {key : Utf16}

theorem size_set (map : Fields) (key : Utf16) (value : Json) :
    (map.set key value).size = if (map.get? key).isSome then map.size else map.size + 1 := by
  have keys := congrArg List.length (OrderedMap.setEntry_keys key value map.entries)
  rw [List.length_map, apply_ite List.length, List.length_append, List.length_map] at keys
  by_cases listed : key ∈ map.entries.map Prod.fst
  · rw [if_pos listed] at keys
    rwa [if_pos (OrderedMap.isSome_get?_iff.mpr listed)]
  · rw [if_neg listed] at keys
    rwa [if_neg fun found => listed (OrderedMap.isSome_get?_iff.mp found)]

theorem assign_proper (proper : key ≠ protoKey) (object : PlainObject) (value : Json) :
    object.assign key value = { object with own := object.own.set key value } := by
  rw [PlainObject.assign, if_neg fun taken => proper taken.1]

theorem assign_size_le (object : PlainObject) (key : Utf16) (value : Json) :
    (object.assign key value).own.size ≤ object.own.size + 1 := by
  rw [PlainObject.assign]
  split
  · exact Nat.le_succ _
  · rw [size_set]
    split
    · exact Nat.le_succ _
    · exact Nat.le_refl _

theorem assignAll_size_le (pairs : List (Utf16 × Json)) (object : PlainObject) :
    (object.assignAll pairs).own.size ≤ object.own.size + pairs.length := by
  induction pairs generalizing object with
  | nil => exact Nat.le_refl _
  | cons pair rest ih =>
      have next := ih (object.assign pair.1 pair.2)
      have first := assign_size_le object pair.1 pair.2
      change ((object.assign pair.1 pair.2).assignAll rest).own.size ≤ _
      rw [List.length_cons]
      omega

/-- Where each assignment made an entry of its own, the keys are apart. -/
theorem apart_of_size (ordinary : object.prototype = .ordinary) (free : protoKey ∉ object.own.entries.map Prod.fst)
    (all : (object.assignAll pairs).own.size = object.own.size + pairs.length) :
    (pairs.map Prod.fst).Nodup ∧ ∀ pair ∈ pairs, pair.1 ≠ protoKey ∧ pair.1 ∉ object.own.entries.map Prod.fst := by
  induction pairs generalizing object with
  | nil => exact ⟨List.nodup_nil, List.forall_mem_nil _⟩
  | cons pair rest ih =>
      have within := assignAll_size_le rest (object.assign pair.1 pair.2)
      change ((object.assign pair.1 pair.2).assignAll rest).own.size = _ at all
      rw [List.length_cons] at all
      have proper : pair.1 ≠ protoKey := by
        intro proto
        have taken : pair.1 = protoKey ∧ (object.own.get? pair.1).isNone ∧ object.prototype.hides = false := by
          refine ⟨proto, ?_, by rw [ordinary]; rfl⟩
          rw [proto, Option.isNone_iff_eq_none, ← Option.not_isSome_iff_eq_none, OrderedMap.isSome_get?_iff]
          exact free
        rw [all, PlainObject.assign, if_pos taken] at within
        dsimp only at within
        omega
      rw [assign_proper proper] at all within
      have absent : pair.1 ∉ object.own.entries.map Prod.fst := by
        intro listed
        have sizes := size_set object.own pair.1 pair.2
        rw [if_pos (OrderedMap.isSome_get?_iff.mpr listed)] at sizes
        dsimp only at all within
        omega
      have grown : (object.own.set pair.1 pair.2).entries = object.own.entries ++ [pair] :=
        OrderedMap.setEntry_fresh absent pair.2
      have size : (object.own.set pair.1 pair.2).size = object.own.size + 1 := by
        rw [OrderedMap.size, grown, List.length_append, List.length_singleton, OrderedMap.size]
      obtain ⟨distinct, others⟩ := @ih { object with own := object.own.set pair.1 pair.2 } ordinary
        (by simpa [grown, List.map_append, not_or] using ⟨by simpa using free, Ne.symm proper⟩)
        (by rw [all, size]; omega)
      have apart : ∀ other ∈ rest, other.1 ∉ object.own.entries.map Prod.fst ∧ other.1 ≠ pair.1 :=
        fun other member => by
          have away := (others other member).2
          rw [grown, List.map_append, List.mem_append, not_or] at away
          exact ⟨away.1, fun same => away.2 (List.mem_singleton.mpr same)⟩
      refine ⟨List.nodup_cons.mpr ⟨fun member => ?_, distinct⟩, List.forall_mem_cons.mpr ⟨⟨proper, absent⟩, ?_⟩⟩
      · obtain ⟨other, listed, same⟩ := List.mem_map.mp member
        exact (apart other listed).2 same
      · exact fun other member => ⟨(others other member).1, (apart other member).1⟩

theorem assignAll_apart (distinct : (pairs.map Prod.fst).Nodup)
    (proper : ∀ pair ∈ pairs, pair.1 ≠ protoKey ∧ pair.1 ∉ object.own.entries.map Prod.fst) :
    (object.assignAll pairs).own.entries = object.own.entries ++ pairs := by
  induction pairs generalizing object with
  | nil => exact (List.append_nil _).symm
  | cons pair rest ih =>
      obtain ⟨fresh, distinct⟩ := List.nodup_cons.mp distinct
      obtain ⟨⟨plain, absent⟩, proper⟩ := List.forall_mem_cons.mp proper
      have grown : (object.own.set pair.1 pair.2).entries = object.own.entries ++ [pair] :=
        OrderedMap.setEntry_fresh absent pair.2
      change ((object.assign pair.1 pair.2).assignAll rest).own.entries = _
      rw [assign_proper plain, ih distinct, grown, List.append_assoc, List.singleton_append]
      intro other member
      refine ⟨(proper other member).1, ?_⟩
      rw [grown, List.map_append, List.mem_append, not_or]
      refine ⟨(proper other member).2, fun same => fresh ?_⟩
      rw [List.map_singleton, List.mem_singleton] at same
      exact List.mem_map.mpr ⟨other, member, same⟩

section Walk

variable (values : Utf16 → Utf16)

def filledText (text : Utf16) : Utf16 := (renderString values text 0).1

def filledValue (value : Json) : Json := (renderValue values value 0).1

def filledEntry (entry : Utf16 × Json) : Utf16 × Json := (filledText values entry.1, filledValue values entry.2)

variable {values} {text : Utf16} {items : List Json} {entries : List (Utf16 × Json)}

theorem replaced_filledText (values : Utf16 → Utf16) (known : Known text) :
    Replaced values text (filledText values text) := (renderString_replaced values known 0).1

theorem replaced_iff (known : Known text) (filled : Utf16) :
    Replaced values text filled ↔ filledText values text = filled :=
  ⟨fun replaced => renderString_of_replaced replaced 0, fun same => same ▸ replaced_filledText values known⟩

theorem renderString_eq (known : Known text) (misses : Nat) :
    renderString values text misses = (filledText values text, misses) :=
  Prod.ext (renderString_of_replaced (replaced_filledText values known) misses)
    (renderString_replaced values known misses).2

theorem renderItems_eq (each : ∀ item ∈ items, ∀ misses, renderValue values item misses = (filledValue values item, misses))
    (misses : Nat) : renderItems values items misses = (items.map (filledValue values), misses) := by
  induction items with
  | nil => rw [renderItems, List.map_nil]
  | cons item rest ih =>
      rw [renderItems, each item List.mem_cons_self misses, List.map_cons]
      simp only [ih fun other member => each other (List.mem_cons_of_mem _ member)]

theorem renderEntries_eq (known : ∀ entry ∈ entries, Known entry.1)
    (each : ∀ entry ∈ entries, ∀ misses, renderValue values entry.2 misses = (filledValue values entry.2, misses))
    (out : PlainObject) (misses : Nat) :
    renderEntries values entries out misses = (out.assignAll (entries.map (filledEntry values)), misses) := by
  induction entries generalizing out with
  | nil => rw [renderEntries, List.map_nil, PlainObject.assignAll, List.foldl_nil]
  | cons entry rest ih =>
      obtain ⟨key, item⟩ := entry
      have first := each (key, item) List.mem_cons_self misses
      have named : Known key := known (key, item) List.mem_cons_self
      simp only [renderEntries, renderString_eq named, first]
      exact ih (fun other member => known other (List.mem_cons_of_mem _ member))
        (fun other member => each other (List.mem_cons_of_mem _ member)) _

/-- The keys of an object are apart when they are apart once filled. -/
theorem keysApart_object (known : ∀ entry ∈ entries, Known entry.1) :
    KeysApart values (.object entries) ↔
      (((entries.map (filledEntry values)).map Prod.fst).Nodup ∧
        ∀ pair ∈ entries.map (filledEntry values), pair.1 ≠ protoKey ∧ pair.1 ∉ (∅ : Fields).entries.map Prod.fst) ∧
      ∀ entry ∈ entries, KeysApart values entry.2 := by
  rw [List.map_map, List.Nodup, List.pairwise_map]
  constructor
  · intro keysApart
    cases keysApart with
    | object apart proper inside =>
        refine ⟨⟨apart.imp_of_mem fun {first second} inFirst inSecond differ same => ?_, ?_⟩, inside⟩
        · exact differ _ (replaced_filledText values (known first inFirst))
            ((replaced_iff (known second inSecond) _).mpr same.symm)
        · rintro _ member
          obtain ⟨entry, listed, rfl⟩ := List.mem_map.mp member
          exact ⟨fun same => proper entry listed ((replaced_iff (known entry listed) _).mpr same), List.not_mem_nil⟩
  · rintro ⟨⟨distinct, proper⟩, inside⟩
    refine .object (distinct.imp_of_mem fun {first second} inFirst inSecond differ filled one other => ?_)
      (fun entry listed replaced => ?_) inside
    · exact differ (((replaced_iff (known first inFirst) _).mp one).trans
        ((replaced_iff (known second inSecond) _).mp other).symm)
    · exact (proper _ (List.mem_map_of_mem listed)).1 ((replaced_iff (known entry listed) _).mp replaced)

theorem mem_zip_map {Item Other : Type} {items : List Item} {f : Item → Other} {pair : Item × Other} :
    pair ∈ items.zip (items.map f) ↔ pair.1 ∈ items ∧ pair.2 = f pair.1 := by
  have paired : items.zip (items.map f) = items.map fun item => (item, f item) := by
    induction items with
    | nil => rfl
    | cons item rest ih => rw [List.map_cons, List.zip_cons_cons, ih, List.map_cons]
  rw [paired, List.mem_map]
  constructor
  · rintro ⟨item, listed, rfl⟩
    exact ⟨listed, rfl⟩
  · rintro ⟨listed, same⟩
    exact ⟨pair.1, listed, Prod.ext rfl same.symm⟩

/-- A resolved value is rendered without a miss, and keeps its shape exactly when its keys are apart. -/
theorem renderValue_rendered {value : Json} (resolved : Resolved value) :
    (∀ misses, renderValue values value misses = (filledValue values value, misses)) ∧
      (Rendered values value (filledValue values value) ↔ KeysApart values value) := by
  induction value using Json.induction with
  | null =>
      have same : ∀ misses, renderValue values .null misses = (.null, misses) := fun misses => by
        rw [renderValue]
        all_goals simp
      rw [filledValue, same]
      exact ⟨same, fun _ => .null, fun _ => .null⟩
  | bool value =>
      have same : ∀ misses, renderValue values (.bool value) misses = (.bool value, misses) := fun misses => by
        rw [renderValue]
        all_goals simp
      rw [filledValue, same]
      exact ⟨same, fun _ => .bool value, fun _ => .bool value⟩
  | number value =>
      have same : ∀ misses, renderValue values (.number value) misses = (.number value, misses) := fun misses => by
        rw [renderValue]
        all_goals simp
      rw [filledValue, same]
      exact ⟨same, fun _ => .number value, fun _ => .number value⟩
  | string text =>
      cases resolved with
      | string known =>
          have same : ∀ misses, renderValue values (.string text) misses = (.string (filledText values text), misses) :=
            fun misses => by simp only [renderValue, renderString_eq known]
          rw [filledValue, same]
          exact ⟨same, fun _ => .string text, fun _ => .string (replaced_filledText values known)⟩
  | array items ih =>
      cases resolved with
      | array inside =>
          have each := fun item member => ih item member (inside item member)
          have same : ∀ misses, renderValue values (.array items) misses =
              (.array (items.map (filledValue values)), misses) := fun misses => by
            simp only [renderValue, renderItems_eq fun item member => (each item member).1]
          rw [filledValue, same]
          refine ⟨same, fun rendered => ?_, fun apart => ?_⟩
          · cases rendered with
            | array length pairs =>
                refine .array fun item member => (each item member).2.mp ?_
                exact pairs (item, filledValue values item) (mem_zip_map.mpr ⟨member, rfl⟩)
          · cases apart with
            | array inner =>
                refine .array (List.length_map ..).symm fun pair member => ?_
                obtain ⟨listed, filled⟩ := mem_zip_map.mp member
                rw [filled]
                exact (each _ listed).2.mpr (inner _ listed)
  | object entries ih =>
      cases resolved with
      | object keys inside =>
          have each := fun entry member => ih entry member (inside entry member)
          have same : ∀ misses, renderValue values (.object entries) misses =
              (.object (PlainObject.assignAll { own := ∅, prototype := .ordinary }
                (entries.map (filledEntry values))).own.entries, misses) := fun misses => by
            simp only [renderValue, renderEntries_eq keys fun entry member => (each entry member).1]
          rw [filledValue, same, keysApart_object keys]
          refine ⟨same, fun rendered => ?_, fun ⟨⟨distinct, proper⟩, inner⟩ => ?_⟩
          · cases rendered with
            | object length _ pairs =>
                have apart := @apart_of_size { own := ∅, prototype := .ordinary } (entries.map (filledEntry values)) rfl
                  List.not_mem_nil (by rw [OrderedMap.size, ← length, List.length_map]; exact (Nat.zero_add _).symm)
                rw [assignAll_apart apart.1 apart.2, OrderedMap.entries_empty, List.nil_append] at pairs
                refine ⟨apart, fun entry member => (each entry member).2.mp ?_⟩
                exact pairs (entry, filledEntry values entry) (mem_zip_map.mpr ⟨member, rfl⟩)
          · rw [assignAll_apart distinct proper, OrderedMap.entries_empty, List.nil_append]
            refine .object (List.length_map ..).symm (fun pair member => ?_) fun pair member => ?_
            · obtain ⟨listed, filled⟩ := mem_zip_map.mp member
              rw [filled]
              exact replaced_filledText values (keys _ listed)
            · obtain ⟨listed, filled⟩ := mem_zip_map.mp member
              rw [filled]
              exact (each _ listed).2.mpr (inner _ listed)

end Walk

/-- A render resolves every placeholder, and fills each text of the input in its place. -/
structure FaithfulRender (values : Utf16 → Utf16) (input : List (Utf16 × Json)) (rendered : RenderedInput) : Prop where
  resolved : rendered.misses = 0
  shape : Rendered values (.object input) rendered.input

/-- An input that a route may hold is rendered faithfully exactly when no two keys of one object meet. A route without an
input delivers an empty object. -/
theorem renderDeliverInput_faithful (ctx : RouteValidationContext) (tool : Utf16)
    (input : Option (List (Utf16 × Json))) (presentation : NotificationPresentation) (host : HostPlaceholders)
    (accepted : checkTarget ctx (.tool tool input) = none) :
    FaithfulRender (placeholderValues presentation host) (input.getD [])
        (renderDeliverInput input presentation host) ↔
      KeysApart (placeholderValues presentation host) (.object (input.getD [])) := by
  cases input with
  | none => exact ⟨fun _ => .object .nil nofun nofun, fun _ => ⟨rfl, .object rfl nofun nofun⟩⟩
  | some input =>
      have nothing : unknownPlaceholders (.object input) [] = [] := by
        simp only [checkTarget] at accepted
        split at accepted
        · cases accepted
        · split at accepted
          · cases accepted
          · split at accepted
            · cases accepted
            next none => exact not_not.mp none
      have resolved := (resolved_of_unknownPlaceholders _ _ nothing).2
      obtain ⟨rendered, apart⟩ := @renderValue_rendered (placeholderValues presentation host) _ resolved
      have same : renderDeliverInput (some input) presentation host =
          { input := filledValue (placeholderValues presentation host) (.object input), misses := 0 } := by
        simp only [renderDeliverInput, rendered 0]
      rw [same]
      exact ⟨fun faithful => apart.mp faithful.shape, fun keysApart => ⟨rfl, apart.mpr keysApart⟩⟩

/-- A workspace with one tool. -/
def oneTool : RouteValidationContext := { toolNames := [Utf16.ofString "slack__post"], taskIds := [] }

/-- A presentation that says one thing twice. -/
def repeated : NotificationPresentation :=
  { subject := none, title := Utf16.ofString "Paid", body := some (Utf16.ofString "Paid"), linkResource := none }

/-- A message whose text is the title. -/
def titled : List (Utf16 × Json) :=
  [(Utf16.ofString "text", .string (Utf16.ofString "New: \x7b\x7b title \x7d\x7d"))]

theorem renderDeliverInput_faithful_titled :
    FaithfulRender (placeholderValues repeated { inboxUrl := [] }) titled
      (renderDeliverInput (some titled) repeated { inboxUrl := [] }) := by
  refine (renderDeliverInput_faithful oneTool (Utf16.ofString "slack__post") (some titled) repeated { inboxUrl := [] }
    (by decide +kernel)).mpr (.object (List.pairwise_singleton ..) ?_ ?_)
  · intro entry member replaced
    obtain rfl := List.mem_singleton.mp member
    have filled := renderString_of_replaced replaced 0
    exact absurd filled (by decide +kernel)
  · intro entry member
    obtain rfl := List.mem_singleton.mp member
    exact .string _

theorem Rendered.entries_length {values : Utf16 → Utf16} {entries others : List (Utf16 × Json)}
    (rendered : Rendered values (.object entries) (.object others)) : entries.length = others.length := by
  cases rendered with
  | object length _ _ => exact length

/-- Two keys that a presentation can fill with one text. -/
def twoKeys : List (Utf16 × Json) :=
  [(Utf16.ofString "\x7b\x7btitle\x7d\x7d", .bool true), (Utf16.ofString "\x7b\x7bbody\x7d\x7d", .bool false)]

/-- Where they meet, one of the two entries is lost. -/
theorem rendered_keys_meet :
    checkTarget oneTool (.tool (Utf16.ofString "slack__post") (some twoKeys)) = none ∧
      ¬ FaithfulRender (placeholderValues repeated { inboxUrl := [] }) twoKeys
        (renderDeliverInput (some twoKeys) repeated { inboxUrl := [] }) := by
  refine ⟨by decide +kernel, fun faithful => ?_⟩
  have entries : (renderDeliverInput (some twoKeys) repeated { inboxUrl := [] }).input =
      .object (renderEntries (placeholderValues repeated { inboxUrl := [] }) twoKeys
        { own := ∅, prototype := .ordinary } 0).1.own.entries := by
    simp only [renderDeliverInput, renderValue]
  have shape := faithful.shape
  rw [entries] at shape
  exact absurd shape.entries_length (by decide +kernel)

end NimbleBrain.Notifications.Template
