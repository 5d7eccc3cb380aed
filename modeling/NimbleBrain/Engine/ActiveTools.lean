import Mathlib.Data.List.Dedup
import NimbleBrain.Library.OrderedMap
import NimbleBrain.Library.Transition

/- A run offers its model the tools it began with and the tools its agent promoted. The least recently used of these
give way when there are too many. -/

namespace NimbleBrain.Engine

open Library

/-- A source lists each of its tools as `source__tool`, so no name is empty. -/
structure ToolSchema where
  name : String
  named : name ≠ ""
  modelVisible : Bool
  deriving DecidableEq

/-- What a run says about its tools. A run without a promotion rule takes every tool. -/
structure PromotionConfig where
  maxActiveTools : Nat
  isToolEligible : Option (ToolSchema → Bool)

structure ToolPromotionResult where
  ok : Bool
  toolName : String
  changed : Bool
  reason : Option String
  message : String
  deriving DecidableEq

inductive ToolEvent where
  | promoted (toolName : String)
  | released (toolName : String) (reason : Option String)
  deriving DecidableEq

/-- The collections of one run. -/
structure ActiveTools where
  directTools : List ToolSchema
  directToolNames : List String
  promotedLastUsed : OrderedMap String Nat
  useCounter : Nat
  allToolSchemaMap : OrderedMap String ToolSchema
  deriving DecidableEq

def mergeToolLookups (fresh : List ToolSchema) (lookups : OrderedMap String ToolSchema) :
    OrderedMap String ToolSchema :=
  fresh.foldl (fun lookups tool => lookups.set tool.name tool) lookups

/-- The tools at the beginning of a run, and the router's listing. -/
def ActiveTools.begin (tools listing : List ToolSchema) : ActiveTools where
  directTools := tools
  directToolNames := (tools.map ToolSchema.name).dedup
  promotedLastUsed := ∅
  useCounter := 0
  allToolSchemaMap := mergeToolLookups listing ∅

/-- A tool leaves all three collections. -/
def ActiveTools.drop (tools : ActiveTools) (toolName : String) : ActiveTools :=
  { tools with
    directTools := tools.directTools.eraseP fun tool => tool.name = toolName
    directToolNames := tools.directToolNames.filter (· ≠ toolName)
    promotedLastUsed := tools.promotedLastUsed.delete toolName }

/-- A use gives a promoted tool the next stamp. -/
def ActiveTools.touch (tools : ActiveTools) (toolName : String) : ActiveTools :=
  if (tools.promotedLastUsed.get? toolName).isSome then
    { tools with
      promotedLastUsed := tools.promotedLastUsed.set toolName (tools.useCounter + 1)
      useCounter := tools.useCounter + 1 }
  else tools

/-- The first entry with the least stamp. -/
def oldest : List (String × Nat) → Option (String × Nat)
  | [] => none
  | entry :: rest =>
      match oldest rest with
      | none => some entry
      | some later => if later.2 < entry.2 then some later else some entry

/-- Promoted tools leave, the one with the oldest stamp first, until the set fits. The tool just added stays. Each tool
that leaves is listed with the promoted tools of that moment. -/
def evictPromotedToolsToCap (maxActiveTools : Nat) (justAdded : String) :
    Nat → ActiveTools → ActiveTools × List (String × List String)
  | 0, tools => (tools, [])
  | left + 1, tools =>
      if maxActiveTools < tools.directTools.length ∧ 0 < tools.promotedLastUsed.size then
        match oldest tools.promotedLastUsed.entries with
        | none => (tools, [])
        | some (oldestName, _) =>
            if oldestName = "" ∨ oldestName = justAdded then (tools, [])
            else
              let (after, evicted) := evictPromotedToolsToCap maxActiveTools justAdded left (tools.drop oldestName)
              (after, (oldestName, tools.promotedLastUsed.entries.map Prod.fst) :: evicted)
      else (tools, [])

/-- What an operation answers, the events it emits, and the tools it evicts. -/
structure PromotionOutcome where
  tools : ActiveTools
  result : ToolPromotionResult
  events : List ToolEvent
  evicted : List (String × List String)

/-- A tool is added once the lookups have been refreshed, where that was necessary. -/
def ActiveTools.addTool (config : PromotionConfig) (tools : ActiveTools) (toolName : String) : PromotionOutcome :=
  if toolName ∈ tools.directToolNames then
    { tools := tools.touch toolName
      result :=
        { ok := true, toolName := toolName, changed := false, reason := none,
          message := toolName ++ " is already available in the active tool list." }
      events := [], evicted := [] }
  else
    match tools.allToolSchemaMap.get? toolName with
    | none =>
        { tools := tools
          result :=
            { ok := false, toolName := toolName, changed := false, reason := some "not_found",
              message := toolName ++ " was not found in the current tool registry. If its connector is starting, " ++
                "try again on a later step." }
          events := [], evicted := [] }
    | some schema =>
        if !schema.modelVisible then
          { tools := tools
            result :=
              { ok := false, toolName := toolName, changed := false, reason := some "not_model_visible",
                message := toolName ++ " is not visible to the model and cannot be added to the active tool list." }
            events := [], evicted := [] }
        else if config.isToolEligible.any fun isToolEligible => !isToolEligible schema then
          { tools := tools
            result :=
              { ok := false, toolName := toolName, changed := false, reason := some "not_allowed",
                message := toolName ++ " is not available in the current run." }
            events := [], evicted := [] }
        else
          let added : ActiveTools :=
            { tools with
              directTools := tools.directTools ++ [schema]
              directToolNames := tools.directToolNames ++ [toolName]
              promotedLastUsed := tools.promotedLastUsed.set toolName (tools.useCounter + 1)
              useCounter := tools.useCounter + 1 }
          let (after, evicted) :=
            evictPromotedToolsToCap config.maxActiveTools toolName added.promotedLastUsed.size added
          { tools := after
            result :=
              { ok := true, toolName := toolName, changed := true, reason := none,
                message := toolName ++ " is now available in the active tool list." }
            events := .promoted toolName :: evicted.map fun eviction => .released eviction.1 (some "evicted")
            evicted := evicted }

/-- The agent releases a tool. System tools stay. -/
def ActiveTools.removeTool (tools : ActiveTools) (toolName : String) : PromotionOutcome :=
  if "nb__".toList.isPrefixOf toolName.toList then
    { tools := tools
      result :=
        { ok := false, toolName := toolName, changed := false, reason := some "system_tool",
          message := toolName ++ " is a system tool and cannot be released." }
      events := [], evicted := [] }
  else if toolName ∉ tools.directToolNames then
    { tools := tools
      result :=
        { ok := true, toolName := toolName, changed := false, reason := none,
          message := toolName ++ " is not in the active tool list." }
      events := [], evicted := [] }
  else
    { tools := tools.drop toolName
      result :=
        { ok := true, toolName := toolName, changed := true, reason := none,
          message := toolName ++ " was removed from the active tool list." }
      events := [.released toolName none], evicted := [] }

/-- A tool that was evicted, with the promoted tools and the uses of that moment. -/
structure Eviction where
  toolName : String
  promoted : List String
  uses : List String
  deriving DecidableEq

/-- A run's collections, the adds that wait for the router's listing of their iteration, the events so far, and what
happened: the tools released by the agent, the uses with the last one first, and the evictions. -/
structure ToolRun where
  tools : ActiveTools
  iteration : Nat
  lookupsRefresh : Option Nat
  settled : List Nat
  waiting : List (String × Nat)
  events : List ToolEvent
  removed : List String
  uses : List String
  evictions : List Eviction
  deriving DecidableEq

/-- What happens in a run. An add whose lookups miss waits, and goes on when the listing has settled. -/
inductive ToolAction where
  | addTool (toolName : String)
  | lookupsSettled (iteration : Nat) (fresh : Option (List ToolSchema))
  | addResumed (toolName : String) (iteration : Nat)
  | removeTool (toolName : String)
  | toolUsed (toolName : String)
  | nextIteration

/-- An add's outcome enters the run. Where the tool is in the list afterwards, the add is a use. -/
def ToolRun.added (config : PromotionConfig) (run : ToolRun) (toolName : String) : ToolRun :=
  let outcome := run.tools.addTool config toolName
  let uses := if outcome.result.ok then toolName :: run.uses else run.uses
  { run with
    tools := outcome.tools
    events := run.events ++ outcome.events
    uses := uses
    evictions := run.evictions ++ outcome.evicted.map fun eviction => ⟨eviction.1, eviction.2, uses⟩ }

def ToolRun.step (config : PromotionConfig) (run : ToolRun) : ToolAction → Option ToolRun
  | .addTool toolName =>
      if toolName ∉ run.tools.directToolNames ∧ (run.tools.allToolSchemaMap.get? toolName).isNone then
        some { run with lookupsRefresh := some run.iteration, waiting := (toolName, run.iteration) :: run.waiting }
      else some (run.added config toolName)
  | .lookupsSettled iteration fresh =>
      if (run.lookupsRefresh = some iteration ∨ iteration ∈ run.waiting.map Prod.snd) ∧ iteration ∉ run.settled then
        some { run with
          tools := { run.tools with
            allToolSchemaMap := mergeToolLookups (fresh.getD []) run.tools.allToolSchemaMap }
          settled := iteration :: run.settled }
      else none
  | .addResumed toolName iteration =>
      if (toolName, iteration) ∈ run.waiting ∧ iteration ∈ run.settled then
        some ({ run with waiting := run.waiting.erase (toolName, iteration) }.added config toolName)
      else none
  | .removeTool toolName =>
      let outcome := run.tools.removeTool toolName
      some { run with
        tools := outcome.tools
        events := run.events ++ outcome.events
        removed := if outcome.result.changed then toolName :: run.removed else run.removed }
  | .toolUsed toolName =>
      some { run with tools := run.tools.touch toolName, uses := toolName :: run.uses }
  | .nextIteration => some { run with iteration := run.iteration + 1 }

/-- A run begins with its initial tools and the router's listing. -/
def toolRuns (config : PromotionConfig) (initial listing : List ToolSchema) : System ToolRun ToolAction where
  initial run :=
    run =
      { tools := .begin initial listing, iteration := 0, lookupsRefresh := none, settled := [], waiting := [],
        events := [], removed := [], uses := [], evictions := [] }
  step := ToolRun.step config

end NimbleBrain.Engine

/- The active tools of a run are the initial ones that were not released, and the promoted ones. -/

namespace NimbleBrain.Engine

open Library

/-- The initial tools that the agent has not released. -/
def unremoved (initial : List ToolSchema) (removed : List String) : List ToolSchema :=
  initial.filter fun tool => tool.name ∉ removed

def ActiveTools.promotedNames (tools : ActiveTools) : List String := tools.promotedLastUsed.entries.map Prod.fst

/-- The collections of a run fit together. -/
structure ActiveTools.Balanced (initial : List ToolSchema) (removed : List String) (tools : ActiveTools) : Prop where
  keyed : ∀ entry ∈ tools.allToolSchemaMap.entries, entry.2.name = entry.1
  distinct : (tools.directTools.map ToolSchema.name).Nodup
  names : tools.directToolNames.Perm (tools.directTools.map ToolSchema.name)
  parts : (tools.directTools.map ToolSchema.name).Perm
    ((unremoved initial removed).map ToolSchema.name ++ tools.promotedNames)
  stamps : tools.promotedLastUsed.values.Nodup
  stamped : ∀ stamp ∈ tools.promotedLastUsed.values, stamp ≤ tools.useCounter

variable {initial : List ToolSchema} {removed : List String} {tools : ActiveTools} {toolName : String}

variable {entries : List (String × Nat)}

theorem oldest_eq_none (none : oldest entries = none) : entries = [] := by
  cases entries with
  | nil => rfl
  | cons entry rest =>
      rw [oldest] at none
      split at none
      · cases none
      · split at none <;> cases none

variable {first : String × Nat}

/-- The entry that is found has a least stamp. -/
theorem oldest_least (found : oldest entries = some first) :
    first ∈ entries ∧ ∀ entry ∈ entries, first.2 ≤ entry.2 := by
  induction entries generalizing first with
  | nil => cases found
  | cons entry rest ih =>
      rw [oldest] at found
      cases later : oldest rest with
      | none =>
          obtain rfl : entry = first := by simpa [later] using found
          obtain rfl := oldest_eq_none later
          exact ⟨List.mem_cons_self, by simp⟩
      | some candidate =>
          obtain ⟨listed, least⟩ := ih later
          simp only [later] at found
          split at found
          next less =>
            obtain rfl := Option.some.inj found
            exact ⟨List.mem_cons_of_mem _ listed, List.forall_mem_cons.mpr ⟨Nat.le_of_lt less, least⟩⟩
          next notLess =>
            obtain rfl := Option.some.inj found
            refine ⟨List.mem_cons_self, List.forall_mem_cons.mpr ⟨Nat.le_refl _, fun other member => ?_⟩⟩
            have := least other member
            omega

/-- A name leaves a list of distinct tools. -/
theorem map_name_eraseP (listed : List ToolSchema) (toolName : String) :
    (listed.eraseP fun tool => tool.name = toolName).map ToolSchema.name =
      (listed.map ToolSchema.name).erase toolName := by
  rw [List.erase_eq_eraseP, List.eraseP_map]
  congr 2
  funext tool
  simp [Bool.beq_eq_decide_eq, eq_comm]

theorem filter_ne_eq_erase {names : List String} (distinct : names.Nodup) (toolName : String) :
    names.filter (· ≠ toolName) = names.erase toolName := by
  rw [distinct.erase_eq_filter]
  refine List.filter_congr fun name _ => ?_
  by_cases same : name = toolName <;> simp [same]

theorem promotedNames_drop (tools : ActiveTools) (toolName : String) :
    (tools.drop toolName).promotedNames = tools.promotedNames.erase toolName := by
  refine Eq.trans ?_ (filter_ne_eq_erase tools.promotedLastUsed.distinct toolName)
  simp only [ActiveTools.promotedNames, ActiveTools.drop, OrderedMap.delete, List.filter_map]
  rfl

theorem values_delete_sublist (map : OrderedMap String Nat) (key : String) :
    (map.delete key).values.Sublist map.values := List.filter_sublist.map Prod.snd

/-- Where a tool leaves, what it belonged to loses it. -/
theorem ActiveTools.Balanced.drop {left : List String} (balanced : tools.Balanced initial removed)
    (parts : ((tools.directTools.map ToolSchema.name).erase toolName).Perm
      ((unremoved initial left).map ToolSchema.name ++ tools.promotedNames.erase toolName)) :
    (tools.drop toolName).Balanced initial left where
  keyed := balanced.keyed
  distinct := by
    rw [ActiveTools.drop, map_name_eraseP]
    exact balanced.distinct.erase toolName
  names := by
    rw [ActiveTools.drop, map_name_eraseP]
    have distinct := balanced.names.nodup_iff.mpr balanced.distinct
    have filtered := filter_ne_eq_erase distinct toolName
    exact filtered ▸ balanced.names.erase toolName
  parts := by
    rw [promotedNames_drop, ActiveTools.drop, map_name_eraseP]
    exact parts
  stamps := balanced.stamps.sublist (values_delete_sublist ..)
  stamped stamp member := balanced.stamped stamp ((values_delete_sublist ..).subset member)

theorem ActiveTools.Balanced.apart (balanced : tools.Balanced initial removed) :
    ((unremoved initial removed).map ToolSchema.name).Disjoint tools.promotedNames :=
  (List.nodup_append'.mp (balanced.parts.nodup_iff.mp balanced.distinct)).2.2

/-- A promoted tool leaves. -/
theorem ActiveTools.Balanced.drop_promoted (balanced : tools.Balanced initial removed)
    (promoted : toolName ∈ tools.promotedNames) : (tools.drop toolName).Balanced initial removed := by
  refine balanced.drop ?_
  have absent : toolName ∉ (unremoved initial removed).map ToolSchema.name :=
    fun listed => balanced.apart listed promoted
  rw [← List.erase_append_right _ absent]
  exact balanced.parts.erase toolName

theorem unremoved_cons (initial : List ToolSchema) (removed : List String) (toolName : String)
    (distinct : ((unremoved initial removed).map ToolSchema.name).Nodup) :
    (unremoved initial (toolName :: removed)).map ToolSchema.name =
      ((unremoved initial removed).map ToolSchema.name).erase toolName := by
  rw [← filter_ne_eq_erase distinct, List.filter_map, unremoved, unremoved, List.filter_filter]
  congr 2
  funext tool
  simp [List.mem_cons, not_or]

/-- A tool that the agent releases leaves the initial tools or the promoted ones. -/
theorem ActiveTools.Balanced.drop_removed (balanced : tools.Balanced initial removed) :
    (tools.drop toolName).Balanced initial (toolName :: removed) := by
  refine balanced.drop ?_
  have distinct := List.nodup_append'.mp (balanced.parts.nodup_iff.mp balanced.distinct)
  rw [unremoved_cons initial removed toolName distinct.1]
  have split : ((unremoved initial removed).map ToolSchema.name ++ tools.promotedNames).erase toolName =
      ((unremoved initial removed).map ToolSchema.name).erase toolName ++ tools.promotedNames.erase toolName := by
    by_cases listed : toolName ∈ (unremoved initial removed).map ToolSchema.name
    · rw [List.erase_append_left _ listed, List.erase_of_not_mem (distinct.2.2 listed)]
    · rw [List.erase_append_right _ listed, List.erase_of_not_mem listed]
  exact split ▸ balanced.parts.erase toolName

/-- The next stamp is a new one. -/
theorem ActiveTools.Balanced.stamps_set (balanced : tools.Balanced initial removed) (toolName : String) :
    (tools.promotedLastUsed.set toolName (tools.useCounter + 1)).values.Nodup ∧
      ∀ stamp ∈ (tools.promotedLastUsed.set toolName (tools.useCounter + 1)).values,
        stamp ≤ tools.useCounter + 1 := by
  have perm := OrderedMap.values_set tools.promotedLastUsed toolName (tools.useCounter + 1)
  have below : ∀ stamp ∈ (tools.promotedLastUsed.delete toolName).values, stamp ≤ tools.useCounter :=
    fun stamp member => balanced.stamped stamp ((values_delete_sublist ..).subset member)
  constructor
  · rw [perm.nodup_iff, List.nodup_cons]
    refine ⟨fun member => ?_, balanced.stamps.sublist (values_delete_sublist ..)⟩
    have := below _ member
    omega
  · intro stamp member
    rcases List.mem_cons.mp (perm.mem_iff.mp member) with rfl | older
    · exact Nat.le_refl _
    · exact Nat.le_succ_of_le (below stamp older)

theorem promotedNames_set (map : OrderedMap String Nat) (toolName : String) (stamp : Nat) :
    (map.set toolName stamp).entries.map Prod.fst =
      if toolName ∈ map.entries.map Prod.fst then map.entries.map Prod.fst
      else map.entries.map Prod.fst ++ [toolName] :=
  OrderedMap.setEntry_keys toolName stamp map.entries

theorem promotedNames_touch (tools : ActiveTools) (toolName : String) :
    (tools.touch toolName).promotedNames = tools.promotedNames := by
  rw [ActiveTools.touch]
  split
  next promoted =>
    exact (promotedNames_set ..).trans (if_pos (OrderedMap.isSome_get?_iff.mp promoted))
  next => rfl

/-- A use changes stamps only. -/
theorem ActiveTools.Balanced.touch (balanced : tools.Balanced initial removed) (toolName : String) :
    (tools.touch toolName).Balanced initial removed := by
  have kept := promotedNames_touch tools toolName
  rw [ActiveTools.touch] at kept ⊢
  split at kept
  next promoted =>
    rw [if_pos promoted]
    exact
      { keyed := balanced.keyed
        distinct := balanced.distinct
        names := balanced.names
        parts := kept ▸ balanced.parts
        stamps := (balanced.stamps_set toolName).1
        stamped := (balanced.stamps_set toolName).2 }
  next other =>
    rw [if_neg other]
    exact balanced

theorem ActiveTools.Balanced.mem_names (balanced : tools.Balanced initial removed) :
    toolName ∈ tools.directToolNames ↔
      toolName ∈ (unremoved initial removed).map ToolSchema.name ∨ toolName ∈ tools.promotedNames := by
  rw [balanced.names.mem_iff, balanced.parts.mem_iff, List.mem_append]

/-- A tool that is not in the list is promoted. -/
theorem ActiveTools.Balanced.promote (balanced : tools.Balanced initial removed) {schema : ToolSchema}
    (named : schema.name = toolName) (fresh : toolName ∉ tools.directToolNames) :
    ActiveTools.Balanced initial removed
      { tools with
        directTools := tools.directTools ++ [schema]
        directToolNames := tools.directToolNames ++ [toolName]
        promotedLastUsed := tools.promotedLastUsed.set toolName (tools.useCounter + 1)
        useCounter := tools.useCounter + 1 } := by
  have absent : toolName ∉ tools.promotedNames := fun promoted => fresh (balanced.mem_names.mpr (.inr promoted))
  have unlisted : toolName ∉ tools.directTools.map ToolSchema.name :=
    fun listed => fresh (balanced.names.mem_iff.mpr listed)
  have names : (tools.directTools ++ [schema]).map ToolSchema.name =
      tools.directTools.map ToolSchema.name ++ [toolName] := by simp [named]
  have keys : (tools.promotedLastUsed.set toolName (tools.useCounter + 1)).entries.map Prod.fst =
      tools.promotedNames ++ [toolName] := (promotedNames_set ..).trans (if_neg absent)
  exact
    { keyed := balanced.keyed
      distinct := by
        rw [names]
        exact List.nodup_append'.mpr ⟨balanced.distinct, List.nodup_singleton _, by simpa using unlisted⟩
      names := by
        rw [names]
        exact balanced.names.append_right [toolName]
      parts := by
        rw [names, ActiveTools.promotedNames, keys, ← List.append_assoc]
        exact balanced.parts.append_right [toolName]
      stamps := (balanced.stamps_set toolName).1
      stamped := (balanced.stamps_set toolName).2 }

/-- When a tool was last used, where the last use comes first. -/
def lastUse : List String → String → Nat
  | [], _ => 0
  | use :: earlier, toolName => if use = toolName then earlier.length + 1 else lastUse earlier toolName

variable {justAdded : String} {uses : List String}

/-- The stamps stand in the order of the last uses. -/
def ActiveTools.InOrder (uses : List String) (tools : ActiveTools) : Prop :=
  ∀ first ∈ tools.promotedLastUsed.entries, ∀ second ∈ tools.promotedLastUsed.entries, first.2 < second.2 →
    lastUse uses first.1 < lastUse uses second.1

/-- The evicted tool was promoted, and every other promoted tool was used later. -/
def OldestFirst (uses : List String) (toolName : String) (promoted : List String) : Prop :=
  toolName ∈ promoted ∧ ∀ other ∈ promoted, other ≠ toolName → lastUse uses toolName < lastUse uses other

/-- The tool just added has the newest stamp. -/
def ActiveTools.Newest (justAdded : String) (tools : ActiveTools) : Prop :=
  ∃ stamp, (justAdded, stamp) ∈ tools.promotedLastUsed.entries ∧
    ∀ entry ∈ tools.promotedLastUsed.entries, entry.2 ≤ stamp

theorem ActiveTools.Balanced.length (balanced : tools.Balanced initial removed) :
    tools.directTools.length = (unremoved initial removed).length + tools.promotedLastUsed.size := by
  simpa [ActiveTools.promotedNames, OrderedMap.size] using balanced.parts.length_eq

theorem ActiveTools.Balanced.named (balanced : tools.Balanced initial removed)
    (promoted : toolName ∈ tools.promotedNames) : toolName ≠ "" := by
  have listed := balanced.parts.mem_iff.mpr (List.mem_append_right _ promoted)
  obtain ⟨tool, _, rfl⟩ := List.mem_map.mp listed
  exact tool.named

theorem ActiveTools.Balanced.same_stamp (balanced : tools.Balanced initial removed) {second : String × Nat}
    (inFirst : first ∈ tools.promotedLastUsed.entries) (inSecond : second ∈ tools.promotedLastUsed.entries)
    (same : first.2 = second.2) : first = second :=
  List.inj_on_of_nodup_map balanced.stamps inFirst inSecond same

variable {stamp : Nat}

/-- A tool that is oldest and newest stands alone. -/
theorem ActiveTools.Balanced.alone (balanced : tools.Balanced initial removed) (newest : tools.Newest justAdded)
    (first : oldest tools.promotedLastUsed.entries = some (justAdded, stamp)) :
    tools.promotedLastUsed.size ≤ 1 := by
  obtain ⟨listed, least⟩ := oldest_least first
  obtain ⟨last, inLast, greatest⟩ := newest
  obtain ⟨_, rfl⟩ : _ ∧ last = stamp :=
    Prod.mk.inj (List.inj_on_of_nodup_map tools.promotedLastUsed.distinct inLast listed rfl)
  have only : ∀ entry ∈ tools.promotedLastUsed.entries, entry = (justAdded, last) := fun entry member =>
    balanced.same_stamp member listed (Nat.le_antisymm (greatest entry member) (least entry member))
  have distinct : tools.promotedLastUsed.entries.Nodup := List.Nodup.of_map Prod.fst tools.promotedLastUsed.distinct
  rw [OrderedMap.size]
  rcases shape : tools.promotedLastUsed.entries with _ | ⟨first, _ | ⟨second, rest⟩⟩
  · simp
  · simp
  · rw [shape] at only distinct
    have same : first = second :=
      (only first List.mem_cons_self).trans (only second (List.mem_cons_of_mem _ List.mem_cons_self)).symm
    simp [same] at distinct

theorem ActiveTools.Balanced.oldestFirst (balanced : tools.Balanced initial removed) (inOrder : tools.InOrder uses)
    (first : oldest tools.promotedLastUsed.entries = some (toolName, stamp)) :
    OldestFirst uses toolName tools.promotedNames := by
  obtain ⟨listed, least⟩ := oldest_least first
  refine ⟨List.mem_map.mpr ⟨_, listed, rfl⟩, fun other member different => ?_⟩
  obtain ⟨entry, inEntry, rfl⟩ := List.mem_map.mp member
  refine inOrder _ listed _ inEntry (Nat.lt_of_le_of_ne (least entry inEntry) fun same => different ?_)
  exact (congrArg Prod.fst (balanced.same_stamp listed inEntry same)).symm

theorem ActiveTools.InOrder.drop (inOrder : tools.InOrder uses) (toolName : String) :
    (tools.drop toolName).InOrder uses :=
  fun first inFirst second inSecond =>
    inOrder first (OrderedMap.mem_delete.mp inFirst).1 second (OrderedMap.mem_delete.mp inSecond).1

/-- The eviction leaves a set that fits, and each tool it takes was the one used longest ago. -/
theorem ActiveTools.Balanced.evict (maxActiveTools : Nat) {left : Nat} (balanced : tools.Balanced initial removed)
    (inOrder : tools.InOrder uses) (newest : tools.Newest justAdded) (enough : tools.promotedLastUsed.size ≤ left) :
    (evictPromotedToolsToCap maxActiveTools justAdded left tools).1.Balanced initial removed ∧
      (evictPromotedToolsToCap maxActiveTools justAdded left tools).1.InOrder uses ∧
      (evictPromotedToolsToCap maxActiveTools justAdded left tools).1.directTools.length ≤
        max maxActiveTools ((unremoved initial removed).length + 1) ∧
      ∀ eviction ∈ (evictPromotedToolsToCap maxActiveTools justAdded left tools).2,
        eviction.1 ∈ tools.promotedNames ∧ OldestFirst uses eviction.1 eviction.2 := by
  induction left generalizing tools with
  | zero =>
      have length := balanced.length
      exact ⟨balanced, inOrder, by simp only [evictPromotedToolsToCap]; omega, List.forall_mem_nil _⟩
  | succ left ih =>
      have length := balanced.length
      rw [evictPromotedToolsToCap]
      split
      next crowded =>
        split
        next none =>
          have empty := oldest_eq_none none
          simp [OrderedMap.size, empty] at crowded
        next oldestName stamp found =>
          have promoted : oldestName ∈ tools.promotedNames := List.mem_map.mpr ⟨_, (oldest_least found).1, rfl⟩
          split
          next keeps =>
            obtain rfl : oldestName = justAdded := keeps.resolve_left (balanced.named promoted)
            have alone := balanced.alone newest found
            exact ⟨balanced, inOrder, by dsimp only; omega, List.forall_mem_nil _⟩
          next leaves =>
            have shorter := OrderedMap.size_delete (OrderedMap.get?_eq_some_iff.mpr (oldest_least found).1)
            obtain ⟨last, inLast, greatest⟩ := newest
            have stays : (tools.drop oldestName).Newest justAdded :=
              ⟨last, OrderedMap.mem_delete.mpr ⟨inLast, fun same => leaves (.inr same.symm)⟩,
                fun entry member => greatest entry (OrderedMap.mem_delete.mp member).1⟩
            obtain ⟨kept, ordered, fits, each⟩ := ih (balanced.drop_promoted promoted) (inOrder.drop oldestName) stays
              (by simp only [ActiveTools.drop]; omega)
            refine ⟨kept, ordered, fits, List.forall_mem_cons.mpr ⟨⟨promoted, balanced.oldestFirst inOrder found⟩, ?_⟩⟩
            intro eviction member
            obtain ⟨still, oldest⟩ := each eviction member
            rw [promotedNames_drop] at still
            exact ⟨List.mem_of_mem_erase still, oldest⟩
      next fits => exact ⟨balanced, inOrder, by dsimp only; omega, List.forall_mem_nil _⟩

end NimbleBrain.Engine
