import NimbleBrain.Engine.ActiveTools

/- In every run the active set keeps its initial tools, stays within its bound and gives up the tool used longest ago. -/

namespace NimbleBrain.Engine

open Library

section Uses

variable {initial : List ToolSchema} {removed : List String} {tools : ActiveTools} {toolName : String}
  {uses : List String}

theorem lastUse_le (uses : List String) (toolName : String) : lastUse uses toolName ≤ uses.length := by
  induction uses with
  | nil => exact Nat.le_refl 0
  | cons use earlier ih =>
      rw [lastUse, List.length_cons]
      split
      · exact Nat.le_refl _
      · exact Nat.le_succ_of_le ih

/-- A tool with the next stamp is the one used last. -/
theorem ActiveTools.InOrder.set (inOrder : tools.InOrder uses) (balanced : tools.Balanced initial removed)
    {after : ActiveTools}
    (stamped : after.promotedLastUsed = tools.promotedLastUsed.set toolName (tools.useCounter + 1)) :
    after.InOrder (toolName :: uses) := by
  intro first inFirst second inSecond less
  rw [stamped, OrderedMap.mem_set] at inFirst inSecond
  have older : ∀ entry ∈ tools.promotedLastUsed.entries, entry.2 ≤ tools.useCounter :=
    fun entry member => balanced.stamped _ (List.mem_map.mpr ⟨entry, member, rfl⟩)
  rcases inFirst with rfl | ⟨inFirst, notFirst⟩
  · rcases inSecond with rfl | ⟨inSecond, _⟩
    · omega
    · have := older second inSecond
      dsimp only at less
      omega
  · rcases inSecond with rfl | ⟨inSecond, notSecond⟩
    · have := lastUse_le uses first.1
      simp only [lastUse, if_neg (Ne.symm notFirst), if_true]
      omega
    · simpa only [lastUse, if_neg (Ne.symm notFirst), if_neg (Ne.symm notSecond)] using
        inOrder first inFirst second inSecond less

theorem ActiveTools.InOrder.touch (inOrder : tools.InOrder uses) (balanced : tools.Balanced initial removed)
    (toolName : String) : (tools.touch toolName).InOrder (toolName :: uses) := by
  rw [ActiveTools.touch]
  split
  next promoted => exact inOrder.set balanced rfl
  next other =>
    intro first inFirst second inSecond less
    have absent : ∀ entry ∈ tools.promotedLastUsed.entries, toolName ≠ entry.1 := by
      rintro entry member rfl
      exact other (OrderedMap.isSome_get?_iff.mpr (List.mem_map.mpr ⟨entry, member, rfl⟩))
    simpa only [lastUse, if_neg (absent first inFirst), if_neg (absent second inSecond)] using
      inOrder first inFirst second inSecond less

end Uses

section Operations

variable {config : PromotionConfig} {initial : List ToolSchema} {removed : List String} {tools : ActiveTools}
  {toolName : String} {uses : List String}

/-- The set fits its cap, or holds one promoted tool beside the initial ones. -/
def ActiveTools.Fits (config : PromotionConfig) (initial : List ToolSchema) (removed : List String)
    (tools : ActiveTools) : Prop :=
  tools.directTools.length ≤ max config.maxActiveTools ((unremoved initial removed).length + 1)

/-- What holds of a run's collections and its uses. -/
structure ActiveTools.Kept (config : PromotionConfig) (initial : List ToolSchema) (removed uses : List String)
    (tools : ActiveTools) : Prop where
  balanced : tools.Balanced initial removed
  inOrder : tools.InOrder uses
  fits : tools.Fits config initial removed

theorem ActiveTools.Kept.touch (kept : tools.Kept config initial removed uses) (toolName : String) :
    (tools.touch toolName).Kept config initial removed (toolName :: uses) where
  balanced := kept.balanced.touch toolName
  inOrder := kept.inOrder.touch kept.balanced toolName
  fits := by
    have same : (tools.touch toolName).directTools = tools.directTools := by
      rw [ActiveTools.touch]
      split <;> rfl
    rw [ActiveTools.Fits, same]
    exact kept.fits

theorem mergeToolLookups_keyed (fresh : List ToolSchema) {lookups : OrderedMap String ToolSchema}
    (keyed : ∀ entry ∈ lookups.entries, entry.2.name = entry.1) :
    ∀ entry ∈ (mergeToolLookups fresh lookups).entries, entry.2.name = entry.1 := by
  induction fresh generalizing lookups with
  | nil => exact keyed
  | cons tool rest ih =>
      refine @ih (lookups.set tool.name tool) fun entry member => ?_
      rcases OrderedMap.mem_set.mp member with rfl | ⟨older, _⟩
      · rfl
      · exact keyed entry older

/-- A tool that is evicted when another is added is not an initial one, unless it was released. -/
def Spared (initial : List ToolSchema) (removed : List String) (toolName : String) : Prop :=
  ∀ tool ∈ initial, tool.name = toolName → tool.name ∈ removed

/-- An add keeps the collections. What it evicts was used longest ago. -/
theorem ActiveTools.Kept.addTool (kept : tools.Kept config initial removed uses) (toolName : String) :
    (tools.addTool config toolName).tools.Kept config initial removed
        (if (tools.addTool config toolName).result.ok then toolName :: uses else uses) ∧
      ∀ eviction ∈ (tools.addTool config toolName).evicted,
        Spared initial removed eviction.1 ∧
          OldestFirst (if (tools.addTool config toolName).result.ok then toolName :: uses else uses)
            eviction.1 eviction.2 := by
  rw [ActiveTools.addTool]
  split
  next => exact ⟨kept.touch toolName, nofun⟩
  next fresh =>
    split
    next => exact ⟨kept, nofun⟩
    next schema found =>
      split
      next => exact ⟨kept, nofun⟩
      next =>
        split
        next => exact ⟨kept, nofun⟩
        next =>
          have named := kept.balanced.keyed _ (OrderedMap.get?_eq_some_iff.mp found)
          have promoted := kept.balanced.promote named fresh
          have newest : ActiveTools.Newest toolName
              { tools with
                directTools := tools.directTools ++ [schema]
                directToolNames := tools.directToolNames ++ [toolName]
                promotedLastUsed := tools.promotedLastUsed.set toolName (tools.useCounter + 1)
                useCounter := tools.useCounter + 1 } :=
            ⟨tools.useCounter + 1, OrderedMap.mem_set.mpr (.inl rfl),
              fun entry member => promoted.stamped _ (List.mem_map.mpr ⟨entry, member, rfl⟩)⟩
          obtain ⟨balanced, inOrder, fits, each⟩ :=
            promoted.evict config.maxActiveTools (kept.inOrder.set kept.balanced rfl) newest (Nat.le_refl _)
          refine ⟨⟨balanced, inOrder, fits⟩, fun eviction member => ⟨fun tool listed same => ?_, (each eviction member).2⟩⟩
          by_contra unreleased
          refine promoted.apart (List.mem_map.mpr ⟨tool, ?_, same⟩) (each eviction member).1
          exact List.mem_filter.mpr ⟨listed, by simpa using unreleased⟩

/-- Each eviction an add reports is one it made. -/
theorem ActiveTools.addTool_reported {name reason : String}
    (reported : .released name (some reason) ∈ (tools.addTool config toolName).events) :
    ∃ eviction ∈ (tools.addTool config toolName).evicted, eviction.1 = name := by
  rw [ActiveTools.addTool] at reported ⊢
  split at reported
  next => cases reported
  next fresh =>
    rw [if_neg fresh]
    split at reported
    next => cases reported
    next schema found =>
      split at reported
      next => cases reported
      next visible =>
        split at reported
        next => cases reported
        next eligible =>
          simp only [if_neg visible, if_neg eligible]
          obtain ⟨eviction, listed, same⟩ := List.mem_map.mp ((List.mem_cons.mp reported).resolve_left nofun)
          exact ⟨eviction, listed, (ToolEvent.released.inj same).1⟩

/-- A release keeps the collections. -/
theorem ActiveTools.Kept.removeTool (kept : tools.Kept config initial removed uses) (toolName : String) :
    (tools.removeTool toolName).tools.Kept config initial
      (if (tools.removeTool toolName).result.changed then toolName :: removed else removed) uses := by
  rw [ActiveTools.removeTool]
  split
  next => exact kept
  next =>
    split
    next => exact kept
    next active =>
      have listed : toolName ∈ tools.directToolNames := not_not.mp active
      refine ⟨kept.balanced.drop_removed, kept.inOrder.drop toolName, ?_⟩
      have distinct := List.nodup_append'.mp (kept.balanced.parts.nodup_iff.mp kept.balanced.distinct)
      have rest := congrArg List.length (unremoved_cons initial removed toolName distinct.1)
      have shorter := congrArg List.length (map_name_eraseP tools.directTools toolName)
      rw [List.length_erase_of_mem (kept.balanced.names.mem_iff.mp listed)] at shorter
      rw [List.length_erase] at rest
      have fits := kept.fits
      simp only [List.length_map] at rest shorter
      simp only [ActiveTools.Fits, ActiveTools.drop, if_true, shorter, rest] at fits ⊢
      split <;> omega

end Operations

variable {config : PromotionConfig} {initial listing : List ToolSchema} {run after : ToolRun}

/-- What holds in every state of a run. -/
structure ToolRun.Sound (config : PromotionConfig) (initial : List ToolSchema) (run : ToolRun) : Prop where
  kept : run.tools.Kept config initial run.removed run.uses
  oldest : ∀ eviction ∈ run.evictions, OldestFirst eviction.uses eviction.toolName eviction.promoted
  spared : ∀ eviction ∈ run.evictions, Spared initial run.removed eviction.toolName
  reported : ∀ toolName reason, .released toolName (some reason) ∈ run.events →
    ∃ eviction ∈ run.evictions, eviction.toolName = toolName

theorem ToolRun.Sound.added (sound : run.Sound config initial) (toolName : String) :
    (run.added config toolName).Sound config initial := by
  obtain ⟨kept, evicted⟩ := sound.kept.addTool toolName
  refine ⟨kept, ?_, ?_, ?_⟩
  · refine List.forall_mem_append.mpr ⟨sound.oldest, fun eviction member => ?_⟩
    obtain ⟨entry, listed, rfl⟩ := List.mem_map.mp member
    exact (evicted entry listed).2
  · refine List.forall_mem_append.mpr ⟨sound.spared, fun eviction member => ?_⟩
    obtain ⟨entry, listed, rfl⟩ := List.mem_map.mp member
    exact (evicted entry listed).1
  · intro name reason member
    rcases List.mem_append.mp member with older | newer
    · obtain ⟨eviction, listed, same⟩ := sound.reported name reason older
      exact ⟨eviction, List.mem_append_left _ listed, same⟩
    · obtain ⟨entry, listed, same⟩ := ActiveTools.addTool_reported newer
      exact ⟨_, List.mem_append_right _ (List.mem_map.mpr ⟨entry, listed, rfl⟩), same⟩

theorem ToolRun.Sound.removed (sound : run.Sound config initial) (toolName : String) :
    ToolRun.Sound config initial
      { run with
        tools := (run.tools.removeTool toolName).tools
        events := run.events ++ (run.tools.removeTool toolName).events
        removed := if (run.tools.removeTool toolName).result.changed then toolName :: run.removed else run.removed } := by
  refine ⟨sound.kept.removeTool toolName, sound.oldest, fun eviction member tool listed same => ?_,
    fun name reason member => ?_⟩
  · have released := sound.spared eviction member tool listed same
    dsimp only
    split
    · exact List.mem_cons_of_mem _ released
    · exact released
  · refine sound.reported name reason ((List.mem_append.mp member).resolve_right fun newer => ?_)
    rw [ActiveTools.removeTool] at newer
    split at newer
    · cases newer
    · split at newer
      · cases newer
      · simp at newer

theorem ToolRun.Sound.step {action : ToolAction} (sound : run.Sound config initial)
    (stepped : run.step config action = some after) : after.Sound config initial := by
  cases action with
  | addTool toolName =>
      simp only [ToolRun.step] at stepped
      split at stepped <;> obtain rfl := Option.some.inj stepped
      · exact ⟨sound.kept, sound.oldest, sound.spared, sound.reported⟩
      · exact sound.added toolName
  | lookupsSettled iteration fresh =>
      simp only [ToolRun.step] at stepped
      split at stepped
      · obtain rfl := Option.some.inj stepped
        have keyed := mergeToolLookups_keyed (fresh.getD []) sound.kept.balanced.keyed
        exact ⟨⟨{ sound.kept.balanced with keyed := keyed }, sound.kept.inOrder, sound.kept.fits⟩, sound.oldest,
          sound.spared, sound.reported⟩
      · cases stepped
  | addResumed toolName iteration =>
      simp only [ToolRun.step] at stepped
      split at stepped
      · obtain rfl := Option.some.inj stepped
        have waited : ToolRun.Sound config initial { run with waiting := run.waiting.erase (toolName, iteration) } :=
          ⟨sound.kept, sound.oldest, sound.spared, sound.reported⟩
        exact waited.added toolName
      · cases stepped
  | removeTool toolName =>
      obtain rfl := Option.some.inj stepped
      exact sound.removed toolName
  | toolUsed toolName =>
      obtain rfl := Option.some.inj stepped
      exact ⟨sound.kept.touch toolName, sound.oldest, sound.spared, sound.reported⟩
  | nextIteration =>
      obtain rfl := Option.some.inj stepped
      exact ⟨sound.kept, sound.oldest, sound.spared, sound.reported⟩

theorem sound_begin (config : PromotionConfig) (listing : List ToolSchema)
    (distinct : (initial.map ToolSchema.name).Nodup) (first : (toolRuns config initial listing).initial run) :
    run.Sound config initial := by
  obtain rfl := first
  have all : unremoved initial [] = initial := List.filter_eq_self.mpr fun _ _ => by simp
  refine ⟨⟨?_, nofun, ?_⟩, nofun, nofun, nofun⟩
  · exact
      { keyed := mergeToolLookups_keyed listing nofun
        distinct := distinct
        names := List.Perm.of_eq distinct.dedup
        parts := by
          rw [all, ActiveTools.begin, ActiveTools.promotedNames, OrderedMap.entries_empty, List.map_nil,
            List.append_nil]
        stamps := List.nodup_nil
        stamped := nofun }
  · simp only [ActiveTools.Fits, all, ActiveTools.begin]
    omega

/-- The active set of a run. -/
structure ActiveSet (config : PromotionConfig) (initial : List ToolSchema) (run : ToolRun) : Prop where
  distinct : (run.tools.directTools.map ToolSchema.name).Nodup
  names : ∀ name, name ∈ run.tools.directToolNames ↔ name ∈ run.tools.directTools.map ToolSchema.name
  promoted : ∀ entry ∈ run.tools.promotedLastUsed.entries, entry.1 ∈ run.tools.directToolNames
  stamps : run.tools.promotedLastUsed.values.Nodup
  exempt : ∀ tool ∈ initial, tool.name ∉ run.removed → run.tools.promotedLastUsed.get? tool.name = none
  spared : ∀ toolName reason, .released toolName (some reason) ∈ run.events →
    ∀ tool ∈ initial, tool.name = toolName → tool.name ∈ run.removed
  reported : ∀ toolName reason, .released toolName (some reason) ∈ run.events →
    ∃ eviction ∈ run.evictions, eviction.toolName = toolName
  oldest : ∀ eviction ∈ run.evictions, OldestFirst eviction.uses eviction.toolName eviction.promoted
  fits : run.tools.directTools.length ≤ max config.maxActiveTools ((unremoved initial run.removed).length + 1)

def readContact : ToolSchema := { name := "crm__read_contact", named := by decide, modelVisible := true }

def sendMail : ToolSchema := { name := "mail__send", named := by decide, modelVisible := true }

/-- One tool at a time may be active. -/
def oneActive : PromotionConfig := { maxActiveTools := 1, isToolEligible := none }

/-- A run as it begins, with one initial tool. -/
def begun : ToolRun :=
  { tools := .begin [readContact] [readContact, sendMail], iteration := 0, lookupsRefresh := none, settled := [],
    waiting := [], events := [], removed := [], uses := [], evictions := [] }

/-- The agent releases the initial tool, adds it again, and adds another. -/
def readded : List ToolAction :=
  [.removeTool "crm__read_contact", .addTool "crm__read_contact", .toolUsed "crm__read_contact", .addTool "mail__send"]

theorem begun_initial : (toolRuns oneActive [readContact] [readContact, sendMail]).initial begun := rfl

end NimbleBrain.Engine
