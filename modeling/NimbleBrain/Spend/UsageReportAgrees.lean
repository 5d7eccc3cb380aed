import Mathlib.Logic.Equiv.Nat
import NimbleBrain.Spend.UsageReport

/- A row's key, used as a filter, gives the row back. A model's short name may be the full name of another model. -/

namespace NimbleBrain.Spend.Report

open Library

section Stacks

variable {host : ReportHost} {by' : UsageStackBy}

def stackSum (stack : Option (OrderedMap String ℚ)) : ℚ := stack.elim 0 (total id)

theorem stackSum_addToStack (bucket : BreakdownAccumulator) (key : String) (cost : ℚ) :
    stackSum (addToStack bucket key cost).stack = stackSum bucket.stack + cost := by
  have added : ∀ stack : OrderedMap String ℚ,
      total id (stack.set key ((stack.get? key).getD 0 + cost)) = total id stack + cost := by
    intro stack
    rw [total_set, total_delete id stack key]
    cases stack.get? key with
    | none => simp [add_comm]
    | some old => simp [add_right_comm]
  cases held : bucket.stack with
  | none =>
      have empty : total id (∅ : OrderedMap String ℚ) = 0 := rfl
      simpa [addToStack, stackSum, held, empty] using added ∅
  | some stack => simpa [addToStack, stackSum, held] using added stack

/-- The parts of a day cost what the day costs. -/
theorem stackSum_fold (records : List LlmCallRecord) (bucket : BreakdownAccumulator)
    (whole : stackSum bucket.stack = bucket.cost.total) :
    stackSum (records.foldl (addToBucket host .day (some by')) bucket).stack =
      (records.foldl (addToBucket host .day (some by')) bucket).cost.total := by
  induction records generalizing bucket with
  | nil => exact whole
  | cons record rest ih =>
      refine ih _ ?_
      rw [(joined_addToBucket host .day (some by') bucket record).cost]
      simp only [addToBucket, stackSum_addToStack]
      rw [whole]
      rfl

end Stacks

section Filters

variable {host : ReportHost} {dimension : UsageGroupBy} {stackBy : Option UsageStackBy} {records : List LlmCallRecord}

def originOf : String → Option UsageOrigin
  | "chat" => some .chat
  | "task" => some .task
  | "system" => some .system
  | _ => none

/-- The filter that selects a row of a dimension. -/
def filterFor : UsageGroupBy → String → Option UsageFilters
  | .workspace, key => some { workspaceId := some key }
  | .user, key => some { userId := some key }
  | .model, key => some { model := some key }
  | .origin, key => (originOf key).map fun origin => { origin := some origin }
  | _, _ => none

@[simp] theorem matchesFilters_none (record : LlmCallRecord) : matchesFilters record {} = true := rfl

/-- A filter reads the field that its dimension reads. -/
theorem matchesFilters_filterFor {key : String} {filters : UsageFilters}
    (selects : filterFor dimension key = some filters) (other : dimension ≠ .model) (record : LlmCallRecord) :
    matchesFilters record filters = decide (groupKeyFor record dimension = some key) := by
  cases dimension with
  | model => exact absurd rfl other
  | workspace =>
      obtain rfl := Option.some.inj selects
      simp [matchesFilters, groupKeyFor, keyFor]
  | user =>
      obtain rfl := Option.some.inj selects
      simp [matchesFilters, groupKeyFor, keyFor]
  | origin =>
      obtain ⟨origin, named, rfl⟩ := Option.map_eq_some_iff.mp selects
      have text : key = origin.text := by
        unfold originOf at named
        split at named
        all_goals cases named
        all_goals rfl
      subst text
      cases held : record.origin <;> cases origin <;> simp [matchesFilters, groupKeyFor, keyFor, held, UsageOrigin.text]
  | day => cases selects
  | conversation => cases selects
  | provider => cases selects

/-- Filtering while reading is filtering what was read. -/
theorem readLedger_filters (shards : List (List (Option LlmCallRecord))) (range : DateRange)
    (ownerFilter : Option String) (filters : UsageFilters) :
    readLedger shards range ownerFilter filters =
      (readLedger shards range ownerFilter {}).filter fun record => matchesFilters record filters := by
  rw [readLedger, readLedger, List.filter_flatMap]
  refine congrArg (fun parse => shards.flatMap parse) (funext fun lines => ?_)
  rw [parseShard, parseShard, List.filter_filter]
  exact List.filter_congr fun record _ => by simp [Bool.and_comm]

/-- A row says what the totals say. -/
structure SameFigures (row : BreakdownEntry) (totals : UsageTotals) : Prop where
  tokens : row.tokens = totals.tokens
  cost : row.cost = totals.cost
  llmCalls : row.llmCalls = totals.llmCalls
  conversations : row.conversations = totals.conversations
  runs : row.runs = totals.runs
  unpricedCalls : row.unpricedCalls = totals.unpricedCalls
  cacheHitRate : row.cacheHitRate = totals.cacheHitRate

variable {shards : List (List (Option LlmCallRecord))} {range : DateRange} {groupBy : List String}
  {options : AggregateUsageOptions}

theorem totals_pooled (host : ReportHost) (dimension : UsageGroupBy) (stackBy split : Option UsageStackBy)
    (groupBys : List UsageGroupBy) (records : List LlmCallRecord) :
    Pooled (records.foldl (accumulateRecord host) (startSink records groupBys split))
      (records.foldl (addToBucket host dimension stackBy) {}) :=
  Pooled.fold ⟨rfl, rfl, rfl, rfl, rfl⟩ records

/-- The totals are those of a row of all records. -/
theorem sameFigures_totals (host : ReportHost) (dimension : UsageGroupBy) (stackBy : Option UsageStackBy)
    (key : String) (same : readLedger shards range options.ownerFilter options.filters = records) :
    SameFigures (entryOf key (records.foldl (addToBucket host dimension stackBy) {}))
      (aggregateUsage host shards range groupBy options).totals := by
  have pooled := totals_pooled host dimension stackBy options.stackBy (normalizeGroupBys groupBy) records
  subst same
  simp only [aggregateUsage, entryOf, ← pooled.tokens, ← pooled.cost, ← pooled.conversations, ← pooled.runs,
    ← pooled.unpricedCalls]
  refine ⟨rfl, rfl, ?_, rfl, rfl, rfl, rfl⟩
  rw [llmCalls_fold, llmCalls_sink]
  exact Nat.zero_add _

/-- The totals hold what every record adds. -/
theorem ofTotals_eq (host : ReportHost) (figure : Figure) :
    figure.ofTotals (aggregateUsage host shards range groupBy options).totals =
      ((readLedger shards range options.ownerFilter options.filters).map (figure.ofRecord host)).sum := by
  have same : SameFigures _ (aggregateUsage host shards range groupBy options).totals :=
    sameFigures_totals host .day none "" rfl
  rw [Figure.ofTotals, ← same.tokens, ← same.cost, ← same.llmCalls, ← same.unpricedCalls]
  refine (figure.ofRow_entryOf "" _).trans ?_
  rw [Figure.ofBucket_fold]
  exact (congrArg (· + _) figure.of_zero).trans (zero_add _)

end Filters

section Agreement

variable {host : ReportHost} {shards : List (List (Option LlmCallRecord))} {range : DateRange} {groupBy : List String}
  {ownerFilter : Option String} {stackBy : Option UsageStackBy} {dimension : UsageGroupBy}
  {records : List LlmCallRecord}

/-- The report is consistent with itself. -/
structure SelfConsistent (host : ReportHost) (shards : List (List (Option LlmCallRecord))) (range : DateRange)
    (groupBy : List String) (ownerFilter : Option String) (stackBy : Option UsageStackBy) (report : UsageReport) :
    Prop where
  rows : ∀ entry ∈ report.breakdowns, entry.1 ≠ .conversation →
    entry.1 ∉ report.truncatedBreakdowns.map Prod.fst → ∀ figure : Figure,
      (entry.2.map figure.ofRow).sum = figure.ofTotals report.totals
  splits : stackBy.isSome = true → ∀ entry ∈ report.breakdowns, entry.1 = .day → ∀ row ∈ entry.2,
    stackSum row.stack = row.cost.total
  filtered : ∀ entry ∈ report.breakdowns, ∀ row ∈ entry.2, ∀ filters, filterFor entry.1 row.key = some filters →
    SameFigures row (aggregateUsage host shards range groupBy ⟨ownerFilter, filters, stackBy⟩).totals

/-- The model names whose rows the cap leaves. -/
def shownModels (host : ReportHost) (range : DateRange) (stackBy : Option UsageStackBy)
    (records : List LlmCallRecord) : List String :=
  (finalizeBreakdown host (groupsOf host stackBy records .model) .model range).map BreakdownEntry.key

/-- Every day with a call is walked where days are filled in, and no record has for its full name a row's short name
that is not its own. -/
structure Apart (host : ReportHost) (range : DateRange) (groupBys : List UsageGroupBy)
    (stackBy : Option UsageStackBy) (records : List LlmCallRecord) : Prop where
  days : .day ∈ groupBys → tooWide host range = false → ∀ record ∈ records,
    dayKey record.ts ∈ walkedDays host range
  models : .model ∈ groupBys → ∀ name ∈ shownModels host range stackBy records, ∀ record ∈ records,
    record.model = name → normalizeModel record.model = name

theorem breakdowns_eq (host : ReportHost) (options : AggregateUsageOptions) :
    (aggregateUsage host shards range groupBy options).breakdowns =
      (normalizeGroupBys groupBy).map fun dimension =>
        (dimension, finalizeBreakdown host
          (groupsOf host options.stackBy (readLedger shards range options.ownerFilter options.filters) dimension)
          dimension range) := by
  simp only [aggregateUsage, breakdownMaps_start, List.map_map]
  rfl

theorem length_finalizeBreakdown (host : ReportHost) (map : OrderedMap String BreakdownAccumulator)
    (other : dimension ≠ .day) (range : DateRange) :
    (finalizeBreakdown host map dimension range).length < map.size ↔ MAX_BREAKDOWN_ROWS < map.size := by
  rw [finalizeBreakdown_eq]
  by_cases many : MAX_BREAKDOWN_ROWS < map.size
  · rw [if_pos ⟨other, many⟩, byKey, List.length_mergeSort, List.length_take]
    omega
  · rw [if_neg fun capped => many capped.2, if_pos (.inl other), length_allRows]
    omega

theorem truncated_iff (host : ReportHost) (options : AggregateUsageOptions) :
    dimension ∈ (aggregateUsage host shards range groupBy options).truncatedBreakdowns.map Prod.fst ↔
      dimension ∈ normalizeGroupBys groupBy ∧ dimension ≠ .day ∧ MAX_BREAKDOWN_ROWS <
        (groupsOf host options.stackBy (readLedger shards range options.ownerFilter options.filters) dimension).size := by
  simp only [aggregateUsage, breakdownMaps_start, List.filterMap_map, List.mem_map, List.mem_filterMap]
  constructor
  · rintro ⟨truncation, ⟨other, listed, found⟩, rfl⟩
    simp only [Function.comp_apply] at found
    split at found
    next capped =>
      obtain rfl := Option.some.inj found
      exact ⟨listed, capped.1, (length_finalizeBreakdown host _ capped.1 range).mp capped.2⟩
    next => cases found
  · rintro ⟨listed, other, many⟩
    refine ⟨_, ⟨dimension, listed, if_pos ⟨other, ?_⟩⟩, rfl⟩
    exact (length_finalizeBreakdown host _ other range).mpr many

variable {row : BreakdownEntry}

/-- A row that is returned is one of all rows, or it stands for a day without a call. -/
theorem mem_finalizeBreakdown {map : OrderedMap String BreakdownAccumulator}
    (listed : row ∈ finalizeBreakdown host map dimension range) :
    row ∈ allRows host map ∨ dimension = .day ∧ row = emptyBreakdownEntry row.key := by
  rw [finalizeBreakdown_eq] at listed
  split at listed
  · rw [byKey, (List.mergeSort_perm _ _).mem_iff] at listed
    have costly := List.mem_of_mem_take listed
    rw [byCost, (List.mergeSort_perm _ _).mem_iff] at costly
    exact .inl costly
  split at listed
  · exact .inl listed
  next narrow =>
    obtain ⟨key, _, rfl⟩ := List.mem_map.mp listed
    cases found : (allRows host map).find? fun row => row.key = key with
    | none => exact .inr ⟨of_not_not fun other => narrow (.inl other), rfl⟩
    | some row => exact .inl (List.mem_of_find?_eq_some found)

/-- A row is the fold of the records of its key. -/
theorem mem_allRows_groupsOf (listed : row ∈ allRows host (groupsOf host stackBy records dimension)) :
    row = entryOf row.key
      ((groupOf (fun record => groupKeyFor record dimension) row.key records).foldl
        (addToBucket host dimension stackBy) {}) := by
  obtain ⟨data, held, same⟩ := mem_allRows.mp listed
  obtain ⟨_, folded⟩ := mem_groupItems (OrderedMap.get?_eq_some_iff.mp held)
  rw [← folded]
  exact same

theorem called_groupsOf : ∀ entry ∈ (groupsOf host stackBy records dimension).entries, 0 < entry.2.llmCalls := by
  intro entry member
  obtain ⟨some, folded⟩ := mem_groupItems member
  rw [folded, llmCalls_fold]
  have positive := List.length_pos_of_ne_nil some
  omega

/-- The keys of a dimension are those of its records. -/
theorem keys_groupsOf (host : ReportHost) (stackBy : Option UsageStackBy) (records : List LlmCallRecord)
    (dimension : UsageGroupBy) (holds : String → Prop) :
    (∀ entry ∈ (groupsOf host stackBy records dimension).entries, holds entry.1) ↔
      ∀ record ∈ records, ∀ key, groupKeyFor record dimension = some key → holds key := by
  constructor
  · intro all record listed key keyed
    have some : groupOf (fun record => groupKeyFor record dimension) key records ≠ [] :=
      List.ne_nil_of_mem (List.mem_filter.mpr ⟨listed, decide_eq_true keyed⟩)
    have found := get?_groupItems (fun record => groupKeyFor record dimension) {} (addToBucket host dimension stackBy)
      records key
    rw [if_neg some] at found
    exact all _ (OrderedMap.get?_eq_some_iff.mp found)
  · intro all entry member
    obtain ⟨record, inside⟩ := List.exists_mem_of_ne_nil _ (mem_groupItems member).1
    obtain ⟨listed, keyed⟩ := List.mem_filter.mp inside
    exact all record listed entry.1 (of_decide_eq_true keyed)

theorem rows_iff (host : ReportHost) (options : AggregateUsageOptions)
    (same : readLedger shards range options.ownerFilter options.filters = records) :
    (∀ entry ∈ (aggregateUsage host shards range groupBy options).breakdowns, entry.1 ≠ .conversation →
      entry.1 ∉ (aggregateUsage host shards range groupBy options).truncatedBreakdowns.map Prod.fst →
        ∀ figure : Figure, (entry.2.map figure.ofRow).sum =
          figure.ofTotals (aggregateUsage host shards range groupBy options).totals) ↔
      (.day ∈ normalizeGroupBys groupBy → tooWide host range = false → ∀ record ∈ records,
        dayKey record.ts ∈ walkedDays host range) := by
  subst same
  have called := @called_groupsOf host options.stackBy .day
    (readLedger shards range options.ownerFilter options.filters)
  have walked := keys_groupsOf host options.stackBy (readLedger shards range options.ownerFilter options.filters) .day
    (· ∈ walkedDays host range)
  simp only [breakdowns_eq, List.forall_mem_map, truncated_iff, ofTotals_eq]
  constructor
  · intro sums listed narrow record member
    refine walked.mp ((sum_filledRows_iff called).mp fun figure => ?_) record member _ rfl
    rw [total_groupsOf host _ _ (by simp) figure, ← sums .day listed (by simp) (by simp) figure, finalizeBreakdown_eq]
    simp [narrow, filledRows]
  · intro days dimension listed described whole figure
    rw [← total_groupsOf host options.stackBy _ described figure, finalizeBreakdown_eq]
    by_cases day : dimension = .day
    · subst day
      cases wide : tooWide host range with
      | true =>
          rw [if_neg fun capped => capped.1 rfl, if_pos (.inr rfl)]
          exact sum_allRows host _ figure
      | false =>
          rw [if_neg fun capped => capped.1 rfl, if_neg (by simp)]
          refine (sum_filledRows_iff called).mpr (walked.mpr fun record member key keyed => ?_) figure
          obtain rfl := Option.some.inj keyed
          exact days listed wide record member
    · rw [if_neg fun capped => whole ⟨listed, day, capped.2⟩, if_pos (.inl day)]
      exact sum_allRows host _ figure

/-- A day's parts cost what the day costs. -/
theorem splits_always (host : ReportHost) (options : AggregateUsageOptions) (split : options.stackBy.isSome = true) :
    ∀ entry ∈ (aggregateUsage host shards range groupBy options).breakdowns, entry.1 = .day → ∀ row ∈ entry.2,
      stackSum row.stack = row.cost.total := by
  obtain ⟨by', set⟩ := Option.isSome_iff_exists.mp split
  simp only [breakdowns_eq, List.forall_mem_map, set]
  intro dimension _ day row listed
  subst day
  rcases mem_finalizeBreakdown listed with within | ⟨_, empty⟩
  · rw [mem_allRows_groupsOf within]
    exact stackSum_fold _ {} rfl
  · rw [empty]
    rfl

theorem llmCalls_totals (host : ReportHost) (options : AggregateUsageOptions) :
    (aggregateUsage host shards range groupBy options).totals.llmCalls =
      (readLedger shards range options.ownerFilter options.filters).length :=
  llmCalls_sink _ _

/-- A row's key selects the records that its dimension gives that key, and for a model those of that full name. -/
theorem filtered_iff (host : ReportHost) (range : DateRange) (ownerFilter : Option String)
    (stackBy : Option UsageStackBy) {filters : UsageFilters}
    (same : readLedger shards range ownerFilter {} = records)
    (listed : row ∈ finalizeBreakdown host (groupsOf host stackBy records dimension) dimension range)
    (selects : filterFor dimension row.key = some filters) :
    SameFigures row (aggregateUsage host shards range groupBy ⟨ownerFilter, filters, stackBy⟩).totals ↔
      (dimension = .model → ∀ record ∈ records, record.model = row.key → normalizeModel record.model = row.key) := by
  have folded : row = entryOf row.key
      ((groupOf (fun record => groupKeyFor record dimension) row.key records).foldl
        (addToBucket host dimension stackBy) {}) := by
    rcases mem_finalizeBreakdown listed with within | ⟨day, _⟩
    · exact mem_allRows_groupsOf within
    · subst day
      cases selects
  have read : readLedger shards range ownerFilter filters =
      records.filter fun record => matchesFilters record filters := by
    rw [readLedger_filters, same]
  have exactly : (records.filter fun record => matchesFilters record filters) =
      groupOf (fun record => groupKeyFor record dimension) row.key records →
      SameFigures row (aggregateUsage host shards range groupBy ⟨ownerFilter, filters, stackBy⟩).totals := by
    intro grouped
    rw [folded]
    exact sameFigures_totals host dimension stackBy row.key (read.trans grouped)
  by_cases model : dimension = .model
  · subst model
    obtain rfl := Option.some.inj selects
    have matched : ∀ record, matchesFilters record { model := some row.key } =
        decide (record.model = row.key ∨ normalizeModel record.model = row.key) := by
      intro record
      simp [matchesFilters]
    constructor
    · intro figures _ record member named
      have calls : row.llmCalls = (groupOf (fun record => groupKeyFor record .model) row.key records).length := by
        rw [folded]
        exact (llmCalls_fold _ {}).trans (Nat.zero_add _)
      have more : (groupOf (fun record => groupKeyFor record .model) row.key records).Sublist
          (records.filter fun record => matchesFilters record { model := some row.key }) := by
        refine List.monotone_filter_right records fun record keyed => ?_
        rw [matched]
        exact decide_eq_true (.inr (Option.some.inj (of_decide_eq_true keyed)))
      have all := more.eq_of_length (by rw [← calls, figures.llmCalls, llmCalls_totals, read])
      have kept : record ∈ groupOf (fun record => groupKeyFor record .model) row.key records := by
        rw [all, List.mem_filter, matched]
        exact ⟨member, decide_eq_true (.inl named)⟩
      exact Option.some.inj (of_decide_eq_true (List.mem_filter.mp kept).2)
    · intro own
      refine exactly (List.filter_congr fun record member => ?_)
      rw [matched]
      refine decide_eq_decide.mpr ⟨fun either => ?_, fun keyed => .inr (Option.some.inj keyed)⟩
      rcases either with full | short
      · exact congrArg some (own rfl record member full)
      · exact congrArg some short
  · refine iff_of_true (exactly (List.filter_congr fun record _ => ?_)) fun other => absurd other model
    exact matchesFilters_filterFor selects model record

/-- Without a cut, the names of all records are shown. -/
theorem mem_shownModels (host : ReportHost) (range : DateRange) (stackBy : Option UsageStackBy)
    (few : (groupsOf host stackBy records .model).size ≤ MAX_BREAKDOWN_ROWS) {record : LlmCallRecord}
    (member : record ∈ records) :
    normalizeModel record.model ∈ shownModels host range stackBy records := by
  refine (keys_groupsOf host stackBy records .model (· ∈ shownModels host range stackBy records)).mp ?_ record member _
    rfl
  intro entry held
  rw [shownModels, finalizeBreakdown_eq, if_neg fun capped => absurd capped.2 (Nat.not_lt.mpr few),
    if_pos (.inl (by simp))]
  exact List.mem_map.mpr ⟨entryOf entry.1 entry.2,
    mem_allRows.mpr ⟨entry.2, OrderedMap.get?_eq_some_iff.mpr held, rfl⟩, rfl⟩

/-- In a consistent report the row of a model name holds every record of that full name. -/
theorem SelfConsistent.models
    (consistent : SelfConsistent host shards range groupBy ownerFilter stackBy
      (aggregateUsage host shards range groupBy ⟨ownerFilter, {}, stackBy⟩))
    (listed : .model ∈ normalizeGroupBys groupBy) :
    ∀ name ∈ shownModels host range stackBy (readLedger shards range ownerFilter {}),
      ∀ record ∈ readLedger shards range ownerFilter {}, record.model = name → normalizeModel record.model = name := by
  intro name shown record member named
  obtain ⟨row, within, rfl⟩ := List.mem_map.mp shown
  have figures := consistent.filtered (.model, _) (by rw [breakdowns_eq]; exact List.mem_map_of_mem listed) row within _
    rfl
  exact (filtered_iff host range ownerFilter stackBy rfl within rfl).mp figures rfl record member named

/-- A report is consistent with itself exactly where days are walked and model names are apart. -/
theorem aggregateUsage_selfConsistent (host : ReportHost) (shards : List (List (Option LlmCallRecord)))
    (range : DateRange) (groupBy : List String) (ownerFilter : Option String) (stackBy : Option UsageStackBy) :
    SelfConsistent host shards range groupBy ownerFilter stackBy
        (aggregateUsage host shards range groupBy ⟨ownerFilter, {}, stackBy⟩) ↔
      Apart host range (normalizeGroupBys groupBy) stackBy (readLedger shards range ownerFilter {}) := by
  have rows := @rows_iff shards range groupBy _ host ⟨ownerFilter, {}, stackBy⟩ rfl
  constructor
  · intro consistent
    exact ⟨rows.mp consistent.rows, consistent.models⟩
  · rintro ⟨days, models⟩
    refine ⟨rows.mpr days, splits_always host ⟨ownerFilter, {}, stackBy⟩, ?_⟩
    simp only [breakdowns_eq, List.forall_mem_map]
    intro dimension listed row within filters selects
    refine (filtered_iff host range ownerFilter stackBy rfl within selects).mpr fun model record member named => ?_
    subst model
    exact models listed row.key (List.mem_map_of_mem within) record member named

end Agreement

/-- A host whose catalog and calendar are not asked. -/
def plainHost : ReportHost where
  resolveRates := fun _ => none
  dayOf := fun _ => none
  isoDay := fun day => String.ofList (List.replicate (Equiv.intEquivNat day) '1')
  isoDay_injective := by
    intro first second same
    have lengths := congrArg List.length (String.ofList_injective same)
    rw [List.length_replicate, List.length_replicate] at lengths
    exact Equiv.intEquivNat.injective lengths
  localeCompare := fun first second => decide (first ≤ second)

/-- A gateway's call of a model, and a call of the model itself. -/
def overlappingCalls : List (List (Option LlmCallRecord)) :=
  [[some ⟨"2026-01-02T10:00:00Z", .chat, "gateway:openai:gpt-4o", ⟨10, 5, none, none, none, none⟩, 100, "usr_1", "ws_1",
      some "conv_1", none, none⟩,
    some ⟨"2026-01-03T10:00:00Z", .chat, "openai:gpt-4o", ⟨20, 5, none, none, none, none⟩, 100, "usr_1", "ws_1",
      some "conv_1", none, none⟩]]

/-- The short name of the one is the full name of the other. -/
theorem aggregateUsage_overlap :
    ¬∀ (host : ReportHost) (shards : List (List (Option LlmCallRecord))) (range : DateRange) (groupBy : List String)
      (ownerFilter : Option String) (stackBy : Option UsageStackBy),
      SelfConsistent host shards range groupBy ownerFilter stackBy
        (aggregateUsage host shards range groupBy ⟨ownerFilter, {}, stackBy⟩) := by
  intro consistent
  have models := (consistent plainHost overlappingCalls ⟨"2026-01-01", "2026-01-31"⟩ ["model"] none none).models
    (by decide)
  have gateway : some _ = (readLedger overlappingCalls ⟨"2026-01-01", "2026-01-31"⟩ none {})[0]? := rfl
  have direct : some _ = (readLedger overlappingCalls ⟨"2026-01-01", "2026-01-31"⟩ none {})[1]? := rfl
  have shown := mem_shownModels plainHost ⟨"2026-01-01", "2026-01-31"⟩ none (by decide +kernel)
    (List.mem_of_getElem? gateway.symm)
  have own := models _ shown _ (List.mem_of_getElem? direct.symm)
  revert own
  decide +kernel

end NimbleBrain.Spend.Report
