import NimbleBrain.Library.Grouping
import NimbleBrain.Spend.Pricing

/- A report adds up the calls of the ledger, in total and in rows. A call is priced from the rates on its line. -/

namespace NimbleBrain.Spend.Report

open Library

inductive UsageOrigin where
  | chat | task | system
  deriving DecidableEq

def UsageOrigin.text : UsageOrigin → String
  | .chat => "chat"
  | .task => "task"
  | .system => "system"

/-- One priced call, as far as the report reads its line. -/
structure LlmCallRecord where
  ts : String
  origin : UsageOrigin
  model : String
  usage : TokenUsage
  llmMs : Nat
  userId : String
  workspaceId : String
  conversationId : Option String := none
  taskRunId : Option String := none
  rates : Option UsageRates := none

structure TokenBreakdown where
  input : Nat := 0
  output : Nat := 0
  cacheRead : Nat := 0
  cacheWrite : Nat := 0
  deriving DecidableEq

structure CostBreakdown where
  input : ℚ := 0
  output : ℚ := 0
  cacheRead : ℚ := 0
  cacheWrite : ℚ := 0
  total : ℚ := 0
  deriving DecidableEq

/-- What the report uses of its host: the prices of the catalog, the days of the calendar and the order of names. Years
stand in four digits. -/
structure ReportHost where
  resolveRates : String → Option UsageRates
  dayOf : String → Option Int
  isoDay : Int → String
  isoDay_injective : Function.Injective isoDay
  localeCompare : String → String → Bool

structure DateRange where
  start : String
  stop : String

inductive UsageGroupBy where
  | day | conversation | model | user | origin | provider | workspace
  deriving DecidableEq

inductive UsageStackBy where
  | model | user | origin | provider | workspace
  deriving DecidableEq

def groupByOf : String → Option UsageGroupBy
  | "day" => some .day
  | "conversation" => some .conversation
  | "model" => some .model
  | "user" => some .user
  | "origin" => some .origin
  | "provider" => some .provider
  | "workspace" => some .workspace
  | _ => none

/-- A dimension that was asked for twice is reported once. -/
def normalizeGroupBys (requested : List String) : List UsageGroupBy :=
  let valid := requested.filterMap groupByOf
  (if valid = [] then [.day] else valid).reverse.dedup.reverse

def isPrefixChar (char : Char) : Bool :=
  'a' ≤ char && char ≤ 'z' || '0' ≤ char && char ≤ '9' || char = '-'

/-- A name of a provider and a colon are cut off the front. -/
def stripProvider (model : List Char) : List Char :=
  match model.takeWhile isPrefixChar, model.dropWhile isPrefixChar with
  | _ :: _, ':' :: rest => rest
  | _, _ => model

/-- A dash and eight digits are cut off the end. -/
def stripDate (model : List Char) : List Char :=
  match model.reverse.drop 8 with
  | '-' :: rest => if (model.reverse.take 8).all Char.isDigit then rest.reverse else model
  | _ => model

def normalizeModel (model : String) : String := String.ofList (stripDate (stripProvider model.toList))

/-- What stands before the first colon, if there is one. -/
def getProviderFromModel (model : String) : String :=
  if ':' ∈ model.toList then String.ofList (model.toList.takeWhile fun char => char ≠ ':') else ""

def dayKey (ts : String) : String := String.ofList (ts.toList.take 10)

/-- The row of a record in a dimension that a day can be split by. -/
def keyFor (record : LlmCallRecord) : UsageStackBy → String
  | .model => normalizeModel record.model
  | .user => record.userId
  | .origin => record.origin.text
  | .provider => getProviderFromModel record.model
  | .workspace => record.workspaceId

/-- Only a conversation may be missing. -/
def groupKeyFor (record : LlmCallRecord) : UsageGroupBy → Option String
  | .conversation => record.conversationId
  | .day => some (dayKey record.ts)
  | .model => some (keyFor record .model)
  | .user => some (keyFor record .user)
  | .origin => some (keyFor record .origin)
  | .provider => some (keyFor record .provider)
  | .workspace => some (keyFor record .workspace)

section Prices

/-- Dollars in each bucket. A model without rates costs nothing. -/
def costBuckets (usage : TokenUsage) : Option UsageRates → CostBreakdown
  | none => {}
  | some rates =>
      let card := cardFor rates usage.inputTokens
      let cacheRead := usage.cacheReadTokens.getD 0
      let cacheWrite := usage.cacheWriteTokens.getD 0
      let inputNonCached := usage.inputTokens - cacheRead - cacheWrite
      let reasoning := usage.reasoningTokens.getD 0
      let outputNonReasoning :=
        if card.reasoning.isSome then usage.outputTokens - reasoning else usage.outputTokens
      let reasoningCost : ℚ := card.reasoning.elim 0 fun rate => reasoning * rate
      let input : ℚ := (inputNonCached * card.input) / 1000000
      let output : ℚ := (outputNonReasoning * card.output + reasoningCost) / 1000000
      let cacheReadCost : ℚ := (cacheRead * card.cacheRead) / 1000000
      let cacheWrite1h := usage.cacheWrite1hTokens.getD cacheWrite
      let cacheWrite5m := cacheWrite - cacheWrite1h
      let cacheWriteCost : ℚ := (cacheWrite1h * card.cacheWrite1h + cacheWrite5m * card.cacheWrite5m) / 1000000
      ⟨input, output, cacheReadCost, cacheWriteCost, input + output + cacheReadCost + cacheWriteCost⟩

variable (host : ReportHost)

/-- The rates on the line go before those of the catalog. -/
def ratesFor (record : LlmCallRecord) : Option UsageRates := record.rates.or (host.resolveRates record.model)

def tokensOf (record : LlmCallRecord) : TokenBreakdown :=
  let cacheRead := record.usage.cacheReadTokens.getD 0
  let cacheWrite := record.usage.cacheWriteTokens.getD 0
  ⟨record.usage.inputTokens - cacheRead - cacheWrite, record.usage.outputTokens, cacheRead, cacheWrite⟩

def decomposeUsage (record : LlmCallRecord) : TokenBreakdown × CostBreakdown :=
  (tokensOf record, costBuckets record.usage (ratesFor host record))

/-- A model of the catalog is priced when a token of its input costs something. -/
def isPriced (record : LlmCallRecord) : Bool :=
  record.rates.isSome ||
    decide (0 < (costBuckets ⟨1, 0, none, none, none, none⟩ (host.resolveRates record.model)).total)

def TokenBreakdown.add (target source : TokenBreakdown) : TokenBreakdown :=
  ⟨target.input + source.input, target.output + source.output, target.cacheRead + source.cacheRead,
    target.cacheWrite + source.cacheWrite⟩

def CostBreakdown.add (target cost : CostBreakdown) : CostBreakdown :=
  ⟨target.input + cost.input, target.output + cost.output, target.cacheRead + cost.cacheRead,
    target.cacheWrite + cost.cacheWrite, target.total + cost.total⟩

def computeCacheHitRate (tokens : TokenBreakdown) : ℚ :=
  let denom := tokens.input + tokens.cacheRead + tokens.cacheWrite
  if 0 < denom then tokens.cacheRead / denom else 0

end Prices

section Sums

structure UsageTotals where
  tokens : TokenBreakdown := {}
  cost : CostBreakdown := {}
  llmCalls : Nat
  llmMs : Nat := 0
  conversations : Nat := 0
  runs : Option Nat := none
  unpricedCalls : Option Nat := none
  cacheHitRate : Option ℚ := none

structure ModelUsage where
  model : String
  tokens : TokenBreakdown := {}
  cost : CostBreakdown := {}
  llmCalls : Nat := 0
  cacheHitRate : Option ℚ := none

structure BreakdownAccumulator where
  tokens : TokenBreakdown := {}
  cost : CostBreakdown := {}
  llmCalls : Nat := 0
  sids : Finset String := ∅
  runIds : Finset String := ∅
  unpricedCalls : Nat := 0
  stack : Option (OrderedMap String ℚ) := none

structure BreakdownEntry where
  key : String
  tokens : TokenBreakdown := {}
  cost : CostBreakdown := {}
  llmCalls : Nat := 0
  conversations : Nat := 0
  runs : Option Nat := none
  unpricedCalls : Option Nat := none
  cacheHitRate : Option ℚ := none
  stack : Option (OrderedMap String ℚ) := none

structure AggregationSink where
  totals : UsageTotals
  conversationIds : Finset String := ∅
  runIds : Finset String := ∅
  unpricedCalls : Nat := 0
  modelMap : OrderedMap String ModelUsage := ∅
  breakdownMaps : List (UsageGroupBy × OrderedMap String BreakdownAccumulator)
  stackBy : Option UsageStackBy := none

/-- An absent id and an empty one are not counted. -/
def addId (ids : Finset String) : Option String → Finset String
  | none => ids
  | some id => if id = "" then ids else insert id ids

variable (host : ReportHost)

def addToStack (bucket : BreakdownAccumulator) (key : String) (cost : ℚ) : BreakdownAccumulator :=
  let stack := bucket.stack.getD ∅
  { bucket with stack := some (stack.set key ((stack.get? key).getD 0 + cost)) }

/-- A record joins the sums of its row. -/
def addToBucket (dimension : UsageGroupBy) (stackBy : Option UsageStackBy) (bucket : BreakdownAccumulator)
    (record : LlmCallRecord) : BreakdownAccumulator :=
  let (tokens, cost) := decomposeUsage host record
  let bucket := { bucket with
    tokens := bucket.tokens.add tokens
    cost := bucket.cost.add cost
    llmCalls := bucket.llmCalls + 1
    sids := addId bucket.sids record.conversationId
    runIds := addId bucket.runIds record.taskRunId
    unpricedCalls := if isPriced host record then bucket.unpricedCalls else bucket.unpricedCalls + 1 }
  match dimension, stackBy with
  | .day, some by' => addToStack bucket (keyFor record by') cost.total
  | _, _ => bucket

def addToModel (usage : ModelUsage) (record : LlmCallRecord) : ModelUsage :=
  let (tokens, cost) := decomposeUsage host record
  { usage with
    tokens := usage.tokens.add tokens
    cost := usage.cost.add cost
    llmCalls := usage.llmCalls + 1 }

def accumulateRecord (sink : AggregationSink) (record : LlmCallRecord) : AggregationSink :=
  let (tokens, cost) := decomposeUsage host record
  let modelKey := normalizeModel record.model
  { sink with
    totals := { sink.totals with
      tokens := sink.totals.tokens.add tokens
      cost := sink.totals.cost.add cost
      llmMs := sink.totals.llmMs + record.llmMs }
    conversationIds := addId sink.conversationIds record.conversationId
    runIds := addId sink.runIds record.taskRunId
    unpricedCalls := if isPriced host record then sink.unpricedCalls else sink.unpricedCalls + 1
    modelMap := sink.modelMap.set modelKey
      (addToModel host ((sink.modelMap.get? modelKey).getD { model := modelKey }) record)
    breakdownMaps := sink.breakdownMaps.map fun entry => (entry.1,
      joinGroup (fun record => groupKeyFor record entry.1) {} (addToBucket host entry.1 sink.stackBy) entry.2 record) }

/-- A count is left out at zero. -/
def countOf (count : Nat) : Option Nat := if 0 < count then some count else none

end Sums

section Rows

def MAX_BREAKDOWN_ROWS : Nat := 250

def MAX_ZERO_FILL_DAYS : Int := 366

variable (host : ReportHost)

/-- The days of a range, or none when one of its ends cannot be read. -/
def rangeDays (range : DateRange) : Option Int :=
  match host.dayOf range.start, host.dayOf range.stop with
  | some start, some stop => some (stop - start + 1)
  | _, _ => none

/-- A range that cannot be read counts as infinitely wide. -/
def tooWide (range : DateRange) : Bool := (rangeDays host range).all fun days => MAX_ZERO_FILL_DAYS < days

/-- The days from the first to the last one. -/
def walkedDays (range : DateRange) : List String :=
  match host.dayOf range.start, host.dayOf range.stop with
  | some start, some stop =>
      (List.range (stop - start + 1).toNat).map fun offset : Nat => host.isoDay (start + offset)
  | _, _ => []

def entryOf (key : String) (data : BreakdownAccumulator) : BreakdownEntry where
  key := key
  tokens := data.tokens
  cost := data.cost
  llmCalls := data.llmCalls
  conversations := data.sids.card
  runs := countOf data.runIds.card
  unpricedCalls := countOf data.unpricedCalls
  cacheHitRate := some (computeCacheHitRate data.tokens)
  stack := data.stack

def emptyBreakdownEntry (key : String) : BreakdownEntry := { key }

def byKey (rows : List BreakdownEntry) : List BreakdownEntry :=
  rows.mergeSort fun first second => host.localeCompare first.key second.key

/-- The costliest rows go first. -/
def byCost (rows : List BreakdownEntry) : List BreakdownEntry :=
  rows.mergeSort fun first second => decide (second.cost.total ≤ first.cost.total)

/-- The costliest rows are kept. Days without a call are filled in, unless the range is too wide. -/
def finalizeBreakdown (map : OrderedMap String BreakdownAccumulator) (groupBy : UsageGroupBy) (range : DateRange) :
    List BreakdownEntry :=
  let breakdown := byKey host (map.entries.map fun entry => entryOf entry.1 entry.2)
  if groupBy ≠ .day ∧ MAX_BREAKDOWN_ROWS < breakdown.length then
    byKey host ((byCost breakdown).take MAX_BREAKDOWN_ROWS)
  else if groupBy ≠ .day ∨ tooWide host range then breakdown
  else (walkedDays host range).map fun key =>
    (breakdown.find? fun row => row.key = key).getD (emptyBreakdownEntry key)

end Rows

section Reports

structure UsageFilters where
  workspaceId : Option String := none
  userId : Option String := none
  model : Option String := none
  origin : Option UsageOrigin := none

/-- A model is matched as it stands or by its short name. -/
def matchesFilters (record : LlmCallRecord) (filters : UsageFilters) : Bool :=
  filters.workspaceId.all (fun id => record.workspaceId = id) &&
    filters.userId.all (fun id => record.userId = id) &&
    filters.model.all (fun model => record.model = model || normalizeModel record.model = model) &&
    filters.origin.all fun origin => record.origin = origin

def isDateInRange (date : String) (range : DateRange) : Bool := range.start ≤ date && date ≤ range.stop

/-- A torn line is skipped. -/
def parseShard (lines : List (Option LlmCallRecord)) (range : DateRange) (ownerFilter : Option String)
    (filters : UsageFilters) : List LlmCallRecord :=
  lines.reduceOption.filter fun entry =>
    entry.ts ≠ "" && isDateInRange (dayKey entry.ts) range && ownerFilter.all (fun id => entry.userId = id) &&
      matchesFilters entry filters

/-- The shards of the months in the order in which they are read. -/
def readLedger (shards : List (List (Option LlmCallRecord))) (range : DateRange) (ownerFilter : Option String)
    (filters : UsageFilters) : List LlmCallRecord :=
  shards.flatMap fun lines => parseShard lines range ownerFilter filters

structure BreakdownTruncation where
  returned : Nat
  total : Nat

structure UsageReport where
  period : DateRange
  totals : UsageTotals
  models : List ModelUsage
  breakdown : List BreakdownEntry
  breakdowns : List (UsageGroupBy × List BreakdownEntry)
  truncatedBreakdowns : List (UsageGroupBy × BreakdownTruncation)

structure AggregateUsageOptions where
  ownerFilter : Option String := none
  filters : UsageFilters := {}
  stackBy : Option UsageStackBy := none

variable (host : ReportHost)

def startSink (records : List LlmCallRecord) (groupBys : List UsageGroupBy) (stackBy : Option UsageStackBy) :
    AggregationSink where
  totals := { llmCalls := records.length }
  breakdownMaps := groupBys.map fun dimension => (dimension, ∅)
  stackBy := stackBy

def aggregateUsage (shards : List (List (Option LlmCallRecord))) (range : DateRange) (groupBy : List String)
    (options : AggregateUsageOptions) : UsageReport :=
  let groupBys := normalizeGroupBys groupBy
  let records := readLedger shards range options.ownerFilter options.filters
  let sink := records.foldl (accumulateRecord host) (startSink records groupBys options.stackBy)
  let breakdowns := sink.breakdownMaps.map fun entry => (entry.1, finalizeBreakdown host entry.2 entry.1 range)
  { period := range
    totals := { sink.totals with
      conversations := sink.conversationIds.card
      runs := countOf sink.runIds.card
      unpricedCalls := countOf sink.unpricedCalls
      cacheHitRate := some (computeCacheHitRate sink.totals.tokens) }
    models := (sink.modelMap.values.map fun usage =>
        { usage with cacheHitRate := some (computeCacheHitRate usage.tokens) }).mergeSort
      fun first second => decide (second.cost.total ≤ first.cost.total)
    breakdown := ((breakdowns.head?).map Prod.snd).getD []
    breakdowns := breakdowns
    truncatedBreakdowns := sink.breakdownMaps.filterMap fun entry =>
      let rows := finalizeBreakdown host entry.2 entry.1 range
      if entry.1 ≠ .day ∧ rows.length < entry.2.size then some (entry.1, ⟨rows.length, entry.2.size⟩) else none }

end Reports

end NimbleBrain.Spend.Report

/- The rows of a dimension add up to the totals. Days that are filled in add nothing. -/

namespace NimbleBrain.Spend.Report

open Library

/-- A figure that the totals and every row have. -/
inductive Figure where
  | inputTokens | outputTokens | cacheReadTokens | cacheWriteTokens
  | inputCost | outputCost | cacheReadCost | cacheWriteCost | totalCost
  | llmCalls | unpricedCalls
  deriving DecidableEq

def Figure.of (tokens : TokenBreakdown) (cost : CostBreakdown) (calls unpriced : Nat) : Figure → ℚ
  | .inputTokens => tokens.input
  | .outputTokens => tokens.output
  | .cacheReadTokens => tokens.cacheRead
  | .cacheWriteTokens => tokens.cacheWrite
  | .inputCost => cost.input
  | .outputCost => cost.output
  | .cacheReadCost => cost.cacheRead
  | .cacheWriteCost => cost.cacheWrite
  | .totalCost => cost.total
  | .llmCalls => calls
  | .unpricedCalls => unpriced

def Figure.ofRow (figure : Figure) (row : BreakdownEntry) : ℚ :=
  figure.of row.tokens row.cost row.llmCalls (row.unpricedCalls.getD 0)

def Figure.ofTotals (figure : Figure) (totals : UsageTotals) : ℚ :=
  figure.of totals.tokens totals.cost totals.llmCalls (totals.unpricedCalls.getD 0)

def Figure.ofBucket (figure : Figure) (bucket : BreakdownAccumulator) : ℚ :=
  figure.of bucket.tokens bucket.cost bucket.llmCalls bucket.unpricedCalls

/-- What one call adds to a figure. -/
def Figure.ofRecord (host : ReportHost) (figure : Figure) (record : LlmCallRecord) : ℚ :=
  figure.of (decomposeUsage host record).1 (decomposeUsage host record).2 1 (if isPriced host record then 0 else 1)

@[simp] theorem getD_countOf (count : Nat) : (countOf count).getD 0 = count := by
  rw [countOf]
  split
  · rfl
  · simp only [Option.getD_none]
    omega

theorem Figure.of_zero (figure : Figure) : figure.of {} {} 0 0 = 0 := by
  cases figure <;> simp [Figure.of]

theorem Figure.of_add (figure : Figure) (tokens more : TokenBreakdown) (cost dearer : CostBreakdown)
    (calls further unpriced others : Nat) :
    figure.of (tokens.add more) (cost.add dearer) (calls + further) (unpriced + others) =
      figure.of tokens cost calls unpriced + figure.of more dearer further others := by
  cases figure <;> simp [Figure.of, TokenBreakdown.add, CostBreakdown.add]

theorem Figure.ofRow_entryOf (figure : Figure) (key : String) (bucket : BreakdownAccumulator) :
    figure.ofRow (entryOf key bucket) = figure.ofBucket bucket := by
  simp [Figure.ofRow, Figure.ofBucket, entryOf]

theorem Figure.ofRow_empty (figure : Figure) (key : String) : figure.ofRow (emptyBreakdownEntry key) = 0 :=
  figure.of_zero

section Buckets

variable {host : ReportHost} {dimension : UsageGroupBy} {stackBy : Option UsageStackBy} {records : List LlmCallRecord}

/-- What a record does to the sums of its row, whatever the row is split by. -/
structure Joined (host : ReportHost) (bucket : BreakdownAccumulator) (record : LlmCallRecord)
    (joined : BreakdownAccumulator) : Prop where
  tokens : joined.tokens = bucket.tokens.add (decomposeUsage host record).1
  cost : joined.cost = bucket.cost.add (decomposeUsage host record).2
  llmCalls : joined.llmCalls = bucket.llmCalls + 1
  sids : joined.sids = addId bucket.sids record.conversationId
  runIds : joined.runIds = addId bucket.runIds record.taskRunId
  unpricedCalls : joined.unpricedCalls = bucket.unpricedCalls + if isPriced host record then 0 else 1

theorem joined_addToBucket (host : ReportHost) (dimension : UsageGroupBy) (stackBy : Option UsageStackBy)
    (bucket : BreakdownAccumulator) (record : LlmCallRecord) :
    Joined host bucket record (addToBucket host dimension stackBy bucket record) := by
  have unpriced : (if isPriced host record then bucket.unpricedCalls else bucket.unpricedCalls + 1) =
      bucket.unpricedCalls + if isPriced host record then 0 else 1 := by split <;> rfl
  simp only [addToBucket]
  split
  · exact ⟨rfl, rfl, rfl, rfl, rfl, unpriced⟩
  · exact ⟨rfl, rfl, rfl, rfl, rfl, unpriced⟩

theorem Figure.ofBucket_add (figure : Figure) (bucket : BreakdownAccumulator) (record : LlmCallRecord) :
    figure.ofBucket (addToBucket host dimension stackBy bucket record) =
      figure.ofBucket bucket + figure.ofRecord host record := by
  have joined := joined_addToBucket host dimension stackBy bucket record
  rw [Figure.ofBucket, joined.tokens, joined.cost, joined.llmCalls, joined.unpricedCalls, Figure.of_add]
  rfl

/-- A row holds what its records add. -/
theorem Figure.ofBucket_fold (figure : Figure) (records : List LlmCallRecord) (bucket : BreakdownAccumulator) :
    figure.ofBucket (records.foldl (addToBucket host dimension stackBy) bucket) =
      figure.ofBucket bucket + (records.map (figure.ofRecord host)).sum := by
  induction records generalizing bucket with
  | nil => exact (add_zero _).symm
  | cons record rest ih =>
      rw [List.foldl_cons, ih, Figure.ofBucket_add, List.map_cons, List.sum_cons, add_assoc]

theorem llmCalls_fold (records : List LlmCallRecord) (bucket : BreakdownAccumulator) :
    (records.foldl (addToBucket host dimension stackBy) bucket).llmCalls = bucket.llmCalls + records.length := by
  induction records generalizing bucket with
  | nil => rfl
  | cons record rest ih =>
      rw [List.foldl_cons, ih, (joined_addToBucket host dimension stackBy bucket record).llmCalls, List.length_cons]
      omega

/-- The totals hold what one row of all records would hold. -/
structure Pooled (sink : AggregationSink) (bucket : BreakdownAccumulator) : Prop where
  tokens : sink.totals.tokens = bucket.tokens
  cost : sink.totals.cost = bucket.cost
  conversations : sink.conversationIds = bucket.sids
  runs : sink.runIds = bucket.runIds
  unpricedCalls : sink.unpricedCalls = bucket.unpricedCalls

theorem Pooled.fold {sink : AggregationSink} {bucket : BreakdownAccumulator} (pooled : Pooled sink bucket)
    (records : List LlmCallRecord) :
    Pooled (records.foldl (accumulateRecord host) sink)
      (records.foldl (addToBucket host dimension stackBy) bucket) := by
  induction records generalizing sink bucket with
  | nil => exact pooled
  | cons record rest ih =>
      have joined := joined_addToBucket host dimension stackBy bucket record
      refine ih ⟨?_, ?_, ?_, ?_, ?_⟩
      · rw [joined.tokens, ← pooled.tokens]
        rfl
      · rw [joined.cost, ← pooled.cost]
        rfl
      · rw [joined.sids, ← pooled.conversations]
        rfl
      · rw [joined.runIds, ← pooled.runs]
        rfl
      · rw [joined.unpricedCalls, ← pooled.unpricedCalls]
        simp only [accumulateRecord]
        split <;> rfl

theorem llmCalls_sink (records : List LlmCallRecord) (sink : AggregationSink) :
    (records.foldl (accumulateRecord host) sink).totals.llmCalls = sink.totals.llmCalls := by
  induction records generalizing sink with
  | nil => rfl
  | cons record rest ih => rw [List.foldl_cons, ih]; rfl

/-- The groups of a dimension. -/
def groupsOf (host : ReportHost) (stackBy : Option UsageStackBy) (records : List LlmCallRecord)
    (dimension : UsageGroupBy) : OrderedMap String BreakdownAccumulator :=
  groupItems (fun record => groupKeyFor record dimension) {} (addToBucket host dimension stackBy) records

/-- Every dimension is grouped apart. -/
theorem breakdownMaps_fold (records : List LlmCallRecord) (sink : AggregationSink) :
    (records.foldl (accumulateRecord host) sink).breakdownMaps = sink.breakdownMaps.map fun entry =>
      (entry.1, records.foldl
        (joinGroup (fun record => groupKeyFor record entry.1) {} (addToBucket host entry.1 sink.stackBy)) entry.2) := by
  induction records generalizing sink with
  | nil => exact (List.map_id' _).symm
  | cons record rest ih =>
      rw [List.foldl_cons, ih]
      change (sink.breakdownMaps.map _).map _ = _
      rw [List.map_map]
      rfl

theorem breakdownMaps_start (groupBys : List UsageGroupBy) :
    (records.foldl (accumulateRecord host) (startSink records groupBys stackBy)).breakdownMaps =
      groupBys.map fun dimension => (dimension, groupsOf host stackBy records dimension) := by
  rw [breakdownMaps_fold]
  change (groupBys.map _).map _ = _
  rw [List.map_map]
  rfl

end Buckets

variable {host : ReportHost} {dimension : UsageGroupBy} {stackBy : Option UsageStackBy} {records : List LlmCallRecord}
  {map : OrderedMap String BreakdownAccumulator} {range : DateRange}

/-- Every row of a dimension, in the order of the names. -/
def allRows (host : ReportHost) (map : OrderedMap String BreakdownAccumulator) : List BreakdownEntry :=
  byKey host (map.entries.map fun entry => entryOf entry.1 entry.2)

theorem allRows_perm (host : ReportHost) (map : OrderedMap String BreakdownAccumulator) :
    (allRows host map).Perm (map.entries.map fun entry => entryOf entry.1 entry.2) := List.mergeSort_perm _ _

theorem length_allRows (host : ReportHost) (map : OrderedMap String BreakdownAccumulator) :
    (allRows host map).length = map.size :=
  (allRows_perm host map).length_eq.trans (List.length_map _)

/-- The rows as they are returned: all of them, the costliest ones, or one for each day. -/
theorem finalizeBreakdown_eq (host : ReportHost) (map : OrderedMap String BreakdownAccumulator)
    (dimension : UsageGroupBy) (range : DateRange) :
    finalizeBreakdown host map dimension range =
      if dimension ≠ .day ∧ MAX_BREAKDOWN_ROWS < map.size then
        byKey host ((byCost (allRows host map)).take MAX_BREAKDOWN_ROWS)
      else if dimension ≠ .day ∨ tooWide host range then allRows host map
      else (walkedDays host range).map fun key =>
        ((allRows host map).find? fun row => row.key = key).getD (emptyBreakdownEntry key) := by
  rw [← length_allRows host map]
  rfl

theorem mem_allRows {row : BreakdownEntry} :
    row ∈ allRows host map ↔ ∃ data, map.get? row.key = some data ∧ row = entryOf row.key data := by
  rw [(allRows_perm host map).mem_iff, List.mem_map]
  constructor
  · rintro ⟨entry, member, rfl⟩
    exact ⟨entry.2, OrderedMap.get?_eq_some_iff.mpr member, rfl⟩
  · rintro ⟨data, found, same⟩
    exact ⟨(row.key, data), OrderedMap.get?_eq_some_iff.mp found, same.symm⟩

/-- The row of a key is found by its key. -/
theorem find_allRows (host : ReportHost) (map : OrderedMap String BreakdownAccumulator) (key : String) :
    ((allRows host map).find? fun row => row.key = key) = (map.get? key).map (entryOf key) := by
  cases found : (allRows host map).find? fun row => row.key = key with
  | none =>
      have absent := List.find?_eq_none.mp found
      cases held : map.get? key with
      | none => rfl
      | some data =>
          exact absurd (decide_eq_true rfl) (absent (entryOf key data) (mem_allRows.mpr ⟨data, held, rfl⟩))
  | some row =>
      obtain rfl : row.key = key := by simpa using List.find?_some found
      obtain ⟨data, held, same⟩ := mem_allRows.mp (List.mem_of_find?_eq_some found)
      rw [held, Option.map_some, ← same]

theorem sum_allRows (host : ReportHost) (map : OrderedMap String BreakdownAccumulator) (figure : Figure) :
    ((allRows host map).map figure.ofRow).sum = total figure.ofBucket map := by
  rw [((allRows_perm host map).map figure.ofRow).sum_eq, List.map_map]
  exact congrArg List.sum (List.map_congr_left fun entry _ => figure.ofRow_entryOf entry.1 entry.2)

/-- Where every record has a row, the rows hold what the records add. -/
theorem total_groupsOf (host : ReportHost) (stackBy : Option UsageStackBy) (records : List LlmCallRecord)
    (described : dimension ≠ .conversation) (figure : Figure) :
    total figure.ofBucket (groupsOf host stackBy records dimension) = (records.map (figure.ofRecord host)).sum := by
  have adds : ∀ bucket record, figure.ofBucket (addToBucket host dimension stackBy bucket record) =
      figure.ofBucket bucket + figure.ofRecord host record := fun bucket record => Figure.ofBucket_add figure bucket record
  have zero : figure.ofBucket {} = 0 := figure.of_zero
  rw [groupsOf, total_groupItems zero adds]
  refine congrArg List.sum (List.map_congr_left fun record _ => if_pos ?_)
  cases dimension with
  | conversation => exact absurd rfl described
  | _ => rfl

theorem nodup_walkedDays (host : ReportHost) (range : DateRange) : (walkedDays host range).Nodup := by
  rw [walkedDays]
  split
  · refine List.nodup_range.map fun first second same => ?_
    have days := host.isoDay_injective same
    omega
  · exact List.nodup_nil

/-- The filled rows, one for each day. -/
def filledRows (host : ReportHost) (map : OrderedMap String BreakdownAccumulator) (range : DateRange) :
    List BreakdownEntry :=
  (walkedDays host range).map fun key =>
    ((allRows host map).find? fun row => row.key = key).getD (emptyBreakdownEntry key)

theorem sum_filledRows (host : ReportHost) (map : OrderedMap String BreakdownAccumulator) (range : DateRange)
    (figure : Figure) :
    ((filledRows host map range).map figure.ofRow).sum =
      (map.entries.map fun entry => (walkedDays host range).count entry.1 • figure.ofBucket entry.2).sum := by
  rw [← sum_lookup, filledRows, List.map_map]
  refine congrArg List.sum (List.map_congr_left fun key _ => ?_)
  change figure.ofRow (((allRows host map).find? fun row => row.key = key).getD (emptyBreakdownEntry key)) = _
  rw [find_allRows]
  cases map.get? key with
  | none => exact figure.ofRow_empty key
  | some data => exact figure.ofRow_entryOf key data

/-- The filled rows hold every call exactly when every day with a call is walked. -/
theorem sum_filledRows_iff (called : ∀ entry ∈ map.entries, 0 < entry.2.llmCalls) :
    (∀ figure : Figure, ((filledRows host map range).map figure.ofRow).sum = total figure.ofBucket map) ↔
      ∀ entry ∈ map.entries, entry.1 ∈ walkedDays host range := by
  have once := List.nodup_iff_count_le_one.mp (nodup_walkedDays host range)
  constructor
  · intro sums entry member
    by_contra missed
    have less := List.sum_lt_sum (l := map.entries)
      (fun entry => (walkedDays host range).count entry.1 • Figure.llmCalls.ofBucket entry.2)
      (fun entry => Figure.llmCalls.ofBucket entry.2) ?_ ⟨entry, member, ?_⟩
    · rw [← sum_filledRows, sums] at less
      exact lt_irrefl _ less
    · intro other _
      have few := once other.1
      have positive : (0 : ℚ) ≤ Figure.llmCalls.ofBucket other.2 := Nat.cast_nonneg _
      rcases Nat.le_one_iff_eq_zero_or_eq_one.mp few with none | one
      · rw [none, zero_nsmul]
        exact positive
      · rw [one, one_nsmul]
    · rw [List.count_eq_zero_of_not_mem missed, zero_nsmul]
      exact Nat.cast_pos.mpr (called entry member)
  · intro walked figure
    rw [sum_filledRows]
    refine congrArg List.sum (List.map_congr_left fun entry member => ?_)
    rw [List.count_eq_one_of_mem (nodup_walkedDays host range) (walked entry member), one_nsmul]

end NimbleBrain.Spend.Report
