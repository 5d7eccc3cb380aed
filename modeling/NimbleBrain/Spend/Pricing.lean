import Mathlib.Data.Rat.Floor
import Mathlib.Tactic.Positivity

/- Amounts are exact. A model call is priced before it is sent and after it is done. -/

namespace NimbleBrain.Spend

inductive SpendUnit where
  | usd | inputTokens | outputTokens
  deriving DecidableEq

/-- Unit prices in dollars for a million tokens. -/
structure RateCard where
  input : ℚ≥0
  output : ℚ≥0
  cacheRead : ℚ≥0
  cacheWrite5m : ℚ≥0
  cacheWrite1h : ℚ≥0
  reasoning : Option ℚ≥0 := none

structure UsageRateTier where
  aboveInputTokens : Nat
  card : RateCard

/-- The tiers are rate cards for longer prompts. -/
structure UsageRates where
  base : RateCard
  tiers : List UsageRateTier := []

structure TokenUsage where
  inputTokens : Nat
  outputTokens : Nat
  cacheReadTokens : Option Nat := none
  cacheWriteTokens : Option Nat := none
  reasoningTokens : Option Nat := none
  cacheWrite1hTokens : Option Nat := none

/-- The last tier whose threshold the prompt exceeds bills the call. -/
def cardFor (rates : UsageRates) (inputTokens : Nat) : RateCard :=
  rates.tiers.foldl
    (fun card tier => if tier.aboveInputTokens < inputTokens then tier.card else card) rates.base

/-- The total of the cost breakdown, in dollars. The subtractions are clamped at zero. -/
def costBreakdown (usage : TokenUsage) (rates : UsageRates) : ℚ :=
  let card := cardFor rates usage.inputTokens
  let cacheRead := usage.cacheReadTokens.getD 0
  let cacheWrite := usage.cacheWriteTokens.getD 0
  let inputNonCached := usage.inputTokens - cacheRead - cacheWrite
  let reasoning := usage.reasoningTokens.getD 0
  let outputNonReasoning :=
    if card.reasoning.isSome then usage.outputTokens - reasoning else usage.outputTokens
  let reasoningCost : ℚ := card.reasoning.elim 0 fun rate => reasoning * rate
  let cacheWrite1h := usage.cacheWrite1hTokens.getD cacheWrite
  let cacheWrite5m := cacheWrite - cacheWrite1h
  (inputNonCached * card.input) / 1000000 +
    (outputNonReasoning * card.output + reasoningCost) / 1000000 +
    (cacheRead * card.cacheRead) / 1000000 +
    (cacheWrite1h * card.cacheWrite1h + cacheWrite5m * card.cacheWrite5m) / 1000000

/-- What the usage cost in the unit. Dollars on a model without rates are zero. -/
def spendIn (unit : SpendUnit) (usage : TokenUsage) (rates : Option UsageRates) : ℚ :=
  match unit with
  | .inputTokens => usage.inputTokens
  | .outputTokens => usage.outputTokens
  | .usd => rates.elim 0 (costBreakdown usage)

/-- Worst-case dollars for one input token and for one output token. -/
structure WorstRates where
  input : ℚ≥0
  output : ℚ≥0

def cards (rates : UsageRates) : List RateCard := rates.base :: rates.tiers.map (·.card)

def RateCard.dearestInput (card : RateCard) : ℚ≥0 :=
  max card.input (max card.cacheRead (max card.cacheWrite5m card.cacheWrite1h))

def RateCard.dearestOutput (card : RateCard) : ℚ≥0 := max card.output (card.reasoning.getD 0)

/-- Every card counts because a longer prompt can move the call onto a dearer one. -/
def worstRates (rates : UsageRates) : WorstRates where
  input := ((cards rates).map RateCard.dearestInput).foldl max 0 / 1000000
  output := ((cards rates).map RateCard.dearestOutput).foldl max 0 / 1000000

/-- The most output an amount pays for beside the input of the call. -/
inductive Allowance where
  | refused
  | unlimited
  | upTo (tokens : ℤ)
  deriving DecidableEq

/-- An account in input tokens never limits output. A dollar account without rates refuses. -/
def outputAllowance (unit : SpendUnit) (available : ℚ) (inputTokens : Nat) (rates : Option WorstRates) :
    Allowance :=
  match unit, rates with
  | .inputTokens, _ => if available < inputTokens then .refused else .unlimited
  | .outputTokens, _ => .upTo ⌊available⌋
  | .usd, none => .refused
  | .usd, some rates =>
      let afterInput := available - inputTokens * rates.input
      if afterInput < 0 then .refused
      else if 0 < rates.output then .upTo ⌊afterInput / rates.output⌋
      else .unlimited

/-- The worst case of a call in the unit. -/
def projectedCost (unit : SpendUnit) (inputTokens : Nat) (outputTokens : ℤ) (rates : Option WorstRates) :
    ℚ :=
  match unit with
  | .inputTokens => inputTokens
  | .outputTokens => outputTokens
  | .usd => rates.elim 0 fun rates => inputTokens * rates.input + outputTokens * rates.output

variable {outputTokens : ℤ} {available rate : ℚ} {inputTokens : Nat} {unit : SpendUnit}

theorem projectedCost_nonneg (unit : SpendUnit) (inputTokens : Nat) (rates : Option WorstRates)
    (positive : 0 ≤ outputTokens) :
    0 ≤ projectedCost unit inputTokens outputTokens rates := by
  have output : (0 : ℚ) ≤ outputTokens := by exact_mod_cast positive
  cases unit with
  | inputTokens => exact Nat.cast_nonneg _
  | outputTokens => exact output
  | usd =>
      cases rates with
      | none => exact le_rfl
      | some rates =>
          have inputRate : (0 : ℚ) ≤ rates.input := rates.input.coe_nonneg
          have outputRate : (0 : ℚ) ≤ rates.output := rates.output.coe_nonneg
          simp only [projectedCost, Option.elim_some]
          positivity

/-- Output within an allowance of the amount costs at most the amount together with the input. -/
theorem projectedCost_le_of_upTo {rates : Option WorstRates} {tokens : ℤ}
    (allowance : outputAllowance unit available inputTokens rates = .upTo tokens) (within : outputTokens ≤ tokens) :
    projectedCost unit inputTokens outputTokens rates ≤ available := by
  cases unit with
  | inputTokens =>
      simp only [outputAllowance] at allowance
      split at allowance <;> cases allowance
  | outputTokens =>
      simp only [outputAllowance, Allowance.upTo.injEq] at allowance
      have bound : (outputTokens : ℚ) ≤ ⌊available⌋ := by exact_mod_cast within.trans_eq allowance.symm
      exact bound.trans (Int.floor_le available)
  | usd =>
      cases rates with
      | none => simp [outputAllowance] at allowance
      | some rates =>
          simp only [outputAllowance] at allowance
          split at allowance
          · cases allowance
          · split at allowance
            · rename_i priced
              have rate : (0 : ℚ) < rates.output := by exact_mod_cast priced
              rw [Allowance.upTo.injEq] at allowance
              have bound := within.trans_eq allowance.symm
              rw [Int.le_floor, le_div_iff₀ rate] at bound
              simp only [projectedCost, Option.elim_some]
              linarith
            · cases allowance

/-- Where output is not limited, any output costs at most the amount together with the input. -/
theorem projectedCost_le_of_unlimited {rates : Option WorstRates}
    (allowance : outputAllowance unit available inputTokens rates = .unlimited) (outputTokens : ℤ) :
    projectedCost unit inputTokens outputTokens rates ≤ available := by
  cases unit with
  | inputTokens =>
      simp only [outputAllowance] at allowance
      split at allowance
      · cases allowance
      · rename_i fits
        exact not_lt.mp fits
  | outputTokens => simp [outputAllowance] at allowance
  | usd =>
      cases rates with
      | none => simp [outputAllowance] at allowance
      | some rates =>
          simp only [outputAllowance] at allowance
          split at allowance
          · cases allowance
          · rename_i fits
            split at allowance
            · cases allowance
            · rename_i free
              have rate : rates.output = 0 := le_antisymm (not_lt.mp free) zero_le
              simp only [projectedCost, Option.elim_some, rate, NNRat.cast_zero, mul_zero, add_zero]
              linarith

theorem le_foldl_max {A : Type} [LinearOrder A] {items : List A} {item start : A}
    (below : item ∈ items ∨ item ≤ start) : item ≤ items.foldl max start := by
  induction items generalizing start with
  | nil => exact below.resolve_left List.not_mem_nil
  | cons first rest ih =>
      apply ih
      rcases below with listed | small
      · rcases List.mem_cons.mp listed with rfl | later
        · exact .inr (le_max_right _ _)
        · exact .inl later
      · exact .inr (small.trans (le_max_left _ _))

/-- Every call is billed on one of the cards. -/
theorem cardFor_mem (rates : UsageRates) (inputTokens : Nat) : cardFor rates inputTokens ∈ cards rates := by
  have walk : ∀ (tiers : List UsageRateTier) (card : RateCard), card ∈ cards rates → (∀ tier ∈ tiers, tier ∈ rates.tiers) →
      tiers.foldl (fun card tier => if tier.aboveInputTokens < inputTokens then tier.card else card) card ∈ cards rates := by
    intro tiers
    induction tiers with
    | nil => exact fun card known _ => known
    | cons tier rest ih =>
        intro card known listed
        refine ih _ ?_ fun other later => listed other (List.mem_cons_of_mem _ later)
        dsimp only
        split
        · exact List.mem_cons_of_mem _ (List.mem_map_of_mem (listed tier List.mem_cons_self))
        · exact known
  exact walk rates.tiers rates.base List.mem_cons_self fun _ listed => listed

variable {rates : UsageRates} {card : RateCard}

theorem dearestInput_le (listed : card ∈ cards rates) : (card.dearestInput : ℚ) ≤ 1000000 * (worstRates rates).input := by
  have most : card.dearestInput ≤ ((cards rates).map RateCard.dearestInput).foldl max 0 :=
    le_foldl_max (.inl (List.mem_map_of_mem listed))
  have cast : (card.dearestInput : ℚ) ≤ (((cards rates).map RateCard.dearestInput).foldl max 0 : ℚ≥0) := by
    exact_mod_cast most
  have scaled : ((worstRates rates).input : ℚ) =
      (((cards rates).map RateCard.dearestInput).foldl max 0 : ℚ≥0) / 1000000 := by
    simp [worstRates]
  rw [scaled]
  linarith

theorem dearestOutput_le (listed : card ∈ cards rates) :
    (card.dearestOutput : ℚ) ≤ 1000000 * (worstRates rates).output := by
  have most : card.dearestOutput ≤ ((cards rates).map RateCard.dearestOutput).foldl max 0 :=
    le_foldl_max (.inl (List.mem_map_of_mem listed))
  have cast : (card.dearestOutput : ℚ) ≤ (((cards rates).map RateCard.dearestOutput).foldl max 0 : ℚ≥0) := by
    exact_mod_cast most
  have scaled : ((worstRates rates).output : ℚ) =
      (((cards rates).map RateCard.dearestOutput).foldl max 0 : ℚ≥0) / 1000000 := by
    simp [worstRates]
  rw [scaled]
  linarith

/-- The subtotals of a usage lie within its totals. -/
structure TokenUsage.Consistent (usage : TokenUsage) : Prop where
  cached : usage.cacheReadTokens.getD 0 + usage.cacheWriteTokens.getD 0 ≤ usage.inputTokens
  longLived : usage.cacheWrite1hTokens.getD 0 ≤ usage.cacheWriteTokens.getD 0
  reasoned : usage.reasoningTokens.getD 0 ≤ usage.outputTokens

variable {usage : TokenUsage}

/-- Every input token is billed once, at a rate of the card. -/
theorem inputCost_le (consistent : usage.Consistent) (dear : (card.dearestInput : ℚ) ≤ rate) :
    let cacheRead := usage.cacheReadTokens.getD 0
    let cacheWrite := usage.cacheWriteTokens.getD 0
    let cacheWrite1h := usage.cacheWrite1hTokens.getD cacheWrite
    ((usage.inputTokens - cacheRead - cacheWrite : Nat) : ℚ) * card.input + cacheRead * card.cacheRead +
      (cacheWrite1h * card.cacheWrite1h + (cacheWrite - cacheWrite1h : Nat) * card.cacheWrite5m) ≤
        usage.inputTokens * rate := by
  intro cacheRead cacheWrite cacheWrite1h
  have longLived : cacheWrite1h ≤ cacheWrite := by
    have given := consistent.longLived
    cases stated : usage.cacheWrite1hTokens with
    | none => simp [cacheWrite1h, stated]
    | some tokens => simpa [cacheWrite1h, stated] using given
  have parts : (usage.inputTokens : ℚ) = (usage.inputTokens - cacheRead - cacheWrite : Nat) + cacheRead +
      (cacheWrite1h + (cacheWrite - cacheWrite1h : Nat)) := by
    have cached : cacheRead + cacheWrite ≤ usage.inputTokens := consistent.cached
    have whole : usage.inputTokens = (usage.inputTokens - cacheRead - cacheWrite) + cacheRead +
        (cacheWrite1h + (cacheWrite - cacheWrite1h)) := by omega
    exact_mod_cast whole
  have bounds : (card.input : ℚ) ≤ rate ∧ (card.cacheRead : ℚ) ≤ rate ∧ (card.cacheWrite5m : ℚ) ≤ rate ∧
      (card.cacheWrite1h : ℚ) ≤ rate := by
    simpa [RateCard.dearestInput, NNRat.coe_max] using dear
  obtain ⟨input, read, short, long⟩ := bounds
  rw [parts, add_mul, add_mul, add_mul]
  gcongr

/-- Every output token is billed once, as text or as reasoning. -/
theorem outputCost_le (consistent : usage.Consistent) (dear : (card.dearestOutput : ℚ) ≤ rate) :
    let reasoning := usage.reasoningTokens.getD 0
    ((if card.reasoning.isSome then usage.outputTokens - reasoning else usage.outputTokens : Nat) : ℚ) * card.output +
      card.reasoning.elim 0 (fun price => (reasoning : ℚ) * price) ≤ usage.outputTokens * rate := by
  intro reasoning
  have bounds : (card.output : ℚ) ≤ rate ∧ ((card.reasoning.getD 0 : ℚ≥0) : ℚ) ≤ rate := by
    simpa [RateCard.dearestOutput, NNRat.coe_max] using dear
  obtain ⟨text, thought⟩ := bounds
  cases priced : card.reasoning with
  | none =>
      rw [Option.isSome_none, if_neg Bool.false_ne_true, Option.elim_none, add_zero]
      gcongr
  | some price =>
      rw [priced, Option.getD_some] at thought
      have parts : (usage.outputTokens : ℚ) = (usage.outputTokens - reasoning : Nat) + reasoning := by
        have reasoned : reasoning ≤ usage.outputTokens := consistent.reasoned
        exact_mod_cast (Nat.sub_add_cancel reasoned).symm
      rw [Option.isSome_some, if_pos rfl, Option.elim_some, parts, add_mul]
      gcongr

/-- A call that keeps to its projection costs no more than was projected. -/
theorem costBreakdown_le (consistent : usage.Consistent) (input : usage.inputTokens ≤ inputTokens)
    (output : (usage.outputTokens : ℤ) ≤ outputTokens) :
    costBreakdown usage rates ≤ projectedCost .usd inputTokens outputTokens (some (worstRates rates)) := by
  have listed := cardFor_mem rates usage.inputTokens
  have inputCost := inputCost_le consistent (dearestInput_le listed)
  have outputCost := outputCost_le consistent (dearestOutput_le listed)
  have prompt : (usage.inputTokens : ℚ) ≤ inputTokens := by exact_mod_cast input
  have answer : (usage.outputTokens : ℚ) ≤ outputTokens := by exact_mod_cast output
  have inputRate : (0 : ℚ) ≤ (worstRates rates).input := (worstRates rates).input.coe_nonneg
  have outputRate : (0 : ℚ) ≤ (worstRates rates).output := (worstRates rates).output.coe_nonneg
  have prompts := mul_le_mul_of_nonneg_right prompt inputRate
  have answers := mul_le_mul_of_nonneg_right answer outputRate
  simp only [projectedCost, Option.elim_some, costBreakdown]
  simp only at inputCost outputCost
  linarith

/-- A reservation covers every usage within its projection, and a grant fits the amount that it was given for. -/
theorem reservation_covers (rates : UsageRates) (inputTokens : Nat) :
    (∀ (usage : TokenUsage) (outputTokens : ℤ), usage.Consistent → usage.inputTokens ≤ inputTokens →
      (usage.outputTokens : ℤ) ≤ outputTokens →
        costBreakdown usage rates ≤ projectedCost .usd inputTokens outputTokens (some (worstRates rates))) ∧
    ∀ (available : ℚ) (granted : ℤ),
      (outputAllowance .usd available inputTokens (some (worstRates rates)) = .unlimited ∨
        ∃ tokens, outputAllowance .usd available inputTokens (some (worstRates rates)) = .upTo tokens ∧
          granted ≤ tokens) →
        projectedCost .usd inputTokens granted (some (worstRates rates)) ≤ available := by
  refine ⟨fun usage outputTokens consistent input output => costBreakdown_le consistent input output, ?_⟩
  intro available granted grants
  rcases grants with unlimited | ⟨tokens, allowance, within⟩
  · exact projectedCost_le_of_unlimited unlimited granted
  · exact projectedCost_le_of_upTo allowance within

/-- The long prompts of a model cost more, and so does what it thinks. -/
def tieredRates : UsageRates where
  base := ⟨3, 15, 1, 4, 6, none⟩
  tiers := [⟨200000, ⟨6, 20, 1, 8, 12, some 25⟩⟩]

theorem reservation_covers_tiered :
    costBreakdown ⟨300000, 1000, some 100000, some 50000, some 400, some 20000⟩ tieredRates ≤
        projectedCost .usd 300000 1000 (some (worstRates tieredRates)) ∧
      projectedCost .usd 300000 5000 (some (worstRates tieredRates)) ≤ 4 := by
  have covers := reservation_covers tieredRates 300000
  refine ⟨covers.1 _ 1000 ⟨?_, ?_, ?_⟩ ?_ ?_, covers.2 4 5000 (.inr ⟨16000, ?_, ?_⟩)⟩
  all_goals first | decide | decide +kernel

end NimbleBrain.Spend
