import NimbleBrain.Library.Rounding

/- The thinking config of a run is turned into the options of one provider. Some providers meter thinking in tokens. -/

namespace NimbleBrain.Engine

open Library

inductive ThinkingEffort where
  | low | medium | high | xhigh | max
  deriving DecidableEq

/-- Only an operator's own tier may override a provider's default. -/
inductive EffortSource where
  | operator | mode | platform
  deriving DecidableEq

inductive ResolvedThinking where
  | off
  | adaptive
  | effort (effort : ThinkingEffort) (source : EffortSource)
  | enabled (budgetTokens : ℤ) (effort : ThinkingEffort) (source : EffortSource)
  deriving DecidableEq

inductive Provider where
  | anthropic | openai | greenpt | nebius | xai | google | other
  deriving DecidableEq

/-- The tiers and levels that providers accept. -/
inductive Tier where
  | none | minimal | low | medium | high
  deriving DecidableEq

inductive GoogleThinkingSupport where
  | level (levels : List Tier)
  | budget (min max : ℤ) (canDisable : Bool)
  deriving DecidableEq

/-- The tables of the model catalog. A missing row is a model that nobody has measured. -/
structure ModelCatalog where
  getProviderFromModel : String → Provider
  supportsEnabledThinking : String → Bool
  openaiSupportedEfforts : String → List Tier
  greenptSupportedEfforts : String → Option (List Tier)
  xaiSupportedEfforts : String → Option (List Tier)
  googleThinkingSupport : String → Option GoogleThinkingSupport

inductive ProviderOptions where
  | empty
  | anthropicAdaptive (effort : Option ThinkingEffort)
  | anthropicEnabled (budgetTokens : ℤ)
  | openai (reasoningEffort : Tier)
  | greenpt (reasoningEffort : Tier)
  | nebius (reasoningEffort : Tier)
  | xai (reasoningEffort : Tier)
  | googleLevel (thinkingLevel : Tier)
  | googleBudget (thinkingBudget : ℤ)
  deriving DecidableEq

def minVisibleOutputTokens : ℤ := 4096

def minThinkingBudgetTokens : ℤ := 1024

/-- A double between zero and one is its mantissa over a power of two. -/
structure Share where
  mantissa : Nat
  exponent : Nat

/-- The doubles nearest to 0.15, 0.35, 0.6 and 0.8, and one. -/
def effortBudgetShare : ThinkingEffort → Share
  | .low => ⟨5404319552844595, 55⟩
  | .medium => ⟨3152519739159347, 53⟩
  | .high => ⟨5404319552844595, 53⟩
  | .xhigh => ⟨3602879701896397, 52⟩
  | .max => ⟨1, 0⟩

/-- The floor of the product as doubles multiply. A number times one is that number. -/
def Share.floorTimes (share : Share) : ℤ → ℤ
  | .ofNat available =>
      if share.mantissa = 2 ^ share.exponent then available
      else (Rounding.roundBits 53 (available * share.mantissa) / 2 ^ share.exponent : Nat)
  | .negSucc below =>
      if share.mantissa = 2 ^ share.exponent then .negSucc below
      else -((Rounding.roundBits 53 ((below + 1) * share.mantissa) + 2 ^ share.exponent - 1) / 2 ^ share.exponent : Nat)

def clampThinkingBudget (budget maxOutputTokens : ℤ) : ℤ :=
  max minThinkingBudgetTokens (min budget (maxOutputTokens - minVisibleOutputTokens))

def effortToBudget (effort : ThinkingEffort) (maxOutputTokens : ℤ) : ℤ :=
  max minThinkingBudgetTokens ((effortBudgetShare effort).floorTimes (maxOutputTokens - minVisibleOutputTokens))

/-- The tiers above the ladder are clamped onto its top. -/
def clampTier : ThinkingEffort → Tier
  | .low => .low
  | .medium => .medium
  | .high | .xhigh | .max => .high

def tierLadder : List Tier := [.low, .medium, .high]

def googleThinkingLevels : List Tier := [.minimal, .low, .medium, .high]

/-- The deepest tier at or below the one requested. -/
def nearestSupported (wanted : Tier) (supported ladder : List Tier) : Option Tier :=
  if wanted ∈ ladder then (ladder.take (ladder.idxOf wanted + 1)).reverse.find? (· ∈ supported) else none

def pickTier (wanted : Tier) (supported : Option (List Tier)) (ladder : List Tier) (source : EffortSource) : Option Tier :=
  if (supported.any fun tiers => wanted ∈ tiers) = true then some wanted
  else if source ≠ .operator ∨ supported = some [] then none
  else supported.bind fun tiers => nearestSupported wanted tiers ladder

/-- The options that a tier makes. No tier sends nothing. -/
def tierOptions (send : Tier → ProviderOptions) (tier : Option Tier) : ProviderOptions := tier.elim .empty send

variable (catalog : ModelCatalog)

def buildAnthropicThinkingOptions (model : String) (thinking : ResolvedThinking) (maxOutputTokens : ℤ) : ProviderOptions :=
  let effortShaped := !catalog.supportsEnabledThinking model
  match thinking with
  | .off => .empty
  | .adaptive => .anthropicAdaptive none
  | .effort effort _ =>
      if effortShaped then .anthropicAdaptive (some effort) else .anthropicEnabled (effortToBudget effort maxOutputTokens)
  | .enabled budgetTokens effort _ =>
      if effortShaped then .anthropicAdaptive (some effort)
      else .anthropicEnabled (clampThinkingBudget budgetTokens maxOutputTokens)

/-- A provider with tiers. Where the model takes none, it can be told not to think. -/
def buildTierOptions (send : Tier → ProviderOptions) (supported : Option (List Tier)) (sendsOff : Bool)
    (thinking : ResolvedThinking) : ProviderOptions :=
  match thinking with
  | .off => if sendsOff && supported.any fun tiers => .none ∈ tiers then send .none else .empty
  | .adaptive => .empty
  | .effort effort source | .enabled _ effort source =>
      tierOptions send (pickTier (clampTier effort) supported tierLadder source)

def buildOpenAIThinkingOptions (model : String) (thinking : ResolvedThinking) : ProviderOptions :=
  buildTierOptions .openai (some (catalog.openaiSupportedEfforts model)) false thinking

def buildGreenptThinkingOptions (model : String) (thinking : ResolvedThinking) : ProviderOptions :=
  buildTierOptions .greenpt (catalog.greenptSupportedEfforts model) true thinking

def buildXaiThinkingOptions (model : String) (thinking : ResolvedThinking) : ProviderOptions :=
  buildTierOptions .xai (catalog.xaiSupportedEfforts model) true thinking

/-- Every model of the provider takes every tier. -/
def buildNebiusThinkingOptions (thinking : ResolvedThinking) : ProviderOptions :=
  match thinking with
  | .off | .adaptive => .empty
  | .effort effort _ | .enabled _ effort _ => .nebius (clampTier effort)

def googleLevelOptions (thinking : ResolvedThinking) (levels : List Tier) : ProviderOptions :=
  match thinking with
  | .adaptive => .empty
  | .off => if .minimal ∈ levels then .googleLevel .minimal else .empty
  | .effort effort source | .enabled _ effort source =>
      tierOptions .googleLevel (pickTier (clampTier effort) (some levels) googleThinkingLevels source)

def googleBudgetOptions (thinking : ResolvedThinking) (least most : ℤ) (canDisable : Bool) (maxOutputTokens : ℤ) :
    ProviderOptions :=
  let within (requested : ℤ) : ProviderOptions :=
    .googleBudget <| max (max least minThinkingBudgetTokens)
      (min requested (min most (maxOutputTokens - minVisibleOutputTokens)))
  match thinking with
  | .off => if canDisable then .googleBudget 0 else .empty
  | .adaptive => .googleBudget (-1)
  | .effort effort _ => within (effortToBudget effort maxOutputTokens)
  | .enabled budgetTokens _ _ => within budgetTokens

def buildGoogleThinkingOptions (model : String) (thinking : ResolvedThinking) (maxOutputTokens : ℤ) : ProviderOptions :=
  match catalog.googleThinkingSupport model with
  | none => .empty
  | some (.level levels) => googleLevelOptions thinking levels
  | some (.budget least most canDisable) => googleBudgetOptions thinking least most canDisable maxOutputTokens

/-- A run without thinking leaves every provider at its default. -/
def buildThinkingProviderOptions (model : String) (thinking : Option ResolvedThinking) (maxOutputTokens : ℤ) :
    ProviderOptions :=
  thinking.elim .empty fun thinking =>
    match catalog.getProviderFromModel model with
    | .anthropic => buildAnthropicThinkingOptions catalog model thinking maxOutputTokens
    | .openai => buildOpenAIThinkingOptions catalog model thinking
    | .greenpt => buildGreenptThinkingOptions catalog model thinking
    | .nebius => buildNebiusThinkingOptions thinking
    | .xai => buildXaiThinkingOptions catalog model thinking
    | .google => buildGoogleThinkingOptions catalog model thinking maxOutputTokens
    | .other => .empty

/-- What a call may write beyond its own output. Only a metered budget comes on top. -/
def thinkingBeyondMaxOutput : ProviderOptions → ℤ
  | .anthropicEnabled budgetTokens => budgetTokens
  | _ => 0

end NimbleBrain.Engine
