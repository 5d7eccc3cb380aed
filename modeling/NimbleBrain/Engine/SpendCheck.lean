import NimbleBrain.Engine.ThinkingOptions
import NimbleBrain.Spend.Solvency

/- A model call asks its accounts for its whole output. What it may write, with its thinking, fits what they grant. -/

namespace NimbleBrain.Engine

open Library Spend

section Code

structure EngineConfig where
  model : String
  thinking : Option ResolvedThinking
  maxOutputTokens : ℤ
  maxRunInputTokens : Option Nat
  spend : Option (SpendCall → SpendAnswer)

structure NextCall where
  spentInput : Nat
  lastCallInputTokens : Nat
  estimate : Nat

inductive CallCheck where
  | maxInputTokens
  | spendAccountId (accountId : String)
  | maxOutputTokens (tokens : ℤ)
  deriving DecidableEq

def minSpendCallOutputTokens : ℤ := 256

variable (catalog : ModelCatalog)

/-- The thinking budget of a call with the output. -/
def EngineConfig.beyond (config : EngineConfig) (max : ℤ) : ℤ :=
  thinkingBeyondMaxOutput (buildThinkingProviderOptions catalog config.model config.thinking max)

/-- The accounts are asked for the output with its thinking, and for the least that is of use. -/
def EngineConfig.request (config : EngineConfig) (projected : Nat) : SpendCall :=
  let floor := min config.maxOutputTokens minSpendCallOutputTokens
  { inputTokens := projected
    maxOutputTokens := (config.maxOutputTokens + config.beyond catalog config.maxOutputTokens).toNat
    minOutputTokens := (floor + config.beyond catalog floor).toNat }

/-- The output that fits a grant beside its own thinking. -/
def EngineConfig.fit (config : EngineConfig) (granted : ℤ) : ℤ :=
  let fitted := min config.maxOutputTokens granted
  min fitted (granted - config.beyond catalog fitted)

def checkBeforeCall (config : EngineConfig) (call : NextCall) : CallCheck :=
  let projected := max call.lastCallInputTokens call.estimate
  if (config.maxRunInputTokens.any fun cap => decide (cap < call.spentInput + projected)) = true then .maxInputTokens
  else
    match config.spend with
    | none => .maxOutputTokens config.maxOutputTokens
    | some check =>
        match check (config.request catalog projected) with
        | .refused accountId => .spendAccountId accountId
        | .allowed granted => .maxOutputTokens (config.fit catalog granted)

end Code

variable {low high available : ℤ}

theorem Share.floorTimes_mono (share : Share) (below : low ≤ high) : share.floorTimes low ≤ share.floorTimes high := by
  have round : ∀ {less more : Nat}, less ≤ more → Rounding.roundBits 53 (less * share.mantissa) ≤
      Rounding.roundBits 53 (more * share.mantissa) :=
    fun less => Rounding.roundBits_mono (by omega) (Nat.mul_le_mul_right _ less)
  by_cases whole : share.mantissa = 2 ^ share.exponent
  · have same : ∀ available, share.floorTimes available = available := by
      intro available
      cases available <;> exact if_pos whole
    rw [same, same]
    exact below
  · cases low with
    | ofNat low =>
        cases high with
        | ofNat high =>
            rw [floorTimes, floorTimes, if_neg whole, if_neg whole]
            exact_mod_cast Nat.div_le_div_right (round (Int.ofNat_le.mp below))
        | negSucc high =>
            exact absurd below (not_le.mpr ((Int.negSucc_lt_zero high).trans_le (Int.natCast_nonneg low)))
    | negSucc low =>
        rw [floorTimes, if_neg whole]
        cases high with
        | ofNat high =>
            rw [floorTimes, if_neg whole]
            exact (neg_nonpos.mpr (Int.natCast_nonneg _)).trans (Int.natCast_nonneg _)
        | negSucc high =>
            rw [floorTimes, if_neg whole]
            refine neg_le_neg ?_
            have deeper : high + 1 ≤ low + 1 := by omega
            have rounded := round deeper
            have scaled : (Rounding.roundBits 53 ((high + 1) * share.mantissa) + 2 ^ share.exponent - 1) / 2 ^ share.exponent ≤
                (Rounding.roundBits 53 ((low + 1) * share.mantissa) + 2 ^ share.exponent - 1) / 2 ^ share.exponent :=
              Nat.div_le_div_right (by omega)
            exact_mod_cast scaled

/-- A share of a number is at most the number, with room for the rounding. -/
theorem Share.floorTimes_le {share : Share}
    (partial' : share.mantissa = 2 ^ share.exponent ∨ share.mantissa * (2 ^ 53 + 1) ≤ 2 ^ share.exponent * 2 ^ 53)
    (positive : 0 ≤ available) :
    share.floorTimes available ≤ available := by
  obtain ⟨tokens, rfl⟩ := Int.eq_ofNat_of_zero_le positive
  by_cases whole : share.mantissa = 2 ^ share.exponent
  · exact (if_pos whole : share.floorTimes (.ofNat tokens) = tokens).le
  · have floor : share.floorTimes (.ofNat tokens) =
        (Rounding.roundBits 53 (tokens * share.mantissa) / 2 ^ share.exponent : Nat) := if_neg whole
    have room := partial'.resolve_left whole
    have close := @Rounding.roundBits_close 53 (by omega) (tokens * share.mantissa)
    have bound : Rounding.roundBits 53 (tokens * share.mantissa) ≤ tokens * 2 ^ share.exponent := by
      refine Nat.le_of_mul_le_mul_right ?_ (Nat.two_pow_pos 53)
      refine close.trans ?_
      calc tokens * share.mantissa * (2 ^ 53 + 1) = tokens * (share.mantissa * (2 ^ 53 + 1)) := Nat.mul_assoc _ _ _
        _ ≤ tokens * (2 ^ share.exponent * 2 ^ 53) := Nat.mul_le_mul_left _ room
        _ = tokens * 2 ^ share.exponent * 2 ^ 53 := (Nat.mul_assoc _ _ _).symm
    have within : Rounding.roundBits 53 (tokens * share.mantissa) / 2 ^ share.exponent ≤ tokens :=
      Nat.div_le_of_le_mul (bound.trans_eq (Nat.mul_comm _ _))
    exact floor.trans_le (by exact_mod_cast within)

theorem effortBudgetShare_part (effort : ThinkingEffort) :
    (effortBudgetShare effort).mantissa = 2 ^ (effortBudgetShare effort).exponent ∨
      (effortBudgetShare effort).mantissa * (2 ^ 53 + 1) ≤ 2 ^ (effortBudgetShare effort).exponent * 2 ^ 53 := by
  cases effort <;> decide

section Budgets

variable {catalog : ModelCatalog} {config : EngineConfig} {low high : ℤ}

/-- A budget at its floor, or one that leaves room for a visible answer. -/
def Leaves (budget maxOutputTokens : ℤ) : Prop :=
  minThinkingBudgetTokens ≤ budget ∧
    (budget = minThinkingBudgetTokens ∨ budget + minVisibleOutputTokens ≤ maxOutputTokens)

theorem clampThinkingBudget_leaves (budget max : ℤ) : Leaves (clampThinkingBudget budget max) max := by
  unfold Leaves clampThinkingBudget
  omega

theorem effortToBudget_leaves (effort : ThinkingEffort) (max : ℤ) : Leaves (effortToBudget effort max) max := by
  unfold Leaves effortToBudget
  rcases le_or_gt 0 (max - minVisibleOutputTokens) with room | none
  · have share := Share.floorTimes_le (effortBudgetShare_part effort) room
    omega
  · have share := (effortBudgetShare effort).floorTimes_mono none.le
    have zero := Share.floorTimes_le (effortBudgetShare_part effort) (le_refl 0)
    have least : minThinkingBudgetTokens = 1024 := rfl
    omega

theorem clampThinkingBudget_mono (budget : ℤ) (below : low ≤ high) :
    clampThinkingBudget budget low ≤ clampThinkingBudget budget high := by
  unfold clampThinkingBudget
  omega

theorem effortToBudget_mono (effort : ThinkingEffort) (below : low ≤ high) :
    effortToBudget effort low ≤ effortToBudget effort high :=
  max_le_max le_rfl ((effortBudgetShare effort).floorTimes_mono (by omega))

variable {send : Tier → ProviderOptions}

theorem tierOptions_beyond (inside : ∀ tier, thinkingBeyondMaxOutput (send tier) = 0) (tier : Option Tier) :
    thinkingBeyondMaxOutput (tierOptions send tier) = 0 := by
  cases tier with
  | none => rfl
  | some tier => exact inside tier

theorem buildTierOptions_beyond (inside : ∀ tier, thinkingBeyondMaxOutput (send tier) = 0)
    (supported : Option (List Tier)) (sendsOff : Bool) (thinking : ResolvedThinking) :
    thinkingBeyondMaxOutput (buildTierOptions send supported sendsOff thinking) = 0 := by
  cases thinking with
  | off =>
      unfold buildTierOptions
      dsimp only
      split
      · exact inside _
      · rfl
  | adaptive => rfl
  | effort effort source => exact tierOptions_beyond inside _
  | enabled budgetTokens effort source => exact tierOptions_beyond inside _

theorem buildGoogleThinkingOptions_beyond (model : String) (thinking : ResolvedThinking) (max : ℤ) :
    thinkingBeyondMaxOutput (buildGoogleThinkingOptions catalog model thinking max) = 0 := by
  unfold buildGoogleThinkingOptions
  split
  · rfl
  · cases thinking with
    | off =>
        unfold googleLevelOptions
        dsimp only
        split <;> rfl
    | adaptive => rfl
    | effort effort source => exact tierOptions_beyond (fun _ => rfl) _
    | enabled budgetTokens effort source => exact tierOptions_beyond (fun _ => rfl) _
  · cases thinking with
    | off =>
        unfold googleBudgetOptions
        dsimp only
        split <;> rfl
    | adaptive => rfl
    | effort effort source => rfl
    | enabled budgetTokens effort source => rfl

/-- One provider meters thinking on top of the output. Every other fits it inside. -/
theorem beyond_cases (catalog : ModelCatalog) (config : EngineConfig) :
    (∀ max, config.beyond catalog max = 0) ∨
      (∃ effort, ∀ max, config.beyond catalog max = effortToBudget effort max) ∨
        ∃ budget, ∀ max, config.beyond catalog max = clampThinkingBudget budget max := by
  unfold EngineConfig.beyond buildThinkingProviderOptions
  cases config.thinking with
  | none => exact .inl fun _ => rfl
  | some thinking =>
      simp only [Option.elim_some]
      cases catalog.getProviderFromModel config.model with
      | anthropic =>
          cases thinking with
          | off => exact .inl fun _ => rfl
          | adaptive => exact .inl fun _ => rfl
          | effort effort source =>
              simp only [buildAnthropicThinkingOptions]
              split
              · exact .inl fun _ => rfl
              · exact .inr (.inl ⟨effort, fun _ => rfl⟩)
          | enabled budgetTokens effort source =>
              simp only [buildAnthropicThinkingOptions]
              split
              · exact .inl fun _ => rfl
              · exact .inr (.inr ⟨budgetTokens, fun _ => rfl⟩)
      | openai => exact .inl fun _ => buildTierOptions_beyond (fun _ => rfl) _ _ _
      | greenpt => exact .inl fun _ => buildTierOptions_beyond (fun _ => rfl) _ _ _
      | nebius => exact .inl fun _ => by cases thinking <;> rfl
      | xai => exact .inl fun _ => buildTierOptions_beyond (fun _ => rfl) _ _ _
      | google => exact .inl fun max => buildGoogleThinkingOptions_beyond config.model thinking max
      | other => exact .inl fun _ => rfl

/-- The thinking of a call never grows with a smaller output. -/
theorem beyond_mono (below : low ≤ high) : config.beyond catalog low ≤ config.beyond catalog high := by
  rcases beyond_cases catalog config with none | ⟨effort, metered⟩ | ⟨budget, metered⟩
  · rw [none, none]
  · rw [metered, metered]
    exact effortToBudget_mono effort below
  · rw [metered, metered]
    exact clampThinkingBudget_mono budget below

theorem beyond_leaves (catalog : ModelCatalog) (config : EngineConfig) :
    (∀ max, config.beyond catalog max = 0) ∨ ∀ max, Leaves (config.beyond catalog max) max := by
  rcases beyond_cases catalog config with none | ⟨effort, metered⟩ | ⟨budget, metered⟩
  · exact .inl none
  · exact .inr fun max => metered max ▸ effortToBudget_leaves effort max
  · exact .inr fun max => metered max ▸ clampThinkingBudget_leaves budget max

theorem beyond_nonneg (max : ℤ) : 0 ≤ config.beyond catalog max := by
  rcases beyond_leaves catalog config with none | leaves
  · exact (none max).ge
  · have least := (leaves max).1
    unfold minThinkingBudgetTokens at least
    omega

end Budgets

/-- An allowed output is at most what was asked for, and at least what was asked for. -/
theorem clampEach_floor (call : SpendCall) (rates : Option WorstRates) (live : Table String Live)
    (ids : List String) (start : ℤ) (enough : call.floor ≤ start) {allowed : ℤ}
    (granted : clampEach call rates live ids start = .allowed allowed) :
    call.floor ≤ allowed := by
  induction ids generalizing start with
  | nil =>
      rw [clampEach, SpendAnswer.allowed.injEq] at granted
      exact granted ▸ enough
  | cons first rest ih =>
      rw [clampEach] at granted
      split at granted
      · cases granted
      · split at granted
        · cases granted
        · split at granted
          · cases granted
          · next above => exact ih _ (not_lt.mp above) granted

theorem check_within {balances : SpendBalances} {index : Nat} {hold : SpendHold} {call : SpendCall} {granted : ℤ}
    (allowed : (balances.check index hold call).2 = .allowed granted) :
    call.floor ≤ granted ∧ granted ≤ call.maxOutputTokens := by
  rcases SpendBalances.check_eq balances index hold call with ⟨accountId, same⟩ | ⟨tokens, clamped, same⟩
  · rw [same] at allowed
    cases allowed
  · rw [same, SpendAnswer.allowed.injEq] at allowed
    subst allowed
    obtain ⟨-, most, -⟩ := clampEach_spec _ _ _ _ _ (Int.natCast_nonneg _) clamped
    exact ⟨clampEach_floor _ _ _ _ _ (min_le_right _ _) clamped, most⟩

variable {catalog : ModelCatalog} {config : EngineConfig} {granted : ℤ}

/-- A grant that covers the least output with its thinking leaves the least output. -/
theorem fit_spec (asked : min config.maxOutputTokens minSpendCallOutputTokens +
      config.beyond catalog (min config.maxOutputTokens minSpendCallOutputTokens) ≤ granted) :
    let fitted := config.fit catalog granted
    fitted + config.beyond catalog fitted ≤ granted ∧ fitted ≤ config.maxOutputTokens ∧
      min config.maxOutputTokens minSpendCallOutputTokens ≤ fitted := by
  intro fitted
  have least : minSpendCallOutputTokens = 256 := rfl
  have visible : minVisibleOutputTokens = 4096 := rfl
  have below : fitted ≤ min config.maxOutputTokens granted := min_le_left _ _
  have room : fitted ≤ granted - config.beyond catalog (min config.maxOutputTokens granted) := min_le_right _ _
  have less : config.beyond catalog fitted ≤ config.beyond catalog (min config.maxOutputTokens granted) := beyond_mono below
  have positive := @beyond_nonneg catalog config (min config.maxOutputTokens minSpendCallOutputTokens)
  refine ⟨by omega, below.trans (min_le_left _ _), le_min (le_min (min_le_left _ _) (by omega)) ?_⟩
  rcases beyond_leaves catalog config with none | leaves
  · rw [none] at asked ⊢
    omega
  · have small := leaves (min config.maxOutputTokens minSpendCallOutputTokens)
    have large := leaves (min config.maxOutputTokens granted)
    unfold Leaves at small large
    omega

/-- A call that its accounts clamp fits the grant together with its thinking. -/
theorem clamped_call_fits (catalog : ModelCatalog) (config : EngineConfig) (call : NextCall) (balances : SpendBalances)
    (index : Nat) (hold : SpendHold) (ceiling : 1 ≤ config.maxOutputTokens)
    (gate : config.spend = some fun request => (balances.check index hold request).2) (tokens : ℤ)
    (sent : checkBeforeCall catalog config call = .maxOutputTokens tokens) :
    ∃ granted,
      (balances.check index hold (config.request catalog (max call.lastCallInputTokens call.estimate))).2 =
        .allowed granted ∧
      tokens + config.beyond catalog tokens ≤ granted ∧ tokens ≤ config.maxOutputTokens ∧
        min config.maxOutputTokens minSpendCallOutputTokens ≤ tokens := by
  simp only [checkBeforeCall, gate] at sent
  split at sent
  · cases sent
  · split at sent
    · cases sent
    · next granted allowed =>
        obtain rfl := CallCheck.maxOutputTokens.inj sent
        refine ⟨granted, allowed, fit_spec ?_⟩
        have least : minSpendCallOutputTokens = 256 := rfl
        have within := (check_within allowed).1
        have floor := @beyond_nonneg catalog config (min config.maxOutputTokens minSpendCallOutputTokens)
        have more : config.beyond catalog (min config.maxOutputTokens minSpendCallOutputTokens) ≤
            config.beyond catalog config.maxOutputTokens := beyond_mono (min_le_left _ _)
        simp only [SpendCall.floor, EngineConfig.request] at within
        omega

/-- Every model is metered in tokens. -/
def meteredCatalog : ModelCatalog where
  getProviderFromModel _ := .anthropic
  supportsEnabledThinking _ := true
  openaiSupportedEfforts _ := []
  greenptSupportedEfforts _ := none
  xaiSupportedEfforts _ := none
  googleThinkingSupport _ := none

/-- One account has twelve thousand output tokens left. -/
def twelveThousand : SpendBalances := SpendBalances.openAccounts {} [⟨"tokens", .outputTokens, 12000⟩] none

def tokensHold : SpendHold := { ids := ["tokens"], rates := none }

def deepRun : EngineConfig where
  model := "anthropic:deep"
  thinking := some (.effort .high .operator)
  maxOutputTokens := 20000
  maxRunInputTokens := none
  spend := some fun request => (twelveThousand.check 0 tokensHold request).2

theorem clamped_call_fits_deep : ∃ granted,
    (twelveThousand.check 0 tokensHold (deepRun.request meteredCatalog 900)).2 = .allowed granted ∧
      7258 + deepRun.beyond meteredCatalog 7258 ≤ granted ∧ 7258 ≤ deepRun.maxOutputTokens ∧
        min deepRun.maxOutputTokens minSpendCallOutputTokens ≤ 7258 :=
  clamped_call_fits meteredCatalog deepRun ⟨0, 900, 700⟩ twelveThousand 0 tokensHold (by decide) rfl 7258
    (by decide +kernel)

end NimbleBrain.Engine
