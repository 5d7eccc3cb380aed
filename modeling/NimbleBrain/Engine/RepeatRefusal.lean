import NimbleBrain.Engine.LoopTrips

/- A refused call is the one that the tool answered alike until it tripped. -/

namespace NimbleBrain.Engine.Supervisor

open Library

section Prints

variable {host : SupervisorHost} {config : SupervisorConfig}

/-- The last mark splits a text in one way. -/
theorem split_last {Mark : Type} {mark : Mark} {first second rest rest' : List Mark} (last : mark ∉ rest)
    (last' : mark ∉ rest') (same : first ++ mark :: rest = second ++ mark :: rest') : first = second ∧ rest = rest' := by
  rcases List.append_eq_append_iff.mp same with ⟨between, longer, tail⟩ | ⟨between, longer, tail⟩
  · cases between with
    | nil => exact ⟨(longer.trans (List.append_nil _)).symm, (List.cons_eq_cons.mp tail).2⟩
    | cons next between =>
        refine absurd ?_ last
        rw [(List.cons_eq_cons.mp tail).2]
        simp
  · cases between with
    | nil => exact ⟨longer.trans (List.append_nil _), (List.cons_eq_cons.mp tail).2.symm⟩
    | cons next between =>
        refine absurd ?_ last'
        rw [(List.cons_eq_cons.mp tail).2]
        simp

theorem scalars_success {call : ToolCall} {result : ToolResult} (plain : result.nonAdvancing = false)
    (success : result.isError = false) :
    Utf16.scalars (fingerprintBody host config call result) =
      (.single 83 :: .single 0 :: Utf16.scalars (cappedText config result)) ++
        .single 0 :: Utf16.scalars (canonicalJson call.input.json) := by
  rw [fingerprintBody, plain, success, if_neg Bool.false_ne_true, if_neg Bool.false_ne_true,
    Utf16.scalars_append_plain (by decide), Utf16.scalars_append_plain (by decide)]
  rfl

/-- What is hashed says whether the call succeeded. -/
theorem scalars_failure {call : ToolCall} {result : ToolResult}
    (fails : result.nonAdvancing = true ∨ result.isError = true) :
    (Utf16.scalars (fingerprintBody host config call result)).head? ≠ some (.single 83) := by
  rw [fingerprintBody]
  by_cases flagged : result.nonAdvancing = true
  · rw [if_pos flagged, Utf16.scalars_append_plain (by decide)]
    show some (Utf16.Token.single 78) ≠ some (.single 83)
    decide
  · rw [if_neg flagged, if_pos (fails.resolve_left flagged), Utf16.scalars_append_plain (by decide),
      Utf16.scalars_append_plain (by decide)]
    show some (Utf16.Token.single 69) ≠ some (.single 83)
    decide

/-- Calls with the print of an advancing success advanced with its text and its input. -/
theorem advances_of_print (separates : Function.Injective host.sha1Hex) {observation tripping : Observation}
    (named : observation.1.name = tripping.1.name) (counts : observation.2.infraError = false)
    (advances : isAdvancingSuccess tripping.2 = true)
    (same : fingerprint host config observation.1 observation.2 = fingerprint host config tripping.1 tripping.2) :
    isAdvancingSuccess observation.2 = true ∧
      Utf16.scalars (cappedText config observation.2) = Utf16.scalars (cappedText config tripping.2) ∧
        canonicalJson observation.1.input.json = canonicalJson tripping.1.input.json := by
  obtain ⟨-, success, plain⟩ := not_infra_of_advancing advances
  have body : Utf16.scalars (fingerprintBody host config observation.1 observation.2) =
      Utf16.scalars (fingerprintBody host config tripping.1 tripping.2) := by
    have hashed := separates same
    rw [named, Utf16.scalars_append_plain (by decide), Utf16.scalars_append_plain (by decide)] at hashed
    exact (List.cons_eq_cons.mp (List.append_cancel_left hashed)).2
  have own : observation.2.nonAdvancing = false ∧ observation.2.isError = false := by
    by_contra fails
    refine @scalars_failure host config observation.1 observation.2 ?_ ?_
    · by_cases flagged : observation.2.nonAdvancing = true
      · exact .inl flagged
      · refine .inr (Bool.not_eq_false _ |>.mp fun success => fails ⟨?_, success⟩)
        exact Bool.not_eq_true _ |>.mp flagged
    · rw [body, scalars_success plain success]
      rfl
  rw [scalars_success own.1 own.2, scalars_success plain success] at body
  obtain ⟨text, input⟩ := split_last (clean_canonicalJson _).null_not_mem (clean_canonicalJson _).null_not_mem body
  refine ⟨by simp [isAdvancingSuccess, own.1, own.2, counts], (List.cons_eq_cons.mp (List.cons_eq_cons.mp text).2).2, ?_⟩
  rw [← (clean_canonicalJson observation.1.input.json).units_scalars, input, (clean_canonicalJson _).units_scalars]

end Prints

variable (host : SupervisorHost) (config : SupervisorConfig)

/-- The counted calls of a tool up to its trip, the latest first. -/
def beforeTrip (history : List Observation) (tool : Utf16) : List Observation :=
  counted (untilTrip host config (ownCalls tool history))

/-- A refusal repeats a call that is shown to be a loop. -/
structure RefusesLoop (history : List Observation) (call : ToolCall) : Prop where
  tripped : (repeatRefusal (statesAfter host config history) call).isSome → isTripped host config history call.name = true
  loop : (repeatRefusal (statesAfter host config history) call).isSome →
    config.maxConsecutiveRepeats ≤ (beforeTrip host config history call.name).length ∧
      ∃ text, ∀ observation ∈ (beforeTrip host config history call.name).take config.maxConsecutiveRepeats,
        isAdvancingSuccess observation.2 = true ∧ cappedText config observation.2 = text ∧
          observation.1.input.json.Same call.input.json
  code : ∀ first second : JsonValue,
    canonicalJson first.json = canonicalJson second.json ↔ first.json.Same second.json

/-- No two texts differ only in halves of pairs. -/
def Legible (own : List Observation) : Prop :=
  ∀ first ∈ own, ∀ second ∈ own,
    Utf16.scalars (cappedText config first.2) = Utf16.scalars (cappedText config second.2) →
      cappedText config first.2 = cappedText config second.2

variable {host config}

theorem canonicalJson_eq_iff (first second : JsonValue) :
    canonicalJson first.json = canonicalJson second.json ↔ first.json.Same second.json :=
  ⟨same_of_canonicalJson_eq, fun same => canonicalJson_eq_of_same same first.distinct second.distinct⟩

theorem sinceRecovery_isPrefix (own : List Observation) : sinceRecovery host config own <+: own := by
  induction own with
  | nil => exact List.nil_prefix
  | cons latest earlier ih =>
      rw [sinceRecovery]
      split
      · exact ⟨earlier, rfl⟩
      · exact List.cons_prefix_cons.mpr ⟨rfl, ih⟩

theorem untilTrip_isSuffix (own : List Observation) : untilTrip host config own <:+ own := by
  induction own with
  | nil => exact List.nil_suffix
  | cons latest earlier ih =>
      rw [untilTrip]
      split
      · exact ih.trans (List.suffix_cons latest earlier)
      · exact List.suffix_rfl

/-- Equal prints since a recovery are equal prints of all calls. -/
theorem Repeats.take_counted {times : Nat} {own : List Observation}
    (repeats : Repeats times (prints host config (sinceRecovery host config own))) :
    times ≤ (counted own).length ∧ ∃ print, ∀ observation ∈ (counted own).take times,
      fingerprint host config observation.1 observation.2 = print := by
  obtain ⟨print, same⟩ := repeats
  obtain ⟨older, whole⟩ := (@sinceRecovery_isPrefix host config own).filter
    fun observation => !observation.2.infraError
  have long : times ≤ (counted (sinceRecovery host config own)).length := by
    have length := congrArg List.length same
    rw [List.length_take, List.length_replicate, prints, List.length_map] at length
    omega
  have total : counted own = counted (sinceRecovery host config own) ++ older := whole.symm
  refine ⟨by rw [total, List.length_append]; omega, print, fun observation member => ?_⟩
  rw [total, List.take_append_of_le_length long] at member
  rw [prints, ← List.map_take] at same
  exact List.eq_of_mem_replicate (same ▸ List.mem_map_of_mem member)

theorem refusal_state {states : ToolStates} {call : ToolCall} (refused : (repeatRefusal states call).isSome) :
    (getState states call.name).tripped = true ∧
      (getState states call.name).trippedInput = some (canonicalJson call.input.json) := by
  rw [repeatRefusal] at refused
  cases found : states.get? call.name with
  | none =>
      rw [found] at refused
      cases refused
  | some state =>
      rw [getState, found, Option.getD_some]
      rw [found] at refused
      cases tripped : state.tripped with
      | false => simp [tripped] at refused
      | true =>
          cases input : state.trippedInput with
          | none => simp [tripped, input] at refused
          | some text =>
              simp only [tripped, input] at refused
              split at refused
              · next same => exact ⟨rfl, congrArg some same.symm⟩
              · cases refused

/-- A refusal repeats a loop, when texts are legible and the budget is not zero. -/
theorem refusesLoop_of_legible (separates : Function.Injective host.sha1Hex) (history : List Observation)
    (call : ToolCall) (budget : 0 < config.maxNonAdvancingCalls) (legible : Legible config (ownCalls call.name history)) :
    RefusesLoop host config history call := by
  constructor
  · exact fun refused => (refusal_state refused).1
  · intro refused
    obtain ⟨tripped, input⟩ := refusal_state refused
    rw [getState_statesAfter] at tripped input
    obtain ⟨before, tripping, holds⟩ := (agrees _).tripped tripped
    rw [holds.input] at input
    obtain ⟨advances, code⟩ : isAdvancingSuccess tripping.2 = true ∧
        canonicalJson tripping.1.input.json = canonicalJson call.input.json := by
      split at input
      · next advances => exact ⟨advances, Option.some.inj input⟩
      · cases input
    -- the budget is cleared by the success that tripped the tool
    have repeats := holds.stuck.resolve_right (by rw [nonAdvancingSince_advancing advances]; omega)
    obtain ⟨long, print, same⟩ := repeats.take_counted
    have own {observation : Observation} (member : observation ∈ tripping :: before) :
        observation ∈ ownCalls call.name history ∧ observation.1.name = call.name := by
      have listed := (untilTrip_isSuffix _).subset (holds.calls ▸ member)
      exact ⟨listed, of_decide_eq_true (List.mem_filter.mp listed).2⟩
    have head : counted (tripping :: before) = tripping :: counted before := by simp [counted, holds.counts]
    rw [beforeTrip, holds.calls]
    refine ⟨long, cappedText config tripping.2, fun observation member => ?_⟩
    have listed := List.mem_filter.mp (List.mem_of_mem_take member)
    have printed : fingerprint host config tripping.1 tripping.2 = print := by
      apply same
      rw [head] at member ⊢
      cases times : config.maxConsecutiveRepeats with
      | zero => simp [times] at member
      | succ times => exact List.mem_cons_self
    obtain ⟨advanced, text, coded⟩ := advances_of_print separates
      ((own listed.1).2.trans (own List.mem_cons_self).2.symm) (by simpa using listed.2) advances
      ((same observation member).trans printed.symm)
    exact ⟨advanced, legible _ (own listed.1).1 _ (own List.mem_cons_self).1 text,
      (canonicalJson_eq_iff _ _).mp (coded.trans code)⟩
  · exact canonicalJson_eq_iff

/-- The fourth identical call is refused. -/
theorem refusesLoop_pending :
    (repeatRefusal (statesAfter plainHost {} (List.replicate 3 pending)) status).isSome = true ∧
      RefusesLoop plainHost {} (List.replicate 3 pending) status := by
  refine ⟨by decide +kernel, refusesLoop_of_legible spell_injective _ _ (by decide) ?_⟩
  intro first listed second listed' _
  rw [List.eq_of_mem_replicate (List.mem_filter.mp listed).1, List.eq_of_mem_replicate (List.mem_filter.mp listed').1]

/-- Three answers of half a pair are refused as one, though their texts differ. -/
theorem half_pairs_refused : ¬ ∀ (host : SupervisorHost) (config : SupervisorConfig),
    Function.Injective host.sha1Hex → ∀ history call, RefusesLoop host config history call := by
  intro all
  have refuses := all plainHost {} spell_injective [answer [55358], answer [55357], answer [55356]] status
  obtain ⟨-, text, same⟩ := refuses.loop (by decide +kernel)
  have calls : beforeTrip plainHost {} [answer [55358], answer [55357], answer [55356]] status.name =
      [answer [55358], answer [55357], answer [55356]] := by
    rw [beforeTrip, show ownCalls status.name [answer [55358], answer [55357], answer [55356]] = [_, _, _] from rfl,
      untilTrip_untripped (by decide +kernel)]
    rfl
  rw [calls] at same
  have first := (same (answer [55358]) List.mem_cons_self).2.1
  have second := (same (answer [55357]) (List.mem_cons_of_mem _ List.mem_cons_self)).2.1
  exact absurd (first.trans second.symm) (by decide)

end NimbleBrain.Engine.Supervisor
