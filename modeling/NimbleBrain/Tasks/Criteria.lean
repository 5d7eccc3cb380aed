import NimbleBrain.Engine.JsonWrite
import Mathlib.Algebra.BigOperators.Group.Finset.Piecewise
import Mathlib.Algebra.Order.BigOperators.Group.Finset
import Mathlib.Data.List.Duplicate
import Mathlib.Tactic.Linarith

/- A criterion is decided by the probability that its judge gives to the answers that pass. -/

namespace NimbleBrain.Tasks.Criteria

open Engine Library

/-- What a field of a criterion may hold. -/
inductive Value where
  | bool (value : Bool)
  | number (value : ℚ)
  | text (value : Utf16)
  | list (items : List Value)
  | other

structure Criterion where
  id : Option Value := none
  rule : Option Value := none
  type : Option Value := none
  levels : Option Value := none
  options : Option Value := none
  pass : Option Value := none

inductive CriterionType where
  | boolean | score | choice
  deriving DecidableEq

def typeName : CriterionType → Utf16
  | .boolean => Utf16.ofString "boolean"
  | .score => Utf16.ofString "score"
  | .choice => Utf16.ofString "choice"

def isType (criterion : Criterion) (kind : CriterionType) : Bool :=
  match criterion.type with
  | some (.text name) => name = typeName kind
  | _ => false

/-- The texts of a list that holds nothing else. -/
def stringList? : Option Value → Option (List Utf16)
  | some (.list items) => items.mapM fun item => match item with | .text value => some value | _ => none
  | _ => none

def maxCriteria : Nat := 50
def maxRuleChars : Nat := 4000
def minLevels : Nat := 2
def maxLevels : Nat := 10
def minOptions : Nat := 2
def maxOptions : Nat := 255

def isIdUnit (unit : UInt16) : Bool :=
  65 ≤ unit.toNat && unit.toNat ≤ 90 || 97 ≤ unit.toNat && unit.toNat ≤ 122 ||
    48 ≤ unit.toNat && unit.toNat ≤ 57 || unit = 95 || unit = 46 || unit = 45

def isCriterionId (id : Utf16) : Bool := 1 ≤ id.length && id.length ≤ 64 && id.all isIdUnit

def message (at_ : Utf16) (text : String) : Utf16 := at_ ++ Utf16.ofString text

def validateBooleanCriterion (criterion : Criterion) (at_ : Utf16) : Except Utf16 Unit :=
  match criterion.pass with
  | none => .ok ()
  | some (.bool _) => .ok ()
  | some _ => .error (message at_ ".pass must be true or false for a boolean criterion")

def validateScoreCriterion (criterion : Criterion) (at_ : Utf16) : Except Utf16 Unit :=
  match stringList? criterion.levels with
  | none => .error (message at_ ".levels must list 2 to 10 levels, lowest first")
  | some levels =>
      if levels.length < minLevels ∨ maxLevels < levels.length then
        .error (message at_ ".levels must list 2 to 10 levels, lowest first")
      else
        match criterion.pass with
        | none => .ok ()
        | some (.number pass) =>
            if pass.den = 1 ∧ 0 ≤ pass ∧ pass < levels.length then .ok ()
            else .error (passMessage levels)
        | some _ => .error (passMessage levels)
where
  passMessage (levels : List Utf16) : Utf16 :=
    message at_ ".pass must be a level index from 0 to " ++ decimal (levels.length - 1) ++
      Utf16.ofString " for this score criterion"

/-- The options that pass: one, or a list of them. -/
def passList? : Option Value → Option (List Utf16)
  | some (.text option) => some [option]
  | pass => stringList? pass

def validateChoiceCriterion (criterion : Criterion) (at_ : Utf16) : Except Utf16 Unit :=
  match stringList? criterion.options with
  | none => .error (message at_ ".options must list 2 to 255 options")
  | some options =>
      if options.length < minOptions ∨ maxOptions < options.length then
        .error (message at_ ".options must list 2 to 255 options")
      else if options.dedup.length ≠ options.length then .error (message at_ ".options must be distinct")
      else
        match passList? criterion.pass with
        | none => .error required
        | some pass =>
            if pass = [] then .error required
            else
              match pass.find? fun option => option ∉ options with
              | some unknown =>
                  .error (message at_ ".pass names \"" ++ unknown ++
                    Utf16.ofString "\", which is not one of its options")
              | none => .ok ()
where
  required : Utf16 :=
    message at_ ".pass is required for a choice criterion: the option or options that pass"

def validateCriterionShape (criterion : Criterion) (at_ : Utf16) : Except Utf16 Unit :=
  if isType criterion .score = false ∧ criterion.levels.isSome then
    .error (message at_ ".levels is only for a score criterion")
  else if isType criterion .choice = false ∧ criterion.options.isSome then
    .error (message at_ ".options is only for a choice criterion")
  else if isType criterion .boolean then validateBooleanCriterion criterion at_
  else if isType criterion .score then validateScoreCriterion criterion at_
  else if isType criterion .choice then validateChoiceCriterion criterion at_
  else .error (message at_ ".type must be \"boolean\", \"score\", or \"choice\"")

def isRule : Option Value → Bool
  | some (.text rule) => 1 ≤ rule.length && rule.length ≤ maxRuleChars
  | _ => false

/-- The criteria from the place on, behind those whose ids were seen. -/
def validateFrom : Nat → List Utf16 → List Criterion → Except Utf16 Unit
  | _, _, [] => .ok ()
  | index, seen, criterion :: rest =>
      let at_ := Utf16.ofString "criteria[" ++ decimal index ++ Utf16.ofString "]"
      match criterion.id with
      | some (.text id) =>
          if isCriterionId id = false then .error (message at_ ".id must be 1 to 64 of A-Z a-z 0-9 _ . -")
          else if id ∈ seen then
            .error (message at_ ".id \"" ++ id ++ Utf16.ofString "\" is used twice; ids must be unique")
          else if isRule criterion.rule = false then .error (message at_ ".rule must be 1 to 4000 characters")
          else
            match validateCriterionShape criterion at_ with
            | .error text => .error text
            | .ok () => validateFrom (index + 1) (id :: seen) rest
      | _ => .error (message at_ ".id must be 1 to 64 of A-Z a-z 0-9 _ . -")

def validateCriteria (criteria : List Criterion) : Except Utf16 Unit :=
  if criteria.length < 1 ∨ maxCriteria < criteria.length then
    .error (Utf16.ofString "criteria must list 1 to 50 criteria")
  else validateFrom 0 [] criteria

/-- What an object has of its own. -/
abbrev Probabilities := OrderedMap Utf16 ℚ

structure JudgeAnswer where
  answer : Value
  probabilities : Option Probabilities := none

/-- The properties that every object inherits. None of them is a number. -/
def inheritedNames : List Utf16 :=
  ["constructor", "__defineGetter__", "__defineSetter__", "hasOwnProperty", "__lookupGetter__", "__lookupSetter__",
    "isPrototypeOf", "propertyIsEnumerable", "toString", "valueOf", "__proto__", "toLocaleString"].map Utf16.ofString

/-- A sum that met something else than a number is a text, and no text of this kind is a number. -/
inductive Mass where
  | number (value : ℚ)
  | text

/-- `sum + (probabilities[key] ?? 0)`. -/
def Mass.add (probabilities : Probabilities) (sum : Mass) (key : Utf16) : Mass :=
  match sum, probabilities.get? key with
  | .text, _ => .text
  | .number value, some probability => .number (value + probability)
  | .number value, none => if key ∈ inheritedNames then .text else .number value

def Mass.atLeastHalf : Mass → Bool
  | .number value => 1 / 2 ≤ value
  | .text => false

def massOn (probabilities : Option Probabilities) (passing allKeys : List Utf16) : Option Mass :=
  match probabilities with
  | none => none
  | some probabilities =>
      if allKeys.any fun key => (probabilities.get? key).isSome then
        some (passing.foldl (Mass.add probabilities) (.number 0))
      else none

def defaultScorePass (levels : Nat) : Nat := levels / 2

def decideBoolean (criterion : Criterion) (a : JudgeAnswer) : Option Bool :=
  match a.answer with
  | .bool answer =>
      let expected := match criterion.pass with | some (.bool pass) => pass | _ => true
      some (answer = expected)
  | _ => none

def levelCount (criterion : Criterion) : Nat := ((stringList? criterion.levels).map List.length).getD 0

/-- An index that was accepted is a natural number. -/
def passLevel (criterion : Criterion) : Nat :=
  match criterion.pass with
  | some (.number pass) => pass.num.toNat
  | _ => defaultScorePass (levelCount criterion)

def decideScore (criterion : Criterion) (a : JudgeAnswer) : Option Bool :=
  let n := levelCount criterion
  match a.answer with
  | .number answer =>
      if answer.den ≠ 1 ∨ answer < 0 ∨ n ≤ answer then none
      else
        let pass := passLevel criterion
        let keys := (List.range (n - pass)).map fun i => decimal (pass + i)
        let levels := (List.range n).map decimal
        match massOn a.probabilities keys levels with
        | some mass => some mass.atLeastHalf
        | none => some (pass ≤ answer)
  | _ => none

def optionsOf (criterion : Criterion) : List Utf16 := (stringList? criterion.options).getD []

def passingOptions (criterion : Criterion) : List Utf16 := (passList? criterion.pass).getD []

def decideChoice (criterion : Criterion) (a : JudgeAnswer) : Option Bool :=
  match a.answer with
  | .text answer =>
      if answer ∈ optionsOf criterion then
        match massOn a.probabilities (passingOptions criterion) (optionsOf criterion) with
        | some mass => some mass.atLeastHalf
        | none => some (answer ∈ passingOptions criterion)
      else none
  | _ => none

def decideCriterion (criterion : Criterion) (a : JudgeAnswer) : Option Bool :=
  if isType criterion .boolean then decideBoolean criterion a
  else if isType criterion .score then decideScore criterion a
  else decideChoice criterion a

end NimbleBrain.Tasks.Criteria

/- The script adds up a list of answers. Its sum is the probability of the set, unless an answer is counted twice. -/

namespace NimbleBrain.Tasks.Criteria

open Engine Library
open scoped BigOperators

/-- What a choice criterion is read as. -/
structure IsChoice (criterion : Criterion) : Prop where
  type : isType criterion .choice = true
  other : isType criterion .boolean = false
  other' : isType criterion .score = false
  two : 2 ≤ (optionsOf criterion).length
  distinct : (optionsOf criterion).Nodup
  filled : passingOptions criterion ≠ []
  listed : ∀ option ∈ passingOptions criterion, option ∈ optionsOf criterion

/-- What a criterion that was accepted is: a type, and what it passes. -/
inductive Shape (criterion : Criterion) : Prop where
  | boolean (type : isType criterion .boolean = true)
      (pass : criterion.pass = none ∨ ∃ value, criterion.pass = some (.bool value))
  | score (type : isType criterion .score = true) (other : isType criterion .boolean = false)
      (two : 2 ≤ levelCount criterion) (pass : passLevel criterion < levelCount criterion)
  | choice (choice : IsChoice criterion)

variable {criterion : Criterion} {at_ key option apart twice : Utf16} {criteria : List Criterion}
  {options : List Utf16}

theorem isType_unique {kind other : CriterionType} (type : isType criterion kind = true)
    (type' : isType criterion other = true) : kind = other := by
  rw [isType] at type type'
  split at type
  · next name given =>
    simp only [given, decide_eq_true_eq] at type type'
    have names : typeName kind = typeName other := type.symm.trans type'
    revert names
    cases kind <;> cases other <;> decide
  · exact nomatch type

theorem natural_of_whole {answer : ℚ} (whole : answer.den = 1) (sign : 0 ≤ answer) :
    answer = (answer.num.toNat : ℚ) := by
  have natural := Rat.num_nonneg.mpr sign
  conv_lhs => rw [← Rat.coe_int_num_of_den_eq_one whole]
  rw [← Int.toNat_of_nonneg natural]
  rfl

theorem shape_of_boolean (type : isType criterion .boolean = true)
    (accepted : validateBooleanCriterion criterion at_ = .ok ()) : Shape criterion := by
  rw [validateBooleanCriterion] at accepted
  split at accepted
  · next absent => exact .boolean type (.inl absent)
  · next value given => exact .boolean type (.inr ⟨value, given⟩)
  · exact nomatch accepted

theorem shape_of_score (type : isType criterion .score = true) (other : isType criterion .boolean = false)
    (accepted : validateScoreCriterion criterion at_ = .ok ()) :
    Shape criterion := by
  rw [validateScoreCriterion] at accepted
  split at accepted
  · exact nomatch accepted
  · next levels listed =>
      have count : levelCount criterion = levels.length := by rw [levelCount, listed]; rfl
      split at accepted
      · exact nomatch accepted
      · next bounds =>
          have two : 2 ≤ levelCount criterion := by
            rw [count]
            exact Nat.not_lt.mp fun few => bounds (.inl few)
          refine .score type other two ?_
          split at accepted
          · next absent =>
              rw [passLevel, absent]
              exact Nat.div_lt_self (by omega) (by decide)
          · next pass given =>
              split at accepted
              · next whole =>
                  rw [passLevel, given, count]
                  dsimp only
                  have below := whole.2.2
                  rw [natural_of_whole whole.1 whole.2.1] at below
                  exact_mod_cast below
              · exact nomatch accepted
          · exact nomatch accepted

theorem shape_of_choice (type : isType criterion .choice = true) (other : isType criterion .boolean = false)
    (other' : isType criterion .score = false) (accepted : validateChoiceCriterion criterion at_ = .ok ()) :
    Shape criterion := by
  rw [validateChoiceCriterion] at accepted
  split at accepted
  · cases accepted
  · next options listed =>
      have own : optionsOf criterion = options := by rw [optionsOf, listed]; rfl
      split at accepted
      · cases accepted
      · next bounds =>
          split at accepted
          · cases accepted
          · next distinct =>
              split at accepted
              · cases accepted
              · next pass given =>
                  have passing : passingOptions criterion = pass := by rw [passingOptions, given]; rfl
                  split at accepted
                  · cases accepted
                  · next filled =>
                      split at accepted
                      · cases accepted
                      · next known =>
                          refine .choice ⟨type, other, other', ?_, ?_, passing ▸ filled, ?_⟩
                          · rw [own]
                            exact Nat.not_lt.mp fun few => bounds (.inl few)
                          · rw [own, ← List.dedup_eq_self]
                            exact (List.dedup_sublist options).eq_of_length (not_not.mp distinct)
                          · rw [own, passing]
                            intro option member
                            simpa using List.find?_eq_none.mp known option member

theorem shape_of_accepted (accepted : validateCriterionShape criterion at_ = .ok ()) : Shape criterion := by
  rw [validateCriterionShape] at accepted
  split at accepted
  · exact nomatch accepted
  · split at accepted
    · exact nomatch accepted
    · split at accepted
      · next type => exact shape_of_boolean type accepted
      · next other =>
          rw [Bool.not_eq_true] at other
          split at accepted
          · next type => exact shape_of_score type other accepted
          · next other' =>
              rw [Bool.not_eq_true] at other'
              split at accepted
              · next type => exact shape_of_choice type other other' accepted
              · exact nomatch accepted

theorem shape_of_validateFrom {index : Nat} {seen : List Utf16}
    (accepted : validateFrom index seen criteria = .ok ()) : ∀ criterion ∈ criteria, Shape criterion := by
  induction criteria generalizing index seen with
  | nil => exact nofun
  | cons criterion rest ih =>
      rw [validateFrom] at accepted
      split at accepted
      · split at accepted
        · exact nomatch accepted
        · split at accepted
          · exact nomatch accepted
          · split at accepted
            · exact nomatch accepted
            · split at accepted
              · exact nomatch accepted
              · next shaped =>
                  exact List.forall_mem_cons.mpr ⟨shape_of_accepted shaped, ih accepted⟩
      · exact nomatch accepted

/-- Every criterion of an accepted list has its shape. -/
theorem shape_of_validateCriteria (accepted : validateCriteria criteria = .ok ()) (listed : criterion ∈ criteria) :
    Shape criterion := by
  rw [validateCriteria] at accepted
  split at accepted
  · exact nomatch accepted
  · exact shape_of_validateFrom accepted criterion listed

/-- The probabilities are those of the answers that the criterion has. -/
structure Distribution (keys : List Utf16) (probabilities : Probabilities) : Prop where
  own : ∀ entry ∈ probabilities.entries, entry.1 ∈ keys
  nonneg : ∀ entry ∈ probabilities.entries, 0 ≤ entry.2
  total : probabilities.values.sum = 1

def chance (probabilities : Probabilities) (key : Utf16) : ℚ := (probabilities.get? key).getD 0

def massOf (probabilities : Probabilities) (keys : List Utf16) : ℚ :=
  ∑ key ∈ keys.toFinset, chance probabilities key

variable {keys passing : List Utf16} {probabilities : Probabilities}

theorem Distribution.chance_nonneg (distribution : Distribution keys probabilities) (key : Utf16) :
    0 ≤ chance probabilities key := by
  rw [chance]
  cases found : probabilities.get? key with
  | none => exact le_rfl
  | some value => exact distribution.nonneg _ (OrderedMap.get?_eq_some_iff.mp found)

/-- All the answers together are certain. -/
theorem Distribution.massOf_all (distribution : Distribution keys probabilities) : massOf probabilities keys = 1 := by
  have entries : ∑ key ∈ (probabilities.entries.map Prod.fst).toFinset, chance probabilities key =
      probabilities.values.sum := by
    rw [List.sum_toFinset _ probabilities.distinct, List.map_map, OrderedMap.values]
    congr 1
    apply List.map_congr_left
    intro entry member
    have found : probabilities.get? entry.1 = some entry.2 := OrderedMap.get?_eq_some_iff.mpr member
    rw [Function.comp_apply, chance, found, Option.getD_some]
  rw [massOf, ← distribution.total, ← entries]
  symm
  apply Finset.sum_subset
  · intro key member
    obtain ⟨entry, listed, rfl⟩ := List.mem_map.mp (List.mem_toFinset.mp member)
    exact List.mem_toFinset.mpr (distribution.own entry listed)
  · intro key _ absent
    rw [List.mem_toFinset, ← OrderedMap.isSome_get?_iff, Bool.not_eq_true, Option.isSome_eq_false_iff,
      Option.isNone_iff_eq_none] at absent
    rw [chance, absent, Option.getD_none]

theorem massOf_mono (distribution : Distribution keys probabilities) {more : List Utf16} (subset : passing ⊆ more) :
    massOf probabilities passing ≤ massOf probabilities more := by
  apply Finset.sum_le_sum_of_subset_of_nonneg
  · exact fun key member => List.mem_toFinset.mpr (subset (List.mem_toFinset.mp member))
  · exact fun key _ _ => distribution.chance_nonneg key

/-- A distribution gives a number to one of the answers. -/
theorem Distribution.some_own (distribution : Distribution keys probabilities) :
    (keys.any fun key => (probabilities.get? key).isSome) = true := by
  cases filled : probabilities.entries with
  | nil =>
      have total := distribution.total
      rw [OrderedMap.values, filled] at total
      exact absurd total (by decide)
  | cons entry rest =>
      have member : entry ∈ probabilities.entries := filled ▸ List.mem_cons_self
      refine List.any_eq_true.mpr ⟨entry.1, distribution.own entry member, ?_⟩
      exact OrderedMap.isSome_get?_iff.mpr (List.mem_map_of_mem member)

/-- The script adds what is there, and a name that every object inherits spoils the sum. -/
def Spoiled (probabilities : Probabilities) (key : Utf16) : Prop :=
  probabilities.get? key = none ∧ key ∈ inheritedNames

theorem foldl_add_text (passing : List Utf16) : passing.foldl (Mass.add probabilities) .text = .text := by
  induction passing with
  | nil => rfl
  | cons key rest ih => exact ih

theorem add_clear (clear : ¬ Spoiled probabilities key) (value : ℚ) :
    Mass.add probabilities (.number value) key = .number (value + chance probabilities key) := by
  cases found : probabilities.get? key with
  | none =>
      have other : key ∉ inheritedNames := fun name => clear ⟨found, name⟩
      simp only [Mass.add, chance, found, if_neg other, Option.getD_none, add_zero]
  | some probability => simp only [Mass.add, chance, found, Option.getD_some]

theorem add_spoiled (spoiled : Spoiled probabilities key) (value : ℚ) :
    Mass.add probabilities (.number value) key = .text := by
  simp only [Mass.add, spoiled.1, if_pos spoiled.2]

theorem foldl_add_number (clear : ∀ key ∈ passing, ¬ Spoiled probabilities key) (value : ℚ) :
    passing.foldl (Mass.add probabilities) (.number value) =
      .number (value + (passing.map (chance probabilities)).sum) := by
  induction passing generalizing value with
  | nil => rw [List.foldl_nil, List.map_nil, List.sum_nil, add_zero]
  | cons key rest ih =>
      obtain ⟨own, later⟩ := List.forall_mem_cons.mp clear
      rw [List.foldl_cons, add_clear own, ih later, List.map_cons, List.sum_cons, add_assoc]

theorem foldl_add_spoiled (listed : key ∈ passing) (spoiled : Spoiled probabilities key) (value : ℚ) :
    passing.foldl (Mass.add probabilities) (.number value) = .text := by
  induction passing generalizing value with
  | nil => exact nomatch listed
  | cons first rest ih =>
      rw [List.foldl_cons]
      rcases List.mem_cons.mp listed with rfl | later
      · rw [add_spoiled spoiled, foldl_add_text]
      · cases step : Mass.add probabilities (.number value) first with
        | text => exact foldl_add_text rest
        | number sum => exact ih later sum

/-- The answers that a criterion has, as the judge names them. -/
def keysOf (criterion : Criterion) : List Utf16 :=
  if isType criterion .boolean then []
  else if isType criterion .score then (List.range (levelCount criterion)).map decimal
  else optionsOf criterion

/-- The answers that pass. -/
def passingKeys (criterion : Criterion) : List Utf16 :=
  if isType criterion .score then
    (List.range (levelCount criterion - passLevel criterion)).map fun i => decimal (passLevel criterion + i)
  else passingOptions criterion

def expected (criterion : Criterion) : Bool := match criterion.pass with | some (.bool pass) => pass | _ => true

/-- The answer is one that the criterion has. -/
def Possible (criterion : Criterion) (answer : Value) : Prop :=
  if isType criterion .boolean then ∃ value, answer = .bool value
  else if isType criterion .score then ∃ level : Nat, level < levelCount criterion ∧ answer = .number level
  else ∃ option ∈ optionsOf criterion, answer = .text option

/-- The answer is one that passes. -/
def InPassing (criterion : Criterion) (answer : Value) : Prop :=
  if isType criterion .boolean then answer = .bool (expected criterion)
  else if isType criterion .score then ∃ level : Nat, passLevel criterion ≤ level ∧ answer = .number level
  else ∃ option ∈ passingOptions criterion, answer = .text option

/-- The answers that pass have half of the probability at least. Without probabilities the answer is one of them. -/
def Passes (criterion : Criterion) (a : JudgeAnswer) : Prop :=
  match a.probabilities with
  | some probabilities => 1 / 2 ≤ massOf probabilities (passingKeys criterion)
  | none => InPassing criterion a.answer

/-- The probabilities, if there are any, are those of the answers. -/
def Fits (criterion : Criterion) (a : JudgeAnswer) : Prop :=
  ∀ probabilities ∈ a.probabilities, Distribution (keysOf criterion) probabilities

/-- A possible answer is decided by the probability of what passes, and another one is not decided. -/
def Decides (criterion : Criterion) : Prop :=
  ∀ a, Fits criterion a →
    (decideCriterion criterion a = some true ↔ Possible criterion a.answer ∧ Passes criterion a) ∧
      (decideCriterion criterion a = none ↔ ¬ Possible criterion a.answer)

/-- The other criterion has the same answers, and passes on more of them. -/
structure Enlarges (criterion other : Criterion) : Prop where
  type : ∀ kind, isType other kind = isType criterion kind
  levels : levelCount other = levelCount criterion
  options : optionsOf other = optionsOf criterion
  pass : passLevel other ≤ passLevel criterion
  passing : passingOptions criterion ⊆ passingOptions other
  expected : expected other = expected criterion

/-- No option passes twice, unless all of them pass, and none that bears an inherited name passes beside another. -/
def PassesOnce (criterion : Criterion) : Prop :=
  isType criterion .choice = true →
    ((passingOptions criterion).Nodup ∨ optionsOf criterion ⊆ passingOptions criterion) ∧
      ∀ option ∈ passingOptions criterion, option ∈ inheritedNames →
        ∀ other ∈ passingOptions criterion, other = option

/-- More passing answers never turn a pass into a failure. -/
def Monotone (criterion : Criterion) : Prop :=
  ∀ criteria other, validateCriteria criteria = .ok () → other ∈ criteria → PassesOnce other →
    Enlarges criterion other → ∀ a, Fits criterion a →
      decideCriterion criterion a = some true → decideCriterion other a = some true

variable {other : Criterion} {a : JudgeAnswer}

theorem decimal_injective : Function.Injective decimal := by
  intro first second same
  rw [← digitsValue_decimal first, same, digitsValue_decimal]

theorem decimal_not_inherited (value : Nat) : decimal value ∉ inheritedNames := by
  have lettered : ∀ name ∈ inheritedNames, name.all isDigit = false := by decide +kernel
  intro member
  have digits := List.all_eq_true.mpr (isDigit_decimal value)
  rw [lettered _ member] at digits
  exact nomatch digits

theorem massOn_number (distribution : Distribution keys probabilities)
    (clear : ∀ key ∈ passing, ¬ Spoiled probabilities key) :
    massOn (some probabilities) passing keys = some (.number (passing.map (chance probabilities)).sum) := by
  rw [massOn, if_pos distribution.some_own, foldl_add_number clear, zero_add]

theorem massOn_spoiled (distribution : Distribution keys probabilities) (listed : key ∈ passing)
    (spoiled : Spoiled probabilities key) : massOn (some probabilities) passing keys = some .text := by
  rw [massOn, if_pos distribution.some_own, foldl_add_spoiled listed spoiled]

theorem sum_of_nodup (distinct : passing.Nodup) :
    (passing.map (chance probabilities)).sum = massOf probabilities passing :=
  (List.sum_toFinset _ distinct).symm

/-- What is counted twice only adds to the sum. -/
theorem massOf_le_sum (distribution : Distribution keys probabilities) (passing : List Utf16) :
    massOf probabilities passing ≤ (passing.map (chance probabilities)).sum := by
  have once : massOf probabilities passing = (passing.dedup.map (chance probabilities)).sum := by
    have same : passing.dedup.toFinset = passing.toFinset := Finset.ext fun key => by simp
    rw [sum_of_nodup (List.nodup_dedup passing), massOf, massOf, same]
  rw [once]
  refine ((List.dedup_sublist passing).map _).sum_le_sum fun value member => ?_
  obtain ⟨key, -, rfl⟩ := List.mem_map.mp member
  exact distribution.chance_nonneg key

theorem decideScore_level {level : Nat} (possible : level < levelCount criterion) (answer : a.answer = .number level) :
    decideScore criterion a =
      match massOn a.probabilities
          ((List.range (levelCount criterion - passLevel criterion)).map fun i => decimal (passLevel criterion + i))
          ((List.range (levelCount criterion)).map decimal) with
      | some mass => some mass.atLeastHalf
      | none => some (passLevel criterion ≤ (level : ℚ)) := by
  have inside : ¬ ((level : ℚ).den ≠ 1 ∨ (level : ℚ) < 0 ∨ (levelCount criterion : ℚ) ≤ level) := by
    rintro (whole | negative | large)
    · exact whole (Rat.den_natCast level)
    · exact absurd negative (not_lt.mpr (Nat.cast_nonneg level))
    · exact absurd (Nat.cast_le.mp large) (by omega)
  rw [decideScore, answer]
  exact if_neg inside

theorem decideScore_none (impossible : ¬ ∃ level : Nat, level < levelCount criterion ∧ a.answer = .number level) :
    decideScore criterion a = none := by
  rw [decideScore]
  split
  · next answer given =>
      rw [if_pos]
      by_contra inside
      simp only [not_or, not_not, not_lt, not_le] at inside
      have same := natural_of_whole inside.1 inside.2.1
      refine impossible ⟨answer.num.toNat, ?_, given.trans (congrArg Value.number same)⟩
      have below := inside.2.2
      rw [same] at below
      exact_mod_cast below
  · rfl

theorem keysOf_score (type : isType criterion .score = true) (other : isType criterion .boolean = false) :
    keysOf criterion = (List.range (levelCount criterion)).map decimal ∧
      passingKeys criterion = (List.range (levelCount criterion - passLevel criterion)).map
        fun i => decimal (passLevel criterion + i) := by
  constructor
  · rw [keysOf, if_neg (by simp [other]), if_pos type]
  · rw [passingKeys, if_pos type]

theorem decides_score (type : isType criterion .score = true) (other : isType criterion .boolean = false) :
    Decides criterion := by
  intro a fits
  have decided : decideCriterion criterion a = decideScore criterion a := by
    rw [decideCriterion, if_neg (by simp [other]), if_pos type]
  have possible : Possible criterion a.answer ↔
      ∃ level : Nat, level < levelCount criterion ∧ a.answer = .number level := by
    rw [Possible, if_neg (by simp [other]), if_pos type]
  rw [decided, possible]
  by_cases has : ∃ level : Nat, level < levelCount criterion ∧ a.answer = .number level
  · obtain ⟨level, below, answer⟩ := has
    rw [decideScore_level below answer, Passes]
    cases given : a.probabilities with
    | none =>
        have inPassing : InPassing criterion a.answer ↔ passLevel criterion ≤ level := by
          rw [InPassing, if_neg (by simp [other]), if_pos type, answer]
          constructor
          · rintro ⟨level', most, same⟩
            rwa [Nat.cast_injective (Value.number.inj same)]
          · exact fun most => ⟨level, most, rfl⟩
        refine ⟨?_, iff_of_false nofun (not_not.mpr ⟨level, below, answer⟩)⟩
        simp only [massOn, Option.some.injEq, decide_eq_true_eq, inPassing, Nat.cast_le]
        exact ⟨fun most => ⟨⟨level, below, answer⟩, most⟩, fun both => both.2⟩
    | some probabilities =>
        obtain ⟨keys, passing⟩ := keysOf_score type other
        have distribution := fits probabilities given
        rw [keys] at distribution
        have clear : ∀ key ∈ (List.range (levelCount criterion - passLevel criterion)).map
            fun i => decimal (passLevel criterion + i), ¬ Spoiled probabilities key := by
          rintro key member ⟨-, name⟩
          obtain ⟨i, -, rfl⟩ := List.mem_map.mp member
          exact decimal_not_inherited _ name
        have distinct : ((List.range (levelCount criterion - passLevel criterion)).map
            fun i => decimal (passLevel criterion + i)).Nodup := by
          refine List.nodup_range.map fun first second same => ?_
          exact Nat.add_left_cancel (decimal_injective same)
        refine ⟨?_, iff_of_false (by rw [massOn_number distribution clear]; exact nofun)
          (not_not.mpr ⟨level, below, answer⟩)⟩
        rw [massOn_number distribution clear, sum_of_nodup distinct, passing]
        simp only [Mass.atLeastHalf, Option.some.injEq, decide_eq_true_eq]
        exact ⟨fun most => ⟨⟨level, below, answer⟩, most⟩, fun both => both.2⟩
  · rw [decideScore_none has]
    exact ⟨iff_of_false nofun fun both => has both.1, iff_of_true rfl has⟩

theorem decides_boolean (type : isType criterion .boolean = true) : Decides criterion := by
  intro a fits
  have none : a.probabilities = none := by
    cases given : a.probabilities with
    | none => rfl
    | some probabilities =>
        have distribution := fits probabilities given
        rw [keysOf, if_pos type] at distribution
        exact absurd distribution.some_own Bool.false_ne_true
  rw [decideCriterion, if_pos type, Possible, if_pos type, Passes, none]
  dsimp only
  rw [InPassing, if_pos type, decideBoolean]
  cases a.answer with
  | bool value =>
      refine ⟨?_, iff_of_false nofun (not_not.mpr ⟨value, rfl⟩)⟩
      simp only [Option.some.injEq, decide_eq_true_eq, Value.bool.injEq, exists_eq', true_and]
      rfl
  | number | text | list | other =>
      refine ⟨iff_of_false nofun ?_, iff_of_true rfl ?_⟩
      · exact fun both => nomatch both.1
      · exact nofun

theorem decideChoice_option (possible : option ∈ optionsOf criterion) (answer : a.answer = .text option) :
    decideChoice criterion a =
      match massOn a.probabilities (passingOptions criterion) (optionsOf criterion) with
      | some mass => some mass.atLeastHalf
      | none => some (decide (option ∈ passingOptions criterion)) := by
  rw [decideChoice, answer]
  exact if_pos possible

theorem decideChoice_none (impossible : ¬ ∃ option ∈ optionsOf criterion, a.answer = .text option) :
    decideChoice criterion a = none := by
  rw [decideChoice]
  split
  · next option given => exact if_neg fun possible => impossible ⟨option, possible, given⟩
  · rfl

theorem IsChoice.names (choice : IsChoice criterion) :
    keysOf criterion = optionsOf criterion ∧ passingKeys criterion = passingOptions criterion := by
  rw [keysOf, if_neg (by simp [choice.other]), if_neg (by simp [choice.other']), passingKeys,
    if_neg (by simp [choice.other'])]
  exact ⟨rfl, rfl⟩

theorem IsChoice.possible (choice : IsChoice criterion) (answer : Value) :
    Possible criterion answer ↔ ∃ option ∈ optionsOf criterion, answer = .text option := by
  rw [Possible, if_neg (by simp [choice.other]), if_neg (by simp [choice.other'])]

theorem IsChoice.decided (choice : IsChoice criterion) (a : JudgeAnswer) :
    decideCriterion criterion a = decideChoice criterion a := by
  rw [decideCriterion, if_neg (by simp [choice.other]), if_neg (by simp [choice.other'])]

/-- The sum of the script says what the probability of the set says. -/
theorem IsChoice.halves (choice : IsChoice criterion) (once : PassesOnce criterion)
    (distribution : Distribution (optionsOf criterion) probabilities) :
    ∃ mass, massOn (some probabilities) (passingOptions criterion) (optionsOf criterion) = some mass ∧
      (mass.atLeastHalf = true ↔ 1 / 2 ≤ massOf probabilities (passingOptions criterion)) := by
  obtain ⟨single, alone⟩ := once choice.type
  by_cases spoiled : ∃ key ∈ passingOptions criterion, Spoiled probabilities key
  · obtain ⟨key, listed, absent, name⟩ := spoiled
    refine ⟨.text, massOn_spoiled distribution listed ⟨absent, name⟩, iff_of_false nofun ?_⟩
    have nothing : massOf probabilities (passingOptions criterion) = 0 := by
      apply Finset.sum_eq_zero
      intro other member
      rw [alone key listed name other (List.mem_toFinset.mp member), chance, absent, Option.getD_none]
    rw [nothing]
    norm_num
  · simp only [not_exists, not_and] at spoiled
    refine ⟨_, massOn_number distribution spoiled, ?_⟩
    rw [Mass.atLeastHalf, decide_eq_true_eq]
    rcases single with distinct | all
    · rw [sum_of_nodup distinct]
    · have certain : 1 ≤ massOf probabilities (passingOptions criterion) :=
        distribution.massOf_all ▸ massOf_mono distribution all
      have more := massOf_le_sum distribution (passingOptions criterion)
      constructor
      · intro
        linarith
      · intro
        linarith

theorem IsChoice.decides (choice : IsChoice criterion) (once : PassesOnce criterion) : Decides criterion := by
  intro a fits
  rw [choice.decided, choice.possible]
  by_cases has : ∃ option ∈ optionsOf criterion, a.answer = .text option
  · obtain ⟨option, member, answer⟩ := has
    rw [decideChoice_option member answer, Passes]
    cases given : a.probabilities with
    | none =>
        refine ⟨?_, iff_of_false nofun (not_not.mpr ⟨option, member, answer⟩)⟩
        have inPassing : InPassing criterion a.answer ↔ option ∈ passingOptions criterion := by
          rw [InPassing, if_neg (by simp [choice.other]), if_neg (by simp [choice.other']), answer]
          constructor
          · rintro ⟨option', listed, same⟩
            rwa [Value.text.inj same]
          · exact fun listed => ⟨option, listed, rfl⟩
        simp only [massOn, Option.some.injEq, decide_eq_true_eq, inPassing]
        exact ⟨fun listed => ⟨⟨option, member, answer⟩, listed⟩, fun both => both.2⟩
    | some probabilities =>
        have distribution := fits probabilities given
        rw [choice.names.1] at distribution
        obtain ⟨mass, found, half⟩ := choice.halves once distribution
        rw [found]
        refine ⟨?_, iff_of_false nofun (not_not.mpr ⟨option, member, answer⟩)⟩
        simp only [Option.some.injEq, half, choice.names.2]
        exact ⟨fun most => ⟨⟨option, member, answer⟩, most⟩, fun both => both.2⟩
  · rw [decideChoice_none has]
    exact ⟨iff_of_false nofun fun both => has both.1, iff_of_true rfl has⟩

/-- The probability of two options, when one of them passes twice and the other does not pass. -/
def twoOptions (options : List Utf16) (distinct : options.Nodup) (twice apart : Utf16) : Probabilities where
  entries := options.map fun key => (key, (if key = twice then 1 / 4 else 0) + if key = apart then 3 / 4 else 0)
  distinct := by rwa [List.map_map, show Prod.fst ∘ _ = id from rfl, List.map_id]

theorem twoOptions_get? {distinct : options.Nodup} (member : key ∈ options) :
    (twoOptions options distinct twice apart).get? key =
      some ((if key = twice then 1 / 4 else 0) + if key = apart then 3 / 4 else 0) :=
  OrderedMap.get?_eq_some_iff.mpr (List.mem_map.mpr ⟨key, member, rfl⟩)

theorem sum_ite_toFinset (share : ℚ) (member : key ∈ options) :
    ∑ other ∈ options.toFinset, (if other = key then share else 0) = share := by
  rw [Finset.sum_ite_eq', if_pos (List.mem_toFinset.mpr member)]

theorem twoOptions_distribution (distinct : options.Nodup) (member : twice ∈ options) (member' : apart ∈ options) :
    Distribution options (twoOptions options distinct twice apart) where
  own := by
    intro entry listed
    obtain ⟨key, inside, rfl⟩ := List.mem_map.mp listed
    exact inside
  nonneg := by
    intro entry listed
    obtain ⟨key, -, rfl⟩ := List.mem_map.mp listed
    dsimp only
    split_ifs <;> norm_num
  total := by
    have shares : (twoOptions options distinct twice apart).values = options.map fun key =>
        (if key = twice then (1 / 4 : ℚ) else 0) + if key = apart then 3 / 4 else 0 := by
      rw [OrderedMap.values, twoOptions, List.map_map]
      rfl
    rw [shares, ← List.sum_toFinset _ distinct, Finset.sum_add_distrib, sum_ite_toFinset _ member,
      sum_ite_toFinset _ member']
    norm_num

/-- An option that passes twice is counted twice. -/
theorem IsChoice.counted_twice (choice : IsChoice criterion) (decides : Decides criterion) :
    (passingOptions criterion).Nodup ∨ optionsOf criterion ⊆ passingOptions criterion := by
  by_contra neither
  rw [not_or] at neither
  obtain ⟨twice, duplicate⟩ := List.exists_duplicate_iff_not_nodup.mpr neither.1
  obtain ⟨apart, member', absent⟩ : ∃ apart ∈ optionsOf criterion, apart ∉ passingOptions criterion := by
    by_contra all
    simp only [not_exists, not_and, not_not] at all
    exact neither.2 all
  have listed := choice.listed twice duplicate.mem
  have distribution := twoOptions_distribution choice.distinct listed member'
  have chances : ∀ key ∈ passingOptions criterion, chance (twoOptions _ choice.distinct twice apart) key =
      if key = twice then 1 / 4 else 0 := by
    intro key passes
    have other : key ≠ apart := fun same => absent (same ▸ passes)
    rw [chance, twoOptions_get? (choice.listed key passes), Option.getD_some, if_neg other, add_zero]
  have clear : ∀ key ∈ passingOptions criterion, ¬ Spoiled (twoOptions _ choice.distinct twice apart) key := by
    rintro key passes ⟨missing, -⟩
    rw [twoOptions_get? (choice.listed key passes)] at missing
    exact nomatch missing
  have mass : massOf (twoOptions _ choice.distinct twice apart) (passingOptions criterion) = 1 / 4 := by
    rw [massOf, Finset.sum_congr rfl fun key passes => chances key (List.mem_toFinset.mp passes),
      sum_ite_toFinset _ duplicate.mem]
  have sum : 1 / 2 ≤ ((passingOptions criterion).map (chance (twoOptions _ choice.distinct twice apart))).sum := by
    have two := ((List.duplicate_iff_sublist.mp duplicate).map
      (chance (twoOptions _ choice.distinct twice apart))).sum_le_sum fun value member => by
        obtain ⟨key, -, rfl⟩ := List.mem_map.mp member
        exact distribution.chance_nonneg key
    rw [List.map_cons, List.map_singleton, List.sum_cons, List.sum_singleton, chances twice duplicate.mem,
      if_pos rfl] at two
    linarith
  have answered := decides ⟨.text apart, some (twoOptions _ choice.distinct twice apart)⟩ (by
    intro probabilities given
    rw [choice.names.1, ← Option.some.inj given]
    exact distribution)
  rw [choice.decided, decideChoice_option member' rfl, massOn_number distribution clear] at answered
  have passes := (answered.1.mp (congrArg some (decide_eq_true sum))).2
  rw [Passes] at passes
  dsimp only at passes
  rw [choice.names.2, mass] at passes
  norm_num at passes

/-- An inherited name spoils the sum of the options beside it. -/
theorem IsChoice.spoiled (choice : IsChoice criterion) (decides : Decides criterion)
    (listed : option ∈ passingOptions criterion) (name : option ∈ inheritedNames) {other : Utf16}
    (listed' : other ∈ passingOptions criterion) : other = option := by
  by_contra different
  have certain : Distribution (optionsOf criterion) ((∅ : Probabilities).set other 1) := by
    refine ⟨?_, ?_, List.sum_singleton⟩
    · rintro entry member
      obtain rfl : entry = (other, 1) := List.mem_singleton.mp member
      exact choice.listed other listed'
    · rintro entry member
      obtain rfl : entry = (other, 1) := List.mem_singleton.mp member
      norm_num
  have missing : ((∅ : Probabilities).set other 1).get? option = none := by
    rw [OrderedMap.get?_set, if_neg (Ne.symm different), OrderedMap.get?_empty]
  have answered := decides ⟨.text other, some ((∅ : Probabilities).set other 1)⟩ (by
    intro probabilities given
    rw [choice.names.1, ← Option.some.inj given]
    exact certain)
  rw [choice.decided, decideChoice_option (choice.listed other listed') rfl,
    massOn_spoiled certain listed ⟨missing, name⟩, choice.possible] at answered
  have mass : 1 / 2 ≤ massOf ((∅ : Probabilities).set other 1) (passingOptions criterion) := by
    have single : chance ((∅ : Probabilities).set other 1) other = 1 := by
      rw [chance, OrderedMap.get?_set_self, Option.getD_some]
    have least := Finset.single_le_sum (fun key _ => certain.chance_nonneg key) (List.mem_toFinset.mpr listed')
    rw [single] at least
    rw [massOf]
    linarith
  have passes : Passes criterion ⟨.text other, some ((∅ : Probabilities).set other 1)⟩ := by
    rw [Passes]
    dsimp only
    rwa [choice.names.2]
  exact nomatch answered.1.mpr ⟨⟨other, choice.listed other listed', rfl⟩, passes⟩

theorem Shape.decides (shape : Shape criterion) (once : PassesOnce criterion) : Decides criterion := by
  cases shape with
  | boolean type => exact decides_boolean type
  | score type other => exact decides_score type other
  | choice choice => exact choice.decides once

theorem Shape.passesOnce (shape : Shape criterion) (decides : Decides criterion) : PassesOnce criterion := by
  intro type
  cases shape with
  | boolean type' => exact nomatch isType_unique type type'
  | score type' => exact nomatch isType_unique type type'
  | choice choice =>
      exact ⟨choice.counted_twice decides, fun option listed name other => choice.spoiled decides listed name⟩

theorem Enlarges.keysOf (enlarges : Enlarges criterion other) : keysOf other = keysOf criterion := by
  rw [Criteria.keysOf, Criteria.keysOf, enlarges.type, enlarges.type, enlarges.levels, enlarges.options]

theorem Enlarges.possible (enlarges : Enlarges criterion other) (answer : Value) :
    Possible other answer ↔ Possible criterion answer := by
  rw [Possible, Possible, enlarges.type, enlarges.type, enlarges.levels, enlarges.options]

theorem Enlarges.passingKeys (enlarges : Enlarges criterion other) : passingKeys criterion ⊆ passingKeys other := by
  rw [Criteria.passingKeys, Criteria.passingKeys, enlarges.type, enlarges.levels]
  split
  · intro key member
    obtain ⟨i, inside, rfl⟩ := List.mem_map.mp member
    have lower := enlarges.pass
    have below := List.mem_range.mp inside
    refine List.mem_map.mpr ⟨passLevel criterion - passLevel other + i, List.mem_range.mpr (by omega), ?_⟩
    congr 1
    omega
  · exact enlarges.passing

theorem Enlarges.inPassing (enlarges : Enlarges criterion other) {answer : Value}
    (passes : InPassing criterion answer) : InPassing other answer := by
  rw [InPassing] at passes ⊢
  rw [enlarges.type, enlarges.type, enlarges.expected]
  split_ifs at passes ⊢
  · exact passes
  · obtain ⟨level, most, same⟩ := passes
    exact ⟨level, enlarges.pass.trans most, same⟩
  · obtain ⟨option, listed, same⟩ := passes
    exact ⟨option, enlarges.passing listed, same⟩

theorem Enlarges.passes (enlarges : Enlarges criterion other) (fits : Fits criterion a)
    (passes : Passes criterion a) : Passes other a := by
  rw [Passes] at passes ⊢
  cases given : a.probabilities with
  | none =>
      rw [given] at passes
      exact enlarges.inPassing passes
  | some probabilities =>
      rw [given] at passes
      exact passes.trans (massOf_mono (fits probabilities given) enlarges.passingKeys)

theorem Shape.monotone (shape : Shape criterion) (once : PassesOnce criterion) : Monotone criterion := by
  intro criteria other accepted listed once' enlarges a fits passed
  have fits' : Fits other a := by
    intro probabilities given
    rw [enlarges.keysOf]
    exact fits probabilities given
  obtain ⟨possible, passes⟩ := (shape.decides once a fits).1.mp passed
  have decided := (shape_of_validateCriteria accepted listed).decides once' a fits'
  exact decided.1.mpr ⟨(enlarges.possible a.answer).mpr possible, enlarges.passes fits passes⟩

/-- An accepted criterion is decided by the probability of what passes exactly when nothing that passes is counted
twice or spoils the sum. -/
theorem decides_iff_passesOnce {criteria : List Criterion} (accepted : validateCriteria criteria = .ok ())
    (listed : criterion ∈ criteria) : Decides criterion ∧ Monotone criterion ↔ PassesOnce criterion := by
  have shape := shape_of_validateCriteria accepted listed
  exact ⟨fun both => shape.passesOnce both.1, fun once => ⟨shape.decides once, shape.monotone once⟩⟩

def tone (pass : List String) : Criterion where
  id := some (.text (Utf16.ofString "tone"))
  rule := some (.text (Utf16.ofString "The tone of the answer."))
  type := some (.text (Utf16.ofString "choice"))
  options := some (.list (["kind", "plain", "rude"].map fun option => .text (Utf16.ofString option)))
  pass := some (.list (pass.map fun option => .text (Utf16.ofString option)))

theorem decides_tone : Decides (tone ["kind", "plain"]) ∧ Monotone (tone ["kind", "plain"]) :=
  (decides_iff_passesOnce (show validateCriteria [tone ["kind", "plain"]] = .ok () from by rfl)
    List.mem_cons_self).mpr fun _ => ⟨.inl (by decide +kernel), by decide +kernel⟩

/-- Three answers in ten are kind, and the others are rude. -/
def mostlyRude : Probabilities :=
  ((∅ : Probabilities).set (Utf16.ofString "kind") (3 / 10)).set (Utf16.ofString "rude") (7 / 10)

/-- An option that is listed twice passes with three tenths of the probability. -/
theorem tone_counted_twice : ¬ ∀ criteria criterion, validateCriteria criteria = .ok () →
    criterion ∈ criteria → Decides criterion ∧ Monotone criterion := by
  intro all
  have decides := (all [tone ["kind", "kind"]] _ (by rfl) List.mem_cons_self).1
  have fits : Fits (tone ["kind", "kind"]) ⟨.text (Utf16.ofString "rude"), some mostlyRude⟩ := by
    intro probabilities given
    obtain rfl := Option.some.inj given
    exact ⟨by decide +kernel, by decide +kernel, by decide +kernel⟩
  have passes := ((decides _ fits).1.mp (by decide +kernel)).2
  have less : ¬ 1 / 2 ≤ massOf mostlyRude (passingKeys (tone ["kind", "kind"])) := by decide +kernel
  exact less passes

end NimbleBrain.Tasks.Criteria
