import Mathlib.Data.List.Chain

/- A separator is put between two neighbours that need one. -/

namespace NimbleBrain.Library

variable {A : Type}

/-- The first element follows the element before the list, if there is one. -/
def separate (between : A → A → Option A) : Option A → List A → List A
  | _, [] => []
  | none, item :: rest => item :: separate between (some item) rest
  | some before, item :: rest => (between before item).toList ++ item :: separate between (some item) rest

attribute [grind =] separate

/-- A separator needs no separator beside it. -/
structure Separates (between : A → A → Option A) : Prop where
  before : ∀ first second separator, between first second = some separator → between first separator = none
  after : ∀ first second separator, between first second = some separator → between separator second = none

variable {between : A → A → Option A}

theorem separate_append (before : Option A) (first second : List A) :
    separate between before (first ++ second) =
      separate between before first ++ separate between (first.getLast?.or before) second := by
  induction first generalizing before with
  | nil => simp [separate]
  | cons item rest ih =>
      have last : (item :: rest).getLast?.or before = rest.getLast?.or (some item) := by
        cases rest with
        | nil => rfl
        | cons next more => simp [List.getLast?_cons]
      cases before <;> simp only [List.cons_append, separate, ih, last, List.append_assoc]

variable {item : A} {items : List A}

/-- What is in the result was in the list, or separates two elements. -/
theorem mem_separate {before : Option A} (member : item ∈ separate between before items) :
    item ∈ items ∨ ∃ first second, between first second = some item := by
  induction items generalizing before with
  | nil => simp [separate] at member
  | cons next rest ih =>
      have later : item ∈ next :: separate between (some next) rest →
          item ∈ next :: rest ∨ ∃ first second, between first second = some item := by
        intro member
        rcases List.mem_cons.mp member with rfl | member
        · exact .inl (List.mem_cons_self ..)
        · exact (ih member).imp_left (List.mem_cons_of_mem _)
      cases before with
      | none => exact later member
      | some before =>
          rcases List.mem_append.mp member with gap | member
          · exact .inr ⟨before, next, Option.mem_toList.mp gap⟩
          · exact later member

/-- No two neighbours of the result need a separator. -/
theorem isChain_separate (separates : Separates between) (items : List A) :
    ∀ before, (separate between (some before) items).IsChain (fun first second => between first second = none) ∧
      ∀ next, (separate between (some before) items).head? = some next → between before next = none := by
  induction items with
  | nil => simp [separate]
  | cons item rest ih =>
      intro before
      obtain ⟨chain, first⟩ := ih item
      have own : (item :: separate between (some item) rest).IsChain
          (fun first second => between first second = none) :=
        List.isChain_cons.mpr ⟨first, chain⟩
      cases needed : between before item with
      | none => simpa [separate, needed] using own
      | some separator =>
          simp only [separate, needed, Option.toList_some, List.singleton_append, List.head?_cons,
            Option.some.injEq, forall_eq']
          exact ⟨List.isChain_cons.mpr ⟨by simpa using separates.after _ _ _ needed, own⟩,
            separates.before _ _ _ needed⟩

theorem isChain_separate_none (separates : Separates between) (items : List A) :
    (separate between none items).IsChain (fun first second => between first second = none) := by
  cases items with
  | nil => simp [separate]
  | cons item rest =>
      obtain ⟨chain, first⟩ := isChain_separate separates rest item
      exact List.isChain_cons.mpr ⟨first, chain⟩

/-- Neighbours that need no separator are left as they are. -/
theorem separate_of_isChain (chain : items.IsChain fun first second => between first second = none) :
    separate between none items = items ∧
      ∀ before, (∀ next, items.head? = some next → between before next = none) →
        separate between (some before) items = items := by
  induction items with
  | nil => simp [separate]
  | cons item rest ih =>
      obtain ⟨first, chain⟩ := List.isChain_cons.mp chain
      obtain ⟨-, same⟩ := ih chain
      have same := same item (by simpa using first)
      refine ⟨by rw [separate, same], fun before fine => ?_⟩
      rw [separate, same, fine item rfl]
      rfl

/-- An element that is no separator was in the list, and what follows it there follows it in the result. -/
theorem separate_split {pre post : List A} (own : ∀ first second, between first second ≠ some item) :
    ∀ before, separate between before items = pre ++ item :: post →
      ∃ earlier later, items = earlier ++ item :: later ∧ post = separate between (some item) later ∧
        earlier.length ≤ pre.length ∧ (before = none → earlier = [] → pre = []) := by
  induction items generalizing pre with
  | nil => simp [separate]
  | cons next rest ih =>
      have inside : ∀ pre, next :: separate between (some next) rest = pre ++ item :: post →
          ∃ earlier later, next :: rest = earlier ++ item :: later ∧ post = separate between (some item) later ∧
            earlier.length ≤ pre.length ∧ (earlier = [] → pre = []) := by
        intro pre same
        cases pre with
        | nil =>
            obtain ⟨rfl, rfl⟩ := List.cons.inj same
            exact ⟨[], rest, rfl, rfl, Nat.le_refl _, fun _ => rfl⟩
        | cons first more =>
            obtain ⟨earlier, later, rfl, follows, short, -⟩ := ih (some next) (List.cons.inj same).2
            exact ⟨next :: earlier, later, rfl, follows, Nat.succ_le_succ short, by simp⟩
      intro before same
      cases before with
      | none =>
          obtain ⟨earlier, later, split, follows, short, empty⟩ := inside pre same
          exact ⟨earlier, later, split, follows, short, fun _ => empty⟩
      | some before =>
          rw [separate] at same
          cases needed : between before next with
          | none =>
              rw [needed] at same
              obtain ⟨earlier, later, split, follows, short, -⟩ := inside pre same
              exact ⟨earlier, later, split, follows, short, by simp⟩
          | some separator =>
              rw [needed] at same
              cases pre with
              | nil => exact absurd (needed.trans (congrArg some (List.cons.inj same).1)) (own before next)
              | cons first more =>
                  obtain ⟨earlier, later, split, follows, short, -⟩ := inside more (List.cons.inj same).2
                  exact ⟨earlier, later, split, follows, short.trans (Nat.le_succ _), by simp⟩

/-- What stands before a list adds one separator at most. -/
theorem length_separate_none_le (before : Option A) (items : List A) :
    (separate between none items).length ≤ (separate between before items).length := by
  cases items with
  | nil => simp [separate]
  | cons item rest => cases before <;> simp [separate]

/-- An element of two joined lists stands in the one or in the other. -/
theorem split_append {first second before after : List A} {item : A}
    (split : first ++ second = before ++ item :: after) :
    (∃ later, first = before ++ item :: later ∧ after = later ++ second) ∨
      ∃ earlier, before = first ++ earlier ∧ second = earlier ++ item :: after := by
  rcases List.append_eq_append_iff.mp split with ⟨earlier, one, other⟩ | ⟨later, one, other⟩
  · exact .inr ⟨earlier, one, other⟩
  · cases later with
    | nil => exact .inr ⟨[], by simpa using one.symm, by simpa using other.symm⟩
    | cons next more =>
        obtain ⟨rfl, rfl⟩ := List.cons.inj other
        exact .inl ⟨more, one, rfl⟩

end NimbleBrain.Library
