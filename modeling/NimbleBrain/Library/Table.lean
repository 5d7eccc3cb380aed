import Mathlib.Algebra.BigOperators.Group.List.Basic
import Mathlib.Data.List.Nodup
import Mathlib.Tactic.Abel

/- A table maps keys to values. A loop over distinct keys changes each of its entries once. -/

namespace NimbleBrain.Library

variable {Key Value : Type} [DecidableEq Key]

abbrev Table (Key Value : Type) := Key → Option Value

namespace Table

/-- The change keeps an absent entry absent and may remove the entry. -/
def alter (table : Table Key Value) (key : Key) (change : Value → Option Value) : Table Key Value :=
  Function.update table key ((table key).bind change)

/-- The loop changes the entry of each key in order. -/
def alterEach (change : Key → Value → Option Value) : List Key → Table Key Value → Table Key Value
  | [], table => table
  | key :: rest, table => alterEach change rest (table.alter key (change key))

theorem alter_apply (table : Table Key Value) (key : Key) (change : Value → Option Value) (other : Key) :
    table.alter key change other = if other = key then (table key).bind change else table other := by
  by_cases same : other = key
  · rw [if_pos same, same, alter, Function.update_self]
  · rw [if_neg same, alter, Function.update_of_ne same]

/-- Distinct keys are changed once and all other keys keep their entry. -/
theorem alterEach_apply (change : Key → Value → Option Value) (keys : List Key) (distinct : keys.Nodup)
    (table : Table Key Value) (key : Key) :
    alterEach change keys table key =
      if key ∈ keys then (table key).bind (change key) else table key := by
  induction keys generalizing table with
  | nil => simp [alterEach]
  | cons first rest ih =>
      obtain ⟨fresh, distinct⟩ := List.nodup_cons.mp distinct
      rw [alterEach, ih distinct, alter_apply]
      by_cases same : key = first
      · subst same
        simp [fresh]
      · simp [same]

end Table

variable {A M : Type}

variable {old : A}

/-- A sum over a list changes by the change of its one new element. -/
theorem sum_map_set [AddCommGroup M] (f : A → M) (items : List A) (index : Nat) (found : items[index]? = some old)
    (new : A) :
    ((items.set index new).map f).sum = (items.map f).sum - f old + f new := by
  induction items generalizing index with
  | nil => simp at found
  | cons first rest ih =>
      cases index with
      | zero =>
          simp only [List.getElem?_cons_zero, Option.some.injEq] at found
          subst found
          simp only [List.set_cons_zero, List.map_cons, List.sum_cons]
          abel
      | succ index =>
          rw [List.getElem?_cons_succ] at found
          simp only [List.set_cons_succ, List.map_cons, List.sum_cons, ih index found]
          abel

/-- A count changes by the change of the one new element. -/
theorem countP_set_add (test : A → Bool) (items : List A) (index : Nat) (found : items[index]? = some old) (new : A) :
    (items.set index new).countP test + (if test old then 1 else 0) =
      items.countP test + if test new then 1 else 0 := by
  induction items generalizing index with
  | nil => simp at found
  | cons first rest ih =>
      cases index with
      | zero =>
          simp only [List.getElem?_cons_zero, Option.some.injEq] at found
          subst found
          simp only [List.set_cons_zero, List.countP_cons]
          omega
      | succ index =>
          rw [List.getElem?_cons_succ] at found
          have step := ih index found
          simp only [List.set_cons_succ, List.countP_cons]
          omega

/-- The same for numbers that cannot be subtracted. -/
theorem sum_map_set_add [AddCommMonoid M] (f : A → M) (items : List A) (index : Nat)
    (found : items[index]? = some old) (new : A) :
    ((items.set index new).map f).sum + f old = (items.map f).sum + f new := by
  induction items generalizing index with
  | nil => simp at found
  | cons first rest ih =>
      cases index with
      | zero =>
          simp only [List.getElem?_cons_zero, Option.some.injEq] at found
          subst found
          simp only [List.set_cons_zero, List.map_cons, List.sum_cons]
          abel
      | succ index =>
          rw [List.getElem?_cons_succ] at found
          simp only [List.set_cons_succ, List.map_cons, List.sum_cons]
          rw [add_assoc, ih index found, add_assoc]

end NimbleBrain.Library
