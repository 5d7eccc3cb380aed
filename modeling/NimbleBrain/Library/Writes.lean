import Mathlib.Data.List.TakeWhile
import Mathlib.Tactic.Common

/- A program that writes one thing at a time may stop between any two writes. -/

namespace NimbleBrain.Library

variable {State Write : Type} {apply : State → Write → State} {Property : State → Prop}

/-- The property holds wherever the program stops among its writes. -/
def Survives (apply : State → Write → State) (Property : State → Prop) (state : State)
    (writes : List Write) : Prop :=
  ∀ count, Property ((writes.take count).foldl apply state)

variable {state : State} {write : Write} {first second writes : List Write} {throws : Write → Bool}

@[simp] theorem survives_nil : Survives apply Property state [] ↔ Property state := by
  simp [Survives]

@[simp] theorem survives_cons {rest : List Write} :
    Survives apply Property state (write :: rest) ↔
      Property state ∧ Survives apply Property (apply state write) rest := by
  constructor
  · intro survives
    exact ⟨survives 0, fun count => survives (count + 1)⟩
  · rintro ⟨now, later⟩ count
    cases count with
    | zero => exact now
    | succ count => exact later count

/-- A program survives when its parts do, each from where the part before it ends. -/
@[simp] theorem survives_append :
    Survives apply Property state (first ++ second) ↔
      Survives apply Property state first ∧ Survives apply Property (first.foldl apply state) second := by
  induction first generalizing state with
  | nil =>
      simp only [List.nil_append, survives_nil, List.foldl_nil]
      exact ⟨fun survives => ⟨survives 0, survives⟩, And.right⟩
  | cons write rest ih => simp [ih, and_assoc]

theorem Survives.last (survives : Survives apply Property state writes) : Property (writes.foldl apply state) := by
  simpa using survives writes.length

/-- A property that each write keeps survives any writes. -/
theorem survives_of_kept (holds : Property state)
    (kept : ∀ write ∈ writes, ∀ state, Property state → Property (apply state write)) :
    Survives apply Property state writes := by
  induction writes generalizing state with
  | nil => simpa using holds
  | cons write rest ih =>
      have next := kept write (List.mem_cons_self ..) state holds
      have later := ih next fun other member => kept other (List.mem_cons_of_mem _ member)
      simp [holds, later]

/-- A write that throws ends the program before the write. -/
def attempt (throws : Write → Bool) (writes : List Write) : List Write :=
  writes.takeWhile fun write => !throws write

/-- The program comes to its end when none of its writes throws. -/
def completes (throws : Write → Bool) (writes : List Write) : Bool := writes.all fun write => !throws write

/-- What comes after writes that do not throw is attempted in turn. -/
theorem attempt_append (complete : completes throws first) :
    attempt throws (first ++ second) = first ++ attempt throws second := by
  induction first with
  | nil => rfl
  | cons write rest ih =>
      simp only [completes, List.all_cons, Bool.and_eq_true] at complete
      rw [attempt, List.cons_append, List.takeWhile_cons_of_pos (by simpa using complete.1)]
      exact congrArg (write :: ·) (ih complete.2)

theorem mem_of_attempt (member : write ∈ attempt throws writes) : write ∈ writes :=
  (List.takeWhile_prefix _).subset member

end NimbleBrain.Library
