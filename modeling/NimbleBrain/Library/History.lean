import Mathlib.Logic.Basic
import Mathlib.Tactic.Common

/- A log lists what happened, the latest first. -/

namespace NimbleBrain.Library.History

variable {Event : Type} {event later latest : Event} {ends : Event → Bool} {log : List Event}

/-- The event happened and nothing that ends it came after it. -/
def Pending (event : Event) (ends : Event → Bool) : List Event → Prop
  | [] => False
  | latest :: log => latest = event ∨ ends latest = false ∧ Pending event ends log

def decidePending [DecidableEq Event] (event : Event) (ends : Event → Bool) :
    (log : List Event) → Decidable (Pending event ends log)
  | [] => .isFalse id
  | latest :: log =>
      have : Decidable (Pending event ends log) := decidePending event ends log
      inferInstanceAs (Decidable (latest = event ∨ ends latest = false ∧ Pending event ends log))

instance [DecidableEq Event] : Decidable (Pending event ends log) := decidePending event ends log

/-- Where `later` stands in the log, the event was not pending. -/
def Precludes (event : Event) (ends : Event → Bool) (later : Event) : List Event → Prop
  | [] => True
  | latest :: log => (latest = later → ¬ Pending event ends log) ∧ Precludes event ends later log

@[simp] theorem pending_cons :
    Pending event ends (latest :: log) ↔ latest = event ∨ ends latest = false ∧ Pending event ends log := Iff.rfl

/-- Another entry of the log leaves open what was open. -/
theorem not_pending_cons (other : latest ≠ event) (before : ¬ Pending event ends log) :
    ¬ Pending event ends (latest :: log) := by
  rintro (same | ⟨_, pending⟩)
  · exact other same
  · exact before pending

theorem not_pending_of_ends (other : latest ≠ event) (ended : ends latest = true) :
    ¬ Pending event ends (latest :: log) := by
  rintro (same | ⟨open', _⟩)
  · exact other same
  · rw [ended] at open'
    exact nomatch open'

/-- An entry other than the later event needs nothing. -/
theorem precludes_cons_of_ne (other : latest ≠ later) (before : Precludes event ends later log) :
    Precludes event ends later (latest :: log) :=
  ⟨fun same => absurd same other, before⟩

end NimbleBrain.Library.History
