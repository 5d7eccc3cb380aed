import Mathlib.Data.List.Induction
import NimbleBrain.Library.Transition

/- Calls read a whole value, edit their copy and write it back. A write that overtakes another one loses it. -/

namespace NimbleBrain.Library

variable {Call Value : Type}

/-- A call may fail, leave the value as it is, or write a new one. -/
inductive Edit (Value : Type) where
  | throws
  | keeps
  | writes (value : Value)
  deriving DecidableEq

/-- A call that has read the value and is about to write it. -/
structure Pass (Call Value : Type) where
  call : Call
  read : Value
  written : Value
  deriving DecidableEq

/-- The value with the calls under way. The calls that returned are noted in the order of their effects. -/
structure Shared (Call Value : Type) where
  value : Value
  begun : List Call := []
  passes : List (Pass Call Value) := []
  returned : List Call := []
  deriving DecidableEq

/-- A call reads and writes in two steps, and may fail in each of them. -/
inductive SharedStep (Call : Type) where
  | begin (call : Call)
  | read (place : Nat)
  | write (place : Nat)
  | readFails (place : Nat)
  | writeFails (place : Nat)
  deriving DecidableEq

/-- What a call makes of the value on its own. -/
def Edit.after (edit : Edit Value) (value : Value) : Value :=
  match edit with
  | .throws | .keeps => value
  | .writes next => next

namespace Shared

variable (edit : Call → Value → Edit Value) (shared : Shared Call Value)

def read (place : Nat) : Option (Shared Call Value) :=
  shared.begun[place]?.map fun call =>
    let left := { shared with begun := shared.begun.eraseIdx place }
    match edit call shared.value with
    | .throws => left
    | .keeps => { left with returned := shared.returned ++ [call] }
    | .writes next => { left with passes := shared.passes ++ [⟨call, shared.value, next⟩] }

def write (place : Nat) : Option (Shared Call Value) :=
  shared.passes[place]?.map fun pass =>
    { shared with
      value := pass.written
      passes := shared.passes.eraseIdx place
      returned := shared.returned ++ [pass.call] }

end Shared

def sharedSystem (edit : Call → Value → Edit Value) (first : Value) :
    System (Shared Call Value) (SharedStep Call) where
  initial shared := shared = { value := first }
  step shared
    | .begin call => some { shared with begun := shared.begun ++ [call] }
    | .read place => shared.read edit place
    | .write place => shared.write place
    | .readFails place => shared.begun[place]?.map fun _ => { shared with begun := shared.begun.eraseIdx place }
    | .writeFails place =>
        shared.passes[place]?.map fun _ => { shared with passes := shared.passes.eraseIdx place }

namespace Shared

/-- A write lands on the value that its call has read. -/
def Undisturbed (shared : Shared Call Value) : SharedStep Call → Prop
  | .write place => ∀ pass ∈ shared.passes[place]?, pass.read = shared.value
  | _ => True

instance [DecidableEq Value] (shared : Shared Call Value) (step : SharedStep Call) :
    Decidable (shared.Undisturbed step) := by
  cases step <;> unfold Undisturbed <;> infer_instance

/-- The value that the calls make of the first one, one after the other. -/
def replay (edit : Call → Value → Edit Value) (first : Value) (calls : List Call) : Value :=
  calls.foldl (fun value call => (edit call value).after value) first

theorem replay_append (edit : Call → Value → Edit Value) (first : Value) (calls : List Call) (call : Call) :
    replay edit first (calls ++ [call]) =
      (edit call (replay edit first calls)).after (replay edit first calls) := by
  rw [replay, List.foldl_append]
  rfl

/-- Every pass writes what its call makes of the value it has read. -/
structure Serial (edit : Call → Value → Edit Value) (first : Value) (shared : Shared Call Value) : Prop where
  value : shared.value = replay edit first shared.returned
  passes : ∀ pass ∈ shared.passes, edit pass.call pass.read = .writes pass.written

variable {edit : Call → Value → Edit Value} {first : Value} {shared next : Shared Call Value}

variable {place : Nat}

theorem Serial.read (serial : shared.Serial edit first) (stepped : shared.read edit place = some next) :
    next.Serial edit first := by
  obtain ⟨call, -, rfl⟩ := Option.map_eq_some_iff.mp stepped
  dsimp only
  cases made : edit call shared.value with
  | throws => exact ⟨serial.value, serial.passes⟩
  | keeps =>
      refine ⟨?_, serial.passes⟩
      dsimp only
      rw [replay_append, ← serial.value, made]
      rfl
  | writes written =>
      refine ⟨serial.value, ?_⟩
      intro pass member
      rcases List.mem_append.mp member with earlier | new
      · exact serial.passes pass earlier
      · rw [List.mem_singleton.mp new]
        exact made

theorem Serial.write (serial : shared.Serial edit first) (met : shared.Undisturbed (.write place))
    (stepped : shared.write place = some next) : next.Serial edit first := by
  obtain ⟨pass, found, rfl⟩ := Option.map_eq_some_iff.mp stepped
  refine ⟨?_, fun other member => serial.passes other (List.mem_of_mem_eraseIdx member)⟩
  have made := serial.passes pass (List.mem_of_getElem? found)
  dsimp only
  rw [replay_append, ← serial.value, ← met pass found, made]
  rfl

/-- A run whose writes are undisturbed has the value that its calls make one after the other. -/
theorem Serial.of_reached (reached : (sharedSystem edit first).ReachedBy Undisturbed shared) :
    shared.Serial edit first := by
  apply reached.invariant (Serial edit first)
  · intro state start
    obtain rfl := start
    exact ⟨rfl, fun _ member => nomatch member⟩
  · intro before step after serial met stepped
    cases step with
    | begin call => exact Option.some.inj stepped ▸ ⟨serial.value, serial.passes⟩
    | read place => exact serial.read stepped
    | write place => exact serial.write met stepped
    | readFails place =>
        obtain ⟨_, -, rfl⟩ := Option.map_eq_some_iff.mp stepped
        exact ⟨serial.value, serial.passes⟩
    | writeFails place =>
        obtain ⟨_, -, rfl⟩ := Option.map_eq_some_iff.mp stepped
        exact ⟨serial.value, fun other member => serial.passes other (List.mem_of_mem_eraseIdx member)⟩

/-- An observation follows the last call that determines it. -/
theorem observed_of_replay {Report : Type} (report : Value → Report) (intent : Call → Option Report)
    (follows : ∀ call value, report ((edit call value).after value) = (intent call).getD (report value))
    (calls : List Call) :
    report (replay edit first calls) = ((calls.filterMap intent).getLast?).getD (report first) := by
  induction calls using List.reverseRecOn with
  | nil => rfl
  | append_singleton calls call ih =>
      rw [replay_append, follows, ih, List.filterMap_append]
      cases said : intent call with
      | none => simp [said]
      | some report => simp [said]

end Shared

end NimbleBrain.Library
