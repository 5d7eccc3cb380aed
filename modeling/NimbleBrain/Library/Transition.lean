import Mathlib.Data.List.Basic

/- A transition system runs actions one at a time. Its invariants are proved once for a step. -/

namespace NimbleBrain.Library

/-- A step answers `none` when the action is not possible in the state. -/
structure System (State Action : Type) where
  initial : State → Prop
  step : State → Action → Option State

namespace System

variable {State Action : Type} (system : System State Action)

/-- A guard restricts the steps a run may take. -/
abbrev Guard (State Action : Type) := State → Action → Prop

/-- A guarded state is reached when every step on its way meets the guard. -/
inductive ReachedBy (guard : Guard State Action) : State → Prop
  | start (state : State) (first : system.initial state) : ReachedBy guard state
  | next (before after : State) (action : Action) (earlier : ReachedBy guard before)
      (met : guard before action) (stepped : system.step before action = some after) :
      ReachedBy guard after

/-- A state is reachable when any steps lead to it. -/
def Reachable (state : State) : Prop := system.ReachedBy (fun _ _ => True) state

/-- An invariant that every guarded step keeps holds in every state the guard reaches. -/
theorem ReachedBy.invariant {system : System State Action} {guard : Guard State Action}
    (Invariant : State → Prop) (atStart : ∀ state, system.initial state → Invariant state)
    (kept : ∀ before action after, Invariant before → guard before action →
      system.step before action = some after → Invariant after)
    {state : State} (reached : system.ReachedBy guard state) : Invariant state := by
  induction reached with
  | start state first => exact atStart state first
  | next before after action earlier met stepped ih => exact kept before action after ih met stepped

/-- The unguarded rule for an invariant. -/
theorem Reachable.invariant {system : System State Action} (Invariant : State → Prop)
    (atStart : ∀ state, system.initial state → Invariant state)
    (kept : ∀ before action after, Invariant before →
      system.step before action = some after → Invariant after)
    {state : State} (reached : system.Reachable state) : Invariant state :=
  ReachedBy.invariant Invariant atStart
    (fun before action after holds _ stepped => kept before action after holds stepped) reached

/-- A weaker guard reaches every state a stronger guard reaches. -/
theorem ReachedBy.weaken {system : System State Action} {strong weak : Guard State Action}
    (weaker : ∀ state action, strong state action → weak state action)
    {state : State} (reached : system.ReachedBy strong state) : system.ReachedBy weak state := by
  induction reached with
  | start state first => exact .start state first
  | next before after action _ met stepped ih =>
      exact .next before after action ih (weaker before action met) stepped

theorem ReachedBy.reachable {system : System State Action} {guard : Guard State Action}
    {state : State} (reached : system.ReachedBy guard state) : system.Reachable state :=
  reached.weaken fun _ _ _ => trivial

/-- A run performs a list of actions in order. -/
def run (state : State) : List Action → Option State
  | [] => some state
  | action :: rest => (system.step state action).bind (run · rest)

@[simp] theorem run_nil (state : State) : system.run state [] = some state := rfl

@[simp] theorem run_cons (state : State) (action : Action) (rest : List Action) :
    system.run state (action :: rest) = (system.step state action).bind (system.run · rest) := rfl

theorem run_append (state : State) (first second : List Action) :
    system.run state (first ++ second) = (system.run state first).bind (system.run · second) := by
  induction first generalizing state with
  | nil => rfl
  | cons action rest ih =>
      rw [List.cons_append, run_cons, run_cons, Option.bind_assoc]
      exact congrArg _ (funext ih)

/-- The guard holds before each step of the run. -/
def Meets (guard : Guard State Action) (state : State) : List Action → Prop
  | [] => True
  | action :: rest => guard state action ∧ ∀ after ∈ system.step state action, Meets guard after rest

/-- Whether a run meets a guard is decided step by step. -/
def decideMeets (guard : Guard State Action) [∀ state action, Decidable (guard state action)]
    (state : State) : (actions : List Action) → Decidable (system.Meets guard state actions)
  | [] => .isTrue trivial
  | _ :: rest =>
      have (after : State) : Decidable (system.Meets guard after rest) := decideMeets guard after rest
      inferInstanceAs (Decidable (_ ∧ _))

instance (guard : Guard State Action) [∀ state action, Decidable (guard state action)]
    (state : State) (actions : List Action) : Decidable (system.Meets guard state actions) :=
  system.decideMeets guard state actions

/-- A guard on the actions alone is met by a list of such actions. -/
theorem meets_of_all {guard : Guard State Action} {actions : List Action}
    (all : ∀ action ∈ actions, ∀ state, guard state action) (state : State) :
    system.Meets guard state actions := by
  induction actions generalizing state with
  | nil => trivial
  | cons action rest ih =>
      exact ⟨all action (List.mem_cons_self ..) state,
        fun after _ => ih (fun other member => all other (List.mem_cons_of_mem _ member)) after⟩

/-- A run that meets the guard ends in a state the guard reaches. -/
theorem ReachedBy.run {system : System State Action} {guard : Guard State Action} {state : State}
    (reached : system.ReachedBy guard state) {actions : List Action} {last : State}
    (meets : system.Meets guard state actions) (ran : system.run state actions = some last) :
    system.ReachedBy guard last := by
  induction actions generalizing state with
  | nil =>
      simp only [run_nil, Option.some.injEq] at ran
      exact ran ▸ reached
  | cons action rest ih =>
      rw [run_cons, Option.bind_eq_some_iff] at ran
      obtain ⟨after, stepped, ran⟩ := ran
      exact ih (.next state after action reached meets.1 stepped) (meets.2 after stepped) ran

theorem meets_always (state : State) (actions : List Action) :
    system.Meets (fun _ _ => True) state actions := by
  induction actions generalizing state with
  | nil => trivial
  | cons action rest ih => exact ⟨trivial, fun after _ => ih after⟩

/-- Any run that succeeds ends in a reachable state. -/
theorem Reachable.run {system : System State Action} {state : State}
    (reached : system.Reachable state) {actions : List Action} {last : State}
    (ran : system.run state actions = some last) : system.Reachable last :=
  ReachedBy.run reached (system.meets_always state actions) ran

end System

end NimbleBrain.Library
