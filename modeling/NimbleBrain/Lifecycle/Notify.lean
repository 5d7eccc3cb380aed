import NimbleBrain.Library.OrderedMap

/- A running connector is told that it is ready, once for each installation. -/

namespace NimbleBrain.Lifecycle

open Library

/-- What one attempt is answered. A part that rejects is `none`. -/
structure ReadyAnswers where
  declares : Option Bool
  running : Bool
  tools : Option Nat
  hasHandler : Bool
  rejectsReady : Bool
  accepts : Bool

/-- Whether the attempt is settled, or `none` when it rejects. -/
def notifyReady (answers : ReadyAnswers) : Option Bool :=
  match answers.declares with
  | none => none
  | some false => some true
  | some true =>
      if !answers.running then some false
      else
        match answers.tools with
        | none => none
        | some 0 => some false
        | some (_ + 1) => some (if answers.hasHandler then answers.accepts else !answers.rejectsReady)

structure ReadyKey where
  wsId : String
  connector : String
  deriving DecidableEq

inductive ReadyEvent where
  | started (attempt : Nat) (key : ReadyKey)
  | skipped (key : ReadyKey)
  | answered (attempt : Nat) (key : ReadyKey) (answers : ReadyAnswers)
  | forgotten (key : ReadyKey)
  | reset

/-- The keys that were told, the attempts under way, and the log with the latest event first. -/
structure Notices where
  delivered : List ReadyKey := []
  attempts : OrderedMap Nat ReadyKey := ∅
  asked : Nat := 0
  log : List ReadyEvent := []

/-- A connection reaches the running state, or the tools of a running one change. -/
def resumeInBackground (key : ReadyKey) (state : Notices) : Notices :=
  if key ∈ state.delivered then { state with log := .skipped key :: state.log }
  else
    { state with
      attempts := state.attempts.set state.asked key
      asked := state.asked + 1
      log := .started state.asked key :: state.log }

/-- The answers may come at any time, also after the connector was removed. -/
def readyAnswered (attempt : Nat) (answers : ReadyAnswers) (state : Notices) : Notices :=
  match state.attempts.get? attempt with
  | none => state
  | some key =>
      { state with
        attempts := state.attempts.delete attempt
        delivered := if notifyReady answers = some true then key :: state.delivered else state.delivered
        log := .answered attempt key answers :: state.log }

def forgetReadyNotification (key : ReadyKey) (state : Notices) : Notices :=
  { state with delivered := state.delivered.filter (· ≠ key), log := .forgotten key :: state.log }

def resetReadyNotifications (state : Notices) : Notices := { state with delivered := [], log := .reset :: state.log }

inductive NoticeAction where
  | resume (key : ReadyKey)
  | answer (attempt : Nat) (answers : ReadyAnswers)
  | forget (key : ReadyKey)
  | reset

def Notices.step (state : Notices) : NoticeAction → Notices
  | .resume key => resumeInBackground key state
  | .answer attempt answers => readyAnswered attempt answers state
  | .forget key => forgetReadyNotification key state
  | .reset => resetReadyNotifications state

/-- An attempt for the key settled since the connector was last forgotten. -/
def ToldSince (key : ReadyKey) : List ReadyEvent → Prop
  | [] | .reset :: _ => False
  | .started .. :: older | .skipped _ :: older => ToldSince key older
  | .answered _ other answers :: older => (key = other ∧ notifyReady answers = some true) ∨ ToldSince key older
  | .forgotten other :: older => key ≠ other ∧ ToldSince key older

/-- A resume is skipped where an attempt settled, and starts an attempt where none did. -/
def Founded : List ReadyEvent → Prop
  | [] => True
  | .skipped key :: older => ToldSince key older ∧ Founded older
  | .started _ key :: older => ¬ToldSince key older ∧ Founded older
  | .answered .. :: older | .forgotten _ :: older | .reset :: older => Founded older

structure Notices.Good (state : Notices) : Prop where
  told : ∀ key, key ∈ state.delivered ↔ ToldSince key state.log
  founded : Founded state.log

theorem Notices.Good.step {state : Notices} (good : state.Good) (action : NoticeAction) : (state.step action).Good := by
  obtain ⟨told, founded⟩ := good
  cases action with
  | resume key =>
      simp only [Notices.step, resumeInBackground]
      split
      · next known => exact ⟨told, (told key).mp known, founded⟩
      · next unknown => exact ⟨told, mt (told key).mpr unknown, founded⟩
  | answer attempt answers =>
      simp only [Notices.step, readyAnswered]
      split
      · exact ⟨told, founded⟩
      · refine ⟨fun key => ?_, founded⟩
        rw [ToldSince, ← told]
        split <;> simp [*]
  | forget other =>
      refine ⟨fun key => ?_, founded⟩
      rw [Notices.step, forgetReadyNotification, ToldSince, ← told, List.mem_filter, decide_eq_true_iff, and_comm]
  | reset => exact ⟨fun key => by simp [Notices.step, resetReadyNotifications, ToldSince], founded⟩

/-- In every run a resume is skipped if and only if an attempt settled since the connector was last forgotten. -/
theorem resume_skips_iff_told (actions : List NoticeAction) :
    Founded (actions.foldl Notices.step {}).log ∧
      ∀ key, key ∈ (actions.foldl Notices.step {}).delivered ↔ ToldSince key (actions.foldl Notices.step {}).log := by
  have run : ∀ state : Notices, state.Good → (actions.foldl Notices.step state).Good := by
    induction actions with
    | nil => exact fun _ good => good
    | cons action rest ih => exact fun state good => ih (state.step action) (good.step action)
  obtain ⟨told, founded⟩ := run {} ⟨by simp [ToldSince], trivial⟩
  exact ⟨founded, told⟩

end NimbleBrain.Lifecycle
