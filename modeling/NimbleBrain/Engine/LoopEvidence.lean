import NimbleBrain.Engine.Supervisor

/- The state of a tool follows from the tool's own calls, the latest first. -/

namespace NimbleBrain.Engine.Supervisor

open Library

section History

abbrev Observation := ToolCall × ToolResult

variable (host : SupervisorHost) (config : SupervisorConfig)

def statesAfter : List Observation → ToolStates
  | [] => ∅
  | latest :: earlier => (observe host config (statesAfter earlier) latest.1 latest.2).1

/-- The state of a tool after its own calls. -/
def runTool : List Observation → ToolState
  | [] => {}
  | latest :: earlier => (observeTool host config (runTool earlier) latest.1 latest.2).1

def ownCalls (tool : Utf16) (history : List Observation) : List Observation :=
  history.filter fun observation => observation.1.name = tool

/-- Calls of other tools leave the state of a tool alone. -/
theorem getState_statesAfter (history : List Observation) (tool : Utf16) :
    getState (statesAfter host config history) tool = runTool host config (ownCalls tool history) := by
  induction history with
  | nil => rfl
  | cons latest earlier ih =>
      rw [statesAfter, observe, getState, OrderedMap.get?_set, ownCalls, List.filter_cons]
      by_cases own : latest.1.name = tool
      · subst own
        rw [if_pos rfl, if_pos (decide_eq_true rfl), Option.getD_some, ih]
        rfl
      · rw [if_neg (Ne.symm own), if_neg (by simpa using own)]
        exact ih

end History

section Evidence

variable (host : SupervisorHost) (config : SupervisorConfig)

/-- A call that cleared a trip. -/
def recovers (earlier : List Observation) (latest : Observation) : Bool :=
  (runTool host config earlier).tripped && !(runTool host config (latest :: earlier)).tripped

/-- The calls from the last recovery on, or all calls. -/
def sinceRecovery : List Observation → List Observation
  | [] => []
  | latest :: earlier =>
      if recovers host config earlier latest then [latest] else latest :: sinceRecovery earlier

/-- Infrastructure failures are no evidence. -/
def counted (history : List Observation) : List Observation := history.filter fun observation => !observation.2.infraError

def prints (history : List Observation) : List String :=
  (counted history).map fun observation => fingerprint host config observation.1 observation.2

/-- The latest results have one fingerprint. -/
def Repeats (times : Nat) (prints : List String) : Prop := ∃ print, prints.take times = List.replicate times print

/-- The results without progress since the last advancing success. -/
def nonAdvancingSince (history : List Observation) : Nat :=
  ((counted history).takeWhile fun observation => !isAdvancingSuccess observation.2).countP
    fun observation => observation.2.nonAdvancing

/-- The calls up to the one that tripped the tool, or all calls. -/
def untilTrip : List Observation → List Observation
  | [] => []
  | latest :: earlier => if (runTool host config earlier).tripped then untilTrip earlier else latest :: earlier

end Evidence

/-- How many of the latest prints equal the latest one. -/
def streak : List String → Nat
  | [] => 0
  | print :: earlier => (earlier.takeWhile (· = print)).length + 1

theorem streak_cons (print : String) (earlier : List String) :
    streak (print :: earlier) = if some print = earlier.head? then streak earlier + 1 else 1 := by
  cases earlier with
  | nil => rfl
  | cons next rest =>
      by_cases same : print = next
      · subst same
        simp [streak]
      · have other : ¬ next = print := fun equal => same equal.symm
        simp [streak, same, other]

/-- A streak of a length is that many equal prints. -/
theorem repeats_iff_le_streak (times : Nat) (prints : List String) : Repeats times prints ↔ times ≤ streak prints := by
  induction times generalizing prints with
  | zero => exact ⟨fun _ => Nat.zero_le _, fun _ => ⟨"", rfl⟩⟩
  | succ times ih =>
      cases prints with
      | nil =>
          constructor
          · rintro ⟨print, same⟩
            cases same
          · exact fun long => absurd long (Nat.not_succ_le_zero _)
      | cons print rest =>
          have takes (limit : Nat) (rest : List String) :
              rest.take limit = List.replicate limit print ↔ limit ≤ (rest.takeWhile (· = print)).length := by
            induction limit generalizing rest with
            | zero => simp
            | succ limit ih =>
                cases rest with
                | nil => simp
                | cons next rest =>
                    by_cases same : next = print
                    · subst same
                      simp [List.replicate_succ, ih]
                    · simp [List.replicate_succ, same]
          constructor
          · rintro ⟨other, same⟩
            rw [List.take_succ_cons, List.replicate_succ, List.cons.injEq] at same
            obtain ⟨rfl, same⟩ := same
            exact Nat.succ_le_succ ((takes times rest).mp same)
          · intro long
            refine ⟨print, ?_⟩
            rw [List.take_succ_cons, List.replicate_succ, (takes times rest).mpr (Nat.le_of_succ_le_succ long)]

end NimbleBrain.Engine.Supervisor
