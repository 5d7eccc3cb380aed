import Mathlib.Data.Nat.Find
import NimbleBrain.Library.Transition

/- The tasks of one workspace are chained, each behind the tail of the one before. -/

namespace NimbleBrain.Workspaces

open Library

/-- A task settles, then its tail does, and then its entry may be dropped. -/
inductive Phase where
  | waiting | running
  | settled (threw : Bool)
  | released | done
  deriving DecidableEq

def Phase.isReleased : Phase → Bool
  | .released | .done => true
  | .waiting | .running | .settled _ => false

/-- A task waits for the tail that it found. -/
structure Task where
  prior : Option Nat
  phase : Phase := .waiting
  deriving DecidableEq

/-- The tasks in the order of their calls, with the entry of the workspace. -/
structure WriteChain where
  tasks : List Task := []
  tail : Option Nat := none
  deriving DecidableEq

inductive ChainAction where
  | call
  | start (place : Nat)
  | settle (place : Nat) (threw : Bool)
  | release (place : Nat)
  | cleanup (place : Nat)
  deriving DecidableEq

namespace WriteChain

variable (chain : WriteChain)

def phaseAt (place : Nat) : Option Phase := chain.tasks[place]?.map Task.phase

def isReleased (place : Nat) : Bool := (chain.phaseAt place).any Phase.isReleased

def setPhase (place : Nat) (phase : Phase) : WriteChain :=
  { chain with tasks := chain.tasks.modify place fun task => { task with phase } }

def serializePerWorkspace : WriteChain where
  tasks := chain.tasks ++ [{ prior := chain.tail }]
  tail := some chain.tasks.length

/-- A task runs when its prior tail is settled, or when it found none. -/
def start (place : Nat) : Option WriteChain :=
  match chain.tasks[place]? with
  | some ⟨prior, .waiting⟩ => if prior.all chain.isReleased then some (chain.setPhase place .running) else none
  | _ => none

def settle (place : Nat) (threw : Bool) : Option WriteChain :=
  if chain.phaseAt place = some .running then some (chain.setPhase place (.settled threw)) else none

/-- The tail settles alike after an answer and after an error. -/
def release (place : Nat) : Option WriteChain :=
  match chain.phaseAt place with
  | some (.settled _) => some (chain.setPhase place .released)
  | _ => none

/-- The entry is dropped when no later task has replaced it. -/
def cleanup (place : Nat) : Option WriteChain :=
  if chain.phaseAt place = some .released then
    some { chain.setPhase place .done with tail := if chain.tail = some place then none else chain.tail }
  else none

end WriteChain

def chainSystem : System WriteChain ChainAction where
  initial chain := chain = {}
  step chain
    | .call => some chain.serializePerWorkspace
    | .start place => chain.start place
    | .settle place threw => chain.settle place threw
    | .release place => chain.release place
    | .cleanup place => chain.cleanup place

namespace WriteChain

/-- The tasks run one at a time in the order of their calls, and no entry outlives them. -/
structure Serializes (chain : WriteChain) : Prop where
  alone : ∀ first second, chain.phaseAt first = some .running → chain.phaseAt second = some .running → first = second
  inOrder : ∀ first second, first < second → ∀ phase ∈ chain.phaseAt second, phase ≠ .waiting →
    chain.isReleased first = true
  proceeds : ∀ place, (∃ phase ∈ chain.phaseAt place, phase ≠ .done) →
    ∃ action, action ≠ .call ∧ (chainSystem.step chain action).isSome
  entry : ∀ place ∈ chain.tail, ∃ phase ∈ chain.phaseAt place, phase ≠ .done
  held : (∃ place, ∃ phase ∈ chain.phaseAt place, phase.isReleased = false) → chain.tail.isSome

/-- What a task waits for covers all earlier tasks. -/
structure Chained (chain : WriteChain) : Prop where
  inOrder : ∀ first second, first < second → ∀ phase ∈ chain.phaseAt second, phase ≠ .waiting →
    chain.isReleased first = true
  prior : ∀ place, ∀ task ∈ chain.tasks[place]?, (∀ before ∈ task.prior, before + 1 = place) ∧
    (task.prior = none → ∀ first < place, chain.isReleased first = true)
  entry : ∀ place ∈ chain.tail, place + 1 = chain.tasks.length ∧ chain.phaseAt place ≠ some .done
  free : chain.tail = none → ∀ place < chain.tasks.length, chain.isReleased place = true

variable {chain next : WriteChain} {place : Nat}

theorem phaseAt_setPhase (phase : Phase) (other : Nat) :
    (chain.setPhase place phase).phaseAt other =
      if place = other then (chain.phaseAt other).map fun _ => phase else chain.phaseAt other := by
  rw [phaseAt, setPhase, List.getElem?_modify, phaseAt]
  split <;> cases chain.tasks[other]? <;> rfl

@[simp] theorem length_setPhase (phase : Phase) : (chain.setPhase place phase).tasks.length = chain.tasks.length := by
  simp [setPhase]

variable {phase : Phase}

theorem isReleased_setPhase {other : Nat} (released : chain.isReleased other = true)
    (keeps : place = other → phase.isReleased = true) : (chain.setPhase place phase).isReleased other = true := by
  rw [isReleased, phaseAt_setPhase]
  split
  · next same =>
      rw [isReleased] at released
      cases found : chain.phaseAt other with
      | none => simp [found] at released
      | some old => simp [keeps same]
  · exact released

theorem lt_of_phaseAt (found : chain.phaseAt place = some phase) : place < chain.tasks.length := by
  obtain ⟨task, at', -⟩ := Option.map_eq_some_iff.mp found
  exact (List.getElem?_eq_some_iff.mp at').1

/-- A task that goes on keeps the order when all tasks before it are released. -/
theorem Chained.advance (chained : chain.Chained) {tail : Option Nat}
    (before : ∀ first < place, chain.isReleased first = true)
    (keeps : chain.isReleased place = true → phase.isReleased = true)
    (entry : ∀ last ∈ tail, chain.tail = some last ∧ (phase = .done → last ≠ place))
    (free : tail = none → ∀ other < chain.tasks.length, chain.isReleased other = true) :
    Chained { chain.setPhase place phase with tail } := by
  have released {other : Nat} (holds : chain.isReleased other = true) :
      (chain.setPhase place phase).isReleased other = true :=
    isReleased_setPhase holds fun same => keeps (same ▸ holds)
  constructor
  · intro first second earlier other found started
    change other ∈ (chain.setPhase place phase).phaseAt second at found
    rw [phaseAt_setPhase] at found
    split at found
    · exact released (before first (by omega))
    · exact released (chained.inOrder first second earlier other found started)
  · intro other task found
    change task ∈ (chain.setPhase place phase).tasks[other]? at found
    rw [WriteChain.setPhase, List.getElem?_modify, Option.mem_def, Option.map_eq_map, Option.map_eq_some_iff] at found
    obtain ⟨old, at', rfl⟩ := found
    have holds := chained.prior other old at'
    split
    · exact ⟨holds.1, fun none first earlier => released (holds.2 none first earlier)⟩
    · exact ⟨holds.1, fun none first earlier => released (holds.2 none first earlier)⟩
  · intro last held
    obtain ⟨was, other⟩ := entry last held
    obtain ⟨length, open'⟩ := chained.entry last was
    refine ⟨by rw [length_setPhase]; exact length, ?_⟩
    change (chain.setPhase place phase).phaseAt last ≠ _
    rw [phaseAt_setPhase]
    split
    · next same =>
        have live : phase ≠ .done := fun done => other done same.symm
        cases chain.phaseAt last <;> simp [live]
    · exact open'
  · intro none other inside
    rw [length_setPhase] at inside
    exact released (free none other inside)

theorem Chained.before (chained : chain.Chained) (found : chain.phaseAt place = some phase)
    (started : phase ≠ .waiting) : ∀ first < place, chain.isReleased first = true :=
  fun first earlier => chained.inOrder first place earlier phase found started

/-- An entry that stays is the one of a task that is not done. -/
theorem Chained.keeps_tail (chained : chain.Chained) (live : phase ≠ .done)
    (before : ∀ first < place, chain.isReleased first = true)
    (keeps : chain.isReleased place = true → phase.isReleased = true) : (chain.setPhase place phase).Chained :=
  chained.advance before keeps (fun _ held => ⟨held, fun done => absurd done live⟩) chained.free

theorem isReleased_eq (found : chain.phaseAt place = some phase) :
    chain.isReleased place = phase.isReleased := by
  rw [isReleased, found]
  rfl

theorem Chained.call (chained : chain.Chained) : chain.serializePerWorkspace.Chained := by
  have phase (other : Nat) (inside : other < chain.tasks.length) :
      chain.serializePerWorkspace.phaseAt other = chain.phaseAt other := by
    rw [phaseAt, phaseAt, serializePerWorkspace, List.getElem?_append_left inside]
  have last : chain.serializePerWorkspace.phaseAt chain.tasks.length = some .waiting := by
    simp [phaseAt, serializePerWorkspace]
  have released {other : Nat} (holds : chain.isReleased other = true) :
      chain.serializePerWorkspace.isReleased other = true := by
    rw [isReleased] at holds ⊢
    cases found : chain.phaseAt other with
    | none => simp [found] at holds
    | some old =>
        rw [phase other (lt_of_phaseAt found)]
        exact holds
  constructor
  · intro first second earlier other found started
    have inside := lt_of_phaseAt found
    simp only [serializePerWorkspace, List.length_append, List.length_singleton] at inside
    by_cases new : second = chain.tasks.length
    · rw [new, last] at found
      exact absurd (Option.some.inj found).symm started
    · rw [phase second (by omega)] at found
      exact released (chained.inOrder first second earlier other found started)
  · intro place task found
    by_cases old : place < chain.tasks.length
    · rw [serializePerWorkspace, List.getElem?_append_left old] at found
      have holds := chained.prior place task found
      exact ⟨holds.1, fun none first earlier => released (holds.2 none first earlier)⟩
    · obtain ⟨inside, -⟩ := List.getElem?_eq_some_iff.mp found
      simp only [serializePerWorkspace, List.length_append, List.length_singleton] at inside
      obtain rfl : place = chain.tasks.length := by omega
      simp only [serializePerWorkspace, List.getElem?_concat_length, Option.mem_def, Option.some.injEq] at found
      subst found
      exact ⟨fun before held => (chained.entry before held).1,
        fun none first earlier => released (chained.free none first earlier)⟩
  · intro place held
    obtain rfl := Option.some.inj held
    refine ⟨by simp [serializePerWorkspace], ?_⟩
    rw [last]
    exact nofun
  · exact nofun

theorem Chained.start (chained : chain.Chained) (stepped : chain.start place = some next) : next.Chained := by
  rw [WriteChain.start] at stepped
  split at stepped
  · next prior found =>
      split at stepped
      · next ready =>
          obtain rfl := Option.some.inj stepped
          have waits : chain.phaseAt place = some .waiting := by rw [phaseAt, found]; rfl
          have holds := chained.prior place _ found
          refine chained.keeps_tail nofun ?_ ?_
          · intro first earlier
            cases tail : prior with
            | none => exact holds.2 tail first earlier
            | some before =>
                have next := holds.1 before tail
                rw [tail, Option.all_some] at ready
                by_cases same : first = before
                · rw [same]
                  exact ready
                · cases phase : chain.phaseAt before with
                  | none => simp [isReleased, phase] at ready
                  | some phase' =>
                      refine chained.inOrder first before (by omega) phase' phase ?_
                      rintro rfl
                      simp [isReleased, phase, Phase.isReleased] at ready
          · intro released
            rw [isReleased_eq waits] at released
            cases released
      · cases stepped
  · cases stepped

theorem Chained.settle (chained : chain.Chained) {threw : Bool} (stepped : chain.settle place threw = some next) :
    next.Chained := by
  rw [WriteChain.settle] at stepped
  split at stepped
  · next runs =>
      obtain rfl := Option.some.inj stepped
      refine chained.keeps_tail nofun (chained.before runs nofun) fun released => ?_
      rw [isReleased_eq runs] at released
      cases released
  · cases stepped

theorem Chained.release (chained : chain.Chained) (stepped : chain.release place = some next) : next.Chained := by
  rw [WriteChain.release] at stepped
  split at stepped
  · next threw settled =>
      obtain rfl := Option.some.inj stepped
      exact chained.keeps_tail nofun (chained.before settled nofun) fun _ => rfl
  · cases stepped

theorem Chained.cleanup (chained : chain.Chained) (stepped : chain.cleanup place = some next) : next.Chained := by
  rw [WriteChain.cleanup] at stepped
  split at stepped
  · next released =>
      obtain rfl := Option.some.inj stepped
      refine chained.advance (chained.before released nofun) (fun _ => rfl) ?_ ?_
      · intro last held
        split at held
        · cases held
        · next other => exact ⟨held, fun _ same => other (same ▸ held)⟩
      · intro none other inside
        split at none
        · next tail =>
            have length := (chained.entry place tail).1
            by_cases same : other = place
            · rw [same, isReleased_eq released]
              rfl
            · exact chained.before released nofun other (by omega)
        · exact chained.free none other inside
  · cases stepped

theorem Chained.of_reachable (reached : chainSystem.Reachable chain) : chain.Chained := by
  apply reached.invariant Chained
  · rintro _ rfl
    exact ⟨fun _ _ _ _ found => (nomatch found), fun _ _ found => (nomatch found), nofun,
      fun _ _ inside => absurd inside (Nat.not_lt_zero _)⟩
  · intro before action after chained stepped
    cases action with
    | call => exact Option.some.inj stepped ▸ chained.call
    | start place => exact chained.start stepped
    | settle place threw => exact chained.settle stepped
    | release place => exact chained.release stepped
    | cleanup place => exact chained.cleanup stepped

/-- The first task that is not done can go on. -/
theorem Chained.proceeds (chained : chain.Chained) (left : ∃ phase ∈ chain.phaseAt place, phase ≠ .done) :
    ∃ action, action ≠ .call ∧ (chainSystem.step chain action).isSome := by
  have undone : ∃ place, ∃ phase ∈ chain.phaseAt place, phase ≠ .done := ⟨place, left⟩
  classical
  obtain ⟨phase, found, live⟩ := Nat.find_spec undone
  have earlier (first : Nat) (before : first < Nat.find undone) : chain.isReleased first = true := by
    have inside := lt_of_phaseAt found
    have done := Nat.find_min undone before
    rw [isReleased]
    cases at' : chain.phaseAt first with
    | none =>
        rw [phaseAt, Option.map_eq_none_iff, List.getElem?_eq_none_iff] at at'
        omega
    | some other =>
        by_cases same : other = .done
        · rw [same]
          rfl
        · exact absurd ⟨other, at', same⟩ done
  generalize Nat.find undone = first at found earlier
  cases phase with
  | waiting =>
      obtain ⟨⟨prior, phase⟩, at', rfl⟩ := Option.map_eq_some_iff.mp found
      refine ⟨.start first, nofun, ?_⟩
      have ready : prior.all chain.isReleased = true := by
        cases tail : prior with
        | none => rfl
        | some before =>
            have next := (chained.prior first _ at').1 before tail
            exact earlier before (by omega)
      simp [chainSystem, WriteChain.start, at', ready]
  | running => exact ⟨.settle first false, nofun, by simp [chainSystem, WriteChain.settle, Option.mem_def.mp found]⟩
  | settled threw => exact ⟨.release first, nofun, by simp [chainSystem, WriteChain.release, Option.mem_def.mp found]⟩
  | released => exact ⟨.cleanup first, nofun, by simp [chainSystem, WriteChain.cleanup, Option.mem_def.mp found]⟩
  | done => exact absurd rfl live

/-- The tasks of a workspace run one at a time, and its entry goes with the last of them. -/
theorem Serializes.of_reachable (reached : chainSystem.Reachable chain) : chain.Serializes := by
  have chained := Chained.of_reachable reached
  constructor
  · intro first second runs runs'
    rcases Nat.lt_trichotomy first second with before | same | after
    · have released := chained.inOrder first second before _ runs' nofun
      rw [isReleased_eq runs] at released
      cases released
    · exact same
    · have released := chained.inOrder second first after _ runs nofun
      rw [isReleased_eq runs'] at released
      cases released
  · exact chained.inOrder
  · exact fun place left => chained.proceeds left
  · intro place held
    obtain ⟨length, live⟩ := chained.entry place held
    cases found : chain.phaseAt place with
    | none =>
        rw [phaseAt, Option.map_eq_none_iff, List.getElem?_eq_none_iff] at found
        omega
    | some phase => exact ⟨phase, rfl, fun same => live (found.trans (congrArg some same))⟩
  · rintro ⟨place, phase, found, unreleased⟩
    by_contra none
    have released := chained.free (Option.not_isSome_iff_eq_none.mp none) place (lt_of_phaseAt found)
    rw [isReleased_eq found, unreleased] at released
    cases released

end WriteChain

end NimbleBrain.Workspaces
