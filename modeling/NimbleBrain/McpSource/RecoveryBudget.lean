import NimbleBrain.McpSource.Recovery

/- A failed call is sent again only within its budget. Only a broken connection restarts the source. -/

namespace NimbleBrain.McpSource.Recovery

attribute [grind =] recoveryOutcome recoverAttempts

section Logs

def Event.isSent : Event → Bool
  | sent _ => true
  | _ => false

def Event.thrown? : Event → Option Thrown
  | threw err => some err
  | _ => none

/-- The event restarts the source or marks it crashed. -/
def Event.disturbs : Event → Bool
  | restarted _ => true
  | crashed _ => true
  | _ => false

def sends (log : List Event) : Nat := log.countP Event.isSent

/-- The error a log ends with. Before the log another one was thrown. -/
def lastThrown (earlier : Thrown) (log : List Event) : Thrown :=
  (log.filterMap Event.thrown?).getLast?.getD earlier

/-- Nothing disturbs the source after an error that settles the call. -/
def Calm : List Event → Prop
  | [] => True
  | .threw err :: rest =>
      ((classifyConnectionFailure err).settles = true → ∀ event ∈ rest, event.disturbs = false) ∧ Calm rest
  | _ :: rest => Calm rest

@[simp] theorem sends_nil : sends [] = 0 := rfl

@[simp] theorem sends_append (first second : List Event) : sends (first ++ second) = sends first + sends second :=
  List.countP_append

@[simp] theorem sends_cons (event : Event) (log : List Event) :
    sends (event :: log) = sends log + if event.isSent then 1 else 0 :=
  List.countP_cons

theorem lastThrown_append (earlier : Thrown) (first second : List Event) :
    lastThrown earlier (first ++ second) = lastThrown (lastThrown earlier first) second := by
  unfold lastThrown
  rw [List.filterMap_append, List.getLast?_append]
  cases (second.filterMap Event.thrown?).getLast? <;> rfl

variable {err : Thrown} {event : Event} {log : List Event}

/-- A calm log is calm after each of its errors. -/
theorem Calm.after {front back : List Event} (calm : Calm log) (split : log = front ++ .threw err :: back)
    (settled : (classifyConnectionFailure err).settles = true) (member : event ∈ back) : event.disturbs = false := by
  subst split
  induction front with
  | nil => exact calm.1 settled event member
  | cons first front ih =>
      apply ih
      cases first with
      | threw other => exact calm.2
      | _ => exact calm

/-- A log without errors may come before a calm one. -/
theorem Calm.append {first second : List Event} (clean : ∀ event ∈ first, event.thrown? = none) (calm : Calm second) :
    Calm (first ++ second) := by
  induction first with
  | nil => exact calm
  | cons event first ih =>
      have rest := ih fun other member => clean other (List.mem_cons_of_mem _ member)
      cases event with
      | threw err => exact absurd (clean _ (List.mem_cons_self ..)) (by simp [Event.thrown?])
      | _ => exact rest

theorem calm_of_clean (clean : ∀ event ∈ log, event.thrown? = none) : Calm log := by
  simpa using Calm.append clean (show Calm [] from trivial)

variable {Answer : Type}

theorem Attempt.sends_events (attempt : Attempt Answer) : sends attempt.events = attempt.sent.toList.length := by
  obtain ⟨sent, outcome⟩ := attempt
  cases sent <;> cases outcome <;> rfl

variable {attempt : Attempt Answer}

/-- The error of an attempt is the last it logs. -/
theorem Attempt.events_of_error (threw : attempt.outcome = .error err) :
    attempt.events = (attempt.sent.map Event.sent).toList ++ [.threw err] := by
  simp only [Attempt.events, threw]

theorem Attempt.events_of_ok {value : Answer} (answered : attempt.outcome = .ok value) :
    attempt.events = (attempt.sent.map Event.sent).toList := by
  simp only [Attempt.events, answered, List.append_nil]

theorem Attempt.sent_clean (attempt : Attempt Answer) (member : event ∈ (attempt.sent.map Event.sent).toList) :
    event.thrown? = none := by
  obtain ⟨sent, outcome⟩ := attempt
  cases sent with
  | none => cases member
  | some request =>
      rw [List.mem_singleton.mp member]
      rfl

end Logs

section Recover

variable {Answer : Type} {source : Source} {shape : RecoveryShape Answer}

/-- What the source does when a recovery ends without a restart. -/
structure Ends (shape : RecoveryShape Answer) (err : Thrown) (ending : List Event × Answer) : Prop where
  clean : ∀ event ∈ ending.1, event.thrown? = none
  unsent : ∀ event ∈ ending.1, event.isSent = false
  calm : (classifyConnectionFailure err).settles = true → ∀ event ∈ ending.1, event.disturbs = false
  value : shape.missed err = some ending.2 ∨ ending.2 = shape.surface err ∨ ending.2 = shape.reauth err

variable {err : Thrown} {value : Answer} {ending : List Event × Answer} {attempt : Nat}

theorem Ends.quiet (ended : shape.missed err = some value ∨ value = shape.surface err ∨ value = shape.reauth err) :
    Ends shape err ([], value) :=
  ⟨fun _ member => absurd member List.not_mem_nil, fun _ member => absurd member List.not_mem_nil,
    fun _ _ member => absurd member List.not_mem_nil, ended⟩

theorem Ends.one {event : Event} (clean : event.thrown? = none) (unsent : event.isSent = false)
    (calm : (classifyConnectionFailure err).settles = true → event.disturbs = false)
    (ended : value = shape.surface err ∨ value = shape.reauth err) : Ends shape err ([event], value) where
  clean other member := by rw [List.mem_singleton.mp member, clean]
  unsent other member := by rw [List.mem_singleton.mp member, unsent]
  calm settled other member := by rw [List.mem_singleton.mp member, calm settled]
  value := .inr ended

/-- Only the classes of a broken connection keep their class for every shape. -/
theorem RecoveryShape.kind_eq (known : classifyConnectionFailure err ≠ .unknown) :
    shape.kind err = classifyConnectionFailure err := by
  simp only [kind, known, if_false]

theorem not_settles_of_down (down : isConnectionDownClass (shape.kind err) = true) :
    (classifyConnectionFailure err).settles = false := by
  by_cases unknown : classifyConnectionFailure err = .unknown
  · rw [unknown]
    rfl
  · rw [shape.kind_eq unknown] at down
    revert down
    cases classifyConnectionFailure err <;> simp [isConnectionDownClass, ConnectionFailure.settles]

theorem recoveryOutcome_some (ended : recoveryOutcome source shape err = some ending) : Ends shape err ending := by
  unfold recoveryOutcome at ended
  cases missed : shape.missed err with
  | some value =>
      simp only [missed, Option.some.injEq] at ended
      exact ended ▸ .quiet (.inl missed)
  | none =>
      simp only [missed] at ended
      split at ended
      · simp only [Option.some.injEq] at ended
        exact ended ▸ .quiet (.inr (.inl rfl))
      · cases policy : policyFor (shape.kind err) shape.idempotent source.hasReauthableProvider with
        | recover => simp only [policy, reduceCtorEq] at ended
        | reauth =>
            simp only [policy, Option.some.injEq] at ended
            exact ended ▸ .one rfl rfl (fun _ => rfl) (.inr rfl)
        | surface =>
            simp only [policy, Option.some.injEq] at ended
            subst ended
            split
            · rename_i down
              exact .one rfl rfl (fun settled => by simp [not_settles_of_down down] at settled) (.inl rfl)
            · exact .quiet (.inr (.inl rfl))

/-- A restart follows only an idempotent call whose failure is of a broken connection or of no known class. -/
theorem recoveryOutcome_none (goes : recoveryOutcome source shape err = none) :
    shape.idempotent = true ∧
      classifyConnectionFailure err ∈ [.sessionLost, .transient, .transportDead, .unknown] := by
  unfold recoveryOutcome at goes
  split at goes
  · cases goes
  dsimp only at goes
  split at goes
  · cases goes
  rename_i answered
  split at goes
  · cases goes
  · cases goes
  rename_i decided
  have ⟨idempotent, unsettled⟩ := policyFor_recover decided answered
  refine ⟨idempotent, ?_⟩
  by_cases unknown : classifyConnectionFailure err = .unknown
  · simp [unknown]
  · rw [shape.kind_eq unknown] at unsettled
    revert unsettled
    cases classifyConnectionFailure err <;> simp [ConnectionFailure.settles]

theorem unsettled_of_restartable {kind : ConnectionFailure}
    (restartable : kind ∈ [.sessionLost, .transient, .transportDead, .unknown]) : kind.settles = false := by
  revert restartable
  cases kind <;> simp [ConnectionFailure.settles]

variable {restarts : Nat → Bool} {op : Nat → Attempt Answer} {firstErr : Thrown}

/-- The events from a failure to the outcome of the next try. -/
def beforeOutcome (delay : Nat) (came : Bool) (sent : Option Request) : List Event :=
  pause delay ++ .restarted came :: (sent.map Event.sent).toList

theorem recoverAttempts_down (delay : Nat) (rest : List Nat) (goes : recoveryOutcome source shape err = none)
    (down : restarts attempt = false) :
    recoverAttempts source shape restarts op firstErr (delay :: rest) attempt err =
      let later := recoverAttempts source shape restarts op firstErr rest (attempt + 1) err
      (beforeOutcome delay false none ++ later.1, later.2) := by
  simp [recoverAttempts, goes, down, beforeOutcome]

theorem recoverAttempts_ok (delay : Nat) (rest : List Nat) (goes : recoveryOutcome source shape err = none)
    (came : restarts attempt = true) (tried : (op attempt).outcome = .ok value) :
    recoverAttempts source shape restarts op firstErr (delay :: rest) attempt err =
      (beforeOutcome delay true (op attempt).sent, value) := by
  simp [recoverAttempts, goes, came, tried, beforeOutcome, Attempt.events_of_ok tried]

/-- A failed try goes on with its error. -/
theorem recoverAttempts_error (delay : Nat) (rest : List Nat) {retryErr : Thrown}
    (goes : recoveryOutcome source shape err = none) (came : restarts attempt = true)
    (tried : (op attempt).outcome = .error retryErr) :
    recoverAttempts source shape restarts op firstErr (delay :: rest) attempt err =
      let later := recoverAttempts source shape restarts op firstErr rest (attempt + 1) retryErr
      (beforeOutcome delay true (op attempt).sent ++ .threw retryErr :: later.1, later.2) := by
  simp [recoverAttempts, goes, came, tried, beforeOutcome, Attempt.events_of_error tried]

theorem recoverAttempts_some (delays : List Nat) (attempt : Nat)
    (ended : recoveryOutcome source shape err = some ending) :
    recoverAttempts source shape restarts op firstErr delays attempt err = ending := by
  cases delays <;> rw [recoverAttempts, ended]

theorem recoverAttempts_nil (attempt : Nat) (goes : recoveryOutcome source shape err = none) :
    recoverAttempts source shape restarts op firstErr [] attempt err =
      ([.crashed ("recovery exhausted: " ++ errMessage firstErr)], shape.surface err) := by
  rw [recoverAttempts, goes]

/-- What holds of a whole recovery after an error. -/
structure Recovers (shape : RecoveryShape Answer) (delays : List Nat) (err : Thrown)
    (ending : List Event × Answer) : Prop where
  within : sends ending.1 ≤ delays.length
  calm : Calm (.threw err :: ending.1)

theorem Ends.recovers {delays : List Nat} (ends : Ends shape err ending) : Recovers shape delays err ending where
  within := by
    rw [sends, List.countP_eq_zero.mpr fun event member => by simp [ends.unsent event member]]
    exact Nat.zero_le _
  calm := ⟨ends.calm, calm_of_clean ends.clean⟩

theorem beforeOutcome_clean (delay : Nat) (came : Bool) (sent : Option Request) :
    ∀ event ∈ beforeOutcome delay came sent, event.thrown? = none := by
  intro event member
  unfold beforeOutcome pause at member
  split at member <;> cases sent <;> simp at member <;> rcases member with rfl | rfl | rfl <;> rfl

theorem sends_beforeOutcome (delay : Nat) (came : Bool) (sent : Option Request) :
    sends (beforeOutcome delay came sent) = sent.toList.length := by
  unfold beforeOutcome pause
  split <;> cases sent <;> simp [Event.isSent]

theorem sends_beforeOutcome_le (delay : Nat) (came : Bool) (sent : Option Request) :
    sends (beforeOutcome delay came sent) ≤ 1 := by
  rw [sends_beforeOutcome]
  cases sent <;> simp

/-- A failure that restarts the source is followed by clean events and a calm rest. -/
theorem Recovers.after {delay : Nat} {rest : List Nat} {front tail log : List Event} (split : log = front ++ tail)
    (unsettled : (classifyConnectionFailure err).settles = false) (clean : ∀ event ∈ front, event.thrown? = none)
    (one : sends front ≤ 1) (within : sends tail ≤ rest.length) (calm : Calm tail) :
    Recovers shape (delay :: rest) err (log, value) where
  within := by
    rw [split, sends_append, List.length_cons]
    omega
  calm := ⟨fun settled => by simp [unsettled] at settled, split ▸ .append clean calm⟩

/-- The induction is on the schedule. Each failed try starts the rest with its own error. -/
theorem recoverAttempts_recovers (delays : List Nat) (attempt : Nat) (err : Thrown) :
    Recovers shape delays err (recoverAttempts source shape restarts op firstErr delays attempt err) := by
  induction delays generalizing attempt err with
  | nil =>
      cases ended : recoveryOutcome source shape err with
      | some ending =>
          rw [recoverAttempts_some _ _ ended]
          exact (recoveryOutcome_some ended).recovers
      | none =>
          rw [recoverAttempts_nil _ ended]
          have unsettled := unsettled_of_restartable (recoveryOutcome_none ended).2
          exact ⟨Nat.le_refl _, fun settled => by simp [unsettled] at settled, trivial⟩
  | cons delay rest ih =>
      cases ended : recoveryOutcome source shape err with
      | some ending =>
          rw [recoverAttempts_some _ _ ended]
          exact (recoveryOutcome_some ended).recovers
      | none =>
          have unsettled := unsettled_of_restartable (recoveryOutcome_none ended).2
          have clean (came : Bool) (sent : Option Request) := beforeOutcome_clean delay came sent
          have one (came : Bool) (sent : Option Request) := sends_beforeOutcome_le delay came sent
          cases came : restarts attempt with
          | false =>
              have later := ih (attempt + 1) err
              rw [recoverAttempts_down delay rest ended came]
              exact .after rfl unsettled (clean false none) (one false none) later.within later.calm.2
          | true =>
              cases tried : (op attempt).outcome with
              | ok value =>
                  rw [recoverAttempts_ok delay rest ended came tried]
                  exact .after (List.append_nil _).symm unsettled (clean true _) (one true _) (Nat.zero_le _) trivial
              | error retryErr =>
                  have later := ih (attempt + 1) retryErr
                  rw [recoverAttempts_error delay rest ended came tried]
                  refine .after rfl unsettled (clean true _) (one true _) ?_ later.calm
                  simpa [Event.isSent] using later.within

theorem sends_recoverAttempts_nil (attempt : Nat) (err : Thrown) :
    sends (recoverAttempts source shape restarts op firstErr [] attempt err).1 = 0 :=
  Nat.le_zero.mp (recoverAttempts_recovers [] attempt err).within

end Recover

section Marker

theorem lastThrown_clean {earlier : Thrown} {log : List Event} (clean : ∀ event ∈ log, event.thrown? = none) :
    lastThrown earlier log = earlier := by
  rw [lastThrown, List.filterMap_eq_nil_iff.mpr clean]
  rfl

@[simp] theorem lastThrown_threw (earlier err : Thrown) (log : List Event) :
    lastThrown earlier (.threw err :: log) = lastThrown err log := by
  simp only [lastThrown, List.filterMap_cons, Event.thrown?, List.getLast?_cons, Option.getD_some]

theorem surfaceCall_marked (source : Source) (task : Bool) (err : Thrown) :
    (surfaceCall source task err).marked = earnsMarker err := by
  by_cases limited : classifyConnectionFailure err = .rateLimited <;> cases earned : earnsMarker err <;>
    simp [surfaceCall, ToolResult.marked, limited, earned, infraErrorMeta]

theorem promoteHiddenErrors_marked (result : ToolResult) : (promoteHiddenErrors result).marked = result.marked := by
  unfold promoteHiddenErrors
  split
  · rfl
  · dsimp only
    split <;> rfl

theorem forAgent_marked (source : Source) (host : Host) (tools : Option (List Tool)) (toolName : String)
    (result : ToolResult) : (forAgent source host tools toolName result).marked = result.marked := by
  unfold forAgent withStructuredContentText
  split
  · rfl
  · split
    · rfl
    · split <;> rfl

theorem not_mem_dropKey {key other : String} {entries : Meta} {value : String}
    (absent : ∀ value, (other, value) ∉ entries) : (other, value) ∉ dropKey key entries :=
  fun member => absent value (List.mem_of_mem_filter member)

/-- No result of the server keeps the marker. -/
theorem toToolResult_marked (source : Source) (result : CallToolResult) :
    (toToolResult source result).marked = false := by
  rw [toToolResult, promoteHiddenErrors_marked]
  cases sent : result.meta_ with
  | none => simp [ToolResult.marked, hostOwnedMetaStripped]
  | some entries =>
      have gone (value : String) : (infraErrorMetaKey, value) ∉ dropKey infraErrorMetaKey entries := by
        simp [dropKey]
      have stripped (value : String) : ∀ kept ∈ hostOwnedMetaStripped (some entries) (source.mode = .inProcess),
          (infraErrorMetaKey, value) ∉ kept := by
        intro kept found
        simp only [hostOwnedMetaStripped, Option.map_some, Option.mem_def, Option.some.injEq] at found
        subst found
        split
        · exact gone value
        · exact not_mem_dropKey fun _ => not_mem_dropKey fun _ => not_mem_dropKey gone
      simp only [ToolResult.marked, Option.any_eq_false, List.any_eq_false, decide_eq_true_eq]
      rintro kept found ⟨key, value⟩ member rfl
      exact stripped value kept found member

variable {source : Source} {host : Host} {call : Call} {dispatchArgs : String} {meta_ : Option String}

variable {result : ToolResult} {world : World} {task : Bool}

theorem callToolInline_marked {tools : Option (List Tool)} {answer : Option (Except Thrown WireResult)}
    (answered : (callToolInline source host call dispatchArgs meta_ tools answer).outcome = .ok result) :
    result.marked = false := by
  cases answer with
  | none =>
      cases answered
      rfl
  | some answer =>
      cases answer with
      | error err => cases answered
      | ok wire =>
          simp only [callToolInline, Except.map, Except.ok.injEq] at answered
          subst answered
          cases wire with
          | inputRequired requests => rfl
          | complete result =>
              dsimp only
              split
              · exact toToolResult_marked source result
              · rw [forAgent_marked, toToolResult_marked]

theorem callToolAsTask_marked
    (answered : (callToolAsTask source host call dispatchArgs meta_ world).outcome = .ok result) :
    result.marked = false := by
  unfold callToolAsTask at answered
  cases started : world.startToolAsTask with
  | none => simp [started] at answered
  | some outcome =>
      cases outcome with
      | error err => simp [started, Except.map] at answered
      | ok finished =>
          simp only [started, Except.map, Except.ok.injEq] at answered
          rw [← answered, forAgent_marked, toToolResult_marked]

theorem dispatch_marked (answered : (dispatch source host call dispatchArgs world).outcome = .ok result) :
    result.marked = false := by
  unfold dispatch at answered
  split at answered
  · cases answered
  · split at answered
    · exact callToolAsTask_marked answered
    · exact callToolInline_marked answered

theorem Ends.marked {err : Thrown} {ending : List Event × ToolResult}
    (ends : Ends (callShape source task) err ending) (marked : ending.2.marked = true) :
    earnsMarker (lastThrown err ending.1) = true := by
  rw [lastThrown_clean ends.clean]
  rcases ends.value with missed | surfaced | asked
  · simp [RecoveryShape.missed, callShape] at missed
  · rw [surfaced] at marked
    exact surfaceCall_marked source task err ▸ marked
  · rw [asked] at marked
    cases marked

variable {restarts : Nat → Bool} {op : Nat → Attempt ToolResult} {firstErr : Thrown}

/-- Only the error a recovery surfaces last earns the marker. -/
theorem recoverAttempts_marked
    (unmarked : ∀ attempt result, (op attempt).outcome = .ok result → result.marked = false) (delays : List Nat)
    (attempt : Nat) (err : Thrown)
    (marked : (recoverAttempts source (callShape source task) restarts op firstErr delays attempt err).2.marked = true) :
    earnsMarker
      (lastThrown err (recoverAttempts source (callShape source task) restarts op firstErr delays attempt err).1) =
        true := by
  induction delays generalizing attempt err with
  | nil =>
      cases ended : recoveryOutcome source (callShape source task) err with
      | some ending =>
          rw [recoverAttempts_some _ _ ended] at marked ⊢
          exact (recoveryOutcome_some ended).marked marked
      | none =>
          rw [recoverAttempts_nil _ ended] at marked ⊢
          exact surfaceCall_marked source task err ▸ marked
  | cons delay rest ih =>
      cases ended : recoveryOutcome source (callShape source task) err with
      | some ending =>
          rw [recoverAttempts_some _ _ ended] at marked ⊢
          exact (recoveryOutcome_some ended).marked marked
      | none =>
          cases came : restarts attempt with
          | false =>
              rw [recoverAttempts_down delay rest ended came] at marked ⊢
              rw [lastThrown_append, lastThrown_clean (beforeOutcome_clean delay false none)]
              exact ih (attempt + 1) err marked
          | true =>
              cases tried : (op attempt).outcome with
              | ok value =>
                  rw [recoverAttempts_ok delay rest ended came tried] at marked
                  simp [unmarked attempt value tried] at marked
              | error retryErr =>
                  rw [recoverAttempts_error delay rest ended came tried] at marked ⊢
                  rw [lastThrown_append, lastThrown_threw]
                  exact ih (attempt + 1) retryErr marked

end Marker

/-- What one call may do, whatever each dispatch and restart of it comes to. -/
structure CallBudget (source : Source) (call : Call) (outcome : List Event × Except Thrown ToolResult) : Prop where
  taskOnce : isTaskAugmented source call = true → sends outcome.1 ≤ 1
  twice : sends outcome.1 ≤ 2
  resent : sends outcome.1 = 2 → ∃ request err rest,
    outcome.1 = .sent request :: .threw err :: .restarted true :: .sent request :: rest ∧
      classifyConnectionFailure err ∈ [.sessionLost, .transient, .transportDead, .unknown]
  calm : ∀ front err back, outcome.1 = front ++ .threw err :: back →
    classifyConnectionFailure err ∈ [.timeout, .rateLimited, .authLost, .none] →
      ∀ event ∈ back, event.disturbs = false
  marker : ∀ result, outcome.2 = .ok result → result.marked = true → ∃ err,
    (outcome.1.filterMap Event.thrown?).getLast? = some err ∧
      classifyConnectionFailure err ∈ [.sessionLost, .transient, .transportDead, .rateLimited] ∧
        err.isProtocolError = false ∧ err.isTaskWireError = false

structure ReadBudget (log : List Event) : Prop where
  within : sends log ≤ 1 + sessionRecoveryDelaysMs.length
  calm : ∀ front err back, log = front ++ .threw err :: back →
    classifyConnectionFailure err ∈ [.timeout, .rateLimited, .authLost, .none] →
      ∀ event ∈ back, event.disturbs = false

variable {log : List Event} {err : Thrown} {dispatchArgs : String} {request : Request}

theorem Calm.classes (calm : Calm log) (front : List Event) (err : Thrown) (back : List Event)
    (split : log = front ++ .threw err :: back)
    (settled : classifyConnectionFailure err ∈ [.timeout, .rateLimited, .authLost, .none]) :
    ∀ event ∈ back, event.disturbs = false := by
  refine fun event member => calm.after split ?_ member
  revert settled
  cases classifyConnectionFailure err <;> simp [ConnectionFailure.settles]

variable {source : Source} {host : Host} {call : Call} {world : World}

/-- A call that sends at most once and earns no marker is within every budget. -/
theorem CallBudget.of_once {outcome : Except Thrown ToolResult} (one : sends log ≤ 1) (calm : Calm log)
    (unmarked : ∀ result, outcome = .ok result → result.marked = false) :
    CallBudget source call (log, outcome) where
  taskOnce _ := one
  twice := Nat.le_succ_of_le one
  resent two := absurd one (by simp only at two; omega)
  calm := calm.classes
  marker result same marked := by simp [unmarked result same] at marked

theorem CallBudget.unsent {result : ToolResult} (unmarked : result.marked = false) :
    CallBudget source call ([], .ok result) :=
  .of_once (Nat.zero_le _) trivial fun _ same => Except.ok.inj same ▸ unmarked

theorem Attempt.sends_le {Answer : Type} (attempt : Attempt Answer) : sends attempt.events ≤ 1 := by
  rw [attempt.sends_events]
  cases attempt.sent <;> simp

/-- What a recovery of a call sends is the second request, and the restart before it came. -/
theorem recover_resent {task : Bool} {restarts : Nat → Bool} {op : Nat → Attempt ToolResult}
    (again : 0 < sends (recover source (callShape source task) restarts op err).1) :
    task = false ∧ classifyConnectionFailure err ∈ [.sessionLost, .transient, .transportDead, .unknown] ∧
      ∃ request rest, (op 0).sent = some request ∧
        (recover source (callShape source task) restarts op err).1 = .restarted true :: .sent request :: rest := by
  have schedule : (callShape source task).delays = [0] := rfl
  unfold recover at again ⊢
  rw [schedule] at again ⊢
  cases ended : recoveryOutcome source (callShape source task) err with
  | some ending =>
      rw [recoverAttempts_some _ _ ended] at again
      have spent : Recovers _ [] _ _ := (recoveryOutcome_some ended).recovers
      exact absurd again (Nat.not_lt.mpr spent.within)
  | none =>
      have ⟨idempotent, restartable⟩ := recoveryOutcome_none ended
      refine ⟨by simpa [callShape] using idempotent, restartable, ?_⟩
      cases came : restarts 0 with
      | false =>
          rw [recoverAttempts_down 0 [] ended came, sends_append, sends_beforeOutcome, sends_recoverAttempts_nil] at again
          cases again
      | true =>
          cases sent : (op 0).sent with
          | none =>
              cases tried : (op 0).outcome with
              | ok value =>
                  rw [recoverAttempts_ok 0 [] ended came tried, sends_beforeOutcome, sent] at again
                  cases again
              | error retryErr =>
                  rw [recoverAttempts_error 0 [] ended came tried, sends_append, sends_beforeOutcome, sent, sends_cons,
                    sends_recoverAttempts_nil] at again
                  cases again
          | some request =>
              refine ⟨request, ?_⟩
              cases tried : (op 0).outcome with
              | ok value => exact ⟨[], rfl, by rw [recoverAttempts_ok 0 [] ended came tried, sent]; rfl⟩
              | error retryErr => exact ⟨_, rfl, by rw [recoverAttempts_error 0 [] ended came tried, sent]; rfl⟩

/-- An inline call is sent again as it was sent. -/
theorem dispatch_sent (inline : isTaskAugmented source call = false)
    (sent : (dispatch source host call dispatchArgs world).sent = some request) :
    request = .callTool call.toolName dispatchArgs call.options.caller world.resourceArgumentsMeta.toOption.join := by
  unfold dispatch at sent
  cases resolved : world.resourceArgumentsMeta with
  | error err => simp [resolved] at sent
  | ok meta_ =>
      simp only [resolved, inline] at sent
      cases answer : world.answers 0 with
      | none => simp [callToolInline, answer] at sent
      | some given =>
          simp only [callToolInline, answer] at sent
          exact (Option.some.inj sent).symm

theorem callToolInline_sent {meta_ : Option String} {tools : Option (List Tool)}
    {answer : Option (Except Thrown WireResult)}
    (sent : (callToolInline source host call dispatchArgs meta_ tools answer).sent = some request) :
    request = .callTool call.toolName dispatchArgs call.options.caller meta_ := by
  cases answer with
  | none => cases sent
  | some given => exact (Option.some.inj sent).symm

/-- What follows the error of the first dispatch. -/
structure Follows (task : Bool) (request : Request) (err : Thrown) (tail : List Event × ToolResult) : Prop where
  calm : Calm (.threw err :: tail.1)
  one : sends tail.1 ≤ 1
  resent : 0 < sends tail.1 → task = false ∧
    classifyConnectionFailure err ∈ [.sessionLost, .transient, .transportDead, .unknown] ∧
      ∃ rest, tail.1 = .restarted true :: .sent request :: rest
  marker : tail.2.marked = true → earnsMarker (lastThrown err tail.1) = true

theorem handleExecuteError_follows (task : Bool) (dispatchArgs : String) (meta_ : Option String) (err : Thrown) :
    Follows task (.callTool call.toolName dispatchArgs call.options.caller meta_) err
      (handleExecuteError source host call dispatchArgs meta_ task world err) := by
  unfold handleExecuteError
  split
  · cases task with
    | false => exact ⟨⟨fun _ => nofun, trivial⟩, Nat.zero_le _, nofun, nofun⟩
    | true =>
        refine ⟨⟨fun _ event member => ?_, trivial⟩, Nat.zero_le _, nofun, nofun⟩
        rw [List.mem_singleton.mp member]
        rfl
  · have recovers : Recovers (callShape source task) toolCallRecoveryDelays err
        (recover source (callShape source task) world.restarts
          (fun attempt => callToolInline source host call dispatchArgs meta_ (world.cachedTools (attempt + 1))
            (world.answers (attempt + 1))) err) := recoverAttempts_recovers ..
    refine ⟨recovers.calm, recovers.within, fun again => ?_, recoverAttempts_marked ?_ toolCallRecoveryDelays 0 err⟩
    · obtain ⟨inline, restartable, request, rest, sent, log⟩ := recover_resent again
      exact ⟨inline, restartable, rest, callToolInline_sent sent ▸ log⟩
    · exact fun attempt result answered => callToolInline_marked answered

/-- The budget of a call whose first dispatch threw. -/
theorem Follows.budget {first : Attempt ToolResult} {tail : List Event × ToolResult}
    (threw : first.outcome = .error err) (follows : Follows (isTaskAugmented source call) request err tail)
    (same : ∀ sent, isTaskAugmented source call = false → first.sent = some sent → sent = request) :
    CallBudget source call (first.events ++ tail.1, .ok tail.2) := by
  have events : first.events = (first.sent.map Event.sent).toList ++ [.threw err] := Attempt.events_of_error threw
  have clean : ∀ event ∈ (first.sent.map Event.sent).toList, event.thrown? = none := fun _ => first.sent_clean
  have before : sends first.events ≤ 1 := first.sends_le
  have whole : Calm (first.events ++ tail.1) := by
    rw [events, List.append_assoc, List.singleton_append]
    exact .append clean follows.calm
  refine ⟨fun task => ?_, ?_, fun two => ?_, whole.classes, fun result answered marked => ?_⟩
  · have quiet : ¬ 0 < sends tail.1 := fun again => by
      have inline := (follows.resent again).1
      simp [task] at inline
    rw [sends_append]
    omega
  · have one := follows.one
    rw [sends_append]
    omega
  · have one := follows.one
    rw [sends_append] at two
    obtain ⟨inline, restartable, rest, log⟩ := follows.resent (by omega)
    cases sent : first.sent with
    | none =>
        rw [first.sends_events, sent] at two
        simp at two
        omega
    | some own =>
        refine ⟨request, err, rest, ?_, restartable⟩
        rw [events, sent, log, same own inline sent]
        rfl
  · cases answered
    refine ⟨lastThrown err tail.1, ?_, ?_⟩
    · rw [events, List.append_assoc, List.filterMap_append, List.filterMap_eq_nil_iff.mpr clean, List.nil_append,
        List.singleton_append, List.filterMap_cons]
      exact List.getLast?_cons
    · have earned := follows.marker marked
      simpa [earnsMarker, infraFailureClasses, and_assoc] using earned

/-- A call is sent again only after a broken connection and a restart. A task is never sent again. -/
theorem failed_call_stays_in_budget :
    (∀ source host call world, CallBudget source call (execute source host call world)) ∧
      ∀ (Resource Data : Type) (source : Source) (reading : Reading Resource Data) (uri : String),
        ReadBudget (readResourceAs source reading uri).1 := by
  refine ⟨fun source host call world => ?_, fun Resource Data source reading uri => ?_⟩
  · unfold execute
    split
    · exact .unsent rfl
    dsimp only
    split
    · exact .unsent rfl
    generalize host.prepareDispatchArgs _ call.input = dispatchArgs
    have one := (dispatch source host call dispatchArgs world).sends_le
    cases threw : (dispatch source host call dispatchArgs world).outcome with
    | ok result =>
        refine .of_once one ?_ fun _ same => Except.ok.inj same ▸ dispatch_marked threw
        rw [Attempt.events_of_ok threw]
        exact calm_of_clean fun _ => Attempt.sent_clean _
    | error err =>
        dsimp only
        split
        · refine .of_once one ?_ nofun
          rw [Attempt.events_of_error threw]
          exact .append (fun _ => Attempt.sent_clean _) ⟨fun _ => nofun, trivial⟩
        · exact (handleExecuteError_follows _ dispatchArgs _ err).budget threw fun _ inline sent =>
            dispatch_sent inline sent
  · unfold readResourceAs
    split
    · exact ⟨Nat.zero_le _, (show Calm [] from trivial).classes⟩
    cases reading.answers 0 with
    | none => exact ⟨Nat.zero_le _, (show Calm [] from trivial).classes⟩
    | some answer =>
        dsimp only
        generalize given : (⟨some (.readResource uri), answer.bind reading.project⟩ : Attempt (Option Data)) = first
        have asked : answer.bind reading.project = first.outcome := by rw [← given]
        rw [asked]
        cases threw : first.outcome with
        | ok data =>
            dsimp only
            refine ⟨Nat.le_trans first.sends_le (Nat.le_add_right ..), Calm.classes ?_⟩
            rw [Attempt.events_of_ok threw]
            exact calm_of_clean fun _ => first.sent_clean
        | error err =>
            dsimp only
            have recovers : Recovers readShape sessionRecoveryDelaysMs err
              (recover source readShape reading.restarts
                (fun attempt => readOnce reading uri err (attempt + 1)) err) := recoverAttempts_recovers ..
            refine ⟨?_, Calm.classes ?_⟩
            · have one := first.sends_le
              have rest := recovers.within
              rw [sends_append]
              omega
            · rw [Attempt.events_of_error threw, List.append_assoc, List.singleton_append]
              exact .append (fun _ => first.sent_clean) recovers.calm

end NimbleBrain.McpSource.Recovery
