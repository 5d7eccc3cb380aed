import NimbleBrain.Library.Transition
import NimbleBrain.Notifications.Types

/- Reads of one connector's outbox move its cursor. No read holds a lock while the server answers. -/

namespace NimbleBrain.Notifications

open Library

/-- The server's own mark of a position. It is only compared. -/
abbrev Cursor := String

/-- The poller reads an outbox as it is due or hinted. An install reads it for a first position. -/
inductive OutboxReader where
  | poller | positionOutbox
  deriving DecidableEq

/-- A poll answer. An event that the parser drops is none. -/
structure OutboxPollResult where
  events : List (Option NotificationEnvelope) := []
  cursor : Option Cursor := none
  deriving DecidableEq

/-- A write to the inbox may throw before the event is there, or after it. -/
inductive AppendFault where
  | none | before | after
  deriving DecidableEq

/-- The cursor that a read writes, and the events that it covers. -/
structure CursorWrite where
  next : Cursor
  events : List (Option NotificationEnvelope)
  deriving DecidableEq

/-- A read in flight. It waits for the server, and then to write its cursor. -/
structure OutboxRead where
  reader : OutboxReader
  startedAt : Nat
  previous : Option Cursor
  write : Option CursorWrite := none
  deriving DecidableEq

/-- The record of one connector in a workspace, its inbox, and the reads in flight. -/
structure Outbox where
  stored : Option Cursor
  storedBy : Option OutboxReader := none
  inbox : List String := []
  reads : List OutboxRead := []
  clearedAt : Option Nat := none
  now : Nat := 0
  deriving DecidableEq

/-- The events are written in order until a write throws. The last cursor among them is returned. -/
def writeEvents (inbox : List String) (last : Option Cursor) :
    List (Option NotificationEnvelope) → List AppendFault → List String × Option (Option Cursor)
  | [], _ => (inbox, some last)
  | none :: rest, faults => writeEvents inbox last rest faults
  | some envelope :: rest, faults =>
      match faults.headD .none with
      | .before => (inbox, none)
      | .after => (inbox.insert envelope.eventId, none)
      | .none => writeEvents (inbox.insert envelope.eventId) (envelope.cursor.or last) rest faults.tail

namespace Outbox

variable (outbox : Outbox)

/-- A record that cannot be read gives no cursor. -/
def readCursor (readable : Bool) : Option Cursor := if readable then outbox.stored else none

def tick : Outbox := { outbox with now := outbox.now + 1 }

def start (reader : OutboxReader) (readable : Bool) : Outbox :=
  { outbox.tick with
    reads := outbox.reads ++
      [{ reader := reader, startedAt := outbox.now, previous := outbox.readCursor readable }] }

/-- One read of the workspace by the poller at a time. -/
def startPoll (readable : Bool) : Option Outbox :=
  if outbox.reads.any (·.reader = .poller) then none else some (outbox.start .poller readable)

def startPosition (readable : Bool) : Outbox :=
  if (outbox.readCursor readable).isSome then outbox.tick else outbox.start .positionOutbox readable

def finish (place : Nat) : Outbox := { outbox.tick with reads := outbox.reads.eraseIdx place }

def wait (place : Nat) (read : OutboxRead) (write : CursorWrite) : Outbox :=
  { outbox.tick with reads := outbox.reads.set place { read with write := some write } }

/-- The answer's own cursor counts before those of its events. -/
def answerPoll (place : Nat) (read : OutboxRead) (answer : Option OutboxPollResult) (faults : List AppendFault) :
    Outbox :=
  match answer with
  | none => outbox.finish place
  | some result =>
      let (inbox, written) := writeEvents outbox.inbox none result.events faults
      let outbox := { outbox with inbox := inbox }
      match written with
      | none => outbox.finish place
      | some last =>
          match result.cursor.or last with
          | none => outbox.finish place
          | some next =>
              if some next = read.previous then outbox.finish place
              else outbox.wait place read { next := next, events := result.events }

def answerPosition (place : Nat) (read : OutboxRead) (answer : Option OutboxPollResult) : Outbox :=
  match answer.bind OutboxPollResult.cursor with
  | none => outbox.finish place
  | some cursor => outbox.wait place read { next := cursor, events := [] }

def answer (place : Nat) (answer : Option OutboxPollResult) (faults : List AppendFault) : Option Outbox :=
  match outbox.reads[place]? with
  | some read =>
      if read.write.isSome then none
      else match read.reader with
        | .poller => some (outbox.answerPoll place read answer faults)
        | .positionOutbox => some (outbox.answerPosition place read answer)
  | none => none

/-- The write lands where the cursor is still the one that the read started from. -/
def lands (read : OutboxRead) (write : CursorWrite) (fails : Bool) : Bool :=
  !fails && decide (outbox.stored = read.previous) && decide (outbox.stored ≠ some write.next)

def writeCursor (place : Nat) (fails : Bool) : Option Outbox :=
  match outbox.reads[place]? with
  | some read => read.write.map fun write =>
      if outbox.lands read write fails then
        { outbox.finish place with stored := some write.next, storedBy := some read.reader }
      else outbox.finish place
  | none => none

def clearCursor (fails : Bool) : Outbox :=
  if fails then outbox.tick
  else { outbox.tick with stored := none, storedBy := none, clearedAt := some outbox.now }

end Outbox

inductive OutboxStep where
  | startPoll (readable : Bool)
  | startPosition (readable : Bool)
  | answer (place : Nat) (answer : Option OutboxPollResult) (faults : List AppendFault)
  | writeCursor (place : Nat) (fails : Bool)
  | clearCursor (fails : Bool)
  deriving DecidableEq

/-- Each update of the record is one step, since the updates of a workspace wait for each other. -/
def outboxSystem : System Outbox OutboxStep where
  initial outbox := outbox.reads = [] ∧ outbox.storedBy = none ∧ outbox.clearedAt = none
  step outbox
    | .startPoll readable => outbox.startPoll readable
    | .startPosition readable => some (outbox.startPosition readable)
    | .answer place answer faults => outbox.answer place answer faults
    | .writeCursor place fails => outbox.writeCursor place fails
    | .clearCursor fails => some (outbox.clearCursor fails)

end NimbleBrain.Notifications

/- A cursor covers only events of the inbox, and no read brings one back, where no read without a cursor is cleared. -/

namespace NimbleBrain.Notifications

open Library

variable {outbox : Outbox}

/-- The read started before the last clear. -/
def Outbox.Stale (outbox : Outbox) (read : OutboxRead) : Prop := ∃ cleared ∈ outbox.clearedAt, read.startedAt < cleared

instance (read : OutboxRead) : Decidable (outbox.Stale read) :=
  inferInstanceAs (Decidable (∃ _ ∈ outbox.clearedAt, _))

/-- A clear finds no read in flight that has no cursor, and no write stores a cursor that such a read started from
before a clear. -/
def NoReadComesBack (outbox : Outbox) : OutboxStep → Prop
  | .clearCursor false => ∀ read ∈ outbox.reads, read.previous ≠ none
  | .writeCursor place fails =>
      ∀ read ∈ outbox.reads[place]?, ∀ write ∈ read.write, outbox.lands read write fails = true →
        ∀ other ∈ outbox.reads, outbox.Stale other → other.previous ≠ some write.next
  | _ => True

instance (step : OutboxStep) : Decidable (NoReadComesBack outbox step) :=
  match step with
  | .clearCursor false => inferInstanceAs (Decidable (∀ _ ∈ outbox.reads, _))
  | .writeCursor place _ => inferInstanceAs (Decidable (∀ _ ∈ outbox.reads[place]?, ∀ _ ∈ _, _ → ∀ _ ∈ outbox.reads, _ → _))
  | .clearCursor true => inferInstanceAs (Decidable True)
  | .startPoll _ | .startPosition _ | .answer .. => inferInstanceAs (Decidable True)

/-- Each event of the answer is in the inbox. -/
def CursorWrite.Covered (write : CursorWrite) (inbox : List String) : Prop :=
  ∀ envelope, some envelope ∈ write.events → envelope.eventId ∈ inbox

theorem CursorWrite.Covered.mono {write : CursorWrite} {inbox later : List String} (covered : write.Covered inbox)
    (more : inbox ⊆ later) : write.Covered later := fun envelope member => more (covered envelope member)

/-- A write of all events leaves each of them in the inbox, with what was there. -/
theorem writeEvents_covers (events : List (Option NotificationEnvelope)) (faults : List AppendFault)
    (inbox : List String) (last : Option Cursor) :
    inbox ⊆ (writeEvents inbox last events faults).1 ∧
      ((writeEvents inbox last events faults).2.isSome →
        ∀ envelope, some envelope ∈ events → envelope.eventId ∈ (writeEvents inbox last events faults).1) := by
  induction events generalizing inbox last faults with
  | nil => simp [writeEvents]
  | cons event rest ih =>
      cases event with
      | none =>
          obtain ⟨kept, covers⟩ := ih faults inbox last
          refine ⟨kept, fun whole envelope member => covers whole envelope ?_⟩
          simpa using member
      | some envelope =>
          rw [writeEvents]
          split
          · simp
          · exact ⟨fun id member => List.mem_insert_of_mem member, by simp⟩
          · obtain ⟨kept, covers⟩ := ih faults.tail (inbox.insert envelope.eventId) (envelope.cursor.or last)
            refine ⟨fun id member => kept (List.mem_insert_of_mem member), fun whole other member => ?_⟩
            rcases List.mem_cons.mp member with same | later
            · obtain rfl := Option.some.inj same
              exact kept List.mem_insert_self
            · exact covers whole other later

/-- A write that waits covers its events, and a read from before a clear finds another cursor than its own. -/
structure Outbox.Sound (outbox : Outbox) : Prop where
  covered : ∀ read ∈ outbox.reads, ∀ write ∈ read.write, write.Covered outbox.inbox
  stale : ∀ read ∈ outbox.reads, outbox.Stale read → read.previous ≠ none ∧ outbox.stored ≠ read.previous
  started : ∀ read ∈ outbox.reads, read.startedAt < outbox.now
  cleared : ∀ cleared ∈ outbox.clearedAt, cleared < outbox.now
  placed : outbox.storedBy.isSome → outbox.stored.isSome

namespace Outbox.Sound

variable {inbox : List String} {place : Nat}

/-- Reads that end leave the rest as it was. -/
theorem of_fewer {reads : List OutboxRead} (sound : outbox.Sound) (fewer : ∀ read ∈ reads, read ∈ outbox.reads)
    (more : outbox.inbox ⊆ inbox) :
    Sound { outbox.tick with reads := reads, inbox := inbox } where
  covered read member write waits := (sound.covered read (fewer read member) write waits).mono more
  stale read member := sound.stale read (fewer read member)
  started read member := Nat.lt_succ_of_lt (sound.started read (fewer read member))
  cleared cleared member := Nat.lt_succ_of_lt (sound.cleared cleared member)
  placed := sound.placed

theorem start (sound : outbox.Sound) (reader : OutboxReader) (readable : Bool) :
    (outbox.start reader readable).Sound where
  covered read member write waits := by
    rcases List.mem_append.mp member with old | new
    · exact sound.covered read old write waits
    · obtain rfl := List.mem_singleton.mp new
      cases waits
  stale read member stale := by
    rcases List.mem_append.mp member with old | new
    · exact sound.stale read old stale
    · obtain rfl := List.mem_singleton.mp new
      obtain ⟨cleared, known, later⟩ := stale
      exact absurd (sound.cleared cleared known) (Nat.lt_asymm later)
  started read member := by
    rcases List.mem_append.mp member with old | new
    · exact Nat.lt_succ_of_lt (sound.started read old)
    · obtain rfl := List.mem_singleton.mp new
      exact Nat.lt_succ_self _
  cleared cleared member := Nat.lt_succ_of_lt (sound.cleared cleared member)
  placed := sound.placed

theorem finish (sound : outbox.Sound) (place : Nat) (more : outbox.inbox ⊆ inbox) :
    (({ outbox with inbox := inbox } : Outbox).finish place).Sound :=
  sound.of_fewer (fun _ member => (List.eraseIdx_sublist _ _).subset member) more

/-- A read that waits to write keeps where it started. -/
theorem wait {read : OutboxRead} {write : CursorWrite} (sound : outbox.Sound)
    (found : outbox.reads[place]? = some read) (more : outbox.inbox ⊆ inbox) (covered : write.Covered inbox) :
    (({ outbox with inbox := inbox } : Outbox).wait place read write).Sound := by
  have listed : read ∈ outbox.reads := List.mem_of_getElem? found
  have cases : ∀ other ∈ outbox.reads.set place { read with write := some write },
      other ∈ outbox.reads ∨ other = { read with write := some write } := fun other member =>
    List.mem_or_eq_of_mem_set member
  constructor
  · intro other member pending waits
    rcases cases other member with old | rfl
    · exact (sound.covered other old pending waits).mono more
    · exact Option.some.inj waits ▸ covered
  · intro other member stale
    rcases cases other member with old | rfl
    · exact sound.stale other old stale
    · exact sound.stale read listed stale
  · intro other member
    rcases cases other member with old | rfl
    · exact Nat.lt_succ_of_lt (sound.started other old)
    · exact Nat.lt_succ_of_lt (sound.started read listed)
  · exact fun cleared member => Nat.lt_succ_of_lt (sound.cleared cleared member)
  · exact sound.placed

theorem answer {result : Option OutboxPollResult} {faults : List AppendFault} {after : Outbox}
    (sound : outbox.Sound) (stepped : outbox.answer place result faults = some after) :
    after.Sound ∧ after.stored = outbox.stored := by
  unfold Outbox.answer at stepped
  split at stepped
  · rename_i read found
    split at stepped
    · cases stepped
    · split at stepped
      · obtain rfl := Option.some.inj stepped
        unfold Outbox.answerPoll
        split
        · exact ⟨sound.finish place (List.Subset.refl _), rfl⟩
        · rename_i result
          obtain ⟨more, covers⟩ := writeEvents_covers result.events faults outbox.inbox none
          dsimp only
          split
          · exact ⟨sound.finish place more, rfl⟩
          · rename_i last written
            split
            · exact ⟨sound.finish place more, rfl⟩
            · split
              · exact ⟨sound.finish place more, rfl⟩
              · exact ⟨sound.wait found more (covers (by simp [written])), rfl⟩
      · obtain rfl := Option.some.inj stepped
        unfold Outbox.answerPosition
        split
        · exact ⟨sound.finish place (List.Subset.refl _), rfl⟩
        · exact ⟨sound.wait found (List.Subset.refl _) fun envelope member => (by cases member), rfl⟩
  · cases stepped

end Outbox.Sound

variable {after : Outbox} {fails : Bool} {place : Nat}

/-- Only a clear and a write that lands change the cursor. -/
theorem writeCursor_cases (stepped : outbox.writeCursor place fails = some after) :
    ∃ read write, outbox.reads[place]? = some read ∧ read.write = some write ∧
      (outbox.lands read write fails = false ∧ after = outbox.finish place ∨
        outbox.lands read write fails = true ∧
          after = { outbox.finish place with stored := some write.next, storedBy := some read.reader }) := by
  unfold Outbox.writeCursor at stepped
  split at stepped
  · rename_i read found
    obtain ⟨write, waits, rfl⟩ := Option.map_eq_some_iff.mp stepped
    refine ⟨read, write, found, waits, ?_⟩
    cases lands : outbox.lands read write fails with
    | false => exact .inl ⟨rfl, rfl⟩
    | true => exact .inr ⟨rfl, rfl⟩
  · cases stepped

theorem Outbox.Sound.writeCursor (sound : outbox.Sound) (met : NoReadComesBack outbox (.writeCursor place fails))
    (stepped : outbox.writeCursor place fails = some after) : after.Sound := by
  obtain ⟨read, write, found, waits, ⟨-, rfl⟩ | ⟨lands, rfl⟩⟩ := writeCursor_cases stepped
  · exact sound.finish place (List.Subset.refl _)
  · have ended := sound.finish place (List.Subset.refl _)
    have fewer : ∀ other ∈ outbox.reads.eraseIdx place, other ∈ outbox.reads := fun _ member =>
      (List.eraseIdx_sublist _ _).subset member
    constructor
    · exact ended.covered
    · intro other member stale
      refine ⟨(sound.stale other (fewer other member) stale).1, fun same => ?_⟩
      exact met read found write waits lands other (fewer other member) stale same.symm
    · exact ended.started
    · exact ended.cleared
    · exact fun _ => rfl

theorem Outbox.Sound.clearCursor (sound : outbox.Sound) (met : NoReadComesBack outbox (.clearCursor fails)) :
    (outbox.clearCursor fails).Sound := by
  cases fails with
  | true => exact sound.of_fewer (fun _ member => member) (List.Subset.refl _)
  | false =>
      constructor
      · exact sound.covered
      · exact fun read member _ => ⟨met read member, (met read member).symm⟩
      · exact fun read member => Nat.lt_succ_of_lt (sound.started read member)
      · intro cleared known
        obtain rfl := Option.some.inj known
        exact Nat.lt_succ_self _
      · simp [Outbox.clearCursor]

theorem Outbox.Sound.step {step : OutboxStep} (sound : outbox.Sound) (met : NoReadComesBack outbox step)
    (stepped : outboxSystem.step outbox step = some after) : after.Sound := by
  cases step with
  | startPoll readable =>
      unfold outboxSystem Outbox.startPoll at stepped
      dsimp only at stepped
      split at stepped
      · cases stepped
      · exact Option.some.inj stepped ▸ sound.start .poller readable
  | startPosition readable =>
      obtain rfl := Option.some.inj stepped
      unfold Outbox.startPosition
      split
      · exact sound.of_fewer (fun _ member => member) (List.Subset.refl _)
      · exact sound.start .positionOutbox readable
  | answer place result faults => exact (sound.answer stepped).1
  | writeCursor place fails => exact sound.writeCursor met stepped
  | clearCursor fails => exact Option.some.inj stepped ▸ sound.clearCursor met

theorem Outbox.Sound.of_reached (reached : outboxSystem.ReachedBy NoReadComesBack outbox) : outbox.Sound := by
  refine reached.invariant Outbox.Sound ?_ fun _ _ _ sound met stepped => sound.step met stepped
  rintro start ⟨reads, storedBy, clearedAt⟩
  constructor <;> simp [reads, storedBy, clearedAt]

/-- What holds of a read whose cursor is stored. -/
structure Outbox.Stores (outbox : Outbox) (read : OutboxRead) (write : CursorWrite) : Prop where
  covered : read.reader = .poller → write.Covered outbox.inbox
  position : outbox.storedBy = some .positionOutbox → read.previous ≠ none
  fresh : ∀ cleared ∈ outbox.clearedAt, cleared ≤ read.startedAt

/-- A cursor changes by a clear, or by a read that covers its events, takes no position's place as a first read, and
started after the last clear. -/
theorem stored_cursor_guarded {step : OutboxStep} {after : Outbox}
    (reached : outboxSystem.ReachedBy NoReadComesBack outbox)
    (stepped : outboxSystem.step outbox step = some after) :
    after.stored = outbox.stored ∨ step = .clearCursor false ∨
      ∃ place read write, step = .writeCursor place false ∧ outbox.reads[place]? = some read ∧
        read.write = some write ∧ after.stored = some write.next ∧ outbox.Stores read write := by
  have sound := Outbox.Sound.of_reached reached
  cases step with
  | startPoll readable =>
      unfold outboxSystem Outbox.startPoll at stepped
      dsimp only at stepped
      split at stepped
      · cases stepped
      · exact .inl (Option.some.inj stepped ▸ rfl)
  | startPosition readable =>
      obtain rfl := Option.some.inj stepped
      unfold Outbox.startPosition
      split <;> exact .inl rfl
  | answer place result faults => exact .inl (sound.answer stepped).2
  | writeCursor place fails =>
      obtain ⟨read, write, found, waits, ⟨-, rfl⟩ | ⟨lands, rfl⟩⟩ := writeCursor_cases stepped
      · exact .inl rfl
      · have listed : read ∈ outbox.reads := List.mem_of_getElem? found
        simp only [Outbox.lands, Bool.and_eq_true, Bool.not_eq_true', decide_eq_true_eq] at lands
        obtain ⟨⟨rfl, same⟩, -⟩ := lands
        refine .inr (.inr ⟨place, read, write, rfl, found, waits, rfl, ?_, ?_, ?_⟩)
        · exact fun _ => sound.covered read listed write waits
        · intro position first
          have stored := sound.placed (by simp [position])
          rw [same, first] at stored
          cases stored
        · intro cleared known
          by_contra early
          exact (sound.stale read listed ⟨cleared, known, Nat.lt_of_not_le early⟩).2 same
  | clearCursor fails =>
      cases fails with
      | true => exact .inl (Option.some.inj stepped ▸ rfl)
      | false => exact .inr (.inl rfl)

/-- A connector that was never read. -/
def unreadOutbox : Outbox := { stored := none }

def outboxEvent : NotificationEnvelope := { eventId := "a", name := "done", timestamp := "", cursor := some "c1" }

/-- An install takes the position, a poll reads an event after it, and an uninstall clears the cursor. -/
theorem stored_cursor_guarded_poll :
    ∃ outbox after, outboxSystem.run unreadOutbox
        [.startPosition true, .answer 0 (some { cursor := some "c0" }) [], .writeCursor 0 false, .startPoll true,
          .answer 0 (some { events := [some outboxEvent] }) []] = some outbox ∧
      outboxSystem.step outbox (.writeCursor 0 false) = some after ∧
        (after.stored = outbox.stored ∨ OutboxStep.writeCursor 0 false = .clearCursor false ∨
          ∃ place read write, OutboxStep.writeCursor 0 false = .writeCursor place false ∧
            outbox.reads[place]? = some read ∧ read.write = some write ∧ after.stored = some write.next ∧
              outbox.Stores read write) := by
  have started : outboxSystem.ReachedBy NoReadComesBack unreadOutbox := .start _ ⟨rfl, rfl, rfl⟩
  have meets : outboxSystem.Meets NoReadComesBack unreadOutbox
      [.startPosition true, .answer 0 (some { cursor := some "c0" }) [], .writeCursor 0 false, .startPoll true,
        .answer 0 (some { events := [some outboxEvent] }) []] := by decide
  exact ⟨_, _, rfl, rfl, stored_cursor_guarded (started.run meets rfl) rfl⟩

/-- The first poll is in flight while the connector is uninstalled, and stores a cursor after that. -/
theorem uninstall_loses_to_first_read :
    ∃ outbox after, outboxSystem.run unreadOutbox
        [.startPoll true, .clearCursor false, .answer 0 (some { cursor := some "c0" }) []] = some outbox ∧
      outboxSystem.step outbox (.writeCursor 0 false) = some after ∧ after.stored = some "c0" ∧
        ∃ read, outbox.reads[0]? = some read ∧ ∃ cleared, outbox.clearedAt = some cleared ∧
          read.startedAt < cleared := by
  exact ⟨_, _, rfl, rfl, rfl, _, rfl, _, rfl, by decide⟩

end NimbleBrain.Notifications
