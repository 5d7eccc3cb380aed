import NimbleBrain.McpSource.Reconnects

/- The health monitor checks every listed source. Its checks may overlap, since a restart backs off first. -/

namespace NimbleBrain.McpSource.Monitor

open Library
open Connection (ProcessLiveness MAX_RESTARTS HealthMonitorOptions)

section Records

variable {Source : Type}

/-- What a source answers when it is asked. The last answer is of the lifecycle. -/
structure View where
  alive : Bool
  stopped : Bool
  uptime : Option Nat
  awaitingReconnect : Bool
  deriving DecidableEq

/-- The number tells one record object from another of the same source. -/
structure ConnectorRecord extends Connection.ConnectorRecord where
  number : Nat
  deriving DecidableEq

/-- The cooldown has not elapsed. -/
def ConnectorRecord.cooling (record : ConnectorRecord) (now : Nat) : Bool :=
  record.cooldownUntil.any fun until_ => now < until_

inductive Phase
  | sleeping (wakeAt : Nat)
  | restarting
  deriving DecidableEq

/-- A check that waits in `attemptRestart` holds its record. -/
structure Attempt (Source : Type) where
  source : Source
  record : Nat
  phase : Phase
  deriving DecidableEq

/-- What the record says at the moment of an entry. -/
structure Reading (Source : Type) where
  source : Source
  now : Nat
  cooldownUntil : Option Nat
  deriving DecidableEq

/-- The events the monitor emits, its calls of `restart`, its reports and the recoveries it takes for sustained. -/
inductive Entry (Source : Type)
  | crashed (source : Source)
  | restarting (reading : Reading Source) (attempt delayMs : Nat)
  | restart (reading : Reading Source) (view : View)
  | recovered (source : Source)
  | cooldown (source : Source) (retryInMs : Nat)
  | sustained (source : Source)
  | reported (reading : Reading Source) (state : ProcessLiveness) (uptime : Option Nat) (restartCount : Nat)
  deriving DecidableEq

/-- The last entry of the log comes first. -/
structure State (Source : Type) where
  now : Nat
  view : Source → View
  records : OrderedMap Source ConnectorRecord := ∅
  seeded : Nat := 0
  attempts : OrderedMap Nat (Attempt Source) := ∅
  begun : Nat := 0
  log : List (Entry Source) := []

end Records

section Checks

variable {Source : Type} [DecidableEq Source]

def State.put (state : State Source) (source : Source) (record : ConnectorRecord) : State Source :=
  { state with records := state.records.set source record }

def State.emit (state : State Source) (entry : Entry Source) : State Source :=
  { state with log := entry :: state.log }

/-- A new record starts from what its source says. -/
def seed (view : View) (number : Nat) : ConnectorRecord where
  state := if view.awaitingReconnect then .awaitingReconnect else if view.alive then .healthy else .restarting
  number := number

/-- A source still listed keeps its record. -/
def syncRecord (old : OrderedMap Source ConnectorRecord) (state : State Source) (source : Source) : State Source :=
  match old.get? source with
  | some record => state.put source record
  | none => { state.put source (seed (state.view source) state.seeded) with seeded := state.seeded + 1 }

def syncRecords (listed : List Source) (state : State Source) : State Source :=
  listed.foldl (syncRecord state.records) { state with records := ∅ }

variable (options : HealthMonitorOptions)

/-- Only a whole interval of uptime clears the count of failures. -/
def sustained (view : View) : Bool := view.uptime.any fun uptime => options.checkIntervalMs ≤ uptime

def resetBackoffIfRecovered (view : View) (record : ConnectorRecord) : ConnectorRecord :=
  if record.restartCount = 0 then record
  else if sustained options view then { record with restartCount := 0 } else record

def State.reading (state : State Source) (source : Source) : Reading Source where
  source
  now := state.now
  cooldownUntil := (state.records.get? source).bind fun record => record.cooldownUntil

/-- The attempt counts before it waits. -/
def attemptRestart (source : Source) (record : ConnectorRecord) (state : State Source) : State Source :=
  let delay := options.baseDelayMs * 2 ^ record.restartCount
  let counted := { record with state := .restarting, restartCount := record.restartCount + 1, cooldownUntil := none }
  { (state.put source counted).emit (.restarting (state.reading source) counted.restartCount delay) with
    attempts := state.attempts.set state.begun ⟨source, record.number, .sleeping (state.now + delay)⟩
    begun := state.begun + 1 }

/-- A check of one source up to its first wait. -/
def checkOne (state : State Source) (source : Source) : State Source :=
  match state.records.get? source with
  | none => state
  | some record =>
      let view := state.view source
      if record.state = .dead then state
      else if view.awaitingReconnect then state.put source { record with state := .awaitingReconnect }
      else if view.alive then
        let healed := resetBackoffIfRecovered options view { record with state := .healthy, cooldownUntil := none }
        if sustained options view then (state.put source healed).emit (.sustained source) else state.put source healed
      else if view.stopped then state.put source { record with state := .dead }
      else if record.cooling state.now then state
      else if MAX_RESTARTS ≤ record.restartCount then
        let cooled := { record with
          state := .cooldown, cooldownUntil := some (state.now + options.cooldownMs), restartCount := 0 }
        ((state.emit (.crashed source)).put source cooled).emit (.cooldown source options.cooldownMs)
      else attemptRestart options source record (state.emit (.crashed source))

/-- No check waits for another one. -/
def check (listed : List Source) (state : State Source) : State Source :=
  let synced := syncRecords listed state
  (synced.records.entries.map Prod.fst).foldl (checkOne options) synced

/-- The back-off is over. The source is restarted without another look at it. -/
def wake (number : Nat) (state : State Source) : Option (State Source) :=
  match state.attempts.get? number with
  | some ⟨source, record, .sleeping wakeAt⟩ =>
      if wakeAt ≤ state.now then
        some { state.emit (.restart (state.reading source) (state.view source)) with
          attempts := state.attempts.set number ⟨source, record, .restarting⟩ }
      else none
  | _ => none

/-- A write to a record that is no longer listed is seen by no one. -/
def settle (source : Source) (number : Nat) (outcome : ProcessLiveness) (state : State Source) : State Source :=
  match state.records.get? source with
  | some record => if record.number = number then state.put source { record with state := outcome } else state
  | none => state

def restarted (number : Nat) (ok : Bool) (state : State Source) : Option (State Source) :=
  match state.attempts.get? number with
  | some ⟨source, record, .restarting⟩ =>
      let ended := { state with attempts := state.attempts.delete number }
      some (if ok then (settle source record .healthy ended).emit (.recovered source)
        else settle source record .restarting ended)
  | _ => none

def statusOf (view : View) (record : ConnectorRecord) : ProcessLiveness :=
  if record.state ≠ .dead && view.awaitingReconnect then .awaitingReconnect else record.state

def report (state : State Source) (entry : Source × ConnectorRecord) : Entry Source :=
  .reported ⟨entry.1, state.now, entry.2.cooldownUntil⟩ (statusOf (state.view entry.1) entry.2)
    (state.view entry.1).uptime entry.2.restartCount

def getStatus (listed : List Source) (state : State Source) : State Source :=
  let synced := syncRecords listed state
  { synced with log := synced.records.entries.reverse.map (report synced) ++ synced.log }

end Checks

section Machine

variable {Source : Type} [DecidableEq Source]

/-- A source may change at any moment, and time passes at any moment. -/
inductive Action (Source : Type)
  | passes (ms : Nat)
  | changes (source : Source) (view : View)
  | check (listed : List Source)
  | wake (number : Nat)
  | restarted (number : Nat) (ok : Bool)
  | getStatus (listed : List Source)
  deriving DecidableEq

variable (options : HealthMonitorOptions)

def step (state : State Source) : Action Source → Option (State Source)
  | .passes ms => some { state with now := state.now + ms }
  | .changes source view => some { state with view := Function.update state.view source view }
  | .check listed => some (check options listed state)
  | .wake number => wake number state
  | .restarted number ok => restarted number ok state
  | .getStatus listed => some (getStatus listed state)

/-- The monitor is built over the sources listed then. -/
def HealthMonitor : System (State Source) (Action Source) where
  initial state := ∃ (listed : List Source) (now : Nat) (view : Source → View),
    state = syncRecords listed { now, view }
  step := step options

end Machine

end NimbleBrain.McpSource.Monitor

/- The monitor keeps its schedule while no check and no source overtakes an attempt that waits. -/

namespace NimbleBrain.McpSource.Monitor

open Library
open Connection (ProcessLiveness MAX_RESTARTS HealthMonitorOptions)

section Schedule

variable {Source : Type} [DecidableEq Source]

/-- The attempts on a source since its last cooldown or sustained recovery. -/
def attemptsSince (source : Source) : List (Entry Source) → Nat
  | [] => 0
  | .restarting reading _ _ :: rest => attemptsSince source rest + if reading.source = source then 1 else 0
  | .cooldown other _ :: rest => if other = source then 0 else attemptsSince source rest
  | .sustained other :: rest => if other = source then 0 else attemptsSince source rest
  | _ :: rest => attemptsSince source rest

def Reading.cooling (reading : Reading Source) : Bool := reading.cooldownUntil.any fun until_ => reading.now < until_

/-- What each entry of the log has to respect. -/
def Entry.Allowed : Entry Source → Prop
  | .restarting reading _ _ => reading.cooling = false
  | .restart reading view => reading.cooling = false ∧ view.stopped = false ∧ view.awaitingReconnect = false
  | .reported reading state _ _ => reading.cooling = true → state = .cooldown ∨ state = .awaitingReconnect
  | _ => True

variable (options : HealthMonitorOptions)

/-- A record is dead only after a check that found its source stopped. -/
def DiesStopped (state : State Source) : Prop :=
  ∀ action after, step options state action = some after →
    ∀ source record, after.records.get? source = some record → record.state = .dead →
      (∃ old, state.records.get? source = some old ∧ old.state = .dead) ∨
        ∃ listed, action = .check listed ∧ (state.view source).stopped = true

/-- The schedule of the monitor, in one state of a run. -/
structure OnSchedule (state : State Source) : Prop where
  dead : DiesStopped options state
  bounded : ∀ source, attemptsSince source state.log ≤ MAX_RESTARTS
  restarting : ∀ reading attempt delayMs, .restarting reading attempt delayMs ∈ state.log → reading.cooling = false
  restart : ∀ reading view, .restart reading view ∈ state.log →
    reading.cooling = false ∧ view.stopped = false ∧ view.awaitingReconnect = false
  reported : ∀ reading liveness uptime restartCount, .reported reading liveness uptime restartCount ∈ state.log →
    reading.cooling = true → liveness = .cooldown ∨ liveness = .awaitingReconnect
  single : ∀ (first second : Nat) (one other : Attempt Source), state.attempts.get? first = some one →
    state.attempts.get? second = some other → one.source = other.source → first = second

end Schedule

section Guard

variable {Source : Type} [DecidableEq Source]

/-- An attempt on the source is not over. -/
def State.busy (state : State Source) (source : Source) : Bool :=
  state.attempts.entries.any fun entry => entry.2.source = source

/-- A source found down has no attempt under way. A source found stopped is not cooling. -/
def meetsCheck (state : State Source) (source : Source) : Bool :=
  match state.records.get? source with
  | none => true
  | some record =>
      let view := state.view source
      if record.state = .dead || view.awaitingReconnect || view.alive then true
      else if view.stopped then !record.cooling state.now
      else record.cooling state.now || !state.busy source

/-- A source listed again has no attempt counted. -/
def meetsSync (listed : List Source) (state : State Source) : Bool :=
  listed.all fun source => (state.records.get? source).isSome || attemptsSince source state.log = 0

variable (options : HealthMonitorOptions)

/-- The checks of the sources meet the guard one after the other. -/
def meetsChecks : List Source → State Source → Bool
  | [], _ => true
  | source :: rest, state => meetsCheck state source && meetsChecks rest (checkOne options state source)

/-- A source whose back-off ends is neither stopped nor waiting for its user. -/
def meetsWake (number : Nat) (state : State Source) : Bool :=
  match state.attempts.get? number with
  | some attempt => !(state.view attempt.source).stopped && !(state.view attempt.source).awaitingReconnect
  | none => true

def meets (state : State Source) : Action Source → Bool
  | .check listed =>
      meetsSync listed state &&
        meetsChecks options ((syncRecords listed state).records.entries.map Prod.fst) (syncRecords listed state)
  | .wake number => meetsWake number state
  | .getStatus listed => meetsSync listed state
  | _ => true

/-- No check overtakes an attempt, and no source changes under one. -/
def Undisturbed : System.Guard (State Source) (Action Source) := fun state action => meets options state action = true

instance (state : State Source) (action : Action Source) : Decidable (Undisturbed options state action) :=
  inferInstanceAs (Decidable (_ = true))

end Guard

section Invariant

variable {Source : Type} [DecidableEq Source]

/-- What every state of an undisturbed run keeps. -/
structure Sound (state : State Source) : Prop where
  allowed : ∀ entry ∈ state.log, entry.Allowed
  bounded : ∀ source, attemptsSince source state.log ≤ MAX_RESTARTS
  counted : ∀ source record, state.records.get? source = some record →
    record.restartCount = attemptsSince source state.log
  shown : ∀ source record, state.records.get? source = some record → record.cooling state.now = true →
    record.state = .cooldown ∨ record.state = .awaitingReconnect
  warm : ∀ source record, state.records.get? source = some record → state.busy source = true →
    record.cooldownUntil = none
  single : ∀ (first second : Nat) (one other : Attempt Source), state.attempts.get? first = some one →
    state.attempts.get? second = some other → one.source = other.source → first = second
  fresh : ∀ number attempt, state.attempts.get? number = some attempt → number < state.begun

variable {state : State Source}

theorem State.busy_of_get? {number : Nat} {attempt : Attempt Source}
    (waits : state.attempts.get? number = some attempt) : state.busy attempt.source = true := by
  rw [busy, List.any_eq_true]
  exact ⟨(number, attempt), OrderedMap.get?_eq_some_iff.mp waits, decide_eq_true rfl⟩

theorem State.busy_eq_true {source : Source} :
    state.busy source = true ↔ ∃ number attempt, state.attempts.get? number = some attempt ∧ attempt.source = source := by
  constructor
  · rw [busy, List.any_eq_true]
    rintro ⟨⟨number, attempt⟩, member, same⟩
    exact ⟨number, attempt, OrderedMap.get?_eq_some_iff.mpr member, of_decide_eq_true same⟩
  · rintro ⟨number, attempt, waits, rfl⟩
    exact busy_of_get? waits

/-- A record written with its entries keeps the invariant when it fits them. -/
theorem Sound.write (sound : Sound state) (source : Source) (record : ConnectorRecord)
    (entries : List (Entry Source)) (allowed : ∀ entry ∈ entries, entry.Allowed)
    (others : ∀ other, other ≠ source → attemptsSince other (entries ++ state.log) = attemptsSince other state.log)
    (counted : record.restartCount = attemptsSince source (entries ++ state.log))
    (bounded : record.restartCount ≤ MAX_RESTARTS)
    (shown : record.cooling state.now = true → record.state = .cooldown ∨ record.state = .awaitingReconnect)
    (warm : state.busy source = true → record.cooldownUntil = none) :
    Sound { state.put source record with log := entries ++ state.log } := by
  have found {other : Source} {written : ConnectorRecord}
      (written_ : (state.records.set source record).get? other = some written) :
      (other = source ∧ written = record) ∨ (other ≠ source ∧ state.records.get? other = some written) := by
    rw [OrderedMap.get?_set] at written_
    split at written_
    · rename_i same
      exact .inl ⟨same, (Option.some.inj written_).symm⟩
    · rename_i apart
      exact .inr ⟨apart, written_⟩
  refine ⟨fun entry member => ?_, fun other => ?_, fun other written found_ => ?_, fun other written found_ cools => ?_,
    fun other written found_ waits => ?_, sound.single, sound.fresh⟩
  · rcases List.mem_append.mp member with new | old
    · exact allowed entry new
    · exact sound.allowed entry old
  · by_cases same : other = source
    · subst same
      exact counted ▸ bounded
    · rw [others other same]
      exact sound.bounded other
  · rcases found found_ with ⟨rfl, rfl⟩ | ⟨apart, old⟩
    · exact counted
    · rw [others other apart]
      exact sound.counted other written old
  · rcases found found_ with ⟨rfl, rfl⟩ | ⟨apart, old⟩
    · exact shown cools
    · exact sound.shown other written old cools
  · rcases found found_ with ⟨rfl, rfl⟩ | ⟨apart, old⟩
    · exact warm waits
    · exact sound.warm other written old waits

end Invariant

section Sync

variable {Source : Type} [DecidableEq Source]

/-- A sync changes only the records and their numbers. -/
structure Synced (before after : State Source) : Prop where
  now : after.now = before.now
  view : after.view = before.view
  attempts : after.attempts = before.attempts
  begun : after.begun = before.begun
  log : after.log = before.log

omit [DecidableEq Source] in
theorem Synced.trans {first second third : State Source} (one : Synced first second) (other : Synced second third) :
    Synced first third :=
  ⟨other.now.trans one.now, other.view.trans one.view, other.attempts.trans one.attempts,
    other.begun.trans one.begun, other.log.trans one.log⟩

theorem Synced.busy {before after : State Source} (synced : Synced before after) (source : Source) :
    after.busy source = before.busy source := by
  rw [State.busy, synced.attempts, State.busy]

theorem syncRecord_synced (old : OrderedMap Source ConnectorRecord) (state : State Source) (source : Source) :
    Synced state (syncRecord old state source) := by
  unfold syncRecord
  split <;> exact ⟨rfl, rfl, rfl, rfl, rfl⟩

/-- A record of a sync is an old one or is seeded from its source. -/
def Descends (old : OrderedMap Source ConnectorRecord) (view : Source → View) (listed : List Source)
    (state : State Source) : Prop :=
  ∀ source record, state.records.get? source = some record →
    old.get? source = some record ∨
      (old.get? source = none ∧ source ∈ listed ∧ ∃ number, record = seed (view source) number)

variable {listed : List Source} {state : State Source}

theorem syncRecord_descends {old : OrderedMap Source ConnectorRecord} {source : Source}
    (descends : Descends old state.view listed state) (member : source ∈ listed) :
    Descends old state.view listed (syncRecord old state source) := by
  intro other record found
  unfold syncRecord at found
  cases before : old.get? source with
  | some kept =>
      rw [before] at found
      simp only [State.put, OrderedMap.get?_set] at found
      split at found
      · rename_i same
        exact .inl (by rw [same, before, found])
      · exact descends other record found
  | none =>
      rw [before] at found
      simp only [State.put, OrderedMap.get?_set] at found
      split at found
      · rename_i same
        exact .inr ⟨by rw [same, before], same ▸ member, state.seeded, by rw [same]; exact (Option.some.inj found).symm⟩
      · exact descends other record found

theorem syncRecords_spec (listed : List Source) (state : State Source) :
    Synced state (syncRecords listed state) ∧
      Descends state.records state.view listed (syncRecords listed state) := by
  have walked (rest : List Source) (inside : ∀ source ∈ rest, source ∈ listed) (before : State Source)
      (synced : Synced state before) (descends : Descends state.records state.view listed before) :
      Synced state (rest.foldl (syncRecord state.records) before) ∧
        Descends state.records state.view listed (rest.foldl (syncRecord state.records) before) := by
    induction rest generalizing before with
    | nil => exact ⟨synced, descends⟩
    | cons source rest ih =>
        have next := syncRecord_synced state.records before source
        have kept := syncRecord_descends (synced.view ▸ descends) (inside source (List.mem_cons_self ..))
        refine ih (fun other member => inside other (List.mem_cons_of_mem _ member)) _ (synced.trans next) ?_
        exact synced.view ▸ kept
  exact walked listed (fun _ member => member) _ ⟨rfl, rfl, rfl, rfl, rfl⟩ fun source record found => by cases found

theorem Sound.sync (sound : Sound state) (met : meetsSync listed state = true) :
    Sound (syncRecords listed state) := by
  obtain ⟨synced, descends⟩ := syncRecords_spec listed state
  refine ⟨?_, ?_, fun source record found => ?_, fun source record found cools => ?_, fun source record found waits => ?_,
    ?_, ?_⟩
  · rw [synced.log]
    exact sound.allowed
  · rw [synced.log]
    exact sound.bounded
  · rw [synced.log]
    rcases descends source record found with old | ⟨unlisted, member, number, rfl⟩
    · exact sound.counted source record old
    · have spent := List.all_eq_true.mp met source member
      rw [unlisted, Option.isSome_none, Bool.false_or, decide_eq_true_eq] at spent
      exact spent.symm
  · rw [synced.now] at cools
    rcases descends source record found with old | ⟨_, _, number, rfl⟩
    · exact sound.shown source record old cools
    · cases cools
  · rw [synced.busy] at waits
    rcases descends source record found with old | ⟨_, _, number, rfl⟩
    · exact sound.warm source record old waits
    · rfl
  · rw [synced.attempts]
    exact sound.single
  · rw [synced.attempts, synced.begun]
    exact sound.fresh

end Sync

section Checks

variable {Source : Type} [DecidableEq Source] {options : HealthMonitorOptions} {state : State Source} {source : Source}

/-- Other attempts keep the invariant when they are fresh, single and under no cooldown. -/
theorem Sound.withAttempts (sound : Sound state) {attempts : OrderedMap Nat (Attempt Source)} {begun : Nat}
    (warm : ∀ number attempt record, attempts.get? number = some attempt →
      state.records.get? attempt.source = some record → record.cooldownUntil = none)
    (single : ∀ (first second : Nat) (one other : Attempt Source), attempts.get? first = some one →
      attempts.get? second = some other → one.source = other.source → first = second)
    (fresh : ∀ number attempt, attempts.get? number = some attempt → number < begun) :
    Sound { state with attempts, begun } where
  allowed := sound.allowed
  bounded := sound.bounded
  counted := sound.counted
  shown := sound.shown
  warm source record found waits := by
    obtain ⟨number, attempt, given, rfl⟩ := State.busy_eq_true.mp waits
    exact warm number attempt record given found
  single := single
  fresh := fresh

variable {record : ConnectorRecord}

theorem Sound.begins (sound : Sound state) {attempt : Attempt Source}
    (found : state.records.get? attempt.source = some record) (warm : record.cooldownUntil = none)
    (idle : state.busy attempt.source = false) :
    Sound { state with attempts := state.attempts.set state.begun attempt, begun := state.begun + 1 } := by
  have given {number : Nat} {other : Attempt Source}
      (waits : (state.attempts.set state.begun attempt).get? number = some other) :
      (number = state.begun ∧ other = attempt) ∨ (number < state.begun ∧ state.attempts.get? number = some other) := by
    rw [OrderedMap.get?_set] at waits
    split at waits
    · rename_i same
      exact .inl ⟨same, (Option.some.inj waits).symm⟩
    · exact .inr ⟨sound.fresh number other waits, waits⟩
  have apart {number : Nat} {other : Attempt Source} (waits : state.attempts.get? number = some other) :
      other.source ≠ attempt.source := by
    intro same
    have busy := State.busy_of_get? waits
    rw [same, idle] at busy
    cases busy
  refine sound.withAttempts (fun number other kept waits known => ?_)
    (fun first second one other waits waiting same => ?_) fun number other waits => ?_
  · rcases given waits with ⟨_, rfl⟩ | ⟨_, old⟩
    · rw [found] at known
      exact Option.some.inj known ▸ warm
    · exact sound.warm other.source kept known (State.busy_of_get? old)
  · rcases given waits with ⟨rfl, rfl⟩ | ⟨_, old⟩ <;> rcases given waiting with ⟨rfl, rfl⟩ | ⟨_, older⟩
    · rfl
    · exact absurd same.symm (apart older)
    · exact absurd same (apart old)
    · exact sound.single first second one other old older same
  · rcases given waits with ⟨rfl, _⟩ | ⟨earlier, _⟩
    · exact Nat.lt_succ_self _
    · exact Nat.lt_succ_of_lt earlier

/-- A record written without an entry. -/
theorem Sound.put (sound : Sound state) {old : ConnectorRecord} (found : state.records.get? source = some old)
    (count : record.restartCount = old.restartCount)
    (shown : record.cooling state.now = true → record.state = .cooldown ∨ record.state = .awaitingReconnect)
    (warm : record.cooldownUntil = none ∨ record.cooldownUntil = old.cooldownUntil) :
    Sound (state.put source record) := by
  have counted := sound.counted source old found
  refine sound.write source record [] nofun (fun _ _ => rfl) (count.trans counted) ?_ shown fun waits => ?_
  · rw [count, counted]
    exact sound.bounded source
  · rcases warm with none_ | kept
    · exact none_
    · exact kept.trans (sound.warm source old found waits)

theorem Sound.attemptRestart (sound : Sound state) (found : state.records.get? source = some record)
    (cooled : record.cooling state.now = false) (room : record.restartCount < MAX_RESTARTS)
    (idle : state.busy source = false) :
    Sound (attemptRestart options source record (state.emit (.crashed source))) := by
  have reading : ((state.emit (.crashed source)).reading source).cooling = false := by
    simpa [State.reading, State.emit, Reading.cooling, found, ConnectorRecord.cooling] using cooled
  have counted := sound.counted source record found
  have written := sound.write source
    { record with state := .restarting, restartCount := record.restartCount + 1, cooldownUntil := none }
    [.restarting ((state.emit (.crashed source)).reading source) (record.restartCount + 1)
      (options.baseDelayMs * 2 ^ record.restartCount), .crashed source]
    (fun entry member => by
      rcases List.mem_cons.mp member with rfl | member
      · exact reading
      · rw [List.mem_singleton.mp member]
        trivial)
    (fun other apart => by simp [attemptsSince, State.reading, apart.symm])
    (by simp [attemptsSince, State.reading, counted]) room nofun fun _ => rfl
  exact written.begins (OrderedMap.get?_set_self ..) rfl idle

theorem resetBackoffIfRecovered_count (view : View) (record : ConnectorRecord) :
    (resetBackoffIfRecovered options view record).restartCount =
      if sustained options view then 0 else record.restartCount := by
  unfold resetBackoffIfRecovered
  by_cases none_ : record.restartCount = 0
  · simp [none_]
  · cases sustained options view <;> simp [none_]

theorem resetBackoffIfRecovered_cooldown (view : View) (record : ConnectorRecord) :
    (resetBackoffIfRecovered options view record).cooldownUntil = record.cooldownUntil := by
  unfold resetBackoffIfRecovered
  split
  · rfl
  · split <;> rfl

theorem not_cooling_of_none {now : Nat} (none_ : record.cooldownUntil = none) :
    record.cooling now = false := by
  rw [ConnectorRecord.cooling, none_]
  rfl

/-- A source seen alive loses its cooldown, and its count when it stayed up. -/
theorem Sound.heals (sound : Sound state)
    (found : state.records.get? source = some record) {healed : ConnectorRecord}
    (same : healed = resetBackoffIfRecovered options (state.view source)
      { record with state := .healthy, cooldownUntil := none }) :
    Sound (if sustained options (state.view source) then (state.put source healed).emit (.sustained source)
      else state.put source healed) := by
  have count : healed.restartCount = if sustained options (state.view source) then 0 else record.restartCount := by
    rw [same, resetBackoffIfRecovered_count]
  have none_ : healed.cooldownUntil = none := by rw [same, resetBackoffIfRecovered_cooldown]
  have cold : healed.cooling state.now = true → healed.state = .cooldown ∨ healed.state = .awaitingReconnect := by
    simp [not_cooling_of_none none_]
  cases stayed : sustained options (state.view source) with
  | true =>
      rw [stayed, if_pos rfl] at count
      exact sound.write source healed [.sustained source] (by simp [Entry.Allowed])
        (fun other apart => by simp [attemptsSince, apart.symm]) (by simp [attemptsSince, count])
        (by rw [count]; exact Nat.zero_le _) cold fun _ => none_
  | false =>
      rw [stayed, if_neg (by simp)] at count
      exact sound.put found count cold (.inl none_)

/-- A source whose attempts are spent cools down. -/
theorem Sound.cools (sound : Sound state) (idle : state.busy source = false) :
    Sound (((state.emit (.crashed source)).put source
      { record with state := .cooldown, cooldownUntil := some (state.now + options.cooldownMs), restartCount := 0 }).emit
        (.cooldown source options.cooldownMs)) :=
  sound.write source
    { record with state := .cooldown, cooldownUntil := some (state.now + options.cooldownMs), restartCount := 0 }
    [.cooldown source options.cooldownMs, .crashed source]
    (by simp [Entry.Allowed]) (fun other apart => by simp [attemptsSince, apart.symm]) (by simp [attemptsSince])
    (Nat.zero_le _) (fun _ => .inl rfl) fun waits => by simp [idle] at waits

theorem Sound.checkOne (sound : Sound state) (met : meetsCheck state source = true) :
    Sound (checkOne options state source) := by
  unfold Monitor.checkOne
  unfold meetsCheck at met
  cases found : state.records.get? source with
  | none => exact sound
  | some record =>
      simp only [found] at met
      dsimp only
      by_cases dead : record.state = .dead
      · rw [if_pos dead]
        exact sound
      rw [if_neg dead]
      cases awaits : (state.view source).awaitingReconnect with
      | true => exact sound.put found rfl (fun _ => .inr rfl) (.inr rfl)
      | false =>
          cases alive : (state.view source).alive with
          | true => exact sound.heals found rfl
          | false =>
              simp only [dead, awaits, alive, decide_false, Bool.or_self, Bool.false_eq_true, if_false] at met
              cases stopped : (state.view source).stopped with
              | true =>
                  rw [stopped, if_pos rfl, Bool.not_eq_true'] at met
                  refine sound.put found rfl (fun cools => ?_) (.inr rfl)
                  exact absurd (show record.cooling state.now = true from cools) (by simp [met])
              | false =>
                  rw [stopped, if_neg (by simp)] at met
                  cases cools : record.cooling state.now with
                  | true => exact sound
                  | false =>
                      rw [cools, Bool.false_or, Bool.not_eq_true'] at met
                      by_cases spent : MAX_RESTARTS ≤ record.restartCount
                      · simp only [Bool.false_eq_true, if_false, spent, if_true]
                        exact sound.cools met
                      · simp only [Bool.false_eq_true, if_false, spent]
                        exact sound.attemptRestart found cools (Nat.lt_of_not_le spent) met

theorem Sound.checks {sources : List Source} (sound : Sound state) (met : meetsChecks options sources state = true) :
    Sound (sources.foldl (Monitor.checkOne options) state) := by
  induction sources generalizing state with
  | nil => exact sound
  | cons source rest ih =>
      have ⟨first, later⟩ := (Bool.and_eq_true ..).mp met
      exact ih (sound.checkOne first) later

end Checks

section Deaths

variable {Source : Type} [DecidableEq Source] {options : HealthMonitorOptions} {state : State Source}

/-- The record of a source is dead. -/
def State.isDead (state : State Source) (source : Source) : Prop :=
  ∃ record, state.records.get? source = some record ∧ record.state = .dead

variable {other source : Source}

/-- A record that is not written dead kills no source. -/
theorem State.isDead_put {record : ConnectorRecord} (dead : (state.put source record).isDead other) :
    (other = source ∧ record.state = .dead) ∨ state.isDead other := by
  obtain ⟨found, known, died⟩ := dead
  rw [put, OrderedMap.get?_set] at known
  split at known
  · rename_i same
    exact .inl ⟨same, Option.some.inj known ▸ died⟩
  · exact .inr ⟨found, known, died⟩

theorem resetBackoffIfRecovered_state (view : View) (record : ConnectorRecord) :
    (resetBackoffIfRecovered options view record).state = record.state := by
  unfold resetBackoffIfRecovered
  split
  · rfl
  · split <;> rfl

/-- A check kills only a source that it finds stopped. -/
theorem checkOne_isDead (dead : (checkOne options state source).isDead other) :
    state.isDead other ∨ (state.view other).stopped = true := by
  have put {record : ConnectorRecord} (dead : (state.put source record).isDead other) (lives : record.state ≠ .dead) :
      state.isDead other ∨ (state.view other).stopped = true :=
    (State.isDead_put dead).elim (fun died => absurd died.2 lives) .inl
  unfold checkOne at dead
  cases found : state.records.get? source with
  | none => exact .inl (by simpa only [found] using dead)
  | some record =>
      simp only [found] at dead
      split at dead
      · exact .inl dead
      split at dead
      · exact put dead (by simp)
      split at dead
      · split at dead <;> exact put dead (by simp [resetBackoffIfRecovered_state])
      split at dead
      · rename_i stopped
        rcases State.isDead_put dead with ⟨rfl, _⟩ | old
        · exact .inr stopped
        · exact .inl old
      split at dead
      · exact .inl dead
      split at dead <;> exact put dead (by simp)

theorem checkOne_view (source : Source) : (checkOne options state source).view = state.view := by
  unfold checkOne
  split
  · rfl
  · dsimp only
    repeat' split
    all_goals rfl

theorem checks_isDead {sources : List Source} (dead : (sources.foldl (checkOne options) state).isDead other) :
    state.isDead other ∨ (state.view other).stopped = true := by
  induction sources generalizing state with
  | nil => exact .inl dead
  | cons source rest ih =>
      rcases ih dead with earlier | stopped
      · exact checkOne_isDead earlier
      · exact .inr ((@checkOne_view Source _ options state source) ▸ stopped)

theorem syncRecords_isDead {listed : List Source} (dead : (syncRecords listed state).isDead other) :
    state.isDead other := by
  obtain ⟨record, found, died⟩ := dead
  rcases (syncRecords_spec listed state).2 other record found with old | ⟨_, _, number, rfl⟩
  · exact ⟨record, old, died⟩
  · simp only [seed] at died
    split at died
    · cases died
    · split at died <;> cases died

theorem settle_isDead {number : Nat} {outcome : ProcessLiveness} (lives : outcome ≠ .dead)
    (dead : (settle source number outcome state).isDead other) : state.isDead other := by
  unfold settle at dead
  split at dead
  · split at dead
    · exact (State.isDead_put dead).elim (fun died => absurd died.2 lives) id
    · exact dead
  · exact dead

theorem dies_stopped (state : State Source) : DiesStopped options state := by
  intro action after stepped source record found died
  have dead : after.isDead source := ⟨record, found, died⟩
  cases action with
  | passes ms =>
      cases stepped
      exact .inl dead
  | changes changed view =>
      cases stepped
      exact .inl dead
  | check listed =>
      cases stepped
      rcases checks_isDead dead with old | stopped
      · exact .inl (syncRecords_isDead old)
      · exact .inr ⟨listed, rfl, (syncRecords_spec listed state).1.view ▸ stopped⟩
  | wake number =>
      simp only [step, wake] at stepped
      split at stepped
      · split at stepped
        · cases stepped
          exact .inl dead
        · cases stepped
      · cases stepped
  | restarted number ok =>
      simp only [step, restarted] at stepped
      split at stepped
      · rename_i held record waits
        cases stepped
        cases ok with
        | true =>
            have settled : (settle held record .healthy
              { state with attempts := state.attempts.delete number }).isDead source := dead
            have earlier := settle_isDead (by decide) settled
            exact .inl earlier
        | false =>
            have earlier := settle_isDead (by decide) dead
            exact .inl earlier
      · cases stepped
  | getStatus listed =>
      cases stepped
      exact .inl (syncRecords_isDead dead)

end Deaths

variable {Source : Type} [DecidableEq Source] {options : HealthMonitorOptions} {state after : State Source}

theorem Sound.passes (sound : Sound state) (ms : Nat) : Sound { state with now := state.now + ms } where
  allowed := sound.allowed
  bounded := sound.bounded
  counted := sound.counted
  shown source record found cools := by
    refine sound.shown source record found ?_
    cases until_ : record.cooldownUntil with
    | none => simp [ConnectorRecord.cooling, until_] at cools
    | some until_' =>
        simp only [ConnectorRecord.cooling, until_, Option.any_some, decide_eq_true_eq] at cools ⊢
        omega
  warm := sound.warm
  single := sound.single
  fresh := sound.fresh

theorem Sound.changes (sound : Sound state) (view : Source → View) : Sound { state with view } :=
  ⟨sound.allowed, sound.bounded, sound.counted, sound.shown, sound.warm, sound.single, sound.fresh⟩

/-- An entry that counts nothing may be logged. -/
theorem Sound.logs (sound : Sound state) {entries : List (Entry Source)}
    (allowed : ∀ entry ∈ entries, entry.Allowed)
    (uncounted : ∀ source log, attemptsSince source (entries ++ log) = attemptsSince source log) :
    Sound { state with log := entries ++ state.log } where
  allowed entry member := (List.mem_append.mp member).elim (allowed entry) (sound.allowed entry)
  bounded source := uncounted source state.log ▸ sound.bounded source
  counted source record found := (sound.counted source record found).trans (uncounted source state.log).symm
  shown := sound.shown
  warm := sound.warm
  single := sound.single
  fresh := sound.fresh

/-- Attempts that were under way stay within the invariant. -/
theorem Sound.keeps (sound : Sound state) {attempts : OrderedMap Nat (Attempt Source)}
    (kept : ∀ number attempt, attempts.get? number = some attempt →
      ∃ old, state.attempts.get? number = some old ∧ old.source = attempt.source) : Sound { state with attempts } := by
  refine sound.withAttempts (fun number attempt record given found => ?_)
    (fun first second one other given given' same => ?_) fun number attempt given => ?_
  · obtain ⟨old, waits, source⟩ := kept number attempt given
    exact sound.warm attempt.source record found (source ▸ State.busy_of_get? waits)
  · obtain ⟨old, waits, source⟩ := kept first one given
    obtain ⟨older, waits', source'⟩ := kept second other given'
    exact sound.single first second old older waits waits' (by rw [source, source', same])
  · obtain ⟨old, waits, _⟩ := kept number attempt given
    exact sound.fresh number old waits

variable {number : Nat}

theorem Sound.wake (sound : Sound state) (met : meetsWake number state = true)
    (stepped : wake number state = some after) : Sound after := by
  unfold Monitor.wake at stepped
  split at stepped
  · rename_i source record wakeAt waits
    split at stepped
    · cases stepped
      have busy : state.busy source = true := State.busy_of_get? waits
      have cold : (state.reading source).cooling = false := by
        unfold State.reading Reading.cooling
        cases found : state.records.get? source with
        | none => rfl
        | some known => simp [sound.warm source known found busy]
      have awake : (state.view source).stopped = false ∧ (state.view source).awaitingReconnect = false := by
        simpa [meetsWake, waits] using met
      have allowed : ∀ entry ∈ [Entry.restart (state.reading source) (state.view source)], entry.Allowed := by
        intro entry member
        rw [List.mem_singleton.mp member]
        exact ⟨cold, awake⟩
      refine (sound.logs allowed fun _ _ => rfl).keeps fun other attempt given => ?_
      rw [OrderedMap.get?_set] at given
      split at given
      · rename_i same
        exact ⟨_, same ▸ waits, Option.some.inj given ▸ rfl⟩
      · exact ⟨attempt, given, rfl⟩
    · cases stepped
  · cases stepped

theorem Sound.settle (sound : Sound state) {source : Source} {outcome : ProcessLiveness}
    (warm : ∀ record, state.records.get? source = some record → record.cooldownUntil = none) :
    Sound (settle source number outcome state) := by
  unfold Monitor.settle
  cases found : state.records.get? source with
  | none => exact sound
  | some record =>
      dsimp only
      split
      · refine sound.put found rfl (fun cools => ?_) (.inr rfl)
        exact absurd (show record.cooling state.now = true from cools) (by simp [not_cooling_of_none (warm record found)])
      · exact sound

theorem Sound.restarted (sound : Sound state) {ok : Bool} (stepped : restarted number ok state = some after) :
    Sound after := by
  unfold Monitor.restarted at stepped
  split at stepped
  · rename_i source record waits
    cases stepped
    have ended : Sound { state with attempts := state.attempts.delete number } := by
      refine sound.keeps fun other attempt given => ⟨attempt, ?_, rfl⟩
      rw [OrderedMap.get?_delete] at given
      split at given
      · cases given
      · exact given
    have warm (known : ConnectorRecord) (found : state.records.get? source = some known) :
        known.cooldownUntil = none := sound.warm source known found (State.busy_of_get? waits)
    cases ok with
    | true =>
        have settled : Sound (Monitor.settle source record .healthy _) := ended.settle warm
        have allowed : ∀ entry ∈ [Entry.recovered source], entry.Allowed := by simp [Entry.Allowed]
        exact settled.logs allowed fun _ _ => rfl
    | false => exact ended.settle warm
  · cases stepped

theorem attemptsSince_reports (source : Source) (log : List (Entry Source))
    (records : List (Source × ConnectorRecord)) :
    attemptsSince source (records.map (report state) ++ log) = attemptsSince source log := by
  induction records with
  | nil => rfl
  | cons entry rest ih => exact ih

/-- A cooling record is reported so, or as waiting for its user. -/
theorem Sound.report_allowed (sound : Sound state) {entry : Source × ConnectorRecord}
    (member : entry ∈ state.records.entries) : (report state entry).Allowed := by
  intro cools
  have found := OrderedMap.get?_eq_some_iff.mpr member
  have shown := sound.shown entry.1 entry.2 found cools
  unfold statusOf
  split
  · exact .inr rfl
  · exact shown

theorem Sound.getStatus (sound : Sound state) {listed : List Source} (met : meetsSync listed state = true) :
    Sound (getStatus listed state) := by
  have synced := sound.sync met
  refine synced.logs (fun entry member => ?_) fun source log => attemptsSince_reports source log _
  obtain ⟨record, inside, rfl⟩ := List.mem_map.mp member
  exact synced.report_allowed (List.mem_reverse.mp inside)

/-- Every undisturbed step keeps the invariant. -/
theorem Sound.step (sound : Sound state) {action : Action Source} (met : meets options state action = true)
    (stepped : step options state action = some after) : Sound after := by
  cases action with
  | passes ms => exact Option.some.inj stepped ▸ sound.passes ms
  | changes source view => exact Option.some.inj stepped ▸ sound.changes _
  | check listed =>
      have ⟨listing, checks⟩ := (Bool.and_eq_true ..).mp met
      exact Option.some.inj stepped ▸ (sound.sync listing).checks checks
  | wake number => exact sound.wake met stepped
  | restarted number ok => exact sound.restarted stepped
  | getStatus listed => exact Option.some.inj stepped ▸ sound.getStatus met

theorem sound_initial (listed : List Source) (now : Nat) (view : Source → View) :
    Sound (syncRecords listed { now, view }) := by
  have blank : Sound ({ now, view } : State Source) :=
    ⟨nofun, fun _ => Nat.zero_le _, nofun, nofun, nofun, nofun, nofun⟩
  exact blank.sync (List.all_eq_true.mpr fun source _ => by simp [attemptsSince])

theorem Sound.onSchedule (sound : Sound state) : OnSchedule options state where
  dead := dies_stopped state
  bounded := sound.bounded
  restarting _ _ _ member := sound.allowed _ member
  restart _ _ member := sound.allowed _ member
  reported _ _ _ _ member := sound.allowed _ member
  single := sound.single

/-- An undisturbed monitor keeps its schedule in every state of every run. -/
theorem undisturbed_on_schedule (reached : (HealthMonitor options).ReachedBy (Undisturbed options) state) :
    OnSchedule options state := by
  refine Sound.onSchedule (reached.invariant Sound (fun first started => ?_) fun _ _ _ sound met stepped =>
    sound.step met stepped)
  obtain ⟨listed, now, view, rfl⟩ := started
  exact sound_initial listed now view

def down : View where
  alive := false
  stopped := false
  uptime := some 0
  awaitingReconnect := false

/-- One source that is down from the start. -/
def crashed : State Nat := syncRecords [0] { now := 0, view := fun _ => down }

theorem crashed_initial : (HealthMonitor {}).initial crashed := ⟨_, _, _, rfl⟩

def failedAttempt (number : Nat) : List (Action Nat) :=
  [.check [0], .passes (1000 * 2 ^ number), .wake number, .restarted number false]

/-- Five attempts fail. The source cools, is tried again and comes back. -/
def outage : List (Action Nat) :=
  (List.range 5).flatMap failedAttempt ++
    [.check [0], .getStatus [0], .passes 300000, .check [0], .passes 1000, .wake 5, .restarted 5 true,
      .changes 0 { down with alive := true, uptime := some 30000 }, .check [0], .getStatus [0]]

theorem outage_on_schedule : ∃ state, (HealthMonitor {}).run crashed outage = some state ∧
    Entry.reported ⟨0, 31000, some 331000⟩ .cooldown (some 0) 0 ∈ state.log ∧ OnSchedule {} state := by
  have ran : ((HealthMonitor {}).run crashed outage).any
      (fun state => Entry.reported ⟨0, 31000, some 331000⟩ .cooldown (some 0) 0 ∈ state.log) = true := by decide +kernel
  have good : (HealthMonitor {}).Meets (Undisturbed {}) crashed outage := by decide +kernel
  obtain ⟨state, ran, shown⟩ := Option.any_eq_true .. |>.mp ran
  exact ⟨state, ran, of_decide_eq_true shown, undisturbed_on_schedule (.run (.start _ crashed_initial) good ran)⟩

/-- A source is stopped while the monitor backs off. -/
def stoppedInBackoff : List (Action Nat) :=
  [.check [0], .passes 500, .changes 0 { down with stopped := true }, .passes 500, .wake 0]

/-- The monitor starts a source again that was stopped on purpose. -/
theorem stopped_source_restarts :
    ¬ ∀ state : State Nat, (HealthMonitor {}).Reachable state → OnSchedule {} state := by
  intro kept
  have ran : ((HealthMonitor {}).run crashed stoppedInBackoff).any
      (fun state => Entry.restart ⟨0, 1000, none⟩ { down with stopped := true } ∈ state.log) = true := by decide +kernel
  obtain ⟨state, ran, shown⟩ := Option.any_eq_true .. |>.mp ran
  have good := (kept state (.run (.start _ crashed_initial) ran)).restart _ _ (of_decide_eq_true shown)
  exact Bool.noConfusion good.2.1

end NimbleBrain.McpSource.Monitor
