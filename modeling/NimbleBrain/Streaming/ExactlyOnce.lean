import NimbleBrain.Streaming.RunBus

/- The viewer applies each event of a run once, unless an earlier run led its number past the events of a later one. -/

namespace NimbleBrain.Streaming

open Library

@[simp] theorem seenOf_append (run : Nat) (first second : List Applied) :
    seenOf run (first ++ second) = seenOf run first ++ seenOf run second := List.filterMap_append

@[simp] theorem publishedOf_append (run : Nat) (first second : List (Nat × BufferedRunEvent)) :
    publishedOf run (first ++ second) = publishedOf run first ++ publishedOf run second := List.filterMap_append

theorem publishedOf_one (run own : Nat) (event : BufferedRunEvent) :
    publishedOf run [(own, event)] = if own = run then [event] else [] := by
  unfold publishedOf
  rw [List.filterMap_cons, List.filterMap_nil]
  by_cases same : own = run <;> simp [same]

theorem seenOf_turn (run own : Nat) (event : BufferedRunEvent) :
    seenOf run [⟨some own, .turn event.type, event.data, event.seq⟩] = if own = run then [event] else [] := by
  unfold seenOf
  rw [List.filterMap_cons, List.filterMap_nil]
  by_cases same : own = run <;> simp [same]

variable {events : List BufferedRunEvent}

/-- The events after a number are those at the end of a numbered list. -/
theorem filter_after {first : Nat} (numbered : events.map BufferedRunEvent.seq = List.range' first events.length)
    (afterSeq : Nat) (started : first ≤ afterSeq + 1) :
    (events.filter fun event => afterSeq < event.seq) = events.drop (afterSeq + 1 - first) := by
  induction events generalizing first with
  | nil => simp
  | cons event rest ih =>
      rw [List.map_cons, List.length_cons, List.range'_succ, List.cons.injEq] at numbered
      obtain ⟨own, numbered⟩ := numbered
      rcases Nat.lt_or_eq_of_le started with later | now
      · have skipped : ¬ afterSeq < event.seq := by omega
        have moved : afterSeq + 1 - first = afterSeq + 1 - (first + 1) + 1 := by omega
        rw [List.filter_cons, if_neg (by simpa using skipped), moved, List.drop_succ_cons]
        exact ih numbered (by omega)
      · rw [now, Nat.sub_self, List.drop_zero]
        apply List.filter_eq_self.mpr
        intro other member
        have listed : other.seq ∈ List.range' first (rest.length + 1) := by
          rw [List.range'_succ, ← numbered, ← own]
          exact List.mem_map_of_mem member
        rw [List.mem_range'_1] at listed
        simp only [decide_eq_true_eq]
        omega

theorem numbered_take {all : List BufferedRunEvent}
    (numbered : all.map BufferedRunEvent.seq = List.range' 1 all.length) (shorter : events <+: all) :
    events.map BufferedRunEvent.seq = List.range' 1 events.length := by
  obtain ⟨rest, rfl⟩ := shorter
  rw [List.map_append, List.length_append, ← List.range'_append_1] at numbered
  exact (List.append_inj numbered (by simp)).1

/-- A whole frame is read as one event, and leaves nothing behind. -/
theorem consume_frame (viewer : Viewer) (type : FrameType) (run : Option Nat) (data : String) (seq : Option Nat) :
    (frame type run data seq).foldl consumeLine (viewer, {}) = (emitFrame viewer type seq run data, {}) := by
  cases seq <;> rfl

theorem emitFrame_turn (viewer : Viewer) (own : Nat) (event : BufferedRunEvent) (run : Nat) :
    seenOf run (emitFrame viewer (.turn event.type) (some event.seq) (some own) event.data).applied =
      seenOf run viewer.applied ++ if own = run then [event] else [] := by
  rw [emitFrame, if_neg (by simp)]
  dsimp only
  rw [seenOf_append, Option.getD_some, seenOf_turn]

/-- A replay is read as its events. -/
theorem consume_replay (own : Nat) (events : List BufferedRunEvent) (viewer : Viewer) (run : Nat) :
    ((events.flatMap (eventFrame own)).foldl consumeLine (viewer, {})).2 = {} ∧
      seenOf run ((events.flatMap (eventFrame own)).foldl consumeLine (viewer, {})).1.applied =
        seenOf run viewer.applied ++ if own = run then events else [] := by
  induction events generalizing viewer with
  | nil => simp
  | cons event rest ih =>
      rw [List.flatMap_cons, List.foldl_append, eventFrame, consume_frame]
      obtain ⟨reset, seen⟩ := ih (emitFrame viewer (.turn event.type) (some event.seq) (some own) event.data)
      refine ⟨reset, ?_⟩
      rw [seen, emitFrame_turn, List.append_assoc]
      split <;> rfl

/-- Reading only adds what the viewer applied. -/
theorem consumeLine_applied (client : Viewer × SseParserState) (line : SseLine) :
    client.1.applied <+: (consumeLine client line).1.applied := by
  cases line with
  | data run text =>
      rw [consumeLine]
      split
      · rw [emitFrame]
        split
        · exact List.prefix_rfl
        · exact List.prefix_append ..
      · exact List.prefix_rfl
  | _ => exact List.prefix_rfl

theorem consumeAll_applied (lines : List SseLine) (client : Viewer × SseParserState) :
    client.1.applied <+: (lines.foldl consumeLine client).1.applied := by
  induction lines generalizing client with
  | nil => exact List.prefix_rfl
  | cons line rest ih => exact (consumeLine_applied client line).trans (ih (consumeLine client line))

theorem seenOf_take {first second : List Applied} (shorter : first <+: second) (run : Nat) :
    seenOf run first <+: seenOf run second := shorter.filterMap _

/-- The last number is the highest one that was applied. -/
def Viewer.Highest (viewer : Viewer) : Prop := ∀ frame ∈ viewer.applied, frame.seq ≤ viewer.lastSeq

theorem Viewer.Highest.consumeLine {client : Viewer × SseParserState} (highest : client.1.Highest) (line : SseLine) :
    (consumeLine client line).1.Highest := by
  cases line with
  | data run text =>
      rw [Streaming.consumeLine]
      split
      · rw [emitFrame]
        split
        · exact highest
        · intro frame member
          dsimp only at member ⊢
          rcases List.mem_append.mp member with earlier | last
          · have bound := highest frame earlier
            split <;> omega
          · rw [List.mem_singleton.mp last]
            dsimp only
            split <;> omega
      · exact highest
  | _ => exact highest

/-- What a viewer saw of a run has numbers up to its last one. -/
theorem Viewer.Highest.seenOf {viewer : Viewer} (highest : viewer.Highest) {run : Nat} {event : BufferedRunEvent}
    (seen : event ∈ seenOf run viewer.applied) : event.seq ≤ viewer.lastSeq := by
  obtain ⟨frame, member, made⟩ := List.mem_filterMap.mp seen
  have bound := highest frame member
  split at made
  · split at made
    · cases made
      exact bound
    · cases made
  · cases made

theorem writes_publishEvent (subscribers : Subscribers) (failing : List Nat) (id : Nat) :
    writes (publishEvent subscribers failing) [] id = writes subscribers failing id := by
  have found : (publishEvent subscribers failing).get? id =
      (subscribers.get? id).bind fun subscriber =>
        if writes subscribers failing id then some subscriber else none :=
    OrderedMap.get?_filterMap (fun id subscriber => if writes subscribers failing id then some subscriber else none) id
  cases known : subscribers.get? id with
  | none => simp [writes, found, known]
  | some subscriber =>
      cases closed : subscriber.closed <;> by_cases failed : id ∈ failing <;>
        simp [writes, found, known, closed, failed]

theorem writes_of_failing {subscribers : Subscribers} {failing : List Nat} {id : Nat}
    (written : writes subscribers failing id = true) : writes subscribers [] id = true := by
  rw [writes, Bool.and_eq_true] at written ⊢
  exact ⟨written.1, by simp⟩

section Invariant

/-- The number a viewer asks from skips no event of the retained run that it did not see. -/
def Resumes (state : State) : Action → Prop
  | .addSubscriber =>
      ∀ log ∈ state.bus.log,
        state.viewer.lastSeq ≤ (seenOf log.run state.viewer.applied).length ∨
          log.seq ≤ (seenOf log.run state.viewer.applied).length
  | _ => True

instance (state : State) : (action : Action) → Decidable (Resumes state action)
  | .addSubscriber => inferInstanceAs (Decidable (∀ log ∈ state.bus.log, _ ∨ _))
  | .begin | .publish .. | .endRun _ | .cancel | .evict _ | .collect | .reset | .connect | .receive | .drop
  | .addOther | .removeSubscriber _ | .heartbeat .. | .stop => .isTrue trivial

/-- What holds once the viewer read all that was written. -/
structure Coming (state : State) (id : Nat) (last : Viewer × SseParserState) : Prop where
  known : id < state.opened
  ahead : ∀ run, seenOf run last.1.applied <+: publishedOf run state.published
  whole : writes state.subscribers [] id = true →
    last.2 = {} ∧ ∀ log ∈ state.bus.log, seenOf log.run last.1.applied = publishedOf log.run state.published

structure Sound (state : State) : Prop where
  numbered : ∀ run, (publishedOf run state.published).map BufferedRunEvent.seq =
    List.range' 1 (publishedOf run state.published).length
  future : ∀ run, state.bus.begun ≤ run → publishedOf run state.published = []
  retained : ∀ log ∈ state.bus.log,
    log.run < state.bus.begun ∧ log.events = publishedOf log.run state.published ∧ log.seq = log.events.length
  highest : state.viewer.Highest
  seen : ∀ run, seenOf run state.viewer.applied <+: publishedOf run state.published
  asked : ∀ afterSeq, state.connection = .requesting afterSeq → afterSeq = state.viewer.lastSeq
  coming : ∀ id parser unread, state.connection = .reading id parser unread →
    Coming state id (unread.foldl consumeLine (state.viewer, parser))

theorem Sound.start : Sound {} where
  numbered run := rfl
  future run later := rfl
  retained log none := by cases none
  highest frame none := by cases none
  seen run := List.nil_prefix
  asked afterSeq none := by cases none
  coming id parser unread none := by cases none

variable {state : State}

/-- The log of a run that was there, or of one that begins. -/
def Follows (before after : RunBus) : Prop :=
  before.begun ≤ after.begun ∧
    ∀ log ∈ after.log,
      (∃ old ∈ before.log, log.run = old.run ∧ log.events = old.events ∧ log.seq = old.seq) ∨
        log.run = before.begun ∧ before.begun < after.begun ∧ log.events = [] ∧ log.seq = 0

theorem Sound.changeBus (sound : Sound state) {bus : RunBus} (follows : Follows state.bus bus) :
    Sound { state with bus } where
  numbered := sound.numbered
  future run later := sound.future run (Nat.le_trans follows.1 later)
  retained log here := by
    rcases follows.2 log here with ⟨old, there, run, events, seq⟩ | ⟨run, begun, events, seq⟩
    · obtain ⟨begun, all, count⟩ := sound.retained old there
      rw [run, events, seq]
      exact ⟨Nat.lt_of_lt_of_le begun follows.1, all, count⟩
    · rw [run, events, seq, sound.future state.bus.begun (Nat.le_refl _)]
      exact ⟨begun, rfl, rfl⟩
  highest := sound.highest
  seen := sound.seen
  asked := sound.asked
  coming id parser unread reading := by
    have coming := sound.coming id parser unread reading
    refine { known := coming.known, ahead := coming.ahead, whole := fun written => ?_ }
    obtain ⟨reset, whole⟩ := coming.whole written
    refine ⟨reset, fun log here => ?_⟩
    rcases follows.2 log here with ⟨old, there, run, -⟩ | ⟨run, -⟩
    · rw [run]
      exact whole old there
    · have nothing := coming.ahead log.run
      rw [run, sound.future state.bus.begun (Nat.le_refl _)] at nothing ⊢
      exact List.prefix_nil.mp nothing

variable {after : RunBus}

theorem Follows.same {before : RunBus} (begun : after.begun = before.begun)
    (logs : ∀ log ∈ after.log, ∃ old ∈ before.log, log.run = old.run ∧ log.events = old.events ∧ log.seq = old.seq) :
    Follows before after :=
  ⟨Nat.le_of_eq begun.symm, fun log here => .inl (logs log here)⟩

theorem Follows.refl (bus : RunBus) : Follows bus bus :=
  Follows.same rfl fun log here => ⟨log, here, rfl, rfl, rfl⟩

/-- A log may be dropped at any time. -/
theorem Follows.dropped (bus : RunBus) : Follows bus { bus with log := none } :=
  Follows.same rfl fun _ none => nomatch none

variable (limits : BusLimits) (bus : RunBus)

/-- An ended log keeps its events, if it is kept at all. -/
theorem endRun_log (status : RunStatus) :
    (bus.endRun limits status).begun = bus.begun ∧
      ∀ log ∈ (bus.endRun limits status).log, ∃ old ∈ bus.log,
        log.run = old.run ∧ log.events = old.events ∧ log.seq = old.seq := by
  unfold RunBus.endRun
  split
  · next log here =>
    split
    · exact ⟨rfl, fun log here => ⟨log, here, rfl, rfl, rfl⟩⟩
    · split
      · exact ⟨rfl, fun _ none => nomatch none⟩
      · refine ⟨rfl, ?_⟩
        rintro other ⟨⟩
        exact ⟨log, here, rfl, rfl, rfl⟩
  · exact ⟨rfl, fun log here => ⟨log, here, rfl, rfl, rfl⟩⟩

theorem follows_endRun (status : RunStatus) : Follows bus (bus.endRun limits status) :=
  Follows.same (endRun_log limits bus status).1 (endRun_log limits bus status).2

theorem follows_begin (began : bus.begin = some after) : Follows bus after := by
  unfold RunBus.begin at began
  split at began
  · cases began
  · cases began
    refine ⟨Nat.le_succ _, ?_⟩
    rintro log ⟨⟩
    exact .inr ⟨rfl, Nat.lt_succ_self _, rfl, rfl⟩

theorem follows_cancel : Follows bus (bus.cancel limits) := by
  unfold RunBus.cancel
  split
  · next log here =>
    split
    · exact Follows.refl bus
    · obtain ⟨begun, logs⟩ := endRun_log limits { bus with log := some { log with aborted := true } } .cancelled
      refine Follows.same begun fun other there => ?_
      obtain ⟨old, ⟨⟩, same⟩ := logs other there
      exact ⟨log, here, same⟩
  · exact Follows.refl bus

theorem follows_evict (expected : Option Nat) : Follows bus (bus.evict expected) := by
  unfold RunBus.evict
  split
  · split
    · exact Follows.dropped bus
    · exact Follows.refl bus
  · exact Follows.refl bus

theorem follows_collect : Follows bus bus.collect := by
  unfold RunBus.collect
  split
  · split
    · exact Follows.refl bus
    · exact Follows.dropped bus
  · exact Follows.refl bus

end Invariant

section Steps

variable {state : State}

variable {subscribers : Subscribers} {connection : Connection} {failing : List Nat} {lines : List SseLine}
  {log : RunLog} {after : State}

/-- A subscriber comes or goes besides the one that the viewer reads. -/
theorem Sound.changeSubscribers (sound : Sound state) {opened : Nat} (more : state.opened ≤ opened)
    (kept : ∀ id, id < state.opened → writes subscribers [] id = true → writes state.subscribers [] id = true) :
    Sound { state with subscribers, opened } where
  numbered := sound.numbered
  future := sound.future
  retained := sound.retained
  highest := sound.highest
  seen := sound.seen
  asked := sound.asked
  coming id parser unread reading := by
    have coming := sound.coming id parser unread reading
    exact
      { known := Nat.lt_of_lt_of_le coming.known more
        ahead := coming.ahead
        whole := fun written => coming.whole (kept id coming.known written) }

theorem write_requesting {afterSeq : Nat}
    (asking : connection.write subscribers failing lines = .requesting afterSeq) :
    connection = .requesting afterSeq := by
  cases connection with
  | requesting earlier => exact asking
  | idle => cases asking
  | reading id parser unread => cases asking

theorem write_reading {unread : List SseLine} {id : Nat} {parser : SseParserState}
    (reading : connection.write subscribers failing lines = .reading id parser unread) :
    ∃ before, connection = .reading id parser before ∧
      unread = if writes subscribers failing id then before ++ lines else before := by
  cases connection with
  | requesting earlier => cases reading
  | idle => cases reading
  | reading own earlier before =>
      cases reading
      exact ⟨before, rfl, rfl⟩

theorem Sound.heartbeat (sound : Sound state) (text : String) (failing : List Nat) :
    Sound (state.broadcast failing (frame .heartbeat none text none)) where
  numbered := sound.numbered
  future := sound.future
  retained := sound.retained
  highest := sound.highest
  seen := sound.seen
  asked afterSeq asking := sound.asked afterSeq (write_requesting asking)
  coming id parser unread reading := by
    obtain ⟨before, connection, rfl⟩ := write_reading reading
    have coming := sound.coming _ _ _ connection
    change Coming _ id ((if _ then _ else _ : List SseLine).foldl consumeLine (state.viewer, parser))
    by_cases written : writes state.subscribers failing id = true
    · obtain ⟨reset, whole⟩ := coming.whole (writes_of_failing written)
      generalize last : before.foldl consumeLine (state.viewer, parser) = client at coming reset whole
      obtain ⟨viewer, rest⟩ := client
      subst reset
      have same (run : Nat) :
          seenOf run (emitFrame viewer .heartbeat none none text).applied = seenOf run viewer.applied := by
        rw [emitFrame, if_neg (by simp), seenOf_append]
        exact List.append_nil _
      rw [if_pos written, List.foldl_append, last, consume_frame]
      exact
        { known := coming.known
          ahead := fun run => (same run).symm ▸ coming.ahead run
          whole := fun _ => ⟨rfl, fun log here => (same log.run).trans (whole log here)⟩ }
    · rw [if_neg written]
      exact
        { known := coming.known
          ahead := coming.ahead
          whole := fun kept => absurd ((writes_publishEvent ..).symm.trans kept) written }

/-- The bus after a publish keeps the log with its new event, or none. -/
theorem publish_log {limits : BusLimits} {bus : RunBus} {type : TurnEventType} {data : String}
    {event : BufferedRunEvent} (next : bus.nextEvent limits type data = some (log, event)) :
    bus.log = some log ∧ event.seq = log.seq + 1 ∧ (bus.publish limits type data).1.begun = bus.begun ∧
      ∀ after ∈ (bus.publish limits type data).1.log,
        after.run = log.run ∧ after.events = log.events ++ [event] ∧ after.seq = log.seq + 1 := by
  have shape : bus.log = some log ∧ event.seq = log.seq + 1 := by
    unfold RunBus.nextEvent at next
    split at next
    · next here =>
      split at next
      · cases next
      · split at next <;> · cases next; exact ⟨here, rfl⟩
    · cases next
  have own : log.add event.type event.data = { log with seq := log.seq + 1, events := log.events ++ [event] } := by
    rw [RunLog.add, ← shape.2]
  refine ⟨shape.1, shape.2, ?_⟩
  rw [RunBus.publish, next]
  dsimp only
  rw [own]
  split
  · obtain ⟨begun, logs⟩ := endRun_log limits
      { bus with log := some { log with seq := log.seq + 1, events := log.events ++ [event], aborted := true } } .error
    refine ⟨begun, fun after there => ?_⟩
    obtain ⟨old, ⟨⟩, same⟩ := logs after there
    exact same
  · refine ⟨rfl, ?_⟩
    rintro after ⟨⟩
    exact ⟨rfl, rfl, rfl⟩

theorem Sound.publishToRunBus (sound : Sound state) (limits : BusLimits) (type : TurnEventType) (data : String)
    (failing : List Nat) : Sound (publishToRunBus limits type data failing state) := by
  unfold Streaming.publishToRunBus
  split
  · exact sound
  · next log event next =>
    obtain ⟨here, number, begun, logs⟩ := publish_log next
    obtain ⟨old, all, count⟩ := sound.retained log here
    have added (run : Nat) : publishedOf run (state.published ++ [(log.run, event)]) =
        publishedOf run state.published ++ if log.run = run then [event] else [] := by
      rw [publishedOf_append, publishedOf_one]
    have longer (run : Nat) {events : List BufferedRunEvent} (shorter : events <+: publishedOf run state.published) :
        events <+: publishedOf run (state.published ++ [(log.run, event)]) := by
      rw [added]
      exact shorter.trans (List.prefix_append ..)
    refine
      { numbered := fun run => ?_, future := fun run later => ?_, retained := fun after there => ?_,
        highest := sound.highest, seen := fun run => longer run (sound.seen run),
        asked := fun afterSeq asking => sound.asked afterSeq (write_requesting asking),
        coming := fun id parser unread reading => ?_ }
    · change (publishedOf run (state.published ++ [(log.run, event)])).map _ = List.range' 1
        (publishedOf run (state.published ++ [(log.run, event)])).length
      rw [added]
      split
      · next same =>
        subst same
        rw [List.map_append, List.length_append, sound.numbered, List.map_singleton, List.length_singleton,
          List.range'_concat, number, count, all, Nat.one_mul, Nat.add_comm 1]
      · rw [List.append_nil]
        exact sound.numbered run
    · change publishedOf run (state.published ++ [(log.run, event)]) = []
      have earlier : state.bus.begun ≤ run := begun ▸ later
      rw [added, if_neg (by omega), List.append_nil]
      exact sound.future run earlier
    · obtain ⟨run, events, seq⟩ := logs after there
      change after.run < (state.bus.publish limits type data).1.begun ∧
        after.events = publishedOf after.run (state.published ++ [(log.run, event)]) ∧ _
      rw [begun, run, added, if_pos rfl, events, seq, List.length_append, all]
      refine ⟨old, rfl, ?_⟩
      rw [count, all]
      rfl
    · obtain ⟨before, connection, rfl⟩ := write_reading reading
      have coming := sound.coming _ _ _ connection
      change Coming _ id ((if _ then _ else _ : List SseLine).foldl consumeLine (state.viewer, parser))
      by_cases written : writes state.subscribers failing id = true
      · obtain ⟨reset, whole⟩ := coming.whole (writes_of_failing written)
        generalize last : before.foldl consumeLine (state.viewer, parser) = client at coming reset whole
        obtain ⟨viewer, rest⟩ := client
        subst reset
        rw [if_pos written, List.foldl_append, last, eventFrame, consume_frame]
        have seen (run : Nat) := emitFrame_turn viewer log.run event run
        refine { known := coming.known, ahead := fun run => ?_, whole := fun _ => ⟨rfl, fun after there => ?_⟩ }
        · change _ <+: publishedOf run (state.published ++ [(log.run, event)])
          rw [seen, added]
          split
          · next same =>
            subst same
            simp only [whole log here, List.prefix_refl]
          · rw [List.append_nil, List.append_nil]
            exact coming.ahead run
        · obtain ⟨run, -⟩ := logs after there
          change _ = publishedOf after.run (state.published ++ [(log.run, event)])
          rw [run, seen, added, whole log here]
      · rw [if_neg written]
        exact
          { known := coming.known
            ahead := fun run => longer run (coming.ahead run)
            whole := fun kept => absurd ((writes_publishEvent ..).symm.trans kept) written }

theorem Sound.connect (sound : Sound state) (stepped : connect state = some after) :
    Sound after := by
  unfold Streaming.connect at stepped
  split at stepped
  · cases stepped
    refine { sound with asked := ?_, coming := ?_ }
    · rintro afterSeq ⟨⟩
      rfl
    · intro id parser unread none
      cases none
  · cases stepped

theorem Sound.drop (sound : Sound state) : Sound { state with connection := .idle } :=
  { sound with
    asked := fun _ none => nomatch none
    coming := fun _ _ _ none => nomatch none }

theorem Sound.receive (sound : Sound state) (stepped : receive state = some after) :
    Sound after := by
  unfold Streaming.receive at stepped
  split at stepped
  · next id parser line rest connection =>
    cases stepped
    have coming := sound.coming id parser (line :: rest) connection
    refine
      { sound with
        highest := Viewer.Highest.consumeLine sound.highest line
        seen := fun run => ?_
        asked := fun _ none => nomatch none
        coming := ?_ }
    · exact (seenOf_take (consumeAll_applied rest (consumeLine (state.viewer, parser) line)) run).trans
        (coming.ahead run)
    · rintro _ _ _ ⟨⟩
      exact { known := coming.known, ahead := coming.ahead, whole := coming.whole }
  · cases stepped

/-- What was seen of the retained run, and what is replayed after the last number, are all of its events. -/
theorem Sound.replay (sound : Sound state) (here : log ∈ state.bus.log) (resumes : Resumes state .addSubscriber) :
    seenOf log.run state.viewer.applied ++ state.bus.bufferedSince state.viewer.lastSeq =
      publishedOf log.run state.published := by
  obtain ⟨-, all, count⟩ := sound.retained log here
  have numbered := sound.numbered log.run
  rw [← all] at numbered ⊢
  have seen := sound.seen log.run
  rw [← all] at seen
  have replayed : state.bus.bufferedSince state.viewer.lastSeq = log.events.drop state.viewer.lastSeq := by
    rw [RunBus.bufferedSince, here]
    exact filter_after numbered _ (by omega)
  have reached : (seenOf log.run state.viewer.applied).length ≤ state.viewer.lastSeq := by
    rcases Nat.eq_zero_or_pos (seenOf log.run state.viewer.applied).length with none | some
    · omega
    · have listed : (seenOf log.run state.viewer.applied).length ∈
          (seenOf log.run state.viewer.applied).map BufferedRunEvent.seq := by
        rw [numbered_take numbered seen, List.mem_range'_1]
        omega
      obtain ⟨event, member, last⟩ := List.mem_map.mp listed
      exact last ▸ sound.highest.seenOf member
  rw [replayed]
  rcases resumes log here with behind | complete
  · have same : state.viewer.lastSeq = (seenOf log.run state.viewer.applied).length := by omega
    rw [same]
    obtain ⟨rest, rfl'⟩ := seen
    rw [← rfl', List.drop_left]
  · have whole : seenOf log.run state.viewer.applied = log.events :=
      seen.eq_of_length (Nat.le_antisymm seen.length_le (count ▸ complete))
    rw [List.drop_eq_nil_of_le (by rw [← whole]; exact reached), List.append_nil, whole]

theorem subscribed_read (viewer : Viewer) (bus : RunBus) :
    (subscribedFrame bus).foldl consumeLine (viewer, {}) = (viewer, {}) := by
  rw [subscribedFrame, consume_frame]
  rfl

theorem writes_new (subscribers : Subscribers) (opened id : Nat) :
    writes (subscribers.set opened {}) [] id = if id = opened then true else writes subscribers [] id := by
  rw [writes, OrderedMap.get?_set]
  split
  · rfl
  · rfl

theorem Sound.addSubscriber (sound : Sound state) (resumes : Resumes state .addSubscriber)
    (stepped : addSubscriber state = some after) : Sound after := by
  unfold Streaming.addSubscriber at stepped
  split at stepped
  · next afterSeq connection =>
    cases stepped
    have asked := sound.asked afterSeq connection
    subst asked
    refine { sound with asked := (fun _ none => nomatch none), coming := ?_ }
    rintro _ _ _ ⟨⟩
    rw [List.foldl_append, subscribed_read, replayFrames]
    cases here : state.bus.log with
    | none =>
        have nothing : state.bus.bufferedSince state.viewer.lastSeq = [] := by rw [RunBus.bufferedSince, here]
        rw [nothing]
        exact
          { known := Nat.lt_succ_self _
            ahead := sound.seen
            whole := fun _ => ⟨rfl, fun log there => nomatch here.symm.trans there⟩ }
    | some log =>
        obtain ⟨reset, seen⟩ :=
          And.intro (consume_replay log.run (state.bus.bufferedSince state.viewer.lastSeq) state.viewer 0).1
            fun run => (consume_replay log.run (state.bus.bufferedSince state.viewer.lastSeq) state.viewer run).2
        have whole := sound.replay here resumes
        refine
          { known := Nat.lt_succ_self _
            ahead := fun run => ?_
            whole := fun _ => ⟨reset, fun other there => ?_⟩ }
        · change seenOf run (((state.bus.bufferedSince state.viewer.lastSeq).flatMap (eventFrame log.run)).foldl
            consumeLine (state.viewer, {})).1.applied <+: _
          rw [seen]
          split
          · next same =>
            subst same
            simp only [whole, List.prefix_refl]
          · rw [List.append_nil]
            exact sound.seen run
        · cases here.symm.trans there
          exact (seen log.run).trans ((if_pos rfl : (if log.run = log.run then _ else _) = _) ▸ whole)
  · cases stepped

theorem Sound.step (sound : Sound state) {limits : BusLimits} {action : Action} (resumes : Resumes state action)
    (stepped : step limits state action = some after) : Sound after := by
  cases action with
  | begin =>
      obtain ⟨bus, began, rfl⟩ := Option.map_eq_some_iff.mp stepped
      exact sound.changeBus (follows_begin state.bus began)
  | publish type data failing =>
      cases stepped
      exact sound.publishToRunBus limits type data failing
  | endRun status =>
      rw [Streaming.step] at stepped
      split at stepped
      · cases stepped
      · cases stepped
        exact sound.changeBus (follows_endRun limits state.bus status)
  | cancel =>
      cases stepped
      exact sound.changeBus (follows_cancel limits state.bus)
  | evict expected =>
      cases stepped
      exact sound.changeBus (follows_evict state.bus expected)
  | collect =>
      cases stepped
      exact sound.changeBus (follows_collect state.bus)
  | reset =>
      cases stepped
      exact sound.changeBus (Follows.dropped state.bus)
  | connect => exact sound.connect stepped
  | addSubscriber => exact sound.addSubscriber resumes stepped
  | receive => exact sound.receive stepped
  | drop =>
      cases stepped
      exact sound.drop
  | addOther =>
      cases stepped
      apply sound.changeSubscribers (Nat.le_succ _)
      intro id known written
      rwa [writes_new, if_neg (by omega)] at written
  | removeSubscriber id =>
      cases stepped
      apply sound.changeSubscribers (Nat.le_refl _)
      intro other known written
      rw [writes, OrderedMap.get?_delete] at written
      split at written
      · cases written
      · exact written
  | heartbeat text failing =>
      cases stepped
      exact sound.heartbeat text failing
  | stop =>
      cases stepped
      apply sound.changeSubscribers (Nat.le_refl _)
      intro id known written
      cases written

end Steps

variable {limits : BusLimits}

theorem sound_of_reached {state : State} (reached : (ViewerSystem limits).ReachedBy Resumes state) :
    Sound state := by
  apply reached.invariant Sound
  · rintro _ rfl
    exact Sound.start
  · exact fun before action after sound resumes stepped => sound.step resumes stepped

theorem viewer_applies_once {state : State} (reached : (ViewerSystem limits).ReachedBy Resumes state) :
    AppliesOnce state := by
  have sound := sound_of_reached reached
  constructor
  · exact fun run => ⟨sound.seen run, numbered_take (sound.numbered run) (sound.seen run)⟩
  · intro id parser connection written log here
    exact ((sound.coming id parser [] connection).whole written).2 log here

/-- A turn streams two texts to a viewer, whose connection then drops. -/
def watchedTurn : List Action :=
  [.begin, .publish .textDelta "\"a\"" [], .publish .textDelta "\"b\"" [], .connect, .addSubscriber] ++
    List.replicate 11 .receive ++ [.drop]

/-- The turn goes on, and the viewer comes back. -/
def sameTurn : List Action :=
  watchedTurn ++ [.publish .textDelta "\"c\"" [], .connect, .addSubscriber] ++ List.replicate 7 .receive

theorem viewer_applies_once_again :
    ∃ state ∈ (ViewerSystem {}).run {} sameTurn,
      (seenOf 0 state.viewer.applied).map BufferedRunEvent.seq = [1, 2, 3] ∧ AppliesOnce state := by
  have ran : ((ViewerSystem {}).run {} sameTurn).any
      (fun state => (seenOf 0 state.viewer.applied).map BufferedRunEvent.seq = [1, 2, 3]) = true := by
    decide +kernel
  have meets : (ViewerSystem {}).Meets Resumes {} sameTurn := by decide +kernel
  obtain ⟨state, ran, seen⟩ := Option.any_eq_true .. |>.mp ran
  exact ⟨state, ran, of_decide_eq_true seen,
    viewer_applies_once ((System.ReachedBy.start {} rfl).run meets ran)⟩

/-- The turn ends, and another one begins before the viewer comes back. -/
def nextTurn : List Action :=
  watchedTurn ++
    [.endRun .done, .begin, .publish .textDelta "\"c\"" [], .publish .textDelta "\"d\"" [],
      .publish .textDelta "\"e\"" [], .connect, .addSubscriber] ++ List.replicate 7 .receive

theorem viewer_skips_events : ¬ ∀ state, (ViewerSystem {}).Reachable state → AppliesOnce state := by
  intro all
  have ran : ((ViewerSystem {}).run {} nextTurn).any
      (fun state => (seenOf 1 state.viewer.applied).map BufferedRunEvent.seq = [3]) = true := by decide +kernel
  obtain ⟨state, ran, seen⟩ := Option.any_eq_true .. |>.mp ran
  have skipped := of_decide_eq_true seen
  have numbered := ((all state (System.Reachable.run (System.ReachedBy.start {} rfl) ran)).1 1).2
  have one : (seenOf 1 state.viewer.applied).length = 1 := by
    rw [← List.length_map BufferedRunEvent.seq, skipped, List.length_singleton]
  rw [skipped, one] at numbered
  cases numbered

end NimbleBrain.Streaming
